import Mathlib.Data.Nat.Bitwise
import Mathlib.Tactic.Ring
import Mathlib.Order.Compare

/-!
# Big-endian byte strings as numbers

Byte strings of one length are compared byte by byte, combined by XOR byte by byte
and scanned for leading zero bits. Read as big-endian numbers these are numeric
comparison, XOR and the binary logarithm; read as bits from the left they are the
order at the first difference, XOR and the place of the first bit that is set.
-/
namespace ByteNumbers

/-- The big-endian value of a byte string. -/
def ofBytes : List UInt8 → Nat
  | [] => 0
  | b :: bs => 2 ^ (8 * bs.length) * b.toNat + ofBytes bs

def xorBytes (as bs : List UInt8) : List UInt8 := List.zipWith (· ^^^ ·) as bs

/-- Lexicographic comparison, as for arrays of bytes. -/
def cmpBytes : List UInt8 → List UInt8 → Ordering
  | [], [] => .eq
  | [], _ :: _ => .lt
  | _ :: _, [] => .gt
  | a :: as, b :: bs => (compare a b).then (cmpBytes as bs)

def leadingZeros (b : UInt8) : Nat := if b = 0 then 8 else 7 - b.toNat.log2

/-- Leading zero bits of a byte string; the scan stops at the first non-zero byte. -/
def countLeadingZeros : List UInt8 → Nat
  | [] => 0
  | b :: bs => if b = 0 then 8 + countLeadingZeros bs else leadingZeros b

theorem ofBytes_lt (bs : List UInt8) : ofBytes bs < 2 ^ (8 * bs.length) := by
  induction bs with
  | nil => exact Nat.one_pos
  | cons b bs ih =>
      have hb : b.toNat + 1 ≤ 2 ^ 8 := b.toNat_lt
      calc ofBytes (b :: bs) < 2 ^ (8 * bs.length) * b.toNat + 2 ^ (8 * bs.length) :=
            Nat.add_lt_add_left ih _
        _ = 2 ^ (8 * bs.length) * (b.toNat + 1) := by ring
        _ ≤ 2 ^ (8 * bs.length) * 2 ^ 8 := Nat.mul_le_mul_left _ hb
        _ = 2 ^ (8 * (b :: bs).length) := by rw [← Nat.pow_add, List.length_cons]; ring_nf

theorem length_xorBytes {as bs : List UInt8} (h : as.length = bs.length) :
    (xorBytes as bs).length = as.length := by
  simp only [xorBytes, List.length_zipWith, h, Nat.min_self]

theorem two_pow_mul_add_xor (x y : Nat) {a b m : Nat} (ha : a < 2 ^ m) (hb : b < 2 ^ m) :
    (2 ^ m * x + a) ^^^ (2 ^ m * y + b) = 2 ^ m * (x ^^^ y) + (a ^^^ b) := by
  apply Nat.eq_of_testBit_eq
  intro j
  rw [Nat.testBit_xor, Nat.testBit_two_pow_mul_add x ha, Nat.testBit_two_pow_mul_add y hb,
    Nat.testBit_two_pow_mul_add _ (Nat.xor_lt_two_pow ha hb)]
  split_ifs <;> simp only [Nat.testBit_xor]

theorem xor_le_add (x y : Nat) : x ^^^ y ≤ x + y := by
  induction x using Nat.strongRecOn generalizing y with
  | ind x ih =>
      rcases Nat.eq_zero_or_pos x with rfl | hpos
      · rw [Nat.zero_xor, Nat.zero_add]
      · -- halves and last bits; a carry only adds
        have hhalf : (x ^^^ y) / 2 ≤ x / 2 + y / 2 := by
          rw [Nat.xor_div_two]
          exact ih (x / 2) (Nat.div_lt_self hpos (by decide)) (y / 2)
        have hlast : (x ^^^ y) % 2 = (x + y) % 2 := Nat.xor_mod_two_eq
        omega

theorem ofBytes_xorBytes {as bs : List UInt8} (h : as.length = bs.length) :
    ofBytes (xorBytes as bs) = ofBytes as ^^^ ofBytes bs := by
  induction as generalizing bs with
  | nil => cases bs with
    | nil => rfl
    | cons b bs => cases h
  | cons a as ih => cases bs with
    | nil => cases h
    | cons b bs =>
        have hl : as.length = bs.length := Nat.succ.inj h
        have hbs : ofBytes bs < 2 ^ (8 * as.length) := hl ▸ ofBytes_lt bs
        change 2 ^ (8 * (xorBytes as bs).length) * (a ^^^ b).toNat + ofBytes (xorBytes as bs) =
          (2 ^ (8 * as.length) * a.toNat + ofBytes as) ^^^ (2 ^ (8 * bs.length) * b.toNat + ofBytes bs)
        rw [length_xorBytes hl, ih hl, UInt8.toNat_xor, ← hl,
          two_pow_mul_add_xor _ _ (ofBytes_lt as) hbs]

theorem compare_two_pow_mul_add {m x y a b : Nat} (ha : a < 2 ^ m) (hb : b < 2 ^ m) :
    compare (2 ^ m * x + a) (2 ^ m * y + b) = (compare x y).then (compare a b) := by
  rcases Nat.lt_trichotomy x y with h | rfl | h
  · have hs : 2 ^ m * x + 2 ^ m ≤ 2 ^ m * y := by
      rw [← Nat.mul_succ]; exact Nat.mul_le_mul_left _ h
    rw [Nat.compare_eq_lt.mpr h, Nat.compare_eq_lt.mpr (by omega)]
    rfl
  · rw [Nat.compare_eq_eq.mpr rfl, Ordering.eq_then]
    rcases Nat.lt_trichotomy a b with h | rfl | h
    · rw [Nat.compare_eq_lt.mpr h, Nat.compare_eq_lt.mpr (by omega)]
    · rw [Nat.compare_eq_eq.mpr rfl, Nat.compare_eq_eq.mpr rfl]
    · rw [Nat.compare_eq_gt.mpr h, Nat.compare_eq_gt.mpr (by omega)]
  · have hs : 2 ^ m * y + 2 ^ m ≤ 2 ^ m * x := by
      rw [← Nat.mul_succ]; exact Nat.mul_le_mul_left _ h
    rw [Nat.compare_eq_gt.mpr h, Nat.compare_eq_gt.mpr (by omega)]
    rfl

/-- On strings of one length the lexicographic order is the numeric one. -/
theorem cmpBytes_eq_compare {as bs : List UInt8} (h : as.length = bs.length) :
    cmpBytes as bs = compare (ofBytes as) (ofBytes bs) := by
  induction as generalizing bs with
  | nil => cases bs with
    | nil => rfl
    | cons b bs => cases h
  | cons a as ih => cases bs with
    | nil => cases h
    | cons b bs =>
        have hl : as.length = bs.length := Nat.succ.inj h
        have hbs : ofBytes bs < 2 ^ (8 * as.length) := hl ▸ ofBytes_lt bs
        have hab : compare a b = compare a.toNat b.toNat := by
          simp only [compare, compareOfLessAndEq, UInt8.lt_iff_toNat_lt, UInt8.toNat_inj]
        simp only [cmpBytes, ofBytes, ih hl, ← hl, hab]
        exact (compare_two_pow_mul_add (ofBytes_lt as) hbs).symm

theorem ofBytes_injective {as bs : List UInt8} (h : as.length = bs.length)
    (he : ofBytes as = ofBytes bs) : as = bs := by
  induction as generalizing bs with
  | nil => exact (List.length_eq_zero_iff.mp h.symm).symm
  | cons a as ih => cases bs with
    | nil => cases h
    | cons b bs =>
        have hl : as.length = bs.length := Nat.succ.inj h
        have ha := ofBytes_lt as
        have hb : ofBytes bs < 2 ^ (8 * as.length) := hl ▸ ofBytes_lt bs
        simp only [ofBytes, ← hl] at he
        have hc := compare_two_pow_mul_add (x := a.toNat) (y := b.toNat) ha hb
        rw [he, Nat.compare_eq_eq.mpr rfl] at hc
        obtain ⟨h1, h2⟩ := Ordering.then_eq_eq.mp hc.symm
        rw [UInt8.toNat_inj.mp (Nat.compare_eq_eq.mp h1), ih hl (Nat.compare_eq_eq.mp h2)]

/-- Every number of the size of a byte string is one's value. -/
theorem exists_ofBytes_eq (len : Nat) {n : Nat} (h : n < 2 ^ (8 * len)) :
    ∃ bs, bs.length = len ∧ ofBytes bs = n := by
  induction len generalizing n with
  | zero => exact ⟨[], rfl, (Nat.lt_one_iff.mp h).symm⟩
  | succ len ih =>
      obtain ⟨bs, hlen, hbs⟩ := ih (Nat.mod_lt n (Nat.two_pow_pos (8 * len)))
      have hhead : n / 2 ^ (8 * len) < 256 := by
        refine Nat.div_lt_of_lt_mul (h.trans_eq ?_)
        rw [Nat.mul_succ, Nat.pow_add]
      refine ⟨UInt8.ofNat (n / 2 ^ (8 * len)) :: bs, by rw [List.length_cons, hlen], ?_⟩
      rw [ofBytes, UInt8.toNat_ofNat_of_lt' hhead, hlen, hbs]
      exact Nat.div_add_mod n _

theorem countLeadingZeros_eq (bs : List UInt8) :
    countLeadingZeros bs =
      if ofBytes bs = 0 then 8 * bs.length else 8 * bs.length - 1 - (ofBytes bs).log2 := by
  induction bs with
  | nil => rfl
  | cons b bs ih =>
      have hlt := ofBytes_lt bs
      by_cases hb : b = 0
      · subst hb
        have he : ofBytes (0 :: bs) = ofBytes bs := by simp [ofBytes]
        simp only [countLeadingZeros, if_true, he, ih, List.length_cons]
        split_ifs with h0
        · omega
        · have := (Nat.log2_lt h0).mpr hlt
          omega
      · have hb0 : b.toNat ≠ 0 := fun h => hb (UInt8.toNat_inj.mp h)
        have hpos : 2 ^ (8 * bs.length) * b.toNat ≠ 0 :=
          Nat.mul_ne_zero (Nat.pow_pos (by decide)).ne' hb0
        have hne : ofBytes (b :: bs) ≠ 0 := by
          simp only [ofBytes]; omega
        have hlog : (ofBytes (b :: bs)).log2 = 8 * bs.length + b.toNat.log2 := by
          have h1 := Nat.log2_self_le hb0
          have h2 := (Nat.log2_lt hb0).mp (Nat.lt_succ_self b.toNat.log2)
          apply (Nat.log2_eq_iff hne).mpr
          simp only [ofBytes]
          constructor
          · rw [Nat.pow_add]
            exact (Nat.mul_le_mul_left _ h1).trans (Nat.le_add_right _ _)
          · calc 2 ^ (8 * bs.length) * b.toNat + ofBytes bs
                < 2 ^ (8 * bs.length) * b.toNat + 2 ^ (8 * bs.length) := Nat.add_lt_add_left hlt _
              _ = 2 ^ (8 * bs.length) * (b.toNat + 1) := by ring
              _ ≤ 2 ^ (8 * bs.length) * 2 ^ (b.toNat.log2 + 1) := Nat.mul_le_mul_left _ h2
              _ = 2 ^ (8 * bs.length + b.toNat.log2 + 1) := by rw [← Nat.pow_add]; rfl
        have h8 : b.toNat.log2 < 8 := (Nat.log2_lt hb0).mpr b.toNat_lt
        simp only [countLeadingZeros, if_neg hb, leadingZeros, if_neg hne, hlog, List.length_cons]
        omega

/-- Bit `j` of a byte string, counted from the left. -/
def bit (bs : List UInt8) (j : Nat) : Bool := (bs.getD (j / 8) 0).toNat.testBit (7 - j % 8)

theorem bit_cons_of_lt (b : UInt8) (bs : List UInt8) {j : Nat} (hj : j < 8) :
    bit (b :: bs) j = b.toNat.testBit (7 - j) := by
  rw [bit, Nat.div_eq_of_lt hj, Nat.mod_eq_of_lt hj, List.getD_cons_zero]

theorem bit_cons_add (b : UInt8) (bs : List UInt8) (j : Nat) : bit (b :: bs) (8 + j) = bit bs j := by
  rw [bit, Nat.add_div_left j (by decide), Nat.add_mod_left, List.getD_cons_succ, bit]

theorem testBit_ofBytes {bs : List UInt8} {j : Nat} (hj : j < 8 * bs.length) :
    (ofBytes bs).testBit (8 * bs.length - 1 - j) = bit bs j := by
  induction bs generalizing j with
  | nil => exact absurd hj (Nat.not_lt_zero j)
  | cons b bs ih =>
      rw [List.length_cons, ofBytes, Nat.testBit_two_pow_mul_add b.toNat (ofBytes_lt bs)]
      rw [List.length_cons] at hj
      rcases Nat.lt_or_ge j 8 with h8 | h8
      · rw [if_neg (by omega), bit_cons_of_lt b bs h8]
        congr 1
        omega
      · obtain ⟨i, rfl⟩ := Nat.exists_eq_add_of_le h8
        rw [if_pos (by omega), bit_cons_add, ← ih (by omega)]
        congr 1
        omega

theorem testBit_ofBytes_of_lt {bs : List UInt8} {p : Nat} (hp : p < 8 * bs.length) :
    (ofBytes bs).testBit p = bit bs (8 * bs.length - 1 - p) := by
  rw [← testBit_ofBytes (by omega)]
  congr 1
  omega

/-- Equal bits make equal strings. -/
theorem eq_of_bit_eq {as bs : List UInt8} (h : as.length = bs.length)
    (hbit : ∀ j < 8 * as.length, bit as j = bit bs j) : as = bs := by
  refine ofBytes_injective h (Nat.eq_of_testBit_eq fun p => ?_)
  rcases Nat.lt_or_ge p (8 * as.length) with hp | hp
  · rw [testBit_ofBytes_of_lt hp, testBit_ofBytes_of_lt (h ▸ hp), ← h]
    exact hbit _ (by omega)
  · have hpow : 2 ^ (8 * as.length) ≤ 2 ^ p := Nat.pow_le_pow_right (by decide) hp
    rw [Nat.testBit_lt_two_pow ((ofBytes_lt as).trans_le hpow),
      Nat.testBit_lt_two_pow ((ofBytes_lt bs).trans_le (h ▸ hpow))]

theorem bit_xorBytes {as bs : List UInt8} (h : as.length = bs.length) {j : Nat} (hj : j < 8 * as.length) :
    bit (xorBytes as bs) j = (bit as j ^^ bit bs j) := by
  have hx : j < 8 * (xorBytes as bs).length := by rwa [length_xorBytes h]
  rw [← testBit_ofBytes hx, ofBytes_xorBytes h, length_xorBytes h, Nat.testBit_xor, testBit_ofBytes hj, h,
    testBit_ofBytes (h ▸ hj)]

/-- The leading zeros say between which powers of two the number lies. -/
theorem countLeadingZeros_eq_iff {bs : List UInt8} {n : Nat} (hn : n < 8 * bs.length) :
    countLeadingZeros bs = n ↔
      2 ^ (8 * bs.length - 1 - n) ≤ ofBytes bs ∧ ofBytes bs < 2 ^ (8 * bs.length - 1 - n + 1) := by
  rw [countLeadingZeros_eq]
  split_ifs with h0
  · rw [h0]
    exact ⟨fun h => by omega, fun h => absurd h.1 (Nat.not_le_of_lt (Nat.two_pow_pos _))⟩
  · rw [← Nat.log2_eq_iff h0]
    have hlog : (ofBytes bs).log2 < 8 * bs.length := (Nat.log2_lt h0).mpr (ofBytes_lt bs)
    omega

/-- The scan counts up to the first bit that is set. -/
theorem countLeadingZeros_eq_iff_bit {bs : List UInt8} {n : Nat} (hn : n < 8 * bs.length) :
    countLeadingZeros bs = n ↔ bit bs n = true ∧ ∀ j < n, bit bs j = false := by
  rw [countLeadingZeros_eq_iff hn, ← testBit_ofBytes hn]
  constructor
  · rintro ⟨hle, hlt⟩
    refine ⟨?_, fun j hj => ?_⟩
    · rw [Nat.testBit_eq_decide_div_mod_eq]
      have hdiv : ofBytes bs / 2 ^ (8 * bs.length - 1 - n) = 1 :=
        Nat.div_eq_of_lt_le (by omega) (by rw [Nat.pow_succ] at hlt; omega)
      rw [hdiv]
      rfl
    · rw [← testBit_ofBytes (hj.trans hn)]
      exact Nat.testBit_lt_two_pow (hlt.trans_le (Nat.pow_le_pow_right (by decide) (by omega)))
  · rintro ⟨hbit, habove⟩
    refine ⟨Nat.ge_two_pow_of_testBit hbit, Nat.lt_pow_two_of_testBit _ fun p hp => ?_⟩
    rcases Nat.lt_or_ge p (8 * bs.length) with hp' | hp'
    · rw [testBit_ofBytes_of_lt hp']
      exact habove _ (by omega)
    · exact Nat.testBit_lt_two_pow ((ofBytes_lt bs).trans_le (Nat.pow_le_pow_right (by decide) hp'))

end ByteNumbers
