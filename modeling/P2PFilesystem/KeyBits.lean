import P2PFilesystem.Key

/-!
# Keys with a given number of equal leading bits

`Key::make_exactly_n_same_leading_bits_as`: whole bytes are copied from the other key, then the
leading bits of one more byte, and the bit behind them is made the opposite one.
-/
namespace P2PFilesystem
open ByteNumbers

theorem testBit_and (a b : UInt8) (p : Nat) : (a &&& b).toNat.testBit p = (a.toNat.testBit p && b.toNat.testBit p) := by
  rw [UInt8.toNat_and, Nat.testBit_and]

theorem testBit_or (a b : UInt8) (p : Nat) : (a ||| b).toNat.testBit p = (a.toNat.testBit p || b.toNat.testBit p) := by
  rw [UInt8.toNat_or, Nat.testBit_or]

theorem testBit_not (a : UInt8) {p : Nat} (hp : p < 8) : (~~~a).toNat.testBit p = !a.toNat.testBit p := by
  rw [← UInt8.toNat_toBitVec, ← UInt8.toNat_toBitVec, BitVec.testBit_toNat, BitVec.testBit_toNat, UInt8.toBitVec_not,
    BitVec.getLsbD_not, decide_eq_true hp, Bool.true_and]

/-- The mask of the leading bits, as the loop builds it. -/
def leadingMask (nBits : Nat) : UInt8 :=
  (List.range nBits).foldl (fun mask bitI => mask ||| (1 <<< UInt8.ofNat (7 - bitI))) 0

/-- The mask of one bit, counted from the left. -/
def bitMask (offset : Nat) : UInt8 := 1 <<< UInt8.ofNat (7 - offset)

theorem testBit_leadingMask {n p : Nat} (hn : n < 8) (hp : p < 8) :
    (leadingMask n).toNat.testBit p = decide (8 ≤ p + n) := by
  have h : ∀ n p : Fin 8, (leadingMask n).toNat.testBit p = decide (8 ≤ (p : Nat) + n) := by decide
  exact h ⟨n, hn⟩ ⟨p, hp⟩

theorem testBit_bitMask {n p : Nat} (hn : n < 8) (hp : p < 8) : (bitMask n).toNat.testBit p = decide (p + n = 7) := by
  have h : ∀ n p : Fin 8, (bitMask n).toNat.testBit p = decide ((p : Nat) + n = 7) := by decide
  exact h ⟨n, hn⟩ ⟨p, hp⟩

def copyLeadingBits (nBits : Nat) (yourByte myByte : UInt8) : UInt8 :=
  leadingMask nBits &&& yourByte ||| myByte &&& ~~~leadingMask nBits

def oppositeBit (offset : Nat) (yourByte myByte : UInt8) : UInt8 :=
  bitMask offset &&& ~~~yourByte ||| myByte &&& ~~~bitMask offset

/-- Where the mask has a bit the first byte counts, elsewhere the second. -/
theorem testBit_masked (mask a b : UInt8) {p : Nat} (hp : p < 8) : (mask &&& a ||| b &&& ~~~mask).toNat.testBit p =
    if mask.toNat.testBit p then a.toNat.testBit p else b.toNat.testBit p := by
  rw [testBit_or, testBit_and, testBit_and, testBit_not _ hp]
  cases mask.toNat.testBit p with
  | true => simp
  | false => simp

theorem testBit_copyLeadingBits {n p : Nat} (hn : n < 8) (hp : p < 8) (your my : UInt8) :
    (copyLeadingBits n your my).toNat.testBit p = if 8 ≤ p + n then your.toNat.testBit p else my.toNat.testBit p := by
  unfold copyLeadingBits
  rw [testBit_masked _ _ _ hp, testBit_leadingMask hn hp]
  exact if_congr decide_eq_true_iff rfl rfl

theorem testBit_oppositeBit {n p : Nat} (hn : n < 8) (hp : p < 8) (your my : UInt8) :
    (oppositeBit n your my).toNat.testBit p = if p + n = 7 then !your.toNat.testBit p else my.toNat.testBit p := by
  unfold oppositeBit
  rw [testBit_masked _ _ _ hp, testBit_bitMask hn hp, testBit_not _ hp]
  exact if_congr decide_eq_true_iff rfl rfl

namespace KeyValue

def byte (self : KeyValue) (i : Nat) : UInt8 := self.bytes.getD i 0

def set (self : KeyValue) (i : Nat) (b : UInt8) : KeyValue :=
  ⟨self.bytes.set i b, by rw [List.length_set, self.length_bytes]⟩

theorem getElem?_bytes (self : KeyValue) {i : Nat} (hi : i < K) : self.bytes[i]? = some (self.byte i) := by
  have hlt : i < self.bytes.length := hi.trans_eq self.length_bytes.symm
  rw [byte, List.getD_eq_getElem?_getD, List.getElem?_eq_getElem hlt, Option.getD_some]

theorem byte_set (self : KeyValue) {i : Nat} (hi : i < K) (b : UInt8) (j : Nat) :
    (self.set i b).byte j = if j = i then b else self.byte j := by
  have hlt : i < self.bytes.length := hi.trans_eq self.length_bytes.symm
  rw [byte, set, List.getD_eq_getElem?_getD, List.getElem?_set]
  split_ifs with h h' h'
  · rfl
  · exact absurd h.symm h'
  · exact absurd h'.symm h
  · rw [byte, List.getD_eq_getElem?_getD]

end KeyValue

/-- The loop's variables. -/
structure BitCopy where
  value : KeyValue
  byteI : Nat
  nBits : Nat
  deriving DecidableEq

/-- One pass of the loop; an index beyond the arrays is a panic, and so is a failing assertion. -/
def BitCopy.pass (key : Key) (s : BitCopy) : Option BitCopy :=
  match s.value.bytes[s.byteI]?, key.value.bytes[s.byteI]? with
  | some myByte, some yourByte =>
      if s.nBits ≥ 8 then some ⟨s.value.set s.byteI yourByte, s.byteI + 1, s.nBits - 8⟩
      else
        let value := s.value.set s.byteI (copyLeadingBits s.nBits yourByte myByte)
        if s.nBits < 8 then some { s with value := value } else none
  | _, _ => none

def BitCopy.passes (key : Key) : Nat → BitCopy → Option BitCopy
  | 0, s => some s
  | n+1, s => match s.pass key with
      | none => none
      | some s => passes key n s

/-- `none` where an assertion or an access to an array fails. -/
def Key.makeExactlyNSameLeadingBitsAs (self key : Key) (nBits : Nat) : Option Key :=
  match BitCopy.passes key K ⟨self.value, 0, nBits⟩ with
  | none => none
  | some s =>
      if s.byteI < K then
        if s.nBits ≤ 7 then
          match s.value.bytes[s.byteI]?, key.value.bytes[s.byteI]? with
          | some myByte, some yourByte => some ⟨s.value.set s.byteI (oppositeBit s.nBits yourByte myByte)⟩
          | _, _ => none
        else none
      else some ⟨s.value⟩

/-- After a number of passes: whole bytes come first, then passes over the byte behind them. -/
structure BitCopy.After (self key : Key) (n passes : Nat) (s : BitCopy) : Prop where
  byteI_eq : s.byteI = min passes (n / 8)
  nBits_eq : s.nBits = n - 8 * s.byteI
  byte_eq : ∀ i < K, s.value.byte i =
    if i < s.byteI then key.value.byte i
    else if i = n / 8 ∧ i < passes then copyLeadingBits (n % 8) (key.value.byte i) (self.value.byte i)
    else self.value.byte i

theorem copyLeadingBits_idem {n : Nat} (hn : n < 8) (your my : UInt8) :
    copyLeadingBits n your (copyLeadingBits n your my) = copyLeadingBits n your my := by
  refine UInt8.toNat_inj.mp (Nat.eq_of_testBit_eq fun p => ?_)
  by_cases hp : p < 8
  · rw [testBit_copyLeadingBits hn hp, testBit_copyLeadingBits hn hp]
    split_ifs <;> rfl
  · have hbig : ∀ b : UInt8, b.toNat.testBit p = false := fun b =>
      Nat.testBit_lt_two_pow (b.toNat_lt.trans_le (Nat.pow_le_pow_right (by decide) (Nat.le_of_not_lt hp)))
    rw [hbig, hbig]

theorem BitCopy.After.next {self key : Key} {n passes : Nat} {s : BitCopy} (h : After self key n passes s)
    (hpasses : passes < K) : ∃ t, s.pass key = some t ∧ After self key n (passes + 1) t := by
  obtain ⟨hbyte, hbits, hvalue⟩ := h
  have hlt : s.byteI < K := by omega
  unfold BitCopy.pass
  rw [s.value.getElem?_bytes hlt, key.value.getElem?_bytes hlt]
  dsimp only
  by_cases h8 : s.nBits ≥ 8
  · rw [if_pos h8]
    refine ⟨_, rfl, by dsimp only; omega, by dsimp only; omega, fun i hi => ?_⟩
    dsimp only
    rw [KeyValue.byte_set _ hlt, hvalue i hi]
    by_cases heq : i = s.byteI
    · rw [if_pos heq, if_pos (by omega), heq]
    · rw [if_neg heq]
      refine if_congr (by omega) rfl (if_congr (by omega) rfl rfl)
  · rw [if_neg h8, if_pos (Nat.lt_of_not_le h8)]
    have hwhole : s.byteI = n / 8 := by omega
    have hrest : s.nBits = n % 8 := by omega
    refine ⟨_, rfl, by dsimp only; omega, hbits, fun i hi => ?_⟩
    dsimp only
    rw [KeyValue.byte_set _ hlt, hvalue i hi]
    by_cases heq : i = s.byteI
    · -- the byte may have been passed before
      rw [if_pos heq, if_neg (by omega), if_pos (by omega), hrest, hvalue _ hlt, if_neg (Nat.lt_irrefl _), ← heq]
      split_ifs
      · exact copyLeadingBits_idem (Nat.mod_lt n (by decide)) _ _
      · rfl
    · rw [if_neg heq]
      exact if_congr Iff.rfl rfl (if_congr (by omega) rfl rfl)

theorem BitCopy.After.passes {self key : Key} {n passes more : Nat} {s : BitCopy} (h : After self key n passes s)
    (hpasses : passes + more ≤ K) : ∃ t, s.passes key more = some t ∧ After self key n (passes + more) t := by
  induction more generalizing passes s with
  | zero => exact ⟨s, rfl, h⟩
  | succ more ih =>
      obtain ⟨next, hpass, hnext⟩ := h.next (by omega)
      obtain ⟨t, hrest, ht⟩ := ih hnext (by omega)
      refine ⟨t, ?_, Nat.succ_add_eq_add_succ passes more ▸ ht⟩
      rw [BitCopy.passes, hpass]
      exact hrest

/-- What is made, byte by byte. -/
theorem Key.makeExactlyNSameLeadingBitsAs_eq (self key : Key) (n : Nat) :
    ∃ made, self.makeExactlyNSameLeadingBitsAs key n = some made ∧ ∀ i < K, made.value.byte i =
      if i < n / 8 then key.value.byte i
      else if i = n / 8 then
        oppositeBit (n % 8) (key.value.byte i) (copyLeadingBits (n % 8) (key.value.byte i) (self.value.byte i))
      else self.value.byte i := by
  have hstart : BitCopy.After self key n 0 ⟨self.value, 0, n⟩ :=
    ⟨(Nat.zero_min _).symm, rfl, fun i _ => by rw [if_neg (Nat.not_lt_zero i), if_neg fun h => Nat.not_lt_zero i h.2]⟩
  obtain ⟨s, hpasses, hbyte, hbits, hvalue⟩ := hstart.passes (by omega : 0 + K ≤ K)
  unfold Key.makeExactlyNSameLeadingBitsAs
  rw [hpasses]
  dsimp only
  by_cases hlt : s.byteI < K
  · have hwhole : s.byteI = n / 8 := by omega
    have hrest : s.nBits = n % 8 := by omega
    rw [if_pos hlt, if_pos (by omega), s.value.getElem?_bytes hlt, key.value.getElem?_bytes hlt]
    refine ⟨_, rfl, fun i hi => ?_⟩
    dsimp only
    rw [KeyValue.byte_set _ hlt, hvalue i hi, hwhole, hrest]
    by_cases heq : i = n / 8
    · have hboth : n / 8 = n / 8 ∧ n / 8 < 0 + K := ⟨rfl, by omega⟩
      rw [if_pos heq, if_neg (by omega), if_pos heq, heq, hvalue _ (heq ▸ hi), if_neg (by omega), if_pos hboth]
    · rw [if_neg heq]
      exact if_congr Iff.rfl rfl (by rw [if_neg fun h => heq h.1, if_neg heq])
  · rw [if_neg hlt]
    refine ⟨_, rfl, fun i hi => ?_⟩
    rw [hvalue i hi, if_pos (by omega), if_pos (by omega)]

/-- Bit `j` of a key, counted from the left. -/
def Key.bit (self : Key) (j : Nat) : Bool := ByteNumbers.bit self.value.bytes j

theorem Key.ext_bit {a b : Key} (h : ∀ j < 8 * K, a.bit j = b.bit j) : a = b := by
  refine ext_bytes (eq_of_bit_eq (a.value.length_bytes.trans b.value.length_bytes.symm) fun j hj => h j ?_)
  rwa [a.value.length_bytes] at hj

/-- The leading zeros count the bits before the first one in which the keys differ. -/
theorem Key.leadingZerosInDistance_eq_iff {a b : Key} {n : Nat} (hn : n < 8 * K) :
    a.leadingZerosInDistance b = n ↔ a.bit n ≠ b.bit n ∧ ∀ j < n, a.bit j = b.bit j := by
  have hbit : ∀ j < 8 * K, ByteNumbers.bit (a.distance b).bytes j = (a.bit j ^^ b.bit j) := fun j hj =>
    bit_xorBytes (a.value.length_bytes.trans b.value.length_bytes.symm) (by rwa [a.value.length_bytes])
  rw [leadingZerosInDistance, countLeadingZeros_eq_iff_bit (by rwa [(a.distance b).length_bytes]), hbit n hn,
    Bool.xor_iff_ne]
  refine and_congr_right fun _ => forall₂_congr fun j hj => ?_
  rw [hbit j (hj.trans hn)]
  exact bne_eq_false_iff_eq

/-- What is made, bit by bit: one's bits, then the opposite of one bit, then the other's. -/
theorem Key.bit_made {self key made : Key} {n j : Nat} (h : self.makeExactlyNSameLeadingBitsAs key n = some made)
    (hj : j < 8 * K) : made.bit j = if j < n then key.bit j else if j = n then !key.bit j else self.bit j := by
  obtain ⟨made', hmade, hbytes⟩ := self.makeExactlyNSameLeadingBitsAs_eq key n
  cases h.symm.trans hmade
  have hr : n % 8 < 8 := Nat.mod_lt n (by decide)
  have hp : 7 - j % 8 < 8 := by omega
  change (made.value.byte (j / 8)).toNat.testBit (7 - j % 8) = _
  rw [hbytes _ (by omega)]
  by_cases hlt : j / 8 < n / 8
  · rw [if_pos hlt, if_pos (by omega)]
    rfl
  · by_cases heq : j / 8 = n / 8
    · -- the byte of the opposite bit
      rw [if_neg hlt, if_pos heq, testBit_oppositeBit hr hp, testBit_copyLeadingBits hr hp]
      rcases Nat.lt_trichotomy j n with hjn | hjn | hjn
      · rw [if_neg (by omega), if_pos (by omega), if_pos hjn]
        rfl
      · rw [if_pos (by omega), if_neg (by omega), if_pos hjn]
        rfl
      · rw [if_neg (by omega), if_neg (by omega), if_neg (by omega), if_neg (by omega)]
        rfl
    · rw [if_neg hlt, if_neg heq, if_neg (by omega), if_neg (by omega)]
      rfl

/-- The two keys differ first in the bit behind the equal ones. -/
theorem Key.leadingZerosInDistance_made {self key made : Key} {n : Nat} (hn : n < 8 * K)
    (h : self.makeExactlyNSameLeadingBitsAs key n = some made) : key.leadingZerosInDistance made = n := by
  refine (leadingZerosInDistance_eq_iff hn).mpr ⟨?_, fun j hj => ?_⟩
  · rw [bit_made h hn, if_neg (Nat.lt_irrefl n), if_pos rfl]
    exact (Bool.not_ne_self (key.bit n)).symm
  · rw [bit_made h (hj.trans hn), if_pos hj]

end P2PFilesystem
