import Mathlib.Data.List.Basic

/-!
# UTF-8 and hexadecimal text

Strings are character lists. A hexadecimal decoder looks at the bytes of a string, two at a
time, and takes digits of either case; the encoder writes lower case. What any such decoder
does is fixed by the texts it accepts and the bytes it makes of them.
-/
namespace TextCodec

def utf8 (s : List Char) : List UInt8 := s.flatMap String.utf8EncodeChar

def fromUtf8 (bytes : List UInt8) : Option (List Char) := bytes.toByteArray.utf8Decode?.map Array.toList

theorem fromUtf8_utf8 (s : List Char) : fromUtf8 (utf8 s) = some s := by
  change s.utf8Encode.utf8Decode?.map Array.toList = some s
  simp

inductive FromHexError where
  | oddLength
  | invalidHexCharacter (c : UInt8) (index : Nat)
  deriving DecidableEq

def digitValue (c : UInt8) : Option Nat :=
  if 65 ≤ c ∧ c ≤ 70 then some (c.toNat - 65 + 10)
  else if 97 ≤ c ∧ c ≤ 102 then some (c.toNat - 97 + 10)
  else if 48 ≤ c ∧ c ≤ 57 then some (c.toNat - 48)
  else none

/-- The digit at an index of the string. -/
def hexVal (c : UInt8) (index : Nat) : Except FromHexError Nat :=
  match digitValue c with
  | some d => .ok d
  | none => .error (.invalidHexCharacter c index)

def hexPairs : Nat → List UInt8 → Except FromHexError (List UInt8)
  | index, a :: b :: rest => do
      let high ← hexVal a index
      let low ← hexVal b (index + 1)
      let bytes ← hexPairs (index + 2) rest
      return UInt8.ofNat (16 * high + low) :: bytes
  | _, _ => .ok []

/-- `hex::decode`. -/
def hexDecode (s : List Char) : Except FromHexError (List UInt8) :=
  if (utf8 s).length % 2 ≠ 0 then .error .oddLength else hexPairs 0 (utf8 s)

/-- `hex::encode`. -/
def hexEncode (bytes : List UInt8) : List Char :=
  bytes.flatMap fun b => [Nat.digitChar (b.toNat / 16), Nat.digitChar (b.toNat % 16)]

/-- The ASCII digits, of either case. -/
def HexDigit (c : UInt8) : Prop := 48 ≤ c ∧ c ≤ 57 ∨ 65 ≤ c ∧ c ≤ 70 ∨ 97 ≤ c ∧ c ≤ 102

instance (c : UInt8) : Decidable (HexDigit c) := inferInstanceAs (Decidable (_ ∨ _))

/-- The digit as the encoder writes it. -/
def lowerDigit (c : UInt8) : Char := Nat.digitChar ((digitValue c).getD 0)

/-- The bytes that digits stand for, two digits a byte. -/
def bytesOfDigits : List UInt8 → List UInt8
  | [] => []
  | [_] => []
  | high :: low :: rest =>
      UInt8.ofNat (16 * (digitValue high).getD 0 + (digitValue low).getD 0) :: bytesOfDigits rest

/-- Digits only, and two for each byte. -/
structure HexText (s : List Char) : Prop where
  even : (utf8 s).length % 2 = 0
  digits : ∀ c ∈ utf8 s, HexDigit c

/-- What a decoder does: digits become their bytes, every other text is refused. -/
structure DecodesHex (decode : List Char → Except FromHexError (List UInt8)) : Prop where
  accepts : ∀ s, HexText s → decode s = .ok (bytesOfDigits (utf8 s))
  rejects : ∀ s, ¬ HexText s → ∃ e, decode s = .error e

/-- The byte of a digit. -/
def digitByte (d : Nat) : UInt8 := UInt8.ofNat (Nat.digitChar d).toNat

theorem utf8EncodeChar_digitChar {d : Nat} (h : d < 16) : String.utf8EncodeChar (Nat.digitChar d) = [digitByte d] := by
  revert d
  decide

theorem digitValue_digitByte {d : Nat} (h : d < 16) : digitValue (digitByte d) = some d := by
  revert d
  decide

theorem utf8_hexEncode_cons (b : UInt8) (bytes : List UInt8) : utf8 (hexEncode (b :: bytes)) =
    digitByte (b.toNat / 16) :: digitByte (b.toNat % 16) :: utf8 (hexEncode bytes) := by
  have hb := b.toNat_lt
  unfold utf8 hexEncode
  simp only [List.flatMap_cons, List.cons_append, List.nil_append, utf8EncodeChar_digitChar (show b.toNat / 16 < 16 by omega),
    utf8EncodeChar_digitChar (show b.toNat % 16 < 16 by omega)]

theorem length_utf8_hexEncode (bytes : List UInt8) : (utf8 (hexEncode bytes)).length = 2 * bytes.length := by
  induction bytes with
  | nil => rfl
  | cons b bytes ih =>
      rw [utf8_hexEncode_cons]
      simp only [List.length_cons, ih]
      omega

theorem hexPairs_hexEncode (bytes : List UInt8) (index : Nat) :
    hexPairs index (utf8 (hexEncode bytes)) = .ok bytes := by
  induction bytes generalizing index with
  | nil => rfl
  | cons b bytes ih =>
      have hb := b.toNat_lt
      have hhigh : hexVal (digitByte (b.toNat / 16)) index = .ok (b.toNat / 16) := by
        simp [hexVal, digitValue_digitByte (show b.toNat / 16 < 16 by omega)]
      have hlow : hexVal (digitByte (b.toNat % 16)) (index + 1) = .ok (b.toNat % 16) := by
        simp [hexVal, digitValue_digitByte (show b.toNat % 16 < 16 by omega)]
      have hbyte : UInt8.ofNat (16 * (b.toNat / 16) + b.toNat % 16) = b := by
        rw [Nat.div_add_mod]
        simp
      rw [utf8_hexEncode_cons, hexPairs, hhigh, hlow, ih]
      simp only [Except.bind, bind, pure, Except.pure, hbyte]

theorem hexDecode_hexEncode (bytes : List UInt8) : hexDecode (hexEncode bytes) = .ok bytes := by
  have heven : ¬ (utf8 (hexEncode bytes)).length % 2 ≠ 0 := by
    rw [length_utf8_hexEncode]
    omega
  rw [hexDecode, if_neg heven]
  exact hexPairs_hexEncode bytes 0

theorem digitValue_of_hexDigit {c : UInt8} (h : HexDigit c) : ∃ d < 16, digitValue c = some d := by
  have hall : ∀ n : Fin 256, HexDigit (UInt8.ofNat n) → ∃ d < 16, digitValue (UInt8.ofNat n) = some d := by
    decide +kernel
  have hc := hall ⟨c.toNat, c.toNat_lt⟩
  rw [UInt8.ofNat_toNat] at hc
  exact hc h

theorem digitValue_eq_none {c : UInt8} (h : ¬ HexDigit c) : digitValue c = none := by
  unfold HexDigit at h
  unfold digitValue
  rw [if_neg fun h' => h (.inr (.inl h')), if_neg fun h' => h (.inr (.inr h')), if_neg fun h' => h (.inl h')]

theorem hexVal_eq (c : UInt8) (index : Nat) : hexVal c index =
    if HexDigit c then .ok ((digitValue c).getD 0) else .error (.invalidHexCharacter c index) := by
  unfold hexVal
  split_ifs with h
  · obtain ⟨d, -, hd⟩ := digitValue_of_hexDigit h
    rw [hd]
    rfl
  · rw [digitValue_eq_none h]

theorem hexPairs_of_digits {bs : List UInt8} (h : ∀ c ∈ bs, HexDigit c) (index : Nat) :
    hexPairs index bs = .ok (bytesOfDigits bs) := by
  induction bs using bytesOfDigits.induct generalizing index with
  | case1 => rfl
  | case2 c => rfl
  | case3 high low rest ih =>
      obtain ⟨hhigh, hlow, hrest⟩ := List.forall_mem_cons.mp h |>.imp_right List.forall_mem_cons.mp
      rw [hexPairs, hexVal_eq, if_pos hhigh, hexVal_eq, if_pos hlow, ih hrest]
      rfl

/-- The first byte that is no digit stops the decoder. -/
theorem hexPairs_error {bs : List UInt8} (heven : bs.length % 2 = 0) (h : ¬ ∀ c ∈ bs, HexDigit c) (index : Nat) :
    ∃ e, hexPairs index bs = .error e := by
  induction bs using bytesOfDigits.induct generalizing index with
  | case1 => exact absurd (List.forall_mem_nil HexDigit) h
  | case2 c => cases heven
  | case3 high low rest ih =>
      rw [hexPairs, hexVal_eq]
      by_cases hhigh : HexDigit high
      · rw [if_pos hhigh, hexVal_eq]
        by_cases hlow : HexDigit low
        · have hrest : ¬ ∀ c ∈ rest, HexDigit c := fun hrest =>
            h (List.forall_mem_cons.mpr ⟨hhigh, List.forall_mem_cons.mpr ⟨hlow, hrest⟩⟩)
          obtain ⟨e, he⟩ := ih (by simpa [Nat.add_assoc] using heven) hrest (index + 2)
          rw [if_pos hlow, he]
          exact ⟨e, rfl⟩
        · rw [if_neg hlow]
          exact ⟨_, rfl⟩
      · rw [if_neg hhigh]
        exact ⟨_, rfl⟩

theorem hexDecode_decodesHex : DecodesHex hexDecode := by
  refine ⟨fun s hs => ?_, fun s hs => ?_⟩
  · rw [hexDecode, if_neg (not_not.mpr hs.even)]
    exact hexPairs_of_digits hs.digits 0
  · unfold hexDecode
    split_ifs with heven
    · exact ⟨_, rfl⟩
    · exact hexPairs_error (not_not.mp heven) (fun h => hs ⟨not_not.mp heven, h⟩) 0

theorem length_bytesOfDigits (bs : List UInt8) : (bytesOfDigits bs).length = bs.length / 2 := by
  induction bs using bytesOfDigits.induct with
  | case1 => rfl
  | case2 c => simp [bytesOfDigits]
  | case3 high low rest ih =>
      rw [bytesOfDigits, List.length_cons, ih, List.length_cons, List.length_cons]
      omega

/-- What is decoded is written digit by digit, in lower case. -/
theorem hexEncode_bytesOfDigits {bs : List UInt8} (heven : bs.length % 2 = 0) (h : ∀ c ∈ bs, HexDigit c) :
    hexEncode (bytesOfDigits bs) = bs.map lowerDigit := by
  induction bs using bytesOfDigits.induct with
  | case1 => rfl
  | case2 c => cases heven
  | case3 high low rest ih =>
      obtain ⟨hhigh, hlow, hrest⟩ := List.forall_mem_cons.mp h |>.imp_right List.forall_mem_cons.mp
      obtain ⟨d, hd, hhigh⟩ := digitValue_of_hexDigit hhigh
      obtain ⟨e, he, hlow⟩ := digitValue_of_hexDigit hlow
      have hsize : 16 * d + e < 2 ^ 8 := by omega
      have hcons := ih (by simpa [Nat.add_assoc] using heven) hrest
      rw [List.map_cons, List.map_cons, ← hcons, bytesOfDigits, lowerDigit, lowerDigit, hhigh, hlow]
      unfold hexEncode
      rw [List.flatMap_cons, Option.getD_some, Option.getD_some, UInt8.toNat_ofNat_of_lt' hsize,
        Nat.mul_add_div (by decide), Nat.div_eq_of_lt he, Nat.mul_add_mod, Nat.mod_eq_of_lt he]
      rfl

/-- Every other character ends in a byte that is not ASCII. -/
theorem utf8EncodeChar_of_ascii {c : Char} (h : ∀ b ∈ String.utf8EncodeChar c, b.toNat < 128) :
    c.toNat < 128 ∧ String.utf8EncodeChar c = [UInt8.ofNat c.toNat] := by
  by_cases hone : c.val.toNat ≤ 0x7f
  · refine ⟨Nat.lt_succ_of_le hone, ?_⟩
    rw [String.utf8EncodeChar, if_pos hone]
    rfl
  · have hlast : UInt8.ofNat (c.val.toNat % 64 + 128) ∈ String.utf8EncodeChar c := by
      unfold String.utf8EncodeChar
      rw [if_neg hone]
      split_ifs <;> simp
    have hsize : c.val.toNat % 64 + 128 < 2 ^ 8 := by omega
    have hascii := h _ hlast
    rw [UInt8.toNat_ofNat_of_lt' hsize] at hascii
    omega

theorem lowerDigit_eq_toLower {c : Char} (hc : c.toNat < 128) (h : HexDigit (UInt8.ofNat c.toNat)) :
    lowerDigit (UInt8.ofNat c.toNat) = c.toLower := by
  have hall : ∀ n : Fin 128, HexDigit (UInt8.ofNat n) → lowerDigit (UInt8.ofNat n) = (Char.ofNat n).toLower := by
    decide +kernel
  have hn := hall ⟨c.toNat, hc⟩ h
  rwa [Char.ofNat_toNat] at hn

theorem HexDigit.ascii {c : UInt8} (h : HexDigit c) : c.toNat < 128 := by
  unfold HexDigit at h
  simp only [UInt8.le_iff_toNat_le, UInt8.reduceToNat] at h
  omega

/-- Digits in lower case are the text in lower case. -/
theorem map_lowerDigit {s : List Char} (h : ∀ c ∈ utf8 s, HexDigit c) : (utf8 s).map lowerDigit = s.map Char.toLower := by
  induction s with
  | nil => rfl
  | cons c s ih =>
      have hcons : utf8 (c :: s) = String.utf8EncodeChar c ++ utf8 s := rfl
      rw [hcons] at h ⊢
      obtain ⟨hhead, htail⟩ := List.forall_mem_append.mp h
      obtain ⟨hc, hbyte⟩ := utf8EncodeChar_of_ascii fun b hb => (hhead b hb).ascii
      rw [hbyte] at hhead ⊢
      rw [List.singleton_append, List.map_cons, List.map_cons, ih htail,
        lowerDigit_eq_toLower hc (hhead _ List.mem_cons_self)]

theorem hexDigit_digitByte {d : Nat} (h : d < 16) : HexDigit (digitByte d) := by
  revert d
  decide

theorem hexText_hexEncode (bytes : List UInt8) : HexText (hexEncode bytes) := by
  refine ⟨by rw [length_utf8_hexEncode]; exact Nat.mul_mod_right 2 _, ?_⟩
  induction bytes with
  | nil => exact List.forall_mem_nil HexDigit
  | cons b bytes ih =>
      have hb := b.toNat_lt
      rw [utf8_hexEncode_cons]
      exact List.forall_mem_cons.mpr ⟨hexDigit_digitByte (by omega),
        List.forall_mem_cons.mpr ⟨hexDigit_digitByte (by omega), ih⟩⟩

namespace DecodesHex

variable {decode : List Char → Except FromHexError (List UInt8)}

theorem ok_iff (h : DecodesHex decode) {s : List Char} {bytes : List UInt8} :
    decode s = .ok bytes ↔ HexText s ∧ bytesOfDigits (utf8 s) = bytes := by
  by_cases hs : HexText s
  · rw [h.accepts s hs, Except.ok.injEq, and_iff_right hs]
  · obtain ⟨e, he⟩ := h.rejects s hs
    rw [he]
    exact iff_of_false (fun hok => by cases hok) fun hb => hs hb.1

/-- Every decoder undoes the encoder. -/
theorem decode_hexEncode (h : DecodesHex decode) (bytes : List UInt8) : decode (hexEncode bytes) = .ok bytes := by
  have hdecode := (hexDecode_decodesHex.ok_iff).mp (hexDecode_hexEncode bytes)
  exact h.ok_iff.mpr hdecode

/-- What is decoded is encoded as the text in lower case. -/
theorem hexEncode_eq_toLower (h : DecodesHex decode) {s : List Char} {bytes : List UInt8} (hs : decode s = .ok bytes) :
    hexEncode bytes = s.map Char.toLower := by
  obtain ⟨htext, rfl⟩ := h.ok_iff.mp hs
  rw [hexEncode_bytesOfDigits htext.even htext.digits, map_lowerDigit htext.digits]

end DecodesHex

end TextCodec
