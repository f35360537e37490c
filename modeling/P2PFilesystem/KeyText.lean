import P2PFilesystem.Key
import P2PFilesystem.TextCodec

/-!
# The text form of a key

`Key::from_hex_str`, which also reads keys in messages, file handles and configuration.
-/
namespace P2PFilesystem
open TextCodec

inductive KeyError where
  | invalidHexLength (length : Nat)
  | decodeHexError (e : FromHexError)
  | wrongHexStringLength (expected got : Nat)
  deriving DecidableEq

namespace Key

/-- With `hex::decode` as an argument. -/
def fromHexStrWith (decode : Text → Except FromHexError (List UInt8)) (hexStr : Text) : Except KeyError Key :=
  if (utf8 hexStr).length ≠ K * 2 then .error (.wrongHexStringLength (K * 2) (utf8 hexStr).length)
  else match decode hexStr with
    | .ok decoded => if h : decoded.length = K then .ok ⟨⟨decoded, h⟩⟩ else .error (.invalidHexLength decoded.length)
    | .error e => .error (.decodeHexError e)

def fromHexStr (hexStr : Text) : Except KeyError Key := fromHexStrWith hexDecode hexStr

theorem toHexString_eq (k : Key) : k.toHexString = hexEncode k.value.bytes := rfl

theorem length_toHexString (k : Key) : (utf8 k.toHexString).length = K * 2 := by
  rw [toHexString_eq, length_utf8_hexEncode, k.value.length_bytes, Nat.mul_comm]

variable {decode : Text → Except FromHexError (List UInt8)}

/-- What is decoded has the length of a key. -/
theorem length_of_decode (hdecode : DecodesHex decode) {s : Text} {decoded : List UInt8} (hs : decode s = .ok decoded)
    (hlen : (utf8 s).length = K * 2) : decoded.length = K := by
  obtain ⟨-, rfl⟩ := hdecode.ok_iff.mp hs
  rw [length_bytesOfDigits, hlen, Nat.mul_div_cancel K (by decide)]

theorem fromHexStrWith_ok_iff (hdecode : DecodesHex decode) {s : Text} {k : Key} :
    fromHexStrWith decode s = .ok k ↔ (utf8 s).length = K * 2 ∧ decode s = .ok k.value.bytes := by
  unfold fromHexStrWith
  by_cases hlen : (utf8 s).length = K * 2
  · rw [if_neg (not_not.mpr hlen), and_iff_right hlen]
    cases hs : decode s with
    | error e => exact iff_of_false (fun hok => by cases hok) fun hok => by cases hok
    | ok decoded =>
        dsimp only
        rw [dif_pos (length_of_decode hdecode hs hlen), Except.ok.injEq, Except.ok.injEq]
        exact ⟨fun hk => hk ▸ rfl, fun hbytes => ext_bytes hbytes⟩
  · rw [if_pos hlen]
    exact iff_of_false (fun hok => by cases hok) fun hok => hlen hok.1

/-- A text of the right length is refused for its characters only. -/
theorem fromHexStrWith_ne_invalidHexLength (hdecode : DecodesHex decode) (s : Text) (n : Nat) :
    fromHexStrWith decode s ≠ .error (.invalidHexLength n) := by
  unfold fromHexStrWith
  by_cases hlen : (utf8 s).length = K * 2
  · rw [if_neg (not_not.mpr hlen)]
    cases hs : decode s with
    | error e => exact fun he => by cases he
    | ok decoded =>
        dsimp only
        rw [dif_pos (length_of_decode hdecode hs hlen)]
        exact fun he => by cases he
  · rw [if_pos hlen]
    exact fun he => by cases he

/-- The texts that are read are those of the digits of a key. -/
theorem exists_fromHexStrWith_iff (hdecode : DecodesHex decode) (s : Text) :
    (∃ k, fromHexStrWith decode s = .ok k) ↔ (utf8 s).length = 2 * K ∧ ∀ c ∈ utf8 s, HexDigit c := by
  constructor
  · rintro ⟨k, hk⟩
    obtain ⟨hlen, hbytes⟩ := (fromHexStrWith_ok_iff hdecode).mp hk
    exact ⟨hlen.trans (Nat.mul_comm K 2), (hdecode.ok_iff.mp hbytes).1.digits⟩
  · rintro ⟨hlen, hdigits⟩
    have htext : HexText s := ⟨by rw [hlen, Nat.mul_mod_right], hdigits⟩
    have hbytes := hdecode.accepts s htext
    have hk := length_of_decode hdecode hbytes (hlen.trans (Nat.mul_comm 2 K))
    exact ⟨⟨⟨_, hk⟩⟩, (fromHexStrWith_ok_iff hdecode).mpr ⟨hlen.trans (Nat.mul_comm 2 K), hbytes⟩⟩

theorem fromHexStrWith_toHexString (hdecode : DecodesHex decode) (k : Key) :
    fromHexStrWith decode k.toHexString = .ok k :=
  (fromHexStrWith_ok_iff hdecode).mpr ⟨k.length_toHexString, hdecode.decode_hexEncode k.value.bytes⟩

theorem toHexString_of_fromHexStrWith (hdecode : DecodesHex decode) {s : Text} {k : Key}
    (h : fromHexStrWith decode s = .ok k) : k.toHexString = s.map Char.toLower :=
  hdecode.hexEncode_eq_toLower ((fromHexStrWith_ok_iff hdecode).mp h).2

theorem fromHexStr_toHexString (k : Key) : fromHexStr k.toHexString = .ok k :=
  fromHexStrWith_toHexString hexDecode_decodesHex k

theorem toHexString_injective {a b : Key} (h : a.toHexString = b.toHexString) : a = b := by
  have hread := a.fromHexStr_toHexString
  rw [h, b.fromHexStr_toHexString] at hread
  exact (Except.ok.inj hread).symm

end Key
end P2PFilesystem
