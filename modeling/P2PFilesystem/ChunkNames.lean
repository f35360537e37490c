import P2PFilesystem.KeyText
import P2PFilesystem.OutputPath

/-!
# The files of the chunks

A chunk is kept in a file under the storage directory that is named by the text form of its hash.
Files of different chunks are different, so the directory can be read as a map from hashes.
-/
namespace P2PFilesystem
open LexicalPath TextCodec

/-- `chunk_full_path`. -/
def ShardStorageManager.chunkFullPath (storageRootPath : Bytes) (chunkHash : Key) : Bytes :=
  join Path.separator storageRootPath (utf8 chunkHash.toHexString)

namespace Key

theorem utf8_toHexString_injective {a b : Key} (h : utf8 a.toHexString = utf8 b.toHexString) : a = b := by
  have hread := congrArg fromUtf8 h
  rw [fromUtf8_utf8, fromUtf8_utf8] at hread
  exact toHexString_injective (Option.some.inj hread)

theorem not_mem_toHexString {c : UInt8} (hc : ¬ HexDigit c) (k : Key) : c ∉ utf8 k.toHexString := fun hmem =>
  hc ((hexText_hexEncode k.value.bytes).digits c hmem)

theorem separator_not_mem_toHexString (k : Key) : Path.separator ∉ utf8 k.toHexString :=
  k.not_mem_toHexString (by decide)

/-- The text form is one name. -/
theorem components_toHexString (k : Key) :
    components Path.separator Path.dot (utf8 k.toHexString) = [.normal (utf8 k.toHexString)] := by
  refine components_name k.separator_not_mem_toHexString (k.not_mem_toHexString (by decide)) fun hnil => ?_
  have hlen := k.length_toHexString
  rw [hnil] at hlen
  cases hlen

end Key

namespace ShardStorageManager

theorem fileName_chunkFullPath (root : Bytes) (k : Key) :
    fileName Path.separator Path.dot (chunkFullPath root k) = some (utf8 k.toHexString) := by
  unfold fileName chunkFullPath
  rw [components_join (not_isAbsolute_of_not_mem k.separator_not_mem_toHexString), k.components_toHexString,
    List.getLast?_concat]

/-- The file is in the storage directory itself. -/
theorem resolve_chunkFullPath (cwd : List Bytes) (root : Bytes) (k : Key) :
    resolve Path.separator Path.dot cwd (chunkFullPath root k) =
      resolve Path.separator Path.dot cwd root ++ [utf8 k.toHexString] := by
  unfold chunkFullPath
  rw [resolve_join (not_isAbsolute_of_not_mem k.separator_not_mem_toHexString), k.components_toHexString]
  rfl

end ShardStorageManager

/-- Keys are read from their text forms and from nothing else, and their files have these as names. -/
theorem keyText_exact {decode : Text → Except FromHexError (List UInt8)} (hdecode : DecodesHex decode) :
    (∀ s, (∃ k, Key.fromHexStrWith decode s = .ok k) ↔ (utf8 s).length = 2 * K ∧ ∀ c ∈ utf8 s, HexDigit c) ∧
    (∀ k : Key, Key.fromHexStrWith decode k.toHexString = .ok k) ∧
    (∀ s k, Key.fromHexStrWith decode s = .ok k → k.toHexString = s.map Char.toLower) ∧
    (∀ s n, Key.fromHexStrWith decode s ≠ .error (.invalidHexLength n)) ∧
    (∀ root k, fileName Path.separator Path.dot (ShardStorageManager.chunkFullPath root k) = some (utf8 k.toHexString)) ∧
    ∀ cwd root root' k k', k ≠ k' →
      fileName Path.separator Path.dot (ShardStorageManager.chunkFullPath root k) ≠
        fileName Path.separator Path.dot (ShardStorageManager.chunkFullPath root' k') ∧
      resolve Path.separator Path.dot cwd (ShardStorageManager.chunkFullPath root k) ≠
        resolve Path.separator Path.dot cwd (ShardStorageManager.chunkFullPath root' k') := by
  refine ⟨Key.exists_fromHexStrWith_iff hdecode, Key.fromHexStrWith_toHexString hdecode,
    fun s k => Key.toHexString_of_fromHexStrWith hdecode, Key.fromHexStrWith_ne_invalidHexLength hdecode,
    ShardStorageManager.fileName_chunkFullPath, fun cwd root root' k k' hne => ⟨fun heq => hne ?_, fun heq => hne ?_⟩⟩
  · rw [ShardStorageManager.fileName_chunkFullPath, ShardStorageManager.fileName_chunkFullPath] at heq
    exact Key.utf8_toHexString_injective (Option.some.inj heq)
  · rw [ShardStorageManager.resolve_chunkFullPath, ShardStorageManager.resolve_chunkFullPath] at heq
    exact Key.utf8_toHexString_injective (List.append_inj_right' heq rfl |> List.singleton_inj.mp)

/-- Forty digits in upper case are read, and written back in lower case. -/
theorem keyText_upperCase : ∃ k, Key.fromHexStrWith hexDecode (List.replicate 40 'A') = .ok k ∧
    k.toHexString = List.replicate 40 'a' := by
  obtain ⟨haccepts, -, hlower, -⟩ := keyText_exact hexDecode_decodesHex
  obtain ⟨k, hk⟩ := (haccepts (List.replicate 40 'A')).mpr (by decide +kernel)
  refine ⟨k, hk, ?_⟩
  rw [hlower _ k hk]
  rfl

end P2PFilesystem
