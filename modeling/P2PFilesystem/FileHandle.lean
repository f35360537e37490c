import P2PFilesystem.Sharding
import P2PFilesystem.KeyText
import P2PFilesystem.Bincode

/-!
# File handles

`Display` and `FromStr` of `FileMetadata`: hexadecimal digits of what bincode writes. A key
among it is written as the string it also has in messages.
-/
namespace P2PFilesystem
open TextCodec Bincode

inductive HandleError where
  | decodeHexString (e : FromHexError)
  | deserializeFileMetadata (e : ReadError KeyError)

/-- The context given to the error. -/
def HandleError.context : HandleError → Text
  | .decodeHexString _ => "Failed to decode hex string".toList
  | .deserializeFileMetadata _ => "Failed to deserialize FileMetadata".toList

def Key.serialize (self : Key) : Bytes := str self.toHexString

def Key.deserialize : Reader KeyError Key := do
  let hexStr ← readStr
  match Key.fromHexStr hexStr with
  | .ok key => return key
  | .error e => throw (.custom e)

def ChunkMetadata.serialize (self : ChunkMetadata) : Bytes := self.hash.serialize ++ byteSeq self.nonce

def ChunkMetadata.deserialize : Reader KeyError ChunkMetadata := do
  let hash ← Key.deserialize
  let nonce ← readByteSeq
  return ⟨hash, nonce⟩

namespace FileMetadata

def serialize (self : FileMetadata) : Bytes :=
  str self.name ++ (byteSeq self.encryptionKey ++ seq ChunkMetadata.serialize self.chunksMetadata)

def deserialize : Reader KeyError FileMetadata := do
  let name ← readStr
  let encryptionKey ← readByteSeq
  let chunksMetadata ← readSeq ChunkMetadata.deserialize
  return ⟨name, encryptionKey, chunksMetadata⟩

/-- `Display`. Writing to a vector cannot fail. -/
def toString (self : FileMetadata) : Text := hexEncode self.serialize

def fromStr (s : Text) : Except HandleError FileMetadata :=
  match hexDecode s with
  | .error e => .error (.decodeHexString e)
  | .ok bytes => match Bincode.deserialize deserialize bytes with
      | .error e => .error (.deserializeFileMetadata e)
      | .ok metadata => .ok metadata

/-- The lengths of strings and vectors are `usize` values. -/
structure InMemory (m : FileMetadata) : Prop where
  name : (utf8 m.name).length < 2 ^ 64
  encryptionKey : m.encryptionKey.length < 2 ^ 64
  chunksMetadata : m.chunksMetadata.length < 2 ^ 64
  nonce : ∀ c ∈ m.chunksMetadata, c.nonce.length < 2 ^ 64

end FileMetadata

theorem Key.reads_serialize (k : Key) : Reads Key.deserialize k.serialize k := by
  have hlength : (utf8 k.toHexString).length < 2 ^ 64 := by
    rw [k.length_toHexString]
    decide
  have hkey : Reads (match Key.fromHexStr k.toHexString with
      | .ok key => pure key
      | .error e => throw (.custom e) : Reader KeyError Key) [] k := by
    rw [k.fromHexStr_toHexString]
    exact reads_pure k
  have h := (reads_str hlength).bind (f := fun hexStr => match Key.fromHexStr hexStr with
    | .ok key => pure key
    | .error e => throw (.custom e)) hkey
  rwa [List.append_nil] at h

theorem ChunkMetadata.reads_serialize {c : ChunkMetadata} (h : c.nonce.length < 2 ^ 64) :
    Reads ChunkMetadata.deserialize c.serialize c :=
  c.hash.reads_serialize.bind (reads_byteSeq h).map

namespace FileMetadata

theorem InMemory.reads_serialize {m : FileMetadata} (h : m.InMemory) : Reads deserialize m.serialize m := by
  have hchunks : Reads (readSeq ChunkMetadata.deserialize) (seq ChunkMetadata.serialize m.chunksMetadata)
      m.chunksMetadata := reads_seq h.chunksMetadata fun c hc => ChunkMetadata.reads_serialize (h.nonce c hc)
  exact (reads_str h.name).bind ((reads_byteSeq h.encryptionKey).bind hchunks.map)

theorem InMemory.fromStr_toString {m : FileMetadata} (h : m.InMemory) : fromStr m.toString = .ok m := by
  rw [fromStr, toString, hexDecode_hexEncode]
  dsimp only
  rw [h.reads_serialize.deserialize]

end FileMetadata

/-- A handle is read back as the metadata it was made from, and no other metadata has it. -/
theorem fileHandle_round_trip {m : FileMetadata} (h : m.InMemory) :
    FileMetadata.fromStr m.toString = .ok m ∧ ∀ m', m'.InMemory → m'.toString = m.toString → m' = m := by
  have hm := h.fromStr_toString
  refine ⟨hm, fun m' h' heq => ?_⟩
  have hm' := h'.fromStr_toString
  rw [heq, hm] at hm'
  exact (Except.ok.inj hm').symm

/-- The metadata behind the handle that the documentation shows. -/
def exampleMetadata : FileMetadata where
  name := "file.txt".toList
  encryptionKey := [0x48, 0x71, 0xbd, 0xa4, 0xd1, 0x11, 0x62, 0x04, 0x57, 0x26, 0x93, 0x4d, 0x93, 0x24, 0xc2, 0xab,
    0x61, 0xbf, 0x09, 0x86, 0xfe, 0x21, 0xd4, 0x8d, 0xf2, 0xa8, 0x49, 0x93, 0xfb, 0xc2, 0xd5, 0x42]
  chunksMetadata := [⟨⟨⟨[0x4d, 0xb3, 0xe4, 0xc5, 0xf9, 0x09, 0xa9, 0xe9, 0x0f, 0xb8, 0xff, 0x44, 0x0e, 0xc5, 0x69,
    0x82, 0xc2, 0xbe, 0x15, 0x6d], rfl⟩⟩, [0x97, 0xca, 0x18, 0xe2, 0x14, 0xec, 0xf4, 0x7a, 0x7f, 0x25, 0x81, 0xa1]⟩]

theorem exampleMetadata_inMemory : exampleMetadata.InMemory :=
  ⟨by decide, by decide, by decide, by decide⟩

example : exampleMetadata.toString = '0' :: (
    Nat.toDigits 16 0x80000000000000066696c652e74787420000000000000004871bda4d11162045726934d9324c2ab61bf0986f ++
    Nat.toDigits 16 0xe21d48df2a84993fbc2d5420100000000000000280000000000000034646233653463356639303961396539 ++
    Nat.toDigits 16 0x3066623866663434306563353639383263326265313536640c0000000000000097ca18e214ecf47a7f2581a1) := by decide +kernel

theorem fileHandle_round_trip_example :
    exampleMetadata.InMemory ∧ FileMetadata.fromStr exampleMetadata.toString = .ok exampleMetadata :=
  ⟨exampleMetadata_inMemory, (fileHandle_round_trip exampleMetadata_inMemory).1⟩

end P2PFilesystem
