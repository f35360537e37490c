import P2PFilesystem.Key
import Mathlib.Data.List.Forall2

/-!
# Cutting a file into encrypted chunks and putting it together again

`sharding/common.rs`, `sharding/encryption.rs`, `sharding/uploader.rs` and
`sharding/downloader.rs`. The cipher of the `aes-gcm` crate and the SHA-1 behind
`Key::from_input` are parameters; what is assumed of the cipher is `Aead.Lawful`.
-/
namespace P2PFilesystem

abbrev Bytes := List UInt8

inductive Outcome (ε α : Type*) where
  | ok (a : α)
  | err (e : ε)
  | panic
  deriving DecidableEq

def u32SizeB : Nat := 4

def aesGcmAuthTagSizeB : Nat := 16

def paddedSize : Nat := chunkDataSizeKb * 1024

def encryptedChunkSizeB : Nat := paddedSize + u32SizeB + aesGcmAuthTagSizeB

/-- `Aes256Gcm`, as functions of key, nonce and payload. -/
structure Aead where
  encrypt : Bytes → Bytes → Bytes → Option Bytes
  decrypt : Bytes → Bytes → Bytes → Option Bytes

/-- Payloads up to 64 GiB can be encrypted, the text is 16 bytes longer, and decrypting
with the same key and nonce gives the payload back. -/
structure Aead.Lawful (A : Aead) : Prop where
  encrypt_isSome : ∀ {key nonce payload : Bytes}, key.length = 32 → nonce.length = 12 →
    payload.length ≤ 2 ^ 36 → (A.encrypt key nonce payload).isSome
  length_encrypt : ∀ {key nonce payload c : Bytes}, A.encrypt key nonce payload = some c →
    c.length = payload.length + aesGcmAuthTagSizeB
  decrypt_encrypt : ∀ {key nonce payload c : Bytes}, A.encrypt key nonce payload = some c →
    A.decrypt key nonce c = some payload

inductive ShardingError where
  | fileTooBig
  | metadataNotFilled
  | unwantedChunk
  | chunkHashMismatch
  | emptyChunk
  | encryptionError
  deriving DecidableEq

/-- `encrypt_payload`, with the nonce it draws. -/
def encryptPayload (A : Aead) (payload key nonce : Bytes) : Outcome ShardingError (Bytes × Bytes) :=
  if key.length ≠ 32 then .panic
  else match A.encrypt key nonce payload with
    | some encrypted => .ok (nonce, encrypted)
    | none => .err .encryptionError

/-- `decrypt_payload`; slices of another length are refused by a panic. -/
def decryptPayload (A : Aead) (encryptedPayload key nonce : Bytes) : Outcome ShardingError Bytes :=
  if key.length ≠ 32 ∨ nonce.length ≠ 12 then .panic
  else match A.decrypt key nonce encryptedPayload with
    | some payload => .ok payload
    | none => .err .encryptionError

structure Chunk where
  data : Bytes
  hash : Key
  deriving DecidableEq

structure ChunkMetadata where
  hash : Key
  nonce : Bytes
  deriving DecidableEq

structure FileMetadata where
  name : Text
  encryptionKey : Bytes
  chunksMetadata : List ChunkMetadata
  deriving DecidableEq

/-- `u32::to_le_bytes` of a `usize` cast to `u32`. -/
def u32ToLeBytes (n : Nat) : Bytes :=
  let n := n % 2 ^ 32
  [UInt8.ofNat n, UInt8.ofNat (n / 2 ^ 8), UInt8.ofNat (n / 2 ^ 16), UInt8.ofNat (n / 2 ^ 24)]

def u32FromLeBytes : Bytes → Option Nat
  | [a, b, c, d] => some (a.toNat + b.toNat * 2 ^ 8 + c.toNat * 2 ^ 16 + d.toNat * 2 ^ 24)
  | _ => none

/-- What the environment supplies to one `get_next_chunk_encrypt`: how much the read returns
at most, the random padding, and the nonce. -/
structure Draw where
  size : Nat
  padding : Nat → UInt8
  nonce : Bytes
  one_le_size : 1 ≤ size
  size_le : size ≤ paddedSize
  length_nonce : nonce.length = 12

structure FileUploader where
  remaining : Bytes
  fileMetadata : FileMetadata
  encryptionKey : Bytes
  deriving DecidableEq

namespace FileUploader

/-- `FileUploader::new`, with the key it generates. -/
def new (name : Text) (content key : Bytes) : Except ShardingError FileUploader :=
  if content.length > maxFileSizeMb * 1024 * 1024 then .error .fileTooBig
  else .ok ⟨content, ⟨name, key, []⟩, key⟩

def getNextChunkEncrypt (A : Aead) (sha1 : Bytes → Key) (draw : Draw) (self : FileUploader) :
    Outcome ShardingError (Option Chunk) × FileUploader :=
  let read := self.remaining.take draw.size
  if read.length = 0 then (.ok none, self)
  else
    let rest := { self with remaining := self.remaining.drop draw.size }
    let padded := read ++ (List.range (paddedSize - read.length)).map draw.padding
    match encryptPayload A (padded ++ u32ToLeBytes read.length) self.encryptionKey draw.nonce with
    | .ok (nonce, encrypted) =>
        let chunk : Chunk := ⟨encrypted, sha1 padded⟩
        let chunksMetadata := self.fileMetadata.chunksMetadata ++ [⟨chunk.hash, nonce⟩]
        (.ok (some chunk), { rest with fileMetadata := { self.fileMetadata with chunksMetadata } })
    | .err e => (.err e, rest)
    | .panic => (.panic, rest)

/-- A number of calls in a row: their outcomes and the uploader after them. -/
def calls (A : Aead) (sha1 : Bytes → Key) : (Nat → Draw) → Nat → FileUploader →
    List (Outcome ShardingError (Option Chunk)) × FileUploader
  | _, 0, self => ([], self)
  | draws, n+1, self =>
      let (outcome, self) := self.getNextChunkEncrypt A sha1 (draws 0)
      let (outcomes, self) := calls A sha1 (fun i => draws (i + 1)) n self
      (outcome :: outcomes, self)

def getMetadata (self : FileUploader) : Except ShardingError FileMetadata :=
  if self.remaining.isEmpty then .ok self.fileMetadata else .error .metadataNotFilled

end FileUploader

/-- The output file, with the 8 KiB buffer in front of it. -/
structure FileWriter where
  file : Bytes
  buffer : Bytes
  deriving DecidableEq

namespace FileWriter

def capacity : Nat := 8 * 1024

def flush (self : FileWriter) : FileWriter := ⟨self.file ++ self.buffer, []⟩

/-- `BufWriter`: make room first; what is larger than the buffer goes past it. -/
def writeAll (self : FileWriter) (data : Bytes) : FileWriter :=
  let self := if self.buffer.length + data.length > capacity then self.flush else self
  if data.length ≥ capacity then ⟨self.file ++ data, self.buffer⟩ else ⟨self.file, self.buffer ++ data⟩

end FileWriter

/-- `cargo build`, `cargo run` and `cargo test` make a debug build, in which `debug_assert_eq!` is checked. -/
inductive Build where
  | debug
  | release
  deriving DecidableEq

structure FileDownloader where
  fileWriter : FileWriter
  fileMetadata : FileMetadata
  chunkIndex : Nat
  deriving DecidableEq

namespace FileDownloader

/-- `FileDownloader::new` creates the file empty. -/
def new (fileMetadata : FileMetadata) : FileDownloader := ⟨⟨[], []⟩, fileMetadata, 0⟩

def storeNextChunkDecrypt (A : Aead) (build : Build) (chunk : Chunk) (self : FileDownloader) :
    Outcome ShardingError Unit × FileDownloader :=
  if chunk.data.isEmpty then (.err .emptyChunk, self)
  else match self.fileMetadata.chunksMetadata[self.chunkIndex]? with
    | none => (.err .unwantedChunk, self)
    | some chunkMetadata =>
        match decryptPayload A chunk.data self.fileMetadata.encryptionKey chunkMetadata.nonce with
        | .panic => (.panic, self)
        | .err e => (.err e, self)
        | .ok decrypted =>
            if build = .debug ∧ decrypted.length ≠ paddedSize + u32SizeB then (.panic, self)
            else match u32FromLeBytes ((decrypted.drop paddedSize).take u32SizeB) with
              | none => (.panic, self)
              | some unpaddedDataSize =>
                  let padded := decrypted.take paddedSize
                  if chunk.hash ≠ chunkMetadata.hash then (.err .chunkHashMismatch, self)
                  else
                    let data := if padded.length ≠ unpaddedDataSize then padded.take unpaddedDataSize else padded
                    let written := self.fileWriter.writeAll data
                    let index := self.chunkIndex + 1
                    let writer := if index ≥ self.fileMetadata.chunksMetadata.length then written.flush else written
                    (.ok (), { self with fileWriter := writer, chunkIndex := index })

/-- Chunks given one after the other: the outcomes and the downloader after them. -/
def storeAll (A : Aead) (build : Build) : List Chunk → FileDownloader → List (Outcome ShardingError Unit) × FileDownloader
  | [], self => ([], self)
  | chunk :: chunks, self =>
      let (outcome, self) := self.storeNextChunkDecrypt A build chunk
      let (outcomes, self) := storeAll A build chunks self
      (outcome :: outcomes, self)

end FileDownloader

/-- The lengths of a decrypted block that make no call panic. -/
def Build.Takes : Build → Nat → Prop
  | .debug, length => length = paddedSize + u32SizeB
  | .release, length => paddedSize + u32SizeB ≤ length

theorem Build.Takes.le {build : Build} {length : Nat} (h : build.Takes length) : paddedSize + u32SizeB ≤ length := by
  cases build with
  | debug => exact h.ge
  | release => exact h

theorem Build.takes_exact (build : Build) : build.Takes (paddedSize + u32SizeB) := by
  cases build with
  | debug => exact rfl
  | release => exact Nat.le_refl _

theorem u32FromLeBytes_toLeBytes {n : Nat} (h : n < 2 ^ 32) : u32FromLeBytes (u32ToLeBytes n) = some n := by
  simp only [u32ToLeBytes, u32FromLeBytes, Nat.mod_eq_of_lt h, UInt8.toNat_ofNat', Option.some.injEq]
  omega

@[simp] theorem length_u32ToLeBytes (n : Nat) : (u32ToLeBytes n).length = 4 := rfl

/-- Wherever the bytes are held back, the contents grow by what is written. -/
theorem FileWriter.contents_writeAll (w : FileWriter) (data : Bytes) :
    (w.writeAll data).file ++ (w.writeAll data).buffer = w.file ++ w.buffer ++ data := by
  unfold FileWriter.writeAll
  by_cases hfull : w.buffer.length + data.length > FileWriter.capacity
  · rw [if_pos hfull]
    split_ifs
    · simp only [FileWriter.flush, List.append_nil]
    · simp only [FileWriter.flush, List.nil_append]
  · rw [if_neg hfull]
    split_ifs with hlarge
    · have hnil : w.buffer = [] := List.length_eq_zero_iff.mp (by omega)
      rw [hnil, List.append_nil, List.append_nil]
    · exact (List.append_assoc _ _ _).symm

/-- One block of a file: the bytes read, the block padded to full size, and the nonce it is
encrypted with. -/
structure Block where
  read : Bytes
  padded : Bytes
  nonce : Bytes
  read_ne_nil : read ≠ []
  read_prefix : padded.take read.length = read
  length_padded : padded.length = paddedSize
  length_nonce : nonce.length = 12

namespace Block

def payload (b : Block) : Bytes := b.padded ++ u32ToLeBytes b.read.length

def chunkMetadata (sha1 : Bytes → Key) (b : Block) : ChunkMetadata := ⟨sha1 b.padded, b.nonce⟩

theorem length_read_le (b : Block) : b.read.length ≤ paddedSize := by
  rw [← b.read_prefix, List.length_take, b.length_padded]
  exact Nat.min_le_right _ _

theorem length_payload (b : Block) : b.payload.length = paddedSize + u32SizeB := by
  rw [payload, List.length_append, b.length_padded, length_u32ToLeBytes]
  rfl

end Block

def Draw.cut (d : Draw) {bytes : Bytes} (h : bytes ≠ []) : Block where
  read := bytes.take d.size
  padded := bytes.take d.size ++ (List.range (paddedSize - (bytes.take d.size).length)).map d.padding
  nonce := d.nonce
  read_ne_nil := by
    rw [Ne, List.take_eq_nil_iff, not_or]
    exact ⟨Nat.ne_of_gt d.one_le_size, h⟩
  read_prefix := List.take_left
  length_padded := by
    have hle : (bytes.take d.size).length ≤ paddedSize := (List.length_take_le _ _).trans d.size_le
    rw [List.length_append, List.length_map, List.length_range]
    omega
  length_nonce := d.length_nonce

section Codec
variable {A : Aead} {build : Build} {sha1 : Bytes → Key} {key : Bytes}

/-- The chunk holds the block encrypted under the key, and is named by the padded block. -/
structure Seals (A : Aead) (sha1 : Bytes → Key) (key : Bytes) (b : Block) (chunk : Chunk) : Prop where
  encrypt_eq : A.encrypt key b.nonce b.payload = some chunk.data
  hash_eq : chunk.hash = sha1 b.padded

theorem Seals.length_data (hA : A.Lawful) {b : Block} {chunk : Chunk} (h : Seals A sha1 key b chunk) :
    chunk.data.length = encryptedChunkSizeB := by
  rw [hA.length_encrypt h.encrypt_eq, b.length_payload]
  rfl

theorem FileUploader.getNextChunkEncrypt_nil (draw : Draw) {up : FileUploader} (h : up.remaining = []) :
    up.getNextChunkEncrypt A sha1 draw = (.ok none, up) := by
  unfold getNextChunkEncrypt
  rw [h, List.take_nil]
  rfl

theorem FileUploader.getNextChunkEncrypt_cut (sha1 : Bytes → Key) (hA : A.Lawful) (draw : Draw) {up : FileUploader}
    (h : up.remaining ≠ []) (hkey : up.encryptionKey.length = 32) :
    ∃ chunk, Seals A sha1 up.encryptionKey (draw.cut h) chunk ∧
      up.getNextChunkEncrypt A sha1 draw = (.ok (some chunk),
        { up with
          remaining := up.remaining.drop draw.size
          fileMetadata := { up.fileMetadata with
            chunksMetadata := up.fileMetadata.chunksMetadata ++ [(draw.cut h).chunkMetadata sha1] } }) := by
  have hlen : (draw.cut h).payload.length ≤ 2 ^ 36 := by
    rw [Block.length_payload]
    decide
  obtain ⟨c, hc⟩ := Option.isSome_iff_exists.mp (hA.encrypt_isSome hkey draw.length_nonce hlen)
  refine ⟨⟨c, sha1 (draw.cut h).padded⟩, ⟨hc, rfl⟩, ?_⟩
  have hne : (up.remaining.take draw.size).length ≠ 0 := fun h0 =>
    (draw.cut h).read_ne_nil (List.length_eq_zero_iff.mp h0)
  have henc : encryptPayload A (draw.cut h).payload up.encryptionKey draw.nonce = .ok (draw.nonce, c) := by
    unfold encryptPayload
    rw [if_neg (fun hn => hn hkey), hc]
  unfold getNextChunkEncrypt
  dsimp only
  rw [if_neg hne]
  change (match encryptPayload A (draw.cut h).payload up.encryptionKey draw.nonce with
    | .ok (nonce, encrypted) => _
    | .err e => _
    | .panic => _) = _
  rw [henc]
  rfl

/-- Calling until nothing comes any more cuts the file into blocks and seals each of them. -/
theorem FileUploader.calls_spec (sha1 : Bytes → Key) (hA : A.Lawful) (draws : Nat → Draw) (up : FileUploader)
    (hkey : up.encryptionKey.length = 32) :
    ∃ blocks chunks, List.Forall₂ (Seals A sha1 up.encryptionKey) blocks chunks ∧
      (blocks.map Block.read).flatten = up.remaining ∧
      up.calls A sha1 draws (chunks.length + 1) = (chunks.map (.ok ∘ some) ++ [.ok none],
        { up with
          remaining := []
          fileMetadata := { up.fileMetadata with chunksMetadata :=
            up.fileMetadata.chunksMetadata ++ blocks.map (Block.chunkMetadata sha1) } }) := by
  induction hn : up.remaining.length using Nat.strongRecOn generalizing up draws with
  | ind n ih =>
      by_cases hrest : up.remaining = []
      · refine ⟨[], [], .nil, hrest.symm, ?_⟩
        simp only [List.length_nil, calls, getNextChunkEncrypt_nil (draws 0) hrest, List.map_nil,
          List.nil_append, List.append_nil]
        rw [← hrest]
      · obtain ⟨chunk, hseal, hcall⟩ := getNextChunkEncrypt_cut sha1 hA (draws 0) hrest hkey
        have hpos := (draws 0).one_le_size
        have hlen := List.length_pos_of_ne_nil hrest
        obtain ⟨blocks, chunks, hseals, hflat, hcalls⟩ := ih (up.remaining.drop (draws 0).size).length
          (by rw [List.length_drop]; omega) (fun i => draws (i + 1))
          { up with
            remaining := up.remaining.drop (draws 0).size
            fileMetadata := { up.fileMetadata with chunksMetadata :=
              up.fileMetadata.chunksMetadata ++ [((draws 0).cut hrest).chunkMetadata sha1] } } hkey rfl
        refine ⟨(draws 0).cut hrest :: blocks, chunk :: chunks, .cons hseal hseals, ?_, ?_⟩
        · rw [List.map_cons, List.flatten_cons, hflat]
          exact List.take_append_drop _ _
        · rw [List.length_cons, calls, hcall]
          dsimp only
          rw [hcalls]
          simp only [List.map_cons, List.cons_append, List.append_assoc, List.nil_append, Function.comp]

def FileDownloader.written (down : FileDownloader) : Bytes := down.fileWriter.file ++ down.fileWriter.buffer

/-- A chunk that passes all checks: the piece of the recorded length is written, and the last one flushed. -/
theorem FileDownloader.storeNextChunkDecrypt_eq {chunk : Chunk} {down : FileDownloader} {entry : ChunkMetadata}
    {payload : Bytes} {size : Nat} (hdata : chunk.data ≠ [])
    (hentry : down.fileMetadata.chunksMetadata[down.chunkIndex]? = some entry)
    (hdec : decryptPayload A chunk.data down.fileMetadata.encryptionKey entry.nonce = .ok payload)
    (hlength : build.Takes payload.length)
    (htrailer : u32FromLeBytes ((payload.drop paddedSize).take u32SizeB) = some size) (hlabel : chunk.hash = entry.hash) :
    down.storeNextChunkDecrypt A build chunk = (.ok (), { down with
      fileWriter := if down.chunkIndex + 1 ≥ down.fileMetadata.chunksMetadata.length
        then (down.fileWriter.writeAll ((payload.take paddedSize).take size)).flush
        else down.fileWriter.writeAll ((payload.take paddedSize).take size)
      chunkIndex := down.chunkIndex + 1 }) := by
  have hpiece : (if (payload.take paddedSize).length ≠ size then (payload.take paddedSize).take size
      else payload.take paddedSize) = (payload.take paddedSize).take size := by
    split_ifs with hlen
    · rfl
    · exact (List.take_of_length_le (not_not.mp hlen).le).symm
  have hassert : ¬ (build = .debug ∧ payload.length ≠ paddedSize + u32SizeB) := by
    rintro ⟨rfl, hne⟩
    exact hne hlength
  unfold storeNextChunkDecrypt
  rw [if_neg (mt List.isEmpty_iff.mp hdata), hentry]
  dsimp only
  rw [hdec]
  dsimp only
  rw [if_neg hassert, htrailer]
  dsimp only
  rw [if_neg (not_not.mpr hlabel), hpiece]

theorem FileDownloader.storeNextChunkDecrypt_seals (hA : A.Lawful) {b : Block} {chunk : Chunk}
    {down : FileDownloader} (hkey : down.fileMetadata.encryptionKey.length = 32)
    (h : Seals A sha1 down.fileMetadata.encryptionKey b chunk)
    (hnext : down.fileMetadata.chunksMetadata[down.chunkIndex]? = some (b.chunkMetadata sha1)) :
    let stored := down.storeNextChunkDecrypt A build chunk
    stored.1 = .ok () ∧ stored.2.fileMetadata = down.fileMetadata ∧
    stored.2.chunkIndex = down.chunkIndex + 1 ∧ stored.2.written = down.written ++ b.read ∧
    (down.chunkIndex + 1 = down.fileMetadata.chunksMetadata.length → stored.2.fileWriter.buffer = []) := by
  have hdata : chunk.data ≠ [] := by
    have hlen := h.length_data hA
    intro hnil
    rw [hnil] at hlen
    cases hlen
  have hdec : decryptPayload A chunk.data down.fileMetadata.encryptionKey (b.chunkMetadata sha1).nonce =
      .ok b.payload := by
    unfold decryptPayload
    rw [if_neg (not_or.mpr ⟨fun hn => hn hkey, fun hn => hn b.length_nonce⟩)]
    change (match A.decrypt down.fileMetadata.encryptionKey b.nonce chunk.data with
      | some payload => _
      | none => _) = _
    rw [hA.decrypt_encrypt h.encrypt_eq]
  have htrailer : u32FromLeBytes ((b.payload.drop paddedSize).take u32SizeB) = some b.read.length := by
    rw [Block.payload, ← b.length_padded, List.drop_left, List.take_of_length_le (Nat.le_refl 4)]
    exact u32FromLeBytes_toLeBytes (b.length_read_le.trans_lt (by decide))
  have hread : (b.payload.take paddedSize).take b.read.length = b.read := by
    have hpadded : b.payload.take paddedSize = b.padded := by
      rw [Block.payload, ← b.length_padded, List.take_left]
    rw [hpadded]
    exact b.read_prefix
  have hlength : build.Takes b.payload.length := b.length_payload ▸ build.takes_exact
  have hstored := storeNextChunkDecrypt_eq hdata hnext hdec hlength htrailer h.hash_eq
  rw [hread] at hstored
  intro stored
  rw [show stored = _ from hstored]
  refine ⟨rfl, rfl, rfl, ?_, fun hlast => ?_⟩
  · change FileWriter.file (ite _ _ _) ++ FileWriter.buffer (ite _ _ _) = _
    split_ifs
    · rw [FileWriter.flush, List.append_nil]
      exact FileWriter.contents_writeAll _ _
    · exact FileWriter.contents_writeAll _ _
  · change FileWriter.buffer (ite _ _ _) = []
    rw [if_pos (Nat.le_of_eq hlast.symm)]
    rfl

theorem FileDownloader.storeAll_seals (hA : A.Lawful) {blocks : List Block} {chunks : List Chunk}
    (h : List.Forall₂ (Seals A sha1 key) blocks chunks) (hlen : key.length = 32) :
    ∀ down : FileDownloader, down.fileMetadata.encryptionKey = key →
      down.fileMetadata.chunksMetadata.drop down.chunkIndex = blocks.map (Block.chunkMetadata sha1) →
      (down.storeAll A build chunks).1 = chunks.map (fun _ => .ok ()) ∧
      (down.storeAll A build chunks).2.written = down.written ++ (blocks.map Block.read).flatten ∧
      (down.fileWriter.buffer = [] ∨ blocks ≠ [] → (down.storeAll A build chunks).2.fileWriter.buffer = []) := by
  induction h with
  | nil =>
      intro down _ _
      refine ⟨rfl, (List.append_nil _).symm, ?_⟩
      rintro (hbuf | hne)
      · exact hbuf
      · exact absurd rfl hne
  | @cons b chunk blocks chunks hseal _ ih =>
      intro down hkey hrest
      have hnext : down.fileMetadata.chunksMetadata[down.chunkIndex]? = some (b.chunkMetadata sha1) := by
        have h0 := congrArg (·[0]?) hrest
        simpa only [List.getElem?_drop, Nat.add_zero, List.map_cons, List.getElem?_cons_zero] using h0
      obtain ⟨hok, hmeta, hindex, hwritten, hlast⟩ := storeNextChunkDecrypt_seals hA (hkey ▸ hlen)
        (hkey ▸ hseal) hnext
      have hrest' : (down.storeNextChunkDecrypt A build chunk).2.fileMetadata.chunksMetadata.drop
          (down.storeNextChunkDecrypt A build chunk).2.chunkIndex = blocks.map (Block.chunkMetadata sha1) := by
        rw [hmeta, hindex, ← List.drop_drop, hrest]
        rfl
      obtain ⟨hoks, hall, hbuf⟩ := ih _ (by rw [hmeta, hkey]) hrest'
      have hstore : down.storeAll A build (chunk :: chunks) =
          ((down.storeNextChunkDecrypt A build chunk).1 :: ((down.storeNextChunkDecrypt A build chunk).2.storeAll A build chunks).1,
            ((down.storeNextChunkDecrypt A build chunk).2.storeAll A build chunks).2) := rfl
      rw [hstore]
      refine ⟨by rw [hok, hoks, List.map_cons], ?_, fun _ => ?_⟩
      · rw [hall, hwritten, List.map_cons, List.flatten_cons, List.append_assoc]
      · cases blocks with
        | nil =>
            refine hbuf (.inl (hlast ?_))
            have hlen' := congrArg List.length hrest
            simp only [List.length_drop, List.map_cons, List.map_nil, List.length_cons, List.length_nil] at hlen'
            omega
        | cons => exact hbuf (.inr (List.cons_ne_nil _ _))

theorem FileUploader.getMetadata_eq_error {up : FileUploader} (h : up.remaining ≠ []) :
    up.getMetadata = .error .metadataNotFilled := if_neg fun he => h (List.isEmpty_iff.mp he)

/-- Whatever a file is cut into, its chunks are all of one size, there is one metadata entry
for each, the metadata is refused until everything was read, and a downloader with this
metadata takes every chunk and writes the file. -/
theorem chunk_codec_round_trip (A : Aead) (hA : A.Lawful) (build : Build) (sha1 : Bytes → Key) (name : Text)
    (content key : Bytes) (draws : Nat → Draw) (hsize : content.length ≤ maxFileSizeMb * 1024 * 1024)
    (hkey : key.length = 32) :
    ∃ up chunks md, FileUploader.new name content key = .ok up ∧
      (up.calls A sha1 draws (chunks.length + 1)).1 = chunks.map (.ok ∘ some) ++ [.ok none] ∧
      (∀ c ∈ chunks, c.data.length = encryptedChunkSizeB) ∧
      (up.calls A sha1 draws (chunks.length + 1)).2.getMetadata = .ok md ∧
      md.chunksMetadata.length = chunks.length ∧
      (∀ n, (up.calls A sha1 draws n).2.remaining ≠ [] →
        (up.calls A sha1 draws n).2.getMetadata = .error .metadataNotFilled) ∧
      ((FileDownloader.new md).storeAll A build chunks).1 = chunks.map (fun _ => .ok ()) ∧
      ((FileDownloader.new md).storeAll A build chunks).2.fileWriter = ⟨content, []⟩ := by
  obtain ⟨blocks, chunks, hseals, hflat, hcalls⟩ := FileUploader.calls_spec sha1 hA draws
    ⟨content, ⟨name, key, []⟩, key⟩ hkey
  obtain ⟨hoks, hwritten, hbuffer⟩ := FileDownloader.storeAll_seals hA hseals hkey
    (FileDownloader.new ⟨name, key, blocks.map (Block.chunkMetadata sha1)⟩) rfl rfl
  have hbuf := hbuffer (.inl rfl)
  refine ⟨_, chunks, ⟨name, key, blocks.map (Block.chunkMetadata sha1)⟩,
    if_neg (Nat.not_lt_of_le hsize), by rw [hcalls], ?_, by rw [hcalls]; rfl,
    by rw [List.length_map, hseals.length_eq], fun n => FileUploader.getMetadata_eq_error, hoks, ?_⟩
  · intro c hc
    obtain ⟨i, hi, rfl⟩ := List.getElem_of_mem hc
    exact (hseals.get (hseals.length_eq ▸ hi) hi).length_data hA
  · rw [FileDownloader.written, hbuf, List.append_nil, hflat] at hwritten
    rcases hw : ((FileDownloader.new ⟨name, key, blocks.map (Block.chunkMetadata sha1)⟩).storeAll A build
      chunks).2.fileWriter with ⟨file, buffer⟩
    rw [hw] at hwritten hbuf
    rw [FileWriter.mk.injEq]
    exact ⟨hwritten, hbuf⟩

/-- A cipher that appends four bytes of the key and the nonce as its tag. -/
def tagAead : Aead where
  encrypt := fun key nonce payload =>
    if key.length = 32 ∧ nonce.length = 12 then some (payload ++ (key.take 4 ++ nonce)) else none
  decrypt := fun key nonce text =>
    if key.length = 32 ∧ nonce.length = 12 ∧ text.drop (text.length - 16) = key.take 4 ++ nonce
    then some (text.take (text.length - 16)) else none

theorem tagAead_lawful : tagAead.Lawful where
  encrypt_isSome := fun hkey hnonce _ => by simp only [tagAead, hkey, hnonce, and_self, if_true, Option.isSome_some]
  length_encrypt := by
    intro key nonce payload c h
    simp only [tagAead, Option.ite_none_right_eq_some, Option.some.injEq] at h
    obtain ⟨⟨hkey, hnonce⟩, rfl⟩ := h
    simp only [List.length_append, List.length_take, hkey, hnonce]
    rfl
  decrypt_encrypt := by
    intro key nonce payload c h
    simp only [tagAead, Option.ite_none_right_eq_some, Option.some.injEq] at h
    obtain ⟨⟨hkey, hnonce⟩, rfl⟩ := h
    have hlen : (payload ++ (key.take 4 ++ nonce)).length - 16 = payload.length := by
      simp only [List.length_append, List.length_take, hkey, hnonce]
      omega
    simp only [tagAead, hlen, List.drop_left, List.take_left, hkey, hnonce, and_self, if_true]

def zeroDraw : Draw := ⟨2, fun _ => 0, List.replicate 12 0, by decide, by decide, rfl⟩

theorem chunk_codec_round_trip_three :
    ∃ up chunks md, FileUploader.new "f".toList [1, 2, 3] (List.replicate 32 7) = .ok up ∧
      (up.calls tagAead (fun _ => Key.ofTopByte 0 0) (fun _ => zeroDraw) (chunks.length + 1)).1 =
        chunks.map (.ok ∘ some) ++ [.ok none] ∧
      (∀ c ∈ chunks, c.data.length = encryptedChunkSizeB) ∧
      (up.calls tagAead (fun _ => Key.ofTopByte 0 0) (fun _ => zeroDraw) (chunks.length + 1)).2.getMetadata =
        .ok md ∧
      md.chunksMetadata.length = chunks.length ∧
      (∀ n, (up.calls tagAead (fun _ => Key.ofTopByte 0 0) (fun _ => zeroDraw) n).2.remaining ≠ [] →
        (up.calls tagAead (fun _ => Key.ofTopByte 0 0) (fun _ => zeroDraw) n).2.getMetadata =
          .error .metadataNotFilled) ∧
      ((FileDownloader.new md).storeAll tagAead .debug chunks).1 = chunks.map (fun _ => .ok ()) ∧
      ((FileDownloader.new md).storeAll tagAead .debug chunks).2.fileWriter = ⟨[1, 2, 3], []⟩ :=
  chunk_codec_round_trip tagAead tagAead_lawful .debug (fun _ => Key.ofTopByte 0 0) "f".toList [1, 2, 3]
    (List.replicate 32 7) (fun _ => zeroDraw) (by decide) (by decide)

end Codec
end P2PFilesystem
