import P2PFilesystem.NodeInfo
import P2PFilesystem.Sharding
import Mathlib.Data.List.AList

/-!
# The chunk store of a node

`storage/data_transfers_table.rs` and `storage/shard_storage_manager.rs`. Chunk files are
named by their hash, so the storage directory is a map from keys to files. The outcome of
the file operations and the clock are arguments.

The files are those of tokio: a write of up to 2 MiB, and no chunk is larger, is copied into
a buffer and reported as done, and the buffer is written by a task in the background. Nothing
flushes the file, so nobody waits for that task or hears of its errors.
-/
namespace P2PFilesystem

structure DataTransfer where
  sender : NodeInfo
  chunkHash : Key
  deriving DecidableEq

abbrev DataTransfersTable := AList fun _ : UInt16 => DataTransfer

/-- `DataTransfersTable::add`: the entry is replaced, and the one replaced is returned. -/
def DataTransfersTable.add (self : DataTransfersTable) (port : UInt16) (sender : NodeInfo) (chunkHash : Key) :
    Option DataTransfer × DataTransfersTable :=
  (self.lookup port, self.insert port ⟨sender, chunkHash⟩)

inductive ShardStorageError where
  | maxShardsExceeded
  | invalidChunkSize
  | storageMemoryExceeded
  | chunkAlreadyStored
  | dataTransferNotFound
  | chunkNotFound
  | chunkDeletionFailed
  | chunkNotFoundInStorage
  | ioError
  deriving DecidableEq

/-- A chunk file: the bytes on disk, and those that a task in the background will still append. -/
structure ChunkFile where
  onDisk : Bytes
  unwritten : Bytes
  deriving DecidableEq

namespace ChunkFile

/-- What the file holds in the end. -/
def content (self : ChunkFile) : Bytes := self.onDisk ++ self.unwritten

/-- The background task has got on by so many bytes. -/
def progress (self : ChunkFile) (count : Nat) : ChunkFile :=
  ⟨self.onDisk ++ self.unwritten.take count, self.unwritten.drop count⟩

@[simp] theorem content_progress (file : ChunkFile) (count : Nat) : (file.progress count).content = file.content := by
  unfold content progress
  rw [List.append_assoc, List.take_append_drop]

end ChunkFile

/-- What creating and writing a chunk file comes to. `ok`: all bytes are on disk when the call
returns. `background`: so many are, and so many more follow; if these are not all, the write
in the background fails after the call has returned. `writeRefused`: the task for the
background cannot be started, because the runtime is shutting down. -/
inductive StoreIo where
  | ok
  | createFails
  | writeRefused
  | background (before after : Nat)
  deriving DecidableEq

namespace StoreIo

/-- `write_all` on the new file: the file as it is when the call returns `Ok`. No task is
needed to write nothing. -/
def writeAll (data : Bytes) : StoreIo → Option ChunkFile
  | .ok => some ⟨data, []⟩
  | .createFails => none
  | .writeRefused => if data = [] then some ⟨[], []⟩ else none
  | .background before after => some ⟨data.take before, (data.drop before).take after⟩

/-- No operation on the file fails, neither before nor after the call returns. -/
def Works (io : StoreIo) (data : Bytes) : Prop := ∃ file, io.writeAll data = some file ∧ file.content = data

theorem works_ok (data : Bytes) : StoreIo.ok.Works data := ⟨_, rfl, List.append_nil data⟩

theorem writeAll_eq_none {io : StoreIo} {data : Bytes} :
    io.writeAll data = none ↔ io = .createFails ∨ io = .writeRefused ∧ data ≠ [] := by
  cases io with
  | ok => simp [writeAll]
  | createFails => simp [writeAll]
  | writeRefused => simp [writeAll]
  | background before after => simp [writeAll]

/-- On disk and on its way there is nothing but the beginning of the data. -/
theorem content_isPrefix {io : StoreIo} {data : Bytes} {file : ChunkFile} (h : io.writeAll data = some file) :
    file.content <+: data := by
  cases io with
  | ok =>
      cases h
      rw [ChunkFile.content, List.append_nil]
  | createFails => cases h
  | writeRefused =>
      rw [writeAll] at h
      split_ifs at h
      cases h
      exact List.nil_prefix
  | background before after =>
      cases h
      calc data.take before ++ (data.drop before).take after <+: data.take before ++ data.drop before :=
            (List.prefix_append_right_inj _).mpr (List.take_prefix _ _)
        _ = data := List.take_append_drop _ _

end StoreIo

def defaultChunkReuploadIntervalS : Nat := 3600

def defaultChunkExpireTimeS : Nat := 86400

/-- `owned_chunks` maps a hash to the time it was stored at. -/
structure ShardStorageManager where
  files : AList fun _ : Key => ChunkFile
  ownedChunks : AList fun _ : Key => Nat
  dataTransfersTable : DataTransfersTable
  totalStoredKb : Nat
  reuploadIntervalS : Nat
  expireTimeS : Nat

namespace ShardStorageManager

/-- The files that a node finds when it is started: nothing is under way. -/
def written (files : AList fun _ : Key => Bytes) : AList fun _ : Key => ChunkFile :=
  ⟨files.entries.map fun e => ⟨e.1, ⟨e.2, []⟩⟩, by
    rw [List.NodupKeys, List.keys, List.map_map]
    exact files.nodupKeys⟩

theorem lookup_written (files : AList fun _ : Key => Bytes) (hash : Key) :
    (written files).lookup hash = (files.lookup hash).map fun data => ⟨data, []⟩ := by
  ext file
  rw [← Option.mem_def, AList.mem_lookup_iff, Option.map_eq_some_iff]
  constructor
  · intro hmem
    obtain ⟨e, he, heq⟩ := List.mem_map.mp hmem
    cases heq
    exact ⟨e.2, AList.mem_lookup_iff.mpr he, rfl⟩
  · rintro ⟨data, hdata, rfl⟩
    exact List.mem_map.mpr ⟨⟨hash, data⟩, AList.mem_lookup_iff.mp hdata, rfl⟩

/-- `ShardStorageManager::new` on a directory with these files. -/
def new (files : AList fun _ : Key => Bytes) : ShardStorageManager :=
  ⟨written files, ∅, ∅, 0, defaultChunkReuploadIntervalS, defaultChunkExpireTimeS⟩

def afterStore (self : ShardStorageManager) (file : ChunkFile) (port : UInt16) (hash : Key) (now : Nat) :
    ShardStorageManager :=
  { self with
    files := self.files.insert hash file
    ownedChunks := self.ownedChunks.insert hash now
    dataTransfersTable := self.dataTransfersTable.erase port }

/-- The file was created and stays empty. -/
def afterRefusedWrite (self : ShardStorageManager) (port : UInt16) (hash : Key) : ShardStorageManager :=
  { self with
    files := self.files.insert hash ⟨[], []⟩
    dataTransfersTable := self.dataTransfersTable.erase port }

/-- `store_chunk_for_known_peer` where `MAX_SHARDS_STORED` is the parameter. -/
def storeChunkWithin (maxShards : Nat) (self : ShardStorageManager) (data : Bytes) (port : UInt16) (io : StoreIo)
    (now : Nat) : Except ShardStorageError Unit × ShardStorageManager :=
  match self.dataTransfersTable.lookup port with
  | none => (.error .dataTransferNotFound, self)
  | some transfer =>
      if self.ownedChunks.entries.length ≥ maxShards then (.error .maxShardsExceeded, self)
      else if data.length > encryptedChunkSizeB then (.error .invalidChunkSize, self)
      else if maxDataStoredMb * 1024 - self.totalStoredKb < data.length then
        (.error .storageMemoryExceeded, self)
      else if (self.files.lookup transfer.chunkHash).isSome then (.error .chunkAlreadyStored, self)
      else if io = .createFails then (.error .ioError, self)
      else match io.writeAll data with
        | none => (.error .ioError, self.afterRefusedWrite port transfer.chunkHash)
        | some file => (.ok (), self.afterStore file port transfer.chunkHash now)

def storeChunkForKnownPeer (self : ShardStorageManager) (data : Bytes) (port : UInt16) (io : StoreIo)
    (now : Nat) : Except ShardStorageError Unit × ShardStorageManager :=
  self.storeChunkWithin maxShardsStored data port io now

/-- The background task of a chunk file gets on. -/
def continueWrite (self : ShardStorageManager) (hash : Key) (count : Nat) : ShardStorageManager :=
  match self.files.lookup hash with
  | some file => { self with files := self.files.insert hash (file.progress count) }
  | none => self

/-- `fs::read` gives what is on disk. -/
def readChunk (self : ShardStorageManager) (chunkHash : Key) : Except ShardStorageError Bytes :=
  match self.files.lookup chunkHash with
  | some file => .ok file.onDisk
  | none => .error .chunkNotFound

def isChunkAlreadyStored (self : ShardStorageManager) (hash : Key) : Bool :=
  (self.ownedChunks.lookup hash).isSome

def addActiveTcpConnection (self : ShardStorageManager) (port : UInt16) (sender : NodeInfo)
    (chunkHash : Key) : Option DataTransfer × ShardStorageManager :=
  let (old, table) := self.dataTransfersTable.add port sender chunkHash
  (old, { self with dataTransfersTable := table })

def updateChunkUploadTime (self : ShardStorageManager) (hash : Key) (now : Nat) :
    Except ShardStorageError Unit × ShardStorageManager :=
  match self.ownedChunks.lookup hash with
  | some _ => (.ok (), { self with ownedChunks := self.ownedChunks.replace hash now })
  | none => (.error .chunkNotFoundInStorage, self)

def isDead (self : ShardStorageManager) (now : Nat) (hash : Key) : Bool :=
  match self.ownedChunks.lookup hash with
  | some timeStoredAt => now - timeStoredAt ≥ self.expireTimeS * nanosPerS
  | none => false

/-- `HashMap::retain`. -/
def retain {β : Type*} (keep : Key → Bool) (map : AList fun _ : Key => β) : AList fun _ : Key => β :=
  ⟨map.entries.filter fun e => keep e.1, map.nodupKeys.sublist List.filter_sublist⟩

/-- Chunk files are deleted one after the other, up to the first that cannot be deleted. What a
background task still appends to a deleted file is lost. -/
def deleteFiles (deletable : Key → Bool) : List Key → (AList fun _ : Key => ChunkFile) →
    Except ShardStorageError Unit × AList fun _ : Key => ChunkFile
  | [], files => (.ok (), files)
  | hash :: rest, files =>
      if (files.lookup hash).isSome && deletable hash then deleteFiles deletable rest (files.erase hash)
      else (.error .chunkDeletionFailed, files)

/-- `iter` lists the keys of the map in the order in which it is iterated. -/
def removeDeadChunks (self : ShardStorageManager) (now : Nat) (iter : List Key) (deletable : Key → Bool) :
    Except ShardStorageError Unit × ShardStorageManager :=
  let dead := iter.filter (self.isDead now)
  match deleteFiles deletable dead self.files with
  | (.error e, files) => (.error e, { self with files := files })
  | (.ok _, files) => (.ok (), { self with
      files := files
      ownedChunks := retain (fun hash => hash ∉ dead) self.ownedChunks })

/-- Over the keys of `owned_chunks` as the map is iterated, `iter`. -/
def getChunksCloserToNodeThanToMe (iter : List Key) (myId otherNodeId : Key) : List Key :=
  iter.filter fun chunkHash => (chunkHash.distance otherNodeId).cmp (chunkHash.distance myId) = .lt

def owns (self : ShardStorageManager) (hash : Key) : Prop := (self.ownedChunks.lookup hash).isSome

/-- The hash that a store of received data is for. -/
def transferHash (self : ShardStorageManager) (port : UInt16) : Option Key :=
  (self.dataTransfersTable.lookup port).map DataTransfer.chunkHash

theorem transferHash_eq {m : ShardStorageManager} {port : UInt16} {transfer : DataTransfer}
    (ht : m.dataTransfersTable.lookup port = some transfer) : m.transferHash port = some transfer.chunkHash := by
  rw [transferHash, ht]
  rfl

/-- What the file of a chunk holds once the writes under way are done. -/
def content (self : ShardStorageManager) (hash : Key) : Option Bytes := (self.files.lookup hash).map ChunkFile.content

theorem content_of_lookup {m : ShardStorageManager} {hash : Key} {file : ChunkFile} (h : m.files.lookup hash = some file) :
    m.content hash = some file.content := by
  rw [content, h]
  rfl

theorem isSome_lookup_of_content {m : ShardStorageManager} {hash : Key} {text : Bytes} (h : m.content hash = some text) :
    (m.files.lookup hash).isSome := by
  obtain ⟨file, hfile, -⟩ := Option.map_eq_some_iff.mp h
  rw [hfile]
  rfl

/-- Nothing that is stored gets lost or replaced, and only the transfer on the port may go. -/
structure Grows (m m' : ShardStorageManager) (port : UInt16) : Prop where
  total_eq : m'.totalStoredKb = m.totalStoredKb
  transfer_eq : ∀ q, q ≠ port → m'.dataTransfersTable.lookup q = m.dataTransfersTable.lookup q
  file_kept : ∀ h d, m.files.lookup h = some d → m'.files.lookup h = some d
  owns_kept : ∀ h, m.owns h → m'.owns h

/-- What a store of a transferred chunk may change: a file under a free name, the entry of
the chunk, the transfer on the port. -/
structure Stores (m m' : ShardStorageManager) (port : UInt16) (hash : Key) : Prop extends m.Grows m' port where
  file_other : ∀ h, h ≠ hash → m'.files.lookup h = m.files.lookup h
  owns_other : ∀ h, h ≠ hash → (m'.owns h ↔ m.owns h)

theorem Grows.refl (m : ShardStorageManager) (port : UInt16) : m.Grows m port :=
  ⟨rfl, fun _ _ => rfl, fun _ _ h => h, fun _ h => h⟩

theorem Grows.content_kept {m m' : ShardStorageManager} {port : UInt16} (h : m.Grows m' port) {hash : Key} {d : Bytes}
    (hd : m.content hash = some d) : m'.content hash = some d := by
  obtain ⟨file, hfile, rfl⟩ := Option.map_eq_some_iff.mp hd
  rw [content, h.file_kept hash file hfile]
  rfl

theorem Stores.refl (m : ShardStorageManager) (port : UInt16) (hash : Key) : m.Stores m port hash :=
  ⟨.refl m port, fun _ _ => rfl, fun _ _ => Iff.rfl⟩

theorem lookup_insert_of_none {β : Type*} {s : AList fun _ : Key => β} {h k : Key} {a b : β}
    (hk : s.lookup k = none) (ha : s.lookup h = some a) : (s.insert k b).lookup h = some a := by
  rw [AList.lookup_insert_ne, ha]
  rintro rfl
  rw [hk] at ha
  cases ha

/-- The checks before the chunk file is created, with the limit as a parameter. -/
structure AdmitsWithin (maxShards : Nat) (m : ShardStorageManager) (data : Bytes) (hash : Key) : Prop where
  room : m.ownedChunks.entries.length < maxShards
  size : data.length ≤ encryptedChunkSizeB
  memory : data.length ≤ maxDataStoredMb * 1024 - m.totalStoredKb
  free : m.files.lookup hash = none

abbrev Admits (m : ShardStorageManager) (data : Bytes) (hash : Key) : Prop :=
  m.AdmitsWithin maxShardsStored data hash

/-- The checks are passed and `write_all` returns `Ok`. -/
structure Accepts (m : ShardStorageManager) (data : Bytes) (hash : Key) (io : StoreIo) : Prop where
  admits : m.Admits data hash
  written : (io.writeAll data).isSome

/-- If the data is accepted all of it is on disk when the store returns. -/
def WrittenAtOnce (m : ShardStorageManager) (data : Bytes) (port : UInt16) (io : StoreIo) : Prop :=
  ∀ hash, m.transferHash port = some hash → m.Admits data hash →
    ∀ file, io.writeAll data = some file → file.onDisk = data

section AfterStore
variable (m : ShardStorageManager) (file : ChunkFile) (port : UInt16) (hash : Key) (now : Nat) (h : Key)

theorem lookup_files_afterStore :
    (m.afterStore file port hash now).files.lookup h = if h = hash then some file else m.files.lookup h := by
  unfold afterStore
  split_ifs with heq
  · rw [heq, AList.lookup_insert]
  · exact AList.lookup_insert_ne heq

theorem lookup_ownedChunks_afterStore :
    (m.afterStore file port hash now).ownedChunks.lookup h = if h = hash then some now else m.ownedChunks.lookup h := by
  unfold afterStore
  split_ifs with heq
  · rw [heq, AList.lookup_insert]
  · exact AList.lookup_insert_ne heq

theorem owns_afterStore : (m.afterStore file port hash now).owns h ↔ h = hash ∨ m.owns h := by
  unfold owns
  rw [lookup_ownedChunks_afterStore]
  split_ifs with heq
  · exact iff_of_true rfl (.inl heq)
  · exact (or_iff_right heq).symm

theorem content_afterStore :
    (m.afterStore file port hash now).content h = if h = hash then some file.content else m.content h := by
  rw [content, lookup_files_afterStore, content]
  split_ifs
  · rfl
  · rfl

theorem lookup_files_afterRefusedWrite : (m.afterRefusedWrite port hash).files.lookup h =
    if h = hash then some ⟨[], []⟩ else m.files.lookup h := by
  unfold afterRefusedWrite
  split_ifs with heq
  · rw [heq, AList.lookup_insert]
  · exact AList.lookup_insert_ne heq

end AfterStore

section ContinueWrite
variable (m : ShardStorageManager) (hash : Key) (count : Nat)

theorem lookup_files_continueWrite (h : Key) : (m.continueWrite hash count).files.lookup h =
    if h = hash then (m.files.lookup h).map (·.progress count) else m.files.lookup h := by
  unfold continueWrite
  cases hfile : m.files.lookup hash with
  | none =>
      split_ifs with heq
      · rw [heq, hfile]
        rfl
      · rfl
  | some file =>
      dsimp only
      split_ifs with heq
      · rw [heq, AList.lookup_insert, hfile]
        rfl
      · exact AList.lookup_insert_ne heq

@[simp] theorem ownedChunks_continueWrite : (m.continueWrite hash count).ownedChunks = m.ownedChunks := by
  unfold continueWrite
  split <;> rfl

@[simp] theorem dataTransfersTable_continueWrite :
    (m.continueWrite hash count).dataTransfersTable = m.dataTransfersTable := by
  unfold continueWrite
  split <;> rfl

@[simp] theorem totalStoredKb_continueWrite : (m.continueWrite hash count).totalStoredKb = m.totalStoredKb := by
  unfold continueWrite
  split <;> rfl

@[simp] theorem owns_continueWrite (h : Key) : (m.continueWrite hash count).owns h ↔ m.owns h := by
  rw [owns, ownedChunks_continueWrite, owns]

/-- Writing on changes no file's content in the end. -/
@[simp] theorem content_continueWrite (h : Key) : (m.continueWrite hash count).content h = m.content h := by
  rw [content, lookup_files_continueWrite, content]
  split_ifs
  · rw [Option.map_map]
    exact Option.map_congr fun file _ => file.content_progress count
  · rfl

@[simp] theorem isSome_lookup_continueWrite (h : Key) :
    ((m.continueWrite hash count).files.lookup h).isSome = (m.files.lookup h).isSome := by
  rw [lookup_files_continueWrite]
  split_ifs
  · exact Option.isSome_map
  · rfl

end ContinueWrite

/-- Everything a store can do. -/
theorem storeChunkWithin_cases (maxShards : Nat) (m : ShardStorageManager) (data : Bytes) (port : UInt16)
    (io : StoreIo) (now : Nat) :
    (∃ e, m.storeChunkWithin maxShards data port io now = (.error e, m)) ∧
      (∀ transfer, m.dataTransfersTable.lookup port = some transfer →
        m.AdmitsWithin maxShards data transfer.chunkHash → io = .createFails) ∨
    ∃ transfer, m.dataTransfersTable.lookup port = some transfer ∧
      m.AdmitsWithin maxShards data transfer.chunkHash ∧ io ≠ .createFails ∧
      ((∃ file, io.writeAll data = some file ∧ m.storeChunkWithin maxShards data port io now =
          (.ok (), m.afterStore file port transfer.chunkHash now)) ∨
        io.writeAll data = none ∧ m.storeChunkWithin maxShards data port io now =
          (.error .ioError, m.afterRefusedWrite port transfer.chunkHash)) := by
  unfold storeChunkWithin
  cases ht : m.dataTransfersTable.lookup port with
  | none => exact .inl ⟨⟨_, rfl⟩, nofun⟩
  | some transfer =>
      dsimp only
      -- a refusal for a reason that contradicts the checks
      have hrefuse : ∀ {e : ShardStorageError}, ¬ m.AdmitsWithin maxShards data transfer.chunkHash →
          (∃ e', ((.error e, m) : Except ShardStorageError Unit × ShardStorageManager) = (.error e', m)) ∧
          ∀ t, some transfer = some t → m.AdmitsWithin maxShards data t.chunkHash → io = .createFails := by
        intro e hno
        refine ⟨⟨e, rfl⟩, ?_⟩
        rintro t ⟨⟩ ha
        exact absurd ha hno
      by_cases hroom : m.ownedChunks.entries.length ≥ maxShards
      · rw [if_pos hroom]
        exact .inl (hrefuse fun ha => Nat.not_lt_of_le hroom ha.room)
      by_cases hsize : data.length > encryptedChunkSizeB
      · rw [if_neg hroom, if_pos hsize]
        exact .inl (hrefuse fun ha => Nat.not_le_of_lt hsize ha.size)
      by_cases hmem : maxDataStoredMb * 1024 - m.totalStoredKb < data.length
      · rw [if_neg hroom, if_neg hsize, if_pos hmem]
        exact .inl (hrefuse fun ha => Nat.not_le_of_lt hmem ha.memory)
      by_cases hfile : (m.files.lookup transfer.chunkHash).isSome
      · rw [if_neg hroom, if_neg hsize, if_neg hmem, if_pos hfile]
        exact .inl (hrefuse fun ha => by rw [ha.free] at hfile; cases hfile)
      rw [if_neg hroom, if_neg hsize, if_neg hmem, if_neg hfile]
      have hadmits : m.AdmitsWithin maxShards data transfer.chunkHash :=
        ⟨Nat.lt_of_not_le hroom, Nat.le_of_not_lt hsize, Nat.le_of_not_lt hmem, by simpa using hfile⟩
      by_cases hcreate : io = .createFails
      · rw [if_pos hcreate]
        exact .inl ⟨⟨_, rfl⟩, fun _ _ _ => hcreate⟩
      · rw [if_neg hcreate]
        refine .inr ⟨transfer, rfl, hadmits, hcreate, ?_⟩
        cases io.writeAll data with
        | none => exact .inr ⟨rfl, rfl⟩
        | some file => exact .inl ⟨file, rfl, rfl⟩

theorem storeChunkForKnownPeer_cases (m : ShardStorageManager) (data : Bytes) (port : UInt16) (io : StoreIo)
    (now : Nat) :
    (∃ e, m.storeChunkForKnownPeer data port io now = (.error e, m)) ∧
      (∀ transfer, m.dataTransfersTable.lookup port = some transfer → m.Admits data transfer.chunkHash →
        io = .createFails) ∨
    ∃ transfer, m.dataTransfersTable.lookup port = some transfer ∧ m.Admits data transfer.chunkHash ∧
      io ≠ .createFails ∧
      ((∃ file, io.writeAll data = some file ∧ m.storeChunkForKnownPeer data port io now =
          (.ok (), m.afterStore file port transfer.chunkHash now)) ∨
        io.writeAll data = none ∧ m.storeChunkForKnownPeer data port io now =
          (.error .ioError, m.afterRefusedWrite port transfer.chunkHash)) :=
  storeChunkWithin_cases maxShardsStored m data port io now

theorem storeChunkForKnownPeer_of_admits {m : ShardStorageManager} {data : Bytes} {port : UInt16}
    {transfer : DataTransfer} (ht : m.dataTransfersTable.lookup port = some transfer)
    (h : m.Admits data transfer.chunkHash) {io : StoreIo} {file : ChunkFile} (hio : io.writeAll data = some file)
    (now : Nat) :
    m.storeChunkForKnownPeer data port io now = (.ok (), m.afterStore file port transfer.chunkHash now) := by
  rcases m.storeChunkForKnownPeer_cases data port io now with
    ⟨-, hno⟩ | ⟨t, ht', -, -, ⟨file', hio', hok⟩ | ⟨hnone, -⟩⟩
  · rw [hno transfer ht h] at hio
    cases hio
  · cases ht.symm.trans ht'
    cases hio.symm.trans hio'
    exact hok
  · cases hio.symm.trans hnone

theorem storeChunkForKnownPeer_spec {m : ShardStorageManager} {port : UInt16} {transfer : DataTransfer}
    (h : m.dataTransfersTable.lookup port = some transfer) (data : Bytes) (io : StoreIo) (now : Nat) :
    let stored := m.storeChunkForKnownPeer data port io now
    m.Stores stored.2 port transfer.chunkHash ∧
    (stored.1 = .ok () ↔ m.Accepts data transfer.chunkHash io) ∧
    (stored.1 = .ok () →
      stored.2.files.lookup transfer.chunkHash = io.writeAll data ∧ stored.2.owns transfer.chunkHash) ∧
    (stored.1 ≠ .ok () → (stored.2.owns transfer.chunkHash ↔ m.owns transfer.chunkHash)) := by
  intro stored
  have hstored : stored = m.storeChunkForKnownPeer data port io now := rfl
  rcases m.storeChunkForKnownPeer_cases data port io now with
    ⟨⟨e, he⟩, hno⟩ | ⟨t, ht, hadmits, -, ⟨file, hio, hok⟩ | ⟨hnone, hfail⟩⟩
  · rw [hstored, he]
    refine ⟨.refl m port _, iff_of_false nofun fun ha => ?_, nofun, fun _ => Iff.rfl⟩
    have hwritten := ha.written
    rw [hno transfer h ha.admits] at hwritten
    cases hwritten
  · rw [h, Option.some.injEq] at ht
    subst ht
    rw [hstored, hok]
    refine ⟨⟨⟨rfl, fun q hq => AList.lookup_erase_ne hq, fun k d hk => lookup_insert_of_none hadmits.free hk,
      fun k hk => ?_⟩, fun k hk => AList.lookup_insert_ne hk, fun k hk => ?_⟩,
      iff_of_true rfl ⟨hadmits, by rw [hio]; rfl⟩,
      fun _ => ⟨(AList.lookup_insert _).trans hio.symm, ?_⟩, fun hne => absurd rfl hne⟩
    · exact (owns_afterStore m file port _ now k).mpr (.inr hk)
    · rw [owns_afterStore, or_iff_right hk]
    · exact (owns_afterStore m file port _ now _).mpr (.inl rfl)
  · rw [h, Option.some.injEq] at ht
    subst ht
    rw [hstored, hfail]
    refine ⟨⟨⟨rfl, fun q hq => AList.lookup_erase_ne hq, fun k d hk => lookup_insert_of_none hadmits.free hk,
      fun _ hk => hk⟩, fun k hk => AList.lookup_insert_ne hk, fun _ _ => Iff.rfl⟩,
      iff_of_false nofun fun ha => ?_, nofun, fun _ => Iff.rfl⟩
    have hwritten := ha.written
    rw [hnone] at hwritten
    cases hwritten

/-- A file of the chunk was there before, or is what the write made of the data. -/
theorem storeChunkForKnownPeer_file_from {m : ShardStorageManager} {port : UInt16} {transfer : DataTransfer}
    (h : m.dataTransfersTable.lookup port = some transfer) {data : Bytes} {file : ChunkFile} {io : StoreIo}
    {now : Nat} (hfile : (m.storeChunkForKnownPeer data port io now).2.files.lookup transfer.chunkHash = some file) :
    m.files.lookup transfer.chunkHash = some file ∨
    (m.storeChunkForKnownPeer data port io now).1 = .ok () ∧ io.writeAll data = some file ∨
    io ≠ .createFails ∧ io.writeAll data = none ∧ file = ⟨[], []⟩ := by
  rcases m.storeChunkForKnownPeer_cases data port io now with
    ⟨⟨e, he⟩, -⟩ | ⟨t, ht, -, hcreate, ⟨file', hio, hok⟩ | ⟨hnone, hfail⟩⟩
  · rw [he] at hfile
    exact .inl hfile
  · rw [h, Option.some.injEq] at ht
    subst ht
    rw [hok, lookup_files_afterStore, if_pos rfl] at hfile
    exact .inr (.inl ⟨by rw [hok], hio.trans hfile⟩)
  · rw [h, Option.some.injEq] at ht
    subst ht
    rw [hfail, lookup_files_afterRefusedWrite, if_pos rfl] at hfile
    exact .inr (.inr ⟨hcreate, hnone, (Option.some.inj hfile).symm⟩)

theorem storeChunkForKnownPeer_of_none {m : ShardStorageManager} {port : UInt16}
    (h : m.dataTransfersTable.lookup port = none) (data : Bytes) (io : StoreIo) (now : Nat) :
    m.storeChunkForKnownPeer data port io now = (.error .dataTransferNotFound, m) := by
  unfold storeChunkForKnownPeer storeChunkWithin
  rw [h]

theorem storeChunkForKnownPeer_grows (m : ShardStorageManager) (data : Bytes) (port : UInt16) (io : StoreIo)
    (now : Nat) : m.Grows (m.storeChunkForKnownPeer data port io now).2 port := by
  cases h : m.dataTransfersTable.lookup port with
  | none =>
      rw [storeChunkForKnownPeer_of_none h]
      exact .refl m port
  | some transfer => exact (storeChunkForKnownPeer_spec h data io now).1.toGrows

theorem updateChunkUploadTime_spec (m : ShardStorageManager) (hash : Key) (now : Nat) :
    (m.updateChunkUploadTime hash now).2.files = m.files ∧
    (m.updateChunkUploadTime hash now).2.dataTransfersTable = m.dataTransfersTable ∧
    (m.updateChunkUploadTime hash now).2.totalStoredKb = m.totalStoredKb ∧
    ∀ h, (m.updateChunkUploadTime hash now).2.owns h ↔ m.owns h := by
  unfold updateChunkUploadTime
  cases m.ownedChunks.lookup hash with
  | none => exact ⟨rfl, rfl, rfl, fun _ => Iff.rfl⟩
  | some t =>
      refine ⟨rfl, rfl, rfl, fun h => ?_⟩
      rw [owns, owns, AList.lookup_isSome, AList.lookup_isSome]
      exact AList.mem_replace

theorem lookup_replace {β : Type*} (map : AList fun _ : Key => β) (hash : Key) (b : β) (h : Key) :
    (map.replace hash b).lookup h = if h = hash then (map.lookup h).map fun _ => b else map.lookup h := by
  change (map.entries.kreplace hash b).dlookup h =
    if h = hash then (map.entries.dlookup h).map fun _ => b else map.entries.dlookup h
  induction map.entries with
  | nil => split_ifs <;> rfl
  | cons e l ih =>
      obtain ⟨k, a⟩ := e
      rw [List.kreplace]
      by_cases hk : hash = k
      · subst hk
        rw [List.lookmap_cons_some _ _ (by exact if_pos rfl)]
        by_cases hh : h = hash
        · subst hh
          rw [if_pos rfl, List.dlookup_cons_eq, List.dlookup_cons_eq, Option.map_some]
        · rw [if_neg hh, List.dlookup_cons_ne _ _ hh, List.dlookup_cons_ne _ _ hh]
      · rw [List.lookmap_cons_none _ _ (by exact if_neg hk)]
        by_cases hh : h = k
        · subst hh
          rw [if_neg (Ne.symm hk), List.dlookup_cons_eq, List.dlookup_cons_eq]
        · rw [List.dlookup_cons_ne _ _ hh, List.dlookup_cons_ne _ _ hh]
          exact ih

/-- The time of the chunk is set if it is owned, and no other. -/
theorem lookup_updateChunkUploadTime (m : ShardStorageManager) (hash : Key) (now : Nat) (h : Key) :
    (m.updateChunkUploadTime hash now).2.ownedChunks.lookup h =
      if h = hash then (m.ownedChunks.lookup h).map fun _ => now else m.ownedChunks.lookup h := by
  unfold updateChunkUploadTime
  cases hold : m.ownedChunks.lookup hash with
  | some t => exact lookup_replace _ _ _ _
  | none =>
      split_ifs with hh
      · rw [hh, hold]
        rfl
      · rfl

theorem length_updateChunkUploadTime (m : ShardStorageManager) (hash : Key) (now : Nat) :
    (m.updateChunkUploadTime hash now).2.ownedChunks.entries.length = m.ownedChunks.entries.length := by
  unfold updateChunkUploadTime
  cases m.ownedChunks.lookup hash with
  | none => rfl
  | some t =>
      have hkeys := congrArg List.length (AList.keys_replace hash now m.ownedChunks)
      simpa only [AList.keys, List.keys, List.length_map] using hkeys

theorem lookup_retain {β : Type*} (keep : Key → Bool) (map : AList fun _ : Key => β) (h : Key) :
    (retain keep map).lookup h = if keep h then map.lookup h else none := by
  ext b
  rw [← Option.mem_def, AList.mem_lookup_iff]
  change _ ∈ map.entries.filter _ ↔ _
  rw [List.mem_filter, ← AList.mem_lookup_iff, Option.mem_def]
  cases keep h with
  | true => simp only [and_true, if_true]
  | false => simp

/-- Files that are there and can be deleted go one after the other; the others stay for what follows. -/
theorem deleteFiles_append (deletable : Key → Bool) {before : List Key} (hbefore : before.Nodup)
    (hdel : ∀ h ∈ before, deletable h = true) (after : List Key) (files : AList fun _ : Key => ChunkFile)
    (hfiles : ∀ h ∈ before, (files.lookup h).isSome) :
    ∃ rest, deleteFiles deletable (before ++ after) files = deleteFiles deletable after rest ∧
      ∀ h, rest.lookup h = if h ∈ before then none else files.lookup h := by
  induction before generalizing files with
  | nil => exact ⟨files, rfl, fun h => by rw [if_neg List.not_mem_nil]⟩
  | cons k before ih =>
      obtain ⟨hk, hnodup⟩ := List.nodup_cons.mp hbefore
      have hne : ∀ h ∈ before, h ≠ k := by
        rintro h hh rfl
        exact hk hh
      obtain ⟨rest, hrest, hlookup⟩ := ih hnodup (fun h hh => hdel h (List.mem_cons_of_mem k hh))
        (files.erase k) fun h hh => by
          rw [AList.lookup_erase_ne (hne h hh)]
          exact hfiles h (List.mem_cons_of_mem k hh)
      refine ⟨rest, ?_, fun h => ?_⟩
      · rw [List.cons_append, deleteFiles, hfiles k List.mem_cons_self, hdel k List.mem_cons_self]
        exact hrest
      · rw [hlookup]
        by_cases heq : h = k
        · subst heq
          simp only [AList.lookup_erase, ite_self, List.mem_cons_self, if_true]
        · simp only [AList.lookup_erase_ne heq, List.mem_cons, heq, false_or]

theorem deleteFiles_ok (deletable : Key → Bool) {dead : List Key} (hdead : dead.Nodup)
    (hdel : ∀ h ∈ dead, deletable h = true) (files : AList fun _ : Key => ChunkFile)
    (hfiles : ∀ h ∈ dead, (files.lookup h).isSome) :
    ∃ rest, deleteFiles deletable dead files = (.ok (), rest) ∧
      ∀ h, rest.lookup h = if h ∈ dead then none else files.lookup h := by
  have hall := deleteFiles_append deletable hdead hdel [] files hfiles
  rw [List.append_nil] at hall
  exact hall

/-- The first file that cannot be deleted stops the deletion; those before it are gone. -/
theorem deleteFiles_error (deletable : Key → Bool) {before after : List Key} {k : Key} (hdead : (before ++ k :: after).Nodup)
    (hdel : ∀ h ∈ before, deletable h = true) (hk : deletable k = false) (files : AList fun _ : Key => ChunkFile)
    (hfiles : ∀ h ∈ before, (files.lookup h).isSome) :
    ∃ rest, deleteFiles deletable (before ++ k :: after) files = (.error .chunkDeletionFailed, rest) ∧
      ∀ h, rest.lookup h = if h ∈ before then none else files.lookup h := by
  obtain ⟨rest, hrest, hlookup⟩ := deleteFiles_append deletable (List.nodup_append.mp hdead).1 hdel (k :: after) files hfiles
  refine ⟨rest, ?_, hlookup⟩
  rw [hrest, deleteFiles, hk, Bool.and_false]
  exact if_neg Bool.false_ne_true

theorem isDead_owns {m : ShardStorageManager} {now : Nat} {h : Key} (hdead : m.isDead now h = true) : m.owns h := by
  unfold isDead at hdead
  unfold owns
  cases hl : m.ownedChunks.lookup h with
  | none => rw [hl] at hdead; cases hdead
  | some t => rfl

/-- Whatever the order, the dead chunks of the map are those that are owned and old enough. -/
theorem mem_dead_iff {m : ShardStorageManager} {iter : List Key} (hiter : iter.Perm m.ownedChunks.keys) {now : Nat}
    {h : Key} : h ∈ iter.filter (m.isDead now) ↔ m.isDead now h = true := by
  rw [List.mem_filter]
  refine and_iff_right_of_imp fun hdead => hiter.mem_iff.mpr ?_
  exact AList.mem_keys.mp (AList.lookup_isSome.mp (isDead_owns hdead))

theorem nodup_dead {m : ShardStorageManager} {iter : List Key} (hiter : iter.Perm m.ownedChunks.keys) (now : Nat) :
    (iter.filter (m.isDead now)).Nodup :=
  (hiter.nodup_iff.mpr m.ownedChunks.keys_nodup).sublist List.filter_sublist

/-- A removal whose deletions all work takes the dead chunks out of map and directory. -/
theorem removeDeadChunks_ok {m : ShardStorageManager} (hfiles : ∀ h, m.owns h → (m.files.lookup h).isSome)
    {iter : List Key} (hiter : iter.Perm m.ownedChunks.keys) (now : Nat) (deletable : Key → Bool)
    (hdel : ∀ h ∈ iter.filter (m.isDead now), deletable h = true) :
    ∃ rest, m.removeDeadChunks now iter deletable = (.ok (), { m with
        files := rest
        ownedChunks := retain (fun hash => hash ∉ iter.filter (m.isDead now)) m.ownedChunks }) ∧
      ∀ h, rest.lookup h = if h ∈ iter.filter (m.isDead now) then none else m.files.lookup h := by
  obtain ⟨rest, hrest, hlookup⟩ := deleteFiles_ok deletable (nodup_dead hiter now) hdel m.files
    fun k hk => hfiles k (isDead_owns (List.mem_filter.mp hk).2)
  refine ⟨rest, ?_, hlookup⟩
  unfold removeDeadChunks
  dsimp only
  rw [hrest]

/-- A removal with working deletions, chunk by chunk. -/
theorem removeDeadChunks_spec {m : ShardStorageManager} (hfiles : ∀ h, m.owns h → (m.files.lookup h).isSome)
    {iter : List Key} (hiter : iter.Perm m.ownedChunks.keys) (now : Nat) :
    (m.removeDeadChunks now iter fun _ => true).1 = .ok () ∧ ∀ h,
      (m.removeDeadChunks now iter fun _ => true).2.files.lookup h =
        (if m.isDead now h then none else m.files.lookup h) ∧
      (m.removeDeadChunks now iter fun _ => true).2.ownedChunks.lookup h =
        (if m.isDead now h then none else m.ownedChunks.lookup h) := by
  obtain ⟨rest, hremove, hlookup⟩ := removeDeadChunks_ok hfiles hiter now (fun _ => true) fun _ _ => rfl
  rw [hremove]
  refine ⟨rfl, fun h => ⟨?_, ?_⟩⟩
  · rw [hlookup]
    exact if_congr (mem_dead_iff hiter) rfl rfl
  · rw [lookup_retain]
    by_cases hmem : h ∈ iter.filter (m.isDead now)
    · rw [decide_eq_false (not_not.mpr hmem), if_pos ((mem_dead_iff hiter).mp hmem)]
      rfl
    · rw [decide_eq_true hmem, if_pos rfl, if_neg (mt (mem_dead_iff hiter).mpr hmem)]

theorem on_disk_afterStore {m : ShardStorageManager} (hfiles : ∀ h, m.owns h → (m.files.lookup h).isSome)
    (file : ChunkFile) (port : UInt16) (hash : Key) (now : Nat) (h : Key)
    (howns : (m.afterStore file port hash now).owns h) : ((m.afterStore file port hash now).files.lookup h).isSome := by
  rw [lookup_files_afterStore]
  split_ifs with heq
  · rfl
  · exact hfiles h (((owns_afterStore m file port hash now h).mp howns).resolve_left heq)

theorem on_disk_updateChunkUploadTime {m : ShardStorageManager} (hfiles : ∀ h, m.owns h → (m.files.lookup h).isSome)
    (hash : Key) (now : Nat) (h : Key) (howns : (m.updateChunkUploadTime hash now).2.owns h) :
    ((m.updateChunkUploadTime hash now).2.files.lookup h).isSome := by
  obtain ⟨hsame, -, -, hiff⟩ := m.updateChunkUploadTime_spec hash now
  rw [hsame]
  exact hfiles h ((hiff h).mp howns)

theorem on_disk_removeDeadChunks {m : ShardStorageManager} (hfiles : ∀ h, m.owns h → (m.files.lookup h).isSome)
    {iter : List Key} (hiter : iter.Perm m.ownedChunks.keys) (now : Nat) (h : Key)
    (howns : (m.removeDeadChunks now iter fun _ => true).2.owns h) :
    ((m.removeDeadChunks now iter fun _ => true).2.files.lookup h).isSome := by
  obtain ⟨hfile, hentry⟩ := (removeDeadChunks_spec hfiles hiter now).2 h
  rw [owns, hentry] at howns
  rw [hfile]
  split_ifs at howns ⊢
  · exact howns
  · exact hfiles h howns

/-- A removal that fails has deleted the files before the one that stopped it, and the map is as before. -/
theorem removeDeadChunks_error {m : ShardStorageManager} (hfiles : ∀ h, m.owns h → (m.files.lookup h).isSome)
    {iter : List Key} (hiter : iter.Perm m.ownedChunks.keys) {now : Nat} {deletable : Key → Bool}
    {before after : List Key} {k : Key} (hdead : iter.filter (m.isDead now) = before ++ k :: after)
    (hdel : ∀ h ∈ before, deletable h = true) (hk : deletable k = false) :
    ∃ rest, m.removeDeadChunks now iter deletable = (.error .chunkDeletionFailed, { m with files := rest }) ∧
      ∀ h, rest.lookup h = if h ∈ before then none else m.files.lookup h := by
  have hbefore : ∀ h ∈ before, (m.files.lookup h).isSome := by
    intro h hh
    have hmem : h ∈ iter.filter (m.isDead now) := by
      rw [hdead]
      exact List.mem_append_left _ hh
    exact hfiles h (isDead_owns (List.mem_filter.mp hmem).2)
  obtain ⟨rest, hrest, hlookup⟩ := deleteFiles_error deletable (hdead ▸ nodup_dead hiter now) hdel hk m.files hbefore
  refine ⟨rest, ?_, hlookup⟩
  unfold removeDeadChunks
  dsimp only
  rw [hdead, hrest]

end ShardStorageManager
end P2PFilesystem
