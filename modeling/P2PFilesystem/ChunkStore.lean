import P2PFilesystem.ShardStorage
import P2PFilesystem.Traces
import Mathlib.Data.List.Perm.Basic
import Mathlib.Algebra.Order.BigOperators.Group.List

/-!
# Runs of the chunk store

What a chunk store holds after any sequence of its operations, compared with the history of
the chunks it took in and removed, and what a store that fails leaves behind. The map, the
directory and the transfer table are changed at different points of an operation, and the
files are written in the background.
-/
namespace P2PFilesystem
open Traces

/-- What happens to the chunks, oldest first in a history. -/
inductive ChunkEvent where
  | stored (hash : Key) (data : Bytes)
  | removed (hash : Key)
  deriving DecidableEq

namespace ChunkEvent

def storedData (hash : Key) : ChunkEvent → Option Bytes
  | .stored h data => if h = hash then some data else none
  | .removed _ => none

/-- The part of a history after the last removal of a hash. -/
def sinceRemoved (hash : Key) (events : List ChunkEvent) : List ChunkEvent :=
  (events.reverse.takeWhile fun e => e ≠ .removed hash).reverse

/-- The bytes of the first store of a hash since it was last removed. -/
def firstStored (hash : Key) (events : List ChunkEvent) : Option Bytes :=
  (sinceRemoved hash events).findSome? (storedData hash)

theorem sinceRemoved_concat (hash : Key) (events : List ChunkEvent) (e : ChunkEvent) :
    sinceRemoved hash (events ++ [e]) = if e = .removed hash then [] else sinceRemoved hash events ++ [e] := by
  unfold sinceRemoved
  rw [List.reverse_append, List.reverse_singleton, List.singleton_append, List.takeWhile_cons]
  by_cases h : e = .removed hash
  · simp [h]
  · simp [h]

theorem firstStored_stored (hash k : Key) (data : Bytes) (events : List ChunkEvent) :
    firstStored hash (events ++ [.stored k data]) =
      if k = hash then some ((firstStored hash events).getD data) else firstStored hash events := by
  unfold firstStored
  rw [sinceRemoved_concat, if_neg nofun, List.findSome?_append, List.findSome?_singleton, storedData]
  split_ifs
  · cases (sinceRemoved hash events).findSome? (storedData hash) with
    | none => rfl
    | some d => rfl
  · exact Option.or_none

theorem firstStored_removed (hash : Key) (dead : List Key) (events : List ChunkEvent) :
    firstStored hash (events ++ dead.map .removed) = if hash ∈ dead then none else firstStored hash events := by
  induction dead generalizing events with
  | nil => simp
  | cons k dead ih =>
      have hone : firstStored hash (events ++ [.removed k]) = if hash = k then none else firstStored hash events := by
        unfold firstStored
        rw [sinceRemoved_concat]
        by_cases hk : hash = k
        · simp [hk]
        · have hne : ¬ ChunkEvent.removed k = .removed hash := fun h => hk (ChunkEvent.removed.inj h).symm
          rw [if_neg hne, if_neg hk, List.findSome?_append]
          exact Option.or_none
      rw [List.map_cons, List.append_cons, ih, hone]
      by_cases hmem : hash ∈ dead
      · simp [hmem]
      · by_cases hk : hash = k
        · simp [hk]
        · simp [hk, hmem]

end ChunkEvent

/-- The operations on a store, and the background tasks that write its files. -/
inductive StorageOp where
  | addActiveTcpConnection (port : UInt16) (sender : NodeInfo) (chunkHash : Key)
  | storeChunkForKnownPeer (data : Bytes) (port : UInt16) (io : StoreIo) (now : Nat)
  | continueWrite (hash : Key) (count : Nat)
  | updateChunkUploadTime (hash : Key) (now : Nat)
  | removeDeadChunks (now : Nat) (iter : List Key)

namespace StorageOp

def apply (m : ShardStorageManager) : StorageOp → ShardStorageManager
  | .addActiveTcpConnection port sender chunkHash => (m.addActiveTcpConnection port sender chunkHash).2
  | .storeChunkForKnownPeer data port io now => (m.storeChunkForKnownPeer data port io now).2
  | .continueWrite hash count => m.continueWrite hash count
  | .updateChunkUploadTime hash now => (m.updateChunkUploadTime hash now).2
  | .removeDeadChunks now iter => (m.removeDeadChunks now iter fun _ => true).2

/-- Files can be created and written, and deleted as `apply` has it. A map is iterated over each
of its keys, in any order. -/
def FaultFree (m : ShardStorageManager) : StorageOp → Prop
  | .storeChunkForKnownPeer data _ io _ => io.Works data
  | .removeDeadChunks _ iter => iter.Perm m.ownedChunks.keys
  | _ => True

/-- The chunk of a store that returns `Ok`, the chunks of a removal that does. -/
def events (m : ShardStorageManager) : StorageOp → List ChunkEvent
  | .storeChunkForKnownPeer data port io now =>
      match m.storeChunkForKnownPeer data port io now, m.dataTransfersTable.lookup port with
      | (.ok _, _), some transfer => [.stored transfer.chunkHash data]
      | _, _ => []
  | .removeDeadChunks now iter => match m.removeDeadChunks now iter fun _ => true with
      | (.ok _, _) => (iter.filter (m.isDead now)).map .removed
      | _ => []
  | _ => []

end StorageOp

/-- A store and what has happened to its chunks so far. -/
structure StoreRecord where
  events : List ChunkEvent
  store : ShardStorageManager

/-- A store started on an empty directory. -/
def StoreRecord.new : StoreRecord := ⟨[], .new ∅⟩

/-- One operation without faults. -/
def StoreStep (s : StoreRecord) (op : StorageOp) (s' : StoreRecord) : Prop :=
  op.FaultFree s.store ∧ s' = ⟨s.events ++ op.events s.store, op.apply s.store⟩

namespace ShardStorageManager

def bytesOnDisk (m : ShardStorageManager) : Nat := (m.files.entries.map fun e => e.2.onDisk.length).sum

end ShardStorageManager

namespace StoreRecord

/-- The map names the files, a chunk reads as it was first stored since its last removal, later
stores of it change nothing, and both limits hold. -/
structure Faithful (s : StoreRecord) : Prop where
  owns_iff : ∀ hash, s.store.owns hash ↔ (s.store.files.lookup hash).isSome
  read : ∀ hash, s.store.readChunk hash = match ChunkEvent.firstStored hash s.events with
    | some data => .ok data
    | none => .error .chunkNotFound
  refuses : ∀ port transfer, s.store.dataTransfersTable.lookup port = some transfer →
    s.store.owns transfer.chunkHash →
    ∀ data io now, ∃ e, s.store.storeChunkForKnownPeer data port io now = (.error e, s.store)
  count : s.store.ownedChunks.entries.length ≤ maxShardsStored
  quota : s.store.bytesOnDisk ≤ maxDataStoredMb * 1024 * 1024

/-- Map, directory and history agree on what there is in the end, and the limits are kept. -/
structure Agrees (s : StoreRecord) : Prop where
  owns_iff : ∀ h, s.store.owns h ↔ (s.store.files.lookup h).isSome
  history : ∀ h, s.store.content h = ChunkEvent.firstStored h s.events
  count : s.store.ownedChunks.entries.length ≤ maxShardsStored
  size : ∀ h d, s.store.content h = some d → d.length ≤ encryptedChunkSizeB

/-- No file is still being written. -/
def AllWritten (s : StoreRecord) : Prop := ∀ h file, s.store.files.lookup h = some file → file.unwritten = []

end StoreRecord

/-- A chunk that is accepted is on disk as a whole when the store returns. -/
def StorageOp.WrittenAtOnce (m : ShardStorageManager) : StorageOp → Prop
  | .storeChunkForKnownPeer data port io _ => m.WrittenAtOnce data port io
  | _ => True

namespace StoreRecord
open ShardStorageManager

variable {s s' : StoreRecord}

theorem new_agrees : StoreRecord.new.Agrees :=
  ⟨fun _ => Iff.rfl, fun _ => rfl, Nat.zero_le _, fun _ _ hd => nomatch hd⟩

theorem Agrees.store (h : s.Agrees) {data : Bytes} {io : StoreIo} (hio : io.Works data) (port : UInt16) (now : Nat) :
    Agrees ⟨s.events ++ StorageOp.events s.store (.storeChunkForKnownPeer data port io now),
      (s.store.storeChunkForKnownPeer data port io now).2⟩ := by
  obtain ⟨file, hwritten, hcontent⟩ := hio
  rcases s.store.storeChunkForKnownPeer_cases data port io now with
    ⟨⟨e, he⟩, -⟩ | ⟨transfer, ht, hadmits, -, ⟨file', hwritten', hok⟩ | ⟨hnone, -⟩⟩
  · rw [StorageOp.events, he, List.append_nil]
    exact h
  · cases hwritten.symm.trans hwritten'
    rw [StorageOp.events, hok, ht]
    dsimp only
    have hold : s.store.content transfer.chunkHash = none := by
      rw [content, hadmits.free]
      rfl
    have hnone := (h.history transfer.chunkHash).symm.trans hold
    have hnew : ¬ s.store.owns transfer.chunkHash := by
      rw [h.owns_iff, hadmits.free]
      exact Bool.false_ne_true
    refine ⟨fun k => ?_, fun k => ?_, ?_, fun k d hk => ?_⟩
    · rw [owns_afterStore, lookup_files_afterStore, h.owns_iff]
      split_ifs with heq
      · exact iff_of_true (.inl heq) rfl
      · exact or_iff_right heq
    · rw [ChunkEvent.firstStored_stored, content_afterStore, hcontent]
      by_cases heq : k = transfer.chunkHash
      · rw [heq, if_pos rfl, if_pos rfl, hnone]
        rfl
      · rw [if_neg heq, if_neg fun he => heq he.symm]
        exact h.history k
    · have hmem : transfer.chunkHash ∉ s.store.ownedChunks := fun hm => hnew (AList.lookup_isSome.mpr hm)
      dsimp only
      rw [afterStore, AList.entries_insert_of_notMem hmem]
      exact hadmits.room
    · rw [content_afterStore, hcontent] at hk
      split_ifs at hk with heq
      · exact Option.some.inj hk ▸ hadmits.size
      · exact h.size k d hk
  · cases hwritten.symm.trans hnone

theorem Agrees.removeDead (h : s.Agrees) (now : Nat) {iter : List Key}
    (hiter : iter.Perm s.store.ownedChunks.keys) :
    Agrees ⟨s.events ++ StorageOp.events s.store (.removeDeadChunks now iter),
      (s.store.removeDeadChunks now iter fun _ => true).2⟩ := by
  obtain ⟨rest, hremove, hlookup⟩ := removeDeadChunks_ok (fun k => (h.owns_iff k).mp) hiter now
    (fun _ => true) fun _ _ => rfl
  have hrest : ∀ k, (rest.lookup k).map ChunkFile.content =
      if k ∈ iter.filter (s.store.isDead now) then none else s.store.content k := by
    intro k
    rw [hlookup, content]
    split_ifs
    · rfl
    · rfl
  rw [StorageOp.events, hremove]
  dsimp only
  refine ⟨fun k => ?_, fun k => ?_, ?_, fun k d hk => ?_⟩
  · unfold owns
    rw [lookup_retain, hlookup]
    by_cases hk : k ∈ iter.filter (s.store.isDead now)
    · simp [hk]
    · simpa [hk, owns] using h.owns_iff k
  · rw [ChunkEvent.firstStored_removed, ← h.history]
    exact hrest k
  · exact (List.length_filter_le _ _).trans h.count
  · have hk' := (hrest k).symm.trans hk
    split_ifs at hk'
    exact h.size k d hk'

theorem Agrees.step {op : StorageOp} (h : s.Agrees) (hstep : StoreStep s op s') : s'.Agrees := by
  obtain ⟨hfault, rfl⟩ := hstep
  cases op with
  | addActiveTcpConnection port sender chunkHash =>
      have hnil : StorageOp.events s.store (.addActiveTcpConnection port sender chunkHash) = [] := rfl
      rw [hnil, List.append_nil]
      exact ⟨h.owns_iff, h.history, h.count, h.size⟩
  | storeChunkForKnownPeer data port io now => exact h.store hfault port now
  | continueWrite hash count =>
      have hnil : StorageOp.events s.store (.continueWrite hash count) = [] := rfl
      rw [hnil, List.append_nil, StorageOp.apply]
      refine ⟨fun k => ?_, fun k => ?_, ?_, fun k d hk => ?_⟩
      · rw [owns_continueWrite, isSome_lookup_continueWrite]
        exact h.owns_iff k
      · rw [content_continueWrite]
        exact h.history k
      · rw [ownedChunks_continueWrite]
        exact h.count
      · rw [content_continueWrite] at hk
        exact h.size k d hk
  | updateChunkUploadTime hash now =>
      obtain ⟨hfiles, -, -, howns⟩ := s.store.updateChunkUploadTime_spec hash now
      have hnil : StorageOp.events s.store (.updateChunkUploadTime hash now) = [] := rfl
      rw [hnil, List.append_nil, StorageOp.apply]
      refine ⟨fun k => ?_, fun k => ?_, ?_, fun k d hk => ?_⟩
      · rw [howns, hfiles]
        exact h.owns_iff k
      · rw [content, hfiles]
        exact h.history k
      · rw [length_updateChunkUploadTime]
        exact h.count
      · rw [content, hfiles] at hk
        exact h.size k d hk
  | removeDeadChunks now iter => exact h.removeDead now hfault

theorem Agrees.length_files (h : s.Agrees) : s.store.files.entries.length ≤ maxShardsStored := by
  have hkeys : s.store.files.keys.Perm s.store.ownedChunks.keys := by
    refine (List.perm_ext_iff_of_nodup s.store.files.keys_nodup s.store.ownedChunks.keys_nodup).mpr fun k => ?_
    rw [← AList.mem_keys, ← AList.mem_keys, ← AList.lookup_isSome, ← AList.lookup_isSome]
    exact (h.owns_iff k).symm
  have hlen := hkeys.length_eq
  simp only [AList.keys, List.keys, List.length_map] at hlen
  exact hlen.le.trans h.count

theorem Agrees.length_onDisk (h : s.Agrees) {k : Key} {file : ChunkFile} (hfile : s.store.files.lookup k = some file) :
    file.onDisk.length ≤ encryptedChunkSizeB := by
  have hcontent : s.store.content k = some file.content := by
    rw [content, hfile]
    rfl
  calc file.onDisk.length ≤ file.content.length := by
        rw [ChunkFile.content, List.length_append]
        exact Nat.le_add_right _ _
    _ ≤ encryptedChunkSizeB := h.size k _ hcontent

/-- At most `MAX_SHARDS_STORED` files of at most the chunk size stay far below the quota. -/
theorem Agrees.bytesOnDisk_le (h : s.Agrees) : s.store.bytesOnDisk ≤ maxDataStoredMb * 1024 * 1024 := by
  have hsize : ∀ n ∈ s.store.files.entries.map fun e => e.2.onDisk.length, n ≤ encryptedChunkSizeB := by
    intro n hn
    obtain ⟨e, he, rfl⟩ := List.mem_map.mp hn
    exact h.length_onDisk (AList.mem_lookup_iff.mpr he)
  calc s.store.bytesOnDisk ≤ (s.store.files.entries.map fun e => e.2.onDisk.length).length • encryptedChunkSizeB :=
        List.sum_le_card_nsmul _ _ hsize
    _ = s.store.files.entries.length * encryptedChunkSizeB := by rw [List.length_map]; rfl
    _ ≤ maxShardsStored * encryptedChunkSizeB := Nat.mul_le_mul_right _ h.length_files
    _ ≤ maxDataStoredMb * 1024 * 1024 := by decide

end StoreRecord

namespace ShardStorageManager

/-- A store of a chunk that is there already is refused, whatever the transfer is. -/
theorem store_refused {m : ShardStorageManager} {port : UInt16} {transfer : DataTransfer}
    (ht : m.dataTransfersTable.lookup port = some transfer) (hfile : (m.files.lookup transfer.chunkHash).isSome)
    (data : Bytes) (io : StoreIo) (now : Nat) : ∃ e, m.storeChunkForKnownPeer data port io now = (.error e, m) := by
  rcases m.storeChunkForKnownPeer_cases data port io now with ⟨he, -⟩ | ⟨t, ht', hadmits, -⟩
  · exact he
  · rw [ht, Option.some.injEq] at ht'
    rw [ht', hadmits.free] at hfile
    cases hfile

end ShardStorageManager

namespace StoreRecord
open ShardStorageManager

variable {s s' : StoreRecord}

/-- A read gives the beginning of what was first stored, and the rest of it is still to be written. -/
theorem Agrees.read_eq (h : s.Agrees) (k : Key) :
    (s.store.readChunk k = .error .chunkNotFound ∧ ChunkEvent.firstStored k s.events = none) ∨
    ∃ file, s.store.files.lookup k = some file ∧ s.store.readChunk k = .ok file.onDisk ∧
      ChunkEvent.firstStored k s.events = some (file.onDisk ++ file.unwritten) := by
  rw [← h.history, readChunk, content]
  cases s.store.files.lookup k with
  | none => exact .inl ⟨rfl, rfl⟩
  | some file => exact .inr ⟨file, rfl, rfl, rfl⟩

/-- What is stored is what is read exactly while nothing is being written. -/
theorem Agrees.faithful_iff (h : s.Agrees) : s.Faithful ↔ s.AllWritten := by
  constructor
  · intro hfaithful k file hfile
    have hread := hfaithful.read k
    rcases h.read_eq k with ⟨hnone, -⟩ | ⟨file', hfile', hread', hfirst⟩
    · rw [readChunk, hfile] at hnone
      cases hnone
    · cases hfile.symm.trans hfile'
      rw [hread', hfirst, Except.ok.injEq] at hread
      exact List.self_eq_append_right.mp hread
  · intro hall
    refine ⟨h.owns_iff, fun k => ?_, fun port transfer ht howns data io now => ?_, h.count, h.bytesOnDisk_le⟩
    · rcases h.read_eq k with ⟨hnone, hfirst⟩ | ⟨file, hfile, hread, hfirst⟩
      · rw [hnone, hfirst]
      · rw [hread, hfirst, hall k file hfile, List.append_nil]
    · exact store_refused ht ((h.owns_iff _).mp howns) data io now

/-- Only a store that returns early leaves something to be written. -/
theorem AllWritten.step_iff {op : StorageOp} (hs : s.Agrees) (h : s.AllWritten) (hstep : StoreStep s op s') :
    s'.AllWritten ↔ op.WrittenAtOnce s.store := by
  obtain ⟨hfault, rfl⟩ := hstep
  cases op with
  | addActiveTcpConnection port sender chunkHash => exact iff_of_true h trivial
  | storeChunkForKnownPeer data port io now =>
      obtain ⟨whole, hwhole, hcontent⟩ := hfault
      obtain ⟨⟨e, he⟩, hno⟩ | ⟨transfer, ht, hadmits, -, ⟨file, hwritten, hok⟩ | ⟨hnone, -⟩⟩ :=
        s.store.storeChunkForKnownPeer_cases data port io now
      · rw [StorageOp.apply, he]
        refine iff_of_true h fun hash hhash hadmits file hwritten => ?_
        obtain ⟨transfer, ht, rfl⟩ := Option.map_eq_some_iff.mp hhash
        rw [hno transfer ht hadmits] at hwritten
        cases hwritten
      · cases hwhole.symm.trans hwritten
        rw [StorageOp.apply, hok]
        constructor
        · intro hall hash hhash _ file' hwritten'
          cases hwritten.symm.trans hwritten'
          obtain ⟨transfer', ht', rfl⟩ := Option.map_eq_some_iff.mp hhash
          cases ht.symm.trans ht'
          have hnothing : whole.unwritten = [] := hall transfer.chunkHash whole (AList.lookup_insert _)
          rw [← hcontent, ChunkFile.content, hnothing, List.append_nil]
        · intro hat k file' hk
          have hhash : s.store.transferHash port = some transfer.chunkHash := transferHash_eq ht
          dsimp only at hk
          rw [lookup_files_afterStore] at hk
          split_ifs at hk with heq
          · cases hk
            have hdisk : whole.onDisk = whole.onDisk ++ whole.unwritten :=
              (hat _ hhash hadmits whole hwritten).trans hcontent.symm
            exact List.self_eq_append_right.mp hdisk
          · exact h k file' hk
      · cases hnone.symm.trans hwhole
  | continueWrite hash count =>
      refine iff_of_true (fun k file hk => ?_) trivial
      rw [StorageOp.apply, lookup_files_continueWrite] at hk
      split_ifs at hk with heq
      · obtain ⟨old, hold, rfl⟩ := Option.map_eq_some_iff.mp hk
        rw [ChunkFile.progress, h k old hold, List.drop_nil]
      · exact h k file hk
  | updateChunkUploadTime hash now =>
      refine iff_of_true (fun k file hk => h k file ?_) trivial
      rwa [StorageOp.apply, (s.store.updateChunkUploadTime_spec hash now).1] at hk
  | removeDeadChunks now iter =>
      obtain ⟨-, hspec⟩ := removeDeadChunks_spec (fun k => (hs.owns_iff k).mp) hfault now
      refine iff_of_true (fun k file hk => ?_) trivial
      rw [StorageOp.apply, (hspec k).1] at hk
      split_ifs at hk
      exact h k file hk

end StoreRecord

/-- In a run without faults every state reads as it was stored, exactly if every chunk that is
accepted is on disk as a whole when its store returns. -/
theorem storageRun_faithful_iff {hist : List (StoreRecord × StorageOp)} {s : StoreRecord}
    (hrun : Trace StoreStep .new hist s) :
    Throughout StoreRecord.Faithful hist s ↔ ∀ p ∈ hist, p.2.WrittenAtOnce p.1.store := by
  have hstep : ∀ s op t, StoreRecord.Agrees s → s.Faithful → StoreStep s op t →
      (t.Faithful ↔ op.WrittenAtOnce s.store) := by
    intro s op t hs hfaithful hst
    rw [(hs.step hst).faithful_iff]
    exact (hs.faithful_iff.mp hfaithful).step_iff hs hst
  have hnew : StoreRecord.new.Faithful := StoreRecord.new_agrees.faithful_iff.mpr fun _ _ hfile => nomatch hfile
  exact hrun.throughout_iff_of_invariant (fun _ _ _ hs hst => hs.step hst) hstep StoreRecord.new_agrees hnew

/-- What holds of every run without faults, however slowly its files are written. -/
theorem storageRun_agrees {hist : List (StoreRecord × StorageOp)} {s : StoreRecord}
    (hrun : Trace StoreStep .new hist s) : Throughout StoreRecord.Agrees hist s :=
  hrun.throughout (fun _ _ _ hs hstep => hs.step hstep) StoreRecord.new_agrees

namespace StoreRecord

/-- Chunk 9 is announced on port 5000. -/
def announcement : StorageOp :=
  .addActiveTcpConnection 5000 ⟨Key.ofTopByte 1 0, .localhost 4001⟩ (Key.ofTopByte 9 0)

def announced : StoreRecord := ⟨[], announcement.apply (.new ∅)⟩

/-- Two bytes come in on the port. -/
def storeTwo (io : StoreIo) : StorageOp := .storeChunkForKnownPeer [1, 2] 5000 io 7

def storedTwo (io : StoreIo) : StoreRecord :=
  ⟨(storeTwo io).events announced.store, (storeTwo io).apply announced.store⟩

theorem storeTwo_run {io : StoreIo} (hio : io.Works [1, 2]) :
    Trace StoreStep .new [(.new, announcement), (announced, storeTwo io)] (storedTwo io) := by
  have hannounced : StoreStep .new announcement announced := ⟨trivial, rfl⟩
  have hstored : StoreStep announced (storeTwo io) (storedTwo io) := ⟨hio, rfl⟩
  exact (Trace.start.next hannounced).next hstored

end StoreRecord

/-- Both bytes are on disk before the store returns. -/
theorem storageRun_faithful_stored :
    Throughout StoreRecord.Faithful [(.new, StoreRecord.announcement), (.announced, StoreRecord.storeTwo .ok)]
      (.storedTwo .ok) ∧
    (StoreRecord.storedTwo .ok).store.readChunk (Key.ofTopByte 9 0) = .ok [1, 2] := by
  refine ⟨(storageRun_faithful_iff (StoreRecord.storeTwo_run (StoreIo.works_ok _))).mpr fun p hp => ?_, rfl⟩
  rcases List.mem_cons.mp hp with rfl | hp
  · trivial
  · rw [List.mem_singleton.mp hp]
    rintro _ _ _ file ⟨⟩
    rfl

/-- The background task has not begun when the store returns: the chunk is owned and reads as
empty. It reads as it was stored once the task is done. -/
theorem storageRun_reads_nothing :
    Trace StoreStep .new
      [(.new, StoreRecord.announcement), (.announced, StoreRecord.storeTwo (.background 0 2))]
      (.storedTwo (.background 0 2)) ∧
    ¬ (StoreRecord.storedTwo (.background 0 2)).Faithful ∧
    (StoreRecord.storedTwo (.background 0 2)).events = [.stored (Key.ofTopByte 9 0) [1, 2]] ∧
    (StoreRecord.storedTwo (.background 0 2)).store.readChunk (Key.ofTopByte 9 0) = .ok [] ∧
    ((StoreRecord.storedTwo (.background 0 2)).store.continueWrite (Key.ofTopByte 9 0) 2).readChunk
      (Key.ofTopByte 9 0) = .ok [1, 2] := by
  refine ⟨StoreRecord.storeTwo_run ⟨_, rfl, rfl⟩, fun h => ?_, rfl, rfl, rfl⟩
  cases h.read (Key.ofTopByte 9 0)

namespace ShardStorageManager

/-- A transfer of the chunk that is announced afterwards, with room for it and a working
disk, is stored. -/
def StoresLater (m : ShardStorageManager) (hash : Key) : Prop :=
  ∀ port sender data (io : StoreIo) now, m.ownedChunks.entries.length < maxShardsStored →
    data.length ≤ encryptedChunkSizeB → data.length ≤ maxDataStoredMb * 1024 - m.totalStoredKb → io.Works data →
    ((m.addActiveTcpConnection port sender hash).2.storeChunkForKnownPeer data port io now).1 = .ok ()

/-- If the store fails, map and files are as before, no chunk reads differently, and a chunk
that had no file before can still be stored. -/
def LeavesNoTrace (m : ShardStorageManager) (data : Bytes) (port : UInt16) (io : StoreIo) (now : Nat) : Prop :=
  let (result, m') := m.storeChunkForKnownPeer data port io now
  result ≠ .ok () →
    m'.ownedChunks = m.ownedChunks ∧ m'.files = m.files ∧ (∀ hash, m'.readChunk hash = m.readChunk hash) ∧
    ∀ hash, m.transferHash port = some hash → m.files.lookup hash = none → m'.StoresLater hash

theorem storesLater_of_free {m : ShardStorageManager} {hash : Key} (h : m.files.lookup hash = none) :
    m.StoresLater hash := by
  intro port sender data io now hroom hsize hmemory hio
  have ht : (m.addActiveTcpConnection port sender hash).2.dataTransfersTable.lookup port = some ⟨sender, hash⟩ :=
    AList.lookup_insert _
  obtain ⟨file, hwritten, -⟩ := hio
  rw [storeChunkForKnownPeer_of_admits ht ⟨hroom, hsize, hmemory, h⟩ hwritten]

/-- A failed store leaves no trace unless the task that writes the data cannot be started after
the checks were passed and the file was created. -/
theorem leavesNoTrace_iff (m : ShardStorageManager) (data : Bytes) (port : UInt16) (io : StoreIo) (now : Nat) :
    m.LeavesNoTrace data port io now ↔
      ∀ hash, m.transferHash port = some hash → m.Admits data hash → io = .writeRefused → data = [] := by
  unfold LeavesNoTrace
  rcases m.storeChunkForKnownPeer_cases data port io now with
    ⟨⟨e, he⟩, hno⟩ | ⟨transfer, ht, hadmits, hcreate, ⟨file, hwritten, hok⟩ | ⟨hnone, hfail⟩⟩
  · rw [he]
    refine iff_of_true (fun _ => ⟨rfl, rfl, fun _ => rfl, fun hash _ hfree => storesLater_of_free hfree⟩) ?_
    intro hash hhash hadmits hio
    obtain ⟨transfer, ht, rfl⟩ := Option.map_eq_some_iff.mp hhash
    rw [hno transfer ht hadmits] at hio
    cases hio
  · rw [hok]
    refine iff_of_true (fun hne => absurd rfl hne) fun _ _ _ hio => ?_
    by_contra hdata
    rw [hio, StoreIo.writeAll, if_neg hdata] at hwritten
    cases hwritten
  · rw [hfail]
    have hhash : m.transferHash port = some transfer.chunkHash := transferHash_eq ht
    refine iff_of_false (fun h => ?_) fun h => ?_
    · have hfailed : (.error .ioError : Except ShardStorageError Unit) ≠ .ok () := by
        intro heq
        cases heq
      obtain ⟨-, hfiles, -⟩ := h hfailed
      -- the file that was created is still there
      have hlookup := congrArg (AList.lookup transfer.chunkHash) hfiles
      rw [hadmits.free, lookup_files_afterRefusedWrite, if_pos rfl] at hlookup
      cases hlookup
    · obtain ⟨hio, hdata⟩ := StoreIo.writeAll_eq_none.mp hnone |>.resolve_left hcreate
      exact hdata (h _ hhash hadmits hio)

/-- A node that is shut down between the creation of a chunk file and its writing: the empty
file stays under the chunk's name, is read as the chunk, and keeps the chunk from being stored
again. -/
theorem refusedWrite_leaves_trace :
    let m := (ShardStorageManager.new ∅).addActiveTcpConnection 5000 ⟨Key.ofTopByte 1 0, .localhost 4001⟩
      (Key.ofTopByte 9 0) |>.2
    ¬ m.LeavesNoTrace [1, 2] 5000 .writeRefused 7 ∧
    (m.storeChunkForKnownPeer [1, 2] 5000 .writeRefused 7).2.readChunk (Key.ofTopByte 9 0) = .ok [] ∧
    ¬ (m.storeChunkForKnownPeer [1, 2] 5000 .writeRefused 7).2.StoresLater (Key.ofTopByte 9 0) := by
  intro m
  refine ⟨fun h => ?_, rfl, fun h => ?_⟩
  · obtain ⟨-, hfiles, -⟩ := h nofun
    exact nomatch congrArg (AList.lookup (Key.ofTopByte 9 0)) hfiles
  · exact nomatch h 5001 ⟨Key.ofTopByte 1 0, .localhost 4001⟩ [1, 2] .ok 8 (by decide) (by decide) (by decide)
      (StoreIo.works_ok _)

end ShardStorageManager
end P2PFilesystem
