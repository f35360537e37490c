import P2PFilesystem.TransferTable
import P2PFilesystem.ChunkStore

/-!
# Whole chunks

The constants say that the chunk size applies strictly to all chunks. A store checks that what came in
is not longer; what is shorter, the beginning of a chunk or nothing at all, is kept as the chunk. And
a chunk is owned before its file is written.
-/
namespace P2PFilesystem
open Traces

/-- The file of every chunk that is owned has the size of a chunk. -/
def ShardStorageManager.KeepsWholeChunks (m : ShardStorageManager) : Prop :=
  ∀ h, m.owns h → ∃ file, m.files.lookup h = some file ∧ file.onDisk.length = encryptedChunkSizeB

/-- The checks before the one of the size are passed. -/
def ShardStorageManager.Expects (m : ShardStorageManager) (port : UInt16) : Prop :=
  (m.dataTransfersTable.lookup port).isSome ∧ m.ownedChunks.entries.length < maxShardsStored

namespace TransferEvent

/-- Expected data that is not of the size of a chunk is refused as such. Nothing changes, and the
chunk can be stored later if it could be before. -/
def RefusesOtherSizes (n : TransferNode) : TransferEvent → Prop
  | .stored port io now => ∀ t data, n.bound.lookup port = some t → t.received = some data →
      n.storage.Expects port → data.length ≠ encryptedChunkSizeB →
      n.storage.storeChunkForKnownPeer data port io now = (.error .invalidChunkSize, n.storage) ∧
      ∀ hash, n.storage.transferHash port = some hash → n.storage.files.lookup hash = none →
        n.storage.StoresLater hash
  | _ => True

/-- No expected data is shorter than a chunk. -/
def Complete (n : TransferNode) : TransferEvent → Prop
  | .stored port _ _ => ∀ t data, n.bound.lookup port = some t → t.received = some data →
      n.storage.Expects port → encryptedChunkSizeB ≤ data.length
  | _ => True

/-- What is accepted is of the size of a chunk when the store returns. -/
def StoresWhole (n : TransferNode) : TransferEvent → Prop
  | .stored port io _ => ∀ t data, n.bound.lookup port = some t → t.received = some data →
      ∀ hash, n.storage.transferHash port = some hash → n.storage.Admits data hash →
        ∀ file, io.writeAll data = some file → file.onDisk.length = encryptedChunkSizeB
  | _ => True

/-- What is accepted is on disk when the store returns. -/
def WrittenAtOnce (n : TransferNode) : TransferEvent → Prop
  | .stored port io _ => ∀ t data, n.bound.lookup port = some t → t.received = some data →
      n.storage.WrittenAtOnce data port io
  | _ => True

end TransferEvent

namespace ShardStorageManager
variable {m : ShardStorageManager} {data : Bytes} {port : UInt16}

theorem storeChunkForKnownPeer_tooLong (hexpects : m.Expects port) (hlong : data.length > encryptedChunkSizeB)
    (io : StoreIo) (now : Nat) : m.storeChunkForKnownPeer data port io now = (.error .invalidChunkSize, m) := by
  obtain ⟨hknown, hroom⟩ := hexpects
  obtain ⟨transfer, ht⟩ := Option.isSome_iff_exists.mp hknown
  unfold storeChunkForKnownPeer storeChunkWithin
  rw [ht]
  dsimp only
  rw [if_neg (Nat.not_le.mpr hroom), if_pos hlong]

/-- Data that is not too long is never refused for its size. -/
theorem storeChunkForKnownPeer_ne_invalid (hshort : data.length ≤ encryptedChunkSizeB) (io : StoreIo) (now : Nat) :
    (m.storeChunkForKnownPeer data port io now).1 ≠ .error .invalidChunkSize := by
  unfold storeChunkForKnownPeer storeChunkWithin
  cases m.dataTransfersTable.lookup port with
  | none => exact nofun
  | some transfer =>
      dsimp only
      rw [if_neg (Nat.not_lt.mpr hshort)]
      split_ifs
      · exact nofun
      · exact nofun
      · exact nofun
      · exact nofun
      · cases io.writeAll data with
        | none => exact nofun
        | some file => exact nofun

/-- No owned chunk is longer than a chunk, what is still being written included. -/
def BoundsChunks (m : ShardStorageManager) : Prop :=
  ∀ h d, m.owns h → m.content h = some d → d.length ≤ encryptedChunkSizeB

theorem BoundsChunks.store (h : m.BoundsChunks) (data : Bytes) (port : UInt16) (io : StoreIo) (now : Nat) :
    (m.storeChunkForKnownPeer data port io now).2.BoundsChunks := by
  rcases m.storeChunkForKnownPeer_cases data port io now with
    ⟨⟨e, he⟩, -⟩ | ⟨transfer, ht, hadmits, -, ⟨file, hwritten, hok⟩ | ⟨-, hfail⟩⟩
  · rw [he]
    exact h
  · rw [hok]
    intro k d hk hd
    rw [owns_afterStore] at hk
    rw [content_afterStore] at hd
    split_ifs at hd with heq
    · cases hd
      exact (StoreIo.content_isPrefix hwritten).length_le.trans hadmits.size
    · exact h k d (hk.resolve_left heq) hd
  · rw [hfail]
    intro k d hk hd
    rw [content, lookup_files_afterRefusedWrite] at hd
    split_ifs at hd
    · cases hd
      exact Nat.zero_le _
    · exact h k d hk hd

theorem BoundsChunks.continueWrite (h : m.BoundsChunks) (hash : Key) (count : Nat) :
    (m.continueWrite hash count).BoundsChunks := by
  intro k d hk hd
  rw [content_continueWrite] at hd
  exact h k d ((m.owns_continueWrite hash count k).mp hk) hd

/-- A store goes wrong exactly if the chunk that it accepts is not on disk as a whole. -/
theorem KeepsWholeChunks.store_iff (h : m.KeepsWholeChunks) (data : Bytes) (port : UInt16) (io : StoreIo) (now : Nat) :
    (m.storeChunkForKnownPeer data port io now).2.KeepsWholeChunks ↔
      ∀ hash, m.transferHash port = some hash → m.Admits data hash →
        ∀ file, io.writeAll data = some file → file.onDisk.length = encryptedChunkSizeB := by
  rcases m.storeChunkForKnownPeer_cases data port io now with
    ⟨⟨e, he⟩, hno⟩ | ⟨transfer, ht, hadmits, -, ⟨file, hwritten, hok⟩ | ⟨hnone, hfail⟩⟩
  · rw [he]
    refine iff_of_true h fun hash hhash hadmits file hwritten => ?_
    obtain ⟨transfer, ht, rfl⟩ := Option.map_eq_some_iff.mp hhash
    rw [hno transfer ht hadmits] at hwritten
    cases hwritten
  · rw [hok]
    constructor
    · intro hwhole hash hhash _ file' hwritten'
      cases hwritten.symm.trans hwritten'
      obtain ⟨transfer', ht', rfl⟩ := Option.map_eq_some_iff.mp hhash
      cases ht.symm.trans ht'
      obtain ⟨file', hfile', hlength⟩ := hwhole transfer.chunkHash ((owns_afterStore m file port _ now _).mpr (.inl rfl))
      rw [lookup_files_afterStore, if_pos rfl] at hfile'
      cases hfile'
      exact hlength
    · intro hwhole k hk
      rw [owns_afterStore] at hk
      rw [lookup_files_afterStore]
      split_ifs with heq
      · exact ⟨file, rfl, hwhole _ (transferHash_eq ht) hadmits file hwritten⟩
      · exact h k (hk.resolve_left heq)
  · rw [hfail]
    refine iff_of_true (fun k hk => ?_) fun _ _ _ file hwritten => nomatch hnone.symm.trans hwritten
    obtain ⟨old, hold, hlength⟩ := h k hk
    -- the file that was begun has a free name
    exact ⟨old, lookup_insert_of_none hadmits.free hold, hlength⟩

/-- Nothing is left to be written of a chunk that is whole. -/
theorem KeepsWholeChunks.continueWrite (h : m.KeepsWholeChunks) (hbounds : m.BoundsChunks) (hash : Key) (count : Nat) :
    (m.continueWrite hash count).KeepsWholeChunks := by
  intro k hk
  rw [owns_continueWrite] at hk
  obtain ⟨file, hfile, hlength⟩ := h k hk
  have hcontent : m.content k = some file.content := by
    rw [content, hfile]
    rfl
  have hnothing : file.unwritten = [] := by
    have hle := hbounds k _ hk hcontent
    rw [ChunkFile.content, List.length_append] at hle
    exact List.eq_nil_of_length_eq_zero (by omega)
  have hdisk : (file.progress count).onDisk = file.onDisk := by
    rw [ChunkFile.progress, hnothing, List.take_nil, List.append_nil]
  rw [lookup_files_continueWrite, hfile]
  split_ifs
  · exact ⟨_, rfl, (congrArg List.length hdisk).trans hlength⟩
  · exact ⟨file, rfl, hlength⟩

end ShardStorageManager

theorem Server.Keeps.keepsWholeChunks {s s' : Server} (h : s.Keeps s')
    (hwhole : s.shardStorageManager.KeepsWholeChunks) : s'.shardStorageManager.KeepsWholeChunks := by
  intro k hk
  rw [h.files_eq]
  exact hwhole k ((h.owns_iff k).mp hk)

theorem Server.Keeps.boundsChunks {s s' : Server} (h : s.Keeps s')
    (hbounds : s.shardStorageManager.BoundsChunks) : s'.shardStorageManager.BoundsChunks := by
  intro k d hk hd
  rw [h.content_eq] at hd
  exact hbounds k d ((h.owns_iff k).mp hk) hd

namespace TransferNode
variable {n n' : TransferNode}

theorem storage_handleTcpUpload (n : TransferNode) (data : Bytes) (port : UInt16) (io : StoreIo) (now : Nat) :
    (n.handleTcpUpload data port io now).storage = (n.storage.storeChunkForKnownPeer data port io now).2 := rfl

theorem handle_keeps (n : TransferNode) (request : Request) (env : HandlerEnv) (socketOk : Bool) :
    n.server.Keeps (n.handle request env socketOk).server := by
  rw [handle_server]
  rcases n.server.handleReceivedRequest_cases request env with hquiet | ⟨hkeeps, -⟩
  · exact hquiet.keeps
  · exact hkeeps

theorem boundsChunks_step {e : TransferEvent} (h : n.storage.BoundsChunks) (hstep : TransferStep n e n') :
    n'.storage.BoundsChunks := by
  cases hstep with
  | @request request env socketOk _ => exact (n.handle_keeps request env socketOk).boundsChunks h
  | received => exact h
  | receiveFails => exact h
  | @stored port io now t data hbound hdata => exact h.store data port io now
  | written chunkHash count => exact h.continueWrite chunkHash count

theorem keepsWholeChunks_step_iff {e : TransferEvent} (hbounds : n.storage.BoundsChunks)
    (h : n.storage.KeepsWholeChunks) (hstep : TransferStep n e n') :
    n'.storage.KeepsWholeChunks ↔ e.StoresWhole n := by
  cases hstep with
  | @request request env socketOk _ =>
      exact iff_of_true ((n.handle_keeps request env socketOk).keepsWholeChunks h) trivial
  | received => exact iff_of_true h trivial
  | receiveFails => exact iff_of_true h trivial
  | @stored port io now t data hbound hdata =>
      rw [storage_handleTcpUpload, h.store_iff]
      constructor
      · intro hwhole t' data' hbound' hdata'
        cases hbound.symm.trans hbound'
        cases hdata.symm.trans hdata'
        exact hwhole
      · exact fun hwhole => hwhole t data hbound hdata
  | written chunkHash count => exact iff_of_true (h.continueWrite hbounds chunkHash count) trivial

/-- A step refuses data of another size exactly if none is shorter. -/
theorem refusesOtherSizes_iff {e : TransferEvent} : e.RefusesOtherSizes n ↔ e.Complete n := by
  cases e with
  | request => exact Iff.rfl
  | received => exact Iff.rfl
  | receiveFails => exact Iff.rfl
  | written => exact Iff.rfl
  | stored port io now =>
      constructor
      · intro h t data hbound hdata hexpects
        by_contra hshort
        have hrefused := (h t data hbound hdata hexpects (by omega)).1
        exact ShardStorageManager.storeChunkForKnownPeer_ne_invalid (by omega) io now (congrArg Prod.fst hrefused)
      · intro h t data hbound hdata hexpects hsize
        have hlong : data.length > encryptedChunkSizeB := by
          have hge := h t data hbound hdata hexpects
          omega
        exact ⟨ShardStorageManager.storeChunkForKnownPeer_tooLong hexpects hlong io now,
          fun hash _ hfree => ShardStorageManager.storesLater_of_free hfree⟩

/-- Where no expected data is shorter than a chunk, all that can go wrong is a store that returns early. -/
theorem storesWhole_iff {e : TransferEvent} (h : e.Complete n) : e.StoresWhole n ↔ e.WrittenAtOnce n := by
  cases e with
  | request => exact Iff.rfl
  | received => exact Iff.rfl
  | receiveFails => exact Iff.rfl
  | written => exact Iff.rfl
  | stored port io now =>
      have hlength : ∀ t data hash, n.bound.lookup port = some t → t.received = some data →
          n.storage.transferHash port = some hash → n.storage.Admits data hash → data.length = encryptedChunkSizeB := by
        intro t data hash hbound hdata hhash hadmits
        obtain ⟨transfer, ht, -⟩ := Option.map_eq_some_iff.mp hhash
        have hexpects : n.storage.Expects port := ⟨Option.isSome_iff_exists.mpr ⟨transfer, ht⟩, hadmits.room⟩
        exact Nat.le_antisymm hadmits.size (h t data hbound hdata hexpects)
      constructor
      · intro hwhole t data hbound hdata hash hhash hadmits file hwritten
        -- what is on disk is the beginning of the data, and as long
        have hprefix : file.onDisk <+: data :=
          (List.prefix_append _ _).trans (StoreIo.content_isPrefix hwritten)
        refine hprefix.eq_of_length ?_
        rw [hwhole t data hbound hdata hash hhash hadmits file hwritten,
          hlength t data hash hbound hdata hhash hadmits]
      · intro hat t data hbound hdata hash hhash hadmits file hwritten
        rw [hat t data hbound hdata hash hhash hadmits file hwritten]
        exact hlength t data hash hbound hdata hhash hadmits

end TransferNode

/-- In a run that starts with no chunk all chunks are whole in every state, and data of another size is
always refused, exactly if no expected data is shorter than a chunk and no store returns before what it
has accepted is on disk. -/
theorem wholeChunks_iff {n₀ n : TransferNode} {hist : List (TransferNode × TransferEvent)}
    (hstart : n₀.storage.ownedChunks = ∅) (hrun : Trace TransferStep n₀ hist n) :
    (Throughout (fun s => s.storage.KeepsWholeChunks) hist n ∧ ∀ p ∈ hist, p.2.RefusesOtherSizes p.1) ↔
      ∀ p ∈ hist, p.2.Complete p.1 ∧ p.2.WrittenAtOnce p.1 := by
  have hnone : ∀ k, ¬ n₀.storage.owns k := by
    intro k hk
    rw [ShardStorageManager.owns, hstart] at hk
    cases hk
  have hwhole : Throughout (fun s => s.storage.KeepsWholeChunks) hist n ↔ ∀ p ∈ hist, p.2.StoresWhole p.1 :=
    hrun.throughout_iff_of_invariant (J := fun s => s.storage.BoundsChunks)
      (fun _ _ _ hs hstep => TransferNode.boundsChunks_step hs hstep)
      (fun _ _ _ hbounds hs hstep => TransferNode.keepsWholeChunks_step_iff hbounds hs hstep)
      (fun k _ hk => absurd hk (hnone k)) fun k hk => absurd hk (hnone k)
  rw [hwhole]
  constructor
  · rintro ⟨hstores, hrefuses⟩ p hp
    have hcomplete := TransferNode.refusesOtherSizes_iff.mp (hrefuses p hp)
    exact ⟨hcomplete, (TransferNode.storesWhole_iff hcomplete).mp (hstores p hp)⟩
  · intro h
    refine ⟨fun p hp => ?_, fun p hp => TransferNode.refusesOtherSizes_iff.mpr (h p hp).1⟩
    exact (TransferNode.storesWhole_iff (h p hp).1).mpr (h p hp).2

namespace TransferNode

/-- Port 5000 is open for a chunk. -/
def announced : TransferNode := (started (.local 2 4002)).handle getPortRequest portEnv true

theorem announced_storage : announced.storage =
    ((ShardStorageManager.new ∅).addActiveTcpConnection 5000 (.local 1 4001) (Key.ofTopByte 9 0)).2 := by
  rw [announced, storage, handle_server]
  rfl

theorem announced_bound : announced.bound.lookup 5000 = some ⟨.local 1 4001, Key.ofTopByte 9 0, none⟩ := by
  have hbound := ((started_mirrors (.local 2 4002)).handle_getPort (rfl : getPortRequest.receiver.id = _)
    (rfl : getPortRequest.requestType = _) (rfl : portEnv.listener = _) rfl true).2
  rw [announced, hbound]
  exact AList.lookup_insert _

/-- The data has come in on the port. -/
def received (data : Bytes) : TransferNode :=
  { announced with bound := announced.bound.insert 5000 ⟨.local 1 4001, Key.ofTopByte 9 0, some data⟩ }

theorem received_storage (data : Bytes) : (received data).storage =
    ((ShardStorageManager.new ∅).addActiveTcpConnection 5000 (.local 1 4001) (Key.ofTopByte 9 0)).2 := by
  rw [← announced_storage, storage, received, storage]

/-- The uploader connects and sends these bytes. -/
def delivery (data : Bytes) : List (TransferNode × TransferEvent) :=
  [(started (.local 2 4002), .request getPortRequest portEnv true), (announced, .received 5000 data),
    (received data, .stored 5000 .ok 7)]

theorem delivery_run (data : Bytes) :
    Trace TransferStep (started (.local 2 4002)) (delivery data) ((received data).handleTcpUpload data 5000 .ok 7) := by
  have hannounced : TransferStep (started (.local 2 4002)) (.request getPortRequest portEnv true) announced :=
    .request fun _ _ => rfl
  have hreceived : TransferStep announced (.received 5000 data) (received data) := .received announced_bound rfl
  have hstored : TransferStep (received data) (.stored 5000 .ok 7) ((received data).handleTcpUpload data 5000 .ok 7) :=
    .stored (AList.lookup_insert _) rfl
  exact ((Trace.start.next hannounced).next hreceived).next hstored

end TransferNode

theorem wholeChunks_delivered : Throughout (fun s => s.storage.KeepsWholeChunks)
    (TransferNode.delivery (List.replicate encryptedChunkSizeB 0))
    ((TransferNode.received (List.replicate encryptedChunkSizeB 0)).handleTcpUpload
      (List.replicate encryptedChunkSizeB 0) 5000 .ok 7) := by
  refine ((wholeChunks_iff rfl (TransferNode.delivery_run _)).mpr fun p hp => ?_).1
  rcases List.mem_cons.mp hp with rfl | hp
  · exact ⟨trivial, trivial⟩
  rcases List.mem_cons.mp hp with rfl | hp
  · exact ⟨trivial, trivial⟩
  rw [List.mem_singleton.mp hp]
  refine ⟨fun t data hbound hdata _ => ?_, ?_⟩
  · rw [TransferNode.received, AList.lookup_insert, Option.some.injEq] at hbound
    subst hbound
    rw [← Option.some.inj hdata, List.length_replicate]
  · rintro t data - - hash - - file ⟨⟩
    rfl

/-- The uploader connects and sends nothing. The chunk is owned, with an empty file. -/
theorem wholeChunks_empty : Trace TransferStep (.started (.local 2 4002)) (TransferNode.delivery [])
      ((TransferNode.received []).handleTcpUpload [] 5000 .ok 7) ∧
    ¬ ((TransferNode.received []).handleTcpUpload [] 5000 .ok 7).storage.KeepsWholeChunks := by
  refine ⟨TransferNode.delivery_run [], fun h => ?_⟩
  rw [TransferNode.storage_handleTcpUpload, TransferNode.received_storage] at h
  obtain ⟨file, hfile, hlength⟩ := h (Key.ofTopByte 9 0) rfl
  cases hfile
  exact absurd hlength (by decide)

end P2PFilesystem
