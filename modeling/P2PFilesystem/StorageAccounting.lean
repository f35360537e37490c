import P2PFilesystem.ChunkStore
import P2PFilesystem.Traces

/-!
# The storage account

`total_stored_kb` is to count what the owned chunks take up. No operation changes it, and the quota
compares what it leaves, in KiB, with the bytes of a chunk. With the shard limit of the constants the
quota is out of reach, so the limit is a parameter here.
-/
namespace P2PFilesystem
open Traces

namespace ShardStorageManager

/-- The bytes of the files of the owned chunks, with what is still being written. -/
def ownedBytes (m : ShardStorageManager) : Nat :=
  (m.ownedChunks.keys.map fun h => ((m.content h).getD []).length).sum

/-- The account is exact, and a chunk of which nothing else is wrong is refused for want of memory
exactly if it does not fit into the quota. -/
def Accounted (maxShards : Nat) (m : ShardStorageManager) : Prop :=
  m.totalStoredKb = (m.ownedBytes + 1023) / 1024 ∧
  ∀ data port io now, (m.dataTransfersTable.lookup port).isSome → m.ownedChunks.entries.length < maxShards →
    data.length ≤ encryptedChunkSizeB →
    ((m.storeChunkWithin maxShards data port io now).1 = .error .storageMemoryExceeded ↔
      m.ownedBytes + data.length > maxDataStoredMb * 1024 * 1024)

end ShardStorageManager

namespace StorageOp

def applyWithin (maxShards : Nat) (m : ShardStorageManager) : StorageOp → ShardStorageManager
  | .storeChunkForKnownPeer data port io now => (m.storeChunkWithin maxShards data port io now).2
  | .addActiveTcpConnection port sender chunkHash => apply m (.addActiveTcpConnection port sender chunkHash)
  | .continueWrite hash count => apply m (.continueWrite hash count)
  | .updateChunkUploadTime hash now => apply m (.updateChunkUploadTime hash now)
  | .removeDeadChunks now iter => apply m (.removeDeadChunks now iter)

/-- A transferred chunk that passes the checks is empty. -/
def StoresNoData (maxShards : Nat) (m : ShardStorageManager) : StorageOp → Prop
  | .storeChunkForKnownPeer data port _ _ => ∀ hash, m.transferHash port = some hash →
      m.AdmitsWithin maxShards data hash → data = []
  | _ => True

end StorageOp

def StorageOpStep (maxShards : Nat) (m : ShardStorageManager) (op : StorageOp) (m' : ShardStorageManager) : Prop :=
  op.FaultFree m ∧ op.applyWithin maxShards m = m'

namespace ShardStorageManager
variable {maxShards : Nat} {m m' : ShardStorageManager}

/-- The account is never touched, and what is owned is on disk. -/
structure Untouched (m : ShardStorageManager) : Prop where
  total_eq : m.totalStoredKb = 0
  on_disk : ∀ h, m.owns h → (m.files.lookup h).isSome

/-- No owned chunk takes up space. -/
def HoldsNoData (m : ShardStorageManager) : Prop := ∀ h data, m.owns h → m.content h = some data → data = []

/-- As long as nothing is counted no chunk of legal size is refused for want of memory. -/
theorem Untouched.not_memoryExceeded (h : m.Untouched) {data : Bytes} (hsize : data.length ≤ encryptedChunkSizeB)
    (port : UInt16) (io : StoreIo) (now : Nat) :
    (m.storeChunkWithin maxShards data port io now).1 ≠ .error .storageMemoryExceeded := by
  have hfits : encryptedChunkSizeB ≤ maxDataStoredMb * 1024 := by decide
  unfold storeChunkWithin
  rw [h.total_eq]
  cases m.dataTransfersTable.lookup port with
  | none => exact nofun
  | some transfer =>
      dsimp only
      rw [if_neg (by omega : ¬ maxDataStoredMb * 1024 - 0 < data.length)]
      split_ifs
      · exact nofun
      · exact nofun
      · exact nofun
      · exact nofun
      · cases io.writeAll data with
        | none => exact nofun
        | some file => exact nofun

theorem Untouched.ownedBytes_eq_zero_iff (h : m.Untouched) : m.ownedBytes = 0 ↔ m.HoldsNoData := by
  unfold ownedBytes HoldsNoData
  rw [List.sum_eq_zero_iff]
  constructor
  · intro hzero k data hk hfile
    have hkey : k ∈ m.ownedChunks.keys := AList.mem_keys.mp (AList.lookup_isSome.mp hk)
    have hlength := hzero _ (List.mem_map_of_mem hkey)
    rw [hfile] at hlength
    exact List.length_eq_zero_iff.mp hlength
  · intro hnone n hn
    obtain ⟨k, hkey, rfl⟩ := List.mem_map.mp hn
    have hk : m.owns k := AList.lookup_isSome.mpr (AList.mem_keys.mpr hkey)
    obtain ⟨file, hfile⟩ := Option.isSome_iff_exists.mp (h.on_disk k hk)
    have hcontent : m.content k = some file.content := by
      rw [content, hfile]
      rfl
    rw [hcontent, hnone k _ hk hcontent]
    rfl

/-- An account of zero is exact if there is nothing to count. -/
theorem Untouched.accounted_iff (h : m.Untouched) : m.Accounted maxShards ↔ m.HoldsNoData := by
  rw [← h.ownedBytes_eq_zero_iff]
  unfold Accounted
  rw [h.total_eq]
  constructor
  · intro hexact
    have hceil := hexact.1
    omega
  · intro hzero
    rw [hzero]
    refine ⟨rfl, fun data port io now _ _ hsize => ?_⟩
    have hquota : encryptedChunkSizeB ≤ maxDataStoredMb * 1024 * 1024 := by decide
    exact iff_of_false (h.not_memoryExceeded hsize port io now) (by omega)

theorem totalStoredKb_removeDeadChunks (m : ShardStorageManager) (now : Nat) (iter : List Key)
    (deletable : Key → Bool) : (m.removeDeadChunks now iter deletable).2.totalStoredKb = m.totalStoredKb := by
  unfold removeDeadChunks
  dsimp only
  split <;> rfl

theorem Untouched.step {op : StorageOp} (h : m.Untouched) (hstep : StorageOpStep maxShards m op m') :
    m'.Untouched := by
  obtain ⟨hfault, rfl⟩ := hstep
  cases op with
  | addActiveTcpConnection port sender chunkHash => exact ⟨h.total_eq, h.on_disk⟩
  | storeChunkForKnownPeer data port io now =>
      rw [StorageOp.applyWithin]
      obtain ⟨⟨e, he⟩, -⟩ | ⟨transfer, -, -, -, ⟨file, -, hok⟩ | ⟨hnone, -⟩⟩ :=
        storeChunkWithin_cases maxShards m data port io now
      · rw [he]
        exact h
      · rw [hok]
        exact ⟨h.total_eq, on_disk_afterStore h.on_disk file port _ now⟩
      · obtain ⟨file, hwritten, -⟩ := hfault
        cases hnone.symm.trans hwritten
  | continueWrite hash count =>
      refine ⟨(m.totalStoredKb_continueWrite hash count).trans h.total_eq, fun k hk => ?_⟩
      rw [StorageOp.applyWithin, StorageOp.apply] at hk ⊢
      rw [isSome_lookup_continueWrite]
      exact h.on_disk k ((m.owns_continueWrite hash count k).mp hk)
  | updateChunkUploadTime hash now =>
      obtain ⟨-, -, htotal, -⟩ := m.updateChunkUploadTime_spec hash now
      exact ⟨htotal.trans h.total_eq, on_disk_updateChunkUploadTime h.on_disk hash now⟩
  | removeDeadChunks now iter =>
      have htotal := m.totalStoredKb_removeDeadChunks now iter fun _ => true
      exact ⟨htotal.trans h.total_eq, on_disk_removeDeadChunks h.on_disk hfault now⟩

/-- Of all operations only a store adds to what there is to count. -/
theorem HoldsNoData.step_iff {op : StorageOp} (hm : m.Untouched) (h : m.HoldsNoData)
    (hstep : StorageOpStep maxShards m op m') : m'.HoldsNoData ↔ op.StoresNoData maxShards m := by
  obtain ⟨hfault, rfl⟩ := hstep
  cases op with
  | addActiveTcpConnection port sender chunkHash => exact iff_of_true h trivial
  | storeChunkForKnownPeer data port io now =>
      rw [StorageOp.applyWithin]
      obtain ⟨file, hwritten, hcontent⟩ := hfault
      obtain ⟨⟨e, he⟩, hno⟩ | ⟨transfer, ht, hadmits, -, ⟨file', hwritten', hok⟩ | ⟨hnone, -⟩⟩ :=
        storeChunkWithin_cases maxShards m data port io now
      · rw [he]
        refine iff_of_true h fun hash hhash hadmits => ?_
        obtain ⟨transfer, ht, rfl⟩ := Option.map_eq_some_iff.mp hhash
        rw [hno transfer ht hadmits] at hwritten
        cases hwritten
      · cases hwritten.symm.trans hwritten'
        rw [hok]
        constructor
        · intro hnone hash hhash _
          obtain ⟨transfer', ht', rfl⟩ := Option.map_eq_some_iff.mp hhash
          cases ht.symm.trans ht'
          exact hnone transfer.chunkHash data ((owns_afterStore m file port _ now _).mpr (.inl rfl))
            ((content_afterStore m file port _ now _).trans ((if_pos rfl).trans (congrArg some hcontent)))
        · intro hempty k d hk hd
          rw [owns_afterStore] at hk
          rw [content_afterStore, hcontent] at hd
          split_ifs at hd with heq
          · cases hd
            have hhash : m.transferHash port = some transfer.chunkHash := transferHash_eq ht
            exact hempty _ hhash hadmits
          · exact h k d (hk.resolve_left heq) hd
      · cases hnone.symm.trans hwritten
  | continueWrite hash count =>
      refine iff_of_true (fun k d hk hd => ?_) trivial
      rw [StorageOp.applyWithin, StorageOp.apply] at hk hd
      rw [content_continueWrite] at hd
      exact h k d ((m.owns_continueWrite hash count k).mp hk) hd
  | updateChunkUploadTime hash now =>
      obtain ⟨hfiles, -, -, howns⟩ := m.updateChunkUploadTime_spec hash now
      refine iff_of_true (fun k d hk hd => ?_) trivial
      rw [StorageOp.applyWithin, StorageOp.apply, content, hfiles] at hd
      exact h k d ((howns k).mp hk) hd
  | removeDeadChunks now iter =>
      obtain ⟨-, hspec⟩ := removeDeadChunks_spec hm.on_disk hfault now
      refine iff_of_true (fun k d hk hd => ?_) trivial
      rw [StorageOp.applyWithin, StorageOp.apply] at hk hd
      rw [owns, (hspec k).2] at hk
      rw [content, (hspec k).1] at hd
      split_ifs at hk hd
      · cases hk
      · exact h k d hk hd

end ShardStorageManager

/-- From the start of the store on its account is exact in every state, and the quota the one in bytes,
exactly if no data is ever stored. -/
theorem storageAccount_iff {maxShards : Nat} {files : AList fun _ : Key => Bytes}
    {hist : List (ShardStorageManager × StorageOp)} {m : ShardStorageManager}
    (hrun : Trace (StorageOpStep maxShards) (.new files) hist m) :
    Throughout (ShardStorageManager.Accounted maxShards) hist m ↔ ∀ p ∈ hist, p.2.StoresNoData maxShards p.1 := by
  have hstart : (ShardStorageManager.new files).Untouched := ⟨rfl, nofun⟩
  have hempty : (ShardStorageManager.new files).HoldsNoData := nofun
  refine hrun.throughout_iff_of_invariant (J := ShardStorageManager.Untouched) (fun s e t hs hstep => hs.step hstep)
    (fun s e t hs haccounted hstep => ?_) hstart (hstart.accounted_iff.mpr hempty)
  rw [(hs.step hstep).accounted_iff]
  exact (hs.accounted_iff.mp haccounted).step_iff hs hstep

/-- Chunk 9 is announced on port 5000. -/
def announcedStore : ShardStorageManager :=
  ((ShardStorageManager.new ∅).addActiveTcpConnection 5000 ⟨Key.ofTopByte 1 0, .localhost 4001⟩ (Key.ofTopByte 9 0)).2

def oneStore (data : Bytes) : List (ShardStorageManager × StorageOp) :=
  [(.new ∅, .addActiveTcpConnection 5000 ⟨Key.ofTopByte 1 0, .localhost 4001⟩ (Key.ofTopByte 9 0)),
    (announcedStore, .storeChunkForKnownPeer data 5000 .ok 7)]

theorem oneStore_run (data : Bytes) : Trace (StorageOpStep maxShardsStored) (.new ∅) (oneStore data)
    (announcedStore.storeChunkWithin maxShardsStored data 5000 .ok 7).2 := by
  have hannounced : StorageOpStep maxShardsStored (.new ∅) (.addActiveTcpConnection 5000
      ⟨Key.ofTopByte 1 0, .localhost 4001⟩ (Key.ofTopByte 9 0)) announcedStore := ⟨trivial, rfl⟩
  have hstored : StorageOpStep maxShardsStored announcedStore (.storeChunkForKnownPeer data 5000 .ok 7)
      (announcedStore.storeChunkWithin maxShardsStored data 5000 .ok 7).2 := ⟨StoreIo.works_ok data, rfl⟩
  exact (Trace.start.next hannounced).next hstored

theorem storageAccount_empty : Throughout (ShardStorageManager.Accounted maxShardsStored) (oneStore [])
    (announcedStore.storeChunkWithin maxShardsStored [] 5000 .ok 7).2 := by
  refine (storageAccount_iff (oneStore_run [])).mpr fun p hp => ?_
  rcases List.mem_cons.mp hp with rfl | hp
  · trivial
  · rw [List.mem_singleton.mp hp]
    exact fun _ _ _ => rfl

/-- One byte is stored and not counted. -/
theorem storageAccount_oneByte : Trace (StorageOpStep maxShardsStored) (.new ∅) (oneStore [1])
      (announcedStore.storeChunkWithin maxShardsStored [1] 5000 .ok 7).2 ∧
    ¬ (announcedStore.storeChunkWithin maxShardsStored [1] 5000 .ok 7).2.Accounted maxShardsStored := by
  refine ⟨oneStore_run [1], fun h => ?_⟩
  exact absurd h.1 (by decide +kernel)

end P2PFilesystem
