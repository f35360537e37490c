import P2PFilesystem.RequestHandler
import P2PFilesystem.ChunkStore
import P2PFilesystem.Traces

/-!
# When chunks expire

Chunks come over TCP, are refreshed by `STORE` requests, read, and swept away when they are old. The
times of stores and refreshes are kept in the map alone; the history of a node tells them too.
-/
namespace P2PFilesystem
open Traces

/-- What happens at a storing node. -/
inductive StorageEvent where
  | getPort (request : Request) (chunkId : Key) (listener : Option UInt16)
  | tcpUpload (data : Bytes) (port : UInt16) (io : StoreIo)
  | continueWrite (hash : Key) (count : Nat)
  | store (request : Request) (chunkId : Key)
  | getValue (request : Request) (chunkId : Key) (port : UInt16)
  | removeDeadChunks (iter : List Key)

namespace StorageEvent

def apply (s : Server) (now : Nat) : StorageEvent → Server
  | .getPort request chunkId listener => (s.handleGetPortMessage request chunkId listener).server
  | .tcpUpload data port io =>
      { s with shardStorageManager := (s.shardStorageManager.storeChunkForKnownPeer data port io now).2 }
  | .continueWrite hash count => { s with shardStorageManager := s.shardStorageManager.continueWrite hash count }
  | .store request chunkId => (s.handleStoreMessage request chunkId now).server
  | .getValue request chunkId port => (s.handleGetValue request chunkId port).server
  | .removeDeadChunks iter =>
      { s with shardStorageManager := (s.shardStorageManager.removeDeadChunks now iter fun _ => true).2 }

/-- Files can be created and written, and deleted as `apply` has it. A map is iterated over each
of its keys, in any order. -/
def FaultFree (s : Server) : StorageEvent → Prop
  | .tcpUpload data _ io => io.Works data
  | .removeDeadChunks iter => iter.Perm s.shardStorageManager.ownedChunks.keys
  | _ => True

/-- The event stores the chunk, or is a `STORE` of a chunk that the node has. -/
def Saves (s : Server) (now : Nat) (hash : Key) : StorageEvent → Prop
  | .tcpUpload data port io => (s.shardStorageManager.storeChunkForKnownPeer data port io now).1 = .ok () ∧
      s.shardStorageManager.transferHash port = some hash
  | .store _ chunkId => chunkId = hash ∧ s.shardStorageManager.owns hash
  | _ => False

instance (s : Server) (now : Nat) (hash : Key) : DecidablePred (Saves s now hash)
  | .tcpUpload _ _ _ => inferInstanceAs (Decidable (_ ∧ _))
  | .store _ _ => inferInstanceAs (Decidable (_ ∧ _ = true))
  | .getPort _ _ _ | .continueWrite _ _ | .getValue _ _ _ | .removeDeadChunks _ => inferInstanceAs (Decidable False)

end StorageEvent

/-- A node and the time of the last event. -/
structure StorageMoment where
  server : Server
  clock : Nat

/-- The clock never goes back. -/
inductive StorageStep : StorageMoment → Nat × StorageEvent → StorageMoment → Prop
  | at {s : StorageMoment} {now : Nat} {e : StorageEvent} : s.clock ≤ now → e.FaultFree s.server →
      StorageStep s (now, e) ⟨e.apply s.server now, now⟩

abbrev StorageHistory := List (StorageMoment × Nat × StorageEvent)

/-- The latest time at which the chunk was stored or refreshed. -/
def lastSaved (hash : Key) (hist : StorageHistory) : Option Nat :=
  (hist.filter fun p => p.2.2.Saves p.1.server p.2.1 hash).getLast?.map fun p => p.2.1

theorem lastSaved_concat (hash : Key) (hist : StorageHistory) (s : StorageMoment) (now : Nat) (e : StorageEvent) :
    lastSaved hash (hist ++ [(s, now, e)]) = if e.Saves s.server now hash then some now else lastSaved hash hist := by
  unfold lastSaved
  rw [List.filter_append]
  split_ifs with hsaves
  · rw [List.filter_cons_of_pos (by exact decide_eq_true hsaves), List.filter_nil, List.getLast?_concat]
    rfl
  · rw [List.filter_cons_of_neg (by simpa using hsaves), List.filter_nil, List.append_nil]

/-- The map has the times of the history, and what is in it is on disk. -/
structure Stamped (hist : StorageHistory) (m : ShardStorageManager) : Prop where
  time_eq : ∀ h t, m.ownedChunks.lookup h = some t → lastSaved h hist = some t
  on_disk : ∀ h, m.owns h → (m.files.lookup h).isSome

namespace Stamped
open ShardStorageManager

variable {hist : StorageHistory} {s : StorageMoment} {now : Nat}

/-- An event that saves nothing and leaves files and map alone. -/
theorem of_eq {e : StorageEvent} {m : ShardStorageManager} (h : Stamped hist s.server.shardStorageManager)
    (hmap : m.ownedChunks = s.server.shardStorageManager.ownedChunks)
    (hfiles : m.files = s.server.shardStorageManager.files) (hnone : ∀ k, ¬ e.Saves s.server now k) :
    Stamped (hist ++ [(s, now, e)]) m := by
  refine ⟨fun k t hk => ?_, fun k hk => ?_⟩
  · rw [lastSaved_concat, if_neg (hnone k)]
    exact h.time_eq k t (hmap ▸ hk)
  · rw [hfiles]
    refine h.on_disk k ?_
    rwa [owns, ← hmap]

theorem getPort (h : Stamped hist s.server.shardStorageManager) (request : Request) (chunkId : Key)
    (listener : Option UInt16) :
    Stamped (hist ++ [(s, now, .getPort request chunkId listener)])
      (s.server.handleGetPortMessage request chunkId listener).server.shardStorageManager := by
  unfold Server.handleGetPortMessage
  cases listener with
  | none => exact h.of_eq rfl rfl fun _ => id
  | some port =>
      unfold addActiveTcpConnection DataTransfersTable.add
      dsimp only
      cases s.server.shardStorageManager.dataTransfersTable.lookup port with
      | none => exact h.of_eq rfl rfl fun _ => id
      | some old => exact h.of_eq rfl rfl fun _ => id

theorem getValue (h : Stamped hist s.server.shardStorageManager) (request : Request) (chunkId : Key)
    (port : UInt16) :
    Stamped (hist ++ [(s, now, .getValue request chunkId port)])
      (s.server.handleGetValue request chunkId port).server.shardStorageManager := by
  unfold Server.handleGetValue
  cases s.server.shardStorageManager.readChunk chunkId with
  | ok data => exact h.of_eq rfl rfl fun _ => id
  | error e => exact h.of_eq rfl rfl fun _ => id

theorem tcpUpload (h : Stamped hist s.server.shardStorageManager) {data : Bytes} {io : StoreIo}
    (hio : io.Works data) (port : UInt16) :
    Stamped (hist ++ [(s, now, .tcpUpload data port io)])
      (s.server.shardStorageManager.storeChunkForKnownPeer data port io now).2 := by
  rcases s.server.shardStorageManager.storeChunkForKnownPeer_cases data port io now with
    ⟨⟨e, he⟩, -⟩ | ⟨transfer, ht, hadmits, -, ⟨file, -, hok⟩ | ⟨hnone, -⟩⟩
  · rw [he]
    refine h.of_eq rfl rfl fun k hsaves => ?_
    have hresult := hsaves.1
    rw [he] at hresult
    cases hresult
  · have hhash : s.server.shardStorageManager.transferHash port = some transfer.chunkHash := transferHash_eq ht
    rw [hok]
    refine ⟨fun k t hk => ?_, fun k hk => ?_⟩
    · rw [lookup_ownedChunks_afterStore] at hk
      rw [lastSaved_concat]
      split_ifs at hk with heq
      · subst heq
        have hsaves : (StorageEvent.tcpUpload data port io).Saves s.server now transfer.chunkHash :=
          ⟨congrArg Prod.fst hok, hhash⟩
        rw [if_pos hsaves, hk]
      · have hother : ¬ (StorageEvent.tcpUpload data port io).Saves s.server now k :=
          fun hsaves => heq (Option.some.inj (hsaves.2.symm.trans hhash))
        rw [if_neg hother]
        exact h.time_eq k t hk
    · exact on_disk_afterStore h.on_disk file port _ now k hk
  · obtain ⟨file, hwritten, -⟩ := hio
    cases hnone.symm.trans hwritten

theorem continueWrite (h : Stamped hist s.server.shardStorageManager) (hash : Key) (count : Nat) :
    Stamped (hist ++ [(s, now, .continueWrite hash count)])
      (s.server.shardStorageManager.continueWrite hash count) := by
  have hnone : ∀ k, ¬ (StorageEvent.continueWrite hash count).Saves s.server now k := fun _ => id
  refine ⟨fun k t hk => ?_, fun k hk => ?_⟩
  · rw [ownedChunks_continueWrite] at hk
    rw [lastSaved_concat, if_neg (hnone k)]
    exact h.time_eq k t hk
  · rw [isSome_lookup_continueWrite]
    exact h.on_disk k ((s.server.shardStorageManager.owns_continueWrite hash count k).mp hk)

theorem store (h : Stamped hist s.server.shardStorageManager) (request : Request) (chunkId : Key) :
    Stamped (hist ++ [(s, now, .store request chunkId)])
      (s.server.handleStoreMessage request chunkId now).server.shardStorageManager := by
  unfold Server.handleStoreMessage
  split_ifs with hstored
  · refine ⟨fun k t hk => ?_, fun k hk => ?_⟩
    · change (s.server.shardStorageManager.updateChunkUploadTime chunkId now).2.ownedChunks.lookup k = some t at hk
      rw [lookup_updateChunkUploadTime] at hk
      rw [lastSaved_concat]
      by_cases heq : k = chunkId
      · subst heq
        have hsaves : (StorageEvent.store request k).Saves s.server now k := ⟨rfl, hstored⟩
        rw [if_pos rfl] at hk
        obtain ⟨old, -, htime⟩ := Option.map_eq_some_iff.mp hk
        rw [if_pos hsaves, htime]
      · have hother : ¬ (StorageEvent.store request chunkId).Saves s.server now k := fun hsaves => heq hsaves.1.symm
        rw [if_neg heq] at hk
        rw [if_neg hother]
        exact h.time_eq k t hk
    · exact on_disk_updateChunkUploadTime h.on_disk chunkId now k hk
  · refine h.of_eq rfl rfl fun k hsaves => hstored ?_
    rw [hsaves.1]
    exact hsaves.2

theorem removeDeadChunks (h : Stamped hist s.server.shardStorageManager) {iter : List Key}
    (hiter : iter.Perm s.server.shardStorageManager.ownedChunks.keys) :
    Stamped (hist ++ [(s, now, .removeDeadChunks iter)])
      (s.server.shardStorageManager.removeDeadChunks now iter fun _ => true).2 := by
  obtain ⟨-, hspec⟩ := removeDeadChunks_spec h.on_disk hiter now
  refine ⟨fun k t hk => ?_, fun k hk => on_disk_removeDeadChunks h.on_disk hiter now k hk⟩
  have hnone : ¬ (StorageEvent.removeDeadChunks iter).Saves s.server now k := id
  rw [(hspec k).2] at hk
  rw [lastSaved_concat, if_neg hnone]
  split_ifs at hk
  exact h.time_eq k t hk

/-- One case for each event. -/
theorem step {e : Nat × StorageEvent} {s' : StorageMoment} (h : Stamped hist s.server.shardStorageManager)
    (hstep : StorageStep s e s') : Stamped (hist ++ [(s, e)]) s'.server.shardStorageManager := by
  obtain ⟨-, hfault⟩ := hstep
  rename_i now e
  cases e with
  | getPort request chunkId listener => exact h.getPort request chunkId listener
  | tcpUpload data port io => exact h.tcpUpload hfault port
  | continueWrite hash count => exact h.continueWrite hash count
  | store request chunkId => exact h.store request chunkId
  | getValue request chunkId port => exact h.getValue request chunkId port
  | removeDeadChunks iter => exact h.removeDeadChunks hfault

theorem of_trace {s₀ : StorageMoment} (hstart : s₀.server.shardStorageManager.ownedChunks = ∅)
    (hrun : Trace StorageStep s₀ hist s) : Stamped hist s.server.shardStorageManager := by
  induction hrun with
  | start =>
      refine ⟨fun h t ht => ?_, fun h howns => ?_⟩
      · rw [hstart] at ht
        cases ht
      · rw [owns, hstart] at howns
        cases howns
  | next _ hstep ih => exact ih.step hstep

end Stamped

theorem lastSaved_le {s₀ s : StorageMoment} {hist : StorageHistory} (hrun : Trace StorageStep s₀ hist s) {h : Key}
    {t : Nat} (hsaved : lastSaved h hist = some t) : t ≤ s.clock := by
  induction hrun with
  | start => cases hsaved
  | next _ hstep ih =>
      obtain ⟨hclock, -⟩ := hstep
      rw [lastSaved_concat] at hsaved
      split_ifs at hsaved
      · exact (Option.some.inj hsaved).ge
      · exact (ih hsaved).trans hclock

namespace ShardStorageManager

/-- The chunk goes from the map and from the disk. -/
def Removes (m m' : ShardStorageManager) (hash : Key) : Prop :=
  (m.owns hash ∧ (m.files.lookup hash).isSome) ∧ ¬ m'.owns hash ∧ m'.files.lookup hash = none

/-- What is owned is dead once the time of its last store or refresh is long enough ago. -/
theorem isDead_iff {m : ShardStorageManager} {h : Key} {t now : Nat} (ht : m.ownedChunks.lookup h = some t)
    (hnow : t ≤ now) : m.isDead now h = true ↔ t + m.expireTimeS * nanosPerS ≤ now := by
  unfold isDead
  rw [ht]
  dsimp only
  rw [decide_eq_true_iff]
  omega

/-- A removal takes away a chunk exactly if it was stored and refreshed long enough ago. The others
keep file and time, and what was taken away can be stored again. -/
theorem removeDeadChunks_expired {s₀ s : StorageMoment} {hist : StorageHistory}
    (hstart : s₀.server.shardStorageManager.ownedChunks = ∅) (hrun : Trace StorageStep s₀ hist s) {now : Nat}
    (hclock : s.clock ≤ now) {iter : List Key} (hiter : iter.Perm s.server.shardStorageManager.ownedChunks.keys) :
    let m := s.server.shardStorageManager
    let removal := m.removeDeadChunks now iter fun _ => true
    removal.1 = .ok () ∧ ∀ hash,
      (m.Removes removal.2 hash ↔
        m.owns hash ∧ ∃ t, lastSaved hash hist = some t ∧ t + m.expireTimeS * nanosPerS ≤ now) ∧
      (m.Removes removal.2 hash → removal.2.StoresLater hash) ∧
      (¬ m.Removes removal.2 hash → removal.2.files.lookup hash = m.files.lookup hash ∧
        removal.2.ownedChunks.lookup hash = m.ownedChunks.lookup hash) := by
  intro m removal
  have hstamped : Stamped hist m := Stamped.of_trace hstart hrun
  have hexpired : ∀ hash, m.isDead now hash = true ↔
      m.owns hash ∧ ∃ t, lastSaved hash hist = some t ∧ t + m.expireTimeS * nanosPerS ≤ now := by
    intro hash
    constructor
    · intro hdead
      obtain ⟨t, ht⟩ := Option.isSome_iff_exists.mp (isDead_owns hdead)
      have hsaved := hstamped.time_eq hash t ht
      exact ⟨isDead_owns hdead, t, hsaved, (isDead_iff ht ((lastSaved_le hrun hsaved).trans hclock)).mp hdead⟩
    · rintro ⟨howns, t, hsaved, hold⟩
      obtain ⟨t', ht⟩ := Option.isSome_iff_exists.mp howns
      cases hsaved.symm.trans (hstamped.time_eq hash t' ht)
      exact (isDead_iff ht ((lastSaved_le hrun hsaved).trans hclock)).mpr hold
  obtain ⟨hok, hspec⟩ := removeDeadChunks_spec hstamped.on_disk hiter now
  refine ⟨hok, fun hash => ?_⟩
  obtain ⟨hfile, hentry⟩ := hspec hash
  rw [← hexpired]
  by_cases hdead : m.isDead now hash = true
  · rw [if_pos hdead] at hfile hentry
    have hremoved : m.Removes (m.removeDeadChunks now iter fun _ => true).2 hash := by
      refine ⟨⟨isDead_owns hdead, hstamped.on_disk hash (isDead_owns hdead)⟩, ?_, hfile⟩
      rw [owns, hentry]
      exact Bool.false_ne_true
    exact ⟨iff_of_true hremoved hdead, fun _ => storesLater_of_free hfile, fun hkept => absurd hremoved hkept⟩
  · rw [if_neg hdead] at hfile hentry
    have hkept : ¬ m.Removes (m.removeDeadChunks now iter fun _ => true).2 hash := by
      rintro ⟨⟨howns, -⟩, hgone, -⟩
      rw [owns, hentry] at hgone
      exact hgone howns
    exact ⟨iff_of_false hkept hdead, fun hremoved => absurd hremoved hkept, fun _ => ⟨hfile, hentry⟩⟩

/-- A chunk that came in at time 5 is swept away 24 hours later, to the nanosecond. -/
theorem removeDeadChunks_expired_once :
    let request : Request := ⟨.getPort (Key.ofTopByte 9 0), .local 1 4001, .local 2 4002, zeroRequestId⟩
    let announced := StorageEvent.apply (.started (.local 2 4002)) 1 (.getPort request (Key.ofTopByte 9 0) (some 5000))
    let m := (StorageEvent.apply announced 5 (.tcpUpload [1, 2] 5000 .ok)).shardStorageManager
    m.Removes (m.removeDeadChunks (5 + defaultChunkExpireTimeS * nanosPerS) [Key.ofTopByte 9 0] fun _ => true).2
      (Key.ofTopByte 9 0) := by
  intro request announced m
  have hannounced : StorageStep ⟨.started (.local 2 4002), 0⟩ (1, .getPort request (Key.ofTopByte 9 0) (some 5000))
      ⟨announced, 1⟩ := .at (Nat.zero_le 1) trivial
  have hstored : StorageStep ⟨announced, 1⟩ (5, .tcpUpload [1, 2] 5000 .ok)
      ⟨StorageEvent.apply announced 5 (.tcpUpload [1, 2] 5000 .ok), 5⟩ := .at (by decide) (StoreIo.works_ok _)
  have hrun := (Trace.start.next hannounced).next hstored
  have hlater : 5 ≤ 5 + defaultChunkExpireTimeS * nanosPerS := Nat.le_add_right 5 _
  have hiter : [Key.ofTopByte 9 0].Perm m.ownedChunks.keys := by
    decide +kernel
  obtain ⟨-, hlaw⟩ := removeDeadChunks_expired rfl hrun hlater hiter
  exact (hlaw (Key.ofTopByte 9 0)).1.mpr ⟨rfl, 5, rfl, Nat.le_refl _⟩

end ShardStorageManager
end P2PFilesystem
