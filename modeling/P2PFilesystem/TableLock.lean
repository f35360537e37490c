import P2PFilesystem.ClosestScan
import P2PFilesystem.Messages
import P2PFilesystem.Traces
import Mathlib.Data.Finset.Basic

/-!
# The lock of the routing table

The tasks of a node as the sequences in which they take and release `routing_table`, a tokio
`RwLock`. A store is made under the write guard; when the contact's bucket is full,
`add_nodeinfo` pings the head of the bucket and `Node::ping` reads the table first.
-/
namespace P2PFilesystem
open Traces

/-- What a task does between taking a guard and releasing it. -/
inductive TableSection where
  | read
  | lookup (target : Key) (now : Nat)
  | update (contacts : List NodeInfo) (stopAtError : Bool)

/-- The tasks with what they depend on from outside: the request and whether its chunk is
stored here, or the responsive nodes of the lookup. -/
inductive TableTask where
  | handleReceivedRequest (request : Request) (stored : Bool)
  | findNode (target : Key) (now : Nat) (responsive : List NodeInfo)
  | joinNetwork (beacon : NodeInfo) (responsive : List NodeInfo)
  | ping
  | findStorer
  | getRoutingTableContent

def RequestType.readsTable (stored : Bool) : RequestType → List TableSection
  | .findNode _ => [.read]
  | .findValue _ => if stored then [] else [.read]
  | _ => []

/-- The guards a task takes, one after the other; it may return before the next one. -/
def TableTask.sections (self : NodeInfo) : TableTask → List TableSection
  | .handleReceivedRequest request stored =>
      if request.receiver.id ≠ self.id then []
      else .update [request.sender] false :: request.requestType.readsTable stored
  | .findNode target now responsive => [.lookup target now, .update responsive false]
  | .joinNetwork beacon responsive => [.update [beacon] true, .read, .update responsive true]
  | .ping => [.read]
  | .findStorer => [.read]
  | .getRoutingTableContent => [.read]

/-- Where a task stands; `rest` is what it does after the present guard. -/
inductive TaskState where
  | idle
  | running (rest : List TableSection)
  | requests (next : TableSection) (rest : List TableSection)
  | reading (rest : List TableSection)
  | writing (contacts : List NodeInfo) (stopAtError : Bool) (rest : List TableSection)
  | pings (contacts : List NodeInfo) (stopAtError : Bool) (rest : List TableSection)
  | readsInPing (contacts : List NodeInfo) (stopAtError : Bool) (rest : List TableSection)

namespace TaskState

/-- It awaits a guard, for reading or writing. -/
inductive Requests : TaskState → Prop
  | requests (next : TableSection) (rest : List TableSection) : Requests (.requests next rest)
  | pings (contacts : List NodeInfo) (stopAtError : Bool) (rest : List TableSection) :
      Requests (.pings contacts stopAtError rest)

inductive HoldsWrite : TaskState → Prop
  | writing (contacts : List NodeInfo) (stopAtError : Bool) (rest : List TableSection) :
      HoldsWrite (.writing contacts stopAtError rest)
  | pings (contacts : List NodeInfo) (stopAtError : Bool) (rest : List TableSection) :
      HoldsWrite (.pings contacts stopAtError rest)
  | readsInPing (contacts : List NodeInfo) (stopAtError : Bool) (rest : List TableSection) :
      HoldsWrite (.readsInPing contacts stopAtError rest)

/-- The update goes on with the next contact, or `?` returns from the task. -/
def afterStore (failed : Bool) (contacts : List NodeInfo) (stopAtError : Bool) (rest : List TableSection) : TaskState :=
  if failed && stopAtError then .writing [] stopAtError [] else .writing contacts stopAtError rest

end TaskState

/-- Without the old entry of the contact its bucket has a place left, so that `add_nodeinfo`
does not come to the ping. -/
def RoutingTable.hasRoomFor (self : RoutingTable) (nodeInfo : NodeInfo) : Bool :=
  match self.getBucketIndex nodeInfo.id with
  | .error _ => true
  | .ok i => match self.buckets[i]? with
      | some bucket => (bucket.removeNodeinfo nodeInfo.id).2.nodes.length < bucket.capacity
      | none => true

/-- The head of a full bucket is taken out before it is pinged, so `Node::ping` cannot find it. -/
def headRemoved : PingOutcome := fun _ => .error .pingMissingNode

structure LockedTable (τ : Type*) where
  table : RoutingTable
  writer : Option τ
  readers : Finset τ
  tasks : τ → TaskState

inductive LockEvent (τ : Type*) where
  | spawns (t : τ) (task : TableTask)
  | requests (t : τ)
  | acquires (t : τ)
  | stores (t : τ)
  | releases (t : τ)
  | returns (t : τ)

namespace LockedTable
variable {τ : Type*}

def start (table : RoutingTable) : LockedTable τ := ⟨table, none, ∅, fun _ => .idle⟩

/-- A task that holds the write guard and awaits the lock. -/
def SelfBlocked (s : LockedTable τ) (t : τ) : Prop := s.writer = some t ∧ (s.tasks t).Requests

def NoSelfBlock (s : LockedTable τ) : Prop := ∀ t, ¬ s.SelfBlocked t

section Steps
variable [DecidableEq τ]

def setTask (s : LockedTable τ) (t : τ) (x : TaskState) : LockedTable τ :=
  { s with tasks := Function.update s.tasks t x }

/-- `store_nodeinfo` up to its end, or up to the ping. -/
def store (s : LockedTable τ) (t : τ) (contact : NodeInfo) (contacts : List NodeInfo) (stopAtError : Bool)
    (rest : List TableSection) : LockedTable τ :=
  let stored := s.table.storeNodeinfo contact headRemoved
  if s.table.hasRoomFor contact then
    { s.setTask t (.afterStore (!stored.1.isOk) contacts stopAtError rest) with table := stored.2 }
  else { s.setTask t (.pings contacts stopAtError rest) with table := stored.2 }

end Steps
end LockedTable

open LockedTable in
/-- The write guard excludes all others, read guards exclude the write guard. A task that
already has one of them is treated like any other. -/
inductive LockStep {τ : Type*} [DecidableEq τ] (self : NodeInfo) :
    LockedTable τ → LockEvent τ → LockedTable τ → Prop
  | spawns {s : LockedTable τ} {t : τ} {task : TableTask} : s.tasks t = .idle →
      LockStep self s (.spawns t task) (s.setTask t (.running (task.sections self)))
  | requests {s : LockedTable τ} {t : τ} {next : TableSection} {rest : List TableSection} :
      s.tasks t = .running (next :: rest) → LockStep self s (.requests t) (s.setTask t (.requests next rest))
  | acquiresRead {s : LockedTable τ} {t : τ} {rest : List TableSection} :
      s.tasks t = .requests .read rest → s.writer = none →
      LockStep self s (.acquires t) { s.setTask t (.reading rest) with readers := insert t s.readers }
  | acquiresLookup {s : LockedTable τ} {t : τ} {target : Key} {now : Nat} {rest : List TableSection} :
      s.tasks t = .requests (.lookup target now) rest → s.writer = none → s.readers = ∅ →
      LockStep self s (.acquires t) { s.setTask t (.writing [] false rest) with
        writer := some t, table := (s.table.lookupGetNClosest target alpha now).2 }
  | acquiresUpdate {s : LockedTable τ} {t : τ} {contacts : List NodeInfo} {stopAtError : Bool}
      {rest : List TableSection} : s.tasks t = .requests (.update contacts stopAtError) rest →
      s.writer = none → s.readers = ∅ →
      LockStep self s (.acquires t) { s.setTask t (.writing contacts stopAtError rest) with writer := some t }
  | acquiresInPing {s : LockedTable τ} {t : τ} {contacts : List NodeInfo} {stopAtError : Bool}
      {rest : List TableSection} : s.tasks t = .pings contacts stopAtError rest → s.writer = none →
      LockStep self s (.acquires t)
        { s.setTask t (.readsInPing contacts stopAtError rest) with readers := insert t s.readers }
  | stores {s : LockedTable τ} {t : τ} {contact : NodeInfo} {contacts : List NodeInfo} {stopAtError : Bool}
      {rest : List TableSection} : s.tasks t = .writing (contact :: contacts) stopAtError rest →
      LockStep self s (.stores t) (s.store t contact contacts stopAtError rest)
  | releasesRead {s : LockedTable τ} {t : τ} {rest : List TableSection} : s.tasks t = .reading rest →
      LockStep self s (.releases t) { s.setTask t (.running rest) with readers := s.readers.erase t }
  | releasesWrite {s : LockedTable τ} {t : τ} {stopAtError : Bool} {rest : List TableSection} :
      s.tasks t = .writing [] stopAtError rest →
      LockStep self s (.releases t) { s.setTask t (.running rest) with writer := none }
  | releasesInPing {s : LockedTable τ} {t : τ} {contacts : List NodeInfo} {stopAtError : Bool}
      {rest : List TableSection} : s.tasks t = .readsInPing contacts stopAtError rest →
      LockStep self s (.releases t)
        { s.setTask t (.afterStore true contacts stopAtError rest) with readers := s.readers.erase t }
  | returns {s : LockedTable τ} {t : τ} {rest : List TableSection} : s.tasks t = .running rest →
      LockStep self s (.returns t) (s.setTask t .idle)

/-- A contact that is stored next has room. -/
def LockEvent.Clean {τ : Type*} (s : LockedTable τ) : LockEvent τ → Prop
  | .stores t => ∀ contact contacts stopAtError rest,
      s.tasks t = .writing (contact :: contacts) stopAtError rest → s.table.hasRoomFor contact = true
  | _ => True

namespace RoutingTable

/-- With room, a store does not depend on how a ping would end. -/
theorem storeNodeinfo_of_hasRoomFor {t : RoutingTable} {n : NodeInfo} (h : t.hasRoomFor n = true)
    (ping ping' : PingOutcome) : t.storeNodeinfo n ping = t.storeNodeinfo n ping' := by
  unfold hasRoomFor at h
  unfold storeNodeinfo
  cases hidx : t.getBucketIndex n.id with
  | error e => rfl
  | ok i =>
      rw [hidx] at h
      dsimp only at h ⊢
      cases hb : t.buckets[i]? with
      | none => rfl
      | some b =>
          simp only [hb, decide_eq_true_eq] at h
          have hcapacity : (b.removeNodeinfo n.id).2.capacity = b.capacity := rfl
          simp only [KBucket.addNodeinfo, hcapacity, if_pos h]

/-- Room is left unless the bucket has `K` contacts and none with this id. -/
theorem Valid.hasRoomFor_iff {t : RoutingTable} (h : t.Valid) {n : NodeInfo} {i : Nat}
    (hidx : t.getBucketIndex n.id = .ok i) :
    t.hasRoomFor n = true ↔ (t.bucketNodes i).length < K ∨ ∃ m ∈ t.bucketNodes i, m.id = n.id := by
  have hi : i < t.buckets.length := h.length_buckets ▸ getBucketIndex_lt hidx
  have hb : t.buckets[i]? = some t.buckets[i] := List.getElem?_eq_getElem hi
  obtain ⟨hcapacity, hlength, -⟩ := h.sound _ (List.getElem_mem hi)
  have hany : (t.buckets[i].nodes.any fun m => m.id = n.id) = true ↔ ∃ m ∈ t.buckets[i].nodes, m.id = n.id := by simp
  simp only [hasRoomFor, bucketNodes, hidx, hb, KBucket.removeNodeinfo, List.length_eraseP, hcapacity, ← hany,
    decide_eq_true_eq]
  have hpos : 0 < K := by decide
  cases t.buckets[i].nodes.any fun m => m.id = n.id with
  | true =>
      simp only [if_true, or_true, iff_true]
      omega
  | false => simp

end RoutingTable

namespace LockedTable
variable {τ : Type*} {s s' : LockedTable τ}

/-- The tasks inside a write section are the one that has the write guard. -/
def Disciplined (s : LockedTable τ) : Prop := ∀ t, (s.tasks t).HoldsWrite ↔ s.writer = some t

theorem disciplined_start (table : RoutingTable) : (start table : LockedTable τ).Disciplined :=
  fun _ => iff_of_false nofun nofun

theorem noSelfBlock_start (table : RoutingTable) : (start table : LockedTable τ).NoSelfBlock :=
  fun _ h => nomatch h.1

theorem Disciplined.selfBlocked_iff (h : s.Disciplined) (t : τ) :
    s.SelfBlocked t ↔ (s.tasks t).HoldsWrite ∧ (s.tasks t).Requests := and_congr_left fun _ => (h t).symm

variable [DecidableEq τ] {self : NodeInfo} {e : LockEvent τ}

/-- A step moves one task that was not blocked on itself. The write guard is that task's afterwards if and only if it is in a
write section, and it awaits the lock there exactly if the event was not clean. -/
structure Moves (s s' : LockedTable τ) (e : LockEvent τ) (t : τ) (x : TaskState) : Prop where
  free : ¬ s.SelfBlocked t
  tasks_eq : s'.tasks = Function.update s.tasks t x
  holdsWrite : x.HoldsWrite ↔ s'.writer = some t
  others : ∀ u, u ≠ t → (s'.writer = some u ↔ s.writer = some u)
  blocks : x.HoldsWrite ∧ x.Requests ↔ ¬ e.Clean s

omit [DecidableEq τ] in
theorem afterStore_holdsWrite (failed : Bool) (contacts : List NodeInfo) (stopAtError : Bool) (rest : List TableSection) :
    (TaskState.afterStore failed contacts stopAtError rest).HoldsWrite ∧
    ¬ (TaskState.afterStore failed contacts stopAtError rest).Requests := by
  unfold TaskState.afterStore
  split_ifs <;> exact ⟨.writing _ _ _, nofun⟩

/-- A step of a task outside the write sections. -/
theorem Moves.outside {t : τ} {x : TaskState} (htasks : s'.tasks = Function.update s.tasks t x) (hx : ¬ x.HoldsWrite)
    (hwriter : s'.writer = s.writer) (ht : s.writer ≠ some t) (hclean : e.Clean s) : s.Moves s' e t x := by
  constructor
  · exact fun hb => ht hb.1
  · exact htasks
  · simp [hx, hwriter, ht]
  · simp [hwriter]
  · simp [hx, hclean]

/-- A step into a write section, or inside one. -/
theorem Moves.inside {t : τ} {x : TaskState} (htasks : s'.tasks = Function.update s.tasks t x) (hx : x.HoldsWrite)
    (hwriter : s'.writer = some t) (ht : s.writer = none ∨ s.writer = some t ∧ ¬ (s.tasks t).Requests)
    (hblocks : x.Requests ↔ ¬ e.Clean s) : s.Moves s' e t x := by
  constructor
  · intro hb
    cases ht with
    | inl hnone => simp [SelfBlocked, hnone] at hb
    | inr hheld => exact hheld.2 hb.2
  · exact htasks
  · simp [hx, hwriter]
  · intro u hu
    cases ht with
    | inl hnone => simp [hwriter, hnone, hu.symm]
    | inr hheld => simp [hwriter, hheld.1]
  · simp [hx, hblocks]

theorem Disciplined.moves (h : s.Disciplined) (hstep : LockStep self s e s') : ∃ t x, s.Moves s' e t x := by
  have houtside : ∀ {t x}, s.tasks t = x → ¬ x.HoldsWrite → s.writer ≠ some t := by
    rintro t x rfl hx hw
    exact hx ((h t).mpr hw)
  have hinside : ∀ {t x}, s.tasks t = x → x.HoldsWrite → s.writer = some t := by
    rintro t x rfl hx
    exact (h t).mp hx
  cases hstep with
  | @spawns t task ht => exact ⟨t, _, .outside rfl nofun rfl (houtside ht nofun) trivial⟩
  | @requests t next rest ht => exact ⟨t, _, .outside rfl nofun rfl (houtside ht nofun) trivial⟩
  | @acquiresRead t rest ht hw => exact ⟨t, _, .outside rfl nofun rfl (houtside ht nofun) trivial⟩
  | @acquiresLookup t target now rest ht hw hr =>
      exact ⟨t, _, .inside rfl (.writing _ _ _) rfl (.inl hw) (iff_of_false nofun (not_not.mpr trivial))⟩
  | @acquiresUpdate t contacts stopAtError rest ht hw hr =>
      exact ⟨t, _, .inside rfl (.writing _ _ _) rfl (.inl hw) (iff_of_false nofun (not_not.mpr trivial))⟩
  | @acquiresInPing t contacts stopAtError rest ht hw =>
      -- the task has the write guard, so nobody gets a guard
      have hheld := hinside ht (.pings _ _ _)
      rw [hw] at hheld
      cases hheld
  | @stores t contact contacts stopAtError rest ht =>
      have hheld := hinside ht (.writing _ _ _)
      have hclean : (LockEvent.stores t).Clean s ↔ s.table.hasRoomFor contact = true := by
        constructor
        · intro hc
          exact hc contact contacts stopAtError rest ht
        · intro hroom contact' contacts' stopAtError' rest' ht'
          cases ht.symm.trans ht'
          exact hroom
      unfold store
      by_cases hroom : s.table.hasRoomFor contact = true
      · rw [if_pos hroom]
        obtain ⟨hx, hnot⟩ := afterStore_holdsWrite (!(s.table.storeNodeinfo contact headRemoved).1.isOk) contacts
          stopAtError rest
        exact ⟨t, _, .inside rfl hx hheld (.inr ⟨hheld, ht ▸ nofun⟩) (iff_of_false hnot (not_not.mpr (hclean.mpr hroom)))⟩
      · rw [if_neg hroom]
        exact ⟨t, _, .inside rfl (.pings _ _ _) hheld (.inr ⟨hheld, ht ▸ nofun⟩)
          (iff_of_true (.pings _ _ _) fun hc => hroom (hclean.mp hc))⟩
  | @releasesRead t rest ht => exact ⟨t, _, .outside rfl nofun rfl (houtside ht nofun) trivial⟩
  | @releasesWrite t stopAtError rest ht =>
      have hheld := hinside ht (.writing _ _ _)
      refine ⟨t, .running rest, ?_, rfl, iff_of_false nofun nofun, ?_, iff_of_false nofun (not_not.mpr trivial)⟩
      · intro hb
        cases ht ▸ hb.2
      · intro u hu
        simp [hheld, hu.symm]
  | @releasesInPing t contacts stopAtError rest ht =>
      have hheld := hinside ht (.readsInPing _ _ _)
      obtain ⟨hx, hnot⟩ := afterStore_holdsWrite true contacts stopAtError rest
      exact ⟨t, _, .inside rfl hx hheld (.inr ⟨hheld, ht ▸ nofun⟩) (iff_of_false hnot (not_not.mpr trivial))⟩
  | @returns t rest ht => exact ⟨t, _, .outside rfl nofun rfl (houtside ht nofun) trivial⟩

theorem Disciplined.step (h : s.Disciplined) (hstep : LockStep self s e s') : s'.Disciplined := by
  obtain ⟨t, x, hmoves⟩ := h.moves hstep
  intro u
  rw [hmoves.tasks_eq]
  by_cases hu : u = t
  · rw [hu, Function.update_self]
    exact hmoves.holdsWrite
  · rw [Function.update_of_ne hu, hmoves.others u hu]
    exact h u

/-- A step blocks its task on itself exactly if it stores a contact without room. -/
theorem Disciplined.noSelfBlock_iff (h : s.Disciplined) (hno : s.NoSelfBlock) (hstep : LockStep self s e s') :
    s'.NoSelfBlock ↔ e.Clean s := by
  obtain ⟨t, x, hmoves⟩ := h.moves hstep
  have htask : s'.tasks t = x := by
    rw [hmoves.tasks_eq, Function.update_self]
  have hblocked : s'.SelfBlocked t ↔ ¬ e.Clean s := by
    rw [(h.step hstep).selfBlocked_iff, htask]
    exact hmoves.blocks
  constructor
  · intro hall
    exact not_not.mp (mt hblocked.mpr (hall t))
  · intro hclean u
    by_cases hu : u = t
    · rw [hu, hblocked]
      exact not_not.mpr hclean
    · have hsame : s'.tasks u = s.tasks u := by
        rw [hmoves.tasks_eq, Function.update_of_ne hu]
      rw [(h.step hstep).selfBlocked_iff, hsame, ← h.selfBlocked_iff]
      exact hno u

/-- No step of any task gets a task off a guard it holds itself. -/
theorem Disciplined.selfBlocked_step (h : s.Disciplined) {t : τ} (ht : s.SelfBlocked t)
    (hstep : LockStep self s e s') : s'.SelfBlocked t := by
  obtain ⟨u, x, hmoves⟩ := h.moves hstep
  have hne : t ≠ u := by
    rintro rfl
    exact hmoves.free ht
  unfold SelfBlocked
  rw [hmoves.others t hne, hmoves.tasks_eq, Function.update_of_ne hne]
  exact ht

end LockedTable

open LockedTable

/-- No task awaits the lock under its own write guard, in any state of a run from any table,
exactly if every contact that is stored in the run has room in its bucket. -/
theorem tableLock_noSelfBlock_iff {τ : Type*} [DecidableEq τ] {self : NodeInfo} {table : RoutingTable}
    {hist : List (LockedTable τ × LockEvent τ)} {s : LockedTable τ}
    (hrun : Trace (LockStep self) (start table) hist s) :
    Throughout NoSelfBlock hist s ↔ ∀ p ∈ hist, p.2.Clean p.1 :=
  hrun.throughout_iff_of_invariant (fun _ _ _ h hstep => h.step hstep)
    (fun _ _ _ h hno hstep => h.noSelfBlock_iff hno hstep) (disciplined_start table) (noSelfBlock_start table)

/-- Twenty contacts of the furthest bucket have been stored. -/
def fullBucketTable : RoutingTable :=
  (RoutingTable.new (NodeInfo.local 0 4000).id 0).storeAll
    ((List.range K).map fun i => (.local (UInt8.ofNat (128 + i)) 4001, headRemoved))

def strangerRequest : Request := ⟨.ping, .local 200 4002, .local 0 4000, zeroRequestId⟩

/-- A request is handled up to the store of its sender. -/
theorem strangerRequest_run (table : RoutingTable) : ∃ hist, ∃ s : LockedTable Unit,
    Trace (LockStep (.local 0 4000)) (start table) hist s ∧ (∀ p ∈ hist, p.2.Clean p.1) ∧ s.Disciplined ∧
    s.tasks () = .writing [strangerRequest.sender] false [] ∧ s.table = table := by
  have hspawns : LockStep (.local 0 4000) (start table : LockedTable Unit)
      (.spawns () (.handleReceivedRequest strangerRequest false)) _ := .spawns rfl
  have hspawned : Trace (LockStep (.local 0 4000)) (start table : LockedTable Unit) _ _ := .next .start hspawns
  have hrun := (hspawned.next (.requests (t := ()) rfl)).next (.acquiresUpdate (t := ()) rfl rfl rfl)
  refine ⟨_, _, hrun, ?_, hrun.invariant (fun _ _ _ h hstep => h.step hstep) (disciplined_start table), rfl, rfl⟩
  simp [LockEvent.Clean]

theorem tableLock_noSelfBlock_new : ∃ hist, ∃ s : LockedTable Unit,
    Trace (LockStep (.local 0 4000)) (start (.new (NodeInfo.local 0 4000).id 0)) hist s ∧
    s.tasks () = .writing [] false [] ∧ Throughout NoSelfBlock hist s := by
  obtain ⟨hist, s, hrun, hclean, -, htask, htable⟩ := strangerRequest_run (.new (NodeInfo.local 0 4000).id 0)
  have hroom : s.table.hasRoomFor strangerRequest.sender = true := by
    rw [htable]
    decide
  have hstored := hrun.next (.stores htask)
  refine ⟨_, _, hstored, ?_, (tableLock_noSelfBlock_iff hstored).mpr ?_⟩
  · unfold store
    rw [if_pos hroom]
    simp [setTask, TaskState.afterStore]
  · intro p hp
    cases List.mem_append.mp hp with
    | inl hp => exact hclean p hp
    | inr hp =>
        cases List.mem_singleton.mp hp
        intro contact contacts stopAtError rest ht
        cases htask.symm.trans ht
        exact hroom

/-- A request from an unknown contact of the full bucket: its task awaits the table under its
own write guard, now and in every later state. -/
theorem tableLock_selfBlock : fullBucketTable.Valid ∧ ∃ hist, ∃ s : LockedTable Unit,
    Trace (LockStep (.local 0 4000)) (start fullBucketTable) hist s ∧ s.SelfBlocked () ∧
    ∀ hist' s', Trace (LockStep (.local 0 4000)) s hist' s' → s'.SelfBlocked () := by
  obtain ⟨hist, s, hrun, -, hdisciplined, htask, htable⟩ := strangerRequest_run fullBucketTable
  have hfull : ¬ s.table.hasRoomFor strangerRequest.sender = true := by
    rw [htable]
    decide +kernel
  have hheld : s.writer = some () := (hdisciplined ()).mp (htask ▸ .writing _ _ _)
  have hstep : LockStep (.local 0 4000) s (.stores ()) _ := .stores htask
  have hblocked : (s.store () strangerRequest.sender [] false []).SelfBlocked () := by
    unfold store
    rw [if_neg hfull]
    exact ⟨hheld, .pings [] false []⟩
  refine ⟨RoutingTable.storeAll_valid (RoutingTable.new_valid _ _) _, _, _, hrun.next hstep, hblocked, fun hist' s' hlater => ?_⟩
  have hkept : s'.Disciplined ∧ s'.SelfBlocked () :=
    hlater.invariant (I := fun u => u.Disciplined ∧ u.SelfBlocked ())
      (fun _ _ _ h hstep => ⟨h.1.step hstep, h.1.selfBlocked_step h.2 hstep⟩) ⟨hdisciplined.step hstep, hblocked⟩
  exact hkept.2

end P2PFilesystem
