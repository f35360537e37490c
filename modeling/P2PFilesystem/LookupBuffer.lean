import P2PFilesystem.RoutingTable

/-!
# The lookup buffer

`core/lookup.rs`: the contacts an iterative lookup knows, sorted by distance to the
target, with the flags that say who was asked and who answered. Flags are set by id;
contacts are compared by id and address.
-/
namespace P2PFilesystem
open KeySort

structure LookupNodeInfo where
  nodeInfo : NodeInfo
  queried : Bool
  responded : Bool
  deriving DecidableEq

namespace LookupNodeInfo

def new (nodeInfo : NodeInfo) : LookupNodeInfo := ⟨nodeInfo, false, false⟩

def hasFailedToRespond (self : LookupNodeInfo) : Bool := self.queried && !self.responded

end LookupNodeInfo

inductive LookupSuccessType where
  | value
  | nodes
  deriving DecidableEq

structure LookupResponse where
  resolver : NodeInfo
  success : Bool
  successType : Option LookupSuccessType
  kClosest : List NodeInfo
  deriving DecidableEq

namespace LookupResponse

def newNodesSuccessful (resolver : NodeInfo) (kClosest : List NodeInfo) : LookupResponse :=
  ⟨resolver, true, some .nodes, kClosest⟩

def newValueSuccessful (resolver : NodeInfo) : LookupResponse := ⟨resolver, true, some .value, []⟩

def newFailed (resolver : NodeInfo) : LookupResponse := ⟨resolver, false, none, []⟩

def isValue (self : LookupResponse) : Bool := self.successType == some .value

def gaveNodes (self : LookupResponse) : Bool := self.success && !self.isValue

end LookupResponse

structure LookupBuffer where
  nodes : List LookupNodeInfo
  target : Key
  thisNode : NodeInfo
  deriving DecidableEq

namespace LookupBuffer

def sort (self : LookupBuffer) : LookupBuffer :=
  { self with nodes := sortByDistance (·.nodeInfo.id) self.target self.nodes }

def new (target : Key) (initialNodes : List NodeInfo) (thisNode : NodeInfo) : LookupBuffer :=
  sort ⟨initialNodes.map LookupNodeInfo.new, target, thisNode⟩

def getResultingVector (self : LookupBuffer) : List NodeInfo :=
  ((self.nodes.filter (fun e => !e.hasFailedToRespond)).take K).map LookupNodeInfo.nodeInfo

def getUnqueriedResultingNodes (self : LookupBuffer) : List NodeInfo :=
  ((self.nodes.take K).filter (fun e => !e.queried)).map LookupNodeInfo.nodeInfo

def markNodeAsQueried (self : LookupBuffer) (nodeId : Key) : LookupBuffer :=
  { self with nodes := self.nodes.map fun e =>
      if e.nodeInfo.id = nodeId then { e with queried := true } else e }

def markNodeAsResponded (self : LookupBuffer) (nodeId : Key) : LookupBuffer :=
  { self with nodes := self.nodes.map fun e =>
      if e.nodeInfo.id = nodeId then { e with responded := true } else e }

def getAlphaUnqueriedNodes (self : LookupBuffer) : List NodeInfo × LookupBuffer :=
  let candidates := ((self.nodes.filter (fun e => !e.queried)).map LookupNodeInfo.nodeInfo).take alpha
  (candidates, candidates.foldl (fun b c => b.markNodeAsQueried c.id) self)

def getResponsiveNodes (self : LookupBuffer) : List NodeInfo :=
  (self.nodes.filter (fun e => e.queried && e.responded)).map LookupNodeInfo.nodeInfo

/-- A reported contact enters the buffer unless it is known or this node itself. -/
def addReported (self : LookupBuffer) (node : NodeInfo) : LookupBuffer :=
  if (self.nodes.any fun e => e.nodeInfo = node) ∨ self.thisNode = node then self
  else { self with nodes := self.nodes ++ [LookupNodeInfo.new node] }

/-- The loop over the responses; the flag tells that a value answer ended it early. -/
def recordResponses (forValue : Bool) : List LookupResponse → LookupBuffer → Bool × LookupBuffer
  | [], self => (false, self)
  | response :: responses, self =>
      if forValue && response.isValue then (true, self)
      else if !response.success || (!forValue && response.isValue) then
        recordResponses forValue responses (self.markNodeAsQueried response.resolver.id)
      else recordResponses forValue responses
        ((response.kClosest.foldl addReported self).markNodeAsResponded response.resolver.id)

/-- `record_lookup_round_responses`. The early return leaves the buffer unsorted. -/
def recordLookupRoundResponses (self : LookupBuffer) (responses : List LookupResponse)
    (forValue : Bool) : Bool × LookupBuffer :=
  let previousKClosest := self.getResultingVector
  match recordResponses forValue responses self with
  | (true, self) => (true, self)
  | (false, self) => (previousKClosest != self.sort.getResultingVector, self.sort)

def contacts (b : LookupBuffer) : List NodeInfo := b.nodes.map LookupNodeInfo.nodeInfo

def Sorted (b : LookupBuffer) : Prop := Ascending (fun e => e.nodeInfo.id.dist b.target) b.nodes

@[simp] theorem thisNode_sort (b : LookupBuffer) : b.sort.thisNode = b.thisNode := rfl

@[simp] theorem target_sort (b : LookupBuffer) : b.sort.target = b.target := rfl

theorem sort_sorted (b : LookupBuffer) : b.sort.Sorted := by
  change Ascending _ (sortByDistance _ b.target b.nodes)
  rw [sortByDistance_eq]
  exact sortOn_ascending _ b.nodes

theorem sort_perm (b : LookupBuffer) : b.sort.nodes.Perm b.nodes := by
  change (sortByDistance _ b.target b.nodes).Perm b.nodes
  rw [sortByDistance_eq]
  exact sortOn_perm _ b.nodes

theorem contacts_sort_perm (b : LookupBuffer) : b.sort.contacts.Perm b.contacts :=
  b.sort_perm.map LookupNodeInfo.nodeInfo

@[simp] theorem mem_contacts_sort {b : LookupBuffer} {c : NodeInfo} :
    c ∈ b.sort.contacts ↔ c ∈ b.contacts := b.contacts_sort_perm.mem_iff

theorem contacts_new_perm (target : Key) (initial : List NodeInfo) (thisNode : NodeInfo) :
    (LookupBuffer.new target initial thisNode).contacts.Perm initial := by
  refine (contacts_sort_perm _).trans ?_
  simp only [contacts, List.map_map, Function.comp_def, LookupNodeInfo.new, List.map_id']
  exact List.Perm.refl initial

theorem contacts_mark (l : List LookupNodeInfo) (nodeId : Key) (f : LookupNodeInfo → LookupNodeInfo)
    (hf : ∀ e, (f e).nodeInfo = e.nodeInfo) :
    (l.map fun e => if e.nodeInfo.id = nodeId then f e else e).map LookupNodeInfo.nodeInfo =
      l.map LookupNodeInfo.nodeInfo := by
  rw [List.map_map]
  refine List.map_congr_left fun e _ => ?_
  simp only [Function.comp_apply]
  split_ifs
  · exact hf e
  · rfl

@[simp] theorem contacts_markNodeAsQueried (b : LookupBuffer) (id : Key) :
    (b.markNodeAsQueried id).contacts = b.contacts := contacts_mark b.nodes id _ fun _ => rfl

@[simp] theorem contacts_markNodeAsResponded (b : LookupBuffer) (id : Key) :
    (b.markNodeAsResponded id).contacts = b.contacts := contacts_mark b.nodes id _ fun _ => rfl

@[simp] theorem thisNode_addReported (b : LookupBuffer) (c : NodeInfo) :
    (b.addReported c).thisNode = b.thisNode := by
  unfold addReported
  split_ifs <;> rfl

@[simp] theorem target_addReported (b : LookupBuffer) (c : NodeInfo) :
    (b.addReported c).target = b.target := by
  unfold addReported
  split_ifs <;> rfl

theorem addReported_eq (b : LookupBuffer) (c : NodeInfo) :
    b.addReported c = if c ∈ b.contacts ∨ b.thisNode = c then b
      else { b with nodes := b.nodes ++ [LookupNodeInfo.new c] } := by
  refine if_congr (or_congr ?_ Iff.rfl) rfl rfl
  simp only [List.any_eq_true, decide_eq_true_eq, contacts, List.mem_map]

theorem contacts_addReported (b : LookupBuffer) (c : NodeInfo) :
    (b.addReported c).contacts =
      if c ∈ b.contacts ∨ b.thisNode = c then b.contacts else b.contacts ++ [c] := by
  rw [addReported_eq]
  split_ifs
  · rfl
  · simp only [contacts, List.map_append, List.map_cons, List.map_nil, LookupNodeInfo.new]

theorem foldl_addReported (ns : List NodeInfo) (b : LookupBuffer) :
    (ns.foldl addReported b).thisNode = b.thisNode ∧ (ns.foldl addReported b).target = b.target ∧
    (∀ c, c ∈ (ns.foldl addReported b).contacts ↔ c ∈ b.contacts ∨ c ∈ ns ∧ c ≠ b.thisNode) ∧
    (b.contacts.Nodup → (ns.foldl addReported b).contacts.Nodup) := by
  induction ns generalizing b with
  | nil => exact ⟨rfl, rfl, fun c => by simp, id⟩
  | cons n ns ih =>
      obtain ⟨hthis, htarget, hmem, hnd⟩ := ih (b.addReported n)
      rw [List.foldl_cons]
      refine ⟨hthis.trans (b.thisNode_addReported n), htarget.trans (b.target_addReported n), ?_, ?_⟩
      · intro c
        rw [hmem, thisNode_addReported, contacts_addReported, List.mem_cons]
        split_ifs with hknown
        · grind
        · grind
      · intro hb
        refine hnd ?_
        rw [contacts_addReported]
        split_ifs with hknown
        · exact hb
        · have hn : n ∉ b.contacts := fun h => hknown (.inl h)
          exact List.nodup_append_comm.mpr (List.nodup_cons.mpr ⟨hn, hb⟩)

/-- The early return is taken exactly on a value answer in a value lookup. -/
theorem recordResponses_found (forValue : Bool) (rs : List LookupResponse) (b : LookupBuffer) :
    (recordResponses forValue rs b).1 = (forValue && rs.any LookupResponse.isValue) := by
  induction rs generalizing b with
  | nil => simp [recordResponses]
  | cons r rs ih =>
      unfold recordResponses
      split_ifs with hv hfail
      · rw [Bool.and_eq_true] at hv
        simp [hv.1, hv.2]
      · rw [ih]
        simp only [Bool.and_eq_true, not_and, Bool.not_eq_true] at hv
        cases forValue with
        | false => rfl
        | true => simp [hv rfl]
      · rw [ih]
        simp only [Bool.and_eq_true, not_and, Bool.not_eq_true] at hv
        cases forValue with
        | false => rfl
        | true => simp [hv rfl]

theorem recordResponses_cons_of_gaveNodes {forValue : Bool} {r : LookupResponse}
    (h : r.gaveNodes = true) (rs : List LookupResponse) (b : LookupBuffer) :
    recordResponses forValue (r :: rs) b =
      recordResponses forValue rs ((r.kClosest.foldl addReported b).markNodeAsResponded r.resolver.id) := by
  simp only [LookupResponse.gaveNodes, Bool.and_eq_true, Bool.not_eq_true'] at h
  simp [recordResponses, h.1, h.2]

theorem recordResponses_cons_of_not_gaveNodes {forValue : Bool} {r : LookupResponse}
    (h : r.gaveNodes = false) (hv : (forValue && r.isValue) = false) (rs : List LookupResponse)
    (b : LookupBuffer) :
    recordResponses forValue (r :: rs) b =
      recordResponses forValue rs (b.markNodeAsQueried r.resolver.id) := by
  have hfail : (!r.success || (!forValue && r.isValue)) = true := by
    simp only [LookupResponse.gaveNodes] at h
    cases hs : r.success <;> cases hi : r.isValue <;> cases hf : forValue <;> simp_all
  rw [recordResponses, if_neg (by rw [hv]; exact Bool.false_ne_true), if_pos hfail]

/-- An invariant of the three buffer updates is one of the whole loop. -/
theorem recordResponses_induction {I : LookupBuffer → Prop} (forValue : Bool)
    (hq : ∀ b id, I b → I (b.markNodeAsQueried id)) (hr : ∀ b id, I b → I (b.markNodeAsResponded id))
    (rs : List LookupResponse)
    (hadd : ∀ r ∈ rs, r.gaveNodes = true → ∀ b, I b → I (r.kClosest.foldl addReported b))
    {b : LookupBuffer} (hb : I b) : I (recordResponses forValue rs b).2 := by
  induction rs generalizing b with
  | nil => exact hb
  | cons r rs ih =>
      have ih' := fun b' => ih (b := b') fun r' hr' => hadd r' (List.mem_cons_of_mem r hr')
      cases hv : forValue && r.isValue with
      | true => rw [recordResponses, if_pos hv]; exact hb
      | false =>
          cases hg : r.gaveNodes with
          | true =>
              rw [recordResponses_cons_of_gaveNodes hg]
              exact ih' _ (hr _ _ (hadd r List.mem_cons_self hg b hb))
          | false =>
              rw [recordResponses_cons_of_not_gaveNodes hg hv]
              exact ih' _ (hq _ _ hb)

theorem recordResponses_target (forValue : Bool) (rs : List LookupResponse) (b : LookupBuffer) :
    (recordResponses forValue rs b).2.target = b.target :=
  recordResponses_induction (I := fun b' => b'.target = b.target) forValue (fun _ _ h => h) (fun _ _ h => h) rs
    (fun r _ _ b' h => (foldl_addReported r.kClosest b').2.1.trans h) rfl

theorem recordResponses_thisNode (forValue : Bool) (rs : List LookupResponse) (b : LookupBuffer) :
    (recordResponses forValue rs b).2.thisNode = b.thisNode :=
  recordResponses_induction (I := fun b' => b'.thisNode = b.thisNode) forValue (fun _ _ h => h)
    (fun _ _ h => h) rs (fun r _ _ b' h => (foldl_addReported r.kClosest b').1.trans h) rfl

theorem recordResponses_contacts_subset (forValue : Bool) (rs : List LookupResponse)
    (b : LookupBuffer) : b.contacts ⊆ (recordResponses forValue rs b).2.contacts :=
  recordResponses_induction (I := fun b' => b.contacts ⊆ b'.contacts) forValue
    (fun b' id h => by rwa [contacts_markNodeAsQueried])
    (fun b' id h => by rwa [contacts_markNodeAsResponded]) rs
    (fun r _ _ b' h c hc => ((foldl_addReported r.kClosest b').2.2.1 c).mpr (.inl (h hc)))
    (List.Subset.refl _)

theorem recordResponses_nodup (forValue : Bool) (rs : List LookupResponse) {b : LookupBuffer}
    (hb : b.contacts.Nodup) : (recordResponses forValue rs b).2.contacts.Nodup :=
  recordResponses_induction (I := fun b' => b'.contacts.Nodup) forValue
    (fun b' id h => by rwa [contacts_markNodeAsQueried])
    (fun b' id h => by rwa [contacts_markNodeAsResponded]) rs
    (fun r _ _ b' h => (foldl_addReported r.kClosest b').2.2.2 h) hb

def Reports (rs : List LookupResponse) (c : NodeInfo) : Prop :=
  ∃ r ∈ rs, r.gaveNodes = true ∧ c ∈ r.kClosest

theorem mem_recordResponses (forValue : Bool) (rs : List LookupResponse) (b : LookupBuffer)
    {c : NodeInfo} (hc : c ∈ (recordResponses forValue rs b).2.contacts) :
    c ∈ b.contacts ∨ c ≠ b.thisNode ∧ Reports rs c := by
  refine (recordResponses_induction
    (I := fun b' => b'.thisNode = b.thisNode ∧
      ∀ c ∈ b'.contacts, c ∈ b.contacts ∨ c ≠ b.thisNode ∧ Reports rs c) forValue
    (fun b' id h => ⟨h.1, by simpa only [contacts_markNodeAsQueried] using h.2⟩)
    (fun b' id h => ⟨h.1, by simpa only [contacts_markNodeAsResponded] using h.2⟩) rs
    (fun r hr hg b' h => ?_) ⟨rfl, fun c hc => .inl hc⟩).2 c hc
  obtain ⟨hthis, -, hmem, -⟩ := foldl_addReported r.kClosest b'
  refine ⟨hthis.trans h.1, fun c hc => ?_⟩
  rcases (hmem c).mp hc with hold | ⟨hnew, hne⟩
  · exact h.2 c hold
  · exact .inr ⟨h.1 ▸ hne, r, hr, hg, hnew⟩

/-- Without an early return every reported contact but this node is known afterwards. -/
theorem mem_recordResponses_of_reports {forValue : Bool} {rs : List LookupResponse}
    (hv : (forValue && rs.any LookupResponse.isValue) = false) {b : LookupBuffer} {c : NodeInfo}
    (hc : Reports rs c) (hne : c ≠ b.thisNode) : c ∈ (recordResponses forValue rs b).2.contacts := by
  induction rs generalizing b with
  | nil => obtain ⟨r, hr, -⟩ := hc; cases hr
  | cons r rs ih =>
      have hv' : (forValue && r.isValue) = false ∧ (forValue && rs.any LookupResponse.isValue) = false := by
        cases forValue with
        | false => exact ⟨rfl, rfl⟩
        | true => simpa using hv
      obtain ⟨r', hr', hg', hk'⟩ := hc
      cases hg : r.gaveNodes with
      | true =>
          rw [recordResponses_cons_of_gaveNodes hg]
          obtain ⟨hthis, -, hmem, -⟩ := foldl_addReported r.kClosest b
          rcases List.mem_cons.mp hr' with rfl | htail
          · refine recordResponses_contacts_subset forValue rs _ ?_
            rw [contacts_markNodeAsResponded]
            exact (hmem c).mpr (.inr ⟨hk', hne⟩)
          · exact ih hv'.2 ⟨r', htail, hg', hk'⟩ (fun h => hne (h.trans hthis))
      | false =>
          rw [recordResponses_cons_of_not_gaveNodes hg hv'.1]
          rcases List.mem_cons.mp hr' with rfl | htail
          · rw [hg] at hg'; cases hg'
          · exact ih hv'.2 ⟨r', htail, hg', hk'⟩ hne

theorem recordLookupRoundResponses_eq (b : LookupBuffer) (rs : List LookupResponse) (forValue : Bool) :
    b.recordLookupRoundResponses rs forValue =
      if (recordResponses forValue rs b).1 then (true, (recordResponses forValue rs b).2)
      else (b.getResultingVector != (recordResponses forValue rs b).2.sort.getResultingVector,
        (recordResponses forValue rs b).2.sort) := by
  unfold recordLookupRoundResponses
  rcases recordResponses forValue rs b with ⟨found, b'⟩
  cases found with
  | true => rfl
  | false => rfl

theorem record_of_value {forValue : Bool} {rs : List LookupResponse}
    (hv : (forValue && rs.any LookupResponse.isValue) = true) (b : LookupBuffer) :
    b.recordLookupRoundResponses rs forValue = (true, (recordResponses forValue rs b).2) := by
  rw [recordLookupRoundResponses_eq, recordResponses_found, if_pos hv]

theorem record_of_no_value {forValue : Bool} {rs : List LookupResponse}
    (hv : (forValue && rs.any LookupResponse.isValue) = false) (b : LookupBuffer) :
    b.recordLookupRoundResponses rs forValue =
      (b.getResultingVector != (recordResponses forValue rs b).2.sort.getResultingVector,
        (recordResponses forValue rs b).2.sort) := by
  rw [recordLookupRoundResponses_eq, recordResponses_found, hv, if_neg Bool.false_ne_true]

/-- A property that sorting keeps passes from the loop to the whole call. -/
theorem record_of_recordResponses {I : LookupBuffer → Prop} (hsort : ∀ b, I b → I b.sort)
    {forValue : Bool} {rs : List LookupResponse} {b : LookupBuffer}
    (h : I (recordResponses forValue rs b).2) : I (b.recordLookupRoundResponses rs forValue).2 := by
  cases hv : forValue && rs.any LookupResponse.isValue with
  | true => rw [record_of_value hv]; exact h
  | false => rw [record_of_no_value hv]; exact hsort _ h

theorem contacts_subset_record (forValue : Bool) (rs : List LookupResponse) (b : LookupBuffer) :
    b.contacts ⊆ (b.recordLookupRoundResponses rs forValue).2.contacts :=
  record_of_recordResponses (I := fun b' => b.contacts ⊆ b'.contacts)
    (fun _ h _ hc => mem_contacts_sort.mpr (h hc)) (recordResponses_contacts_subset forValue rs b)

theorem foldl_markNodeAsQueried (cs : List NodeInfo) (b : LookupBuffer) :
    cs.foldl (fun b c => b.markNodeAsQueried c.id) b =
      { b with nodes := b.nodes.map fun e =>
          if e.nodeInfo.id ∈ cs.map NodeInfo.id then { e with queried := true } else e } := by
  induction cs generalizing b with
  | nil => simp
  | cons c cs ih =>
      rw [List.foldl_cons, ih]
      simp only [markNodeAsQueried, List.map_map, LookupBuffer.mk.injEq, and_true]
      refine List.map_congr_left fun e _ => ?_
      simp only [Function.comp_apply, List.map_cons, List.mem_cons]
      by_cases hc : e.nodeInfo.id = c.id
      · simp [hc]
      · simp [hc]

def batch (b : LookupBuffer) : List NodeInfo :=
  ((b.nodes.filter (fun e => !e.queried)).map LookupNodeInfo.nodeInfo).take alpha

/-- The buffer while the batch is in flight. -/
def markBatch (b : LookupBuffer) : LookupBuffer :=
  { b with nodes := b.nodes.map fun e =>
      if e.nodeInfo.id ∈ b.batch.map NodeInfo.id then { e with queried := true } else e }

theorem getAlphaUnqueriedNodes_eq (b : LookupBuffer) : b.getAlphaUnqueriedNodes = (b.batch, b.markBatch) :=
  Prod.ext rfl (foldl_markNodeAsQueried b.batch b)

theorem mem_batch {b : LookupBuffer} {c : NodeInfo} (h : c ∈ b.batch) :
    ∃ e ∈ b.nodes, e.queried = false ∧ e.nodeInfo = c := by
  obtain ⟨e, he, rfl⟩ := List.mem_map.mp (List.mem_of_mem_take h)
  obtain ⟨hmem, hq⟩ := List.mem_filter.mp he
  exact ⟨e, hmem, by simpa using hq, rfl⟩

theorem batch_eq_nil {b : LookupBuffer} : b.batch = [] ↔ ∀ e ∈ b.nodes, e.queried = true := by
  simp [batch, List.take_eq_nil_iff, alpha]

@[simp] theorem contacts_markBatch (b : LookupBuffer) : b.markBatch.contacts = b.contacts := by
  simp only [contacts, markBatch, List.map_map]
  refine List.map_congr_left fun e _ => ?_
  simp only [Function.comp_apply]
  split_ifs <;> rfl

/-- Contacts of `U` not yet known, plus known contacts not yet asked. -/
def remaining (U : Finset NodeInfo) (b : LookupBuffer) : Nat :=
  (U \ b.contacts.toFinset).card + b.nodes.countP (fun e => !e.queried)

theorem remaining_sort (U : Finset NodeInfo) (b : LookupBuffer) : b.sort.remaining U = b.remaining U := by
  rw [remaining, remaining, b.sort_perm.countP_eq, List.toFinset_eq_of_perm _ _ b.contacts_sort_perm]

theorem countP_map_queried_le (l : List LookupNodeInfo) (p : LookupNodeInfo → Prop) [DecidablePred p] :
    (l.map fun e => if p e then { e with queried := true } else e).countP (fun e => !e.queried) ≤
      l.countP (fun e => !e.queried) := by
  rw [List.countP_map]
  refine List.countP_mono_left fun e _ he => ?_
  simp only [Function.comp_apply] at he
  split_ifs at he
  · cases he
  · exact he

theorem remaining_markNodeAsQueried_le (U : Finset NodeInfo) (b : LookupBuffer) (id : Key) :
    (b.markNodeAsQueried id).remaining U ≤ b.remaining U := by
  rw [remaining, remaining, contacts_markNodeAsQueried]
  exact Nat.add_le_add_left (countP_map_queried_le b.nodes _) _

theorem remaining_markNodeAsResponded (U : Finset NodeInfo) (b : LookupBuffer) (id : Key) :
    (b.markNodeAsResponded id).remaining U = b.remaining U := by
  rw [remaining, remaining, contacts_markNodeAsResponded]
  congr 1
  simp only [markNodeAsResponded, List.countP_map]
  refine List.countP_congr fun e _ => ?_
  simp only [Function.comp_apply]
  split_ifs <;> rfl

theorem remaining_addReported {U : Finset NodeInfo} (b : LookupBuffer) {c : NodeInfo} (hc : c ∈ U) :
    (b.addReported c).remaining U = b.remaining U := by
  rw [addReported_eq]
  split_ifs with hknown
  · rfl
  · have hnew : c ∉ b.contacts := fun h => hknown (.inl h)
    simp only [remaining, contacts, List.map_append, List.map_cons, List.map_nil, LookupNodeInfo.new,
      List.toFinset_append, List.toFinset_cons, List.toFinset_nil, List.countP_append, List.countP_cons,
      List.countP_nil, insert_empty_eq]
    have hsdiff : U \ ((b.nodes.map LookupNodeInfo.nodeInfo).toFinset ∪ {c}) =
        (U \ (b.nodes.map LookupNodeInfo.nodeInfo).toFinset).erase c := by
      ext x
      simp only [Finset.mem_sdiff, Finset.mem_union, Finset.mem_singleton, Finset.mem_erase]
      tauto
    have hmem : c ∈ U \ (b.nodes.map LookupNodeInfo.nodeInfo).toFinset :=
      Finset.mem_sdiff.mpr ⟨hc, fun h => hnew (List.mem_toFinset.mp h)⟩
    rw [hsdiff, Finset.card_erase_of_mem hmem]
    have := Finset.card_pos.mpr ⟨c, hmem⟩
    simp
    omega

theorem remaining_record_le {U : Finset NodeInfo} {rs : List LookupResponse}
    (hU : ∀ r ∈ rs, ∀ c ∈ r.kClosest, c ∈ U) (b : LookupBuffer) (forValue : Bool) :
    (b.recordLookupRoundResponses rs forValue).2.remaining U ≤ b.remaining U := by
  refine record_of_recordResponses (I := fun b' => b'.remaining U ≤ b.remaining U)
    (fun b' h => (remaining_sort U b').trans_le h) ?_
  refine recordResponses_induction (I := fun b' => b'.remaining U ≤ b.remaining U) forValue
    (fun b' id h => (remaining_markNodeAsQueried_le U b' id).trans h)
    (fun b' id h => (remaining_markNodeAsResponded U b' id).trans_le h) rs ?_ (Nat.le_refl _)
  intro r hr _ b' h
  have hfold : ∀ ns : List NodeInfo, (∀ c ∈ ns, c ∈ U) → ∀ b'' : LookupBuffer,
      (ns.foldl addReported b'').remaining U = b''.remaining U := by
    intro ns hns
    induction ns with
    | nil => exact fun _ => rfl
    | cons n ns ih =>
        intro b''
        rw [List.foldl_cons, ih fun c hc => hns c (List.mem_cons_of_mem n hc),
          remaining_addReported b'' (hns n List.mem_cons_self)]
  exact (hfold r.kClosest (hU r hr) b').trans_le h

theorem remaining_markBatch_lt (U : Finset NodeInfo) {b : LookupBuffer} (h : b.batch ≠ []) :
    b.markBatch.remaining U < b.remaining U := by
  obtain ⟨c, hc⟩ := List.exists_mem_of_ne_nil _ h
  obtain ⟨e, he, hq, rfl⟩ := mem_batch hc
  rw [remaining, remaining, contacts_markBatch]
  refine Nat.add_lt_add_left ?_ _
  have hid : e.nodeInfo.id ∈ b.batch.map NodeInfo.id := List.mem_map.mpr ⟨_, hc, rfl⟩
  obtain ⟨pre, post, hsplit⟩ := List.append_of_mem he
  have hpre := countP_map_queried_le pre (fun e => e.nodeInfo.id ∈ b.batch.map NodeInfo.id)
  have hpost := countP_map_queried_le post (fun e => e.nodeInfo.id ∈ b.batch.map NodeInfo.id)
  simp only [markBatch, hsplit, List.map_append, List.map_cons, List.countP_append, if_pos hid]
  rw [List.countP_cons_of_neg (by simp), List.countP_cons_of_pos (by simp [hq])]
  omega

end LookupBuffer
end P2PFilesystem
