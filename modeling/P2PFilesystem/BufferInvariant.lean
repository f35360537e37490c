import P2PFilesystem.RoundEntries

/-!
# The buffer of a node lookup

`LookupBuffer` under any sequence of its calls with `for_value` off, also such as no lookup
makes: responses of anybody that list anything.
-/
namespace P2PFilesystem
open KeySort

/-- A response as one of the constructors builds it. -/
inductive LookupResponse.Built : LookupResponse → Prop
  | newNodesSuccessful (resolver : NodeInfo) (kClosest : List NodeInfo) : Built (.newNodesSuccessful resolver kClosest)
  | newValueSuccessful (resolver : NodeInfo) : Built (.newValueSuccessful resolver)
  | newFailed (resolver : NodeInfo) : Built (.newFailed resolver)

theorem LookupResponse.Built.gaveNodes {r : LookupResponse} (h : r.Built) {c : NodeInfo} (hc : c ∈ r.kClosest) :
    r.gaveNodes = true := by
  cases h with
  | newNodesSuccessful resolver kClosest => rfl
  | newValueSuccessful resolver => cases hc
  | newFailed resolver => cases hc

inductive BufferCall where
  | getAlphaUnqueriedNodes
  | recordLookupRoundResponses (responses : List LookupResponse)

namespace LookupBuffer

def call (self : LookupBuffer) : BufferCall → LookupBuffer
  | .getAlphaUnqueriedNodes => self.getAlphaUnqueriedNodes.2
  | .recordLookupRoundResponses responses => (self.recordLookupRoundResponses responses false).2

def afterCalls (self : LookupBuffer) (calls : List BufferCall) : LookupBuffer := calls.foldl call self

/-- What the calls keep. -/
structure Ordered (target : Key) (thisNode : NodeInfo) (b : LookupBuffer) : Prop where
  target_eq : b.target = target
  thisNode_eq : b.thisNode = thisNode
  sorted : b.nodes.Pairwise fun e e' => e.nodeInfo.id.dist target ≤ e'.nodeInfo.id.dist target
  nodup : b.contacts.Nodup
  not_self : thisNode ∉ b.contacts

/-- No entry is lost and no flag goes back. -/
def KeepsEntries (b b' : LookupBuffer) : Prop :=
  ∀ e ∈ b.nodes, ∃ e' ∈ b'.nodes, e'.nodeInfo = e.nodeInfo ∧ (e.queried = true → e'.queried = true) ∧
    (e.responded = true → e'.responded = true)

/-- Entries of one contact do not differ. -/
def Uniform (b : LookupBuffer) : Prop := ∀ e ∈ b.nodes, ∀ e' ∈ b.nodes, e.nodeInfo = e'.nodeInfo → e = e'

variable {target : Key} {thisNode : NodeInfo} {b b' b'' : LookupBuffer} {rs : List LookupResponse}
  {calls : List BufferCall}

theorem KeepsEntries.refl (b : LookupBuffer) : KeepsEntries b b := fun e he => ⟨e, he, rfl, id, id⟩

theorem KeepsEntries.trans (h : KeepsEntries b b') (h' : KeepsEntries b' b'') : KeepsEntries b b'' := by
  intro e he
  obtain ⟨e', he', hinfo, hq, hr⟩ := h e he
  obtain ⟨e'', he'', hinfo', hq', hr'⟩ := h' e' he'
  exact ⟨e'', he'', hinfo'.trans hinfo, hq' ∘ hq, hr' ∘ hr⟩

theorem KeepsEntries.contacts_subset (h : KeepsEntries b b') : b.contacts ⊆ b'.contacts := by
  intro c hc
  obtain ⟨e, he, rfl⟩ := List.mem_map.mp hc
  obtain ⟨e', he', hinfo, -⟩ := h e he
  exact List.mem_map.mpr ⟨e', he', hinfo⟩

theorem keepsEntries_markBatch (b : LookupBuffer) : KeepsEntries b b.markBatch := by
  intro e he
  refine ⟨b.inFlight e, List.mem_map_of_mem he, b.nodeInfo_inFlight e, fun hq => ?_, fun hr => ?_⟩
  · rw [queried_inFlight, hq, Bool.true_or]
  · rw [responded_inFlight, hr]

theorem keepsEntries_record (b : LookupBuffer) (rs : List LookupResponse) (forValue : Bool) :
    KeepsEntries b (b.recordLookupRoundResponses rs forValue).2 := by
  intro e he
  refine ⟨_, mem_nodes_record.mpr (.inl ⟨e, he, rfl⟩), rfl, fun hq => ?_, fun hr => ?_⟩
  · simp [markedById, hq]
  · simp [markedById, hr]

theorem keepsEntries_call (b : LookupBuffer) (c : BufferCall) : KeepsEntries b (b.call c) := by
  cases c with
  | getAlphaUnqueriedNodes =>
      rw [call, getAlphaUnqueriedNodes_eq]
      exact keepsEntries_markBatch b
  | recordLookupRoundResponses responses => exact keepsEntries_record b responses false

theorem keepsEntries_afterCalls (b : LookupBuffer) (calls : List BufferCall) : KeepsEntries b (b.afterCalls calls) := by
  induction calls generalizing b with
  | nil => exact .refl b
  | cons c calls ih => exact (keepsEntries_call b c).trans (ih _)

theorem Uniform.new (target : Key) (initial : List NodeInfo) (thisNode : NodeInfo) :
    Uniform (.new target initial thisNode) := by
  have hnew : ∀ e ∈ (LookupBuffer.new target initial thisNode).nodes, e = .new e.nodeInfo := by
    intro e he
    obtain ⟨c, -, rfl⟩ := List.mem_map.mp ((sort_perm _).mem_iff.mp he)
    rfl
  intro e he e' he' hinfo
  rw [hnew e he, hnew e' he', hinfo]

theorem Uniform.markBatch (h : Uniform b) : Uniform b.markBatch := by
  intro e he e' he' hsame
  rw [nodes_markBatch] at he he'
  obtain ⟨e₀, he₀, rfl⟩ := List.mem_map.mp he
  obtain ⟨e₁, he₁, rfl⟩ := List.mem_map.mp he'
  rw [nodeInfo_inFlight, nodeInfo_inFlight] at hsame
  rw [h e₀ he₀ e₁ he₁ hsame]

theorem Uniform.record (h : Uniform b) (rs : List LookupResponse) (forValue : Bool) :
    Uniform (b.recordLookupRoundResponses rs forValue).2 := by
  obtain ⟨fresh, hperm, hnodup, hmem⟩ := record_entries rs b forValue
  intro e he e' he' hinfo
  rw [hperm.mem_iff, List.mem_append] at he he'
  have hknown : ∀ e ∈ b.nodes.map (markedById (heard forValue rs)), e.nodeInfo ∈ b.contacts := by
    intro e he
    obtain ⟨e₀, he₀, rfl⟩ := List.mem_map.mp he
    exact List.mem_map.mpr ⟨e₀, he₀, rfl⟩
  cases he with
  | inl hold =>
      cases he' with
      | inl hold' =>
          obtain ⟨e₀, he₀, rfl⟩ := List.mem_map.mp hold
          obtain ⟨e₁, he₁, rfl⟩ := List.mem_map.mp hold'
          rw [h e₀ he₀ e₁ he₁ hinfo]
      | inr hnew' => exact absurd (hinfo ▸ hknown e hold) ((hmem e').mp hnew').unknown
  | inr hnew =>
      cases he' with
      | inl hold' => exact absurd (hinfo ▸ hknown e' hold') ((hmem e).mp hnew).unknown
      | inr hnew' => exact List.inj_on_of_nodup_map hnodup hnew hnew' hinfo

theorem Uniform.afterCalls (h : Uniform b) (calls : List BufferCall) : Uniform (b.afterCalls calls) := by
  induction calls generalizing b with
  | nil => exact h
  | cons c calls ih =>
      apply ih
      cases c with
      | getAlphaUnqueriedNodes =>
          rw [call, getAlphaUnqueriedNodes_eq]
          exact h.markBatch
      | recordLookupRoundResponses responses => exact h.record responses false

theorem Sorted.markBatch (h : b.Sorted) : b.markBatch.Sorted := by
  apply List.pairwise_map.mpr
  change b.nodes.Pairwise fun e e' =>
    (b.inFlight e).nodeInfo.id.dist b.target ≤ (b.inFlight e').nodeInfo.id.dist b.target
  simp only [nodeInfo_inFlight]
  exact h

theorem Sorted.call (h : b.Sorted) (c : BufferCall) : (b.call c).Sorted := by
  cases c with
  | getAlphaUnqueriedNodes =>
      rw [LookupBuffer.call, getAlphaUnqueriedNodes_eq]
      exact h.markBatch
  | recordLookupRoundResponses responses =>
      rw [LookupBuffer.call, record_of_no_value (Bool.false_and _)]
      exact sort_sorted _

theorem Sorted.afterCalls (h : b.Sorted) (calls : List BufferCall) : (b.afterCalls calls).Sorted := by
  induction calls generalizing b with
  | nil => exact h
  | cons c calls ih => exact ih (h.call c)

theorem Ordered.new {initial : List NodeInfo} (hnodup : initial.Nodup) (hself : thisNode ∉ initial) :
    Ordered target thisNode (.new target initial thisNode) where
  target_eq := rfl
  thisNode_eq := rfl
  sorted := sort_sorted ⟨initial.map LookupNodeInfo.new, target, thisNode⟩
  nodup := (contacts_new_perm target initial thisNode).nodup_iff.mpr hnodup
  not_self := mt (contacts_new_perm target initial thisNode).mem_iff.mp hself

theorem Ordered.markBatch (h : Ordered target thisNode b) : Ordered target thisNode b.markBatch where
  target_eq := h.target_eq
  thisNode_eq := h.thisNode_eq
  sorted := by
    have hsorted : b.Sorted := by
      unfold Sorted Ascending
      rw [h.target_eq]
      exact h.sorted
    exact h.target_eq ▸ hsorted.markBatch
  nodup := by
    rw [contacts_markBatch]
    exact h.nodup
  not_self := by
    rw [contacts_markBatch]
    exact h.not_self

theorem Ordered.record (h : Ordered target thisNode b) (rs : List LookupResponse) :
    Ordered target thisNode (b.recordLookupRoundResponses rs false).2 := by
  have hafter := record_of_no_value (Bool.false_and (rs.any LookupResponse.isValue)) b
  constructor
  · rw [hafter, target_sort, recordResponses_target]
    exact h.target_eq
  · rw [hafter, thisNode_sort, recordResponses_thisNode]
    exact h.thisNode_eq
  · have hsorted := (recordResponses false rs b).2.sort_sorted
    unfold Sorted Ascending at hsorted
    rw [target_sort, recordResponses_target, h.target_eq] at hsorted
    rw [hafter]
    exact hsorted
  · exact record_nodup h.nodup
  · intro hself
    cases mem_contacts_record.mp hself with
    | inl hold => exact h.not_self hold
    | inr hnew => exact hnew.1 h.thisNode_eq.symm

theorem Ordered.call (h : Ordered target thisNode b) (c : BufferCall) : Ordered target thisNode (b.call c) := by
  cases c with
  | getAlphaUnqueriedNodes =>
      rw [LookupBuffer.call, getAlphaUnqueriedNodes_eq]
      exact h.markBatch
  | recordLookupRoundResponses responses => exact h.record responses

theorem Ordered.afterCalls (h : Ordered target thisNode b) (calls : List BufferCall) :
    Ordered target thisNode (b.afterCalls calls) := by
  induction calls generalizing b with
  | nil => exact h
  | cons c calls ih => exact ih (h.call c)

theorem mem_afterCalls_of_reports (hcalls : .recordLookupRoundResponses rs ∈ calls) {c : NodeInfo} (hc : Reports rs c)
    (h : Ordered target thisNode b) (hne : c ≠ thisNode) : c ∈ (b.afterCalls calls).contacts := by
  induction calls generalizing b with
  | nil => cases hcalls
  | cons first calls ih =>
      cases List.mem_cons.mp hcalls with
      | inl heq =>
          have hin : c ∈ (b.call first).contacts := by
            rw [← heq]
            refine mem_contacts_record.mpr (.inr ⟨h.thisNode_eq ▸ hne, ?_⟩)
            rwa [heard_false]
          exact (keepsEntries_afterCalls (b.call first) calls).contacts_subset hin
      | inr htail => exact ih htail (h.call first)

/-- What a sorted buffer without repetition gives as its result. -/
theorem Ordered.resultingVector (h : Ordered target thisNode b) :
    b.getResultingVector.length ≤ K ∧ b.getResultingVector.Nodup ∧
    b.getResultingVector.Pairwise (fun c d => c.id.dist target ≤ d.id.dist target) ∧
    (∀ c ∈ b.getResultingVector, ∀ e ∈ b.nodes, e.nodeInfo = c → e.hasFailedToRespond = false) ∧
    (∀ e ∈ b.nodes, e.hasFailedToRespond = false →
      (∃ c ∈ b.getResultingVector, e.nodeInfo.id.dist target < c.id.dist target) → e.nodeInfo ∈ b.getResultingVector) := by
  have hsub : ((b.nodes.filter fun e => !e.hasFailedToRespond).take K).Sublist b.nodes :=
    (List.take_sublist _ _).trans List.filter_sublist
  have hstanding : Ascending (fun e : LookupNodeInfo => e.nodeInfo.id.dist target)
      (b.nodes.filter fun e => !e.hasFailedToRespond) := h.sorted.sublist List.filter_sublist
  unfold getResultingVector
  refine ⟨?_, h.nodup.sublist (hsub.map _), List.pairwise_map.mpr (h.sorted.sublist hsub), ?_, ?_⟩
  · rw [List.length_map]
    exact List.length_take_le K _
  · intro c hc e he hinfo
    obtain ⟨e', he', rfl⟩ := List.mem_map.mp hc
    obtain ⟨hmem, hok⟩ := List.mem_filter.mp (List.mem_of_mem_take he')
    have hsame : e = e' := List.inj_on_of_nodup_map h.nodup he hmem hinfo
    rw [hsame]
    simpa using hok
  · intro e he hok hcloser
    obtain ⟨c, hc, hlt⟩ := hcloser
    obtain ⟨e', he', rfl⟩ := List.mem_map.mp hc
    have hmem : e ∈ b.nodes.filter fun e => !e.hasFailedToRespond := List.mem_filter.mpr ⟨he, by simp [hok]⟩
    exact List.mem_map_of_mem (hstanding.mem_take_of_lt he' hmem hlt)

/-- The buffer of a node lookup after any calls, and the result it gives then. -/
theorem afterCalls_invariant (target : Key) (thisNode : NodeInfo) {initial : List NodeInfo} (hinitial : initial.Nodup)
    (hself : thisNode ∉ initial) (calls : List BufferCall)
    (hbuilt : ∀ rs, .recordLookupRoundResponses rs ∈ calls → ∀ r ∈ rs, r.Built) :
    let b := (LookupBuffer.new target initial thisNode).afterCalls calls
    Ordered target thisNode b ∧
    (∀ rs, .recordLookupRoundResponses rs ∈ calls → ∀ r ∈ rs, ∀ c ∈ r.kClosest, c ≠ thisNode → c ∈ b.contacts) ∧
    (∀ before later, calls = before ++ later →
      KeepsEntries ((LookupBuffer.new target initial thisNode).afterCalls before) b) ∧
    b.getResultingVector.length ≤ K ∧ b.getResultingVector.Nodup ∧
    b.getResultingVector.Pairwise (fun c d => c.id.dist target ≤ d.id.dist target) ∧
    (∀ c ∈ b.getResultingVector, ∀ e ∈ b.nodes, e.nodeInfo = c → e.hasFailedToRespond = false) ∧
    (∀ e ∈ b.nodes, e.hasFailedToRespond = false →
      (∃ c ∈ b.getResultingVector, e.nodeInfo.id.dist target < c.id.dist target) →
      e.nodeInfo ∈ b.getResultingVector) := by
  intro b
  have hstart : Ordered target thisNode (.new target initial thisNode) := .new hinitial hself
  refine ⟨hstart.afterCalls calls, ?_, ?_, (hstart.afterCalls calls).resultingVector⟩
  · intro rs hrs r hr c hc hne
    exact mem_afterCalls_of_reports hrs ⟨r, hr, (hbuilt rs hrs r hr).gaveNodes hc, hc⟩ hstart hne
  · rintro before later rfl
    have hb : b = ((LookupBuffer.new target initial thisNode).afterCalls before).afterCalls later :=
      List.foldl_append
    rw [hb]
    exact keepsEntries_afterCalls _ later

/-- A round in which a contact lists another one, this node and itself. -/
def selfListingCalls : List BufferCall :=
  [.getAlphaUnqueriedNodes, .recordLookupRoundResponses
    [.newNodesSuccessful (.local 1 8081) [.local 2 8081, .local 0 8081, .local 1 8081]]]

theorem afterCalls_selfListing :
    NodeInfo.local 2 8081 ∈
      ((LookupBuffer.new (Key.ofTopByte 3 0) [.local 1 8081] (.local 0 8081)).afterCalls selfListingCalls).contacts := by
  have hbuilt : ∀ rs, .recordLookupRoundResponses rs ∈ selfListingCalls → ∀ r ∈ rs, r.Built := by
    intro rs hrs r hr
    simp only [selfListingCalls, List.mem_cons, reduceCtorEq, BufferCall.recordLookupRoundResponses.injEq,
      List.not_mem_nil, or_false, false_or] at hrs
    subst hrs
    rw [List.mem_singleton.mp hr]
    exact .newNodesSuccessful _ _
  obtain ⟨-, hreported, -⟩ := afterCalls_invariant (Key.ofTopByte 3 0) (.local 0 8081)
    (List.nodup_singleton (NodeInfo.local 1 8081)) (by decide) selfListingCalls hbuilt
  exact hreported _ (List.mem_cons_of_mem _ List.mem_cons_self) _ List.mem_cons_self _ List.mem_cons_self (by decide)

end LookupBuffer
end P2PFilesystem
