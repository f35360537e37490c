import P2PFilesystem.BufferInvariant
import P2PFilesystem.LookupFlags

/-!
# What the improvement signal tells

`record_lookup_round_responses` compares the result after the round with the one it finds
when it is called, and that is after `get_alpha_unqueried_nodes` has marked the batch: a
contact that answers comes back into the result just as a new one comes into it.
-/
namespace P2PFilesystem
open KeySort

namespace LookupBuffer

/-- Not counted as failed while the batch is in flight. -/
def standsInFlight (b : LookupBuffer) (e : LookupNodeInfo) : Bool :=
  e.responded || (!e.queried && decide (e.nodeInfo.id ∉ b.batch.map NodeInfo.id))

/-- Not counted as failed after the round either, or back by an answer. -/
def standsAfter (b : LookupBuffer) (rs : List LookupResponse) (e : LookupNodeInfo) : Bool :=
  b.standsInFlight e || rs.any fun r => r.gaveNodes && decide (r.resolver.id = e.nodeInfo.id)

/-- The signal of a round is whether somebody new came among the `K` closest. -/
def SignalsImprovement (b : LookupBuffer) (rs : List LookupResponse) : Prop :=
  (b.getAlphaUnqueriedNodes.2.recordLookupRoundResponses rs false).1 = true ↔
    ∃ c ∈ (b.getAlphaUnqueriedNodes.2.recordLookupRoundResponses rs false).2.getResultingVector, c ∉ b.contacts

/-- A contact enters, is not marked as failed by the later responses, and fewer than `K` of those that
were known are as close. -/
def SomebodyNewIsClose (b : LookupBuffer) (rs : List LookupResponse) : Prop :=
  ∃ f, Enters b rs f ∧ f.standing = true ∧ (b.nodes.filter (b.standsAfter rs)).countP
    (fun e => e.nodeInfo.id.dist b.target ≤ f.nodeInfo.id.dist b.target) < K

/-- Of the `K` closest that were known nobody is back by an answer. -/
def NobodyComesBack (b : LookupBuffer) (rs : List LookupResponse) : Prop :=
  ∀ e ∈ (b.nodes.filter (b.standsAfter rs)).take K, b.standsInFlight e = true

/-- An entry that was there before the round, after it. -/
def afterRound (b : LookupBuffer) (rs : List LookupResponse) (e : LookupNodeInfo) : LookupNodeInfo :=
  markedById rs (b.inFlight e)

@[simp] theorem nodeInfo_afterRound (b : LookupBuffer) (rs : List LookupResponse) (e : LookupNodeInfo) :
    (b.afterRound rs e).nodeInfo = e.nodeInfo := b.nodeInfo_inFlight e

section Round
variable {b : LookupBuffer} {rs : List LookupResponse}

theorem standing_inFlight (b : LookupBuffer) (e : LookupNodeInfo) : (b.inFlight e).standing = b.standsInFlight e := by
  simp only [LookupNodeInfo.standing, LookupNodeInfo.hasFailedToRespond, queried_inFlight, responded_inFlight,
    standsInFlight, decide_not]
  cases e.queried <;> cases e.responded <;> simp

/-- A failure of the batch marks what is marked already, an answer brings back. -/
theorem standing_afterRound (hresolvers : ∀ r ∈ rs, r.resolver ∈ b.batch) (e : LookupNodeInfo) :
    (b.afterRound rs e).standing = b.standsAfter rs e := by
  have hfailed : (rs.any fun r => !r.gaveNodes && decide (r.resolver.id = e.nodeInfo.id)) = true →
      decide (e.nodeInfo.id ∈ b.batch.map NodeInfo.id) = true := by
    intro hany
    obtain ⟨r, hr, hid⟩ := List.any_eq_true.mp hany
    have hsame : r.resolver.id = e.nodeInfo.id := of_decide_eq_true (Bool.and_eq_true_iff.mp hid).2
    exact decide_eq_true (hsame ▸ List.mem_map_of_mem (hresolvers r hr))
  simp only [LookupNodeInfo.standing, LookupNodeInfo.hasFailedToRespond, afterRound, markedById, nodeInfo_inFlight,
    queried_inFlight, responded_inFlight, standsAfter, standsInFlight, decide_not]
  revert hfailed
  generalize (rs.any fun r => !r.gaveNodes && decide (r.resolver.id = e.nodeInfo.id)) = failed
  generalize (rs.any fun r => r.gaveNodes && decide (r.resolver.id = e.nodeInfo.id)) = answered
  generalize decide (e.nodeInfo.id ∈ b.batch.map NodeInfo.id) = inBatch
  intro hfailed
  cases failed with
  | true =>
      rw [hfailed rfl]
      cases e.queried <;> cases e.responded <;> cases answered <;> rfl
  | false => cases e.queried <;> cases e.responded <;> cases answered <;> cases inBatch <;> rfl

theorem resultingVector_markBatch (b : LookupBuffer) :
    b.markBatch.getResultingVector = ((b.nodes.filter b.standsInFlight).take K).map LookupNodeInfo.nodeInfo := by
  have hfilter : b.markBatch.nodes.filter (fun e => !e.hasFailedToRespond) =
      (b.nodes.filter b.standsInFlight).map b.inFlight := by
    rw [nodes_markBatch, List.filter_map]
    congr 1
    exact List.filter_congr fun e _ => standing_inFlight b e
  rw [getResultingVector, hfilter, ← List.map_take, List.map_map]
  exact List.map_congr_left fun e _ => b.nodeInfo_inFlight e

theorem enters_markBatch {f : LookupNodeInfo} : Enters b.markBatch rs f ↔ Enters b rs f := by
  constructor
  · intro hf
    exact ⟨by rw [← contacts_markBatch]; exact hf.unknown, hf.not_self, hf.first⟩
  · intro hf
    exact ⟨by rw [contacts_markBatch]; exact hf.unknown, hf.not_self, hf.first⟩

/-- The result after a round: the new entries are sorted into the old ones. -/
theorem resultingVector_record (b : LookupBuffer) (rs : List LookupResponse) : ∃ fresh,
    (b.markBatch.recordLookupRoundResponses rs false).2.getResultingVector =
      (((sortOn (fun e : LookupNodeInfo => e.nodeInfo.id.dist b.target) (b.nodes.map (b.afterRound rs) ++ fresh)).filter
        LookupNodeInfo.standing).take K).map LookupNodeInfo.nodeInfo ∧
    fresh.Nodup ∧ ∀ f, f ∈ fresh ↔ Enters b rs f := by
  obtain ⟨fresh, hnodes, hnodup, hmem⟩ := recordResponses_entries false rs b.markBatch
  rw [heard_false] at hnodes hmem
  have hsort : (b.markBatch.recordLookupRoundResponses rs false).2.nodes =
      sortOn (fun e => e.nodeInfo.id.dist b.target) (b.nodes.map (b.afterRound rs) ++ fresh) := by
    have hold : b.markBatch.nodes.map (markedById rs) = b.nodes.map (b.afterRound rs) := by
      rw [nodes_markBatch, List.map_map]
      rfl
    rw [record_of_no_value (Bool.false_and _), ← hold, ← hnodes]
    change sortByDistance _ _ _ = _
    rw [sortByDistance_eq, recordResponses_target]
    rfl
  refine ⟨fresh, ?_, List.Nodup.of_map _ hnodup, fun f => (hmem f).trans enters_markBatch⟩
  rw [getResultingVector, hsort]
  rfl

theorem afterRound_ascending (hsorted : b.Sorted) (rs : List LookupResponse) :
    Ascending (fun e : LookupNodeInfo => e.nodeInfo.id.dist b.target) (b.nodes.map (b.afterRound rs)) := by
  apply List.pairwise_map.mpr
  simp only [nodeInfo_afterRound]
  exact hsorted

theorem filter_afterRound (hresolvers : ∀ r ∈ rs, r.resolver ∈ b.batch) :
    (b.nodes.map (b.afterRound rs)).filter LookupNodeInfo.standing =
      (b.nodes.filter (b.standsAfter rs)).map (b.afterRound rs) := by
  rw [List.filter_map]
  congr 1
  exact List.filter_congr fun e _ => standing_afterRound hresolvers e

theorem known_afterRound (b : LookupBuffer) (rs : List LookupResponse) :
    ∀ e ∈ b.nodes.map (b.afterRound rs), decide (e.nodeInfo ∈ b.contacts) = true := by
  intro e he
  obtain ⟨e₀, he₀, rfl⟩ := List.mem_map.mp he
  exact decide_eq_true (List.mem_map.mpr ⟨e₀, he₀, (b.nodeInfo_afterRound rs e₀).symm⟩)

theorem resultingVector_new_iff (hsorted : b.Sorted) (hresolvers : ∀ r ∈ rs, r.resolver ∈ b.batch) :
    (∃ c ∈ (b.markBatch.recordLookupRoundResponses rs false).2.getResultingVector, c ∉ b.contacts) ↔
      b.SomebodyNewIsClose rs := by
  obtain ⟨fresh, hresult, hnodup, hmem⟩ := resultingVector_record b rs
  have hnew : ∀ e ∈ fresh, decide (e.nodeInfo ∈ b.contacts) = false :=
    fun e he => decide_eq_false ((hmem e).mp he).unknown
  have hclose := exists_mem_take_sortOn_append_iff (n := K) (q := LookupNodeInfo.standing)
    (afterRound_ascending hsorted rs) hnodup (known_afterRound b rs) hnew
  have hcount : ∀ d, ((b.nodes.map (b.afterRound rs)).filter LookupNodeInfo.standing).countP
      (fun e => e.nodeInfo.id.dist b.target ≤ d) =
      (b.nodes.filter (b.standsAfter rs)).countP fun e => e.nodeInfo.id.dist b.target ≤ d := by
    intro d
    rw [filter_afterRound hresolvers, List.countP_map]
    refine List.countP_congr fun e _ => ?_
    simp only [Function.comp_apply, nodeInfo_afterRound]
  rw [hresult]
  constructor
  · rintro ⟨c, hc, hunknown⟩
    obtain ⟨e, he, rfl⟩ := List.mem_map.mp hc
    obtain ⟨f, hf, hstands, hfew⟩ := hclose.mp ⟨e, he, decide_eq_false hunknown⟩
    exact ⟨f, (hmem f).mp hf, hstands, (hcount _).symm.trans_lt hfew⟩
  · rintro ⟨f, hf, hstands, hfew⟩
    obtain ⟨e, he, hunknown⟩ := hclose.mpr ⟨f, (hmem f).mpr hf, hstands, (hcount _).trans_lt hfew⟩
    exact ⟨e.nodeInfo, List.mem_map_of_mem he, of_decide_eq_false hunknown⟩

/-- With nobody new among them the first `K` are those of the old entries that stand. -/
theorem resultingVector_old_eq (hsorted : b.Sorted) (hresolvers : ∀ r ∈ rs, r.resolver ∈ b.batch)
    (hall : ∀ c ∈ (b.markBatch.recordLookupRoundResponses rs false).2.getResultingVector, c ∈ b.contacts) :
    (b.markBatch.recordLookupRoundResponses rs false).2.getResultingVector =
      ((b.nodes.filter (b.standsAfter rs)).take K).map LookupNodeInfo.nodeInfo := by
  obtain ⟨fresh, hresult, -, hmem⟩ := resultingVector_record b rs
  have hnew : ∀ e ∈ fresh, decide (e.nodeInfo ∈ b.contacts) = false :=
    fun e he => decide_eq_false ((hmem e).mp he).unknown
  rw [hresult] at hall ⊢
  rw [← take_filter_of_forall (p := fun e : LookupNodeInfo => decide (e.nodeInfo ∈ b.contacts))
      fun e he => decide_eq_true (hall _ (List.mem_map_of_mem he)),
    List.filter_comm, filter_sortOn_append (afterRound_ascending hsorted rs) (known_afterRound b rs) hnew,
    filter_afterRound hresolvers, ← List.map_take, List.map_map]
  exact List.map_congr_left fun e _ => b.nodeInfo_afterRound rs e

/-- While nobody new is among the `K` closest the result changes exactly if somebody comes back. -/
theorem signal_iff_of_nobody_new (huniform : Uniform b) (hsorted : b.Sorted)
    (hresolvers : ∀ r ∈ rs, r.resolver ∈ b.batch)
    (hall : ∀ c ∈ (b.markBatch.recordLookupRoundResponses rs false).2.getResultingVector, c ∈ b.contacts) :
    (b.markBatch.recordLookupRoundResponses rs false).1 = false ↔ b.NobodyComesBack rs := by
  have hresult := resultingVector_old_eq hsorted hresolvers hall
  rw [record_of_no_value (Bool.false_and _)] at hresult ⊢
  dsimp only at hresult ⊢
  rw [bne_eq_false_iff_eq, resultingVector_markBatch, hresult]
  have hkept : b.nodes.filter b.standsInFlight = (b.nodes.filter (b.standsAfter rs)).filter b.standsInFlight := by
    rw [List.filter_filter]
    refine List.filter_congr fun e _ => ?_
    rw [standsAfter]
    cases b.standsInFlight e <;> simp
  rw [hkept]
  constructor
  · intro heq e he
    have hin : e.nodeInfo ∈ ((b.nodes.filter (b.standsAfter rs)).take K).map LookupNodeInfo.nodeInfo :=
      List.mem_map_of_mem he
    rw [← heq] at hin
    obtain ⟨e', he', hinfo⟩ := List.mem_map.mp hin
    obtain ⟨hmem', hstands⟩ := List.mem_filter.mp (List.mem_of_mem_take he')
    have hsame := huniform e' (List.mem_of_mem_filter hmem') e (List.mem_of_mem_filter (List.mem_of_mem_take he)) hinfo
    rwa [← hsame]
  · intro hnobody
    rw [take_filter_of_forall hnobody]

theorem signalsImprovement_iff (huniform : Uniform b) (hsorted : b.Sorted)
    (hresolvers : ∀ r ∈ rs, r.resolver ∈ b.batch) :
    b.SignalsImprovement rs ↔ b.SomebodyNewIsClose rs ∨ b.NobodyComesBack rs := by
  unfold SignalsImprovement
  rw [getAlphaUnqueriedNodes_eq, ← resultingVector_new_iff hsorted hresolvers]
  by_cases hnew : ∃ c ∈ (b.markBatch.recordLookupRoundResponses rs false).2.getResultingVector, c ∉ b.contacts
  · have hsignal : (b.markBatch.recordLookupRoundResponses rs false).1 = true := by
      obtain ⟨c, hc, hunknown⟩ := hnew
      rw [record_of_no_value (Bool.false_and _)] at hc ⊢
      rw [bne_iff_ne]
      intro heq
      rw [← heq, resultingVector_markBatch] at hc
      obtain ⟨e, he, rfl⟩ := List.mem_map.mp hc
      exact hunknown (mem_contacts_of_mem (List.mem_of_mem_filter (List.mem_of_mem_take he)))
    exact iff_of_true (iff_of_true hsignal hnew) (.inl hnew)
  · rw [iff_false_right hnew, or_iff_right hnew, Bool.not_eq_true]
    refine signal_iff_of_nobody_new huniform hsorted hresolvers fun c hc => ?_
    by_contra hunknown
    exact hnew ⟨c, hc, hunknown⟩

end Round

/-- In a node lookup the signal of a round tells an improvement exactly if somebody new does come among
the `K` closest, or nobody of the batch comes back among them by an answer. -/
theorem afterCalls_signalsImprovement_iff (target : Key) (initial : List NodeInfo) (thisNode : NodeInfo)
    (calls : List BufferCall) {rs : List LookupResponse}
    (hresolvers : ∀ r ∈ rs, r.resolver ∈ ((LookupBuffer.new target initial thisNode).afterCalls calls).getAlphaUnqueriedNodes.1) :
    ((LookupBuffer.new target initial thisNode).afterCalls calls).SignalsImprovement rs ↔
      ((LookupBuffer.new target initial thisNode).afterCalls calls).SomebodyNewIsClose rs ∨
      ((LookupBuffer.new target initial thisNode).afterCalls calls).NobodyComesBack rs := by
  have huniform := (Uniform.new target initial thisNode).afterCalls calls
  have hsorted : ((LookupBuffer.new target initial thisNode).afterCalls calls).Sorted :=
    Sorted.afterCalls (sort_sorted ⟨initial.map LookupNodeInfo.new, target, thisNode⟩) calls
  rw [getAlphaUnqueriedNodes_eq] at hresolvers
  exact signalsImprovement_iff huniform hsorted hresolvers

/-- Two contacts that know each other. -/
def pairBuffer : LookupBuffer := .new (Key.ofTopByte 3 0) [.local 1 8081, .local 2 8081] (.local 0 8081)

theorem pairBuffer_silent : pairBuffer.SignalsImprovement [.newFailed (.local 1 8081)] := by
  have hresolvers : ∀ r ∈ [LookupResponse.newFailed (.local 1 8081)],
      r.resolver ∈ (pairBuffer.afterCalls []).getAlphaUnqueriedNodes.1 := by decide +kernel
  refine (afterCalls_signalsImprovement_iff _ _ _ [] hresolvers).mpr (.inr ?_)
  unfold NobodyComesBack
  decide +kernel

/-- Both list only each other, and the signal is an improvement. -/
theorem pairBuffer_answers :
    let rs : List LookupResponse := [.newNodesSuccessful (.local 1 8081) [.local 2 8081],
      .newNodesSuccessful (.local 2 8081) [.local 1 8081]]
    (∀ r ∈ rs, r.resolver ∈ pairBuffer.getAlphaUnqueriedNodes.1) ∧
    (∀ r ∈ rs, ∀ c ∈ r.kClosest, c ∈ pairBuffer.contacts) ∧ ¬ pairBuffer.SignalsImprovement rs := by
  intro rs
  refine ⟨by decide +kernel, by decide +kernel, fun hsignal => ?_⟩
  obtain ⟨c, hc, hnew⟩ := hsignal.mp (by decide +kernel)
  have hknown : ∀ c ∈ (pairBuffer.getAlphaUnqueriedNodes.2.recordLookupRoundResponses rs false).2.getResultingVector,
      c ∈ pairBuffer.contacts := by decide +kernel
  exact hnew (hknown c hc)

end LookupBuffer
end P2PFilesystem
