import P2PFilesystem.LookupClosure

/-!
# The order of the answers

`lookup_round` collects the answers of a batch in the order of its requests, another node might
take them as they come. In a node lookup this makes no difference as long as no id occurs with two
addresses: then an answer marks only entries that no answer of the round adds.
-/
namespace P2PFilesystem
open KeySort

/-- The contact is in the buffer or in a response. -/
def LookupBuffer.Occurs (b : LookupBuffer) (rs : List LookupResponse) (c : NodeInfo) : Prop :=
  c ∈ b.contacts ∨ ∃ r ∈ rs, c = r.resolver ∨ c ∈ r.kClosest

namespace LookupBuffer
variable {b : LookupBuffer} {rs rs' : List LookupResponse}

theorem Reports.occurs {c : NodeInfo} (h : Reports rs c) (b : LookupBuffer) : b.Occurs rs c := by
  obtain ⟨r, hr, -, hc⟩ := h
  exact .inr ⟨r, hr, .inr hc⟩

theorem reports_perm (h : rs.Perm rs') (c : NodeInfo) : Reports rs c ↔ Reports rs' c :=
  exists_congr fun _ => and_congr_left fun _ => h.mem_iff

theorem markedById_perm (h : rs.Perm rs') : markedById rs = markedById rs' := by
  have hany : ∀ p : LookupResponse → Bool, rs.any p = rs'.any p := by
    intro p
    rw [Bool.eq_iff_iff, List.any_eq_true, List.any_eq_true]
    exact exists_congr fun r => and_congr_left fun _ => h.mem_iff
  funext e
  simp only [markedById, hany]

/-- A contact that enters is not marked in the round: whoever has its id is known under another address. -/
theorem enters_iff (hone : OneAddress (b.Occurs rs)) (hresolvers : ∀ r ∈ rs, r.resolver ∈ b.contacts) {f : LookupNodeInfo} :
    Enters b rs f ↔
      f = .new f.nodeInfo ∧ f.nodeInfo ∉ b.contacts ∧ f.nodeInfo ≠ b.thisNode ∧ Reports rs f.nodeInfo := by
  have hunmarked : ∀ {c : NodeInfo} {pre later : List LookupResponse}, rs = pre ++ later → c ∉ b.contacts →
      Reports rs c → markedById later (.new c) = .new c := by
    rintro c pre later rfl hunknown hreports
    have hforeign : ∀ r ∈ later, r.resolver ∈ b.contacts := fun r hr => hresolvers r (List.mem_append_right pre hr)
    have hown : ∀ r ∈ later, r.resolver.id = c.id → r.resolver = c := fun r hr hid =>
      hone _ _ (.inl (hforeign r hr)) (hreports.occurs b) hid
    rw [markedById_eq_markedBy hown]
    exact markedBy_of_not_asked fun r hr (hsame : r.resolver = c) => hunknown (hsame ▸ hforeign r hr)
  constructor
  · intro h
    obtain ⟨pre, r, post, hsplit, -, -, -, heq⟩ := h.first
    exact ⟨heq.trans (hunmarked hsplit h.unknown h.reports), h.unknown, h.not_self, h.reports⟩
  · rintro ⟨heq, hunknown, hself, hreports⟩
    obtain ⟨pre, r, post, hsplit, hfirst, hg, hc⟩ := hreports.first
    exact ⟨hunknown, hself, pre, r, post, hsplit, hfirst, hg, hc, heq.trans (hunmarked hsplit hunknown hreports).symm⟩

theorem distinct_of_oneAddress {l : List LookupNodeInfo} {known : NodeInfo → Prop} (hone : OneAddress known)
    (hknown : ∀ e ∈ l, known e.nodeInfo) (hnodup : (l.map LookupNodeInfo.nodeInfo).Nodup) (target : Key) :
    Distinct (fun e : LookupNodeInfo => e.nodeInfo.id.dist target) l := by
  intro e he e' he' heq
  have hsame := hone _ _ (hknown e he) (hknown e' he') (Key.dist_left_injective heq)
  exact List.inj_on_of_nodup_map hnodup he he' hsame

/-- The entries after a round do not depend on the order of its responses. -/
theorem nodes_record_perm (hperm : rs.Perm rs') (hone : OneAddress (b.Occurs rs))
    (hresolvers : ∀ r ∈ rs, r.resolver ∈ b.contacts) :
    (recordResponses false rs b).2.sort = (recordResponses false rs' b).2.sort := by
  have hone' : OneAddress (b.Occurs rs') := hone.mono fun c hc =>
    hc.imp_right fun ⟨r, hr, hoccurs⟩ => ⟨r, hperm.mem_iff.mpr hr, hoccurs⟩
  have hresolvers' : ∀ r ∈ rs', r.resolver ∈ b.contacts := fun r hr => hresolvers r (hperm.mem_iff.mpr hr)
  obtain ⟨fresh, hnodes, hnodup, hmem⟩ := recordResponses_entries false rs b
  obtain ⟨fresh', hnodes', hnodup', hmem'⟩ := recordResponses_entries false rs' b
  rw [heard_false] at hnodes hmem hnodes' hmem'
  have hfresh : fresh.Perm fresh' := by
    refine (List.perm_ext_iff_of_nodup (List.Nodup.of_map _ hnodup) (List.Nodup.of_map _ hnodup')).mpr fun f => ?_
    rw [hmem, hmem', enters_iff hone hresolvers, enters_iff hone' hresolvers', reports_perm hperm]
  have hdistinct : Distinct (fun e : LookupNodeInfo => e.nodeInfo.id.dist b.target) fresh' :=
    distinct_of_oneAddress hone' (fun e he => ((hmem' e).mp he).reports.occurs b) hnodup' b.target
  have hsorted := sortOn_append_congr (b.nodes.map (markedById rs)) hfresh hdistinct
  unfold sort
  rw [recordResponses_target, recordResponses_target, recordResponses_thisNode, recordResponses_thisNode,
    sortByDistance_eq, sortByDistance_eq, hnodes, hnodes', ← markedById_perm hperm, hsorted]

/-- In a node lookup the answers of a round can be recorded in any order. -/
theorem recordLookupRoundResponses_perm (b : LookupBuffer) {rs rs' : List LookupResponse} (hperm : rs.Perm rs')
    (hone : OneAddress (b.Occurs rs)) (hresolvers : ∀ r ∈ rs, r.resolver ∈ b.contacts) :
    b.recordLookupRoundResponses rs false = b.recordLookupRoundResponses rs' false := by
  rw [record_of_no_value (Bool.false_and _), record_of_no_value (Bool.false_and _),
    nodes_record_perm hperm hone hresolvers]

/-- One contact fails, the other one lists a contact that is not known. -/
theorem recordLookupRoundResponses_perm_pair :
    (LookupBuffer.new (Key.ofTopByte 3 0) [.local 1 8081, .local 2 8081] (.local 0 8081)).recordLookupRoundResponses
        [.newFailed (.local 1 8081), .newNodesSuccessful (.local 2 8081) [.local 4 8081]] false =
      (LookupBuffer.new (Key.ofTopByte 3 0) [.local 1 8081, .local 2 8081] (.local 0 8081)).recordLookupRoundResponses
        [.newNodesSuccessful (.local 2 8081) [.local 4 8081], .newFailed (.local 1 8081)] false := by
  refine recordLookupRoundResponses_perm _ (.swap _ _ []) ?_ (by decide +kernel)
  have hoccurs : ∀ c, Occurs (.new (Key.ofTopByte 3 0) [.local 1 8081, .local 2 8081] (.local 0 8081))
      [.newFailed (.local 1 8081), .newNodesSuccessful (.local 2 8081) [.local 4 8081]] c →
      c ∈ [NodeInfo.local 1 8081, .local 2 8081, .local 4 8081] := by
    intro c hc
    cases hc with
    | inl hin => exact List.mem_append_left [.local 4 8081] ((contacts_new_perm _ _ _).mem_iff.mp hin)
    | inr hin =>
        simp only [List.mem_cons, List.not_mem_nil, or_false, exists_eq_or_imp, exists_eq_left, LookupResponse.newFailed,
          LookupResponse.newNodesSuccessful] at hin ⊢
        tauto
  have hone : ∀ a ∈ [NodeInfo.local 1 8081, .local 2 8081, .local 4 8081],
      ∀ c ∈ [NodeInfo.local 1 8081, .local 2 8081, .local 4 8081], a.id = c.id → a = c := by decide
  exact fun a c ha hc => hone a (hoccurs a ha) c (hoccurs c hc)

end LookupBuffer
end P2PFilesystem
