import P2PFilesystem.RoundEntries
import Mathlib.Data.List.Dedup

/-!
# Closure of a lookup in a responsive network

While every contacted node answers, the buffer entries asked are exactly those that
answered. The stop test compares the `K` closest contacts seen while the batch looks
failed with those seen after it answered; their equality means that nobody among the
`K` closest is left to ask.
-/
namespace P2PFilesystem
open LoopFuel KeySort

/-- No id occurs with two addresses. -/
def OneAddress (known : NodeInfo → Prop) : Prop := ∀ a b, known a → known b → a.id = b.id → a = b

theorem OneAddress.mono {known more : NodeInfo → Prop} (h : OneAddress more) (hsub : ∀ c, known c → more c) :
    OneAddress known := fun a b ha hb => h a b (hsub a ha) (hsub b hb)

namespace LookupBuffer

/-- The buffer between two rounds of a lookup in which everybody answered so far. -/
structure AllAnswered (known : NodeInfo → Prop) (b : LookupBuffer) : Prop where
  sorted : b.Sorted
  nodup : b.contacts.Nodup
  known_of_mem : ∀ c ∈ b.contacts, known c
  responded_eq : ∀ e ∈ b.nodes, e.responded = e.queried

theorem mem_contacts_of_mem {b : LookupBuffer} {e : LookupNodeInfo} (h : e ∈ b.nodes) :
    e.nodeInfo ∈ b.contacts := List.mem_map.mpr ⟨e, h, rfl⟩

/-- What a round makes of an entry that was there before it. -/
def markedBy (rs : List LookupResponse) (e : LookupNodeInfo) : LookupNodeInfo where
  nodeInfo := e.nodeInfo
  queried := e.queried || rs.any fun r => !r.gaveNodes && decide (r.resolver = e.nodeInfo)
  responded := e.responded || rs.any fun r => r.gaveNodes && decide (r.resolver = e.nodeInfo)

/-- Where no id has two addresses, marking by id is marking by contact. -/
theorem markedById_eq_markedBy {rs : List LookupResponse} {e : LookupNodeInfo}
    (h : ∀ r ∈ rs, r.resolver.id = e.nodeInfo.id → r.resolver = e.nodeInfo) : markedById rs e = markedBy rs e := by
  have hany : ∀ p : LookupResponse → Bool, (rs.any fun r => p r && decide (r.resolver.id = e.nodeInfo.id)) =
      rs.any fun r => p r && decide (r.resolver = e.nodeInfo) := by
    intro p
    rw [Bool.eq_iff_iff, List.any_eq_true, List.any_eq_true]
    refine exists_congr fun r => and_congr_right fun hr => ?_
    have hsame : r.resolver.id = e.nodeInfo.id ↔ r.resolver = e.nodeInfo := ⟨h r hr, congrArg NodeInfo.id⟩
    rw [decide_eq_decide.mpr hsame]
  simp only [markedById, markedBy, hany]

theorem markedBy_of_not_asked {rs : List LookupResponse} {e : LookupNodeInfo}
    (h : ∀ r ∈ rs, r.resolver ≠ e.nodeInfo) : markedBy rs e = e := by
  have hany : ∀ p : LookupResponse → Bool, (rs.any fun r => p r && decide (r.resolver = e.nodeInfo)) = false := by
    intro p
    rw [List.any_eq_false]
    intro r hr
    simp [h r hr]
  simp only [markedBy, hany, Bool.or_false]

theorem markedBy_of_gaveNodes {rs : List LookupResponse} (h : ∀ r ∈ rs, r.gaveNodes = true)
    (e : LookupNodeInfo) : markedBy rs e = { e with
      responded := e.responded || decide (e.nodeInfo ∈ rs.map LookupResponse.resolver) } := by
  have hfailed : (rs.any fun r => !r.gaveNodes && decide (r.resolver = e.nodeInfo)) = false := by
    rw [List.any_eq_false]
    intro r hr
    simp [h r hr]
  have hgave : (rs.any fun r => r.gaveNodes && decide (r.resolver = e.nodeInfo)) =
      decide (e.nodeInfo ∈ rs.map LookupResponse.resolver) := by
    rw [Bool.eq_iff_iff, List.any_eq_true, decide_eq_true_iff, List.mem_map]
    refine exists_congr fun r => and_congr_right fun hr => ?_
    rw [h r hr, Bool.true_and, decide_eq_true_iff]
  simp only [markedBy, hfailed, hgave, Bool.or_false]

/-- The entries after a round: old ones with the marks of the round, new ones unmarked. -/
theorem mem_nodes_recordResponses {forValue : Bool} {rs : List LookupResponse} {b : LookupBuffer}
    (hv : (forValue && rs.any LookupResponse.isValue) = false)
    (hone : OneAddress (· ∈ (recordResponses forValue rs b).2.contacts))
    (hresolver : ∀ r ∈ rs, r.resolver ∈ b.contacts) {e : LookupNodeInfo}
    (he : e ∈ (recordResponses forValue rs b).2.nodes) :
    (∃ e₀ ∈ b.nodes, e = markedBy rs e₀) ∨ e.nodeInfo ∉ b.contacts ∧ e = LookupNodeInfo.new e.nodeInfo := by
  obtain ⟨fresh, hnodes, -, hmem⟩ := recordResponses_entries forValue rs b
  rw [heard_of_no_value hv] at hnodes hmem
  have hown : ∀ r ∈ rs, r.resolver.id = e.nodeInfo.id → r.resolver = e.nodeInfo := fun r hr hid =>
    hone _ _ (recordResponses_contacts_subset forValue rs b (hresolver r hr)) (mem_contacts_of_mem he) hid
  rw [hnodes] at he
  cases List.mem_append.mp he with
  | inl hold =>
      obtain ⟨e₀, he₀, rfl⟩ := List.mem_map.mp hold
      exact .inl ⟨e₀, he₀, markedById_eq_markedBy hown⟩
  | inr hnew =>
      have henters := (hmem e).mp hnew
      obtain ⟨pre, r, post, rfl, -, -, -, heq⟩ := henters.first
      have hlater : ∀ r' ∈ r :: post, r' ∈ pre ++ r :: post := fun r' hr' => List.mem_append_right pre hr'
      -- an id that was asked is known under its address already
      have hunasked : ∀ r' ∈ r :: post, r'.resolver ≠ e.nodeInfo := fun r' hr' hsame =>
        henters.unknown (hsame ▸ hresolver r' (hlater r' hr'))
      have hmarks : markedById (r :: post) (.new e.nodeInfo) = markedBy (r :: post) (.new e.nodeInfo) :=
        markedById_eq_markedBy fun r' hr' => hown r' (hlater r' hr')
      exact .inr ⟨henters.unknown, heq.trans (hmarks.trans (markedBy_of_not_asked hunasked))⟩

/-- A round in which the whole batch answers with contacts. -/
structure BatchAnswers (known : NodeInfo → Prop) (b : LookupBuffer) (rs : List LookupResponse) : Prop where
  resolvers : rs.map LookupResponse.resolver = b.batch
  gaveNodes : ∀ r ∈ rs, r.gaveNodes = true
  reported : ∀ r ∈ rs, ∀ c ∈ r.kClosest, known c

section Round
variable {known : NodeInfo → Prop} {b : LookupBuffer} {rs : List LookupResponse} (forValue : Bool)

theorem BatchAnswers.no_value (h : BatchAnswers known b rs) :
    (forValue && rs.any LookupResponse.isValue) = false := by
  have hany : rs.any LookupResponse.isValue = false := by
    rw [List.any_eq_false]
    intro r hr hv
    have hg := h.gaveNodes r hr
    rw [LookupResponse.gaveNodes, hv] at hg
    simp at hg
  rw [hany, Bool.and_false]

theorem mem_batch_iff_id (hone : OneAddress known) (hb : AllAnswered known b) {c : NodeInfo}
    (hc : c ∈ b.contacts) : c.id ∈ b.batch.map NodeInfo.id ↔ c ∈ b.batch := by
  constructor
  · intro h
    obtain ⟨a, ha, hid⟩ := List.mem_map.mp h
    obtain ⟨e, he, -, rfl⟩ := mem_batch ha
    exact hone _ _ (hb.known_of_mem _ (mem_contacts_of_mem he)) (hb.known_of_mem c hc) hid ▸ ha
  · exact fun h => List.mem_map.mpr ⟨c, h, rfl⟩

theorem BatchAnswers.mem_nodes (hone : OneAddress known) (hb : AllAnswered known b)
    (h : BatchAnswers known b rs) {e : LookupNodeInfo}
    (he : e ∈ (b.markBatch.recordLookupRoundResponses rs forValue).2.nodes) :
    (∃ e₀ ∈ b.nodes, e.nodeInfo = e₀.nodeInfo ∧
      e.queried = (e₀.queried || decide (e₀.nodeInfo ∈ b.batch)) ∧ e.responded = e.queried) ∨
    e.nodeInfo ∉ b.contacts ∧ e = LookupNodeInfo.new e.nodeInfo := by
  rw [record_of_no_value (h.no_value forValue), (sort_perm _).mem_iff] at he
  have hresolver : ∀ r ∈ rs, r.resolver ∈ b.markBatch.contacts := by
    intro r hr
    have hm : r.resolver ∈ b.batch := h.resolvers ▸ List.mem_map.mpr ⟨r, hr, rfl⟩
    obtain ⟨e', he', -, heq⟩ := mem_batch hm
    rw [contacts_markBatch, ← heq]
    exact mem_contacts_of_mem he'
  have hfinal : ∀ c ∈ (recordResponses forValue rs b.markBatch).2.contacts, known c := by
    intro c hc
    rcases mem_recordResponses forValue rs _ hc with hold | ⟨-, r, hr, -, hk⟩
    · exact hb.known_of_mem c (by rwa [contacts_markBatch] at hold)
    · exact h.reported r hr c hk
  rcases mem_nodes_recordResponses (h.no_value forValue) (hone.mono hfinal) hresolver he with
    ⟨e₁, he₁, rfl⟩ | ⟨hnew, heq⟩
  · left
    obtain ⟨e₀, he₀, rfl⟩ := List.mem_map.mp he₁
    refine ⟨e₀, he₀, ?_⟩
    have hiff := mem_batch_iff_id hone hb (mem_contacts_of_mem he₀)
    have hflag := hb.responded_eq e₀ he₀
    have hmarks := markedBy_of_gaveNodes h.gaveNodes
    rw [h.resolvers] at hmarks
    rw [hmarks]
    by_cases hin : e₀.nodeInfo ∈ b.batch
    · rw [if_pos (hiff.mpr hin)]
      simp [hin]
    · rw [if_neg fun hid => hin (hiff.mp hid)]
      simp [hin, hflag]
  · exact .inr ⟨by rwa [contacts_markBatch] at hnew, heq⟩

theorem BatchAnswers.mem_contacts_iff (h : BatchAnswers known b rs) {c : NodeInfo} :
    c ∈ (b.markBatch.recordLookupRoundResponses rs forValue).2.contacts ↔
      c ∈ b.contacts ∨ c ≠ b.thisNode ∧ Reports rs c := by
  rw [record_of_no_value (h.no_value forValue), mem_contacts_sort]
  constructor
  · intro hc
    rcases mem_recordResponses forValue rs _ hc with hold | hnew
    · exact .inl (by rwa [contacts_markBatch] at hold)
    · exact .inr hnew
  · rintro (hold | ⟨hne, hrep⟩)
    · exact recordResponses_contacts_subset forValue rs _ (by rwa [contacts_markBatch])
    · exact mem_recordResponses_of_reports (h.no_value forValue) hrep hne

theorem BatchAnswers.allAnswered (hone : OneAddress known) (hb : AllAnswered known b)
    (h : BatchAnswers known b rs) :
    AllAnswered known (b.markBatch.recordLookupRoundResponses rs forValue).2 where
  sorted := by
    rw [record_of_no_value (h.no_value forValue)]
    exact sort_sorted _
  nodup := by
    rw [record_of_no_value (h.no_value forValue)]
    refine (contacts_sort_perm _).nodup_iff.mpr (recordResponses_nodup forValue rs ?_)
    rw [contacts_markBatch]
    exact hb.nodup
  known_of_mem := by
    intro c hc
    rcases (h.mem_contacts_iff forValue).mp hc with hold | ⟨-, r, hr, -, hk⟩
    · exact hb.known_of_mem c hold
    · exact h.reported r hr c hk
  responded_eq := by
    intro e he
    rcases h.mem_nodes forValue hone hb he with ⟨-, -, -, -, hflag⟩ | ⟨-, heq⟩
    · exact hflag
    · rw [heq]; rfl

theorem dist_batch_head_lt (hone : OneAddress known) (hb : AllAnswered known b) {a : NodeInfo}
    {rest : List NodeInfo} (hbatch : b.batch = a :: rest) {e : LookupNodeInfo} (he : e ∈ b.nodes)
    (hq : e.queried = false) (hnot : e.nodeInfo ∉ b.batch) :
    a.id.dist b.target < e.nodeInfo.id.dist b.target := by
  have hfilter : ∃ ea l, b.nodes.filter (fun e => !e.queried) = ea :: l ∧ ea.nodeInfo = a := by
    unfold batch at hbatch
    cases hf : b.nodes.filter (fun e => !e.queried) with
    | nil => rw [hf] at hbatch; cases hbatch
    | cons ea l =>
        rw [hf] at hbatch
        exact ⟨ea, l, rfl, (List.cons.inj hbatch).1⟩
  obtain ⟨ea, l, hf, rfl⟩ := hfilter
  have hmem : e ∈ ea :: l := hf ▸ List.mem_filter.mpr ⟨he, by simp [hq]⟩
  have hsorted : (ea :: l).Pairwise fun a b' => a.nodeInfo.id.dist b.target ≤ b'.nodeInfo.id.dist b.target :=
    hf ▸ hb.sorted.sublist List.filter_sublist
  have hea : ea ∈ b.nodes := List.mem_of_mem_filter (hf ▸ List.mem_cons_self : ea ∈ b.nodes.filter _)
  have hin : ea.nodeInfo ∈ b.batch := hbatch ▸ List.mem_cons_self
  rcases List.mem_cons.mp hmem with rfl | htail
  · exact absurd hin hnot
  · refine Nat.lt_of_le_of_ne (List.rel_of_pairwise_cons hsorted htail) fun heq => hnot ?_
    have := hone _ _ (hb.known_of_mem _ (mem_contacts_of_mem hea))
      (hb.known_of_mem _ (mem_contacts_of_mem he)) (Key.dist_left_injective heq)
    exact this ▸ hin

/-- While the batch is in flight it looks as if it had failed. -/
theorem not_mem_batch_of_mem_getResultingVector (hone : OneAddress known) (hb : AllAnswered known b) {c : NodeInfo}
    (hc : c ∈ b.markBatch.getResultingVector) : c ∉ b.batch := by
  intro hin
  obtain ⟨e', he', rfl⟩ := List.mem_map.mp hc
  obtain ⟨hmem, hok⟩ := List.mem_filter.mp (List.mem_of_mem_take he')
  obtain ⟨e₀, he₀, rfl⟩ := List.mem_map.mp hmem
  have hinfo : (if e₀.nodeInfo.id ∈ b.batch.map NodeInfo.id then { e₀ with queried := true }
      else e₀).nodeInfo = e₀.nodeInfo := by split_ifs <;> rfl
  rw [hinfo] at hin
  have hid := (mem_batch_iff_id hone hb (mem_contacts_of_mem he₀)).mpr hin
  obtain ⟨e₁, he₁, hq₁, hinfo₁⟩ := mem_batch hin
  have hsame : e₁ = e₀ := List.inj_on_of_nodup_map hb.nodup he₁ he₀ hinfo₁
  have hr₀ : e₀.responded = false := by rw [hb.responded_eq e₀ he₀, ← hsame, hq₁]
  rw [if_pos hid] at hok
  simp [LookupNodeInfo.hasFailedToRespond, hr₀] at hok

/-- When the stop test finds nothing improved, the `K` closest contacts have all been asked. -/
theorem BatchAnswers.queried_of_stop (hone : OneAddress known) (hb : AllAnswered known b)
    (h : BatchAnswers known b rs) (hbatch : b.batch ≠ [])
    (hstop : (b.markBatch.recordLookupRoundResponses rs forValue).1 = false) :
    ∀ e ∈ (b.markBatch.recordLookupRoundResponses rs forValue).2.nodes.take K, e.queried = true := by
  have hall := h.allAnswered forValue hone hb
  have htarget : (b.markBatch.recordLookupRoundResponses rs forValue).2.target = b.target := by
    rw [record_of_no_value (h.no_value forValue), target_sort, recordResponses_target]
    rfl
  have heqv : b.markBatch.getResultingVector =
      (b.markBatch.recordLookupRoundResponses rs forValue).2.getResultingVector := by
    rw [record_of_no_value (h.no_value forValue)] at hstop ⊢
    simpa using hstop
  -- nobody in the new buffer looks failed, so its first `K` entries are the result
  have hresult : ∀ e ∈ (b.markBatch.recordLookupRoundResponses rs forValue).2.nodes.take K,
      e.nodeInfo ∈ b.markBatch.getResultingVector := by
    intro e he
    rw [heqv, getResultingVector, List.filter_eq_self.mpr]
    · exact List.mem_map.mpr ⟨e, he, rfl⟩
    · intro e' he'
      simp [LookupNodeInfo.hasFailedToRespond, hall.responded_eq e' he']
  intro e he
  by_contra hq
  rw [Bool.not_eq_true] at hq
  have hnotin := not_mem_batch_of_mem_getResultingVector hone hb (hresult e he)
  rcases h.mem_nodes forValue hone hb (List.mem_of_mem_take he) with ⟨e₀, he₀, hinfo, hq₀, -⟩ | ⟨hnew, -⟩
  · rw [hq] at hq₀
    obtain ⟨a, rest, hcons⟩ := List.exists_cons_of_ne_nil hbatch
    have hlt := dist_batch_head_lt hone hb hcons he₀ (Bool.or_eq_false_iff.mp hq₀.symm).1 (hinfo ▸ hnotin)
    have hina : a ∈ b.batch := hcons ▸ List.mem_cons_self
    obtain ⟨e₁, he₁, -, rfl⟩ := mem_batch hina
    obtain ⟨ea, hea, hinfoa⟩ := List.mem_map.mp
      ((h.mem_contacts_iff forValue).mpr (.inl (mem_contacts_of_mem he₁)))
    have htake := hall.sorted.mem_take_of_lt he hea (by rwa [htarget, hinfoa, hinfo])
    exact not_mem_batch_of_mem_getResultingVector hone hb (hresult ea htake) (hinfoa ▸ hina)
  · obtain ⟨e', he', hinfo'⟩ := List.mem_map.mp (hresult e he)
    have hold : e.nodeInfo ∈ b.markBatch.contacts := by
      rw [← hinfo']
      exact mem_contacts_of_mem (List.mem_of_mem_filter (List.mem_of_mem_take he'))
    rw [contacts_markBatch] at hold
    exact hnew hold

end Round
end LookupBuffer

/-- The contacts mentioned in the answers of a run. -/
def LookupRun.reported (s : LookupRun) : List NodeInfo :=
  s.rounds.flatten.flatMap fun r => if r.gaveNodes then r.kClosest else []

/-- The contact was sent a lookup request and answered it with contacts. -/
def LookupRun.Answered (s : LookupRun) (c : NodeInfo) : Prop :=
  ∃ rs ∈ s.rounds, ∃ r ∈ rs, r.resolver = c ∧ r.gaveNodes = true

theorem LookupRun.mem_reported {s : LookupRun} {c : NodeInfo} :
    c ∈ s.reported ↔ ∃ rs ∈ s.rounds, LookupBuffer.Reports rs c := by
  simp only [reported, LookupBuffer.Reports, List.mem_flatMap, List.mem_flatten]
  constructor
  · rintro ⟨r, ⟨rs, hrs, hr⟩, hc⟩
    cases hg : r.gaveNodes with
    | true => rw [hg, if_pos rfl] at hc; exact ⟨rs, hrs, r, hr, hg, hc⟩
    | false => rw [hg, if_neg Bool.false_ne_true] at hc; cases hc
  · rintro ⟨rs, hrs, r, hr, hg, hc⟩
    exact ⟨r, ⟨rs, hrs, hr⟩, by rwa [hg, if_pos rfl]⟩

/-- A visited state of a lookup in which everybody answers. -/
structure ResponsiveRun (known : NodeInfo → Prop) (initial : List NodeInfo) (thisNode : NodeInfo)
    (s : LookupRun) : Prop where
  allAnswered : s.buffer.AllAnswered known
  thisNode_eq : s.buffer.thisNode = thisNode
  mem_contacts : ∀ c, c ∈ s.buffer.contacts ↔ c ≠ thisNode ∧ (c ∈ initial ∨ c ∈ s.reported)
  answered : ∀ e ∈ s.buffer.nodes, e.responded = true → s.Answered e.nodeInfo

section Run
variable {forValue : Bool} {answers : Answers} {known : NodeInfo → Prop} {initial : List NodeInfo}
  {thisNode : NodeInfo} {s t : LookupRun}

theorem ResponsiveRun.start {target : Key} (hnd : initial.Nodup) (hthis : thisNode ∉ initial)
    (hknown : ∀ c ∈ initial, known c) :
    ResponsiveRun known initial thisNode ⟨LookupBuffer.new target initial thisNode, []⟩ where
  allAnswered := by
    have hperm := LookupBuffer.contacts_new_perm target initial thisNode
    refine ⟨LookupBuffer.sort_sorted _, hperm.nodup_iff.mpr hnd,
      fun c hc => hknown c (hperm.mem_iff.mp hc), fun e he => ?_⟩
    obtain ⟨c, -, rfl⟩ := List.mem_map.mp ((LookupBuffer.sort_perm _).mem_iff.mp he)
    rfl
  thisNode_eq := rfl
  mem_contacts := by
    intro c
    rw [(LookupBuffer.contacts_new_perm target initial thisNode).mem_iff]
    constructor
    · exact fun hc => ⟨fun he => hthis (he ▸ hc), .inl hc⟩
    · rintro ⟨-, hc | hc⟩
      · exact hc
      · cases hc
  answered := by
    intro e he hr
    obtain ⟨c, -, rfl⟩ := List.mem_map.mp ((LookupBuffer.sort_perm _).mem_iff.mp he)
    cases hr

theorem singleLookup_of_nodes {c : NodeInfo} {o : Except NodeError Response} {ns : List NodeInfo}
    (h : ∃ r, o = .ok r ∧ r.responseType = .nodes ns) :
    singleLookup c forValue o = .newNodesSuccessful c ns := by
  obtain ⟨r, rfl, hr⟩ := h
  simp only [singleLookup, hr]

def AnswersNodes (o : Except NodeError Response) : Prop := ∃ ns r, o = .ok r ∧ r.responseType = .nodes ns

theorem nextRound_batchAnswers (hnodes : ∀ c ∈ s.buffer.batch, AnswersNodes (answers s.rounds.length c))
    (hknown : ∀ c, LookupBuffer.Reports (nextRound forValue answers s) c → known c) :
    s.buffer.BatchAnswers known (nextRound forValue answers s) := by
  have hgave : ∀ r ∈ nextRound forValue answers s, r.gaveNodes = true := by
    intro r hr
    obtain ⟨c, hc, rfl⟩ := List.mem_map.mp hr
    obtain ⟨ns, hns⟩ := hnodes c hc
    rw [singleLookup_of_nodes hns]
    rfl
  exact ⟨lookupRound_resolvers _ _ _, hgave, fun r hr c hc => hknown c ⟨r, hr, hgave r hr, hc⟩⟩

theorem ResponsiveRun.next (hone : OneAddress known) (hs : ResponsiveRun known initial thisNode s)
    (hround : s.buffer.BatchAnswers known (nextRound forValue answers s)) :
    ResponsiveRun known initial thisNode
      ⟨(nextBuffer forValue answers s).2, nextRound forValue answers s :: s.rounds⟩ where
  allAnswered := hround.allAnswered forValue hone hs.allAnswered
  thisNode_eq := by
    rw [nextBuffer, LookupBuffer.record_of_no_value (hround.no_value forValue),
      LookupBuffer.thisNode_sort, LookupBuffer.recordResponses_thisNode]
    exact hs.thisNode_eq
  mem_contacts := by
    intro c
    rw [nextBuffer, hround.mem_contacts_iff forValue, hs.mem_contacts, hs.thisNode_eq,
      LookupRun.mem_reported, LookupRun.mem_reported, List.exists_mem_cons_iff, ← and_or_left, or_assoc]
    exact and_congr_right fun _ => or_congr_right or_comm
  answered := by
    intro e he hr
    have hold : s.Answered e.nodeInfo → LookupRun.Answered
        ⟨(nextBuffer forValue answers s).2, nextRound forValue answers s :: s.rounds⟩ e.nodeInfo :=
      Exists.imp fun _ h => ⟨List.mem_cons_of_mem _ h.1, h.2⟩
    rcases hround.mem_nodes forValue hone hs.allAnswered he with ⟨e₀, he₀, hinfo, hq, hresp⟩ | ⟨-, heq⟩
    · rw [hresp, hq, Bool.or_eq_true, decide_eq_true_iff] at hr
      rw [hinfo] at hold ⊢
      rcases hr with hq₀ | hin
      · exact hold (hs.answered e₀ he₀ (by rw [hs.allAnswered.responded_eq e₀ he₀, hq₀]))
      · rw [← hround.resolvers] at hin
        obtain ⟨r, hr, hres⟩ := List.mem_map.mp hin
        exact ⟨_, List.mem_cons_self, r, hr, hres, hround.gaveNodes r hr⟩
    · rw [heq] at hr
      cases hr

/-- The buffer of a finished lookup: everybody among the first `K` was asked. -/
structure Closed (known : NodeInfo → Prop) (initial : List NodeInfo) (thisNode : NodeInfo)
    (t : LookupRun) : Prop where
  run : ResponsiveRun known initial thisNode t
  queried : ∀ e ∈ t.buffer.nodes.take K, e.queried = true

/-- A lookup all of whose rounds are answered with known contacts ends closed. -/
theorem closed_of_exits (hone : OneAddress known) (hstart : ResponsiveRun known initial thisNode s)
    (hround : ∀ u, Visits (lookupPass forValue answers) s u →
      u.buffer.BatchAnswers known (nextRound forValue answers u))
    (h : Exits (lookupPass forValue answers) s t) : Closed known initial thisNode t := by
  obtain ⟨u, hu, he⟩ := h
  have hrun : ResponsiveRun known initial thisNode u := by
    clear he
    induction hu with
    | refl s => exact hstart
    | step hs hu ih =>
        obtain ⟨-, rfl⟩ := lookupPass_next hs
        exact ih (hstart.next hone (hround _ (.refl _))) fun v hv => hround v (.step hs hv)
  rcases lookupPass_exit he with ⟨hnil, rfl⟩ | ⟨hbatch, hstop, rfl⟩
  · exact ⟨hrun, fun e he => LookupBuffer.batch_eq_nil.mp hnil e (List.mem_of_mem_take he)⟩
  · exact ⟨hrun.next hone (hround u hu),
      (hround u hu).queried_of_stop forValue hone hrun.allAnswered hbatch hstop⟩

namespace Closed
variable (h : Closed known initial thisNode t)
include h

theorem resultingVector_eq :
    t.buffer.getResultingVector = (t.buffer.nodes.take K).map LookupNodeInfo.nodeInfo := by
  rw [LookupBuffer.getResultingVector, List.filter_eq_self.mpr]
  intro e he
  simp [LookupNodeInfo.hasFailedToRespond, h.run.allAnswered.responded_eq e he]

theorem unqueriedResultingNodes_eq_nil : t.buffer.getUnqueriedResultingNodes = [] := by
  rw [LookupBuffer.getUnqueriedResultingNodes, List.filter_eq_nil_iff.mpr]
  · rfl
  · intro e he
    simp [h.queried e he]

theorem answered_of_mem {c : NodeInfo} (hc : c ∈ t.buffer.getResultingVector) : t.Answered c := by
  rw [h.resultingVector_eq] at hc
  obtain ⟨e, he, rfl⟩ := List.mem_map.mp hc
  have hmem := List.mem_of_mem_take he
  exact h.run.answered e hmem (by rw [h.run.allAnswered.responded_eq e hmem, h.queried e he])

theorem length_resultingVector : t.buffer.getResultingVector.length =
    min K ((initial ++ t.reported).filter (· ≠ thisNode)).dedup.length := by
  have hperm : ((initial ++ t.reported).filter (· ≠ thisNode)).dedup.Perm t.buffer.contacts := by
    refine (List.perm_ext_iff_of_nodup (List.nodup_dedup _) h.run.allAnswered.nodup).mpr fun c => ?_
    rw [List.mem_dedup, List.mem_filter, h.run.mem_contacts, List.mem_append, decide_eq_true_iff]
    exact and_comm
  rw [h.resultingVector_eq, List.length_map, List.length_take, hperm.length_eq, LookupBuffer.contacts,
    List.length_map]

theorem mem_or_le {c m : NodeInfo} (hc : c ∈ t.buffer.contacts)
    (hm : m ∈ t.buffer.getResultingVector) :
    c ∈ t.buffer.getResultingVector ∨ m.id.dist t.buffer.target ≤ c.id.dist t.buffer.target := by
  rw [h.resultingVector_eq] at hm ⊢
  obtain ⟨e, he, rfl⟩ := List.mem_map.mp hc
  obtain ⟨em, hem, rfl⟩ := List.mem_map.mp hm
  by_cases hlt : e.nodeInfo.id.dist t.buffer.target < em.nodeInfo.id.dist t.buffer.target
  · exact .inl (List.mem_map.mpr ⟨e, h.run.allAnswered.sorted.mem_take_of_lt hem he hlt, rfl⟩)
  · exact .inr (Nat.le_of_not_lt hlt)

end Closed

def lookupStart (target : Key) (initial : List NodeInfo) (thisNode : NodeInfo) : LookupRun :=
  ⟨LookupBuffer.new target initial thisNode, []⟩

theorem exits_target (h : Exits (lookupPass forValue answers) s t) : t.buffer.target = s.buffer.target := by
  refine exits_invariant (I := fun u => u.buffer.target = s.buffer.target) (fun u hu _ => ?_) h rfl
  exact (LookupBuffer.record_of_recordResponses (I := fun b => b.target = u.buffer.markBatch.target)
    (fun b hb => hb) (LookupBuffer.recordResponses_target forValue _ _)).trans hu

theorem mem_reported_of_nextRound (h : Exits (lookupPass forValue answers) s t) {c : NodeInfo}
    (hc : LookupBuffer.Reports (nextRound forValue answers s) c) : c ∈ t.reported := by
  refine LookupRun.mem_reported.mpr ⟨_, nextRound_mem_of_exits h fun hnil => ?_, hc⟩
  obtain ⟨r, hr, -⟩ := hc
  rw [nextRound, hnil, lookupRound_nil] at hr
  cases hr

/-- In a network where every contacted node answers with contacts and no id has two
addresses, the round loop ends with a closed result: everybody in it was asked and
answered, nobody is left for the last round, it is as long as can be, and every other
contact reported is at least as far as all of it. -/
theorem roundLoop_closure (forValue : Bool) (target : Key) (thisNode : NodeInfo)
    (initial : List NodeInfo) (answers : Answers) (hne : initial ≠ []) (hnd : initial.Nodup)
    (hthis : thisNode ∉ initial)
    (hnodes : ∀ s, Visits (lookupPass forValue answers) (lookupStart target initial thisNode) s →
      ∀ c ∈ s.buffer.batch, AnswersNodes (answers s.rounds.length c)) :
    ∃ t, Exits (lookupPass forValue answers) (lookupStart target initial thisNode) t ∧
      (OneAddress (· ∈ initial ++ t.reported) →
        (∀ c ∈ t.buffer.getResultingVector, t.Answered c) ∧
        t.buffer.getUnqueriedResultingNodes = [] ∧ t.buffer.getResultingVector ≠ [] ∧
        t.buffer.getResultingVector.length =
          min K ((initial ++ t.reported).filter (· ≠ thisNode)).dedup.length ∧
        ∀ c ∈ t.reported, c ≠ thisNode → c ∈ t.buffer.getResultingVector ∨
          ∀ m ∈ t.buffer.getResultingVector, m.id.dist target ≤ c.id.dist target) := by
  obtain ⟨t, ht⟩ := lookup_exits forValue answers (lookupStart target initial thisNode)
  refine ⟨t, ht, fun hone => ?_⟩
  have hclosed : Closed (· ∈ initial ++ t.reported) initial thisNode t := by
    refine closed_of_exits hone (ResponsiveRun.start hnd hthis fun c hc => List.mem_append_left _ hc)
      (fun u hu => nextRound_batchAnswers (hnodes u hu) fun c hc => ?_) ht
    exact List.mem_append_right _ (mem_reported_of_nextRound (Exits.of_visits hu ht) hc)
  have htarget : t.buffer.target = target := exits_target ht
  refine ⟨fun c => hclosed.answered_of_mem, hclosed.unqueriedResultingNodes_eq_nil, ?_,
    hclosed.length_resultingVector, fun c hc hct => ?_⟩
  · obtain ⟨c, hc⟩ := List.exists_mem_of_ne_nil initial hne
    have hmem : c ∈ ((initial ++ t.reported).filter (· ≠ thisNode)).dedup := by
      rw [List.mem_dedup, List.mem_filter, decide_eq_true_iff]
      exact ⟨List.mem_append_left _ hc, fun he => hthis (he ▸ hc)⟩
    have hlen := hclosed.length_resultingVector
    have hpos := List.length_pos_of_mem hmem
    exact List.ne_nil_of_length_pos (by rw [hlen]; exact Nat.lt_min.mpr ⟨by decide, hpos⟩)
  · have hmem := (hclosed.run.mem_contacts c).mpr ⟨hct, .inr hc⟩
    by_cases hin : c ∈ t.buffer.getResultingVector
    · exact .inl hin
    · exact .inr fun m hm => htarget ▸ (hclosed.mem_or_le hmem hm).resolve_left hin

def pairAnswers : Answers := fun _ c =>
  .ok ⟨.nodes [NodeInfo.local 2 8082], c, NodeInfo.local 0 8080, zeroRequestId⟩

theorem roundLoop_closure_pair :
    ∃ t, Exits (lookupPass true pairAnswers)
        (lookupStart (Key.ofTopByte 3 0) [NodeInfo.local 1 8081] (NodeInfo.local 0 8080)) t ∧
      (OneAddress (· ∈ [NodeInfo.local 1 8081] ++ t.reported) →
        (∀ c ∈ t.buffer.getResultingVector, t.Answered c) ∧
        t.buffer.getUnqueriedResultingNodes = [] ∧ t.buffer.getResultingVector ≠ [] ∧
        t.buffer.getResultingVector.length =
          min K (([NodeInfo.local 1 8081] ++ t.reported).filter (· ≠ NodeInfo.local 0 8080)).dedup.length ∧
        ∀ c ∈ t.reported, c ≠ NodeInfo.local 0 8080 → c ∈ t.buffer.getResultingVector ∨
          ∀ m ∈ t.buffer.getResultingVector,
            m.id.dist (Key.ofTopByte 3 0) ≤ c.id.dist (Key.ofTopByte 3 0)) :=
  roundLoop_closure true (Key.ofTopByte 3 0) (NodeInfo.local 0 8080) [NodeInfo.local 1 8081] pairAnswers
    (by decide) (by decide) (by decide) fun _ _ _ _ => ⟨_, _, rfl, rfl⟩

end Run
end P2PFilesystem
