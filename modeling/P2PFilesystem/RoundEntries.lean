import P2PFilesystem.Lookup
import Mathlib.Data.List.TakeWhile

/-!
# The entries after a round

What `record_lookup_round_responses` makes of the buffer, whatever the responses are: the
old entries with the marks of their ids, and each contact that is new with the marks that
come after its first report. A value answer of a value lookup ends the round early.
-/
namespace P2PFilesystem

namespace LookupBuffer
variable {forValue : Bool} {r : LookupResponse} {rs : List LookupResponse} {b : LookupBuffer} {c : NodeInfo}

/-- The responses up to a value answer that ends the round. -/
def heard (forValue : Bool) (rs : List LookupResponse) : List LookupResponse :=
  rs.takeWhile fun r => !(forValue && r.isValue)

/-- Marks by id: a failure as queried, contacts as responded. -/
def markedById (rs : List LookupResponse) (e : LookupNodeInfo) : LookupNodeInfo where
  nodeInfo := e.nodeInfo
  queried := e.queried || rs.any fun r => !r.gaveNodes && decide (r.resolver.id = e.nodeInfo.id)
  responded := e.responded || rs.any fun r => r.gaveNodes && decide (r.resolver.id = e.nodeInfo.id)

/-- A list without the known contacts and without repetitions. -/
def unknownOf (known ns : List NodeInfo) : List NodeInfo := (ns.filter fun c => decide (c ∉ known)).eraseDups

/-- An entry of a contact that the responses are the first to report. -/
structure Enters (b : LookupBuffer) (rs : List LookupResponse) (f : LookupNodeInfo) : Prop where
  unknown : f.nodeInfo ∉ b.contacts
  not_self : f.nodeInfo ≠ b.thisNode
  first : ∃ pre r post, rs = pre ++ r :: post ∧ ¬ Reports pre f.nodeInfo ∧ r.gaveNodes = true ∧
    f.nodeInfo ∈ r.kClosest ∧ f = markedById (r :: post) (.new f.nodeInfo)

/-- An entry while the batch is in flight. -/
def inFlight (b : LookupBuffer) (e : LookupNodeInfo) : LookupNodeInfo :=
  if e.nodeInfo.id ∈ b.batch.map NodeInfo.id then { e with queried := true } else e

theorem nodes_markBatch (b : LookupBuffer) : b.markBatch.nodes = b.nodes.map b.inFlight := rfl

@[simp] theorem nodeInfo_inFlight (b : LookupBuffer) (e : LookupNodeInfo) : (b.inFlight e).nodeInfo = e.nodeInfo := by
  unfold inFlight
  split_ifs <;> rfl

@[simp] theorem responded_inFlight (b : LookupBuffer) (e : LookupNodeInfo) : (b.inFlight e).responded = e.responded := by
  unfold inFlight
  split_ifs <;> rfl

@[simp] theorem queried_inFlight (b : LookupBuffer) (e : LookupNodeInfo) :
    (b.inFlight e).queried = (e.queried || decide (e.nodeInfo.id ∈ b.batch.map NodeInfo.id)) := by
  unfold inFlight
  split_ifs with hid
  · rw [decide_eq_true hid, Bool.or_true]
  · rw [decide_eq_false hid, Bool.or_false]

@[simp] theorem markedById_nil (e : LookupNodeInfo) : markedById [] e = e := by
  simp [markedById]

theorem markedById_cons_of_gaveNodes (h : r.gaveNodes = true) (rs : List LookupResponse) (e : LookupNodeInfo) :
    markedById (r :: rs) e =
      markedById rs (if e.nodeInfo.id = r.resolver.id then { e with responded := true } else e) := by
  by_cases hid : e.nodeInfo.id = r.resolver.id
  · simp [markedById, h, hid]
  · have hne : r.resolver.id ≠ e.nodeInfo.id := fun h => hid h.symm
    simp [markedById, hid, hne]

theorem markedById_cons_of_not_gaveNodes (h : r.gaveNodes = false) (rs : List LookupResponse) (e : LookupNodeInfo) :
    markedById (r :: rs) e =
      markedById rs (if e.nodeInfo.id = r.resolver.id then { e with queried := true } else e) := by
  by_cases hid : e.nodeInfo.id = r.resolver.id
  · simp [markedById, h, hid]
  · have hne : r.resolver.id ≠ e.nodeInfo.id := fun h => hid h.symm
    simp [markedById, hid, hne]

theorem not_reports_nil : ¬ Reports [] c := by
  rintro ⟨r, hr, -⟩
  cases hr

theorem reports_cons : Reports (r :: rs) c ↔ r.gaveNodes = true ∧ c ∈ r.kClosest ∨ Reports rs c := by
  constructor
  · rintro ⟨r', hr', hg, hc⟩
    cases List.mem_cons.mp hr' with
    | inl heq => exact .inl (heq ▸ ⟨hg, hc⟩)
    | inr htail => exact .inr ⟨r', htail, hg, hc⟩
  · intro h
    cases h with
    | inl hr => exact ⟨r, List.mem_cons_self, hr⟩
    | inr htail =>
        obtain ⟨r', hr', h⟩ := htail
        exact ⟨r', List.mem_cons_of_mem r hr', h⟩

theorem Reports.first (h : Reports rs c) :
    ∃ pre r post, rs = pre ++ r :: post ∧ ¬ Reports pre c ∧ r.gaveNodes = true ∧ c ∈ r.kClosest := by
  induction rs with
  | nil => exact absurd h not_reports_nil
  | cons r rs ih =>
      by_cases hr : r.gaveNodes = true ∧ c ∈ r.kClosest
      · exact ⟨[], r, rs, rfl, not_reports_nil, hr⟩
      · obtain ⟨pre, r', post, rfl, hpre, hfirst⟩ := ih ((reports_cons.mp h).resolve_left hr)
        exact ⟨r :: pre, r', post, rfl, fun hp => (reports_cons.mp hp).elim hr hpre, hfirst⟩

theorem Enters.reports {f : LookupNodeInfo} (h : Enters b rs f) : Reports rs f.nodeInfo := by
  obtain ⟨pre, r, post, rfl, -, hg, hc, -⟩ := h.first
  exact ⟨r, List.mem_append_right _ List.mem_cons_self, hg, hc⟩

theorem unknownOf_cons_of_mem {known : List NodeInfo} {n : NodeInfo} (h : n ∈ known) (ns : List NodeInfo) :
    unknownOf known (n :: ns) = unknownOf known ns := by
  unfold unknownOf
  rw [List.filter_cons_of_neg (by simp [h])]

theorem unknownOf_cons_of_notMem {known : List NodeInfo} {n : NodeInfo} (h : n ∉ known) (ns : List NodeInfo) :
    unknownOf known (n :: ns) = n :: unknownOf (known ++ [n]) ns := by
  unfold unknownOf
  rw [List.filter_cons_of_pos (by simp [h]), List.eraseDups_cons, List.filter_filter]
  congr 2
  refine List.filter_congr fun c _ => ?_
  simp only [List.mem_append, List.mem_singleton]
  grind

theorem nodes_foldl_addReported (ns : List NodeInfo) (b : LookupBuffer) :
    (ns.foldl addReported b).nodes = b.nodes ++ (unknownOf (b.thisNode :: b.contacts) ns).map LookupNodeInfo.new := by
  induction ns generalizing b with
  | nil => exact (List.append_nil _).symm
  | cons n ns ih =>
      have hknows : n ∈ b.contacts ∨ b.thisNode = n ↔ n ∈ b.thisNode :: b.contacts := by
        rw [List.mem_cons, or_comm, eq_comm]
      rw [List.foldl_cons, ih, thisNode_addReported, contacts_addReported, addReported_eq]
      by_cases hknown : n ∈ b.contacts ∨ b.thisNode = n
      · rw [if_pos hknown, if_pos hknown, unknownOf_cons_of_mem (hknows.mp hknown)]
      · rw [if_neg hknown, if_neg hknown, unknownOf_cons_of_notMem (mt hknows.mpr hknown), List.map_cons]
        exact List.append_assoc _ _ _

theorem mem_unknownOf {known ns : List NodeInfo} : c ∈ unknownOf known ns ↔ c ∈ ns ∧ c ∉ known := by
  unfold unknownOf
  rw [List.mem_eraseDups, List.mem_filter, decide_eq_true_iff]

theorem nodup_unknownOf (known ns : List NodeInfo) : (unknownOf known ns).Nodup := by
  induction ns generalizing known with
  | nil => exact List.nodup_nil
  | cons n ns ih =>
      by_cases hn : n ∈ known
      · rw [unknownOf_cons_of_mem hn]
        exact ih known
      · rw [unknownOf_cons_of_notMem hn]
        refine List.nodup_cons.mpr ⟨fun hmem => ?_, ih (known ++ [n])⟩
        exact (mem_unknownOf.mp hmem).2 (List.mem_append_right _ List.mem_cons_self)

/-- The entries after a response with contacts, as the responses behind it will mark them. -/
theorem map_markedById_of_gaveNodes (h : r.gaveNodes = true) (rs : List LookupResponse) (b : LookupBuffer) :
    ((r.kClosest.foldl addReported b).markNodeAsResponded r.resolver.id).nodes.map (markedById rs) =
      b.nodes.map (markedById (r :: rs)) ++
        (unknownOf (b.thisNode :: b.contacts) r.kClosest).map fun c => markedById (r :: rs) (.new c) := by
  rw [markNodeAsResponded, nodes_foldl_addReported, List.map_append, List.map_append, List.map_map, List.map_map,
    List.map_map]
  congr 1
  · refine List.map_congr_left fun e _ => ?_
    exact (markedById_cons_of_gaveNodes h _ e).symm
  · refine List.map_congr_left fun c _ => ?_
    exact (markedById_cons_of_gaveNodes h _ _).symm

theorem not_enters_nil {f : LookupNodeInfo} : ¬ Enters b [] f := by
  intro h
  obtain ⟨pre, r, post, hsplit, -⟩ := h.first
  cases pre <;> cases hsplit

/-- A response without contacts adds nobody. -/
theorem enters_cons_of_not_gaveNodes (h : r.gaveNodes = false) {b' : LookupBuffer} (hcontacts : b'.contacts = b.contacts)
    (hthis : b'.thisNode = b.thisNode) {f : LookupNodeInfo} : Enters b (r :: rs) f ↔ Enters b' rs f := by
  have hreports : ∀ pre, Reports (r :: pre) f.nodeInfo ↔ Reports pre f.nodeInfo := by
    intro pre
    rw [reports_cons, h]
    simp
  constructor
  · intro hf
    refine ⟨hcontacts ▸ hf.unknown, hthis ▸ hf.not_self, ?_⟩
    obtain ⟨pre, r', post, hsplit, hpre, hg, hc, heq⟩ := hf.first
    cases pre with
    | nil =>
        cases hsplit
        rw [h] at hg
        cases hg
    | cons _ pre =>
        cases hsplit
        exact ⟨pre, r', post, rfl, mt (hreports pre).mpr hpre, hg, hc, heq⟩
  · intro hf
    refine ⟨hcontacts ▸ hf.unknown, hthis ▸ hf.not_self, ?_⟩
    obtain ⟨pre, r', post, rfl, hpre, hg, hc, heq⟩ := hf.first
    exact ⟨r :: pre, r', post, rfl, mt (hreports pre).mp hpre, hg, hc, heq⟩

/-- A response with contacts adds those that are not known, or leaves it to the later ones. -/
theorem enters_cons_of_gaveNodes (h : r.gaveNodes = true) {b' : LookupBuffer}
    (hcontacts : ∀ c, c ∈ b'.contacts ↔ c ∈ b.contacts ∨ c ∈ r.kClosest ∧ c ≠ b.thisNode)
    (hthis : b'.thisNode = b.thisNode) {f : LookupNodeInfo} : Enters b (r :: rs) f ↔
      (f.nodeInfo ∈ r.kClosest ∧ f.nodeInfo ∉ b.contacts ∧ f.nodeInfo ≠ b.thisNode ∧
        f = markedById (r :: rs) (.new f.nodeInfo)) ∨ Enters b' rs f := by
  have hreports : ∀ pre, Reports (r :: pre) f.nodeInfo ↔ f.nodeInfo ∈ r.kClosest ∨ Reports pre f.nodeInfo := by
    intro pre
    rw [reports_cons, h]
    simp
  constructor
  · intro hf
    obtain ⟨pre, r', post, hsplit, hpre, hg, hc, heq⟩ := hf.first
    cases pre with
    | nil =>
        cases hsplit
        exact .inl ⟨hc, hf.unknown, hf.not_self, heq⟩
    | cons _ pre =>
        cases hsplit
        obtain ⟨hnot, hpre⟩ := not_or.mp (mt (hreports pre).mpr hpre)
        refine .inr ⟨?_, hthis ▸ hf.not_self, pre, r', post, rfl, hpre, hg, hc, heq⟩
        rw [hcontacts]
        exact not_or.mpr ⟨hf.unknown, fun hin => hnot hin.1⟩
  · intro hf
    cases hf with
    | inl hf => exact ⟨hf.2.1, hf.2.2.1, [], r, rs, rfl, not_reports_nil, h, hf.1, hf.2.2.2⟩
    | inr hf =>
        have hunknown := hf.unknown
        rw [hcontacts, not_or] at hunknown
        have hself : f.nodeInfo ≠ b.thisNode := hthis ▸ hf.not_self
        obtain ⟨pre, r', post, rfl, hpre, hg, hc, heq⟩ := hf.first
        refine ⟨hunknown.1, hself, r :: pre, r', post, rfl, ?_, hg, hc, heq⟩
        rw [hreports, not_or]
        exact ⟨fun hin => hunknown.2 ⟨hin, hself⟩, hpre⟩

/-- Entries that are the old ones with their marks, and then one for each contact that enters. -/
def Records (b : LookupBuffer) (rs : List LookupResponse) (nodes : List LookupNodeInfo) : Prop :=
  ∃ fresh, nodes = b.nodes.map (markedById rs) ++ fresh ∧ (fresh.map LookupNodeInfo.nodeInfo).Nodup ∧
    ∀ f, f ∈ fresh ↔ Enters b rs f

theorem records_nil (b : LookupBuffer) : b.Records [] b.nodes := by
  refine ⟨[], ?_, List.nodup_nil, fun f => iff_of_false List.not_mem_nil not_enters_nil⟩
  rw [List.append_nil]
  exact (List.map_id'' markedById_nil b.nodes).symm

theorem Records.cons_of_not_gaveNodes (hg : r.gaveNodes = false) {nodes : List LookupNodeInfo}
    (h : (b.markNodeAsQueried r.resolver.id).Records rs nodes) : b.Records (r :: rs) nodes := by
  obtain ⟨fresh, hnodes, hnodup, hmem⟩ := h
  refine ⟨fresh, ?_, hnodup, fun f => ?_⟩
  · rw [hnodes, markNodeAsQueried, List.map_map]
    congr 1
    refine List.map_congr_left fun e _ => ?_
    exact (markedById_cons_of_not_gaveNodes hg _ e).symm
  · rw [hmem, enters_cons_of_not_gaveNodes hg (b.contacts_markNodeAsQueried _) rfl]

theorem mem_unknownOf_contacts : c ∈ unknownOf (b.thisNode :: b.contacts) r.kClosest ↔
    c ∈ r.kClosest ∧ c ∉ b.contacts ∧ c ≠ b.thisNode := by
  rw [mem_unknownOf, List.mem_cons, not_or, and_comm (a := c ≠ b.thisNode)]

/-- The contacts that the response reports first stand in front of those that enter later. -/
theorem Records.cons_of_gaveNodes (hg : r.gaveNodes = true) {nodes : List LookupNodeInfo}
    (h : ((r.kClosest.foldl addReported b).markNodeAsResponded r.resolver.id).Records rs nodes) :
    b.Records (r :: rs) nodes := by
  obtain ⟨hthis, -, hcontacts, -⟩ := foldl_addReported r.kClosest b
  obtain ⟨fresh, hnodes, hnodup, hmem⟩ := h
  have hafter : ∀ c, c ∈ ((r.kClosest.foldl addReported b).markNodeAsResponded r.resolver.id).contacts ↔
      c ∈ b.contacts ∨ c ∈ r.kClosest ∧ c ≠ b.thisNode := by
    intro c
    rw [contacts_markNodeAsResponded]
    exact hcontacts c
  refine ⟨(unknownOf (b.thisNode :: b.contacts) r.kClosest).map (fun c => markedById (r :: rs) (.new c)) ++ fresh,
    ?_, ?_, fun f => ?_⟩
  · rw [hnodes, map_markedById_of_gaveNodes hg, List.append_assoc]
  · rw [List.map_append, List.map_map]
    have hsame : (unknownOf (b.thisNode :: b.contacts) r.kClosest).map (LookupNodeInfo.nodeInfo ∘ fun c =>
        markedById (r :: rs) (.new c)) = unknownOf (b.thisNode :: b.contacts) r.kClosest := List.map_id _
    rw [hsame]
    refine List.nodup_append.mpr ⟨nodup_unknownOf _ _, hnodup, fun c hc d hd hcd => ?_⟩
    obtain ⟨f, hf, rfl⟩ := List.mem_map.mp hd
    have hin := mem_unknownOf_contacts.mp hc
    exact ((hmem f).mp hf).unknown ((hafter _).mpr (.inr (hcd ▸ ⟨hin.1, hin.2.2⟩)))
  · rw [List.mem_append, hmem, enters_cons_of_gaveNodes hg hafter hthis, List.mem_map]
    refine or_congr_left ?_
    constructor
    · rintro ⟨c, hc, rfl⟩
      have hin := mem_unknownOf_contacts.mp hc
      exact ⟨hin.1, hin.2.1, hin.2.2, rfl⟩
    · rintro ⟨hk, hnew, hself, heq⟩
      exact ⟨f.nodeInfo, mem_unknownOf_contacts.mpr ⟨hk, hnew, hself⟩, heq.symm⟩

theorem recordResponses_entries (forValue : Bool) (rs : List LookupResponse) (b : LookupBuffer) :
    ∃ fresh, (recordResponses forValue rs b).2.nodes = b.nodes.map (markedById (heard forValue rs)) ++ fresh ∧
      (fresh.map LookupNodeInfo.nodeInfo).Nodup ∧ ∀ f, f ∈ fresh ↔ Enters b (heard forValue rs) f := by
  change b.Records (heard forValue rs) (recordResponses forValue rs b).2.nodes
  induction rs generalizing b with
  | nil => exact b.records_nil
  | cons r rs ih =>
      cases hv : forValue && r.isValue with
      | true =>
          rw [recordResponses, if_pos hv, heard, List.takeWhile_cons_of_neg (by simp [hv])]
          exact b.records_nil
      | false =>
          have hheard : heard forValue (r :: rs) = r :: heard forValue rs :=
            List.takeWhile_cons_of_pos (by simp [hv])
          rw [hheard]
          cases hg : r.gaveNodes with
          | false =>
              rw [recordResponses_cons_of_not_gaveNodes hg hv]
              exact (ih _).cons_of_not_gaveNodes hg
          | true =>
              rw [recordResponses_cons_of_gaveNodes hg]
              exact (ih _).cons_of_gaveNodes hg

theorem heard_of_no_value (hv : (forValue && rs.any LookupResponse.isValue) = false) : heard forValue rs = rs := by
  refine List.takeWhile_eq_self_iff.mpr fun r hr => ?_
  cases forValue with
  | false => rfl
  | true => simp only [Bool.true_and, List.any_eq_false.mp hv r hr, Bool.not_false]

@[simp] theorem heard_false (rs : List LookupResponse) : heard false rs = rs := heard_of_no_value (Bool.false_and _)

theorem heard_subset (forValue : Bool) (rs : List LookupResponse) : heard forValue rs ⊆ rs :=
  (List.takeWhile_sublist _).subset

/-- The round with its sorting. -/
theorem record_entries (rs : List LookupResponse) (b : LookupBuffer) (forValue : Bool) :
    ∃ fresh, (b.recordLookupRoundResponses rs forValue).2.nodes.Perm
        (b.nodes.map (markedById (heard forValue rs)) ++ fresh) ∧
      (fresh.map LookupNodeInfo.nodeInfo).Nodup ∧ ∀ f, f ∈ fresh ↔ Enters b (heard forValue rs) f := by
  obtain ⟨fresh, hnodes, hnodup, hmem⟩ := recordResponses_entries forValue rs b
  refine ⟨fresh, ?_, hnodup, hmem⟩
  rw [← hnodes]
  exact record_of_recordResponses (I := fun b' => b'.nodes.Perm (recordResponses forValue rs b).2.nodes)
    (fun b' h => b'.sort_perm.trans h) (.refl _)

theorem mem_nodes_record {e : LookupNodeInfo} :
    e ∈ (b.recordLookupRoundResponses rs forValue).2.nodes ↔
      (∃ e₀ ∈ b.nodes, e = markedById (heard forValue rs) e₀) ∨ Enters b (heard forValue rs) e := by
  obtain ⟨fresh, hperm, -, hmem⟩ := record_entries rs b forValue
  rw [hperm.mem_iff, List.mem_append, hmem, List.mem_map]
  simp only [eq_comm]

theorem mem_contacts_record :
    c ∈ (b.recordLookupRoundResponses rs forValue).2.contacts ↔
      c ∈ b.contacts ∨ c ≠ b.thisNode ∧ Reports (heard forValue rs) c := by
  constructor
  · intro hc
    obtain ⟨e, he, rfl⟩ := List.mem_map.mp hc
    cases mem_nodes_record.mp he with
    | inl hold =>
        obtain ⟨e₀, he₀, rfl⟩ := hold
        exact .inl (List.mem_map.mpr ⟨e₀, he₀, rfl⟩)
    | inr hnew => exact .inr ⟨hnew.not_self, hnew.reports⟩
  · intro hc
    by_cases hold : c ∈ b.contacts
    · exact contacts_subset_record forValue rs b hold
    · obtain ⟨hself, hreports⟩ := hc.resolve_left hold
      obtain ⟨pre, r, post, hsplit, hfirst⟩ := hreports.first
      exact List.mem_map.mpr ⟨markedById (r :: post) (.new c),
        mem_nodes_record.mpr (.inr ⟨hold, hself, pre, r, post, hsplit, hfirst.1, hfirst.2.1, hfirst.2.2, rfl⟩), rfl⟩

theorem record_nodup (h : b.contacts.Nodup) : (b.recordLookupRoundResponses rs forValue).2.contacts.Nodup :=
  record_of_recordResponses (I := fun b' => b'.contacts.Nodup)
    (fun b' h => b'.contacts_sort_perm.nodup_iff.mpr h) (recordResponses_nodup forValue rs h)

end LookupBuffer
end P2PFilesystem
