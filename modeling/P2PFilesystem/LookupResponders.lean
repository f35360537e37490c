import P2PFilesystem.BufferInvariant
import P2PFilesystem.LookupIds
import P2PFilesystem.LookupRequests

/-!
# Who is recorded as responsive

In the round loop a contact is marked as queried when the batch is taken; the contacts of the
last round are asked without that mark, and `get_responsive_nodes` wants both marks.
-/
namespace P2PFilesystem
open LoopFuel LookupBuffer

/-- The responses of the contacts that are left to be asked when the loop is left. -/
def lastRound (answers : Answers) (t : LookupRun) : List LookupResponse :=
  lookupRound t.buffer.getUnqueriedResultingNodes false (answers t.rounds.length)

section Answers
variable (answers : Answers) (start : LookupRun) (c : NodeInfo)

/-- The contact gives contacts in a round of the loop. -/
def AnswersInLoop : Prop :=
  ∃ s, Visits (lookupPass false answers) start s ∧
    ∃ r ∈ nextRound false answers s, r.gaveNodes = true ∧ r.resolver = c

/-- The contact gives contacts in the last round. -/
def AnswersInLastRound : Prop :=
  ∃ t, Exits (lookupPass false answers) start t ∧ ∃ r ∈ lastRound answers t, r.gaveNodes = true ∧ r.resolver = c

end Answers

/-- `get_responsive_nodes` at the end gives the entries of those that answered. -/
def RecordsResponders (answers : Answers) (start : LookupRun) : Prop :=
  ∀ t, Exits (lookupPass false answers) start t → ∀ c,
    c ∈ (closingRound answers t).buffer.getResponsiveNodes ↔
      c ∈ (closingRound answers t).buffer.contacts ∧
        (AnswersInLoop answers start c ∨ AnswersInLastRound answers start c)

/-- The mark for an answer, and the one for a request. -/
def LookupNodeInfo.mark (gave : Bool) (e : LookupNodeInfo) : Bool := if gave then e.responded else e.queried

namespace LookupBuffer

/-- A response under the id of a contact that the buffer holds, or that the round has listed by then. -/
def MarkedIn (gave : Bool) (b : LookupBuffer) (rs : List LookupResponse) (d : NodeInfo) : Prop :=
  ∃ pre r post, rs = pre ++ r :: post ∧ r.gaveNodes = gave ∧ r.resolver.id = d.id ∧
    (d ∈ b.contacts ∨ d ≠ b.thisNode ∧ Reports (pre ++ [r]) d)

end LookupBuffer

/-- In the loop the id of the contact is asked while the buffer holds the contact, or a response marks it. -/
def MarkedInLoop (answers : Answers) (start : LookupRun) (gave : Bool) (d : NodeInfo) : Prop :=
  ∃ s, Visits (lookupPass false answers) start s ∧
    (gave = false ∧ d ∈ s.buffer.contacts ∧ d.id ∈ s.buffer.batch.map NodeInfo.id ∨
      s.buffer.MarkedIn gave (nextRound false answers s) d)

/-- In the last round the id of the contact is asked. -/
def IdAskedLast (answers : Answers) (start : LookupRun) (d : NodeInfo) : Prop :=
  ∃ t, Exits (lookupPass false answers) start t ∧ d ∈ t.buffer.contacts ∧
    d.id ∈ t.buffer.getUnqueriedResultingNodes.map NodeInfo.id

/-- Who has both the mark of an answer and of a request under its id has answered itself. -/
def MarksAreOwn (answers : Answers) (start : LookupRun) : Prop :=
  ∀ d, MarkedInLoop answers start true d → MarkedInLoop answers start false d ∨ IdAskedLast answers start d →
    AnswersInLoop answers start d

section Round
variable {gave : Bool} {rs : List LookupResponse} {b : LookupBuffer} {d : NodeInfo}

theorem mark_markedById (gave : Bool) (rs : List LookupResponse) (e : LookupNodeInfo) :
    (markedById rs e).mark gave = true ↔ e.mark gave = true ∨
      ∃ r ∈ rs, r.gaveNodes = gave ∧ r.resolver.id = e.nodeInfo.id := by
  cases gave with
  | true => simp [LookupNodeInfo.mark, markedById]
  | false => simp [LookupNodeInfo.mark, markedById]

/-- The marks of a new entry come from the responses since its first report. -/
theorem LookupBuffer.Enters.mark_iff {f : LookupNodeInfo} (h : Enters b rs f) :
    f.mark gave = true ↔ b.MarkedIn gave rs f.nodeInfo := by
  have hunknown := h.unknown
  have hself := h.not_self
  obtain ⟨pre, r, post, rfl, hpre, hg, hc, heq⟩ := h.first
  have hfresh : f.mark gave = true ↔
      ∃ r' ∈ r :: post, r'.gaveNodes = gave ∧ r'.resolver.id = f.nodeInfo.id := by
    rw [heq, mark_markedById]
    have hnone : ¬ (LookupNodeInfo.new f.nodeInfo).mark gave = true := by
      cases gave <;> exact Bool.false_ne_true
    exact or_iff_right hnone
  rw [hfresh]
  constructor
  · rintro ⟨r', hr', hg', hid⟩
    obtain ⟨mid, post', hsplit⟩ := List.append_of_mem hr'
    refine ⟨pre ++ mid, r', post', by rw [hsplit, List.append_assoc], hg', hid, .inr ⟨hself, ?_⟩⟩
    -- the first report is among the responses up to this one
    have hin : r ∈ mid ++ [r'] := by
      cases mid with
      | nil => exact List.mem_singleton.mpr (List.cons.inj hsplit).1
      | cons m mid => exact List.mem_cons.mpr (.inl (List.cons.inj hsplit).1)
    exact ⟨r, by rw [List.append_assoc]; exact List.mem_append_right pre hin, hg, hc⟩
  · rintro ⟨pre', r', post', hsplit, hg', hid, hwhen⟩
    obtain ⟨-, r₀, hr₀, hg₀, hc₀⟩ := hwhen.resolve_left hunknown
    refine ⟨r', ?_, hg', hid⟩
    obtain ⟨mid, rfl, hmid⟩ | ⟨mid, rfl, hmid⟩ := List.append_eq_append_iff.mp hsplit
    · exact hmid ▸ List.mem_append_right mid List.mem_cons_self
    · cases mid with
      | nil => exact (List.cons.inj hmid).1 ▸ List.mem_cons_self
      | cons m mid =>
          -- otherwise the contact was listed before its first report
          obtain ⟨rfl, -⟩ := List.cons.inj hmid
          refine absurd ⟨r₀, ?_, hg₀, hc₀⟩ hpre
          rw [List.append_cons]
          exact List.mem_append_left mid hr₀

theorem mark_inFlight (gave : Bool) (b : LookupBuffer) (e : LookupNodeInfo) :
    (b.inFlight e).mark gave = true ↔
      e.mark gave = true ∨ gave = false ∧ e.nodeInfo.id ∈ b.batch.map NodeInfo.id := by
  cases gave with
  | true => simp [LookupNodeInfo.mark]
  | false => simp [LookupNodeInfo.mark]

theorem markedIn_markBatch : b.markBatch.MarkedIn gave rs d ↔ b.MarkedIn gave rs d := by
  unfold MarkedIn
  rw [contacts_markBatch]
  rfl

/-- Where a mark after a round can come from. -/
theorem mark_record {e : LookupNodeInfo} (he : e ∈ (b.markBatch.recordLookupRoundResponses rs false).2.nodes)
    (hmark : e.mark gave = true) : (∃ e₀ ∈ b.nodes, e₀.nodeInfo = e.nodeInfo ∧ e₀.mark gave = true) ∨
    (gave = false ∧ e.nodeInfo ∈ b.contacts ∧ e.nodeInfo.id ∈ b.batch.map NodeInfo.id) ∨
    b.MarkedIn gave rs e.nodeInfo := by
  cases mem_nodes_record.mp he with
  | inl hold =>
      obtain ⟨e₁, he₁, rfl⟩ := hold
      rw [nodes_markBatch] at he₁
      obtain ⟨e₀, he₀, rfl⟩ := List.mem_map.mp he₁
      have hinfo : (markedById (heard false rs) (b.inFlight e₀)).nodeInfo = e₀.nodeInfo :=
        b.nodeInfo_inFlight e₀
      rw [mark_markedById, mark_inFlight, nodeInfo_inFlight, heard_false] at hmark
      rw [hinfo]
      obtain (hbefore | hbatch) | ⟨r, hr, hg, hid⟩ := hmark
      · exact .inl ⟨e₀, he₀, rfl, hbefore⟩
      · exact .inr (.inl ⟨hbatch.1, mem_contacts_of_mem he₀, hbatch.2⟩)
      · obtain ⟨pre, post, hsplit⟩ := List.append_of_mem hr
        exact .inr (.inr ⟨pre, r, post, hsplit, hg, hid, .inl (mem_contacts_of_mem he₀)⟩)
  | inr hnew =>
      rw [heard_false] at hnew
      exact .inr (.inr (markedIn_markBatch.mp (hnew.mark_iff.mp hmark)))

/-- What marks a contact in a round leaves the mark in the buffer. -/
theorem exists_mark_record
    (h : (gave = false ∧ d ∈ b.contacts ∧ d.id ∈ b.batch.map NodeInfo.id) ∨ b.MarkedIn gave rs d) :
    ∃ e ∈ (b.markBatch.recordLookupRoundResponses rs false).2.nodes, e.nodeInfo = d ∧ e.mark gave = true := by
  by_cases hknown : d ∈ b.contacts
  · obtain ⟨e₀, he₀, rfl⟩ := List.mem_map.mp hknown
    refine ⟨markedById rs (b.inFlight e₀), ?_, b.nodeInfo_inFlight e₀, ?_⟩
    · refine mem_nodes_record.mpr (.inl ⟨b.inFlight e₀, List.mem_map_of_mem he₀, ?_⟩)
      rw [heard_false]
    · rw [mark_markedById, mark_inFlight, nodeInfo_inFlight]
      cases h with
      | inl hbatch => exact .inl (.inr ⟨hbatch.1, hbatch.2.2⟩)
      | inr hin =>
          obtain ⟨pre, r, post, rfl, hg, hid, -⟩ := hin
          exact .inr ⟨r, List.mem_append_right pre List.mem_cons_self, hg, hid⟩
  · have hin : b.MarkedIn gave rs d := h.resolve_left fun hbatch => hknown hbatch.2.1
    obtain ⟨pre, r, post, hsplit, -, -, hwhen⟩ := id hin
    obtain ⟨hself, r₀, hr₀, hg₀, hc₀⟩ := hwhen.resolve_left hknown
    have hreports : Reports rs d := by
      refine ⟨r₀, ?_, hg₀, hc₀⟩
      rw [hsplit, List.append_cons]
      exact List.mem_append_left post hr₀
    obtain ⟨pre', r', post', hsplit', hfirst⟩ := hreports.first
    have henters : Enters b.markBatch rs (markedById (r' :: post') (.new d)) :=
      ⟨by rwa [contacts_markBatch], hself, pre', r', post', hsplit', hfirst.1, hfirst.2.1, hfirst.2.2, rfl⟩
    refine ⟨_, mem_nodes_record.mpr (.inr (by rwa [heard_false])), rfl, ?_⟩
    exact henters.mark_iff.mpr (markedIn_markBatch.mpr hin)

theorem LookupBuffer.KeepsEntries.mark {b' : LookupBuffer} (h : KeepsEntries b b') {e : LookupNodeInfo}
    (he : e ∈ b.nodes) (hmark : e.mark gave = true) : ∃ e' ∈ b'.nodes, e'.nodeInfo = e.nodeInfo ∧ e'.mark gave = true := by
  obtain ⟨e', he', hinfo, hq, hr⟩ := h e he
  refine ⟨e', he', hinfo, ?_⟩
  cases gave with
  | true => exact hr hmark
  | false => exact hq hmark

end Round

section Runs
variable {answers : Answers} {start s t : LookupRun} {c d : NodeInfo} {gave : Bool}

theorem keepsEntries_next (s : LookupRun) (answers : Answers) :
    KeepsEntries s.buffer (nextBuffer false answers s).2 :=
  (keepsEntries_markBatch s.buffer).trans (keepsEntries_record _ _ _)

theorem keepsEntries_exits (h : Exits (lookupPass false answers) s t) : KeepsEntries s.buffer t.buffer :=
  exits_invariant (I := fun u => KeepsEntries s.buffer u.buffer)
    (fun u hu _ => hu.trans (keepsEntries_next u answers)) h (.refl _)

/-- What a round makes of the buffer is kept until the loop is left. -/
theorem keepsEntries_nextBuffer (h : Exits (lookupPass false answers) s t) (hbatch : s.buffer.batch ≠ []) :
    KeepsEntries (nextBuffer false answers s).2 t.buffer := by
  obtain ⟨u, hu, he⟩ := h
  cases hu with
  | refl =>
      obtain ⟨hnil, -⟩ | ⟨-, -, rfl⟩ := lookupPass_exit he
      · exact absurd hnil hbatch
      · exact .refl _
  | step hs hu =>
      obtain ⟨-, rfl⟩ := lookupPass_next hs
      exact keepsEntries_exits ⟨u, hu, he⟩

theorem uniform_exits (h : Exits (lookupPass false answers) s t) (hs : Uniform s.buffer) : Uniform t.buffer :=
  exits_invariant (I := fun u => Uniform u.buffer) (fun _ hu _ => hu.markBatch.record _ _) h hs

theorem mem_batch_of_nextRound {r : LookupResponse} (hr : r ∈ nextRound false answers s) :
    r.resolver ∈ s.buffer.batch := by
  rw [← lookupRound_resolvers s.buffer.batch false (answers s.rounds.length)]
  exact List.mem_map_of_mem hr

theorem MarkedInLoop.marked (h : MarkedInLoop answers start gave d) (ht : Exits (lookupPass false answers) start t) :
    ∃ e ∈ t.buffer.nodes, e.nodeInfo = d ∧ e.mark gave = true := by
  obtain ⟨s, hs, hwhen⟩ := h
  have hbatch : s.buffer.batch ≠ [] := by
    cases hwhen with
    | inl hbatch =>
        obtain ⟨c, hc, -⟩ := List.mem_map.mp hbatch.2.2
        exact List.ne_nil_of_mem hc
    | inr hin =>
        obtain ⟨pre, r, post, hsplit, -⟩ := hin
        have hr : r ∈ nextRound false answers s := hsplit ▸ List.mem_append_right pre List.mem_cons_self
        exact List.ne_nil_of_mem (mem_batch_of_nextRound hr)
  obtain ⟨e, he, rfl, hmark⟩ := exists_mark_record hwhen
  exact (keepsEntries_nextBuffer (ht.of_visits hs) hbatch).mark he hmark

/-- Only the loop leaves marks. -/
theorem markedInLoop_of_mark (ht : Exits (lookupPass false answers) start t)
    (hstart : ∀ e ∈ start.buffer.nodes, ¬ e.mark gave = true) :
    ∀ e ∈ t.buffer.nodes, e.mark gave = true → MarkedInLoop answers start gave e.nodeInfo := by
  have hnext : ∀ s, Visits (lookupPass false answers) start s →
      (∀ e ∈ s.buffer.nodes, e.mark gave = true → MarkedInLoop answers start gave e.nodeInfo) →
      ∀ e ∈ (nextBuffer false answers s).2.nodes, e.mark gave = true →
        MarkedInLoop answers start gave e.nodeInfo := by
    intro s hs hmarked e he hmark
    obtain ⟨e₀, he₀, hinfo, hbefore⟩ | hwhen := mark_record he hmark
    · exact hinfo ▸ hmarked e₀ he₀ hbefore
    · exact ⟨s, hs, hwhen⟩
  obtain ⟨u, hu, he⟩ := ht
  have hmarked : Visits (lookupPass false answers) start u ∧
      ∀ e ∈ u.buffer.nodes, e.mark gave = true → MarkedInLoop answers start gave e.nodeInfo := by
    refine visits_invariant (I := fun s => Visits (lookupPass false answers) start s ∧
      ∀ e ∈ s.buffer.nodes, e.mark gave = true → MarkedInLoop answers start gave e.nodeInfo)
      (fun s s' hs hpass => ⟨hs.1.trans (.step hpass (.refl s')), ?_⟩) hu
      ⟨.refl start, fun e he hmark => absurd hmark (hstart e he)⟩
    rw [(lookupPass_next hpass).2]
    exact hnext s hs.1 hs.2
  obtain ⟨-, rfl⟩ | ⟨-, -, rfl⟩ := lookupPass_exit he
  · exact hmarked.2
  · exact hnext u hmarked.1 hmarked.2

theorem AnswersInLoop.markedInLoop (h : AnswersInLoop answers start c) (gave : Bool) :
    MarkedInLoop answers start gave c := by
  obtain ⟨s, hs, r, hr, hg, rfl⟩ := h
  have hin := mem_batch_of_nextRound hr
  have hknown : r.resolver ∈ s.buffer.contacts := by
    obtain ⟨e, he, -, hinfo⟩ := LookupBuffer.mem_batch hin
    exact hinfo ▸ mem_contacts_of_mem he
  refine ⟨s, hs, ?_⟩
  cases gave with
  | true =>
      obtain ⟨pre, post, hsplit⟩ := List.append_of_mem hr
      exact .inr ⟨pre, r, post, hsplit, hg, rfl, .inl hknown⟩
  | false => exact .inl ⟨rfl, hknown, List.mem_map_of_mem hin⟩

theorem keepsEntries_closing (t : LookupRun) : KeepsEntries t.buffer (closingRound answers t).buffer :=
  keepsEntries_record _ _ _

theorem mem_nodes_closing {e : LookupNodeInfo} : e ∈ (closingRound answers t).buffer.nodes ↔
    (∃ e₀ ∈ t.buffer.nodes, e = markedById (lastRound answers t) e₀) ∨ Enters t.buffer (lastRound answers t) e := by
  rw [← heard_false (lastRound answers t)]
  exact mem_nodes_record

theorem mem_responsiveNodes {b : LookupBuffer} :
    c ∈ b.getResponsiveNodes ↔ ∃ e ∈ b.nodes, e.nodeInfo = c ∧ ∀ gave, e.mark gave = true := by
  have hflags : ∀ e : LookupNodeInfo, (e.queried && e.responded) = true ↔ ∀ gave, e.mark gave = true := by
    intro e
    rw [Bool.and_eq_true_iff, Bool.forall_bool]
    rfl
  constructor
  · intro hc
    obtain ⟨e, he, hinfo⟩ := List.mem_map.mp hc
    obtain ⟨he, hboth⟩ := List.mem_filter.mp he
    exact ⟨e, he, hinfo, (hflags e).mp hboth⟩
  · intro h
    obtain ⟨e, he, hinfo, hboth⟩ := h
    exact List.mem_map.mpr ⟨e, List.mem_filter.mpr ⟨he, (hflags e).mpr hboth⟩, hinfo⟩

/-- The last round asks contacts whose entries are not marked as queried. -/
theorem asked_of_lastRound {r : LookupResponse} (hr : r ∈ lastRound answers t) :
    r = singleLookup r.resolver false (answers t.rounds.length r.resolver) ∧
    r.resolver ∈ t.buffer.getUnqueriedResultingNodes ∧
    ∃ e ∈ t.buffer.nodes, e.mark false = false ∧ e.nodeInfo = r.resolver := by
  obtain ⟨m, hm, rfl⟩ := List.mem_map.mp hr
  rw [singleLookup_resolver]
  exact ⟨rfl, hm, AsksOnce.mem_unqueriedResultingNodes hm⟩

/-- Whoever is asked in the last round without an answer is marked as queried. -/
theorem IdAskedLast.marked (h : IdAskedLast answers start d) (ht : Exits (lookupPass false answers) start t)
    (hlast : ∀ c, ¬ AnswersInLastRound answers start c) :
    ∃ r ∈ lastRound answers t, r.gaveNodes = false ∧ r.resolver.id = d.id := by
  obtain ⟨t', ht', -, hasked⟩ := h
  rw [← ht.unique ht'] at hasked
  obtain ⟨m, hm, hid⟩ := List.mem_map.mp hasked
  have hr : singleLookup m false (answers t.rounds.length m) ∈ lastRound answers t := List.mem_map_of_mem hm
  refine ⟨_, hr, ?_, by rw [singleLookup_resolver, hid]⟩
  apply Bool.eq_false_of_not_eq_true
  exact fun hg => hlast _ ⟨t, ht, _, hr, hg, rfl⟩

/-- If nobody answers in the last round, both marks come from the loop, or the one of a request from a failure
in the last round. -/
theorem responsive_iff (huniform : Uniform start.buffer)
    (hunmarked : ∀ gave, ∀ e ∈ start.buffer.nodes, ¬ e.mark gave = true)
    (hlast : ∀ c, ¬ AnswersInLastRound answers start c) (ht : Exits (lookupPass false answers) start t) :
    d ∈ (closingRound answers t).buffer.getResponsiveNodes ↔
      MarkedInLoop answers start true d ∧ (MarkedInLoop answers start false d ∨ IdAskedLast answers start d) := by
  rw [mem_responsiveNodes]
  constructor
  · intro hd
    obtain ⟨e, he, rfl, hboth⟩ := hd
    cases mem_nodes_closing.mp he with
    | inl hold =>
        obtain ⟨e₀, he₀, rfl⟩ := hold
        refine ⟨?_, ?_⟩
        · cases (mark_markedById true _ e₀).mp (hboth true) with
          | inl hbefore => exact markedInLoop_of_mark ht (hunmarked true) e₀ he₀ hbefore
          | inr hanswer =>
              obtain ⟨r, hr, hg, -⟩ := hanswer
              exact absurd ⟨t, ht, r, hr, hg, rfl⟩ (hlast r.resolver)
        · cases (mark_markedById false _ e₀).mp (hboth false) with
          | inl hbefore => exact .inl (markedInLoop_of_mark ht (hunmarked false) e₀ he₀ hbefore)
          | inr hfails =>
              obtain ⟨r, hr, -, hid⟩ := hfails
              have hknown : e₀.nodeInfo ∈ t.buffer.contacts := mem_contacts_of_mem he₀
              exact .inr ⟨t, ht, hknown, List.mem_map.mpr ⟨r.resolver, (asked_of_lastRound hr).2.1, hid⟩⟩
    | inr hnew =>
        obtain ⟨r, hr, hg, -⟩ := hnew.reports
        exact absurd ⟨t, ht, r, hr, hg, rfl⟩ (hlast r.resolver)
  · intro h
    obtain ⟨e, he, rfl, hresp⟩ := h.1.marked ht
    refine ⟨_, mem_nodes_closing.mpr (.inl ⟨e, he, rfl⟩), rfl, Bool.forall_bool.mpr ⟨?_, ?_⟩⟩
    · rw [mark_markedById]
      cases h.2 with
      | inl hasked =>
          obtain ⟨e₁, he₁, hinfo₁, hq⟩ := hasked.marked ht
          exact .inl (uniform_exits ht huniform e₁ he₁ e he hinfo₁ ▸ hq)
      | inr hasked => exact .inr (hasked.marked ht hlast)
    · exact (mark_markedById true _ e).mpr (.inl hresp)

/-- Whoever answers in the last round is left out, or it is recorded for another contact of its id that does
not answer. -/
theorem RecordsResponders.nobody_last (h : RecordsResponders answers start) (huniform : Uniform start.buffer)
    (c : NodeInfo) : ¬ AnswersInLastRound answers start c := by
  rintro ⟨t, ht, r, hr, hg, rfl⟩
  obtain ⟨hresult, -, e₀, he₀, hq₀, hinfo₀⟩ := asked_of_lastRound hr
  have hknown : r.resolver ∈ t.buffer.contacts := hinfo₀ ▸ mem_contacts_of_mem he₀
  have hresponsive : r.resolver ∈ (closingRound answers t).buffer.getResponsiveNodes :=
    (h t ht r.resolver).mpr ⟨contacts_subset_record false _ _ hknown, .inr ⟨t, ht, r, hr, hg, rfl⟩⟩
  obtain ⟨e, he, hinfo, hboth⟩ := mem_responsiveNodes.mp hresponsive
  cases mem_nodes_closing.mp he with
  | inr hnew => exact hnew.unknown (hinfo ▸ hknown)
  | inl hold =>
      obtain ⟨e₁, he₁, rfl⟩ := hold
      have hsame : e₁ = e₀ := uniform_exits ht huniform e₁ he₁ e₀ he₀ (hinfo.trans hinfo₀.symm)
      subst hsame
      -- only a failure of the last round can have marked the entry as queried
      have hfailure := (mark_markedById false _ e₁).mp (hboth false)
      rw [hq₀] at hfailure
      obtain ⟨r', hr', hfails, hid⟩ := hfailure.resolve_left Bool.false_ne_true
      rw [hinfo₀] at hid
      obtain ⟨hresult', -, e', he', hq', hinfo'⟩ := asked_of_lastRound hr'
      have hother : r'.resolver ∈ (closingRound answers t).buffer.getResponsiveNodes := by
        refine mem_responsiveNodes.mpr ⟨_, mem_nodes_closing.mpr (.inl ⟨e', he', rfl⟩), hinfo', ?_⟩
        refine Bool.forall_bool.mpr ⟨?_, ?_⟩
        · exact (mark_markedById false _ e').mpr (.inr ⟨r', hr', hfails, by rw [hinfo']⟩)
        · exact (mark_markedById true _ e').mpr (.inr ⟨r, hr, hg, by rw [hinfo', hid]⟩)
      obtain hloop | ⟨t', ht', q, hqr, hgq, hqinfo⟩ := ((h t ht r'.resolver).mp hother).2
      · obtain ⟨e₂, he₂, hinfo₂, hq₂⟩ := (hloop.markedInLoop false).marked ht
        have hsame₂ := uniform_exits ht huniform e₂ he₂ e' he' (hinfo₂.trans hinfo'.symm)
        rw [hsame₂] at hq₂
        exact Bool.false_ne_true (hq'.symm.trans hq₂)
      · rw [← ht.unique ht'] at hqr
        have hsameResult : q = r' := by
          rw [(asked_of_lastRound hqr).1, hresult', hqinfo]
        rw [hsameResult, hfails] at hgq
        cases hgq

/-- With one address for each id the marks of a contact are its own. -/
theorem marksAreOwn_of_oneAddress (ht : Exits (lookupPass false answers) start t)
    (hone : OneAddress (· ∈ t.buffer.contacts)) : MarksAreOwn answers start := by
  intro d hmarked _
  obtain ⟨e, he, hinfo, -⟩ := hmarked.marked ht
  have hd : d ∈ t.buffer.contacts := hinfo ▸ mem_contacts_of_mem he
  obtain ⟨s, hs, hwhen⟩ := hmarked
  obtain ⟨pre, r, post, hsplit, hg, hid, -⟩ := hwhen.resolve_left fun h => Bool.noConfusion h.1
  have hr : r ∈ nextRound false answers s := hsplit ▸ List.mem_append_right pre List.mem_cons_self
  obtain ⟨e', he', hinfo', -⟩ := (AnswersInLoop.markedInLoop ⟨s, hs, r, hr, hg, rfl⟩ true).marked ht
  have hresolver : r.resolver ∈ t.buffer.contacts := hinfo' ▸ mem_contacts_of_mem he'
  exact ⟨s, hs, r, hr, hg, hone _ _ hresolver hd hid⟩

theorem recordsResponders_iff_of_nobody_last (huniform : Uniform start.buffer)
    (hunmarked : ∀ gave, ∀ e ∈ start.buffer.nodes, ¬ e.mark gave = true)
    (hlast : ∀ c, ¬ AnswersInLastRound answers start c) :
    RecordsResponders answers start ↔ MarksAreOwn answers start := by
  constructor
  · intro h d hanswer hasked
    obtain ⟨t, ht⟩ := lookup_exits false answers start
    have hd := (responsive_iff huniform hunmarked hlast ht).mpr ⟨hanswer, hasked⟩
    exact ((h t ht d).mp hd).2.resolve_right (hlast d)
  · intro h t ht c
    rw [responsive_iff huniform hunmarked hlast ht]
    constructor
    · intro hmarks
      obtain ⟨e, he, hinfo, -⟩ := hmarks.1.marked ht
      have hc : c ∈ t.buffer.contacts := hinfo ▸ mem_contacts_of_mem he
      exact ⟨(keepsEntries_closing t).contacts_subset hc, .inl (h c hmarks.1 hmarks.2)⟩
    · intro hc
      have hloop := hc.2.resolve_right (hlast c)
      exact ⟨hloop.markedInLoop true, .inl (hloop.markedInLoop false)⟩

end Runs

theorem unmarked_new (target : Key) (initial : List NodeInfo) (thisNode : NodeInfo) (gave : Bool) :
    ∀ e ∈ (LookupBuffer.new target initial thisNode).nodes, ¬ e.mark gave = true := by
  intro e he hmark
  obtain ⟨c, -, rfl⟩ := List.mem_map.mp ((sort_perm _).mem_iff.mp he)
  cases gave <;> cases hmark

/-- The lookups of `find_node` and `join_network` record exactly those that answered if and only if nobody answers
in the last round and the marks of a contact are its own, as they are when each id has one address. -/
theorem Node.recordsResponders_iff (self : Node) {answers : Answers} {start : LookupRun}
    (hstart : self.StartsLookup answers false start) :
    (RecordsResponders answers start ↔ (∀ c, ¬ AnswersInLastRound answers start c) ∧ MarksAreOwn answers start) ∧
    ∃ t, Exits (lookupPass false answers) start t ∧
      (OneAddress (· ∈ t.buffer.contacts) → MarksAreOwn answers start) := by
  obtain ⟨target, initial, hbuffer⟩ := hstart.buffer_eq
  have huniform : Uniform start.buffer := hbuffer ▸ Uniform.new target initial self.toNodeInfo
  have hunmarked : ∀ gave, ∀ e ∈ start.buffer.nodes, ¬ e.mark gave = true :=
    hbuffer ▸ unmarked_new target initial self.toNodeInfo
  obtain ⟨t, ht⟩ := lookup_exits false answers start
  refine ⟨⟨fun h => ?_, fun h => ?_⟩, t, ht, marksAreOwn_of_oneAddress ht⟩
  · have hlast := h.nobody_last huniform
    exact ⟨hlast, (recordsResponders_iff_of_nobody_last huniform hunmarked hlast).mp h⟩
  · exact (recordsResponders_iff_of_nobody_last huniform hunmarked h.1).mpr h.2

/-- Three contacts answer in the loop, nobody is left for the last round, and all three are recorded. -/
theorem lateNode_recordsResponders : RecordsResponders (fun _ => promptReply) lateStart ∧
    ∃ t, Exits (lookupPass false fun _ => promptReply) lateStart t ∧
      (closingRound (fun _ => promptReply) t).buffer.getResponsiveNodes = promptContacts := by
  obtain ⟨hiff, t, ht, hown⟩ := Node.recordsResponders_iff lateNode (lateNode_starts fun _ => promptReply)
  obtain ⟨u, hu, -, hcontacts, hnone, -, hresponsive⟩ := promptReply_exits
  obtain rfl := ht.unique hu
  refine ⟨hiff.mpr ⟨?_, hown ?_⟩, t, ht, hresponsive⟩
  · rintro c ⟨v, hv, r, hr, -, -⟩
    obtain rfl := ht.unique hv
    rw [lastRound, hnone, lookupRound_nil] at hr
    cases hr
  · have hids : ∀ a ∈ promptContacts, ∀ b ∈ promptContacts, a.id = b.id → a = b := by decide
    intro a b ha hb
    rw [hcontacts] at ha hb
    exact hids a ha b hb

/-- The fourth contact is asked in the last round only, and answers. -/
theorem lateNode_misses_responder :
    lateNode.StartsLookup (fun _ => lateReply) false lateStart ∧
    ¬ RecordsResponders (fun _ => lateReply) lateStart := by
  refine ⟨lateNode_starts _, fun h => ?_⟩
  have hrun : (runLoop (lookupPass false fun _ => lateReply) 4 lateStart).any (fun t =>
      decide (NodeInfo.local 0x84 8080 ∉ (closingRound (fun _ => lateReply) t).buffer.getResponsiveNodes) &&
      decide (NodeInfo.local 0x84 8080 ∈ (closingRound (fun _ => lateReply) t).buffer.contacts) &&
      (lookupRound t.buffer.getUnqueriedResultingNodes false lateReply).any fun r =>
        r.gaveNodes && decide (r.resolver = NodeInfo.local 0x84 8080)) = true := by
    decide +kernel
  obtain ⟨t, ht, hcheck⟩ := (Option.any_eq_true _ _).mp hrun
  have hexits : Exits (lookupPass false fun _ => lateReply) lateStart t := runLoop_iff_exits.mp ⟨4, ht⟩
  simp only [Bool.and_eq_true, decide_eq_true_eq, List.any_eq_true] at hcheck
  obtain ⟨⟨hmissing, hknown⟩, r, hr, hg, hresolver⟩ := hcheck
  exact hmissing ((h t hexits _).mpr ⟨hknown, .inr ⟨t, hexits, r, hr, hg, hresolver⟩⟩)

end P2PFilesystem
