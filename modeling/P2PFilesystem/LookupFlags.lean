import P2PFilesystem.LookupClosure

/-!
# What the flags of a lookup tell

Contacts that always answer the same and ids that have one address each: then a buffer
entry is marked as failed exactly when its contact was asked and is silent. This holds
from round to round, whoever is silent, and also after the last round. A contact that
nobody asked is not marked as failed.
-/
namespace P2PFilesystem
open LoopFuel

/-- Not marked as failed: answered, or never marked as queried. -/
def LookupNodeInfo.standing (e : LookupNodeInfo) : Bool := !e.hasFailedToRespond

theorem LookupNodeInfo.standing_eq_false {e : LookupNodeInfo} :
    e.standing = false ↔ e.queried = true ∧ ¬ e.responded = true := by
  simp [standing, hasFailedToRespond]

/-- The contacts asked in the rounds of a run. -/
def LookupRun.asked (s : LookupRun) : List NodeInfo := s.rounds.flatten.map LookupResponse.resolver

/-- The contacts asked in the round loop and those the last round is about to ask. -/
def LookupRun.askedAtEnd (t : LookupRun) : List NodeInfo := t.buffer.getUnqueriedResultingNodes ++ t.asked

/-- The contacts of the buffer and those that the last round is about to report first. -/
def LookupRun.knownAtEnd (reply : NodeInfo → Except NodeError Response) (t : LookupRun) : List NodeInfo :=
  t.buffer.contacts ++
    ((t.buffer.getUnqueriedResultingNodes.flatMap fun c => (singleLookup c false (reply c)).kClosest).filter
      fun c => c ∉ t.buffer.contacts ∧ c ≠ t.buffer.thisNode).dedup

section Answers
variable {c : NodeInfo} {o : Except NodeError Response} {reply : NodeInfo → Except NodeError Response}
  {resolvers : List NodeInfo}

theorem singleLookup_cases (c : NodeInfo) (o : Except NodeError Response) :
    (∃ ns r, o = .ok r ∧ r.responseType = .nodes ns ∧ singleLookup c false o = .newNodesSuccessful c ns) ∨
    ¬ AnswersNodes o ∧ singleLookup c false o = .newFailed c := by
  cases o with
  | error e =>
      refine .inr ⟨?_, rfl⟩
      rintro ⟨_, _, h, -⟩
      cases h
  | ok r =>
      by_cases h : ∃ ns, r.responseType = .nodes ns
      · obtain ⟨ns, hns⟩ := h
        exact .inl ⟨ns, r, rfl, hns, singleLookup_of_nodes ⟨r, rfl, hns⟩⟩
      · right
        refine ⟨fun ⟨ns, r', hr, hns⟩ => h ⟨ns, by cases hr; exact hns⟩, ?_⟩
        simp only [singleLookup]
        split
        · exact absurd ⟨_, ‹_›⟩ h
        · rfl
        · rfl

theorem gaveNodes_singleLookup : (singleLookup c false o).gaveNodes = true ↔ AnswersNodes o := by
  rcases singleLookup_cases c o with ⟨ns, r, ho, hr, h⟩ | ⟨ha, h⟩
  · rw [h]
    exact ⟨fun _ => ⟨ns, r, ho, hr⟩, fun _ => rfl⟩
  · rw [h]
    exact ⟨fun hg => absurd hg Bool.false_ne_true, fun hc => absurd hc ha⟩

theorem answersNodes_of_mem_kClosest {m : NodeInfo} (h : m ∈ (singleLookup c false o).kClosest) :
    AnswersNodes o := by
  rcases singleLookup_cases c o with ⟨ns, r, ho, hr, -⟩ | ⟨-, he⟩
  · exact ⟨ns, r, ho, hr⟩
  · rw [he] at h
    cases h

theorem reports_lookupRound :
    LookupBuffer.Reports (lookupRound resolvers false reply) c ↔
      c ∈ resolvers.flatMap fun m => (singleLookup m false (reply m)).kClosest := by
  rw [List.mem_flatMap]
  constructor
  · rintro ⟨r, hr, -, hc⟩
    obtain ⟨m, hm, rfl⟩ := List.mem_map.mp hr
    exact ⟨m, hm, hc⟩
  · rintro ⟨m, hm, hc⟩
    exact ⟨_, List.mem_map.mpr ⟨m, hm, rfl⟩, gaveNodes_singleLookup.mpr (answersNodes_of_mem_kClosest hc), hc⟩

theorem markedBy_lookupRound (e : LookupNodeInfo) :
    ((LookupBuffer.markedBy (lookupRound resolvers false reply) e).queried = true ↔
      e.queried = true ∨ e.nodeInfo ∈ resolvers ∧ ¬ AnswersNodes (reply e.nodeInfo)) ∧
    ((LookupBuffer.markedBy (lookupRound resolvers false reply) e).responded = true ↔
      e.responded = true ∨ e.nodeInfo ∈ resolvers ∧ AnswersNodes (reply e.nodeInfo)) := by
  have hany : ∀ p : LookupResponse → Bool,
      ((lookupRound resolvers false reply).any fun r => p r && decide (r.resolver = e.nodeInfo)) = true ↔
        e.nodeInfo ∈ resolvers ∧ p (singleLookup e.nodeInfo false (reply e.nodeInfo)) = true := by
    intro p
    simp only [lookupRound, List.any_map, List.any_eq_true, Function.comp_apply, singleLookup_resolver,
      Bool.and_eq_true, decide_eq_true_iff]
    constructor
    · rintro ⟨m, hm, hp, rfl⟩
      exact ⟨hm, hp⟩
    · rintro ⟨hm, hp⟩
      exact ⟨_, hm, hp, rfl⟩
  simp only [LookupBuffer.markedBy, Bool.or_eq_true, hany, Bool.not_eq_true', gaveNodes_singleLookup,
    ← Bool.not_eq_true, and_self]

end Answers

/-- Every response of the run is what the contact replies. -/
def LookupRun.Replies (reply : NodeInfo → Except NodeError Response) (s : LookupRun) : Prop :=
  ∀ rs ∈ s.rounds, ∀ r ∈ rs, r = singleLookup r.resolver false (reply r.resolver)

namespace LookupRun.Replies
variable {reply : NodeInfo → Except NodeError Response} {s : LookupRun}

theorem answered_iff (h : s.Replies reply) {c : NodeInfo} :
    s.Answered c ↔ c ∈ s.asked ∧ AnswersNodes (reply c) := by
  constructor
  · rintro ⟨rs, hrs, r, hr, rfl, hg⟩
    refine ⟨List.mem_map.mpr ⟨r, List.mem_flatten.mpr ⟨rs, hrs, hr⟩, rfl⟩, ?_⟩
    rw [h rs hrs r hr] at hg
    exact gaveNodes_singleLookup.mp hg
  · rintro ⟨hc, ha⟩
    obtain ⟨r, hr, rfl⟩ := List.mem_map.mp hc
    obtain ⟨rs, hrs, hr⟩ := List.mem_flatten.mp hr
    refine ⟨rs, hrs, r, hr, rfl, ?_⟩
    rw [h rs hrs r hr]
    exact gaveNodes_singleLookup.mpr ha

theorem cons (h : s.Replies reply) (b : LookupBuffer) (resolvers : List NodeInfo) :
    Replies reply ⟨b, lookupRound resolvers false reply :: s.rounds⟩ := by
  intro rs hrs r hr
  cases List.mem_cons.mp hrs with
  | inl hnew =>
      obtain ⟨c, -, rfl⟩ := List.mem_map.mp (hnew ▸ hr)
      rw [singleLookup_resolver]
  | inr hold => exact h rs hold r hr

end LookupRun.Replies

/-- The flags of the buffer tell who was asked and is silent. A contact asked outside the
buffer, as the beacon is, did answer. -/
structure FlagsTell (reply : NodeInfo → Except NodeError Response) (s : LookupRun) : Prop where
  replies : s.Replies reply
  failed_iff : ∀ e ∈ s.buffer.nodes,
    e.standing = false ↔ e.nodeInfo ∈ s.asked ∧ ¬ AnswersNodes (reply e.nodeInfo)
  responded : ∀ e ∈ s.buffer.nodes, e.responded = true → AnswersNodes (reply e.nodeInfo)
  asked_known : ∀ c ∈ s.asked, c ∈ s.buffer.contacts ∨ AnswersNodes (reply c)

namespace FlagsTell
variable {reply : NodeInfo → Except NodeError Response} {s t : LookupRun}

theorem answered_iff (h : FlagsTell reply s) {c : NodeInfo} :
    s.Answered c ↔ c ∈ s.asked ∧ AnswersNodes (reply c) := h.replies.answered_iff

/-- Before the first round nobody is marked. -/
theorem new {rounds : List (List LookupResponse)} (target : Key) (initial : List NodeInfo) (thisNode : NodeInfo)
    (hrounds : ∀ rs ∈ rounds, ∀ r ∈ rs, r = singleLookup r.resolver false (reply r.resolver) ∧
      AnswersNodes (reply r.resolver)) :
    FlagsTell reply ⟨LookupBuffer.new target initial thisNode, rounds⟩ := by
  have hasked : ∀ c ∈ LookupRun.asked ⟨LookupBuffer.new target initial thisNode, rounds⟩,
      AnswersNodes (reply c) := by
    intro c hc
    obtain ⟨r, hr, rfl⟩ := List.mem_map.mp hc
    obtain ⟨rs, hrs, hr⟩ := List.mem_flatten.mp hr
    exact (hrounds rs hrs r hr).2
  have hnew : ∀ e ∈ (LookupBuffer.new target initial thisNode).nodes, ∃ c, e = LookupNodeInfo.new c := by
    intro e he
    obtain ⟨c, -, rfl⟩ := List.mem_map.mp ((LookupBuffer.sort_perm _).mem_iff.mp he)
    exact ⟨c, rfl⟩
  refine ⟨fun rs hrs r hr => (hrounds rs hrs r hr).1, fun e he => ?_, fun e he hr => ?_, fun c hc => .inr (hasked c hc)⟩
  · obtain ⟨c, rfl⟩ := hnew e he
    exact ⟨fun hf => absurd hf.symm Bool.false_ne_true, fun ⟨hc, hsilent⟩ => absurd (hasked c hc) hsilent⟩
  · obtain ⟨c, rfl⟩ := hnew e he
    cases hr

/-- An entry of which at most contacts of the round are marked, after the round. -/
theorem failed_markedBy (h : FlagsTell reply s) {resolvers : List NodeInfo} {e e₀ : LookupNodeInfo}
    (he₀ : e₀ ∈ s.buffer.nodes) (hinfo : e.nodeInfo = e₀.nodeInfo) (hresp : e.responded = e₀.responded)
    (hq : e.queried = e₀.queried ∨ e₀.nodeInfo ∈ resolvers) :
    (LookupBuffer.markedBy (lookupRound resolvers false reply) e).standing = false ↔
      (e.nodeInfo ∈ resolvers ∨ e.nodeInfo ∈ s.asked) ∧ ¬ AnswersNodes (reply e.nodeInfo) := by
  have hold := h.failed_iff e₀ he₀
  have hanswers := h.responded e₀ he₀
  rw [LookupNodeInfo.standing_eq_false] at hold ⊢
  rw [(markedBy_lookupRound e).1, (markedBy_lookupRound e).2, hinfo, hresp]
  by_cases ha : AnswersNodes (reply e₀.nodeInfo)
  · -- asked now it answers, and asked before it did
    by_cases hin : e₀.nodeInfo ∈ resolvers
    · simp [hin, ha]
    · simp only [hin, false_and, or_false, ha, not_true_eq_false, and_false, iff_false, not_and] at hold ⊢
      rwa [hq.resolve_right hin]
  · have hsilent : ¬ e₀.responded = true := fun hr => ha (hanswers hr)
    by_cases hin : e₀.nodeInfo ∈ resolvers
    · simp [hin, ha, hsilent]
    · simp only [hin, false_and, or_false, false_or, ha, not_false_eq_true, and_true, hsilent] at hold ⊢
      rwa [hq.resolve_right hin]

theorem mem_asked_cons {b : LookupBuffer} {resolvers : List NodeInfo} {c : NodeInfo} :
    c ∈ LookupRun.asked ⟨b, lookupRound resolvers false reply :: s.rounds⟩ ↔ c ∈ resolvers ∨ c ∈ s.asked := by
  rw [LookupRun.asked, List.flatten_cons, List.map_append, lookupRound_resolvers, List.mem_append]
  rfl

/-- After a round an entry is an old one with its marks, or a new one without any. -/
theorem entry_of_record {b : LookupBuffer} {resolvers : List NodeInfo} (hresolvers : ∀ c ∈ resolvers, c ∈ b.contacts)
    (hone : OneAddress
      (· ∈ (b.recordLookupRoundResponses (lookupRound resolvers false reply) false).2.contacts)) :
    ∀ e ∈ (b.recordLookupRoundResponses (lookupRound resolvers false reply) false).2.nodes,
      (∃ e₁ ∈ b.nodes, e = LookupBuffer.markedBy (lookupRound resolvers false reply) e₁) ∨
      e.nodeInfo ∉ b.contacts ∧ e = LookupNodeInfo.new e.nodeInfo := by
  intro e he
  rw [LookupBuffer.record_of_no_value (Bool.false_and _)] at he hone
  refine LookupBuffer.mem_nodes_recordResponses (Bool.false_and _)
    (hone.mono fun c => LookupBuffer.mem_contacts_sort.mpr) (fun r hr => ?_)
    ((LookupBuffer.sort_perm _).mem_iff.mp he)
  obtain ⟨c, hc, rfl⟩ := List.mem_map.mp hr
  rw [singleLookup_resolver]
  exact hresolvers c hc

/-- One round keeps it. The buffer `b` may hold marks of contacts that the round asks. -/
theorem record (h : FlagsTell reply s) {b : LookupBuffer} {resolvers : List NodeInfo}
    (hcontacts : b.contacts = s.buffer.contacts) (hresolvers : ∀ c ∈ resolvers, c ∈ s.buffer.contacts)
    (hmarks : ∀ e ∈ b.nodes, ∃ e₀ ∈ s.buffer.nodes, e.nodeInfo = e₀.nodeInfo ∧ e.responded = e₀.responded ∧
      (e.queried = e₀.queried ∨ e₀.nodeInfo ∈ resolvers))
    (hone : OneAddress
      (· ∈ (b.recordLookupRoundResponses (lookupRound resolvers false reply) false).2.contacts)) :
    FlagsTell reply ⟨(b.recordLookupRoundResponses (lookupRound resolvers false reply) false).2,
      lookupRound resolvers false reply :: s.rounds⟩ := by
  have hsub := LookupBuffer.contacts_subset_record false (lookupRound resolvers false reply) b
  rw [hcontacts] at hsub
  have hentry := entry_of_record (fun c hc => hcontacts ▸ hresolvers c hc) hone
  rw [hcontacts] at hentry
  refine ⟨h.replies.cons _ _, ?_, ?_, ?_⟩
  · intro e he
    rw [mem_asked_cons]
    rcases hentry e he with ⟨e₁, he₁, rfl⟩ | ⟨hnew, heq⟩
    · obtain ⟨e₀, he₀, hinfo, hresp, hq⟩ := hmarks e₁ he₁
      exact h.failed_markedBy he₀ hinfo hresp hq
    · -- nobody new to the buffer was asked, unless it answered
      rw [heq]
      refine ⟨fun hf => absurd hf.symm Bool.false_ne_true, ?_⟩
      rintro ⟨hin | hold, hsilent⟩
      · exact absurd (hresolvers _ hin) hnew
      · exact ((h.asked_known _ hold).elim hnew hsilent).elim
  · intro e he hr
    rcases hentry e he with ⟨e₁, he₁, rfl⟩ | ⟨-, heq⟩
    · obtain ⟨e₀, he₀, hinfo, hresp, -⟩ := hmarks e₁ he₁
      rcases (markedBy_lookupRound e₁).2.mp hr with hold | ⟨-, ha⟩
      · exact hinfo ▸ h.responded e₀ he₀ (hresp ▸ hold)
      · exact ha
    · rw [heq] at hr
      cases hr
  · intro c hc
    rcases mem_asked_cons.mp hc with hin | hold
    · exact .inl (hsub (hresolvers c hin))
    · exact (h.asked_known c hold).imp_left (hsub ·)

/-- The batch is marked before it is asked. -/
theorem next (h : FlagsTell reply s)
    (hone : OneAddress (· ∈ (nextBuffer false (fun _ => reply) s).2.contacts)) :
    FlagsTell reply ⟨(nextBuffer false (fun _ => reply) s).2, nextRound false (fun _ => reply) s :: s.rounds⟩ := by
  have hbatch : ∀ c ∈ s.buffer.batch, c ∈ s.buffer.contacts := by
    intro c hc
    obtain ⟨e, he, -, rfl⟩ := LookupBuffer.mem_batch hc
    exact LookupBuffer.mem_contacts_of_mem he
  have hsub : s.buffer.contacts ⊆ (nextBuffer false (fun _ => reply) s).2.contacts := by
    have := LookupBuffer.contacts_subset_record false (nextRound false (fun _ => reply) s) s.buffer.markBatch
    rwa [LookupBuffer.contacts_markBatch] at this
  refine h.record (b := s.buffer.markBatch) (s.buffer.contacts_markBatch) hbatch (fun e he => ?_) hone
  obtain ⟨e₀, he₀, rfl⟩ := List.mem_map.mp he
  refine ⟨e₀, he₀, ?_⟩
  split_ifs with hid
  · obtain ⟨c, hc, hcid⟩ := List.mem_map.mp hid
    have hsame := hone c e₀.nodeInfo (hsub (hbatch c hc))
      (hsub (LookupBuffer.mem_contacts_of_mem he₀)) hcid
    exact ⟨rfl, rfl, .inr (hsame ▸ hc)⟩
  · exact ⟨rfl, rfl, .inl rfl⟩

theorem exits (h : FlagsTell reply s) (ht : Exits (lookupPass false fun _ => reply) s t)
    (hone : OneAddress (· ∈ t.buffer.contacts)) : FlagsTell reply t := by
  refine exits_invariant (I := fun u => OneAddress (· ∈ u.buffer.contacts) → FlagsTell reply u)
    (fun u hu _ hnext => (hu (hnext.mono fun c hc => ?_)).next hnext) ht (fun _ => h) hone
  exact LookupBuffer.contacts_subset_record false _ u.buffer.markBatch (by rwa [LookupBuffer.contacts_markBatch])

theorem closing (h : FlagsTell reply t)
    (hone : OneAddress (· ∈ (closingRound (fun _ => reply) t).buffer.contacts)) :
    FlagsTell reply (closingRound (fun _ => reply) t) := by
  refine h.record rfl (fun c hc => ?_) (fun e he => ⟨e, he, rfl, rfl, .inl rfl⟩) hone
  obtain ⟨e, he, rfl⟩ := List.mem_map.mp hc
  exact LookupBuffer.mem_contacts_of_mem (List.mem_of_mem_take (List.mem_of_mem_filter he))

end FlagsTell

section Closing
variable {reply : NodeInfo → Except NodeError Response} {t : LookupRun}

theorem closingRound_asked : (closingRound (fun _ => reply) t).asked = t.askedAtEnd := by
  rw [LookupRun.asked, closingRound, List.flatten_cons, List.map_append, lookupRound_resolvers]
  rfl

/-- A round appends to the contacts those that it is the first to report, each once. -/
theorem contacts_recordResponses (rs : List LookupResponse) (b : LookupBuffer) :
    ∃ fresh, (LookupBuffer.recordResponses false rs b).2.contacts = b.contacts ++ fresh ∧ fresh.Nodup ∧
      ∀ c ∈ fresh, c ∉ b.contacts := by
  refine LookupBuffer.recordResponses_induction (I := fun b' => ∃ fresh, b'.contacts = b.contacts ++ fresh ∧
      fresh.Nodup ∧ ∀ c ∈ fresh, c ∉ b.contacts) false
    (fun b' id h => by rwa [LookupBuffer.contacts_markNodeAsQueried])
    (fun b' id h => by rwa [LookupBuffer.contacts_markNodeAsResponded]) rs (fun r _ _ b' h => ?_)
    ⟨[], (List.append_nil _).symm, List.nodup_nil, fun c hc => by cases hc⟩
  induction r.kClosest generalizing b' with
  | nil => exact h
  | cons n ns ih =>
      refine ih _ ?_
      obtain ⟨fresh, hb', hnd, hnew⟩ := h
      rw [LookupBuffer.contacts_addReported]
      split_ifs with hknown
      · exact ⟨fresh, hb', hnd, hnew⟩
      · have hn : n ∉ b.contacts ++ fresh := fun h => hknown (.inl (hb' ▸ h))
        rw [List.mem_append, not_or] at hn
        refine ⟨fresh ++ [n], by rw [hb', List.append_assoc], ?_, fun c hc => ?_⟩
        · exact List.nodup_append_comm.mpr (List.nodup_cons.mpr ⟨hn.2, hnd⟩)
        · rcases List.mem_append.mp hc with hold | hlast
          · exact hnew c hold
          · rw [List.mem_singleton.mp hlast]
            exact hn.1

theorem closingRound_contacts :
    (closingRound (fun _ => reply) t).buffer.contacts.Perm (t.knownAtEnd reply) := by
  have hrecord : (closingRound (fun _ => reply) t).buffer = (LookupBuffer.recordResponses false
      (lookupRound t.buffer.getUnqueriedResultingNodes false reply) t.buffer).2.sort := by
    rw [closingRound, LookupBuffer.record_of_no_value (Bool.false_and _)]
  rw [hrecord]
  refine (LookupBuffer.contacts_sort_perm _).trans ?_
  obtain ⟨fresh, hcontacts, hnd, hnew⟩ := contacts_recordResponses
    (lookupRound t.buffer.getUnqueriedResultingNodes false reply) t.buffer
  rw [hcontacts]
  refine List.Perm.append_left _ ((List.perm_ext_iff_of_nodup hnd (List.nodup_dedup _)).mpr fun c => ?_)
  rw [List.mem_dedup, List.mem_filter, decide_eq_true_iff, ← reports_lookupRound]
  constructor
  · intro hc
    have hin : c ∈ (LookupBuffer.recordResponses false
        (lookupRound t.buffer.getUnqueriedResultingNodes false reply) t.buffer).2.contacts :=
      hcontacts ▸ List.mem_append_right _ hc
    obtain ⟨hne, hrep⟩ := (LookupBuffer.mem_recordResponses false _ _ hin).resolve_left (hnew c hc)
    exact ⟨hrep, hnew c hc, hne⟩
  · rintro ⟨hrep, hout, hne⟩
    have hin := LookupBuffer.mem_recordResponses_of_reports (Bool.false_and _) hrep hne
    rw [hcontacts] at hin
    exact (List.mem_append.mp hin).resolve_left hout

end Closing
end P2PFilesystem
