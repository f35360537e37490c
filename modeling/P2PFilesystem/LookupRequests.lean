import P2PFilesystem.LookupFlags
import P2PFilesystem.RoundEntries

/-!
# The requests of a lookup

Who has been asked is marked as queried under the same contact for good, and the next batch
has no such mark. So a lookup asks everybody once, and every round asks somebody.
-/
namespace P2PFilesystem
open LoopFuel

/-- All contacts that answers list are in `C`. -/
def AnswersWithin (C : Finset NodeInfo) (answers : Answers) : Prop :=
  ∀ round c r ns, answers round c = .ok r → r.responseType = .nodes ns → ∀ n ∈ ns, n ∈ C

/-- Between two rounds; `U` are the contacts there are. -/
structure AsksOnce (U : Finset NodeInfo) (s : LookupRun) : Prop where
  nodup : s.buffer.contacts.Nodup
  known : ∀ c ∈ s.buffer.contacts, c ∈ U
  asked_nodup : s.asked.Nodup
  asked_known : ∀ c ∈ s.asked, c ∈ s.buffer.contacts
  asked_queried : ∀ e ∈ s.buffer.nodes, e.nodeInfo ∈ s.asked → e.queried = true
  length_le : s.rounds.length ≤ s.asked.length

section Answers
variable {forValue : Bool} {answers : Answers} {C : Finset NodeInfo}

theorem AnswersWithin.kClosest (h : AnswersWithin C answers) (round : Nat) (m : NodeInfo) {c : NodeInfo}
    (hc : c ∈ (singleLookup m forValue (answers round m)).kClosest) : c ∈ C := by
  cases ho : answers round m with
  | error e =>
      rw [ho] at hc
      cases hc
  | ok r =>
      rw [ho] at hc
      unfold singleLookup at hc
      cases hr : r.responseType with
      | nodes ns =>
          simp only [hr] at hc
          exact h round m r ns ho hr c hc
      | hasValue key =>
          simp only [hr] at hc
          cases forValue <;> cases hc
      | _ =>
          simp only [hr] at hc
          cases hc

theorem AnswersWithin.reports (h : AnswersWithin C answers) {round : Nat} {resolvers : List NodeInfo} {c : NodeInfo}
    (hc : LookupBuffer.Reports (LookupBuffer.heard forValue (lookupRound resolvers forValue (answers round))) c) :
    c ∈ C := by
  obtain ⟨r, hr, -, hk⟩ := hc
  obtain ⟨m, -, rfl⟩ := List.mem_map.mp (LookupBuffer.heard_subset _ _ hr)
  exact h.kClosest round m hk

end Answers

theorem LookupRun.asked_cons (b : LookupBuffer) (resolvers : List NodeInfo) (forValue : Bool)
    (answer : NodeInfo → Except NodeError Response) (rounds : List (List LookupResponse)) :
    LookupRun.asked ⟨b, lookupRound resolvers forValue answer :: rounds⟩ = resolvers ++ LookupRun.asked ⟨b, rounds⟩ := by
  rw [LookupRun.asked, List.flatten_cons, List.map_append, lookupRound_resolvers]
  rfl

namespace AsksOnce
variable {forValue : Bool} {answers : Answers} {C U : Finset NodeInfo} {s t : LookupRun}

theorem start {initial : List NodeInfo} (h : initial.Nodup) (target : Key) (thisNode : NodeInfo) :
    AsksOnce (C ∪ initial.toFinset) ⟨.new target initial thisNode, []⟩ where
  nodup := (LookupBuffer.contacts_new_perm target initial thisNode).nodup_iff.mpr h
  known := by
    intro c hc
    have hmem := (LookupBuffer.contacts_new_perm target initial thisNode).mem_iff.mp hc
    exact Finset.mem_union_right C (List.mem_toFinset.mpr hmem)
  asked_nodup := List.nodup_nil
  asked_known := nofun
  asked_queried := nofun
  length_le := Nat.le_refl 0

/-- Contacts without a mark have not been asked. -/
theorem not_asked (h : AsksOnce U s) {c : NodeInfo} (hc : ∃ e ∈ s.buffer.nodes, e.queried = false ∧ e.nodeInfo = c) :
    c ∉ s.asked := by
  obtain ⟨e, he, hq, rfl⟩ := hc
  intro hasked
  rw [h.asked_queried e he hasked] at hq
  cases hq

theorem batch_nodup (h : AsksOnce U s) : (s.buffer.batch ++ s.asked).Nodup := by
  have hbatch : s.buffer.batch.Nodup :=
    h.nodup.sublist ((List.take_sublist _ _).trans (List.filter_sublist.map LookupNodeInfo.nodeInfo))
  refine List.nodup_append.mpr ⟨hbatch, h.asked_nodup, fun c hc d hd heq => ?_⟩
  exact h.not_asked (LookupBuffer.mem_batch hc) (heq ▸ hd)

theorem mem_unqueriedResultingNodes {b : LookupBuffer} {c : NodeInfo} (h : c ∈ b.getUnqueriedResultingNodes) :
    ∃ e ∈ b.nodes, e.queried = false ∧ e.nodeInfo = c := by
  obtain ⟨e, he, rfl⟩ := List.mem_map.mp h
  obtain ⟨hmem, hq⟩ := List.mem_filter.mp he
  exact ⟨e, List.mem_of_mem_take hmem, by simpa using hq, rfl⟩

theorem last_nodup (h : AsksOnce U s) : (s.buffer.getUnqueriedResultingNodes ++ s.asked).Nodup := by
  have hlast : s.buffer.getUnqueriedResultingNodes.Nodup :=
    h.nodup.sublist ((List.filter_sublist.trans (List.take_sublist _ _)).map LookupNodeInfo.nodeInfo)
  refine List.nodup_append.mpr ⟨hlast, h.asked_nodup, fun c hc d hd heq => ?_⟩
  exact h.not_asked (mem_unqueriedResultingNodes hc) (heq ▸ hd)

theorem next (h : AsksOnce U s) (hanswers : AnswersWithin C answers) (hsub : C ⊆ U) (hbatch : s.buffer.batch ≠ []) :
    AsksOnce U ⟨(nextBuffer forValue answers s).2, nextRound forValue answers s :: s.rounds⟩ := by
  have hasked : LookupRun.asked ⟨(nextBuffer forValue answers s).2, nextRound forValue answers s :: s.rounds⟩ =
      s.buffer.batch ++ s.asked := LookupRun.asked_cons _ _ _ _ _
  have hkept : s.buffer.contacts ⊆ (nextBuffer forValue answers s).2.contacts := by
    have := LookupBuffer.contacts_subset_record forValue (nextRound forValue answers s) s.buffer.markBatch
    rwa [LookupBuffer.contacts_markBatch] at this
  have hcontacts : ∀ c ∈ s.buffer.batch ++ s.asked, c ∈ s.buffer.contacts := by
    intro c hc
    cases List.mem_append.mp hc with
    | inl hin =>
        obtain ⟨e, he, -, rfl⟩ := LookupBuffer.mem_batch hin
        exact LookupBuffer.mem_contacts_of_mem he
    | inr hold => exact h.asked_known c hold
  constructor
  · apply LookupBuffer.record_nodup
    rw [LookupBuffer.contacts_markBatch]
    exact h.nodup
  · intro c hc
    cases LookupBuffer.mem_contacts_record.mp hc with
    | inl hold => exact h.known c (by rwa [LookupBuffer.contacts_markBatch] at hold)
    | inr hnew => exact hsub (hanswers.reports hnew.2)
  · rw [hasked]
    exact h.batch_nodup
  · intro c hc
    rw [hasked] at hc
    exact hkept (hcontacts c hc)
  · intro e he hin
    rw [hasked] at hin
    cases LookupBuffer.mem_nodes_record.mp he with
    | inl hold =>
        obtain ⟨e₁, he₁, rfl⟩ := hold
        obtain ⟨e₀, he₀, rfl⟩ := List.mem_map.mp he₁
        by_cases hid : e₀.nodeInfo.id ∈ s.buffer.batch.map NodeInfo.id
        · simp [LookupBuffer.markedById, hid]
        · rw [if_neg hid] at hin ⊢
          have hnot : e₀.nodeInfo ∉ s.buffer.batch := fun hc => hid (List.mem_map_of_mem hc)
          have hq := h.asked_queried e₀ he₀ ((List.mem_append.mp hin).resolve_left hnot)
          simp [LookupBuffer.markedById, hq]
    | inr hnew =>
        have hunknown := hnew.unknown
        rw [LookupBuffer.contacts_markBatch] at hunknown
        exact absurd (hcontacts _ hin) hunknown
  · rw [hasked, List.length_cons, List.length_append]
    have hpos := List.length_pos_of_ne_nil hbatch
    have hle := h.length_le
    omega

theorem exits (h : AsksOnce U s) (hanswers : AnswersWithin C answers) (hsub : C ⊆ U)
    (ht : Exits (lookupPass forValue answers) s t) : AsksOnce U t :=
  exits_invariant (fun _ hu hbatch => hu.next hanswers hsub hbatch) ht h

theorem rounds_le (h : AsksOnce U s) : s.rounds.length ≤ U.card := by
  have hcard : s.asked.length ≤ U.card := by
    rw [← List.toFinset_card_of_nodup h.asked_nodup]
    exact Finset.card_le_card fun c hc => h.known c (h.asked_known c (List.mem_toFinset.mp hc))
  exact h.length_le.trans hcard

theorem closingRound_nodup (h : AsksOnce U s) (answers : Answers) : (closingRound answers s).asked.Nodup := by
  rw [closingRound, LookupRun.asked_cons]
  exact h.last_nodup

/-- `find_storer` ends with the last round or without it. -/
theorem storerOf_nodup (h : AsksOnce U s) (target : Key) (answers : Answers) :
    ((Node.storerOf target answers s).2.flatten.map LookupResponse.resolver).Nodup := by
  have hlast : ((lookupRound s.buffer.getUnqueriedResultingNodes true (answers s.rounds.length) :: s.rounds).flatten.map
      LookupResponse.resolver).Nodup := by
    rw [List.flatten_cons, List.map_append, lookupRound_resolvers]
    exact h.last_nodup
  unfold Node.storerOf
  dsimp only
  split
  · exact h.asked_nodup
  · split_ifs
    · exact h.asked_nodup
    · split
      · exact hlast
      · exact hlast

end AsksOnce

/-- Whatever is answered with the contacts of a finite set, the rounds of `find_node` and of
`find_storer` are at most as many as the contacts there are, and nobody is asked twice. -/
theorem Node.lookups_ask_once (self : Node) (target : Key) {initial : List NodeInfo} (hinitial : initial.Nodup)
    {answers : Answers} {C : Finset NodeInfo} (hanswers : AnswersWithin C answers) :
    (∃ t, Exits (lookupPass false answers) ⟨.new target initial self.toNodeInfo, []⟩ t ∧
      t.rounds.length ≤ (C ∪ initial.toFinset).card ∧
      Returns (self.nodeLookup target initial [] answers) (closingRound answers t) ∧
      (closingRound answers t).asked.Nodup) ∧
    (∃ t, Exits (lookupPass true answers) ⟨.new target initial self.toNodeInfo, []⟩ t ∧
      t.rounds.length ≤ (C ∪ initial.toFinset).card ∧
      Returns (fun fuel => (runLoop (lookupPass true answers) fuel ⟨.new target initial self.toNodeInfo, []⟩).map
        (storerOf target answers)) (storerOf target answers t) ∧
      ((storerOf target answers t).2.flatten.map LookupResponse.resolver).Nodup) := by
  have hstart := AsksOnce.start (C := C) hinitial target self.toNodeInfo
  constructor
  · obtain ⟨t, ht⟩ := lookup_exits false answers ⟨.new target initial self.toNodeInfo, []⟩
    have hend := hstart.exits hanswers Finset.subset_union_left ht
    exact ⟨t, ht, hend.rounds_le, ht.returns (closingRound answers), hend.closingRound_nodup answers⟩
  · obtain ⟨t, ht⟩ := lookup_exits true answers ⟨.new target initial self.toNodeInfo, []⟩
    have hend := hstart.exits hanswers Finset.subset_union_left ht
    exact ⟨t, ht, hend.rounds_le, ht.returns (storerOf target answers), hend.storerOf_nodup target answers⟩

/-- Everybody lists the second of two contacts. -/
def listSecond : Answers := fun _ c => .ok ⟨.nodes [.local 2 8081], c, .local 0 8081, zeroRequestId⟩

theorem Node.lookups_ask_once_pair : ∃ t,
    Exits (lookupPass false listSecond) ⟨.new (Key.ofTopByte 3 0) [.local 1 8081] (.local 0 8081), []⟩ t ∧
    t.rounds.length ≤ 2 := by
  have hwithin : AnswersWithin {.local 2 8081} listSecond := by
    intro round c r ns ho hr n hn
    cases ho
    cases hr
    exact Finset.mem_singleton.mpr (List.mem_singleton.mp hn)
  obtain ⟨⟨t, ht, hrounds, -⟩, -⟩ := Node.lookups_ask_once
    ⟨(NodeInfo.local 0 8081).id, (NodeInfo.local 0 8081).address, .new (NodeInfo.local 0 8081).id 0⟩ (Key.ofTopByte 3 0)
    (List.nodup_singleton (NodeInfo.local 1 8081)) hwithin
  exact ⟨t, ht, hrounds.trans (Finset.card_union_le _ _)⟩

end P2PFilesystem
