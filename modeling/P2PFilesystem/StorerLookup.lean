import P2PFilesystem.Lookup

/-!
# Value lookups

`Node::find_storer` means to leave its loop once the value is found, but the flag it
tests is the one that means "go on". A round with a value answer is therefore followed
by further rounds as long as a contact is left to ask, and each of them overwrites
`current_responses`.
-/
namespace P2PFilesystem
open LoopFuel

def remainingRound (answers : Answers) (s : LookupRun) : List LookupResponse :=
  lookupRound s.buffer.getUnqueriedResultingNodes true (answers s.rounds.length)

def HasValueAnswer (rs : List LookupResponse) : Prop := ∃ r ∈ rs, r.isValue = true

/-- Whenever the loop is at its top after a round with a value answer and a contact is left
to ask, a later round of the loop or the closing round brings a value answer again. -/
def ValueFoundAgain (answers : Answers) (start : LookupRun) : Prop :=
  ∀ s, Visits (lookupPass true answers) start s → HasValueAnswer (s.rounds.headD []) →
    s.buffer.batch ≠ [] →
    (∃ s', Visits (lookupPass true answers) s s' ∧ HasValueAnswer (nextRound true answers s')) ∨
    (∃ t, Exits (lookupPass true answers) s t ∧ HasValueAnswer (remainingRound answers t))

/-- The condition for a whole call: it is about the lookup only if there is one. -/
def Node.ValueFoundAgain (self : Node) (target : Key) (readChunkOk : Bool) (answers : Answers) : Prop :=
  ∀ initial, readChunkOk = false → self.routingTable.getAlphaClosest target = .ok initial →
    P2PFilesystem.ValueFoundAgain answers ⟨LookupBuffer.new target initial self.toNodeInfo, []⟩

/-- A finished call that heard a value answer returns a node that gave one. -/
def ReturnsStorer (result : Except LookupError NodeInfo) (rounds : List (List LookupResponse)) : Prop :=
  (∃ rs ∈ rounds, HasValueAnswer rs) →
    ∃ storer, result = .ok storer ∧ ∃ rs ∈ rounds, ∃ r ∈ rs, r.isValue = true ∧ r.resolver = storer

theorem not_hasValueAnswer_nil : ¬ HasValueAnswer [] := fun ⟨_, hr, _⟩ => by cases hr

theorem find?_isValue_eq_none {rs : List LookupResponse} :
    rs.find? LookupResponse.isValue = none ↔ ¬ HasValueAnswer rs := by
  rw [List.find?_eq_none]
  exact ⟨fun h ⟨r, hr, hv⟩ => h r hr hv, fun h r hr hv => h ⟨r, hr, hv⟩⟩

theorem hasValueAnswer_iff_any {rs : List LookupResponse} :
    HasValueAnswer rs ↔ rs.any LookupResponse.isValue = true := List.any_eq_true.symm

theorem exits_rounds_head {answers : Answers} {s t : LookupRun} (h : Exits (lookupPass true answers) s t)
    (hbatch : s.buffer.batch ≠ []) :
    ∃ s', Visits (lookupPass true answers) s s' ∧ t.rounds.headD [] = nextRound true answers s' := by
  obtain ⟨u, hu, he⟩ := h
  induction hu with
  | refl s =>
      rcases lookupPass_exit he with ⟨hnil, -⟩ | ⟨-, -, rfl⟩
      · exact absurd hnil hbatch
      · exact ⟨s, .refl s, rfl⟩
  | @step s s1 u hs hu ih =>
      by_cases hb1 : s1.buffer.batch = []
      · obtain ⟨-, hs1⟩ := lookupPass_next hs
        cases hu with
        | refl =>
            rcases lookupPass_exit he with ⟨-, rfl⟩ | ⟨hne, -⟩
            · exact ⟨s, .refl s, by rw [hs1, List.headD_cons]⟩
            · exact absurd hb1 hne
        | step hs' _ => exact absurd hb1 (lookupPass_next hs').1
      · obtain ⟨s', hs', hr⟩ := ih hb1 he
        exact ⟨s', .step hs hs', hr⟩

theorem mem_of_mem_headD {rounds : List (List LookupResponse)} {r : LookupResponse}
    (h : r ∈ rounds.headD []) : rounds.headD [] ∈ rounds := by
  cases rounds with
  | nil => cases h
  | cons rs older => exact List.mem_cons_self

theorem storerOf_cases (target : Key) (answers : Answers) (t : LookupRun) :
    (∃ r ∈ t.rounds.headD [], r.isValue = true ∧
      Node.storerOf target answers t = (.ok r.resolver, t.rounds)) ∨
    ¬ HasValueAnswer (t.rounds.headD []) ∧
      ((∃ r ∈ remainingRound answers t, r.isValue = true ∧
          Node.storerOf target answers t = (.ok r.resolver, remainingRound answers t :: t.rounds)) ∨
        ¬ HasValueAnswer (remainingRound answers t) ∧
          ∃ e rounds, Node.storerOf target answers t = (.error e, rounds) ∧
            (rounds = t.rounds ∨ rounds = remainingRound answers t :: t.rounds)) := by
  unfold Node.storerOf
  dsimp only
  cases hf : (t.rounds.headD []).find? LookupResponse.isValue with
  | some r => exact .inl ⟨r, List.mem_of_find?_eq_some hf, List.find?_some hf, rfl⟩
  | none =>
      refine .inr ⟨find?_isValue_eq_none.mp hf, ?_⟩
      dsimp only
      by_cases hnil : t.buffer.getUnqueriedResultingNodes = []
      · have hno : remainingRound answers t = [] := by rw [remainingRound, hnil, lookupRound_nil]
        rw [if_pos (List.isEmpty_iff.mpr hnil), hno]
        exact .inr ⟨not_hasValueAnswer_nil, _, _, rfl, .inl rfl⟩
      · rw [if_neg fun he => hnil (List.isEmpty_iff.mp he)]
        unfold remainingRound
        cases hf' : (lookupRound t.buffer.getUnqueriedResultingNodes true
            (answers t.rounds.length)).find? LookupResponse.isValue with
        | some r => exact .inl ⟨r, List.mem_of_find?_eq_some hf', List.find?_some hf', rfl⟩
        | none => exact .inr ⟨find?_isValue_eq_none.mp hf', _, _, rfl, .inr rfl⟩

theorem returnsStorer_storerOf_iff (target : Key) (answers : Answers) (t : LookupRun) :
    ReturnsStorer (Node.storerOf target answers t).1 (Node.storerOf target answers t).2 ↔
      ((∃ rs ∈ t.rounds, HasValueAnswer rs) →
        HasValueAnswer (t.rounds.headD []) ∨ HasValueAnswer (remainingRound answers t)) := by
  rcases storerOf_cases target answers t with ⟨r, hr, hv, he⟩ | ⟨hno, ⟨r, hr, hv, he⟩ | ⟨hno', e, rounds, he, hrounds⟩⟩
  · rw [he]
    exact iff_of_true (fun _ => ⟨r.resolver, rfl, _, mem_of_mem_headD hr, r, hr, hv, rfl⟩)
      fun _ => .inl ⟨r, hr, hv⟩
  · rw [he]
    exact iff_of_true (fun _ => ⟨r.resolver, rfl, _, List.mem_cons_self, r, hr, hv, rfl⟩)
      fun _ => .inr ⟨r, hr, hv⟩
  · rw [he]
    constructor
    · rintro h ⟨rs, hrs, hv⟩
      have hmem : rs ∈ rounds := by
        rcases hrounds with rfl | rfl
        · exact hrs
        · exact List.mem_cons_of_mem _ hrs
      obtain ⟨storer, hok, -⟩ := h ⟨rs, hmem, hv⟩
      cases hok
    · rintro h ⟨rs, hrs, hv⟩
      have hmem : rs ∈ t.rounds := by
        rcases hrounds with rfl | rfl
        · exact hrs
        · rcases List.mem_cons.mp hrs with rfl | hold
          · exact absurd hv hno'
          · exact hold
      exact absurd (h ⟨rs, hmem, hv⟩) (not_or.mpr ⟨hno, hno'⟩)

/-- If the loop ends without a value in its newest round and the closing round brings none,
either some value was found and lost on the way or no round from here on has one. -/
theorem lost_or_quiet {answers : Answers} {s t u : LookupRun} (hu : Visits (lookupPass true answers) s u)
    (he : lookupPass true answers u = .exit t) (hhead : ¬ HasValueAnswer (t.rounds.headD []))
    (hclosing : ¬ HasValueAnswer (remainingRound answers t)) :
    ¬ ValueFoundAgain answers s ∨
      ∀ s', Visits (lookupPass true answers) s s' → ¬ HasValueAnswer (nextRound true answers s') := by
  induction hu with
  | refl s =>
      right
      intro s' hs'
      cases hs' with
      | refl =>
          rcases lookupPass_exit he with ⟨hnil, -⟩ | ⟨-, -, rfl⟩
          · rw [nextRound, hnil, lookupRound_nil]
            exact not_hasValueAnswer_nil
          · exact hhead
      | step hs _ => rw [he] at hs; cases hs
  | @step s s1 u hs hu ih =>
      rcases ih he with hlost | hquiet
      · exact .inl fun h => hlost fun s' hs' => h s' (.step hs hs')
      · by_cases hv : HasValueAnswer (nextRound true answers s)
        · left
          intro h
          have hhead1 : s1.rounds.headD [] = nextRound true answers s := by
            rw [(lookupPass_next hs).2, List.headD_cons]
          have hbatch : s1.buffer.batch ≠ [] := by
            intro hnil
            cases hu with
            | refl =>
                rcases lookupPass_exit he with ⟨-, rfl⟩ | ⟨hne, -⟩
                · exact hhead (hhead1 ▸ hv)
                · exact hne hnil
            | step hs1 _ => exact (lookupPass_next hs1).1 hnil
          rcases h s1 (.step hs (.refl s1)) (hhead1 ▸ hv) hbatch with ⟨s', hs', hv'⟩ | ⟨t', ht', hv'⟩
          · exact hquiet s' hs' hv'
          · rw [Exits.unique ht' ⟨u, hu, he⟩] at hv'
            exact hclosing hv'
        · right
          intro s' hs'
          cases hs' with
          | refl => exact hv
          | step hs' hv' =>
              rw [hs] at hs'
              cases hs'
              exact hquiet s' hv'

theorem valueFoundAgain_iff {answers : Answers} {start t : LookupRun} (hstart : start.rounds = [])
    (ht : Exits (lookupPass true answers) start t) :
    ((∃ rs ∈ t.rounds, HasValueAnswer rs) →
        HasValueAnswer (t.rounds.headD []) ∨ HasValueAnswer (remainingRound answers t)) ↔
      ValueFoundAgain answers start := by
  constructor
  · intro h s hs hv hbatch
    by_contra hno
    rw [not_or] at hno
    obtain ⟨hloop, hclosing⟩ := hno
    have hst := Exits.of_visits hs ht
    obtain ⟨s', hs', hhead⟩ := exits_rounds_head hst hbatch
    obtain ⟨r, hr, hrv⟩ := hv
    rcases h ⟨_, exits_rounds_subset hst (mem_of_mem_headD hr), r, hr, hrv⟩ with hv' | hv'
    · exact hloop ⟨s', hs', hhead ▸ hv'⟩
    · exact hclosing ⟨t, hst, hv'⟩
  · rintro h ⟨rs, hrs, hv⟩
    by_contra hno
    rw [not_or] at hno
    obtain ⟨u, hu, he⟩ := ht
    rcases lost_or_quiet hu he hno.1 hno.2 with hlost | hquiet
    · exact hlost h
    · rcases exits_rounds_mem ⟨u, hu, he⟩ hrs with hold | ⟨s', hs', rfl⟩
      · rw [hstart] at hold
        cases hold
      · exact hquiet s' hs' hv

/-- `find_storer` always returns, and it returns a storer whenever it heard of one exactly
when every value answer that did not end the search was followed by another. -/
theorem findStorer_returnsStorer_iff (self : Node) (target : Key) (readChunkOk : Bool) (answers : Answers) :
    ∃ result rounds, Returns (self.findStorer target readChunkOk answers) (result, rounds) ∧
      (ReturnsStorer result rounds ↔ self.ValueFoundAgain target readChunkOk answers) := by
  have hnone : ∀ result, ReturnsStorer result [] := by
    rintro result ⟨rs, hrs, -⟩
    cases hrs
  cases hread : readChunkOk with
  | true => exact ⟨_, _, ⟨0, fun _ _ => rfl⟩, iff_of_true (hnone _) fun _ h => by cases h⟩
  | false =>
      cases hinit : self.routingTable.getAlphaClosest target with
      | error e =>
          refine ⟨.error (.routingTable e), [], ⟨0, fun _ _ => ?_⟩, iff_of_true (hnone _) fun _ _ h => ?_⟩
          · simp only [Node.findStorer, hinit, Bool.false_eq_true, if_false]
          · rw [hinit] at h; cases h
      | ok initial =>
          obtain ⟨t, ht⟩ := lookup_exits true answers
            ⟨LookupBuffer.new target initial self.toNodeInfo, []⟩
          have hiff : ReturnsStorer (Node.storerOf target answers t).1 (Node.storerOf target answers t).2 ↔
              self.ValueFoundAgain target false answers := by
            rw [returnsStorer_storerOf_iff, valueFoundAgain_iff rfl ht]
            refine ⟨fun h initial' _ hi => ?_, fun h => h initial rfl hinit⟩
            rw [hinit] at hi
            cases hi
            exact h
          by_cases hempty : initial = []
          · refine ⟨.error (.bail "No initial resolvers available for find_value resolutions".toList), [],
              ⟨0, fun _ _ => ?_⟩, ?_⟩
            · simp only [Node.findStorer, hinit, hempty, Bool.false_eq_true, if_false, List.isEmpty_nil, if_true]
            · subst hempty
              have hexit : t = ⟨LookupBuffer.new target [] self.toNodeInfo, []⟩ :=
                Exits.unique ht ⟨_, .refl _, rfl⟩
              rw [← hiff, returnsStorer_storerOf_iff]
              refine iff_of_true (hnone _) ?_
              rintro ⟨rs, hrs, -⟩
              rw [hexit] at hrs
              cases hrs
          · refine ⟨_, _, ?_, hiff⟩
            have hcall : self.findStorer target false answers = fun fuel =>
                (runLoop (lookupPass true answers) fuel
                  ⟨LookupBuffer.new target initial self.toNodeInfo, []⟩).map (Node.storerOf target answers) := by
              funext fuel
              simp only [Node.findStorer, hinit, Bool.false_eq_true, if_false,
                if_neg (fun h : initial.isEmpty = true => hempty (List.isEmpty_iff.mp h))]
            rw [hcall]
            exact ht.returns (Node.storerOf target answers)

/-- Three contacts in the target's bucket; the first answers with a further contact, the
second has the value, everybody else is silent. -/
def forgetfulNode : Node where
  key := Key.ofTopByte 0 0
  address := SocketAddr.localhost 8000
  routingTable := (RoutingTable.new (Key.ofTopByte 0 0) 0).storeAll
    ([0x81, 0x82, 0x84].map fun b => (NodeInfo.local b 8080, fun _ => .error .responseTimeout))

def forgetfulAnswers : Answers := fun _ c =>
  let reply := fun type => Response.mk type c forgetfulNode.toNodeInfo zeroRequestId
  if c = NodeInfo.local 0x81 8080 then .ok (reply (.nodes [NodeInfo.local 0x88 8080]))
  else if c = NodeInfo.local 0x82 8080 then .ok (reply (.hasValue (Key.ofTopByte 0x80 0)))
  else .error .responseTimeout

theorem findStorer_forgets_value :
    ¬ ∀ fuel result rounds,
      forgetfulNode.findStorer (Key.ofTopByte 0x80 0) false forgetfulAnswers fuel = some (result, rounds) →
      ReturnsStorer result rounds := by
  intro h
  have hresult : (forgetfulNode.findStorer (Key.ofTopByte 0x80 0) false forgetfulAnswers 3).map
      (fun r => (r.1.toOption, r.2.any (·.any LookupResponse.isValue))) = some (none, true) := by
    decide +kernel
  obtain ⟨⟨result, rounds⟩, hrun, hr⟩ := Option.map_eq_some_iff.mp hresult
  obtain ⟨hnone, hvalue⟩ := Prod.mk.inj hr
  obtain ⟨rs, hrs, hv⟩ := List.any_eq_true.mp hvalue
  obtain ⟨storer, rfl, -⟩ := h 3 result rounds hrun ⟨rs, hrs, hasValueAnswer_iff_any.mpr hv⟩
  cases hnone

end P2PFilesystem
