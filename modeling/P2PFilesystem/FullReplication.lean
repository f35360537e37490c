import P2PFilesystem.ClosestFirst
import P2PFilesystem.Mesh
import P2PFilesystem.NetworkStorer

/-!
# Chunks that are replicated in full

`find_storer` forgets a value answer if its loop goes on after it. In a mesh of at most
`2 * ALPHA + 1` nodes it still finds an owner if as many other nodes own the chunk as the first
round asks: either the first to answer is an owner and brings no new contact, or all other
nodes are known after that round, and the owners left are asked in the next.
-/
namespace P2PFilesystem
open LoopFuel LookupBuffer

section Buffers
variable {b : LookupBuffer} {answers : Answers} {s : LookupRun}

theorem LookupBuffer.behind_eq_nil {line : List NodeInfo} (h : line.length ≤ alpha) : behind line = [] := by
  refine List.filter_eq_nil_iff.mpr fun c hc hbehind => ?_
  rw [List.take_of_length_le h] at hbehind
  exact of_decide_eq_true hbehind (List.mem_map_of_mem hc)

theorem LookupBuffer.batch_of_length_le (h : b.unqueriedContacts.length ≤ alpha) : b.batch = b.unqueriedContacts :=
  List.take_of_length_le h

theorem LookupBuffer.failsIn_of_gaveNodes {rs : List LookupResponse} (h : ∀ r ∈ rs, r.gaveNodes = true) (c : NodeInfo) :
    failsIn rs c = false :=
  List.any_eq_false.mpr fun r hr => by simp [h r hr]

/-- If nobody fails, the newcomers are the contacts that somebody lists and nobody knew. -/
theorem LookupBuffer.mem_newcomers {rs : List LookupResponse} (h : ∀ r ∈ rs, r.gaveNodes = true)
    (known : List NodeInfo) {c : NodeInfo} :
    c ∈ newcomers known rs ↔ c ∉ known ∧ ∃ r ∈ rs, c ∈ r.kClosest := by
  induction rs generalizing known with
  | nil => simp [newcomers]
  | cons r rs ih =>
      have hrest : ∀ q ∈ rs, q.gaveNodes = true := fun q hq => h q (List.mem_cons_of_mem r hq)
      rw [newcomers, if_pos (h r List.mem_cons_self), List.mem_append, ih hrest, List.mem_filter,
        failsIn_of_gaveNodes hrest, List.mem_append, mem_unknownOf]
      simp only [Bool.not_false, and_true, List.exists_mem_cons_iff]
      tauto

theorem LookupBuffer.mem_unqueriedContacts_sort (b : LookupBuffer) {c : NodeInfo} :
    c ∈ b.sort.unqueriedContacts ↔ c ∈ b.unqueriedContacts :=
  ((b.sort_perm.filter _).map LookupNodeInfo.nodeInfo).mem_iff

/-- Who is left to ask after a round in which nobody failed. -/
theorem mem_unqueriedContacts_next (hgave : ∀ r ∈ heard true (nextRound true answers s), r.gaveNodes = true) (c : NodeInfo) :
    c ∈ (nextBuffer true answers s).2.unqueriedContacts ↔ c ∈ behind s.buffer.unqueriedContacts ∨
      c ∉ s.buffer.thisNode :: s.buffer.contacts ∧ ∃ r ∈ heard true (nextRound true answers s), c ∈ r.kClosest := by
  refine record_of_recordResponses (I := fun b => c ∈ b.unqueriedContacts ↔ c ∈ behind s.buffer.unqueriedContacts ∨
      c ∉ s.buffer.thisNode :: s.buffer.contacts ∧ ∃ r ∈ heard true (nextRound true answers s), c ∈ r.kClosest)
    (fun b hb => b.mem_unqueriedContacts_sort.trans hb) ?_
  rw [unqueriedContacts_recordResponses, unqueriedContacts_markBatch, contacts_markBatch, List.mem_append, List.mem_filter,
    failsIn_of_gaveNodes hgave, mem_newcomers hgave]
  simp only [Bool.not_false, and_true]
  rfl

/-- The search from here ends with somebody. -/
def LookupRun.Finds (answers : Answers) (s : LookupRun) : Prop :=
  ∃ t, Exits (lookupPass true answers) s t ∧
    (HasValueAnswer (t.rounds.headD []) ∨ HasValueAnswer (remainingRound answers t))

/-- A round that asks all that are left, brings a value answer and nobody new is the last one. -/
theorem LookupRun.finds_of_value (hfew : s.buffer.unqueriedContacts.length ≤ alpha)
    (hvalue : HasValueAnswer (nextRound true answers s))
    (hgave : ∀ r ∈ heard true (nextRound true answers s), r.gaveNodes = true)
    (hknown : ∀ r ∈ heard true (nextRound true answers s), r.kClosest ⊆ s.buffer.thisNode :: s.buffer.contacts) :
    s.Finds answers := by
  have hnobody : (nextBuffer true answers s).2.unqueriedContacts = [] := by
    refine List.eq_nil_iff_forall_not_mem.mpr fun c hc => ?_
    rcases (mem_unqueriedContacts_next hgave c).mp hc with hleft | ⟨hnew, r, hr, hlisted⟩
    · rw [behind_eq_nil hfew] at hleft
      cases hleft
    · exact hnew (hknown r hr hlisted)
  have hbatch : (nextBuffer true answers s).2.batch = [] := by
    rw [batch_of_length_le (by rw [hnobody]; exact Nat.zero_le _), hnobody]
  have hexit : Exits (lookupPass true answers) s
      ⟨(nextBuffer true answers s).2, nextRound true answers s :: s.rounds⟩ := by
    refine ⟨_, .step (lookupPass_of_value hvalue) (.refl _), ?_⟩
    rcases lookupPass_cases true answers ⟨(nextBuffer true answers s).2, nextRound true answers s :: s.rounds⟩ with
      ⟨-, hpass⟩ | ⟨hne, -⟩
    · exact hpass
    · exact absurd hbatch hne
  exact ⟨_, hexit, .inl hvalue⟩

end Buffers

/-- Of these contacts the owners of a chunk answer with the value, and whoever answers otherwise
lists everybody but itself. -/
structure Shared (contacts owners : List NodeInfo) (me : NodeInfo) (answers : Answers) : Prop where
  owners_subset : owners ⊆ contacts
  value : ∀ round, ∀ c ∈ owners, (singleLookup c true (answers round c)).isValue = true
  listed : ∀ round, ∀ c ∈ contacts, (singleLookup c true (answers round c)).isValue = false →
    (singleLookup c true (answers round c)).gaveNodes = true ∧
      ∀ d, d ∈ (singleLookup c true (answers round c)).kClosest ↔ d ≠ c ∧ (d ∈ contacts ∨ d = me)

namespace Shared
variable {contacts owners : List NodeInfo} {me : NodeInfo} {answers : Answers} {s : LookupRun}
  (h : Shared contacts owners me answers)
include h

theorem hasValueAnswer {c : NodeInfo} (hc : c ∈ s.buffer.batch) (howner : c ∈ owners) :
    HasValueAnswer (nextRound true answers s) :=
  ⟨_, List.mem_map_of_mem hc, h.value _ c howner⟩

section Batch
variable (hbatch : s.buffer.batch ⊆ contacts)
include hbatch

/-- A response before the first value lists everybody but its sender. -/
theorem of_heard {r : LookupResponse} (hr : r ∈ heard true (nextRound true answers s)) :
    r.gaveNodes = true ∧ ∀ d ∈ r.kClosest, d ∈ contacts ∨ d = me := by
  obtain ⟨c, hc, rfl⟩ := List.mem_map.mp (heard_subset true _ hr)
  have hquiet : (singleLookup c true (answers s.rounds.length c)).isValue = false := by
    simpa using List.mem_takeWhile_imp hr
  obtain ⟨hgave, hlisted⟩ := h.listed _ c (hbatch hc) hquiet
  exact ⟨hgave, fun d hd => ((hlisted d).mp hd).2⟩

theorem contacts_next (hthis : s.buffer.thisNode = me) (hsub : s.buffer.contacts ⊆ contacts) :
    (nextBuffer true answers s).2.thisNode = me ∧ (nextBuffer true answers s).2.contacts ⊆ contacts := by
  refine record_of_recordResponses (I := fun b => b.thisNode = me ∧ b.contacts ⊆ contacts)
    (fun b hb => ⟨hb.1, fun c hc => hb.2 (mem_contacts_sort.mp hc)⟩) ⟨?_, fun c hc => ?_⟩
  · exact (recordResponses_thisNode true _ _).trans hthis
  · rcases mem_recordResponses true _ _ hc with hold | ⟨hne, r, hr, hgave, hlisted⟩
    · rw [contacts_markBatch] at hold
      exact hsub hold
    · obtain ⟨d, hd, rfl⟩ := List.mem_map.mp hr
      simp only [LookupResponse.gaveNodes, Bool.and_eq_true, Bool.not_eq_true'] at hgave
      have hpart := (((h.listed _ d (hbatch hd) hgave.2).2 c).mp hlisted).2
      exact hpart.resolve_right fun hcme => hne (hcme.trans hthis.symm)

/-- If the first answer of a round is no value, all others are known afterwards. -/
theorem mem_unqueriedContacts_next (hfew : s.buffer.unqueriedContacts.length ≤ alpha) (hthis : s.buffer.thisNode = me)
    (hme : me ∉ contacts) {c : NodeInfo} {rest : List NodeInfo} (hfirst : s.buffer.batch = c :: rest)
    (hquiet : (singleLookup c true (answers s.rounds.length c)).isValue = false) (hmem : c ∈ s.buffer.contacts)
    (d : NodeInfo) :
    d ∈ (nextBuffer true answers s).2.unqueriedContacts ↔ d ∈ contacts ∧ d ∉ s.buffer.contacts := by
  rw [P2PFilesystem.mem_unqueriedContacts_next fun r hr => (h.of_heard hbatch hr).1, behind_eq_nil hfew, hthis,
    List.mem_cons]
  have hcontact : c ∈ contacts := hbatch (hfirst ▸ List.mem_cons_self)
  constructor
  · rintro (hnone | ⟨hnew, r, hr, hlisted⟩)
    · cases hnone
    · rw [not_or] at hnew
      exact ⟨((h.of_heard hbatch hr).2 d hlisted).resolve_right hnew.1, hnew.2⟩
  · rintro ⟨hd, hnew⟩
    refine .inr ⟨not_or.mpr ⟨fun hdme => hme (hdme ▸ hd), hnew⟩, singleLookup c true (answers s.rounds.length c), ?_, ?_⟩
    · rw [nextRound, hfirst, lookupRound, List.map_cons, heard, List.takeWhile_cons_of_pos (by simpa using hquiet)]
      exact List.mem_cons_self
    · exact ((h.listed _ c hcontact hquiet).2 d).mpr ⟨fun hdc => hnew (hdc ▸ hmem), .inl hd⟩

/-- A round that asks all that are left, an owner among them, is the last one if everybody is known. -/
theorem finds_of_owner (hfew : s.buffer.unqueriedContacts.length ≤ alpha) (hthis : s.buffer.thisNode = me)
    (hall : contacts ⊆ s.buffer.contacts) {o : NodeInfo} (ho : o ∈ s.buffer.unqueriedContacts) (howner : o ∈ owners) :
    s.Finds answers := by
  refine LookupRun.finds_of_value hfew ?_ (fun r hr => (h.of_heard hbatch hr).1) fun r hr d hd => ?_
  · exact h.hasValueAnswer (by rwa [batch_of_length_le hfew]) howner
  · rcases (h.of_heard hbatch hr).2 d hd with hd | rfl
    · exact List.mem_cons_of_mem _ (hall hd)
    · rw [hthis]
      exact List.mem_cons_self

end Batch
end Shared

theorem LookupBuffer.unqueriedContacts_new (target : Key) (initial : List NodeInfo) (me : NodeInfo) :
    (LookupBuffer.new target initial me).unqueriedContacts = (LookupBuffer.new target initial me).contacts := by
  unfold unqueriedContacts contacts
  rw [List.filter_eq_self.mpr fun e he => ?_]
  obtain ⟨c, -, rfl⟩ := List.mem_map.mp ((sort_perm _).mem_iff.mp he)
  rfl

theorem LookupBuffer.mem_unqueriedResultingNodes {b : LookupBuffer} (hfew : b.contacts.length ≤ K) {c : NodeInfo}
    (hc : c ∈ b.unqueriedContacts) : c ∈ b.getUnqueriedResultingNodes := by
  rw [contacts, List.length_map] at hfew
  rwa [getUnqueriedResultingNodes, List.take_of_length_le hfew]

/-- The state in which a search starts that first asks as many of the contacts as it can. -/
structure Starting (contacts : List NodeInfo) (me : NodeInfo) (s : LookupRun) : Prop where
  thisNode_eq : s.buffer.thisNode = me
  unqueried_eq : s.buffer.unqueriedContacts = s.buffer.contacts
  subset : s.buffer.contacts ⊆ contacts
  nodup : s.buffer.contacts.Nodup
  length_eq : s.buffer.contacts.length = min alpha contacts.length

theorem Starting.new (target : Key) {contacts initial : List NodeInfo} (me : NodeInfo) (hinitial : initial ⊆ contacts)
    (hnd : initial.Nodup) (hlength : initial.length = min alpha contacts.length) :
    Starting contacts me (lookupStart target initial me) := by
  have hperm := contacts_new_perm target initial me
  exact ⟨rfl, unqueriedContacts_new target initial me, fun c hc => hinitial (hperm.mem_iff.mp hc), hperm.nodup_iff.mpr hnd,
    hperm.length_eq.trans hlength⟩

namespace Starting
variable {contacts owners : List NodeInfo} {me : NodeInfo} {answers : Answers} {s : LookupRun}
  (hs : Starting contacts me s) (h : Shared contacts owners me answers)
include hs

theorem few : s.buffer.unqueriedContacts.length ≤ alpha := by
  rw [hs.unqueried_eq, hs.length_eq]
  exact Nat.min_le_left _ _

theorem batch_eq : s.buffer.batch = s.buffer.contacts := (batch_of_length_le hs.few).trans hs.unqueried_eq

theorem batch_subset : s.buffer.batch ⊆ contacts := hs.batch_eq ▸ hs.subset

include h

/-- If the first answer is the value, nobody else is asked. -/
theorem finds_of_first {c : NodeInfo} {rest : List NodeInfo} (hfirst : s.buffer.batch = c :: rest)
    (hvalue : (singleLookup c true (answers s.rounds.length c)).isValue = true) : s.Finds answers := by
  have hround : nextRound true answers s = singleLookup c true (answers s.rounds.length c) ::
      lookupRound rest true (answers s.rounds.length) := by
    rw [nextRound, hfirst]
    rfl
  have hheard : heard true (nextRound true answers s) = [] := by
    rw [hround, heard, List.takeWhile_cons_of_neg (by simp [hvalue])]
  refine LookupRun.finds_of_value hs.few ⟨_, hround ▸ List.mem_cons_self, hvalue⟩ ?_ ?_
  · exact fun r hr => (h.of_heard hs.batch_subset hr).1
  · intro r hr
    rw [hheard] at hr
    cases hr

/-- As many owners as contacts asked, one of whom does not own the chunk: some owner is not asked. -/
theorem exists_owner_left (hownersnd : owners.Nodup) (howners : min alpha contacts.length ≤ owners.length) {c : NodeInfo}
    (hc : c ∈ s.buffer.contacts) (hquiet : (singleLookup c true (answers s.rounds.length c)).isValue = false) :
    ∃ o ∈ owners, o ∉ s.buffer.contacts := by
  by_contra hnone
  have hall : ∀ o ∈ owners, o ∈ s.buffer.contacts := fun o ho => by_contra fun hleft => hnone ⟨o, ho, hleft⟩
  have hsub : owners ⊆ s.buffer.contacts.erase c := by
    intro o ho
    refine (List.mem_erase_of_ne fun hoc => ?_).mpr (hall o ho)
    rw [← hoc, h.value _ o ho] at hquiet
    cases hquiet
  have hlength := (hownersnd.subperm hsub).length_le
  rw [List.length_erase_of_mem hc, hs.length_eq] at hlength
  have hpos := List.length_pos_of_mem hc
  rw [hs.length_eq] at hpos
  omega

/-- Otherwise all others are known after the first round, and an owner among them is asked next. -/
theorem finds_of_rest (hme : me ∉ contacts) (hsmall : contacts.length ≤ 2 * alpha) (hownersnd : owners.Nodup)
    (howners : min alpha contacts.length ≤ owners.length) {c : NodeInfo} {rest : List NodeInfo}
    (hfirst : s.buffer.batch = c :: rest)
    (hquiet : (singleLookup c true (answers s.rounds.length c)).isValue = false) : s.Finds answers := by
  have hc : c ∈ s.buffer.contacts := hs.batch_eq ▸ hfirst ▸ List.mem_cons_self
  obtain ⟨o, howner, hleft⟩ := hs.exists_owner_left h hownersnd howners hc hquiet
  have hrest := h.mem_unqueriedContacts_next hs.batch_subset hs.few hs.thisNode_eq hme hfirst hquiet hc
  have ho := (hrest o).mpr ⟨h.owners_subset howner, hleft⟩
  obtain ⟨hthis, hsub⟩ := h.contacts_next hs.batch_subset hs.thisNode_eq hs.subset
  have hnd : (nextBuffer true answers s).2.contacts.Nodup := nodup_nextBuffer hs.nodup answers
  have hfew : (nextBuffer true answers s).2.unqueriedContacts.length ≤ alpha := by
    have hparts : (s.buffer.contacts ++ (nextBuffer true answers s).2.unqueriedContacts).Nodup := by
      refine List.nodup_append'.mpr ⟨hs.nodup, hnd.sublist (List.filter_sublist.map _), fun d hd hd' => ?_⟩
      exact ((hrest d).mp hd').2 hd
    have htogether := (hparts.subperm fun d hd => (List.mem_append.mp hd).elim (fun hd => hs.subset hd) fun hd =>
      ((hrest d).mp hd).1).length_le
    rw [List.length_append, hs.length_eq] at htogether
    omega
  have hbatch : (nextBuffer true answers s).2.batch ⊆ contacts := by
    rw [batch_of_length_le hfew]
    exact fun d hd => ((hrest d).mp hd).1
  have hall : contacts ⊆ (nextBuffer true answers s).2.contacts := by
    intro d hd
    by_cases hold : d ∈ s.buffer.contacts
    · refine contacts_subset_record true _ _ ?_
      rwa [contacts_markBatch]
    · exact (List.filter_sublist.map _).subset ((hrest d).mpr ⟨hd, hold⟩)
  rcases lookupPass_cases true answers s with ⟨hnil, -⟩ | ⟨-, ⟨-, hnext⟩ | ⟨-, hexit⟩⟩
  · rw [hfirst] at hnil
    cases hnil
  · obtain ⟨t, ⟨u, hu, he⟩, hfound⟩ :=
      h.finds_of_owner (s := ⟨_, nextRound true answers s :: s.rounds⟩) hbatch hfew hthis
      hall ho howner
    exact ⟨t, ⟨u, .step hnext hu, he⟩, hfound⟩
  · refine ⟨_, ⟨s, .refl s, hexit⟩, .inr ⟨_, List.mem_map_of_mem ?_, h.value _ o howner⟩⟩
    refine mem_unqueriedResultingNodes (((hnd.subperm hsub).length_le.trans hsmall).trans ?_) ho
    decide

/-- The search ends with an owner. -/
theorem finds (hme : me ∉ contacts) (hne : contacts ≠ []) (hsmall : contacts.length ≤ 2 * alpha) (hownersnd : owners.Nodup)
    (howners : min alpha contacts.length ≤ owners.length) : s.Finds answers := by
  have hpos := List.length_pos_of_ne_nil hne
  obtain ⟨c, rest, hfirst⟩ : ∃ c rest, s.buffer.batch = c :: rest := by
    refine List.exists_cons_of_length_pos ?_
    rw [hs.batch_eq, hs.length_eq]
    exact lt_min (by decide) hpos
  cases hvalue : (singleLookup c true (answers s.rounds.length c)).isValue with
  | true => exact hs.finds_of_first h hfirst hvalue
  | false => exact hs.finds_of_rest h hme hsmall hownersnd howners hfirst hvalue

end Starting

/-- A call whose search ends with somebody returns it. -/
theorem Node.findStorer_of_finds (self : Node) {target : Key} {initial : List NodeInfo} {answers : Answers}
    (hinit : self.routingTable.getAlphaClosest target = .ok initial) (hne : initial ≠ [])
    (hfinds : (lookupStart target initial self.toNodeInfo).Finds answers) :
    ∃ n rounds, Returns (self.findStorer target false answers) (.ok n, rounds) := by
  obtain ⟨t, hexits, hfound⟩ := hfinds
  have hcall : self.findStorer target false answers = fun fuel =>
      (runLoop (lookupPass true answers) fuel (lookupStart target initial self.toNodeInfo)).map
        (Node.storerOf target answers) := by
    funext fuel
    simp only [Node.findStorer, hinit, List.isEmpty_eq_false_iff.mpr hne, Bool.false_eq_true, if_false]
    rfl
  have hreturns := hexits.returns (Node.storerOf target answers)
  rw [← hcall] at hreturns
  rcases storerOf_cases target answers t with ⟨r, -, -, heq⟩ | ⟨hnone, ⟨r, -, -, heq⟩ | ⟨hlast, -⟩⟩
  · rw [heq] at hreturns
    exact ⟨_, _, hreturns⟩
  · rw [heq] at hreturns
    exact ⟨_, _, hreturns⟩
  · exact absurd hfound (not_or.mpr ⟨hnone, hlast⟩)

section Requests
variable {me n : NodeInfo} {target : Key} {t : Transit} {net : PeerNetwork} {response : Response}

/-- A request is answered with this response exactly if it reaches the node and is heard, its
handler gives this response, and the response is short enough. -/
theorem sendLookupRequest_ok_iff (type : RequestType) :
    (sendLookupRequest me type n t net).1 = .ok response ↔ t.Answered me n ∧
      ((net.peer n).handle ⟨type, me, n, t.requestId⟩ t.env none).1 = some response ∧
      ∃ text, sendResponse true response = .ok text := by
  have hreply := sendRequestAndWait_reply me n type t none net
  rw [← and_assoc, ← hreply, sendLookupRequest]
  dsimp only
  cases houtcome : (sendRequestAndWait me type n t none net).1 with
  | error e => simp
  | ok r =>
      dsimp only
      cases hsend : sendResponse true r with
      | error e =>
          refine iff_of_false (by simp) ?_
          rintro ⟨heq, text, htext⟩
          cases heq
          rw [hsend] at htext
          cases htext
      | ok text =>
          refine ⟨fun heq => ?_, And.left⟩
          cases heq
          exact ⟨rfl, text, hsend⟩

/-- A node that owns the chunk says so. -/
theorem answer_of_owned (hanswered : t.Answered me n) (howned : (net.peer n).storage.isChunkAlreadyStored target = true) :
    (sendLookupRequest me (.findValue target) n t net).1 = .ok ⟨.hasValue target, n, me, t.requestId⟩ := by
  refine (sendLookupRequest_ok_iff _).mpr ⟨hanswered, ?_, _, sendResponse_ok trivial⟩
  rw [PeerNetwork.handle_findValue_reply, if_pos howned]

/-- A node that does not own it answers as it does to `FIND_NODE`. -/
theorem answer_of_not_owned (howned : ¬ (net.peer n).storage.isChunkAlreadyStored target = true)
    (h : (sendLookupRequest me (.findNode target) n t net).1 = .ok response) :
    (sendLookupRequest me (.findValue target) n t net).1 = .ok response := by
  obtain ⟨hanswered, hhandle, hsent⟩ := (sendLookupRequest_ok_iff _).mp h
  refine (sendLookupRequest_ok_iff _).mpr ⟨hanswered, ?_, hsent⟩
  rw [PeerNetwork.handle_findValue_reply, if_neg howned]
  exact hhandle

end Requests

/-- The network is visited, and these nodes own the chunk. -/
structure Holding (members owners : List NodeInfo) (me : NodeInfo) (target : Key) (net : PeerNetwork) : Prop where
  visited : Visited members me net
  owned : ∀ c ∈ owners, (net.peer c).storage.isChunkAlreadyStored target = true

namespace Inquiry
variable {r : Roster} {members owners : List NodeInfo} {me : NodeInfo} {net : PeerNetwork} {traffic : Traffic} {target : Key}
  {answers : Answers} (h : Inquiry r members me target traffic)
  (hothers : ∀ round net, Holding members owners me target net → Holding members owners me target (traffic.others round net))
include h hothers

theorem keptHolding (forValue : Bool) : KeptInLookup me target forValue traffic (Holding members owners me target) where
  others := hothers
  request := by
    intro round c net hnet
    refine ⟨h.request hnet.visited, fun n hn => ?_⟩
    have hkeeps : KeepsStorage net.peer net := fun n => ⟨rfl, rfl, rfl, fun _ => Iff.rfl⟩
    exact ((hkeeps.request me c _ _).owns_iff n target).mpr (hnet.owned n hn)

/-- How the other members answer a search for the chunk. -/
theorem shared (howners : owners ⊆ members.filter (· ≠ me))
    (hfrom : ComeFrom me target true traffic (Holding members owners me target) answers) :
    Shared (members.filter (· ≠ me)) owners me answers where
  owners_subset := howners
  value := by
    intro round c hc
    obtain ⟨net, hnet, hround⟩ := hfrom round
    obtain ⟨hmember, hne⟩ := List.mem_filter.mp (howners hc)
    have hok := answer_of_owned (h.answered round c hmember (of_decide_eq_true hne)) ((hothers round net hnet).owned c hc)
    rw [hround, answerIn, lookupRequest, if_pos rfl, hok]
    rfl
  listed := by
    intro round c hc hquiet
    obtain ⟨net, hnet, hround⟩ := hfrom round
    obtain ⟨hmember, hne⟩ := List.mem_filter.mp hc
    have hne := of_decide_eq_true hne
    have hanswered := h.answered round c hmember hne
    have hvisited := (hothers round net hnet).visited
    have hid : c.id ≠ me.id := fun hid => hne (r.oneAddress c me (h.members_subset hmember) h.me_mem hid)
    rw [hround, answerIn, lookupRequest, if_pos rfl] at hquiet ⊢
    have hnotOwned : ¬ ((traffic.others round net).peer c).storage.isChunkAlreadyStored target = true := by
      intro howned
      rw [answer_of_owned hanswered howned] at hquiet
      cases hquiet
    obtain ⟨l, hl, hperm⟩ := (hvisited.informed h.members_subset h.me_mem hmember hne).answer hid
      (h.key_ne c hmember hne) hanswered
    rw [answer_of_not_owned hnotOwned hl]
    refine ⟨rfl, fun d => hperm.mem_iff.trans (((hvisited c hmember).mem_listedTo h.members_subset h.me_mem hne d).trans ?_)⟩
    refine and_congr_right fun _ => ?_
    rw [List.mem_filter, decide_eq_true_iff]
    by_cases hd : d = me
    · exact iff_of_true (.inr hd) (.inr hd)
    · exact or_congr_left (and_iff_left hd).symm

/-- A member of a mesh with a chunk that enough others own finds the chunk. -/
theorem findStorer (hmembers : members.Nodup) (hme : me ∈ members) (hother : ∃ c ∈ members, c ≠ me)
    (hkey : me.id ≠ target) (hsmall : members.length ≤ 2 * alpha + 1) (howners : owners ⊆ members.filter (· ≠ me))
    (hownersnd : owners.Nodup) (hmany : min alpha (members.filter (· ≠ me)).length ≤ owners.length)
    (hmesh : Mesh members net) (howned : ∀ c ∈ owners, (net.peer c).storage.isChunkAlreadyStored target = true) :
    ∃ n net', Returns (net.findStorer me target traffic) (.ok n, net') := by
  have hvalid := hmesh.valid me hme
  obtain ⟨answers, result, rounds, net', hfrom, -, horacle, hnetwork⟩ :=
    (h.keptHolding hothers true).findStorer hvalid ⟨hmesh.visited me, howned⟩
  suffices hresult : ∃ n, result = .ok n by
    obtain ⟨n, rfl⟩ := hresult
    exact ⟨n, net', hnetwork⟩
  cases hread : net.readable me target with
  | true =>
      rw [hread] at horacle
      have hown : Returns ((net.node me).findStorer target true answers) (.ok me, []) := ⟨0, fun _ _ => rfl⟩
      exact ⟨me, congrArg Prod.fst (horacle.unique hown)⟩
  | false =>
      rw [hread] at horacle
      have hcontacts : (net.table me).getAllNodeinfos.Perm (members.filter (· ≠ me)) := by
        refine (List.perm_ext_iff_of_nodup (List.Nodup.of_map _ hvalid.nodup_ids) (hmembers.filter _)).mpr fun c => ?_
        rw [hmesh.contacts me hme c, List.mem_filter, decide_eq_true_iff]
      obtain ⟨b, hb, hbme⟩ := hother
      have hb' : b ∈ members.filter (· ≠ me) := List.mem_filter.mpr ⟨hb, decide_eq_true hbme⟩
      obtain ⟨initial, hinit, hlength⟩ := hvalid.getNClosest_length
        (show (net.table me).id ≠ target by rw [hmesh.id_eq me hme]; exact hkey) (by decide : 1 ≤ alpha)
        (List.ne_nil_of_mem (hcontacts.mem_iff.mpr hb'))
      obtain ⟨hnd, hsub⟩ := hvalid.getNClosest_subset hinit
      rw [hcontacts.length_eq] at hlength
      have hfew : (members.filter (· ≠ me)).length ≤ 2 * alpha := by
        have hlt : (members.filter (· ≠ me)).length < members.length := by
          rw [List.length_filter_lt_length_iff_exists]
          exact ⟨me, hme, by simp⟩
        omega
      have hfinds := (Starting.new target me (fun c hc => hcontacts.mem_iff.mp (hsub hc)) hnd hlength).finds
        (h.shared hothers howners hfrom) (by simp) (List.ne_nil_of_mem hb') hfew hownersnd hmany
      have hne : initial ≠ [] := by
        apply List.ne_nil_of_length_pos
        rw [hlength]
        exact lt_min (by decide) (List.length_pos_of_mem hb')
      obtain ⟨n, rounds', hreturns⟩ := Node.findStorer_of_finds (net.node me) hinit hne hfinds
      exact ⟨n, congrArg Prod.fst (horacle.unique hreturns)⟩

end Inquiry
end P2PFilesystem
