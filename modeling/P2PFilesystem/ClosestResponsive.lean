import P2PFilesystem.LookupResponders
import P2PFilesystem.LookupResult

/-!
# Which responsive contacts a lookup returns

`get_resulting_vector` leaves out what counts as silent: the id of the contact was asked, and
nobody has answered under it. That is told by the requests and answers of the call, and so is the
order of the known contacts. Where no id has two addresses it is enough to know who is asked.
-/
namespace P2PFilesystem
open LoopFuel KeySort LookupBuffer

/-- What the responses of a round report, in their order. -/
def roundReports (rs : List LookupResponse) : List NodeInfo :=
  rs.flatMap fun r => if r.gaveNodes then r.kClosest else []

/-- The known contacts from the closest on, those that the last round is the first to report included.
Two addresses of an id stand in the order in which they came to be known. -/
def LookupRun.knownInOrder (answers : Answers) (t : LookupRun) : List NodeInfo :=
  sortByDistance NodeInfo.id t.buffer.target (t.buffer.contacts ++
    unknownOf (t.buffer.thisNode :: t.buffer.contacts) (roundReports (lastRound answers t)))

section Answers
variable (answers : Answers) (start : LookupRun) (gave : Bool) (d : NodeInfo)

/-- In the call the id of the contact is asked while the contact is known, or there is a response under it. -/
def MarkedInCall : Prop :=
  MarkedInLoop answers start gave d ∨
    ∃ t, Exits (lookupPass false answers) start t ∧ t.buffer.MarkedIn gave (lastRound answers t) d

/-- The id of the contact was asked since the contact is known, and nobody answered under it. -/
def CountsAsSilent : Prop := MarkedInCall answers start false d ∧ ¬ MarkedInCall answers start true d

end Answers

open Classical in
/-- Every known contact that does not count as silent, and was not asked or does not answer, has `K`
before it that do not count as silent. So has, at most as far as itself, every reported contact that
counts as silent for another address of its id although it would answer. -/
def UnansweredComeLate (target : Key) (thisNode : NodeInfo) (reply : NodeInfo → Except NodeError Response)
    (start t : LookupRun) : Prop :=
  let answers : Answers := fun _ => reply
  (∀ pre c post, t.knownInOrder answers = pre ++ c :: post → ¬ CountsAsSilent answers start c →
    ¬ (c ∈ t.askedAtEnd ∧ AnswersNodes (reply c)) →
    K ≤ pre.countP fun m => decide (¬ CountsAsSilent answers start m)) ∧
  ∀ c, c ∈ t.reported ∨ c ∈ roundReports (lastRound answers t) → c ≠ thisNode → AnswersNodes (reply c) →
    CountsAsSilent answers start c →
    K ≤ (t.knownInOrder answers).countP fun m =>
      decide (¬ CountsAsSilent answers start m ∧ m.id.dist target ≤ c.id.dist target)

/-- What the state `t` that the round loop leaves with must meet. -/
def HeardInTime (target : Key) (thisNode : NodeInfo) (reply : NodeInfo → Except NodeError Response)
    (start t : LookupRun) : Prop :=
  (OneAddress (· ∈ t.knownAtEnd reply) → UnaskedComeLate target reply t) ∧
  (¬ OneAddress (· ∈ t.knownAtEnd reply) → UnansweredComeLate target thisNode reply start t)

section Order
variable {rs : List LookupResponse} {b : LookupBuffer} {answers : Answers} {t : LookupRun}

theorem unknownOf_append (known ns ms : List NodeInfo) :
    unknownOf known (ns ++ ms) = unknownOf known ns ++ unknownOf (known ++ unknownOf known ns) ms := by
  induction ns generalizing known with
  | nil =>
      have hnil : unknownOf known [] = [] := rfl
      rw [hnil, List.append_nil, List.nil_append, List.nil_append]
  | cons n ns ih =>
      rw [List.cons_append]
      by_cases hn : n ∈ known
      · rw [unknownOf_cons_of_mem hn, unknownOf_cons_of_mem hn, ih]
      · rw [unknownOf_cons_of_notMem hn, unknownOf_cons_of_notMem hn, ih, List.cons_append, List.append_assoc,
          List.singleton_append]

theorem contacts_foldl_addReported (ns : List NodeInfo) (b : LookupBuffer) :
    (ns.foldl addReported b).contacts = b.contacts ++ unknownOf (b.thisNode :: b.contacts) ns := by
  rw [LookupBuffer.contacts, nodes_foldl_addReported, List.map_append, List.map_map]
  exact congrArg _ (List.map_id _)

/-- A round appends what it is the first to report. -/
theorem contacts_recordResponses_eq (rs : List LookupResponse) (b : LookupBuffer) :
    (recordResponses false rs b).2.contacts =
      b.contacts ++ unknownOf (b.thisNode :: b.contacts) (roundReports rs) := by
  induction rs generalizing b with
  | nil => exact (List.append_nil _).symm
  | cons r rs ih =>
      cases hg : r.gaveNodes with
      | true =>
          have hreports : roundReports (r :: rs) = r.kClosest ++ roundReports rs := by
            rw [roundReports, List.flatMap_cons, hg, if_pos rfl]
            rfl
          have hthis : ((r.kClosest.foldl addReported b).markNodeAsResponded r.resolver.id).thisNode = b.thisNode :=
            (foldl_addReported r.kClosest b).1
          rw [recordResponses_cons_of_gaveNodes hg, ih, contacts_markNodeAsResponded, contacts_foldl_addReported,
            hthis, hreports, unknownOf_append, ← List.append_assoc]
          rfl
      | false =>
          have hreports : roundReports (r :: rs) = roundReports rs := by
            rw [roundReports, List.flatMap_cons, hg, if_neg Bool.false_ne_true]
            rfl
          rw [recordResponses_cons_of_not_gaveNodes hg (Bool.false_and _), ih, contacts_markNodeAsQueried, hreports]
          rfl

theorem contacts_sort (b : LookupBuffer) : b.sort.contacts = sortByDistance NodeInfo.id b.target b.contacts := by
  have hsort : b.sort.nodes = sortByDistance (fun e : LookupNodeInfo => e.nodeInfo.id) b.target b.nodes := rfl
  rw [LookupBuffer.contacts, hsort, sortByDistance_eq, sortByDistance_eq]
  exact List.map_insertionSort _ _ _ _ fun _ _ _ _ => Iff.rfl

/-- The buffer after the last round holds the known contacts in their order. -/
theorem contacts_closingRound : (closingRound answers t).buffer.contacts = t.knownInOrder answers := by
  have hrecord : (closingRound answers t).buffer = (recordResponses false (lastRound answers t) t.buffer).2.sort := by
    rw [closingRound, record_of_no_value (Bool.false_and _)]
    rfl
  rw [hrecord, contacts_sort, contacts_recordResponses_eq, recordResponses_target]
  rfl

end Order

section Runs
variable {answers : Answers} {start t : LookupRun} {gave : Bool} {reply : NodeInfo → Except NodeError Response}

/-- The marks of an entry in the end are those of the call. -/
theorem mark_closing_iff (huniform : Uniform start.buffer)
    (hunmarked : ∀ gave, ∀ e ∈ start.buffer.nodes, ¬ e.mark gave = true)
    (ht : Exits (lookupPass false answers) start t) {e : LookupNodeInfo}
    (he : e ∈ (closingRound answers t).buffer.nodes) :
    e.mark gave = true ↔ MarkedInCall answers start gave e.nodeInfo := by
  have hlast : (∃ t', Exits (lookupPass false answers) start t' ∧
      t'.buffer.MarkedIn gave (lastRound answers t') e.nodeInfo) ↔ t.buffer.MarkedIn gave (lastRound answers t) e.nodeInfo := by
    constructor
    · intro h
      obtain ⟨t', ht', hin⟩ := h
      exact ht.unique ht' ▸ hin
    · exact fun hin => ⟨t, ht, hin⟩
  rw [MarkedInCall, hlast]
  cases mem_nodes_closing.mp he with
  | inl hold =>
      obtain ⟨e₀, he₀, rfl⟩ := hold
      have hknown : e₀.nodeInfo ∈ t.buffer.contacts := mem_contacts_of_mem he₀
      rw [mark_markedById]
      refine or_congr ⟨fun hbefore => markedInLoop_of_mark ht (hunmarked gave) e₀ he₀ hbefore, fun hloop => ?_⟩
        ⟨fun hround => ?_, fun hround => ?_⟩
      · obtain ⟨e₁, he₁, hinfo, hmark⟩ := hloop.marked ht
        rwa [uniform_exits ht huniform e₁ he₁ e₀ he₀ hinfo] at hmark
      · obtain ⟨r, hr, hg, hid⟩ := hround
        obtain ⟨pre, post, hsplit⟩ := List.append_of_mem hr
        exact ⟨pre, r, post, hsplit, hg, hid, .inl hknown⟩
      · obtain ⟨pre, r, post, hsplit, hg, hid, -⟩ := hround
        exact ⟨r, hsplit ▸ List.mem_append_right pre List.mem_cons_self, hg, hid⟩
  | inr hnew =>
      rw [hnew.mark_iff, or_iff_right]
      intro hloop
      obtain ⟨e₁, he₁, hinfo, -⟩ := hloop.marked ht
      exact hnew.unknown (hinfo ▸ mem_contacts_of_mem he₁)

/-- What counts as silent is not standing. -/
theorem standing_closing_iff (huniform : Uniform start.buffer)
    (hunmarked : ∀ gave, ∀ e ∈ start.buffer.nodes, ¬ e.mark gave = true)
    (ht : Exits (lookupPass false answers) start t) {e : LookupNodeInfo}
    (he : e ∈ (closingRound answers t).buffer.nodes) :
    e.standing = true ↔ ¬ CountsAsSilent answers start e.nodeInfo := by
  have hsilent : e.standing = false ↔ CountsAsSilent answers start e.nodeInfo := by
    rw [LookupNodeInfo.standing_eq_false, CountsAsSilent, ← mark_closing_iff huniform hunmarked ht he,
      ← mark_closing_iff huniform hunmarked ht he]
    rfl
  rw [← hsilent, Bool.not_eq_false]

theorem replies_closing (h : start.Replies reply) (ht : Exits (lookupPass false fun _ => reply) start t) :
    (closingRound (fun _ => reply) t).Replies reply := by
  have hloop : t.Replies reply :=
    exits_invariant (I := LookupRun.Replies reply) (fun _ hu _ => LookupRun.Replies.cons hu _ _) ht h
  exact hloop.cons _ _

theorem mem_reported_closingRound {c : NodeInfo} : c ∈ (closingRound answers t).reported ↔
    c ∈ t.reported ∨ c ∈ roundReports (lastRound answers t) := by
  have hrounds : (closingRound answers t).rounds = lastRound answers t :: t.rounds := rfl
  rw [LookupRun.reported, hrounds, List.flatten_cons, List.flatMap_append, List.mem_append, or_comm]
  rfl

open Classical in
theorem unheardComeLate_iff_unanswered {target : Key} {thisNode : NodeInfo} (huniform : Uniform start.buffer)
    (hunmarked : ∀ gave, ∀ e ∈ start.buffer.nodes, ¬ e.mark gave = true) (hreplies : start.Replies reply)
    (hkeeps : KeepsReported thisNode start) (ht : Exits (lookupPass false fun _ => reply) start t) :
    UnheardComeLate target thisNode reply (closingRound (fun _ => reply) t) ↔
      UnansweredComeLate target thisNode reply start t := by
  have hknown := ((hkeeps.exits ht).closing (fun _ => reply)).known
  have horder : (closingRound (fun _ => reply) t).buffer.nodes.map LookupNodeInfo.nodeInfo =
      t.knownInOrder (fun _ => reply) := contacts_closingRound
  have hstanding : ∀ e ∈ (closingRound (fun _ => reply) t).buffer.nodes,
      e.standing = decide (¬ CountsAsSilent (fun _ => reply) start e.nodeInfo) := by
    intro e he
    rw [Bool.eq_iff_iff, decide_eq_true_iff]
    exact standing_closing_iff huniform hunmarked ht he
  have hanswered : ∀ c, (closingRound (fun _ => reply) t).Answered c ↔ c ∈ t.askedAtEnd ∧ AnswersNodes (reply c) := by
    intro c
    rw [(replies_closing hreplies ht).answered_iff, closingRound_asked]
  unfold UnheardComeLate UnansweredComeLate
  dsimp only
  rw [← horder]
  refine and_congr ?_ (forall_congr' fun c => ?_)
  · -- the order of the entries is that of their contacts
    rw [forall_split_map_iff (f := LookupNodeInfo.nodeInfo) (q := fun m => decide (¬ CountsAsSilent (fun _ => reply) start m))
      (P := fun m => ¬ (closingRound (fun _ => reply) t).Answered m) hstanding]
    simp only [decide_eq_true_iff, hanswered]
  · rw [← mem_reported_closingRound]
    refine forall_congr' fun hreported => forall_congr' fun hne => forall_congr' fun _ => ?_
    have hc := hknown c hreported hne
    obtain ⟨e₀, he₀, hinfo₀⟩ := List.mem_map.mp hc
    have hsilent : (∀ e ∈ (closingRound (fun _ => reply) t).buffer.nodes, e.nodeInfo = c → e.standing = false) ↔
        CountsAsSilent (fun _ => reply) start c := by
      constructor
      · intro hall
        have hfails := hall e₀ he₀ hinfo₀
        rwa [hstanding e₀ he₀, decide_eq_false_iff_not, not_not, hinfo₀] at hfails
      · rintro hcounts e he rfl
        rw [hstanding e he, decide_eq_false (not_not.mpr hcounts)]
    rw [hsilent, forall_prop_of_true hc, ← countP_map_of_eq (f := LookupNodeInfo.nodeInfo)
      (q := fun m => decide (¬ CountsAsSilent (fun _ => reply) start m ∧ m.id.dist target ≤ c.id.dist target))]
    intro e he
    rw [hstanding e he, Bool.decide_and]
theorem closestResponsive_iff_heardInTime {thisNode : NodeInfo} (huniform : Uniform start.buffer)
    (hunmarked : ∀ gave, ∀ e ∈ start.buffer.nodes, ¬ e.mark gave = true) (hflags : FlagsTell reply start)
    (hkeeps : KeepsReported thisNode start) (ht : Exits (lookupPass false fun _ => reply) start t) :
    ClosestResponsive start.buffer.target thisNode reply (closingRound (fun _ => reply) t) ↔
      HeardInTime start.buffer.target thisNode reply start t := by
  rw [hkeeps.closestResponsive_iff ht]
  by_cases hone : OneAddress (· ∈ t.knownAtEnd reply)
  · rw [hflags.unheardComeLate_iff_unasked hkeeps ht hone]
    exact ⟨fun hun => ⟨fun _ => hun, fun hnot => absurd hone hnot⟩, fun hin => hin.1 hone⟩
  · rw [unheardComeLate_iff_unanswered huniform hunmarked hflags.replies hkeeps ht]
    exact ⟨fun hun => ⟨fun hyes => absurd hyes hone, fun _ => hun⟩, fun hin => hin.2 hone⟩

end Runs

/-- For every pattern of answering and silent contacts: what `find_node` and `join_network`
return are the closest responsive contacts exactly when, at the end of the round loop, the
contacts nobody asks come late. Where an id has two addresses the marks of the other one count too. -/
theorem nodeLookups_closestResponsive_iff (self : Node) (reply : NodeInfo → Except NodeError Response)
    (pings : Nat → PingOutcome) :
    (∀ target now, ∃ result node, Returns (self.findNode target (fun _ => reply) pings now) (result, node) ∧
      ∀ r, result = .ok r → ∃ start t, self.StartsFindNode target now start ∧
        Exits (lookupPass false fun _ => reply) start t ∧
        let last := closingRound (fun _ => reply) t
        r = last.buffer.getResultingVector ∧
        (ClosestResponsive target self.toNodeInfo reply last ↔ HeardInTime target self.toNodeInfo reply start t)) ∧
    (∀ beacon send, ∃ result node,
      Returns (self.joinNetwork beacon (fun _ => reply) pings send) (result, node) ∧
      ∀ r, result = .ok r → ∃ start t, self.StartsJoin beacon reply start ∧
        Exits (lookupPass false fun _ => reply) start t ∧
        let last := closingRound (fun _ => reply) t
        r = last.buffer.getResultingVector ∧
        (ClosestResponsive self.key self.toNodeInfo reply last ↔
          HeardInTime self.key self.toNodeInfo reply start t)) := by
  constructor
  · intro target now
    obtain ⟨result, node, hret, hrun⟩ := self.findNode_returns target (fun _ => reply) pings now
    refine ⟨result, node, hret, fun r hr => ?_⟩
    obtain ⟨start, t, hstart, ht, hvec⟩ := hrun r hr
    refine ⟨start, t, hstart, ht, hvec, ?_⟩
    obtain ⟨initial, table, -, rfl⟩ := hstart
    exact closestResponsive_iff_heardInTime (Uniform.new target initial self.toNodeInfo) (unmarked_new _ _ _)
      (flagsTell_start target initial self.toNodeInfo reply) (keepsReported_start target initial self.toNodeInfo) ht
  · intro beacon send
    obtain ⟨result, node, hret, hrun⟩ := self.joinNetwork_returns beacon reply pings send
    refine ⟨result, node, hret, fun r hr => ?_⟩
    obtain ⟨hbeacon, start, t, rfl, ht, hvec⟩ := hrun r hr
    exact ⟨_, t, rfl, ht, hvec, closestResponsive_iff_heardInTime (Uniform.new _ _ _) (unmarked_new _ _ _)
      (flagsTell_join self hbeacon _) (keepsReported_join self _) ht⟩

theorem findNode_returns_silent :
    ∃ fuel r node c, lateNode.findNode (Key.ofTopByte 0x80 0) (fun _ => lateReply)
        (fun _ _ => .error .responseTimeout) 0 fuel = some (.ok r, node) ∧
      c ∈ r ∧ ¬ AnswersNodes (lateReply c) := by
  have hrun : (lateNode.findNode (Key.ofTopByte 0x80 0) (fun _ => lateReply)
      (fun _ _ => .error .responseTimeout) 0 4).any (fun out =>
        out.1.toOption.any (NodeInfo.local 0x85 8080 ∈ ·)) = true := by
    decide +kernel
  rcases hcall : lateNode.findNode (Key.ofTopByte 0x80 0) (fun _ => lateReply)
      (fun _ _ => .error .responseTimeout) 0 4 with _ | ⟨⟨e⟩ | ⟨r⟩, node⟩
  · rw [hcall] at hrun; cases hrun
  · rw [hcall] at hrun; cases hrun
  · rw [hcall] at hrun
    refine ⟨4, r, node, NodeInfo.local 0x85 8080, hcall, of_decide_eq_true hrun, ?_⟩
    rintro ⟨ns, response, hreply, -⟩
    have hsilent : lateReply (NodeInfo.local 0x85 8080) = .error .responseTimeout := by decide
    rw [hsilent] at hreply
    cases hreply

end P2PFilesystem
