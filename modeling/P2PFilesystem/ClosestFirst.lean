import P2PFilesystem.LookupIds
import P2PFilesystem.StorerLookup

/-!
# Which contacts a value lookup asks first

`get_alpha_unqueried_nodes` takes the first unqueried entries of the buffer and relies on
the buffer being sorted. A value answer ends `record_lookup_round_responses` before its
sort, and the loop of `find_storer` goes on with what the answers before it have appended.
-/
namespace P2PFilesystem
open KeySort LoopFuel

namespace LookupBuffer
variable {b : LookupBuffer}

def unqueriedContacts (b : LookupBuffer) : List NodeInfo :=
  (b.nodes.filter (fun e => !e.queried)).map LookupNodeInfo.nodeInfo

/-- What is taken are `ALPHA` unqueried contacts, or all, and no other one is closer to the target. -/
def TakesClosest (b : LookupBuffer) : Prop :=
  b.getAlphaUnqueriedNodes.1.length = min alpha b.unqueriedContacts.length ∧
  ∃ others, b.unqueriedContacts.Perm (b.getAlphaUnqueriedNodes.1 ++ others) ∧
    ∀ c ∈ b.getAlphaUnqueriedNodes.1, ∀ d ∈ others, c.id.dist b.target ≤ d.id.dist b.target

/-- A line of contacts once its first ones are asked, which goes by id. -/
def behind (line : List NodeInfo) : List NodeInfo :=
  line.filter fun c => decide (c.id ∉ (line.take alpha).map NodeInfo.id)

/-- In front of a line and of the rest of it stand the closest. -/
def LedByClosest (target : Key) (line : List NodeInfo) : Prop :=
  Foremost alpha (fun c => c.id.dist target) line ∧ Foremost alpha (fun c => c.id.dist target) (behind line)

instance (target : Key) (line : List NodeInfo) : Decidable (LedByClosest target line) :=
  inferInstanceAs (Decidable (_ ∧ _))

/-- Some response says that the id failed to answer. -/
def failsIn (rs : List LookupResponse) (c : NodeInfo) : Bool :=
  rs.any fun r => !r.gaveNodes && decide (r.resolver.id = c.id)

/-- The contacts that are not known when the responses list them, in that order. -/
def newcomers (known : List NodeInfo) : List LookupResponse → List NodeInfo
  | [] => []
  | r :: rs =>
      if r.gaveNodes then
        (unknownOf known r.kClosest).filter (fun c => !failsIn rs c) ++
          newcomers (known ++ unknownOf known r.kClosest) rs
      else newcomers known rs

/-- Who is left when the batch is asked, and behind them whom the answers bring up to the value answer. -/
def lineAfter (b : LookupBuffer) (rs : List LookupResponse) : List NodeInfo :=
  behind b.unqueriedContacts ++ newcomers (b.thisNode :: b.contacts) (heard true rs)

theorem takes_iff_foremost : b.TakesClosest ↔ Foremost alpha (fun c => c.id.dist b.target) b.unqueriedContacts := by
  rw [foremost_iff_exists_perm]
  exact and_iff_right List.length_take

theorem Sorted.ledByClosest (h : b.Sorted) : LedByClosest b.target b.unqueriedContacts := by
  have hline : Ascending (fun c => c.id.dist b.target) b.unqueriedContacts :=
    List.pairwise_map.mpr (h.sublist List.filter_sublist)
  exact ⟨hline.foremost alpha, Ascending.foremost (hline.sublist List.filter_sublist) alpha⟩

theorem unqueriedContacts_marked (b : LookupBuffer) (p : Key → Prop) [DecidablePred p] :
    ((b.nodes.map fun e => if p e.nodeInfo.id then { e with queried := true } else e).filter (fun e => !e.queried)).map
      LookupNodeInfo.nodeInfo = b.unqueriedContacts.filter fun c => decide (¬ p c.id) := by
  unfold unqueriedContacts
  induction b.nodes with
  | nil => rfl
  | cons e es ih =>
      by_cases hp : p e.nodeInfo.id
      · cases hq : e.queried with
        | true => simpa [hp, hq] using ih
        | false => simpa [hp, hq] using ih
      · cases hq : e.queried with
        | true => simpa [hp, hq] using ih
        | false => simpa [hp, hq] using ih

theorem unqueriedContacts_markBatch (b : LookupBuffer) : b.markBatch.unqueriedContacts = behind b.unqueriedContacts :=
  b.unqueriedContacts_marked (· ∈ b.batch.map NodeInfo.id)

theorem unqueriedContacts_markNodeAsQueried (b : LookupBuffer) (id : Key) :
    (b.markNodeAsQueried id).unqueriedContacts = b.unqueriedContacts.filter fun c => decide (¬ c.id = id) :=
  b.unqueriedContacts_marked (· = id)

@[simp] theorem unqueriedContacts_markNodeAsResponded (b : LookupBuffer) (id : Key) :
    (b.markNodeAsResponded id).unqueriedContacts = b.unqueriedContacts := by
  unfold unqueriedContacts markNodeAsResponded
  induction b.nodes with
  | nil => rfl
  | cons e es ih =>
      have hhead : (if e.nodeInfo.id = id then { e with responded := true } else e).queried = e.queried := by
        split_ifs <;> rfl
      cases hq : e.queried with
      | true =>
          rw [hq] at hhead
          simpa [hq, hhead] using ih
      | false =>
          rw [hq] at hhead
          by_cases hid : e.nodeInfo.id = id
          · simpa [hq, hid] using ih
          · simpa [hq, hid] using ih

theorem unqueriedContacts_foldl_addReported (ns : List NodeInfo) (b : LookupBuffer) :
    (ns.foldl addReported b).unqueriedContacts =
      b.unqueriedContacts ++ unknownOf (b.thisNode :: b.contacts) ns := by
  unfold unqueriedContacts
  rw [nodes_foldl_addReported, List.filter_append, List.map_append, List.filter_map, List.map_map]
  congr 1
  have hnew : ∀ l : List NodeInfo, l.filter ((fun e => !e.queried) ∘ LookupNodeInfo.new) = l := fun l =>
    List.filter_eq_self.mpr fun c _ => rfl
  rw [hnew]
  exact List.map_id _

theorem contacts_foldl_addReported (ns : List NodeInfo) (b : LookupBuffer) :
    (ns.foldl addReported b).contacts = b.contacts ++ unknownOf (b.thisNode :: b.contacts) ns := by
  unfold contacts
  rw [nodes_foldl_addReported, List.map_append, List.map_map]
  congr 1
  exact List.map_id _

/-- The unqueried contacts after the loop over the responses, in buffer order. -/
theorem unqueriedContacts_recordResponses (rs : List LookupResponse) (b : LookupBuffer) :
    (recordResponses true rs b).2.unqueriedContacts =
      (b.unqueriedContacts.filter fun c => !failsIn (heard true rs) c) ++
        newcomers (b.thisNode :: b.contacts) (heard true rs) := by
  have hnone : ∀ b : LookupBuffer, b.unqueriedContacts =
      (b.unqueriedContacts.filter fun c => !failsIn [] c) ++ newcomers (b.thisNode :: b.contacts) [] := by
    intro b
    rw [newcomers, List.append_nil]
    exact (List.filter_eq_self.mpr fun c _ => rfl).symm
  induction rs generalizing b with
  | nil => exact hnone b
  | cons r rs ih =>
      cases hv : true && r.isValue with
      | true =>
          rw [recordResponses, if_pos hv, heard, List.takeWhile_cons_of_neg (by simp [hv])]
          exact hnone b
      | false =>
          have hheard : heard true (r :: rs) = r :: heard true rs := List.takeWhile_cons_of_pos (by simp [hv])
          rw [hheard]
          cases hg : r.gaveNodes with
          | true =>
              have hfails : ∀ c, failsIn (r :: heard true rs) c = failsIn (heard true rs) c := by
                intro c
                simp [failsIn, hg]
              rw [recordResponses_cons_of_gaveNodes hg, ih, unqueriedContacts_markNodeAsResponded,
                contacts_markNodeAsResponded, unqueriedContacts_foldl_addReported, contacts_foldl_addReported,
                List.filter_append, List.append_assoc]
              simp only [newcomers, hg, if_true, hfails]
              rw [← (foldl_addReported r.kClosest b).1]
              rfl
          | false =>
              have hfails : ∀ c, failsIn (r :: heard true rs) c =
                  (decide (r.resolver.id = c.id) || failsIn (heard true rs) c) := by
                intro c
                simp [failsIn, hg]
              rw [recordResponses_cons_of_not_gaveNodes hg hv, ih, unqueriedContacts_markNodeAsQueried,
                contacts_markNodeAsQueried, List.filter_filter]
              simp only [newcomers, hg, Bool.false_eq_true, if_false, hfails]
              congr 1
              refine List.filter_congr fun c _ => ?_
              grind

/-- Only the contacts of the batch can fail. -/
theorem not_failsIn_of_mem_behind {b : LookupBuffer} {answer : NodeInfo → Except NodeError Response} {c : NodeInfo}
    (hc : c ∈ behind b.unqueriedContacts) : failsIn (heard true (lookupRound b.batch true answer)) c = false := by
  refine List.any_eq_false.mpr fun r hr hfails => ?_
  obtain ⟨-, hid⟩ := Bool.and_eq_true_iff.mp hfails
  have hresolver : r.resolver ∈ b.batch := by
    have hmem := List.mem_map_of_mem (f := LookupResponse.resolver) (heard_subset true _ hr)
    rwa [lookupRound_resolvers] at hmem
  have hbehind := of_decide_eq_true (List.mem_filter.mp hc).2
  exact hbehind (of_decide_eq_true hid ▸ List.mem_map_of_mem hresolver)

end LookupBuffer

open LookupBuffer

section Rounds
variable {answers : Answers} {s : LookupRun}

theorem nextBuffer_target (answers : Answers) (s : LookupRun) :
    (nextBuffer true answers s).2.target = s.buffer.target :=
  record_of_recordResponses (I := fun b => b.target = s.buffer.target) (fun _ h => h)
    (recordResponses_target true _ s.buffer.markBatch)

theorem unqueriedContacts_of_value (h : HasValueAnswer (nextRound true answers s)) :
    (nextBuffer true answers s).2.unqueriedContacts = lineAfter s.buffer (nextRound true answers s) := by
  have hvalue : (true && (nextRound true answers s).any LookupResponse.isValue) = true := hasValueAnswer_iff_any.mp h
  unfold nextBuffer lineAfter
  rw [record_of_value hvalue, unqueriedContacts_recordResponses, unqueriedContacts_markBatch, contacts_markBatch]
  congr 1
  refine List.filter_eq_self.mpr fun c hc => ?_
  unfold nextRound
  rw [not_failsIn_of_mem_behind hc]
  rfl

theorem sorted_of_no_value (h : ¬ HasValueAnswer (nextRound true answers s)) : (nextBuffer true answers s).2.Sorted := by
  have hquiet : (true && (nextRound true answers s).any LookupResponse.isValue) = false := by
    rw [Bool.true_and, Bool.eq_false_iff]
    exact mt hasValueAnswer_iff_any.mpr h
  unfold nextBuffer
  rw [record_of_no_value hquiet]
  exact sort_sorted _

theorem goesOn_of_value (h : HasValueAnswer (nextRound true answers s)) : (nextBuffer true answers s).1 = true := by
  have hvalue : (true && (nextRound true answers s).any LookupResponse.isValue) = true := hasValueAnswer_iff_any.mp h
  unfold nextBuffer
  rw [record_of_value hvalue]

theorem lookupPass_of_value (h : HasValueAnswer (nextRound true answers s)) : lookupPass true answers s =
    .next ⟨(nextBuffer true answers s).2, nextRound true answers s :: s.rounds⟩ := by
  rcases lookupPass_cases true answers s with ⟨hnil, -⟩ | ⟨-, ⟨-, hpass⟩ | ⟨hstop, -⟩⟩
  · rw [nextRound, hnil] at h
    exact absurd h not_hasValueAnswer_nil
  · exact hpass
  · rw [goesOn_of_value h] at hstop
    cases hstop

/-- A round with a value answer leaves the closest in front. -/
def LookupRun.ValueKeepsOrder (answers : Answers) (s : LookupRun) : Prop :=
  HasValueAnswer (nextRound true answers s) →
    LedByClosest s.buffer.target (lineAfter s.buffer (nextRound true answers s))

theorem LookupRun.ValueKeepsOrder.ledByClosest (h : s.ValueKeepsOrder answers) :
    LedByClosest (nextBuffer true answers s).2.target (nextBuffer true answers s).2.unqueriedContacts := by
  by_cases hvalue : HasValueAnswer (nextRound true answers s)
  · rw [unqueriedContacts_of_value hvalue, nextBuffer_target]
    exact h hvalue
  · exact (sorted_of_no_value hvalue).ledByClosest

/-- The invariant of the loop as long as its value answers keep it. -/
def LookupRun.Led (s : LookupRun) : Prop := LedByClosest s.buffer.target s.buffer.unqueriedContacts

variable {start t : LookupRun}

theorem led_of_visits (hstart : start.Led)
    (h : ∀ s, Visits (lookupPass true answers) start s → s.ValueKeepsOrder answers)
    (hs : Visits (lookupPass true answers) start s) : s.Led := by
  induction hs with
  | refl s => exact hstart
  | @step s s' u hnext hu ih =>
      have hs' : s'.Led := by
        rw [(lookupPass_next hnext).2]
        exact (h s (.refl s)).ledByClosest
      exact ih hs' fun v hv => h v (.step hnext hv)

theorem led_of_exits (hstart : start.Led)
    (h : ∀ s, Visits (lookupPass true answers) start s → s.ValueKeepsOrder answers)
    (ht : Exits (lookupPass true answers) start t) : t.Led := by
  obtain ⟨u, hu, hexit⟩ := ht
  rcases lookupPass_exit hexit with ⟨-, rfl⟩ | ⟨-, -, rfl⟩
  · exact led_of_visits hstart h hu
  · exact (h u hu).ledByClosest

theorem Node.StartsLookup.led {self : Node} {forValue : Bool} (h : self.StartsLookup answers forValue start) :
    start.Led := by
  obtain ⟨target, initial, hbuffer⟩ := h.buffer_eq
  unfold LookupRun.Led
  rw [hbuffer]
  exact Sorted.ledByClosest (sort_sorted _)

end Rounds

/-- `find_storer` asks the closest first in all its buffers exactly if, in its rounds with a value answer, the
contacts left and those the answers bring already stand in such an order. -/
theorem Node.takesClosest_iff {self : Node} {answers : Answers} {start : LookupRun}
    (hstart : self.StartsLookup answers true start) :
    (∀ b, ReachesBuffer true answers start b → b.TakesClosest) ↔
      ∀ s, Visits (lookupPass true answers) start s → s.ValueKeepsOrder answers := by
  constructor
  · intro h s hs hvalue
    have hnext := hs.trans (.step (lookupPass_of_value hvalue) (.refl _))
    have htop := takes_iff_foremost.mp (h _ (.visited hnext))
    have hflight := takes_iff_foremost.mp (h _ (.inFlight hnext))
    rw [unqueriedContacts_markBatch] at hflight
    rw [← unqueriedContacts_of_value hvalue, ← nextBuffer_target answers s]
    exact ⟨htop, hflight⟩
  · intro h b hb
    rw [takes_iff_foremost]
    cases hb with
    | visited hs => exact (led_of_visits hstart.led h hs).1
    | inFlight hs =>
        rw [unqueriedContacts_markBatch]
        exact (led_of_visits hstart.led h hs).2
    | left ht => exact (led_of_exits hstart.led h ht).1
    | last ht => exact (led_of_exits hstart.led h ht).1

/-- The search of `forgetfulNode` in its own table. -/
def forgetfulStart : LookupRun :=
  ⟨.new (Key.ofTopByte 0x80 0) (([0x81, 0x82, 0x84] : List UInt8).map fun b => .local b 8080)
    forgetfulNode.toNodeInfo, []⟩

theorem forgetfulNode_starts (answers : Answers) : forgetfulNode.StartsLookup answers true forgetfulStart := by
  have hfound : forgetfulNode.routingTable.getAlphaClosest (Key.ofTopByte 0x80 0) =
      .ok (([0x81, 0x82, 0x84] : List UInt8).map fun b => .local b 8080) := by
    decide +kernel
  exact .findStorer hfound

/-- The one contact that comes in before the value answer is asked next, and nobody answers then. -/
theorem takesClosest_forgetful : (nextBuffer true forgetfulAnswers forgetfulStart).2.TakesClosest := by
  have hfirst : lookupPass true forgetfulAnswers forgetfulStart =
      .next ⟨(nextBuffer true forgetfulAnswers forgetfulStart).2,
        nextRound true forgetfulAnswers forgetfulStart :: forgetfulStart.rounds⟩ :=
    lookupPass_of_value (hasValueAnswer_iff_any.mpr (by decide +kernel))
  refine (Node.takesClosest_iff (forgetfulNode_starts _)).mpr (fun s hs => ?_) _ (.visited (.step hfirst (.refl _)))
  cases hs with
  | refl =>
      intro _
      decide +kernel
  | step hnext hs =>
      rw [hfirst] at hnext
      cases hnext
      cases hs with
      | refl =>
          intro hvalue
          exact absurd (hasValueAnswer_iff_any.mp hvalue) (by decide +kernel)
      | step hnext _ =>
          rcases lookupPass_cases true forgetfulAnswers ⟨(nextBuffer true forgetfulAnswers forgetfulStart).2,
            nextRound true forgetfulAnswers forgetfulStart :: forgetfulStart.rounds⟩ with
            ⟨-, hexit⟩ | ⟨-, ⟨hgo, -⟩ | ⟨-, hexit⟩⟩
          · rw [hexit] at hnext
            cases hnext
          · exact absurd hgo (by decide +kernel)
          · rw [hexit] at hnext
            cases hnext

/-- The first lists three contacts, the second one that is closer, and the third has the value. -/
def listingAnswers : Answers := fun _ c =>
  let reply := fun type => Response.mk type c forgetfulNode.toNodeInfo zeroRequestId
  if c = NodeInfo.local 0x81 8080 then
    .ok (reply (.nodes [.local 0x90 8080, .local 0x91 8080, .local 0x92 8080]))
  else if c = NodeInfo.local 0x82 8080 then .ok (reply (.nodes [.local 0x88 8080]))
  else if c = NodeInfo.local 0x84 8080 then .ok (reply (.hasValue (Key.ofTopByte 0x80 0)))
  else .error .responseTimeout

theorem not_takesClosest_listing :
    ¬ ∀ b, ReachesBuffer true listingAnswers forgetfulStart b → b.TakesClosest := by
  intro h
  have hvalue : HasValueAnswer (nextRound true listingAnswers forgetfulStart) :=
    hasValueAnswer_iff_any.mpr (by decide +kernel)
  have htakes := h _ (.visited (.step (lookupPass_of_value hvalue) (.refl _)))
  rw [takes_iff_foremost] at htakes
  exact absurd htakes (by decide +kernel)

end P2PFilesystem
