import P2PFilesystem.Recency
import P2PFilesystem.RoutingTable

/-!
# The order of a bucket

A contact is seen when a call of `add_nodeinfo` inserts it, or when it is the head of a full bucket
and answers the ping. Every call moves contacts so that the order of the bucket is the one in which
they were last seen.
-/
namespace P2PFilesystem
open Recency

namespace KBucket

/-- Who is pinged to make room for the contact, if there is none. -/
def pinged (self : KBucket) (nodeInfoNew : NodeInfo) : Option NodeInfo :=
  let kept := (self.removeNodeinfo nodeInfoNew.id).2.nodes
  if kept.length < self.capacity then none else kept.head?

/-- Whom the call sees: the contact it inserts, or the head that replies. -/
def seenBy (self : KBucket) (nodeInfoNew : NodeInfo) (ping : PingOutcome) : Option NodeInfo :=
  match self.pinged nodeInfoNew with
  | none => some nodeInfoNew
  | some head => match ping head.id with
      | .ok _ => some head
      | .error .responseTimeout | .error .badResponse => some nodeInfoNew
      | .error _ => none

/-- A sequence of calls, each with the outcomes of its ping. -/
def addAll (self : KBucket) : List (NodeInfo × PingOutcome) → KBucket
  | [] => self
  | call :: calls => (self.addNodeinfo call.1 call.2).2.addAll calls

/-- Whom each call of a sequence sees. -/
def history (self : KBucket) : List (NodeInfo × PingOutcome) → List (Option NodeInfo)
  | [] => []
  | call :: calls => self.seenBy call.1 call.2 :: (self.addNodeinfo call.1 call.2).2.history calls

variable {b : KBucket}

/-- A call takes contacts out and puts the one it sees at the end. -/
theorem Sound.addNodeinfo_seenBy (hb : b.Sound) (x : NodeInfo) (ping : PingOutcome) : ∃ kept,
    kept.Sublist b.nodes ∧ (b.addNodeinfo x ping).2.nodes = kept ++ (b.seenBy x ping).toList ∧
    ∀ c ∈ b.seenBy x ping, c ∉ kept := by
  have hsub : (b.nodes.eraseP fun n => n.id = x.id).Sublist b.nodes := List.eraseP_sublist
  have hfresh : x ∉ b.nodes.eraseP fun n => n.id = x.id := fun hx =>
    notMem_map_eraseP (k := x.id) hb.nodup_ids (List.mem_map_of_mem hx)
  have hnodup : (b.nodes.eraseP fun n => n.id = x.id).Nodup :=
    (List.Nodup.of_map _ hb.nodup_ids).sublist hsub
  have hpinged : b.pinged x = if (b.nodes.eraseP fun n => n.id = x.id).length < b.capacity then none
      else (b.nodes.eraseP fun n => n.id = x.id).head? := rfl
  unfold seenBy
  rw [hpinged]
  obtain ⟨hroom, hadd⟩ | ⟨head, rest, hkept, hfull, hadd⟩ :=
    b.addNodeinfo_cases x ping (by rw [hb.capacity_eq]; decide)
  · rw [hadd, if_pos hroom]
    refine ⟨_, hsub, rfl, ?_⟩
    rintro c ⟨⟩
    exact hfresh
  · rw [if_neg (Nat.not_lt.mpr hfull)]
    rw [hkept] at hsub hfresh hnodup ⊢
    have hrest : rest.Sublist b.nodes := (List.sublist_cons_self head rest).trans hsub
    dsimp only [List.head?_cons]
    refine ⟨rest, hrest, ?_⟩
    obtain ⟨r, hping, hadd⟩ | ⟨hping | hping, hadd⟩ | ⟨⟨e, hping, htimeout, hbad⟩, hadd⟩ := hadd
    · rw [hadd, hping]
      refine ⟨rfl, ?_⟩
      rintro c ⟨⟩
      exact (List.nodup_cons.mp hnodup).1
    · rw [hadd, hping]
      refine ⟨rfl, ?_⟩
      rintro c ⟨⟩
      exact fun hx => hfresh (List.mem_cons_of_mem head hx)
    · rw [hadd, hping]
      refine ⟨rfl, ?_⟩
      rintro c ⟨⟩
      exact fun hx => hfresh (List.mem_cons_of_mem head hx)
    · rw [hadd, hping]
      cases e with
      | responseTimeout => exact absurd rfl htimeout
      | badResponse => exact absurd rfl hbad
      | unableToSend => exact ⟨(List.append_nil rest).symm, nofun⟩
      | pingMissingNode => exact ⟨(List.append_nil rest).symm, nofun⟩
      | routingTableFailed e => exact ⟨(List.append_nil rest).symm, nofun⟩

theorem Sound.addAll_inOrder (hb : b.Sound) {past : List (Option NodeInfo)} (hpast : InOrder past b.nodes)
    (calls : List (NodeInfo × PingOutcome)) :
    (b.addAll calls).Sound ∧ InOrder (past ++ b.history calls) (b.addAll calls).nodes := by
  induction calls generalizing b past with
  | nil =>
      rw [history, List.append_nil]
      exact ⟨hb, hpast⟩
  | cons call calls ih =>
      obtain ⟨kept, hsub, hnodes, hnew⟩ := hb.addNodeinfo_seenBy call.1 call.2
      rw [addAll, history, List.append_cons]
      refine ih (addNodeinfo_sound hb call.1 call.2).1 ?_
      rw [hnodes]
      exact (hpast.sublist hsub).concat hnew

/-- A bucket that pings is full without the contact's id, so it pings its own head. -/
theorem Sound.nodes_eq_of_pinged (hb : b.Sound) {x head : NodeInfo} (hhead : head ∈ b.pinged x) :
    ∃ rest, b.nodes = head :: rest := by
  have hsub : (b.nodes.eraseP fun n => n.id = x.id).Sublist b.nodes := List.eraseP_sublist
  have hpinged : b.pinged x = if (b.nodes.eraseP fun n => n.id = x.id).length < b.capacity then none
      else (b.nodes.eraseP fun n => n.id = x.id).head? := rfl
  rw [hpinged] at hhead
  split at hhead
  · cases hhead
  · rename_i hfull
    rw [hb.capacity_eq, Nat.not_lt] at hfull
    rw [← hsub.eq_of_length_le (hb.length_le.trans hfull)]
    exact List.head?_eq_some_iff.mp hhead

/-- From head to tail the contacts of a bucket are in the order of the calls that saw them last, and
the head that a further call pings was seen before all others. -/
theorem addAll_lastSeen (now : Nat) (calls : List (NodeInfo × PingOutcome)) :
    let b := (KBucket.new now).addAll calls
    let seen := (KBucket.new now).history calls
    (∀ c ∈ b.nodes, ∃! i, LastSeen seen c i) ∧
    b.nodes.Pairwise (fun c d => ∀ i j, LastSeen seen c i → LastSeen seen d j → i < j) ∧
    ∀ x, ∀ head ∈ b.pinged x, head ∈ b.nodes ∧
      ∀ c ∈ b.nodes, c ≠ head → ∀ i j, LastSeen seen head i → LastSeen seen c j → i < j := by
  intro b seen
  obtain ⟨hsound, horder⟩ := (new_sound now).addAll_inOrder (InOrder.nil []) calls
  rw [List.nil_append] at horder
  refine ⟨fun c hc => ?_, horder.increasing, fun x head hhead => ?_⟩
  · obtain ⟨i, hi⟩ := horder.seen c hc
    exact ⟨i, hi, fun j hj => hj.unique hi⟩
  · obtain ⟨rest, hnodes⟩ := hsound.nodes_eq_of_pinged hhead
    have hlater := horder.increasing
    rw [hnodes] at hlater ⊢
    refine ⟨List.mem_cons_self, fun c hc hne => ?_⟩
    exact (List.pairwise_cons.mp hlater).1 c ((List.mem_cons.mp hc).resolve_left hne)

end KBucket
end P2PFilesystem
