import P2PFilesystem.NetworkLookup
import Mathlib.Algebra.Order.BigOperators.Group.List

/-!
# Nodes that answer lookups in full

A node whose contacts, with the one that asks, fit into one datagram lists all of them. In a
network of such nodes a lookup ends closed and knows whom its result has listed.
-/
namespace P2PFilesystem
open LoopFuel

/-- An answer of `sender` to `receiver` with these contacts is within the datagram limit. -/
def ListFits (contacts : List NodeInfo) (sender receiver : NodeInfo) : Prop :=
  63 * contacts.length + (contacts.map NodeInfo.addressLength).sum + sender.addressLength +
    receiver.addressLength ≤ 931

instance (contacts : List NodeInfo) (sender receiver : NodeInfo) : Decidable (ListFits contacts sender receiver) :=
  inferInstanceAs (Decidable (_ ≤ _))

section Budget
variable {contacts more : List NodeInfo} {sender receiver : NodeInfo}

theorem ListFits.mono (h : ListFits more sender receiver) (hsub : contacts.Subperm more) :
    ListFits contacts sender receiver := by
  obtain ⟨l, hperm, hl⟩ := hsub
  have hlength := hl.length_le
  have hsum : (l.map NodeInfo.addressLength).sum ≤ (more.map NodeInfo.addressLength).sum :=
    (hl.map NodeInfo.addressLength).sum_le_sum fun _ _ => Nat.zero_le _
  rw [hperm.length_eq] at hlength
  rw [(hperm.map NodeInfo.addressLength).sum_eq] at hsum
  unfold ListFits at h ⊢
  omega

theorem ListFits.length_le (h : ListFits contacts sender receiver) : contacts.length ≤ 14 := by
  unfold ListFits at h
  omega

theorem ListFits.sendResponse (h : ListFits contacts sender receiver) (requestId : RequestId) :
    sendResponse true ⟨.nodes contacts, sender, receiver, requestId⟩ =
      .ok (JsonText.render (Response.json ⟨.nodes contacts, sender, receiver, requestId⟩)) :=
  sendResponse_ok h

end Budget

/-- Contacts that a node lists to `asker` once it has stored it. -/
def listedTo (asker : NodeInfo) (contacts : List NodeInfo) : List NodeInfo :=
  asker :: contacts.filter (·.id ≠ asker.id)

theorem nodup_listedTo {t : RoutingTable} (h : t.Valid) (asker : NodeInfo) : (listedTo asker t.getAllNodeinfos).Nodup := by
  refine List.nodup_cons.mpr ⟨fun hin => ?_, (List.Nodup.of_map _ h.nodup_ids).filter _⟩
  simpa using (List.mem_filter.mp hin).2

/-- The table of a node in order, and what it lists to `asker` fits into an answer. -/
structure RoutingTable.Informed (t : RoutingTable) (asker n : NodeInfo) : Prop where
  id_eq : t.id = n.id
  valid : t.Valid
  fits : ListFits (listedTo asker t.getAllNodeinfos) n asker

namespace RoutingTable.Informed
variable {t : RoutingTable} {me n : NodeInfo} (h : t.Informed me n)
include h

theorem hasRoom : t.hasRoomFor me = true := by
  refine h.valid.hasRoomFor_of_length ?_ me
  have hlength := h.fits.length_le
  have hone : t.getAllNodeinfos.countP (fun c => decide (c.id = me.id)) ≤ 1 := by
    have hcount := List.nodup_iff_count_le_one.mp h.valid.nodup_ids me.id
    rw [List.count, List.countP_map] at hcount
    refine le_of_eq_of_le (List.countP_congr fun c _ => ?_) hcount
    simp
  have hsplit := List.length_eq_countP_add_countP (fun c : NodeInfo => decide (c.id = me.id))
    (l := t.getAllNodeinfos)
  simp only [listedTo, List.length_cons, ← List.countP_eq_length_filter, ne_eq, decide_not] at hlength
  simp only [decide_eq_true_eq, decide_not] at hsplit
  have hK : K = 20 := rfl
  omega

/-- The contacts of the table once the asking node is stored. -/
theorem stored_perm (hid : n.id ≠ me.id) (ping : PingOutcome) :
    (t.storeNodeinfo me ping).2.getAllNodeinfos.Perm (listedTo me t.getAllNodeinfos) := by
  obtain ⟨-, hmem⟩ := h.valid.storeNodeinfo_of_room (h.id_eq ▸ hid) h.hasRoom ping
  have hnd := List.Nodup.of_map _ (storeNodeinfo_valid h.valid me ping).nodup_ids
  refine (List.perm_ext_iff_of_nodup hnd (nodup_listedTo h.valid me)).mpr fun c => ?_
  rw [hmem c, listedTo, List.mem_cons, List.mem_filter, decide_eq_true_iff]

end RoutingTable.Informed

section Answers
variable {net : PeerNetwork} {me n : NodeInfo} {t : Transit} {target : Key}

theorem Peer.handle_findNode (p : Peer) {q : Request} (env : HandlerEnv) (chunk : Option Nat)
    (hreceiver : q.receiver.id = p.server.nodeInfo.id) (htype : q.requestType = .findNode target)
    {l : List NodeInfo} (hl : (p.server.routingTable.storeNodeinfo q.sender env.ping).2.getKClosest target = .ok l)
    (hlength : l.length ≤ K) :
    (p.handle q env chunk).1 = some ⟨.nodes l, p.server.nodeInfo, q.sender, q.requestId⟩ := by
  have hreaction : (p.server.handleReceivedRequest q env).response =
      some ⟨.nodes l, p.server.nodeInfo, q.sender, q.requestId⟩ := by
    simp only [Server.handleReceivedRequest, hreceiver, ne_eq, not_true, if_false, htype, Server.handleFindNodeMessage,
      Server.recordPossibleNeighbour, hl, ResponseType.newNodes, if_neg (Nat.not_lt_of_le hlength), Server.respond]
  simp only [Peer.handle, hreaction]

/-- A node in order answers a `FIND_NODE` that reaches it with all it knows, the closest first. -/
theorem RoutingTable.Informed.answer (h : (net.table n).Informed me n) (hid : n.id ≠ me.id) (hkey : n.id ≠ target)
    (hanswered : t.Answered me n) :
    ∃ l, (sendLookupRequest me (.findNode target) n t net).1 = .ok ⟨.nodes l, n, me, t.requestId⟩ ∧
      l.Perm (listedTo me (net.table n).getAllNodeinfos) := by
  have hperm := h.stored_perm hid t.env.ping
  have hlength := h.fits.length_le
  have hvalid := RoutingTable.storeNodeinfo_valid h.valid me t.env.ping
  have hne : ((net.table n).storeNodeinfo me t.env.ping).2.id ≠ target := by
    rw [RoutingTable.storeNodeinfo_id, h.id_eq]
    exact hkey
  have hall := hvalid.getNClosest_all (n := K) hne
    (fun hnil => List.cons_ne_nil _ _ (List.nil_perm.mp (hnil ▸ hperm)))
    (by rw [hperm.length_eq]; exact hlength.trans (by decide))
  have hsorted : (sortByDistance NodeInfo.id target
      ((net.table n).storeNodeinfo me t.env.ping).2.getAllNodeinfos).Perm
        (listedTo me (net.table n).getAllNodeinfos) := by
    rw [sortByDistance_eq]
    exact (KeySort.sortOn_perm _ _).trans hperm
  have hhandle := Peer.handle_findNode (q := ⟨.findNode target, me, n, t.requestId⟩) (net.peer n) t.env none
    (by rw [net.is_node]) rfl hall (by rw [hsorted.length_eq]; exact hlength.trans (by decide))
  rw [net.is_node] at hhandle
  have hreply := (sendRequestAndWait_reply me n (.findNode target) t none net _).mpr ⟨hanswered, hhandle⟩
  refine ⟨_, ?_, hsorted⟩
  have hsend := (h.fits.mono hsorted.subperm).sendResponse t.requestId
  simp only [sendLookupRequest, hreply, hsend]

end Answers

section Closing
variable {forValue : Bool} {answers : Answers} {known : NodeInfo → Prop} {initial : List NodeInfo}
  {thisNode : NodeInfo} {target : Key} {s t : LookupRun}

/-- A lookup ends closed if every batch of known contacts is answered with known contacts. -/
theorem ResponsiveRun.closed (hone : OneAddress known) (hstart : ResponsiveRun known initial thisNode s)
    (hround : ∀ u, ResponsiveRun known initial thisNode u →
      u.buffer.BatchAnswers known (nextRound forValue answers u))
    (h : Exits (lookupPass forValue answers) s t) : Closed known initial thisNode t := by
  refine closed_of_exits hone hstart (fun u hu => hround u ?_) h
  refine visits_invariant (I := ResponsiveRun known initial thisNode) (fun s s' hs hnext => ?_) hu hstart
  obtain ⟨-, rfl⟩ := lookupPass_next hnext
  exact hs.next hone (hround s hs)

/-- Every known contact answers with known contacts, whenever it is asked. -/
def AnswersKnown (known : NodeInfo → Prop) (me : NodeInfo) (answers : Answers) : Prop :=
  ∀ round c, known c → c ≠ me →
    ∃ l response, answers round c = .ok response ∧ response.responseType = .nodes l ∧ ∀ d ∈ l, known d

section Known
variable (hs : ResponsiveRun known initial thisNode s)
include hs

theorem ResponsiveRun.known_of_mem {c : NodeInfo} (hc : c ∈ s.buffer.contacts) : known c ∧ c ≠ thisNode :=
  ⟨hs.allAnswered.known_of_mem c hc, ((hs.mem_contacts c).mp hc).1⟩

theorem ResponsiveRun.known_of_batch {c : NodeInfo} (hc : c ∈ s.buffer.batch) : known c ∧ c ≠ thisNode := by
  obtain ⟨e, he, -, rfl⟩ := LookupBuffer.mem_batch hc
  exact hs.known_of_mem (LookupBuffer.mem_contacts_of_mem he)

theorem ResponsiveRun.batchAnswers (h : AnswersKnown known thisNode answers) :
    s.buffer.BatchAnswers known (nextRound forValue answers s) := by
  have hbatch : ∀ c ∈ s.buffer.batch, known c ∧ c ≠ thisNode := fun _ => hs.known_of_batch
  refine nextRound_batchAnswers (fun c hc => ?_) fun c hc => ?_
  · obtain ⟨l, response, hanswer, htype, -⟩ := h s.rounds.length c (hbatch c hc).1 (hbatch c hc).2
    exact ⟨l, response, hanswer, htype⟩
  · obtain ⟨x, hx, hgave, hlisted⟩ := hc
    obtain ⟨d, hd, rfl⟩ := List.mem_map.mp hx
    obtain ⟨l, response, hanswer, htype, hl⟩ := h s.rounds.length d (hbatch d hd).1 (hbatch d hd).2
    rw [singleLookup_of_nodes ⟨response, hanswer, htype⟩] at hlisted
    exact hl c hlisted

end Known

/-- Whoever answered was asked in some round, and all it listed then counts as reported. -/
theorem LookupRun.Answered.reported (h : Exits (lookupPass false answers) (lookupStart target initial thisNode) t)
    {c : NodeInfo} (hc : t.Answered c) :
    ∃ round, ∀ ns response, answers round c = .ok response → response.responseType = .nodes ns → ns ⊆ t.reported := by
  obtain ⟨rs, hrs, r, hr, hresolver, hgave⟩ := hc
  rcases exits_rounds_mem h hrs with hold | ⟨u, -, rfl⟩
  · cases hold
  · refine ⟨u.rounds.length, fun ns response hanswer htype m hm => ?_⟩
    refine LookupRun.mem_reported.mpr ⟨_, hrs, r, hr, hgave, ?_⟩
    obtain ⟨d, -, rfl⟩ := List.mem_map.mp hr
    rw [singleLookup_resolver] at hresolver
    subst hresolver
    rw [singleLookup_of_nodes ⟨response, hanswer, htype⟩]
    exact hm

namespace Closed
variable (h : Closed known initial thisNode t)
include h

theorem closingRound_buffer (answers : Answers) : (closingRound answers t).buffer = t.buffer.sort := by
  have hnone : lookupRound t.buffer.getUnqueriedResultingNodes false (answers t.rounds.length) = [] := by
    rw [h.unqueriedResultingNodes_eq_nil, lookupRound_nil]
  rw [closingRound]
  dsimp only
  rw [hnone, LookupBuffer.record_of_no_value (Bool.false_and _)]
  rfl

/-- The buffer is sorted already. -/
theorem sort_eq : t.buffer.sort = t.buffer := by
  rw [LookupBuffer.sort, sortByDistance_eq]
  congr 1
  exact List.Pairwise.insertionSort_eq h.run.allAnswered.sorted

theorem closingRound_resultingVector (answers : Answers) :
    (closingRound answers t).buffer.getResultingVector = (t.buffer.contacts).take K := by
  rw [h.closingRound_buffer, h.sort_eq, h.resultingVector_eq, LookupBuffer.contacts, List.map_take]

/-- All of the first `K` contacts count as responsive. -/
theorem mem_responsiveNodes (answers : Answers) {c : NodeInfo} :
    c ∈ (closingRound answers t).buffer.getResponsiveNodes → c ∈ t.buffer.contacts := by
  rw [h.closingRound_buffer, h.sort_eq]
  intro hc
  obtain ⟨e, he, rfl⟩ := List.mem_map.mp hc
  exact LookupBuffer.mem_contacts_of_mem (List.mem_of_mem_filter he)

theorem responsiveNodes_of_mem (answers : Answers) {c : NodeInfo} (hc : c ∈ t.buffer.contacts.take K) :
    c ∈ (closingRound answers t).buffer.getResponsiveNodes := by
  rw [h.closingRound_buffer, h.sort_eq]
  rw [LookupBuffer.contacts, ← List.map_take] at hc
  obtain ⟨e, he, rfl⟩ := List.mem_map.mp hc
  have hqueried := h.queried e he
  refine List.mem_map_of_mem (List.mem_filter.mpr ⟨List.mem_of_mem_take he, ?_⟩)
  rw [h.run.allAnswered.responded_eq e (List.mem_of_mem_take he), hqueried]
  rfl

end Closed

end Closing
end P2PFilesystem
