import P2PFilesystem.TableContacts
import P2PFilesystem.UploadCall

/-!
# Lookups among nodes that run the request handler

`find_node` and `join_network` where the answer to a request is what the handler of the
contacted node replies in the state it is in then. Every request leaves its sender in the
table of that node, an answer longer than a datagram is not sent, and between the rounds the
rest of the network does whatever it does.
-/
namespace P2PFilesystem
open LoopFuel

namespace PeerNetwork

def table (self : PeerNetwork) (n : NodeInfo) : RoutingTable := (self.peer n).server.routingTable

def node (self : PeerNetwork) (n : NodeInfo) : Node := ⟨n.id, n.address, self.table n⟩

def setTable (self : PeerNetwork) (n : NodeInfo) (table : RoutingTable) : PeerNetwork :=
  self.set n { self.peer n with server := { (self.peer n).server with routingTable := table } } (self.is_node n)

@[simp] theorem table_setTable (net : PeerNetwork) (n : NodeInfo) (table : RoutingTable) :
    (net.setTable n table).table n = table := by
  simp only [PeerNetwork.table, setTable, set, Function.update_self]

theorem table_setTable_of_ne {n m : NodeInfo} (hm : m ≠ n) (net : PeerNetwork) (table : RoutingTable) :
    (net.setTable n table).table m = net.table m := by
  simp only [PeerNetwork.table, setTable, set, Function.update_of_ne hm]

end PeerNetwork

/-- What becomes of the requests of a call in each round, and what else goes on in the
network before the round. -/
structure Traffic where
  transit : Nat → NodeInfo → Transit
  others : Nat → PeerNetwork → PeerNetwork

/-- Every request is answered, and nothing else goes on. -/
def steadyTraffic : Traffic := ⟨fun _ _ => steadyTransit, fun _ => id⟩

/-- Every contact of a table update finds room when its turn comes. At one that does not,
`add_nodeinfo` pings the head of its bucket, and this ping awaits the guard that the update
itself holds, so that the update never ends. -/
def RoutingTable.roomForAll (self : RoutingTable) (stopAtError : Bool) : List (NodeInfo × PingOutcome) → Bool
  | [] => true
  | (contact, ping) :: rest => self.hasRoomFor contact && match self.storeNodeinfo contact ping with
      | (.error _, table) => stopAtError || table.roomForAll stopAtError rest
      | (.ok _, table) => table.roomForAll stopAtError rest

/-- As long as all contacts together are not more than a bucket holds, each finds room. -/
theorem RoutingTable.Valid.roomForAll_of_length {t : RoutingTable} (h : t.Valid) (stopAtError : Bool)
    {stores : List (NodeInfo × PingOutcome)} (hlen : t.getAllNodeinfos.length + stores.length ≤ K) :
    t.roomForAll stopAtError stores = true := by
  induction stores generalizing t with
  | nil => rfl
  | cons s stores ih =>
      rw [List.length_cons] at hlen
      have hone := h.length_storeNodeinfo_le s.1 s.2
      have hrest := ih (storeNodeinfo_valid h s.1 s.2) (by omega)
      rw [roomForAll, h.hasRoomFor_of_length (by omega), Bool.true_and]
      rcases hstore : t.storeNodeinfo s.1 s.2 with ⟨result, table⟩
      rw [hstore] at hrest
      cases result with
      | error e => simp only [hrest, Bool.or_true]
      | ok u => exact hrest

/-- The stores at the end of a lookup, each with the way its ping would end. -/
def LookupBuffer.tableStores (self : LookupBuffer) (pings : Nat → PingOutcome) : List (NodeInfo × PingOutcome) :=
  self.getResponsiveNodes.zipIdx.map fun n => (n.1, pings n.2)

section Call
variable (me : NodeInfo)

/-- `send_request_and_wait`, with the size check of the answering node. -/
def sendLookupRequest (type : RequestType) (n : NodeInfo) (t : Transit) (net : PeerNetwork) :
    Except NodeError Response × PeerNetwork :=
  let (outcome, net) := sendRequestAndWait me type n t none net
  match outcome with
  | .error e => (.error e, net)
  | .ok response => match sendResponse true response with
      | .ok _ => (.ok response, net)
      | .error _ => (.error .responseTimeout, net)

def lookupRequest (target : Key) (forValue : Bool) : RequestType :=
  if forValue then .findValue target else .findNode target

def sendSingleLookup (target : Key) (forValue : Bool) (transit : NodeInfo → Transit) (n : NodeInfo)
    (net : PeerNetwork) : LookupResponse × PeerNetwork :=
  let (outcome, net) := sendLookupRequest me (lookupRequest target forValue) n (transit n) net
  (singleLookup n forValue outcome, net)

def networkRound (target : Key) (forValue : Bool) (traffic : Traffic) (round : Nat) (resolvers : List NodeInfo)
    (net : PeerNetwork) : List LookupResponse × PeerNetwork :=
  joinAll (sendSingleLookup me target forValue (traffic.transit round)) resolvers (traffic.others round net)

def networkPass (target : Key) (forValue : Bool) (traffic : Traffic) (s : LookupRun × PeerNetwork) :
    Pass (LookupRun × PeerNetwork) :=
  let (resolvers, buffer) := s.1.buffer.getAlphaUnqueriedNodes
  if resolvers.isEmpty then .exit ({ s.1 with buffer := buffer }, s.2)
  else
    let (responses, net) := networkRound me target forValue traffic s.1.rounds.length resolvers s.2
    let (goOn, buffer) := buffer.recordLookupRoundResponses responses forValue
    if goOn then .next (⟨buffer, responses :: s.1.rounds⟩, net) else .exit (⟨buffer, responses :: s.1.rounds⟩, net)

/-- The last lookup on the resulting nodes that have not been queried yet. -/
def networkLastRound (target : Key) (forValue : Bool) (traffic : Traffic) (s : LookupRun × PeerNetwork) :
    List LookupResponse × PeerNetwork :=
  networkRound me target forValue traffic s.1.rounds.length s.1.buffer.getUnqueriedResultingNodes s.2

def networkClosing (target : Key) (traffic : Traffic) (s : LookupRun × PeerNetwork) : LookupRun × PeerNetwork :=
  let (responses, net) := networkLastRound me target false traffic s
  (⟨(s.1.buffer.recordLookupRoundResponses responses false).2, responses :: s.1.rounds⟩, net)

/-- The end of `find_node`: the responsive contacts go into the node's own table; one that
cannot be stored is only logged. `none` is an update that never ends. -/
def finishFindNode (target : Key) (traffic : Traffic) (pings : Nat → PingOutcome) (s : LookupRun × PeerNetwork) :
    Option (Except LookupError (List NodeInfo) × PeerNetwork) :=
  let (s, net) := networkClosing me target traffic s
  let stores := s.buffer.tableStores pings
  if (net.table me).roomForAll false stores then
    some (.ok s.buffer.getResultingVector, net.setTable me ((net.table me).storeAll stores))
  else none

/-- `find_node` by the node `me`; `none` is exhausted fuel or a table update that never ends. -/
def PeerNetwork.findNode (self : PeerNetwork) (target : Key) (traffic : Traffic) (pings : Nat → PingOutcome)
    (now fuel : Nat) : Option (Except LookupError (List NodeInfo) × PeerNetwork) :=
  match (self.table me).lookupGetNClosest target alpha now with
  | (.error e, table) => some (.error (.routingTable e), self.setTable me table)
  | (.ok initialResolvers, table) =>
      let self := self.setTable me table
      if initialResolvers.isEmpty then
        some (.error (.bail "No initial resolvers available for find_node resolutions".toList), self)
      else (runLoop (networkPass me target false traffic) fuel (lookupStart target initialResolvers me, self)).bind
        (finishFindNode me target traffic pings)

/-- `Node::ping`: the address comes from the routing table. -/
def PeerNetwork.ping (self : PeerNetwork) (nodeId : Key) (t : Transit) : Except NodeError Response × PeerNetwork :=
  match (self.table me).getNodeinfo nodeId with
  | .error e => (.error (.routingTableFailed e), self)
  | .ok none => (.error .pingMissingNode, self)
  | .ok (some info) => sendLookupRequest me .ping info t self

/-- The end of `join_network`: the table update stops at the first error. -/
def finishJoin (traffic : Traffic) (pings : Nat → PingOutcome) (s : LookupRun × PeerNetwork) :
    Option (Except LookupError (List NodeInfo) × PeerNetwork) :=
  let (s, net) := networkClosing me me.id traffic s
  let stores := s.buffer.tableStores fun i => pings (i + 1)
  if (net.table me).roomForAll true stores then
    match Node.storeUntilError (net.table me) stores with
    | (.error e, table) => some (.error (.routingTable e), net.setTable me table)
    | (.ok _, table) => some (.ok s.buffer.getResultingVector, net.setTable me table)
  else none

/-- `join_network` by the node `me`; the answer of the beacon is the first round. -/
def PeerNetwork.joinNetwork (self : PeerNetwork) (beacon : NodeInfo) (ping : Transit) (traffic : Traffic)
    (pings : Nat → PingOutcome) (fuel : Nat) : Option (Except LookupError (List NodeInfo) × PeerNetwork) :=
  if !(self.table me).hasRoomFor beacon then none
  else match (self.table me).storeNodeinfo beacon (pings 0) with
  | (.error e, table) => some (.error (.routingTable e), self.setTable me table)
  | (.ok _, table) =>
      match (self.setTable me table).ping me beacon.id ping with
      | (.error e, self) => some (.error (.beaconUnavailable e), self)
      | (.ok _, self) =>
          let (first, self) := sendSingleLookup me me.id false (traffic.transit 0) beacon (traffic.others 0 self)
          if first.kClosest.isEmpty then
            some (.error (.bail "Failed to join network. Beacon node did not respond.".toList), self)
          else
            let initialKClosest := first.kClosest.filter (fun node => node ≠ me)
            (runLoop (networkPass me me.id false traffic) fuel
              (⟨LookupBuffer.new me.id initialKClosest me, [[first]]⟩, self)).bind (finishJoin me traffic pings)

/-- The answer that a contact gives in a round. -/
def answerIn (target : Key) (forValue : Bool) (traffic : Traffic) (round : Nat) (net : PeerNetwork) (c : NodeInfo) :
    Except NodeError Response :=
  (sendLookupRequest me (lookupRequest target forValue) c (traffic.transit round c) (traffic.others round net)).1

end Call

/-- What handling a request does to the routing table: the sender is stored, if the request
is for this node. -/
theorem Server.routingTable_handleReceivedRequest (s : Server) (request : Request) (env : HandlerEnv) :
    (s.handleReceivedRequest request env).server.routingTable =
      if request.receiver.id ≠ s.nodeInfo.id then s.routingTable
      else (s.routingTable.storeNodeinfo request.sender env.ping).2 := by
  have hfind : ∀ (s : Server) key, (s.handleFindNodeMessage request key).server = s := fun s key =>
    (handleFindNodeMessage_quiet s request key).1
  unfold handleReceivedRequest
  split_ifs
  · rfl
  · dsimp only
    cases request.requestType with
    | ping => rfl
    | findNode nodeId => exact congrArg Server.routingTable (hfind _ nodeId)
    | store chunkId =>
        simp only [handleStoreMessage]
        split_ifs <;> rfl
    | getPort chunkId =>
        simp only [handleGetPortMessage]
        split
        · rfl
        · split <;> rfl
    | findValue chunkId =>
        simp only [handleFindValueMessage]
        split_ifs
        · rfl
        · exact congrArg Server.routingTable (hfind _ chunkId)
    | getValue chunkId port =>
        simp only [handleGetValue]
        split <;> rfl

section Requests
variable {me n : NodeInfo} {type : RequestType} {t : Transit} {net : PeerNetwork} {target : Key} {forValue : Bool}
  {traffic : Traffic}

/-- The network after a lookup request is the one after its handling. -/
theorem sendLookupRequest_snd (me n : NodeInfo) (type : RequestType) (t : Transit) (net : PeerNetwork) :
    (sendLookupRequest me type n t net).2 = (sendRequestAndWait me type n t none net).2 := by
  simp only [sendLookupRequest]
  split
  · rfl
  · split <;> rfl

theorem sendLookupRequest_local (me : NodeInfo) (type : RequestType) (transit : NodeInfo → Transit) :
    Local id fun n => sendLookupRequest me type n (transit n) where
  frame := by
    intro n net m hm
    rw [sendLookupRequest_snd]
    exact (sendRequestAndWait_local me type transit none).frame n net m hm
  reply_eq := by
    intro n net net' h
    have hreply := (sendRequestAndWait_local me type transit none).reply_eq n net net' h
    simp only [sendLookupRequest, hreply]
    split
    · rfl
    · split <;> rfl
  peer_eq := by
    intro n net net' h
    rw [sendLookupRequest_snd, sendLookupRequest_snd]
    exact (sendRequestAndWait_local me type transit none).peer_eq n net net' h

theorem sendSingleLookup_local (me : NodeInfo) (target : Key) (forValue : Bool) (transit : NodeInfo → Transit) :
    Local id (sendSingleLookup me target forValue transit) where
  frame := (sendLookupRequest_local me (lookupRequest target forValue) transit).frame
  reply_eq := fun n net net' h => congrArg (singleLookup n forValue)
    ((sendLookupRequest_local me (lookupRequest target forValue) transit).reply_eq n net net' h)
  peer_eq := (sendLookupRequest_local me (lookupRequest target forValue) transit).peer_eq

/-- The dispatcher refuses a request to the node itself. -/
theorem sendLookupRequest_self (me : NodeInfo) (type : RequestType) (t : Transit) (net : PeerNetwork) :
    (sendLookupRequest me type me t net).2 = net := by
  rw [sendLookupRequest_snd]
  simp only [sendRequestAndWait, sendRequest, if_true]

/-- Of the tables, a request changes at most that of the node it is sent to, which is another
one, and there it leaves its sender. -/
theorem table_sendLookupRequest (me n : NodeInfo) (type : RequestType) (t : Transit) (net : PeerNetwork) :
    (∀ m, (sendLookupRequest me type n t net).2.table m = net.table m) ∨
    n ≠ me ∧ (sendLookupRequest me type n t net).2.table n = ((net.table n).storeNodeinfo me t.env.ping).2 ∧
      ∀ m, m ≠ n → (sendLookupRequest me type n t net).2.table m = net.table m := by
  by_cases hself : n = me
  · subst hself
    exact .inl fun m => by rw [sendLookupRequest_self]
  · rw [sendLookupRequest_snd]
    rcases sendRequestAndWait_state me n type t none with hstate | hstate
    · exact .inl fun m => by rw [hstate]
    · refine .inr ⟨hself, ?_, fun m hm => ?_⟩
      · rw [hstate, PeerNetwork.table, PeerNetwork.handle_peer, Peer.server_handle,
          Server.routingTable_handleReceivedRequest, net.is_node, if_neg (not_not_intro rfl)]
        rfl
      · rw [hstate, PeerNetwork.table, PeerNetwork.handle_frame hm]
        rfl

/-- A request that is answered leaves its sender with the node. -/
theorem table_of_answered (h : t.Answered me n) (type : RequestType) (net : PeerNetwork) :
    (sendLookupRequest me type n t net).2.table n = ((net.table n).storeNodeinfo me t.env.ping).2 := by
  rw [sendLookupRequest_snd, PeerNetwork.table, sendRequestAndWait_peer h, Peer.server_handle,
    Server.routingTable_handleReceivedRequest, net.is_node, if_neg (not_not_intro rfl)]
  rfl

/-- A round in which nobody is asked twice: everybody answers as in `answerIn`. -/
theorem networkRound_fst (me : NodeInfo) (target : Key) (forValue : Bool) (traffic : Traffic) (net : PeerNetwork)
    {resolvers : List NodeInfo} (hnd : resolvers.Nodup) (round : Nat) :
    (networkRound me target forValue traffic round resolvers net).1 =
      lookupRound resolvers forValue (answerIn me target forValue traffic round net) := by
  rw [networkRound, joinAll_replies (sendSingleLookup_local me target forValue _) (by rwa [List.map_id])]
  rfl

/-- The tables after a round in which everybody answers: each resolver has stored the asker. -/
theorem table_networkRound (target : Key) (forValue : Bool) (net : PeerNetwork) {resolvers : List NodeInfo}
    (hnd : resolvers.Nodup) {round : Nat}
    (hanswered : ∀ c ∈ resolvers, (traffic.transit round c).Answered me c) (m : NodeInfo) :
    (networkRound me target forValue traffic round resolvers net).2.table m = if m ∈ resolvers
      then (((traffic.others round net).table m).storeNodeinfo me (traffic.transit round m).env.ping).2
      else (traffic.others round net).table m := by
  have hlocal := sendSingleLookup_local me target forValue (traffic.transit round)
  split_ifs with hm
  · rw [networkRound, PeerNetwork.table, ← id_eq m, joinAll_peer hlocal (by rwa [List.map_id]) hm]
    exact table_of_answered (hanswered m hm) _ _
  · rw [networkRound, PeerNetwork.table, joinAll_frame hlocal (by rwa [List.map_id])]
    rfl

/-- Whatever each request keeps, a round keeps. -/
theorem joinAll_invariant {α β : Type*} {send : α → PeerNetwork → β × PeerNetwork} {I : PeerNetwork → Prop}
    {l : List α} (h : ∀ a ∈ l, ∀ net, I net → I (send a net).2) (hI : I net) : I (joinAll send l net).2 := by
  induction l generalizing net with
  | nil => exact hI
  | cons a rest ih => exact ih (fun b hb => h b (List.mem_cons_of_mem a hb)) (h a List.mem_cons_self net hI)

end Requests

section Passes
variable {me : NodeInfo} {target : Key} {forValue : Bool} {traffic : Traffic} {s s' u : LookupRun × PeerNetwork}

/-- The network after a round. -/
def afterRound (me : NodeInfo) (target : Key) (forValue : Bool) (traffic : Traffic) (s : LookupRun × PeerNetwork) :
    PeerNetwork :=
  (networkRound me target forValue traffic s.1.rounds.length s.1.buffer.batch s.2).2

theorem LookupBuffer.batch_nodup {b : LookupBuffer} (h : b.contacts.Nodup) : b.batch.Nodup :=
  h.sublist ((List.take_sublist _ _).trans (List.filter_sublist.map _))

/-- A pass in the network is a pass with the answers that its nodes give now. -/
theorem networkPass_eq (hnd : s.1.buffer.contacts.Nodup) (answers : Answers)
    (hanswers : answers s.1.rounds.length = answerIn me target forValue traffic s.1.rounds.length s.2) :
    networkPass me target forValue traffic s = match lookupPass forValue answers s.1 with
      | .next t => .next (t, afterRound me target forValue traffic s)
      | .exit t => .exit (t, if s.1.buffer.batch = [] then s.2 else afterRound me target forValue traffic s) := by
  have hround : (networkRound me target forValue traffic s.1.rounds.length s.1.buffer.batch s.2).1 =
      lookupRound s.1.buffer.batch forValue (answers s.1.rounds.length) := by
    rw [networkRound_fst me target forValue traffic s.2 (LookupBuffer.batch_nodup hnd), hanswers]
  simp only [networkPass, lookupPass, LookupBuffer.getAlphaUnqueriedNodes_eq, hround, afterRound]
  by_cases hbatch : s.1.buffer.batch = []
  · rw [if_pos (List.isEmpty_iff.mpr hbatch), if_pos (List.isEmpty_iff.mpr hbatch)]
    dsimp only
    rw [if_pos hbatch]
  · rw [if_neg (mt List.isEmpty_iff.mp hbatch), if_neg (mt List.isEmpty_iff.mp hbatch)]
    cases (s.1.buffer.markBatch.recordLookupRoundResponses
        (lookupRound s.1.buffer.batch forValue (answers s.1.rounds.length)) forValue).1 with
    | true => rfl
    | false =>
        simp only [Bool.false_eq_true, if_false]
        rw [if_neg hbatch]

/-- The answers of a pass from `s`. -/
abbrev answersNow (me : NodeInfo) (target : Key) (forValue : Bool) (traffic : Traffic) (net : PeerNetwork) : Answers :=
  fun round => answerIn me target forValue traffic round net

theorem nodup_nextBuffer {s : LookupRun} (hnd : s.buffer.contacts.Nodup) (answers : Answers) :
    (nextBuffer forValue answers s).2.contacts.Nodup :=
  LookupBuffer.record_nodup (by rwa [LookupBuffer.contacts_markBatch])

theorem networkPass_next (hnd : s.1.buffer.contacts.Nodup) (h : networkPass me target forValue traffic s = .next s') :
    lookupPass forValue (answersNow me target forValue traffic s.2) s.1 = .next s'.1 ∧
      s'.2 = afterRound me target forValue traffic s := by
  rw [networkPass_eq hnd (answersNow me target forValue traffic s.2) rfl] at h
  cases hpass : lookupPass forValue (answersNow me target forValue traffic s.2) s.1 with
  | next t => rw [hpass] at h; cases h; exact ⟨rfl, rfl⟩
  | exit t => rw [hpass] at h; cases h

theorem networkPass_exit (hnd : s.1.buffer.contacts.Nodup) (h : networkPass me target forValue traffic s = .exit u) :
    lookupPass forValue (answersNow me target forValue traffic s.2) s.1 = .exit u.1 ∧
      u.2 = if s.1.buffer.batch = [] then s.2 else afterRound me target forValue traffic s := by
  rw [networkPass_eq hnd (answersNow me target forValue traffic s.2) rfl] at h
  cases hpass : lookupPass forValue (answersNow me target forValue traffic s.2) s.1 with
  | next t => rw [hpass] at h; cases h
  | exit t => rw [hpass] at h; cases h; exact ⟨rfl, rfl⟩

theorem networkPass_exits (me : NodeInfo) (target : Key) (forValue : Bool) (traffic : Traffic)
    (hnd : s.1.buffer.contacts.Nodup) :
    ∃ u, Exits (networkPass me target forValue traffic) s u := by
  have := Fintype.ofFinite NodeInfo
  refine exits_of_measure (I := fun s => s.1.buffer.contacts.Nodup) (fun s => s.1.buffer.remaining Finset.univ) ?_ hnd
  intro s s' hs hnext
  obtain ⟨hbatch, hs'⟩ := lookupPass_next (networkPass_next hs hnext).1
  rw [hs']
  exact ⟨nodup_nextBuffer hs _, (LookupBuffer.remaining_record_le (fun _ _ c _ => Finset.mem_univ c) _ forValue).trans_lt
    (LookupBuffer.remaining_markBatch_lt Finset.univ hbatch)⟩

/-- An invariant of the rounds holds when the loop ends. -/
theorem networkExits_invariant {J : LookupRun × PeerNetwork → Prop}
    (hround : ∀ s, J s → s.1.buffer.batch ≠ [] →
      J (⟨(nextBuffer forValue (answersNow me target forValue traffic s.2) s.1).2,
        nextRound forValue (answersNow me target forValue traffic s.2) s.1 :: s.1.rounds⟩,
        afterRound me target forValue traffic s))
    (hnodup : ∀ s, J s → s.1.buffer.contacts.Nodup) (h : Exits (networkPass me target forValue traffic) s u)
    (hs : J s) : J u := by
  obtain ⟨v, hv, he⟩ := h
  have hJ : J v := by
    refine visits_invariant (fun s s' hs hnext => ?_) hv hs
    obtain ⟨hpass, hnet⟩ := networkPass_next (hnodup s hs) hnext
    obtain ⟨hbatch, hrun⟩ := lookupPass_next hpass
    have hnew := hround s hs hbatch
    rwa [← hrun, ← hnet] at hnew
  obtain ⟨hpass, hnet⟩ := networkPass_exit (hnodup v hJ) he
  rcases lookupPass_exit hpass with ⟨hbatch, hsame⟩ | ⟨hbatch, -, hrun⟩
  · have hu : u = v := Prod.ext hsame (hnet.trans (if_pos hbatch))
    rw [hu]
    exact hJ
  · rw [if_neg hbatch] at hnet
    have hnew := hround v hJ hbatch
    rwa [← hrun, ← hnet] at hnew

theorem lookupPass_congr {answers answers' : Answers} {s : LookupRun}
    (h : answers s.rounds.length = answers' s.rounds.length) :
    lookupPass forValue answers s = lookupPass forValue answers' s := by
  simp only [lookupPass, h]

theorem rounds_length_le {answers : Answers} {s t : LookupRun} (h : Exits (lookupPass forValue answers) s t) :
    s.rounds.length ≤ t.rounds.length :=
  exits_invariant (I := fun u => s.rounds.length ≤ u.rounds.length)
    (fun _ hu _ => Nat.le_succ_of_le hu) h (Nat.le_refl _)

/-- A lookup depends on the answers of its own rounds only. -/
theorem exits_congr {answers : Answers} {s t : LookupRun} (h : Exits (lookupPass forValue answers) s t) (answers' : Answers)
    (heq : ∀ round, s.rounds.length ≤ round → answers round = answers' round) :
    Exits (lookupPass forValue answers') s t := by
  obtain ⟨u, hu, he⟩ := h
  induction hu with
  | refl s => exact ⟨s, .refl s, (lookupPass_congr (heq _ (Nat.le_refl _))).symm.trans he⟩
  | @step s s' v hnext _ ih =>
      obtain ⟨-, hs'⟩ := lookupPass_next hnext
      have hlater : ∀ round, s'.rounds.length ≤ round → answers round = answers' round := fun round hround =>
        heq round (by
          rw [hs'] at hround
          exact Nat.le_of_succ_le hround)
      obtain ⟨v, hv, he⟩ := ih hlater he
      exact ⟨v, .step ((lookupPass_congr (heq _ (Nat.le_refl _))).symm.trans hnext) hv, he⟩

/-- The answers that come from states of the network with a property. -/
def ComeFrom (me : NodeInfo) (target : Key) (forValue : Bool) (traffic : Traffic) (I : PeerNetwork → Prop)
    (answers : Answers) : Prop :=
  ∀ round, ∃ net, I net ∧ answers round = answerIn me target forValue traffic round net

/-- The property is kept by the rest of the network and by the requests of the lookup. -/
structure KeptInLookup (me : NodeInfo) (target : Key) (forValue : Bool) (traffic : Traffic) (I : PeerNetwork → Prop) :
    Prop where
  others : ∀ round net, I net → I (traffic.others round net)
  request : ∀ round c net, I net →
    I (sendLookupRequest me (lookupRequest target forValue) c (traffic.transit round c) net).2

variable {I : PeerNetwork → Prop}

theorem KeptInLookup.networkRound (h : KeptInLookup me target forValue traffic I) {round : Nat}
    {resolvers : List NodeInfo} {net : PeerNetwork} (hI : I net) :
    I (networkRound me target forValue traffic round resolvers net).2 :=
  joinAll_invariant (fun c _ net hnet => h.request round c net hnet) (h.others round net hI)

/-- The round loop among the nodes is a run of the lookup in which every round is answered
from a state the network was in then. -/
theorem KeptInLookup.exits (h : KeptInLookup me target forValue traffic I)
    (hexits : Exits (networkPass me target forValue traffic) s u) (hnd : s.1.buffer.contacts.Nodup) (hI : I s.2) :
    I u.2 ∧ u.1.buffer.contacts.Nodup ∧ ∃ answers, ComeFrom me target forValue traffic I answers ∧
      Exits (lookupPass forValue answers) s.1 u.1 ∧
      ∀ round, u.1.rounds.length ≤ round → answers round = answerIn me target forValue traffic round u.2 := by
  obtain ⟨v, hv, he⟩ := hexits
  induction hv with
  | refl s =>
      obtain ⟨hpass, hnet⟩ := networkPass_exit hnd he
      have hu : I u.2 := by
        rw [hnet]
        split_ifs
        · exact hI
        · exact h.networkRound hI
      rcases lookupPass_exit hpass with ⟨hbatch, hsame⟩ | ⟨hbatch, -, hlast⟩
      · rw [if_pos hbatch] at hnet
        exact ⟨hu, hsame ▸ hnd, answersNow me target forValue traffic s.2, fun round => ⟨s.2, hI, rfl⟩,
          ⟨s.1, .refl s.1, hpass⟩, fun round _ => by rw [hnet]⟩
      · have hlength : u.1.rounds.length = s.1.rounds.length + 1 := by
          rw [hlast]
          rfl
        refine ⟨hu, hlast ▸ nodup_nextBuffer hnd _, fun round => if round = s.1.rounds.length
          then answerIn me target forValue traffic round s.2 else answerIn me target forValue traffic round u.2,
          fun round => ?_, ⟨s.1, .refl s.1, ?_⟩, fun round hround => if_neg (by omega)⟩
        · dsimp only
          split_ifs
          · exact ⟨s.2, hI, rfl⟩
          · exact ⟨u.2, hu, rfl⟩
        · rw [← hpass]
          exact lookupPass_congr (if_pos rfl)
  | @step s s' v hnext _ ih =>
      obtain ⟨hpass, hnet⟩ := networkPass_next hnd hnext
      obtain ⟨-, hs'⟩ := lookupPass_next hpass
      have hlength : s'.1.rounds.length = s.1.rounds.length + 1 := by
        rw [hs']
        rfl
      obtain ⟨hu, hndu, answers, hfrom, hrest, hlast⟩ := ih (hs' ▸ nodup_nextBuffer hnd _) (hnet ▸ h.networkRound hI) he
      have hle := rounds_length_le hrest
      refine ⟨hu, hndu, fun round => if round = s.1.rounds.length
        then answerIn me target forValue traffic round s.2 else answers round, fun round => ?_, ?_,
        fun round hround => (if_neg (by omega)).trans (hlast round hround)⟩
      · dsimp only
        split_ifs
        · exact ⟨s.2, hI, rfl⟩
        · exact hfrom round
      · obtain ⟨w, hw, he⟩ := exits_congr hrest (fun round => if round = s.1.rounds.length
          then answerIn me target forValue traffic round s.2 else answers round)
          fun round hround => (if_neg (by omega)).symm
        refine ⟨w, .step ?_ hw, he⟩
        rw [← hpass]
        exact lookupPass_congr (if_pos rfl)

theorem LookupBuffer.unqueriedResultingNodes_nodup {b : LookupBuffer} (h : b.contacts.Nodup) :
    b.getUnqueriedResultingNodes.Nodup :=
  h.sublist ((List.filter_sublist.trans (List.take_sublist _ _)).map _)

/-- What `find_node` comes to in the network, from initial resolvers on: the closing of a
lookup run, and the responsive contacts in the node's own table unless one finds no room. -/
theorem KeptInLookup.findNode (h : KeptInLookup me target false traffic I) {net : PeerNetwork} {now : Nat}
    {initial : List NodeInfo} {table : RoutingTable} (pings : Nat → PingOutcome)
    (hinit : (net.table me).lookupGetNClosest target alpha now = (.ok initial, table)) (hne : initial ≠ [])
    (hnd : initial.Nodup) (hI : I (net.setTable me table)) :
    ∃ t net' answers, ComeFrom me target false traffic I answers ∧ I net' ∧
      Exits (lookupPass false answers) (lookupStart target initial me) t ∧
      ((net'.table me).roomForAll false ((closingRound answers t).buffer.tableStores pings) = true →
        Returns (net.findNode me target traffic pings now) (.ok (closingRound answers t).buffer.getResultingVector,
          net'.setTable me ((net'.table me).storeAll ((closingRound answers t).buffer.tableStores pings)))) ∧
      ((net'.table me).roomForAll false ((closingRound answers t).buffer.tableStores pings) = false →
        Diverges (net.findNode me target traffic pings now)) := by
  have hstart : (lookupStart target initial me).buffer.contacts.Nodup :=
    (LookupBuffer.contacts_new_perm target initial me).nodup_iff.mpr hnd
  obtain ⟨u, hexits⟩ := networkPass_exits me target false traffic
    (s := (lookupStart target initial me, net.setTable me table)) hstart
  obtain ⟨hu, hndu, answers, hfrom, hrun, hlast⟩ := h.exits hexits hstart hI
  have hround : (networkLastRound me target false traffic u).1 =
      lookupRound u.1.buffer.getUnqueriedResultingNodes false (answers u.1.rounds.length) := by
    rw [networkLastRound,
      networkRound_fst me target false traffic u.2 (LookupBuffer.unqueriedResultingNodes_nodup hndu),
      hlast _ (Nat.le_refl _)]
  have hclosing : networkClosing me target traffic u =
      (closingRound answers u.1, (networkLastRound me target false traffic u).2) := by
    simp only [networkClosing, closingRound, hround]
  have hcall : net.findNode me target traffic pings now = fun fuel =>
      (runLoop (networkPass me target false traffic) fuel (lookupStart target initial me, net.setTable me table)).bind
        (finishFindNode me target traffic pings) := by
    funext fuel
    simp only [PeerNetwork.findNode, hinit, if_neg (mt List.isEmpty_iff.mp hne)]
  rw [hcall]
  refine ⟨u.1, (networkLastRound me target false traffic u).2, answers, hfrom, h.networkRound hu, hrun, fun hroom => ?_,
    fun hroom => ?_⟩
  · apply hexits.returns_bind
    simp only [finishFindNode, hclosing, hroom, if_true]
  · apply hexits.diverges_bind
    simp only [finishFindNode, hclosing, hroom, Bool.false_eq_true, if_false]

end Passes
end P2PFilesystem
