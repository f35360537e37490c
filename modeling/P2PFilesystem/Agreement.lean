import P2PFilesystem.RequestHandler
import P2PFilesystem.RequestMap

/-!
# Agreement of responses with their requests

A network of nodes that all run this code. Whatever was sent may reach any node, at any time
and any number of times, or nobody. Neither `send_request_and_wait` nor its callers look at who
answered and with what.
-/
namespace P2PFilesystem
open Traces JsonText

/-- What the protocol answers to a request. -/
def RequestType.Allows : RequestType → ResponseType → Prop
  | .ping, .pong => True
  | .findNode _, .nodes nodes => nodes.length ≤ K
  | .findValue _, .nodes nodes => nodes.length ≤ K
  | .findValue chunkId, .hasValue chunkId' => chunkId' = chunkId
  | .store _, .storeOk => True
  | .store _, .storeChunkUpdated => True
  | .getPort _, .portOk _ => True
  | _, _ => False

/-- The response is one to this request: from the node it was meant for, back to its sender. -/
structure Request.AgreesWith (q : Request) (r : Response) : Prop where
  requestId_eq : r.requestId = q.requestId
  sender_id : r.sender.id = q.receiver.id
  receiver_eq : r.receiver = q.sender
  allowed : q.requestType.Allows r.responseType

theorem ResponseType.newNodes_ok {nodes : List NodeInfo} {type : ResponseType} (h : newNodes nodes = .ok type) :
    type = .nodes nodes ∧ nodes.length ≤ K := by
  unfold newNodes at h
  split_ifs at h with hsize
  exact ⟨(Except.ok.inj h).symm, Nat.le_of_not_lt hsize⟩

namespace Server
variable {s : Server} {request : Request} {r : Response}

theorem handleFindNodeMessage_response {target : Key}
    (h : (s.handleFindNodeMessage request target).response = some r) :
    ∃ nodes, r = s.respond request (.nodes nodes) ∧ nodes.length ≤ K := by
  unfold handleFindNodeMessage at h
  cases hclosest : s.routingTable.getKClosest target with
  | error => rw [hclosest] at h; cases h
  | ok nodes =>
      rw [hclosest] at h
      dsimp only at h
      cases hnew : ResponseType.newNodes nodes with
      | error => rw [hnew] at h; cases h
      | ok type =>
          rw [hnew] at h
          obtain ⟨rfl, hlen⟩ := ResponseType.newNodes_ok hnew
          exact ⟨nodes, (Option.some.inj h).symm, hlen⟩

theorem handleFindValueMessage_response {target : Key}
    (h : (s.handleFindValueMessage request target).response = some r) :
    ∃ type, r = s.respond request type ∧ (RequestType.findValue target).Allows type := by
  unfold handleFindValueMessage at h
  split_ifs at h
  · exact ⟨.hasValue target, (Option.some.inj h).symm, rfl⟩
  · obtain ⟨nodes, hr, hlen⟩ := handleFindNodeMessage_response h
    exact ⟨.nodes nodes, hr, hlen⟩

theorem handleStoreMessage_response {fileId : Key} {now : Nat}
    (h : (s.handleStoreMessage request fileId now).response = some r) :
    ∃ type, r = s.respond request type ∧ (RequestType.store fileId).Allows type := by
  unfold handleStoreMessage at h
  split_ifs at h
  · exact ⟨.storeChunkUpdated, (Option.some.inj h).symm, trivial⟩
  · exact ⟨.storeOk, (Option.some.inj h).symm, trivial⟩

theorem handleGetPortMessage_response {fileId : Key} {listener : Option UInt16}
    (h : (s.handleGetPortMessage request fileId listener).response = some r) :
    ∃ type, r = s.respond request type ∧ (RequestType.getPort fileId).Allows type := by
  unfold handleGetPortMessage at h
  cases listener with
  | none => cases h
  | some port =>
      simp only [ShardStorageManager.addActiveTcpConnection, DataTransfersTable.add] at h
      split at h
      · cases h
      · exact ⟨.portOk port, (Option.some.inj h).symm, trivial⟩

/-- The chunk goes over the transfer, not in a response. -/
theorem handleGetValue_response (s : Server) (request : Request) (chunkId : Key) (port : UInt16) :
    (s.handleGetValue request chunkId port).response = none := by
  unfold handleGetValue
  split <;> rfl

/-- What a handler answers is an answer to the request it was given. -/
theorem handleReceivedRequest_agreesWith {env : HandlerEnv}
    (h : (s.handleReceivedRequest request env).response = some r) : request.AgreesWith r := by
  unfold handleReceivedRequest at h
  by_cases hid : request.receiver.id ≠ s.nodeInfo.id
  · rw [if_pos hid] at h
    cases h
  rw [if_neg hid] at h
  -- the sender of what is answered is the node that the request is for
  have hresponds : ∀ (s' : Server) type, s'.nodeInfo = s.nodeInfo → request.requestType.Allows type →
      r = s'.respond request type → request.AgreesWith r := by
    rintro s' type hnode hallowed rfl
    exact ⟨rfl, by rw [not_not.mp hid, ← hnode]; rfl, rfl, hallowed⟩
  dsimp only at h
  cases htype : request.requestType with
  | ping =>
      rw [htype] at h hresponds
      exact hresponds _ .pong rfl trivial (Option.some.inj h).symm
  | findNode nodeId =>
      rw [htype] at h hresponds
      obtain ⟨nodes, hr, hlen⟩ := handleFindNodeMessage_response h
      exact hresponds _ (.nodes nodes) rfl hlen hr
  | findValue chunkId =>
      rw [htype] at h hresponds
      obtain ⟨type, hr, hallowed⟩ := handleFindValueMessage_response h
      exact hresponds _ type rfl hallowed hr
  | store chunkId =>
      rw [htype] at h hresponds
      obtain ⟨type, hr, hallowed⟩ := handleStoreMessage_response h
      exact hresponds _ type rfl hallowed hr
  | getPort chunkId =>
      rw [htype] at h hresponds
      obtain ⟨type, hr, hallowed⟩ := handleGetPortMessage_response h
      exact hresponds _ type rfl hallowed hr
  | getValue chunkId port =>
      rw [htype] at h
      dsimp only at h
      rw [handleGetValue_response] at h
      cases h

end Server

namespace Correlator
variable {ι κ : Type*} [DecidableEq ι] [DecidableEq κ] {ids : ι → RequestId} {s s' : Correlator ι κ}
  {P : Response → Prop}

/-- Every response that is with a worker or was delivered. -/
def Carries (P : Response → Prop) (s : Correlator ι κ) : Prop :=
  (∀ k d, (s.workers k).delivery = some d → P d.response) ∧ ∀ c d, (c, d) ∈ s.delivered → P d.response

omit [DecidableEq ι] in
theorem Carries.setWorker (h : s.Carries P) {k : κ} {w : WorkerState ι}
    (hw : ∀ d, w.delivery = some d → P d.response) : (s.setWorker k w).Carries P := by
  apply And.intro _ h.2
  intro k' d hk'
  cases delivery_setWorker hk' with
  | inl hnew => exact hw d hnew.2
  | inr hold => exact h.1 k' d hold.2

omit [DecidableEq κ] in
theorem Carries.deliver (h : s.Carries P) {c : ι} {d : Delivery} (hd : P d.response) : (s.deliver c d).Carries P := by
  unfold Correlator.deliver
  split_ifs
  · apply And.intro h.1
    intro c' d' hmem
    cases hmem with
    | head => exact hd
    | tail _ hmem => exact h.2 c' d' hmem
  · exact h

/-- Only what comes off the socket is new. -/
theorem Carries.step (h : s.Carries P) {e : CorrelatorEvent ι κ} (hstep : CorrelatorStep ids s e s')
    (harrives : ∀ k r, e = .arrives k r → P r) : s'.Carries P := by
  cases hstep with
  | addRequest => exact h
  | sent => exact h
  | sendFails => exact h
  | removeUnsent => exact h
  | receives => exact h
  | senderDropped => exact h
  | timesOut => exact h
  | removeTimedOut => exact h
  | @arrives k r _ =>
      have hnew : (s.setWorker k (.checking ⟨s.arrivals, r⟩)).Carries P := by
        apply h.setWorker
        intro d hd
        cases hd
        exact harrives k r rfl
      exact hnew
  | @contains k d hk =>
      apply h.setWorker
      intro d' hd'
      apply h.1 k d'
      rw [hk]
      split_ifs at hd'
      · exact hd'
      · cases hd'
  | @take k d hk =>
      have hd : P d.response := h.1 k d (by rw [hk]; rfl)
      have hnew : ∀ w : WorkerState ι, (∀ d', w.delivery = some d' → P d'.response) → (s.setWorker k w).Carries P :=
        fun _ hw => h.setWorker hw
      refine hnew _ fun d' hd' => ?_
      split at hd'
      · cases hd'
        exact hd
      · cases hd'
  | @send k d c hk =>
      have hd : P d.response := h.1 k d (by rw [hk]; rfl)
      exact (h.deliver hd).setWorker fun _ => nofun

end Correlator

/-- All nodes, and every message that was ever handed to a socket. -/
structure Network (ν ι κ : Type*) where
  servers : ν → Server
  correlators : ν → Correlator ι κ
  wire : List Message

inductive NetworkEvent (ν ι κ : Type*) where
  | call (n : ν) (e : CorrelatorEvent ι κ)
  | sendOneWay (c : ι)
  | handle (n : ν) (q : Request) (env : HandlerEnv) (socketOk : Bool)
  | changes (n : ν) (server : Server)

section Runs
variable {ν ι κ : Type*} [DecidableEq ν] [DecidableEq ι] [DecidableEq κ]

namespace Network

def start (servers : ν → Server) : Network ν ι κ := ⟨servers, fun _ => .new, []⟩

/-- The correlator moves on; a request that was sent is on the wire from then on. -/
def call (net : Network ν ι κ) (request : ι → Request) (n : ν) (e : CorrelatorEvent ι κ) (next : Correlator ι κ) :
    Network ν ι κ :=
  { net with
    correlators := Function.update net.correlators n next
    wire := match e with
      | .sent c => .request (request c) :: net.wire
      | _ => net.wire }

def handle (net : Network ν ι κ) (n : ν) (q : Request) (env : HandlerEnv) (socketOk : Bool) : Network ν ι κ :=
  let reaction := (net.servers n).handleReceivedRequest q env
  { net with
    servers := Function.update net.servers n reaction.server
    wire := match reaction.response with
      | some r => match sendResponse socketOk r with
          | .ok _ => .response r :: net.wire
          | .error _ => net.wire
      | none => net.wire }

end Network

/-- Steps of a network in which call `c` has the request `request c` and is made by the node
`home c`. A node handles any message of the wire. Between messages it may change its table and
its storage as it likes. -/
inductive NetworkStep (home : ι → ν) (request : ι → Request) :
    Network ν ι κ → NetworkEvent ν ι κ → Network ν ι κ → Prop
  | call {net : Network ν ι κ} {n : ν} {e : CorrelatorEvent ι κ} {next : Correlator ι κ} :
      CorrelatorStep (fun c => (request c).requestId) (net.correlators n) e next →
      (∀ c, e = .addRequest c → home c = n) →
      (∀ c, e = .sent c → ∃ datagram, sendRequest true (request c) = .ok datagram) →
      (∀ k r, e = .arrives k r → .response r ∈ net.wire) →
      NetworkStep home request net (.call n e) (net.call request n e next)
  | sendOneWay {net : Network ν ι κ} {c : ι} {datagram : Text} : sendRequest true (request c) = .ok datagram →
      NetworkStep home request net (.sendOneWay c) { net with wire := .request (request c) :: net.wire }
  | handle {net : Network ν ι κ} {n : ν} {q : Request} {env : HandlerEnv} {socketOk : Bool} :
      .request q ∈ net.wire → NetworkStep home request net (.handle n q env socketOk) (net.handle n q env socketOk)
  | changes {net : Network ν ι κ} {n : ν} {server : Server} : server.nodeInfo = (net.servers n).nodeInfo →
      NetworkStep home request net (.changes n server) { net with servers := Function.update net.servers n server }

/-- Requests on the wire are requests of calls, responses there and everywhere answer one. -/
structure Agreement (request : ι → Request) (net : Network ν ι κ) : Prop where
  requests : ∀ q, .request q ∈ net.wire → ∃ c, q = request c
  responses : ∀ r, .response r ∈ net.wire → ∃ c, (request c).AgreesWith r
  carried : ∀ n, (net.correlators n).Carries fun r => ∃ c, (request c).AgreesWith r
  correlates : ∀ n, (net.correlators n).Correlates fun c => (request c).requestId

variable {home : ι → ν} {request : ι → Request} {net net' : Network ν ι κ}

omit [DecidableEq ν] [DecidableEq ι] [DecidableEq κ] in
theorem agreement_start (servers : ν → Server) : Agreement request (Network.start servers : Network ν ι κ) := by
  constructor
  · intro q hq
    cases hq
  · intro r hr
    cases hr
  · intro n
    exact ⟨fun _ _ => nofun, fun _ _ => nofun⟩
  · intro n
    exact Correlator.correlates_new

omit [DecidableEq ν] [DecidableEq ι] [DecidableEq κ] in
theorem Agreement.sendRequest (h : Agreement request net) (c : ι) :
    Agreement request { net with wire := .request (request c) :: net.wire } :=
  { h with
    requests := by
      intro q hq
      cases hq with
      | head => exact ⟨c, rfl⟩
      | tail _ hq => exact h.requests q hq
    responses := by
      intro r hr
      cases hr with
      | tail _ hr => exact h.responses r hr }

theorem Agreement.call (hids : Function.Injective fun c => (request c).requestId) (h : Agreement request net)
    {n : ν} {e : CorrelatorEvent ι κ} {next : Correlator ι κ}
    (hstep : CorrelatorStep (fun c => (request c).requestId) (net.correlators n) e next)
    (harrives : ∀ k r, e = .arrives k r → .response r ∈ net.wire) : Agreement request (net.call request n e next) := by
  have hnext : Agreement request { net with correlators := Function.update net.correlators n next } :=
    { h with
      carried := by
        intro m
        by_cases hm : m = n
        · subst hm
          simp only [Function.update_self]
          exact (h.carried m).step hstep fun k r he => h.responses r (harrives k r he)
        · simp only [Function.update_of_ne hm]
          exact h.carried m
      correlates := by
        intro m
        by_cases hm : m = n
        · subst hm
          simp only [Function.update_self]
          exact (h.correlates m).step hids hstep
        · simp only [Function.update_of_ne hm]
          exact h.correlates m }
  unfold Network.call
  cases e with
  | sent c => exact hnext.sendRequest c
  | _ => exact hnext

omit [DecidableEq ι] [DecidableEq κ] in
/-- What goes onto the wire answers the request that was handled, and that one is some call's. -/
theorem Agreement.handle (h : Agreement request net) {n : ν} {q : Request} (hq : .request q ∈ net.wire)
    (env : HandlerEnv) (socketOk : Bool) : Agreement request (net.handle n q env socketOk) := by
  unfold Network.handle
  dsimp only
  cases hr : ((net.servers n).handleReceivedRequest q env).response with
  | none => exact { h with }
  | some r =>
      dsimp only
      cases sendResponse socketOk r with
      | error => exact { h with }
      | ok datagram =>
          obtain ⟨c, rfl⟩ := h.requests q hq
          exact { h with
            requests := by
              intro q' hq'
              cases hq' with
              | tail _ hq' => exact h.requests q' hq'
            responses := by
              intro r' hr'
              cases hr' with
              | head => exact ⟨c, Server.handleReceivedRequest_agreesWith hr⟩
              | tail _ hr' => exact h.responses r' hr' }

theorem Agreement.step (hids : Function.Injective fun c => (request c).requestId) {e : NetworkEvent ν ι κ}
    (h : Agreement request net) (hstep : NetworkStep home request net e net') : Agreement request net' := by
  cases hstep with
  | call hstep _ _ harrives => exact h.call hids hstep harrives
  | sendOneWay => exact h.sendRequest _
  | handle hq => exact h.handle hq _ _
  | changes => exact { h with }

/-- With distinct request ids, what a call completes with agrees with its request, in every
run of the network. -/
theorem network_agreement (hids : Function.Injective fun c => (request c).requestId) {servers : ν → Server}
    {hist : List (Network ν ι κ × NetworkEvent ν ι κ)}
    (hrun : Trace (NetworkStep home request) (Network.start servers) hist net) {n : ν} {c : ι} {d : Delivery}
    (hc : (net.correlators n).calls c = .returned (.ok d)) : (request c).AgreesWith d.response := by
  have h : Agreement request net := hrun.invariant (fun _ _ _ h hstep => h.step hids hstep) (agreement_start servers)
  have hdelivered : (c, d) ∈ (net.correlators n).delivered := (h.correlates n).sender.returned hc
  obtain ⟨c', hagrees⟩ := (h.carried n).2 c d hdelivered
  -- the response answers the call whose id it carries
  have hid : (request c).requestId = (request c').requestId := by
    calc (request c).requestId = d.response.requestId := ((h.correlates n).sender.served_id hdelivered).symm
      _ = (request c').requestId := hagrees.requestId_eq
  rw [hids hid]
  exact hagrees

end Runs

def pingRequest : Request := ⟨.ping, .local 1 4001, .local 2 4002, zeroRequestId⟩

def pongResponse : Response := ⟨.pong, .local 2 4002, .local 1 4001, zeroRequestId⟩

/-- Nobody answers a ping, and there is no port to listen on. -/
def quietEnv : HandlerEnv := ⟨fun _ => .error .responseTimeout, 0, none⟩

def twoServers (n : Bool) : Server := .started (if n then .local 2 4002 else .local 1 4001)

/-- The pong goes onto the wire. -/
theorem handle_pingRequest_wire (net : Network Bool Unit Unit) (h : net.servers true = twoServers true)
    (env : HandlerEnv) : .response pongResponse ∈ (net.handle true pingRequest env true).wire := by
  have hr : ((twoServers true).handleReceivedRequest pingRequest env).response = some pongResponse := rfl
  have hsent : sendResponse true pongResponse = .ok (render pongResponse.json) := sendResponse_ok trivial
  simp only [Network.handle, h, hr, hsent, List.mem_cons_self]

theorem network_agreement_ping : (Function.Injective fun _ : Unit => pingRequest.requestId) ∧
    ∃ (hist : _) (net : Network Bool Unit Unit),
      Trace (NetworkStep (fun _ => false) fun _ => pingRequest) (Network.start twoServers) hist net ∧
      (net.correlators false).calls () = .returned (.ok ⟨0, pongResponse⟩) ∧ pingRequest.AgreesWith pongResponse := by
  have hids : Function.Injective fun _ : Unit => pingRequest.requestId := fun _ _ _ => rfl
  have hsent : ∃ datagram, sendRequest true pingRequest = .ok datagram := ⟨_, sendRequest_ok (by decide)⟩
  have hasked : Trace (NetworkStep (fun _ => false) fun _ => pingRequest)
      (Network.start twoServers : Network Bool Unit Unit) _ _ :=
    .next (.next .start (.call (n := false) (.addRequest (c := ()) rfl) (fun _ _ => rfl) (fun _ => nofun) fun _ _ => nofun))
      (.call (n := false) (.sent (c := ()) rfl) (fun _ => nofun) (fun _ _ => hsent) fun _ _ => nofun)
  have hanswered : Trace _ _ _ (Network.handle _ true pingRequest quietEnv true) :=
    hasked.next (.handle List.mem_cons_self)
  have harrived := hanswered.next (.call (n := false) (.arrives (k := ()) (r := pongResponse) rfl) (fun _ => nofun)
    (fun _ => nofun) fun _ _ he => (CorrelatorEvent.arrives.inj he).2 ▸ handle_pingRequest_wire _ rfl _)
  have htaken := (harrived.next (.call (n := false) (.contains (k := ()) rfl) (fun _ => nofun) (fun _ => nofun)
    fun _ _ => nofun)).next (.call (n := false) (.take (k := ()) rfl) (fun _ => nofun) (fun _ => nofun) fun _ _ => nofun)
  have hrun := (htaken.next (.call (n := false) (.send (k := ()) rfl) (fun _ => nofun) (fun _ => nofun)
    fun _ _ => nofun)).next (.call (n := false) (.receives (c := ()) rfl rfl) (fun _ => nofun) (fun _ => nofun)
    fun _ _ => nofun)
  exact ⟨hids, _, _, hrun, rfl, network_agreement hids hrun (n := false) (c := ()) (d := ⟨0, pongResponse⟩) rfl⟩

end P2PFilesystem
