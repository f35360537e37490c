import P2PFilesystem.SelfLookup
import P2PFilesystem.UploadSoundness
import Mathlib.Data.List.ReduceOption

/-!
# A call of `upload_file`

`Node::upload_file` from the first chunk to the metadata, in a network that answers. What a
chunk leaves with the nodes is there when the next one comes; everything else that goes on in
the network happens between two phases of the call and is arbitrary. Moves of a node that no
answer waits for, such as the logging and the entry in the file manager, are left out.
-/
namespace P2PFilesystem
open LoopFuel

/-- The nodes, each reached under its contact. -/
structure PeerNetwork where
  peer : NodeInfo → Peer
  is_node : ∀ n, (peer n).server.nodeInfo = n

theorem Peer.handle_nodeInfo (p : Peer) (request : Request) (env : HandlerEnv) (chunk : Option Nat) :
    (p.handle request env chunk).2.server.nodeInfo = p.server.nodeInfo := by
  rw [Peer.server_handle]
  rcases p.server.handleReceivedRequest_cases request env with h | ⟨h, -⟩
  · exact h.keeps.node_eq
  · exact h.node_eq

namespace PeerNetwork

def set (self : PeerNetwork) (n : NodeInfo) (p : Peer) (h : p.server.nodeInfo = n) : PeerNetwork where
  peer := Function.update self.peer n p
  is_node := by
    intro m
    by_cases hm : m = n
    · subst hm
      rw [Function.update_self, h]
    · rw [Function.update_of_ne hm, self.is_node]

def handle (self : PeerNetwork) (n : NodeInfo) (request : Request) (env : HandlerEnv) (chunk : Option Nat) :
    Option Response × PeerNetwork :=
  (((self.peer n).handle request env chunk).1,
    self.set n ((self.peer n).handle request env chunk).2 ((Peer.handle_nodeInfo ..).trans (self.is_node n)))

theorem handle_frame {n m : NodeInfo} (hm : m ≠ n) (net : PeerNetwork) (request : Request) (env : HandlerEnv)
    (chunk : Option Nat) : (net.handle n request env chunk).2.peer m = net.peer m := Function.update_of_ne hm ..

theorem handle_peer (net : PeerNetwork) (n : NodeInfo) (request : Request) (env : HandlerEnv) (chunk : Option Nat) :
    (net.handle n request env chunk).2.peer n = ((net.peer n).handle request env chunk).2 := Function.update_self ..

def receive (self : PeerNetwork) (n : NodeInfo) (port : UInt16) (chunk : Option Nat) (data : Bytes) : PeerNetwork :=
  self.set n ((self.peer n).receive port chunk data) (self.is_node n)

def save (self : PeerNetwork) (n : NodeInfo) (port : UInt16) (data : Bytes) (io : StoreIo) (now : Nat) : PeerNetwork :=
  self.set n ((self.peer n).save port data io now).2 (self.is_node n)

theorem receive_peer (net : PeerNetwork) (n : NodeInfo) (port : UInt16) (chunk : Option Nat) (data : Bytes) :
    (net.receive n port chunk data).peer n = (net.peer n).receive port chunk data := Function.update_self ..

theorem save_peer (net : PeerNetwork) (n : NodeInfo) (port : UInt16) (data : Bytes) (io : StoreIo) (now : Nat) :
    (net.save n port data io now).peer n = ((net.peer n).save port data io now).2 := Function.update_self ..

end PeerNetwork

/-- What becomes of one request: whether the socket takes it, whether it arrives, what
handling it needs from outside, and whether the reply is heard in time. -/
structure Transit where
  requestId : RequestId
  socketOk : Bool
  arrives : Bool
  env : HandlerEnv
  heard : Bool

/-- What becomes of a TCP transfer: it fails, it is received, or it is received and stored
before the upload goes on. -/
inductive Transfer where
  | fails
  | received
  | saved (io : StoreIo) (now : Nat)
  deriving DecidableEq

/-- What the environment supplies while one chunk is uploaded: the result of `find_node`,
which has no contact twice, the requests and transfers, and what goes on besides before the
chunk is offered and before ports are asked for. -/
structure ChunkRound where
  found : Except LookupError (List NodeInfo)
  nodup_found : ∀ nodes, found = .ok nodes → nodes.Nodup
  stores : NodeInfo → Transit
  ports : NodeInfo → Transit
  transfers : NodeInfo → UInt16 → Transfer
  before : PeerNetwork → PeerNetwork
  between : PeerNetwork → PeerNetwork

/-- `join_all`. -/
def joinAll {α β : Type*} (send : α → PeerNetwork → β × PeerNetwork) :
    List α → PeerNetwork → List β × PeerNetwork
  | [], net => ([], net)
  | a :: rest, net =>
      let (b, net) := send a net
      let (bs, net) := joinAll send rest net
      (b :: bs, net)

section Call
variable (me : NodeInfo)

def sendRequestAndWait (type : RequestType) (n : NodeInfo) (t : Transit) (chunk : Option Nat) (net : PeerNetwork) :
    Except NodeError Response × PeerNetwork :=
  let request : Request := ⟨type, me, n, t.requestId⟩
  match sendRequest t.socketOk request with
  | .error _ => (.error .unableToSend, net)
  | .ok _ =>
      if t.arrives then
        let (reply, net) := net.handle n request t.env chunk
        (match reply with
          | some response => if t.heard then .ok response else .error .responseTimeout
          | none => .error .responseTimeout, net)
      else (.error .responseTimeout, net)

/-- The response, if it is of the kind that the request asks for. -/
def accepted (kind : ResponseType → Bool) : Except NodeError Response → Option Response
  | .ok response => if kind response.responseType then some response else none
  | .error _ => none

/-- Only `STORE_OK` is accepted: not `STORE_CHUNK_UPDATED`, which refreshes the chunk, and no
failure. -/
def sendInitialStoreRequest (fileId : Key) (transit : NodeInfo → Transit) (n : NodeInfo) (net : PeerNetwork) :
    Option Response × PeerNetwork :=
  let (outcome, net) := sendRequestAndWait me (.store fileId) n (transit n) none net
  (accepted (· = .storeOk) outcome, net)

def resolveAlphaClosestNodesToKey (chunkId : Key) (round : ChunkRound) (net : PeerNetwork) :
    Except UploadError (List Response) × PeerNetwork :=
  match round.found with
  | .error _ => (.error .lookup, net)
  | .ok closestNodes =>
      let (responses, net) := joinAll (sendInitialStoreRequest me chunkId round.stores) closestNodes net
      let responsiveNodes := responses.reduceOption
      if responsiveNodes.isEmpty then
        (.error (.bail "Unable to store file. No responsive nodes.".toList), net)
      else (.ok ((sortByDistance (·.sender.id) chunkId responsiveNodes).take alpha), net)

def ResponseType.isPortOk : ResponseType → Bool
  | .portOk _ => true
  | _ => false

/-- `index` is the number of the chunk in the file. -/
def sendGetPortRequest (key : Key) (index : Nat) (transit : NodeInfo → Transit) (n : NodeInfo) (net : PeerNetwork) :
    Option Response × PeerNetwork :=
  let (outcome, net) := sendRequestAndWait me (.getPort key) n (transit n) (some index) net
  (accepted ResponseType.isPortOk outcome, net)

def getPortsForNodes (nodes : List Response) (key : Key) (index : Nat) (round : ChunkRound) (net : PeerNetwork) :
    Except UploadError (List Response) × PeerNetwork :=
  if nodes.isEmpty then (.error (.bail "No nodes to send the request to.".toList), net)
  else if nodes.length > alpha then
    (.error (.bail ("Too many nodes to send the request to - concurrency parameter ALPHA is ".toList ++
      JsonText.decimal alpha)), net)
  else
    let (responses, net) := joinAll (sendGetPortRequest me key index round.ports) (nodes.map Response.sender) net
    let responsiveNodes := responses.reduceOption
    if responsiveNodes.isEmpty then
      (.error (.bail "Unable to store file. No nodes are ready to accept TCP data transfer.".toList), net)
    else (.ok responsiveNodes, net)

/-- Whether the chunk was written to the stream. -/
def sendChunkOverTcp (chunk : Chunk) (index : Nat) (round : ChunkRound) (response : Response) (net : PeerNetwork) :
    Bool × PeerNetwork :=
  match response.responseType with
  | .portOk port =>
      let received := net.receive response.sender port (some index) chunk.data
      match round.transfers response.sender port with
      | .fails => (false, net)
      | .received => (true, received)
      | .saved io now => (true, received.save response.sender port chunk.data io now)
  | _ => (false, net)

def storeChunk (ports : List Response) (chunk : Chunk) (index : Nat) (round : ChunkRound) (net : PeerNetwork) :
    Except UploadError Unit × PeerNetwork :=
  let (sentResults, net) := joinAll (sendChunkOverTcp chunk index round) ports net
  if sentResults.any id then (.ok (), net)
  else (.error (.bail "Chunk was not sent to any node!".toList), net)

/-- One pass through the loop of `upload_file`. -/
def uploadChunk (chunk : Chunk) (index : Nat) (round : ChunkRound) (net : PeerNetwork) :
    Except UploadError Unit × PeerNetwork :=
  match resolveAlphaClosestNodesToKey me chunk.hash round (round.before net) with
  | (.error e, net) => (.error e, net)
  | (.ok responsibleNodes, net) =>
      match getPortsForNodes me responsibleNodes chunk.hash index round (round.between net) with
      | (.error e, net) => (.error e, net)
      | (.ok ports, net) => storeChunk ports chunk index round net

theorem FileUploader.length_remaining_lt {A : Aead} {sha1 : Bytes → Key} {draw : Draw} {up rest : FileUploader}
    {chunk : Chunk} (h : up.getNextChunkEncrypt A sha1 draw = (.ok (some chunk), rest)) :
    rest.remaining.length < up.remaining.length := by
  have hpos := draw.one_le_size
  unfold getNextChunkEncrypt at h
  dsimp only at h
  split_ifs at h with hread
  · cases h
  · rw [List.length_take] at hread
    split at h <;> cases h
    rw [List.length_drop]
    omega

def uploadLoop (A : Aead) (sha1 : Bytes → Key) (draws : Nat → Draw) (rounds : Nat → ChunkRound) (index : Nat)
    (uploader : FileUploader) (net : PeerNetwork) : Except UploadError FileMetadata × PeerNetwork :=
  match _cut : uploader.getNextChunkEncrypt A sha1 (draws index) with
  | (.err e, _) => (.error (.sharding e), net)
  | (.panic, _) => (.error .panic, net)
  | (.ok none, uploader) => (uploader.getMetadata.mapError .sharding, net)
  | (.ok (some chunk), rest) =>
      match uploadChunk me chunk index (rounds index) net with
      | (.error e, net) => (.error e, net)
      | (.ok _, net) => uploadLoop A sha1 draws rounds (index + 1) rest net
termination_by uploader.remaining.length
decreasing_by exact FileUploader.length_remaining_lt _cut

/-- `upload_file` of an existing file, with the key that is generated for it. -/
def uploadFile (A : Aead) (sha1 : Bytes → Key) (draws : Nat → Draw) (rounds : Nat → ChunkRound) (name : Text)
    (content key : Bytes) (net : PeerNetwork) : Except UploadError FileMetadata × PeerNetwork :=
  match FileUploader.new name content key with
  | .error e => (.error (.sharding e), net)
  | .ok uploader => uploadLoop me A sha1 draws rounds 0 uploader net

end Call

/-- A lookup from a valid table lists no contact twice. -/
theorem Node.findNode_nodup {self node : Node} (hvalid : self.routingTable.Valid) {target : Key} {answers : Answers}
    {pings : Nat → PingOutcome} {now fuel : Nat} {nodes : List NodeInfo}
    (h : self.findNode target answers pings now fuel = some (.ok nodes, node)) : nodes.Nodup := by
  unfold Node.findNode at h
  rcases hinit : self.routingTable.lookupGetNClosest target alpha now with ⟨⟨e⟩ | ⟨initial⟩, table⟩
  · rw [hinit] at h
    cases h
  · rw [hinit] at h
    dsimp only at h
    split_ifs at h
    · cases h
    · obtain ⟨s, hs, hresult⟩ := Option.map_eq_some_iff.mp h
      cases hresult
      obtain ⟨t, ht, rfl⟩ := Option.map_eq_some_iff.mp hs
      have hstart : (LookupBuffer.new target initial self.toNodeInfo).contacts.Nodup :=
        (LookupBuffer.contacts_new_perm _ _ _).nodup_iff.mpr (hvalid.lookupGetNClosest_subset hinit).1
      have hend : t.buffer.contacts.Nodup :=
        exits_invariant (I := fun s => s.buffer.contacts.Nodup)
          (fun u hu _ => LookupBuffer.record_nodup (by rwa [LookupBuffer.contacts_markBatch]))
          (runLoop_iff_exits.mp ⟨fuel, ht⟩) hstart
      exact (LookupBuffer.record_nodup hend).sublist (((List.take_sublist _ _).trans List.filter_sublist).map _)

/-- A request to one node concerns that node only. -/
structure Local {α β : Type*} (key : α → NodeInfo) (send : α → PeerNetwork → β × PeerNetwork) : Prop where
  frame : ∀ a net m, m ≠ key a → (send a net).2.peer m = net.peer m
  reply_eq : ∀ a net net', net.peer (key a) = net'.peer (key a) → (send a net).1 = (send a net').1
  peer_eq : ∀ a net net', net.peer (key a) = net'.peer (key a) →
    (send a net).2.peer (key a) = (send a net').2.peer (key a)

section JoinAll
variable {α β : Type*} {key : α → NodeInfo} {send : α → PeerNetwork → β × PeerNetwork}

theorem Local.map {γ : Type*} (h : Local key send) (f : β → γ) :
    Local key fun a net => (f (send a net).1, (send a net).2) where
  frame := h.frame
  reply_eq := fun a net net' hpeer => congrArg f (h.reply_eq a net net' hpeer)
  peer_eq := h.peer_eq

theorem joinAll_frame (h : Local key send) {l : List α} {m : NodeInfo} (hm : m ∉ l.map key) (net : PeerNetwork) :
    (joinAll send l net).2.peer m = net.peer m := by
  induction l generalizing net with
  | nil => rfl
  | cons a rest ih =>
      rw [List.map_cons, List.mem_cons, not_or] at hm
      exact (ih hm.2 _).trans (h.frame a net m hm.1)

/-- Requests to different nodes are answered as if each was the only one. -/
theorem joinAll_replies (h : Local key send) {l : List α} (hnd : (l.map key).Nodup) (net : PeerNetwork) :
    (joinAll send l net).1 = l.map fun a => (send a net).1 := by
  induction l generalizing net with
  | nil => rfl
  | cons a rest ih =>
      rw [List.map_cons, List.nodup_cons] at hnd
      have hrest : (joinAll send rest (send a net).2).1 = rest.map fun b => (send b net).1 := by
        rw [ih hnd.2]
        refine List.map_congr_left fun b hb => h.reply_eq b _ _ (h.frame a net _ ?_)
        rintro heq
        exact hnd.1 (heq ▸ List.mem_map_of_mem hb)
      exact congrArg ((send a net).1 :: ·) hrest

theorem joinAll_peer (h : Local key send) {l : List α} (hnd : (l.map key).Nodup) {a : α} (ha : a ∈ l)
    (net : PeerNetwork) :
    (joinAll send l net).2.peer (key a) = (send a net).2.peer (key a) := by
  induction l generalizing net with
  | nil => cases ha
  | cons b rest ih =>
      rw [List.map_cons, List.nodup_cons] at hnd
      rcases List.mem_cons.mp ha with rfl | ha
      · exact joinAll_frame h hnd.1 _
      · refine (ih hnd.2 ha _).trans (h.peer_eq a _ _ (h.frame b net _ ?_))
        rintro heq
        exact hnd.1 (heq ▸ List.mem_map_of_mem ha)

end JoinAll

/-- The request is sent to another node, arrives, and its answer comes in time. -/
def Transit.Answered (t : Transit) (me n : NodeInfo) : Prop := n ≠ me ∧ t.socketOk ∧ t.arrives ∧ t.heard

instance (t : Transit) (me n : NodeInfo) : Decidable (t.Answered me n) := inferInstanceAs (Decidable (_ ∧ _))

section Requests
variable {me n : NodeInfo} {type : RequestType} {t : Transit} {transit : NodeInfo → Transit} {chunk : Option Nat}

theorem sendRequest_socket (q : Request) (socketOk : Bool) :
    (∃ text, sendRequest socketOk q = .ok text) ↔ q.receiver ≠ q.sender ∧ socketOk = true := by
  constructor
  · rintro ⟨text, h⟩
    unfold sendRequest at h
    dsimp only at h
    split_ifs at h with hself hsize hok
    exact ⟨hself, hok⟩
  · rintro ⟨hne, rfl⟩
    exact ⟨_, sendRequest_ok hne⟩

/-- A request fails at the sender, or it is handled and its answer is accepted if it is heard. -/
theorem sendRequestAndWait_cases (me n : NodeInfo) (type : RequestType) (t : Transit) (chunk : Option Nat) :
    (∃ e, ∀ net, sendRequestAndWait me type n t chunk net = (.error e, net)) ∨
    ∀ net, (sendRequestAndWait me type n t chunk net).2 = (net.handle n ⟨type, me, n, t.requestId⟩ t.env chunk).2 ∧
      ∀ kind, accepted kind (sendRequestAndWait me type n t chunk net).1 =
        (net.handle n ⟨type, me, n, t.requestId⟩ t.env chunk).1.filter fun r => t.heard && kind r.responseType := by
  unfold sendRequestAndWait
  dsimp only
  cases sendRequest t.socketOk ⟨type, me, n, t.requestId⟩ with
  | error e => exact .inl ⟨_, fun _ => rfl⟩
  | ok text =>
      cases t.arrives with
      | false => exact .inl ⟨_, fun _ => rfl⟩
      | true =>
          refine .inr fun net => ⟨rfl, fun kind => ?_⟩
          dsimp only
          rw [if_pos rfl]
          cases (net.handle n ⟨type, me, n, t.requestId⟩ t.env chunk).1 with
          | none => rfl
          | some response => cases t.heard <;> rfl

/-- The request reaches the node or it changes nothing, whatever the node is like. -/
theorem sendRequestAndWait_state (me n : NodeInfo) (type : RequestType) (t : Transit) (chunk : Option Nat) :
    (∀ net, (sendRequestAndWait me type n t chunk net).2 = net) ∨
    ∀ net, (sendRequestAndWait me type n t chunk net).2 = (net.handle n ⟨type, me, n, t.requestId⟩ t.env chunk).2 := by
  rcases sendRequestAndWait_cases me n type t chunk with ⟨e, h⟩ | h
  · exact .inl fun net => by rw [h]
  · exact .inr fun net => (h net).1

theorem sendRequestAndWait_local (me : NodeInfo) (type : RequestType) (transit : NodeInfo → Transit)
    (chunk : Option Nat) : Local id fun n => sendRequestAndWait me type n (transit n) chunk where
  frame := by
    intro n net m hm
    rcases sendRequestAndWait_state me n type (transit n) chunk with h | h
    · rw [h]
    · rw [h]
      exact PeerNetwork.handle_frame hm ..
  reply_eq := by
    intro n net net' h
    have hreply : (net.handle n ⟨type, me, n, (transit n).requestId⟩ (transit n).env chunk).1 =
        (net'.handle n ⟨type, me, n, (transit n).requestId⟩ (transit n).env chunk).1 :=
      congrArg (fun p : Peer => (p.handle ⟨type, me, n, (transit n).requestId⟩ (transit n).env chunk).1) h
    unfold sendRequestAndWait
    dsimp only
    rw [hreply]
    split
    · rfl
    · split_ifs <;> rfl
  peer_eq := by
    intro n net net' h
    have hpeer : net.peer n = net'.peer n := h
    rcases sendRequestAndWait_state me n type (transit n) chunk with h | h
    · rw [h, h]
      exact hpeer
    · rw [h, h, id, PeerNetwork.handle_peer, PeerNetwork.handle_peer, hpeer]

/-- The answer of an answered request is the node's own. -/
theorem sendRequestAndWait_reply (me n : NodeInfo) (type : RequestType) (t : Transit) (chunk : Option Nat)
    (net : PeerNetwork) (response : Response) :
    (sendRequestAndWait me type n t chunk net).1 = .ok response ↔
      t.Answered me n ∧ ((net.peer n).handle ⟨type, me, n, t.requestId⟩ t.env chunk).1 = some response := by
  have hsent := sendRequest_socket ⟨type, me, n, t.requestId⟩ t.socketOk
  unfold sendRequestAndWait PeerNetwork.handle Transit.Answered
  dsimp only
  cases hs : sendRequest t.socketOk ⟨type, me, n, t.requestId⟩ with
  | error e =>
      have hno : ¬ (n ≠ me ∧ t.socketOk = true) := by
        rw [← hsent, hs]
        rintro ⟨_, ⟨⟩⟩
      simp only [reduceCtorEq, false_iff]
      rintro ⟨⟨hne, hsocket, -⟩, -⟩
      exact hno ⟨hne, hsocket⟩
  | ok text =>
      obtain ⟨hne, hsocket⟩ := hsent.mp ⟨text, hs⟩
      cases harrives : t.arrives <;> cases hheard : t.heard <;>
        cases ((net.peer n).handle ⟨type, me, n, t.requestId⟩ t.env chunk).1 <;> simp [hne, hsocket]

/-- What is accepted is the answer of a node that was reached and heard. -/
theorem accepted_sendRequestAndWait (kind : ResponseType → Bool) (net : PeerNetwork) :
    accepted kind (sendRequestAndWait me type n t chunk net).1 =
      if t.Answered me n then
        ((net.peer n).handle ⟨type, me, n, t.requestId⟩ t.env chunk).1.filter fun r => kind r.responseType
      else none := by
  have hreply := sendRequestAndWait_reply me n type t chunk net
  cases hout : (sendRequestAndWait me type n t chunk net).1 with
  | ok response =>
      obtain ⟨hanswered, hhandle⟩ := (hreply response).mp hout
      rw [if_pos hanswered, hhandle]
      rfl
  | error e =>
      split_ifs with hanswered
      · cases hhandle : ((net.peer n).handle ⟨type, me, n, t.requestId⟩ t.env chunk).1 with
        | none => rfl
        | some response =>
            have hok := (hreply response).mpr ⟨hanswered, hhandle⟩
            rw [hout] at hok
            cases hok
      · rfl

end Requests

/-- The node answers the `STORE` in time and does not own the chunk. -/
def ready (me : NodeInfo) (hash : Key) (round : ChunkRound) (net : PeerNetwork) (n : NodeInfo) : Bool :=
  (round.stores n).Answered me n && !(net.peer n).storage.isChunkAlreadyStored hash

/-- The nodes that are asked for a port. -/
def chosenNodes (me : NodeInfo) (hash : Key) (round : ChunkRound) (net : PeerNetwork) : List NodeInfo :=
  match round.found with
  | .error _ => []
  | .ok nodes => (sortByDistance NodeInfo.id hash (nodes.filter (ready me hash round net))).take alpha

def storeOkFrom (me : NodeInfo) (round : ChunkRound) (n : NodeInfo) : Response :=
  ⟨.storeOk, n, me, (round.stores n).requestId⟩

/-- The port with which the node answers `GET_PORT` in time. -/
def openedPort (me : NodeInfo) (round : ChunkRound) (net : PeerNetwork) (n : NodeInfo) : Option UInt16 :=
  if (round.ports n).Answered me n then
    (round.ports n).env.listener.filter fun port => ((net.peer n).storage.dataTransfersTable.lookup port).isNone
  else none

/-- The network in which ports are asked for. -/
def offered (me : NodeInfo) (hash : Key) (round : ChunkRound) (net : PeerNetwork) : PeerNetwork :=
  round.between (resolveAlphaClosestNodesToKey me hash round net).2

/-- Some node that is asked for a port opens one and is sent the chunk. -/
def Served (me : NodeInfo) (hash : Key) (round : ChunkRound) (net : PeerNetwork) : Prop :=
  ∃ n ∈ chosenNodes me hash round net, ∃ port,
    openedPort me round (offered me hash round net) n = some port ∧ round.transfers n port ≠ .fails

section Round
variable {me n : NodeInfo} {hash : Key} {round : ChunkRound} {net : PeerNetwork} {index : Nat}

theorem PeerNetwork.handle_store_reply (requestId : RequestId) (env : HandlerEnv) (chunk : Option Nat) :
    ((net.peer n).handle ⟨.store hash, me, n, requestId⟩ env chunk).1 =
      some ⟨if (net.peer n).storage.isChunkAlreadyStored hash then .storeChunkUpdated else .storeOk, n, me, requestId⟩ := by
  have hnode := net.is_node n
  by_cases howns : (net.peer n).storage.isChunkAlreadyStored hash = true
  · have howns' : ((net.peer n).server.recordPossibleNeighbour me
        env.ping).shardStorageManager.isChunkAlreadyStored hash = true := howns
    rw [if_pos howns]
    simp only [Peer.handle, Server.handleReceivedRequest, Server.handleStoreMessage, howns']
    simp [Server.respond, Server.recordPossibleNeighbour, hnode]
  · rw [if_neg howns, Peer.handle_store hnode howns]

theorem sendInitialStoreRequest_reply :
    (sendInitialStoreRequest me hash round.stores n net).1 =
      if ready me hash round net n then some (storeOkFrom me round n) else none := by
  unfold sendInitialStoreRequest
  dsimp only
  rw [accepted_sendRequestAndWait, PeerNetwork.handle_store_reply, ready]
  by_cases hanswered : (round.stores n).Answered me n
  · cases howns : (net.peer n).storage.isChunkAlreadyStored hash <;> simp [hanswered, storeOkFrom]
  · simp [hanswered]

theorem PeerNetwork.handle_getPort_reply (requestId : RequestId) (env : HandlerEnv) (chunk : Option Nat) :
    ((net.peer n).handle ⟨.getPort hash, me, n, requestId⟩ env chunk).1 =
      (env.listener.filter fun port => ((net.peer n).storage.dataTransfersTable.lookup port).isNone).map
        fun port => ⟨.portOk port, n, me, requestId⟩ := by
  have hnode := net.is_node n
  cases henv : env.listener with
  | none => simp [Peer.handle, Server.handleReceivedRequest, Server.handleGetPortMessage, henv,
      Server.recordPossibleNeighbour, hnode]
  | some port =>
      cases hlookup : (net.peer n).storage.dataTransfersTable.lookup port with
      | none =>
          rw [Peer.handle_getPort hnode henv hlookup]
          simp [hlookup]
      | some old =>
          have hlookup' : (net.peer n).server.shardStorageManager.dataTransfersTable.lookup port = some old := hlookup
          simp [Peer.handle, Server.handleReceivedRequest, Server.handleGetPortMessage, henv,
            ShardStorageManager.addActiveTcpConnection, DataTransfersTable.add, hlookup, hlookup',
            Server.recordPossibleNeighbour, hnode]

theorem sendGetPortRequest_reply :
    (sendGetPortRequest me hash index round.ports n net).1 =
      (openedPort me round net n).map fun port => ⟨.portOk port, n, me, (round.ports n).requestId⟩ := by
  unfold sendGetPortRequest openedPort
  dsimp only
  rw [accepted_sendRequestAndWait]
  by_cases hanswered : (round.ports n).Answered me n
  · rw [if_pos hanswered, if_pos hanswered]
    rw [PeerNetwork.handle_getPort_reply]
    cases (round.ports n).env.listener.filter fun port =>
      ((net.peer n).storage.dataTransfersTable.lookup port).isNone <;> rfl
  · rw [if_neg hanswered, if_neg hanswered]
    rfl

theorem sendInitialStoreRequest_local (me : NodeInfo) (hash : Key) (transit : NodeInfo → Transit) :
    Local id (sendInitialStoreRequest me hash transit) :=
  (sendRequestAndWait_local me (.store hash) transit none).map _

theorem sendGetPortRequest_local (me : NodeInfo) (hash : Key) (index : Nat) (transit : NodeInfo → Transit) :
    Local id (sendGetPortRequest me hash index transit) :=
  (sendRequestAndWait_local me (.getPort hash) transit (some index)).map _

theorem reduceOption_map_ite {α β : Type*} (p : α → Bool) (f : α → β) (l : List α) :
    (l.map fun a => if p a then some (f a) else none).reduceOption = (l.filter p).map f := by
  induction l with
  | nil => rfl
  | cons a rest ih =>
      rw [List.map_cons, List.filter_cons]
      split_ifs
      · rw [List.reduceOption_cons_of_some, ih, List.map_cons]
      · rw [List.reduceOption_cons_of_none, ih]

/-- Sorting what belongs to the contacts is sorting the contacts. -/
theorem sortByDistance_map {α : Type*} (f : NodeInfo → α) (key : α → Key) (hkey : ∀ n, key (f n) = n.id) (target : Key)
    (nodes : List NodeInfo) : sortByDistance key target (nodes.map f) = (sortByDistance NodeInfo.id target nodes).map f := by
  unfold sortByDistance
  refine (List.map_insertionSort _ _ f nodes fun a _ b _ => ?_).symm
  rw [hkey, hkey]

theorem chosenNodes_of_found {nodes : List NodeInfo} (hfound : round.found = .ok nodes) :
    chosenNodes me hash round net =
      (sortByDistance NodeInfo.id hash (nodes.filter (ready me hash round net))).take alpha := by
  unfold chosenNodes
  rw [hfound]

theorem chosenNodes_eq_nil {nodes : List NodeInfo} (hfound : round.found = .ok nodes) :
    chosenNodes me hash round net = [] ↔ nodes.filter (ready me hash round net) = [] := by
  rw [chosenNodes_of_found hfound, sortByDistance_eq, ← List.length_eq_zero_iff, ← List.length_eq_zero_iff,
    List.length_take, KeySort.length_sortOn]
  simp [alpha]

/-- The answers to the `STORE`s that are accepted. -/
theorem storeReplies_eq {nodes : List NodeInfo} (hfound : round.found = .ok nodes) :
    (joinAll (sendInitialStoreRequest me hash round.stores) nodes net).1.reduceOption =
      (nodes.filter (ready me hash round net)).map (storeOkFrom me round) := by
  have hnd : (nodes.map id).Nodup := (List.map_id nodes).symm ▸ round.nodup_found nodes hfound
  rw [joinAll_replies (sendInitialStoreRequest_local me hash round.stores) hnd]
  simp only [sendInitialStoreRequest_reply]
  exact reduceOption_map_ite _ _ nodes

theorem chosenReplies_eq {nodes : List NodeInfo} (hfound : round.found = .ok nodes) :
    (sortByDistance (·.sender.id) hash
      (joinAll (sendInitialStoreRequest me hash round.stores) nodes net).1.reduceOption).take alpha =
      (chosenNodes me hash round net).map (storeOkFrom me round) := by
  rw [storeReplies_eq hfound, sortByDistance_map (storeOkFrom me round) (fun r => r.sender.id) (fun _ => rfl),
    ← List.map_take, ← chosenNodes_of_found hfound]

theorem storeReplies_eq_nil {nodes : List NodeInfo} (hfound : round.found = .ok nodes) :
    (joinAll (sendInitialStoreRequest me hash round.stores) nodes net).1.reduceOption = [] ↔
      chosenNodes me hash round net = [] := by
  rw [storeReplies_eq hfound, chosenNodes_eq_nil hfound, List.map_eq_nil_iff]

theorem resolveAlphaClosestNodesToKey_result (me : NodeInfo) (hash : Key) (round : ChunkRound) (net : PeerNetwork) :
    (resolveAlphaClosestNodesToKey me hash round net).1 = match round.found with
      | .error _ => .error .lookup
      | .ok _ => if chosenNodes me hash round net = [] then
          .error (.bail "Unable to store file. No responsive nodes.".toList)
        else .ok ((chosenNodes me hash round net).map (storeOkFrom me round)) := by
  unfold resolveAlphaClosestNodesToKey
  cases hfound : round.found with
  | error e => rfl
  | ok nodes =>
      dsimp only
      rw [chosenReplies_eq hfound]
      by_cases hnil : chosenNodes me hash round net = []
      · rw [if_pos hnil, if_pos (List.isEmpty_iff.mpr ((storeReplies_eq_nil hfound).mpr hnil))]
      · rw [if_neg hnil, if_neg (mt List.isEmpty_iff.mp (mt (storeReplies_eq_nil hfound).mp hnil))]

theorem resolveAlphaClosestNodesToKey_state {nodes : List NodeInfo} (hfound : round.found = .ok nodes) :
    (resolveAlphaClosestNodesToKey me hash round net).2 =
      (joinAll (sendInitialStoreRequest me hash round.stores) nodes net).2 := by
  unfold resolveAlphaClosestNodesToKey
  rw [hfound]
  dsimp only
  split_ifs <;> rfl

theorem chosenNodes_nodup : (chosenNodes me hash round net).Nodup := by
  cases hfound : round.found with
  | error e =>
      unfold chosenNodes
      rw [hfound]
      exact List.nodup_nil
  | ok nodes =>
      rw [chosenNodes_of_found hfound, sortByDistance_eq]
      exact ((KeySort.sortOn_perm _ _).nodup_iff.mpr ((round.nodup_found nodes hfound).filter _)).sublist
        (List.take_sublist _ _)

theorem length_chosenNodes_le : (chosenNodes me hash round net).length ≤ alpha := by
  unfold chosenNodes
  cases round.found with
  | error e => exact Nat.zero_le _
  | ok nodes => exact List.length_take_le _ _

/-- The transfer to the node behind a `PORT_OK` succeeds. -/
def sentTo (round : ChunkRound) (response : Response) : Bool :=
  match response.responseType with
  | .portOk port => round.transfers response.sender port ≠ .fails
  | _ => false

theorem sendChunkOverTcp_reply (chunk : Chunk) (index : Nat) (round : ChunkRound) (response : Response)
    (net : PeerNetwork) : (sendChunkOverTcp chunk index round response net).1 = sentTo round response := by
  unfold sendChunkOverTcp sentTo
  cases response.responseType with
  | portOk port =>
      dsimp only
      cases htransfer : round.transfers response.sender port <;> simp
  | _ => rfl

theorem joinAll_of_reply {α β : Type*} {send : α → PeerNetwork → β × PeerNetwork} {f : α → β}
    (h : ∀ a net, (send a net).1 = f a) (l : List α) (net : PeerNetwork) : (joinAll send l net).1 = l.map f := by
  induction l generalizing net with
  | nil => rfl
  | cons a rest ih => simp [joinAll, h, ih]

theorem storeChunk_result (ports : List Response) (chunk : Chunk) :
    (storeChunk ports chunk index round net).1 =
      if ports.any (sentTo round) then .ok () else .error (.bail "Chunk was not sent to any node!".toList) := by
  have hsent : (joinAll (sendChunkOverTcp chunk index round) ports net).1.any id = ports.any (sentTo round) := by
    rw [joinAll_of_reply (sendChunkOverTcp_reply chunk index round), List.any_map]
    rfl
  unfold storeChunk
  dsimp only
  rw [hsent]
  split_ifs <;> rfl

/-- The `PORT_OK` of a node, if it opens a port. -/
def portOkFrom (me : NodeInfo) (round : ChunkRound) (net : PeerNetwork) (n : NodeInfo) : Option Response :=
  (openedPort me round net n).map fun port => ⟨.portOk port, n, me, (round.ports n).requestId⟩

theorem portReplies_eq {nodes : List NodeInfo} (hnd : nodes.Nodup) :
    (joinAll (sendGetPortRequest me hash index round.ports) nodes net).1.reduceOption =
      nodes.filterMap (portOkFrom me round net) := by
  have hnd' : (nodes.map id).Nodup := (List.map_id nodes).symm ▸ hnd
  rw [joinAll_replies (sendGetPortRequest_local me hash index round.ports) hnd']
  simp only [sendGetPortRequest_reply]
  exact List.filterMap_map

theorem getPortsForNodes_eq (me : NodeInfo) (hash : Key) (index : Nat) (round : ChunkRound) (net : PeerNetwork)
    {nodes : List NodeInfo} (hne : nodes ≠ []) (hlen : nodes.length ≤ alpha) (hnd : nodes.Nodup)
    {responses : List Response} (hsender : responses.map Response.sender = nodes) :
    getPortsForNodes me responses hash index round net =
      (if nodes.filterMap (portOkFrom me round net) = [] then
        .error (.bail "Unable to store file. No nodes are ready to accept TCP data transfer.".toList)
      else .ok (nodes.filterMap (portOkFrom me round net)),
      (joinAll (sendGetPortRequest me hash index round.ports) nodes net).2) := by
  subst hsender
  have hempty : ¬ responses.isEmpty = true := by
    intro h
    exact hne (by rw [List.isEmpty_iff.mp h, List.map_nil])
  have hmany : ¬ responses.length > alpha := by
    rw [← List.length_map Response.sender]
    exact Nat.not_lt_of_le hlen
  unfold getPortsForNodes
  dsimp only
  rw [if_neg hempty, if_neg hmany, portReplies_eq hnd]
  by_cases hnil : (responses.map Response.sender).filterMap (portOkFrom me round net) = []
  · rw [if_pos hnil, if_pos (by rw [hnil]; rfl)]
  · rw [if_neg hnil, if_neg (by simpa using hnil)]

/-- The ports that are opened for the chunk. -/
def portOks (me : NodeInfo) (hash : Key) (round : ChunkRound) (net : PeerNetwork) : List Response :=
  (chosenNodes me hash round net).filterMap (portOkFrom me round (offered me hash round net))

theorem served_iff : Served me hash round net ↔ (portOks me hash round net).any (sentTo round) = true := by
  simp only [Served, portOks, List.any_eq_true, List.mem_filterMap, portOkFrom, Option.map_eq_some_iff]
  constructor
  · rintro ⟨n, hn, port, hport, htaken⟩
    exact ⟨_, ⟨n, hn, port, hport, rfl⟩, decide_eq_true htaken⟩
  · rintro ⟨_, ⟨n, hn, port, hport, rfl⟩, htaken⟩
    exact ⟨n, hn, port, hport, of_decide_eq_true htaken⟩

theorem storeOkFrom_senders (me : NodeInfo) (round : ChunkRound) (nodes : List NodeInfo) :
    (nodes.map (storeOkFrom me round)).map Response.sender = nodes := by
  rw [List.map_map]
  exact List.map_id _

/-- The network once ports have been asked for. -/
def ported (me : NodeInfo) (hash : Key) (index : Nat) (round : ChunkRound) (net : PeerNetwork) : PeerNetwork :=
  (joinAll (sendGetPortRequest me hash index round.ports) (chosenNodes me hash round net)
    (offered me hash round net)).2

theorem chosenNodes_ne_nil_iff {net : PeerNetwork} : chosenNodes me hash round net ≠ [] ↔
    (resolveAlphaClosestNodesToKey me hash round net).1 =
      .ok ((chosenNodes me hash round net).map (storeOkFrom me round)) := by
  rw [resolveAlphaClosestNodesToKey_result]
  cases hfound : round.found with
  | error e =>
      have hnil : chosenNodes me hash round net = [] := by
        rw [chosenNodes, hfound]
      simp [hnil]
  | ok nodes =>
      dsimp only
      split_ifs with hnil <;> simp [hnil]

/-- Where nodes are chosen, they are asked for ports. -/
theorem uploadChunk_of_chosen (chunk : Chunk) (h : chosenNodes me chunk.hash round (round.before net) ≠ []) :
    uploadChunk me chunk index round net =
      if portOks me chunk.hash round (round.before net) = [] then
        (.error (.bail "Unable to store file. No nodes are ready to accept TCP data transfer.".toList),
          ported me chunk.hash index round (round.before net))
      else storeChunk (portOks me chunk.hash round (round.before net)) chunk index round
        (ported me chunk.hash index round (round.before net)) := by
  have hresolve := chosenNodes_ne_nil_iff.mp h
  have hports := getPortsForNodes_eq me chunk.hash index round (offered me chunk.hash round (round.before net)) h
    length_chosenNodes_le chosenNodes_nodup (storeOkFrom_senders me round _)
  unfold uploadChunk
  unfold offered at hports
  unfold portOks ported offered
  generalize resolveAlphaClosestNodesToKey me chunk.hash round (round.before net) = resolved at hresolve hports ⊢
  obtain ⟨result, net₁⟩ := resolved
  change result = _ at hresolve
  subst hresolve
  dsimp only at hports ⊢
  rw [hports]
  split_ifs <;> rfl

theorem uploadChunk_of_failed {chunk : Chunk} {e : UploadError}
    (h : (resolveAlphaClosestNodesToKey me chunk.hash round (round.before net)).1 = .error e) :
    uploadChunk me chunk index round net =
      (.error e, (resolveAlphaClosestNodesToKey me chunk.hash round (round.before net)).2) := by
  unfold uploadChunk
  generalize resolveAlphaClosestNodesToKey me chunk.hash round (round.before net) = resolved at h ⊢
  obtain ⟨result, net₁⟩ := resolved
  change result = _ at h
  subst h
  rfl

/-- What a pass of the loop comes to. -/
theorem uploadChunk_result (me : NodeInfo) (chunk : Chunk) (index : Nat) (round : ChunkRound) (net : PeerNetwork) :
    (uploadChunk me chunk index round net).1 = match round.found with
      | .error _ => .error .lookup
      | .ok _ =>
          if chosenNodes me chunk.hash round (round.before net) = [] then
            .error (.bail "Unable to store file. No responsive nodes.".toList)
          else if portOks me chunk.hash round (round.before net) = [] then
            .error (.bail "Unable to store file. No nodes are ready to accept TCP data transfer.".toList)
          else if (portOks me chunk.hash round (round.before net)).any (sentTo round) then .ok ()
          else .error (.bail "Chunk was not sent to any node!".toList) := by
  by_cases hnone : chosenNodes me chunk.hash round (round.before net) = []
  · have hresult := resolveAlphaClosestNodesToKey_result me chunk.hash round (round.before net)
    cases hfound : round.found with
    | error e =>
        rw [hfound] at hresult
        rw [uploadChunk_of_failed hresult]
    | ok nodes =>
        rw [hfound] at hresult
        dsimp only at hresult ⊢
        rw [if_pos hnone] at hresult ⊢
        rw [uploadChunk_of_failed hresult]
  · rw [uploadChunk_of_chosen chunk hnone]
    cases hfound : round.found with
    | error e =>
        exact absurd (by rw [chosenNodes, hfound]) hnone
    | ok nodes =>
        dsimp only
        rw [if_neg hnone]
        split_ifs with hports hsent
        · rfl
        · rw [storeChunk_result, if_pos hsent]
        · rw [storeChunk_result, if_neg hsent]

/-- A pass of the loop goes on exactly if some node is served. -/
theorem uploadChunk_ok_iff (me : NodeInfo) (chunk : Chunk) (index : Nat) (round : ChunkRound) (net : PeerNetwork) :
    (uploadChunk me chunk index round net).1 = .ok () ↔ Served me chunk.hash round (round.before net) := by
  rw [served_iff, uploadChunk_result]
  cases hfound : round.found with
  | error e =>
      have hnil : portOks me chunk.hash round (round.before net) = [] := by
        rw [portOks, chosenNodes, hfound, List.filterMap_nil]
      simp [hnil]
  | ok nodes =>
      dsimp only
      split_ifs with hchosen hports hsent
      · have hnil : portOks me chunk.hash round (round.before net) = [] := by
          rw [portOks, hchosen, List.filterMap_nil]
        simp [hnil]
      · simp [hports]
      · simp [hsent]
      · simp [hsent]

/-- The node is found, hears every request, answers in time, has room for a chunk, opens a port
and stores what it is sent. -/
structure Accommodates (me n : NodeInfo) (hash : Key) (round : ChunkRound) (net : PeerNetwork) : Prop where
  found : ∃ nodes, round.found = .ok nodes ∧ n ∈ nodes
  answers_store : (round.stores n).Answered me n
  room : (net.peer n).storage.ownedChunks.entries.length < maxShardsStored
  memory : encryptedChunkSizeB ≤ maxDataStoredMb * 1024 - (net.peer n).storage.totalStoredKb
  opens : ∃ port, openedPort me round (offered me hash round net) n = some port ∧
    ∃ now, round.transfers n port = .saved .ok now

theorem Accommodates.chosen (h : Accommodates me n hash round net)
    (hnot : (net.peer n).storage.isChunkAlreadyStored hash = false)
    (hfew : ∀ nodes, round.found = .ok nodes → (nodes.filter (ready me hash round net)).length ≤ alpha) :
    n ∈ chosenNodes me hash round net := by
  obtain ⟨nodes, hfound, hn⟩ := h.found
  rw [chosenNodes_of_found hfound, sortByDistance_eq, List.take_of_length_le, KeySort.mem_sortOn, List.mem_filter]
  · exact ⟨hn, by simp [ready, h.answers_store, hnot]⟩
  · rw [KeySort.length_sortOn]
    exact hfew nodes hfound

/-- A node that accommodates a chunk which it does not own serves it, unless there are `ALPHA`
others to choose. -/
theorem Accommodates.served (h : Accommodates me n hash round net)
    (hnot : (net.peer n).storage.isChunkAlreadyStored hash = false)
    (hfew : ∀ nodes, round.found = .ok nodes → (nodes.filter (ready me hash round net)).length ≤ alpha) :
    Served me hash round net := by
  obtain ⟨port, hport, now, htransfer⟩ := h.opens
  exact ⟨n, h.chosen hnot hfew, port, hport, by rw [htransfer]; nofun⟩

/-- A chunk that all nodes own which are found and answer is refused, although each of them
has refreshed it. -/
theorem uploadChunk_of_owned {nodes : List NodeInfo} (hfound : round.found = .ok nodes) (chunk : Chunk)
    (howned : ∀ n ∈ nodes, (round.stores n).Answered me n →
      ((round.before net).peer n).storage.isChunkAlreadyStored chunk.hash = true) :
    (uploadChunk me chunk index round net).1 =
      .error (.bail "Unable to store file. No responsive nodes.".toList) := by
  have hnone : chosenNodes me chunk.hash round (round.before net) = [] := by
    rw [chosenNodes_eq_nil hfound, List.filter_eq_nil_iff]
    intro n hn hready
    rw [ready, Bool.and_eq_true, decide_eq_true_eq] at hready
    rw [howned n hn hready.1] at hready
    cases hready.2
  rw [uploadChunk_result, hfound]
  exact if_pos hnone

end Round

section Effects
variable {me n : NodeInfo} {hash : Key} {round : ChunkRound} {net : PeerNetwork} {index : Nat} {port : UInt16}

theorem sendRequestAndWait_peer {type : RequestType} {t : Transit} {chunk : Option Nat} (h : t.Answered me n) :
    (sendRequestAndWait me type n t chunk net).2.peer n =
      ((net.peer n).handle ⟨type, me, n, t.requestId⟩ t.env chunk).2 := by
  obtain ⟨hne, hsocket, harrives, -⟩ := h
  obtain ⟨text, htext⟩ := (sendRequest_socket ⟨type, me, n, t.requestId⟩ t.socketOk).mpr ⟨hne, hsocket⟩
  unfold sendRequestAndWait
  dsimp only
  rw [htext]
  dsimp only
  rw [if_pos harrives]
  exact PeerNetwork.handle_peer ..

theorem resolveAlphaClosestNodesToKey_peer {nodes : List NodeInfo} (hfound : round.found = .ok nodes) (hn : n ∈ nodes)
    (h : (round.stores n).Answered me n) :
    (resolveAlphaClosestNodesToKey me hash round net).2.peer n =
      ((net.peer n).handle ⟨.store hash, me, n, (round.stores n).requestId⟩ (round.stores n).env none).2 := by
  have hnd : (nodes.map id).Nodup := (List.map_id nodes).symm ▸ round.nodup_found nodes hfound
  rw [resolveAlphaClosestNodesToKey_state hfound]
  exact (joinAll_peer (sendInitialStoreRequest_local me hash round.stores) hnd hn net).trans (sendRequestAndWait_peer h)

/-- A `STORE` leaves the transfers of the node as they are. -/
theorem PeerNetwork.handle_store_transfers (requestId : RequestId) (env : HandlerEnv) (chunk : Option Nat) :
    ((net.peer n).handle ⟨.store hash, me, n, requestId⟩ env chunk).2.storage.dataTransfersTable =
      (net.peer n).storage.dataTransfersTable := by
  unfold Peer.storage
  rw [Peer.server_handle]
  rcases (net.peer n).server.handleReceivedRequest_cases ⟨.store hash, me, n, requestId⟩ env with
    h | ⟨-, hash', port, htype, -⟩
  · exact h.transfers_eq
  · cases htype

theorem openedPort_eq_some : openedPort me round net n = some port ↔ (round.ports n).Answered me n ∧
    (round.ports n).env.listener = some port ∧ (net.peer n).storage.dataTransfersTable.lookup port = none := by
  unfold openedPort
  by_cases hanswered : (round.ports n).Answered me n
  · simp [hanswered, Option.filter_eq_some_iff]
  · simp [hanswered]

theorem ported_peer (hn : n ∈ chosenNodes me hash round net) (h : (round.ports n).Answered me n) :
    (ported me hash index round net).peer n =
      (((offered me hash round net).peer n).handle ⟨.getPort hash, me, n, (round.ports n).requestId⟩
        (round.ports n).env (some index)).2 := by
  have hnd : ((chosenNodes me hash round net).map id).Nodup := (List.map_id _).symm ▸ chosenNodes_nodup
  exact (joinAll_peer (sendGetPortRequest_local me hash index round.ports) hnd hn
    (offered me hash round net)).trans (sendRequestAndWait_peer h)

theorem portOks_senders_nodup : ((portOks me hash round net).map Response.sender).Nodup := by
  unfold portOks
  rw [List.map_filterMap]
  refine chosenNodes_nodup.filterMap fun a b s ha hb => ?_
  simp only [portOkFrom, Option.map_map, Option.mem_def, Option.map_eq_some_iff, Function.comp] at ha hb
  obtain ⟨-, -, rfl⟩ := ha
  obtain ⟨-, -, rfl⟩ := hb
  rfl

theorem sendChunkOverTcp_local (chunk : Chunk) (index : Nat) (round : ChunkRound) :
    Local Response.sender (sendChunkOverTcp chunk index round) where
  frame := by
    intro response net m hm
    unfold sendChunkOverTcp
    cases response.responseType with
    | portOk port =>
        dsimp only
        cases round.transfers response.sender port with
        | fails => rfl
        | received => exact Function.update_of_ne hm ..
        | saved io now => exact (Function.update_of_ne hm ..).trans (Function.update_of_ne hm ..)
    | _ => rfl
  reply_eq := by
    intro response net net' _
    rw [sendChunkOverTcp_reply, sendChunkOverTcp_reply]
  peer_eq := by
    intro response net net' h
    unfold sendChunkOverTcp
    cases response.responseType with
    | portOk port =>
        dsimp only
        cases round.transfers response.sender port with
        | fails => exact h
        | received =>
            dsimp only
            rw [PeerNetwork.receive_peer, PeerNetwork.receive_peer, h]
        | saved io now =>
            dsimp only
            rw [PeerNetwork.save_peer, PeerNetwork.save_peer, PeerNetwork.receive_peer, PeerNetwork.receive_peer, h]
    | _ => exact h

/-- What a node that stores the chunk in time is left with. -/
theorem uploadChunk_storage {chunk : Chunk} {now : Nat} (hn : n ∈ chosenNodes me chunk.hash round (round.before net))
    (hport : openedPort me round (offered me chunk.hash round (round.before net)) n = some port)
    (htransfer : round.transfers n port = .saved .ok now)
    (hadmits : ((offered me chunk.hash round (round.before net)).peer n).storage.Admits chunk.data chunk.hash) :
    ((uploadChunk me chunk index round net).2.peer n).storage =
      (((offered me chunk.hash round (round.before net)).peer n).storage.addActiveTcpConnection port me
        chunk.hash).2.afterStore ⟨chunk.data, []⟩ port chunk.hash now := by
  obtain ⟨hanswered, henv, hnone⟩ := openedPort_eq_some.mp hport
  -- the node's `PORT_OK` is among those that the chunk is sent to
  let response : Response := ⟨.portOk port, n, me, (round.ports n).requestId⟩
  have hmem : response ∈ portOks me chunk.hash round (round.before net) :=
    List.mem_filterMap.mpr ⟨n, hn, by rw [portOkFrom, hport]; rfl⟩
  have hchosen : chosenNodes me chunk.hash round (round.before net) ≠ [] := List.ne_nil_of_mem hn
  have hjoin := joinAll_peer (sendChunkOverTcp_local chunk index round) portOks_senders_nodup hmem
    (ported me chunk.hash index round (round.before net))
  have hsent : ((uploadChunk me chunk index round net).2.peer n) =
      (sendChunkOverTcp chunk index round response (ported me chunk.hash index round (round.before net))).2.peer n := by
    rw [uploadChunk_of_chosen chunk hchosen, if_neg (List.ne_nil_of_mem hmem)]
    unfold storeChunk
    dsimp only
    split_ifs
    · exact hjoin
    · exact hjoin
  have htransferred : (((offered me chunk.hash round (round.before net)).peer n).storage.addActiveTcpConnection port me
      chunk.hash).2.dataTransfersTable.lookup port = some ⟨me, chunk.hash⟩ := AList.lookup_insert _
  have hadmits' : (((offered me chunk.hash round (round.before net)).peer n).storage.addActiveTcpConnection port me
      chunk.hash).2.Admits chunk.data chunk.hash := ⟨hadmits.room, hadmits.size, hadmits.memory, hadmits.free⟩
  have hwritten : StoreIo.ok.writeAll chunk.data = some ⟨chunk.data, []⟩ := rfl
  have hstore := ShardStorageManager.storeChunkForKnownPeer_of_admits htransferred hadmits' hwritten now
  rw [hsent]
  simp only [sendChunkOverTcp, response, htransfer]
  rw [PeerNetwork.save_peer, PeerNetwork.receive_peer, ported_peer hn hanswered,
    Peer.handle_getPort (PeerNetwork.is_node _ n) henv hnone]
  exact congrArg Prod.snd hstore

/-- What was stored is owned when the next chunk comes. -/
theorem uploadChunk_owned {chunk : Chunk} {now : Nat} (hn : n ∈ chosenNodes me chunk.hash round (round.before net))
    (hport : openedPort me round (offered me chunk.hash round (round.before net)) n = some port)
    (htransfer : round.transfers n port = .saved .ok now)
    (hadmits : ((offered me chunk.hash round (round.before net)).peer n).storage.Admits chunk.data chunk.hash) :
    ((uploadChunk me chunk index round net).2.peer n).storage.isChunkAlreadyStored chunk.hash = true := by
  rw [uploadChunk_storage hn hport htransfer hadmits]
  simp [ShardStorageManager.isChunkAlreadyStored, ShardStorageManager.afterStore]

end Effects

section Run
variable {me : NodeInfo} {A : Aead} {sha1 : Bytes → Key} {draws : Nat → Draw} {rounds : Nat → ChunkRound} {index : Nat}
  {up rest : FileUploader} {net : PeerNetwork}

theorem FileUploader.remaining_of_none {draw : Draw} (h : up.getNextChunkEncrypt A sha1 draw = (.ok none, rest)) :
    rest = up ∧ up.remaining = [] := by
  have hpos := draw.one_le_size
  unfold getNextChunkEncrypt at h
  dsimp only at h
  split_ifs at h with hread
  · cases h
    rw [List.length_take] at hread
    exact ⟨rfl, List.length_eq_zero_iff.mp (by omega)⟩
  · split at h <;> cases h

theorem FileUploader.calls_succ (draws : Nat → Draw) (n : Nat) {outcome : Outcome ShardingError (Option Chunk)}
    (h : up.getNextChunkEncrypt A sha1 (draws 0) = (outcome, rest)) :
    (up.calls A sha1 draws (n + 1)).1 = outcome :: (rest.calls A sha1 (fun i => draws (i + 1)) n).1 := by
  rw [calls, h]

theorem FileUploader.cut_of_calls_nil
    (h : (up.calls A sha1 (fun i => draws (index + i)) 1).1 = [.ok none]) :
    ∃ rest, up.getNextChunkEncrypt A sha1 (draws index) = (.ok none, rest) := by
  rcases hcut : up.getNextChunkEncrypt A sha1 (draws index) with ⟨outcome, rest⟩
  rw [calls_succ _ 0 hcut, List.cons.injEq] at h
  exact ⟨rest, by rw [h.1]⟩

theorem FileUploader.cut_of_calls_cons {chunk : Chunk} {chunks : List Chunk}
    (h : (up.calls A sha1 (fun i => draws (index + i)) (chunks.length + 1 + 1)).1 =
      .ok (some chunk) :: (chunks.map (.ok ∘ some) ++ [.ok none])) :
    ∃ rest, up.getNextChunkEncrypt A sha1 (draws index) = (.ok (some chunk), rest) ∧
      (rest.calls A sha1 (fun i => draws (index + 1 + i)) (chunks.length + 1)).1 =
        chunks.map (.ok ∘ some) ++ [.ok none] := by
  rcases hcut : up.getNextChunkEncrypt A sha1 (draws index) with ⟨outcome, rest⟩
  rw [calls_succ _ (chunks.length + 1) hcut, List.cons.injEq] at h
  have hdraws : (fun i => draws (index + (i + 1))) = fun i => draws (index + 1 + i) := by
    funext i
    rw [Nat.add_assoc, Nat.add_comm 1 i]
  rw [hdraws] at h
  exact ⟨rest, by rw [h.1], h.2⟩

theorem uploadLoop_some {chunk : Chunk} (h : up.getNextChunkEncrypt A sha1 (draws index) = (.ok (some chunk), rest)) :
    uploadLoop me A sha1 draws rounds index up net = match uploadChunk me chunk index (rounds index) net with
      | (.error e, net) => (.error e, net)
      | (.ok _, net) => uploadLoop me A sha1 draws rounds (index + 1) rest net := by
  rw [uploadLoop]
  split <;> rename_i hcut <;> rw [h] at hcut <;> cases hcut
  rfl

theorem uploadLoop_none (h : up.getNextChunkEncrypt A sha1 (draws index) = (.ok none, rest)) :
    uploadLoop me A sha1 draws rounds index up net = (.ok rest.fileMetadata, net) := by
  obtain ⟨rfl, hend⟩ := FileUploader.remaining_of_none h
  rw [uploadLoop]
  split <;> rename_i hcut <;> rw [h] at hcut <;> cases hcut
  rw [FileUploader.getMetadata, hend]
  rfl

/-- It holds of each chunk, with its round and the network that the chunks before it leave. -/
def EveryChunk (me : NodeInfo) (rounds : Nat → ChunkRound) (P : Key → ChunkRound → PeerNetwork → Prop) :
    Nat → List Chunk → PeerNetwork → Prop
  | _, [], _ => True
  | index, chunk :: chunks, net =>
      P chunk.hash (rounds index) ((rounds index).before net) ∧
      EveryChunk me rounds P (index + 1) chunks (uploadChunk me chunk index (rounds index) net).2

theorem uploadLoop_ok_iff {chunks : List Chunk}
    (h : (up.calls A sha1 (fun i => draws (index + i)) (chunks.length + 1)).1 = chunks.map (.ok ∘ some) ++ [.ok none]) :
    (∃ md, (uploadLoop me A sha1 draws rounds index up net).1 = .ok md) ↔
      EveryChunk me rounds (Served me) index chunks net := by
  induction chunks generalizing index up net with
  | nil =>
      obtain ⟨rest, hcut⟩ := FileUploader.cut_of_calls_nil h
      rw [uploadLoop_none hcut]
      exact iff_of_true ⟨_, rfl⟩ trivial
  | cons chunk chunks ih =>
      obtain ⟨rest, hcut, hrest⟩ := FileUploader.cut_of_calls_cons h
      rw [uploadLoop_some hcut, EveryChunk, ← uploadChunk_ok_iff me chunk index (rounds index) net]
      rcases uploadChunk me chunk index (rounds index) net with ⟨e | ⟨⟨⟩⟩, net'⟩
      · simp
      · simpa using ih hrest

theorem uploadFile_of_new {name : Text} {content key : Bytes} (h : FileUploader.new name content key = .ok up) :
    uploadFile me A sha1 draws rounds name content key net = uploadLoop me A sha1 draws rounds 0 up net := by
  unfold uploadFile
  cases h' : FileUploader.new name content key with
  | error e =>
      rw [h'] at h
      cases h
  | ok up' =>
      rw [h'] at h
      cases h
      rfl

theorem uploadFile_served_iff {name : Text} {content key : Bytes} {chunks : List Chunk}
    (hnew : FileUploader.new name content key = .ok up)
    (hcalls : (up.calls A sha1 draws (chunks.length + 1)).1 = chunks.map (.ok ∘ some) ++ [.ok none]) :
    (∃ md, (uploadFile me A sha1 draws rounds name content key net).1 = .ok md) ↔
      EveryChunk me rounds (Served me) 0 chunks net := by
  rw [uploadFile_of_new hnew]
  refine uploadLoop_ok_iff ?_
  simpa only [Nat.zero_add] using hcalls

end Run

theorem FileUploader.new_of_le (name : Text) {content : Bytes} (key : Bytes)
    (hsize : content.length ≤ maxFileSizeMb * 1024 * 1024) :
    FileUploader.new name content key = .ok ⟨content, ⟨name, key, []⟩, key⟩ := by
  unfold FileUploader.new
  exact if_neg (Nat.not_lt_of_le hsize)

/-- A file within the limit is cut into chunks of full size. -/
theorem FileUploader.new_calls {A : Aead} (hA : A.Lawful) (sha1 : Bytes → Key) (draws : Nat → Draw) (name : Text)
    {content key : Bytes} (hsize : content.length ≤ maxFileSizeMb * 1024 * 1024) (hkey : key.length = 32) :
    ∃ (up : FileUploader) (chunks : List Chunk), FileUploader.new name content key = .ok up ∧
      (up.calls A sha1 draws (chunks.length + 1)).1 = chunks.map (.ok ∘ some) ++ [.ok none] ∧
      ∀ c ∈ chunks, c.data.length = encryptedChunkSizeB := by
  obtain ⟨blocks, chunks, hseals, -, hcalls⟩ :=
    FileUploader.calls_spec sha1 hA draws ⟨content, ⟨name, key, []⟩, key⟩ hkey
  refine ⟨_, chunks, FileUploader.new_of_le name key hsize, by rw [hcalls], ?_⟩
  intro c hc
  obtain ⟨i, hi, rfl⟩ := List.getElem_of_mem hc
  exact (hseals.get (hseals.length_eq ▸ hi) hi).length_data hA

/-- A file within the limit is uploaded if and only if each of its chunks is served: among the
nodes that answer its `STORE` and do not own it, one of the closest opens a port and is sent
the data. -/
theorem uploadFile_ok_iff (A : Aead) (hA : A.Lawful) (sha1 : Bytes → Key) (me : NodeInfo) (draws : Nat → Draw)
    (rounds : Nat → ChunkRound) (net : PeerNetwork) (name : Text) (content key : Bytes)
    (hsize : content.length ≤ maxFileSizeMb * 1024 * 1024) (hkey : key.length = 32) :
    ∃ up chunks, FileUploader.new name content key = .ok up ∧
      (up.calls A sha1 draws (chunks.length + 1)).1 = chunks.map (.ok ∘ some) ++ [.ok none] ∧
      ((∃ md, (uploadFile me A sha1 draws rounds name content key net).1 = .ok md) ↔
        EveryChunk me rounds (Served me) 0 chunks net) := by
  obtain ⟨up, chunks, hnew, hcalls, -⟩ := FileUploader.new_calls hA sha1 draws name hsize hkey
  exact ⟨up, chunks, hnew, hcalls, uploadFile_served_iff hnew hcalls⟩

/-- The request arrives and is answered in time; a listener gets port 5000. -/
def steadyTransit : Transit :=
  ⟨zeroRequestId, true, true, ⟨fun _ => .error .responseTimeout, 0, some 5000⟩, true⟩

/-- One node is found, which answers everything and stores what it is sent at once. -/
def steadyRound (n : NodeInfo) : ChunkRound :=
  ⟨.ok [n], by rintro _ ⟨⟩; exact List.nodup_singleton n, fun _ => steadyTransit, fun _ => steadyTransit,
    fun _ _ => .saved .ok 0, id, id⟩

def freshNetwork : PeerNetwork := ⟨fun n => ⟨Server.started n, ∅⟩, fun _ => rfl⟩

def headSha1 : Bytes → Key := fun bytes => Key.ofTopByte (bytes.headD 0) 0

theorem uploadFile_ok_iff_small :
    ∃ up chunks, FileUploader.new "f".toList [1] sampleKey = .ok up ∧
      (up.calls tagAead headSha1 (fun _ => zeroDraw) (chunks.length + 1)).1 =
        chunks.map (.ok ∘ some) ++ [.ok none] ∧
      ((∃ md, (uploadFile (.local 1 4001) tagAead headSha1 (fun _ => zeroDraw) (fun _ => steadyRound (.local 2 4002))
          "f".toList [1] sampleKey freshNetwork).1 = .ok md) ↔
        EveryChunk (.local 1 4001) (fun _ => steadyRound (.local 2 4002)) (Served (.local 1 4001)) 0 chunks
          freshNetwork) :=
  uploadFile_ok_iff tagAead tagAead_lawful headSha1 (.local 1 4001) (fun _ => zeroDraw)
    (fun _ => steadyRound (.local 2 4002)) freshNetwork "f".toList [1] sampleKey (by decide) (by decide)

section RepeatedBlock
variable {me n : NodeInfo} {net : PeerNetwork} {hash : Key}

theorem steadyTransit_answered (hne : n ≠ me) : steadyTransit.Answered me n := ⟨hne, rfl, rfl, rfl⟩

theorem steadyRound_offered (hne : n ≠ me) : (offered me hash (steadyRound n) net).peer n =
    ((net.peer n).handle ⟨.store hash, me, n, steadyTransit.requestId⟩ steadyTransit.env none).2 :=
  resolveAlphaClosestNodesToKey_peer (show (steadyRound n).found = .ok [n] from rfl) (List.mem_singleton_self n)
    (steadyTransit_answered hne)

theorem steadyRound_opens (hne : n ≠ me) (hfree : (net.peer n).storage.dataTransfersTable.lookup 5000 = none) :
    openedPort me (steadyRound n) (offered me hash (steadyRound n) net) n = some 5000 := by
  refine openedPort_eq_some.mpr ⟨steadyTransit_answered hne, rfl, ?_⟩
  rw [steadyRound_offered hne, PeerNetwork.handle_store_transfers, hfree]

theorem steadyRound_accommodates (hne : n ≠ me)
    (hroom : (net.peer n).storage.ownedChunks.entries.length < maxShardsStored)
    (htotal : (net.peer n).storage.totalStoredKb = 0)
    (hfree : (net.peer n).storage.dataTransfersTable.lookup 5000 = none) :
    Accommodates me n hash (steadyRound n) net where
  found := ⟨[n], rfl, List.mem_singleton_self n⟩
  answers_store := steadyTransit_answered hne
  room := hroom
  memory := by
    rw [htotal]
    decide
  opens := ⟨5000, steadyRound_opens hne hfree, 0, rfl⟩

end RepeatedBlock

/-- A file of two equal blocks. -/
def twoBlocks : Bytes := List.replicate (2 * paddedSize) 7

def blockDraw : Draw := { zeroDraw with size := paddedSize, one_le_size := by decide, size_le := Nat.le_refl _ }

theorem twoBlocks_cut {A : Aead} (hA : A.Lawful) (sha1 : Bytes → Key) {key : Bytes} (hkey : key.length = 32)
    (name : Text) :
    ∃ (first second : Chunk) (up₁ up₂ : FileUploader), second.hash = first.hash ∧
      first.data.length = encryptedChunkSizeB ∧
      (⟨twoBlocks, ⟨name, key, []⟩, key⟩ : FileUploader).getNextChunkEncrypt A sha1 blockDraw = (.ok (some first), up₁) ∧
      up₁.getNextChunkEncrypt A sha1 blockDraw = (.ok (some second), up₂) ∧
      up₂.getNextChunkEncrypt A sha1 blockDraw = (.ok none, up₂) := by
  have hpos : 0 < paddedSize := blockDraw.one_le_size
  have hrest : twoBlocks.drop paddedSize = List.replicate paddedSize 7 := by
    rw [twoBlocks, List.drop_replicate, show 2 * paddedSize - paddedSize = paddedSize by omega]
  have htake : twoBlocks.take paddedSize = List.replicate paddedSize 7 := by
    rw [twoBlocks, List.take_replicate, show min paddedSize (2 * paddedSize) = paddedSize by omega]
  have hblock : List.replicate paddedSize (7 : UInt8) ≠ [] := fun hnil => by
    have hlen := congrArg List.length hnil
    rw [List.length_replicate] at hlen
    exact hpos.ne' hlen
  obtain ⟨up, hup⟩ : ∃ up : FileUploader, up = ⟨twoBlocks, ⟨name, key, []⟩, key⟩ := ⟨_, rfl⟩
  have hremaining : up.remaining = twoBlocks := by rw [hup]
  have hupkey : up.encryptionKey = key := by rw [hup]
  have hne : up.remaining ≠ [] := fun hnil => by
    rw [← hremaining, hnil, List.take_nil] at htake
    exact hblock htake.symm
  obtain ⟨first, hseal, hcut⟩ := FileUploader.getNextChunkEncrypt_cut sha1 hA blockDraw hne (hupkey ▸ hkey)
  obtain ⟨up₁, hcut, hdrop, hsame⟩ : ∃ up₁ : FileUploader,
      up.getNextChunkEncrypt A sha1 blockDraw = (.ok (some first), up₁) ∧
      up₁.remaining = up.remaining.drop blockDraw.size ∧ up₁.encryptionKey = up.encryptionKey := ⟨_, hcut, rfl, rfl⟩
  have hremaining₁ : up₁.remaining = List.replicate paddedSize 7 := by
    rw [hdrop, ← hrest, ← hremaining, blockDraw]
  have hne₁ : up₁.remaining ≠ [] := hremaining₁ ▸ hblock
  have hupkey₁ : up₁.encryptionKey = key := by rw [hsame, hupkey]
  obtain ⟨second, hseal₁, hcut₁⟩ := FileUploader.getNextChunkEncrypt_cut sha1 hA blockDraw hne₁ (hupkey₁ ▸ hkey)
  have hpadded : (blockDraw.cut hne₁).padded = (blockDraw.cut hne).padded := by
    have hread : up₁.remaining.take blockDraw.size = up.remaining.take blockDraw.size := by
      rw [hremaining₁, hremaining, blockDraw, htake, List.take_replicate, Nat.min_self]
    unfold Draw.cut
    dsimp only
    rw [hread]
  rw [← hup]
  refine ⟨first, second, up₁, _, ?_, hseal.length_data hA, hcut, hcut₁, FileUploader.getNextChunkEncrypt_nil _ ?_⟩
  · rw [hseal.hash_eq, hseal₁.hash_eq, hpadded]
  · dsimp only
    rw [hremaining₁, blockDraw, List.drop_replicate, Nat.sub_self]
    rfl

/-- A node that was sent a block owns it when the same block comes again, and if no other node
was found the upload fails for want of responsive nodes. -/
theorem uploadFile_twoBlocks {A : Aead} (hA : A.Lawful) (sha1 : Bytes → Key) {me n : NodeInfo} (hne : n ≠ me)
    (name : Text) {key : Bytes} (hkey : key.length = 32) :
    ∃ up chunks, FileUploader.new name twoBlocks key = .ok up ∧
      (up.calls A sha1 (fun _ => blockDraw) (chunks.length + 1)).1 = chunks.map (.ok ∘ some) ++ [.ok none] ∧
      EveryChunk me (fun _ => steadyRound n) (Accommodates me n) 0 chunks freshNetwork ∧ chunks.length = 2 ∧
      (uploadFile me A sha1 (fun _ => blockDraw) (fun _ => steadyRound n) name twoBlocks key freshNetwork).1 =
        .error (.bail "Unable to store file. No responsive nodes.".toList) := by
  have hsize : twoBlocks.length ≤ maxFileSizeMb * 1024 * 1024 := by
    rw [twoBlocks, List.length_replicate]
    decide
  obtain ⟨first, second, up₁, up₂, hhash, hlen, hcut₁, hcut₂, hend⟩ := twoBlocks_cut hA sha1 hkey name
  have hnew := FileUploader.new_of_le name key hsize
  generalize (⟨twoBlocks, ⟨name, key, []⟩, key⟩ : FileUploader) = up at hnew hcut₁
  have hfirst : Accommodates me n first.hash (steadyRound n) freshNetwork := 
    steadyRound_accommodates hne (show 0 < maxShardsStored by decide) rfl rfl
  have hready : (freshNetwork.peer n).storage.isChunkAlreadyStored first.hash = false := rfl
  have hfew : ∀ nodes, (steadyRound n).found = .ok nodes →
      (nodes.filter (ready me first.hash (steadyRound n) freshNetwork)).length ≤ alpha := by
    rintro nodes ⟨⟩
    exact (List.length_filter_le _ _).trans (show 1 ≤ alpha by decide)
  have hopens : openedPort me (steadyRound n) (offered me first.hash (steadyRound n) freshNetwork) n = some 5000 :=
    steadyRound_opens hne rfl
  have hchosen : n ∈ chosenNodes me first.hash (steadyRound n) freshNetwork := hfirst.chosen hready hfew
  have hoffered : ((offered me first.hash (steadyRound n) freshNetwork).peer n).storage = ShardStorageManager.new ∅ := by
    rw [steadyRound_offered hne, Peer.handle_store (freshNetwork.is_node n) (Bool.eq_false_iff.mp hready)]
    rfl
  have hadmits : ((offered me first.hash (steadyRound n) freshNetwork).peer n).storage.Admits first.data first.hash := by
    rw [hoffered]
    exact ⟨show 0 < maxShardsStored by decide, hlen.le, hlen.trans_le (by decide), rfl⟩
  -- once the first block is stored, the node has one entry and no transfer
  have hstorage : ((uploadChunk me first 0 (steadyRound n) freshNetwork).2.peer n).storage =
      ((ShardStorageManager.new ∅).addActiveTcpConnection 5000 me first.hash).2.afterStore ⟨first.data, []⟩ 5000
        first.hash 0 := by
    rw [← hoffered]
    exact uploadChunk_storage hchosen hopens rfl hadmits
  have howned : ((uploadChunk me first 0 (steadyRound n) freshNetwork).2.peer n).storage.isChunkAlreadyStored
      first.hash = true := uploadChunk_owned hchosen hopens rfl hadmits
  have hok := (uploadChunk_ok_iff me first 0 (steadyRound n) freshNetwork).mpr (hfirst.served hready hfew)
  have hloop : uploadLoop me A sha1 (fun _ => blockDraw) (fun _ => steadyRound n) 0 up
      freshNetwork = _ := uploadLoop_some hcut₁
  have hsecond : Accommodates me n second.hash (steadyRound n)
      (uploadChunk me first 0 (steadyRound n) freshNetwork).2 := by
    refine steadyRound_accommodates hne ?_ ?_ ?_
    · rw [hstorage]
      exact (show 1 < maxShardsStored by decide)
    · rw [hstorage]
      rfl
    · rw [hstorage]
      exact AList.lookup_erase _ _
  refine ⟨up, [first, second], hnew, ?_, ⟨hfirst, hsecond, trivial⟩, rfl, ?_⟩
  · change (up.calls A sha1 (fun _ => blockDraw) 3).1 = [.ok (some first), .ok (some second), .ok none]
    rw [FileUploader.calls_succ _ 2 hcut₁, FileUploader.calls_succ _ 1 hcut₂, FileUploader.calls_succ _ 0 hend]
    rfl
  · rw [uploadFile_of_new hnew, hloop]
    generalize uploadChunk me first 0 (steadyRound n) freshNetwork = round at howned hok ⊢
    obtain ⟨result, net⟩ := round
    change result = .ok () at hok
    subst hok
    have hrefused : (uploadChunk me second 1 (steadyRound n) net).1 = _ :=
      uploadChunk_of_owned (show (steadyRound n).found = .ok [n] from rfl) second fun m hm _ => by
        rw [List.mem_singleton.mp hm, hhash]
        exact howned
    have hloop₂ : uploadLoop me A sha1 (fun _ => blockDraw) (fun _ => steadyRound n) 1 up₁ net = _ :=
      uploadLoop_some hcut₂
    change (uploadLoop me A sha1 (fun _ => blockDraw) (fun _ => steadyRound n) 1 up₁ net).1 = _
    rw [hloop₂]
    generalize uploadChunk me second 1 (steadyRound n) net = round at hrefused ⊢
    obtain ⟨result, net⟩ := round
    change result = _ at hrefused
    subst hrefused
    rfl

/-- A file of two equal blocks, uploaded to a fresh node that accommodates both, is refused. -/
theorem uploadFile_refuses_repeated_block :
    twoBlocks.length ≤ maxFileSizeMb * 1024 * 1024 ∧ sampleKey.length = 32 ∧
    ∃ up chunks, FileUploader.new "f".toList twoBlocks sampleKey = .ok up ∧
      (up.calls tagAead headSha1 (fun _ => blockDraw) (chunks.length + 1)).1 =
        chunks.map (.ok ∘ some) ++ [.ok none] ∧
      EveryChunk (.local 1 4001) (fun _ => steadyRound (.local 2 4002))
        (Accommodates (.local 1 4001) (.local 2 4002)) 0 chunks freshNetwork ∧
      chunks.length = 2 ∧
      (uploadFile (.local 1 4001) tagAead headSha1 (fun _ => blockDraw) (fun _ => steadyRound (.local 2 4002))
          "f".toList twoBlocks sampleKey freshNetwork).1 =
        .error (.bail "Unable to store file. No responsive nodes.".toList) := by
  refine ⟨?_, by decide, uploadFile_twoBlocks tagAead_lawful headSha1 (by decide) "f".toList (by decide)⟩
  rw [twoBlocks, List.length_replicate]
  decide

end P2PFilesystem
