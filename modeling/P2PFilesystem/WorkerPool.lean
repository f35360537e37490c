import P2PFilesystem.WorkQueue
import P2PFilesystem.Agreement
import P2PFilesystem.TableLock
import P2PFilesystem.SelfLookup
import P2PFilesystem.TableContacts
import P2PFilesystem.WireFormat

/-!
# The receive loop and its workers

`Node::start_listening`. A task reads datagrams into a bounded queue and four workers handle
them, each guard of the routing table and of the chunk store one step, while the node's other
tasks use both. A store into a full bucket pings under the write guard, and the ping awaits a
read guard.
-/
namespace P2PFilesystem
open WorkQueue Traces

def queueCapacity : Nat := 100

def receiveWorkerTaskCount : Nat := 4

/-- Where a worker stands. -/
inductive WorkerPhase where
  | parse
  | handleResponse (response : Response)
  | recordPossibleNeighbour (request : Request)
  | ping (request : Request)
  | getKClosest (request : Request) (target : Key)
  | isChunkAlreadyStored (request : Request) (chunkId : Key)
  | updateChunkUploadTime (request : Request) (chunkId : Key)
  | addActiveTcpConnection (request : Request) (fileId : Key)
  | readChunk (request : Request) (chunkId : Key) (port : UInt16)
  | connect (address : SocketAddr) (data : Bytes)
  | sendResponse (response : Response)

inductive WorkerOutput where
  | handled (response : Response)
  | sent (response : Response)
  | sentData (address : SocketAddr) (data : Bytes)

def WorkerOutput.isSent : WorkerOutput → Bool
  | .sent _ => true
  | _ => false

/-- What the tasks of a node share. `blocked` says that a task holds the write guard of the table
and awaits a read guard in the ping of a bucket's head. -/
structure Receiver where
  server : Server
  blocked : Bool

/-- What a worker meets outside: the clock, the port of a new listener, and whether the datagram
and the connection get out. -/
structure WorkerEnv where
  now : Nat
  listener : Option UInt16
  socketOk : Bool
  connectionOk : Bool

/-- `store_nodeinfo` under the write guard, up to its end or to the ping. -/
def Receiver.store (s : Receiver) (contact : NodeInfo) : Receiver :=
  ⟨s.server.recordPossibleNeighbour contact headRemoved, !s.server.routingTable.hasRoomFor contact⟩

/-- The handler of a request type, after the sender was recorded. -/
def Server.handlerOf (self : Server) (request : Request) : WorkerPhase :=
  match request.requestType with
  | .ping => .sendResponse (self.respond request .pong)
  | .findNode nodeId => .getKClosest request nodeId
  | .store chunkId => .isChunkAlreadyStored request chunkId
  | .getPort chunkId => .addActiveTcpConnection request chunkId
  | .findValue chunkId => .isChunkAlreadyStored request chunkId
  | .getValue chunkId port => .readChunk request chunkId port

/-- A worker's next step: the shared state, the phase after it and what goes out. -/
def WorkerPhase.step (decode : Text → Option Message) (env : WorkerEnv) (s : Receiver) (data : Text) :
    WorkerPhase → Option (Receiver × Option WorkerPhase × Option WorkerOutput)
  | .parse => some (s, (match decode data with
      | none => none
      | some (.response response) => some (.handleResponse response)
      | some (.request request) =>
          if request.receiver.id ≠ s.server.nodeInfo.id then none else some (.recordPossibleNeighbour request)), none)
  | .handleResponse response => some (s, none, some (.handled response))
  | .recordPossibleNeighbour request =>
      if s.blocked then none
      else if s.server.routingTable.hasRoomFor request.sender then
        some (s.store request.sender, some (s.server.handlerOf request), none)
      else some (s.store request.sender, some (.ping request), none)
  | .ping _ => none
  | .getKClosest request target =>
      if s.blocked then none
      else some (s, (s.server.handleFindNodeMessage request target).response.map .sendResponse, none)
  | .isChunkAlreadyStored request chunkId =>
      let stored := s.server.shardStorageManager.isChunkAlreadyStored chunkId
      some (s, some (match request.requestType with
        | .store _ => if stored then .updateChunkUploadTime request chunkId else .sendResponse (s.server.respond request .storeOk)
        | _ => if stored then .sendResponse (s.server.respond request (.hasValue chunkId)) else .getKClosest request chunkId),
        none)
  | .updateChunkUploadTime request chunkId =>
      let storage := (s.server.shardStorageManager.updateChunkUploadTime chunkId env.now).2
      some ({ s with server := { s.server with shardStorageManager := storage } },
        some (.sendResponse (s.server.respond request .storeChunkUpdated)), none)
  | .addActiveTcpConnection request fileId =>
      let reaction := s.server.handleGetPortMessage request fileId env.listener
      some ({ s with server := reaction.server }, reaction.response.map .sendResponse, none)
  | .readChunk request chunkId port =>
      some (s, (s.server.handleGetValue request chunkId port).sentData.map fun p => .connect p.1 p.2, none)
  | .connect address data => some (s, none, if env.connectionOk then some (.sentData address data) else none)
  | .sendResponse response => some (s, none, match P2PFilesystem.sendResponse env.socketOk response with
      | .ok _ => some (.sent response)
      | .error _ => none)

/-- What a node meets outside: the messages that datagrams hold, the contacts its own tasks store,
the ports at which a listener is opened for a datagram, and what is uploaded to a port. -/
structure Surroundings where
  decode : Text → Option Message
  own : NodeInfo → Prop
  listens : Text → UInt16 → Prop
  uploaded : UInt16 → Bytes → Prop

/-- The node's own tasks store contacts of theirs, note the time of a lookup, store chunks that
were uploaded to a port, and write them to disk in the background. -/
inductive Receiver.Outside (W : Surroundings) : Receiver → Receiver → Prop
  | stores {s : Receiver} {contact : NodeInfo} : s.blocked = false → W.own contact → Outside W s (s.store contact)
  | looksUp {s : Receiver} {target : Key} {now : Nat} : s.blocked = false → Outside W s
      { s with server := { s.server with routingTable := (s.server.routingTable.lookupGetNClosest target alpha now).2 } }
  | uploads {s : Receiver} {data : Bytes} {port : UInt16} {io : StoreIo} {now : Nat} : W.uploaded port data → Outside W s
      { s with server := { s.server with
        shardStorageManager := (s.server.shardStorageManager.storeChunkForKnownPeer data port io now).2 } }
  | writes {s : Receiver} {hash : Key} {count : Nat} : Outside W s
      { s with server := { s.server with shardStorageManager := s.server.shardStorageManager.continueWrite hash count } }

def workerProgram (W : Surroundings) : Program Receiver Text WorkerPhase WorkerOutput where
  first := .parse
  step := fun s data p s' next out => ∃ env, (∀ port ∈ env.listener, W.listens data port) ∧
    p.step W.decode env s data = some (s', next, out)
  outside := Receiver.Outside W

/-- The receive loop of a node, from the start of `start_listening`. -/
abbrev ReceivePool : Type := Pool Receiver Text WorkerPhase WorkerOutput (Fin receiveWorkerTaskCount)

abbrev ReceiveEvent : Type := PoolEvent Text (Fin receiveWorkerTaskCount)

abbrev ReceiveStep (W : Surroundings) : ReceivePool → ReceiveEvent → ReceivePool → Prop :=
  WorkQueue.Step (workerProgram W) queueCapacity

/-- The datagram is a request to this node. -/
def Asks (decode : Text → Option Message) (node : NodeInfo) (data : Text) (request : Request) : Prop :=
  decode data = some (.request request) ∧ request.receiver.id = node.id

section Steps
variable {W : Surroundings} {decode : Text → Option Message}

theorem workerProgram_emitsLast : (workerProgram W).EmitsLast := by
  rintro s data p s' next x ⟨env, -, hstep⟩
  cases p with
  | parse => cases hstep
  | handleResponse response =>
      cases hstep
      rfl
  | recordPossibleNeighbour request =>
      simp only [WorkerPhase.step] at hstep
      split_ifs at hstep
      · cases hstep
      · cases hstep
  | ping request => cases hstep
  | getKClosest request target =>
      simp only [WorkerPhase.step] at hstep
      split_ifs at hstep
      cases hstep
  | isChunkAlreadyStored request chunkId => cases hstep
  | updateChunkUploadTime request chunkId => cases hstep
  | addActiveTcpConnection request fileId => cases hstep
  | readChunk request chunkId port => cases hstep
  | connect address data =>
      simp only [WorkerPhase.step, Option.some.injEq, Prod.mk.injEq] at hstep
      exact hstep.2.1.symm
  | sendResponse response =>
      simp only [WorkerPhase.step, Option.some.injEq, Prod.mk.injEq] at hstep
      exact hstep.2.1.symm

/-- A worker to the end of its job, when nobody interrupts it; it may be left waiting. -/
def WorkerPhase.finish (decode : Text → Option Message) (env : WorkerEnv) (data : Text) :
    Nat → Receiver → WorkerPhase → Option (Receiver × Option WorkerOutput)
  | 0, _, _ => none
  | fuel + 1, s, p => match p.step decode env s data with
      | none => none
      | some (s', none, out) => some (s', out)
      | some (s', some q, _) => q.finish decode env data fuel s'

/-- What a reaction of the handlers puts out. -/
def Reaction.output (env : WorkerEnv) (reaction : Reaction) : Option WorkerOutput :=
  match reaction.response, reaction.sentData with
  | some response, _ => if (P2PFilesystem.sendResponse env.socketOk response).isOk then some (.sent response) else none
  | none, some (address, data) => if env.connectionOk then some (.sentData address data) else none
  | none, none => none

theorem finish_sendResponse (env : WorkerEnv) (data : Text) (fuel : Nat) (s : Receiver) (response : Response) :
    (WorkerPhase.sendResponse response).finish decode env data (fuel + 1) s =
      some (s, if (P2PFilesystem.sendResponse env.socketOk response).isOk then some (.sent response) else none) := by
  rw [WorkerPhase.finish]
  simp only [WorkerPhase.step]
  cases P2PFilesystem.sendResponse env.socketOk response with
  | ok datagram => rfl
  | error e => rfl

theorem finish_getKClosest (env : WorkerEnv) (data : Text) (fuel : Nat) (server : Server) (request : Request) (target : Key) :
    (WorkerPhase.getKClosest request target).finish decode env data (fuel + 2) ⟨server, false⟩ =
      some (⟨(server.handleFindNodeMessage request target).server, false⟩,
        (server.handleFindNodeMessage request target).output env) := by
  have hsent : (server.handleFindNodeMessage request target).sentData = none := by
    unfold Server.handleFindNodeMessage
    split
    · rfl
    · split <;> rfl
  rw [WorkerPhase.finish, (server.handleFindNodeMessage_quiet request target).1]
  simp only [WorkerPhase.step, Bool.false_eq_true, if_false]
  unfold Reaction.output
  rw [hsent]
  cases (server.handleFindNodeMessage request target).response with
  | none => rfl
  | some response => exact finish_sendResponse env data fuel ⟨server, false⟩ response

/-- Run to its end, the handler of a request type is the one in one piece. -/
theorem finish_handlerOf {s : Receiver} (hfree : s.blocked = false) {request : Request}
    (hid : request.receiver.id = s.server.nodeInfo.id) (env : WorkerEnv) (data : Text) (fuel : Nat) {before : Server}
    {ping : PingOutcome} (hbefore : s.server = before.recordPossibleNeighbour request.sender ping) :
    (s.server.handlerOf request).finish decode env data (fuel + 3) s =
      some (⟨(before.handleReceivedRequest request ⟨ping, env.now, env.listener⟩).server, false⟩,
        (before.handleReceivedRequest request ⟨ping, env.now, env.listener⟩).output env) := by
  obtain ⟨server, blocked⟩ := s
  cases hfree
  subst hbefore
  have hown : ¬ request.receiver.id ≠ before.nodeInfo.id := not_not.mpr hid
  unfold Server.handleReceivedRequest Server.handlerOf
  rw [if_neg hown]
  cases htype : request.requestType with
  | ping => exact finish_sendResponse env data _ _ _
  | findNode nodeId => exact finish_getKClosest env data _ _ request nodeId
  | store chunkId =>
      change (WorkerPhase.isChunkAlreadyStored request chunkId).finish decode env data (fuel + 3) _ = _
      rw [WorkerPhase.finish]
      simp only [WorkerPhase.step, htype]
      unfold Server.handleStoreMessage
      split
      · rw [WorkerPhase.finish]
        exact finish_sendResponse env data _ _ _
      · exact finish_sendResponse env data _ _ _
  | getPort chunkId =>
      change (WorkerPhase.addActiveTcpConnection request chunkId).finish decode env data (fuel + 3) _ = _
      rw [WorkerPhase.finish]
      simp only [WorkerPhase.step]
      have hsent : ((before.recordPossibleNeighbour request.sender ping).handleGetPortMessage request chunkId
          env.listener).sentData = none := by
        unfold Server.handleGetPortMessage
        split
        · rfl
        · split <;> rfl
      unfold Reaction.output
      rw [hsent]
      cases ((before.recordPossibleNeighbour request.sender ping).handleGetPortMessage request chunkId
        env.listener).response with
      | none => rfl
      | some response => exact finish_sendResponse env data _ _ response
  | findValue chunkId =>
      change (WorkerPhase.isChunkAlreadyStored request chunkId).finish decode env data (fuel + 3) _ = _
      rw [WorkerPhase.finish]
      simp only [WorkerPhase.step, htype]
      unfold Server.handleFindValueMessage
      split
      · exact finish_sendResponse env data _ _ _
      · exact finish_getKClosest env data _ _ request chunkId
  | getValue chunkId port =>
      change (WorkerPhase.readChunk request chunkId port).finish decode env data (fuel + 3) _ = _
      rw [WorkerPhase.finish]
      simp only [WorkerPhase.step]
      unfold Server.handleGetValue
      cases (before.recordPossibleNeighbour request.sender ping).shardStorageManager.readChunk chunkId with
      | error e => rfl
      | ok content => rfl

/-- A worker that nobody interrupts does what the handler does in one piece. -/
theorem finish_handleReceivedRequest {s : Receiver} (hfree : s.blocked = false) {data : Text} {request : Request}
    (hasks : Asks decode s.server.nodeInfo data request) (hroom : s.server.routingTable.hasRoomFor request.sender = true)
    (env : WorkerEnv) (ping : PingOutcome) : WorkerPhase.parse.finish decode env data 5 s =
      some (⟨(s.server.handleReceivedRequest request ⟨ping, env.now, env.listener⟩).server, false⟩,
        (s.server.handleReceivedRequest request ⟨ping, env.now, env.listener⟩).output env) := by
  have hown : ¬ request.receiver.id ≠ s.server.nodeInfo.id := not_not.mpr hasks.2
  have hstored : (s.store request.sender).server = s.server.recordPossibleNeighbour request.sender ping := by
    unfold Receiver.store Server.recordPossibleNeighbour
    rw [RoutingTable.storeNodeinfo_of_hasRoomFor hroom headRemoved ping]
  rw [WorkerPhase.finish]
  simp only [WorkerPhase.step, hasks.1, if_neg hown]
  rw [WorkerPhase.finish]
  simp only [WorkerPhase.step, hfree, hroom, Bool.false_eq_true, if_false, if_true]
  have hunblocked : (s.store request.sender).blocked = false := by
    simp only [Receiver.store, hroom, Bool.not_true]
  exact finish_handlerOf hunblocked hasks.2 env data 0 hstored

end Steps

section Provenance
variable (W : Surroundings) (node : NodeInfo) (present : AList fun _ : Key => Bytes)

/-- A contact of the node's own, or the sender of a request it was given. -/
def Heard (T : Text → Prop) (n : NodeInfo) : Prop :=
  W.own n ∨ ∃ data, T data ∧ ∃ request, Asks W.decode node data request ∧ request.sender = n

/-- A `GET_PORT` for the chunk was given to the node, which listened at the port for it. -/
def Announced (T : Text → Prop) (hash : Key) (port : UInt16) : Prop :=
  ∃ data, T data ∧ W.listens data port ∧ ∃ request, Asks W.decode node data request ∧ request.requestType = .getPort hash

/-- Bytes that a chunk file had before, or the beginning of what was uploaded to a port at which the
node listened for this chunk. -/
def Received (T : Text → Prop) (hash : Key) (content : Bytes) : Prop :=
  present.lookup hash = some content ∨
    ∃ port data, Announced W node T hash port ∧ W.uploaded port data ∧ content <+: data

/-- The file was there before, or is what was uploaded for its chunk as far as it is written. -/
def FileReceived (T : Text → Prop) (hash : Key) (file : ChunkFile) : Prop :=
  (∃ content, present.lookup hash = some content ∧ file = ⟨content, []⟩) ∨
    ∃ port data, Announced W node T hash port ∧ W.uploaded port data ∧ file.content <+: data

structure ReceiverKept (T : Text → Prop) (s : Receiver) : Prop where
  nodeInfo_eq : s.server.nodeInfo = node
  id_eq : s.server.routingTable.id = node.id
  valid : s.server.routingTable.Valid
  heard : ∀ n ∈ s.server.routingTable.getAllNodeinfos, Heard W node T n
  transfers : ∀ port transfer, s.server.transfers.lookup port = some transfer → Announced W node T transfer.chunkHash port
  files : ∀ hash file, s.server.shardStorageManager.files.lookup hash = some file → FileReceived W node present T hash file

/-- The response is one to the request in the datagram, and all it tells of were heard of. -/
def Replies (T : Text → Prop) (data : Text) (response : Response) : Prop :=
  ∃ request, Asks W.decode node data request ∧ request.AgreesWith response ∧ response.sender = node ∧
    ∀ n ∈ response.responseType.contacts, Heard W node T n ∧ n.id ≠ node.id

/-- The content goes to the port of a `GET_VALUE` in the datagram, at the address of its sender. -/
def ServesValue (T : Text → Prop) (data : Text) (address : SocketAddr) (content : Bytes) : Prop :=
  ∃ request chunkId port, Asks W.decode node data request ∧ request.requestType = .getValue chunkId port ∧
    address = request.sender.address.atPort port ∧ Received W node present T chunkId content

def PhaseKept (T : Text → Prop) (data : Text) : WorkerPhase → Prop
  | .parse => True
  | .handleResponse response => W.decode data = some (.response response)
  | .recordPossibleNeighbour request => Asks W.decode node data request
  | .ping request => Asks W.decode node data request
  | .getKClosest request target => Asks W.decode node data request ∧
      (request.requestType = .findNode target ∨ request.requestType = .findValue target)
  | .isChunkAlreadyStored request chunkId => Asks W.decode node data request ∧
      (request.requestType = .store chunkId ∨ request.requestType = .findValue chunkId)
  | .updateChunkUploadTime request chunkId => Asks W.decode node data request ∧ request.requestType = .store chunkId
  | .addActiveTcpConnection request fileId => Asks W.decode node data request ∧ request.requestType = .getPort fileId
  | .readChunk request chunkId port => Asks W.decode node data request ∧ request.requestType = .getValue chunkId port
  | .connect address content => ServesValue W node present T data address content
  | .sendResponse response => Replies W node T data response

def OutputKept (T : Text → Prop) (data : Text) : WorkerOutput → Prop
  | .handled response => W.decode data = some (.response response)
  | .sent response => Replies W node T data response
  | .sentData address content => ServesValue W node present T data address content

variable {W node present} {T T' : Text → Prop} {s : Receiver} {data : Text}

theorem Heard.mono (hsub : ∀ a, T a → T' a) {n : NodeInfo} (h : Heard W node T n) : Heard W node T' n := by
  rcases h with h | ⟨data, hdata, h⟩
  · exact .inl h
  · exact .inr ⟨data, hsub data hdata, h⟩

theorem Announced.mono (hsub : ∀ a, T a → T' a) {hash : Key} {port : UInt16} (h : Announced W node T hash port) :
    Announced W node T' hash port := by
  obtain ⟨data, hdata, h⟩ := h
  exact ⟨data, hsub data hdata, h⟩

theorem Received.mono (hsub : ∀ a, T a → T' a) {hash : Key} {content : Bytes}
    (h : Received W node present T hash content) : Received W node present T' hash content := by
  rcases h with h | ⟨port, data, hannounced, h⟩
  · exact .inl h
  · exact .inr ⟨port, data, hannounced.mono hsub, h⟩

theorem FileReceived.mono (hsub : ∀ a, T a → T' a) {hash : Key} {file : ChunkFile}
    (h : FileReceived W node present T hash file) : FileReceived W node present T' hash file := by
  rcases h with h | ⟨port, data, hannounced, h⟩
  · exact .inl h
  · exact .inr ⟨port, data, hannounced.mono hsub, h⟩

/-- What is read of the file has come from where the file has. -/
theorem FileReceived.onDisk {hash : Key} {file : ChunkFile} (h : FileReceived W node present T hash file) :
    Received W node present T hash file.onDisk := by
  rcases h with ⟨content, hpresent, rfl⟩ | ⟨port, data, hannounced, huploaded, hprefix⟩
  · exact .inl hpresent
  · exact .inr ⟨port, data, hannounced, huploaded, (List.prefix_append _ _).trans hprefix⟩

theorem FileReceived.progress {hash : Key} {file : ChunkFile} (h : FileReceived W node present T hash file) (count : Nat) :
    FileReceived W node present T hash (file.progress count) := by
  rcases h with ⟨content, hpresent, rfl⟩ | ⟨port, data, hannounced, huploaded, hprefix⟩
  · refine .inl ⟨content, hpresent, ?_⟩
    rw [ChunkFile.progress, List.take_nil, List.drop_nil, List.append_nil]
  · exact .inr ⟨port, data, hannounced, huploaded, (file.content_progress count).symm ▸ hprefix⟩

theorem ServesValue.mono (hsub : ∀ a, T a → T' a) {address : SocketAddr} {content : Bytes}
    (h : ServesValue W node present T data address content) : ServesValue W node present T' data address content := by
  obtain ⟨request, chunkId, port, hasks, htype, haddress, hreceived⟩ := h
  exact ⟨request, chunkId, port, hasks, htype, haddress, hreceived.mono hsub⟩

theorem Replies.mono (hsub : ∀ a, T a → T' a) {response : Response} (h : Replies W node T data response) :
    Replies W node T' data response := by
  obtain ⟨request, hasks, hagrees, hsender, hcontacts⟩ := h
  exact ⟨request, hasks, hagrees, hsender, fun n hn => (hcontacts n hn).imp_left (Heard.mono hsub)⟩

theorem ReceiverKept.mono (hsub : ∀ a, T a → T' a) (h : ReceiverKept W node present T s) :
    ReceiverKept W node present T' s :=
  { h with
    heard := fun n hn => (h.heard n hn).mono hsub
    transfers := fun port transfer ht => (h.transfers port transfer ht).mono hsub
    files := fun hash file hfile => (h.files hash file hfile).mono hsub }

theorem PhaseKept.mono (hsub : ∀ a, T a → T' a) {p : WorkerPhase} (h : PhaseKept W node present T data p) :
    PhaseKept W node present T' data p := by
  cases p with
  | connect address content => exact ServesValue.mono hsub h
  | sendResponse response => exact Replies.mono hsub h
  | _ => exact h

theorem OutputKept.mono (hsub : ∀ a, T a → T' a) {x : WorkerOutput} (h : OutputKept W node present T data x) :
    OutputKept W node present T' data x := by
  cases x with
  | handled response => exact h
  | sent response => exact Replies.mono hsub h
  | sentData address content => exact ServesValue.mono hsub h

namespace ReceiverKept
variable (h : ReceiverKept W node present T s)
include h

/-- A contact that may be told of is stored, with or without room for it. -/
theorem store {contact : NodeInfo} (hcontact : Heard W node T contact) :
    ReceiverKept W node present T (s.store contact) where
  nodeInfo_eq := h.nodeInfo_eq
  id_eq := (RoutingTable.storeNodeinfo_id _ _ _).trans h.id_eq
  valid := RoutingTable.storeNodeinfo_valid h.valid _ _
  heard := by
    intro n hn
    rcases h.valid.mem_storeNodeinfo hn with hn | rfl
    · exact h.heard n hn
    · exact hcontact
  transfers := h.transfers
  files := h.files

theorem respond {request : Request} {type : ResponseType} (hasks : Asks W.decode node data request)
    (hallowed : request.requestType.Allows type) (hcontacts : type.contacts = []) :
    Replies W node T data (s.server.respond request type) := by
  refine ⟨request, hasks, ⟨rfl, ?_, rfl, hallowed⟩, h.nodeInfo_eq, fun n hn => ?_⟩
  · rw [hasks.2, ← h.nodeInfo_eq]
    rfl
  · have hmem : n ∈ type.contacts := hn
    rw [hcontacts] at hmem
    cases hmem

/-- The lists that go out name contacts of the table. -/
theorem findNode {request : Request} {target : Key} {response : Response} (hasks : Asks W.decode node data request)
    (htype : request.requestType = .findNode target ∨ request.requestType = .findValue target)
    (hresponse : (s.server.handleFindNodeMessage request target).response = some response) :
    Replies W node T data response := by
  unfold Server.handleFindNodeMessage at hresponse
  cases hclosest : s.server.routingTable.getKClosest target with
  | error e =>
      rw [hclosest] at hresponse
      cases hresponse
  | ok nodes =>
      rw [hclosest] at hresponse
      dsimp only at hresponse
      cases hnew : ResponseType.newNodes nodes with
      | error e =>
          rw [hnew] at hresponse
          cases hresponse
      | ok type =>
          rw [hnew] at hresponse
          cases hresponse
          obtain ⟨rfl, hlength⟩ := ResponseType.newNodes_ok hnew
          have hallowed : request.requestType.Allows (.nodes nodes) := by
            rcases htype with htype | htype
            · rw [htype]
              exact hlength
            · rw [htype]
              exact hlength
          refine ⟨request, hasks, ⟨rfl, ?_, rfl, hallowed⟩, h.nodeInfo_eq, fun n hn => ?_⟩
          · rw [hasks.2, ← h.nodeInfo_eq]
            rfl
          · have hmem := (h.valid.getNClosest_subset hclosest).2 hn
            exact ⟨h.heard n hmem, h.id_eq ▸ h.valid.id_ne hmem⟩

/-- A chunk is served as far as its file is on disk. -/
theorem readChunk {request : Request} {chunkId : Key} {port : UInt16} {p : SocketAddr × Bytes}
    (hasks : Asks W.decode node data request) (htype : request.requestType = .getValue chunkId port)
    (hsent : (s.server.handleGetValue request chunkId port).sentData = some p) :
    ServesValue W node present T data p.1 p.2 := by
  unfold Server.handleGetValue ShardStorageManager.readChunk at hsent
  cases hfile : s.server.shardStorageManager.files.lookup chunkId with
  | none =>
      rw [hfile] at hsent
      cases hsent
  | some file =>
      rw [hfile] at hsent
      cases hsent
      exact ⟨request, chunkId, port, hasks, htype, rfl, (h.files chunkId file hfile).onDisk⟩

theorem updateChunkUploadTime (chunkId : Key) (now : Nat) : ReceiverKept W node present T { s with
    server := { s.server with shardStorageManager := (s.server.shardStorageManager.updateChunkUploadTime chunkId now).2 } } := by
  obtain ⟨hfiles, htransfers, -⟩ := s.server.shardStorageManager.updateChunkUploadTime_spec chunkId now
  refine ⟨h.nodeInfo_eq, h.id_eq, h.valid, h.heard, fun port transfer ht => h.transfers port transfer ?_, fun hash content hc =>
    h.files hash content ?_⟩
  · rw [← ht]
    exact congrArg (AList.lookup port) htransfers.symm
  · rw [← hc]
    exact congrArg (AList.lookup hash) hfiles.symm

/-- The entry that a `GET_PORT` makes is for its chunk, and its answer is one. -/
theorem getPort {request : Request} {fileId : Key} (hasks : Asks W.decode node data request) (hdata : T data)
    (htype : request.requestType = .getPort fileId) {listener : Option UInt16}
    (hlistens : ∀ port ∈ listener, W.listens data port) :
    ReceiverKept W node present T { s with server := (s.server.handleGetPortMessage request fileId listener).server } ∧
    ∀ r ∈ (s.server.handleGetPortMessage request fileId listener).response, Replies W node T data r := by
  unfold Server.handleGetPortMessage
  cases listener with
  | none => exact ⟨h, fun r hr => by cases hr⟩
  | some port =>
      have hentry : ∀ q transfer, (s.server.transfers.insert port ⟨request.sender, fileId⟩).lookup q = some transfer →
          Announced W node T transfer.chunkHash q := by
        intro q transfer hq
        by_cases hport : q = port
        · subst hport
          rw [AList.lookup_insert] at hq
          cases hq
          exact ⟨data, hdata, hlistens q rfl, request, hasks, htype⟩
        · rw [AList.lookup_insert_ne hport] at hq
          exact h.transfers q transfer hq
      simp only [ShardStorageManager.addActiveTcpConnection, DataTransfersTable.add]
      split
      next old storage heq =>
        obtain ⟨-, rfl⟩ := Prod.mk.inj heq
        exact ⟨{ h with transfers := hentry }, fun r hr => by cases hr⟩
      next storage heq =>
        obtain ⟨-, rfl⟩ := Prod.mk.inj heq
        refine ⟨{ h with transfers := hentry }, ?_⟩
        rintro r ⟨⟩
        refine h.respond hasks ?_ rfl
        rw [htype]
        trivial

theorem uploads {content : Bytes} {port : UInt16} {io : StoreIo} {now : Nat} (hcontent : W.uploaded port content) :
    ReceiverKept W node present T { s with server := { s.server with
      shardStorageManager := (s.server.shardStorageManager.storeChunkForKnownPeer content port io now).2 } } := by
  rcases s.server.shardStorageManager.storeChunkForKnownPeer_cases content port io now with
    ⟨⟨e, he⟩, -⟩ | ⟨transfer, htransfer, -, -, hstores⟩
  · rw [he]
    exact h
  · have hannounced := h.transfers port transfer htransfer
    -- the transfer on the port goes, and its chunk gets a file for what has come in over it
    have hstored : ∀ (m : ShardStorageManager) stored, stored.content <+: content →
        m.dataTransfersTable = s.server.transfers.erase port →
        m.files = s.server.shardStorageManager.files.insert transfer.chunkHash stored →
        ReceiverKept W node present T { s with server := { s.server with shardStorageManager := m } } := by
      intro m stored hprefix htable hfiles
      refine { h with transfers := fun q entry hq => ?_, files := fun hash found hfound => ?_ }
      · have hq' : (s.server.transfers.erase port).lookup q = some entry := htable ▸ hq
        by_cases hport : q = port
        · subst hport
          rw [AList.lookup_erase] at hq'
          cases hq'
        · rw [AList.lookup_erase_ne hport] at hq'
          exact h.transfers q entry hq'
      · have hfound' : (s.server.shardStorageManager.files.insert transfer.chunkHash stored).lookup hash = some found :=
          hfiles ▸ hfound
        by_cases hhash : hash = transfer.chunkHash
        · subst hhash
          rw [AList.lookup_insert] at hfound'
          cases hfound'
          exact .inr ⟨port, content, hannounced, hcontent, hprefix⟩
        · rw [AList.lookup_insert_ne hhash] at hfound'
          exact h.files hash found hfound'
    rcases hstores with ⟨file, hio, heq⟩ | ⟨-, heq⟩
    · rw [heq]
      exact hstored _ file (StoreIo.content_isPrefix hio) rfl rfl
    · rw [heq]
      exact hstored _ ⟨[], []⟩ List.nil_prefix rfl rfl

theorem continueWrite (hash : Key) (count : Nat) : ReceiverKept W node present T { s with
    server := { s.server with shardStorageManager := s.server.shardStorageManager.continueWrite hash count } } := by
  unfold ShardStorageManager.continueWrite
  split
  next file hfile =>
    refine { h with files := fun other found hfound => ?_ }
    have hfound' : (s.server.shardStorageManager.files.insert hash (file.progress count)).lookup other = some found := hfound
    by_cases hhash : other = hash
    · subst hhash
      rw [AList.lookup_insert] at hfound'
      cases hfound'
      exact (h.files other file hfile).progress count
    · rw [AList.lookup_insert_ne hhash] at hfound'
      exact h.files other found hfound'
  · exact h

theorem looksUp (target : Key) (now : Nat) : ReceiverKept W node present T { s with
    server := { s.server with routingTable := (s.server.routingTable.lookupGetNClosest target alpha now).2 } } := by
  unfold RoutingTable.lookupGetNClosest
  split
  · exact h
  next i hidx =>
    obtain ⟨hvalid, hsubset⟩ := h.valid.touch i now
    exact { h with valid := hvalid, heard := fun n hn => h.heard n (hsubset hn) }

theorem isChunkAlreadyStored {request : Request} {chunkId : Key} (hasks : Asks W.decode node data request)
    (htype : request.requestType = .store chunkId ∨ request.requestType = .findValue chunkId) (stored : Bool) :
    PhaseKept W node present T data (match request.requestType with
      | .store _ => if stored then .updateChunkUploadTime request chunkId else .sendResponse (s.server.respond request .storeOk)
      | _ => if stored then .sendResponse (s.server.respond request (.hasValue chunkId)) else .getKClosest request chunkId) := by
  rcases htype with htype | htype
  · rw [htype]
    dsimp only
    split
    · exact ⟨hasks, htype⟩
    · exact h.respond hasks (by rw [htype]; trivial) rfl
  · rw [htype]
    dsimp only
    split
    · exact h.respond hasks (by rw [htype]; rfl) rfl
    · exact ⟨hasks, .inr htype⟩

theorem handlerOf {request : Request} (hasks : Asks W.decode node data request) :
    PhaseKept W node present T data (s.server.handlerOf request) := by
  unfold Server.handlerOf
  split
  next htype => exact h.respond hasks (by rw [htype]; trivial) rfl
  next nodeId htype => exact ⟨hasks, .inl htype⟩
  next chunkId htype => exact ⟨hasks, .inl htype⟩
  next fileId htype => exact ⟨hasks, htype⟩
  next chunkId htype => exact ⟨hasks, .inr htype⟩
  next chunkId port htype => exact ⟨hasks, htype⟩

/-- What one step of a worker leaves and puts out. -/
theorem step {p : WorkerPhase} {env : WorkerEnv} {s' : Receiver} {next : Option WorkerPhase} {out : Option WorkerOutput}
    (hdata : T data) (hlistens : ∀ port ∈ env.listener, W.listens data port) (hp : PhaseKept W node present T data p)
    (hstep : p.step W.decode env s data = some (s', next, out)) :
    ReceiverKept W node present T s' ∧ (∀ q ∈ next, PhaseKept W node present T data q) ∧
    ∀ x ∈ out, OutputKept W node present T data x := by
  have hover : ∀ q ∈ (none : Option WorkerPhase), PhaseKept W node present T data q := fun q hq =>
    absurd hq (Option.not_mem_none q)
  have hsilent : ∀ x ∈ (none : Option WorkerOutput), OutputKept W node present T data x := fun x hx =>
    absurd hx (Option.not_mem_none x)
  cases p with
  | parse =>
      cases hstep
      refine ⟨h, ?_, hsilent⟩
      intro q hq
      cases hdispatch : W.decode data with
      | none =>
          rw [hdispatch] at hq
          cases hq
      | some m =>
          rw [hdispatch] at hq
          cases m with
          | response response =>
              cases hq
              exact hdispatch
          | request request =>
              dsimp only at hq
              split_ifs at hq with hid
              · cases hq
              · cases hq
                exact ⟨hdispatch, (not_not.mp hid).trans (congrArg NodeInfo.id h.nodeInfo_eq)⟩
  | handleResponse response =>
      cases hstep
      refine ⟨h, hover, ?_⟩
      rintro x ⟨⟩
      exact hp
  | recordPossibleNeighbour request =>
      have hheard : Heard W node T request.sender := .inr ⟨data, hdata, request, hp, rfl⟩
      simp only [WorkerPhase.step] at hstep
      split_ifs at hstep
      · cases hstep
        refine ⟨h.store hheard, ?_, hsilent⟩
        rintro q ⟨⟩
        exact h.handlerOf hp
      · cases hstep
        refine ⟨h.store hheard, ?_, hsilent⟩
        rintro q ⟨⟩
        exact hp
  | ping request => cases hstep
  | getKClosest request target =>
      simp only [WorkerPhase.step] at hstep
      split_ifs at hstep
      cases hstep
      refine ⟨h, ?_, hsilent⟩
      intro q hq
      obtain ⟨response, hresponse, rfl⟩ := Option.map_eq_some_iff.mp hq
      exact h.findNode hp.1 hp.2 hresponse
  | isChunkAlreadyStored request chunkId =>
      cases hstep
      refine ⟨h, ?_, hsilent⟩
      rintro q ⟨⟩
      exact h.isChunkAlreadyStored hp.1 hp.2 _
  | updateChunkUploadTime request chunkId =>
      cases hstep
      refine ⟨h.updateChunkUploadTime chunkId env.now, ?_, hsilent⟩
      rintro q ⟨⟩
      exact h.respond hp.1 (by rw [hp.2]; trivial) rfl
  | addActiveTcpConnection request fileId =>
      cases hstep
      obtain ⟨hserver, hresponse⟩ := h.getPort hp.1 hdata hp.2 hlistens
      refine ⟨hserver, ?_, hsilent⟩
      intro q hq
      obtain ⟨response, hmem, rfl⟩ := Option.map_eq_some_iff.mp hq
      exact hresponse response hmem
  | readChunk request chunkId port =>
      cases hstep
      refine ⟨h, ?_, hsilent⟩
      intro q hq
      obtain ⟨sent, hsent, rfl⟩ := Option.map_eq_some_iff.mp hq
      exact h.readChunk hp.1 hp.2 hsent
  | connect address content =>
      cases hstep
      refine ⟨h, hover, ?_⟩
      intro x hx
      split_ifs at hx
      · cases hx
        exact hp
      · cases hx
  | sendResponse response =>
      cases hstep
      refine ⟨h, hover, ?_⟩
      intro x hx
      split at hx
      · cases hx
        exact hp
      · cases hx

theorem outside {s' : Receiver} (houtside : Receiver.Outside W s s') : ReceiverKept W node present T s' := by
  cases houtside with
  | stores hblocked hown => exact h.store (.inl hown)
  | looksUp => exact h.looksUp _ _
  | uploads hcontent => exact h.uploads hcontent
  | writes => exact h.continueWrite _ _

end ReceiverKept

theorem workerProgram_keeps : Keeps (workerProgram W) (ReceiverKept W node present)
    (PhaseKept W node present) (OutputKept W node present) where
  mono := ReceiverKept.mono
  mono_job := fun hsub h => PhaseKept.mono hsub h
  mono_out := fun hsub h => OutputKept.mono hsub h
  first := fun _ _ => trivial
  step := fun h hdata hp ⟨_, hlistens, hstep⟩ => h.step hdata hlistens hp hstep
  outside := fun h houtside => h.outside houtside

/-- A node that was just created, on a directory with these files. -/
def Receiver.created (node : NodeInfo) (now : Nat) (present : AList fun _ : Key => Bytes) : Receiver :=
  ⟨⟨node, .new node.id now, .new present⟩, false⟩

theorem Receiver.created_kept (now : Nat) :
    ReceiverKept W node present T (.created node now present) where
  nodeInfo_eq := rfl
  id_eq := rfl
  valid := RoutingTable.new_valid node.id now
  heard := by
    intro n hn
    obtain ⟨b, hb, hnb⟩ := List.mem_flatMap.mp hn
    rw [List.eq_of_mem_replicate hb] at hnb
    cases hnb
  transfers := by
    intro port transfer htransfer
    have hnone : (∅ : DataTransfersTable).lookup port = some transfer := htransfer
    cases hnone
  files := by
    intro hash file hfile
    have hwritten : (ShardStorageManager.written present).lookup hash = some file := hfile
    rw [ShardStorageManager.lookup_written, Option.map_eq_some_iff] at hwritten
    obtain ⟨content, hpresent, rfl⟩ := hwritten
    exact .inl ⟨content, hpresent, rfl⟩

end Provenance

/-- A ping from a stranger to the node with id zero. -/
def callerRequest : Request := ⟨.ping, .local 200 4002, .local 0 4001, contactsResponse.requestId⟩

def callerDatagram : Text := (Message.request callerRequest).encode

/-- Nobody uploads anything, and the node has no contacts of its own. -/
def callerSurroundings : Surroundings := ⟨dispatch v4Parsers, fun _ => False, fun _ _ => False, fun _ _ => False⟩

theorem callerRequest_asks : Asks callerSurroundings.decode (.local 0 4001) callerDatagram callerRequest := by
  have hback : (Message.request callerRequest).ParsesBack v4Parsers :=
    ⟨NodeInfo.local_parsesBack 200 (by decide), NodeInfo.local_parsesBack 0 (by decide), v4Parsers_requestId⟩
  have hdecode : callerSurroundings.decode = dispatch v4Parsers := rfl
  refine ⟨?_, rfl⟩
  rw [hdecode]
  exact dispatch_encode hback

section Caller
variable {s : ReceivePool} {k : Fin receiveWorkerTaskCount}

theorem listens_none (data : Text) : ∀ port ∈ (none : Option UInt16), callerSurroundings.listens data port :=
  fun port hport => absurd hport (Option.not_mem_none port)

/-- The ping comes in at an idle node, and a worker is about to store its sender. -/
theorem callerRequest_parsed (hreader : s.reader = none) (hqueue : s.queue = []) (hidle : ∀ k, s.workers k = none)
    (hnode : s.shared.server.nodeInfo = .local 0 4001) : ∃ hist t, Trace (ReceiveStep callerSurroundings) s hist t ∧
    t.shared = s.shared ∧ t.emitted = s.emitted ∧ t.reader = none ∧ t.queue = [] ∧
    t.workers k = some (⟨s.received.length, callerDatagram⟩, .recordPossibleNeighbour callerRequest) ∧
    ∀ k', k' ≠ k → t.workers k' = none := by
  have hparse : WorkerPhase.parse.step callerSurroundings.decode ⟨0, none, true, true⟩ s.shared callerDatagram =
      some (s.shared, some (.recordPossibleNeighbour callerRequest), none) := by
    have hid : ¬ callerRequest.receiver.id ≠ s.shared.server.nodeInfo.id := by
      rw [hnode]
      exact not_not.mpr rfl
    simp only [WorkerPhase.step, callerRequest_asks.1, if_neg hid]
  have hreceives : ReceiveStep callerSurroundings s (.receives callerDatagram) _ := .receives hreader
  have hreceived : Trace (ReceiveStep callerSurroundings) s _ _ := .next .start hreceives
  have hroom : s.queue.length < queueCapacity := by
    rw [hqueue]
    decide
  have hfirst : s.queue ++ [⟨s.received.length, callerDatagram⟩] = [⟨s.received.length, callerDatagram⟩] := by
    rw [hqueue]
    rfl
  have htaken := (hreceived.next (.enqueues rfl hroom)).next (.takes (hidle k) hfirst)
  refine ⟨_, _, htaken.next (.works (Function.update_self ..) ⟨_, listens_none _, hparse⟩), rfl, List.append_nil _, rfl, rfl,
    Function.update_self .., fun k' hk' => ?_⟩
  simp only [Function.update_of_ne hk', hidle]

/-- It is answered, once the sender is stored. -/
theorem callerRequest_answered : ∃ hist, ∃ s : ReceivePool,
    Trace (ReceiveStep callerSurroundings) (Pool.start (.created (.local 0 4001) 0 ∅)) hist s ∧
    s.emitted = [(0, .sent (s.shared.server.respond callerRequest .pong))] ∧
    callerRequest.sender ∈ s.shared.server.routingTable.getAllNodeinfos ∧
    s.shared.blocked = false ∧ s.reader = none ∧ s.queue = [] ∧ ∀ k, s.workers k = none := by
  obtain ⟨hist, t, hrun, hshared, hemitted, hreader, hqueue, hwork, hothers⟩ := callerRequest_parsed
    (k := ⟨0, by decide⟩) (s := Pool.start (.created (.local 0 4001) 0 ∅)) rfl rfl (fun _ => rfl) rfl
  have hroom : (RoutingTable.new (NodeInfo.local 0 4001).id 0).hasRoomFor callerRequest.sender = true := by decide
  have hstep : (WorkerPhase.recordPossibleNeighbour callerRequest).step callerSurroundings.decode ⟨0, none, true, true⟩
      t.shared callerDatagram =
      some (t.shared.store callerRequest.sender, some (.sendResponse (t.shared.server.respond callerRequest .pong)), none) := by
    have hblocked : t.shared.blocked = false := congrArg Receiver.blocked hshared
    simp only [WorkerPhase.step, hblocked, Bool.false_eq_true, if_false]
    rw [hshared]
    exact if_pos hroom
  have hsend : ∀ response, (Message.response response).WithinBudget → (WorkerPhase.sendResponse response).step
      callerSurroundings.decode ⟨0, none, true, true⟩ (t.shared.store callerRequest.sender) callerDatagram =
      some (t.shared.store callerRequest.sender, none, some (.sent response)) := by
    intro response hbudget
    simp only [WorkerPhase.step, sendResponse_ok hbudget]
  have hrecorded := hrun.next (.works hwork ⟨_, listens_none _, hstep⟩)
  refine ⟨_, _, hrecorded.next (.works (Function.update_self ..) ⟨_, listens_none _, hsend _ trivial⟩), ?_, ?_, ?_, hreader,
    hqueue, ?_⟩
  · simp only [hemitted]
    rfl
  · change callerRequest.sender ∈ (t.shared.store callerRequest.sender).server.routingTable.getAllNodeinfos
    rw [hshared]
    decide
  · change (t.shared.store callerRequest.sender).blocked = false
    rw [hshared]
    decide
  · intro k
    by_cases hk : k = ⟨0, by decide⟩
    · subst hk
      simp only [Function.update_self]
      rfl
    · simp only [Function.update_of_ne hk]
      exact hothers k hk

end Caller

section Runs
variable {W : Surroundings} {node : NodeInfo} {now : Nat}
  {present : AList fun _ : Key => Bytes} {hist : List (ReceivePool × ReceiveEvent)} {s : ReceivePool}

/-- What comes of a datagram: the response in it is handed on, or the request in it answered. -/
def WorkerOutput.ResultOf (decode : Text → Option Message) (node : NodeInfo) (data : Text) : WorkerOutput → Prop
  | .handled response => decode data = some (.response response)
  | .sent response => ∃ request, Asks decode node data request ∧ request.AgreesWith response
  | .sentData address _ => ∃ request chunkId port, Asks decode node data request ∧
      request.requestType = .getValue chunkId port ∧ address = request.sender.address.atPort port

theorem OutputKept.resultOf {T : Text → Prop} {data : Text} {x : WorkerOutput}
    (h : OutputKept W node present T data x) : x.ResultOf W.decode node data := by
  cases x with
  | handled response => exact h
  | sent response =>
      obtain ⟨request, hasks, hagrees, -⟩ := h
      exact ⟨request, hasks, hagrees⟩
  | sentData address content =>
      obtain ⟨request, chunkId, port, hasks, htype, haddress, -⟩ := h
      exact ⟨request, chunkId, port, hasks, htype, haddress⟩

/-- In every interleaving of the reader, the workers and the node's other tasks: what was
received is what the workers took, what waits in the queue and what the reader holds, in this
order; the queue keeps its bound; each datagram is with one worker at most, and has at most one
result, which comes last and answers the request or hands on the response that it holds. -/
theorem received_accounted (hrun : Trace (ReceiveStep W) (Pool.start (.created node now present)) hist s) :
    s.started ++ (s.queue ++ s.reader.toList) = s.received ∧ s.queue.length ≤ 100 ∧
    (∀ k k' j j' p p', s.workers k = some (j, p) → s.workers k' = some (j', p') → j.ticket = j'.ticket → k = k') ∧
    (s.emitted.map Prod.fst).Nodup ∧
    ∀ x ∈ s.emitted, (∀ k j p, s.workers k = some (j, p) → j.ticket ≠ x.1) ∧
      ∃ j ∈ s.started, s.received[x.1]? = some j ∧ x.2.ResultOf W.decode node j.data := by
  have haccount := accounted_run workerProgram_emitsLast hrun
  have hkept := workerProgram_keeps.run (Receiver.created_kept now) hrun
  refine ⟨haccount.split, haccount.bounded, haccount.alone, haccount.once, fun x hx => ⟨fun k j p hk heq => ?_, ?_⟩⟩
  · exact haccount.finished k j p hk (heq ▸ List.mem_map_of_mem hx)
  · obtain ⟨j, hj, hticket, hout⟩ := hkept.emitted x hx
    exact ⟨j, hj, hticket ▸ haccount.getElem?_ticket (haccount.mem_received hj), hout.resultOf⟩

theorem received_accounted_caller : ∃ hist, ∃ s : ReceivePool,
    Trace (ReceiveStep callerSurroundings) (Pool.start (.created (.local 0 4001) 0 ∅)) hist s ∧
    s.started ++ (s.queue ++ s.reader.toList) = s.received ∧ ∃ response, (0, .sent response) ∈ s.emitted ∧
      ∃ j ∈ s.started, s.received[0]? = some j ∧
        (WorkerOutput.sent response).ResultOf callerSurroundings.decode (.local 0 4001) j.data := by
  obtain ⟨hist, s, hrun, hemitted, -⟩ := callerRequest_answered
  obtain ⟨hsplit, -, -, -, hresults⟩ := received_accounted hrun
  have hsent : (0, .sent (s.shared.server.respond callerRequest .pong)) ∈ s.emitted := by
    rw [hemitted]
    exact List.mem_cons_self
  exact ⟨hist, s, hrun, hsplit, _, hsent, (hresults _ hsent).2⟩

/-- Where all that a node knows, keeps and hands out comes from. -/
theorem received_provenance (hrun : Trace (ReceiveStep W) (Pool.start (.created node now present)) hist s) :
    (∀ n ∈ s.shared.server.routingTable.getAllNodeinfos, Heard W node s.Taken n) ∧
    (∀ hash file, s.shared.server.shardStorageManager.files.lookup hash = some file →
      FileReceived W node present s.Taken hash file) ∧
    (∀ ticket response, (ticket, .sent response) ∈ s.emitted → ∀ n ∈ response.responseType.contacts,
      Heard W node s.Taken n ∧ n.id ≠ node.id) ∧
    ∀ ticket address content, (ticket, .sentData address content) ∈ s.emitted →
      ∃ j ∈ s.started, j.ticket = ticket ∧ ServesValue W node present s.Taken j.data address content := by
  have hkept := workerProgram_keeps.run (Receiver.created_kept now) hrun
  refine ⟨hkept.shared.heard, hkept.shared.files, ?_, ?_⟩
  · intro ticket response hsent n hn
    obtain ⟨j, -, -, request, -, -, -, hcontacts⟩ := hkept.emitted _ hsent
    exact hcontacts n hn
  · intro ticket address content hsent
    obtain ⟨j, hj, hticket, hserves⟩ := hkept.emitted _ hsent
    exact ⟨j, hj, hticket, hserves⟩

theorem received_provenance_caller : ∃ hist, ∃ s : ReceivePool,
    Trace (ReceiveStep callerSurroundings) (Pool.start (.created (.local 0 4001) 0 ∅)) hist s ∧
    callerRequest.sender ∈ s.shared.server.routingTable.getAllNodeinfos ∧
    Heard callerSurroundings (.local 0 4001) s.Taken callerRequest.sender := by
  obtain ⟨hist, s, hrun, -, hstored, -⟩ := callerRequest_answered
  exact ⟨hist, s, hrun, hstored, (received_provenance hrun).1 _ hstored⟩

end Runs

end P2PFilesystem
