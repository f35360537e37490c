import P2PFilesystem.RequestHandler
import P2PFilesystem.Traces

/-!
# Open transfers and the transfer table

`handle_get_port_message`, the task it spawns, and `handle_tcp_upload`, on one node among
whatever other requests it gets. An entry of the transfer table is made when a `GET_PORT` is
handled; only a store that comes to create the chunk file takes it out again.
-/
namespace P2PFilesystem
open Traces

/-- A listener that was opened for a `GET_PORT`, with the data it has received. Its port is
bound until that data was dealt with. -/
structure OpenTransfer where
  sender : NodeInfo
  chunkHash : Key
  received : Option Bytes
  deriving DecidableEq

def OpenTransfer.entry (t : OpenTransfer) : DataTransfer := ⟨t.sender, t.chunkHash⟩

structure TransferNode where
  server : Server
  bound : AList fun _ : UInt16 => OpenTransfer

inductive TransferEvent where
  | request (request : Request) (env : HandlerEnv) (socketOk : Bool)
  | received (port : UInt16) (data : Bytes)
  | receiveFails (port : UInt16)
  | stored (port : UInt16) (io : StoreIo) (now : Nat)
  | written (chunkHash : Key) (count : Nat)

namespace TransferNode

def storage (self : TransferNode) : ShardStorageManager := self.server.shardStorageManager

/-- The handler runs. With the `PORT_OK` sent a task waits on the listener; without it the
listener is dropped. -/
def handle (self : TransferNode) (request : Request) (env : HandlerEnv) (socketOk : Bool) : TransferNode :=
  let reaction := self.server.handleReceivedRequest request env
  match reaction.response, request.requestType with
  | some response, .getPort chunkId => match response.responseType, sendResponse socketOk response with
      | .portOk port, .ok _ => ⟨reaction.server, self.bound.insert port ⟨request.sender, chunkId, none⟩⟩
      | _, _ => ⟨reaction.server, self.bound⟩
  | _, _ => ⟨reaction.server, self.bound⟩

/-- The background task of a chunk file gets on. -/
def continueWrite (self : TransferNode) (chunkHash : Key) (count : Nat) : TransferNode :=
  { self with server :=
    { self.server with shardStorageManager := self.storage.continueWrite chunkHash count } }

/-- `handle_tcp_upload`, and the end of the task that called it. -/
def handleTcpUpload (self : TransferNode) (data : Bytes) (port : UInt16) (io : StoreIo) (now : Nat) : TransferNode :=
  ⟨{ self.server with shardStorageManager := (self.storage.storeChunkForKnownPeer data port io now).2 },
    self.bound.erase port⟩

end TransferNode

/-- What can happen at a node. A port that is bound is not handed out; a listener receives
once, or gives up on an accept timeout or a read error. -/
inductive TransferStep : TransferNode → TransferEvent → TransferNode → Prop
  | request {n : TransferNode} {request : Request} {env : HandlerEnv} {socketOk : Bool} :
      (∀ port, env.listener = some port → n.bound.lookup port = none) →
      TransferStep n (.request request env socketOk) (n.handle request env socketOk)
  | received {n : TransferNode} {port : UInt16} {data : Bytes} {t : OpenTransfer} :
      n.bound.lookup port = some t → t.received = none →
      TransferStep n (.received port data) { n with bound := n.bound.insert port { t with received := some data } }
  | receiveFails {n : TransferNode} {port : UInt16} {t : OpenTransfer} :
      n.bound.lookup port = some t → t.received = none →
      TransferStep n (.receiveFails port) { n with bound := n.bound.erase port }
  | stored {n : TransferNode} {port : UInt16} {io : StoreIo} {now : Nat} {t : OpenTransfer} {data : Bytes} :
      n.bound.lookup port = some t → t.received = some data →
      TransferStep n (.stored port io now) (n.handleTcpUpload data port io now)
  | written {n : TransferNode} (chunkHash : Key) (count : Nat) :
      TransferStep n (.written chunkHash count) (n.continueWrite chunkHash count)

namespace TransferNode

/-- A port has an entry exactly while its listener waits or its data is being stored, and the
entry is the one of the `GET_PORT` that opened the listener. -/
def Mirrors (n : TransferNode) : Prop :=
  ∀ port, n.server.transfers.lookup port = (n.bound.lookup port).map OpenTransfer.entry

/-- A `GET_PORT` for this node on a newly bound port finds no entry and is answered. -/
def AnswersGetPort (n : TransferNode) : Prop :=
  ∀ (request : Request) (chunkId : Key) (env : HandlerEnv) (port : UInt16),
    request.receiver.id = n.server.nodeInfo.id → request.requestType = .getPort chunkId →
    env.listener = some port → n.bound.lookup port = none →
    (n.storage.addActiveTcpConnection port request.sender chunkId).1 = none ∧
    (n.server.handleReceivedRequest request env).response = some (n.server.respond request (.portOk port))

end TransferNode

/-- The events after which the entry goes with its listener: the `PORT_OK` of a port is sent,
no listener gives up, and received data passes the checks of the store and gets a file. -/
def TransferEvent.Clean (n : TransferNode) : TransferEvent → Prop
  | .request q env socketOk => ∀ chunkId port, q.receiver.id = n.server.nodeInfo.id →
      q.requestType = .getPort chunkId → env.listener = some port → socketOk = true
  | .received _ _ => True
  | .receiveFails _ => False
  | .stored port io _ => ∀ t data, n.bound.lookup port = some t → t.received = some data →
      n.storage.Admits data t.chunkHash ∧ io ≠ .createFails
  | .written _ _ => True

namespace Server

/-- A `GET_PORT` that reached its node makes an entry, and is answered if it replaced none. -/
theorem handleReceivedRequest_getPort (s : Server) {request : Request} {env : HandlerEnv} {chunkId : Key}
    {port : UInt16} (hid : request.receiver.id = s.nodeInfo.id) (htype : request.requestType = .getPort chunkId)
    (henv : env.listener = some port) :
    (s.handleReceivedRequest request env).server.transfers = s.transfers.insert port ⟨request.sender, chunkId⟩ ∧
    (s.handleReceivedRequest request env).response =
      if s.transfers.lookup port = none then some (s.respond request (.portOk port)) else none := by
  unfold handleReceivedRequest
  rw [if_neg (not_not.mpr hid), htype]
  dsimp only
  unfold handleGetPortMessage
  rw [henv]
  simp only [ShardStorageManager.addActiveTcpConnection, DataTransfersTable.add]
  have htable : (s.recordPossibleNeighbour request.sender env.ping).shardStorageManager.dataTransfersTable =
      s.transfers := rfl
  rw [htable]
  cases s.transfers.lookup port with
  | none => exact ⟨rfl, rfl⟩
  | some old => exact ⟨rfl, rfl⟩

end Server

theorem sendResponse_fails (response : Response) : ∃ e, sendResponse false response = .error e := by
  unfold sendResponse
  dsimp only
  by_cases hsize : (JsonText.render response.json).length > maxMessageSize
  · rw [if_pos hsize]
    exact ⟨_, rfl⟩
  · rw [if_neg hsize]
    exact ⟨_, rfl⟩

namespace TransferNode
variable {n : TransferNode} {request : Request} {env : HandlerEnv}

theorem handle_server (n : TransferNode) (request : Request) (env : HandlerEnv) (socketOk : Bool) :
    (n.handle request env socketOk).server = (n.server.handleReceivedRequest request env).server := by
  unfold handle
  dsimp only
  split
  · split <;> rfl
  · rfl

theorem handle_nodeInfo (n : TransferNode) (request : Request) (env : HandlerEnv) (socketOk : Bool) :
    (n.handle request env socketOk).server.nodeInfo = n.server.nodeInfo := by
  rw [handle_server]
  rcases n.server.handleReceivedRequest_cases request env with hquiet | ⟨hkeeps, -⟩
  · exact hquiet.keeps.node_eq
  · exact hkeeps.node_eq

/-- Only a `GET_PORT` for this node touches the table or opens a listener. -/
theorem handle_quiet (n : TransferNode) (request : Request) (env : HandlerEnv) (socketOk : Bool)
    (h : ∀ chunkId port, request.receiver.id = n.server.nodeInfo.id → request.requestType = .getPort chunkId →
      env.listener ≠ some port) :
    (n.handle request env socketOk).server.transfers = n.server.transfers ∧
    (n.handle request env socketOk).bound = n.bound := by
  have hquiet : n.server.Quiet (n.server.handleReceivedRequest request env) := by
    by_cases hid : request.receiver.id = n.server.nodeInfo.id
    · rcases n.server.handleReceivedRequest_cases request env with hq | ⟨-, chunkId, port, htype, henv, -⟩
      · exact hq
      · exact absurd henv (h chunkId port hid htype)
    · have hnone : n.server.handleReceivedRequest request env = ⟨none, none, n.server⟩ := if_pos hid
      rw [hnone]
      exact ⟨⟨rfl, rfl, rfl, fun _ => Iff.rfl⟩, rfl, Server.no_port_of_none⟩
  refine ⟨by rw [handle_server]; exact hquiet.transfers_eq, ?_⟩
  unfold handle
  dsimp only
  split
  next response chunkId hresponse _ =>
    split
    next port _ hport _ => exact absurd hport (hquiet.no_port response port hresponse)
    · rfl
  · rfl

theorem Mirrors.answersGetPort (h : n.Mirrors) : n.AnswersGetPort := by
  intro request chunkId env port hid htype henv hfree
  have hnone : n.server.transfers.lookup port = none := by
    rw [h port, hfree]
    rfl
  refine ⟨hnone, ?_⟩
  rw [(n.server.handleReceivedRequest_getPort hid htype henv).2, if_pos hnone]

theorem Mirrors.handle_getPort (h : n.Mirrors) {chunkId : Key} {port : UInt16}
    (hid : request.receiver.id = n.server.nodeInfo.id) (htype : request.requestType = .getPort chunkId)
    (henv : env.listener = some port) (hfree : n.bound.lookup port = none) (socketOk : Bool) :
    (n.handle request env socketOk).server.transfers = n.server.transfers.insert port ⟨request.sender, chunkId⟩ ∧
    (n.handle request env socketOk).bound =
      if socketOk then n.bound.insert port ⟨request.sender, chunkId, none⟩ else n.bound := by
  obtain ⟨htable, -⟩ := n.server.handleReceivedRequest_getPort hid htype henv
  obtain ⟨-, hresponse⟩ := h.answersGetPort request chunkId env port hid htype henv hfree
  refine ⟨by rw [handle_server, htable], ?_⟩
  unfold handle
  dsimp only
  rw [hresponse, htype]
  dsimp only [Server.respond]
  cases socketOk with
  | true =>
      rw [sendResponse_ok (r := ⟨.portOk port, n.server.nodeInfo, request.sender, request.requestId⟩) trivial]
      rfl
  | false =>
      obtain ⟨e, he⟩ := sendResponse_fails (n.server.respond request (.portOk port))
      dsimp only [Server.respond] at he
      rw [he]
      rfl

theorem Mirrors.handle_iff (h : n.Mirrors) {socketOk : Bool}
    (hfree : ∀ port, env.listener = some port → n.bound.lookup port = none) :
    (n.handle request env socketOk).Mirrors ↔ (TransferEvent.request request env socketOk).Clean n := by
  by_cases hport : ∃ chunkId port, request.receiver.id = n.server.nodeInfo.id ∧
      request.requestType = .getPort chunkId ∧ env.listener = some port
  · obtain ⟨chunkId, port, hid, htype, henv⟩ := hport
    obtain ⟨htable, hbound⟩ := h.handle_getPort hid htype henv (hfree port henv) socketOk
    cases socketOk with
    | true =>
        refine iff_of_true (fun q => ?_) fun _ _ _ _ _ => rfl
        rw [htable, hbound, if_pos rfl]
        by_cases hq : q = port
        · rw [hq, AList.lookup_insert, AList.lookup_insert]
          rfl
        · rw [AList.lookup_insert_ne hq, AList.lookup_insert_ne hq]
          exact h q
    | false =>
        refine iff_of_false (fun hm => ?_) fun hc => nomatch hc chunkId port hid htype henv
        -- the entry is made, but nobody listens on the port
        have hentry := hm port
        rw [htable, hbound, AList.lookup_insert, if_neg Bool.false_ne_true, hfree port henv] at hentry
        cases hentry
  · obtain ⟨htable, hbound⟩ := n.handle_quiet request env socketOk
      fun chunkId port hid htype henv => hport ⟨chunkId, port, hid, htype, henv⟩
    refine iff_of_true (fun q => ?_) fun chunkId port hid htype henv => absurd ⟨chunkId, port, hid, htype, henv⟩ hport
    rw [htable, hbound]
    exact h q

theorem Mirrors.handleTcpUpload_iff (h : n.Mirrors) {port : UInt16} {io : StoreIo} {now : Nat} {t : OpenTransfer}
    {data : Bytes} (hbound : n.bound.lookup port = some t) (hdata : t.received = some data) :
    (n.handleTcpUpload data port io now).Mirrors ↔ (TransferEvent.stored port io now).Clean n := by
  have hentry : n.storage.dataTransfersTable.lookup port = some t.entry := by
    refine (h port).trans ?_
    rw [hbound]
    rfl
  have hclean : (TransferEvent.stored port io now).Clean n ↔ n.storage.Admits data t.chunkHash ∧ io ≠ .createFails := by
    constructor
    · intro hc
      exact hc t data hbound hdata
    · rintro hc t' data' hbound' hdata'
      rw [hbound, Option.some.injEq] at hbound'
      subst hbound'
      rw [hdata, Option.some.injEq] at hdata'
      exact hdata' ▸ hc
  -- whatever the store does, the other ports keep their entries and listeners
  have hothers : ∀ m' : ShardStorageManager, m'.dataTransfersTable = n.storage.dataTransfersTable.erase port →
      (⟨{ n.server with shardStorageManager := m' }, n.bound.erase port⟩ : TransferNode).Mirrors := by
    intro m' hm' q
    change m'.dataTransfersTable.lookup q = ((n.bound.erase port).lookup q).map OpenTransfer.entry
    rw [hm']
    by_cases hq : q = port
    · rw [hq, AList.lookup_erase, AList.lookup_erase]
      rfl
    · rw [AList.lookup_erase_ne hq, AList.lookup_erase_ne hq]
      exact h q
  rw [hclean, handleTcpUpload]
  rcases n.storage.storeChunkForKnownPeer_cases data port io now with
    ⟨⟨e, he⟩, hno⟩ | ⟨t', ht', hadmits, hcreate, ⟨file, -, hok⟩ | ⟨-, hfail⟩⟩
  · rw [he]
    refine iff_of_false (fun hm => ?_) fun hc => hc.2 (hno t.entry hentry hc.1)
    have hleft : n.storage.dataTransfersTable.lookup port =
      ((n.bound.erase port).lookup port).map OpenTransfer.entry := hm port
    rw [hentry, AList.lookup_erase] at hleft
    cases hleft
  · rw [hentry, Option.some.injEq] at ht'
    subst ht'
    rw [hok]
    exact iff_of_true (hothers _ rfl) ⟨hadmits, hcreate⟩
  · rw [hentry, Option.some.injEq] at ht'
    subst ht'
    rw [hfail]
    exact iff_of_true (hothers _ rfl) ⟨hadmits, hcreate⟩

theorem Mirrors.continueWrite (h : n.Mirrors) (chunkHash : Key) (count : Nat) :
    (n.continueWrite chunkHash count).Mirrors := by
  intro port
  have htable := n.storage.dataTransfersTable_continueWrite chunkHash count
  exact (congrArg (AList.lookup port) htable).trans (h port)

/-- A step keeps the table and the listeners together exactly if its event is clean. -/
theorem Mirrors.step_iff {n' : TransferNode} {e : TransferEvent} (h : n.Mirrors) (hstep : TransferStep n e n') :
    n'.Mirrors ↔ e.Clean n := by
  cases hstep with
  | request hfree => exact h.handle_iff hfree
  | @received port data t hbound hreceived =>
      refine iff_of_true (fun q => ?_) trivial
      change n.server.transfers.lookup q = _
      by_cases hq : q = port
      · rw [hq, AList.lookup_insert, h port, hbound]
        rfl
      · rw [AList.lookup_insert_ne hq]
        exact h q
  | @receiveFails port t hbound hreceived =>
      refine iff_of_false (fun hm => ?_) id
      have hleft : n.server.transfers.lookup port = ((n.bound.erase port).lookup port).map OpenTransfer.entry :=
        hm port
      rw [h port, hbound, AList.lookup_erase] at hleft
      cases hleft
  | stored hbound hdata => exact h.handleTcpUpload_iff hbound hdata
  | written chunkHash count => exact iff_of_true (h.continueWrite chunkHash count) trivial

end TransferNode

/-- In a run that starts with an empty table and no listener, the table mirrors the open
transfers and every `GET_PORT` would be answered in all states, exactly if every event of the
run is clean. -/
theorem transferTable_mirrors_iff {n₀ n : TransferNode} {hist : List (TransferNode × TransferEvent)}
    (htable : n₀.server.transfers = ∅) (hbound : n₀.bound = ∅) (hrun : Trace TransferStep n₀ hist n) :
    Throughout (fun s => s.Mirrors ∧ s.AnswersGetPort) hist n ↔ ∀ p ∈ hist, p.2.Clean p.1 := by
  have hstart : n₀.Mirrors := by
    intro port
    rw [htable, hbound]
    rfl
  rw [← hrun.throughout_iff (fun s e t hs hstep => hs.step_iff hstep) hstart]
  unfold Throughout
  constructor
  · rintro ⟨hall, hlast⟩
    exact ⟨fun p hp => (hall p hp).1, hlast.1⟩
  · rintro ⟨hall, hlast⟩
    exact ⟨fun p hp => ⟨hall p hp, (hall p hp).answersGetPort⟩, hlast, hlast.answersGetPort⟩

def TransferNode.started (n : NodeInfo) : TransferNode := ⟨.started n, ∅⟩

/-- The operating system gives a new listener port 5000. -/
def portEnv : HandlerEnv := ⟨fun _ => .error .responseTimeout, 0, some 5000⟩

def getPortRequest : Request :=
  ⟨.getPort (Key.ofTopByte 9 0), .local 1 4001, .local 2 4002, zeroRequestId⟩

theorem TransferNode.started_mirrors (n : NodeInfo) : (TransferNode.started n).Mirrors := fun _ => rfl

theorem transferTable_mirrors_opened :
    ∃ hist n, Trace TransferStep (.started (.local 2 4002)) hist n ∧ hist ≠ [] ∧
      Throughout (fun s => s.Mirrors ∧ s.AnswersGetPort) hist n := by
  have hstep : TransferStep (.started (.local 2 4002)) (.request getPortRequest portEnv true) _ :=
    .request fun _ _ => rfl
  have hrun : Trace TransferStep (.started (.local 2 4002)) _ _ := .next .start hstep
  refine ⟨_, _, hrun, List.cons_ne_nil _ _, (transferTable_mirrors_iff rfl rfl hrun).mpr ?_⟩
  intro p hp
  rw [List.nil_append, List.mem_singleton] at hp
  rw [hp]
  exact fun _ _ _ _ _ => rfl

/-- Nobody connects to the port of an accepted `GET_PORT`. Its entry stays, and when the port
is handed out again a `GET_PORT` is not answered. -/
theorem transferTable_keeps_entry :
    ∃ hist n, Trace TransferStep (.started (.local 2 4002)) hist n ∧ ¬ n.Mirrors ∧ ¬ n.AnswersGetPort := by
  have hstep : TransferStep (.started (.local 2 4002)) (.request getPortRequest portEnv true) _ :=
    .request fun _ _ => rfl
  obtain ⟨htable, hbound⟩ := (TransferNode.started_mirrors (.local 2 4002)).handle_getPort
    (rfl : getPortRequest.receiver.id = _) (rfl : getPortRequest.requestType = _) (rfl : portEnv.listener = _) rfl true
  have hnode := (TransferNode.started (.local 2 4002)).handle_nodeInfo getPortRequest portEnv true
  generalize (TransferNode.started (.local 2 4002)).handle getPortRequest portEnv true = n at hstep htable hbound hnode
  have hlisten : n.bound.lookup 5000 = some ⟨.local 1 4001, Key.ofTopByte 9 0, none⟩ := by
    rw [hbound]
    exact AList.lookup_insert _
  have hrun : Trace TransferStep (.started (.local 2 4002)) _ { n with bound := n.bound.erase 5000 } :=
    .next (.next .start hstep) (.receiveFails hlisten rfl)
  have hentry : n.server.transfers.lookup 5000 = some ⟨.local 1 4001, Key.ofTopByte 9 0⟩ := by
    rw [htable]
    exact AList.lookup_insert _
  refine ⟨_, _, hrun, fun hm => ?_, fun ha => ?_⟩
  · have hleft : n.server.transfers.lookup 5000 = ((n.bound.erase 5000).lookup 5000).map OpenTransfer.entry := hm 5000
    rw [hentry, AList.lookup_erase] at hleft
    cases hleft
  · have hid : getPortRequest.receiver.id = n.server.nodeInfo.id := by
      rw [hnode]
      rfl
    have hold := (ha getPortRequest (Key.ofTopByte 9 0) portEnv 5000 hid rfl rfl (AList.lookup_erase _ _)).1
    exact nomatch hold.symm.trans hentry

end P2PFilesystem
