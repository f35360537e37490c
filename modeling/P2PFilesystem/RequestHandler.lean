import P2PFilesystem.ClosestScan
import P2PFilesystem.ShardStorage

/-!
# Handling of requests

`core/request_handler.rs`. A handler returns the response it hands to the dispatcher, if
any, and the state of the node afterwards. A `PORT_OK` comes with a listener on that port,
a `GET_VALUE` with bytes to send to a port of the requester.
-/
namespace P2PFilesystem

structure Server where
  nodeInfo : NodeInfo
  routingTable : RoutingTable
  shardStorageManager : ShardStorageManager

/-- What handling a request may need from outside: the ping of a full bucket's head, the
clock, and the port of a new TCP listener. -/
structure HandlerEnv where
  ping : PingOutcome
  now : Nat
  listener : Option UInt16

structure Reaction where
  response : Option Response
  sentData : Option (SocketAddr × Bytes)
  server : Server

namespace Server

/-- A node that has just been started. -/
def started (n : NodeInfo) : Server := ⟨n, RoutingTable.new n.id 0, ShardStorageManager.new ∅⟩

def respond (self : Server) (request : Request) (type : ResponseType) : Response :=
  ⟨type, self.nodeInfo, request.sender, request.requestId⟩

def recordPossibleNeighbour (self : Server) (node : NodeInfo) (ping : PingOutcome) : Server :=
  { self with routingTable := (self.routingTable.storeNodeinfo node ping).2 }

def handlePingMessage (self : Server) (request : Request) : Reaction :=
  ⟨some (self.respond request .pong), none, self⟩

/-- `new_nodes(..).unwrap()` cannot fail on at most `K` contacts; without contacts there is
no reply. -/
def handleFindNodeMessage (self : Server) (request : Request) (target : Key) : Reaction :=
  match self.routingTable.getKClosest target with
  | .error _ => ⟨none, none, self⟩
  | .ok closestNodes => match ResponseType.newNodes closestNodes with
      | .error _ => ⟨none, none, self⟩
      | .ok type => ⟨some (self.respond request type), none, self⟩

def handleFindValueMessage (self : Server) (request : Request) (target : Key) : Reaction :=
  if self.shardStorageManager.isChunkAlreadyStored target then
    ⟨some (self.respond request (.hasValue target)), none, self⟩
  else self.handleFindNodeMessage request target

/-- Where a connection is to be opened, and what is to be written to it. -/
def handleGetValue (self : Server) (request : Request) (chunkId : Key) (port : UInt16) : Reaction :=
  match self.shardStorageManager.readChunk chunkId with
  | .ok data => ⟨none, some (request.sender.address.atPort port, data), self⟩
  | .error _ => ⟨none, none, self⟩

def handleStoreMessage (self : Server) (request : Request) (fileId : Key) (now : Nat) : Reaction :=
  if self.shardStorageManager.isChunkAlreadyStored fileId then
    let storage := (self.shardStorageManager.updateChunkUploadTime fileId now).2
    ⟨some (self.respond request .storeChunkUpdated), none, { self with shardStorageManager := storage }⟩
  else ⟨some (self.respond request .storeOk), none, self⟩

/-- A port that is still in the transfer table is refused, but its entry is replaced. -/
def handleGetPortMessage (self : Server) (request : Request) (fileId : Key) (listener : Option UInt16) :
    Reaction :=
  match listener with
  | none => ⟨none, none, self⟩
  | some port =>
      match self.shardStorageManager.addActiveTcpConnection port request.sender fileId with
      | (some _, storage) => ⟨none, none, { self with shardStorageManager := storage }⟩
      | (none, storage) =>
          ⟨some (self.respond request (.portOk port)), none, { self with shardStorageManager := storage }⟩

def handleReceivedRequest (self : Server) (request : Request) (env : HandlerEnv) : Reaction :=
  if request.receiver.id ≠ self.nodeInfo.id then ⟨none, none, self⟩
  else
    let self := self.recordPossibleNeighbour request.sender env.ping
    match request.requestType with
    | .ping => self.handlePingMessage request
    | .findNode nodeId => self.handleFindNodeMessage request nodeId
    | .store chunkId => self.handleStoreMessage request chunkId env.now
    | .getPort chunkId => self.handleGetPortMessage request chunkId env.listener
    | .findValue chunkId => self.handleFindValueMessage request chunkId
    | .getValue chunkId port => self.handleGetValue request chunkId port

/-- What no request changes: who the node is, its files and what it owns. -/
structure Keeps (s s' : Server) : Prop where
  node_eq : s'.nodeInfo = s.nodeInfo
  files_eq : s'.shardStorageManager.files = s.shardStorageManager.files
  total_eq : s'.shardStorageManager.totalStoredKb = s.shardStorageManager.totalStoredKb
  owns_iff : ∀ h, s'.shardStorageManager.owns h ↔ s.shardStorageManager.owns h

theorem Keeps.content_eq {s s' : Server} (h : s.Keeps s') (hash : Key) :
    s'.shardStorageManager.content hash = s.shardStorageManager.content hash := by
  rw [ShardStorageManager.content, h.files_eq, ShardStorageManager.content]

def transfers (self : Server) : DataTransfersTable := self.shardStorageManager.dataTransfersTable

structure Quiet (s : Server) (reaction : Reaction) : Prop where
  keeps : s.Keeps reaction.server
  transfers_eq : reaction.server.transfers = s.transfers
  no_port : ∀ r port, reaction.response = some r → r.responseType ≠ .portOk port

theorem no_port_of_none (r : Response) (port : UInt16) (h : none = some r) : r.responseType ≠ .portOk port :=
  absurd h.symm (Option.some_ne_none r)

theorem Quiet.of_server_eq {s : Server} {request : Request} {ping : PingOutcome} {reaction : Reaction}
    (hserver : reaction.server = s.recordPossibleNeighbour request.sender ping)
    (hport : ∀ r port, reaction.response = some r → r.responseType ≠ .portOk port) : s.Quiet reaction := by
  refine ⟨?_, by rw [hserver]; rfl, hport⟩
  rw [hserver]
  exact ⟨rfl, rfl, rfl, fun _ => Iff.rfl⟩

theorem handleFindNodeMessage_quiet (s : Server) (request : Request) (key : Key) :
    (s.handleFindNodeMessage request key).server = s ∧
    ∀ r port, (s.handleFindNodeMessage request key).response = some r → r.responseType ≠ .portOk port := by
  unfold handleFindNodeMessage
  cases s.routingTable.getKClosest key with
  | error => exact ⟨rfl, no_port_of_none⟩
  | ok nodes =>
      dsimp only
      cases hnew : ResponseType.newNodes nodes with
      | error => exact ⟨rfl, no_port_of_none⟩
      | ok type =>
          refine ⟨rfl, ?_⟩
          rintro r port ⟨⟩ htype
          unfold ResponseType.newNodes at hnew
          split_ifs at hnew
          cases hnew
          cases htype

theorem handleStoreMessage_quiet (s : Server) (request : Request) (ping : PingOutcome) (fileId : Key) (now : Nat) :
    s.Quiet ((s.recordPossibleNeighbour request.sender ping).handleStoreMessage request fileId now) := by
  unfold handleStoreMessage
  split_ifs
  · obtain ⟨hfiles, htransfers, htotal, howns⟩ := s.shardStorageManager.updateChunkUploadTime_spec fileId now
    refine ⟨⟨rfl, hfiles, htotal, howns⟩, htransfers, ?_⟩
    rintro r port ⟨⟩ ⟨⟩
  · refine .of_server_eq rfl ?_
    rintro r port ⟨⟩ ⟨⟩

/-- A request opens no transfer and is not answered with a port, or it is a `GET_PORT` and
the transfer of the port it may be answered with is for the chunk it names. -/
theorem handleReceivedRequest_cases (s : Server) (request : Request) (env : HandlerEnv) :
    s.Quiet (s.handleReceivedRequest request env) ∨
    s.Keeps (s.handleReceivedRequest request env).server ∧
    ∃ hash port, request.requestType = .getPort hash ∧ env.listener = some port ∧
      (s.handleReceivedRequest request env).server.transfers = s.transfers.insert port ⟨request.sender, hash⟩ ∧
      ∀ r, (s.handleReceivedRequest request env).response = some r → r.responseType = .portOk port := by
  unfold handleReceivedRequest
  split_ifs
  · exact .inl ⟨⟨rfl, rfl, rfl, fun _ => Iff.rfl⟩, rfl, no_port_of_none⟩
  · dsimp only
    cases request.requestType with
    | ping =>
        refine .inl (.of_server_eq rfl ?_)
        rintro r port ⟨⟩ ⟨⟩
    | findNode nodeId =>
        obtain ⟨hserver, hport⟩ := handleFindNodeMessage_quiet (s.recordPossibleNeighbour request.sender env.ping)
          request nodeId
        exact .inl (.of_server_eq hserver hport)
    | store chunkId => exact .inl (s.handleStoreMessage_quiet request env.ping chunkId env.now)
    | getPort chunkId =>
        dsimp only
        unfold handleGetPortMessage
        cases env.listener with
        | none => exact .inl (.of_server_eq rfl no_port_of_none)
        | some port =>
            right
            simp only [ShardStorageManager.addActiveTcpConnection, DataTransfersTable.add]
            cases (s.recordPossibleNeighbour request.sender
              env.ping).shardStorageManager.dataTransfersTable.lookup port with
            | some old => exact ⟨⟨rfl, rfl, rfl, fun _ => Iff.rfl⟩, chunkId, port, rfl, rfl, rfl,
                fun r hr => absurd hr.symm (Option.some_ne_none r)⟩
            | none =>
                refine ⟨⟨rfl, rfl, rfl, fun _ => Iff.rfl⟩, chunkId, port, rfl, rfl, rfl, ?_⟩
                rintro r ⟨⟩
                rfl
    | findValue chunkId =>
        dsimp only
        unfold handleFindValueMessage
        split_ifs
        · refine .inl (.of_server_eq rfl ?_)
          rintro r port ⟨⟩ ⟨⟩
        · obtain ⟨hserver, hport⟩ := handleFindNodeMessage_quiet (s.recordPossibleNeighbour request.sender env.ping)
            request chunkId
          exact .inl (.of_server_eq hserver hport)
    | getValue chunkId port =>
        dsimp only
        unfold handleGetValue
        cases (s.recordPossibleNeighbour request.sender env.ping).shardStorageManager.readChunk chunkId with
        | ok data => exact .inl (.of_server_eq rfl no_port_of_none)
        | error => exact .inl (.of_server_eq rfl no_port_of_none)

end Server

namespace RoutingTable

/-- What a successful search returns comes from the table, without repetition. -/
theorem Valid.getNClosest_subset {t : RoutingTable} (h : t.Valid) {key : Key} {n : Nat}
    {l : List NodeInfo} (hl : t.getNClosest key n = .ok l) : l.Nodup ∧ l ⊆ t.getAllNodeinfos := by
  unfold getNClosest at hl
  cases hidx : t.getBucketIndex key with
  | error e => rw [hidx] at hl; cases hl
  | ok i =>
      rw [hidx] at hl
      obtain ⟨p, hs, -, -⟩ := searchLoop_spec (n := n) (t.buckets.length + 1)
        (searched_start (h.length_buckets ▸ getBucketIndex_lt hidx)) (fun q hq => absurd hq (Nat.not_lt_zero q))
        (by simp only [searchMeasure, if_true]; have := getBucketIndex_lt hidx; rw [h.length_buckets]; omega)
      have hnd := (t.between_split (by have := t.matchedDown_le i p; omega :
        t.matchedDown i p ≤ i + 1 + p)).nodup_iff.mp (List.Nodup.of_map _ h.nodup_ids)
      dsimp only at hl
      split_ifs at hl
      rw [← Except.ok.inj hl, sortByDistance_eq]
      have hperm := KeySort.sortOn_perm (fun u : NodeInfo => u.id.dist key)
        (t.searchLoop n (t.buckets.length + 1) ⟨t.bucketNodes i, i + 1, i, true⟩).result
      refine ⟨(hperm.nodup_iff.mpr (hs.result_perm.nodup_iff.mpr (List.nodup_append.mp hnd).1)).sublist
        (List.take_sublist _ _), fun u hu => ?_⟩
      obtain ⟨j, -, -, hu⟩ := mem_between.mp (hs.result_perm.mem_iff.mp
        (hperm.mem_iff.mp (List.mem_of_mem_take hu)))
      exact mem_getAllNodeinfos_of_bucketNodes hu

end RoutingTable
end P2PFilesystem
