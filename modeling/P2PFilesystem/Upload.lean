import P2PFilesystem.RequestHandler
import Mathlib.Logic.Relation
import Mathlib.Logic.Function.Basic

/-!
# Uploading a file among other uploads

`Node::upload_file` with the requests and transfers it makes, interleaved with whatever
other nodes do: one step is one request handled, one transfer received, one chunk stored or
one move of the upload. A transfer that was received is stored later, by a task of the
receiving node that tells nobody how it ended.
-/
namespace P2PFilesystem

/-- A TCP listener that waits for a chunk or holds the bytes it received until they are
stored. `chunk` is the number of the chunk of the upload that it was opened for, if any. -/
structure Listener where
  chunk : Option Nat
  received : Option Bytes
  deriving DecidableEq

structure Peer where
  server : Server
  listeners : AList fun _ : UInt16 => Listener

namespace Peer

def storage (self : Peer) : ShardStorageManager := self.server.shardStorageManager

/-- The handler runs; a `PORT_OK` comes with a listener. -/
def handle (self : Peer) (request : Request) (env : HandlerEnv) (chunk : Option Nat) :
    Option Response × Peer :=
  let reaction := self.server.handleReceivedRequest request env
  match reaction.response with
  | some response => match response.responseType with
      | .portOk port => (some response, ⟨reaction.server, self.listeners.insert port ⟨chunk, none⟩⟩)
      | _ => (some response, ⟨reaction.server, self.listeners⟩)
  | none => (none, ⟨reaction.server, self.listeners⟩)

/-- The operating system gives a listener a port that is not in use. -/
def Free (self : Peer) (env : HandlerEnv) : Prop :=
  ∀ port, env.listener = some port → self.listeners.lookup port = none

def receive (self : Peer) (port : UInt16) (chunk : Option Nat) (data : Bytes) : Peer :=
  { self with listeners := self.listeners.insert port ⟨chunk, some data⟩ }

def close (self : Peer) (port : UInt16) : Peer := { self with listeners := self.listeners.erase port }

/-- `handle_tcp_upload`: the received bytes are stored and the listener goes. -/
def save (self : Peer) (port : UInt16) (data : Bytes) (io : StoreIo) (now : Nat) :
    Except ShardStorageError Unit × Peer :=
  let (result, storage) := self.storage.storeChunkForKnownPeer data port io now
  (result, ⟨{ self.server with shardStorageManager := storage }, self.listeners.erase port⟩)

/-- The background task of a chunk file gets on. -/
def continueWrite (self : Peer) (hash : Key) (count : Nat) : Peer :=
  { self with server := { self.server with shardStorageManager := self.storage.continueWrite hash count } }

end Peer

inductive UploadError where
  | sharding (e : ShardingError)
  | panic
  | lookup
  | bail (message : Text)
  deriving DecidableEq

inductive UploadPhase where
  | reading
  | asking (chunk : Chunk) (pending : List NodeInfo) (ready : List Response)
  | porting (chunk : Chunk) (pending : List Response) (ports : List (NodeInfo × UInt16))
  | sending (chunk : Chunk) (pending : List (NodeInfo × UInt16)) (sent : Bool)
  | done (result : Except UploadError FileMetadata)

/-- The upload, with the chunks it has produced so far. -/
structure Upload where
  uploader : FileUploader
  phase : UploadPhase
  chunks : List Chunk

/-- A finished call of `store_chunk_for_known_peer`, with the store before it. -/
structure StoreCall where
  node : NodeInfo
  chunk : Option Nat
  before : ShardStorageManager
  data : Bytes
  port : UInt16
  io : StoreIo
  now : Nat

def StoreCall.hash (c : StoreCall) : Option Key :=
  (c.before.dataTransfersTable.lookup c.port).map DataTransfer.chunkHash

def StoreCall.result (c : StoreCall) : Except ShardStorageError Unit :=
  (c.before.storeChunkForKnownPeer c.data c.port c.io c.now).1

/-- What the file holds in the end if one was created. -/
def StoreCall.text (c : StoreCall) : Bytes := ((c.io.writeAll c.data).map ChunkFile.content).getD []

structure World where
  peers : NodeInfo → Peer
  upload : Upload
  stores : List StoreCall

namespace World

def current (w : World) : Nat := w.upload.chunks.length - 1

def setPeer (w : World) (n : NodeInfo) (p : Peer) : World :=
  { w with peers := Function.update w.peers n p }

def setPhase (w : World) (phase : UploadPhase) : World := { w with upload := { w.upload with phase } }

end World

/-- `send_initial_store_request`: only a `STORE_OK` that is heard in time counts. -/
def storeReply (heard : Bool) (reply : Option Response) : List Response :=
  (reply.filter fun r => heard && r.responseType == .storeOk).toList

/-- `send_get_port_request`: only a `PORT_OK` that is heard in time counts. -/
def portReply (heard : Bool) (reply : Option Response) : List (NodeInfo × UInt16) :=
  match reply with
  | some r => match r.responseType with
      | .portOk port => if heard then [(r.sender, port)] else []
      | _ => []
  | none => []

namespace World

def handleStore (w : World) (me : NodeInfo) (chunk : Chunk) (n : NodeInfo) (requestId : RequestId)
    (env : HandlerEnv) : Option Response × Peer :=
  (w.peers n).handle ⟨.store chunk.hash, me, n, requestId⟩ env none

def handleGetPort (w : World) (me : NodeInfo) (chunk : Chunk) (n : NodeInfo) (requestId : RequestId)
    (env : HandlerEnv) : Option Response × Peer :=
  (w.peers n).handle ⟨.getPort chunk.hash, me, n, requestId⟩ env (some w.current)

end World

section Steps
variable (A : Aead) (sha1 : Bytes → Key) (me : NodeInfo)

/-- The moves of `upload_file`. A reply that comes too late is as good as none. -/
inductive UploadStep : World → World → Prop
  | cut {w : World} {draw : Draw} {chunk : Chunk} {uploader : FileUploader} (found : List NodeInfo) :
      w.upload.phase = .reading →
      w.upload.uploader.getNextChunkEncrypt A sha1 draw = (.ok (some chunk), uploader) →
      UploadStep w { w with upload := ⟨uploader, .asking chunk found [], w.upload.chunks ++ [chunk]⟩ }
  | cutFails {w : World} {draw : Draw} {e : ShardingError} {uploader : FileUploader} :
      w.upload.phase = .reading →
      w.upload.uploader.getNextChunkEncrypt A sha1 draw = (.err e, uploader) →
      UploadStep w { w with upload := ⟨uploader, .done (.error (.sharding e)), w.upload.chunks⟩ }
  | cutPanics {w : World} {draw : Draw} {uploader : FileUploader} :
      w.upload.phase = .reading →
      w.upload.uploader.getNextChunkEncrypt A sha1 draw = (.panic, uploader) →
      UploadStep w { w with upload := ⟨uploader, .done (.error .panic), w.upload.chunks⟩ }
  | lookupFails {w : World} {draw : Draw} {chunk : Chunk} {uploader : FileUploader} :
      w.upload.phase = .reading →
      w.upload.uploader.getNextChunkEncrypt A sha1 draw = (.ok (some chunk), uploader) →
      UploadStep w { w with upload := ⟨uploader, .done (.error .lookup), w.upload.chunks ++ [chunk]⟩ }
  | finish {w : World} {draw : Draw} {uploader : FileUploader} :
      w.upload.phase = .reading →
      w.upload.uploader.getNextChunkEncrypt A sha1 draw = (.ok none, uploader) →
      UploadStep w { w with upload :=
        ⟨uploader, .done (uploader.getMetadata.mapError .sharding), w.upload.chunks⟩ }
  | ask {w : World} {chunk : Chunk} {pending : List NodeInfo} {ready : List Response} {n : NodeInfo}
      (requestId : RequestId) (env : HandlerEnv) (heard : Bool) :
      w.upload.phase = .asking chunk pending ready → n ∈ pending →
      UploadStep w ((w.setPeer n (w.handleStore me chunk n requestId env).2).setPhase
        (.asking chunk (pending.erase n)
          (ready ++ storeReply heard (w.handleStore me chunk n requestId env).1)))
  | askLost {w : World} {chunk : Chunk} {pending : List NodeInfo} {ready : List Response} {n : NodeInfo} :
      w.upload.phase = .asking chunk pending ready → n ∈ pending →
      UploadStep w (w.setPhase (.asking chunk (pending.erase n) ready))
  | askedNobody {w : World} {chunk : Chunk} :
      w.upload.phase = .asking chunk [] [] →
      UploadStep w (w.setPhase (.done (.error (.bail "Unable to store file. No responsive nodes.".toList))))
  | choose {w : World} {chunk : Chunk} {ready responsive : List Response} :
      w.upload.phase = .asking chunk [] ready → ready ≠ [] → responsive.Perm ready →
      UploadStep w (w.setPhase
        (.porting chunk ((sortByDistance (·.sender.id) chunk.hash responsive).take alpha) []))
  | port {w : World} {chunk : Chunk} {pending : List Response} {ports : List (NodeInfo × UInt16)}
      {r : Response} (requestId : RequestId) (env : HandlerEnv) (heard : Bool) :
      w.upload.phase = .porting chunk pending ports → r ∈ pending → (w.peers r.sender).Free env →
      UploadStep w ((w.setPeer r.sender (w.handleGetPort me chunk r.sender requestId env).2).setPhase
        (.porting chunk (pending.erase r)
          (ports ++ portReply heard (w.handleGetPort me chunk r.sender requestId env).1)))
  | portLost {w : World} {chunk : Chunk} {pending : List Response} {ports : List (NodeInfo × UInt16)}
      {r : Response} :
      w.upload.phase = .porting chunk pending ports → r ∈ pending →
      UploadStep w (w.setPhase (.porting chunk (pending.erase r) ports))
  | noPorts {w : World} {chunk : Chunk} :
      w.upload.phase = .porting chunk [] [] →
      UploadStep w (w.setPhase (.done (.error (.bail
        "Unable to store file. No nodes are ready to accept TCP data transfer.".toList))))
  | connect {w : World} {chunk : Chunk} {ports : List (NodeInfo × UInt16)} :
      w.upload.phase = .porting chunk [] ports → ports ≠ [] →
      UploadStep w (w.setPhase (.sending chunk ports false))
  | send {w : World} {chunk : Chunk} {pending : List (NodeInfo × UInt16)} {sent : Bool} {n : NodeInfo}
      {port : UInt16} :
      w.upload.phase = .sending chunk pending sent → (n, port) ∈ pending →
      (w.peers n).listeners.lookup port = some ⟨some w.current, none⟩ →
      UploadStep w ((w.setPeer n ((w.peers n).receive port (some w.current) chunk.data)).setPhase
        (.sending chunk (pending.erase (n, port)) true))
  | sendFails {w : World} {chunk : Chunk} {pending : List (NodeInfo × UInt16)} {sent : Bool} {n : NodeInfo}
      {port : UInt16} :
      w.upload.phase = .sending chunk pending sent → (n, port) ∈ pending →
      UploadStep w (w.setPhase (.sending chunk (pending.erase (n, port)) sent))
  | sentNobody {w : World} {chunk : Chunk} :
      w.upload.phase = .sending chunk [] false →
      UploadStep w (w.setPhase (.done (.error (.bail "Chunk was not sent to any node!".toList))))
  | sent {w : World} {chunk : Chunk} :
      w.upload.phase = .sending chunk [] true → UploadStep w (w.setPhase .reading)

/-- What happens besides: requests of others, their transfers, listeners that give up, the
storing of what was received, for this upload and for others, and the writing of chunk files in
the background. -/
inductive PeerStep : World → World → Prop
  | request {w : World} (n : NodeInfo) (request : Request) (env : HandlerEnv) :
      (w.peers n).Free env →
      PeerStep w (w.setPeer n ((w.peers n).handle request env none).2)
  | transfer {w : World} (n : NodeInfo) (port : UInt16) (data : Bytes) :
      (w.peers n).listeners.lookup port = some ⟨none, none⟩ →
      PeerStep w (w.setPeer n ((w.peers n).receive port none data))
  | giveUp {w : World} (n : NodeInfo) (port : UInt16) (chunk : Option Nat) :
      (w.peers n).listeners.lookup port = some ⟨chunk, none⟩ →
      PeerStep w (w.setPeer n ((w.peers n).close port))
  | save {w : World} (n : NodeInfo) (port : UInt16) (chunk : Option Nat) (data : Bytes) (io : StoreIo)
      (now : Nat) :
      (w.peers n).listeners.lookup port = some ⟨chunk, some data⟩ →
      PeerStep w { w.setPeer n ((w.peers n).save port data io now).2 with
        stores := ⟨n, chunk, (w.peers n).storage, data, port, io, now⟩ :: w.stores }
  | write {w : World} (n : NodeInfo) (hash : Key) (count : Nat) :
      PeerStep w (w.setPeer n ((w.peers n).continueWrite hash count))

def Step (w w' : World) : Prop := UploadStep A sha1 me w w' ∨ PeerStep w w'

/-- Any interleaving of the upload with everything else. -/
def Runs : World → World → Prop := Relation.ReflTransGen (Step A sha1 me)

end Steps

/-- What a peer keeps while nothing is stored: what its files hold in the end, its entries, what
its listeners have received, and the transfers of its open listeners. -/
structure Peer.Evolves (p p' : Peer) : Prop where
  node_eq : p'.server.nodeInfo = p.server.nodeInfo
  content_eq : ∀ h, p'.storage.content h = p.storage.content h
  total_eq : p'.storage.totalStoredKb = p.storage.totalStoredKb
  owns_iff : ∀ h, p'.storage.owns h ↔ p.storage.owns h
  received_kept : ∀ port chunk data, p.listeners.lookup port = some ⟨chunk, some data⟩ →
    p'.listeners.lookup port = some ⟨chunk, some data⟩
  transfer_eq : ∀ port l, p.listeners.lookup port = some l →
    p'.storage.dataTransfersTable.lookup port = p.storage.dataTransfersTable.lookup port

namespace Peer

theorem Evolves.refl (p : Peer) : p.Evolves p :=
  ⟨rfl, fun _ => rfl, rfl, fun _ => Iff.rfl, fun _ _ _ h => h, fun _ _ _ => rfl⟩

theorem Evolves.of_keeps {p p' : Peer} (hk : p.server.Keeps p'.server)
    (hreceived : ∀ port chunk data, p.listeners.lookup port = some ⟨chunk, some data⟩ →
      p'.listeners.lookup port = some ⟨chunk, some data⟩)
    (htransfer : ∀ port l, p.listeners.lookup port = some l →
      p'.storage.dataTransfersTable.lookup port = p.storage.dataTransfersTable.lookup port) : p.Evolves p' :=
  ⟨hk.node_eq, hk.content_eq, hk.total_eq, hk.owns_iff, hreceived, htransfer⟩

theorem server_handle (p : Peer) (request : Request) (env : HandlerEnv) (chunk : Option Nat) :
    (p.handle request env chunk).2.server = (p.server.handleReceivedRequest request env).server := by
  simp only [handle]
  split
  · split <;> rfl
  · rfl

/-- A listener is opened only for a port that is in the response. -/
theorem listeners_handle (p : Peer) (request : Request) (env : HandlerEnv) (chunk : Option Nat) :
    (p.handle request env chunk).2.listeners = p.listeners ∨
      ∃ r port, (p.server.handleReceivedRequest request env).response = some r ∧ r.responseType = .portOk port ∧
        (p.handle request env chunk).2.listeners = p.listeners.insert port ⟨chunk, none⟩ := by
  simp only [handle]
  split
  next r hr =>
      split
      next port hport => exact .inr ⟨r, port, hr, hport, rfl⟩
      · exact .inl rfl
  · exact .inl rfl

theorem lookup_insert_cases {listeners : AList fun _ : UInt16 => Listener} {port q : UInt16} {opened l : Listener}
    (h : (listeners.insert port opened).lookup q = some l) : listeners.lookup q = some l ∨ q = port ∧ l = opened := by
  by_cases hq : q = port
  · rw [hq, AList.lookup_insert] at h
    exact .inr ⟨hq, (Option.some.inj h).symm⟩
  · rw [AList.lookup_insert_ne hq] at h
    exact .inl h

/-- Handling a request stores nothing; a listener it opens is for the chunk of the request. -/
theorem handle_spec (p : Peer) (request : Request) (env : HandlerEnv) (chunk : Option Nat)
    (hfree : ∀ hash, request.requestType = .getPort hash → p.Free env) :
    p.Evolves (p.handle request env chunk).2 ∧
    ∀ port l, (p.handle request env chunk).2.listeners.lookup port = some l →
      p.listeners.lookup port = some l ∨
      l = ⟨chunk, none⟩ ∧ ∃ hash, request.requestType = .getPort hash ∧
        (p.handle request env chunk).2.storage.dataTransfersTable.lookup port = some ⟨request.sender, hash⟩ := by
  have hserver := p.server_handle request env chunk
  have hlisteners := p.listeners_handle request env chunk
  rcases p.server.handleReceivedRequest_cases request env with hq | ⟨hk, hash, port, htype, henv, htable, hport⟩
  · have hsame : (p.handle request env chunk).2.listeners = p.listeners := by
      rcases hlisteners with h | ⟨r, port, hr, htype, -⟩
      · exact h
      · exact absurd htype (hq.no_port r port hr)
    refine ⟨.of_keeps (hserver ▸ hq.keeps) (fun _ _ _ h => hsame ▸ h) fun port l _ => ?_, fun port l h => .inl (hsame ▸ h)⟩
    rw [storage, hserver]
    exact congrArg (AList.lookup port) hq.transfers_eq
  · have hnone := hfree hash htype port henv
    have hopened : (p.handle request env chunk).2.listeners = p.listeners ∨
        (p.handle request env chunk).2.listeners = p.listeners.insert port ⟨chunk, none⟩ := by
      refine hlisteners.imp_right ?_
      rintro ⟨r, port', hr, htype', h⟩
      rw [hport r hr] at htype'
      cases htype'
      exact h
    have htransfer : ∀ q, (p.handle request env chunk).2.storage.dataTransfersTable.lookup q =
        (p.storage.dataTransfersTable.insert port ⟨request.sender, hash⟩).lookup q := by
      intro q
      rw [storage, hserver]
      exact congrArg (AList.lookup q) htable
    have hne : ∀ q l, p.listeners.lookup q = some l → q ≠ port := by
      rintro q l hl rfl
      rw [hnone] at hl
      cases hl
    refine ⟨.of_keeps (hserver ▸ hk) (fun q tag data hl => ?_) fun q l hl => ?_, fun q l hl => ?_⟩
    · rcases hopened with h | h
      · rw [h, hl]
      · rw [h, AList.lookup_insert_ne (hne q _ hl), hl]
    · rw [htransfer, AList.lookup_insert_ne (hne q l hl)]
    · rcases hopened with h | h
      · exact .inl (h ▸ hl)
      · rw [h] at hl
        refine (lookup_insert_cases hl).imp_right ?_
        rintro ⟨rfl, rfl⟩
        exact ⟨rfl, hash, htype, by rw [htransfer, AList.lookup_insert]⟩

theorem receive_spec {p : Peer} {port : UInt16} {chunk : Option Nat} (data : Bytes)
    (h : p.listeners.lookup port = some ⟨chunk, none⟩) :
    p.Evolves (p.receive port chunk data) ∧
    ∀ q l, (p.receive port chunk data).listeners.lookup q = some l →
      p.listeners.lookup q = some l ∨ q = port ∧ l = ⟨chunk, some data⟩ := by
  refine ⟨⟨rfl, fun _ => rfl, rfl, fun _ => Iff.rfl, fun q tag d hl => ?_, fun _ _ _ => rfl⟩,
    fun q l hl => lookup_insert_cases hl⟩
  rw [receive, AList.lookup_insert_ne, hl]
  rintro rfl
  rw [h] at hl
  cases hl

theorem close_spec {p : Peer} {port : UInt16} {chunk : Option Nat}
    (h : p.listeners.lookup port = some ⟨chunk, none⟩) :
    p.Evolves (p.close port) ∧
    ∀ q l, (p.close port).listeners.lookup q = some l → p.listeners.lookup q = some l := by
  refine ⟨⟨rfl, fun _ => rfl, rfl, fun _ => Iff.rfl, fun q tag d hl => ?_, fun _ _ _ => rfl⟩, fun q l hl => ?_⟩
  · rw [close, AList.lookup_erase_ne, hl]
    rintro rfl
    rw [h] at hl
    cases hl
  · by_cases hq : q = port
    · rw [close, hq, AList.lookup_erase] at hl
      cases hl
    · rwa [close, AList.lookup_erase_ne hq] at hl

theorem continueWrite_evolves (p : Peer) (hash : Key) (count : Nat) : p.Evolves (p.continueWrite hash count) where
  node_eq := rfl
  content_eq := p.storage.content_continueWrite hash count
  total_eq := p.storage.totalStoredKb_continueWrite hash count
  owns_iff := p.storage.owns_continueWrite hash count
  received_kept _ _ _ hl := hl
  transfer_eq port _ _ := congrArg (AList.lookup port) (p.storage.dataTransfersTable_continueWrite hash count)

end Peer

namespace World

@[simp] theorem setPeer_peers_self (w : World) (n : NodeInfo) (p : Peer) : (w.setPeer n p).peers n = p := by
  simp only [setPeer, Function.update_self]

theorem setPeer_peers_of_ne {n m : NodeInfo} (h : m ≠ n) (w : World) (p : Peer) :
    (w.setPeer n p).peers m = w.peers m := by
  simp only [setPeer, Function.update_of_ne h]

/-- What holds of a peer after its change and of the others before it holds of all. -/
theorem setPeer_forall {w : World} {n : NodeInfo} {p : Peer} {P : NodeInfo → Peer → Prop} (hn : P n p)
    (h : ∀ m, P m (w.peers m)) (m : NodeInfo) : P m ((w.setPeer n p).peers m) := by
  by_cases hm : m = n
  · subst hm
    rw [setPeer_peers_self]
    exact hn
  · rw [setPeer_peers_of_ne hm]
    exact h m

theorem setPeer_evolves {w : World} {n : NodeInfo} {p : Peer} (h : (w.peers n).Evolves p) (m : NodeInfo) :
    (w.peers m).Evolves ((w.setPeer n p).peers m) :=
  setPeer_forall (P := fun m p' => (w.peers m).Evolves p') h (fun _ => .refl _) m

end World

section Steps
variable {A : Aead} {sha1 : Bytes → Key} {me : NodeInfo} {w w' : World}

theorem UploadStep.evolves (h : UploadStep A sha1 me w w') :
    w'.stores = w.stores ∧ ∀ n, (w.peers n).Evolves (w'.peers n) := by
  cases h with
  | @ask chunk _ _ n requestId env heard _ _ =>
      exact ⟨rfl, World.setPeer_evolves ((w.peers n).handle_spec ⟨.store chunk.hash, me, n, requestId⟩ env none
        nofun).1⟩
  | port requestId env heard _ _ hfree =>
      exact ⟨rfl, World.setPeer_evolves (Peer.handle_spec _ _ env _ fun _ _ => hfree).1⟩
  | send _ _ hl => exact ⟨rfl, World.setPeer_evolves (Peer.receive_spec _ hl).1⟩
  | _ => exact ⟨rfl, fun _ => .refl _⟩

/-- A step stores nothing, or it is the storing of one transfer. -/
theorem Step.cases (h : Step A sha1 me w w') :
    w'.stores = w.stores ∧ (∀ n, (w.peers n).Evolves (w'.peers n)) ∨
    ∃ n port chunk data io now, (w.peers n).listeners.lookup port = some ⟨chunk, some data⟩ ∧
      w' = { w.setPeer n ((w.peers n).save port data io now).2 with
        stores := ⟨n, chunk, (w.peers n).storage, data, port, io, now⟩ :: w.stores } := by
  rcases h with h | h
  · exact .inl h.evolves
  · cases h with
    | request n request env hfree =>
        exact .inl ⟨rfl, World.setPeer_evolves ((w.peers n).handle_spec request env none fun _ _ => hfree).1⟩
    | transfer n port data hl => exact .inl ⟨rfl, World.setPeer_evolves (Peer.receive_spec data hl).1⟩
    | giveUp n port chunk hl => exact .inl ⟨rfl, World.setPeer_evolves (Peer.close_spec hl).1⟩
    | save n port chunk data io now hl => exact .inr ⟨n, port, chunk, data, io, now, hl, rfl⟩
    | write n hash count => exact .inl ⟨rfl, World.setPeer_evolves ((w.peers n).continueWrite_evolves hash count)⟩

theorem Runs.invariant {I : World → Prop} (hstep : ∀ u v, I u → Step A sha1 me u v → I v)
    (hrun : Runs A sha1 me w w') (h : I w) : I w' := by
  induction hrun with
  | refl => exact h
  | tail _ hlast ih => exact hstep _ _ ih hlast

end Steps
end P2PFilesystem
