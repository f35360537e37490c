import P2PFilesystem.UploadSoundness

/-!
# Downloading what was uploaded

`Node::download_file`: the storers of all chunks are looked up, then the chunks are fetched
and decrypted one after the other. Chunks are named by their plaintext and encrypted under
the key of an upload and a nonce of their own, so a storer may hold another text under the
name than the one that was uploaded.
-/
namespace P2PFilesystem

inductive DownloadError where
  | noStorer
  | local (e : ShardStorageError)
  | noData
  | sharding (e : ShardingError)
  | panic
  deriving DecidableEq

/-- What a `GET_VALUE` carries and meets: its id, the port of the reader's listener, the state of
the world around the storer, and whether a storer that is sent the request handles it to the end and
gets through when it connects to an address. A storer without room for the reader in its table waits
for itself; the listener is bound to 127.0.0.1. -/
structure Fetch where
  requestId : RequestId
  port : UInt16
  env : HandlerEnv
  connects : NodeInfo → SocketAddr → Bool

/-- The storer gets through to the reader at the address that the reader has in its requests. -/
def Fetch.Reaches (self : Fetch) (me storer : NodeInfo) : Prop :=
  self.connects storer (me.address.atPort self.port) = true

instance (self : Fetch) (me storer : NodeInfo) : Decidable (self.Reaches me storer) :=
  inferInstanceAs (Decidable (_ = true))

section Download
variable (A : Aead) (build : Build) (peers : Nat → NodeInfo → Peer) (me : NodeInfo) (fetch : Nat → Fetch)

/-- The lookups of a batch overlap, but their results are taken in order. -/
def findStorersParallel (findStorer : Nat → Key → Except DownloadError NodeInfo) :
    List (Key × Nat) → Except DownloadError (List (Key × NodeInfo))
  | [] => .ok []
  | (key, i) :: rest => match findStorer i key with
      | .error e => .error e
      | .ok storer => match findStorersParallel findStorer rest with
          | .error e => .error e
          | .ok pairs => .ok ((key, storer) :: pairs)

/-- A storer that cannot read the chunk, or not connect to the reader, sends nothing, and the wait
for it ends in an error. -/
def downloadChunkFromStorer (peers : NodeInfo → Peer) (f : Fetch) (chunkId : Key) (chunkStorer : NodeInfo) :
    Except DownloadError Bytes :=
  if chunkStorer.id = me.id then match (peers me).storage.readChunk chunkId with
    | .ok data => .ok data
    | .error e => .error (.local e)
  else
    let request : Request := ⟨.getValue chunkId f.port, me, chunkStorer, f.requestId⟩
    match ((peers chunkStorer).server.handleReceivedRequest request f.env).sentData with
    | some (address, data) => if f.connects chunkStorer address then .ok data else .error .noData
    | none => .error .noData

/-- The loop of `download_file`. What the nodes are like when the chunk with this number is fetched
is `peers i`. -/
def storeChunks : List ((Key × NodeInfo) × Nat) → FileDownloader → Except DownloadError Unit × FileDownloader
  | [], down => (.ok (), down)
  | ((chunkId, chunkStorer), i) :: rest, down =>
      match downloadChunkFromStorer me (peers i) (fetch i) chunkId chunkStorer with
      | .error e => (.error e, down)
      | .ok data => match down.storeNextChunkDecrypt A build ⟨data, chunkId⟩ with
          | (.ok (), down) => storeChunks rest down
          | (.err e, down) => (.error (.sharding e), down)
          | (.panic, down) => (.error .panic, down)

/-- `download_file`, with the bytes of the output file when it returns. What is still in the
buffer then is lost. -/
def downloadFile (findStorer : Nat → Key → Except DownloadError NodeInfo) (md : FileMetadata) :
    Except DownloadError Bytes :=
  match findStorersParallel findStorer (md.chunksMetadata.map ChunkMetadata.hash).zipIdx with
  | .error e => .error e
  | .ok resolvedPairs => match storeChunks A build peers me fetch resolvedPairs.zipIdx (FileDownloader.new md) with
      | (.error e, _) => .error e
      | (.ok (), down) => .ok down.fileWriter.file

end Download

theorem findStorersParallel_ok (storers : Nat → NodeInfo) (keys : List (Key × Nat)) :
    findStorersParallel (fun i _ => .ok (storers i)) keys = .ok (keys.map fun k => (k.1, storers k.2)) := by
  induction keys with
  | nil => rfl
  | cons k rest ih => simp only [findStorersParallel, ih, List.map_cons]

section Loop
variable {A : Aead} {build : Build} {peers : Nat → NodeInfo → Peer} {me : NodeInfo} {fetch : Nat → Fetch}

/-- Another node that has the file sends it, and it arrives if the connection does. -/
theorem downloadChunkFromStorer_of_read {peers : NodeInfo → Peer} {n : NodeInfo} {hash : Key} {text : Bytes}
    (hnode : (peers n).server.nodeInfo = n) (hid : n.id ≠ me.id)
    (h : (peers n).storage.readChunk hash = .ok text) (f : Fetch) :
    downloadChunkFromStorer me peers f hash n =
      if f.Reaches me n then .ok text else .error .noData := by
  have hread : ((peers n).server.recordPossibleNeighbour me f.env.ping).shardStorageManager.readChunk hash =
      .ok text := by
    have hstorage : ((peers n).server.recordPossibleNeighbour me f.env.ping).shardStorageManager = (peers n).storage := rfl
    rw [hstorage, h]
  unfold downloadChunkFromStorer Server.handleReceivedRequest
  rw [if_neg hid, hnode]
  dsimp only
  rw [if_neg (not_not.mpr rfl), Server.handleGetValue, hread]
  rfl

/-- Where the storers deliver these chunks and the downloader takes them, the loop is the
downloader fed with them. -/
theorem storeChunks_eq_storeAll {pairs : List ((Key × NodeInfo) × Nat)} {chunks : List Chunk}
    (h : List.Forall₂ (fun p c => p.1.1 = c.hash ∧
      downloadChunkFromStorer me (peers p.2) (fetch p.2) p.1.1 p.1.2 = .ok c.data) pairs chunks) :
    ∀ down : FileDownloader, (down.storeAll A build chunks).1 = chunks.map (fun _ => .ok ()) →
      storeChunks A build peers me fetch pairs down = (.ok (), (down.storeAll A build chunks).2) := by
  induction h with
  | nil => exact fun _ _ => rfl
  | @cons p c pairs chunks hp _ ih =>
      intro down hall
      obtain ⟨⟨hash, storer⟩, i⟩ := p
      obtain ⟨rfl, hdata⟩ := hp
      have hcons : down.storeAll A build (c :: chunks) = ((down.storeNextChunkDecrypt A build c).1 ::
          ((down.storeNextChunkDecrypt A build c).2.storeAll A build chunks).1,
        ((down.storeNextChunkDecrypt A build c).2.storeAll A build chunks).2) := rfl
      rw [hcons, List.map_cons, List.cons.injEq] at hall
      have hstore : down.storeNextChunkDecrypt A build ⟨c.data, c.hash⟩ =
          (.ok (), (down.storeNextChunkDecrypt A build c).2) := Prod.ext hall.1 rfl
      rw [storeChunks, hdata]
      dsimp only
      rw [hstore]
      exact ih _ hall.2

theorem decrypt_of_decryptPayload {text key nonce payload : Bytes}
    (h : decryptPayload A text key nonce = .ok payload) : A.decrypt key nonce text = some payload := by
  unfold decryptPayload at h
  split_ifs at h
  split at h
  next hdec =>
    cases h
    exact hdec
  · cases h

theorem FileDownloader.storeNextChunkDecrypt_ok {chunk : Chunk} {down down' : FileDownloader}
    (h : down.storeNextChunkDecrypt A build chunk = (.ok (), down')) :
    down'.fileMetadata = down.fileMetadata ∧ down'.chunkIndex = down.chunkIndex + 1 ∧
    ∃ entry, down.fileMetadata.chunksMetadata[down.chunkIndex]? = some entry ∧
      (A.decrypt down.fileMetadata.encryptionKey entry.nonce chunk.data).isSome := by
  unfold storeNextChunkDecrypt at h
  split_ifs at h
  · cases h
  · split at h
    · cases h
    next entry hentry =>
      split at h
      · cases h
      · cases h
      next payload hpayload =>
        have hdec := decrypt_of_decryptPayload hpayload
        by_cases hassert : build = .debug ∧ payload.length ≠ paddedSize + u32SizeB
        · rw [if_pos hassert] at h
          cases h
        · rw [if_neg hassert] at h
          split at h
          · cases h
          · dsimp only at h
            by_cases hhash : chunk.hash ≠ entry.hash
            · rw [if_pos hhash] at h
              cases h
            · rw [if_neg hhash] at h
              cases h
              exact ⟨rfl, rfl, entry, hentry, by rw [hdec]; rfl⟩

/-- Every storer of a download that ends well has sent something that opens. -/
theorem decrypts_of_storeChunks {pairs : List ((Key × NodeInfo) × Nat)} {down down' : FileDownloader}
    (h : storeChunks A build peers me fetch pairs down = (.ok (), down')) :
    ∀ k p entry, pairs[k]? = some p →
      down.fileMetadata.chunksMetadata[down.chunkIndex + k]? = some entry →
      ∃ data, downloadChunkFromStorer me (peers p.2) (fetch p.2) p.1.1 p.1.2 = .ok data ∧
        (A.decrypt down.fileMetadata.encryptionKey entry.nonce data).isSome := by
  induction pairs generalizing down with
  | nil => exact nofun
  | cons p rest ih =>
      obtain ⟨⟨hash, storer⟩, i⟩ := p
      unfold storeChunks at h
      split at h
      · cases h
      next data hdata =>
        split at h
        next next hstore =>
          obtain ⟨hmd, hindex, entry, hentry, hdec⟩ := FileDownloader.storeNextChunkDecrypt_ok hstore
          intro k p entry' hp hentry'
          cases k with
          | zero =>
              cases hp
              rw [Nat.add_zero, hentry] at hentry'
              cases hentry'
              exact ⟨data, hdata, hdec⟩
          | succ k =>
              rw [← hmd]
              refine ih h k p entry' hp ?_
              rw [hmd, hindex, ← hentry', Nat.add_assoc, Nat.add_comm 1 k]
        · cases h
        · cases h

end Loop
end P2PFilesystem
