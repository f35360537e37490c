import P2PFilesystem.Download

/-!
# What is downloaded after an upload

Every file that a node holds was there when the upload began or was stored by a transfer,
of this upload or of another one. From this follows when any storer will do.
-/
namespace P2PFilesystem

/-- Everything stored at the node was there before or comes from a finished store. -/
structure Peer.Traced (n : NodeInfo) (stores : List StoreCall) (p₀ p : Peer) : Prop where
  node_eq : p.server.nodeInfo = p₀.server.nodeInfo
  content_kept : ∀ h d, p₀.storage.content h = some d → p.storage.content h = some d
  owns_kept : ∀ h, p₀.storage.owns h → p.storage.owns h
  content_from : ∀ h d, p.storage.content h = some d → p₀.storage.content h = some d ∨
    ∃ call ∈ stores, call.node = n ∧ call.hash = some h ∧
      (call.result = .ok () ∧ call.text = d ∨ call.io = .writeRefused)
  owns_from : ∀ h, p.storage.owns h → p₀.storage.owns h ∨
    ∃ call ∈ stores, call.node = n ∧ call.hash = some h ∧ call.result = .ok ()

theorem StoreCall.after (call : StoreCall) (h : Key) :
    (∀ d, (call.before.storeChunkForKnownPeer call.data call.port call.io call.now).2.content h = some d →
      call.before.content h = some d ∨
      call.hash = some h ∧ (call.result = .ok () ∧ call.text = d ∨ call.io = .writeRefused)) ∧
    ((call.before.storeChunkForKnownPeer call.data call.port call.io call.now).2.owns h →
      call.before.owns h ∨ call.hash = some h ∧ call.result = .ok ()) := by
  cases ht : call.before.dataTransfersTable.lookup call.port with
  | none =>
      rw [ShardStorageManager.storeChunkForKnownPeer_of_none ht]
      exact ⟨fun d hd => .inl hd, fun ho => .inl ho⟩
  | some transfer =>
      obtain ⟨hstores, -, -, howns⟩ :=
        ShardStorageManager.storeChunkForKnownPeer_spec ht call.data call.io call.now
      have hhash : call.hash = some transfer.chunkHash := by
        rw [StoreCall.hash, ht]
        rfl
      by_cases hh : h = transfer.chunkHash
      · subst hh
        refine ⟨fun d hd => ?_, fun ho => ?_⟩
        · obtain ⟨file, hfile, rfl⟩ := Option.map_eq_some_iff.mp hd
          rcases ShardStorageManager.storeChunkForKnownPeer_file_from ht hfile with
            hold | ⟨hok, hwritten⟩ | ⟨hcreated, hrefused, -⟩
          · exact .inl (Option.map_eq_some_iff.mpr ⟨file, hold, rfl⟩)
          · refine .inr ⟨hhash, .inl ⟨hok, ?_⟩⟩
            rw [StoreCall.text, hwritten]
            rfl
          · exact .inr ⟨hhash, .inr ((StoreIo.writeAll_eq_none.mp hrefused).resolve_left hcreated).1⟩
        · by_cases hok : call.result = .ok ()
          · exact .inr ⟨hhash, hok⟩
          · exact .inl ((howns hok).mp ho)
      · have hsame : (call.before.storeChunkForKnownPeer call.data call.port call.io call.now).2.content h =
            call.before.content h := congrArg (Option.map ChunkFile.content) (hstores.file_other h hh)
        exact ⟨fun d hd => .inl (hsame.symm.trans hd),
          fun ho => .inl ((hstores.owns_other h hh).mp ho)⟩

namespace Peer.Traced
variable {n : NodeInfo} {stores : List StoreCall} {p₀ p p' : Peer}

theorem refl (n : NodeInfo) (stores : List StoreCall) (p : Peer) : Traced n stores p p :=
  ⟨rfl, fun _ _ h => h, fun _ h => h, fun _ _ h => .inl h, fun _ h => .inl h⟩

theorem cons (h : Traced n stores p₀ p) (call : StoreCall) : Traced n (call :: stores) p₀ p := by
  refine ⟨h.node_eq, h.content_kept, h.owns_kept, fun k d hk => (h.content_from k d hk).imp_right ?_,
    fun k hk => (h.owns_from k hk).imp_right ?_⟩
  · rintro ⟨c, hc, hrest⟩
    exact ⟨c, List.mem_cons_of_mem _ hc, hrest⟩
  · rintro ⟨c, hc, hrest⟩
    exact ⟨c, List.mem_cons_of_mem _ hc, hrest⟩

theorem evolves (h : Traced n stores p₀ p) (he : p.Evolves p') : Traced n stores p₀ p' := by
  refine ⟨he.node_eq.trans h.node_eq, ?_, fun k hk => (he.owns_iff k).mpr (h.owns_kept k hk), ?_,
    fun k hk => h.owns_from k ((he.owns_iff k).mp hk)⟩
  · intro k d hk
    rw [he.content_eq]
    exact h.content_kept k d hk
  · intro k d hk
    rw [he.content_eq] at hk
    exact h.content_from k d hk

theorem save (h : Traced n stores p₀ p) (chunk : Option Nat) (port : UInt16) (data : Bytes) (io : StoreIo)
    (now : Nat) :
    Traced n (⟨n, chunk, p.storage, data, port, io, now⟩ :: stores) p₀ (p.save port data io now).2 := by
  have hgrows := p.storage.storeChunkForKnownPeer_grows data port io now
  let call : StoreCall := ⟨n, chunk, p.storage, data, port, io, now⟩
  have hold := h.cons call
  refine ⟨h.node_eq, fun k d hk => hgrows.content_kept (h.content_kept k d hk),
    fun k hk => hgrows.owns_kept k (h.owns_kept k hk), fun k d hk => ?_, fun k hk => ?_⟩
  · rcases (call.after k).1 d hk with hk | hnew
    · exact hold.content_from k d hk
    · exact .inr ⟨call, List.mem_cons_self, rfl, hnew⟩
  · rcases (call.after k).2 hk with hk | hnew
    · exact hold.owns_from k hk
    · exact .inr ⟨call, List.mem_cons_self, rfl, hnew⟩

end Peer.Traced

section Steps
variable {A : Aead} {sha1 : Bytes → Key} {me : NodeInfo} {w₀ w w' : World}

theorem Step.traced (h : ∀ n, Peer.Traced n w.stores (w₀.peers n) (w.peers n)) (hstep : Step A sha1 me w w') :
    ∀ n, Peer.Traced n w'.stores (w₀.peers n) (w'.peers n) := by
  rcases hstep.cases with ⟨hstores, he⟩ | ⟨n, port, chunk, data, io, now, -, rfl⟩
  · intro n
    rw [hstores]
    exact (h n).evolves (he n)
  · exact World.setPeer_forall
      (P := fun m p => Peer.Traced m (⟨n, chunk, (w.peers n).storage, data, port, io, now⟩ :: w.stores) (w₀.peers m) p)
      ((h n).save chunk port data io now) fun m => (h m).cons _

theorem Runs.traced (hrun : Runs A sha1 me w₀ w) : ∀ n, Peer.Traced n w.stores (w₀.peers n) (w.peers n) :=
  hrun.invariant (I := fun w => ∀ n, Peer.Traced n w.stores (w₀.peers n) (w.peers n))
    (fun _ _ htraced hstep => hstep.traced htraced) fun n => .refl n _ _

end Steps

/-- Among the keys and nonces in use, a text made with one pair fails with every other. -/
def Aead.Separates (A : Aead) (uses : Set (Bytes × Bytes)) : Prop :=
  ∀ u ∈ uses, ∀ v ∈ uses, u ≠ v → ∀ payload text, A.encrypt u.1 u.2 payload = some text →
    A.decrypt v.1 v.2 text = none

namespace World

/-- A node that `find_storer` may return: the reader itself if it has a file of that name,
another node if it would answer `HAS_VALUE`. -/
def StoredAt (w : World) (reader : NodeInfo) (hash : Key) (n : NodeInfo) : Prop :=
  n = reader ∧ ((w.peers n).storage.files.lookup hash).isSome ∨ n.id ≠ reader.id ∧ (w.peers n).storage.owns hash

/-- Every chunk is found, and whichever storers are found, the download ends well with
exactly this content. The nodes keep what they have during the download. -/
def Recovers (A : Aead) (build : Build) (w : World) (reader : NodeInfo) (fetch : Nat → Fetch) (md : FileMetadata)
    (content : Bytes) : Prop :=
  (∀ entry ∈ md.chunksMetadata, ∃ n, w.StoredAt reader entry.hash n) ∧
  ∀ storers : Nat → NodeInfo,
    (∀ (i : Nat) (entry : ChunkMetadata), md.chunksMetadata[i]? = some entry →
      w.StoredAt reader entry.hash (storers i)) →
    downloadFile A build (fun _ => w.peers) reader fetch (fun i _ => .ok (storers i)) md = .ok content

/-- The storers that are other nodes get through to the reader. -/
def Connected (reader : NodeInfo) (fetch : Nat → Fetch) (md : FileMetadata) (storers : Nat → NodeInfo) : Prop :=
  ∀ (i : Nat) (entry : ChunkMetadata), md.chunksMetadata[i]? = some entry →
    (storers i).id = reader.id ∨ (fetch i).Reaches reader (storers i)

/-- Every other node that may be found for a chunk gets through to the reader with it. -/
def StorersReach (w : World) (reader : NodeInfo) (fetch : Nat → Fetch) (md : FileMetadata) : Prop :=
  ∀ (i : Nat) (entry : ChunkMetadata), md.chunksMetadata[i]? = some entry → ∀ n, n.id ≠ reader.id →
    w.StoredAt reader entry.hash n → (fetch i).Reaches reader n

/-- The node holds the text under this name without having it from the upload: it held it
before, or stored it for somebody else in the meantime. -/
def HeldOtherwise (w₀ w : World) (reader : NodeInfo) (hash : Key) (n : NodeInfo) (text : Bytes) : Prop :=
  w₀.StoredAt reader hash n ∧ (w₀.peers n).storage.content hash = some text ∨
  ∃ call ∈ w.stores, call.node = n ∧ call.chunk = none ∧ call.hash = some hash ∧ call.result = .ok () ∧
    call.text = text

end World

/-- An acknowledged upload all of whose transfers were stored, in a network where owned chunks have
their files and those of the upload are on disk. The reader's runtime refuses no write. -/
structure Uploaded (A : Aead) (sha1 : Bytes → Key) (me reader : NodeInfo) (content : Bytes) (md : FileMetadata)
    (w₀ w : World) : Prop where
  start : w₀.Start md.name content md.encryptionKey
  runs : Runs A sha1 me w₀ w
  done : w.upload.phase = .done (.ok md)
  settled : w.Settled
  stored : ∀ call ∈ w.stores, call.chunk.isSome → call.result = .ok () ∧ call.io.Works call.data
  flushed : ∀ entry ∈ md.chunksMetadata, ∀ n file,
    (w.peers n).storage.files.lookup entry.hash = some file → file.unwritten = []
  node_eq : ∀ n, (w₀.peers n).server.nodeInfo = n
  reader_eq : ∀ call ∈ w.stores, call.node.id = reader.id → call.node = reader
  file_of_owns : ∀ n h, (w₀.peers n).storage.owns h → ((w₀.peers n).storage.files.lookup h).isSome
  written : ∀ call ∈ w.stores, call.node = reader → call.io ≠ .writeRefused

/-- The nonces of the upload differ, and what is held otherwise under the names of its
chunks was encrypted under another key. -/
structure OtherKeys (A : Aead) (uses : Set (Bytes × Bytes)) (reader : NodeInfo) (md : FileMetadata)
    (w₀ w : World) : Prop where
  nodup_nonces : (md.chunksMetadata.map ChunkMetadata.nonce).Nodup
  used : ∀ entry ∈ md.chunksMetadata, (md.encryptionKey, entry.nonce) ∈ uses
  held : ∀ entry ∈ md.chunksMetadata, ∀ n text, w₀.HeldOtherwise w reader entry.hash n text →
    ∃ key nonce payload, key ≠ md.encryptionKey ∧ (key, nonce) ∈ uses ∧ A.encrypt key nonce payload = some text

def resolvedPairs (md : FileMetadata) (storers : Nat → NodeInfo) : List (Key × NodeInfo) :=
  (md.chunksMetadata.map ChunkMetadata.hash).zipIdx.map fun k => (k.1, storers k.2)

theorem length_resolvedPairs (md : FileMetadata) (storers : Nat → NodeInfo) :
    (resolvedPairs md storers).length = md.chunksMetadata.length := by
  rw [resolvedPairs, List.length_map, List.length_zipIdx, List.length_map]

theorem zipIdx_resolvedPairs (md : FileMetadata) (storers : Nat → NodeInfo) (i : Nat) :
    (resolvedPairs md storers).zipIdx[i]? = md.chunksMetadata[i]?.map fun e => ((e.hash, storers i), i) := by
  rw [List.getElem?_zipIdx, resolvedPairs, List.getElem?_map, List.getElem?_zipIdx, List.getElem?_map]
  cases md.chunksMetadata[i]? with
  | none => rfl
  | some e => simp only [Option.map_some, Nat.zero_add]

theorem downloadFile_eq (A : Aead) (build : Build) (peers : Nat → NodeInfo → Peer) (reader : NodeInfo) (fetch : Nat → Fetch)
    (storers : Nat → NodeInfo) (md : FileMetadata) :
    downloadFile A build peers reader fetch (fun i _ => .ok (storers i)) md =
      match storeChunks A build peers reader fetch (resolvedPairs md storers).zipIdx (FileDownloader.new md) with
      | (.error e, _) => .error e
      | (.ok (), down) => .ok down.fileWriter.file := by
  unfold downloadFile
  rw [findStorersParallel_ok]
  rfl

section Fidelity
variable {A : Aead} {build : Build} {sha1 : Bytes → Key} {me reader : NodeInfo} {content : Bytes} {md : FileMetadata}
  {w₀ w : World} {fetch : Nat → Fetch}

namespace Uploaded

theorem inv (h : Uploaded A sha1 me reader content md w₀ w) (hA : A.Lawful) :
    UploadInv A sha1 md.name content md.encryptionKey w :=
  h.start.inv.runs hA h.start.length_key h.runs

theorem entry (h : Uploaded A sha1 me reader content md w₀ w) (hA : A.Lawful) {i : Nat} {e : ChunkMetadata}
    (he : md.chunksMetadata[i]? = some e) :
    ∃ b chunk n, w.upload.chunks[i]? = some chunk ∧ Seals A sha1 md.encryptionKey b chunk ∧
      e = b.chunkMetadata sha1 ∧ w.StoredAt reader e.hash n ∧
      (w.peers n).storage.content e.hash = some chunk.data := by
  obtain ⟨blocks, hmd, hseals, -, hdel⟩ := (h.inv hA).finished h.done
  rw [hmd] at he
  obtain ⟨b, chunk, hchunk, hseal, rfl⟩ := Seals.of_entry hseals he
  obtain ⟨call, hcall, hi⟩ : ∃ call ∈ w.stores, call.chunk = some i := by
    rcases hdel i (List.getElem?_eq_some_iff.mp hchunk).1 with ⟨n, port, data, hl⟩ | hcall
    · exact absurd hl (h.settled n port i data)
    · exact hcall
  have hsound := (h.inv hA).stored.sound call hcall
  obtain ⟨hhash, hdata, -⟩ := hsound.result_iff hi hchunk (hseal.length_data hA)
  obtain ⟨hok, hworks⟩ := h.stored call hcall (by rw [hi]; rfl)
  obtain ⟨hcontent, howns⟩ := hsound.kept _ hhash hok
  rw [hseal.hash_eq] at hcontent howns
  rw [StoreCall.text_of_works hworks, hdata] at hcontent
  refine ⟨b, chunk, call.node, hchunk, hseal, rfl, ?_, hcontent⟩
  by_cases hid : call.node.id = reader.id
  · exact .inl ⟨h.reader_eq call hcall hid, ShardStorageManager.isSome_lookup_of_content hcontent⟩
  · exact .inr ⟨hid, howns⟩

/-- A storer has a text for the chunk, which is all on disk, and sends it if it gets through. -/
theorem download (h : Uploaded A sha1 me reader content md w₀ w) (hA : A.Lawful) {e : ChunkMetadata}
    (he : e ∈ md.chunksMetadata) {n : NodeInfo} (hn : w.StoredAt reader e.hash n) :
    ∃ text, (w.peers n).storage.content e.hash = some text ∧ ∀ f,
      downloadChunkFromStorer reader w.peers f e.hash n =
        if n.id = reader.id ∨ f.Reaches reader n then .ok text else .error .noData := by
  have htraced := h.runs.traced n
  have hread : ∀ file, (w.peers n).storage.files.lookup e.hash = some file →
      (w.peers n).storage.readChunk e.hash = .ok file.content := by
    intro file hfile
    rw [ShardStorageManager.readChunk, hfile, ChunkFile.content, h.flushed e he n file hfile, List.append_nil]
  rcases hn with ⟨rfl, hfile⟩ | ⟨hid, howns⟩
  · obtain ⟨file, hfile⟩ := Option.isSome_iff_exists.mp hfile
    refine ⟨file.content, ShardStorageManager.content_of_lookup hfile, fun f => ?_⟩
    unfold downloadChunkFromStorer
    rw [if_pos rfl, if_pos (.inl rfl), hread file hfile]
  · have hcontent : ∃ text, (w.peers n).storage.content e.hash = some text := by
      rcases htraced.owns_from e.hash howns with howns₀ | ⟨call, hcall, rfl, hhash, hok⟩
      · obtain ⟨file, hfile⟩ := Option.isSome_iff_exists.mp (h.file_of_owns n e.hash howns₀)
        exact ⟨_, htraced.content_kept e.hash _ (ShardStorageManager.content_of_lookup hfile)⟩
      · exact ⟨_, (((h.inv hA).stored.sound call hcall).kept e.hash hhash hok).1⟩
    obtain ⟨text, htext⟩ := hcontent
    obtain ⟨file, hfile, rfl⟩ := Option.map_eq_some_iff.mp htext
    refine ⟨file.content, htext, fun f => ?_⟩
    rw [downloadChunkFromStorer_of_read (htraced.node_eq.trans (h.node_eq n)) hid (hread file hfile) f]
    simp only [hid, false_or]

theorem length_chunks (h : Uploaded A sha1 me reader content md w₀ w) (hA : A.Lawful) :
    md.chunksMetadata.length = w.upload.chunks.length := by
  obtain ⟨blocks, hmd, hseals, -, -⟩ := (h.inv hA).finished h.done
  rw [hmd, List.length_map, hseals.length_eq]

theorem entry_of_chunk (h : Uploaded A sha1 me reader content md w₀ w) (hA : A.Lawful) {j : Nat} {c : Chunk}
    (hc : w.upload.chunks[j]? = some c) : (md.chunksMetadata.map ChunkMetadata.hash)[j]? = some c.hash := by
  have hlt : j < md.chunksMetadata.length := h.length_chunks hA ▸ (List.getElem?_eq_some_iff.mp hc).1
  obtain ⟨b, chunk, n, hchunk, hseal, he, -⟩ := h.entry hA (List.getElem?_eq_getElem hlt)
  rw [hc, Option.some.injEq] at hchunk
  rw [List.getElem?_map, List.getElem?_eq_getElem hlt, Option.map_some, he, hchunk, hseal.hash_eq]
  rfl

/-- A text that a storer holds is held otherwise or was stored for a chunk of the upload. -/
theorem origin (h : Uploaded A sha1 me reader content md w₀ w) (hA : A.Lawful) {hash : Key} {n : NodeInfo}
    {text : Bytes} (hn : w.StoredAt reader hash n) (htext : (w.peers n).storage.content hash = some text) :
    w₀.HeldOtherwise w reader hash n text ∨
    ∃ call ∈ w.stores, ∃ j, call.chunk = some j ∧ call.hash = some hash ∧ call.text = text := by
  have htraced := h.runs.traced n
  have hcall : ∀ call ∈ w.stores, call.node = n → call.hash = some hash → call.result = .ok () →
      call.text = text → w₀.HeldOtherwise w reader hash n text ∨
        ∃ call ∈ w.stores, ∃ j, call.chunk = some j ∧ call.hash = some hash ∧ call.text = text := by
    intro call hcall hnode hhash hok hdata
    cases hchunk : call.chunk with
    | none => exact .inl (.inr ⟨call, hcall, hnode, hchunk, hhash, hok, hdata⟩)
    | some j => exact .inr ⟨call, hcall, j, hchunk, hhash, hdata⟩
  rcases hn with ⟨rfl, -⟩ | ⟨hid, howns⟩
  · rcases htraced.content_from hash text htext with htext₀ | ⟨call, hmem, hnode, hhash, ⟨hok, hdata⟩ | hio⟩
    · exact .inl (.inl ⟨.inl ⟨rfl, ShardStorageManager.isSome_lookup_of_content htext₀⟩, htext₀⟩)
    · exact hcall call hmem hnode hhash hok hdata
    · exact absurd hio (h.written call hmem hnode)
  · rcases htraced.owns_from hash howns with howns₀ | ⟨call, hmem, hnode, hhash, hok⟩
    · obtain ⟨file, hfile⟩ := Option.isSome_iff_exists.mp (h.file_of_owns n hash howns₀)
      have htext₀ := ShardStorageManager.content_of_lookup hfile
      obtain rfl : file.content = text := Option.some.inj ((htraced.content_kept hash _ htext₀).symm.trans htext)
      exact .inl (.inl ⟨.inr ⟨hid, howns₀⟩, htext₀⟩)
    · -- an entry goes with the file of the same store, so the text is the one stored then
      refine hcall call hmem hnode hhash hok ?_
      have hfile := (((h.inv hA).stored.sound call hmem).kept hash hhash hok).1
      rw [hnode, htext] at hfile
      exact (Option.some.inj hfile).symm

theorem text_eq (h : Uploaded A sha1 me reader content md w₀ w) (hA : A.Lawful)
    (hnodup : (md.chunksMetadata.map ChunkMetadata.hash).Nodup)
    (hno : ∀ entry ∈ md.chunksMetadata, ∀ n text, ¬ w₀.HeldOtherwise w reader entry.hash n text) {i : Nat}
    {e : ChunkMetadata} {chunk : Chunk} (he : md.chunksMetadata[i]? = some e)
    (hchunk : w.upload.chunks[i]? = some chunk) {n : NodeInfo} {text : Bytes} (hn : w.StoredAt reader e.hash n)
    (htext : (w.peers n).storage.content e.hash = some text) : text = chunk.data := by
  rcases h.origin hA hn htext with hheld | ⟨call, hcall, j, hj, hhash, rfl⟩
  · exact absurd hheld (hno e (List.mem_of_getElem? he) n text)
  · obtain ⟨c, hc, hchash, hdata⟩ := ((h.inv hA).stored.sound call hcall).fits j hj
    have hsame : c.hash = e.hash := Option.some.inj (hchash.symm.trans hhash)
    have hij : i = j := by
      refine (List.getElem?_inj ?_ hnodup).mp ?_
      · rw [List.length_map]
        exact (List.getElem?_eq_some_iff.mp he).1
      · rw [h.entry_of_chunk hA hc, hsame, List.getElem?_map, he, Option.map_some]
    subst hij
    rw [hchunk, Option.some.injEq] at hc
    have hworks := (h.stored call hcall (by rw [hj]; rfl)).2
    rw [StoreCall.text_of_works hworks, hdata call.data rfl, hc]

/-- The file comes back from storers that get through. -/
theorem downloadFile_ok (h : Uploaded A sha1 me reader content md w₀ w) (hA : A.Lawful)
    (hnodup : (md.chunksMetadata.map ChunkMetadata.hash).Nodup)
    (hno : ∀ entry ∈ md.chunksMetadata, ∀ n text, ¬ w₀.HeldOtherwise w reader entry.hash n text)
    {storers : Nat → NodeInfo} (hstorers : ∀ (i : Nat) (entry : ChunkMetadata), md.chunksMetadata[i]? = some entry →
      w.StoredAt reader entry.hash (storers i)) (hconnected : World.Connected reader fetch md storers) :
    downloadFile A build (fun _ => w.peers) reader fetch (fun i _ => .ok (storers i)) md = .ok content := by
  obtain ⟨blocks, hmd, hseals, hcontent, -⟩ := (h.inv hA).finished h.done
  have hfeed : List.Forall₂ (fun p c => p.1.1 = c.hash ∧
      downloadChunkFromStorer reader w.peers (fetch p.2) p.1.1 p.1.2 = .ok c.data)
      (resolvedPairs md storers).zipIdx w.upload.chunks := by
    refine List.forall₂_of_length_eq_of_get ?_ fun i hi hi' => ?_
    · rw [List.length_zipIdx, length_resolvedPairs, h.length_chunks hA]
    · have he := List.getElem?_eq_getElem (h.length_chunks hA ▸ hi')
      have hstored := hstorers i _ he
      obtain ⟨b, chunk, -, hchunk, hseal, hentry, -⟩ := h.entry hA he
      have hpair := zipIdx_resolvedPairs md storers i
      rw [he, List.getElem?_eq_getElem hi, Option.map_some, Option.some.injEq] at hpair
      obtain rfl : w.upload.chunks.get ⟨i, hi'⟩ = chunk := by
        rw [List.getElem?_eq_getElem hi'] at hchunk
        exact Option.some.inj hchunk
      obtain ⟨text, htext, hdownload⟩ := h.download hA (List.mem_of_getElem? he) hstored
      rw [List.get_eq_getElem, hpair, ← h.text_eq hA hnodup hno he hchunk hstored htext]
      refine ⟨?_, (hdownload _).trans (if_pos (hconnected i _ he))⟩
      rw [hentry, hseal.hash_eq]
      rfl
  obtain ⟨hoks, hwritten, hbuffer⟩ := FileDownloader.storeAll_seals hA hseals h.start.length_key
    (FileDownloader.new md) rfl (by rw [hmd]; rfl)
  rw [downloadFile_eq, storeChunks_eq_storeAll hfeed _ hoks]
  have hbuf := hbuffer (.inl rfl)
  rw [FileDownloader.written, hbuf, List.append_nil, hcontent] at hwritten
  exact congrArg Except.ok hwritten

theorem recovers (h : Uploaded A sha1 me reader content md w₀ w) (hA : A.Lawful)
    (hnodup : (md.chunksMetadata.map ChunkMetadata.hash).Nodup)
    (hno : ∀ entry ∈ md.chunksMetadata, ∀ n text, ¬ w₀.HeldOtherwise w reader entry.hash n text)
    (hreach : w.StorersReach reader fetch md) : w.Recovers A build reader fetch md content := by
  refine ⟨fun e he => ?_, fun storers hstorers => h.downloadFile_ok hA hnodup hno hstorers fun i entry hentry => ?_⟩
  · obtain ⟨i, hi⟩ := List.mem_iff_getElem?.mp he
    obtain ⟨b, chunk, n, -, -, -, hn, -⟩ := h.entry hA hi
    exact ⟨n, hn⟩
  · by_cases hid : (storers i).id = reader.id
    · exact .inl hid
    · exact .inr (hreach i entry hentry _ hid (hstorers i entry hentry))

/-- A storer that sends nothing, or a text that does not decrypt, spoils the download. -/
theorem not_recovers {i : Nat} {e : ChunkMetadata} (he : md.chunksMetadata[i]? = some e) {n : NodeInfo}
    (hn : w.StoredAt reader e.hash n)
    (hspoils : ∀ data, downloadChunkFromStorer reader w.peers (fetch i) e.hash n = .ok data →
      A.decrypt md.encryptionKey e.nonce data = none) : ¬ w.Recovers A build reader fetch md content := by
  rintro ⟨hfound, hall⟩
  -- the bad storer for its own chunk, anybody for the others
  have hchoice : ∀ k : Nat, ∃ m, ∀ e' : ChunkMetadata, md.chunksMetadata[k]? = some e' →
      w.StoredAt reader e'.hash m := by
    intro k
    cases hk : md.chunksMetadata[k]? with
    | none => exact ⟨n, nofun⟩
    | some e' =>
        obtain ⟨m, hm⟩ := hfound e' (List.mem_of_getElem? hk)
        exact ⟨m, fun e'' he'' => Option.some.inj he'' ▸ hm⟩
  choose others hothers using hchoice
  have hstorers : ∀ (k : Nat) (e' : ChunkMetadata), md.chunksMetadata[k]? = some e' →
      w.StoredAt reader e'.hash (Function.update others i n k) := by
    intro k e' hk
    by_cases hki : k = i
    · subst hki
      rw [he, Option.some.injEq] at hk
      rwa [Function.update_self, ← hk]
    · rw [Function.update_of_ne hki]
      exact hothers k e' hk
  have hok := hall _ hstorers
  rw [downloadFile_eq] at hok
  split at hok
  · cases hok
  next down hstore =>
    have hpair : (resolvedPairs md (Function.update others i n)).zipIdx[i]? = some ((e.hash, n), i) := by
      rw [zipIdx_resolvedPairs, he, Option.map_some, Function.update_self]
    have hentry : md.chunksMetadata[0 + i]? = some e := by rw [Nat.zero_add, he]
    obtain ⟨data, hsent, hsome⟩ : ∃ data, downloadChunkFromStorer reader w.peers (fetch i) e.hash n = .ok data ∧
        (A.decrypt md.encryptionKey e.nonce data).isSome := decrypts_of_storeChunks hstore i _ e hpair hentry
    rw [hspoils data hsent] at hsome
    cases hsome

/-- The text that a storer has spoils the download if it does not decrypt. -/
theorem not_recovers_of_text (h : Uploaded A sha1 me reader content md w₀ w) (hA : A.Lawful) {i : Nat}
    {e : ChunkMetadata} (he : md.chunksMetadata[i]? = some e) {n : NodeInfo} {text : Bytes}
    (hn : w.StoredAt reader e.hash n) (htext : (w.peers n).storage.content e.hash = some text)
    (hdec : A.decrypt md.encryptionKey e.nonce text = none) : ¬ w.Recovers A build reader fetch md content := by
  refine not_recovers he hn fun data hsent => ?_
  obtain ⟨text', htext', hdownload⟩ := h.download hA (List.mem_of_getElem? he) hn
  rw [htext, Option.some.injEq] at htext'
  rw [hdownload] at hsent
  split_ifs at hsent
  cases hsent
  exact htext' ▸ hdec

theorem not_recovers_of_unreached (h : Uploaded A sha1 me reader content md w₀ w) (hA : A.Lawful) {i : Nat}
    {e : ChunkMetadata} (he : md.chunksMetadata[i]? = some e) {n : NodeInfo} (hid : n.id ≠ reader.id)
    (hn : w.StoredAt reader e.hash n) (hreaches : ¬ (fetch i).Reaches reader n) :
    ¬ w.Recovers A build reader fetch md content := by
  refine not_recovers he hn fun data hsent => ?_
  obtain ⟨text, -, hdownload⟩ := h.download hA (List.mem_of_getElem? he) hn
  rw [hdownload, if_neg (not_or.mpr ⟨hid, hreaches⟩)] at hsent
  cases hsent

theorem storedAt_of_heldOtherwise (h : Uploaded A sha1 me reader content md w₀ w) (hA : A.Lawful) {hash : Key}
    {n : NodeInfo} {text : Bytes} (hheld : w₀.HeldOtherwise w reader hash n text) :
    w.StoredAt reader hash n ∧ (w.peers n).storage.content hash = some text := by
  have htraced := h.runs.traced n
  rcases hheld with ⟨hn, hfile⟩ | ⟨call, hcall, rfl, -, hhash, hok, rfl⟩
  · have hfile' := htraced.content_kept hash text hfile
    refine ⟨?_, hfile'⟩
    rcases hn with ⟨rfl, -⟩ | ⟨hid, howns⟩
    · exact .inl ⟨rfl, ShardStorageManager.isSome_lookup_of_content hfile'⟩
    · exact .inr ⟨hid, htraced.owns_kept hash howns⟩
  · obtain ⟨hfile, howns⟩ := ((h.inv hA).stored.sound call hcall).kept hash hhash hok
    refine ⟨?_, hfile⟩
    by_cases hid : call.node.id = reader.id
    · exact .inl ⟨h.reader_eq call hcall hid, ShardStorageManager.isSome_lookup_of_content hfile⟩
    · exact .inr ⟨hid, howns⟩

theorem not_recovers_of_held (h : Uploaded A sha1 me reader content md w₀ w) (hA : A.Lawful)
    {uses : Set (Bytes × Bytes)} (hsep : A.Separates uses) (hkeys : OtherKeys A uses reader md w₀ w)
    {e : ChunkMetadata} (he : e ∈ md.chunksMetadata) {n : NodeInfo} {text : Bytes}
    (hheld : w₀.HeldOtherwise w reader e.hash n text) : ¬ w.Recovers A build reader fetch md content := by
  obtain ⟨i, hi⟩ := List.mem_iff_getElem?.mp he
  obtain ⟨hn, htext⟩ := h.storedAt_of_heldOtherwise hA hheld
  obtain ⟨key, nonce, payload, hne, hused, henc⟩ := hkeys.held e he n text hheld
  refine h.not_recovers_of_text hA hi hn htext (hsep (key, nonce) hused _ (hkeys.used e he) ?_ payload text henc)
  exact fun heq => hne (congrArg Prod.fst heq)

theorem not_recovers_of_same_hash (h : Uploaded A sha1 me reader content md w₀ w) (hA : A.Lawful)
    {uses : Set (Bytes × Bytes)} (hsep : A.Separates uses) (hkeys : OtherKeys A uses reader md w₀ w) {i j : Nat}
    {e e' : ChunkMetadata} (he : md.chunksMetadata[i]? = some e) (he' : md.chunksMetadata[j]? = some e')
    (hij : i ≠ j) (hsame : e.hash = e'.hash) : ¬ w.Recovers A build reader fetch md content := by
  obtain ⟨b, chunk, n, -, hseal, hentry, hn, htext⟩ := h.entry hA he
  have hnonce : e.nonce ≠ e'.nonce := by
    intro heq
    refine hij ((List.getElem?_inj ?_ hkeys.nodup_nonces).mp ?_)
    · rw [List.length_map]
      exact (List.getElem?_eq_some_iff.mp he).1
    · rw [List.getElem?_map, List.getElem?_map, he, he', Option.map_some, Option.map_some, heq]
  rw [hsame] at hn htext
  refine h.not_recovers_of_text hA he' hn htext (hsep (md.encryptionKey, e.nonce) (hkeys.used e (List.mem_of_getElem? he)) _
    (hkeys.used e' (List.mem_of_getElem? he')) (fun heq => hnonce (congrArg Prod.snd heq)) b.payload chunk.data ?_)
  rw [hentry]
  exact hseal.encrypt_eq

end Uploaded

/-- After an upload whose transfers were all stored, the file comes back from whichever storers are
found if and only if its chunks have different names, no storer has one of these names from
elsewhere, and the other storers get through to the reader: the first text under a name stays, and
it is of no use to who uploads the same block again. -/
theorem upload_recovers_iff (hA : A.Lawful) (build : Build) {uses : Set (Bytes × Bytes)} (hsep : A.Separates uses)
    (h : Uploaded A sha1 me reader content md w₀ w) (hkeys : OtherKeys A uses reader md w₀ w) (fetch : Nat → Fetch) :
    w.Recovers A build reader fetch md content ↔
      (md.chunksMetadata.map ChunkMetadata.hash).Nodup ∧
      (∀ entry ∈ md.chunksMetadata, ∀ n text, ¬ w₀.HeldOtherwise w reader entry.hash n text) ∧
      w.StorersReach reader fetch md := by
  constructor
  · intro hrec
    refine ⟨?_, fun entry he n text hheld => h.not_recovers_of_held hA hsep hkeys he hheld hrec,
      fun i entry he n hid hn => ?_⟩
    · rw [List.nodup_iff_getElem?_ne_getElem?]
      intro i j hij hj heq
      rw [List.length_map] at hj
      have hi := List.getElem?_eq_getElem (hij.trans hj)
      have hj := List.getElem?_eq_getElem hj
      rw [List.getElem?_map, List.getElem?_map, hi, hj, Option.map_some, Option.map_some, Option.some.injEq] at heq
      exact h.not_recovers_of_same_hash hA hsep hkeys hi hj (Nat.ne_of_lt hij) heq hrec
    · by_contra hreaches
      exact h.not_recovers_of_unreached hA he hid hn hreaches hrec
  · rintro ⟨hnodup, hno, hreach⟩
    exact h.recovers hA hnodup hno hreach

end Fidelity

theorem tagAead_separates {uses : Set (Bytes × Bytes)}
    (h : ∀ u ∈ uses, ∀ v ∈ uses, u ≠ v → u.1.take 4 ++ u.2 ≠ v.1.take 4 ++ v.2) : tagAead.Separates uses := by
  intro u hu v hv hne payload text henc
  simp only [tagAead, Option.ite_none_right_eq_some, Option.some.injEq] at henc
  obtain ⟨⟨hkey, hnonce⟩, rfl⟩ := henc
  have hlen : (payload ++ (u.1.take 4 ++ u.2)).length - 16 = payload.length := by
    simp only [List.length_append, List.length_take, hkey, hnonce]
    omega
  simp only [tagAead, hlen, List.drop_left]
  rw [if_neg]
  rintro ⟨-, -, htag⟩
  exact h u hu v hv hne htag

namespace ShardStorageManager

/-- No chunk file is still being written. -/
def Flushed (self : ShardStorageManager) : Prop :=
  ∀ hash file, self.files.lookup hash = some file → file.unwritten = []

theorem Flushed.new (files : AList fun _ : Key => Bytes) : (ShardStorageManager.new files).Flushed := by
  intro hash file hfile
  obtain ⟨data, -, rfl⟩ := Option.map_eq_some_iff.mp ((lookup_written files hash).symm.trans hfile)
  rfl

variable {m : ShardStorageManager} (h : m.Flushed)
include h

theorem Flushed.addActiveTcpConnection {port : UInt16} {sender : NodeInfo} {hash : Key} :
    (m.addActiveTcpConnection port sender hash).2.Flushed := h

/-- So it stays if the next one is written at once. -/
theorem Flushed.storeChunkForKnownPeer (data : Bytes) (port : UInt16) (now : Nat) :
    (m.storeChunkForKnownPeer data port .ok now).2.Flushed := by
  intro hash file hfile
  rcases m.storeChunkForKnownPeer_cases data port .ok now with
    ⟨⟨e, he⟩, -⟩ | ⟨transfer, -, -, -, ⟨file', hwritten, hok⟩ | ⟨hnone, -⟩⟩
  · rw [he] at hfile
    exact h hash file hfile
  · rw [hok, lookup_files_afterStore] at hfile
    split_ifs at hfile
    · cases hwritten
      cases hfile
      rfl
    · exact h hash file hfile
  · cases hnone

end ShardStorageManager

theorem sample_uploaded (storage : NodeInfo → ShardStorageManager) (hnew : storage (.local 2 4002) = .new ∅)
    (htotal : ∀ n, (storage n).totalStoredKb = 0) (hflushed : ∀ n, (storage n).Flushed)
    (hfiles : ∀ n h, (storage n).owns h → ((storage n).files.lookup h).isSome) :
    ∃ w, Uploaded tagAead sampleSha1 (.local 1 4001) (.local 1 4001) [1]
        ⟨"f".toList, sampleKey, [⟨Key.ofTopByte 0 0, zeroDraw.nonce⟩]⟩
        (.opening storage ⟨[1], ⟨"f".toList, sampleKey, []⟩, sampleKey⟩) w ∧
      ∀ call ∈ w.stores, call.chunk = some 0 := by
  obtain ⟨chunk, w, hseal, hrun, hdone, hsettled, -, hstores, hothers, hstored⟩ := oneChunk_run tagAead_lawful sampleSha1
    (.local 1 4001) (.local 2 4002) storage "f".toList zeroDraw (List.cons_ne_nil 1 []) (by decide)
    (by decide : sampleKey.length = 32) ⟨List.replicate 16 0, rfl⟩
    (rfl : (⟨fun _ => .error .responseTimeout, 0, some 5000⟩ : HandlerEnv).listener = some 5000)
    (by rw [hnew]; rfl) (by rw [hnew]; exact nofun) .ok 0
  rw [hnew] at hstores
  have hdisk : ∀ n, (w.peers n).storage.Flushed := by
    intro n
    by_cases hn : n = .local 2 4002
    · rw [hn, hstored]
      exact (hflushed _).addActiveTcpConnection.storeChunkForKnownPeer _ _ _
    · rw [hothers n hn]
      exact hflushed n
  refine ⟨w, ⟨World.opening_start rfl (by decide) htotal, hrun, hdone, hsettled, ?_, fun _ _ n => hdisk n _, fun _ => rfl,
    ?_, hfiles, ?_⟩, ?_⟩
  all_goals
    intro call hcall
    rw [hstores, List.mem_singleton] at hcall
    rw [hcall]
  · refine fun _ =>
      ⟨(ShardStorageManager.storeChunkForKnownPeer_spec (AList.lookup_insert _) _ _ _).2.1.mpr ?_, StoreIo.works_ok _⟩
    refine ⟨⟨(by decide : 0 < maxShardsStored), ?_, ?_, rfl⟩, rfl⟩
    · rw [hseal.length_data tagAead_lawful]
    · rw [hseal.length_data tagAead_lawful]
      exact (by decide : encryptedChunkSizeB ≤ maxDataStoredMb * 1024 - 0)
  · exact fun hid => absurd hid (by decide : (NodeInfo.local 2 4002).id ≠ (NodeInfo.local 1 4001).id)
  · exact fun _ => nofun

def oldKey : Bytes := List.replicate 32 8

def sampleUses : Set (Bytes × Bytes) := {(sampleKey, zeroDraw.nonce), (oldKey, zeroDraw.nonce)}

theorem sampleUses_separated : tagAead.Separates sampleUses := by
  refine tagAead_separates ?_
  rintro u (rfl | rfl) v (rfl | rfl) hne
  · exact absurd rfl hne
  · decide
  · decide
  · exact absurd rfl hne

/-- A storer on the host of the reader gets through to its listener at the loopback address. -/
def localFetch : Fetch :=
  ⟨zeroRequestId, 6000, ⟨fun _ => .error .responseTimeout, 0, none⟩,
    fun _ address => decide (address = SocketAddr.localhost 6000)⟩

theorem upload_recovers_fresh :
    ∃ w md, Uploaded tagAead sampleSha1 (.local 1 4001) (.local 1 4001) [1] md (sampleStart ∅) w ∧
      OtherKeys tagAead sampleUses (.local 1 4001) md (sampleStart ∅) w ∧
      w.Recovers tagAead .debug (.local 1 4001) (fun _ => localFetch) md [1] := by
  obtain ⟨w, hup, hours⟩ := sample_uploaded (fun _ => .new ∅) rfl (fun _ => rfl) (fun _ => .new ∅) nofun
  have hkeys : OtherKeys tagAead sampleUses (.local 1 4001)
      ⟨"f".toList, sampleKey, [⟨Key.ofTopByte 0 0, zeroDraw.nonce⟩]⟩ (sampleStart ∅) w := by
    refine ⟨by decide, ?_, ?_⟩
    · rintro entry (_ | ⟨_, ⟨⟩⟩)
      exact .inl rfl
    · rintro entry - n text (⟨-, hfile⟩ | ⟨call, hcall, -, hnone, -⟩)
      · cases hfile
      · rw [hours call hcall] at hnone
        cases hnone
  refine ⟨w, _, hup, hkeys, ?_⟩
  apply (upload_recovers_iff tagAead_lawful .debug sampleUses_separated hup hkeys fun _ => localFetch).mpr
  refine ⟨by decide, ?_, fun _ _ _ _ _ _ => rfl⟩
  rintro entry - n text (⟨-, hfile⟩ | ⟨call, hcall, -, hnone, -⟩)
  · cases hfile
  · rw [hours call hcall] at hnone
    cases hnone

/-- The block of the file as it was encrypted by an earlier upload. -/
def oldText : Bytes := (zeroDraw.cut (List.cons_ne_nil 1 [])).payload ++ (oldKey.take 4 ++ zeroDraw.nonce)

theorem encrypt_oldText :
    tagAead.encrypt oldKey zeroDraw.nonce (zeroDraw.cut (List.cons_ne_nil 1 [])).payload = some oldText := by
  have hlen : oldKey.length = 32 ∧ zeroDraw.nonce.length = 12 := by decide
  simp only [tagAead, hlen, and_self, if_true, oldText]

def oldOwner : ShardStorageManager :=
  { ShardStorageManager.new (AList.singleton (Key.ofTopByte 0 0) oldText) with
    ownedChunks := AList.singleton (Key.ofTopByte 0 0) 0 }

/-- One node owns the block from an earlier upload, the others are new. -/
def afterOldUpload (n : NodeInfo) : ShardStorageManager :=
  if n = .local 3 4003 then oldOwner else .new ∅

def sampleAfterOldUpload : World := .opening afterOldUpload ⟨[1], ⟨"f".toList, sampleKey, []⟩, sampleKey⟩

theorem afterOldUpload_cases (n : NodeInfo) : afterOldUpload n = oldOwner ∨ afterOldUpload n = .new ∅ := by
  unfold afterOldUpload
  split_ifs
  · exact .inl rfl
  · exact .inr rfl

theorem afterOldUpload_flushed (n : NodeInfo) : (afterOldUpload n).Flushed := by
  rcases afterOldUpload_cases n with hn | hn
  · rw [hn]
    exact ShardStorageManager.Flushed.new _
  · rw [hn]
    exact .new ∅

theorem afterOldUpload_file_of_owns (n : NodeInfo) (h : Key) (howns : (afterOldUpload n).owns h) :
    ((afterOldUpload n).files.lookup h).isSome := by
  rcases afterOldUpload_cases n with hn | hn
  · rw [hn] at howns ⊢
    have hmem : h ∈ (AList.singleton (Key.ofTopByte 0 0) 0 : AList fun _ : Key => Nat) :=
      AList.lookup_isSome.mp howns
    exact AList.lookup_isSome.mpr hmem
  · rw [hn] at howns
    cases howns

/-- The block was uploaded before under another key: the upload is acknowledged and all its
transfers are stored, but the download fails with a storer of the old text. -/
theorem upload_not_recovered :
    ∃ w md, Uploaded tagAead sampleSha1 (.local 1 4001) (.local 1 4001) [1] md sampleAfterOldUpload w ∧
      OtherKeys tagAead sampleUses (.local 1 4001) md sampleAfterOldUpload w ∧
      ¬ w.Recovers tagAead .debug (.local 1 4001) (fun _ => localFetch) md [1] := by
  obtain ⟨w, hup, hours⟩ := sample_uploaded afterOldUpload (if_neg (by decide))
    (fun n => by rcases afterOldUpload_cases n with hn | hn <;> rw [hn] <;> rfl) afterOldUpload_flushed
    afterOldUpload_file_of_owns
  have hkeys : OtherKeys tagAead sampleUses (.local 1 4001)
      ⟨"f".toList, sampleKey, [⟨Key.ofTopByte 0 0, zeroDraw.nonce⟩]⟩ sampleAfterOldUpload w := by
    refine ⟨by decide, ?_, ?_⟩
    · rintro entry (_ | ⟨_, ⟨⟩⟩)
      exact .inl rfl
    · rintro entry (_ | ⟨_, ⟨⟩⟩) n text (⟨-, hfile⟩ | ⟨call, hcall, -, hnone, -⟩)
      · change (afterOldUpload n).content _ = _ at hfile
        rcases afterOldUpload_cases n with hn | hn
        · rw [hn] at hfile
          have htext : oldText = text := (List.append_nil oldText).symm.trans (Option.some.inj hfile)
          exact ⟨oldKey, zeroDraw.nonce, _, by decide, .inr rfl, htext ▸ encrypt_oldText⟩
        · rw [hn] at hfile
          cases hfile
      · rw [hours call hcall] at hnone
        cases hnone
  have hheld : sampleAfterOldUpload.HeldOtherwise w (.local 1 4001) (Key.ofTopByte 0 0) (.local 3 4003) oldText := by
    refine .inl ⟨.inr ⟨by decide, ?_⟩, ?_⟩
    · change (afterOldUpload (.local 3 4003)).owns (Key.ofTopByte 0 0)
      rw [afterOldUpload, if_pos rfl]
      rfl
    · change (afterOldUpload (.local 3 4003)).content (Key.ofTopByte 0 0) = some oldText
      rw [afterOldUpload, if_pos rfl]
      exact congrArg some (List.append_nil oldText)
  exact ⟨w, _, hup, hkeys, hup.not_recovers_of_held tagAead_lawful sampleUses_separated hkeys
    (List.mem_singleton_self _) hheld⟩

end P2PFilesystem
