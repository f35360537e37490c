import P2PFilesystem.Upload

/-!
# What an acknowledged upload has stored

An invariant of the upload among other uploads: every chunk it has moved on from was
received in full by some node, and what a node stored it keeps. Whether the received chunk
was stored is decided by the receiver alone.
-/
namespace P2PFilesystem

/-- The listener of a chunk of the upload has the transfer of that chunk, and holds its
bytes once something was received. -/
def Listener.Fits (chunks : List Chunk) (table : DataTransfersTable) (port : UInt16) (l : Listener) : Prop :=
  ∀ i, l.chunk = some i → ∃ c, chunks[i]? = some c ∧
    (table.lookup port).map DataTransfer.chunkHash = some c.hash ∧ ∀ d, l.received = some d → d = c.data

structure Peer.Holds (chunks : List Chunk) (p : Peer) : Prop where
  total : p.storage.totalStoredKb = 0
  fits : ∀ port l, p.listeners.lookup port = some l → l.Fits chunks p.storage.dataTransfersTable port

/-- A finished store, seen from the node as it is now. -/
structure StoreCall.Sound (chunks : List Chunk) (p : Peer) (call : StoreCall) : Prop where
  total : call.before.totalStoredKb = 0
  fits : (Listener.mk call.chunk (some call.data)).Fits chunks call.before.dataTransfersTable call.port
  kept : ∀ h, call.hash = some h → call.result = .ok () → p.storage.content h = some call.text ∧ p.storage.owns h

theorem Listener.Fits.append {chunks : List Chunk} {table : DataTransfersTable} {port : UInt16} {l : Listener}
    (h : l.Fits chunks table port) (c : Chunk) : l.Fits (chunks ++ [c]) table port := by
  intro i hi
  obtain ⟨c', hc', hfit⟩ := h i hi
  exact ⟨c', by rw [List.getElem?_append_left (List.getElem?_eq_some_iff.mp hc').1, hc'], hfit⟩

theorem Peer.Holds.append {chunks : List Chunk} {p : Peer} (h : p.Holds chunks) (c : Chunk) :
    p.Holds (chunks ++ [c]) :=
  ⟨h.total, fun port l hl => (h.fits port l hl).append c⟩

theorem StoreCall.Sound.append {chunks : List Chunk} {p : Peer} {call : StoreCall} (h : call.Sound chunks p)
    (c : Chunk) : call.Sound (chunks ++ [c]) p := ⟨h.total, h.fits.append c, h.kept⟩

theorem Peer.Holds.evolves {chunks : List Chunk} {p p' : Peer} (h : p.Holds chunks) (he : p.Evolves p')
    (hnew : ∀ port l, p'.listeners.lookup port = some l →
      p.listeners.lookup port = some l ∨ l.Fits chunks p'.storage.dataTransfersTable port) : p'.Holds chunks := by
  refine ⟨he.total_eq.trans h.total, fun port l hl => ?_⟩
  rcases hnew port l hl with hold | hfit
  · unfold Listener.Fits
    rw [he.transfer_eq port l hold]
    exact h.fits port l hold
  · exact hfit

theorem StoreCall.Sound.evolves {chunks : List Chunk} {p p' : Peer} {call : StoreCall} (h : call.Sound chunks p)
    (he : p.Evolves p') : call.Sound chunks p' := by
  refine ⟨h.total, h.fits, fun k hk hok => ?_⟩
  obtain ⟨hcontent, howns⟩ := h.kept k hk hok
  exact ⟨(he.content_eq k).trans hcontent, (he.owns_iff k).mpr howns⟩

theorem Peer.Holds.save {chunks : List Chunk} {p : Peer} (h : p.Holds chunks) (port : UInt16) (data : Bytes)
    (io : StoreIo) (now : Nat) : (p.save port data io now).2.Holds chunks := by
  have hgrows := p.storage.storeChunkForKnownPeer_grows data port io now
  refine ⟨hgrows.total_eq.trans h.total, fun q l hl => ?_⟩
  change (p.listeners.erase port).lookup q = some l at hl
  by_cases hq : q = port
  · rw [hq, AList.lookup_erase] at hl
    cases hl
  · rw [AList.lookup_erase_ne hq] at hl
    have hfit := h.fits q l hl
    unfold Listener.Fits at hfit ⊢
    rwa [← hgrows.transfer_eq q hq] at hfit

theorem StoreCall.Sound.save {chunks : List Chunk} {p : Peer} {call : StoreCall} (h : call.Sound chunks p)
    (port : UInt16) (data : Bytes) (io : StoreIo) (now : Nat) : call.Sound chunks (p.save port data io now).2 := by
  have hgrows := p.storage.storeChunkForKnownPeer_grows data port io now
  refine ⟨h.total, h.fits, fun k hk hok => ?_⟩
  obtain ⟨hcontent, howns⟩ := h.kept k hk hok
  exact ⟨hgrows.content_kept hcontent, hgrows.owns_kept k howns⟩

theorem StoreCall.sound_of_save {chunks : List Chunk} {p : Peer} (h : p.Holds chunks) {port : UInt16}
    {chunk : Option Nat} {data : Bytes} (hl : p.listeners.lookup port = some ⟨chunk, some data⟩) (n : NodeInfo)
    (io : StoreIo) (now : Nat) :
    (StoreCall.mk n chunk p.storage data port io now).Sound chunks (p.save port data io now).2 := by
  refine ⟨h.total, h.fits port _ hl, fun k hk hok => ?_⟩
  obtain ⟨transfer, ht, rfl⟩ := Option.map_eq_some_iff.mp hk
  obtain ⟨-, haccepts, hkept, -⟩ := ShardStorageManager.storeChunkForKnownPeer_spec ht data io now
  obtain ⟨hfile, howns⟩ := hkept hok
  refine ⟨?_, howns⟩
  obtain ⟨file, hwritten⟩ := Option.isSome_iff_exists.mp (haccepts.mp hok).written
  have hstored : (p.save port data io now).2.storage.files.lookup transfer.chunkHash = io.writeAll data := hfile
  have htext : (StoreCall.mk n chunk p.storage data port io now).text = file.content := by
    rw [StoreCall.text, hwritten]
    rfl
  rw [ShardStorageManager.content, hstored, hwritten, htext]
  rfl

namespace World

/-- Some node has received the whole chunk: it still waits to be stored, or the store ended. -/
def Delivered (w : World) (i : Nat) : Prop :=
  (∃ n port data, (w.peers n).listeners.lookup port = some ⟨some i, some data⟩) ∨
  ∃ call ∈ w.stores, call.chunk = some i

/-- The chunk at work is the last one, and those before it are delivered. -/
structure Busy (w : World) (chunk : Chunk) : Prop where
  last : w.upload.chunks[w.current]? = some chunk
  before : ∀ i < w.current, w.Delivered i

/-- What the phase of the upload says about the chunks. -/
def Progress (w : World) : Prop :=
  match w.upload.phase with
  | .reading => ∀ i < w.upload.chunks.length, w.Delivered i
  | .asking chunk _ _ => w.Busy chunk
  | .porting chunk _ _ => w.Busy chunk
  | .sending chunk _ sent => w.Busy chunk ∧ (sent = true → w.Delivered w.current)
  | .done (.ok md) => (∀ i < w.upload.chunks.length, w.Delivered i) ∧ w.upload.uploader.getMetadata = .ok md
  | .done (.error _) => True

end World

section Steps
variable {A : Aead} {sha1 : Bytes → Key} {me : NodeInfo} {w w' : World}

theorem World.Delivered.step {i : Nat} (h : w.Delivered i) (hstep : Step A sha1 me w w') : w'.Delivered i := by
  rcases hstep.cases with ⟨hstores, hevolves⟩ | ⟨n, port, chunk, data, io, now, hl, rfl⟩
  · rcases h with ⟨n, port, data, hl⟩ | ⟨call, hcall, hi⟩
    · exact .inl ⟨n, port, data, (hevolves n).received_kept port _ data hl⟩
    · exact .inr ⟨call, hstores ▸ hcall, hi⟩
  · rcases h with ⟨m, q, data', hm⟩ | ⟨call, hcall, hi⟩
    · by_cases hmn : m = n
      · subst hmn
        by_cases hq : q = port
        · subst hq
          -- the listener that held the chunk is the one being stored
          rw [hl, Option.some.injEq, Listener.mk.injEq] at hm
          exact .inr ⟨_, List.mem_cons_self, hm.1⟩
        · refine .inl ⟨m, q, data', ?_⟩
          change ((w.setPeer m ((w.peers m).save port data io now).2).peers m).listeners.lookup q = _
          rw [World.setPeer_peers_self]
          exact (AList.lookup_erase_ne hq).trans hm
      · refine .inl ⟨m, q, data', ?_⟩
        change ((w.setPeer n ((w.peers n).save port data io now).2).peers m).listeners.lookup q = _
        rw [World.setPeer_peers_of_ne hmn]
        exact hm
    · exact .inr ⟨call, List.mem_cons_of_mem _ hcall, hi⟩

theorem World.Busy.mono {chunk : Chunk} (h : w.Busy chunk) (hchunks : w'.upload.chunks = w.upload.chunks)
    (hdel : ∀ i, w.Delivered i → w'.Delivered i) : w'.Busy chunk := by
  have hcurrent : w'.current = w.current := by rw [World.current, hchunks, World.current]
  exact ⟨by rw [hcurrent, hchunks, h.last], fun i hi => hdel i (h.before i (hcurrent ▸ hi))⟩

theorem World.Progress.mono (h : w.Progress) (hupload : w'.upload = w.upload)
    (hdel : ∀ i, w.Delivered i → w'.Delivered i) : w'.Progress := by
  have hbusy : ∀ chunk, w.Busy chunk → w'.Busy chunk := fun chunk hb => hb.mono (by rw [hupload]) hdel
  have hcurrent : w'.current = w.current := by rw [World.current, hupload, World.current]
  unfold World.Progress at h ⊢
  rw [hupload, hcurrent]
  cases hphase : w.upload.phase with
  | reading =>
      rw [hphase] at h
      exact fun i hi => hdel i (h i hi)
  | asking chunk pending ready =>
      rw [hphase] at h
      exact hbusy chunk h
  | porting chunk pending ports =>
      rw [hphase] at h
      exact hbusy chunk h
  | sending chunk pending sent =>
      rw [hphase] at h
      exact ⟨hbusy chunk h.1, fun hsent => hdel _ (h.2 hsent)⟩
  | done result =>
      rw [hphase] at h
      cases result with
      | ok md => exact ⟨fun i hi => hdel i (h.1 i hi), h.2⟩
      | error => trivial

structure Stored (peers : NodeInfo → Peer) (stores : List StoreCall) (chunks : List Chunk) : Prop where
  holds : ∀ n, (peers n).Holds chunks
  sound : ∀ call ∈ stores, call.Sound chunks (peers call.node)

theorem Stored.append {peers : NodeInfo → Peer} {stores : List StoreCall} {chunks : List Chunk}
    (h : Stored peers stores chunks) (c : Chunk) : Stored peers stores (chunks ++ [c]) :=
  ⟨fun n => (h.holds n).append c, fun call hcall => (h.sound call hcall).append c⟩

theorem Stored.setPeer {chunks : List Chunk} (h : Stored w.peers w.stores chunks) {n : NodeInfo} {p : Peer}
    (he : (w.peers n).Evolves p)
    (hnew : ∀ port l, p.listeners.lookup port = some l →
      (w.peers n).listeners.lookup port = some l ∨ l.Fits chunks p.storage.dataTransfersTable port) :
    Stored (w.setPeer n p).peers w.stores chunks :=
  ⟨World.setPeer_forall ((h.holds n).evolves he hnew) h.holds,
    fun call hcall => (h.sound call hcall).evolves (World.setPeer_evolves he call.node)⟩

theorem Stored.save {chunks : List Chunk} (h : Stored w.peers w.stores chunks) {n : NodeInfo} {port : UInt16}
    {chunk : Option Nat} {data : Bytes} (io : StoreIo) (now : Nat)
    (hl : (w.peers n).listeners.lookup port = some ⟨chunk, some data⟩) :
    Stored (w.setPeer n ((w.peers n).save port data io now).2).peers
      (⟨n, chunk, (w.peers n).storage, data, port, io, now⟩ :: w.stores) chunks := by
  refine ⟨World.setPeer_forall ((h.holds n).save port data io now) h.holds, fun call hmem => ?_⟩
  rcases List.mem_cons.mp hmem with rfl | hcall
  · rw [World.setPeer_peers_self]
    exact StoreCall.sound_of_save (h.holds n) hl n io now
  · by_cases hn : call.node = n
    · subst hn
      rw [World.setPeer_peers_self]
      exact (h.sound call hcall).save port data io now
    · rw [World.setPeer_peers_of_ne hn]
      exact h.sound call hcall

theorem Listener.fits_untagged (chunks : List Chunk) (table : DataTransfersTable) (port : UInt16)
    (received : Option Bytes) : (Listener.mk none received).Fits chunks table port := nofun

theorem Stored.peerStep {chunks : List Chunk} (h : Stored w.peers w.stores chunks) (hstep : PeerStep w w') :
    Stored w'.peers w'.stores chunks := by
  cases hstep with
  | request n request env hfree =>
      obtain ⟨he, hnew⟩ := (w.peers n).handle_spec request env none fun _ _ => hfree
      refine h.setPeer he fun port l hl => (hnew port l hl).imp_right ?_
      rintro ⟨rfl, -⟩
      exact Listener.fits_untagged _ _ _ _
  | transfer n port data hl =>
      obtain ⟨he, hnew⟩ := Peer.receive_spec data hl
      refine h.setPeer he fun q l hq => (hnew q l hq).imp_right ?_
      rintro ⟨-, rfl⟩
      exact Listener.fits_untagged _ _ _ _
  | giveUp n port chunk hl =>
      obtain ⟨he, hnew⟩ := Peer.close_spec hl
      exact h.setPeer he fun q l hq => .inl (hnew q l hq)
  | save n port chunk data io now hl => exact h.save io now hl
  | write n hash count =>
      exact h.setPeer ((w.peers n).continueWrite_evolves hash count) fun q l hq => .inl hq

/-- The blocks of the file cut so far, their chunks and what is left to read. -/
structure Cut (A : Aead) (sha1 : Bytes → Key) (name : Text) (content key : Bytes) (uploader : FileUploader)
    (chunks : List Chunk) (blocks : List Block) : Prop where
  seals : List.Forall₂ (Seals A sha1 key) blocks chunks
  content_eq : (blocks.map Block.read).flatten ++ uploader.remaining = content
  metadata_eq : uploader.fileMetadata = ⟨name, key, blocks.map (Block.chunkMetadata sha1)⟩
  key_eq : uploader.encryptionKey = key

theorem Cut.next {name : Text} {content key : Bytes} {up up' : FileUploader} {chunks : List Chunk}
    {blocks : List Block} (hA : A.Lawful) (hlen : key.length = 32)
    (h : Cut A sha1 name content key up chunks blocks) {draw : Draw} {outcome : Outcome _ _}
    (hcall : up.getNextChunkEncrypt A sha1 draw = (outcome, up')) :
    outcome = .ok none ∧ up' = up ∨
    ∃ chunk b, outcome = .ok (some chunk) ∧
      Cut A sha1 name content key up' (chunks ++ [chunk]) (blocks ++ [b]) := by
  by_cases hrest : up.remaining = []
  · rw [FileUploader.getNextChunkEncrypt_nil draw hrest, Prod.mk.injEq] at hcall
    exact .inl ⟨hcall.1.symm, hcall.2.symm⟩
  · obtain ⟨chunk, hseal, hcut⟩ := FileUploader.getNextChunkEncrypt_cut sha1 hA draw hrest (h.key_eq ▸ hlen)
    rw [hcut, Prod.mk.injEq] at hcall
    obtain ⟨rfl, rfl⟩ := hcall
    refine .inr ⟨chunk, draw.cut hrest, rfl, ⟨?_, ?_, ?_, h.key_eq⟩⟩
    · exact List.rel_append h.seals (.cons (h.key_eq ▸ hseal) .nil)
    · rw [List.map_append, List.flatten_append, List.append_assoc, ← h.content_eq]
      simp only [List.map_cons, List.map_nil, List.flatten_cons, List.flatten_nil, List.append_nil]
      exact congrArg _ (List.take_append_drop _ _)
    · simp only [h.metadata_eq, List.map_append, List.map_cons, List.map_nil]

structure UploadInv (A : Aead) (sha1 : Bytes → Key) (name : Text) (content key : Bytes) (w : World) : Prop where
  stored : Stored w.peers w.stores w.upload.chunks
  cut : ∃ blocks, Cut A sha1 name content key w.upload.uploader w.upload.chunks blocks
  progress : w.Progress

theorem UploadInv.uploadStep {name : Text} {content key : Bytes} (hA : A.Lawful) (hlen : key.length = 32)
    (h : UploadInv A sha1 name content key w) (hstep : UploadStep A sha1 me w w') :
    UploadInv A sha1 name content key w' := by
  have hdel : ∀ i, w.Delivered i → w'.Delivered i := fun i hi => hi.step (.inl hstep)
  obtain ⟨hstored, ⟨blocks, hcut⟩, hprogress⟩ := h
  unfold World.Progress at hprogress
  cases hstep with
  | @cut draw chunk uploader found hphase hcall =>
      rw [hphase] at hprogress
      rcases hcut.next hA hlen hcall with ⟨hnone, -⟩ | ⟨chunk', b, hsome, hnext⟩
      · cases hnone
      · cases hsome
        refine ⟨hstored.append chunk, ⟨_, hnext⟩, ⟨?_, fun i hi => hdel i (hprogress i ?_)⟩⟩
        · simp [World.current]
        · simpa [World.current] using hi
  | cutFails _ hcall | cutPanics _ hcall =>
      rcases hcut.next hA hlen hcall with ⟨hnone, -⟩ | ⟨chunk', b, hsome, hnext⟩
      · cases hnone
      · cases hsome
  | @lookupFails draw chunk uploader hphase hcall =>
      rcases hcut.next hA hlen hcall with ⟨hnone, -⟩ | ⟨chunk', b, hsome, hnext⟩
      · cases hnone
      · cases hsome
        exact ⟨hstored.append chunk, ⟨_, hnext⟩, trivial⟩
  | @finish draw uploader hphase hcall =>
      rw [hphase] at hprogress
      rcases hcut.next hA hlen hcall with ⟨-, rfl⟩ | ⟨chunk', b, hsome, hnext⟩
      · refine ⟨hstored, ⟨blocks, hcut⟩, ?_⟩
        unfold World.Progress
        dsimp only
        cases hmd : w.upload.uploader.getMetadata with
        | error => trivial
        | ok md => exact ⟨fun i hi => hdel i (hprogress i hi), rfl⟩
      · cases hsome
  | @ask chunk pending ready n requestId env heard hphase hn =>
      rw [hphase] at hprogress
      obtain ⟨he, hnew⟩ := (w.peers n).handle_spec ⟨.store chunk.hash, me, n, requestId⟩ env none nofun
      refine ⟨hstored.setPeer he fun port l hl => (hnew port l hl).imp_right ?_, ⟨blocks, hcut⟩,
        hprogress.mono rfl hdel⟩
      rintro ⟨rfl, -⟩
      exact Listener.fits_untagged _ _ _ _
  | @port chunk pending ports r requestId env heard hphase hr hfree =>
      rw [hphase] at hprogress
      obtain ⟨he, hnew⟩ := Peer.handle_spec _ _ env (some w.current) fun _ _ => hfree
      refine ⟨hstored.setPeer he fun port l hl => (hnew port l hl).imp_right ?_, ⟨blocks, hcut⟩,
        hprogress.mono rfl hdel⟩
      rintro ⟨rfl, hash, htype, htransfer⟩ i ⟨⟩
      cases htype
      exact ⟨chunk, hprogress.last, congrArg (Option.map DataTransfer.chunkHash) htransfer, nofun⟩
  | @send chunk pending sent n port hphase hn hl =>
      rw [hphase] at hprogress
      obtain ⟨he, hnew⟩ := Peer.receive_spec chunk.data hl
      -- the transfer was entered with the listener, so it is for the chunk at work
      obtain ⟨c, hc, htransfer, -⟩ := (hstored.holds n).fits port _ hl w.current rfl
      rw [hprogress.1.last, Option.some.injEq] at hc
      refine ⟨hstored.setPeer he fun q l hq => (hnew q l hq).imp_right ?_, ⟨blocks, hcut⟩,
        hprogress.1.mono rfl hdel, fun _ => .inl ⟨n, port, chunk.data, ?_⟩⟩
      · rintro ⟨rfl, rfl⟩ i ⟨⟩
        exact ⟨chunk, hprogress.1.last, hc ▸ htransfer, fun d hd => (Option.some.inj hd).symm⟩
      · change ((w.setPeer n _).peers n).listeners.lookup port = _
        rw [World.setPeer_peers_self]
        exact AList.lookup_insert _
  | askLost hphase | choose hphase | portLost hphase =>
      rw [hphase] at hprogress
      exact ⟨hstored, ⟨blocks, hcut⟩, hprogress.mono rfl hdel⟩
  | askedNobody | noPorts | sentNobody => exact ⟨hstored, ⟨blocks, hcut⟩, trivial⟩
  | connect hphase _ =>
      rw [hphase] at hprogress
      exact ⟨hstored, ⟨blocks, hcut⟩, hprogress.mono rfl hdel, nofun⟩
  | sendFails hphase _ =>
      rw [hphase] at hprogress
      exact ⟨hstored, ⟨blocks, hcut⟩, hprogress.1.mono rfl hdel, fun hsent => hdel _ (hprogress.2 hsent)⟩
  | sent hphase =>
      rw [hphase] at hprogress
      refine ⟨hstored, ⟨blocks, hcut⟩, fun i hi => hdel i ?_⟩
      rcases Nat.lt_or_eq_of_le (Nat.le_sub_one_of_lt hi) with hlt | heq
      · exact hprogress.1.before i hlt
      · exact heq ▸ hprogress.2 rfl

theorem UploadInv.step {name : Text} {content key : Bytes} (hA : A.Lawful) (hlen : key.length = 32)
    (h : UploadInv A sha1 name content key w) (hstep : Step A sha1 me w w') :
    UploadInv A sha1 name content key w' := by
  rcases hstep with hup | hpeer
  · exact h.uploadStep hA hlen hup
  · have hupload : w'.upload = w.upload := by cases hpeer <;> rfl
    refine ⟨hupload ▸ h.stored.peerStep hpeer, hupload ▸ h.cut, h.progress.mono hupload fun i hi => ?_⟩
    exact hi.step (Or.inr hpeer : Step A sha1 me w w')

theorem UploadInv.runs {name : Text} {content key : Bytes} (hA : A.Lawful) (hlen : key.length = 32)
    (h : UploadInv A sha1 name content key w) (hrun : Runs A sha1 me w w') :
    UploadInv A sha1 name content key w' :=
  hrun.invariant (fun _ _ hinv hstep => hinv.step hA hlen hstep) h

namespace World

/-- `upload_file` begins: the file is open and nothing was read. The nodes are in any state;
`total_stored_kb` is 0 from the start and is never written. -/
structure Start (w : World) (name : Text) (content key : Bytes) : Prop where
  new_eq : FileUploader.new name content key = .ok w.upload.uploader
  length_key : key.length = 32
  phase_eq : w.upload.phase = .reading
  chunks_eq : w.upload.chunks = []
  stores_eq : w.stores = []
  untagged : ∀ n port l, (w.peers n).listeners.lookup port = some l → l.chunk = none
  total : ∀ n, (w.peers n).storage.totalStoredKb = 0

/-- Whatever the upload has transferred has been dealt with. -/
def Settled (w : World) : Prop :=
  ∀ n port i data, (w.peers n).listeners.lookup port ≠ some ⟨some i, some data⟩

/-- For every entry, some node has received the chunk in full and tried to store it. -/
def EveryChunkTransferred (w : World) (md : FileMetadata) : Prop :=
  ∀ i entry, md.chunksMetadata[i]? = some entry → ∃ chunk, w.upload.chunks[i]? = some chunk ∧
    chunk.hash = entry.hash ∧
    ∃ call ∈ w.stores, call.chunk = some i ∧ call.hash = some entry.hash ∧ call.data = chunk.data

/-- For every entry, some node has completed the store of the chunk, and owns it with exactly
the bytes of this upload, on disk or on their way there. -/
def EveryChunkStored (w : World) (md : FileMetadata) : Prop :=
  ∀ i entry, md.chunksMetadata[i]? = some entry → ∃ chunk, w.upload.chunks[i]? = some chunk ∧
    chunk.hash = entry.hash ∧
    ∃ call ∈ w.stores, call.chunk = some i ∧ call.result = .ok () ∧
      (w.peers call.node).storage.owns entry.hash ∧
      (w.peers call.node).storage.content entry.hash = some chunk.data

/-- For every entry, some node that received the chunk had room for another chunk, no file
of that name and a working disk when it came to store it. -/
def EveryChunkHadRoom (w : World) (md : FileMetadata) : Prop :=
  ∀ i entry, md.chunksMetadata[i]? = some entry → ∃ call ∈ w.stores, call.chunk = some i ∧
    call.before.ownedChunks.entries.length < maxShardsStored ∧
    call.before.files.lookup entry.hash = none ∧ call.io.Works call.data

theorem Start.inv {name : Text} {content key : Bytes} (h : w.Start name content key) :
    UploadInv A sha1 name content key w := by
  have hup : w.upload.uploader = ⟨content, ⟨name, key, []⟩, key⟩ := by
    have hnew := h.new_eq
    unfold FileUploader.new at hnew
    split_ifs at hnew
    exact (Except.ok.inj hnew).symm
  refine ⟨⟨fun n => ⟨h.total n, fun port l hl i hi => ?_⟩, ?_⟩, ⟨[], ?_⟩, ?_⟩
  · rw [h.untagged n port l hl] at hi
    cases hi
  · rw [h.stores_eq]
    exact nofun
  · rw [hup, h.chunks_eq]
    exact ⟨.nil, rfl, rfl, rfl⟩
  · unfold Progress
    rw [h.phase_eq, h.chunks_eq]
    exact nofun

end World

/-- A chunk of the upload passes the checks on sizes, so the rest decides. -/
theorem StoreCall.Sound.result_iff {chunks : List Chunk} {p : Peer} {call : StoreCall} {i : Nat} {c : Chunk}
    (h : call.Sound chunks p) (hi : call.chunk = some i) (hc : chunks[i]? = some c)
    (hlen : c.data.length = encryptedChunkSizeB) :
    call.hash = some c.hash ∧ call.data = c.data ∧
    (call.result = .ok () ↔ call.before.ownedChunks.entries.length < maxShardsStored ∧
      call.before.files.lookup c.hash = none ∧ (call.io.writeAll call.data).isSome) := by
  obtain ⟨c', hc', hhash, hdata⟩ := h.fits i hi
  obtain rfl : c = c' := Option.some.inj (hc.symm.trans hc')
  have hdata := hdata call.data rfl
  obtain ⟨transfer, ht, heq⟩ := Option.map_eq_some_iff.mp hhash
  refine ⟨hhash, hdata, (ShardStorageManager.storeChunkForKnownPeer_spec ht call.data call.io
    call.now).2.1.trans ?_⟩
  rw [heq]
  constructor
  · exact fun ha => ⟨ha.admits.room, ha.admits.free, ha.written⟩
  · rintro ⟨hroom, hfree, hio⟩
    refine ⟨⟨hroom, ?_, ?_, hfree⟩, hio⟩
    · rw [hdata, hlen]
    · rw [hdata, hlen, h.total]
      decide

theorem StoreCall.text_of_works {call : StoreCall} (h : call.io.Works call.data) : call.text = call.data := by
  obtain ⟨file, hwritten, hcontent⟩ := h
  rw [StoreCall.text, hwritten]
  exact hcontent

theorem StoreCall.works_of_text {call : StoreCall} (hwritten : (call.io.writeAll call.data).isSome)
    (htext : call.text = call.data) : call.io.Works call.data := by
  obtain ⟨file, hfile⟩ := Option.isSome_iff_exists.mp hwritten
  rw [StoreCall.text, hfile] at htext
  exact ⟨file, hfile, htext⟩

/-- A finished upload: its metadata and chunks are those of the blocks of the file. -/
theorem UploadInv.finished {name : Text} {content key : Bytes} {md : FileMetadata}
    (h : UploadInv A sha1 name content key w) (hdone : w.upload.phase = .done (.ok md)) :
    ∃ blocks, md = ⟨name, key, blocks.map (Block.chunkMetadata sha1)⟩ ∧
      List.Forall₂ (Seals A sha1 key) blocks w.upload.chunks ∧ (blocks.map Block.read).flatten = content ∧
      ∀ i < w.upload.chunks.length, w.Delivered i := by
  obtain ⟨-, ⟨blocks, hcut⟩, hprogress⟩ := h
  unfold World.Progress at hprogress
  rw [hdone] at hprogress
  obtain ⟨hdel, hmd⟩ := hprogress
  unfold FileUploader.getMetadata at hmd
  split_ifs at hmd with hrest
  refine ⟨blocks, ?_, hcut.seals, ?_, hdel⟩
  · rw [← Except.ok.inj hmd, hcut.metadata_eq]
  · rw [← hcut.content_eq, List.isEmpty_iff.mp hrest, List.append_nil]

theorem Seals.of_entry {key : Bytes} {blocks : List Block} {chunks : List Chunk} {i : Nat} {entry : ChunkMetadata}
    (h : List.Forall₂ (Seals A sha1 key) blocks chunks)
    (hentry : (blocks.map (Block.chunkMetadata sha1))[i]? = some entry) :
    ∃ b chunk, chunks[i]? = some chunk ∧ Seals A sha1 key b chunk ∧ entry = b.chunkMetadata sha1 := by
  rw [List.getElem?_map, Option.map_eq_some_iff] at hentry
  obtain ⟨b, hb, rfl⟩ := hentry
  obtain ⟨hlt, rfl⟩ := List.getElem?_eq_some_iff.mp hb
  have hlt' : i < chunks.length := h.length_eq ▸ hlt
  exact ⟨_, chunks[i], List.getElem?_eq_getElem hlt', h.get hlt hlt', rfl⟩

/-- An acknowledged upload has handed every chunk to some node, whatever else goes on. The
chunk is stored there if and only if, at the time of the store, one of the nodes it was
handed to had room, no file of that name and a working disk. -/
theorem upload_acknowledged_stored_iff (hA : A.Lawful) {w₀ w : World} {name : Text} {content key : Bytes}
    {md : FileMetadata} (hstart : w₀.Start name content key) (hrun : Runs A sha1 me w₀ w)
    (hdone : w.upload.phase = .done (.ok md)) (hsettled : w.Settled) :
    w.EveryChunkTransferred md ∧ (w.EveryChunkStored md ↔ w.EveryChunkHadRoom md) := by
  have hinv := hstart.inv.runs hA hstart.length_key hrun
  obtain ⟨blocks, rfl, hseals, -, hdel⟩ := hinv.finished hdone
  refine ⟨fun i entry hentry => ?_, fun h i entry hentry => ?_, fun h i entry hentry => ?_⟩
  · obtain ⟨b, chunk, hchunk, hseal, rfl⟩ := Seals.of_entry hseals hentry
    refine ⟨chunk, hchunk, hseal.hash_eq, ?_⟩
    rcases hdel i (List.getElem?_eq_some_iff.mp hchunk).1 with ⟨n, port, data, hl⟩ | ⟨call, hcall, hi⟩
    · exact absurd hl (hsettled n port i data)
    · obtain ⟨hhash, hdata, -⟩ := (hinv.stored.sound call hcall).result_iff hi hchunk (hseal.length_data hA)
      exact ⟨call, hcall, hi, hhash.trans (congrArg some hseal.hash_eq), hdata⟩
  · obtain ⟨b, chunk, hchunk, hseal, rfl⟩ := Seals.of_entry hseals hentry
    obtain ⟨chunk', hchunk', -, call, hcall, hi, hok, -, hcontent⟩ := h i _ hentry
    cases hchunk.symm.trans hchunk'
    obtain ⟨hhash, hdata, hiff⟩ :=
      (hinv.stored.sound call hcall).result_iff hi hchunk (hseal.length_data hA)
    rw [hseal.hash_eq] at hiff hhash
    obtain ⟨hroom, hfree, hwritten⟩ := hiff.mp hok
    have hkept := ((hinv.stored.sound call hcall).kept _ hhash hok).1
    have htext : call.text = call.data := (Option.some.inj (hkept.symm.trans hcontent)).trans hdata.symm
    exact ⟨call, hcall, hi, hroom, hfree, StoreCall.works_of_text hwritten htext⟩
  · obtain ⟨b, chunk, hchunk, hseal, rfl⟩ := Seals.of_entry hseals hentry
    obtain ⟨call, hcall, hi, hroom, hfree, hworks⟩ := h i _ hentry
    obtain ⟨hhash, hdata, hiff⟩ :=
      (hinv.stored.sound call hcall).result_iff hi hchunk (hseal.length_data hA)
    rw [hseal.hash_eq] at hiff hhash
    have hwritten : (call.io.writeAll call.data).isSome := by
      obtain ⟨file, hfile, -⟩ := hworks
      rw [hfile]
      rfl
    have hok := hiff.mpr ⟨hroom, hfree, hwritten⟩
    obtain ⟨hcontent, howns⟩ := (hinv.stored.sound call hcall).kept _ hhash hok
    rw [StoreCall.text_of_works hworks, hdata] at hcontent
    exact ⟨chunk, hchunk, hseal.hash_eq, call, hcall, hi, hok, howns, hcontent⟩

end Steps

namespace Peer

theorem handle_store {p : Peer} {me n : NodeInfo} {hash : Key} (hn : p.server.nodeInfo = n)
    (hnot : ¬ p.storage.owns hash) (requestId : RequestId) (env : HandlerEnv) (chunk : Option Nat) :
    p.handle ⟨.store hash, me, n, requestId⟩ env chunk = (some ⟨.storeOk, n, me, requestId⟩,
      ⟨p.server.recordPossibleNeighbour me env.ping, p.listeners⟩) := by
  subst hn
  have hnot' : (p.server.recordPossibleNeighbour me env.ping).shardStorageManager.isChunkAlreadyStored hash = false :=
    Bool.eq_false_iff.mpr hnot
  simp only [handle, Server.handleReceivedRequest, Server.handleStoreMessage, hnot']
  simp [Server.respond, Server.recordPossibleNeighbour]

theorem handle_getPort {p : Peer} {me n : NodeInfo} {env : HandlerEnv} {port : UInt16}
    (hn : p.server.nodeInfo = n) (henv : env.listener = some port)
    (hnone : p.storage.dataTransfersTable.lookup port = none) (hash : Key) (requestId : RequestId)
    (chunk : Option Nat) :
    p.handle ⟨.getPort hash, me, n, requestId⟩ env chunk = (some ⟨.portOk port, n, me, requestId⟩,
      ⟨{ p.server.recordPossibleNeighbour me env.ping with
          shardStorageManager := (p.storage.addActiveTcpConnection port me hash).2 },
        p.listeners.insert port ⟨chunk, none⟩⟩) := by
  subst hn
  have hnone' : p.server.shardStorageManager.dataTransfersTable.lookup port = none := hnone
  simp [handle, Server.handleReceivedRequest, Server.handleGetPortMessage, henv,
    ShardStorageManager.addActiveTcpConnection, DataTransfersTable.add, hnone', Server.respond,
    Server.recordPossibleNeighbour, storage]

end Peer

/-- Nodes with these stores and nothing under way, and an upload that begins. -/
def World.opening (storage : NodeInfo → ShardStorageManager) (uploader : FileUploader) : World :=
  ⟨fun n => ⟨⟨n, RoutingTable.new n.id 0, storage n⟩, ∅⟩, ⟨uploader, .reading, []⟩, []⟩

theorem World.opening_start {storage : NodeInfo → ShardStorageManager} {uploader : FileUploader} {name : Text}
    {content key : Bytes} (hnew : FileUploader.new name content key = .ok uploader) (hkey : key.length = 32)
    (htotal : ∀ n, (storage n).totalStoredKb = 0) : (World.opening storage uploader).Start name content key :=
  ⟨hnew, hkey, rfl, rfl, rfl, fun _ _ _ hl => (nomatch hl), htotal⟩

theorem storeOne_run (A : Aead) (sha1 : Bytes → Key) (me : NodeInfo) {n : NodeInfo} {w : World} {chunk : Chunk}
    {env : HandlerEnv} {port : UInt16} (hphase : w.upload.phase = .asking chunk [n] [])
    (hnode : (w.peers n).server.nodeInfo = n) (hnot : ¬ (w.peers n).storage.owns chunk.hash)
    (henv : env.listener = some port) (hfree : (w.peers n).listeners.lookup port = none)
    (hnone : (w.peers n).storage.dataTransfersTable.lookup port = none) (requestId : RequestId) (io : StoreIo)
    (now : Nat) :
    ∃ w', Runs A sha1 me w w' ∧ w'.upload = ⟨w.upload.uploader, .reading, w.upload.chunks⟩ ∧
      w'.stores = ⟨n, some w.current, ((w.peers n).storage.addActiveTcpConnection port me chunk.hash).2, chunk.data,
        port, io, now⟩ :: w.stores ∧
      (∀ m, m ≠ n → w'.peers m = w.peers m) ∧
      (∀ q, (w'.peers n).listeners.lookup q = (w.peers n).listeners.lookup q) ∧
      (w'.peers n).storage = (((w.peers n).storage.addActiveTcpConnection port me chunk.hash).2.storeChunkForKnownPeer
        chunk.data port io now).2 := by
  let p₁ : Peer := ⟨(w.peers n).server.recordPossibleNeighbour me env.ping, (w.peers n).listeners⟩
  let p₂ : Peer := ⟨{ p₁.server.recordPossibleNeighbour me env.ping with
      shardStorageManager := (p₁.storage.addActiveTcpConnection port me chunk.hash).2 },
    p₁.listeners.insert port ⟨some w.current, none⟩⟩
  let p₃ : Peer := p₂.receive port (some w.current) chunk.data
  let w₁ := (w.setPeer n p₁).setPhase (.asking chunk [] [⟨.storeOk, n, me, requestId⟩])
  let w₂ := w₁.setPhase (.porting chunk [⟨.storeOk, n, me, requestId⟩] [])
  let w₃ := (w₂.setPeer n p₂).setPhase (.porting chunk [] [(n, port)])
  let w₄ := w₃.setPhase (.sending chunk [(n, port)] false)
  let w₅ := (w₄.setPeer n p₃).setPhase (.sending chunk [] true)
  let w₆ := w₅.setPhase .reading
  have hp₁ : w₂.peers n = p₁ := World.setPeer_peers_self w n p₁
  have hp₂ : w₄.peers n = p₂ := World.setPeer_peers_self w₂ n p₂
  have hp₃ : w₆.peers n = p₃ := World.setPeer_peers_self w₄ n p₃
  have hask : UploadStep A sha1 me w w₁ := by
    have h : UploadStep A sha1 me w _ := .ask requestId env true hphase (List.mem_singleton_self n)
    rwa [World.handleStore, Peer.handle_store hnode hnot, List.erase_cons_head] at h
  have hchoose : UploadStep A sha1 me w₁ w₂ := by
    have h : UploadStep A sha1 me w₁ _ := .choose rfl (List.cons_ne_nil _ _) (.refl _)
    exact h
  have hport : UploadStep A sha1 me w₂ w₃ := by
    have h : UploadStep A sha1 me w₂ _ := .port requestId env true rfl (List.mem_singleton_self _) (by
      rintro q hq
      rw [henv] at hq
      cases hq
      rw [hp₁]
      exact hfree)
    have hhandle : p₁.handle ⟨.getPort chunk.hash, me, n, requestId⟩ env (some w₂.current) = _ :=
      Peer.handle_getPort (p := p₁) hnode henv hnone _ _ _
    rwa [World.handleGetPort, hp₁, hhandle, List.erase_cons_head] at h
  have hsend : UploadStep A sha1 me w₄ w₅ := by
    have h : UploadStep A sha1 me w₄ _ := .send rfl (List.mem_singleton_self (n, port)) (by
      rw [hp₂]
      exact AList.lookup_insert _)
    rwa [hp₂, List.erase_cons_head] at h
  have hsave : PeerStep w₆ _ := .save n port (some w.current) chunk.data io now (by
    rw [hp₃]
    exact AList.lookup_insert _)
  refine ⟨_, .tail (.tail (.tail (.tail (.tail (.tail (.single (.inl hask)) (.inl hchoose)) (.inl hport))
    (.inl (.connect rfl (List.cons_ne_nil _ _)))) (.inl hsend)) (.inl (.sent rfl))) (.inr hsave), rfl, ?_,
    fun m hm => ?_, fun q => ?_, ?_⟩
  · rw [hp₃]
    rfl
  · exact ((((w₆.setPeer_peers_of_ne hm _).trans (w₄.setPeer_peers_of_ne hm p₃)).trans
      (w₂.setPeer_peers_of_ne hm p₂))).trans (w.setPeer_peers_of_ne hm p₁)
  · change ((w₆.setPeer n ((w₆.peers n).save port chunk.data io now).2).peers n).listeners.lookup q = _
    rw [World.setPeer_peers_self, hp₃]
    change (((((w.peers n).listeners.insert port _).insert port _).erase port).lookup q) = _
    by_cases hq : q = port
    · rw [hq, AList.lookup_erase, hfree]
    · rw [AList.lookup_erase_ne hq, AList.lookup_insert_ne hq, AList.lookup_insert_ne hq]
  · change ((w₆.setPeer n ((w₆.peers n).save port chunk.data io now).2).peers n).storage = _
    rw [World.setPeer_peers_self, hp₃]
    rfl

/-- A file of one block is uploaded to one node, which then tries to store it. -/
theorem oneChunk_run {A : Aead} (hA : A.Lawful) (sha1 : Bytes → Key) (me n : NodeInfo)
    (storage : NodeInfo → ShardStorageManager) (name : Text) {content key : Bytes} (draw : Draw)
    (hrest : content ≠ []) (hdraw : content.length ≤ draw.size) (hkey : key.length = 32)
    (requestId : RequestId) {env : HandlerEnv} {port : UInt16} (henv : env.listener = some port)
    (hnone : (storage n).dataTransfersTable.lookup port = none)
    (hnot : ¬ (storage n).owns (sha1 (draw.cut hrest).padded)) (io : StoreIo) (now : Nat) :
    ∃ chunk w, Seals A sha1 key (draw.cut hrest) chunk ∧
      Runs A sha1 me (.opening storage ⟨content, ⟨name, key, []⟩, key⟩) w ∧
      w.upload.phase = .done (.ok ⟨name, key, [(draw.cut hrest).chunkMetadata sha1]⟩) ∧
      w.Settled ∧ w.upload.chunks = [chunk] ∧
      w.stores = [⟨n, some 0, ((storage n).addActiveTcpConnection port me chunk.hash).2, chunk.data, port, io, now⟩] ∧
      (∀ m, m ≠ n → (w.peers m).storage = storage m) ∧
      (w.peers n).storage = (((storage n).addActiveTcpConnection port me chunk.hash).2.storeChunkForKnownPeer
        chunk.data port io now).2 := by
  let up : FileUploader := ⟨content, ⟨name, key, []⟩, key⟩
  let rest : FileUploader := ⟨content.drop draw.size, ⟨name, key, [(draw.cut hrest).chunkMetadata sha1]⟩, key⟩
  have hremaining : up.remaining ≠ [] := hrest
  obtain ⟨chunk, hseal, hcall⟩ := FileUploader.getNextChunkEncrypt_cut sha1 hA draw hremaining hkey
  let w₁ : World := ⟨(World.opening storage up).peers, ⟨rest, .asking chunk [n] [], [chunk]⟩, []⟩
  have hcut : Step A sha1 me (.opening storage up) w₁ := .inl (.cut [n] rfl hcall)
  obtain ⟨w, hrun, hupload, hstores, hpeers, hlisteners, hstorage⟩ := storeOne_run A sha1 me (w := w₁) rfl rfl
    (hseal.hash_eq ▸ hnot) henv rfl hnone requestId io now
  have hend : w.upload.uploader.remaining = [] := by
    rw [hupload]
    exact List.drop_eq_nil_of_le hdraw
  have hfinish : Step A sha1 me w _ :=
    .inl (.finish (by rw [hupload]) (FileUploader.getNextChunkEncrypt_nil draw hend))
  have hmetadata : w.upload.uploader.getMetadata = .ok w.upload.uploader.fileMetadata := by
    rw [FileUploader.getMetadata, hend]
    rfl
  refine ⟨chunk, _, hseal, .tail (.trans (.single hcut) hrun) hfinish, ?_, ?_, ?_, hstores, fun m hm => ?_, hstorage⟩
  · change UploadPhase.done _ = _
    rw [hmetadata, hupload]
    rfl
  · intro m port i data hl
    by_cases hm : m = n
    · rw [hm] at hl
      exact nomatch (hlisteners port).symm.trans hl
    · rw [show _ = _ from hpeers m hm] at hl
      exact nomatch hl
  · change w.upload.chunks = _
    rw [hupload]
  · exact congrArg Peer.storage (hpeers m hm)

def sampleKey : Bytes := List.replicate 32 7

def sampleSha1 : Bytes → Key := fun _ => Key.ofTopByte 0 0

/-- A file of one byte is uploaded among nodes with these chunk files, all just started. -/
def sampleStart (files : AList fun _ : Key => Bytes) : World :=
  .opening (fun _ => .new files) ⟨[1], ⟨"f".toList, sampleKey, []⟩, sampleKey⟩

theorem sampleStart_start (files : AList fun _ : Key => Bytes) :
    (sampleStart files).Start "f".toList [1] sampleKey :=
  World.opening_start rfl (by decide) fun _ => rfl

theorem sampleStart_run (files : AList fun _ : Key => Bytes) :
    ∃ (chunk : Chunk) (nonce : Bytes) (w : World), chunk.hash = Key.ofTopByte 0 0 ∧
      Runs tagAead sampleSha1 (.local 1 4001) (sampleStart files) w ∧
      w.upload.phase = .done (.ok ⟨"f".toList, sampleKey, [⟨Key.ofTopByte 0 0, nonce⟩]⟩) ∧ w.Settled ∧
      w.stores = [⟨.local 2 4002, some 0,
        ((ShardStorageManager.new files).addActiveTcpConnection 5000 (.local 1 4001) chunk.hash).2, chunk.data, 5000,
        .ok, 0⟩] := by
  obtain ⟨chunk, w, hseal, hrun, hdone, hsettled, -, hstores, -⟩ := oneChunk_run tagAead_lawful sampleSha1
    (.local 1 4001) (.local 2 4002) (fun _ => .new files) "f".toList zeroDraw (List.cons_ne_nil 1 []) (by decide)
    (by decide : sampleKey.length = 32) ⟨List.replicate 16 0, rfl⟩
    (rfl : (⟨fun _ => .error .responseTimeout, 0, some 5000⟩ : HandlerEnv).listener = some 5000) rfl nofun .ok 0
  exact ⟨chunk, _, w, hseal.hash_eq, hrun, hdone, hsettled, hstores⟩

theorem upload_acknowledged_stored_fresh :
    ∃ w md, Runs tagAead sampleSha1 (.local 1 4001) (sampleStart ∅) w ∧ w.upload.phase = .done (.ok md) ∧
      w.EveryChunkTransferred md ∧ (w.EveryChunkStored md ↔ w.EveryChunkHadRoom md) ∧ w.EveryChunkHadRoom md := by
  obtain ⟨chunk, nonce, w, hhash, hrun, hdone, hsettled, hstores⟩ := sampleStart_run ∅
  obtain ⟨htransferred, hiff⟩ := upload_acknowledged_stored_iff tagAead_lawful (sampleStart_start ∅) hrun hdone hsettled
  refine ⟨w, _, hrun, hdone, htransferred, hiff, fun i entry hentry => ?_⟩
  cases i with
  | zero =>
      refine ⟨_, hstores ▸ List.mem_singleton_self _, rfl, ?_, rfl, StoreIo.works_ok _⟩
      exact (by decide : 0 < maxShardsStored)
  | succ i => cases hentry

/-- Nodes started again on directories that hold a file of that name: the upload is
acknowledged and the chunk is stored nowhere. -/
theorem upload_acknowledged_not_stored :
    ∃ w md, Runs tagAead sampleSha1 (.local 1 4001) (sampleStart (AList.singleton (Key.ofTopByte 0 0) [9])) w ∧
      (sampleStart (AList.singleton (Key.ofTopByte 0 0) [9])).Start "f".toList [1] sampleKey ∧
      w.upload.phase = .done (.ok md) ∧ w.Settled ∧ ¬ w.EveryChunkStored md := by
  obtain ⟨chunk, nonce, w, hhash, hrun, hdone, hsettled, hstores⟩ :=
    sampleStart_run (AList.singleton (Key.ofTopByte 0 0) [9])
  refine ⟨w, _, hrun, sampleStart_start _, hdone, hsettled, fun hall => ?_⟩
  obtain ⟨-, -, -, call, hcall, -, hok, -⟩ := hall 0 _ rfl
  rw [hstores, List.mem_singleton] at hcall
  rw [hcall] at hok
  have haccepts := (ShardStorageManager.storeChunkForKnownPeer_spec (AList.lookup_insert _) _ _ _).2.1.mp hok
  have hfree := haccepts.admits.free
  rw [hhash] at hfree
  exact nomatch hfree

end P2PFilesystem
