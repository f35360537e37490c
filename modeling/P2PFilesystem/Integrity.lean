import P2PFilesystem.RejectedChunks
import P2PFilesystem.Retrieval

/-!
# Downloads from storers that hold anything

A storer sends the file that it has under the name of a chunk, whatever that is, and the downloader
does not hash what it decrypts. What keeps foreign bytes out is the cipher: a text that was not
encrypted under the key of the upload and the nonce of the next entry does not open.
-/
namespace P2PFilesystem

/-- Nobody but the uploader encrypts under its key: what a node has on disk while a chunk is fetched, under
any name, opens with a nonce only if it is the text of a chunk that was encrypted with this nonce. -/
def Unforged (A : Aead) (md : FileMetadata) (chunks : List Chunk) (peers : Nat → NodeInfo → Peer) : Prop :=
  ∀ k n hash text nonce, (peers k n).storage.readChunk hash = .ok text →
    (A.decrypt md.encryptionKey nonce text).isSome →
    ∃ (i : Nat) (entry : ChunkMetadata) (chunk : Chunk), md.chunksMetadata[i]? = some entry ∧
      chunks[i]? = some chunk ∧ entry.nonce = nonce ∧ chunk.data = text

/-- For every chunk a storer is found that sends the text of the chunk. -/
def Delivers (peers : Nat → NodeInfo → Peer) (reader : NodeInfo) (fetch : Nat → Fetch)
    (findStorer : Nat → Key → Except DownloadError NodeInfo) (md : FileMetadata) (chunks : List Chunk) : Prop :=
  ∀ (i : Nat) (entry : ChunkMetadata) (chunk : Chunk), md.chunksMetadata[i]? = some entry →
    chunks[i]? = some chunk → ∃ storer, findStorer i entry.hash = .ok storer ∧
      downloadChunkFromStorer reader (peers i) (fetch i) entry.hash storer = .ok chunk.data

section Storers
variable {peers : NodeInfo → Peer} {reader : NodeInfo}

/-- Whoever sends something has it on disk. -/
theorem readChunk_of_downloadChunkFromStorer {f : Fetch} {hash : Key} {storer : NodeInfo} {text : Bytes}
    (h : downloadChunkFromStorer reader peers f hash storer = .ok text) :
    ∃ n, (peers n).storage.readChunk hash = .ok text := by
  unfold downloadChunkFromStorer at h
  by_cases hid : storer.id = reader.id
  · rw [if_pos hid] at h
    cases hok : (peers reader).storage.readChunk hash with
    | error e =>
        rw [hok] at h
        cases h
    | ok data =>
        rw [hok] at h
        cases h
        exact ⟨reader, hok⟩
  · rw [if_neg hid] at h
    unfold Server.handleReceivedRequest at h
    dsimp only at h
    by_cases hnode : storer.id ≠ (peers storer).server.nodeInfo.id
    · rw [if_pos hnode] at h
      cases h
    · rw [if_neg hnode] at h
      unfold Server.handleGetValue at h
      let asked := (peers storer).server.recordPossibleNeighbour reader f.env.ping
      cases hok : asked.shardStorageManager.readChunk hash with
      | error e =>
          rw [hok] at h
          cases h
      | ok data =>
          rw [hok] at h
          dsimp only at h
          split_ifs at h
          cases h
          exact ⟨storer, hok⟩

theorem findStorersParallel_eq_ok {findStorer : Nat → Key → Except DownloadError NodeInfo}
    {keys : List (Key × Nat)} {pairs : List (Key × NodeInfo)} : findStorersParallel findStorer keys = .ok pairs ↔
      List.Forall₂ (fun k p => p.1 = k.1 ∧ findStorer k.2 k.1 = .ok p.2) keys pairs := by
  induction keys generalizing pairs with
  | nil =>
      rw [List.forall₂_nil_left_iff]
      exact ⟨fun h => (Except.ok.inj h).symm, fun h => by rw [h]; rfl⟩
  | cons k keys ih =>
      obtain ⟨key, i⟩ := k
      rw [List.forall₂_cons_left_iff]
      constructor
      · intro h
        unfold findStorersParallel at h
        split at h
        · cases h
        next storer hstorer =>
          split at h
          · cases h
          next rest hrest =>
            cases h
            exact ⟨(key, storer), rest, ⟨rfl, hstorer⟩, ih.mp hrest, rfl⟩
      · rintro ⟨⟨_, storer⟩, rest, ⟨rfl, hstorer⟩, hrest, rfl⟩
        unfold findStorersParallel
        rw [hstorer, ih.mpr hrest]

/-- The pair of an entry holds the storer that was found for it. -/
theorem pair_of_findStorersParallel {findStorer : Nat → Key → Except DownloadError NodeInfo} {md : FileMetadata}
    {pairs : List (Key × NodeInfo)}
    (h : findStorersParallel findStorer (md.chunksMetadata.map ChunkMetadata.hash).zipIdx = .ok pairs) {i : Nat}
    {entry : ChunkMetadata} (hentry : md.chunksMetadata[i]? = some entry) :
    ∃ storer, findStorer i entry.hash = .ok storer ∧ pairs.zipIdx[i]? = some ((entry.hash, storer), i) := by
  have hall := findStorersParallel_eq_ok.mp h
  have hkey : (md.chunksMetadata.map ChunkMetadata.hash).zipIdx[i]? = some (entry.hash, i) := by
    rw [List.getElem?_zipIdx, List.getElem?_map, hentry, Option.map_some, Option.map_some, Nat.zero_add]
  obtain ⟨hlt, hget⟩ := List.getElem?_eq_some_iff.mp hkey
  have hlt' : i < pairs.length := hall.length_eq ▸ hlt
  obtain ⟨hhash, hfound⟩ := hall.get hlt hlt'
  rw [List.get_eq_getElem, List.get_eq_getElem, hget] at hhash hfound
  refine ⟨pairs[i].2, hfound, ?_⟩
  rw [List.getElem?_zipIdx, List.getElem?_eq_getElem hlt', Option.map_some, Nat.zero_add]
  exact congrArg (fun hash => some ((hash, pairs[i].2), i)) hhash

end Storers

/-- A handle and the chunks it was issued for, cut from these blocks, with a nonce for each. -/
structure Issued (A : Aead) (sha1 : Bytes → Key) (md : FileMetadata) (blocks : List Block) (chunks : List Chunk) :
    Prop where
  entries_eq : md.chunksMetadata = blocks.map (Block.chunkMetadata sha1)
  seals : List.Forall₂ (Seals A sha1 md.encryptionKey) blocks chunks
  length_key : md.encryptionKey.length = 32
  nodup_nonces : (md.chunksMetadata.map ChunkMetadata.nonce).Nodup

/-- The downloader has written the blocks of the entries it is past, and nothing else. -/
structure FileDownloader.Took (md : FileMetadata) (blocks : List Block) (down : FileDownloader) : Prop where
  metadata_eq : down.fileMetadata = md
  written_eq : down.written = ((blocks.take down.chunkIndex).map Block.read).flatten

theorem FileDownloader.Took.new (md : FileMetadata) (blocks : List Block) : Took md blocks (.new md) :=
  ⟨rfl, rfl⟩

theorem FileDownloader.Took.written_isPrefix {md : FileMetadata} {blocks : List Block} {down : FileDownloader}
    (h : down.Took md blocks) : down.written <+: (blocks.map Block.read).flatten := by
  rw [h.written_eq, ← List.take_append_drop down.chunkIndex (blocks.map Block.read), List.flatten_append,
    ← List.map_take]
  exact List.prefix_append _ _

namespace Issued
variable {A : Aead} {build : Build} {sha1 : Bytes → Key} {md : FileMetadata} {blocks : List Block} {chunks : List Chunk}
  {peers : Nat → NodeInfo → Peer} {reader : NodeInfo} {fetch : Nat → Fetch} {down : FileDownloader}

theorem entry (h : Issued A sha1 md blocks chunks) {k : Nat} {entry : ChunkMetadata}
    (hentry : md.chunksMetadata[k]? = some entry) :
    ∃ b chunk, blocks[k]? = some b ∧ chunks[k]? = some chunk ∧ Seals A sha1 md.encryptionKey b chunk ∧
      entry = b.chunkMetadata sha1 := by
  rw [h.entries_eq, List.getElem?_map, Option.map_eq_some_iff] at hentry
  obtain ⟨b, hb, rfl⟩ := hentry
  obtain ⟨hlt, rfl⟩ := List.getElem?_eq_some_iff.mp hb
  have hlt' : k < chunks.length := h.seals.length_eq ▸ hlt
  exact ⟨_, chunks[k], hb, List.getElem?_eq_getElem hlt', h.seals.get hlt hlt', rfl⟩

/-- What a node keeps opens for one entry at most, as the text of its chunk. -/
theorem data_eq (h : Issued A sha1 md blocks chunks) (hunforged : Unforged A md chunks peers) {j : Nat} {n : NodeInfo}
    {hash : Key} {text : Bytes} (htext : (peers j n).storage.readChunk hash = .ok text) {k : Nat}
    {entry : ChunkMetadata}
    (hentry : md.chunksMetadata[k]? = some entry) (hopens : (A.decrypt md.encryptionKey entry.nonce text).isSome)
    {chunk : Chunk} (hchunk : chunks[k]? = some chunk) : chunk.data = text := by
  obtain ⟨i, entry', chunk', hentry', hchunk', hnonce, hdata⟩ := hunforged j n hash text entry.nonce htext hopens
  have hki : k = i := by
    refine (List.getElem?_inj ?_ h.nodup_nonces).mp ?_
    · rw [List.length_map]
      exact (List.getElem?_eq_some_iff.mp hentry).1
    · rw [List.getElem?_map, List.getElem?_map, hentry, hentry', Option.map_some, Option.map_some, hnonce]
  subst hki
  rw [hchunk, Option.some.injEq] at hchunk'
  rw [hchunk', hdata]

/-- One call on what a node keeps: it is refused without a trace, or the next block is taken. -/
theorem took_step (h : Issued A sha1 md blocks chunks) (hA : A.Lawful) (hunforged : Unforged A md chunks peers)
    (hdown : down.Took md blocks) {j : Nat} {n : NodeInfo} {hash : Key} {text : Bytes}
    (htext : (peers j n).storage.readChunk hash = .ok text) :
    (∃ outcome, outcome ≠ .ok () ∧ down.storeNextChunkDecrypt A build ⟨text, hash⟩ = (outcome, down)) ∨
    ∃ chunk down', chunks[down.chunkIndex]? = some chunk ∧ chunk.data = text ∧ down'.Took md blocks ∧
      down'.chunkIndex = down.chunkIndex + 1 ∧ down.storeNextChunkDecrypt A build ⟨text, hash⟩ = (.ok (), down') := by
  obtain ⟨entry, payload, hopens, hlabel⟩ | ⟨outcome, hne, hcall, -⟩ :=
    down.storeNextChunkDecrypt_cases A build ⟨text, hash⟩
  · right
    obtain ⟨rfl, hwritten⟩ := hdown
    obtain ⟨b, chunk, hb, hchunk, hseal, rfl⟩ := h.entry hopens.entry_eq
    have hdata := h.data_eq hunforged htext hopens.entry_eq (by rw [hopens.decrypt_eq]; rfl) hchunk
    have hsame : chunk = ⟨text, hash⟩ := by
      rw [← hdata, show hash = chunk.hash from hlabel.trans hseal.hash_eq.symm]
    obtain ⟨hok, hmd, hindex, hstored, -⟩ := FileDownloader.storeNextChunkDecrypt_seals hA h.length_key hseal
      hopens.entry_eq
    rw [← hsame]
    refine ⟨chunk, _, hchunk, hdata, ⟨hmd, ?_⟩, hindex, Prod.ext hok rfl⟩
    rw [hstored, hindex, hwritten, List.take_add_one, hb, List.map_append, List.flatten_append]
    exact congrArg (_ ++ ·) (List.append_nil _).symm
  · exact .inl ⟨outcome, hne, hcall⟩

/-- Whatever the storers send, only blocks of the file are written, and to get to the end of the
pairs takes the texts of the chunks. -/
theorem took_storeChunks (h : Issued A sha1 md blocks chunks) (hA : A.Lawful) (hunforged : Unforged A md chunks peers)
    (pairs : List ((Key × NodeInfo) × Nat)) (hdown : down.Took md blocks) :
    (storeChunks A build peers reader fetch pairs down).2.Took md blocks ∧
    ((storeChunks A build peers reader fetch pairs down).1 = .ok () → ∀ k p, pairs[k]? = some p →
      ∃ chunk, chunks[down.chunkIndex + k]? = some chunk ∧
        downloadChunkFromStorer reader (peers p.2) (fetch p.2) p.1.1 p.1.2 = .ok chunk.data) := by
  induction pairs generalizing down with
  | nil =>
      refine ⟨hdown, fun _ k p hp => ?_⟩
      rw [List.getElem?_nil] at hp
      cases hp
  | cons p pairs ih =>
      obtain ⟨⟨hash, storer⟩, i⟩ := p
      unfold storeChunks
      cases hsent : downloadChunkFromStorer reader (peers i) (fetch i) hash storer with
      | error e =>
          refine ⟨hdown, fun hok => ?_⟩
          cases hok
      | ok text =>
          obtain ⟨n, htext⟩ := readChunk_of_downloadChunkFromStorer hsent
          obtain ⟨outcome, hne, hcall⟩ | ⟨chunk, down', hchunk, hdata, hdown', hindex, hcall⟩ :=
            h.took_step hA hunforged hdown htext
          · dsimp only
            rw [hcall]
            cases outcome with
            | ok => exact absurd rfl hne
            | err e =>
                refine ⟨hdown, fun hok => ?_⟩
                cases hok
            | panic =>
                refine ⟨hdown, fun hok => ?_⟩
                cases hok
          · dsimp only
            rw [hcall]
            obtain ⟨htook, hrest⟩ := ih hdown'
            refine ⟨htook, fun hok k p hp => ?_⟩
            cases k with
            | zero =>
                cases hp
                exact ⟨chunk, hchunk, hdata ▸ hsent⟩
            | succ k =>
                have hnext := hrest hok k p hp
                rwa [hindex, Nat.add_right_comm] at hnext

/-- Storers that send the texts of the chunks send the file. -/
theorem downloadFile_of_storers (h : Issued A sha1 md blocks chunks) (hA : A.Lawful)
    {findStorer : Nat → Key → Except DownloadError NodeInfo} {storers : Nat → NodeInfo}
    (hsent : ∀ (i : Nat) (entry : ChunkMetadata) (chunk : Chunk), md.chunksMetadata[i]? = some entry →
      chunks[i]? = some chunk → findStorer i entry.hash = .ok (storers i) ∧
        downloadChunkFromStorer reader (peers i) (fetch i) entry.hash (storers i) = .ok chunk.data) :
    downloadFile A build peers reader fetch findStorer md = .ok (blocks.map Block.read).flatten := by
  have hfound : findStorersParallel findStorer (md.chunksMetadata.map ChunkMetadata.hash).zipIdx =
      .ok (resolvedPairs md storers) := by
    apply findStorersParallel_eq_ok.mpr
    rw [resolvedPairs, List.forall₂_map_right_iff, List.forall₂_same]
    rintro ⟨hash, i⟩ hmem
    obtain ⟨hlt, hget⟩ := List.mem_zipIdx' hmem
    rw [List.length_map] at hlt
    have hentry := List.getElem?_eq_getElem hlt
    obtain ⟨b, chunk, -, hchunk, -⟩ := h.entry hentry
    rw [List.getElem_map] at hget
    exact ⟨rfl, hget ▸ (hsent i _ chunk hentry hchunk).1⟩
  have hfeed : List.Forall₂ (fun p c => p.1.1 = c.hash ∧
      downloadChunkFromStorer reader (peers p.2) (fetch p.2) p.1.1 p.1.2 = .ok c.data)
      (resolvedPairs md storers).zipIdx chunks := by
    have hlength : (resolvedPairs md storers).length = chunks.length := by
      rw [length_resolvedPairs, h.entries_eq, List.length_map, h.seals.length_eq]
    refine List.forall₂_of_length_eq_of_get (by rw [List.length_zipIdx, hlength]) fun i hi hi' => ?_
    have hentry := List.getElem?_eq_getElem (length_resolvedPairs md storers ▸ hlength ▸ hi')
    obtain ⟨b, chunk, -, hchunk, hseal, hissued⟩ := h.entry hentry
    have hpair := zipIdx_resolvedPairs md storers i
    rw [hentry, List.getElem?_eq_getElem hi, Option.map_some, Option.some.injEq] at hpair
    have hdata := (hsent i _ chunk hentry hchunk).2
    rw [List.getElem?_eq_getElem hi', Option.some.injEq] at hchunk
    rw [List.get_eq_getElem, List.get_eq_getElem, hpair, hchunk]
    refine ⟨?_, hdata⟩
    rw [hissued, hseal.hash_eq]
    rfl
  obtain ⟨hoks, hwritten, hbuffer⟩ := FileDownloader.storeAll_seals hA h.seals h.length_key (.new md) rfl
    h.entries_eq
  unfold downloadFile
  rw [hfound]
  dsimp only
  rw [storeChunks_eq_storeAll hfeed _ hoks]
  rw [FileDownloader.written, hbuffer (.inl rfl), List.append_nil] at hwritten
  exact congrArg Except.ok hwritten

theorem downloadFile_of_delivers (h : Issued A sha1 md blocks chunks) (hA : A.Lawful)
    {findStorer : Nat → Key → Except DownloadError NodeInfo}
    (hall : Delivers peers reader fetch findStorer md chunks) :
    downloadFile A build peers reader fetch findStorer md = .ok (blocks.map Block.read).flatten := by
  have hstorer : ∀ i : Nat, ∃ storer, ∀ (entry : ChunkMetadata) (chunk : Chunk),
      md.chunksMetadata[i]? = some entry → chunks[i]? = some chunk → findStorer i entry.hash = .ok storer ∧
        downloadChunkFromStorer reader (peers i) (fetch i) entry.hash storer = .ok chunk.data := by
    intro i
    cases hentry : md.chunksMetadata[i]? with
    | none => exact ⟨reader, nofun⟩
    | some entry =>
        obtain ⟨b, chunk, -, hchunk, -⟩ := h.entry hentry
        obtain ⟨storer, hboth⟩ := hall i entry chunk hentry hchunk
        refine ⟨storer, fun entry' chunk' hentry' hchunk' => ?_⟩
        cases hentry'
        rw [hchunk, Option.some.injEq] at hchunk'
        exact hchunk' ▸ hboth
  choose storers hstorers using hstorer
  exact h.downloadFile_of_storers hA hstorers

/-- A download ends well on nothing else than the texts of the chunks. -/
theorem delivers_of_downloadFile (h : Issued A sha1 md blocks chunks) (hA : A.Lawful)
    (hunforged : Unforged A md chunks peers) {findStorer : Nat → Key → Except DownloadError NodeInfo}
    {bytes : Bytes} (hok : downloadFile A build peers reader fetch findStorer md = .ok bytes) :
    Delivers peers reader fetch findStorer md chunks := by
  unfold downloadFile at hok
  split at hok
  · cases hok
  next pairs hpairs =>
    split at hok
    · cases hok
    next down hstored =>
      intro i entry chunk hentry hchunk
      obtain ⟨storer, hfound, hpair⟩ := pair_of_findStorersParallel hpairs hentry
      obtain ⟨chunk', hchunk', hsent⟩ := (h.took_storeChunks hA hunforged pairs.zipIdx (.new md blocks)).2
        (congrArg Prod.fst hstored) i _ hpair
      rw [show (FileDownloader.new md).chunkIndex + i = i from Nat.zero_add i, hchunk, Option.some.injEq] at hchunk'
      exact ⟨storer, hfound, hchunk' ▸ hsent⟩

theorem downloadFile_eq_ok (h : Issued A sha1 md blocks chunks) (hA : A.Lawful) (hunforged : Unforged A md chunks peers)
    {findStorer : Nat → Key → Except DownloadError NodeInfo} {bytes : Bytes} :
    downloadFile A build peers reader fetch findStorer md = .ok bytes ↔
      bytes = (blocks.map Block.read).flatten ∧ Delivers peers reader fetch findStorer md chunks := by
  constructor
  · intro hok
    have hall := h.delivers_of_downloadFile hA hunforged hok
    exact ⟨Except.ok.inj (hok.symm.trans (h.downloadFile_of_delivers hA hall)), hall⟩
  · rintro ⟨rfl, hall⟩
    exact h.downloadFile_of_delivers hA hall

end Issued

section Download
variable {A : Aead} {sha1 : Bytes → Key} {me : NodeInfo} {content : Bytes} {md : FileMetadata} {w₀ w : World}

/-- After an upload the network may keep whatever it likes and change it while chunks are fetched, short
of forgeries: a download writes nothing but the file from its beginning, and ends well exactly if for
every chunk a storer is found that sends the text that was uploaded. -/
theorem download_unforged (hA : A.Lawful) (build : Build) (hstart : w₀.Start md.name content md.encryptionKey)
    (hrun : Runs A sha1 me w₀ w) (hdone : w.upload.phase = .done (.ok md))
    (hnonces : (md.chunksMetadata.map ChunkMetadata.nonce).Nodup) (peers : Nat → NodeInfo → Peer)
    (hunforged : Unforged A md w.upload.chunks peers) (reader : NodeInfo) (fetch : Nat → Fetch) :
    (∀ storers, (storeChunks A build peers reader fetch storers (.new md)).2.written <+: content) ∧
    ∀ findStorer bytes, downloadFile A build peers reader fetch findStorer md = .ok bytes ↔
      bytes = content ∧ Delivers peers reader fetch findStorer md w.upload.chunks := by
  obtain ⟨blocks, hmd, hseals, rfl, -⟩ := (hstart.inv.runs hA hstart.length_key hrun).finished hdone
  have hissued : Issued A sha1 md blocks w.upload.chunks :=
    ⟨congrArg FileMetadata.chunksMetadata hmd, hseals, hstart.length_key, hnonces⟩
  refine ⟨fun storers => ?_, fun findStorer bytes => hissued.downloadFile_eq_ok hA hunforged⟩
  exact (hissued.took_storeChunks hA hunforged storers (.new md blocks)).1.written_isPrefix

end Download
/-- One node keeps this text under the name of a chunk, and everybody else something else. -/
def keeperNetwork (hash : Key) (text : Bytes) : NodeInfo → Peer :=
  (World.opening (fun n => .new (AList.insert hash (if n = .local 2 4002 then text else [9]) ∅))
    ⟨[], ⟨[], [], []⟩, []⟩).peers

theorem files_keeperNetwork (hash : Key) (text : Bytes) (n : NodeInfo) : (keeperNetwork hash text n).storage.files =
    ShardStorageManager.written (AList.insert hash (if n = .local 2 4002 then text else [9]) ∅) := rfl

theorem readChunk_keeperNetwork (hash : Key) (text : Bytes) (n : NodeInfo) :
    (keeperNetwork hash text n).storage.readChunk hash = .ok (if n = .local 2 4002 then text else [9]) := by
  rw [ShardStorageManager.readChunk, files_keeperNetwork, ShardStorageManager.lookup_written, AList.lookup_insert]
  rfl

theorem eq_of_readChunk_keeperNetwork {hash hash' : Key} {text text' : Bytes} {n : NodeInfo}
    (h : (keeperNetwork hash text n).storage.readChunk hash' = .ok text') : text' = text ∨ text' = [9] := by
  by_cases hhash : hash' = hash
  · rw [hhash, readChunk_keeperNetwork, Except.ok.injEq] at h
    split_ifs at h
    · exact .inl h.symm
    · exact .inr h.symm
  · rw [ShardStorageManager.readChunk, files_keeperNetwork, ShardStorageManager.lookup_written,
      AList.lookup_insert_ne hhash] at h
    cases h

/-- The text of the chunk opens with its own nonce only, and the other text never. -/
theorem keeperNetwork_unforged {chunk : Chunk}
    (hseal : Seals tagAead sampleSha1 sampleKey (zeroDraw.cut (List.cons_ne_nil 1 [])) chunk)
    {chunks : List Chunk} (hchunks : chunks = [chunk]) :
    Unforged tagAead sampleMetadata chunks (fun _ => keeperNetwork (Key.ofTopByte 0 0) chunk.data) := by
  intro _ n hash text nonce htext hopens
  have henc := hseal.encrypt_eq
  simp only [tagAead, Option.ite_none_right_eq_some, Option.some.injEq] at henc
  obtain ⟨-, hdata⟩ := henc
  simp only [tagAead, Option.isSome_ite] at hopens
  obtain ⟨hkey, hnonce, htag⟩ := hopens
  obtain rfl | rfl := eq_of_readChunk_keeperNetwork htext
  · refine ⟨0, _, chunk, rfl, by rw [hchunks]; rfl, ?_, rfl⟩
    have hlength : chunk.data.length - 16 = (zeroDraw.cut (List.cons_ne_nil 1 [])).payload.length := by
      rw [hseal.length_data tagAead_lawful, Block.length_payload]
      rfl
    rw [hlength, ← hdata, List.drop_left] at htag
    exact (List.append_inj htag rfl).2
  · have hlength := congrArg List.length htag
    rw [List.length_append, hnonce] at hlength
    cases hlength

/-- A file of one byte, read in a network where all nodes but one keep something else under the name of its chunk. -/
theorem download_unforged_keeper : ∃ (w : World) (peers : Nat → NodeInfo → Peer),
    Runs tagAead sampleSha1 (.local 1 4001) (sampleStart ∅) w ∧
    (∀ i n, n ≠ .local 2 4002 → (peers i n).storage.readChunk (Key.ofTopByte 0 0) = .ok [9]) ∧
    ∀ fetch,
      (∀ storers, (storeChunks tagAead .debug peers (.local 1 4001) fetch storers (.new sampleMetadata)).2.written <+: [1]) ∧
      ∀ findStorer bytes, downloadFile tagAead .debug peers (.local 1 4001) fetch findStorer sampleMetadata = .ok bytes ↔
        bytes = [1] ∧ Delivers peers (.local 1 4001) fetch findStorer sampleMetadata w.upload.chunks := by
  obtain ⟨chunk, w, hseal, hrun, hdone, -, hchunks, -, -, -⟩ := oneChunk_run tagAead_lawful sampleSha1
    (.local 1 4001) (.local 2 4002) (fun _ => .new ∅) "f".toList zeroDraw (List.cons_ne_nil 1 []) (by decide)
    (by decide : sampleKey.length = 32) ⟨List.replicate 16 0, rfl⟩
    (rfl : (⟨fun _ => .error .responseTimeout, 0, some 5000⟩ : HandlerEnv).listener = some 5000) rfl nofun .ok 0
  refine ⟨w, fun _ => keeperNetwork (Key.ofTopByte 0 0) chunk.data, hrun, fun _ n hn => ?_, fun fetch => ?_⟩
  · rw [readChunk_keeperNetwork, if_neg hn]
  · exact download_unforged tagAead_lawful .debug (sampleStart_start ∅) hrun hdone (by decide) _
      (keeperNetwork_unforged hseal hchunks) (.local 1 4001) fetch

end P2PFilesystem
