import P2PFilesystem.Download
import P2PFilesystem.HandleDownload

/-!
# What a downloaded block hashes to

The handle records the SHA-1 of every padded block. `store_next_chunk_decrypt` compares that
with the label of the chunk and does not hash what it decrypts, and `download_file` takes the
label from the handle.
-/
namespace P2PFilesystem

/-- The chunk decrypts as the next block of the handle, with a length that the build takes. -/
structure FileDownloader.Opens (A : Aead) (build : Build) (chunk : Chunk) (down : FileDownloader)
    (entry : ChunkMetadata) (payload : Bytes) : Prop where
  data_ne_nil : chunk.data ≠ []
  entry_eq : down.fileMetadata.chunksMetadata[down.chunkIndex]? = some entry
  length_key : down.fileMetadata.encryptionKey.length = 32
  length_nonce : entry.nonce.length = 12
  decrypt_eq : A.decrypt down.fileMetadata.encryptionKey entry.nonce chunk.data = some payload
  length_payload : build.Takes payload.length

namespace FileDownloader

section Call
variable (A : Aead) (build : Build) (sha1 : Bytes → Key) (chunk : Chunk) (self : FileDownloader)

/-- A call that stores writes the beginning of a block with the recorded hash. -/
def StoresAdvertised : Prop :=
  (self.storeNextChunkDecrypt A build chunk).1 = .ok () →
    ∃ entry payload, Opens A build chunk self entry payload ∧ sha1 (payload.take paddedSize) = entry.hash ∧
      ∃ n, (self.storeNextChunkDecrypt A build chunk).2.written = self.written ++ (payload.take paddedSize).take n

/-- If the chunk opens and bears the recorded hash, that is the hash of its block. -/
def LabelledByContent : Prop :=
  ∀ entry payload, Opens A build chunk self entry payload → chunk.hash = entry.hash →
    chunk.hash = sha1 (payload.take paddedSize)

end Call

/-- The handle has an entry at the index that records this label, and its key and nonce have the
lengths that AES-GCM takes. -/
def TakesLabel (self : FileDownloader) (label : Key) : Prop :=
  ∃ entry, self.fileMetadata.chunksMetadata[self.chunkIndex]? = some entry ∧
    self.fileMetadata.encryptionKey.length = 32 ∧ entry.nonce.length = 12 ∧ label = entry.hash

variable {A : Aead} {build : Build} {sha1 : Bytes → Key} {chunk : Chunk} {self : FileDownloader} {entry entry' : ChunkMetadata}
  {payload payload' : Bytes}

theorem Opens.unique (h : Opens A build chunk self entry payload) (h' : Opens A build chunk self entry' payload') :
    entry = entry' ∧ payload = payload' := by
  have hentry : entry = entry' := Option.some.inj (h.entry_eq.symm.trans h'.entry_eq)
  subst hentry
  exact ⟨rfl, Option.some.inj (h.decrypt_eq.symm.trans h'.decrypt_eq)⟩

theorem written_flush (w : FileWriter) : w.flush.file ++ w.flush.buffer = w.file ++ w.buffer :=
  List.append_nil _

/-- A chunk that opens and bears the recorded hash passes all checks. -/
theorem Opens.storeNextChunkDecrypt_eq (h : Opens A build chunk self entry payload) (hlabel : chunk.hash = entry.hash) :
    ∃ size, u32FromLeBytes ((payload.drop paddedSize).take u32SizeB) = some size ∧
      self.storeNextChunkDecrypt A build chunk = (.ok (), { self with
        fileWriter := if self.chunkIndex + 1 ≥ self.fileMetadata.chunksMetadata.length
          then (self.fileWriter.writeAll ((payload.take paddedSize).take size)).flush
          else self.fileWriter.writeAll ((payload.take paddedSize).take size)
        chunkIndex := self.chunkIndex + 1 }) := by
  have hdec := (decryptPayload_eq_ok h.length_key h.length_nonce).mpr h.decrypt_eq
  obtain ⟨size, hsize⟩ : ∃ size, u32FromLeBytes ((payload.drop paddedSize).take u32SizeB) = some size := by
    apply Option.ne_none_iff_exists'.mp
    exact (Build.takes_iff.mp h.length_payload).2
  exact ⟨size, hsize, FileDownloader.storeNextChunkDecrypt_eq h.data_ne_nil h.entry_eq hdec h.length_payload hsize hlabel⟩

/-- A chunk that opens and bears the recorded hash is stored. -/
theorem Opens.stored (h : Opens A build chunk self entry payload) (hlabel : chunk.hash = entry.hash) :
    (self.storeNextChunkDecrypt A build chunk).1 = .ok () ∧
    ∃ n, (self.storeNextChunkDecrypt A build chunk).2.written = self.written ++ (payload.take paddedSize).take n := by
  obtain ⟨size, -, hcall⟩ := h.storeNextChunkDecrypt_eq hlabel
  rw [hcall]
  refine ⟨rfl, size, ?_⟩
  unfold written
  dsimp only
  split_ifs
  · rw [written_flush, FileWriter.contents_writeAll]
  · exact FileWriter.contents_writeAll _ _

theorem decryptPayload_err {data key nonce : Bytes} {e : ShardingError} (h : decryptPayload A data key nonce = .err e) :
    e = .encryptionError := by
  unfold decryptPayload at h
  split_ifs at h
  cases hdec : A.decrypt key nonce data with
  | none =>
      rw [hdec] at h
      cases h
      rfl
  | some payload =>
      rw [hdec] at h
      cases h

/-- A call that does not store leaves the downloader as it is, and a mismatch is one of labels. -/
theorem storeNextChunkDecrypt_cases (A : Aead) (build : Build) (chunk : Chunk) (self : FileDownloader) :
    (∃ entry payload, Opens A build chunk self entry payload ∧ chunk.hash = entry.hash) ∨
    ∃ outcome, outcome ≠ .ok () ∧ self.storeNextChunkDecrypt A build chunk = (outcome, self) ∧
      (outcome = .err .chunkHashMismatch →
        ∃ entry, self.fileMetadata.chunksMetadata[self.chunkIndex]? = some entry ∧ chunk.hash ≠ entry.hash) := by
  unfold storeNextChunkDecrypt
  by_cases hnil : chunk.data.isEmpty = true
  · rw [if_pos hnil]
    exact .inr ⟨.err .emptyChunk, nofun, rfl, nofun⟩
  · rw [if_neg hnil]
    cases hentry : self.fileMetadata.chunksMetadata[self.chunkIndex]? with
    | none => exact .inr ⟨.err .unwantedChunk, nofun, rfl, nofun⟩
    | some entry =>
        dsimp only
        cases hdec : decryptPayload A chunk.data self.fileMetadata.encryptionKey entry.nonce with
        | panic => exact .inr ⟨.panic, nofun, rfl, nofun⟩
        | err e =>
            rw [decryptPayload_err hdec]
            exact .inr ⟨.err .encryptionError, nofun, rfl, nofun⟩
        | ok payload =>
            dsimp only
            by_cases hassert : build = .debug ∧ payload.length ≠ paddedSize + u32SizeB
            · rw [if_pos hassert]
              exact .inr ⟨.panic, nofun, rfl, nofun⟩
            · rw [if_neg hassert]
              cases hsize : u32FromLeBytes ((payload.drop paddedSize).take u32SizeB) with
              | none => exact .inr ⟨.panic, nofun, rfl, nofun⟩
              | some size =>
                  dsimp only
                  by_cases hlabel : chunk.hash = entry.hash
                  · left
                    have hlengths : self.fileMetadata.encryptionKey.length = 32 ∧ entry.nonce.length = 12 := by
                      by_contra hbad
                      rw [decryptPayload_eq_panic.mpr hbad] at hdec
                      cases hdec
                    have htakes : build.Takes payload.length := by
                      apply Build.takes_iff.mpr
                      exact ⟨hassert, Option.ne_none_iff_exists'.mpr ⟨size, hsize⟩⟩
                    refine ⟨entry, payload, ⟨?_, hentry, hlengths.1, hlengths.2, ?_, htakes⟩, hlabel⟩
                    · exact fun hdata => hnil (List.isEmpty_iff.mpr hdata)
                    · exact decrypt_of_decryptPayload hdec
                  · rw [if_pos hlabel]
                    exact .inr ⟨.err .chunkHashMismatch, nofun, rfl, fun _ => ⟨entry, rfl, hlabel⟩⟩

theorem storeNextChunkDecrypt_eq_ok : (self.storeNextChunkDecrypt A build chunk).1 = .ok () ↔
    ∃ entry payload, Opens A build chunk self entry payload ∧ chunk.hash = entry.hash := by
  constructor
  · intro hok
    obtain hopens | ⟨outcome, hne, hcall, -⟩ := storeNextChunkDecrypt_cases A build chunk self
    · exact hopens
    · rw [hcall] at hok
      exact absurd hok hne
  · rintro ⟨entry, payload, hopens, hlabel⟩
    exact (hopens.stored hlabel).1

/-- What is stored has the recorded hash exactly if a chunk that opens under that hash is labelled by content. -/
theorem storesAdvertised_iff_labelled :
    StoresAdvertised A build sha1 chunk self ↔ LabelledByContent A build sha1 chunk self := by
  constructor
  · intro h entry payload hopens hlabel
    obtain ⟨entry', payload', hopens', hhash, -⟩ := h (hopens.stored hlabel).1
    obtain ⟨rfl, rfl⟩ := hopens.unique hopens'
    rw [hhash, hlabel]
  · intro h hok
    obtain ⟨entry, payload, hopens, hlabel⟩ := storeNextChunkDecrypt_eq_ok.mp hok
    exact ⟨entry, payload, hopens, (h entry payload hopens hlabel).symm.trans hlabel, (hopens.stored hlabel).2⟩

/-- What the uploader seals for this place of the handle is labelled by content. -/
theorem labelledByContent_of_seals (hA : A.Lawful) {b : Block}
    (h : Seals A sha1 self.fileMetadata.encryptionKey b chunk)
    (hnext : self.fileMetadata.chunksMetadata[self.chunkIndex]? = some (b.chunkMetadata sha1)) :
    LabelledByContent A build sha1 chunk self := by
  intro entry payload hopens _
  have hentry : entry = b.chunkMetadata sha1 := Option.some.inj (hopens.entry_eq.symm.trans hnext)
  subst hentry
  have hpayload : payload = b.payload :=
    Option.some.inj (hopens.decrypt_eq.symm.trans (hA.decrypt_encrypt h.encrypt_eq))
  rw [hpayload, h.hash_eq, Block.payload, ← b.length_padded, List.take_left]

/-- Any block can be sealed for a label that is taken. -/
theorem TakesLabel.opens {label : Key} (h : self.TakesLabel label) (hA : A.Lawful) (build : Build) {block : Bytes}
    (hblock : block.length = paddedSize) :
    ∃ data entry payload, Opens A build ⟨data, label⟩ self entry payload ∧ label = entry.hash ∧
      payload.take paddedSize = block := by
  obtain ⟨entry, hentry, hkey, hnonce, hlabel⟩ := h
  have hlength : (block ++ u32ToLeBytes paddedSize).length = paddedSize + u32SizeB := by
    rw [List.length_append, hblock, length_u32ToLeBytes]
    rfl
  have hfits : (block ++ u32ToLeBytes paddedSize).length ≤ 2 ^ 36 := by
    rw [hlength]
    decide
  obtain ⟨data, hdata⟩ := Option.isSome_iff_exists.mp (hA.encrypt_isSome hkey hnonce hfits)
  have hnil : data ≠ [] := by
    intro hempty
    have hsealed := hA.length_encrypt hdata
    rw [hempty, List.length_nil] at hsealed
    exact absurd hsealed.symm (Nat.ne_of_gt (Nat.add_pos_right _ (by decide)))
  have htakes : build.Takes (block ++ u32ToLeBytes paddedSize).length := by
    rw [hlength]
    exact build.takes_exact
  refine ⟨data, entry, _, ⟨hnil, hentry, hkey, hnonce, hA.decrypt_encrypt hdata, htakes⟩, hlabel, ?_⟩
  exact List.take_left' hblock

/-- Whatever the storer sends, only data with the recorded hash is written: exactly if nothing under
this label is ever taken. Two padded blocks with different hashes are enough to tell. -/
theorem storesAdvertised_iff (hA : A.Lawful) (build : Build) {block block' : Bytes} (hblock : block.length = paddedSize)
    (hblock' : block'.length = paddedSize) (hsha1 : sha1 block ≠ sha1 block') (label : Key) (self : FileDownloader) :
    (∀ data, StoresAdvertised A build sha1 ⟨data, label⟩ self) ↔ ¬ self.TakesLabel label := by
  simp only [storesAdvertised_iff_labelled]
  constructor
  · intro hall htakes
    obtain ⟨data, entry, payload, hopens, hlabel, hpayload⟩ := htakes.opens hA build hblock
    obtain ⟨data', entry', payload', hopens', hlabel', hpayload'⟩ := htakes.opens hA build hblock'
    have hfirst : label = sha1 block := hpayload ▸ hall data entry payload hopens hlabel
    have hsecond : label = sha1 block' := hpayload' ▸ hall data' entry' payload' hopens' hlabel'
    exact hsha1 (hfirst.symm.trans hsecond)
  · intro hnever data entry payload hopens hlabel
    exact absurd ⟨entry, hopens.entry_eq, hopens.length_key, hopens.length_nonce, hlabel⟩ hnever

/-- A full block of sevens, with its length. -/
def sevensPayload : Bytes := List.replicate paddedSize 7 ++ u32ToLeBytes paddedSize

/-- `Key::from_input` on the block of sevens, and something on other inputs. -/
def sevensSha1 : Bytes → Key := fun input =>
  if input = List.replicate paddedSize 7 then
    ⟨⟨[0xf4, 0x03, 0x11, 0xd8, 0x6e, 0xfc, 0x31, 0x9d, 0xec, 0xcf, 0x32, 0x18, 0x17, 0x2c, 0x4f, 0xea,
      0x04, 0x0f, 0xb9, 0x4a], rfl⟩⟩
  else Key.ofTopByte 0 0

/-- A handle whose one recorded hash is not that of the block. -/
def sevensMetadata : FileMetadata := ⟨"f".toList, sampleKey, [⟨Key.ofTopByte 1 0, zeroDraw.nonce⟩]⟩

/-- What a storer may send, labelled as `download_file` does it. -/
def sevensChunk : Chunk := ⟨sevensPayload ++ (sampleKey.take 4 ++ zeroDraw.nonce), Key.ofTopByte 1 0⟩

theorem sevensChunk_opens (build : Build) :
    Opens tagAead build sevensChunk (new sevensMetadata) ⟨Key.ofTopByte 1 0, zeroDraw.nonce⟩ sevensPayload := by
  have hlengths : sampleKey.length = 32 ∧ zeroDraw.nonce.length = 12 := by decide
  have hencrypt : tagAead.encrypt sampleKey zeroDraw.nonce sevensPayload = some sevensChunk.data := by
    simp only [tagAead, hlengths, and_self, if_true, sevensChunk]
  have hlength : sevensPayload.length = paddedSize + u32SizeB := by
    rw [sevensPayload, List.length_append, List.length_replicate, length_u32ToLeBytes]
    rfl
  have htakes : build.Takes sevensPayload.length := by
    rw [hlength]
    exact build.takes_exact
  refine ⟨fun hnil => ?_, rfl, rfl, rfl, tagAead_lawful.decrypt_encrypt hencrypt, htakes⟩
  have hdata := tagAead_lawful.length_encrypt hencrypt
  rw [hnil, List.length_nil] at hdata
  exact absurd hdata.symm (Nat.ne_of_gt (Nat.add_pos_right _ (by decide)))

/-- The block is stored under a hash that is not its own. -/
theorem sevensChunk_stored : FileMetadata.fromStr sevensMetadata.toString = .ok sevensMetadata ∧
    ¬ StoresAdvertised tagAead .debug sevensSha1 sevensChunk (new sevensMetadata) := by
  have hmemory : sevensMetadata.InMemory := ⟨by decide, by decide, by decide, by decide⟩
  refine ⟨hmemory.fromStr_toString, fun h => ?_⟩
  obtain ⟨entry, payload, hopens, hhash, -⟩ := h ((sevensChunk_opens .debug).stored rfl).1
  obtain ⟨rfl, rfl⟩ := hopens.unique (sevensChunk_opens .debug)
  have hblock : sevensPayload.take paddedSize = List.replicate paddedSize 7 :=
    List.take_left' List.length_replicate
  rw [hblock, sevensSha1, if_pos rfl] at hhash
  exact absurd hhash (by decide)

/-- The recorded hash is a label that is taken, another is not. -/
theorem storesAdvertised_sevens :
    ¬ (∀ data, StoresAdvertised tagAead .debug sevensSha1 ⟨data, Key.ofTopByte 1 0⟩ (new sevensMetadata)) ∧
    ∀ data, StoresAdvertised tagAead .debug sevensSha1 ⟨data, Key.ofTopByte 2 0⟩ (new sevensMetadata) := by
  have hzeros : List.replicate paddedSize (0 : UInt8) ≠ List.replicate paddedSize 7 := by
    intro heq
    have hzero : (0 : UInt8) ∈ List.replicate paddedSize 7 := by
      rw [← heq]
      exact List.mem_replicate.mpr ⟨by decide, rfl⟩
    exact absurd (List.eq_of_mem_replicate hzero) (by decide)
  have hsha1 : sevensSha1 (List.replicate paddedSize 7) ≠ sevensSha1 (List.replicate paddedSize 0) := by
    unfold sevensSha1
    rw [if_pos rfl, if_neg hzeros]
    decide
  constructor
  · rw [storesAdvertised_iff tagAead_lawful .debug List.length_replicate List.length_replicate hsha1, not_not]
    exact ⟨_, rfl, rfl, rfl, rfl⟩
  · rw [storesAdvertised_iff tagAead_lawful .debug List.length_replicate List.length_replicate hsha1]
    rintro ⟨entry, hentry, -, -, hlabel⟩
    cases hentry
    exact absurd hlabel (by decide)

/-- A piece of the output file that begins a padded block with a recorded hash. -/
def Advertised (sha1 : Bytes → Key) (md : FileMetadata) (piece : Bytes) : Prop :=
  ∃ entry ∈ md.chunksMetadata, ∃ block, block.length = paddedSize ∧ sha1 block = entry.hash ∧ piece <+: block

theorem LabelledByContent.piece (h : LabelledByContent A build sha1 chunk self) :
    ∃ piece, (self.storeNextChunkDecrypt A build chunk).2.written = self.written ++ piece ∧
      (piece = [] ∨ Advertised sha1 self.fileMetadata piece) := by
  obtain ⟨entry, payload, hopens, hlabel⟩ | ⟨outcome, -, hcall, -⟩ := storeNextChunkDecrypt_cases A build chunk self
  · obtain ⟨n, hwritten⟩ := (hopens.stored hlabel).2
    refine ⟨_, hwritten, .inr ⟨entry, List.mem_of_getElem? hopens.entry_eq, payload.take paddedSize, ?_, ?_, ?_⟩⟩
    · rw [List.length_take]
      exact Nat.min_eq_left (Nat.le_of_add_right_le hopens.length_payload.le)
    · rw [← h entry payload hopens hlabel, hlabel]
    · exact List.take_prefix n _
  · refine ⟨[], ?_, .inl rfl⟩
    rw [hcall, List.append_nil]

/-- Chunks that are labelled by content where they are taken leave only advertised pieces in the file. -/
theorem storeAll_advertised {chunks : List Chunk}
    (h : ∀ before c after, chunks = before ++ c :: after → LabelledByContent A build sha1 c (self.storeAll A build before).2) :
    ∃ pieces : List Bytes, (self.storeAll A build chunks).2.written = self.written ++ pieces.flatten ∧
      ∀ piece ∈ pieces, Advertised sha1 self.fileMetadata piece := by
  induction chunks generalizing self with
  | nil => exact ⟨[], (List.append_nil _).symm, nofun⟩
  | cons chunk chunks ih =>
      have hfirst : LabelledByContent A build sha1 chunk self := h [] chunk chunks rfl
      obtain ⟨piece, hwritten, hpiece⟩ := hfirst.piece
      have hlater : ∀ before c after, chunks = before ++ c :: after →
          LabelledByContent A build sha1 c ((self.storeNextChunkDecrypt A build chunk).2.storeAll A build before).2 :=
        fun before c after hc => h (chunk :: before) c after (by rw [hc]; rfl)
      obtain ⟨pieces, hrest, hpieces⟩ := ih hlater
      rw [fileMetadata_storeNextChunkDecrypt] at hpieces
      have hafter : (self.storeAll A build (chunk :: chunks)).2.written = self.written ++ (piece ++ pieces.flatten) := by
        rw [← List.append_assoc, ← hwritten, ← hrest]
        rfl
      cases hpiece with
      | inl hnone => exact ⟨pieces, by rw [hafter, hnone, List.nil_append], hpieces⟩
      | inr hadvertised =>
          refine ⟨piece :: pieces, hafter, fun p hp => ?_⟩
          cases List.mem_cons.mp hp with
          | inl heq => exact heq ▸ hadvertised
          | inr hlater => exact hpieces p hlater

theorem storeNextChunkDecrypt_mismatch (h : (self.storeNextChunkDecrypt A build chunk).1 = .err .chunkHashMismatch) :
    ∃ entry, self.fileMetadata.chunksMetadata[self.chunkIndex]? = some entry ∧ chunk.hash ≠ entry.hash := by
  obtain ⟨entry, payload, hopens, hlabel⟩ | ⟨outcome, -, hcall, hmismatch⟩ := storeNextChunkDecrypt_cases A build chunk self
  · rw [(hopens.stored hlabel).1] at h
    cases h
  · rw [hcall] at h
    exact hmismatch h

end FileDownloader

section Download
variable {A : Aead} {build : Build} {peers : Nat → NodeInfo → Peer} {me : NodeInfo} {fetch : Nat → Fetch}

theorem findStorersParallel_keys {findStorer : Nat → Key → Except DownloadError NodeInfo} {keys : List (Key × Nat)}
    {pairs : List (Key × NodeInfo)} (h : findStorersParallel findStorer keys = .ok pairs) :
    pairs.map Prod.fst = keys.map Prod.fst := by
  induction keys generalizing pairs with
  | nil =>
      cases h
      rfl
  | cons k rest ih =>
      obtain ⟨key, i⟩ := k
      unfold findStorersParallel at h
      cases hfind : findStorer i key with
      | error e =>
          rw [hfind] at h
          cases h
      | ok storer =>
          rw [hfind] at h
          cases hrest : findStorersParallel findStorer rest with
          | error e =>
              rw [hrest] at h
              cases h
          | ok found =>
              rw [hrest] at h
              cases h
              rw [List.map_cons, List.map_cons, ih hrest]

theorem downloadChunkFromStorer_ne_sharding {peers : NodeInfo → Peer} {f : Fetch} {chunkId : Key}
    {chunkStorer : NodeInfo} {e : ShardingError} :
    downloadChunkFromStorer me peers f chunkId chunkStorer ≠ .error (.sharding e) := by
  unfold downloadChunkFromStorer
  split_ifs
  · split <;> exact nofun
  · dsimp only
    split
    · split_ifs <;> exact nofun
    · exact nofun

/-- What is left of a list begins with its next element. -/
theorem next_of_map_drop {α β : Type*} {f : α → β} {l : List α} {i : Nat} {b : β} {rest : List β}
    (h : b :: rest = (l.drop i).map f) : ∃ a, l[i]? = some a ∧ b = f a ∧ rest = (l.drop (i + 1)).map f := by
  cases hdrop : l.drop i with
  | nil =>
      rw [hdrop] at h
      cases h
  | cons a tail =>
      rw [hdrop, List.map_cons, List.cons.injEq] at h
      refine ⟨a, ?_, h.1, ?_⟩
      · rw [← List.head?_drop, hdrop]
        rfl
      · rw [← List.tail_drop, hdrop]
        exact h.2

theorem storeChunks_ne_mismatch {pairs : List ((Key × NodeInfo) × Nat)} {down : FileDownloader}
    (h : pairs.map (fun p => p.1.1) = (down.fileMetadata.chunksMetadata.drop down.chunkIndex).map ChunkMetadata.hash) :
    (storeChunks A build peers me fetch pairs down).1 ≠ .error (.sharding .chunkHashMismatch) := by
  induction pairs generalizing down with
  | nil =>
      intro hmismatch
      cases hmismatch
  | cons p rest ih =>
      obtain ⟨⟨chunkId, chunkStorer⟩, i⟩ := p
      unfold storeChunks
      obtain ⟨entry, hentry, hlabel, hrest⟩ := next_of_map_drop h
      cases hfetch : downloadChunkFromStorer me (peers i) (fetch i) chunkId chunkStorer with
      | error e =>
          intro hmismatch
          cases hmismatch
          exact downloadChunkFromStorer_ne_sharding hfetch
      | ok data =>
          dsimp only
          cases hstore : down.storeNextChunkDecrypt A build ⟨data, chunkId⟩ with
          | mk outcome down' =>
              cases outcome with
              | ok _ =>
                  obtain ⟨hmd, hindex, -⟩ := FileDownloader.storeNextChunkDecrypt_ok hstore
                  apply ih
                  rw [hmd, hindex]
                  exact hrest
              | err e =>
                  intro hmismatch
                  cases hmismatch
                  have hcall : (down.storeNextChunkDecrypt A build ⟨data, chunkId⟩).1 = .err .chunkHashMismatch := by
                    rw [hstore]
                  obtain ⟨entry', hentry', hne⟩ := FileDownloader.storeNextChunkDecrypt_mismatch hcall
                  rw [hentry] at hentry'
                  cases hentry'
                  exact hne hlabel
              | panic =>
                  intro hmismatch
                  cases hmismatch

/-- `download_file` attaches the recorded hash to whatever the storer sends, so it never meets a mismatch. -/
theorem downloadFile_ne_mismatch {findStorer : Nat → Key → Except DownloadError NodeInfo} {md : FileMetadata}
    {resolvedPairs : List (Key × NodeInfo)}
    (h : findStorersParallel findStorer (md.chunksMetadata.map ChunkMetadata.hash).zipIdx = .ok resolvedPairs) :
    (storeChunks A build peers me fetch resolvedPairs.zipIdx (FileDownloader.new md)).1 ≠
      .error (.sharding .chunkHashMismatch) := by
  apply storeChunks_ne_mismatch
  have hkeys : resolvedPairs.map Prod.fst = md.chunksMetadata.map ChunkMetadata.hash := by
    rw [findStorersParallel_keys h, List.zipIdx_map_fst]
  calc resolvedPairs.zipIdx.map (fun p => p.1.1)
      = (resolvedPairs.zipIdx.map Prod.fst).map Prod.fst := List.map_map.symm
    _ = md.chunksMetadata.map ChunkMetadata.hash := by rw [List.zipIdx_map_fst, hkeys]

end Download

end P2PFilesystem
