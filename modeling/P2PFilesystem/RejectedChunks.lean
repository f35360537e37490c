import P2PFilesystem.ContentHash

/-!
# Chunks a download rejects

`store_next_chunk_decrypt` has one place at which index and output change, behind all its other
exits. So a sequence of chunks leaves what its accepted chunks leave, and these stand for the entries
of the handle from the first on.
-/
namespace P2PFilesystem
namespace FileDownloader

section Call
variable (A : Aead) (build : Build)

/-- The chunks of a sequence for which the call returns `Ok`. -/
def accepted (self : FileDownloader) (chunks : List Chunk) : List Chunk :=
  ((chunks.zip (self.storeAll A build chunks).1).filter fun p => p.2 = .ok ()).map Prod.fst

/-- The chunk opens with the nonce of the entry at this index and bears its hash; the piece is what
the recorded length leaves of the padded block. -/
def Fills (md : FileMetadata) (index : Nat) (chunk : Chunk) (piece : Bytes) : Prop :=
  ∃ entry payload size, md.chunksMetadata[index]? = some entry ∧
    decryptPayload A chunk.data md.encryptionKey entry.nonce = .ok payload ∧
    u32FromLeBytes ((payload.drop paddedSize).take u32SizeB) = some size ∧
    chunk.hash = entry.hash ∧ piece = (payload.take paddedSize).take size

end Call

variable {A : Aead} {build : Build} {chunk : Chunk} {chunks : List Chunk} {self : FileDownloader}

/-- What is written is flushed with the last entry. -/
def afterPieces (self : FileDownloader) (pieces : List Bytes) : FileDownloader :=
  let written := pieces.foldl FileWriter.writeAll self.fileWriter
  let index := self.chunkIndex + pieces.length
  { self with
    fileWriter := if pieces ≠ [] ∧ index = self.fileMetadata.chunksMetadata.length then written.flush else written
    chunkIndex := index }

theorem storeNextChunkDecrypt_unchanged (h : (self.storeNextChunkDecrypt A build chunk).1 ≠ .ok ()) :
    (self.storeNextChunkDecrypt A build chunk).2 = self := by
  obtain hopens | ⟨outcome, -, hcall, -⟩ := storeNextChunkDecrypt_cases A build chunk self
  · exact absurd (storeNextChunkDecrypt_eq_ok.mpr hopens) h
  · rw [hcall]

/-- An accepted chunk takes the next entry. -/
theorem Fills.of_ok (h : (self.storeNextChunkDecrypt A build chunk).1 = .ok ()) :
    ∃ piece, Fills A self.fileMetadata self.chunkIndex chunk piece ∧
      (self.storeNextChunkDecrypt A build chunk).2 = self.afterPieces [piece] := by
  obtain ⟨entry, payload, hopens, hlabel⟩ := storeNextChunkDecrypt_eq_ok.mp h
  have hdec := (decryptPayload_eq_ok hopens.length_key hopens.length_nonce).mpr hopens.decrypt_eq
  obtain ⟨size, hsize, hcall⟩ := hopens.storeNextChunkDecrypt_eq hlabel
  have hlt : self.chunkIndex < self.fileMetadata.chunksMetadata.length :=
    (List.getElem?_eq_some_iff.mp hopens.entry_eq).1
  refine ⟨_, ⟨entry, payload, size, hopens.entry_eq, hdec, hsize, hlabel, rfl⟩, ?_⟩
  have hlast : (self.chunkIndex + 1 ≥ self.fileMetadata.chunksMetadata.length) ↔
      ([(payload.take paddedSize).take size] ≠ [] ∧ self.chunkIndex + 1 = self.fileMetadata.chunksMetadata.length) :=
    ⟨fun hge => ⟨List.cons_ne_nil _ _, by omega⟩, fun heq => heq.2.ge⟩
  rw [hcall, if_congr hlast rfl rfl]
  rfl

theorem storeAll_cons : self.storeAll A build (chunk :: chunks) =
    ((self.storeNextChunkDecrypt A build chunk).1 :: ((self.storeNextChunkDecrypt A build chunk).2.storeAll A build chunks).1,
      ((self.storeNextChunkDecrypt A build chunk).2.storeAll A build chunks).2) := rfl

theorem accepted_cons : self.accepted A build (chunk :: chunks) =
    if (self.storeNextChunkDecrypt A build chunk).1 = .ok () then
      chunk :: (self.storeNextChunkDecrypt A build chunk).2.accepted A build chunks
    else self.accepted A build chunks := by
  unfold accepted
  rw [storeAll_cons, List.zip_cons_cons]
  split_ifs with hok
  · rw [List.filter_cons_of_pos (by exact decide_eq_true hok), List.map_cons]
  · rw [List.filter_cons_of_neg (by simpa using hok), storeNextChunkDecrypt_unchanged hok]

/-- Without the chunks that are not accepted the run is the same. -/
theorem storeAll_accepted_eq : self.storeAll A build (self.accepted A build chunks) =
    ((self.accepted A build chunks).map (fun _ => .ok ()), (self.storeAll A build chunks).2) := by
  induction chunks generalizing self with
  | nil => rfl
  | cons chunk chunks ih =>
      rw [accepted_cons, storeAll_cons]
      split_ifs with hok
      · rw [storeAll_cons, ih, hok, List.map_cons]
      · rw [storeNextChunkDecrypt_unchanged hok, ih]

/-- The pieces of the accepted chunks stand in the order of the entries. -/
structure Filled (A : Aead) (down : FileDownloader) (chunks : List Chunk) (pieces : List Bytes) : Prop where
  length_eq : pieces.length = chunks.length
  fills : ∀ i chunk, chunks[i]? = some chunk →
    ∃ piece, pieces[i]? = some piece ∧ Fills A down.fileMetadata (down.chunkIndex + i) chunk piece

theorem Fills.index_lt {md : FileMetadata} {index : Nat} {piece : Bytes} (h : Fills A md index chunk piece) :
    index < md.chunksMetadata.length := by
  obtain ⟨entry, payload, size, hentry, -⟩ := h
  exact (List.getElem?_eq_some_iff.mp hentry).1

theorem Filled.index_le {pieces : List Bytes} (h : Filled A self chunks pieces)
    (hindex : self.chunkIndex ≤ self.fileMetadata.chunksMetadata.length) :
    self.chunkIndex + pieces.length ≤ self.fileMetadata.chunksMetadata.length := by
  rw [h.length_eq]
  cases hlen : chunks.length with
  | zero => exact hindex
  | succ n =>
      obtain ⟨piece, -, hfills⟩ := h.fills n _ (List.getElem?_eq_getElem (by omega))
      have hlt := hfills.index_lt
      omega

/-- Pieces that do not go beyond the entries may be written one call after the other. -/
theorem afterPieces_cons {piece : Bytes} {pieces : List Bytes}
    (h : self.chunkIndex + 1 + pieces.length ≤ self.fileMetadata.chunksMetadata.length) :
    (self.afterPieces [piece]).afterPieces pieces = self.afterPieces (piece :: pieces) := by
  cases pieces with
  | nil => rfl
  | cons next pieces =>
      -- the first of several pieces does not fill the last entry
      rw [List.length_cons] at h
      have hmore : ¬ ([piece] ≠ [] ∧ self.chunkIndex + 1 = self.fileMetadata.chunksMetadata.length) :=
        fun hlast => by omega
      have hfirst : self.afterPieces [piece] =
          { self with fileWriter := self.fileWriter.writeAll piece, chunkIndex := self.chunkIndex + 1 } := by
        unfold afterPieces
        dsimp only [List.foldl_cons, List.foldl_nil, List.length_singleton]
        rw [if_neg hmore]
      have hindex : self.chunkIndex + 1 + (next :: pieces).length = self.chunkIndex + (piece :: next :: pieces).length := by
        rw [List.length_cons (a := piece)]
        omega
      rw [hfirst]
      unfold afterPieces
      dsimp only
      rw [hindex, List.foldl_cons (a := piece)]
      have hboth : (next :: pieces ≠ []) = (piece :: next :: pieces ≠ []) :=
        propext (iff_of_true (List.cons_ne_nil _ _) (List.cons_ne_nil _ _))
      simp only [hboth]

/-- The accepted chunks fill the entries from the index on, and their pieces are all that is written. -/
theorem exists_filled (hindex : self.chunkIndex ≤ self.fileMetadata.chunksMetadata.length) :
    ∃ pieces, Filled A self (self.accepted A build chunks) pieces ∧
      (self.storeAll A build chunks).2 = self.afterPieces pieces := by
  induction chunks generalizing self with
  | nil => exact ⟨[], ⟨rfl, nofun⟩, rfl⟩
  | cons chunk chunks ih =>
      rw [accepted_cons, storeAll_cons]
      split_ifs with hok
      · obtain ⟨piece, hfills, hnext⟩ := Fills.of_ok hok
        rw [hnext]
        have hmore : (self.afterPieces [piece]).chunkIndex ≤
            (self.afterPieces [piece]).fileMetadata.chunksMetadata.length := hfills.index_lt
        obtain ⟨pieces, hfilled, hrest⟩ := ih hmore
        refine ⟨piece :: pieces, ⟨congrArg (· + 1) hfilled.length_eq, fun i c hc => ?_⟩, ?_⟩
        · cases i with
          | zero =>
              cases hc
              exact ⟨piece, rfl, hfills⟩
          | succ i =>
              obtain ⟨later, hlater, hfill⟩ := hfilled.fills i c hc
              refine ⟨later, hlater, ?_⟩
              rw [Nat.add_comm i 1, ← Nat.add_assoc]
              exact hfill
        · rw [hrest]
          exact afterPieces_cons (hfilled.index_le hmore)
      · rw [storeNextChunkDecrypt_unchanged hok]
        exact ih hindex

/-- A call that is rejected changes nothing, so a sequence of chunks leaves what its accepted chunks
leave: they fill the entries in order, and the last entry flushes. -/
theorem storeAll_accepted (A : Aead) (build : Build) (md : FileMetadata) (chunks : List Chunk) :
    let accepted := (new md).accepted A build chunks
    let final := ((new md).storeAll A build chunks).2
    (∀ (down : FileDownloader) (chunk : Chunk) (e : ShardingError),
      (down.storeNextChunkDecrypt A build chunk).1 = .err e → (down.storeNextChunkDecrypt A build chunk).2 = down) ∧
    (new md).storeAll A build accepted = (accepted.map (fun _ => .ok ()), final) ∧
    final.chunkIndex = accepted.length ∧ accepted.length ≤ md.chunksMetadata.length ∧
    ∃ pieces : List Bytes, pieces.length = accepted.length ∧
      (∀ i chunk, accepted[i]? = some chunk → ∃ piece, pieces[i]? = some piece ∧ Fills A md i chunk piece) ∧
      final.fileWriter =
        if accepted ≠ [] ∧ accepted.length = md.chunksMetadata.length then
          (pieces.foldl FileWriter.writeAll (new md).fileWriter).flush
        else pieces.foldl FileWriter.writeAll (new md).fileWriter := by
  intro accepted final
  have hstart : (new md).chunkIndex ≤ (new md).fileMetadata.chunksMetadata.length := Nat.zero_le _
  obtain ⟨pieces, hfilled, hfinal⟩ : ∃ pieces, Filled A (new md) accepted pieces ∧
      final = (new md).afterPieces pieces := exists_filled hstart
  have hindex : final.chunkIndex = accepted.length := by
    rw [hfinal, ← hfilled.length_eq]
    exact Nat.zero_add _
  have hbound := hfilled.index_le hstart
  refine ⟨fun down chunk e herr => ?_, storeAll_accepted_eq, hindex, ?_, pieces, hfilled.length_eq,
    fun i chunk hi => ?_, ?_⟩
  · refine storeNextChunkDecrypt_unchanged ?_
    rw [herr]
    exact nofun
  · rw [← hfilled.length_eq]
    exact (Nat.zero_add _).symm.trans_le hbound
  · obtain ⟨piece, hpiece, hfills⟩ := hfilled.fills i chunk hi
    exact ⟨piece, hpiece, Nat.zero_add i ▸ hfills⟩
  · have hnil : pieces ≠ [] ↔ accepted ≠ [] := by
      rw [← List.length_pos_iff, ← List.length_pos_iff, hfilled.length_eq]
    have hlast : (new md).chunkIndex + pieces.length = accepted.length := (Nat.zero_add _).trans hfilled.length_eq
    rw [hfinal]
    unfold afterPieces
    dsimp only
    rw [hlast, if_congr (and_congr_left' hnil) rfl rfl]
    rfl

end FileDownloader
end P2PFilesystem
