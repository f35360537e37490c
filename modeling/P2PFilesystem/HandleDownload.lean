import P2PFilesystem.FileHandle

/-!
# Downloading with an untrusted handle

What a handle says about keys, nonces and chunks is used as it is. `Aes256Gcm` panics on a key
or a nonce of another length, and the length of a block is cut out of what was decrypted, after
an assertion on its length that debug builds check.
-/
namespace P2PFilesystem

/-- The call comes to no slice of a wrong length: there is nothing to decrypt, or the key and
the nonce have their lengths and a decrypted block has a length that the build takes. -/
def FileDownloader.SafeCall (A : Aead) (build : Build) (chunk : Chunk) (self : FileDownloader) : Prop :=
  chunk.data = [] ∨ ∀ entry, self.fileMetadata.chunksMetadata[self.chunkIndex]? = some entry →
    self.fileMetadata.encryptionKey.length = 32 ∧ entry.nonce.length = 12 ∧
    ∀ payload, A.decrypt self.fileMetadata.encryptionKey entry.nonce chunk.data = some payload →
      build.Takes payload.length

/-- Every call is safe in the state that the calls before it leave. -/
def FileDownloader.SafeCalls (A : Aead) (build : Build) (chunks : List Chunk) (self : FileDownloader) : Prop :=
  ∀ before chunk after, chunks = before ++ chunk :: after → SafeCall A build chunk (self.storeAll A build before).2

theorem u32FromLeBytes_eq_none {bytes : Bytes} : u32FromLeBytes bytes = none ↔ bytes.length ≠ 4 := by
  unfold u32FromLeBytes
  split
  · simp
  next hne =>
    simp only [true_iff]
    intro hlength
    match bytes, hlength with
    | [a, b, c, d], _ => exact hne a b c d rfl

theorem decryptPayload_eq_panic {A : Aead} {data key nonce : Bytes} :
    decryptPayload A data key nonce = .panic ↔ ¬ (key.length = 32 ∧ nonce.length = 12) := by
  unfold decryptPayload
  by_cases h : key.length = 32 ∧ nonce.length = 12
  · have hno : ¬ (key.length ≠ 32 ∨ nonce.length ≠ 12) := by simp [h.1, h.2]
    rw [if_neg hno]
    cases A.decrypt key nonce data <;> simp [h.1, h.2]
  · have hbad : key.length ≠ 32 ∨ nonce.length ≠ 12 := by
      rwa [← not_and_or]
    simp [if_pos hbad, h]

theorem decryptPayload_eq_ok {A : Aead} {data key nonce payload : Bytes} (hkey : key.length = 32)
    (hnonce : nonce.length = 12) :
    decryptPayload A data key nonce = .ok payload ↔ A.decrypt key nonce data = some payload := by
  unfold decryptPayload
  have hno : ¬ (key.length ≠ 32 ∨ nonce.length ≠ 12) := by simp [hkey, hnonce]
  rw [if_neg hno]
  cases A.decrypt key nonce data <;> simp

/-- The length at the end of a block can be cut out if the block is long enough. -/
theorem lengthTrailer_eq_none {decrypted : Bytes} :
    u32FromLeBytes ((decrypted.drop paddedSize).take u32SizeB) = none ↔ ¬ paddedSize + u32SizeB ≤ decrypted.length := by
  have h4 : u32SizeB = 4 := rfl
  rw [u32FromLeBytes_eq_none, List.length_take, List.length_drop, h4]
  omega

/-- A decrypted block gets past the assertion and has its length at the end. -/
theorem Build.takes_iff {build : Build} {decrypted : Bytes} : build.Takes decrypted.length ↔
    ¬ (build = .debug ∧ decrypted.length ≠ paddedSize + u32SizeB) ∧
    u32FromLeBytes ((decrypted.drop paddedSize).take u32SizeB) ≠ none := by
  have htrailer : u32FromLeBytes ((decrypted.drop paddedSize).take u32SizeB) ≠ none ↔
      paddedSize + u32SizeB ≤ decrypted.length := by
    rw [Ne, lengthTrailer_eq_none, not_not]
  rw [htrailer]
  cases build with
  | debug =>
      simp only [Takes, true_and, not_not]
      exact ⟨fun h => ⟨h, h.ge⟩, fun h => h.1⟩
  | release => simp [Takes]

namespace FileDownloader
variable {A : Aead} {build : Build}

theorem storeNextChunkDecrypt_eq_panic {chunk : Chunk} {self : FileDownloader} :
    (self.storeNextChunkDecrypt A build chunk).1 = .panic ↔ ¬ SafeCall A build chunk self := by
  unfold storeNextChunkDecrypt SafeCall
  cases hdata : chunk.data with
  | nil => simp
  | cons b data =>
      rw [← hdata]
      have hne : chunk.data ≠ [] := by simp [hdata]
      have hnonempty : ¬ chunk.data.isEmpty = true := by simp [hdata]
      simp only [if_neg hnonempty, hne, false_or]
      cases self.fileMetadata.chunksMetadata[self.chunkIndex]? with
      | none => simp
      | some entry =>
          simp only [Option.some.injEq, forall_eq']
          by_cases hlengths : self.fileMetadata.encryptionKey.length = 32 ∧ entry.nonce.length = 12
          · simp only [hlengths, true_and]
            have hok : ∀ payload, decryptPayload A chunk.data self.fileMetadata.encryptionKey entry.nonce = .ok payload ↔
                A.decrypt self.fileMetadata.encryptionKey entry.nonce chunk.data = some payload :=
              fun _ => decryptPayload_eq_ok hlengths.1 hlengths.2
            simp only [← hok]
            cases hdec : decryptPayload A chunk.data self.fileMetadata.encryptionKey entry.nonce with
            | panic => exact absurd hlengths (decryptPayload_eq_panic.mp hdec)
            | err e => simp
            | ok decrypted =>
                simp only [Outcome.ok.injEq, forall_eq', Build.takes_iff]
                by_cases hassert : build = .debug ∧ decrypted.length ≠ paddedSize + u32SizeB
                · simp [hassert]
                · rw [if_neg hassert]
                  cases u32FromLeBytes ((decrypted.drop paddedSize).take u32SizeB) with
                  | none => simp
                  | some unpaddedDataSize =>
                      dsimp only
                      split_ifs <;> simp [hassert]
          · simp only [decryptPayload_eq_panic.mpr hlengths, true_iff]
            exact fun hall => hlengths ⟨hall.1, hall.2.1⟩

/-- No call of a sequence panics exactly if each is safe where it is made. -/
theorem storeAll_panics_iff {chunks : List Chunk} {self : FileDownloader} :
    .panic ∈ (self.storeAll A build chunks).1 ↔ ¬ SafeCalls A build chunks self := by
  induction chunks generalizing self with
  | nil =>
      have hnone : SafeCalls A build [] self := by simp [SafeCalls]
      simp [storeAll, hnone]
  | cons chunk chunks ih =>
      have hsplit : SafeCalls A build (chunk :: chunks) self ↔
          SafeCall A build chunk self ∧ SafeCalls A build chunks (self.storeNextChunkDecrypt A build chunk).2 := by
        constructor
        · intro h
          exact ⟨h [] chunk chunks rfl, fun before c after hc => h (chunk :: before) c after (by rw [hc]; rfl)⟩
        · rintro ⟨hfirst, hrest⟩ before c after hc
          cases before with
          | nil =>
              cases hc
              exact hfirst
          | cons _ before =>
              cases hc
              exact hrest before c after rfl
      simp only [storeAll, List.mem_cons, eq_comm (a := Outcome.panic), storeNextChunkDecrypt_eq_panic, ih, hsplit,
        not_and_or]

theorem fileMetadata_storeNextChunkDecrypt (chunk : Chunk) (self : FileDownloader) :
    (self.storeNextChunkDecrypt A build chunk).2.fileMetadata = self.fileMetadata := by
  unfold storeNextChunkDecrypt
  dsimp only
  repeat' split
  all_goals rfl

theorem fileMetadata_storeAll (chunks : List Chunk) (self : FileDownloader) :
    (self.storeAll A build chunks).2.fileMetadata = self.fileMetadata := by
  induction chunks generalizing self with
  | nil => rfl
  | cons chunk chunks ih => exact (ih _).trans (fileMetadata_storeNextChunkDecrypt chunk self)

/-- Where the cipher is lawful, only a handle without chunks is safe with every sequence. -/
theorem safeCalls_forall_iff (hA : A.Lawful) (m : FileMetadata) :
    (∀ chunks, SafeCalls A build chunks (new m)) ↔ m.chunksMetadata = [] := by
  constructor
  · intro h
    cases hchunks : m.chunksMetadata with
    | nil => rfl
    | cons entry entries =>
        have hentry : (new m).fileMetadata.chunksMetadata[(new m).chunkIndex]? = some entry := by
          change m.chunksMetadata[0]? = some entry
          simp [hchunks]
        have hsafe : ∀ data, data ≠ [] → m.encryptionKey.length = 32 ∧ entry.nonce.length = 12 ∧
            ∀ payload, A.decrypt m.encryptionKey entry.nonce data = some payload →
              build.Takes payload.length := fun data hne =>
          (h [⟨data, entry.hash⟩] [] ⟨data, entry.hash⟩ [] rfl).resolve_left hne entry hentry
        obtain ⟨hkey, hnonce, -⟩ := hsafe [0] nofun
        -- the text of the empty payload decrypts to a block that is too short
        have hsize : ([] : Bytes).length ≤ 2 ^ 36 := Nat.zero_le _
        obtain ⟨text, htext⟩ := Option.isSome_iff_exists.mp
          (hA.encrypt_isSome hkey hnonce hsize)
        have hne : text ≠ [] := by
          have hlength := hA.length_encrypt htext
          rintro rfl
          cases hlength
        have hlong := (hsafe text hne).2.2 [] (hA.decrypt_encrypt htext)
        exact absurd hlong.le (by decide)
  · intro hnil chunks before chunk after _
    right
    intro entry hentry
    rw [fileMetadata_storeAll] at hentry
    change m.chunksMetadata[_]? = some entry at hentry
    simp [hnil] at hentry

end FileDownloader

/-- In every build, for every handle that is accepted and all chunks, no call panics exactly if each is safe
where it is made. -/
theorem handleDownload_noPanic_iff (A : Aead) (build : Build) (s : Text) (chunks : List Chunk) :
    ∀ m, FileMetadata.fromStr s = .ok m →
      ((∀ outcome ∈ ((FileDownloader.new m).storeAll A build chunks).1, outcome ≠ .panic) ↔
        FileDownloader.SafeCalls A build chunks (.new m)) := by
  intro m _
  rw [← not_iff_not, ← FileDownloader.storeAll_panics_iff]
  simp

theorem handleDownload_noPanic_example :
    ∃ m, FileMetadata.fromStr exampleMetadata.toString = .ok m ∧
      ∀ outcome ∈ ((FileDownloader.new m).storeAll tagAead .debug [⟨[], Key.ofTopByte 1 0⟩]).1, outcome ≠ .panic := by
  have hm := exampleMetadata_inMemory.fromStr_toString
  refine ⟨exampleMetadata, hm, (handleDownload_noPanic_iff tagAead .debug _ _ _ hm).mpr ?_⟩
  intro before chunk after hc
  have hchunk : chunk ∈ [(⟨[], Key.ofTopByte 1 0⟩ : Chunk)] := hc ▸ List.mem_append_right _ List.mem_cons_self
  rw [List.mem_singleton.mp hchunk]
  exact .inl rfl

/-- One chunk, and neither key nor nonce. -/
def badMetadata : FileMetadata := ⟨"f".toList, [], [⟨Key.ofTopByte 1 0, []⟩]⟩

/-- The handle is accepted, and the first chunk that is not empty makes the download panic. -/
theorem handleDownload_panics : FileMetadata.fromStr badMetadata.toString = .ok badMetadata ∧
    ((FileDownloader.new badMetadata).storeAll tagAead .debug [⟨[0], Key.ofTopByte 1 0⟩]).1 = [.panic] := by
  have hmemory : badMetadata.InMemory := ⟨by decide, by decide, by decide, by decide⟩
  exact ⟨hmemory.fromStr_toString, rfl⟩

end P2PFilesystem
