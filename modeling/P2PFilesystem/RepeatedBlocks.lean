import P2PFilesystem.UploadCall

/-!
# Repeated blocks

An upload for which one node only is ever found, whose store nothing else touches. The node
takes each chunk that it does not own, so what decides is what it owned before and which
blocks of the file are equal.
-/
namespace P2PFilesystem

/-- Only this node is found, and what goes on besides leaves its store as it is. -/
structure SingleStorer (n : NodeInfo) (round : ChunkRound) : Prop where
  found : round.found = .ok [n]
  before : ∀ net, ((round.before net).peer n).storage = (net.peer n).storage
  between : ∀ net, ((round.between net).peer n).storage = (net.peer n).storage

example (n : NodeInfo) : SingleStorer n (steadyRound n) := ⟨rfl, fun _ => rfl, fun _ => rfl⟩

/-- A store owns exactly the chunks that it has files of. -/
def ShardStorageManager.Synced (m : ShardStorageManager) : Prop := ∀ h, m.owns h ↔ (m.files.lookup h).isSome

namespace ShardStorageManager

theorem Synced.afterStore {m : ShardStorageManager} (h : m.Synced) (file : ChunkFile) (port : UInt16) (hash : Key)
    (now : Nat) : (m.afterStore file port hash now).Synced := by
  intro k
  rw [owns_afterStore, lookup_files_afterStore, h k]
  split_ifs with heq
  · exact iff_of_true (.inl heq) rfl
  · exact or_iff_right heq

end ShardStorageManager

section Chunk
variable {me n : NodeInfo} {round : ChunkRound} {net : PeerNetwork} {chunk : Chunk}

theorem SingleStorer.few (h : SingleStorer n round) (me : NodeInfo) (hash : Key) (net : PeerNetwork) :
    ∀ nodes, round.found = .ok nodes → (nodes.filter (ready me hash round net)).length ≤ alpha := by
  intro nodes hfound
  rw [h.found] at hfound
  cases hfound
  exact (List.length_filter_le _ _).trans (show 1 ≤ alpha by decide)

/-- A `STORE` of a chunk that the node does not own leaves its store as it is. -/
theorem SingleStorer.offered_storage {hash : Key} (h : SingleStorer n round)
    (hanswered : (round.stores n).Answered me n) (hnot : ¬ (net.peer n).storage.owns hash) :
    ((offered me hash round net).peer n).storage = (net.peer n).storage := by
  rw [offered, h.between, resolveAlphaClosestNodesToKey_peer h.found (List.mem_singleton_self n) hanswered,
    Peer.handle_store (net.is_node n) hnot]
  rfl

/-- A chunk that the node does not own is stored there, and nothing else changes hands. -/
theorem SingleStorer.stores (index : Nat) (h : SingleStorer n round) (hroom : Accommodates me n chunk.hash round (round.before net))
    (hlen : chunk.data.length = encryptedChunkSizeB) (hsynced : (net.peer n).storage.Synced)
    (hnot : ¬ (net.peer n).storage.owns chunk.hash) :
    (uploadChunk me chunk index round net).1 = .ok () ∧
    ((uploadChunk me chunk index round net).2.peer n).storage.Synced ∧
    ∀ hash, ((uploadChunk me chunk index round net).2.peer n).storage.owns hash ↔
      hash = chunk.hash ∨ (net.peer n).storage.owns hash := by
  have hnot' : ¬ ((round.before net).peer n).storage.owns chunk.hash := by
    rwa [h.before]
  have hready : ((round.before net).peer n).storage.isChunkAlreadyStored chunk.hash = false :=
    Bool.eq_false_iff.mpr hnot'
  have hfew := h.few me chunk.hash (round.before net)
  obtain ⟨port, hopens, now, htransfer⟩ := hroom.opens
  have hoffered : ((offered me chunk.hash round (round.before net)).peer n).storage = (net.peer n).storage := by
    rw [h.offered_storage hroom.answers_store hnot', h.before]
  have hadmits : ((offered me chunk.hash round (round.before net)).peer n).storage.Admits chunk.data chunk.hash := by
    have hfree : (net.peer n).storage.files.lookup chunk.hash = none := by
      rwa [hsynced, Option.not_isSome_iff_eq_none] at hnot
    have hcount := hroom.room
    have hmemory := hroom.memory
    rw [h.before] at hcount hmemory
    rw [hoffered]
    exact ⟨hcount, hlen.le, hlen.trans_le hmemory, hfree⟩
  have hstorage : ((uploadChunk me chunk index round net).2.peer n).storage = _ :=
    uploadChunk_storage (hroom.chosen hready hfew) hopens htransfer hadmits
  rw [hoffered] at hstorage
  refine ⟨(uploadChunk_ok_iff me chunk index round net).mpr (hroom.served hready hfew), ?_, fun hash => ?_⟩
  · rw [hstorage]
    have hopened : ((net.peer n).storage.addActiveTcpConnection port me chunk.hash).2.Synced := hsynced
    exact hopened.afterStore _ port chunk.hash now
  · rw [hstorage, ShardStorageManager.owns_afterStore]
    rfl

/-- A chunk that the node owns is not served. -/
theorem SingleStorer.refuses (h : SingleStorer n round) (howned : (net.peer n).storage.owns chunk.hash) :
    ¬ Served me chunk.hash round (round.before net) := by
  rw [← uploadChunk_ok_iff me chunk 0 round net, uploadChunk_of_owned h.found chunk fun m hm _ => ?_]
  · exact nofun
  · rw [List.mem_singleton.mp hm, h.before]
    exact howned

end Chunk

section File
variable {me n : NodeInfo} {rounds : Nat → ChunkRound} {net : PeerNetwork} {index : Nat}

/-- All chunks are served if and only if the node owned none of them and no two have one hash. -/
theorem everyChunk_served_iff {chunks : List Chunk} (hstorer : ∀ i, SingleStorer n (rounds i))
    (hlen : ∀ c ∈ chunks, c.data.length = encryptedChunkSizeB) (hsynced : (net.peer n).storage.Synced)
    (hroom : EveryChunk me rounds (Accommodates me n) index chunks net) :
    EveryChunk me rounds (Served me) index chunks net ↔
      (chunks.map Chunk.hash).Nodup ∧ ∀ c ∈ chunks, ¬ (net.peer n).storage.owns c.hash := by
  induction chunks generalizing index net with
  | nil => simp [EveryChunk]
  | cons chunk chunks ih =>
      obtain ⟨hthis, hlater⟩ := hroom
      by_cases howned : (net.peer n).storage.owns chunk.hash
      · constructor
        · rintro ⟨hserved, -⟩
          exact absurd hserved ((hstorer index).refuses howned)
        · rintro ⟨-, hnone⟩
          exact absurd howned (hnone chunk List.mem_cons_self)
      · obtain ⟨hok, hsynced', howns⟩ := (hstorer index).stores index hthis (hlen chunk List.mem_cons_self) hsynced howned
        have hserved := (uploadChunk_ok_iff me chunk index (rounds index) net).mp hok
        have hrest := ih (fun c hc => hlen c (List.mem_cons_of_mem chunk hc)) hsynced' hlater
        rw [EveryChunk, hrest, List.map_cons, List.nodup_cons]
        simp only [howns, not_or, List.mem_cons, forall_eq_or_imp, List.mem_map, not_exists, not_and]
        constructor
        · rintro ⟨-, hnodup, hnone⟩
          exact ⟨⟨fun c hc => (hnone c hc).1, hnodup⟩, howned, fun c hc => (hnone c hc).2⟩
        · rintro ⟨⟨hnew, hnodup⟩, -, hnone⟩
          exact ⟨hserved, hnodup, fun c hc => ⟨hnew c hc, hnone c hc⟩⟩

/-- With one node to store at that has room, a file is uploaded if and only if the node owned
none of its chunks and no two of them have one hash. -/
theorem uploadFile_ok_iff_distinct {A : Aead} (hA : A.Lawful) (sha1 : Bytes → Key) (draws : Nat → Draw) (name : Text)
    {content key : Bytes} (hsize : content.length ≤ maxFileSizeMb * 1024 * 1024) (hkey : key.length = 32)
    (hstorer : ∀ i, SingleStorer n (rounds i)) (hsynced : (net.peer n).storage.Synced) :
    ∃ up chunks, FileUploader.new name content key = .ok up ∧
      (up.calls A sha1 draws (chunks.length + 1)).1 = chunks.map (.ok ∘ some) ++ [.ok none] ∧
      (EveryChunk me rounds (Accommodates me n) 0 chunks net →
        ((∃ md, (uploadFile me A sha1 draws rounds name content key net).1 = .ok md) ↔
          (chunks.map Chunk.hash).Nodup ∧ ∀ c ∈ chunks, ¬ (net.peer n).storage.owns c.hash)) := by
  obtain ⟨up, chunks, hnew, hcalls, hlen⟩ := FileUploader.new_calls hA sha1 draws name hsize hkey
  refine ⟨up, chunks, hnew, hcalls, fun hroom => ?_⟩
  rw [uploadFile_served_iff hnew hcalls]
  exact everyChunk_served_iff hstorer hlen hsynced hroom

end File
end P2PFilesystem
