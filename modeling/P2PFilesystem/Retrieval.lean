import P2PFilesystem.Fidelity
import P2PFilesystem.FullReplication
import P2PFilesystem.Joining

/-!
# Getting a file back over the network

`find_storer` and `download_file` after an upload. Handling a request changes no chunk file and
no ownership, so whoever the lookups find still has the text that the upload left there. In
a small mesh they do find somebody if the chunks are replicated in full. A text that is sent
arrives only if the storer gets through to the reader's listener on 127.0.0.1.
-/
namespace P2PFilesystem
open LoopFuel

/-- What else goes on changes no chunk file and no ownership. -/
def Traffic.StoresNothing (traffic : Traffic) : Prop := ∀ round net, KeepsStorage net.peer (traffic.others round net)

theorem Traffic.StoresNothing.kept {traffic : Traffic} (h : traffic.StoresNothing) (peers : NodeInfo → Peer) (me : NodeInfo)
    (target : Key) (forValue : Bool) : KeptInLookup me target forValue traffic (KeepsStorage peers) where
  others := fun round net hnet => hnet.trans (h round net)
  request := fun _ c _ hnet => hnet.request me c _ _

section Upload
variable {A : Aead} {sha1 : Bytes → Key} {me reader n : NodeInfo} {content : Bytes} {md : FileMetadata} {w₀ w : World}
  {hash : Key}

namespace Uploaded

/-- After the upload every owned chunk has its file. -/
theorem file_of_owned (h : Uploaded A sha1 me reader content md w₀ w) (hA : A.Lawful)
    (howns : (w.peers n).storage.owns hash) : ((w.peers n).storage.files.lookup hash).isSome := by
  have htraced := h.runs.traced n
  rcases htraced.owns_from hash howns with howns₀ | ⟨call, hcall, rfl, hhash, hok⟩
  · obtain ⟨file, hfile⟩ := Option.isSome_iff_exists.mp (h.file_of_owns n hash howns₀)
    have hcontent := htraced.content_kept hash _ (ShardStorageManager.content_of_lookup hfile)
    exact ShardStorageManager.isSome_lookup_of_content hcontent
  · exact ShardStorageManager.isSome_lookup_of_content (((h.inv hA).stored.sound call hcall).kept hash hhash hok).1

/-- Whoever a lookup for the chunk returns has it. -/
theorem storedAt_of_found (h : Uploaded A sha1 me reader content md w₀ w) (hA : A.Lawful)
    (hreader : ∀ n hash, n.id = reader.id → (w.peers n).storage.owns hash → n = reader) {traffic : Traffic}
    (hquiet : traffic.StoresNothing) {net net' : PeerNetwork} (hnet : KeepsStorage w.peers net)
    (hvalid : (net.table reader).Valid) (hfound : Returns (net.findStorer reader hash traffic) (.ok n, net')) :
    w.StoredAt reader hash n := by
  rcases (hquiet.kept w.peers reader hash true).findStorer_owned hvalid hnet hfound with
    ⟨rfl, hread⟩ | ⟨asked, hasked, howned⟩
  · exact .inl ⟨rfl, (hnet.readable_iff n hash).mp hread⟩
  · have howns := (hasked.owns_iff n hash).mp howned
    by_cases hid : n.id = reader.id
    · exact .inl ⟨hreader n hash hid howns, h.file_of_owned hA howns⟩
    · exact .inr ⟨hid, howns⟩

end Uploaded

/-- The lookups of a download: one call for each chunk, among others that store nothing, in
networks where the chunks are as the upload left them. -/
structure Search (w : World) (reader : NodeInfo) where
  traffic : Nat → Traffic
  network : Nat → PeerNetwork
  quiet : ∀ i, (traffic i).StoresNothing
  keeps : ∀ i, KeepsStorage w.peers (network i)

namespace Search
variable (search : Search w reader)

/-- The calls return these storers. -/
def Finds (md : FileMetadata) (storers : Nat → NodeInfo) : Prop :=
  ∀ (i : Nat) (entry : ChunkMetadata), md.chunksMetadata[i]? = some entry →
    ∃ net', Returns ((search.network i).findStorer reader entry.hash (search.traffic i)) (.ok (storers i), net')

/-- All but the reader itself. -/
abbrev others (reader : NodeInfo) (members : List NodeInfo) : List NodeInfo := members.filter (· ≠ reader)

/-- The reader is in a mesh in which everybody answers its requests and no chunk is named by
an id, and there is a node besides it. -/
structure InMesh (md : FileMetadata) (r : Roster) (members : List NodeInfo) : Prop where
  nodup : members.Nodup
  reader_mem : reader ∈ members
  exists_other : ∃ c ∈ members, c ≠ reader
  reader_ne : ∀ entry ∈ md.chunksMetadata, reader.id ≠ entry.hash
  mesh : ∀ i, Mesh members (search.network i)
  inquiry : ∀ i, ∀ entry ∈ md.chunksMetadata, Inquiry r members reader entry.hash (search.traffic i)

/-- Those of them that own the chunk. -/
def owners (w : World) (reader : NodeInfo) (members : List NodeInfo) (hash : Key) : List NodeInfo :=
  (others reader members).filter fun c => (w.peers c).storage.isChunkAlreadyStored hash

/-- In a small mesh every chunk is found that has as many owners besides the reader as the
first round asks. -/
theorem InMesh.finds {search : Search w reader} {r : Roster} {members : List NodeInfo} (h : search.InMesh md r members)
    (hsmall : members.length ≤ 2 * alpha + 1)
    (hmany : ∀ entry ∈ md.chunksMetadata,
      min alpha (others reader members).length ≤ (owners w reader members entry.hash).length) :
    ∃ storers, search.Finds md storers := by
  have hfound : ∀ i, ∃ n, ∀ entry, md.chunksMetadata[i]? = some entry →
      ∃ net', Returns ((search.network i).findStorer reader entry.hash (search.traffic i)) (.ok n, net') := by
    intro i
    cases hentry : md.chunksMetadata[i]? with
    | none => exact ⟨reader, nofun⟩
    | some entry =>
        have hmem := List.mem_of_getElem? hentry
        have hinquiry := h.inquiry i entry hmem
        have howned : ∀ c ∈ owners w reader members entry.hash,
            ((search.network i).peer c).storage.isChunkAlreadyStored entry.hash = true := fun c hc =>
          ((search.keeps i).owns_iff c entry.hash).mpr (List.mem_filter.mp hc).2
        have hkept : ∀ round net, Holding members (owners w reader members entry.hash) reader entry.hash net →
            Holding members (owners w reader members entry.hash) reader entry.hash ((search.traffic i).others round net) :=
          fun round net hnet => ⟨hinquiry.others round net hnet.visited, fun c hc =>
            ((search.quiet i round net).owns_iff c entry.hash).mpr (hnet.owned c hc)⟩
        obtain ⟨n, net', hreturns⟩ := hinquiry.findStorer hkept h.nodup h.reader_mem h.exists_other
          (h.reader_ne entry hmem) hsmall (List.filter_subset_self _) ((h.nodup.filter _).filter _)
          (hmany entry hmem) (h.mesh i) howned
        refine ⟨n, fun entry' heq => ?_⟩
        cases heq
        exact ⟨net', hreturns⟩
  choose storers hstorers using hfound
  exact ⟨storers, hstorers⟩

end Search

namespace Uploaded
variable (h : Uploaded A sha1 me reader content md w₀ w) (hA : A.Lawful)
  (hnodup : (md.chunksMetadata.map ChunkMetadata.hash).Nodup)
  (hno : ∀ entry ∈ md.chunksMetadata, ∀ n text, ¬ w₀.HeldOtherwise w reader entry.hash n text)
  (hreader : ∀ n hash, n.id = reader.id → (w.peers n).storage.owns hash → n = reader) (search : Search w reader)
include h hA hnodup hno hreader

theorem download_of_finds (hvalid : ∀ i, ((search.network i).table reader).Valid) {storers : Nat → NodeInfo}
    (hfinds : search.Finds md storers) (build : Build) {fetch : Nat → Fetch}
    (hconnected : World.Connected reader fetch md storers) :
    downloadFile A build (fun _ => w.peers) reader fetch (fun i _ => .ok (storers i)) md = .ok content := by
  refine h.downloadFile_ok hA hnodup hno (fun i entry hentry => ?_) hconnected
  obtain ⟨net', hfound⟩ := hfinds i entry hentry
  exact h.storedAt_of_found hA hreader (search.quiet i) (search.keeps i) (hvalid i) hfound

/-- A file that was uploaded comes back from whichever storers the lookups find, in a network
of any size, if they get through to the reader; and in a small mesh with full replication the
lookups find some. -/
theorem downloaded (build : Build) :
    (∀ storers fetch, (∀ i, ((search.network i).table reader).Valid) → search.Finds md storers →
      World.Connected reader fetch md storers →
      downloadFile A build (fun _ => w.peers) reader fetch (fun i _ => .ok (storers i)) md = .ok content) ∧
    ∀ r members, search.InMesh md r members → members.length ≤ 2 * alpha + 1 →
      (∀ entry ∈ md.chunksMetadata,
        min alpha (Search.others reader members).length ≤ (Search.owners w reader members entry.hash).length) →
      ∃ storers, search.Finds md storers ∧ ∀ fetch, World.Connected reader fetch md storers →
        downloadFile A build (fun _ => w.peers) reader fetch (fun i _ => .ok (storers i)) md = .ok content := by
  refine ⟨fun storers fetch hvalid hfinds hconnected =>
    h.download_of_finds hA hnodup hno hreader search hvalid hfinds build hconnected,
    fun r members hmesh hsmall hmany => ?_⟩
  obtain ⟨storers, hfinds⟩ := hmesh.finds hsmall hmany
  exact ⟨storers, hfinds, fun fetch hconnected => h.download_of_finds hA hnodup hno hreader search
    (fun i => (hmesh.mesh i).valid reader hmesh.reader_mem) hfinds build hconnected⟩

end Uploaded
end Upload

/-- The uploading node and its neighbour after an upload, each with the other in its table. -/
def acquainted (n : NodeInfo) : RoutingTable :=
  if n = .local 1 4001 then ((RoutingTable.new n.id 0).storeNodeinfo (.local 2 4002) (fun _ => .error .responseTimeout)).2
  else if n = .local 2 4002 then ((RoutingTable.new n.id 0).storeNodeinfo (.local 1 4001) (fun _ => .error .responseTimeout)).2
  else .new n.id 0

def neighbours : List NodeInfo := [.local 1 4001, .local 2 4002]

theorem acquainted_covers {a b : NodeInfo} (ha : a ∈ localRoster.nodes) (hb : b ∈ localRoster.nodes) (hne : b ≠ a)
    (htable : acquainted a = ((RoutingTable.new a.id 0).storeNodeinfo b (fun _ => .error .responseTimeout)).2) :
    (acquainted a).id = a.id ∧ (acquainted a).Valid ∧ ∀ c, c ∈ (acquainted a).getAllNodeinfos ↔ c = b := by
  have hnew : (RoutingTable.new a.id 0).Within localRoster.nodes a :=
    (RoutingTable.Within.new a 0).mono (List.nil_subset _)
  obtain ⟨-, hwithin, hmem⟩ := hnew.store ha hb hne (fun _ => .error .responseTimeout)
  rw [← htable] at hwithin hmem
  refine ⟨hwithin.id_eq, hwithin.valid, fun c => (hmem c).trans (or_iff_left fun hc => ?_)⟩
  cases (RoutingTable.Within.new a 0).subset hc

theorem sample_replicated : ∃ w, Uploaded tagAead sampleSha1 (.local 1 4001) (.local 1 4001) [1]
    ⟨"f".toList, sampleKey, [⟨Key.ofTopByte 0 0, zeroDraw.nonce⟩]⟩ (sampleStart ∅) w ∧
    (∀ call ∈ w.stores, call.chunk = some 0) ∧ (w.peers (.local 2 4002)).storage.owns (Key.ofTopByte 0 0) ∧
    ∀ n, n ≠ .local 2 4002 → (w.peers n).storage = .new ∅ := by
  obtain ⟨chunk, w, hseal, hrun, hdone, hsettled, -, hstores, hrest, hstorage⟩ := oneChunk_run tagAead_lawful sampleSha1
    (.local 1 4001) (.local 2 4002) (fun _ => .new ∅) "f".toList zeroDraw (List.cons_ne_nil 1 []) (by decide)
    (by decide : sampleKey.length = 32) ⟨List.replicate 16 0, rfl⟩
    (rfl : (⟨fun _ => .error .responseTimeout, 0, some 5000⟩ : HandlerEnv).listener = some 5000) rfl nofun .ok 0
  have hstored : ∀ call ∈ w.stores, call.node = .local 2 4002 ∧ call.result = .ok () ∧ call.hash = some chunk.hash ∧
      call.io = .ok := by
    intro call hcall
    rw [hstores, List.mem_singleton] at hcall
    subst hcall
    refine ⟨rfl, (ShardStorageManager.storeChunkForKnownPeer_spec (AList.lookup_insert _) _ _ _).2.1.mpr ?_, ?_, rfl⟩
    · refine ⟨⟨(by decide : 0 < maxShardsStored), ?_, ?_, rfl⟩, rfl⟩
      · rw [hseal.length_data tagAead_lawful]
      · rw [hseal.length_data tagAead_lawful]
        exact (by decide : encryptedChunkSizeB ≤ maxDataStoredMb * 1024 - 0)
    · exact congrArg (Option.map DataTransfer.chunkHash)
        (AList.lookup_insert (ShardStorageManager.new ∅).dataTransfersTable)
  have hdisk : ∀ n, (w.peers n).storage.Flushed := by
    intro n
    by_cases hn : n = .local 2 4002
    · rw [hn, hstorage]
      exact (ShardStorageManager.Flushed.new ∅).addActiveTcpConnection.storeChunkForKnownPeer _ _ _
    · rw [hrest n hn]
      exact .new ∅
  have hup : Uploaded tagAead sampleSha1 (.local 1 4001) (.local 1 4001) [1]
      ⟨"f".toList, sampleKey, [⟨Key.ofTopByte 0 0, zeroDraw.nonce⟩]⟩ (sampleStart ∅) w := by
    refine ⟨World.opening_start rfl (by decide) fun _ => rfl, hrun, hdone, hsettled, fun call hcall _ => ?_,
      fun _ _ n => hdisk n _, fun _ => rfl, fun call hcall hid => absurd ((hstored call hcall).1 ▸ hid) (by decide), nofun,
      fun call hcall _ => ?_⟩
    · obtain ⟨-, hok, -, hio⟩ := hstored call hcall
      exact ⟨hok, hio ▸ StoreIo.works_ok _⟩
    · rw [(hstored call hcall).2.2.2]
      exact nofun
  refine ⟨w, hup, fun call hcall => ?_, ?_, hrest⟩
  · rw [hstores, List.mem_singleton] at hcall
    rw [hcall]
  · obtain ⟨hnode, hok, hhash, -⟩ := hstored _ (hstores ▸ List.mem_singleton_self _)
    have howns := (((hup.inv tagAead_lawful).stored.sound _ (hstores ▸ List.mem_singleton_self _)).kept _ hhash hok).2
    rwa [hnode, hseal.hash_eq] at howns

/-- The nodes of the world with these tables. -/
def acquaintedNetwork (w : World) (hnode : ∀ n, (w.peers n).server.nodeInfo = n) : PeerNetwork :=
  ⟨fun n => { w.peers n with server := { (w.peers n).server with routingTable := acquainted n } }, hnode⟩

theorem acquainted_mesh (w : World) (hnode : ∀ n, (w.peers n).server.nodeInfo = n) :
    Mesh neighbours (acquaintedNetwork w hnode) := by
  have hfirst := acquainted_covers (a := .local 1 4001) (b := .local 2 4002) (by decide) (by decide) (by decide) (if_pos rfl)
  have hsecond := acquainted_covers (a := .local 2 4002) (b := .local 1 4001) (by decide) (by decide) (by decide)
    ((if_neg (by decide)).trans (if_pos rfl))
  have hall : ∀ a ∈ neighbours, (acquainted a).id = a.id ∧ (acquainted a).Valid ∧
      ∀ c, c ∈ (acquainted a).getAllNodeinfos ↔ c ∈ neighbours ∧ c ≠ a := by
    intro a ha
    rcases List.mem_cons.mp ha with rfl | ha
    · refine ⟨hfirst.1, hfirst.2.1, fun c => (hfirst.2.2 c).trans ?_⟩
      simp only [neighbours, List.mem_cons, List.not_mem_nil, or_false]
      refine ⟨?_, fun hc => hc.1.resolve_left hc.2⟩
      rintro rfl
      decide
    · rw [List.mem_singleton.mp ha]
      refine ⟨hsecond.1, hsecond.2.1, fun c => (hsecond.2.2 c).trans ?_⟩
      simp only [neighbours, List.mem_cons, List.not_mem_nil, or_false]
      refine ⟨?_, fun hc => hc.1.resolve_right hc.2⟩
      rintro rfl
      decide
  exact ⟨fun a ha => (hall a ha).1, fun a ha => (hall a ha).2.1, fun a ha => (hall a ha).2.2⟩

def sampleMetadata : FileMetadata := ⟨"f".toList, sampleKey, [⟨Key.ofTopByte 0 0, zeroDraw.nonce⟩]⟩

/-- One byte is uploaded to a neighbour, which every lookup for it finds. -/
theorem sample_search : ∃ (w : World) (search : Search w (.local 1 4001)),
    Uploaded tagAead sampleSha1 (.local 1 4001) (.local 1 4001) [1] sampleMetadata (sampleStart ∅) w ∧
    (w.peers (.local 2 4002)).storage.owns (Key.ofTopByte 0 0) ∧
    (∀ entry ∈ sampleMetadata.chunksMetadata, ∀ n text,
      ¬ (sampleStart ∅).HeldOtherwise w (.local 1 4001) entry.hash n text) ∧
    (∀ n hash, n.id = (NodeInfo.local 1 4001).id → (w.peers n).storage.owns hash → n = .local 1 4001) ∧
    search.InMesh sampleMetadata localRoster neighbours ∧ ∀ entry ∈ sampleMetadata.chunksMetadata,
      min alpha (Search.others (.local 1 4001) neighbours).length ≤
        (Search.owners w (.local 1 4001) neighbours entry.hash).length := by
  obtain ⟨w, hup, hours, howned, hrest⟩ := sample_replicated
  have hnode : ∀ n, (w.peers n).server.nodeInfo = n := fun n => (hup.runs.traced n).node_eq.trans (hup.node_eq n)
  let search : Search w (.local 1 4001) := ⟨fun _ => steadyTraffic, fun _ => acquaintedNetwork w hnode,
    fun _ _ _ _ => ⟨rfl, rfl, rfl, fun _ => Iff.rfl⟩, fun _ _ => ⟨rfl, rfl, rfl, fun _ => Iff.rfl⟩⟩
  refine ⟨w, search, hup, howned, ?_, ?_, ?_, ?_⟩
  · rintro entry - n text (⟨-, hfile⟩ | ⟨call, hcall, -, hnone, -⟩)
    · cases hfile
    · rw [hours call hcall] at hnone
      cases hnone
  · intro n hash hid howns
    have hn : n ≠ .local 2 4002 := fun hn => absurd (hn ▸ hid) (by decide)
    rw [hrest n hn] at howns
    cases howns
  · refine ⟨by decide, by decide, by decide, by decide, fun _ => acquainted_mesh w hnode, fun _ entry hentry => ?_⟩
    rw [List.mem_singleton.mp hentry]
    exact ⟨by decide, by decide, by decide, fun _ _ _ hne => steadyTransit_answered hne, fun _ _ => id⟩
  · intro entry hentry
    rw [List.mem_singleton.mp hentry]
    have howner : NodeInfo.local 2 4002 ∈ Search.owners w (.local 1 4001) neighbours (Key.ofTopByte 0 0) :=
      List.mem_filter.mpr ⟨by decide, howned⟩
    exact (Nat.min_le_right _ _).trans (List.length_pos_of_mem howner)

/-- It is read back from there. -/
theorem downloaded_from_neighbour : ∃ (w : World) (storers : Nat → NodeInfo),
    (w.peers (.local 2 4002)).storage.owns (Key.ofTopByte 0 0) ∧
      downloadFile tagAead .debug (fun _ => w.peers) (.local 1 4001) (fun _ => localFetch) (fun i _ => .ok (storers i))
        ⟨"f".toList, sampleKey, [⟨Key.ofTopByte 0 0, zeroDraw.nonce⟩]⟩ = .ok [1] := by
  obtain ⟨w, search, hup, howned, hno, hreader, hmesh, hmany⟩ := sample_search
  obtain ⟨storers, -, hdownload⟩ := (hup.downloaded tagAead_lawful (by decide) hno hreader search .debug).2 localRoster
    neighbours hmesh (by decide) hmany
  exact ⟨w, storers, howned, hdownload _ fun _ _ _ => .inr rfl⟩

end P2PFilesystem
