import P2PFilesystem.UploadCall

/-!
# A call of `upload_file` among other uploads

A call is one of the runs in which the moves of an upload are interleaved with everything
else: each of its phases is a sequence of moves, and its result is the one that run ends with.
-/
namespace P2PFilesystem

/-- The network with an upload under way and the stores that have ended. -/
def PeerNetwork.world (self : PeerNetwork) (upload : Upload) (stores : List StoreCall) : World :=
  ⟨self.peer, upload, stores⟩

/-- What goes on besides is moves of the nodes. -/
def Meanwhile (others : PeerNetwork → PeerNetwork) : Prop :=
  ∀ net upload stores, ∃ stores', Relation.ReflTransGen PeerStep (net.world upload stores)
    ((others net).world upload stores')

example : Meanwhile id := fun _ _ stores => ⟨stores, .refl⟩

theorem Meanwhile.runs {others : PeerNetwork → PeerNetwork} (h : Meanwhile others) (A : Aead) (sha1 : Bytes → Key)
    (me : NodeInfo) (net : PeerNetwork) (upload : Upload) (stores : List StoreCall) :
    ∃ stores', Runs A sha1 me (net.world upload stores) ((others net).world upload stores') := by
  obtain ⟨stores', hmoves⟩ := h net upload stores
  exact ⟨stores', hmoves.lift id fun _ _ => .inr⟩

section Phases
variable {A : Aead} {sha1 : Bytes → Key} {me n : NodeInfo} {net : PeerNetwork} {chunk : Chunk} {up : FileUploader}
  {chunks : List Chunk} {stores : List StoreCall} (round : ChunkRound)

theorem ask_step {pending : List NodeInfo} {replies : List Response} :
    UploadStep A sha1 me (net.world ⟨up, .asking chunk (n :: pending) replies, chunks⟩ stores)
      ((sendInitialStoreRequest me chunk.hash round.stores n net).2.world
        ⟨up, .asking chunk pending
          (replies ++ (sendInitialStoreRequest me chunk.hash round.stores n net).1.toList), chunks⟩ stores) := by
  unfold sendInitialStoreRequest
  dsimp only
  rcases sendRequestAndWait_cases me n (.store chunk.hash) (round.stores n) none with ⟨e, hlost⟩ | hheard
  · rw [hlost]
    have hstep : UploadStep A sha1 me (net.world ⟨up, .asking chunk (n :: pending) replies, chunks⟩ stores) _ :=
      .askLost rfl List.mem_cons_self
    rw [List.erase_cons_head] at hstep
    change UploadStep A sha1 me _ (net.world ⟨up, .asking chunk pending (replies ++ []), chunks⟩ stores)
    rwa [List.append_nil]
  · obtain ⟨hstate, hreply⟩ := hheard net
    rw [hstate, hreply]
    have hstep : UploadStep A sha1 me (net.world ⟨up, .asking chunk (n :: pending) replies, chunks⟩ stores) _ :=
      .ask (round.stores n).requestId (round.stores n).env (round.stores n).heard rfl List.mem_cons_self
    rw [List.erase_cons_head] at hstep
    exact hstep

/-- All nodes are asked, one after the other. -/
theorem asks_run (pending : List NodeInfo) (replies : List Response) (net : PeerNetwork) :
    Runs A sha1 me (net.world ⟨up, .asking chunk pending replies, chunks⟩ stores)
      ((joinAll (sendInitialStoreRequest me chunk.hash round.stores) pending net).2.world
        ⟨up, .asking chunk []
          (replies ++ (joinAll (sendInitialStoreRequest me chunk.hash round.stores) pending net).1.reduceOption),
          chunks⟩ stores) := by
  induction pending generalizing replies net with
  | nil =>
      rw [joinAll, List.reduceOption_nil, List.append_nil]
      exact .refl
  | cons n pending ih =>
      refine .head (.inl (ask_step round)) ?_
      rw [joinAll]
      dsimp only
      have hrest := ih (replies ++ (sendInitialStoreRequest me chunk.hash round.stores n net).1.toList)
        (sendInitialStoreRequest me chunk.hash round.stores n net).2
      rw [List.append_assoc, ← List.reduceOption_singleton, ← List.reduceOption_append] at hrest
      exact hrest

/-- The port in a `PORT_OK`, with the node that opened it. -/
def opened (r : Response) : List (NodeInfo × UInt16) := portReply true (some r)

theorem portReply_eq (heard : Bool) (reply : Option Response) : portReply heard reply =
    (reply.filter fun r => heard && r.responseType.isPortOk).toList.flatMap opened := by
  cases reply with
  | none => rfl
  | some r =>
      obtain ⟨type, sender, receiver, id⟩ := r
      cases heard <;> cases type <;> rfl

theorem port_step {r : Response} {pending : List Response} {ports : List (NodeInfo × UInt16)}
    (hfree : (net.peer r.sender).Free (round.ports r.sender).env) :
    UploadStep A sha1 me (net.world ⟨up, .porting chunk (r :: pending) ports, chunks⟩ stores)
      ((sendGetPortRequest me chunk.hash (chunks.length - 1) round.ports r.sender net).2.world
        ⟨up, .porting chunk pending (ports ++ (sendGetPortRequest me chunk.hash (chunks.length - 1) round.ports
          r.sender net).1.toList.flatMap opened), chunks⟩ stores) := by
  unfold sendGetPortRequest
  dsimp only
  rcases sendRequestAndWait_cases me r.sender (.getPort chunk.hash) (round.ports r.sender) (some (chunks.length - 1))
    with ⟨e, hlost⟩ | hheard
  · rw [hlost]
    have hstep : UploadStep A sha1 me (net.world ⟨up, .porting chunk (r :: pending) ports, chunks⟩ stores) _ :=
      .portLost rfl List.mem_cons_self
    rw [List.erase_cons_head] at hstep
    change UploadStep A sha1 me _ (net.world ⟨up, .porting chunk pending (ports ++ []), chunks⟩ stores)
    rwa [List.append_nil]
  · obtain ⟨hstate, hreply⟩ := hheard net
    rw [hstate, hreply, ← portReply_eq]
    have hstep : UploadStep A sha1 me (net.world ⟨up, .porting chunk (r :: pending) ports, chunks⟩ stores) _ :=
      .port (round.ports r.sender).requestId (round.ports r.sender).env (round.ports r.sender).heard rfl
        List.mem_cons_self hfree
    rw [List.erase_cons_head] at hstep
    exact hstep

/-- All chosen nodes are asked for ports; a port that is free stays free until its turn. -/
theorem ports_run (pending : List Response) (ports : List (NodeInfo × UInt16)) (net : PeerNetwork)
    (hnodup : (pending.map Response.sender).Nodup)
    (hfree : ∀ r ∈ pending, (net.peer r.sender).Free (round.ports r.sender).env) :
    Runs A sha1 me (net.world ⟨up, .porting chunk pending ports, chunks⟩ stores)
      ((joinAll (sendGetPortRequest me chunk.hash (chunks.length - 1) round.ports) (pending.map Response.sender)
        net).2.world ⟨up, .porting chunk [] (ports ++ (joinAll (sendGetPortRequest me chunk.hash (chunks.length - 1)
          round.ports) (pending.map Response.sender) net).1.reduceOption.flatMap opened), chunks⟩ stores) := by
  induction pending generalizing ports net with
  | nil =>
      rw [List.map_nil, joinAll, List.reduceOption_nil, List.flatMap_nil, List.append_nil]
      exact .refl
  | cons r pending ih =>
      rw [List.map_cons, List.nodup_cons] at hnodup
      refine .head (.inl (port_step round (hfree r List.mem_cons_self))) ?_
      rw [List.map_cons, joinAll]
      dsimp only
      have hrest := ih (ports ++ (sendGetPortRequest me chunk.hash (chunks.length - 1) round.ports r.sender
        net).1.toList.flatMap opened) (sendGetPortRequest me chunk.hash (chunks.length - 1) round.ports r.sender net).2
        hnodup.2 fun q hq => by
          have hne : q.sender ≠ r.sender := fun heq => hnodup.1 (heq ▸ List.mem_map_of_mem hq)
          rw [(sendGetPortRequest_local me chunk.hash (chunks.length - 1) round.ports).frame r.sender net q.sender hne]
          exact hfree q (List.mem_cons_of_mem r hq)
      rw [List.append_assoc, ← List.reduceOption_singleton, ← List.flatMap_append, ← List.reduceOption_append] at hrest
      exact hrest

/-- The listener behind a `PORT_OK` waits for the chunk. -/
def Waits (index : Nat) (net : PeerNetwork) (r : Response) : Prop :=
  ∃ port, r.responseType = .portOk port ∧ (net.peer r.sender).listeners.lookup port = some ⟨some index, none⟩

theorem send_run {r : Response} {pending : List (NodeInfo × UInt16)} {sent : Bool}
    (hwaits : Waits (chunks.length - 1) net r) :
    ∃ stores', Runs A sha1 me (net.world ⟨up, .sending chunk (opened r ++ pending) sent, chunks⟩ stores)
      ((sendChunkOverTcp chunk (chunks.length - 1) round r net).2.world ⟨up, .sending chunk pending
        (sent || (sendChunkOverTcp chunk (chunks.length - 1) round r net).1), chunks⟩ stores') := by
  obtain ⟨port, hport, hlistener⟩ := hwaits
  have hopened : opened r = [(r.sender, port)] := by
    simp [opened, portReply, hport]
  rw [hopened, List.singleton_append]
  unfold sendChunkOverTcp
  rw [hport]
  dsimp only
  have hsend : UploadStep A sha1 me (net.world ⟨up, .sending chunk ((r.sender, port) :: pending) sent, chunks⟩ stores) _ :=
    .send rfl List.mem_cons_self hlistener
  have hfails : UploadStep A sha1 me (net.world ⟨up, .sending chunk ((r.sender, port) :: pending) sent, chunks⟩ stores) _ :=
    .sendFails rfl List.mem_cons_self
  rw [List.erase_cons_head] at hsend hfails
  cases round.transfers r.sender port with
  | fails =>
      rw [Bool.or_false]
      exact ⟨stores, .single (.inl hfails)⟩
  | received =>
      rw [Bool.or_true]
      exact ⟨stores, .single (.inl hsend)⟩
  | saved io now =>
      rw [Bool.or_true]
      let received := net.receive r.sender port (some (chunks.length - 1)) chunk.data
      have hreceived : (received.peer r.sender).listeners.lookup port =
          some ⟨some (chunks.length - 1), some chunk.data⟩ := by
        rw [PeerNetwork.receive_peer]
        exact AList.lookup_insert _
      have hsave : PeerStep (received.world ⟨up, .sending chunk pending true, chunks⟩ stores)
          ((received.save r.sender port chunk.data io now).world ⟨up, .sending chunk pending true, chunks⟩ _) :=
        .save r.sender port (some (chunks.length - 1)) chunk.data io now hreceived
      exact ⟨_, .tail (.single (.inl hsend)) (.inr hsave)⟩

/-- The chunk is sent to all that opened a port. -/
theorem sends_run (pending : List Response) (sent : Bool) (net : PeerNetwork) (stores : List StoreCall)
    (hnodup : (pending.map Response.sender).Nodup) (hwaits : ∀ r ∈ pending, Waits (chunks.length - 1) net r) :
    ∃ stores', Runs A sha1 me (net.world ⟨up, .sending chunk (pending.flatMap opened) sent, chunks⟩ stores)
      ((joinAll (sendChunkOverTcp chunk (chunks.length - 1) round) pending net).2.world ⟨up, .sending chunk []
        (sent || (joinAll (sendChunkOverTcp chunk (chunks.length - 1) round) pending net).1.any id), chunks⟩ stores') := by
  induction pending generalizing sent net stores with
  | nil =>
      rw [joinAll, List.any_nil, Bool.or_false]
      exact ⟨stores, .refl⟩
  | cons r pending ih =>
      rw [List.map_cons, List.nodup_cons] at hnodup
      obtain ⟨stores₁, hfirst⟩ : ∃ stores₁, Runs A sha1 me
          (net.world ⟨up, .sending chunk (opened r ++ pending.flatMap opened) sent, chunks⟩ stores)
          ((sendChunkOverTcp chunk (chunks.length - 1) round r net).2.world ⟨up, .sending chunk
            (pending.flatMap opened) (sent || (sendChunkOverTcp chunk (chunks.length - 1) round r net).1), chunks⟩
            stores₁) := send_run round (hwaits r List.mem_cons_self)
      obtain ⟨stores₂, hrest⟩ := ih (sent || (sendChunkOverTcp chunk (chunks.length - 1) round r net).1)
        (sendChunkOverTcp chunk (chunks.length - 1) round r net).2 stores₁ hnodup.2 fun q hq => by
          obtain ⟨port, hport, hlistener⟩ := hwaits q (List.mem_cons_of_mem r hq)
          have hne : q.sender ≠ r.sender := fun heq => hnodup.1 (heq ▸ List.mem_map_of_mem hq)
          exact ⟨port, hport, by rwa [(sendChunkOverTcp_local chunk (chunks.length - 1) round).frame r net q.sender hne]⟩
      refine ⟨stores₂, ?_⟩
      rw [joinAll]
      dsimp only
      rw [List.any_cons, id, ← Bool.or_assoc]
      exact hfirst.trans hrest

theorem opened_of_mem {hash : Key} {r : Response} (h : r ∈ portOks me hash round net) :
    ∃ port, opened r = [(r.sender, port)] ∧ r.responseType = .portOk port ∧ r.sender ∈ chosenNodes me hash round net ∧
      openedPort me round (offered me hash round net) r.sender = some port := by
  obtain ⟨n, hn, hport⟩ := List.mem_filterMap.mp h
  obtain ⟨port, hopen, rfl⟩ := Option.map_eq_some_iff.mp hport
  exact ⟨port, rfl, rfl, hn, hopen⟩

theorem opened_portOks_eq_nil {hash : Key} : (portOks me hash round net).flatMap opened = [] ↔
    portOks me hash round net = [] := by
  rw [List.flatMap_eq_nil_iff]
  constructor
  · intro h
    refine List.eq_nil_iff_forall_not_mem.mpr fun r hr => ?_
    obtain ⟨port, hopened, -⟩ := opened_of_mem round hr
    rw [h r hr] at hopened
    cases hopened
  · intro h r hr
    rw [h] at hr
    cases hr

/-- A listener that opened its port for the chunk waits for it. -/
theorem ported_waits {hash : Key} {index : Nat} {r : Response} (h : r ∈ portOks me hash round net) :
    Waits index (ported me hash index round net) r := by
  obtain ⟨port, -, htype, hn, hopen⟩ := opened_of_mem round h
  obtain ⟨hanswered, henv, hnone⟩ := openedPort_eq_some.mp hopen
  refine ⟨port, htype, ?_⟩
  rw [ported_peer hn hanswered, Peer.handle_getPort (PeerNetwork.is_node _ _) henv hnone]
  exact AList.lookup_insert _

end Phases

/-- How the upload goes on after a chunk. -/
def phaseAfter : Except UploadError Unit → UploadPhase
  | .ok _ => .reading
  | .error e => .done (.error e)

section Round
variable {A : Aead} {sha1 : Bytes → Key} {me : NodeInfo} {chunk : Chunk} {up rest : FileUploader} {draw : Draw}
  {round : ChunkRound} {nodes : List NodeInfo} (net : PeerNetwork) (chunks : List Chunk) (stores : List StoreCall)

/-- The chunk is cut and offered to the nodes that were found. -/
theorem offer_run (hcut : up.getNextChunkEncrypt A sha1 draw = (.ok (some chunk), rest))
    (hfound : round.found = .ok nodes) (hbefore : Meanwhile round.before) :
    ∃ stores', Runs A sha1 me (net.world ⟨up, .reading, chunks⟩ stores)
      ((resolveAlphaClosestNodesToKey me chunk.hash round (round.before net)).2.world ⟨rest, .asking chunk []
        (joinAll (sendInitialStoreRequest me chunk.hash round.stores) nodes (round.before net)).1.reduceOption,
        chunks ++ [chunk]⟩ stores') := by
  obtain ⟨stores', hmoves⟩ := hbefore.runs A sha1 me net ⟨up, .reading, chunks⟩ stores
  have hstep : UploadStep A sha1 me ((round.before net).world ⟨up, .reading, chunks⟩ stores')
      ((round.before net).world ⟨rest, .asking chunk nodes [], chunks ++ [chunk]⟩ stores') := .cut nodes rfl hcut
  rw [resolveAlphaClosestNodesToKey_state hfound]
  exact ⟨stores', (hmoves.tail (.inl hstep)).trans (asks_run round nodes [] (round.before net))⟩

/-- The nodes to ask for ports are chosen and asked. -/
theorem choose_run (up : FileUploader) (hfound : round.found = .ok nodes) (hbetween : Meanwhile round.between)
    (hchosen : chosenNodes me chunk.hash round net ≠ [])
    (hfree : ∀ n, ((offered me chunk.hash round net).peer n).Free (round.ports n).env) :
    ∃ stores', Runs A sha1 me
      ((resolveAlphaClosestNodesToKey me chunk.hash round net).2.world ⟨up, .asking chunk []
        (joinAll (sendInitialStoreRequest me chunk.hash round.stores) nodes net).1.reduceOption, chunks⟩ stores)
      ((ported me chunk.hash (chunks.length - 1) round net).world ⟨up, .porting chunk []
        ((portOks me chunk.hash round net).flatMap opened), chunks⟩ stores') := by
  obtain ⟨stores', hmoves⟩ := hbetween.runs A sha1 me
    (resolveAlphaClosestNodesToKey me chunk.hash round net).2 ⟨up, .asking chunk []
      (joinAll (sendInitialStoreRequest me chunk.hash round.stores) nodes net).1.reduceOption, chunks⟩ stores
  have hstep : UploadStep A sha1 me ((offered me chunk.hash round net).world ⟨up, .asking chunk []
      (joinAll (sendInitialStoreRequest me chunk.hash round.stores) nodes net).1.reduceOption, chunks⟩ stores') _ :=
    .choose rfl (mt (storeReplies_eq_nil hfound).mp hchosen) (.refl _)
  rw [chosenReplies_eq hfound] at hstep
  have hsenders := storeOkFrom_senders me round (chosenNodes me chunk.hash round net)
  have hports : Runs A sha1 me ((offered me chunk.hash round net).world ⟨up, .porting chunk
      ((chosenNodes me chunk.hash round net).map (storeOkFrom me round)) [], chunks⟩ stores') _ :=
    ports_run round _ [] _ (hsenders.symm ▸ chosenNodes_nodup) fun r _ => hfree r.sender
  rw [hsenders, portReplies_eq chosenNodes_nodup] at hports
  exact ⟨stores', (hmoves.tail (.inl hstep)).trans hports⟩

/-- The chunk goes to the nodes that opened a port. -/
theorem transfer_run (up : FileUploader) {ports : List Response} (hports : ports.flatMap opened ≠ [])
    (hnodup : (ports.map Response.sender).Nodup) (hwaits : ∀ r ∈ ports, Waits (chunks.length - 1) net r) :
    ∃ stores', Runs A sha1 me (net.world ⟨up, .porting chunk [] (ports.flatMap opened), chunks⟩ stores)
      ((storeChunk ports chunk (chunks.length - 1) round net).2.world
        ⟨up, phaseAfter (storeChunk ports chunk (chunks.length - 1) round net).1, chunks⟩ stores') := by
  have hconnect : UploadStep A sha1 me (net.world ⟨up, .porting chunk [] (ports.flatMap opened), chunks⟩ stores)
      (net.world ⟨up, .sending chunk (ports.flatMap opened) false, chunks⟩ stores) := .connect rfl hports
  obtain ⟨stores', hsends⟩ := sends_run (A := A) round ports false net stores hnodup hwaits
  refine ⟨stores', .head (.inl hconnect) (hsends.tail (.inl ?_))⟩
  rw [Bool.false_or]
  unfold storeChunk
  dsimp only
  cases (joinAll (sendChunkOverTcp chunk (chunks.length - 1) round) ports net).1.any id with
  | false => exact .sentNobody rfl
  | true => exact .sent rfl

/-- The operating system gives each listener a port that is not in use. -/
def PortsFree (me : NodeInfo) (hash : Key) (round : ChunkRound) (net : PeerNetwork) : Prop :=
  ∀ n, ((offered me hash round net).peer n).Free (round.ports n).env

/-- A pass of the loop is a run of the upload. -/
theorem uploadChunk_run (hcut : up.getNextChunkEncrypt A sha1 draw = (.ok (some chunk), rest))
    (hbefore : Meanwhile round.before) (hbetween : Meanwhile round.between)
    (hfree : PortsFree me chunk.hash round (round.before net)) :
    ∃ stores', Runs A sha1 me (net.world ⟨up, .reading, chunks⟩ stores)
      ((uploadChunk me chunk chunks.length round net).2.world
        ⟨rest, phaseAfter (uploadChunk me chunk chunks.length round net).1, chunks ++ [chunk]⟩ stores') := by
  have hresult := resolveAlphaClosestNodesToKey_result me chunk.hash round (round.before net)
  cases hfound : round.found with
  | error e =>
      rw [hfound] at hresult
      obtain ⟨stores', hmoves⟩ := hbefore.runs A sha1 me net ⟨up, .reading, chunks⟩ stores
      have hstate : (resolveAlphaClosestNodesToKey me chunk.hash round (round.before net)).2 = round.before net := by
        rw [resolveAlphaClosestNodesToKey, hfound]
      rw [uploadChunk_of_failed hresult, hstate]
      exact ⟨stores', hmoves.tail (.inl (.lookupFails rfl hcut))⟩
  | ok nodes =>
      obtain ⟨stores₁, hoffer⟩ := offer_run net chunks stores hcut hfound hbefore
      by_cases hchosen : chosenNodes me chunk.hash round (round.before net) = []
      · rw [hfound] at hresult
        dsimp only at hresult
        rw [if_pos hchosen] at hresult
        rw [uploadChunk_of_failed hresult]
        rw [(storeReplies_eq_nil hfound).mpr hchosen] at hoffer
        exact ⟨stores₁, hoffer.tail (.inl (.askedNobody rfl))⟩
      · have hindex : (chunks ++ [chunk]).length - 1 = chunks.length := by
          rw [List.length_append, List.length_singleton, Nat.add_sub_cancel]
        obtain ⟨stores₂, hchoose⟩ := choose_run _ (chunks ++ [chunk]) stores₁ rest hfound hbetween hchosen hfree
        have hported := hoffer.trans hchoose
        rw [hindex] at hported
        rw [uploadChunk_of_chosen chunk hchosen]
        split_ifs with hports
        · rw [hports] at hported
          exact ⟨stores₂, hported.tail (.inl (.noPorts rfl))⟩
        · have hwaits : ∀ r ∈ portOks me chunk.hash round (round.before net),
              Waits ((chunks ++ [chunk]).length - 1) (ported me chunk.hash chunks.length round (round.before net)) r := by
            rw [hindex]
            exact fun r hr => ported_waits round hr
          obtain ⟨stores₃, htransfer⟩ := transfer_run _ (chunks ++ [chunk]) stores₂ rest
            (mt (opened_portOks_eq_nil round).mp hports) portOks_senders_nodup hwaits
          rw [hindex] at htransfer
          exact ⟨stores₃, hported.trans htransfer⟩

end Round

section Loop
variable {A : Aead} {sha1 : Bytes → Key} {me : NodeInfo} {draws : Nat → Draw} {rounds : Nat → ChunkRound}
  {up : FileUploader} {net : PeerNetwork}

/-- The loop ends as a run of the upload does. -/
theorem uploadLoop_run {chunks sent : List Chunk} {index : Nat} (stores : List StoreCall) (hindex : index = sent.length)
    (hcalls : (up.calls A sha1 (fun i => draws (index + i)) (chunks.length + 1)).1 =
      chunks.map (.ok ∘ some) ++ [.ok none])
    (hbefore : ∀ i, Meanwhile (rounds i).before) (hbetween : ∀ i, Meanwhile (rounds i).between)
    (hfree : EveryChunk me rounds (PortsFree me) index chunks net) :
    ∃ up' sent' stores', Runs A sha1 me (net.world ⟨up, .reading, sent⟩ stores)
      ((uploadLoop me A sha1 draws rounds index up net).2.world
        ⟨up', .done (uploadLoop me A sha1 draws rounds index up net).1, sent'⟩ stores') := by
  induction chunks generalizing index up net sent stores with
  | nil =>
      obtain ⟨rest, hcut⟩ := FileUploader.cut_of_calls_nil hcalls
      have hfinish : UploadStep A sha1 me (net.world ⟨up, .reading, sent⟩ stores) _ := .finish rfl hcut
      obtain ⟨rfl, hend⟩ := FileUploader.remaining_of_none hcut
      rw [FileUploader.getMetadata, if_pos (by rw [hend]; rfl)] at hfinish
      rw [uploadLoop_none hcut]
      exact ⟨_, _, _, .single (.inl hfinish)⟩
  | cons chunk chunks ih =>
      obtain ⟨rest, hcut, hrest⟩ := FileUploader.cut_of_calls_cons hcalls
      obtain ⟨hports, hlater⟩ := hfree
      obtain ⟨stores₁, hround⟩ := uploadChunk_run net sent stores hcut (hbefore index) (hbetween index) hports
      rw [← hindex] at hround
      rw [uploadLoop_some hcut]
      generalize uploadChunk me chunk index (rounds index) net = outcome at hround hlater ⊢
      obtain ⟨e | ⟨⟨⟩⟩, net'⟩ := outcome
      · exact ⟨_, _, _, hround⟩
      · have hnext : index + 1 = (sent ++ [chunk]).length := by
          rw [hindex, List.length_append, List.length_singleton]
        obtain ⟨up', sent', stores', hrun⟩ := ih stores₁ hnext hrest hlater
        exact ⟨up', sent', stores', hround.trans hrun⟩

section File
variable {name : Text} {content key : Bytes} {chunks : List Chunk} (hnew : FileUploader.new name content key = .ok up)
  (hcalls : (up.calls A sha1 draws (chunks.length + 1)).1 = chunks.map (.ok ∘ some) ++ [.ok none])
  (hbefore : ∀ i, Meanwhile (rounds i).before) (hbetween : ∀ i, Meanwhile (rounds i).between)
  (hfree : EveryChunk me rounds (PortsFree me) 0 chunks net)
include hnew hcalls hbefore hbetween hfree

/-- A call of `upload_file` is a run of the upload, and its result is what the run ends with. -/
theorem uploadFile_run (stores : List StoreCall) :
    ∃ up' sent stores', Runs A sha1 me (net.world ⟨up, .reading, []⟩ stores)
      ((uploadFile me A sha1 draws rounds name content key net).2.world
        ⟨up', .done (uploadFile me A sha1 draws rounds name content key net).1, sent⟩ stores') := by
  rw [uploadFile_of_new hnew]
  refine uploadLoop_run stores List.length_nil.symm ?_ hbefore hbetween hfree
  simp only [Nat.zero_add, hcalls]

/-- A call that succeeds has cut the whole file, and some node has received each chunk. -/
theorem uploadFile_delivered (hA : A.Lawful) (hstart : (net.world ⟨up, .reading, []⟩ []).Start name content key)
    {md : FileMetadata} (hok : (uploadFile me A sha1 draws rounds name content key net).1 = .ok md) :
    ∃ blocks up' sent stores', md = ⟨name, key, blocks.map (Block.chunkMetadata sha1)⟩ ∧
      List.Forall₂ (Seals A sha1 key) blocks sent ∧ (blocks.map Block.read).flatten = content ∧
      ∀ i < sent.length, ((uploadFile me A sha1 draws rounds name content key net).2.world
        ⟨up', .done (.ok md), sent⟩ stores').Delivered i := by
  obtain ⟨up', sent, stores', hrun⟩ := uploadFile_run hnew hcalls hbefore hbetween hfree []
  rw [hok] at hrun
  obtain ⟨blocks, hmd, hseals, hcontent, hdelivered⟩ := (hstart.inv.runs hA hstart.length_key hrun).finished rfl
  exact ⟨blocks, up', sent, stores', hmd, hseals, hcontent, hdelivered⟩

end File
end Loop
end P2PFilesystem
