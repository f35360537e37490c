import P2PFilesystem.Agreement
import P2PFilesystem.LookupResult
import P2PFilesystem.NetworkLookup
import P2PFilesystem.StorerLookup

/-!
# Looking up storers among nodes that run the request handler

`find_storer` where each `FIND_VALUE` is answered by the handler of the contacted node in the
state it is in then. The call is a run of the lookup on the answers that the nodes gave, and
whoever it returns had the chunk when it was asked.
-/
namespace P2PFilesystem
open LoopFuel

/-- The end of `find_storer`, after the round loop has left with `s`. -/
def finishFindStorer (me : NodeInfo) (target : Key) (traffic : Traffic) (s : LookupRun × PeerNetwork) :
    Except LookupError NodeInfo × PeerNetwork :=
  let failure := LookupError.bail ("Failed to find storer for chunk ".toList ++ target.toHexString ++ ['.'])
  match (s.1.rounds.headD []).find? LookupResponse.isValue with
  | some response => (.ok response.resolver, s.2)
  | none =>
      let remainingResolvers := s.1.buffer.getUnqueriedResultingNodes
      if remainingResolvers.isEmpty then (.error failure, s.2)
      else
        let (remainingResponses, net) := networkRound me target true traffic s.1.rounds.length remainingResolvers s.2
        match remainingResponses.find? LookupResponse.isValue with
        | some response => (.ok response.resolver, net)
        | none => (.error failure, net)

/-- `find_storer` by the node `me`. -/
def PeerNetwork.findStorer (me : NodeInfo) (self : PeerNetwork) (target : Key) (traffic : Traffic) (fuel : Nat) :
    Option (Except LookupError NodeInfo × PeerNetwork) :=
  match (self.peer me).storage.readChunk target with
  | .ok _ => some (.ok me, self)
  | .error _ => match (self.table me).getAlphaClosest target with
      | .error e => some (.error (.routingTable e), self)
      | .ok initialResolvers =>
          if initialResolvers.isEmpty then
            some (.error (.bail "No initial resolvers available for find_value resolutions".toList), self)
          else (runLoop (networkPass me target true traffic) fuel (lookupStart target initialResolvers me, self)).map
            (finishFindStorer me target traffic)

def PeerNetwork.readable (self : PeerNetwork) (n : NodeInfo) (target : Key) : Bool :=
  (((self.peer n).storage.readChunk target).toOption).isSome

section Calls
variable {me : NodeInfo} {target : Key} {traffic : Traffic} {I : PeerNetwork → Prop} {net : PeerNetwork}

theorem finishFindStorer_eq {u : LookupRun × PeerNetwork} {answers : Answers} (hnd : u.1.buffer.contacts.Nodup)
    (hlast : answers u.1.rounds.length = answerIn me target true traffic u.1.rounds.length u.2) :
    (finishFindStorer me target traffic u).1 = (Node.storerOf target answers u.1).1 := by
  have hround := networkRound_fst me target true traffic u.2
    (LookupBuffer.unqueriedResultingNodes_nodup hnd) u.1.rounds.length
  simp only [finishFindStorer, Node.storerOf, hround, hlast]
  cases (u.1.rounds.headD []).find? LookupResponse.isValue with
  | some response => rfl
  | none =>
      cases hempty : u.1.buffer.getUnqueriedResultingNodes.isEmpty with
      | true => simp only [if_true]
      | false =>
          simp only [Bool.false_eq_true, if_false]
          cases (lookupRound u.1.buffer.getUnqueriedResultingNodes true
            (answerIn me target true traffic u.1.rounds.length u.2)).find? LookupResponse.isValue with
          | some response => rfl
          | none => rfl

theorem KeptInLookup.finish (h : KeptInLookup me target true traffic I) {u : LookupRun × PeerNetwork}
    (hI : I u.2) : I (finishFindStorer me target traffic u).2 := by
  unfold finishFindStorer
  dsimp only
  split
  · exact hI
  · split_ifs
    · exact hI
    · split <;> exact h.networkRound hI

theorem KeptInLookup.findStorer (h : KeptInLookup me target true traffic I) (hvalid : (net.table me).Valid) (hI : I net) :
    ∃ answers result rounds net', ComeFrom me target true traffic I answers ∧ I net' ∧
      Returns ((net.node me).findStorer target (net.readable me target) answers) (result, rounds) ∧
      Returns (net.findStorer me target traffic) (result, net') := by
  cases hread : (net.peer me).storage.readChunk target with
  | ok data =>
      have hreadable : net.readable me target = true := by
        simp only [PeerNetwork.readable, hread]
        rfl
      refine ⟨answersNow me target true traffic net, .ok me, [], net, fun _ => ⟨net, hI, rfl⟩, hI, ⟨0, fun _ _ => ?_⟩,
        ⟨0, fun _ _ => ?_⟩⟩
      · simp only [Node.findStorer, hreadable, if_true]
        rfl
      · simp only [PeerNetwork.findStorer, hread]
  | error e =>
      have hreadable : net.readable me target = false := by
        simp only [PeerNetwork.readable, hread]
        rfl
      cases hinit : (net.table me).getAlphaClosest target with
      | error e =>
          refine ⟨answersNow me target true traffic net, .error (.routingTable e), [], net, fun _ => ⟨net, hI, rfl⟩, hI,
            ⟨0, fun _ _ => ?_⟩, ⟨0, fun _ _ => ?_⟩⟩
          · simp only [Node.findStorer, hreadable, Bool.false_eq_true, if_false, PeerNetwork.node, hinit]
          · simp only [PeerNetwork.findStorer, hread, hinit]
      | ok initial =>
          cases hempty : initial.isEmpty with
          | true =>
              refine ⟨answersNow me target true traffic net,
                .error (.bail "No initial resolvers available for find_value resolutions".toList), [], net,
                fun _ => ⟨net, hI, rfl⟩, hI, ⟨0, fun _ _ => ?_⟩, ⟨0, fun _ _ => ?_⟩⟩
              · simp only [Node.findStorer, hreadable, Bool.false_eq_true, if_false, PeerNetwork.node, hinit, hempty,
                  if_true]
              · simp only [PeerNetwork.findStorer, hread, hinit, hempty, if_true]
          | false =>
              have hstart : (lookupStart target initial me).buffer.contacts.Nodup :=
                (LookupBuffer.contacts_new_perm target initial me).nodup_iff.mpr (hvalid.getNClosest_subset hinit).1
              obtain ⟨u, hexits⟩ := networkPass_exits me target true traffic
                (s := (lookupStart target initial me, net)) hstart
              obtain ⟨hu, hndu, answers, hfrom, hrun, hlast⟩ := h.exits hexits hstart hI
              refine ⟨answers, (Node.storerOf target answers u.1).1, (Node.storerOf target answers u.1).2,
                (finishFindStorer me target traffic u).2, hfrom, h.finish hu, ?_, ?_⟩
              · have hcall : (net.node me).findStorer target (net.readable me target) answers = fun fuel =>
                    (runLoop (lookupPass true answers) fuel (lookupStart target initial me)).map
                      (Node.storerOf target answers) := by
                  funext fuel
                  simp only [Node.findStorer, hreadable, PeerNetwork.node, hinit, hempty, Bool.false_eq_true, if_false]
                  rfl
                rw [hcall]
                exact hrun.returns _
              · have hcall : net.findStorer me target traffic = fun fuel =>
                    (runLoop (networkPass me target true traffic) fuel (lookupStart target initial me, net)).map
                      (finishFindStorer me target traffic) := by
                  funext fuel
                  simp only [PeerNetwork.findStorer, hread, hinit, hempty, Bool.false_eq_true, if_false]
                have hresult : ((Node.storerOf target answers u.1).1, (finishFindStorer me target traffic u).2) =
                    finishFindStorer me target traffic u :=
                  Prod.ext (finishFindStorer_eq hndu (hlast _ (Nat.le_refl _))).symm rfl
                rw [hcall, hresult]
                exact hexits.returns _

theorem Peer.handle_response (p : Peer) (request : Request) (env : HandlerEnv) (chunk : Option Nat) :
    (p.handle request env chunk).1 = (p.server.handleReceivedRequest request env).response := by
  simp only [Peer.handle]
  cases (p.server.handleReceivedRequest request env).response with
  | none => rfl
  | some response =>
      dsimp only
      split <;> rfl

/-- Where the chunk is not, `FIND_VALUE` is handled as `FIND_NODE`. -/
theorem PeerNetwork.handle_findValue_reply (me n : NodeInfo) (requestId : RequestId) (env : HandlerEnv) (chunk : Option Nat) :
    ((net.peer n).handle ⟨.findValue target, me, n, requestId⟩ env chunk).1 =
      if (net.peer n).storage.isChunkAlreadyStored target then some ⟨.hasValue target, n, me, requestId⟩
      else ((net.peer n).handle ⟨.findNode target, me, n, requestId⟩ env chunk).1 := by
  have hnode := net.is_node n
  have howns : ((net.peer n).server.recordPossibleNeighbour me env.ping).shardStorageManager.isChunkAlreadyStored target =
      (net.peer n).storage.isChunkAlreadyStored target := rfl
  simp only [Peer.handle, Server.handleReceivedRequest, hnode, ne_eq, not_true, if_false, Server.handleFindValueMessage,
    howns]
  cases (net.peer n).storage.isChunkAlreadyStored target with
  | true =>
      simp only [if_true, Server.respond, Server.recordPossibleNeighbour, hnode]
  | false =>
      simp only [Bool.false_eq_true, if_false]
      rfl

/-- A node that answers with the value owns the chunk. -/
theorem owned_of_hasValue {n : NodeInfo} {t : Transit} {response : Response} {key : Key}
    (h : (sendLookupRequest me (.findValue target) n t net).1 = .ok response) (htype : response.responseType = .hasValue key) :
    (net.peer n).storage.isChunkAlreadyStored target = true := by
  have hreply : (sendRequestAndWait me (.findValue target) n t none net).1 = .ok response := by
    simp only [sendLookupRequest] at h
    split at h
    · cases h
    · split at h
      · cases h
        assumption
      · cases h
  obtain ⟨-, hhandle⟩ := (sendRequestAndWait_reply me n (.findValue target) t none net response).mp hreply
  by_contra howns
  rw [PeerNetwork.handle_findValue_reply, if_neg howns] at hhandle
  rw [Peer.handle_response] at hhandle
  have hallowed := (Server.handleReceivedRequest_agreesWith hhandle).allowed
  rw [htype] at hallowed
  exact hallowed

theorem hasValue_of_singleLookup {c : NodeInfo} {outcome : Except NodeError Response}
    (h : (singleLookup c true outcome).isValue = true) :
    ∃ response key, outcome = .ok response ∧ response.responseType = .hasValue key := by
  cases outcome with
  | error e => cases h
  | ok response =>
      cases htype : response.responseType with
      | hasValue key => exact ⟨response, key, rfl, htype⟩
      | _ =>
          simp only [singleLookup, htype] at h
          cases h

/-- A result of the search comes with an answer in which it has the value. -/
theorem valueAnswer_of_storerOf {answers : Answers} {initial : List NodeInfo} {t : LookupRun} {n : NodeInfo}
    (hexits : Exits (lookupPass true answers) (lookupStart target initial me) t)
    (h : (Node.storerOf target answers t).1 = .ok n) :
    ∃ round response key, answers round n = .ok response ∧ response.responseType = .hasValue key := by
  have hgave : ∀ (cs : List NodeInfo) round r, r ∈ lookupRound cs true (answers round) → r.isValue = true →
      ∃ response key, answers round r.resolver = .ok response ∧ response.responseType = .hasValue key := by
    intro cs round r hr hvalue
    obtain ⟨c, -, rfl⟩ := List.mem_map.mp hr
    rw [singleLookup_resolver]
    exact hasValue_of_singleLookup hvalue
  rcases storerOf_cases target answers t with
    ⟨r, hr, hvalue, heq⟩ | ⟨-, ⟨r, hr, hvalue, heq⟩ | ⟨-, e, rounds, heq, -⟩⟩
  · rw [heq] at h
    cases h
    rcases exits_rounds_mem hexits (mem_of_mem_headD hr) with hold | ⟨s, -, hround⟩
    · cases hold
    · rw [hround] at hr
      exact ⟨_, hgave _ _ r hr hvalue⟩
  · rw [heq] at h
    cases h
    exact ⟨_, hgave _ _ r hr hvalue⟩
  · rw [heq] at h
    cases h

/-- A call that finds somebody has read the chunk itself or has ended a lookup. -/
theorem Node.findStorer_ok {self : Node} {readChunkOk : Bool} {answers : Answers} {n : NodeInfo}
    {rounds : List (List LookupResponse)}
    (h : Returns (self.findStorer target readChunkOk answers) (.ok n, rounds)) :
    n = self.toNodeInfo ∧ readChunkOk = true ∨ ∃ initial t,
      Exits (lookupPass true answers) (lookupStart target initial self.toNodeInfo) t ∧
        (Node.storerOf target answers t).1 = .ok n := by
  cases readChunkOk with
  | true =>
      have hown : Returns (self.findStorer target true answers) (.ok self.toNodeInfo, []) := ⟨0, fun _ _ => rfl⟩
      exact .inl ⟨Except.ok.inj (congrArg Prod.fst (h.unique hown)), rfl⟩
  | false =>
      cases hinit : self.routingTable.getAlphaClosest target with
      | error e =>
          have herror : Returns (self.findStorer target false answers) (.error (.routingTable e), []) := ⟨0, fun _ _ => by
            simp only [Node.findStorer, hinit, Bool.false_eq_true, if_false]⟩
          cases h.unique herror
      | ok initial =>
          cases hempty : initial.isEmpty with
          | true =>
              have herror : Returns (self.findStorer target false answers)
                  (.error (.bail "No initial resolvers available for find_value resolutions".toList), []) := ⟨0, fun _ _ => by
                simp only [Node.findStorer, hinit, hempty, Bool.false_eq_true, if_false, if_true]⟩
              cases h.unique herror
          | false =>
              obtain ⟨t, ht⟩ := lookup_exits true answers (lookupStart target initial self.toNodeInfo)
              have hcall : self.findStorer target false answers = fun fuel =>
                  (runLoop (lookupPass true answers) fuel (lookupStart target initial self.toNodeInfo)).map
                    (Node.storerOf target answers) := by
                funext fuel
                simp only [Node.findStorer, hinit, hempty, Bool.false_eq_true, if_false]
                rfl
              rw [hcall] at h
              exact .inr ⟨initial, t, ht, (congrArg Prod.fst (h.unique (ht.returns _))).symm⟩

/-- Whoever the search among the nodes returns is the node itself, with the chunk at hand, or
owned the chunk when it was asked. -/
theorem KeptInLookup.findStorer_owned (h : KeptInLookup me target true traffic I) (hvalid : (net.table me).Valid) (hI : I net)
    {n : NodeInfo} {net' : PeerNetwork} (hreturns : Returns (net.findStorer me target traffic) (.ok n, net')) :
    n = me ∧ net.readable me target = true ∨ ∃ asked, I asked ∧ (asked.peer n).storage.isChunkAlreadyStored target = true := by
  obtain ⟨answers, result, rounds, net'', hfrom, -, horacle, hnetwork⟩ := h.findStorer hvalid hI
  cases hreturns.unique hnetwork
  rcases Node.findStorer_ok horacle with ⟨hme, hread⟩ | ⟨initial, t, hexits, hstorer⟩
  · exact .inl ⟨hme, hread⟩
  · obtain ⟨round, response, key, hanswer, htype⟩ := valueAnswer_of_storerOf hexits hstorer
    obtain ⟨asked, hasked, hround⟩ := hfrom round
    rw [hround] at hanswer
    exact .inr ⟨traffic.others round asked, h.others round asked hasked, owned_of_hasValue hanswer htype⟩

/-- The stores that `find_node` ends with; there are none unless a lookup starts. -/
def Node.findNodeStores (self : Node) (target : Key) (answers : Answers) (pings : Nat → PingOutcome) (now fuel : Nat) :
    Option (List (NodeInfo × PingOutcome)) :=
  match self.routingTable.lookupGetNClosest target alpha now with
  | (.error _, _) => some []
  | (.ok initialResolvers, _) =>
      if initialResolvers.isEmpty then some []
      else (self.nodeLookup target initialResolvers [] answers fuel).map fun s => s.buffer.tableStores pings

/-- A `find_node` is over before anybody is asked, or it is the lookup from its initial resolvers on. -/
theorem findNode_starts (net : PeerNetwork) (me : NodeInfo) (target : Key) (pings : Nat → PingOutcome) (now : Nat) :
    ∃ table, (∃ result,
      (∀ answers fuel, (net.node me).findNode target answers pings now fuel =
        some (result, { net.node me with routingTable := table })) ∧
      (∀ answers fuel, (net.node me).findNodeStores target answers pings now fuel = some []) ∧
      ∀ traffic fuel, net.findNode me target traffic pings now fuel = some (result, net.setTable me table)) ∨
    ∃ initial, initial ≠ [] ∧ (net.table me).lookupGetNClosest target alpha now = (.ok initial, table) ∧
      (∀ answers fuel, (net.node me).findNode target answers pings now fuel =
        ((net.node me).nodeLookup target initial [] answers fuel).map fun s =>
          (.ok s.buffer.getResultingVector, { net.node me with
            routingTable := table.storeAll (s.buffer.tableStores pings) })) ∧
      ∀ answers fuel, (net.node me).findNodeStores target answers pings now fuel =
        ((net.node me).nodeLookup target initial [] answers fuel).map fun s => s.buffer.tableStores pings := by
  rcases hinit : (net.table me).lookupGetNClosest target alpha now with ⟨⟨e⟩ | ⟨initial⟩, table⟩
  · refine ⟨table, .inl ⟨.error (.routingTable e), fun answers fuel => ?_, fun answers fuel => ?_, fun traffic fuel => ?_⟩⟩
    · simp only [Node.findNode, PeerNetwork.node, hinit]
    · simp only [Node.findNodeStores, PeerNetwork.node, hinit]
    · simp only [PeerNetwork.findNode, hinit]
  cases initial with
  | nil =>
      refine ⟨table, .inl ⟨.error (.bail "No initial resolvers available for find_node resolutions".toList),
        fun answers fuel => ?_, fun answers fuel => ?_, fun traffic fuel => ?_⟩⟩
      · simp only [Node.findNode, PeerNetwork.node, hinit, List.isEmpty_nil, if_true]
      · simp only [Node.findNodeStores, PeerNetwork.node, hinit, List.isEmpty_nil, if_true]
      · simp only [PeerNetwork.findNode, hinit, List.isEmpty_nil, if_true]
  | cons n ns =>
      refine ⟨table, .inr ⟨n :: ns, List.cons_ne_nil n ns, rfl, fun answers fuel => ?_, fun answers fuel => ?_⟩⟩
      · simp only [Node.findNode, PeerNetwork.node, hinit, List.isEmpty_cons, Bool.false_eq_true, if_false]
        rfl
      · simp only [Node.findNodeStores, PeerNetwork.node, hinit, List.isEmpty_cons, Bool.false_eq_true, if_false]

theorem KeptInLookup.findNode_refines (h : KeptInLookup me target false traffic I) (hvalid : (net.table me).Valid) (hI : I net)
    (hown : ∀ net table, I net → I (net.setTable me table)) (pings : Nat → PingOutcome) (now : Nat) :
    ∃ answers result node stores updated, ComeFrom me target false traffic I answers ∧ I updated ∧
      Returns ((net.node me).findNode target answers pings now) (result, node) ∧
      Returns ((net.node me).findNodeStores target answers pings now) stores ∧
      ((updated.table me).roomForAll false stores = true →
        ∃ net', I net' ∧ Returns (net.findNode me target traffic pings now) (result, net')) ∧
      ((updated.table me).roomForAll false stores = false → Diverges (net.findNode me target traffic pings now)) := by
  obtain ⟨table, ⟨result, hnode, hstores, hnet⟩ | ⟨initial, hne, hinit, hnode, hstores⟩⟩ :=
    findNode_starts net me target pings now
  · have hkept := hown net table hI
    refine ⟨answersNow me target false traffic net, result, _, [], net.setTable me table, fun _ => ⟨net, hI, rfl⟩, hkept,
      ⟨0, fun _ _ => hnode _ _⟩, ⟨0, fun _ _ => hstores _ _⟩, fun _ => ⟨_, hkept, ⟨0, fun _ _ => hnet _ _⟩⟩, fun hroom => ?_⟩
    cases hroom
  · obtain ⟨hnd, -⟩ := hvalid.lookupGetNClosest_subset hinit
    obtain ⟨t, net', answers, hfrom, hnet', hexits, hreturns, hdiverges⟩ :=
      h.findNode pings hinit hne hnd (hown net table hI)
    have horacle := (net.node me).nodeLookup_returns hexits fun s => ((.ok s.buffer.getResultingVector,
      { net.node me with routingTable := table.storeAll (s.buffer.tableStores pings) }) :
      Except LookupError (List NodeInfo) × Node)
    have hends := (net.node me).nodeLookup_returns hexits fun s => s.buffer.tableStores pings
    rw [← funext (hnode answers)] at horacle
    rw [← funext (hstores answers)] at hends
    exact ⟨answers, _, _, _, net', hfrom, hnet', horacle, hends,
      fun hroom => ⟨_, hown _ _ hnet', hreturns hroom⟩, hdiverges⟩

end Calls

/-- The nodes have the chunk files and own the chunks that these peers do. -/
def KeepsStorage (peers : NodeInfo → Peer) (net : PeerNetwork) : Prop :=
  ∀ n, (peers n).server.Keeps (net.peer n).server

theorem Server.Keeps.trans {s s' s'' : Server} (h : s.Keeps s') (h' : s'.Keeps s'') : s.Keeps s'' where
  node_eq := h'.node_eq.trans h.node_eq
  files_eq := h'.files_eq.trans h.files_eq
  total_eq := h'.total_eq.trans h.total_eq
  owns_iff := fun hash => (h'.owns_iff hash).trans (h.owns_iff hash)

theorem Server.handleReceivedRequest_keeps (s : Server) (request : Request) (env : HandlerEnv) :
    s.Keeps (s.handleReceivedRequest request env).server := by
  rcases s.handleReceivedRequest_cases request env with h | ⟨h, -⟩
  · exact h.keeps
  · exact h

section Storage
variable {peers : NodeInfo → Peer} {net : PeerNetwork} {me n : NodeInfo} {hash : Key}

theorem KeepsStorage.trans {net' : PeerNetwork} (h : KeepsStorage peers net) (h' : KeepsStorage net.peer net') :
    KeepsStorage peers net' := fun n => (h n).trans (h' n)

theorem KeepsStorage.request (h : KeepsStorage peers net) (me c : NodeInfo) (type : RequestType) (t : Transit) :
    KeepsStorage peers (sendLookupRequest me type c t net).2 := by
  intro n
  rw [sendLookupRequest_snd]
  rcases sendRequestAndWait_state me c type t none with hstate | hstate
  · rw [hstate]
    exact h n
  · rw [hstate]
    by_cases hn : n = c
    · subst hn
      rw [PeerNetwork.handle_peer, Peer.server_handle]
      exact (h n).trans (Server.handleReceivedRequest_keeps _ _ _)
    · rw [PeerNetwork.handle_frame hn]
      exact h n

theorem KeepsStorage.owns_iff (h : KeepsStorage peers net) (n : NodeInfo) (hash : Key) :
    (net.peer n).storage.isChunkAlreadyStored hash = true ↔ (peers n).storage.owns hash := (h n).owns_iff hash

theorem KeepsStorage.readable_iff (h : KeepsStorage peers net) (n : NodeInfo) (hash : Key) :
    net.readable n hash = true ↔ ((peers n).storage.files.lookup hash).isSome := by
  have hfiles : (net.peer n).storage.files = (peers n).storage.files := (h n).files_eq
  rw [PeerNetwork.readable, ShardStorageManager.readChunk, hfiles]
  cases (peers n).storage.files.lookup hash with
  | none => exact Iff.rfl
  | some data => exact Iff.rfl

end Storage

/-- The tables of all nodes but one are in order. -/
def OthersValid (me : NodeInfo) (net : PeerNetwork) : Prop := ∀ n, n ≠ me → (net.table n).Valid

theorem othersValid_kept (me : NodeInfo) (target : Key) (forValue : Bool) :
    KeptInLookup me target forValue steadyTraffic (OthersValid me) where
  others := fun _ _ => id
  request := by
    intro round c net hnet n hn
    rcases table_sendLookupRequest me c (lookupRequest target forValue) (steadyTraffic.transit round c) net with
      hsame | ⟨-, hstored, hrest⟩
    · rw [hsame n]
      exact hnet n hn
    · by_cases hnc : n = c
      · subst hnc
        rw [hstored]
        exact RoutingTable.storeNodeinfo_valid (hnet n hn) _ _
      · rw [hrest n hnc]
        exact hnet n hn

theorem OthersValid.setTable {me : NodeInfo} {net : PeerNetwork} (h : OthersValid me net) (table : RoutingTable) :
    OthersValid me (net.setTable me table) := by
  intro n hn
  rw [PeerNetwork.table_setTable_of_ne hn]
  exact h n hn

end P2PFilesystem
