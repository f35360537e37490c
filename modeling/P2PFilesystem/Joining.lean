import P2PFilesystem.Mesh

/-!
# Joining a mesh

A node that knows nobody but members of a mesh joins it through one of them. Each member that
answers has stored it, the beacon included, and as everybody answers the newcomer in turn
knows everybody. Nodes that join one after the other therefore always form a mesh.
-/
namespace P2PFilesystem
open LoopFuel

/-- What goes on besides while a node joins: members keep knowing each other and the newcomer,
and nobody else takes part. -/
structure Traffic.Bystanding (traffic : Traffic) (members : List NodeInfo) (me : NodeInfo) : Prop where
  visited : ∀ round net, Visited members me net → Visited members me (traffic.others round net)
  remembers : ∀ round net, ∀ c ∈ members, me ∈ (net.table c).getAllNodeinfos →
    me ∈ ((traffic.others round net).table c).getAllNodeinfos
  outside : ∀ round net m, m ∉ members → (traffic.others round net).table m = net.table m

/-- A node of the roster that joins its members through one of them, and is answered. -/
structure Newcomer (r : Roster) (members : List NodeInfo) (me beacon : NodeInfo) (ping : Transit) (traffic : Traffic) :
    Prop where
  members_subset : members ⊆ r.nodes
  me_mem : me ∈ r.nodes
  me_notMem : me ∉ members
  beacon_mem : beacon ∈ members
  pinged : ping.Answered me beacon
  answered : traffic.AnsweredBy me members
  bystanding : traffic.Bystanding members me

/-- A state of the call: everybody who answered has stored the newcomer. -/
structure Introduced (members : List NodeInfo) (me : NodeInfo) (before : PeerNetwork) (initial : List NodeInfo)
    (s : LookupRun × PeerNetwork) : Prop where
  run : ResponsiveRun (Present members me) initial me s.1
  visited : Visited members me s.2
  outside : ∀ m, m ∉ members → s.2.table m = before.table m
  stored : ∀ c, s.1.Answered c → c ∈ members ∧ me ∈ (s.2.table c).getAllNodeinfos

/-- Members that know each other and the newcomer, and a newcomer that knows the members, are a mesh. -/
theorem Visited.mesh_cons {members : List NodeInfo} {me : NodeInfo} {net : PeerNetwork} {table : RoutingTable}
    (h : Visited members me net) (hnotMem : me ∉ members) (hme : ∀ a ∈ members, me ∈ (net.table a).getAllNodeinfos)
    (hid : table.id = me.id) (hvalid : table.Valid) (hmine : ∀ c, c ∈ table.getAllNodeinfos ↔ c ∈ members) :
    Mesh (me :: members) (net.setTable me table) := by
  have hne : ∀ a ∈ members, a ≠ me := by
    rintro a ha rfl
    exact hnotMem ha
  have htable : ∀ a ∈ members, (net.setTable me table).table a = net.table a := fun a ha =>
    PeerNetwork.table_setTable_of_ne (hne a ha) _ _
  constructor
  · intro a ha
    rcases List.mem_cons.mp ha with rfl | ha
    · rw [PeerNetwork.table_setTable]
      exact hid
    · rw [htable a ha]
      exact (h a ha).id_eq
  · intro a ha
    rcases List.mem_cons.mp ha with rfl | ha
    · rw [PeerNetwork.table_setTable]
      exact hvalid
    · rw [htable a ha]
      exact (h a ha).valid
  · intro a ha c
    rcases List.mem_cons.mp ha with rfl | ha
    · rw [PeerNetwork.table_setTable, hmine c, List.mem_cons]
      refine ⟨fun hc => ⟨.inr hc, hne c hc⟩, ?_⟩
      rintro ⟨hc, hca⟩
      exact hc.resolve_left hca
    · rw [htable a ha, (h a ha).mem_iff (.inl (hme a ha)), List.mem_cons, and_comm, or_comm]

/-- A ping that arrives is answered. -/
theorem sendLookupRequest_ping {me n : NodeInfo} {t : Transit} (h : t.Answered me n) (net : PeerNetwork) :
    (sendLookupRequest me .ping n t net).1 = .ok ⟨.pong, n, me, t.requestId⟩ := by
  have hhandle : ((net.peer n).handle ⟨.ping, me, n, t.requestId⟩ t.env none).1 =
      some ⟨.pong, n, me, t.requestId⟩ := by
    simp only [Peer.handle, Server.handleReceivedRequest, net.is_node, ne_eq, not_true, if_false,
      Server.handlePingMessage, Server.recordPossibleNeighbour, Server.respond]
  have hreply := (sendRequestAndWait_reply me n .ping t none net _).mpr ⟨h, hhandle⟩
  have hsend : sendResponse true ⟨.pong, n, me, t.requestId⟩ = .ok _ := sendResponse_ok trivial
  simp only [sendLookupRequest, hreply, hsend]

/-- After a lookup that ended closed nobody is left to ask. -/
theorem Closed.networkClosing {known : NodeInfo → Prop} {initial : List NodeInfo} {thisNode : NodeInfo}
    {u : LookupRun × PeerNetwork} (h : Closed known initial thisNode u.1) (me : NodeInfo) (target : Key) (traffic : Traffic)
    (answers : Answers) : networkClosing me target traffic u =
      (closingRound answers u.1, traffic.others u.1.rounds.length u.2) := by
  simp only [P2PFilesystem.networkClosing, closingRound, networkLastRound, h.unqueriedResultingNodes_eq_nil,
    lookupRound_nil]
  rfl

/-- A call that gets past the beacon is the lookup from what the beacon has listed. -/
theorem joinNetwork_eq {me beacon : NodeInfo} {ping : Transit} {traffic : Traffic} {pings : Nat → PingOutcome}
    {net pinged asked : PeerNetwork} {table : RoutingTable} {response : Response} {l : List NodeInfo}
    (hroom : (net.table me).hasRoomFor beacon = true)
    (hstore : (net.table me).storeNodeinfo beacon (pings 0) = (.ok (), table))
    (hping : (net.setTable me table).ping me beacon.id ping = (.ok response, pinged))
    (hfirst : sendSingleLookup me me.id false (traffic.transit 0) beacon (traffic.others 0 pinged) =
      (.newNodesSuccessful beacon l, asked)) (hne : l ≠ []) :
    net.joinNetwork me beacon ping traffic pings = fun fuel => (runLoop (networkPass me me.id false traffic) fuel
      (⟨LookupBuffer.new me.id (l.filter (· ≠ me)) me, [[.newNodesSuccessful beacon l]]⟩, asked)).bind
        (finishJoin me traffic pings) := by
  have hclosest : (LookupResponse.newNodesSuccessful beacon l).kClosest = l := rfl
  funext fuel
  simp only [PeerNetwork.joinNetwork, hroom, Bool.not_true, Bool.false_eq_true, if_false, hstore, hping, hfirst, hclosest,
    if_neg (mt List.isEmpty_iff.mp hne)]

namespace Inquiry
variable {r : Roster} {members : List NodeInfo} {me : NodeInfo} {target : Key} {traffic : Traffic} {before : PeerNetwork}
  {initial : List NodeInfo} {s u : LookupRun × PeerNetwork} (h : Inquiry r members me target traffic)
  (hb : traffic.Bystanding members me)
include h hb

/-- A round introduces the asking node to those it asks. -/
theorem round (hs : Introduced members me before initial s) :
    Introduced members me before initial
      (⟨(nextBuffer false (answersNow me target false traffic s.2) s.1).2,
        nextRound false (answersNow me target false traffic s.2) s.1 :: s.1.rounds⟩,
        afterRound me target false traffic s) := by
  have hnd : s.1.buffer.batch.Nodup := LookupBuffer.batch_nodup hs.run.allAnswered.nodup
  have hbatch : ∀ c ∈ s.1.buffer.batch, c ∈ members ∧ c ≠ me := fun _ => hs.run.batch_subset
  have hanswered : ∀ c ∈ s.1.buffer.batch, (traffic.transit s.1.rounds.length c).Answered me c := fun c hc =>
    h.answered _ c (hbatch c hc).1 (hbatch c hc).2
  have htable := table_networkRound target false s.2 hnd hanswered
  have hothers := hb.visited s.1.rounds.length s.2 hs.visited
  have hfrom : ComeFrom me target false traffic (Visited members me) (answersNow me target false traffic s.2) :=
    fun _ => ⟨s.2, hs.visited, rfl⟩
  have hstored : ∀ c ∈ s.1.buffer.batch,
      me ∈ ((afterRound me target false traffic s).table c).getAllNodeinfos := by
    intro c hc
    obtain ⟨hcmem, hcme⟩ := hbatch c hc
    obtain ⟨-, -, hmem⟩ := ((hothers c hcmem).within h.members_subset h.me_mem).store (h.members_subset hcmem)
      h.me_mem hcme.symm (traffic.transit s.1.rounds.length c).env.ping
    rw [afterRound, htable c, if_pos hc]
    exact (hmem me).mpr (.inl rfl)
  refine ⟨hs.run.next h.oneAddress (hs.run.batchAnswers (h.answersKnown hfrom)),
    (h.kept false).networkRound hs.visited, fun m hm => ?_, fun c hc => ?_⟩
  · rw [afterRound, htable m, if_neg fun hin => hm (hbatch m hin).1, hb.outside _ _ m hm]
    exact hs.outside m hm
  · obtain ⟨rs, hrs, x, hx, hresolver, hgave⟩ := hc
    by_cases hasked : c ∈ s.1.buffer.batch
    · exact ⟨(hbatch c hasked).1, hstored c hasked⟩
    · rcases List.mem_cons.mp hrs with rfl | hrs
      · obtain ⟨d, hd, rfl⟩ := List.mem_map.mp hx
        rw [singleLookup_resolver] at hresolver
        exact absurd (hresolver ▸ hd) hasked
      · obtain ⟨hcmem, hold⟩ := hs.stored c ⟨rs, hrs, x, hx, hresolver, hgave⟩
        refine ⟨hcmem, ?_⟩
        rw [afterRound, htable c, if_neg hasked]
        exact hb.remembers _ _ c hcmem hold

theorem exits (hs : Introduced members me before initial s)
    (hexits : Exits (networkPass me target false traffic) s u) : Introduced members me before initial u :=
  networkExits_invariant (fun _ hs _ => h.round hb hs) (fun _ hs => hs.run.allAnswered.nodup) hexits hs

omit h hb in
/-- A lookup starts with nobody asked. -/
theorem lookupStart_introduced (target : Key) {net : PeerNetwork} (hnd : initial.Nodup)
    (hinitial : ∀ c ∈ initial, c ∈ members ∧ c ≠ me)
    (hnet : Visited members me net) : Introduced members me net initial (lookupStart target initial me, net) where
  run := ResponsiveRun.start hnd (fun hin => (hinitial me hin).2 rfl) fun c hc => .inl (hinitial c hc).1
  visited := hnet
  outside := fun _ _ => rfl
  stored := by
    rintro c ⟨rs, hrs, -⟩
    cases hrs

/-- `find_node` by a member leaves the tables of all but members alone. -/
theorem findNode_outside {net net' : PeerNetwork} {pings : Nat → PingOutcome} {now : Nat}
    {outcome : Except LookupError (List NodeInfo)} (hme : me ∈ members) (hother : ∃ c ∈ members, c ≠ me)
    (hkey : me.id ≠ target) (hnet : Mesh members net)
    (hreturns : Returns (net.findNode me target traffic pings now) (outcome, net')) (m : NodeInfo) (hm : m ∉ members) :
    net'.table m = net.table m := by
  have hmme : m ≠ me := fun hmme => hm (hmme ▸ hme)
  obtain ⟨initial, table, hinit, hstart, hnd, hinitial, htouched⟩ := h.findNode_start hme hother hkey hnet now
  have hintroduced := lookupStart_introduced target hnd hinitial htouched
  obtain ⟨u, hexits⟩ := networkPass_exits me target false traffic hintroduced.run.allAnswered.nodup
  have hu := h.exits hb hintroduced hexits
  obtain ⟨-, -, answers, hfrom, hrun, -⟩ := (h.kept false).exits hexits hintroduced.run.allAnswered.nodup htouched
  have hclosing := (h.closed hfrom hintroduced.run hrun).networkClosing me target traffic answers
  have hcall : net.findNode me target traffic pings now = fun fuel =>
      (runLoop (networkPass me target false traffic) fuel (lookupStart target initial me, net.setTable me table)).bind
        (finishFindNode me target traffic pings) := by
    funext fuel
    simp only [PeerNetwork.findNode, hinit, if_neg (mt List.isEmpty_iff.mp hstart)]
  have hfinish := hexits.of_returns_bind (hcall ▸ hreturns)
  simp only [finishFindNode, hclosing, Option.ite_none_right_eq_some, Option.some.injEq, Prod.mk.injEq] at hfinish
  obtain ⟨-, -, hnet'⟩ := hfinish
  rw [← hnet', PeerNetwork.table_setTable_of_ne hmme, hb.outside _ _ m hm, hu.outside m hm, PeerNetwork.table_setTable_of_ne hmme]

end Inquiry

namespace Newcomer
variable {r : Roster} {members : List NodeInfo} {me beacon : NodeInfo} {ping : Transit} {traffic : Traffic}
  {net before : PeerNetwork} {initial : List NodeInfo} {s u : LookupRun × PeerNetwork}
  (h : Newcomer r members me beacon ping traffic)
include h

theorem ne_of_mem {c : NodeInfo} (hc : c ∈ members) : c ≠ me := fun hcm => h.me_notMem (hcm ▸ hc)

theorem inquiry : Inquiry r members me me.id traffic where
  members_subset := h.members_subset
  me_mem := h.me_mem
  key_ne := fun c hc hne hid => hne (r.oneAddress c me (h.members_subset hc) h.me_mem hid)
  answered := h.answered
  others := h.bystanding.visited

/-- The beacon's answer: everybody but itself. It has stored the newcomer then. -/
theorem first (hnet : Visited members me net) :
    ∃ l net', sendSingleLookup me me.id false (traffic.transit 0) beacon (traffic.others 0 net) =
        (.newNodesSuccessful beacon l, net') ∧ l.Nodup ∧ (∀ c, c ∈ l ↔ c ≠ beacon ∧ Present members me c) ∧
      Visited members me net' ∧ me ∈ (net'.table beacon).getAllNodeinfos ∧ ∀ m, m ∉ members → net'.table m = net.table m := by
  have hne := h.ne_of_mem h.beacon_mem
  have hfrom : ComeFrom me me.id false traffic (Visited members me) (answersNow me me.id false traffic net) :=
    fun _ => ⟨net, hnet, rfl⟩
  obtain ⟨l, response, hanswer, htype, hnd, hl⟩ := h.inquiry.answer hfrom 0 h.beacon_mem hne
  have hothers := h.bystanding.visited 0 net hnet
  have hstored := table_of_answered (h.answered 0 beacon h.beacon_mem hne) (lookupRequest me.id false)
    (traffic.others 0 net)
  have hrest : ∀ m, m ≠ beacon → (sendLookupRequest me (lookupRequest me.id false) beacon (traffic.transit 0 beacon)
      (traffic.others 0 net)).2.table m = (traffic.others 0 net).table m := by
    intro m hm
    rw [PeerNetwork.table, (sendLookupRequest_local me _ (traffic.transit 0)).frame beacon _ m hm]
    rfl
  obtain ⟨hvisited, hmem⟩ := hothers.store h.members_subset h.me_mem h.beacon_mem hne _ hstored hrest
  refine ⟨l, _, Prod.ext ?_ rfl, hnd, hl, hvisited, hmem, fun m hm => ?_⟩
  · exact singleLookup_of_nodes ⟨response, hanswer, htype⟩
  · exact (hrest m fun hmb => hm (hmb ▸ h.beacon_mem)).trans (h.bystanding.outside 0 net m hm)

/-- The lookup starts with everybody the beacon has listed. -/
theorem started {l : List NodeInfo} (hnd : l.Nodup) (hl : ∀ c, c ∈ l ↔ c ≠ beacon ∧ Present members me c)
    (hvisited : Visited members me net) (hbeacon : me ∈ (net.table beacon).getAllNodeinfos)
    (houtside : ∀ m, m ∉ members → net.table m = before.table m) :
    Introduced members me before (l.filter (· ≠ me))
      (⟨LookupBuffer.new me.id (l.filter (· ≠ me)) me, [[.newNodesSuccessful beacon l]]⟩, net) where
  run := by
    have hstart : ResponsiveRun (Present members me) (l.filter (· ≠ me)) me
        ⟨LookupBuffer.new me.id (l.filter (· ≠ me)) me, []⟩ :=
      ResponsiveRun.start (hnd.filter _) (fun hin => by simpa using (List.mem_filter.mp hin).2)
        fun c hc => ((hl c).mp (List.mem_of_mem_filter hc)).2
    have hreported : (⟨LookupBuffer.new me.id (l.filter (· ≠ me)) me, [[.newNodesSuccessful beacon l]]⟩ :
        LookupRun).reported = l := by
      simp only [LookupRun.reported, List.flatten_cons, List.flatten_nil, List.append_nil, List.flatMap_cons,
        List.flatMap_nil]
      rfl
    refine ⟨hstart.allAnswered, rfl, fun c => ?_, fun e he hresponded => ?_⟩
    · rw [hstart.mem_contacts c, hreported, List.mem_filter, decide_eq_true_iff]
      refine and_congr_right fun hcm => ⟨fun hc => .inr ?_, fun hc => .inl ?_⟩
      · exact hc.elim And.left fun hnone => absurd hnone List.not_mem_nil
      · exact hc.elim (fun hc => hc) fun hc => ⟨hc, hcm⟩
    · obtain ⟨rs, hrs, -⟩ := hstart.answered e he hresponded
      cases hrs
  visited := hvisited
  outside := houtside
  stored := by
    rintro c ⟨rs, hrs, x, hx, hresolver, -⟩
    rw [List.mem_singleton.mp hrs, List.mem_singleton] at hx
    rw [hx] at hresolver
    exact ⟨hresolver ▸ h.beacon_mem, hresolver ▸ hbeacon⟩

/-- Once everybody the beacon has listed is stored, the newcomer belongs to the mesh. -/
theorem finish {l : List NodeInfo} (hl : ∀ c, c ∈ l ↔ c ≠ beacon ∧ Present members me c)
    (hu : Introduced members me before (l.filter (· ≠ me)) u) (hclosed : Closed (Present members me) (l.filter (· ≠ me)) me u.1)
    (hbeacon : u.1.Answered beacon) (hwithin : (before.table me).Within members me)
    (hknown : beacon ∈ (before.table me).getAllNodeinfos) (pings : Nat → PingOutcome) :
    ∃ nodes net', finishJoin me traffic pings u = some (.ok nodes, net') ∧ Mesh (me :: members) net' ∧
      ∀ m, m ∉ me :: members → net'.table m = before.table m := by
  let answers := answersNow me me.id false traffic u.2
  let net := traffic.others u.1.rounds.length u.2
  let stores := (closingRound answers u.1).buffer.tableStores fun i => pings (i + 1)
  have hclosing := hclosed.networkClosing me me.id traffic answers
  have hvisited : Visited members me net := h.bystanding.visited _ _ hu.visited
  have hmine : net.table me = before.table me :=
    (h.bystanding.outside _ _ me h.me_notMem).trans (hu.outside me h.me_notMem)
  have hstores : ∀ c, c ∈ stores.map Prod.fst ↔ c ∈ (closingRound answers u.1).buffer.getResponsiveNodes := by
    intro c
    simp only [stores, LookupBuffer.tableStores, List.map_map, Function.comp_def, List.zipIdx_map_fst]
  have htake : u.1.buffer.contacts.take K = u.1.buffer.contacts :=
    List.take_of_length_le (h.inquiry.length_contacts_le hclosed)
  have hfound : ∀ c, c ∈ members → c ≠ beacon → c ∈ u.1.buffer.contacts := by
    intro c hc hcb
    refine (hu.run.mem_contacts c).mpr ⟨h.ne_of_mem hc, .inl (List.mem_filter.mpr ⟨(hl c).mpr ⟨hcb, .inl hc⟩, ?_⟩)⟩
    simpa using h.ne_of_mem hc
  have hresponsive : ∀ c, c ∈ (closingRound answers u.1).buffer.getResponsiveNodes → c ∈ members ∧ c ≠ me := fun c hc =>
    hclosed.run.contacts_subset (hclosed.mem_responsiveNodes answers hc)
  have hothers : ∀ s ∈ stores, s.1 ∈ r.nodes ∧ s.1 ≠ me := by
    intro s hs
    have hs' := hresponsive s.1 ((hstores s.1).mp (List.mem_map_of_mem hs))
    exact ⟨h.members_subset hs'.1, hs'.2⟩
  have hroom := (hwithin.mono h.members_subset).roomForAll h.me_mem true hothers
  obtain ⟨hok, hwithin', hmem⟩ := (hwithin.mono h.members_subset).storeAll h.me_mem hothers
  have hmine' : ∀ c, c ∈ ((before.table me).storeAll stores).getAllNodeinfos ↔ c ∈ members := by
    intro c
    rw [hmem c, hstores c]
    refine ⟨fun hc => hc.elim (fun hc => (hresponsive c hc).1) fun hc => hwithin.subset hc, fun hc => ?_⟩
    by_cases hcb : c = beacon
    · exact .inr (hcb ▸ hknown)
    · exact .inl (hclosed.responsiveNodes_of_mem answers (htake.symm ▸ hfound c hc hcb))
  have hme : ∀ a ∈ members, me ∈ (net.table a).getAllNodeinfos := by
    intro a ha
    refine h.bystanding.remembers _ _ a ha (hu.stored a ?_).2
    by_cases hab : a = beacon
    · exact hab ▸ hbeacon
    · exact hclosed.answered_of_mem (by
        rw [hclosed.resultingVector_eq, List.map_take]
        exact htake.symm ▸ hfound a ha hab)
  have hfinish : finishJoin me traffic pings u = some (.ok (closingRound answers u.1).buffer.getResultingVector,
      net.setTable me ((before.table me).storeAll stores)) := by
    simp only [finishJoin, hclosing]
    rw [show traffic.others u.1.rounds.length u.2 = net from rfl, hmine,
      show (closingRound answers u.1).buffer.tableStores (fun i => pings (i + 1)) = stores from rfl, hroom, if_pos rfl, hok]
  refine ⟨_, _, hfinish, hvisited.mesh_cons h.me_notMem hme hwithin'.id_eq hwithin'.valid hmine', fun m hm => ?_⟩
  rw [List.mem_cons, not_or] at hm
  rw [PeerNetwork.table_setTable_of_ne hm.1]
  exact (h.bystanding.outside _ _ m hm.2).trans (hu.outside m hm.2)

/-- A newcomer that knows nobody but members joins, and the mesh has one member more. -/
theorem joinNetwork (hnet : Mesh members net) (hknows : (net.table me).Within members me) (pings : Nat → PingOutcome) :
    ∃ nodes net', Returns (net.joinNetwork me beacon ping traffic pings) (.ok nodes, net') ∧
      Mesh (me :: members) net' ∧ ∀ m, m ∉ me :: members → net'.table m = net.table m := by
  have hne := h.ne_of_mem h.beacon_mem
  have hroom := (hknows.mono h.members_subset).hasRoomFor beacon
  obtain ⟨hok, hwithin, hmem⟩ := (hknows.mono h.members_subset).store h.me_mem (h.members_subset h.beacon_mem) hne (pings 0)
  let table := ((net.table me).storeNodeinfo beacon (pings 0)).2
  let start := net.setTable me table
  have hstart : Visited members me start := by
    intro a ha
    rw [PeerNetwork.table_setTable_of_ne (h.ne_of_mem ha)]
    exact hnet.visited me a ha
  have hmine : start.table me = table := PeerNetwork.table_setTable net me table
  have hbeacon : (start.table me).getNodeinfo beacon.id = .ok (some beacon) := by
    rw [hmine, hwithin.valid.getNodeinfo_iff]
    exact ⟨(hmem beacon).mpr (.inl rfl), rfl⟩
  have hwithin' : table.Within members me := by
    refine ⟨hwithin.id_eq, hwithin.valid, fun c hc => ?_⟩
    rcases (hmem c).mp hc with rfl | hc
    · exact h.beacon_mem
    · exact hknows.subset hc
  let pinged := (sendLookupRequest me .ping beacon ping start).2
  have hpinged : Visited members me pinged := h.inquiry.request hstart
  have hping : start.ping me beacon.id ping = (.ok ⟨.pong, beacon, me, ping.requestId⟩, pinged) := by
    simp only [PeerNetwork.ping, hbeacon]
    exact Prod.ext (sendLookupRequest_ping h.pinged start) rfl
  have hpingedOutside : ∀ m, m ∉ members → pinged.table m = start.table m := by
    intro m hm
    have hmb : m ≠ beacon := fun hmb => hm (hmb ▸ h.beacon_mem)
    rw [PeerNetwork.table, (sendLookupRequest_local me .ping fun _ => ping).frame beacon start m hmb]
    rfl
  obtain ⟨l, asked, hfirst, hnd, hl, hvisited, hasked, houtside⟩ := h.first hpinged
  have hrestOutside : ∀ m, m ∉ members → asked.table m = start.table m := fun m hm =>
    (houtside m hm).trans (hpingedOutside m hm)
  have hintroduced := h.started hnd hl hvisited hasked hrestOutside
  obtain ⟨u, hexits⟩ := networkPass_exits me me.id false traffic hintroduced.run.allAnswered.nodup
  have hu := h.inquiry.exits h.bystanding hintroduced hexits
  obtain ⟨-, -, answers, hfrom, hrun, -⟩ := (h.inquiry.kept false).exits hexits hintroduced.run.allAnswered.nodup
    hintroduced.visited
  have hclosed := h.inquiry.closed hfrom hintroduced.run hrun
  have hanswered : u.1.Answered beacon :=
    ⟨_, exits_rounds_subset hrun (List.mem_singleton_self _), _, List.mem_singleton_self _, rfl, rfl⟩
  obtain ⟨nodes, net', hfinish, hmesh, hrest⟩ := h.finish hl hu hclosed hanswered (hmine.symm ▸ hwithin')
    (hmine.symm ▸ (hmem beacon).mpr (.inl rfl)) pings
  refine ⟨nodes, net', ?_, hmesh, fun m hm => (hrest m hm).trans ?_⟩
  · rw [joinNetwork_eq hroom (Prod.ext hok rfl) hping hfirst (List.ne_nil_of_mem ((hl me).mpr ⟨hne.symm, .inr rfl⟩))]
    exact hexits.returns_bind hfinish
  · refine PeerNetwork.table_setTable_of_ne (fun hmm => hm ?_) net table
    rw [hmm]
    exact List.mem_cons_self

end Newcomer

/-- What nodes started afresh come to when they join one after the other, each through some
member, and members look keys up that are no member's id. -/
inductive Assembled (r : Roster) : List NodeInfo → PeerNetwork → Prop
  | start {net : PeerNetwork} {a : NodeInfo} (ha : a ∈ r.nodes)
      (hfresh : ∀ n ∈ r.nodes, ∃ now, net.table n = RoutingTable.new n.id now) : Assembled r [a] net
  | join {members : List NodeInfo} {net net' : PeerNetwork} {me beacon : NodeInfo} {ping : Transit} {traffic : Traffic}
      {pings : Nat → PingOutcome} {outcome : Except LookupError (List NodeInfo)} (h : Assembled r members net)
      (hnew : Newcomer r members me beacon ping traffic)
      (hreturns : Returns (net.joinNetwork me beacon ping traffic pings) (outcome, net')) : Assembled r (me :: members) net'
  | find {members : List NodeInfo} {net net' : PeerNetwork} {me : NodeInfo} {target : Key} {traffic : Traffic}
      {pings : Nat → PingOutcome} {now : Nat} {outcome : Except LookupError (List NodeInfo)} (h : Assembled r members net)
      (hme : me ∈ members) (hother : ∃ c ∈ members, c ≠ me) (hinquiry : Inquiry r members me target traffic)
      (hkey : me.id ≠ target)
      (hbystanding : traffic.Bystanding members me)
      (hreturns : Returns (net.findNode me target traffic pings now) (outcome, net')) : Assembled r members net'

namespace Assembled
variable {r : Roster} {members : List NodeInfo} {net : PeerNetwork}

/-- Members form a mesh, and those who have not joined know nobody. -/
theorem mesh_and_fresh (h : Assembled r members net) : members ⊆ r.nodes ∧ members.Nodup ∧ Mesh members net ∧
    ∀ n ∈ r.nodes, n ∉ members → (net.table n).Within members n := by
  induction h with
  | @start net a ha hfresh =>
      have hempty : ∀ n ∈ r.nodes, (net.table n).Within [] n := by
        intro n hn
        obtain ⟨now, htable⟩ := hfresh n hn
        rw [htable]
        exact .new n now
      refine ⟨List.cons_subset.mpr ⟨ha, List.nil_subset _⟩, List.nodup_singleton a, ⟨?_, ?_, ?_⟩, fun n hn _ => ?_⟩
      · exact fun b hb => (List.mem_singleton.mp hb) ▸ (hempty a ha).id_eq
      · exact fun b hb => (List.mem_singleton.mp hb) ▸ (hempty a ha).valid
      · intro b hb c
        rw [List.mem_singleton] at hb ⊢
        subst hb
        exact iff_of_false (fun hc => List.not_mem_nil ((hempty b ha).subset hc)) fun hc => hc.2 hc.1
      · exact (hempty n hn).mono (List.nil_subset _)
  | @join members net net' me beacon ping traffic pings outcome _ hnew hreturns ih =>
      obtain ⟨hsub, hnd, hmesh, houtside⟩ := ih
      obtain ⟨nodes, net'', hjoined, hmesh', hrest⟩ := hnew.joinNetwork hmesh (houtside me hnew.me_mem hnew.me_notMem) pings
      cases hreturns.unique hjoined
      refine ⟨List.cons_subset.mpr ⟨hnew.me_mem, hsub⟩, List.nodup_cons.mpr ⟨hnew.me_notMem, hnd⟩, hmesh',
        fun n hn hnot => ?_⟩
      rw [hrest n hnot]
      exact (houtside n hn fun hin => hnot (List.mem_cons_of_mem me hin)).mono (List.subset_cons_self me members)
  | @find members net net' me target traffic pings now outcome _ hme hother hinquiry hkey hbystanding hreturns ih =>
      obtain ⟨hsub, hnd, hmesh, houtside⟩ := ih
      obtain ⟨net'', hfound, hmesh'⟩ := hinquiry.findNode hnd hme hother hkey hmesh pings now
      have hrest := hinquiry.findNode_outside hbystanding hme hother hkey hmesh hreturns
      cases hreturns.unique hfound
      refine ⟨hsub, hnd, hmesh', fun n hn hnot => ?_⟩
      rw [hrest n hnot]
      exact houtside n hn hnot

/-- Whatever nodes have joined and looked up so far, everybody knows everybody, whoever joins
next gets in, and whoever looks a key up finds all the others, the closest first. -/
theorem joins_and_finds (h : Assembled r members net) :
    Mesh members net ∧
    (∀ me beacon ping traffic pings, Newcomer r members me beacon ping traffic →
      ∃ nodes net', Returns (net.joinNetwork me beacon ping traffic pings) (.ok nodes, net') ∧
        Assembled r (me :: members) net') ∧
    ∀ me target traffic pings now, me ∈ members → (∃ c ∈ members, c ≠ me) → Inquiry r members me target traffic →
      me.id ≠ target → traffic.Bystanding members me →
      ∃ net', Returns (net.findNode me target traffic pings now)
        (.ok (sortByDistance NodeInfo.id target (members.filter (· ≠ me))), net') ∧ Assembled r members net' := by
  obtain ⟨-, hnd, hmesh, houtside⟩ := h.mesh_and_fresh
  refine ⟨hmesh, fun me beacon ping traffic pings hnew => ?_,
    fun me target traffic pings now hme hother hinquiry hkey hbystanding => ?_⟩
  · obtain ⟨nodes, net', hreturns, -⟩ := hnew.joinNetwork hmesh (houtside me hnew.me_mem hnew.me_notMem) pings
    exact ⟨nodes, net', hreturns, .join h hnew hreturns⟩
  · obtain ⟨net', hreturns, -⟩ := hinquiry.findNode hnd hme hother hkey hmesh pings now
    exact ⟨net', hreturns, .find h hme hother hinquiry hkey hbystanding hreturns⟩

end Assembled

/-- Three nodes on this host. -/
def localRoster : Roster where
  nodes := [.local 1 4001, .local 2 4002, .local 3 4003]
  nodup_ids := by decide
  fits := by decide

theorem steadyTraffic_bystanding (members : List NodeInfo) (me : NodeInfo) : steadyTraffic.Bystanding members me :=
  ⟨fun _ _ => id, fun _ _ _ _ => id, fun _ _ _ _ => rfl⟩

theorem steadyTraffic_newcomer {members : List NodeInfo} {me beacon : NodeInfo} (hsub : members ⊆ localRoster.nodes)
    (hme : me ∈ localRoster.nodes) (hnot : me ∉ members) (hbeacon : beacon ∈ members) :
    Newcomer localRoster members me beacon steadyTransit steadyTraffic :=
  ⟨hsub, hme, hnot, hbeacon, steadyTransit_answered fun hbm => hnot (hbm ▸ hbeacon),
    fun _ _ _ hne => steadyTransit_answered hne, steadyTraffic_bystanding members me⟩

theorem three_join : ∃ net, Mesh [.local 3 4003, .local 2 4002, .local 1 4001] net := by
  have hone : Assembled localRoster [.local 1 4001] freshNetwork := .start (by decide) fun n _ => ⟨0, rfl⟩
  obtain ⟨-, hjoin, -⟩ := hone.joins_and_finds
  obtain ⟨-, net, -, htwo⟩ := hjoin (.local 2 4002) (.local 1 4001) steadyTransit steadyTraffic
    (fun _ _ => .error .responseTimeout) (steadyTraffic_newcomer (by decide) (by decide) (by decide) (by decide))
  obtain ⟨-, net', -, hthree⟩ := htwo.joins_and_finds.2.1 (.local 3 4003) (.local 2 4002) steadyTransit steadyTraffic
    (fun _ _ => .error .responseTimeout) (steadyTraffic_newcomer (by decide) (by decide) (by decide) (by decide))
  exact ⟨net', hthree.joins_and_finds.1⟩

end P2PFilesystem
