import P2PFilesystem.LookupResult
import P2PFilesystem.RequestHandler

/-!
# Looking up a live node

A network of nodes that are all online and run the request handler. The one node whose
id is the target of a lookup cannot search its own table for it, so it sends no reply.
-/
namespace P2PFilesystem
open LoopFuel

/-- Each id lives at one address, and every contact in a routing table is live. The state
of a node when the request of a round reaches it is arbitrary. -/
structure OnlineNetwork where
  address : Key → SocketAddr
  server : Nat → Key → Server
  env : Nat → Key → HandlerEnv
  nodeInfo_eq : ∀ round k, (server round k).nodeInfo = ⟨k, address k⟩
  table_id : ∀ round k, (server round k).routingTable.id = k
  table_valid : ∀ round k, (server round k).routingTable.Valid
  table_online : ∀ round k, ∀ n ∈ (server round k).routingTable.getAllNodeinfos, n.address = address n.id

namespace OnlineNetwork
variable (net : OnlineNetwork)

def Online (c : NodeInfo) : Prop := c.address = net.address c.id

instance (c : NodeInfo) : Decidable (net.Online c) := inferInstanceAs (Decidable (_ = _))

/-- The outcome of the `FIND_NODE` requests of a searching node. -/
def answers (searcher : NodeInfo) (target : Key) (requestId : RequestId) : Answers := fun round c =>
  if net.Online c then
    match ((net.server round c.id).handleReceivedRequest
        ⟨.findNode target, searcher, c, requestId⟩ (net.env round c.id)).response with
    | some response => .ok response
    | none => .error .responseTimeout
  else .error .responseTimeout

theorem oneAddress : OneAddress net.Online := by
  intro a b ha hb hid
  rcases a with ⟨ida, addra⟩
  rcases b with ⟨idb, addrb⟩
  cases hid
  exact congrArg (NodeInfo.mk ida) (ha.trans hb.symm)

theorem answers_target {searcher X : NodeInfo} {requestId : RequestId} (round : Nat) :
    net.answers searcher X.id requestId round X = .error .responseTimeout := by
  unfold answers
  split_ifs
  · have hid : ((net.server round X.id).routingTable.storeNodeinfo searcher
        (net.env round X.id).ping).2.id = X.id :=
      (RoutingTable.storeNodeinfo_id _ _ _).trans (net.table_id round X.id)
    have hself : ((net.server round X.id).routingTable.storeNodeinfo searcher
        (net.env round X.id).ping).2.getKClosest X.id = .error .attempStoreSelf := by
      rw [RoutingTable.getKClosest, RoutingTable.getNClosest, RoutingTable.getBucketIndex_eq, if_pos hid]
    simp only [Server.handleReceivedRequest, net.nodeInfo_eq, Server.recordPossibleNeighbour,
      Server.handleFindNodeMessage, hself, ne_eq, not_true, if_false]
  · rfl

end OnlineNetwork

theorem RoutingTable.Valid.mem_storeNodeinfo {t : RoutingTable} (h : t.Valid) {x n : NodeInfo}
    {ping : PingOutcome} (hn : n ∈ (t.storeNodeinfo x ping).2.getAllNodeinfos) :
    n ∈ t.getAllNodeinfos ∨ n = x := by
  unfold RoutingTable.storeNodeinfo at hn
  cases hidx : t.getBucketIndex x.id with
  | error e => rw [hidx] at hn; exact .inl hn
  | ok i =>
      rw [hidx] at hn
      dsimp only at hn
      cases hb : t.buckets[i]? with
      | none => rw [hb] at hn; exact .inl hn
      | some b =>
          rw [hb] at hn
          obtain ⟨c, hc, hnc⟩ := List.mem_flatMap.mp hn
          have hmem : b ∈ t.buckets := List.mem_of_getElem? hb
          rcases List.mem_or_eq_of_mem_set hc with hold | rfl
          · exact .inl (List.mem_flatMap.mpr ⟨c, hold, hnc⟩)
          · rcases (KBucket.addNodeinfo_sound (h.sound b hmem) x ping).2 n hnc with hold | rfl
            · exact .inl (List.mem_flatMap.mpr ⟨b, hmem, hold⟩)
            · exact .inr rfl

/-- A table comes to know nobody but whom it stores. -/
theorem RoutingTable.Valid.mem_storeAll {t : RoutingTable} (h : t.Valid) {stores : List (NodeInfo × PingOutcome)} {n : NodeInfo}
    (hn : n ∈ (t.storeAll stores).getAllNodeinfos) : n ∈ t.getAllNodeinfos ∨ n ∈ stores.map Prod.fst := by
  induction stores generalizing t with
  | nil => exact .inl hn
  | cons s stores ih =>
      rw [List.map_cons, List.mem_cons]
      rcases ih (storeNodeinfo_valid h s.1 s.2) hn with hmem | hmem
      · exact (h.mem_storeNodeinfo hmem).imp_right .inl
      · exact .inr (.inr hmem)

namespace OnlineNetwork
variable (net : OnlineNetwork)

theorem answers_online {searcher c : NodeInfo} {target : Key} {requestId : RequestId} {round : Nat}
    (hs : net.Online searcher) {r : Response} {ns : List NodeInfo}
    (h : net.answers searcher target requestId round c = .ok r) (hr : r.responseType = .nodes ns) :
    ∀ n ∈ ns, net.Online n := by
  unfold answers at h
  split_ifs at h
  have hvalid := RoutingTable.storeNodeinfo_valid (net.table_valid round c.id) searcher
    (net.env round c.id).ping
  simp only [Server.handleReceivedRequest, net.nodeInfo_eq, Server.recordPossibleNeighbour,
    Server.handleFindNodeMessage, ne_eq, not_true, if_false] at h
  cases hk : ((net.server round c.id).routingTable.storeNodeinfo searcher
      (net.env round c.id).ping).2.getKClosest target with
  | error e => rw [hk] at h; cases h
  | ok closest =>
      rw [hk] at h
      have hsub := (hvalid.getNClosest_subset hk).2
      unfold ResponseType.newNodes at h
      dsimp only at h
      split_ifs at h
      · cases h
        cases hr
        intro n hn
        rcases (net.table_valid round c.id).mem_storeNodeinfo (hsub hn) with hold | rfl
        · exact net.table_online round c.id n hold
        · exact hs

end OnlineNetwork

/-- The lookup time of a bucket is no part of what the table keeps. -/
theorem RoutingTable.Valid.touch {t : RoutingTable} (h : t.Valid) (i now : Nat) :
    let touched := { t with buckets := t.buckets.modify i (·.setLastLookup now) }
    touched.Valid ∧ touched.getAllNodeinfos ⊆ t.getAllNodeinfos := by
  intro touched
  have hbucket : ∀ (j : Nat) (b : KBucket), touched.buckets[j]? = some b →
      ∃ b₀ : KBucket, t.buckets[j]? = some b₀ ∧ b.nodes = b₀.nodes ∧ b.capacity = b₀.capacity := by
    intro j b hb
    rw [show touched.buckets = t.buckets.modify i (·.setLastLookup now) from rfl,
      List.getElem?_modify] at hb
    obtain ⟨b₀, hb₀, rfl⟩ := Option.map_eq_some_iff.mp hb
    refine ⟨b₀, hb₀, ?_⟩
    split_ifs
    · exact ⟨rfl, rfl⟩
    · exact ⟨rfl, rfl⟩
  refine ⟨⟨(List.length_modify _ _ _).trans h.length_buckets, fun b hb => ?_, fun j b hb n hn => ?_⟩, fun n hn => ?_⟩
  · obtain ⟨j, hj⟩ := List.mem_iff_getElem?.mp hb
    obtain ⟨b₀, hb₀, hnodes, hcap⟩ := hbucket j b hj
    obtain ⟨hcap₀, hlen₀, hnd₀⟩ := h.sound b₀ (List.mem_of_getElem? hb₀)
    exact ⟨hcap.trans hcap₀, hnodes ▸ hlen₀, hnodes ▸ hnd₀⟩
  · obtain ⟨b₀, hb₀, hnodes, -⟩ := hbucket j b hb
    exact h.placed j b₀ hb₀ n (hnodes ▸ hn)
  · obtain ⟨j, b, hb, hnb⟩ := mem_getAllNodeinfos.mp hn
    obtain ⟨b₀, hb₀, hnodes, -⟩ := hbucket j b hb
    exact mem_getAllNodeinfos.mpr ⟨j, b₀, hb₀, hnodes ▸ hnb⟩

theorem RoutingTable.Valid.lookupGetNClosest_subset {t t' : RoutingTable} (h : t.Valid) {key : Key}
    {n now : Nat} {l : List NodeInfo} (hl : t.lookupGetNClosest key n now = (.ok l, t')) :
    l.Nodup ∧ l ⊆ t.getAllNodeinfos := by
  unfold RoutingTable.lookupGetNClosest at hl
  cases hidx : t.getBucketIndex key with
  | error e => rw [hidx] at hl; cases hl
  | ok i =>
      rw [hidx] at hl
      obtain ⟨hvalid, hsub⟩ := h.touch i now
      obtain ⟨hnd, hmem⟩ := hvalid.getNClosest_subset (Prod.mk.inj hl).1
      exact ⟨hnd, fun n hn => hsub (hmem hn)⟩

/-- What the documentation of a lookup promises for the id of a live node: all requests are
answered with contacts, the node is not marked as failed, and it comes first. -/
structure FoundByKey (X : NodeInfo) (t : LookupRun) : Prop where
  answered : ∀ rs ∈ t.rounds, ∀ r ∈ rs, r.gaveNodes = true
  standing : ∀ e ∈ t.buffer.nodes, e.nodeInfo = X → e.standing = true
  first : t.buffer.getResultingVector.head? = some X

/-- The closing round of a closed lookup asks nobody and keeps the contacts. -/
theorem Closed.mem_closingRound {known : NodeInfo → Prop} {initial : List NodeInfo} {thisNode c : NodeInfo}
    {t : LookupRun} (h : Closed known initial thisNode t) {answers : Answers}
    (hc : c ∈ (closingRound answers t).buffer.contacts) : c ∈ t.buffer.contacts := by
  have hnone : lookupRound t.buffer.getUnqueriedResultingNodes false (answers t.rounds.length) = [] := by
    rw [h.unqueriedResultingNodes_eq_nil, lookupRound_nil]
  have hbuffer : (closingRound answers t).buffer = t.buffer.sort := by
    rw [closingRound]
    dsimp only
    rw [hnone, LookupBuffer.record_of_no_value (Bool.false_and _)]
    rfl
  rwa [hbuffer, LookupBuffer.mem_contacts_sort] at hc

theorem Closed.target_mem {known : NodeInfo → Prop} (hone : OneAddress known) {initial : List NodeInfo}
    {thisNode X : NodeInfo} {t : LookupRun} (h : Closed known initial thisNode t)
    (htarget : t.buffer.target = X.id) (hX : X ∈ t.buffer.contacts) :
    X ∈ t.buffer.getResultingVector := by
  rw [h.resultingVector_eq]
  obtain ⟨e, he, rfl⟩ := List.mem_map.mp hX
  cases hnodes : t.buffer.nodes with
  | nil => rw [hnodes] at he; cases he
  | cons first rest =>
      have hsorted := h.run.allAnswered.sorted
      rw [LookupBuffer.Sorted, hnodes, htarget] at hsorted
      have hfirst : first ∈ t.buffer.nodes := hnodes ▸ List.mem_cons_self
      have hle : first.nodeInfo.id.dist e.nodeInfo.id ≤ 0 := by
        rw [hnodes] at he
        rcases List.mem_cons.mp he with rfl | htail
        · rw [Key.dist_self]
        · rw [← Key.dist_self e.nodeInfo.id]
          exact List.rel_of_pairwise_cons hsorted htail
      have hid := Key.dist_eq_zero_iff.mp (Nat.le_zero.mp hle)
      have hsame := hone _ _ (h.run.allAnswered.known_of_mem _ (LookupBuffer.mem_contacts_of_mem hfirst))
        (h.run.allAnswered.known_of_mem _ hX) hid
      exact hsame ▸ List.mem_cons_self

theorem OnlineNetwork.batchAnswers (net : OnlineNetwork) {searcher : NodeInfo} {target : Key}
    {requestId : RequestId} (hs : net.Online searcher) {u t : LookupRun}
    (hu : Exits (lookupPass false (net.answers searcher target requestId)) u t)
    (hall : ∀ rs ∈ t.rounds, ∀ r ∈ rs, r.gaveNodes = true) :
    u.buffer.BatchAnswers net.Online (nextRound false (net.answers searcher target requestId) u) := by
  have hgave : ∀ r ∈ nextRound false (net.answers searcher target requestId) u, r.gaveNodes = true := by
    intro r hr
    refine hall _ (nextRound_mem_of_exits hu fun hnil => ?_) r hr
    rw [nextRound, hnil, lookupRound_nil] at hr
    cases hr
  refine ⟨lookupRound_resolvers _ _ _, hgave, fun r hr c hc => ?_⟩
  obtain ⟨d, -, rfl⟩ := List.mem_map.mp hr
  rcases singleLookup_cases d (net.answers searcher target requestId u.rounds.length d) with
    ⟨ns, response, ho, hns, he⟩ | ⟨-, he⟩
  · rw [he] at hc
    exact net.answers_online hs ho hns c hc
  · rw [he] at hc
    cases hc

/-- In no network of live nodes is a lookup for the id of a node that it comes to know
answered the way it should: that node itself never answers. -/
theorem findNode_never_foundByKey (net : OnlineNetwork) (self : Node) (X : NodeInfo)
    (requestId : RequestId) (pings : Nat → PingOutcome) (now : Nat) (hself : net.Online self.toNodeInfo)
    (hid : self.routingTable.id = self.key) (hvalid : self.routingTable.Valid)
    (hcontacts : ∀ n ∈ self.routingTable.getAllNodeinfos, net.Online n) :
    let answers := net.answers self.toNodeInfo X.id requestId
    ∃ result node, Returns (self.findNode X.id answers pings now) (result, node) ∧
      ∀ r, result = .ok r → ∃ start t, self.StartsFindNode X.id now start ∧
        Exits (lookupPass false answers) start t ∧
        r = (closingRound answers t).buffer.getResultingVector ∧
        (X ∈ (closingRound answers t).buffer.contacts → ¬ FoundByKey X (closingRound answers t)) := by
  intro answers
  obtain ⟨result, node, hret, hrun⟩ := self.findNode_returns X.id answers pings now
  refine ⟨result, node, hret, fun r hr => ?_⟩
  obtain ⟨start, t, hstart, ht, hvec⟩ := hrun r hr
  refine ⟨start, t, hstart, ht, hvec, fun hX hfound => ?_⟩
  obtain ⟨initial, table, hinit, rfl⟩ := hstart
  obtain ⟨hnd, hsub⟩ := hvalid.lookupGetNClosest_subset hinit
  have hthis : self.toNodeInfo ∉ initial := fun hin =>
    hvalid.id_notMem (List.mem_map.mpr ⟨_, hsub hin, hid.symm⟩)
  have hall : ∀ rs ∈ t.rounds, ∀ r ∈ rs, r.gaveNodes = true := fun rs hrs =>
    hfound.answered rs (List.mem_cons_of_mem _ hrs)
  have hclosed : Closed net.Online initial self.toNodeInfo t :=
    closed_of_exits net.oneAddress (ResponsiveRun.start hnd hthis fun c hc => hcontacts c (hsub hc))
      (fun u hu => net.batchAnswers hself (Exits.of_visits hu ht) hall) ht
  have hmem := hclosed.target_mem net.oneAddress (exits_target ht) (hclosed.mem_closingRound hX)
  obtain ⟨rs, hrs, r, hr, hres, hg⟩ := hclosed.answered_of_mem hmem
  rcases exits_rounds_mem ht hrs with hold | ⟨u, -, rfl⟩
  · cases hold
  · obtain ⟨c, -, rfl⟩ := List.mem_map.mp hr
    rw [singleLookup_resolver] at hres
    subst hres
    rw [show answers u.rounds.length c = .error .responseTimeout from net.answers_target _] at hg
    cases hg

/-- Every id has a live node without contacts, all at one address. -/
def emptyNetwork : OnlineNetwork where
  address := fun _ => .localhost 8080
  server := fun _ k => ⟨⟨k, .localhost 8080⟩, RoutingTable.new k 0, ShardStorageManager.new ∅⟩
  env := fun _ _ => ⟨fun _ => .error .responseTimeout, 0, none⟩
  nodeInfo_eq := fun _ _ => rfl
  table_id := fun _ _ => rfl
  table_valid := fun _ k => RoutingTable.new_valid k 0
  table_online := by
    intro round k n hn
    obtain ⟨b, hb, hnb⟩ := List.mem_flatMap.mp hn
    rw [List.eq_of_mem_replicate hb] at hnb
    cases hnb

def searcher : Node where
  key := Key.ofTopByte 0 0
  address := .localhost 8080
  routingTable := (RoutingTable.new (Key.ofTopByte 0 0) 0).storeAll
    [(NodeInfo.local 0x80 8080, fun _ => .error .responseTimeout)]

def searcherAnswers : Answers :=
  emptyNetwork.answers searcher.toNodeInfo (NodeInfo.local 0x80 8080).id zeroRequestId

theorem findNode_misses_known_target :
    (searcher.routingTable.lookupGetNClosest (NodeInfo.local 0x80 8080).id alpha 0).1 =
      .ok [NodeInfo.local 0x80 8080] ∧
    (searcher.findNode (NodeInfo.local 0x80 8080).id searcherAnswers
      (fun _ _ => .error .responseTimeout) 0 1).map (fun out => out.1.toOption) = some (some []) := by
  decide +kernel

theorem findNode_never_foundByKey_searcher :
    ∃ result node, Returns (searcher.findNode (NodeInfo.local 0x80 8080).id searcherAnswers
        (fun _ _ => .error .responseTimeout) 0) (result, node) ∧
      ∀ r, result = .ok r → ∃ start t, searcher.StartsFindNode (NodeInfo.local 0x80 8080).id 0 start ∧
        Exits (lookupPass false searcherAnswers) start t ∧
        r = (closingRound searcherAnswers t).buffer.getResultingVector ∧
        (NodeInfo.local 0x80 8080 ∈ (closingRound searcherAnswers t).buffer.contacts →
          ¬ FoundByKey (NodeInfo.local 0x80 8080) (closingRound searcherAnswers t)) :=
  findNode_never_foundByKey emptyNetwork searcher (NodeInfo.local 0x80 8080) zeroRequestId
    (fun _ _ => .error .responseTimeout) 0 rfl (RoutingTable.storeAll_id _ _)
    (RoutingTable.storeAll_valid (RoutingTable.new_valid _ 0) _) (by decide +kernel)

end P2PFilesystem
