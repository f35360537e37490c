import P2PFilesystem.SelfLookup
import P2PFilesystem.TableLock

/-!
# Eviction from a full bucket

`KBucket::add_nodeinfo` takes the old entry of the contact and the head out of the bucket
before it knows how the ping of the head ends, and `Node::ping` looks up the head's address
in that same table.
-/
namespace P2PFilesystem

namespace KBucket

/-- The update by what the bucket holds and how the ping of its head ends. -/
structure UpdateSpec (b : KBucket) (nodeInfoNew : NodeInfo) (ping : PingOutcome)
    (after : Except KBucketError Unit × KBucket) : Prop where
  room : nodeInfoNew.id ∈ b.nodes.map NodeInfo.id ∨ b.nodes.length < K →
    after = (.ok (), { b with nodes := b.nodes.filter (fun n => n.id ≠ nodeInfoNew.id) ++ [nodeInfoNew] })
  replies : nodeInfoNew.id ∉ b.nodes.map NodeInfo.id → K ≤ b.nodes.length → ∀ head rest, b.nodes = head :: rest →
    ∀ r, ping head.id = .ok r → after = (.ok (), { b with nodes := rest ++ [head] })
  silent : nodeInfoNew.id ∉ b.nodes.map NodeInfo.id → K ≤ b.nodes.length → ∀ head rest, b.nodes = head :: rest →
    ping head.id = .error .responseTimeout ∨ ping head.id = .error .badResponse →
    after = (.ok (), { b with nodes := rest ++ [nodeInfoNew] })
  fails : nodeInfoNew.id ∉ b.nodes.map NodeInfo.id → K ≤ b.nodes.length → ∀ head rest, b.nodes = head :: rest →
    ∀ e, ping head.id = .error e → e ≠ .responseTimeout → e ≠ .badResponse → after = (.error .failedToAdd, b)

/-- The ping tells whether its receiver is there. -/
def Tells (outcome : Except NodeError Response) : Prop :=
  (∃ r, outcome = .ok r) ∨ outcome = .error .responseTimeout ∨ outcome = .error .badResponse

/-- The bucket while `add_nodeinfo` awaits the ping. -/
def duringPing (self : KBucket) (nodeInfoNew : NodeInfo) : KBucket :=
  let self := (self.removeNodeinfo nodeInfoNew.id).2
  { self with nodes := self.nodes.tail }

theorem eraseP_eq_self {nodes : List NodeInfo} {k : Key} (h : k ∉ nodes.map NodeInfo.id) :
    nodes.eraseP (fun n => n.id = k) = nodes := by
  refine List.eraseP_of_forall_not fun n hn hk => h ?_
  rw [← of_decide_eq_true hk]
  exact List.mem_map_of_mem hn

theorem eraseP_eq_filter {nodes : List NodeInfo} {k : Key} (h : (nodes.map NodeInfo.id).Nodup) :
    nodes.eraseP (fun n => n.id = k) = nodes.filter (fun n => n.id ≠ k) := by
  induction nodes with
  | nil => rfl
  | cons n nodes ih =>
      obtain ⟨hn, hnodes⟩ := List.nodup_cons.mp h
      by_cases hk : n.id = k
      · have hkept : ∀ m ∈ nodes, m.id ≠ k := by
          intro m hm hmk
          exact hn (hk.trans hmk.symm ▸ List.mem_map_of_mem hm)
        simp only [List.eraseP_cons, List.filter_cons, hk, decide_true, cond_true, ne_eq, not_true_eq_false,
          decide_false, Bool.false_eq_true, if_false]
        exact (List.filter_eq_self.mpr fun m hm => decide_eq_true (hkept m hm)).symm
      · simp only [List.eraseP_cons, List.filter_cons, hk, decide_false, cond_false, ne_eq, not_false_eq_true,
          decide_true, if_true, ih hnodes]

variable {b : KBucket} {x : NodeInfo} {ping ping' : PingOutcome}

/-- The ping is made with the head of what is left without the contact's id. -/
theorem addNodeinfo_congr (h : ∀ head ∈ (b.nodes.eraseP fun n => n.id = x.id).head?, ping head.id = ping' head.id) :
    b.addNodeinfo x ping = b.addNodeinfo x ping' := by
  unfold addNodeinfo
  dsimp only [removeNodeinfo]
  cases hkept : b.nodes.eraseP fun n => n.id = x.id with
  | nil => rfl
  | cons head rest =>
      rw [hkept] at h
      dsimp only
      rw [h head rfl]

/-- With the contact's id not there and no place left, everything hangs on the ping. -/
theorem Sound.addNodeinfo_full (hb : b.Sound) (hnew : x.id ∉ b.nodes.map NodeInfo.id) {head : NodeInfo}
    {rest : List NodeInfo} (hnodes : b.nodes = head :: rest) (hfull : K ≤ b.nodes.length) (ping : PingOutcome) :
    (∃ r, ping head.id = .ok r ∧ b.addNodeinfo x ping = (.ok (), { b with nodes := rest ++ [head] })) ∨
    ((ping head.id = .error .responseTimeout ∨ ping head.id = .error .badResponse) ∧
      b.addNodeinfo x ping = (.ok (), { b with nodes := rest ++ [x] })) ∨
    ((∃ e, ping head.id = .error e ∧ e ≠ .responseTimeout ∧ e ≠ .badResponse) ∧
      b.addNodeinfo x ping = (.error .failedToAdd, { b with nodes := rest })) := by
  have hcases := b.addNodeinfo_cases x ping (by rw [hb.capacity_eq]; decide)
  rw [eraseP_eq_self hnew, hnodes] at hcases
  obtain ⟨hroom, -⟩ | ⟨head', rest', hkept, -, hcases⟩ := hcases
  · rw [← hnodes, hb.capacity_eq] at hroom
    exact absurd hfull (Nat.not_le.mpr hroom)
  · obtain ⟨rfl, rfl⟩ := List.cons.inj hkept
    exact hcases

theorem Sound.addNodeinfo_room (hb : b.Sound) (hroom : x.id ∈ b.nodes.map NodeInfo.id ∨ b.nodes.length < K) :
    b.addNodeinfo x ping = (.ok (), { b with nodes := b.nodes.filter (fun n => n.id ≠ x.id) ++ [x] }) := by
  have hlength : (b.nodes.eraseP (fun n => n.id = x.id)).length < b.capacity := by
    rw [hb.capacity_eq]
    cases hroom with
    | inl hmem =>
        obtain ⟨n, hn, hid⟩ := List.mem_map.mp hmem
        have herased := List.length_eraseP_of_mem (p := fun n : NodeInfo => decide (n.id = x.id)) hn (decide_eq_true hid)
        have hpos := List.length_pos_of_mem hn
        have hle := hb.length_le
        omega
    | inr hlt => exact List.eraseP_sublist.length_le.trans_lt hlt
  rw [← eraseP_eq_filter hb.nodup_ids]
  exact if_pos hlength

theorem updateSpec_full {after : Except KBucketError Unit × KBucket} (hnew : x.id ∉ b.nodes.map NodeInfo.id)
    (hfull : K ≤ b.nodes.length) {head : NodeInfo} {rest : List NodeInfo} (hnodes : b.nodes = head :: rest) :
    b.UpdateSpec x ping after ↔
      (∀ r, ping head.id = .ok r → after = (.ok (), { b with nodes := rest ++ [head] })) ∧
      (ping head.id = .error .responseTimeout ∨ ping head.id = .error .badResponse →
        after = (.ok (), { b with nodes := rest ++ [x] })) ∧
      (∀ e, ping head.id = .error e → e ≠ .responseTimeout → e ≠ .badResponse → after = (.error .failedToAdd, b)) := by
  constructor
  · intro h
    exact ⟨h.replies hnew hfull head rest hnodes, h.silent hnew hfull head rest hnodes, h.fails hnew hfull head rest hnodes⟩
  · rintro ⟨hreplies, hsilent, hfails⟩
    have hhead : ∀ head' rest', b.nodes = head' :: rest' → head = head' ∧ rest = rest' :=
      fun _ _ h => List.cons.inj (hnodes.symm.trans h)
    constructor
    · intro hroom
      exact (hroom.elim hnew (Nat.not_lt.mpr hfull)).elim
    · intro _ _ head' rest' h
      obtain ⟨rfl, rfl⟩ := hhead head' rest' h
      exact hreplies
    · intro _ _ head' rest' h
      obtain ⟨rfl, rfl⟩ := hhead head' rest' h
      exact hsilent
    · intro _ _ head' rest' h
      obtain ⟨rfl, rfl⟩ := hhead head' rest' h
      exact hfails

/-- The head is out before it is known whether it answers: the specification is met exactly
if no ping is needed or the ping tells whether the head is there. -/
theorem addNodeinfo_updateSpec_iff (hb : b.Sound) (x : NodeInfo) (ping : PingOutcome) :
    b.UpdateSpec x ping (b.addNodeinfo x ping) ↔
      x.id ∈ b.nodes.map NodeInfo.id ∨ b.nodes.length < K ∨ ∀ head ∈ b.nodes.head?, Tells (ping head.id) := by
  by_cases hroom : x.id ∈ b.nodes.map NodeInfo.id ∨ b.nodes.length < K
  · refine iff_of_true ?_ (hroom.imp_right .inl)
    rw [hb.addNodeinfo_room hroom]
    have hno : ∀ {P : Prop}, x.id ∉ b.nodes.map NodeInfo.id → K ≤ b.nodes.length → P := by
      intro P hnew hfull
      exact (hroom.elim hnew (Nat.not_lt.mpr hfull)).elim
    exact ⟨fun _ => rfl, fun hnew hfull => hno hnew hfull, fun hnew hfull => hno hnew hfull,
      fun hnew hfull => hno hnew hfull⟩
  · obtain ⟨hnew, hlt⟩ := not_or.mp hroom
    have hfull : K ≤ b.nodes.length := Nat.not_lt.mp hlt
    have hpos : 0 < b.nodes.length := lt_of_lt_of_le (by decide) hfull
    obtain ⟨head, rest, hnodes⟩ := List.exists_cons_of_length_pos hpos
    have hhead : (∀ n ∈ b.nodes.head?, Tells (ping n.id)) ↔ Tells (ping head.id) := by
      rw [hnodes]
      simp
    rw [or_iff_right hnew, or_iff_right hlt, hhead, updateSpec_full hnew hfull hnodes]
    obtain ⟨r, hr, hadd⟩ | ⟨hsilent, hadd⟩ | ⟨⟨e, he, htimeout, hbad⟩, hadd⟩ :=
      hb.addNodeinfo_full hnew hnodes hfull ping
    · rw [hadd, hr]
      simp [Tells]
    · rw [hadd]
      refine iff_of_true ⟨?_, fun _ => rfl, ?_⟩ (.inr hsilent)
      · intro r hr
        simp [hr] at hsilent
      · intro e he htimeout hbad
        simp [he, htimeout, hbad] at hsilent
    · -- the head is gone
      have hlost : { b with nodes := rest } ≠ b := by
        intro heq
        have hlength := congrArg (fun b : KBucket => b.nodes.length) heq
        rw [hnodes, List.length_cons] at hlength
        exact absurd hlength (Nat.ne_of_lt (Nat.lt_succ_self _))
      rw [hadd, he]
      simp [Tells, htimeout, hbad, hlost]

end KBucket

/-- The bucket of `fullBucketTable` that is full. -/
def fullBucket : KBucket := ⟨(List.range K).map fun i => .local (UInt8.ofNat (128 + i)) 4001, K, 0⟩

theorem fullBucket_sound : fullBucket.Sound where
  capacity_eq := rfl
  length_le := by decide
  nodup_ids := by decide +kernel

theorem fullBucket_timeout : fullBucket.UpdateSpec (.local 200 4002) (fun _ => .error .responseTimeout)
    (fullBucket.addNodeinfo (.local 200 4002) fun _ => .error .responseTimeout) :=
  (KBucket.addNodeinfo_updateSpec_iff fullBucket_sound _ _).mpr (.inr (.inr fun _ _ => .inr (.inl rfl)))

/-- The ping fails without an answer, and one contact fewer is left. -/
theorem fullBucket_missing : fullBucket.Sound ∧
    ¬ fullBucket.UpdateSpec (.local 200 4002) headRemoved (fullBucket.addNodeinfo (.local 200 4002) headRemoved) ∧
    (fullBucket.addNodeinfo (.local 200 4002) headRemoved).2.nodes.length = 19 := by
  refine ⟨fullBucket_sound, fun hspec => ?_, by decide +kernel⟩
  have hafter := hspec.fails (by decide +kernel) (by decide) (.local 128 4001) fullBucket.nodes.tail (by decide +kernel)
    .pingMissingNode rfl nofun nofun
  have hlength := congrArg (fun after => after.2.nodes.length) hafter
  revert hlength
  decide +kernel

namespace RoutingTable

/-- The tables that stores and the searches of lookups lead to. -/
inductive Reachable (id : Key) : RoutingTable → Prop
  | new (now : Nat) : Reachable id (.new id now)
  | storeNodeinfo {t : RoutingTable} (h : Reachable id t) (nodeInfo : NodeInfo) (ping : PingOutcome) :
      Reachable id (t.storeNodeinfo nodeInfo ping).2
  | lookupGetNClosest {t : RoutingTable} (h : Reachable id t) (key : Key) (n now : Nat) :
      Reachable id (t.lookupGetNClosest key n now).2

theorem Reachable.valid {id : Key} {t : RoutingTable} (h : Reachable id t) : t.Valid := by
  induction h with
  | new now => exact new_valid id now
  | storeNodeinfo _ nodeInfo ping ih => exact storeNodeinfo_valid ih nodeInfo ping
  | @lookupGetNClosest t _ key n now ih =>
      unfold RoutingTable.lookupGetNClosest
      cases t.getBucketIndex key with
      | error e => exact ih
      | ok i => exact (ih.touch i now).1

theorem Reachable.storeAll {id : Key} {t : RoutingTable} (h : Reachable id t) (stores : List (NodeInfo × PingOutcome)) :
    Reachable id (t.storeAll stores) := by
  induction stores generalizing t with
  | nil => exact h
  | cons s stores ih => exact ih (h.storeNodeinfo s.1 s.2)

/-- The table while `add_nodeinfo` awaits the ping. -/
def duringPing (self : RoutingTable) (nodeInfo : NodeInfo) : RoutingTable :=
  match self.getBucketIndex nodeInfo.id with
  | .error _ => self
  | .ok i => { self with buckets := self.buckets.modify i fun bucket => bucket.duringPing nodeInfo }

end RoutingTable

/-- `store_nodeinfo` of the node's own table, with `Node::ping` for the head of a full bucket. -/
def Node.storeNodeinfo (self : Node) (nodeInfo : NodeInfo) (send : NodeInfo → Except NodeError Response) :
    Except RoutingTableError Unit × RoutingTable :=
  self.routingTable.storeNodeinfo nodeInfo fun id =>
    { self with routingTable := self.routingTable.duringPing nodeInfo }.ping id send

namespace RoutingTable
variable {t : RoutingTable} {x head : NodeInfo} {i : Nat} {b : KBucket}

/-- The head is in no other bucket either. -/
theorem Valid.getNodeinfo_duringPing (h : t.Valid) (hidx : t.getBucketIndex x.id = .ok i)
    (hb : t.buckets[i]? = some b) (hhead : head ∈ (b.nodes.eraseP fun n => n.id = x.id).head?) :
    (t.duringPing x).getNodeinfo head.id = .ok none := by
  have hmem : head ∈ b.nodes := List.eraseP_sublist.subset (List.mem_of_mem_head? hhead)
  have hplaced : t.getBucketIndex head.id = .ok i := h.placed i b hb head hmem
  have hid : (t.duringPing x).getBucketIndex head.id = t.getBucketIndex head.id := by
    unfold duringPing
    rw [hidx]
    rfl
  have hbucket : (t.duringPing x).buckets[i]? = some (b.duringPing x) := by
    unfold duringPing
    rw [hidx]
    simp only [List.getElem?_modify_eq, hb, Option.map_eq_map, Option.map_some]
  have hnodup := (h.sound b (List.mem_of_getElem? hb)).nodup_ids
  have hfind : (b.duringPing x).getNodeinfo head.id = none := by
    obtain ⟨rest, hkept⟩ : ∃ rest, (b.nodes.eraseP fun n => n.id = x.id) = head :: rest :=
      ⟨_, List.eq_cons_of_mem_head? hhead⟩
    have hrest := hnodup.sublist ((List.eraseP_sublist (p := fun n => decide (n.id = x.id))).map NodeInfo.id)
    rw [hkept, List.map_cons, List.nodup_cons] at hrest
    simp only [KBucket.duringPing, KBucket.getNodeinfo, KBucket.removeNodeinfo, hkept, List.tail_cons]
    refine List.find?_eq_none.mpr fun n hn hk => hrest.1 ?_
    rw [← of_decide_eq_true hk]
    exact List.mem_map_of_mem hn
  simp only [getNodeinfo, hid, hplaced, hbucket, hfind]

end RoutingTable

/-- The ping of an eviction never leaves the node, so a store is one with `headRemoved`. -/
theorem Node.storeNodeinfo_eq {self : Node} (h : self.routingTable.Valid) (x : NodeInfo)
    (send : NodeInfo → Except NodeError Response) :
    self.storeNodeinfo x send = self.routingTable.storeNodeinfo x headRemoved := by
  unfold Node.storeNodeinfo RoutingTable.storeNodeinfo
  cases hidx : self.routingTable.getBucketIndex x.id with
  | error e => rfl
  | ok i =>
      dsimp only
      cases hb : self.routingTable.buckets[i]? with
      | none => rfl
      | some b =>
          dsimp only
          rw [KBucket.addNodeinfo_congr fun head hhead => ?_]
          simp only [Node.ping, h.getNodeinfo_duringPing hidx hb hhead, headRemoved]

/-- The eviction procedure asks a table from which the head is gone: in every table that is reached, a store
to a full bucket fails and loses the head, whoever answers pings. -/
theorem Node.storeNodeinfo_full {self : Node} {id : Key} (hreach : self.routingTable.Reachable id) {x head : NodeInfo}
    {rest : List NodeInfo} {i : Nat} (hidx : self.routingTable.getBucketIndex x.id = .ok i)
    (hnodes : self.routingTable.bucketNodes i = head :: rest) (hfull : K ≤ (head :: rest).length)
    (hnew : x.id ∉ (head :: rest).map NodeInfo.id) (send : NodeInfo → Except NodeError Response) :
    { self with routingTable := self.routingTable.duringPing x }.ping head.id send = .error .pingMissingNode ∧
    (self.storeNodeinfo x send).1 = .error (.kBucketFailed .failedToAdd) ∧
    head ∉ (self.storeNodeinfo x send).2.getAllNodeinfos := by
  have h : self.routingTable.Valid := hreach.valid
  obtain ⟨b, hb, hbnodes⟩ : ∃ b, self.routingTable.buckets[i]? = some b ∧ b.nodes = head :: rest := by
    unfold RoutingTable.bucketNodes at hnodes
    cases hb : self.routingTable.buckets[i]? with
    | none => rw [hb] at hnodes; cases hnodes
    | some b =>
        rw [hb] at hnodes
        exact ⟨b, rfl, hnodes⟩
  have hsound := h.sound b (List.mem_of_getElem? hb)
  rw [← hbnodes] at hnew hfull
  have hkept : head ∈ (b.nodes.eraseP fun n => n.id = x.id).head? := by
    rw [KBucket.eraseP_eq_self hnew, hbnodes]
    rfl
  have hadd : b.addNodeinfo x headRemoved = (.error .failedToAdd, { b with nodes := rest }) := by
    obtain ⟨r, hr, -⟩ | ⟨hsilent, -⟩ | ⟨-, hadd⟩ := hsound.addNodeinfo_full hnew hbnodes hfull headRemoved
    · cases hr
    · simp [headRemoved] at hsilent
    · exact hadd
  have hstored : self.storeNodeinfo x send = (.error (.kBucketFailed .failedToAdd),
      { self.routingTable with buckets := self.routingTable.buckets.set i { b with nodes := rest } }) := by
    rw [Node.storeNodeinfo_eq h, RoutingTable.storeNodeinfo, hidx]
    simp only [hb, hadd, Except.mapError]
  refine ⟨?_, ?_, ?_⟩
  · simp only [Node.ping, h.getNodeinfo_duringPing hidx hb hkept]
  · rw [hstored]
  · intro hmem
    have hafter : (self.storeNodeinfo x send).2.Valid :=
      Node.storeNodeinfo_eq h x send ▸ RoutingTable.storeNodeinfo_valid h x headRemoved
    obtain ⟨j, c, hc, hin⟩ := RoutingTable.mem_getAllNodeinfos.mp hmem
    have hj : self.routingTable.getBucketIndex head.id = .ok j := by
      have hplaced := hafter.placed j c hc head hin
      rw [hstored] at hplaced
      exact hplaced
    have hi := h.placed i b hb head (hbnodes ▸ List.mem_cons_self)
    cases hi.symm.trans hj
    rw [hstored, List.getElem?_set_self (List.getElem?_eq_some_iff.mp hb).1] at hc
    cases hc
    have hnodup := hsound.nodup_ids
    rw [hbnodes, List.map_cons, List.nodup_cons] at hnodup
    exact hnodup.1 (List.mem_map_of_mem hin)

def fullBucketNode : Node := ⟨(NodeInfo.local 0 4000).id, .localhost 4000, fullBucketTable⟩

/-- Everybody answers pings. -/
def pongs (n : NodeInfo) : Except NodeError Response :=
  .ok ⟨.pong, n, fullBucketNode.toNodeInfo, zeroRequestId⟩

theorem fullBucketNode_stored :
    (fullBucketNode.storeNodeinfo (.local 200 4002) pongs).1 = .error (.kBucketFailed .failedToAdd) := by
  have hreach : fullBucketNode.routingTable.Reachable (NodeInfo.local 0 4000).id := by
    dsimp only [fullBucketNode, fullBucketTable]
    exact (RoutingTable.Reachable.new 0).storeAll _
  have hidx : fullBucketNode.routingTable.getBucketIndex (NodeInfo.local 200 4002).id = .ok 159 := by decide +kernel
  have hnodes : fullBucketNode.routingTable.bucketNodes 159 = .local 128 4001 :: fullBucket.nodes.tail := by
    decide +kernel
  exact (Node.storeNodeinfo_full hreach hidx hnodes (by decide +kernel) (by decide +kernel) pongs).2.1

theorem fullBucketNode_loses : NodeInfo.local 128 4001 ∈ fullBucketTable.getAllNodeinfos ∧
    (∀ n : NodeInfo, n.address = (NodeInfo.local 128 4001).address → ∃ r, pongs n = .ok r) ∧
    NodeInfo.local 128 4001 ∉ (fullBucketNode.storeNodeinfo (.local 200 4002) pongs).2.getAllNodeinfos :=
  ⟨by decide +kernel, fun _ _ => ⟨_, rfl⟩, by decide +kernel⟩

end P2PFilesystem
