import P2PFilesystem.Messages
import Mathlib.Data.List.Flatten
import Mathlib.Data.List.Lattice

/-!
# K-buckets and the routing table

`routing/kbucket.rs` and `routing/routing_table.rs` as far as contacts are stored and
found by id. The outcome of pinging the head of a full bucket is an argument; every
outcome the type allows is covered. The table invariant is kept by every store,
failing ones included.
-/
namespace P2PFilesystem

inductive KBucketError where
  | notEnoughSpace
  | failedToAdd
  deriving DecidableEq

inductive RoutingTableError where
  | empty
  | bucketNotFoundForId (id : Key)
  | bucketNotFound
  | kBucketFailed (e : KBucketError)
  | attempStoreSelf
  deriving DecidableEq

inductive NodeError where
  | badResponse
  | responseTimeout
  | unableToSend
  | pingMissingNode
  | routingTableFailed (e : RoutingTableError)
  deriving DecidableEq

/-- Contacts from least to most recently seen. -/
structure KBucket where
  nodes : List NodeInfo
  capacity : Nat
  lastLookupAt : Nat
  deriving DecidableEq

abbrev PingOutcome := Key → Except NodeError Response

namespace KBucket

def new (now : Nat) : KBucket := ⟨[], K, now⟩

def setLastLookup (self : KBucket) (now : Nat) : KBucket := { self with lastLookupAt := now }

def removeNodeinfo (self : KBucket) (key : Key) : Option NodeInfo × KBucket :=
  (self.nodes.find? (fun n => n.id = key), { self with nodes := self.nodes.eraseP (fun n => n.id = key) })

def getNodeinfo (self : KBucket) (key : Key) : Option NodeInfo := self.nodes.find? (fun n => n.id = key)

/-- `KBucket::add_nodeinfo`. With no capacity at all the source would panic on the
missing head; `new` always gives `K`. -/
def addNodeinfo (self : KBucket) (nodeInfoNew : NodeInfo) (ping : PingOutcome) :
    Except KBucketError Unit × KBucket :=
  let self := (self.removeNodeinfo nodeInfoNew.id).2
  if self.nodes.length < self.capacity then
    (.ok (), { self with nodes := self.nodes ++ [nodeInfoNew] })
  else match self.nodes with
    | [] => (.error .failedToAdd, self)
    | head :: rest => match ping head.id with
        | .ok _ => (.ok (), { self with nodes := rest ++ [head] })
        | .error .responseTimeout | .error .badResponse =>
            (.ok (), { self with nodes := rest ++ [nodeInfoNew] })
        | .error _ => (.error .failedToAdd, { self with nodes := rest })

end KBucket

structure RoutingTable where
  id : Key
  buckets : List KBucket
  deriving DecidableEq

namespace RoutingTable

def numBuckets : Nat := K * 8

def new (id : Key) (now : Nat) : RoutingTable := ⟨id, List.replicate numBuckets (KBucket.new now)⟩

/-- The closest bucket has the most leading zeros. -/
def getBucketIndex (self : RoutingTable) (key : Key) : Except RoutingTableError Nat :=
  let lz := self.id.leadingZerosInDistance key
  match compare lz numBuckets with
  | .eq => .error .attempStoreSelf
  | .gt => .error (.bucketNotFoundForId key)
  | .lt => .ok (numBuckets - 1 - lz)

def storeNodeinfo (self : RoutingTable) (nodeInfo : NodeInfo) (ping : PingOutcome) :
    Except RoutingTableError Unit × RoutingTable :=
  match self.getBucketIndex nodeInfo.id with
  | .error e => (.error e, self)
  | .ok i => match self.buckets[i]? with
      | some bucket =>
          let (result, bucket) := bucket.addNodeinfo nodeInfo ping
          (result.mapError .kBucketFailed, { self with buckets := self.buckets.set i bucket })
      | none => (.error (.bucketNotFoundForId nodeInfo.id), self)

/-- The contacts of bucket `i`; an index outside the table would be a panic in the source. -/
def bucketNodes (self : RoutingTable) (i : Nat) : List NodeInfo :=
  match self.buckets[i]? with
  | some bucket => bucket.nodes
  | none => []

def getNodeinfo (self : RoutingTable) (key : Key) : Except RoutingTableError (Option NodeInfo) :=
  match self.getBucketIndex key with
  | .error e => .error e
  | .ok i => match self.buckets[i]? with
      | some bucket => .ok (bucket.getNodeinfo key)
      | none => .ok none

def getAllNodeinfos (self : RoutingTable) : List NodeInfo := self.buckets.flatMap KBucket.nodes

/-- A history of stores: each contact with the ping outcomes met while storing it. -/
def storeAll (self : RoutingTable) (stores : List (NodeInfo × PingOutcome)) : RoutingTable :=
  stores.foldl (fun table s => (table.storeNodeinfo s.1 s.2).2) self

end RoutingTable

/-- What a bucket keeps: its capacity is `K`, at most `K` contacts, no id twice. -/
structure KBucket.Sound (b : KBucket) : Prop where
  capacity_eq : b.capacity = K
  length_le : b.nodes.length ≤ K
  nodup_ids : (b.nodes.map NodeInfo.id).Nodup

theorem KBucket.new_sound (now : Nat) : (KBucket.new now).Sound :=
  ⟨rfl, Nat.zero_le K, List.nodup_nil⟩

/-- Everything `add_nodeinfo` can do, in terms of the bucket without the new contact's id. -/
theorem KBucket.addNodeinfo_cases (b : KBucket) (x : NodeInfo) (ping : PingOutcome)
    (hcap : 0 < b.capacity) :
    let kept := b.nodes.eraseP (fun n => n.id = x.id)
    (kept.length < b.capacity ∧ b.addNodeinfo x ping = (.ok (), { b with nodes := kept ++ [x] })) ∨
    ∃ head rest, kept = head :: rest ∧ b.capacity ≤ kept.length ∧
      ((∃ r, ping head.id = .ok r ∧
          b.addNodeinfo x ping = (.ok (), { b with nodes := rest ++ [head] })) ∨
        ((ping head.id = .error .responseTimeout ∨ ping head.id = .error .badResponse) ∧
          b.addNodeinfo x ping = (.ok (), { b with nodes := rest ++ [x] })) ∨
        ((∃ e, ping head.id = .error e ∧ e ≠ .responseTimeout ∧ e ≠ .badResponse) ∧
          b.addNodeinfo x ping = (.error .failedToAdd, { b with nodes := rest }))) := by
  intro kept
  by_cases hroom : kept.length < b.capacity
  · exact .inl ⟨hroom, if_pos hroom⟩
  · right
    cases hk : kept with
    | nil => rw [hk] at hroom; exact absurd hcap hroom
    | cons head rest =>
        have hadd : b.addNodeinfo x ping = match ping head.id with
            | .ok _ => (.ok (), { b with nodes := rest ++ [head] })
            | .error .responseTimeout | .error .badResponse => (.ok (), { b with nodes := rest ++ [x] })
            | .error _ => (.error .failedToAdd, { b with nodes := rest }) := by
          refine (if_neg hroom).trans ?_
          dsimp only [removeNodeinfo]
          change (match kept with
            | [] => _
            | head :: rest => _) = _
          rw [hk]
        refine ⟨head, rest, rfl, hk ▸ Nat.le_of_not_gt hroom, ?_⟩
        rw [hadd]
        cases hp : ping head.id with
        | ok r => exact .inl ⟨r, rfl, rfl⟩
        | error e =>
            right
            cases e with
            | responseTimeout => exact .inl ⟨.inl rfl, rfl⟩
            | badResponse => exact .inl ⟨.inr rfl, rfl⟩
            | unableToSend => exact .inr ⟨⟨_, rfl, nofun, nofun⟩, rfl⟩
            | pingMissingNode => exact .inr ⟨⟨_, rfl, nofun, nofun⟩, rfl⟩
            | routingTableFailed e => exact .inr ⟨⟨_, rfl, nofun, nofun⟩, rfl⟩

theorem notMem_map_eraseP {nodes : List NodeInfo} {k : Key} (h : (nodes.map NodeInfo.id).Nodup) :
    k ∉ (nodes.eraseP (fun n => n.id = k)).map NodeInfo.id := by
  induction nodes with
  | nil => intro hk; cases hk
  | cons n nodes ih =>
      obtain ⟨hn, hnodes⟩ := List.nodup_cons.mp h
      by_cases hk : n.id = k
      · rw [List.eraseP_cons_of_pos (p := fun n : NodeInfo => decide (n.id = k)) (decide_eq_true hk)]
        exact hk ▸ hn
      · rw [List.eraseP_cons_of_neg (by simpa using hk), List.map_cons, List.mem_cons, not_or]
        exact ⟨fun h => hk h.symm, ih hnodes⟩

theorem KBucket.addNodeinfo_sound {b : KBucket} (hb : b.Sound) (x : NodeInfo) (ping : PingOutcome) :
    (b.addNodeinfo x ping).2.Sound ∧ ∀ n ∈ (b.addNodeinfo x ping).2.nodes, n ∈ b.nodes ∨ n = x := by
  obtain ⟨hcap, hlen, hnd⟩ := hb
  have hsub : (b.nodes.eraseP (fun n => n.id = x.id)).Sublist b.nodes := List.eraseP_sublist
  have hfresh := notMem_map_eraseP (k := x.id) hnd
  have hnd' := hnd.sublist (hsub.map NodeInfo.id)
  have hlen' := hsub.length_le
  -- a list of kept contacts followed by one more whose id is not among them
  have hsnoc : ∀ {l : List NodeInfo} {y : NodeInfo}, ((l.map NodeInfo.id).Nodup) →
      y.id ∉ l.map NodeInfo.id → ((l ++ [y]).map NodeInfo.id).Nodup := by
    intro l y hl hy
    rw [List.map_append]
    exact List.nodup_append.mpr ⟨hl, List.nodup_singleton _, fun a ha c hc => by
      rw [List.mem_singleton.mp hc]; exact fun h => hy (h ▸ ha)⟩
  rcases KBucket.addNodeinfo_cases b x ping (by rw [hcap]; decide) with
    ⟨hroom, he⟩ | ⟨head, rest, hk, hfull, ⟨r, _, he⟩ | ⟨_, he⟩ | ⟨_, he⟩⟩
  · rw [he]
    refine ⟨⟨hcap, ?_, hsnoc hnd' hfresh⟩, ?_⟩
    · rw [List.length_append, List.length_singleton]; omega
    · intro n hn
      rcases List.mem_append.mp hn with h | h
      · exact .inl (hsub.subset h)
      · exact .inr (List.mem_singleton.mp h)
  all_goals
    rw [hk] at hsub hfresh hnd' hlen' hfull
    rw [List.map_cons] at hnd' hfresh
    obtain ⟨hhead, hrest⟩ := List.nodup_cons.mp hnd'
    have hmem : ∀ n ∈ rest, n ∈ b.nodes := fun n hn => hsub.subset (List.mem_cons_of_mem head hn)
    rw [List.length_cons] at hlen'
    rw [he]
  · refine ⟨⟨hcap, ?_, hsnoc hrest hhead⟩, ?_⟩
    · rw [List.length_append, List.length_singleton]; omega
    · intro n hn
      rcases List.mem_append.mp hn with h | h
      · exact .inl (hmem n h)
      · exact .inl (List.mem_singleton.mp h ▸ hsub.subset List.mem_cons_self)
  · refine ⟨⟨hcap, ?_, hsnoc hrest fun h => hfresh (List.mem_cons_of_mem _ h)⟩, ?_⟩
    · rw [List.length_append, List.length_singleton]; omega
    · intro n hn
      rcases List.mem_append.mp hn with h | h
      · exact .inl (hmem n h)
      · exact .inr (List.mem_singleton.mp h)
  · exact ⟨⟨hcap, by dsimp only; omega, hrest⟩, fun n hn => .inl (hmem n hn)⟩

namespace RoutingTable

theorem getBucketIndex_eq (t : RoutingTable) (key : Key) :
    t.getBucketIndex key =
      if t.id = key then .error .attempStoreSelf else .ok (t.id.dist key).log2 := by
  have hn : numBuckets = 160 := rfl
  have h8 : 8 * K = 160 := rfl
  simp only [getBucketIndex, Key.leadingZerosInDistance_eq, hn, h8]
  by_cases hs : t.id = key
  · rw [if_pos hs, if_pos hs]
    rfl
  · have hne : t.id.dist key ≠ 0 := fun h => hs (Key.dist_eq_zero_iff.mp h)
    have hlt : (t.id.dist key).log2 < 160 := (Nat.log2_lt hne).mpr (t.id.dist_lt key)
    rw [if_neg hs, if_neg hs, Nat.compare_eq_lt.mpr (by omega)]
    dsimp only
    congr 1
    omega

theorem getBucketIndex_ok {t : RoutingTable} {key : Key} {i : Nat} :
    t.getBucketIndex key = .ok i ↔ t.id ≠ key ∧ (t.id.dist key).log2 = i := by
  rw [getBucketIndex_eq]
  split_ifs with h
  · exact ⟨nofun, fun he => absurd h he.1⟩
  · rw [Except.ok.injEq]
    exact ⟨fun he => ⟨h, he⟩, fun he => he.2⟩

theorem getBucketIndex_lt {t : RoutingTable} {key : Key} {i : Nat} (h : t.getBucketIndex key = .ok i) :
    i < numBuckets := by
  obtain ⟨hs, rfl⟩ := getBucketIndex_ok.mp h
  exact (Nat.log2_lt fun h0 => hs (Key.dist_eq_zero_iff.mp h0)).mpr (t.id.dist_lt key)

structure Valid (t : RoutingTable) : Prop where
  length_buckets : t.buckets.length = numBuckets
  sound : ∀ b ∈ t.buckets, b.Sound
  placed : ∀ i b, t.buckets[i]? = some b → ∀ n ∈ b.nodes, t.getBucketIndex n.id = .ok i

theorem new_valid (id : Key) (now : Nat) : (RoutingTable.new id now).Valid where
  length_buckets := List.length_replicate
  sound := fun b hb => List.eq_of_mem_replicate hb ▸ KBucket.new_sound now
  placed := by
    intro i b hi n hn
    rw [List.eq_of_mem_replicate (List.mem_of_getElem? hi)] at hn
    cases hn

theorem storeNodeinfo_id (t : RoutingTable) (x : NodeInfo) (ping : PingOutcome) :
    (t.storeNodeinfo x ping).2.id = t.id := by
  unfold storeNodeinfo
  cases t.getBucketIndex x.id with
  | error e => rfl
  | ok i => dsimp only; split <;> rfl

theorem storeNodeinfo_valid {t : RoutingTable} (h : t.Valid) (x : NodeInfo) (ping : PingOutcome) :
    (t.storeNodeinfo x ping).2.Valid := by
  unfold storeNodeinfo
  cases hidx : t.getBucketIndex x.id with
  | error e => exact h
  | ok i =>
      dsimp only
      cases hb : t.buckets[i]? with
      | none => exact h
      | some b =>
          obtain ⟨hsound, hmem⟩ := KBucket.addNodeinfo_sound (h.sound b (List.mem_of_getElem? hb)) x ping
          refine ⟨by simpa only [List.length_set] using h.length_buckets, ?_, ?_⟩
          · intro c hc
            rcases List.mem_or_eq_of_mem_set hc with hc | rfl
            · exact h.sound c hc
            · exact hsound
          · intro j c hj n hn
            change t.getBucketIndex n.id = .ok j
            have hlt := (List.getElem?_eq_some_iff.mp hb).1
            by_cases hij : i = j
            · subst hij
              rw [List.getElem?_set_self hlt] at hj
              cases hj
              rcases hmem n hn with hold | rfl
              · exact h.placed i b hb n hold
              · exact hidx
            · rw [List.getElem?_set_ne hij] at hj
              exact h.placed j c hj n hn

theorem storeAll_valid {t : RoutingTable} (h : t.Valid) (stores : List (NodeInfo × PingOutcome)) :
    (t.storeAll stores).Valid := by
  induction stores generalizing t with
  | nil => exact h
  | cons s stores ih => exact ih (storeNodeinfo_valid h s.1 s.2)

theorem storeAll_id (t : RoutingTable) (stores : List (NodeInfo × PingOutcome)) :
    (t.storeAll stores).id = t.id := by
  induction stores generalizing t with
  | nil => rfl
  | cons s stores ih => exact (ih _).trans (t.storeNodeinfo_id s.1 s.2)

theorem mem_getAllNodeinfos {t : RoutingTable} {n : NodeInfo} :
    n ∈ t.getAllNodeinfos ↔ ∃ (i : Nat) (b : KBucket), t.buckets[i]? = some b ∧ n ∈ b.nodes := by
  simp only [getAllNodeinfos, List.mem_flatMap]
  constructor
  · rintro ⟨b, hb, hn⟩
    obtain ⟨i, hi⟩ := List.mem_iff_getElem?.mp hb
    exact ⟨i, b, hi, hn⟩
  · rintro ⟨i, b, hi, hn⟩
    exact ⟨b, List.mem_of_getElem? hi, hn⟩

theorem Valid.id_notMem {t : RoutingTable} (h : t.Valid) : t.id ∉ t.getAllNodeinfos.map NodeInfo.id := by
  intro hm
  obtain ⟨n, hn, hid⟩ := List.mem_map.mp hm
  obtain ⟨i, b, hi, hb⟩ := mem_getAllNodeinfos.mp hn
  exact (getBucketIndex_ok.mp (h.placed i b hi n hb)).1 hid.symm

theorem Valid.nodup_ids {t : RoutingTable} (h : t.Valid) : (t.getAllNodeinfos.map NodeInfo.id).Nodup := by
  rw [getAllNodeinfos, List.map_flatMap, List.nodup_flatMap]
  refine ⟨fun b hb => (h.sound b hb).nodup_ids, ?_⟩
  rw [List.pairwise_iff_getElem]
  intro i j hi hj hij k hki hkj
  obtain ⟨n, hn, rfl⟩ := List.mem_map.mp hki
  obtain ⟨m, hm, hmn⟩ := List.mem_map.mp hkj
  have h1 := h.placed i _ (List.getElem?_eq_getElem hi) n hn
  have h2 := h.placed j _ (List.getElem?_eq_getElem hj) m hm
  rw [hmn, h1] at h2
  cases h2
  exact absurd hij (Nat.lt_irrefl i)

theorem Valid.getNodeinfo_iff {t : RoutingTable} (h : t.Valid) (k : Key) (n : NodeInfo) :
    t.getNodeinfo k = .ok (some n) ↔ n ∈ t.getAllNodeinfos ∧ n.id = k := by
  constructor
  · intro he
    unfold getNodeinfo at he
    cases hidx : t.getBucketIndex k with
    | error e => rw [hidx] at he; cases he
    | ok i =>
        rw [hidx] at he
        dsimp only at he
        cases hb : t.buckets[i]? with
        | none => rw [hb] at he; cases he
        | some b =>
            rw [hb] at he
            have hf : b.nodes.find? (fun n => n.id = k) = some n := Except.ok.inj he
            refine ⟨mem_getAllNodeinfos.mpr ⟨i, b, hb, List.mem_of_find?_eq_some hf⟩, ?_⟩
            simpa using List.find?_some hf
  · rintro ⟨hn, rfl⟩
    obtain ⟨i, b, hi, hb⟩ := mem_getAllNodeinfos.mp hn
    have hidx := h.placed i b hi n hb
    simp only [getNodeinfo, hidx, hi, Except.ok.injEq, KBucket.getNodeinfo]
    have hnd := (h.sound b (List.mem_of_getElem? hi)).nodup_ids
    cases hf : b.nodes.find? (fun m => m.id = n.id) with
    | none => exact absurd (List.find?_eq_none.mp hf n hb) (by simp)
    | some m =>
        have hm := List.mem_of_find?_eq_some hf
        have hid : m.id = n.id := by simpa using List.find?_some hf
        exact congrArg some (List.inj_on_of_nodup_map hnd hm hb hid)

/-- After any history of stores, whatever the pings answered, the table has its shape:
160 buckets of at most `K` contacts, each contact in the bucket of its id, no id twice,
never the own id; and a lookup by id finds exactly the stored contact. -/
theorem storeAll_invariant (id : Key) (now : Nat) (stores : List (NodeInfo × PingOutcome)) :
    let t := (RoutingTable.new id now).storeAll stores
    t.id = id ∧ t.buckets.length = 160 ∧ (∀ b ∈ t.buckets, b.nodes.length ≤ K) ∧
    (∀ i b, t.buckets[i]? = some b → ∀ n ∈ b.nodes, t.getBucketIndex n.id = .ok i) ∧
    (t.getAllNodeinfos.map NodeInfo.id).Nodup ∧ id ∉ t.getAllNodeinfos.map NodeInfo.id ∧
    (∀ k n, t.getNodeinfo k = .ok (some n) ↔ ∃ b ∈ t.buckets, n ∈ b.nodes ∧ n.id = k) := by
  intro t
  have h : t.Valid := storeAll_valid (new_valid id now) stores
  have hid : t.id = id := storeAll_id (RoutingTable.new id now) stores
  refine ⟨hid, h.length_buckets, fun b hb => (h.sound b hb).length_le, h.placed, h.nodup_ids,
    hid ▸ h.id_notMem, ?_⟩
  intro k n
  rw [h.getNodeinfo_iff, getAllNodeinfos, List.mem_flatMap]
  exact ⟨fun ⟨⟨b, hb, hn⟩, hk⟩ => ⟨b, hb, hn, hk⟩, fun ⟨b, hb, hn, hk⟩ => ⟨⟨b, hb, hn⟩, hk⟩⟩

end RoutingTable

end P2PFilesystem
