import P2PFilesystem.BucketDistance
import P2PFilesystem.ClosestComplete
import P2PFilesystem.SelfLookup
import P2PFilesystem.TableLock

/-!
# The contacts of a routing table

`store_nodeinfo` and the neighbour search in terms of the contacts of the table as a whole:
what a store with room adds, what a search in a small table finds, and when a contact is
closer to a key than the node itself.
-/
namespace P2PFilesystem
namespace RoutingTable
open KeySort

variable {t : RoutingTable} {key : Key} {n : Nat}

/-- A contact has another id than the table it is in. -/
theorem Valid.id_ne (h : t.Valid) {c : NodeInfo} (hc : c ∈ t.getAllNodeinfos) : c.id ≠ t.id := fun hid =>
  h.id_notMem (hid ▸ List.mem_map_of_mem hc)

/-- The bucket with the contact behind all others. -/
def withNewest (b : KBucket) (x : NodeInfo) : KBucket := { b with nodes := b.nodes.eraseP (fun n => n.id = x.id) ++ [x] }

/-- A store that finds room replaces the contact of that id or adds it. -/
theorem Valid.storeNodeinfo_of_room (h : t.Valid) {x : NodeInfo} (hid : t.id ≠ x.id) (hroom : t.hasRoomFor x = true)
    (ping : PingOutcome) :
    (t.storeNodeinfo x ping).1 = .ok () ∧
    ∀ c, c ∈ (t.storeNodeinfo x ping).2.getAllNodeinfos ↔ c = x ∨ c ∈ t.getAllNodeinfos ∧ c.id ≠ x.id := by
  obtain ⟨i, hidx⟩ : ∃ i, t.getBucketIndex x.id = .ok i := ⟨_, getBucketIndex_ok.mpr ⟨hid, rfl⟩⟩
  have hlt : i < t.buckets.length := by
    rw [h.length_buckets]
    exact getBucketIndex_lt hidx
  obtain ⟨b, hb⟩ : ∃ b, t.buckets[i]? = some b := ⟨_, List.getElem?_eq_getElem hlt⟩
  have hnd := (h.sound b (List.mem_of_getElem? hb)).nodup_ids
  have hstore : t.storeNodeinfo x ping = (.ok (), { t with buckets := t.buckets.set i (withNewest b x) }) := by
    simp only [hasRoomFor, hidx, hb, decide_eq_true_eq] at hroom
    have hadd : b.addNodeinfo x ping = (.ok (), withNewest b x) := if_pos hroom
    simp only [storeNodeinfo, hidx, hb, hadd]
    rfl
  rw [hstore]
  refine ⟨rfl, fun c => ?_⟩
  have hbucket : c ∈ (withNewest b x).nodes ↔ c = x ∨ c ∈ b.nodes ∧ c.id ≠ x.id := by
    rw [withNewest, List.mem_append, List.mem_singleton, or_comm]
    refine or_congr_right ⟨fun hc => ⟨List.mem_of_mem_eraseP hc, fun hcx => ?_⟩, fun hc => ?_⟩
    · exact notMem_map_eraseP hnd (hcx ▸ List.mem_map_of_mem hc)
    · exact (List.mem_eraseP_of_neg (by simpa using hc.2)).mpr hc.1
  rw [mem_getAllNodeinfos, mem_getAllNodeinfos]
  constructor
  · rintro ⟨j, b', hj, hc⟩
    by_cases hij : i = j
    · subst hij
      rw [List.getElem?_set_self hlt, Option.some.injEq] at hj
      rw [← hj, hbucket] at hc
      exact hc.imp_right fun hold => ⟨⟨i, b, hb, hold.1⟩, hold.2⟩
    · rw [List.getElem?_set_ne hij] at hj
      refine .inr ⟨⟨j, b', hj, hc⟩, fun hcx => hij ?_⟩
      have hplace := h.placed j b' hj c hc
      rw [hcx, hidx] at hplace
      exact Except.ok.inj hplace
  · rintro (rfl | ⟨⟨j, b', hj, hc⟩, hcx⟩)
    · exact ⟨i, _, List.getElem?_set_self hlt, hbucket.mpr (.inl rfl)⟩
    · by_cases hij : i = j
      · subst hij
        rw [hb, Option.some.injEq] at hj
        exact ⟨i, _, List.getElem?_set_self hlt, hbucket.mpr (.inr ⟨hj ▸ hc, hcx⟩)⟩
      · exact ⟨j, b', (List.getElem?_set_ne hij).trans hj, hc⟩

/-- A table of fewer than `K` contacts has room in every bucket. -/
theorem Valid.hasRoomFor_of_length (h : t.Valid) (hlen : t.getAllNodeinfos.length < K) (x : NodeInfo) :
    t.hasRoomFor x = true := by
  by_cases hid : t.id = x.id
  · simp only [hasRoomFor, getBucketIndex_eq, if_pos hid]
  · have hidx : t.getBucketIndex x.id = .ok (t.id.dist x.id).log2 := getBucketIndex_ok.mpr ⟨hid, rfl⟩
    refine (h.hasRoomFor_iff hidx).mpr (.inl (lt_of_le_of_lt ?_ hlen))
    have hlt : (t.id.dist x.id).log2 < t.buckets.length := by
      rw [h.length_buckets]
      exact getBucketIndex_lt hidx
    have hone := t.between_sublist (Nat.le_succ (t.id.dist x.id).log2) hlt
    rw [between, List.Ico.succ_singleton, List.flatMap_singleton] at hone
    exact hone.length_le

/-- A store adds at most one contact. -/
theorem Valid.length_storeNodeinfo_le (h : t.Valid) (x : NodeInfo) (ping : PingOutcome) :
    (t.storeNodeinfo x ping).2.getAllNodeinfos.length ≤ t.getAllNodeinfos.length + 1 := by
  have hnd := List.Nodup.of_map _ (storeNodeinfo_valid h x ping).nodup_ids
  have hsub : (t.storeNodeinfo x ping).2.getAllNodeinfos ⊆ x :: t.getAllNodeinfos := fun c hc =>
    List.mem_cons.mpr (h.mem_storeNodeinfo hc).symm
  exact (hnd.subperm hsub).length_le

/-- What the search leaves the loop with: at least the key's bucket, and as much as is asked
for unless the table has less. -/
theorem Valid.searched (h : t.Valid) (hkey : t.id ≠ key) (n : Nat) : ∃ found : List NodeInfo,
    (found = [] → t.getNClosest key n = .error .empty) ∧
    (found ≠ [] → t.getNClosest key n = .ok ((sortByDistance NodeInfo.id key found).take n)) ∧
    found.Nodup ∧ found ⊆ t.getAllNodeinfos ∧ t.bucketNodes (t.id.dist key).log2 ⊆ found ∧
    min n found.length = min n t.getAllNodeinfos.length := by
  have hidx : t.getBucketIndex key = .ok (t.id.dist key).log2 := getBucketIndex_ok.mpr ⟨hkey, rfl⟩
  have hi : (t.id.dist key).log2 < t.buckets.length := by
    rw [h.length_buckets]
    exact getBucketIndex_lt hidx
  obtain ⟨reads, ⟨u, -, he⟩, hreads⟩ := searchLoop_exits (n := n) hi (t.buckets.length + 1) (Reads.start hi)
    (by simp only [searchMeasure, searchStart, if_true]; omega)
  have hsub := t.between_sublist (hreads.bounds hi).1 (hreads.bounds hi).2
  obtain ⟨hempty, hfull⟩ := getNClosest_of_index hidx n
  refine ⟨_, hempty, hfull, hreads.result_perm.nodup_iff.mpr (List.Nodup.sublist hsub (List.Nodup.of_map _ h.nodup_ids)),
    fun c hc => hsub.subset (hreads.result_perm.mem_iff.mp hc), fun c hc => ?_, hreads.min_length hi (searchBody_exit he)⟩
  obtain ⟨p, hp⟩ := hreads.searched
  have hlower := t.matchedDown_le (t.id.dist key).log2 p
  exact hp.result_perm.mem_iff.mpr (mem_between.mpr ⟨_, hlower, by omega, hc⟩)

/-- A search in a table that knows somebody finds as many as are asked for unless it has less. -/
theorem Valid.getNClosest_length (h : t.Valid) (hkey : t.id ≠ key) (hn : 1 ≤ n) (hne : t.getAllNodeinfos ≠ []) :
    ∃ l, t.getNClosest key n = .ok l ∧ l.length = min n t.getAllNodeinfos.length := by
  obtain ⟨found, -, hfull, -, -, -, hmin⟩ := h.searched hkey n
  have hpos := List.length_pos_of_ne_nil hne
  refine ⟨_, hfull (List.ne_nil_of_length_pos (by omega)), ?_⟩
  rw [List.length_take, sortByDistance_eq, (sortOn_perm _ _).length_eq, hmin]

/-- A table with no more contacts than are asked for gives all of them, the closest first. -/
theorem Valid.getNClosest_all (h : t.Valid) (hkey : t.id ≠ key) (hne : t.getAllNodeinfos ≠ [])
    (hlen : t.getAllNodeinfos.length ≤ n) :
    t.getNClosest key n = .ok (sortByDistance NodeInfo.id key t.getAllNodeinfos) := by
  obtain ⟨found, -, hfull, hnd, hsub, -, hmin⟩ := h.searched hkey n
  have hpos := List.length_pos_of_ne_nil hne
  have hall : found.Perm t.getAllNodeinfos := (hnd.subperm hsub).perm_of_length_le (by omega)
  rw [hfull fun hnil => hne (List.perm_nil.mp (hnil ▸ hall.symm)), List.take_of_length_le]
  · simp only [sortByDistance_eq]
    congr 1
    refine ((eq_sortOn_iff (h.distinct_dist key)).mpr ⟨?_, sortOn_ascending _ _⟩)
    exact (sortOn_perm _ _).trans hall
  · rw [sortByDistance_eq, (sortOn_perm _ _).length_eq, hall.length_eq]
    exact hlen

/-- The table after a lookup for an id in bucket `i` has started. -/
def touched (t : RoutingTable) (i now : Nat) : RoutingTable :=
  { t with buckets := t.buckets.modify i (·.setLastLookup now) }

theorem getAllNodeinfos_touched (t : RoutingTable) (i now : Nat) :
    (t.touched i now).getAllNodeinfos = t.getAllNodeinfos := by
  have hnodes : (t.touched i now).buckets.map KBucket.nodes = t.buckets.map KBucket.nodes := by
    apply List.ext_getElem?
    intro j
    rw [touched, List.getElem?_map, List.getElem?_modify, List.getElem?_map]
    cases t.buckets[j]? with
    | none => rfl
    | some b =>
        by_cases hij : i = j
        · simp only [hij, if_true, Option.map_eq_map, Option.map_some, KBucket.setLastLookup]
        · simp only [hij, if_false, Option.map_eq_map, Option.map_some]
  simp only [getAllNodeinfos, List.flatMap_def, hnodes]

/-- The search at the start of a lookup finds somebody unless nobody is known, and leaves the
contacts of the table as they are. -/
theorem Valid.lookupGetNClosest_ok (h : t.Valid) (hkey : t.id ≠ key) (hn : 1 ≤ n) (hne : t.getAllNodeinfos ≠ [])
    (now : Nat) :
    ∃ l t', t.lookupGetNClosest key n now = (.ok l, t') ∧ l ≠ [] ∧ t'.id = t.id ∧ t'.Valid ∧
      t'.getAllNodeinfos = t.getAllNodeinfos := by
  have hidx : t.getBucketIndex key = .ok (t.id.dist key).log2 := getBucketIndex_ok.mpr ⟨hkey, rfl⟩
  have hvalid : (t.touched (t.id.dist key).log2 now).Valid := (h.touch (t.id.dist key).log2 now).1
  have hsame := t.getAllNodeinfos_touched (t.id.dist key).log2 now
  obtain ⟨found, -, hfull, -, -, -, hmin⟩ := hvalid.searched
    (hkey : (t.touched (t.id.dist key).log2 now).id ≠ key) n
  have hpos : 0 < found.length := by
    have hlength := List.length_pos_of_ne_nil hne
    rw [hsame] at hmin
    omega
  have hlookup : t.lookupGetNClosest key n now =
      ((t.touched (t.id.dist key).log2 now).getNClosest key n, t.touched (t.id.dist key).log2 now) := by
    rw [lookupGetNClosest, hidx]
    rfl
  rw [hfull (List.ne_nil_of_length_pos hpos)] at hlookup
  refine ⟨_, t.touched (t.id.dist key).log2 now, hlookup, ?_, rfl, hvalid, hsame⟩
  apply List.ne_nil_of_length_pos
  rw [List.length_take, sortByDistance_eq, (sortOn_perm _ _).length_eq]
  omega

/-- Whether a contact is closer to a key than the node itself is decided by one bit of the
node's own distance, at the index of the contact's bucket. -/
theorem dist_lt_own_iff {u : Key} {j : Nat} (hu : t.getBucketIndex u = .ok j) (key : Key) :
    u.dist key < t.id.dist key ↔ (t.id.dist key).testBit j = true := by
  obtain ⟨hbit, habove⟩ := testBit_dist hu key
  cases hown : (t.id.dist key).testBit j with
  | true =>
      refine iff_of_true (Nat.lt_of_testBit j ?_ hown habove) rfl
      rw [hbit, hown]
      rfl
  | false =>
      refine iff_of_false (Nat.lt_asymm (Nat.lt_of_testBit j hown ?_ fun m hm => (habove m hm).symm)) Bool.false_ne_true
      rw [hbit, hown]
      rfl

end RoutingTable
end P2PFilesystem
