import P2PFilesystem.ClosestScan
import P2PFilesystem.KeyBits

/-!
# Refreshing buckets

`get_node_ids_for_refresh` draws an id for every bucket in which nothing has been looked up for an
hour. The id lies in that bucket, so a lookup of it marks that bucket and no other.
-/
namespace P2PFilesystem

def defaultBucketRefreshIntervalS : Nat := 3600

/-- `elapsed().unwrap().as_secs()`; a time ahead of the clock is a panic. -/
def elapsedSecs (since now : Nat) : Option Nat := if since ≤ now then some ((now - since) / nanosPerS) else none

def KBucket.Stale (b : KBucket) (now : Nat) : Prop :=
  b.lastLookupAt + defaultBucketRefreshIntervalS * nanosPerS ≤ now

instance (b : KBucket) (now : Nat) : Decidable (b.Stale now) := inferInstanceAs (Decidable (_ ≤ _))

theorem elapsedSecs_eq {since now : Nat} (h : since ≤ now) : elapsedSecs since now = some ((now - since) / nanosPerS) :=
  if_pos h

theorem KBucket.stale_iff {b : KBucket} {now : Nat} (h : b.lastLookupAt ≤ now) :
    (now - b.lastLookupAt) / nanosPerS ≥ defaultBucketRefreshIntervalS ↔ b.Stale now := by
  rw [ge_iff_le, Nat.le_div_iff_mul_le (by decide), KBucket.Stale]
  omega

/-- A stale bucket, marked. -/
def KBucket.refreshed (b : KBucket) (now : Nat) : KBucket := if b.Stale now then b.setLastLookup now else b

theorem KBucket.refreshed_of_not_stale {b : KBucket} {now : Nat} (h : ¬ b.Stale now) : b.refreshed now = b := if_neg h

theorem KBucket.nodes_refreshed (b : KBucket) (now : Nat) : (b.refreshed now).nodes = b.nodes := by
  unfold refreshed
  split_ifs <;> rfl

theorem KBucket.map_nodes_refreshed (buckets : List KBucket) (now : Nat) :
    (buckets.map (·.refreshed now)).map KBucket.nodes = buckets.map KBucket.nodes := by
  induction buckets with
  | nil => rfl
  | cons b buckets ih => rw [List.map_cons, List.map_cons, List.map_cons, nodes_refreshed, ih]

theorem KBucket.lastLookupAt_refreshed {b : KBucket} {now : Nat} (h : b.lastLookupAt ≤ now) :
    (b.refreshed now).lastLookupAt ≤ now ∧ ¬ (b.refreshed now).Stale now := by
  have hpos : 0 < defaultBucketRefreshIntervalS * nanosPerS := by decide
  unfold refreshed
  split_ifs with hstale
  · unfold Stale setLastLookup
    dsimp only
    omega
  · exact ⟨h, hstale⟩

namespace RoutingTable

def lookupGetAlphaClosest (self : RoutingTable) (key : Key) (now : Nat) :
    Except RoutingTableError (List NodeInfo) × RoutingTable := self.lookupGetNClosest key alpha now

/-- The key drawn is made to share as many leading bits as the bucket asks for; an index that is no
bucket's makes the subtraction overflow. -/
def getRandomIdForBucket (self : RoutingTable) (bucketI : Nat) (draw : Key) : Option Key :=
  if bucketI < 160 then draw.makeExactlyNSameLeadingBitsAs self.id (160 - bucketI - 1) else none

/-- The buckets from an index on. -/
def idsForRefresh (self : RoutingTable) (now : Nat) (draws : Nat → Key) : List KBucket → Nat → Option (List Key)
  | [], _ => some []
  | bucket :: buckets, index => match elapsedSecs bucket.lastLookupAt now with
      | none => none
      | some secs =>
          if secs ≥ defaultBucketRefreshIntervalS then
            match self.getRandomIdForBucket index (draws index), self.idsForRefresh now draws buckets (index + 1) with
            | some id, some ids => some (id :: ids)
            | _, _ => none
          else self.idsForRefresh now draws buckets (index + 1)

/-- `draws` are the keys `Key::new_random` gives, by the bucket they are drawn for. -/
def getNodeIdsForRefresh (self : RoutingTable) (now : Nat) (draws : Nat → Key) : Option (List Key) :=
  self.idsForRefresh now draws self.buckets 0

/-- All ids looked up at one time. -/
def lookupAll (self : RoutingTable) (now : Nat) (ids : List Key) : RoutingTable :=
  ids.foldl (fun table id => (table.lookupGetAlphaClosest id now).2) self

variable {t : RoutingTable} {now : Nat} {draws : Nat → Key}

/-- Whatever is drawn, the id lies in the bucket. -/
theorem getRandomIdForBucket_index (t : RoutingTable) {i : Nat} (hi : i < numBuckets) (draw : Key) :
    ∃ id, t.getRandomIdForBucket i draw = some id ∧ t.getBucketIndex id = .ok i := by
  have hn : numBuckets = 160 := rfl
  have h8 : 8 * K = 160 := rfl
  obtain ⟨id, hid, -⟩ := draw.makeExactlyNSameLeadingBitsAs_eq t.id (160 - i - 1)
  have hlz : t.id.leadingZerosInDistance id = 160 - i - 1 := Key.leadingZerosInDistance_made (by omega) hid
  refine ⟨id, ?_, ?_⟩
  · unfold getRandomIdForBucket
    rw [if_pos (by omega), hid]
  · unfold getBucketIndex
    dsimp only
    rw [hlz, hn, Nat.compare_eq_lt.mpr (by omega)]
    dsimp only
    congr 1
    omega

/-- One id for each stale bucket, in the order of the buckets. -/
theorem idsForRefresh_eq {buckets : List KBucket} (hclock : ∀ b ∈ buckets, b.lastLookupAt ≤ now) {index : Nat}
    (hindex : index + buckets.length ≤ numBuckets) : ∃ ids, t.idsForRefresh now draws buckets index = some ids ∧
      ids.map t.getBucketIndex = ((buckets.zipIdx index).filter fun p => p.1.Stale now).map fun p => .ok p.2 := by
  induction buckets generalizing index with
  | nil => exact ⟨[], rfl, rfl⟩
  | cons b buckets ih =>
      rw [List.length_cons] at hindex
      have hrest : index + 1 + buckets.length ≤ numBuckets := by omega
      obtain ⟨ids, hids, hmap⟩ := ih (fun c hc => hclock c (List.mem_cons_of_mem b hc)) hrest
      have hold : b.lastLookupAt ≤ now := hclock b List.mem_cons_self
      rw [idsForRefresh, elapsedSecs_eq hold, List.zipIdx_cons]
      dsimp only
      by_cases hstale : b.Stale now
      · obtain ⟨id, hid, hbucket⟩ := t.getRandomIdForBucket_index (i := index) (by omega) (draws index)
        rw [if_pos ((KBucket.stale_iff hold).mpr hstale), hid, hids]
        refine ⟨id :: ids, rfl, ?_⟩
        rw [List.filter_cons_of_pos (by exact decide_eq_true hstale), List.map_cons, List.map_cons, hbucket, hmap]
      · rw [if_neg (mt (KBucket.stale_iff hold).mp hstale)]
        refine ⟨ids, hids, ?_⟩
        rw [List.filter_cons_of_neg (by simpa using hstale), hmap]

theorem lookupGetAlphaClosest_table {id : Key} {i : Nat} (h : t.getBucketIndex id = .ok i) :
    (t.lookupGetAlphaClosest id now).2 = { t with buckets := t.buckets.modify i (·.setLastLookup now) } := by
  unfold lookupGetAlphaClosest lookupGetNClosest
  rw [h]

/-- A lookup of ids marks their buckets and does nothing else. -/
theorem lookupAll_bucket {ids : List Key} {is : List Nat} (h : ids.map t.getBucketIndex = is.map .ok) (j : Nat) :
    (t.lookupAll now ids).buckets[j]? = t.buckets[j]?.map fun b => if j ∈ is then b.setLastLookup now else b := by
  induction ids generalizing t is with
  | nil =>
      cases is with
      | nil => exact Option.map_id'.symm
      | cons i is => cases h
  | cons id ids ih =>
      cases is with
      | nil => cases h
      | cons i is =>
          obtain ⟨hid, hids⟩ := List.cons.inj h
          have hnext : t.lookupAll now (id :: ids) =
              lookupAll { t with buckets := t.buckets.modify i (·.setLastLookup now) } now ids := by
            rw [lookupAll, List.foldl_cons, lookupGetAlphaClosest_table hid]
            rfl
          rw [hnext, ih (t := { t with buckets := t.buckets.modify i (·.setLastLookup now) }) hids]
          dsimp only
          rw [List.getElem?_modify, Option.map_eq_map, Option.map_map]
          refine Option.map_congr fun b _ => ?_
          dsimp only [Function.comp]
          by_cases hij : i = j
          · rw [if_pos hij, if_pos (List.mem_cons.mpr (.inl hij.symm))]
            split_ifs <;> rfl
          · rw [if_neg hij]
            exact if_congr ⟨List.mem_cons_of_mem i, fun hj => (List.mem_cons.mp hj).resolve_left (Ne.symm hij)⟩ rfl rfl

theorem getNodeIdsForRefresh_eq (hbuckets : t.buckets.length = numBuckets)
    (hclock : ∀ b ∈ t.buckets, b.lastLookupAt ≤ now) (draws : Nat → Key) :
    ∃ ids, t.getNodeIdsForRefresh now draws = some ids ∧
      ids.map t.getBucketIndex = (t.buckets.zipIdx.filter fun p => p.1.Stale now).map fun p => .ok p.2 :=
  t.idsForRefresh_eq hclock (by rw [hbuckets, Nat.zero_add])

theorem mem_stale_indices {j : Nat} {b : KBucket} (hb : t.buckets[j]? = some b) :
    j ∈ (t.buckets.zipIdx.filter fun p => p.1.Stale now).map Prod.snd ↔ b.Stale now := by
  constructor
  · intro hj
    obtain ⟨⟨c, k⟩, hmem, rfl⟩ := List.mem_map.mp hj
    obtain ⟨hzip, hstale⟩ := List.mem_filter.mp hmem
    cases hb.symm.trans (List.mem_zipIdx_iff_getElem?.mp hzip)
    exact of_decide_eq_true hstale
  · intro hstale
    have hzip : (b, j) ∈ t.buckets.zipIdx := List.mem_zipIdx_iff_getElem?.mpr hb
    exact List.mem_map.mpr ⟨(b, j), List.mem_filter.mpr ⟨hzip, decide_eq_true hstale⟩, rfl⟩

/-- What the lookups of all drawn ids make of the table. -/
theorem lookupAll_refresh {ids : List Key}
    (h : ids.map t.getBucketIndex = (t.buckets.zipIdx.filter fun p => p.1.Stale now).map fun p => .ok p.2) :
    (t.lookupAll now ids).buckets = t.buckets.map (·.refreshed now) := by
  refine List.ext_getElem? fun j => ?_
  have hindices : ids.map t.getBucketIndex =
      ((t.buckets.zipIdx.filter fun p => p.1.Stale now).map Prod.snd).map .ok := by
    rw [h, List.map_map]
    rfl
  rw [lookupAll_bucket hindices, List.getElem?_map]
  exact Option.map_congr fun b hb => if_congr (mem_stale_indices hb) rfl rfl

/-- A refresh draws one id of its own for each stale bucket. When all have been looked up no bucket
is stale, the contacts are as before, and so are the other buckets. -/
theorem refresh_closes (hbuckets : t.buckets.length = numBuckets) (hclock : ∀ b ∈ t.buckets, b.lastLookupAt ≤ now)
    (draws : Nat → Key) : ∃ ids, t.getNodeIdsForRefresh now draws = some ids ∧
      ids.map t.getBucketIndex = (t.buckets.zipIdx.filter fun p => p.1.Stale now).map (fun p => .ok p.2) ∧
      (∀ draws', (t.lookupAll now ids).getNodeIdsForRefresh now draws' = some []) ∧
      (t.lookupAll now ids).buckets.map KBucket.nodes = t.buckets.map KBucket.nodes ∧
      ∀ (i : Nat) (b : KBucket), t.buckets[i]? = some b → ¬ b.Stale now →
        (t.lookupAll now ids).buckets[i]? = some b := by
  obtain ⟨ids, hids, hmap⟩ := getNodeIdsForRefresh_eq hbuckets hclock draws
  have hafter := lookupAll_refresh hmap
  refine ⟨ids, hids, hmap, fun draws' => ?_, ?_, fun i b hb hfresh => ?_⟩
  · have hlength : (t.lookupAll now ids).buckets.length = numBuckets := by
      rw [hafter, List.length_map, hbuckets]
    have hmarked : ∀ b ∈ (t.lookupAll now ids).buckets, b.lastLookupAt ≤ now ∧ ¬ b.Stale now := by
      intro b hb
      rw [hafter] at hb
      obtain ⟨old, hold, rfl⟩ := List.mem_map.mp hb
      exact KBucket.lastLookupAt_refreshed (hclock old hold)
    obtain ⟨none, hnone, hempty⟩ := getNodeIdsForRefresh_eq hlength (fun b hb => (hmarked b hb).1) draws'
    rw [List.filter_eq_nil_iff.mpr, List.map_nil, List.map_eq_nil_iff] at hempty
    · rw [hnone, hempty]
    · intro p hp hstale
      exact (hmarked p.1 (List.fst_mem_of_mem_zipIdx hp)).2 (of_decide_eq_true hstale)
  · rw [hafter, KBucket.map_nodes_refreshed]
  · rw [hafter, List.getElem?_map, hb, Option.map_some, KBucket.refreshed_of_not_stale hfresh]

/-- An hour after a node has started all its buckets are refreshed. -/
theorem refresh_closes_new : ∃ ids,
    (new (Key.ofTopByte 0 0) 0).getNodeIdsForRefresh (3600 * nanosPerS) (fun _ => Key.ofTopByte 1 7) = some ids ∧
      ids.length = numBuckets ∧
      ((new (Key.ofTopByte 0 0) 0).lookupAll (3600 * nanosPerS) ids).getNodeIdsForRefresh (3600 * nanosPerS)
        (fun _ => Key.ofTopByte 1 7) = some [] := by
  have hbuckets : (new (Key.ofTopByte 0 0) 0).buckets.length = numBuckets := List.length_replicate
  have hclock : ∀ b ∈ (new (Key.ofTopByte 0 0) 0).buckets, b.lastLookupAt ≤ 3600 * nanosPerS := by
    intro b hb
    rw [List.eq_of_mem_replicate hb]
    exact Nat.zero_le _
  obtain ⟨ids, hids, hmap, hclosed, -⟩ := refresh_closes hbuckets hclock fun _ => Key.ofTopByte 1 7
  refine ⟨ids, hids, ?_, hclosed _⟩
  have hall : ((new (Key.ofTopByte 0 0) 0).buckets.zipIdx.filter fun p => p.1.Stale (3600 * nanosPerS)) =
      (new (Key.ofTopByte 0 0) 0).buckets.zipIdx := by
    refine List.filter_eq_self.mpr fun p hp => decide_eq_true ?_
    rw [List.eq_of_mem_replicate (List.fst_mem_of_mem_zipIdx hp), KBucket.Stale]
    exact (Nat.zero_add _).le
  have hlength := congrArg List.length hmap
  rw [hall, List.length_map, List.length_map, List.length_zipIdx] at hlength
  exact hlength.trans List.length_replicate

end RoutingTable
end P2PFilesystem
