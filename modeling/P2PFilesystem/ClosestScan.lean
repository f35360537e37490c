import P2PFilesystem.BucketDistance
import Mathlib.Data.List.Intervals
import Mathlib.Data.Nat.Find

/-!
# The neighbour search of the routing table

`RoutingTable::get_n_closest` walks outward from the key's bucket: one bucket up, then
down until as much was taken below as above. `get_n_closest_slow` sorts everything.
Below the key's bucket the order of the buckets is decided by the bits of the own id
XOR the key, which the walk never looks at.
-/
namespace P2PFilesystem
namespace RoutingTable
open KeySort

/-- `get_n_closest` in flight; `lower` is `i_down + 1`, so `lower = 0` is `i_down < 0`. -/
structure ClosestSearch where
  result : List NodeInfo
  iUp : Nat
  lower : Nat
  takenSome : Bool

/-- The inner `while`, entered with `got_d_len` taken below so far. -/
def takeDown (self : RoutingTable) (gotULen : Nat) : Nat → Nat → List NodeInfo → List NodeInfo × Nat
  | 0, _, result => (result, 0)
  | lower+1, gotDLen, result =>
      if gotDLen < gotULen then
        self.takeDown gotULen lower (gotDLen + (self.bucketNodes lower).length)
          (result ++ self.bucketNodes lower)
      else (result, lower+1)

def searchPass (self : RoutingTable) (s : ClosestSearch) : ClosestSearch :=
  let inTable := decide (s.iUp < self.buckets.length)
  let gotU := if inTable then self.bucketNodes s.iUp else []
  let iUp := if inTable then s.iUp + 1 else s.iUp
  match s.lower with
  | 0 => ⟨s.result ++ gotU, iUp, 0, inTable⟩
  | lower+1 =>
      let taken := self.takeDown gotU.length lower (self.bucketNodes lower).length
        (s.result ++ gotU ++ self.bucketNodes lower)
      ⟨taken.1, iUp, taken.2, true⟩

/-- The outer `while`. Each pass but the last takes a bucket, so the number of buckets
and one more passes are enough. -/
def searchLoop (self : RoutingTable) (n : Nat) : Nat → ClosestSearch → ClosestSearch
  | 0, s => s
  | fuel+1, s =>
      if s.result.length < n ∧ s.takenSome then self.searchLoop n fuel (self.searchPass s) else s

def getNClosest (self : RoutingTable) (key : Key) (n : Nat) :
    Except RoutingTableError (List NodeInfo) :=
  match self.getBucketIndex key with
  | .error e => .error e
  | .ok i =>
      let s := self.searchLoop n (self.buckets.length + 1) ⟨self.bucketNodes i, i + 1, i, true⟩
      if s.result.isEmpty then .error .empty
      else .ok ((sortByDistance NodeInfo.id key s.result).take n)

def getAlphaClosest (self : RoutingTable) (key : Key) : Except RoutingTableError (List NodeInfo) :=
  self.getNClosest key alpha

def getKClosest (self : RoutingTable) (key : Key) : Except RoutingTableError (List NodeInfo) :=
  self.getNClosest key K

def lookupGetNClosest (self : RoutingTable) (key : Key) (n now : Nat) :
    Except RoutingTableError (List NodeInfo) × RoutingTable :=
  match self.getBucketIndex key with
  | .error e => (.error e, self)
  | .ok i =>
      let touched := { self with buckets := self.buckets.modify i (·.setLastLookup now) }
      (touched.getNClosest key n, touched)

/-- The test module's reference search. -/
def getNClosestSlow (self : RoutingTable) (key : Key) (n : Nat) :
    Except RoutingTableError (List NodeInfo) :=
  let allNodes := self.getAllNodeinfos
  if allNodes.isEmpty then .error .empty else .ok ((sortByDistance NodeInfo.id key allNodes).take n)

/-- The contacts of the buckets from `lo` up to but not including `hi`. -/
def between (t : RoutingTable) (lo hi : Nat) : List NodeInfo := (List.Ico lo hi).flatMap t.bucketNodes

/-- The lower end of the buckets that match, one by one, the first `p` buckets above `i`:
each is matched by the fewest further buckets, and at least one, that hold as many contacts. -/
def matchedDown (t : RoutingTable) (i : Nat) : Nat → Nat
  | 0 => i
  | p+1 => Nat.findGreatest
      (fun cut => (t.bucketNodes (i + 1 + p)).length ≤ (t.between cut (t.matchedDown i p)).length)
      (t.matchedDown i p - 1)

/-- The contacts of the buckets from `lo` to the key's bucket that are closer to the key than
every contact of a bucket below `lo`: those at a 1 bit of the own id XOR the key. -/
def closerThanBelow (t : RoutingTable) (key : Key) (lo : Nat) : List NodeInfo :=
  ((List.Ico lo ((t.id.dist key).log2 + 1)).filter (t.id.dist key).testBit).flatMap t.bucketNodes

/-- Whenever the key's bucket, the next `p` buckets and the buckets matching them hold `n`
contacts, nothing lies below them or `n` of them are closer than everything below. -/
def MatchedHoldClosest (t : RoutingTable) (key : Key) (n : Nat) : Prop :=
  let i := (t.id.dist key).log2
  ∀ p, n ≤ (t.between (t.matchedDown i p) (i + 1 + p)).length →
    t.between 0 (t.matchedDown i p) = [] ∨ n ≤ (t.closerThanBelow key (t.matchedDown i p)).length

theorem bucketNodes_eq_nil {t : RoutingTable} {i : Nat} (h : t.buckets.length ≤ i) :
    t.bucketNodes i = [] := by
  simp only [bucketNodes, List.getElem?_eq_none h]

theorem between_append {t : RoutingTable} {lo mid hi : Nat} (h : lo ≤ mid) (k : mid ≤ hi) :
    t.between lo mid ++ t.between mid hi = t.between lo hi := by
  rw [between, between, between, ← List.flatMap_append, List.Ico.append_consecutive h k]

theorem between_succ {t : RoutingTable} {lo hi : Nat} (h : lo ≤ hi) :
    t.between lo (hi + 1) = t.between lo hi ++ t.bucketNodes hi := by
  rw [between, List.Ico.succ_top h, List.flatMap_append, List.flatMap_singleton, between]

theorem mem_between {t : RoutingTable} {lo hi : Nat} {u : NodeInfo} :
    u ∈ t.between lo hi ↔ ∃ j, lo ≤ j ∧ j < hi ∧ u ∈ t.bucketNodes j := by
  simp only [between, List.mem_flatMap, List.Ico.mem, and_assoc]

theorem between_eq_getAllNodeinfos (t : RoutingTable) :
    t.between 0 t.buckets.length = t.getAllNodeinfos := by
  rw [between, getAllNodeinfos, List.Ico.zero_bot, List.flatMap_def, List.flatMap_def]
  congr 1
  apply List.ext_getElem
  · rw [List.length_map, List.length_map, List.length_range]
  · intro j hj _
    rw [List.length_map, List.length_range] at hj
    simp only [List.getElem_map, List.getElem_range, bucketNodes, List.getElem?_eq_getElem hj]

theorem takeDown_spec (t : RoutingTable) (need lower got : Nat) (result : List NodeInfo) :
    let taken := t.takeDown need lower got result
    taken.1.Perm (result ++ t.between taken.2 lower) ∧ taken.2 ≤ lower ∧
    (taken.2 ≠ 0 → need ≤ got + (t.between taken.2 lower).length) ∧
    ∀ cut, taken.2 < cut → cut ≤ lower → got + (t.between cut lower).length < need := by
  induction lower generalizing got result with
  | zero =>
      refine ⟨?_, Nat.le_refl 0, fun h => absurd rfl h, fun cut hlt hle => by omega⟩
      rw [between, takeDown, List.Ico.self_empty, List.flatMap_nil, List.append_nil]
  | succ lower ih =>
      intro taken
      by_cases hgot : got < need
      · have htaken : taken = t.takeDown need lower (got + (t.bucketNodes lower).length)
            (result ++ t.bucketNodes lower) := if_pos hgot
        obtain ⟨hperm, hle, hstop, hfew⟩ := ih (got + (t.bucketNodes lower).length)
          (result ++ t.bucketNodes lower)
        rw [← htaken] at hperm hle hstop hfew
        rw [between_succ hle, List.length_append]
        refine ⟨hperm.trans ?_, Nat.le_succ_of_le hle, fun h => by have := hstop h; omega, ?_⟩
        · rw [List.append_assoc]
          exact List.perm_append_comm.append_left result
        · intro cut hlt hcut
          rcases Nat.lt_or_ge lower cut with htop | hbelow
          · rw [between, List.Ico.eq_nil_of_le (by omega), List.flatMap_nil, List.length_nil]
            exact hgot
          · rw [between_succ hbelow, List.length_append]
            have := hfew cut hlt hbelow
            omega
      · have htaken : taken = (result, lower + 1) := if_neg hgot
        rw [htaken]
        refine ⟨?_, Nat.le_refl _, fun _ => by omega, fun cut hlt hle => by omega⟩
        rw [between, List.Ico.self_empty, List.flatMap_nil, List.append_nil]

/-- The search after `p` passes. -/
structure Searched (t : RoutingTable) (i p : Nat) (s : ClosestSearch) : Prop where
  result_perm : s.result.Perm (t.between (t.matchedDown i p) (i + 1 + p))
  iUp_eq : s.iUp = min (i + 1 + p) t.buckets.length
  lower_eq : s.lower = t.matchedDown i p
  exhausted : s.takenSome = false → s.lower = 0 ∧ s.iUp = t.buckets.length

theorem matchedDown_succ_le (t : RoutingTable) (i p : Nat) :
    t.matchedDown i (p + 1) ≤ t.matchedDown i p - 1 := Nat.findGreatest_le _

theorem matchedDown_antitone (t : RoutingTable) (i : Nat) {p q : Nat} (h : p ≤ q) :
    t.matchedDown i q ≤ t.matchedDown i p := by
  induction h with
  | refl => exact Nat.le_refl _
  | step _ ih => exact ((t.matchedDown_succ_le i _).trans (Nat.sub_le _ 1)).trans ih

theorem matchedDown_le (t : RoutingTable) (i p : Nat) : t.matchedDown i p ≤ i :=
  t.matchedDown_antitone i (Nat.zero_le p)

theorem searchPass_up (t : RoutingTable) {i p : Nat} {s : ClosestSearch} (h : Searched t i p s) :
    (if decide (s.iUp < t.buckets.length) then t.bucketNodes s.iUp else []) =
      t.bucketNodes (i + 1 + p) ∧
    (if decide (s.iUp < t.buckets.length) then s.iUp + 1 else s.iUp) =
      min (i + 1 + (p + 1)) t.buckets.length := by
  have hup := h.iUp_eq
  by_cases hin : i + 1 + p < t.buckets.length
  · have hs : s.iUp = i + 1 + p := by omega
    rw [hs, if_pos (decide_eq_true hin), if_pos (decide_eq_true hin)]
    exact ⟨rfl, by omega⟩
  · have hs : ¬ decide (s.iUp < t.buckets.length) := by rw [decide_eq_true_iff]; omega
    rw [if_neg hs, if_neg hs, bucketNodes_eq_nil (by omega)]
    exact ⟨rfl, by omega⟩

theorem Searched.next {t : RoutingTable} {i p : Nat} {s : ClosestSearch} (h : Searched t i p s) :
    Searched t i (p + 1) (t.searchPass s) := by
  obtain ⟨hgot, hiUp⟩ := t.searchPass_up h
  have hle := t.matchedDown_le i p
  have hgrow : (s.result ++ t.bucketNodes (i + 1 + p)).Perm
      (t.between (t.matchedDown i p) (i + 1 + (p + 1))) := by
    rw [← Nat.add_assoc, between_succ (by omega)]
    exact h.result_perm.append_right _
  unfold searchPass
  simp only [hgot, hiUp]
  cases hlow : s.lower with
  | zero =>
      have hcut : t.matchedDown i p = 0 := by rw [← h.lower_eq, hlow]
      have hcut' : t.matchedDown i (p + 1) = 0 := by
        have := t.matchedDown_succ_le i p
        omega
      have hsame : t.matchedDown i (p + 1) = t.matchedDown i p := hcut'.trans hcut.symm
      refine ⟨hsame ▸ hgrow, rfl, hcut'.symm, fun hnone => ⟨rfl, ?_⟩⟩
      have := of_decide_eq_false hnone
      have := h.iUp_eq
      dsimp only
      omega
  | succ lower =>
      have hcut : t.matchedDown i p = lower + 1 := by rw [← h.lower_eq, hlow]
      obtain ⟨hperm, hle', hstop, hfew⟩ := t.takeDown_spec (t.bucketNodes (i + 1 + p)).length lower
        (t.bucketNodes lower).length (s.result ++ t.bucketNodes (i + 1 + p) ++ t.bucketNodes lower)
      have hnext : t.matchedDown i (p + 1) = (t.takeDown (t.bucketNodes (i + 1 + p)).length lower
          (t.bucketNodes lower).length
          (s.result ++ t.bucketNodes (i + 1 + p) ++ t.bucketNodes lower)).2 := by
        rw [matchedDown, hcut, Nat.add_sub_cancel]
        refine Nat.findGreatest_eq_iff.mpr ⟨hle', fun hne => ?_, fun cut hlt hcutle => ?_⟩
        · rw [between_succ hle', List.length_append]
          have := hstop hne
          omega
        · rw [between_succ hcutle, List.length_append]
          have := hfew cut hlt hcutle
          omega
      rw [← hnext] at hperm hle'
      refine ⟨hperm.trans ?_, rfl, hnext.symm, fun hnone => by cases hnone⟩
      rw [hcut] at hgrow
      rw [← between_append (Nat.le_succ_of_le hle') (by omega : lower + 1 ≤ i + 1 + (p + 1)),
        between_succ hle', List.append_assoc]
      exact (hgrow.append List.perm_append_comm).trans List.perm_append_comm

/-- What is left to take, plus the pass that finds nothing. -/
def searchMeasure (t : RoutingTable) (s : ClosestSearch) : Nat :=
  (t.buckets.length - s.iUp) + s.lower + (if s.takenSome then 1 else 0)

theorem searchPass_takenSome (t : RoutingTable) (s : ClosestSearch) :
    (t.searchPass s).takenSome = true ↔ s.iUp < t.buckets.length ∨ s.lower ≠ 0 := by
  unfold searchPass
  cases s.lower with
  | zero => simp
  | succ lower => simp

theorem searchPass_measure {t : RoutingTable} {i p : Nat} {s : ClosestSearch} (h : Searched t i p s)
    (hs : s.takenSome = true) : t.searchMeasure (t.searchPass s) < t.searchMeasure s := by
  have hup := h.next.iUp_eq
  have hlow := h.next.lower_eq
  have hle := t.matchedDown_succ_le i p
  have hend := h.next.exhausted
  rw [← hlow, ← h.lower_eq] at hle
  have hup' := h.iUp_eq
  unfold searchMeasure
  rw [if_pos hs]
  cases hn : (t.searchPass s).takenSome with
  | false =>
      obtain ⟨h0, hlen⟩ := hend hn
      rw [if_neg (by simp)]
      omega
  | true =>
      rw [if_pos rfl]
      rcases (t.searchPass_takenSome s).mp hn with hin | hpos
      · omega
      · omega

theorem searchLoop_spec {t : RoutingTable} {i n : Nat} (fuel : Nat) {s : ClosestSearch} {p : Nat}
    (h : Searched t i p s) (hfew : ∀ q < p, (t.between (t.matchedDown i q) (i + 1 + q)).length < n)
    (hfuel : t.searchMeasure s ≤ fuel) :
    ∃ q, Searched t i q (t.searchLoop n fuel s) ∧
      (∀ r < q, (t.between (t.matchedDown i r) (i + 1 + r)).length < n) ∧
      (n ≤ (t.searchLoop n fuel s).result.length ∨ (t.searchLoop n fuel s).takenSome = false) := by
  induction fuel generalizing s p with
  | zero =>
      refine ⟨p, h, hfew, .inr ?_⟩
      cases hs : s.takenSome with
      | false => exact hs
      | true => simp [searchMeasure, hs] at hfuel
  | succ fuel ih =>
      unfold searchLoop
      by_cases hgo : s.result.length < n ∧ s.takenSome
      · rw [if_pos hgo]
        refine ih h.next ?_ (by have := searchPass_measure h hgo.2; omega)
        intro q hq
        rcases Nat.lt_succ_iff_lt_or_eq.mp hq with hlt | rfl
        · exact hfew q hlt
        · rw [← h.result_perm.length_eq]
          exact hgo.1
      · rw [if_neg hgo]
        refine ⟨p, h, hfew, ?_⟩
        by_cases hlen : s.result.length < n
        · exact .inr (by simpa using fun hs => hgo ⟨hlen, hs⟩)
        · exact .inl (Nat.le_of_not_lt hlen)

theorem Valid.of_mem_bucketNodes {t : RoutingTable} (h : t.Valid) {j : Nat} {u : NodeInfo}
    (hu : u ∈ t.bucketNodes j) : t.getBucketIndex u.id = .ok j := by
  unfold bucketNodes at hu
  cases hb : t.buckets[j]? with
  | none => rw [hb] at hu; cases hu
  | some b => rw [hb] at hu; exact h.placed j b hb u hu

theorem countP_flatMap_of_forall {l : List Nat} {g : Nat → List NodeInfo} {p : NodeInfo → Bool}
    {q : Nat → Bool} (h : ∀ k ∈ l, ∀ v ∈ g k, p v = q k) :
    (l.flatMap g).countP p = ((l.filter q).flatMap g).length := by
  induction l with
  | nil => rfl
  | cons k l ih =>
      have hk : ∀ v ∈ g k, p v = q k := h k List.mem_cons_self
      rw [List.flatMap_cons, List.countP_append, ih fun k' hk' => h k' (List.mem_cons_of_mem k hk')]
      cases hq : q k with
      | true =>
          rw [List.filter_cons_of_pos hq, List.flatMap_cons, List.length_append,
            List.countP_eq_length.mpr fun v hv => (hk v hv).trans hq]
      | false =>
          rw [List.filter_cons_of_neg (by rw [hq]; exact Bool.false_ne_true),
            List.countP_eq_zero.mpr fun v hv => by rw [hk v hv, hq]; exact Bool.false_ne_true, Nat.zero_add]

theorem Valid.countP_below {t : RoutingTable} (h : t.Valid) (key : Key) {lo p : Nat} {u : NodeInfo}
    (hu : u ∈ t.between 0 lo) (hlo : lo ≤ (t.id.dist key).log2) :
    (t.between lo ((t.id.dist key).log2 + 1 + p)).countP (fun v => v.id.dist key < u.id.dist key) =
      (t.closerThanBelow key lo).length := by
  obtain ⟨j, -, hj, hu⟩ := mem_between.mp hu
  have hall := countP_flatMap_of_forall (l := List.Ico lo ((t.id.dist key).log2 + 1 + p))
    (g := t.bucketNodes) (p := fun v => decide (v.id.dist key < u.id.dist key))
    (q := (t.id.dist key).testBit) (fun k hk v hv => by
      rw [Bool.eq_iff_iff, decide_eq_true_iff]
      exact dist_lt_iff (h.of_mem_bucketNodes hu) (h.of_mem_bucketNodes hv) (hj.trans_le (List.Ico.mem.mp hk).1) key)
  have htop : (List.Ico ((t.id.dist key).log2 + 1) ((t.id.dist key).log2 + 1 + p)).filter
      (t.id.dist key).testBit = [] := by
    refine List.filter_eq_nil_iff.mpr fun k hk => ?_
    rw [testBit_above_log2 (List.Ico.mem.mp hk).1]
    exact Bool.false_ne_true
  rw [between, hall, closerThanBelow, ← List.Ico.append_consecutive (Nat.le_succ_of_le hlo)
    (Nat.le_add_right _ p), List.filter_append, htop, List.append_nil]

theorem mem_getAllNodeinfos_of_bucketNodes {t : RoutingTable} {j : Nat} {u : NodeInfo}
    (hu : u ∈ t.bucketNodes j) : u ∈ t.getAllNodeinfos := by
  unfold bucketNodes at hu
  cases hb : t.buckets[j]? with
  | none => rw [hb] at hu; cases hu
  | some b => rw [hb] at hu; exact mem_getAllNodeinfos.mpr ⟨j, b, hb, hu⟩

theorem Valid.distinct_dist {t : RoutingTable} (h : t.Valid) (key : Key) :
    Distinct (fun u => u.id.dist key) t.getAllNodeinfos := fun _ ha _ hb he =>
  List.inj_on_of_nodup_map h.nodup_ids ha hb (Key.dist_left_injective he)

theorem between_split (t : RoutingTable) {lo hi : Nat} (h : lo ≤ hi) :
    t.getAllNodeinfos.Perm
      (t.between lo hi ++ (t.between 0 lo ++ t.between hi (hi + t.buckets.length))) := by
  have htop : t.between t.buckets.length (hi + t.buckets.length) = [] :=
    List.eq_nil_iff_forall_not_mem.mpr fun u hu => by
      obtain ⟨j, hj, -, hu⟩ := mem_between.mp hu
      rw [bucketNodes_eq_nil hj] at hu
      cases hu
  rw [← between_eq_getAllNodeinfos, ← List.append_nil (t.between 0 t.buckets.length), ← htop,
    between_append (Nat.zero_le _) (Nat.le_add_left _ hi),
    ← between_append (Nat.zero_le lo) (h.trans (Nat.le_add_right hi _)),
    ← between_append h (Nat.le_add_right hi t.buckets.length), ← List.append_assoc, ← List.append_assoc]
  exact List.perm_append_comm.append_right _

theorem closerThanBelow_length_mono (t : RoutingTable) (key : Key) {lo lo' : Nat} (h : lo' ≤ lo)
    (hlo : lo ≤ (t.id.dist key).log2) :
    (t.closerThanBelow key lo).length ≤ (t.closerThanBelow key lo').length := by
  rw [closerThanBelow, closerThanBelow, ← List.Ico.append_consecutive h (Nat.le_succ_of_le hlo),
    List.filter_append, List.flatMap_append, List.length_append]
  exact Nat.le_add_left _ _

theorem Valid.searched_iff {t : RoutingTable} (h : t.Valid) {key : Key} {n p : Nat}
    {s : ClosestSearch} (hs : Searched t (t.id.dist key).log2 p s)
    (hfew : ∀ q < p, (t.between (t.matchedDown (t.id.dist key).log2 q)
      ((t.id.dist key).log2 + 1 + q)).length < n)
    (hend : n ≤ s.result.length ∨ s.takenSome = false) :
    (sortOn (fun u => u.id.dist key) s.result).take n =
      (sortOn (fun u => u.id.dist key) t.getAllNodeinfos).take n ↔ t.MatchedHoldClosest key n := by
  have hcut := t.matchedDown_le (t.id.dist key).log2 p
  have hperm := t.between_split (by omega :
    t.matchedDown (t.id.dist key).log2 p ≤ (t.id.dist key).log2 + 1 + p)
  have hperm' := hperm.trans (hs.result_perm.symm.append_right _)
  have hdist := h.distinct_dist key
  have hdist' : Distinct (fun u => u.id.dist key) (s.result ++
      (t.between 0 (t.matchedDown (t.id.dist key).log2 p) ++ t.between ((t.id.dist key).log2 + 1 + p)
        ((t.id.dist key).log2 + 1 + p + t.buckets.length))) := fun a ha b hb =>
    hdist a (hperm'.mem_iff.mpr ha) b (hperm'.mem_iff.mpr hb)
  have hsort := (eq_sortOn_iff hdist').mpr
    ⟨(sortOn_perm (fun u : NodeInfo => u.id.dist key) t.getAllNodeinfos).trans hperm', sortOn_ascending _ _⟩
  rw [hsort, take_sortOn_append_iff hdist' (hperm'.nodup_iff.mp (List.Nodup.of_map _ h.nodup_ids))]
  constructor
  · intro hall q hq
    have hpq : p ≤ q := Nat.le_of_not_lt fun hlt => absurd (hfew q hlt) (Nat.not_lt_of_le hq)
    have hanti := t.matchedDown_antitone (t.id.dist key).log2 hpq
    cases hbelow : t.between 0 (t.matchedDown (t.id.dist key).log2 q) with
    | nil => exact .inl rfl
    | cons u rest =>
        right
        have hu : u ∈ t.between 0 (t.matchedDown (t.id.dist key).log2 p) := by
          rw [← between_append (Nat.zero_le _) hanti, hbelow]
          exact List.mem_append_left _ List.mem_cons_self
        have hn := hall u (List.mem_append_left _ hu)
        rw [hs.result_perm.countP_eq, h.countP_below key hu hcut] at hn
        exact hn.trans (t.closerThanBelow_length_mono key hanti hcut)
  · intro hcond u hu
    rcases List.mem_append.mp hu with hlow | hhigh
    · rw [hs.result_perm.countP_eq, h.countP_below key hlow hcut]
      rcases hend with hn | hnone
      · rw [hs.result_perm.length_eq] at hn
        rcases hcond p hn with hempty | hclose
        · rw [hempty] at hlow
          cases hlow
        · exact hclose
      · rw [← hs.lower_eq, (hs.exhausted hnone).1] at hlow
        obtain ⟨j, -, hj, -⟩ := mem_between.mp hlow
        omega
    · obtain ⟨j, hj, -, hu⟩ := mem_between.mp hhigh
      rcases hend with hn | hnone
      · refine hn.trans_eq (List.countP_eq_length.mpr fun v hv => decide_eq_true ?_).symm
        obtain ⟨k, -, hk, hv⟩ := mem_between.mp (hs.result_perm.mem_iff.mp hv)
        exact dist_lt_above (h.of_mem_bucketNodes hv) (h.of_mem_bucketNodes hu) (by omega) (by omega)
      · have hlen := (hs.exhausted hnone).2
        rw [hs.iUp_eq] at hlen
        rw [bucketNodes_eq_nil (by omega)] at hu
        cases hu

theorem Valid.searched_eq_nil_iff {t : RoutingTable} {i n p : Nat} {s : ClosestSearch}
    (hs : Searched t i p s) (hn : 1 ≤ n) (hend : n ≤ s.result.length ∨ s.takenSome = false) :
    s.result = [] ↔ t.getAllNodeinfos = [] := by
  have hmem : ∀ u, u ∈ s.result → u ∈ t.getAllNodeinfos := fun u hu => by
    obtain ⟨j, -, -, hu⟩ := mem_between.mp (hs.result_perm.mem_iff.mp hu)
    exact mem_getAllNodeinfos_of_bucketNodes hu
  constructor
  · intro hnil
    rw [hnil, List.length_nil] at hend
    obtain ⟨hlow, hlen⟩ := hs.exhausted (hend.resolve_left (by omega))
    rw [hs.iUp_eq] at hlen
    rw [hs.lower_eq] at hlow
    have hperm := hs.result_perm
    rw [hnil, hlow, List.nil_perm] at hperm
    rw [← between_eq_getAllNodeinfos]
    refine List.eq_nil_iff_forall_not_mem.mpr fun u hu => ?_
    obtain ⟨j, hj, hlt, hu⟩ := mem_between.mp hu
    have : u ∈ t.between 0 (i + 1 + p) := mem_between.mpr ⟨j, hj, by omega, hu⟩
    rw [hperm] at this
    cases this
  · intro hall
    refine List.eq_nil_iff_forall_not_mem.mpr fun u hu => ?_
    have := hmem u hu
    rw [hall] at this
    cases this

theorem searched_start {t : RoutingTable} {i : Nat} (h : i < t.buckets.length) :
    Searched t i 0 ⟨t.bucketNodes i, i + 1, i, true⟩ := by
  refine ⟨?_, by dsimp only; omega, rfl, fun h => by cases h⟩
  rw [matchedDown, Nat.add_zero, between, List.Ico.succ_singleton, List.flatMap_singleton]

theorem Valid.getNClosest_iff {t : RoutingTable} (h : t.Valid) {key : Key} (hkey : t.id ≠ key)
    {n : Nat} (hn : 1 ≤ n) :
    t.getNClosest key n = t.getNClosestSlow key n ↔ t.MatchedHoldClosest key n := by
  have hidx : t.getBucketIndex key = .ok (t.id.dist key).log2 := getBucketIndex_ok.mpr ⟨hkey, rfl⟩
  have hlt : (t.id.dist key).log2 < t.buckets.length := by
    rw [h.length_buckets]
    exact getBucketIndex_lt hidx
  obtain ⟨p, hs, hfew, hend⟩ := searchLoop_spec (n := n) (t.buckets.length + 1) (searched_start hlt)
    (fun q hq => absurd hq (Nat.not_lt_zero q)) (by simp only [searchMeasure, if_true]; omega)
  have hnil := Valid.searched_eq_nil_iff hs hn hend
  simp only [getNClosest, hidx, getNClosestSlow, sortByDistance_eq]
  by_cases hall : t.getAllNodeinfos = []
  · rw [if_pos (List.isEmpty_iff.mpr (hnil.mpr hall)), if_pos (List.isEmpty_iff.mpr hall)]
    refine iff_of_true rfl fun q hq => ?_
    exfalso
    obtain ⟨u, hu⟩ := List.exists_mem_of_length_pos (hn.trans hq)
    obtain ⟨j, -, -, hu⟩ := mem_between.mp hu
    have := mem_getAllNodeinfos_of_bucketNodes hu
    rw [hall] at this
    cases this
  · rw [if_neg fun he => hall (hnil.mp (List.isEmpty_iff.mp he)),
      if_neg fun he => hall (List.isEmpty_iff.mp he), Except.ok.injEq]
    exact h.searched_iff hs hfew hend

/-- In every reachable table the walk finds what sorting all contacts finds exactly when
the matched buckets hold the closest contacts. -/
theorem getNClosest_eq_slow_iff (id : Key) (now : Nat) (stores : List (NodeInfo × PingOutcome))
    (key : Key) (n : Nat) (hkey : id ≠ key) (hn : 1 ≤ n) :
    let t := (RoutingTable.new id now).storeAll stores
    t.getNClosest key n = t.getNClosestSlow key n ↔ t.MatchedHoldClosest key n :=
  (storeAll_valid (new_valid id now) stores).getNClosest_iff
    (by rwa [storeAll_id (RoutingTable.new id now) stores]) hn

def skewedStores : List (NodeInfo × PingOutcome) :=
  [0x80, 0x20, 0x10].map fun b => (NodeInfo.local b 8080, fun _ => .error .responseTimeout)

def skewedTable : RoutingTable := (RoutingTable.new (Key.ofTopByte 0 0) 0).storeAll skewedStores

theorem getNClosest_ne_slow :
    skewedTable.getNClosest (Key.ofTopByte 0x40 0) 2 =
      .ok [NodeInfo.local 0x20 8080, NodeInfo.local 0x80 8080] ∧
    skewedTable.getNClosestSlow (Key.ofTopByte 0x40 0) 2 =
      .ok [NodeInfo.local 0x10 8080, NodeInfo.local 0x20 8080] ∧
    skewedTable.getNClosest (Key.ofTopByte 0x40 0) 2 ≠
      skewedTable.getNClosestSlow (Key.ofTopByte 0x40 0) 2 := by
  decide +kernel

theorem getNClosest_eq_slow_skewed :
    skewedTable.MatchedHoldClosest (Key.ofTopByte 0x40 0) 3 :=
  (getNClosest_eq_slow_iff (Key.ofTopByte 0 0) 0 skewedStores (Key.ofTopByte 0x40 0) 3 (by decide)
    (by decide)).mp (by decide +kernel)

end RoutingTable
end P2PFilesystem
