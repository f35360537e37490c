import P2PFilesystem.ClosestScan
import P2PFilesystem.LoopFuel

/-!
# What the neighbour search reads

The walk of `get_n_closest` once more, as the loop it is and with the indices at which it
reads the buckets.
-/
namespace P2PFilesystem
namespace RoutingTable
open KeySort LoopFuel

/-- The indices the inner `while` reads. -/
def takeDownReads (self : RoutingTable) (gotULen : Nat) : Nat → Nat → List Nat
  | 0, _ => []
  | lower+1, gotDLen =>
      if gotDLen < gotULen then
        lower :: self.takeDownReads gotULen lower (gotDLen + (self.bucketNodes lower).length)
      else []

def passReads (self : RoutingTable) (s : ClosestSearch) : List Nat :=
  let inTable := decide (s.iUp < self.buckets.length)
  let gotU := if inTable then self.bucketNodes s.iUp else []
  (if inTable then [s.iUp] else []) ++ match s.lower with
    | 0 => []
    | lower+1 => lower :: self.takeDownReads gotU.length lower (self.bucketNodes lower).length

/-- The outer `while`, with all indices read so far. -/
def searchBody (self : RoutingTable) (n : Nat) (s : ClosestSearch × List Nat) : Pass (ClosestSearch × List Nat) :=
  if s.1.result.length < n ∧ s.1.takenSome then .next (self.searchPass s.1, s.2 ++ self.passReads s.1) else .exit s

/-- In front of the loop the key's bucket has been read. -/
def searchStart (self : RoutingTable) (i : Nat) : ClosestSearch × List Nat :=
  (⟨self.bucketNodes i, i + 1, i, true⟩, [i])

variable {t : RoutingTable} {i n : Nat}

theorem takeDown_reads (t : RoutingTable) (need lower got : Nat) (result : List NodeInfo) :
    (t.takeDown need lower got result).1 = result ++ (t.takeDownReads need lower got).flatMap t.bucketNodes ∧
    (t.takeDownReads need lower got).Perm (List.Ico (t.takeDown need lower got result).2 lower) := by
  induction lower generalizing got result with
  | zero =>
      rw [takeDown, takeDownReads, List.Ico.self_empty]
      exact ⟨(List.append_nil result).symm, .nil⟩
  | succ lower ih =>
      rw [takeDown, takeDownReads]
      by_cases hgot : got < need
      · obtain ⟨hresult, hreads⟩ := ih (got + (t.bucketNodes lower).length) (result ++ t.bucketNodes lower)
        have hle := (t.takeDown_spec need lower (got + (t.bucketNodes lower).length)
          (result ++ t.bucketNodes lower)).2.1
        rw [if_pos hgot, if_pos hgot, List.flatMap_cons, ← List.append_assoc, List.Ico.succ_top hle]
        exact ⟨hresult, (hreads.cons lower).trans (List.perm_append_singleton lower _).symm⟩
      · rw [if_neg hgot, if_neg hgot, List.Ico.self_empty]
        exact ⟨(List.append_nil result).symm, .nil⟩

theorem searchPass_reads (t : RoutingTable) (s : ClosestSearch) (hle : s.lower ≤ s.iUp) :
    (t.searchPass s).result = s.result ++ (t.passReads s).flatMap t.bucketNodes ∧
    (List.Ico s.lower s.iUp ++ t.passReads s).Perm (List.Ico (t.searchPass s).lower (t.searchPass s).iUp) := by
  have hgot : (if decide (s.iUp < t.buckets.length) then t.bucketNodes s.iUp else []) =
      (if decide (s.iUp < t.buckets.length) then [s.iUp] else []).flatMap t.bucketNodes := by
    split_ifs with hin
    · rw [List.flatMap_singleton]
    · rfl
  have hup : List.Ico s.lower s.iUp ++ (if decide (s.iUp < t.buckets.length) then [s.iUp] else []) =
      List.Ico s.lower (if decide (s.iUp < t.buckets.length) then s.iUp + 1 else s.iUp) := by
    split_ifs with hin
    · rw [List.Ico.succ_top hle]
    · rw [List.append_nil]
  have hge : s.iUp ≤ if decide (s.iUp < t.buckets.length) then s.iUp + 1 else s.iUp := by
    split_ifs with hin
    · exact Nat.le_succ s.iUp
    · exact Nat.le_refl s.iUp
  unfold searchPass passReads
  cases hlow : s.lower with
  | zero =>
      rw [hlow] at hup
      dsimp only
      rw [List.append_nil, ← hgot, hup]
      exact ⟨rfl, .refl _⟩
  | succ lower =>
      rw [hlow] at hup hle
      dsimp only
      generalize (if decide (s.iUp < t.buckets.length) then t.bucketNodes s.iUp else []) = gotU at hgot ⊢
      generalize (if decide (s.iUp < t.buckets.length) then [s.iUp] else []) = up at hgot hup ⊢
      generalize (if decide (s.iUp < t.buckets.length) then s.iUp + 1 else s.iUp) = iUp at hup hge ⊢
      obtain ⟨hresult, hreads⟩ := t.takeDown_reads gotU.length lower (t.bucketNodes lower).length
        (s.result ++ gotU ++ t.bucketNodes lower)
      have hdown := (t.takeDown_spec gotU.length lower (t.bucketNodes lower).length
        (s.result ++ gotU ++ t.bucketNodes lower)).2.1
      constructor
      · rw [hresult, List.flatMap_append, List.flatMap_cons, ← hgot]
        simp only [List.append_assoc]
      · rw [← List.append_assoc, hup,
          ← List.Ico.append_consecutive (Nat.le_succ_of_le hdown) (hle.trans hge), List.Ico.succ_top hdown]
        refine .trans ?_ List.perm_append_comm
        exact ((hreads.cons lower).trans (List.perm_append_singleton lower _).symm).append_left _

/-- The buckets read so far are those from `lower` up to `iUp`, each once. -/
structure Reads (t : RoutingTable) (i : Nat) (s : ClosestSearch × List Nat) : Prop where
  searched : ∃ p, Searched t i p s.1
  result_eq : s.1.result = s.2.flatMap t.bucketNodes
  perm : s.2.Perm (List.Ico s.1.lower s.1.iUp)

theorem Reads.bounds {s : ClosestSearch × List Nat} (h : Reads t i s) (hi : i < t.buckets.length) :
    s.1.lower ≤ s.1.iUp ∧ s.1.iUp ≤ t.buckets.length := by
  obtain ⟨p, hp⟩ := h.searched
  have hlow := hp.lower_eq
  have hup := hp.iUp_eq
  have hle := t.matchedDown_le i p
  omega

theorem Reads.start (hi : i < t.buckets.length) : Reads t i (t.searchStart i) where
  searched := ⟨0, searched_start hi⟩
  result_eq := (List.flatMap_singleton _ _).symm
  perm := by
    rw [searchStart, List.Ico.succ_singleton]

theorem Reads.next {s s' : ClosestSearch × List Nat} (h : Reads t i s) (hi : i < t.buckets.length)
    (hnext : t.searchBody n s = .next s') : Reads t i s' ∧ t.searchMeasure s'.1 < t.searchMeasure s.1 := by
  unfold searchBody at hnext
  split_ifs at hnext with hgo
  cases hnext
  obtain ⟨p, hp⟩ := h.searched
  obtain ⟨hresult, hreads⟩ := t.searchPass_reads s.1 (h.bounds hi).1
  refine ⟨⟨⟨p + 1, hp.next⟩, ?_, (h.perm.append_right _).trans hreads⟩, searchPass_measure hp hgo.2⟩
  rw [hresult, h.result_eq, List.flatMap_append]

/-- The fuel of `searchLoop` is enough for the loop to end by itself. -/
theorem searchLoop_exits (hi : i < t.buckets.length) (fuel : Nat) {s : ClosestSearch × List Nat} (h : Reads t i s)
    (hfuel : t.searchMeasure s.1 ≤ fuel) :
    ∃ reads, Exits (t.searchBody n) s (t.searchLoop n fuel s.1, reads) ∧ Reads t i (t.searchLoop n fuel s.1, reads) := by
  induction fuel generalizing s with
  | zero =>
      have hnone : ¬ (s.1.result.length < n ∧ s.1.takenSome = true) := by
        rintro ⟨-, hs⟩
        simp [searchMeasure, hs] at hfuel
      exact ⟨s.2, ⟨s, .refl s, if_neg hnone⟩, h⟩
  | succ fuel ih =>
      unfold searchLoop
      by_cases hgo : s.1.result.length < n ∧ s.1.takenSome = true
      · have hnext : t.searchBody n s = .next (t.searchPass s.1, s.2 ++ t.passReads s.1) := if_pos hgo
        obtain ⟨h', hlt⟩ := h.next hi hnext
        obtain ⟨reads, ⟨u, hu, he⟩, hreads⟩ := ih h' (by omega)
        rw [if_pos hgo]
        exact ⟨reads, ⟨u, .step hnext hu, he⟩, hreads⟩
      · rw [if_neg hgo]
        exact ⟨s.2, ⟨s, .refl s, if_neg hgo⟩, h⟩

theorem searchBody_exit {s u : ClosestSearch × List Nat} (h : t.searchBody n s = .exit u) :
    n ≤ u.1.result.length ∨ u.1.takenSome = false := by
  unfold searchBody at h
  split_ifs at h with hgo
  cases h
  by_cases hlen : s.1.result.length < n
  · exact .inr (by simpa using fun hs => hgo ⟨hlen, hs⟩)
  · exact .inl (Nat.le_of_not_lt hlen)

theorem Reads.result_perm {s : ClosestSearch × List Nat} (h : Reads t i s) :
    s.1.result.Perm (t.between s.1.lower s.1.iUp) := by
  rw [h.result_eq, between]
  exact h.perm.flatMap_right t.bucketNodes

theorem Reads.indices {s : ClosestSearch × List Nat} (h : Reads t i s) (hi : i < t.buckets.length) :
    s.2.Nodup ∧ ∀ j ∈ s.2, j < t.buckets.length := by
  refine ⟨h.perm.nodup_iff.mpr (List.Ico.nodup _ _), fun j hj => ?_⟩
  exact (List.Ico.mem.mp (h.perm.mem_iff.mp hj)).2.trans_le (h.bounds hi).2

theorem between_sublist (t : RoutingTable) {lo hi : Nat} (hle : lo ≤ hi) (hhi : hi ≤ t.buckets.length) :
    (t.between lo hi).Sublist t.getAllNodeinfos := by
  rw [← between_eq_getAllNodeinfos, ← between_append (Nat.zero_le lo) (hle.trans hhi), ← between_append hle hhi]
  exact (List.sublist_append_left _ _).trans (List.sublist_append_right _ _)

/-- A search that ends with too little has read the whole table. -/
theorem Reads.min_length {s : ClosestSearch × List Nat} (h : Reads t i s) (hi : i < t.buckets.length)
    (hend : n ≤ s.1.result.length ∨ s.1.takenSome = false) :
    min n s.1.result.length = min n t.getAllNodeinfos.length := by
  obtain ⟨hle, hlen⟩ := h.bounds hi
  have hall := (t.between_sublist hle hlen).length_le
  rw [← h.result_perm.length_eq] at hall
  cases hend with
  | inl henough => rw [Nat.min_eq_left henough, Nat.min_eq_left (henough.trans hall)]
  | inr hnone =>
      obtain ⟨p, hp⟩ := h.searched
      obtain ⟨hlow, hup⟩ := hp.exhausted hnone
      rw [h.result_perm.length_eq, hlow, hup, between_eq_getAllNodeinfos]

theorem Valid.sorted_lt (h : t.Valid) (key : Key) {found : List NodeInfo} (hsub : found ⊆ t.getAllNodeinfos)
    (hnodup : found.Nodup) : (sortByDistance NodeInfo.id key found).Pairwise fun u v => u.id.dist key < v.id.dist key := by
  rw [sortByDistance_eq]
  have hsorted := sortOn_ascending (fun u : NodeInfo => u.id.dist key) found
  have hdistinct : (sortOn (fun u : NodeInfo => u.id.dist key) found).Nodup := (sortOn_perm _ _).nodup_iff.mpr hnodup
  refine (hsorted.and hdistinct).imp_of_mem fun {u v} hu hv huv => lt_of_le_of_ne huv.1 fun heq => huv.2 ?_
  exact h.distinct_dist key u (hsub (mem_sortOn.mp hu)) v (hsub (mem_sortOn.mp hv)) heq

/-- The result in terms of what the loop leaves with. -/
theorem getNClosest_of_index {key : Key} (hidx : t.getBucketIndex key = .ok i) (n : Nat) :
    let result := (t.searchLoop n (t.buckets.length + 1) (t.searchStart i).1).result
    (result = [] → t.getNClosest key n = .error .empty) ∧
    (result ≠ [] → t.getNClosest key n = .ok ((sortByDistance NodeInfo.id key result).take n)) := by
  unfold getNClosest
  rw [hidx]
  constructor
  · intro hnil
    exact if_pos (List.isEmpty_iff.mpr hnil)
  · intro hne
    exact if_neg (mt List.isEmpty_iff.mp hne)

/-- The walk ends by itself, reads no bucket twice and none outside the table, and finds nothing
only in an empty table. Otherwise it gives `n` contacts or all, the closest first. -/
theorem getNClosest_complete (h : t.Valid) {key : Key} (hkey : t.id ≠ key) (hn : 1 ≤ n) : ∃ i reads,
    t.getBucketIndex key = .ok i ∧
    Exits (t.searchBody n) (t.searchStart i) (t.searchLoop n (t.buckets.length + 1) (t.searchStart i).1, reads) ∧
    (t.searchLoop n (t.buckets.length + 1) (t.searchStart i).1).result = reads.flatMap t.bucketNodes ∧
    reads.Nodup ∧ (∀ j ∈ reads, j < 160) ∧
    (t.getNClosest key n = .error .empty ↔ t.getAllNodeinfos = []) ∧
    (t.getAllNodeinfos ≠ [] → ∃ found, t.getNClosest key n = .ok found ∧
      found.length = min n t.getAllNodeinfos.length ∧ found ⊆ t.getAllNodeinfos ∧ found.Nodup ∧
      found.Pairwise fun u v => u.id.dist key < v.id.dist key) := by
  have hidx : t.getBucketIndex key = .ok (t.id.dist key).log2 := getBucketIndex_ok.mpr ⟨hkey, rfl⟩
  have hi : (t.id.dist key).log2 < t.buckets.length := by
    rw [h.length_buckets]
    exact getBucketIndex_lt hidx
  obtain ⟨reads, hexits, hreads⟩ := searchLoop_exits (n := n) hi (t.buckets.length + 1) (Reads.start hi)
    (by simp only [searchMeasure, searchStart, if_true]; omega)
  have hend : n ≤ (t.searchLoop n (t.buckets.length + 1) (t.searchStart (t.id.dist key).log2).1).result.length ∨
      (t.searchLoop n (t.buckets.length + 1) (t.searchStart (t.id.dist key).log2).1).takenSome = false := by
    obtain ⟨u, -, he⟩ := hexits
    exact searchBody_exit he
  obtain ⟨hnodup, hbound⟩ := hreads.indices hi
  obtain ⟨p, hp⟩ := hreads.searched
  have hnil := Valid.searched_eq_nil_iff hp hn hend
  have hsub := t.between_sublist (hreads.bounds hi).1 (hreads.bounds hi).2
  have hfound := hreads.result_perm
  have hmin := hreads.min_length hi hend
  obtain ⟨hempty, hfull⟩ := getNClosest_of_index hidx n
  refine ⟨_, reads, hidx, hexits, hreads.result_eq, hnodup, fun j hj => (hbound j hj).trans_eq h.length_buckets, ?_, ?_⟩
  · by_cases hall : t.getAllNodeinfos = []
    · exact iff_of_true (hempty (hnil.mpr hall)) hall
    · rw [hfull (mt hnil.mp hall)]
      refine iff_of_false (fun herror => ?_) hall
      cases herror
  · intro hall
    rw [hfull (mt hnil.mp hall)]
    have hresult : ∀ u, u ∈ (t.searchLoop n (t.buckets.length + 1) (t.searchStart (t.id.dist key).log2).1).result →
        u ∈ t.getAllNodeinfos := fun u hu => hsub.subset (hfound.mem_iff.mp hu)
    have hpairwise := (h.sorted_lt key hresult
      (hfound.nodup_iff.mpr (List.Nodup.sublist hsub (List.Nodup.of_map _ h.nodup_ids)))).sublist (List.take_sublist n _)
    refine ⟨_, rfl, ?_, ?_, hpairwise.imp fun {u v} hlt heq => ?_, hpairwise⟩
    · rw [List.length_take, sortByDistance_eq, length_sortOn]
      exact hmin
    · intro u hu
      have hmem := List.mem_of_mem_take hu
      rw [sortByDistance_eq, mem_sortOn] at hmem
      exact hresult u hmem
    · rw [heq] at hlt
      exact Nat.lt_irrefl _ hlt

/-- Three contacts in three buckets, and one more than there are is asked for. -/
theorem getNClosest_complete_skewed : ∃ found,
    skewedTable.getNClosest (Key.ofTopByte 0x40 0) 4 = .ok found ∧ found.length = 3 := by
  have hvalid : skewedTable.Valid := storeAll_valid (new_valid _ _) _
  obtain ⟨i, reads, -, -, -, -, -, -, hfound⟩ := getNClosest_complete (n := 4) hvalid
    (by decide +kernel : skewedTable.id ≠ Key.ofTopByte 0x40 0) (by decide)
  obtain ⟨found, hok, hlength, -⟩ := hfound (by decide +kernel)
  exact ⟨found, hok, hlength.trans (by decide +kernel)⟩

end RoutingTable
end P2PFilesystem
