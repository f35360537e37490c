import P2PFilesystem.BucketRefresh
import P2PFilesystem.BucketSizes

/-!
# Sharing an exact number of leading bits

The key that is made shares exactly as many leading bits as asked for, and keeps all bits behind
them. A key that shared that many already stays as it is, so the ids drawn for a bucket are all
the keys of the bucket and no others.
-/
namespace P2PFilesystem

namespace Key

variable {self key made : Key} {n j : Nat}

theorem leadingZerosInDistance_comm (a b : Key) : a.leadingZerosInDistance b = b.leadingZerosInDistance a := by
  rw [leadingZerosInDistance, distance_comm, leadingZerosInDistance]

/-- The bits behind the opposite one are kept. -/
theorem bit_made_of_gt (h : self.makeExactlyNSameLeadingBitsAs key n = some made) (hnj : n < j) (hj : j < 8 * K) :
    made.bit j = self.bit j := by
  rw [bit_made h hj, if_neg (Nat.lt_asymm hnj), if_neg hnj.ne']

/-- Nothing is left to do for a key that shares that many bits. -/
theorem made_eq_self (h : self.makeExactlyNSameLeadingBitsAs key n = some made) (hn : n < 8 * K)
    (hshared : self.leadingZerosInDistance key = n) : made = self := by
  obtain ⟨hdiff, hsame⟩ := (leadingZerosInDistance_eq_iff hn).mp hshared
  refine ext_bit fun j hj => ?_
  rcases Nat.lt_trichotomy j n with hlt | rfl | hgt
  · rw [bit_made h hj, if_pos hlt, hsame j hlt]
  · rw [bit_made h hj, if_neg (Nat.lt_irrefl j), if_pos rfl]
    exact (Bool.eq_not.mpr hdiff).symm
  · exact bit_made_of_gt h hgt hj

/-- From the length of a key on everything is copied. -/
theorem made_eq_key (h : self.makeExactlyNSameLeadingBitsAs key n = some made) (hn : 8 * K ≤ n) : made = key := by
  refine ext_bit fun j hj => ?_
  rw [bit_made h hj, if_pos (hj.trans_le hn)]

end Key

namespace RoutingTable

variable {t : RoutingTable} {b : Nat} {id : Key}

/-- A key of the bucket is what is made when that key is drawn. -/
theorem getRandomIdForBucket_self (h : t.getBucketIndex id = .ok b) : t.getRandomIdForBucket b id = some id := by
  have hlt : b < numBuckets := getBucketIndex_lt h
  have hzeros := leadingZeros_add_index h
  have hn : numBuckets = 160 := rfl
  have h8 : 8 * K = 160 := rfl
  have hshared : id.leadingZerosInDistance t.id = 160 - b - 1 := by
    rw [Key.leadingZerosInDistance_comm]
    omega
  obtain ⟨made, hmade, -⟩ := id.makeExactlyNSameLeadingBitsAs_eq t.id (160 - b - 1)
  rw [getRandomIdForBucket, if_pos (by omega), hmade, Key.made_eq_self hmade (by omega) hshared]

/-- What is drawn for a bucket is the keys of the bucket. -/
theorem range_getRandomIdForBucket (t : RoutingTable) (hb : b < numBuckets) :
    Set.range (t.getRandomIdForBucket b) = some '' t.bucketKeys b := by
  ext drawn
  rw [Set.mem_range, Set.mem_image]
  constructor
  · rintro ⟨draw, rfl⟩
    obtain ⟨id, hid, hidx⟩ := t.getRandomIdForBucket_index hb draw
    exact ⟨id, hidx, hid.symm⟩
  · rintro ⟨id, hidx, rfl⟩
    exact ⟨id, getRandomIdForBucket_self hidx⟩

end RoutingTable

/-- Exactly as many leading bits are shared as asked for, whatever the keys and the number are. -/
theorem leadingBits_shared_exactly :
    (∀ k s : Key, ∀ n, ∃ made, k.makeExactlyNSameLeadingBitsAs s n = some made ∧
      (n < 8 * K → made.leadingZerosInDistance s = n ∧ (∀ j, n < j → j < 8 * K → made.bit j = k.bit j) ∧
        (k.leadingZerosInDistance s = n → made = k)) ∧
      (8 * K ≤ n → made = s)) ∧
    ∀ t : RoutingTable, ∀ b < RoutingTable.numBuckets,
      (∀ draw, ∃ id, t.getRandomIdForBucket b draw = some id ∧ t.getBucketIndex id = .ok b) ∧
      ∀ id, t.getBucketIndex id = .ok b → ∃ draw, t.getRandomIdForBucket b draw = some id := by
  refine ⟨fun k s n => ?_, fun t b hb => ⟨t.getRandomIdForBucket_index hb, fun id h =>
    ⟨id, RoutingTable.getRandomIdForBucket_self h⟩⟩⟩
  obtain ⟨made, h, -⟩ := k.makeExactlyNSameLeadingBitsAs_eq s n
  refine ⟨made, h, fun hn => ⟨?_, fun j hnj hj => Key.bit_made_of_gt h hnj hj, Key.made_eq_self h hn⟩,
    Key.made_eq_key h⟩
  rw [Key.leadingZerosInDistance_comm]
  exact Key.leadingZerosInDistance_made hn h

end P2PFilesystem
