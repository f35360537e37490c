import P2PFilesystem.RoutingTable
import Mathlib.Data.Set.Card
import Mathlib.Order.Interval.Finset.Nat

/-!
# The keys of a bucket

The index of a bucket is the binary logarithm of the distance, so the buckets divide the keys other
than the own id into classes, each twice as large as the one before it.
-/
namespace P2PFilesystem
open ByteNumbers

/-- From any key every distance there can be is reached. -/
theorem Key.exists_dist_eq (self : Key) {d : Nat} (hd : d < 2 ^ (8 * K)) : ∃ key, self.dist key = d := by
  obtain ⟨bs, hlen, hbs⟩ := exists_ofBytes_eq K (Nat.xor_lt_two_pow self.toNat_lt hd)
  refine ⟨⟨⟨bs, hlen⟩⟩, ?_⟩
  rw [dist_eq_xor]
  change self.toNat ^^^ ofBytes bs = d
  rw [hbs, ← Nat.xor_assoc, Nat.xor_self, Nat.zero_xor]

theorem Key.dist_right_injective (self : Key) : Function.Injective self.dist := by
  intro a b h
  rw [dist_comm self a, dist_comm self b] at h
  exact dist_left_injective h

namespace RoutingTable

variable {t : RoutingTable} {key : Key} {i : Nat}

/-- The keys that belong to a bucket. -/
def bucketKeys (t : RoutingTable) (i : Nat) : Set Key := {key | t.getBucketIndex key = .ok i}

theorem getBucketIndex_eq_ok_iff : t.getBucketIndex key = .ok i ↔ 2 ^ i ≤ t.id.dist key ∧ t.id.dist key < 2 ^ (i + 1) := by
  rw [getBucketIndex_ok]
  constructor
  · rintro ⟨hne, hlog⟩
    exact (Nat.log2_eq_iff fun h0 => hne (Key.dist_eq_zero_iff.mp h0)).mp hlog
  · rintro ⟨hle, hlt⟩
    have hpos : t.id.dist key ≠ 0 := ((Nat.two_pow_pos i).trans_le hle).ne'
    exact ⟨fun heq => hpos (Key.dist_eq_zero_iff.mpr heq), (Nat.log2_eq_iff hpos).mpr ⟨hle, hlt⟩⟩

theorem getBucketIndex_eq_error_iff : t.getBucketIndex key = .error .attempStoreSelf ↔ t.id = key := by
  rw [getBucketIndex_eq]
  split_ifs with h
  · exact ⟨fun _ => h, fun _ => rfl⟩
  · refine ⟨fun he => ?_, fun heq => absurd heq h⟩
    cases he

theorem getBucketIndex_ne_bucketNotFoundForId (t : RoutingTable) (key id : Key) :
    t.getBucketIndex key ≠ .error (.bucketNotFoundForId id) := by
  rw [getBucketIndex_eq]
  split_ifs with h
  · intro he
    cases he
  · intro he
    cases he

/-- The index mirrors the leading zeros; the difference is exact. -/
theorem leadingZeros_add_index (h : t.getBucketIndex key = .ok i) :
    t.id.leadingZerosInDistance key + i = numBuckets - 1 := by
  have hlt := getBucketIndex_lt h
  obtain ⟨hne, hlog⟩ := getBucketIndex_ok.mp h
  rw [Key.leadingZerosInDistance_eq, if_neg hne, hlog]
  have hn : numBuckets = 8 * K := rfl
  omega

theorem iUnion_bucketKeys (t : RoutingTable) : ⋃ i ∈ Set.Iio numBuckets, t.bucketKeys i = {t.id}ᶜ := by
  ext key
  rw [Set.mem_iUnion₂, Set.mem_compl_singleton_iff]
  constructor
  · rintro ⟨i, -, hi⟩
    exact (getBucketIndex_ok.mp hi).1.symm
  · intro hne
    have hi : t.getBucketIndex key = .ok (t.id.dist key).log2 := getBucketIndex_ok.mpr ⟨hne.symm, rfl⟩
    exact ⟨_, getBucketIndex_lt hi, hi⟩

theorem bucketKeys_inter_eq_empty (t : RoutingTable) {j : Nat} (hij : i ≠ j) : t.bucketKeys i ∩ t.bucketKeys j = ∅ := by
  refine Set.eq_empty_iff_forall_notMem.mpr fun key hkey => hij ?_
  obtain ⟨hi, hj⟩ := hkey
  exact (getBucketIndex_ok.mp hi).2.symm.trans (getBucketIndex_ok.mp hj).2

/-- The distances to the keys of a bucket are all those between two powers of two. -/
theorem image_dist_bucketKeys (t : RoutingTable) (hi : i < numBuckets) :
    t.id.dist '' t.bucketKeys i = Finset.Ico (2 ^ i) (2 ^ (i + 1)) := by
  ext d
  rw [Set.mem_image, Finset.coe_Ico, Set.mem_Ico]
  constructor
  · rintro ⟨key, hkey, rfl⟩
    exact getBucketIndex_eq_ok_iff.mp hkey
  · rintro ⟨hle, hlt⟩
    have hn : numBuckets = 8 * K := rfl
    obtain ⟨key, rfl⟩ := t.id.exists_dist_eq (hlt.trans_le (Nat.pow_le_pow_right (by decide) (by omega)))
    exact ⟨key, getBucketIndex_eq_ok_iff.mpr ⟨hle, hlt⟩, rfl⟩

theorem ncard_bucketKeys (t : RoutingTable) (hi : i < numBuckets) : (t.bucketKeys i).ncard = 2 ^ i := by
  rw [← Set.ncard_image_of_injective _ t.id.dist_right_injective, t.image_dist_bucketKeys hi, Set.ncard_coe_finset,
    Nat.card_Ico, Nat.pow_succ]
  omega

/-- The index is the logarithm of the distance, on every key but the own one. -/
theorem getBucketIndex_is_log (t : RoutingTable) :
    (∀ key i, t.getBucketIndex key = .ok i ↔ 2 ^ i ≤ t.id.dist key ∧ t.id.dist key < 2 ^ (i + 1)) ∧
    (∀ key i, t.getBucketIndex key = .ok i → i ≤ 159 ∧ t.id.leadingZerosInDistance key + i = numBuckets - 1) ∧
    (∀ key, t.getBucketIndex key = .error .attempStoreSelf ↔ t.id = key) ∧
    (∀ key id, t.getBucketIndex key ≠ .error (.bucketNotFoundForId id)) ∧
    ⋃ i ∈ Set.Iio numBuckets, t.bucketKeys i = {t.id}ᶜ ∧
    (∀ i j, i ≠ j → t.bucketKeys i ∩ t.bucketKeys j = ∅) ∧
    ∀ i < numBuckets, (t.bucketKeys i).ncard = 2 ^ i := by
  refine ⟨fun key i => getBucketIndex_eq_ok_iff, fun key i h => ⟨?_, leadingZeros_add_index h⟩,
    fun key => getBucketIndex_eq_error_iff, t.getBucketIndex_ne_bucketNotFoundForId, t.iUnion_bucketKeys,
    fun i j hij => t.bucketKeys_inter_eq_empty hij, fun i hi => t.ncard_bucketKeys hi⟩
  exact Nat.le_of_lt_succ (getBucketIndex_lt h)

end RoutingTable
end P2PFilesystem
