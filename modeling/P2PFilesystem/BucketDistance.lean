import P2PFilesystem.RoutingTable

/-!
# Buckets and the distance to a key

The bucket of an id is the top bit in which it differs from the own id. From there on the bits
of its distance to any other key are known, which is why the buckets around a key can be searched
outwards.
-/
namespace P2PFilesystem
namespace RoutingTable

variable {t : RoutingTable} {key u v : Key} {i j k : Nat}

theorem testBit_above_log2 {d k : Nat} (h : d.log2 < k) : d.testBit k = false :=
  Nat.testBit_lt_two_pow (lt_of_lt_of_le Nat.lt_log2_self (Nat.pow_le_pow_right (by omega) h))

/-- From its bucket's bit on, the distance of an id to a key is known: above the bit it is
that of the own id, at the bit it is the opposite. -/
theorem testBit_dist (hu : t.getBucketIndex u = .ok j) (key : Key) :
    (u.dist key).testBit j = !(t.id.dist key).testBit j ∧
    ∀ m, j < m → (u.dist key).testBit m = (t.id.dist key).testBit m := by
  obtain ⟨hne, hlog⟩ := getBucketIndex_ok.mp hu
  have hx : u.dist key = (t.id.dist u) ^^^ (t.id.dist key) := by
    rw [t.id.dist_comm u, Key.dist_xor_dist]
  have hpos : t.id.dist u ≠ 0 := fun h0 => hne (Key.dist_eq_zero_iff.mp h0)
  rw [hx]
  refine ⟨?_, fun m hm => ?_⟩
  · rw [Nat.testBit_xor, ← hlog, Nat.testBit_log2 hpos, Bool.true_xor]
  · rw [Nat.testBit_xor, testBit_above_log2 (hlog ▸ hm), Bool.false_xor]

/-- Which of two buckets is closer to the key is decided by one bit at the upper one's index. -/
theorem dist_lt_iff (hu : t.getBucketIndex u = .ok j) (hv : t.getBucketIndex v = .ok k) (hjk : j < k) (key : Key) :
    v.dist key < u.dist key ↔ (t.id.dist key).testBit k = true := by
  obtain ⟨-, hu⟩ := testBit_dist hu key
  obtain ⟨hvk, hv⟩ := testBit_dist hv key
  have heq : ∀ m, k < m → (v.dist key).testBit m = (u.dist key).testBit m := fun m hm =>
    (hv m hm).trans (hu m (hjk.trans hm)).symm
  cases hbit : (t.id.dist key).testBit k with
  | true =>
      exact ⟨fun _ => rfl, fun _ => Nat.lt_of_testBit k (by rw [hvk, hbit]; rfl)
        (by rw [hu k hjk, hbit]) heq⟩
  | false =>
      have hlt : u.dist key < v.dist key := Nat.lt_of_testBit k (by rw [hu k hjk, hbit])
        (by rw [hvk, hbit]; rfl) fun m hm => (heq m hm).symm
      exact ⟨fun hgt => absurd hlt (Nat.lt_asymm hgt), fun hf => by cases hf⟩

/-- Of two buckets the upper one of which is above the key's, the lower one is closer. -/
theorem dist_lt_above (hv : t.getBucketIndex v = .ok j) (hu : t.getBucketIndex u = .ok k) (hjk : j < k)
    (hk : (t.id.dist key).log2 < k) : v.dist key < u.dist key := by
  have hnot : ¬ u.dist key < v.dist key := by
    rw [dist_lt_iff hv hu hjk, testBit_above_log2 hk]
    exact Bool.false_ne_true
  refine Nat.lt_of_le_of_ne (Nat.le_of_not_lt hnot) fun heq => ?_
  rw [Key.dist_left_injective heq, hu] at hv
  cases hv
  exact Nat.lt_irrefl _ hjk

/-- The key's own bucket is closer than all below it. -/
theorem dist_lt_below (hkey : t.getBucketIndex key = .ok i) (hv : t.getBucketIndex v = .ok i)
    (hu : t.getBucketIndex u = .ok j) (hji : j < i) : v.dist key < u.dist key := by
  obtain ⟨hne, rfl⟩ := getBucketIndex_ok.mp hkey
  rw [dist_lt_iff hu hv hji]
  exact Nat.testBit_log2 fun h0 => hne (Key.dist_eq_zero_iff.mp h0)

theorem distance_cmp_lt {a b : Key} (h : a.dist key < b.dist key) : (a.distance key).cmp (b.distance key) = .lt := by
  rw [Key.cmp_distance]
  exact Nat.compare_eq_lt.mpr h

/-- Seen from a key the buckets come in this order: its own, those below it, and those above it
one after the other. -/
theorem getBucketIndex_proximity (hkey : t.getBucketIndex key = .ok i) :
    (∀ a b j, t.getBucketIndex a = .ok i → t.getBucketIndex b = .ok j → j < i →
      (a.distance key).cmp (b.distance key) = .lt) ∧
    (∀ b c j m, t.getBucketIndex b = .ok j → j ≤ i → t.getBucketIndex c = .ok m → i < m →
      (b.distance key).cmp (c.distance key) = .lt) ∧
    (∀ c c' m m', t.getBucketIndex c = .ok m → i < m → t.getBucketIndex c' = .ok m' → m < m' →
      (c.distance key).cmp (c'.distance key) = .lt) := by
  have hi : (t.id.dist key).log2 = i := (getBucketIndex_ok.mp hkey).2
  refine ⟨fun a b j ha hb hji => ?_, fun b c j m hb hji hc him => ?_, fun c c' m m' hc him hc' hmm' => ?_⟩
  · exact distance_cmp_lt (dist_lt_below hkey ha hb hji)
  · exact distance_cmp_lt (dist_lt_above hb hc (hji.trans_lt him) (hi ▸ him))
  · exact distance_cmp_lt (dist_lt_above hc hc' hmm' (hi ▸ him.trans hmm'))

/-- Own id 0, the key in bucket 153: ids in the buckets 153, 152, 154 and 155. -/
theorem getBucketIndex_proximity_example :
    ((Key.ofTopByte 3 0).distance (Key.ofTopByte 2 0)).cmp ((Key.ofTopByte 1 0).distance (Key.ofTopByte 2 0)) = .lt ∧
    ((Key.ofTopByte 1 0).distance (Key.ofTopByte 2 0)).cmp ((Key.ofTopByte 4 0).distance (Key.ofTopByte 2 0)) = .lt ∧
    ((Key.ofTopByte 4 0).distance (Key.ofTopByte 2 0)).cmp ((Key.ofTopByte 8 0).distance (Key.ofTopByte 2 0)) = .lt := by
  have hkey : (new (Key.ofTopByte 0 0) 0).getBucketIndex (Key.ofTopByte 2 0) = .ok 153 := by
    decide +kernel
  obtain ⟨hbelow, habove, hfurther⟩ := getBucketIndex_proximity hkey
  refine ⟨hbelow _ _ 152 ?_ ?_ ?_, habove _ _ 152 154 ?_ ?_ ?_ ?_, hfurther _ _ 154 155 ?_ ?_ ?_ ?_⟩
  all_goals decide +kernel

end RoutingTable
end P2PFilesystem
