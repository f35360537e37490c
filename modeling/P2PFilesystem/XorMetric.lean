import P2PFilesystem.LookupBuffer
import P2PFilesystem.ShardStorage

/-!
# The XOR distance as a metric

Read as numbers the distances are a metric in which no two keys are equally far from a third.
Sorting by distance therefore has one result, and of two nodes exactly one is closer to a chunk.
-/
namespace P2PFilesystem
open ByteNumbers KeySort

namespace Key

theorem cmp_distance_lt {a b t : Key} : (a.distance t).cmp (b.distance t) = .lt ↔ a.dist t < b.dist t := by
  rw [cmp_distance, Nat.compare_eq_lt]

theorem dist_triangle (a b c : Key) : a.dist c ≤ a.dist b + b.dist c := by
  rw [← dist_xor_dist a b c]
  exact xor_le_add _ _

/-- Of two keys one is closer to a third, and only one. -/
theorem dist_lt_xor {a b : Key} (hne : a ≠ b) (c : Key) : Xor (a.dist c < b.dist c) (b.dist c < a.dist c) := by
  rcases Nat.lt_trichotomy (a.dist c) (b.dist c) with hlt | heq | hgt
  · exact .inl ⟨hlt, Nat.lt_asymm hlt⟩
  · exact absurd (dist_left_injective heq) hne
  · exact .inr ⟨hgt, Nat.lt_asymm hgt⟩

theorem distinct_dist {α : Type*} {key : α → Key} {l : List α} (h : (l.map key).Nodup) (target : Key) :
    Distinct (fun a => (key a).dist target) l :=
  fun _ ha _ hb heq => List.inj_on_of_nodup_map h ha hb (dist_left_injective heq)

end Key

/-- Whatever the algorithm, there is one list of the elements in ascending order of distance. -/
theorem eq_sortByDistance_iff {α : Type*} {key : α → Key} {l m : List α} (h : (l.map key).Nodup) (target : Key) :
    m = sortByDistance key target l ↔
      m.Perm l ∧ m.Pairwise fun a b => ((key a).distance target).cmp ((key b).distance target) ≠ .gt := by
  rw [sortByDistance_eq, eq_sortOn_iff (Key.distinct_dist h target)]
  refine and_congr_right fun _ => List.Pairwise.iff fun {a b} => ?_
  exact Key.cmp_distance_ne_gt.symm

/-- The buffer that is sorted does not depend on the order in which its entries came. -/
theorem LookupBuffer.sort_eq_of_perm {b : LookupBuffer} {nodes : List LookupNodeInfo}
    (h : (b.nodes.map (·.nodeInfo.id)).Nodup) (hperm : nodes.Perm b.nodes) : { b with nodes := nodes }.sort = b.sort := by
  unfold sort
  dsimp only
  have hsorted : sortByDistance (·.nodeInfo.id) b.target nodes = sortByDistance (·.nodeInfo.id) b.target b.nodes := by
    have hnodes : (nodes.map (·.nodeInfo.id)).Nodup := (hperm.map _).nodup_iff.mpr h
    obtain ⟨hown, hascending⟩ := (eq_sortByDistance_iff hnodes b.target).mp rfl
    exact (eq_sortByDistance_iff h b.target).mpr ⟨hown.trans hperm, hascending⟩
  rw [hsorted]

namespace ShardStorageManager

variable {m : ShardStorageManager} {iter iter' : List Key} {a b h : Key}

theorem mem_getChunksCloserToNodeThanToMe :
    h ∈ getChunksCloserToNodeThanToMe iter a b ↔ h ∈ iter ∧ b.dist h < a.dist h := by
  unfold getChunksCloserToNodeThanToMe
  rw [List.mem_filter, decide_eq_true_iff, h.distance_comm b, h.distance_comm a, Key.cmp_distance_lt]

theorem nodup_getChunksCloserToNodeThanToMe (hiter : iter.Perm m.ownedChunks.keys) (a b : Key) :
    (getChunksCloserToNodeThanToMe iter a b).Nodup :=
  (hiter.nodup_iff.mpr m.ownedChunks.keys_nodup).sublist List.filter_sublist

/-- No chunk is closer to each of two nodes than to the other. -/
theorem disjoint_getChunksCloserToNodeThanToMe (iter iter' : List Key) (a b : Key) :
    (getChunksCloserToNodeThanToMe iter a b).Disjoint (getChunksCloserToNodeThanToMe iter' b a) := by
  intro h hb ha
  obtain ⟨-, hlt⟩ := mem_getChunksCloserToNodeThanToMe.mp hb
  obtain ⟨-, hgt⟩ := mem_getChunksCloserToNodeThanToMe.mp ha
  exact Nat.lt_asymm hlt hgt

/-- Every chunk that is owned is on exactly one of the two sides. -/
theorem getChunksCloserToNodeThanToMe_split (hne : a ≠ b) (hiter : iter.Perm m.ownedChunks.keys)
    (hiter' : iter'.Perm m.ownedChunks.keys) :
    (getChunksCloserToNodeThanToMe iter a b ++ getChunksCloserToNodeThanToMe iter' b a).Perm m.ownedChunks.keys := by
  have hnodup := (nodup_getChunksCloserToNodeThanToMe hiter a b).append (nodup_getChunksCloserToNodeThanToMe hiter' b a)
    (disjoint_getChunksCloserToNodeThanToMe iter iter' a b)
  refine (List.perm_ext_iff_of_nodup hnodup m.ownedChunks.keys_nodup).mpr fun h => ?_
  rw [List.mem_append, mem_getChunksCloserToNodeThanToMe, mem_getChunksCloserToNodeThanToMe, hiter.mem_iff,
    hiter'.mem_iff, ← and_or_left]
  refine and_iff_left (Key.dist_lt_xor hne h).or.symm

end ShardStorageManager

/-- The XOR distance is a metric that leaves no ties, so orders and responsibilities are unambiguous. -/
theorem distance_unambiguous.{u} :
    (∀ a b c d : Key, (a.distance b).cmp (c.distance d) = compare (a.dist b) (c.dist d)) ∧
    (∀ a b : Key, a.distance b = b.distance a) ∧
    (∀ a b : Key, a.dist b = 0 ↔ a = b) ∧
    (∀ a b c : Key, a.dist c ≤ a.dist b + b.dist c) ∧
    (∀ a b c : Key, a ≠ b → Xor (a.dist c < b.dist c) (b.dist c < a.dist c)) ∧
    (∀ (α : Type u) (key : α → Key) (target : Key) (l m : List α), (l.map key).Nodup →
      (m = sortByDistance key target l ↔
        m.Perm l ∧ m.Pairwise fun a b => ((key a).distance target).cmp ((key b).distance target) ≠ .gt)) ∧
    (∀ (b : LookupBuffer) (nodes : List LookupNodeInfo), (b.nodes.map (·.nodeInfo.id)).Nodup → nodes.Perm b.nodes →
      { b with nodes := nodes }.sort = b.sort) ∧
    (∀ (m : ShardStorageManager) (iter iter' : List Key) (a b : Key), a ≠ b → iter.Perm m.ownedChunks.keys →
      iter'.Perm m.ownedChunks.keys →
      let toNode := ShardStorageManager.getChunksCloserToNodeThanToMe iter a b
      let toMe := ShardStorageManager.getChunksCloserToNodeThanToMe iter' b a
      toNode.Disjoint toMe ∧ (toNode ++ toMe).Perm m.ownedChunks.keys) := by
  refine ⟨fun a b c d => (a.distance b).cmp_eq_compare (c.distance d), Key.distance_comm,
    fun a b => Key.dist_eq_zero_iff, Key.dist_triangle, fun a b c hne => Key.dist_lt_xor hne c,
    fun α key target l m h => eq_sortByDistance_iff h target, fun b nodes h hperm => LookupBuffer.sort_eq_of_perm h hperm,
    fun m iter iter' a b hne hiter hiter' => ⟨?_, ?_⟩⟩
  · exact ShardStorageManager.disjoint_getChunksCloserToNodeThanToMe iter iter' a b
  · exact ShardStorageManager.getChunksCloserToNodeThanToMe_split hne hiter hiter'

/-- Two nodes at the ends of the key space and a chunk next to each of them. -/
theorem distance_unambiguous_twoNodes :
    let m := { ShardStorageManager.new ∅ with
      ownedChunks := ((∅ : AList fun _ : Key => Nat).insert (Key.ofTopByte 1 0) 0).insert (Key.ofTopByte 254 0) 0 }
    (ShardStorageManager.getChunksCloserToNodeThanToMe m.ownedChunks.keys (Key.ofTopByte 0 0) (Key.ofTopByte 255 0) ++
      ShardStorageManager.getChunksCloserToNodeThanToMe m.ownedChunks.keys (Key.ofTopByte 255 0)
        (Key.ofTopByte 0 0)).Perm m.ownedChunks.keys := by
  obtain ⟨-, -, -, -, -, -, -, hsplit⟩ := distance_unambiguous.{0}
  have hne : Key.ofTopByte 0 0 ≠ Key.ofTopByte 255 0 := by decide
  exact (hsplit _ _ _ _ _ hne (List.Perm.refl _) (List.Perm.refl _)).2

end P2PFilesystem
