import Mathlib.Data.List.Sort
import Mathlib.Data.List.TakeDrop
import Mathlib.Data.List.Nodup

/-!
# Stable sorting by a numeric key

`sortOn f` is the stable sort by the key `f`. Besides order and content the lemmas
say which elements stand in the first `n` places, and when sorting a part of a list
already gives the first `n` places of the whole.
-/
namespace KeySort
open List

variable {α : Type*} {f : α → Nat} {l m : List α} {a b u : α} {n : Nat}

def Ascending (f : α → Nat) (l : List α) : Prop := l.Pairwise (fun a b => f a ≤ f b)

/-- Different elements of the list have different keys. -/
def Distinct (f : α → Nat) (l : List α) : Prop := ∀ a ∈ l, ∀ b ∈ l, f a = f b → a = b

/-- The first `n` elements have the least keys. -/
def Foremost (n : Nat) (f : α → Nat) (l : List α) : Prop := ∀ a ∈ l.take n, ∀ b ∈ l.drop n, f a ≤ f b

instance (n : Nat) (f : α → Nat) (l : List α) : Decidable (Foremost n f l) :=
  inferInstanceAs (Decidable (∀ a ∈ l.take n, ∀ b ∈ l.drop n, f a ≤ f b))

def sortOn (f : α → Nat) (l : List α) : List α := l.insertionSort (fun a b => f a ≤ f b)

instance instTotal (f : α → Nat) : Std.Total (fun a b => f a ≤ f b) := ⟨fun a b => Nat.le_total (f a) (f b)⟩

instance instIsTrans (f : α → Nat) : IsTrans α (fun a b => f a ≤ f b) := ⟨fun _ _ _ => Nat.le_trans⟩

theorem sortOn_ascending (f : α → Nat) (l : List α) : Ascending f (sortOn f l) :=
  pairwise_insertionSort _ l

theorem sortOn_perm (f : α → Nat) (l : List α) : sortOn f l ~ l := perm_insertionSort _ l

@[simp] theorem mem_sortOn : a ∈ sortOn f l ↔ a ∈ l := (sortOn_perm f l).mem_iff

@[simp] theorem length_sortOn (f : α → Nat) (l : List α) : (sortOn f l).length = l.length :=
  (sortOn_perm f l).length_eq

theorem Ascending.eq_of_perm (hl : Ascending f l) (hm : Ascending f m) (hp : l ~ m)
    (hd : Distinct f m) : l = m :=
  hp.eq_of_pairwise (fun _ _ ha hb h k => hd _ (hp.subset ha) _ hb (Nat.le_antisymm h k)) hl hm

/-- With keys that tell the elements apart there is one ascending order, and it is what sorting gives. -/
theorem eq_sortOn_iff (hd : Distinct f l) : m = sortOn f l ↔ m ~ l ∧ Ascending f m := by
  constructor
  · rintro rfl
    exact ⟨sortOn_perm f l, sortOn_ascending f l⟩
  · rintro ⟨hperm, hm⟩
    refine hm.eq_of_perm (sortOn_ascending f l) (hperm.trans (sortOn_perm f l).symm) ?_
    exact fun a ha b hb => hd a (mem_sortOn.mp ha) b (mem_sortOn.mp hb)

/-- Where the keys of the second part tell its elements apart, their order in it does not matter. -/
theorem sortOn_append_congr {m' : List α} (l : List α) (h : m ~ m') (hd : Distinct f m') :
    sortOn f (l ++ m) = sortOn f (l ++ m') := by
  induction l with
  | nil =>
      exact (eq_sortOn_iff hd).mpr ⟨(sortOn_perm f m).trans h, sortOn_ascending f m⟩
  | cons a l ih =>
      unfold sortOn at ih ⊢
      rw [cons_append, cons_append, insertionSort_cons, insertionSort_cons, ih]

theorem Ascending.foremost (h : Ascending f l) (n : Nat) : Foremost n f l := by
  unfold Ascending at h
  rw [← take_append_drop n l] at h
  exact (pairwise_append.mp h).2.2

theorem Ascending.le_of_append_cons {pre post : List α} (h : Ascending f (pre ++ a :: post)) (hb : b ∈ a :: post) :
    f a ≤ f b := by
  rcases mem_cons.mp hb with rfl | htail
  · exact Nat.le_refl _
  · exact rel_of_pairwise_cons (pairwise_append.mp h).2.1 htail

theorem foremost_iff_exists_perm :
    Foremost n f l ↔ ∃ others, l ~ l.take n ++ others ∧ ∀ a ∈ l.take n, ∀ b ∈ others, f a ≤ f b := by
  constructor
  · intro h
    exact ⟨l.drop n, by rw [take_append_drop], h⟩
  · rintro ⟨others, hperm, hothers⟩ a ha b hb
    have hdrop : l.drop n ~ others := by
      rw [← perm_append_left_iff (l.take n), take_append_drop]
      exact hperm
    exact hothers a ha b (hdrop.mem_iff.mp hb)

theorem Ascending.mem_take_of_lt (h : Ascending f l) (hu : u ∈ l.take n) (ha : a ∈ l)
    (hlt : f a < f u) : a ∈ l.take n := by
  rw [← take_append_drop n l] at ha h
  rcases mem_append.mp ha with ha | ha
  · exact ha
  · exact absurd ((pairwise_append.mp h).2.2 u hu a ha) (Nat.not_le_of_lt hlt)

theorem countP_le_take (p : α → Bool) (h : ∀ a ∈ l.drop n, p a = false) :
    l.countP p ≤ n := by
  have hd : (l.drop n).countP p = 0 := countP_eq_zero.mpr fun a ha => by simp [h a ha]
  calc l.countP p = (l.take n ++ l.drop n).countP p := by rw [take_append_drop]
    _ = (l.take n).countP p := by rw [countP_append, hd, Nat.add_zero]
    _ ≤ (l.take n).length := countP_le_length
    _ ≤ n := length_take_le n l

/-- The first `n` places of an ascending list are below every key that `n` members are below. -/
theorem Ascending.take_lt (h : Ascending f l) {k : Nat} (hn : n ≤ l.countP (fun v => f v < k)) :
    ∀ v ∈ l.take n, f v < k := by
  intro v hv
  by_contra hk
  have hdrop : ∀ w ∈ l.drop (n-1), (decide (f w < k)) = false := by
    intro w hw
    obtain ⟨i, hi, rfl⟩ := getElem_of_mem hv
    obtain ⟨j, hj, rfl⟩ := getElem_of_mem hw
    simp only [length_take, length_drop] at hi hj
    simp only [getElem_take, getElem_drop] at hk ⊢
    have hle : f l[i] ≤ f l[n-1+j] := by
      rcases Nat.lt_or_ge i (n-1+j) with hlt | hge
      · exact pairwise_iff_getElem.mp h i (n-1+j) (by omega) (by omega) hlt
      · have : i = n-1+j := by omega
        simp only [this, Nat.le_refl]
    simp only [decide_eq_false_iff_not]
    omega
  have hcount := countP_le_take (n := n-1) _ hdrop
  have hpos : 0 < n := by
    rcases Nat.eq_zero_or_pos n with rfl | hp
    · simp at hv
    · exact hp
  omega

/-- What comes first in a part, and is below everything outside it, comes first in the whole. -/
theorem sortOn_append_eq_take_append (hd : Distinct f (l ++ m)) (hlt : ∀ u ∈ m, ∀ v ∈ (sortOn f l).take n, f v < f u) :
    sortOn f (l ++ m) = (sortOn f l).take n ++ sortOn f ((sortOn f l).drop n ++ m) := by
  refine ((eq_sortOn_iff hd).mpr ⟨?_, ?_⟩).symm
  · refine ((sortOn_perm f _).append_left _).trans ?_
    rw [← append_assoc, take_append_drop]
    exact (sortOn_perm f l).append_right m
  · refine pairwise_append.mpr ⟨(sortOn_ascending f l).sublist (take_sublist n _), sortOn_ascending f _, ?_⟩
    intro v hv u hu
    rcases mem_append.mp (mem_sortOn.mp hu) with hu | hu
    · exact (sortOn_ascending f l).foremost n v hv u hu
    · exact (hlt u hu v hv).le

/-- An element outside the first `n` places has `n` elements before it. -/
theorem le_countP_of_not_mem_take (hd : Distinct f l) (hu : u ∈ l) (hut : u ∉ (sortOn f l).take n) :
    n ≤ ((sortOn f l).take n).countP (fun v => f v < f u) := by
  have hlt : ∀ v ∈ (sortOn f l).take n, f v < f u := by
    intro v hv
    by_contra hge
    rcases Nat.lt_or_eq_of_le (Nat.le_of_not_lt hge) with hlt | heq
    · exact hut ((sortOn_ascending f l).mem_take_of_lt hv (mem_sortOn.mpr hu) hlt)
    · exact hut (hd u hu v (mem_sortOn.mp (mem_of_mem_take hv)) heq ▸ hv)
  have hlen : ((sortOn f l).take n).length = n := by
    rw [length_take, Nat.min_eq_left]
    by_contra hshort
    exact hut (by rw [take_of_length_le (by omega)]; exact mem_sortOn.mpr hu)
  exact ((countP_eq_length.mpr fun v hv => decide_eq_true (hlt v hv)).trans hlen).ge

/-- Sorting a part of a list gives the first `n` places of the whole exactly when each
element outside the part has `n` elements of the part before it. -/
theorem take_sortOn_append_iff (hd : Distinct f (l ++ m)) (hnd : (l ++ m).Nodup) :
    (sortOn f l).take n = (sortOn f (l ++ m)).take n ↔
      ∀ u ∈ m, n ≤ l.countP (fun v => f v < f u) := by
  have hperm := sortOn_perm f l
  constructor
  · intro he u hu
    have hul : u ∉ l := fun h => (nodup_append.mp hnd).2.2 u h u hu rfl
    have hut : u ∉ (sortOn f (l ++ m)).take n := fun h => hul (mem_sortOn.mp (mem_of_mem_take (he ▸ h)))
    calc n ≤ ((sortOn f (l ++ m)).take n).countP (fun v => f v < f u) :=
          le_countP_of_not_mem_take hd (mem_append_right l hu) hut
      _ = ((sortOn f l).take n).countP (fun v => f v < f u) := by rw [he]
      _ ≤ (sortOn f l).countP (fun v => f v < f u) := (take_sublist n _).countP_le
      _ = l.countP (fun v => f v < f u) := hperm.countP_eq _
  · intro h
    rcases m.eq_nil_or_concat with rfl | ⟨m', w, hm⟩
    · rw [append_nil]
    have hwm : w ∈ m := by rw [hm]; simp
    have hlen : n ≤ (sortOn f l).length := by
      rw [length_sortOn]; exact (h w hwm).trans countP_le_length
    have hlt : ∀ u ∈ m, ∀ v ∈ (sortOn f l).take n, f v < f u := fun u hu =>
      (sortOn_ascending f l).take_lt (by rw [hperm.countP_eq]; exact h u hu)
    rw [sortOn_append_eq_take_append hd hlt, take_append_of_le_length (by rw [length_take]; omega), take_take,
      Nat.min_self]

theorem take_filter_of_forall {p : α → Bool} (h : ∀ a ∈ l.take n, p a = true) : (l.filter p).take n = l.take n := by
  induction l generalizing n with
  | nil => rfl
  | cons a l ih =>
      cases n with
      | zero => rfl
      | succ n =>
          rw [take_succ_cons] at h ⊢
          rw [filter_cons_of_pos (h a mem_cons_self), take_succ_cons, ih fun b hb => h b (mem_cons_of_mem a hb)]

/-- The part of a list that is in order already keeps its order among the rest. -/
theorem filter_sortOn_append (hl : Ascending f l) {p : α → Bool} (hpl : ∀ a ∈ l, p a = true)
    (hpm : ∀ a ∈ m, p a = false) : (sortOn f (l ++ m)).filter p = l := by
  have hparts : (l ++ m).filter p = l := by
    rw [filter_append, filter_eq_self.mpr hpl, filter_eq_nil_iff.mpr fun a ha => by simp [hpm a ha], append_nil]
  have hsub : l <+ (sortOn f (l ++ m)).filter p := by
    have := (sublist_insertionSort hl (sublist_append_left l m)).filter p
    rwa [filter_eq_self.mpr hpl] at this
  have hlength := ((sortOn_perm f (l ++ m)).filter p).length_eq
  rw [hparts] at hlength
  exact (hsub.eq_of_length hlength.symm).symm

/-- A part that ends in an element of the first `n` places only has fewer than `n` elements before it. -/
theorem length_lt_of_sublist_concat {front : List α} (h : front ++ [a] <+ l) (ha : a ∉ l.drop n) : front.length < n := by
  rw [← take_append_drop n l] at h
  obtain ⟨c, d, hcd, hc, hd⟩ := sublist_append_iff.mp h
  have hnil : d = [] := by
    by_contra hne
    have hlast : d.getLast hne = a := by
      have hends := congrArg getLast? hcd
      rw [getLast?_append_of_ne_nil _ hne, getLast?_concat, getLast?_eq_some_getLast hne] at hends
      exact (Option.some.inj hends).symm
    exact ha (hd.subset (hlast ▸ getLast_mem hne))
  rw [hnil, append_nil] at hcd
  have hlength := hc.length_le
  rw [← hcd, length_append, length_singleton] at hlength
  exact hlength.trans (length_take_le n l)

/-- What occurs once occurs on one side only. -/
theorem not_mem_drop_of_mem_take [DecidableEq α] (honce : l.count a ≤ 1) (ha : a ∈ l.take n) : a ∉ l.drop n := by
  intro hdrop
  rw [← take_append_drop n l, count_append] at honce
  have htake := count_pos_iff.mpr ha
  have hrest := count_pos_iff.mpr hdrop
  omega

variable {p q : α → Bool}

/-- The elements of the part that are not above a new one, and then that one, stay in this order. -/
theorem concat_sublist_sortOn_append (hl : Ascending f l) (ham : a ∈ m) (hq : q a = true) :
    (l.filter q).filter (fun b => f b ≤ f a) ++ [a] <+ (sortOn f (l ++ m)).filter q := by
  have hsub : (l.filter q).filter (fun b => f b ≤ f a) ++ [a] <+ l ++ m :=
    (filter_sublist.trans filter_sublist).append (singleton_sublist.mpr ham)
  have hasc : Ascending f ((l.filter q).filter (fun b => f b ≤ f a) ++ [a]) := by
    refine pairwise_append.mpr ⟨hl.sublist (filter_sublist.trans filter_sublist), pairwise_singleton _ _, ?_⟩
    intro b hb c hc
    rw [mem_singleton.mp hc]
    simpa using (mem_filter.mp hb).2
  have hkeep : ∀ b ∈ (l.filter q).filter (fun b => f b ≤ f a) ++ [a], q b = true := by
    intro b hb
    cases mem_append.mp hb with
    | inl hb => exact (mem_filter.mp (mem_filter.mp hb).1).2
    | inr hb => exact mem_singleton.mp hb ▸ hq
  have hsorted := (sublist_insertionSort hasc hsub).filter q
  rwa [filter_eq_self.mpr hkeep] at hsorted

/-- An element behind the first `n` of an ascending list has `n` elements not above it. -/
theorem Ascending.le_countP (h : Ascending f l) (ha : a ∈ l.drop n) : n ≤ (l.take n).countP (fun b => f b ≤ f a) := by
  have hle : ∀ b ∈ l.take n, f b ≤ f a := fun b hb => h.foremost n b hb a ha
  rw [countP_eq_length.mpr fun b hb => decide_eq_true (hle b hb), length_take]
  have hpos := length_pos_of_mem ha
  rw [length_drop] at hpos
  omega

/-- One of the new elements comes among the first `n` if and only if fewer than `n` of the old ones are
in front of one. -/
theorem exists_mem_take_sortOn_append_iff (hl : Ascending f l) (hm : m.Nodup) (hpl : ∀ a ∈ l, p a = true)
    (hpm : ∀ a ∈ m, p a = false) :
    (∃ a ∈ ((sortOn f (l ++ m)).filter q).take n, p a = false) ↔
      ∃ a ∈ m, q a = true ∧ (l.filter q).countP (fun b => f b ≤ f a) < n := by
  classical
  have hnew : ∀ a, p a = false → a ∉ l := fun a hp h => by simp [hpl a h] at hp
  constructor
  · rintro ⟨a, ha, hp⟩
    obtain ⟨hsorted, hq⟩ := mem_filter.mp (mem_of_mem_take ha)
    have ham : a ∈ m := (mem_append.mp (mem_sortOn.mp hsorted)).resolve_left (hnew a hp)
    refine ⟨a, ham, hq, ?_⟩
    -- the new element is there once, so what is in front of it is among the first as well
    have honce : ((sortOn f (l ++ m)).filter q).count a ≤ 1 := by
      calc ((sortOn f (l ++ m)).filter q).count a ≤ (sortOn f (l ++ m)).count a := filter_sublist.count_le a
        _ = l.count a + m.count a := by rw [(sortOn_perm f (l ++ m)).count_eq, count_append]
        _ ≤ 1 := by rw [count_eq_zero_of_not_mem (hnew a hp), Nat.zero_add]; exact nodup_iff_count_le_one.mp hm a
    rw [countP_eq_length_filter]
    exact length_lt_of_sublist_concat (concat_sublist_sortOn_append hl ham hq) (not_mem_drop_of_mem_take honce ha)
  · rintro ⟨a, ham, hq, hfew⟩
    by_contra hnone
    simp only [not_exists, not_and, Bool.not_eq_false] at hnone
    have hold : ((sortOn f (l ++ m)).filter q).filter p = l.filter q := by
      rw [filter_comm, filter_sortOn_append hl hpl hpm]
    have htake : (l.filter q).take n = ((sortOn f (l ++ m)).filter q).take n := by
      rw [← hold]
      exact take_filter_of_forall hnone
    have hmem : a ∈ (sortOn f (l ++ m)).filter q := mem_filter.mpr ⟨mem_sortOn.mpr (mem_append_right _ ham), hq⟩
    have hasc : Ascending f ((sortOn f (l ++ m)).filter q) := (sortOn_ascending f (l ++ m)).sublist filter_sublist
    rw [← take_append_drop n ((sortOn f (l ++ m)).filter q)] at hmem
    have hdrop : a ∈ ((sortOn f (l ++ m)).filter q).drop n := by
      refine (mem_append.mp hmem).resolve_left fun h => ?_
      have hold := hnone a h
      rw [hpm a ham] at hold
      exact Bool.false_ne_true hold
    have hmany := hasc.le_countP hdrop
    rw [← htake] at hmany
    have hsub := (take_sublist n (l.filter q)).countP_le (p := fun b => decide (f b ≤ f a))
    omega

section Maps
variable {α β : Type*} {f : α → β} {p : α → Bool} {q : β → Bool} {xs : List α}

theorem countP_map_of_eq (h : ∀ x ∈ xs, p x = q (f x)) : (xs.map f).countP q = xs.countP p := by
  rw [List.countP_map]
  apply List.countP_congr
  intro x hx
  rw [Function.comp_apply, h x hx]

/-- What is said of an element and of those before it, said of their images. -/
theorem forall_split_map_iff {P : β → Prop} {n : Nat} (h : ∀ x ∈ xs, p x = q (f x)) :
    (∀ pre x post, xs = pre ++ x :: post → p x = true → P (f x) → n ≤ pre.countP p) ↔
      ∀ pre y post, xs.map f = pre ++ y :: post → q y = true → P y → n ≤ pre.countP q := by
  constructor
  · intro hall pre y post hsplit hy hP
    obtain ⟨before, rest, rfl, rfl, hrest⟩ := List.map_eq_append_iff.mp hsplit
    obtain ⟨x, after, rfl, rfl, rfl⟩ := List.map_eq_cons_iff.mp hrest
    have hx := h x (List.mem_append_right before List.mem_cons_self)
    rw [countP_map_of_eq fun z hz => h z (List.mem_append_left _ hz)]
    exact hall before x after rfl (hx.trans hy) hP
  · intro hall pre x post hsplit hx hP
    subst hsplit
    have hy := h x (List.mem_append_right pre List.mem_cons_self)
    rw [← countP_map_of_eq fun z hz => h z (List.mem_append_left _ hz)]
    refine hall (pre.map f) (f x) (post.map f) ?_ (hy.symm.trans hx) hP
    rw [List.map_append, List.map_cons]

end Maps
end KeySort
