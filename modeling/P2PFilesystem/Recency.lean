import Mathlib.Data.List.Basic

/-!
# Lists in the order of last occurrence

A history says at each index whose turn it was, if anybody's. A list from which elements are only
taken out, and at whose end whoever has a turn is put, stays in the order of the last turns.
-/
namespace Recency

variable {α : Type*} {history : List (Option α)} {s : Option α} {a : α} {i j : Nat} {l l' : List α}

/-- The latest index of the history at which it is the turn of `a`. -/
def LastSeen (history : List (Option α)) (a : α) (i : Nat) : Prop :=
  history[i]? = some (some a) ∧ ∀ j, i < j → history[j]? ≠ some (some a)

structure InOrder (history : List (Option α)) (l : List α) : Prop where
  seen : ∀ a ∈ l, ∃ i, LastSeen history a i
  increasing : l.Pairwise fun a b => ∀ i j, LastSeen history a i → LastSeen history b j → i < j

theorem LastSeen.lt_length (h : LastSeen history a i) : i < history.length :=
  (List.getElem?_eq_some_iff.mp h.1).1

theorem LastSeen.unique (h : LastSeen history a i) (h' : LastSeen history a j) : i = j := by
  rcases Nat.lt_trichotomy i j with hlt | heq | hgt
  · exact absurd h'.1 (h.2 j hlt)
  · exact heq
  · exact absurd h.1 (h'.2 i hgt)

theorem lastSeen_concat_self (history : List (Option α)) (a : α) :
    LastSeen (history ++ [some a]) a history.length := by
  constructor
  · exact List.getElem?_concat_length
  · intro j hj hsome
    have hlt := (List.getElem?_eq_some_iff.mp hsome).1
    rw [List.length_append, List.length_singleton] at hlt
    omega

/-- A turn of another one changes nothing. -/
theorem lastSeen_concat_of_ne (hne : s ≠ some a) : LastSeen (history ++ [s]) a i ↔ LastSeen history a i := by
  have hsame : ∀ j : Nat, (history ++ [s])[j]? = some (some a) ↔ history[j]? = some (some a) := by
    intro j
    rcases Nat.lt_trichotomy j history.length with hlt | rfl | hgt
    · rw [List.getElem?_append_left hlt]
    · rw [List.getElem?_concat_length, List.getElem?_eq_none (Nat.le_refl _)]
      exact iff_of_false (fun h => hne (Option.some.inj h)) nofun
    · have hend : (history ++ [s]).length ≤ j := by
        rw [List.length_append, List.length_singleton]
        exact hgt
      rw [List.getElem?_eq_none (Nat.le_of_lt hgt), List.getElem?_eq_none hend]
  unfold LastSeen
  rw [hsame]
  exact and_congr_right fun _ => forall_congr' fun j => imp_congr_right fun _ => not_congr (hsame j)

theorem InOrder.nil (history : List (Option α)) : InOrder history [] := ⟨nofun, .nil⟩

theorem InOrder.sublist (h : InOrder history l) (hsub : l'.Sublist l) : InOrder history l' :=
  ⟨fun a ha => h.seen a (hsub.subset ha), h.increasing.sublist hsub⟩

/-- Whoever has the turn goes to the end. -/
theorem InOrder.concat (h : InOrder history l) (hs : ∀ a ∈ s, a ∉ l) : InOrder (history ++ [s]) (l ++ s.toList) := by
  have hold : ∀ {a : α} {i : Nat}, a ∈ l → (LastSeen (history ++ [s]) a i ↔ LastSeen history a i) := by
    intro a i ha
    refine lastSeen_concat_of_ne ?_
    rintro rfl
    exact hs a rfl ha
  have hlast : ∀ {a : α}, a ∈ s.toList → LastSeen (history ++ [s]) a history.length := by
    intro a ha
    rw [Option.mem_toList.mp ha]
    exact lastSeen_concat_self history a
  constructor
  · intro a ha
    cases List.mem_append.mp ha with
    | inl ha =>
        obtain ⟨i, hi⟩ := h.seen a ha
        exact ⟨i, (hold ha).mpr hi⟩
    | inr ha => exact ⟨history.length, hlast ha⟩
  · refine List.pairwise_append.mpr ⟨?_, ?_, fun a ha b hb i j hi hj => ?_⟩
    · refine h.increasing.imp_of_mem fun ha hb hab i j hi hj => ?_
      exact hab i j ((hold ha).mp hi) ((hold hb).mp hj)
    · cases s with
      | none => exact .nil
      | some a => exact List.pairwise_singleton _ a
    · rw [hj.unique (hlast hb)]
      exact ((hold ha).mp hi).lt_length

end Recency
