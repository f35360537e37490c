import Mathlib.Data.List.Basic
import Mathlib.Data.List.DropRight

/-!
# Words between separators

The non-empty parts of a list between elements of a kind, such as the words of a line between white
space, and a list without such elements at its ends.
-/
namespace Words

variable {α : Type*} {p : α → Bool}

def words (p : α → Bool) (s : List α) : List (List α) := (s.splitOnP p).filter fun w => !w.isEmpty

def trim (p : α → Bool) (s : List α) : List α := (s.dropWhile p).rdropWhile p

/-- Words one after the other, with separators around them and between any two. -/
inductive Spaced (p : α → Bool) : List (List α) → List α → Prop
  | blank {gap : List α} : (∀ c ∈ gap, p c = true) → Spaced p [] gap
  | last {gap w gap' : List α} : (∀ c ∈ gap, p c = true) → w ≠ [] → (∀ c ∈ w, p c = false) → (∀ c ∈ gap', p c = true) →
      Spaced p [w] (gap ++ (w ++ gap'))
  | word {gap w s : List α} {c : α} {ws : List (List α)} : (∀ c ∈ gap, p c = true) → w ≠ [] → (∀ c ∈ w, p c = false) →
      p c = true → Spaced p ws s → Spaced p (w :: ws) (gap ++ (w ++ c :: s))

theorem words_append_cons (x y : List α) {c : α} (hc : p c = true) : words p (x ++ c :: y) = words p x ++ words p y := by
  unfold words
  rw [List.splitOnP_append_cons x y hc, List.filter_append]

theorem words_nil : words p [] = [] := by
  simp [words, List.splitOnP_nil]

theorem words_blank {gap : List α} (hgap : ∀ c ∈ gap, p c = true) (s : List α) : words p (gap ++ s) = words p s := by
  induction gap with
  | nil => rfl
  | cons c gap ih =>
      have hcons := words_append_cons [] (gap ++ s) (hgap c List.mem_cons_self)
      rw [words_nil, List.nil_append, List.nil_append] at hcons
      exact hcons.trans (ih fun a ha => hgap a (List.mem_cons_of_mem c ha))

theorem words_word {w : List α} (hne : w ≠ []) (hw : ∀ c ∈ w, p c = false) : words p w = [w] := by
  unfold words
  rw [List.splitOnP_eq_singleton hw]
  simp [hne]

theorem words_word_blank {w gap : List α} (hne : w ≠ []) (hw : ∀ c ∈ w, p c = false) (hgap : ∀ c ∈ gap, p c = true) :
    words p (w ++ gap) = [w] := by
  cases gap with
  | nil =>
      rw [List.append_nil]
      exact words_word hne hw
  | cons c gap =>
      have hblank := words_blank (fun a ha => hgap a (List.mem_cons_of_mem c ha)) []
      rw [List.append_nil, words_nil] at hblank
      rw [words_append_cons w gap (hgap c List.mem_cons_self), words_word hne hw, hblank, List.append_nil]

theorem Spaced.words_eq {ws : List (List α)} {s : List α} (h : Spaced p ws s) : words p s = ws := by
  induction h with
  | @blank gap hgap =>
      have hblank := words_blank hgap []
      rw [List.append_nil, words_nil] at hblank
      exact hblank
  | last hgap hne hw hgap' =>
      rw [words_blank hgap]
      exact words_word_blank hne hw hgap'
  | @word gap w s c ws hgap hne hw hc _ ih =>
      rw [words_blank hgap, words_append_cons w s hc, words_word hne hw, ih]
      rfl

theorem dropWhile_blank {gap : List α} (hgap : ∀ c ∈ gap, p c = true) (s : List α) :
    (gap ++ s).dropWhile p = s.dropWhile p := by
  rw [List.dropWhile_append, List.dropWhile_eq_nil_iff.mpr hgap]
  rfl

/-- Between separators everything from one word to another is kept. -/
theorem trim_word {gap w gap' : List α} (hgap : ∀ c ∈ gap, p c = true) (hw : ∀ c ∈ w, p c = false)
    (hgap' : ∀ c ∈ gap', p c = true) : trim p (gap ++ (w ++ gap')) = w := by
  have hrest : (w ++ gap').rdropWhile p = w := by
    unfold List.rdropWhile
    rw [List.reverse_append, dropWhile_blank (by simpa using hgap')]
    cases hrev : w.reverse with
    | nil => exact (List.reverse_eq_nil_iff.mp hrev).symm
    | cons c rest =>
        have hc : p c = false := hw c (List.mem_reverse.mp (hrev ▸ List.mem_cons_self))
        rw [List.dropWhile_cons_of_neg (by rw [hc]; exact Bool.false_ne_true), ← hrev, List.reverse_reverse]
  unfold trim
  rw [dropWhile_blank hgap]
  cases w with
  | nil =>
      rw [List.nil_append, List.dropWhile_eq_nil_iff.mpr hgap']
      rfl
  | cons c w =>
      rw [List.cons_append, List.dropWhile_cons_of_neg (by rw [hw c List.mem_cons_self]; exact Bool.false_ne_true)]
      exact hrest

end Words
