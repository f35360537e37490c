import Mathlib.Logic.Basic
import Mathlib.Data.List.Basic

/-!
# Runs of labelled transition systems

A run with the events it took, each beside the state it was taken in. The rules are the ones
for invariants: what every step keeps holds in every state of a run, and where a step keeps a
property exactly if its event is clean, a run keeps it exactly if all its events are.
-/
namespace Traces

variable {σ ε : Type*}

/-- From `s` through the states and events of the history, oldest first, to `t`. -/
inductive Trace (step : σ → ε → σ → Prop) (s : σ) : List (σ × ε) → σ → Prop
  | start : Trace step s [] s
  | next {hist : List (σ × ε)} {t u : σ} {e : ε} : Trace step s hist t → step t e u →
      Trace step s (hist ++ [(t, e)]) u

variable {step : σ → ε → σ → Prop} {s t : σ} {hist : List (σ × ε)}

/-- Every state of the run, the last one included. -/
def Throughout (I : σ → Prop) (hist : List (σ × ε)) (t : σ) : Prop := (∀ p ∈ hist, I p.1) ∧ I t

theorem throughout_concat {I : σ → Prop} {e : ε} {u : σ} :
    Throughout I (hist ++ [(t, e)]) u ↔ Throughout I hist t ∧ I u := by
  unfold Throughout
  simp only [List.mem_append, List.mem_singleton, or_imp, forall_and, forall_eq]

theorem Trace.throughout {I : σ → Prop} (hstep : ∀ s e t, I s → step s e t → I t) (h : Trace step s hist t)
    (hs : I s) : Throughout I hist t := by
  induction h with
  | start => exact ⟨nofun, hs⟩
  | next _ hstep' ih => exact throughout_concat.mpr ⟨ih, hstep _ _ _ ih.2 hstep'⟩

theorem Trace.invariant {I : σ → Prop} (hstep : ∀ s e t, I s → step s e t → I t) (h : Trace step s hist t)
    (hs : I s) : I t := (h.throughout hstep hs).2

/-- A step keeps the property exactly on clean events, so a run does. -/
theorem Trace.throughout_iff {I : σ → Prop} {clean : σ → ε → Prop}
    (hstep : ∀ s e t, I s → step s e t → (I t ↔ clean s e)) (h : Trace step s hist t) (hs : I s) :
    Throughout I hist t ↔ ∀ p ∈ hist, clean p.1 p.2 := by
  induction h with
  | start => exact iff_of_true ⟨nofun, hs⟩ nofun
  | @next hist t u e _ hstep' ih =>
      rw [throughout_concat]
      simp only [List.mem_append, List.mem_singleton, or_imp, forall_and, forall_eq]
      rw [← ih]
      exact and_congr_right fun hall => hstep t e u hall.2 hstep'

/-- The same where the steps are known only in states with an invariant of the system. -/
theorem Trace.throughout_iff_of_invariant {J I : σ → Prop} {clean : σ → ε → Prop}
    (hJ : ∀ s e t, J s → step s e t → J t) (hstep : ∀ s e t, J s → I s → step s e t → (I t ↔ clean s e))
    (h : Trace step s hist t) (hJs : J s) (hs : I s) : Throughout I hist t ↔ ∀ p ∈ hist, clean p.1 p.2 := by
  have hall : Throughout J hist t := h.throughout hJ hJs
  rw [← h.throughout_iff (I := fun u => J u ∧ I u) (fun s e t hs hst => ?_) ⟨hJs, hs⟩]
  · unfold Throughout
    constructor
    · exact fun hI => ⟨fun p hp => ⟨hall.1 p hp, hI.1 p hp⟩, hall.2, hI.2⟩
    · exact fun hI => ⟨fun p hp => (hI.1 p hp).2, hI.2.2⟩
  · rw [← hstep s e t hs.1 hs.2 hst]
    exact and_iff_right (hJ s e t hs.1 hst)

end Traces
