import Mathlib.Order.Basic
import Mathlib.Tactic.Common

/-!
# Fuelled loops

A `loop { .. break .. }` is a body that either goes on with a state or leaves the
loop with one. Running it takes fuel, and exhausted fuel is `none`, never a result.
The rules below are the ones a verification of such a loop needs: the states it
visits, invariants, exits, and a measure that makes it leave.
-/
namespace LoopFuel

/-- One pass through a loop body. -/
inductive Pass (σ : Type*) where
  | next (s : σ)
  | exit (s : σ)
  deriving DecidableEq, Repr

variable {σ : Type*} (body : σ → Pass σ)

def runLoop : Nat → σ → Option σ
  | 0, _ => none
  | fuel+1, s => match body s with
      | .next s' => runLoop fuel s'
      | .exit t => some t

/-- The loop reaches the top of its body in state `t`. -/
inductive Visits : σ → σ → Prop
  | refl (s : σ) : Visits s s
  | step {s s' t : σ} : body s = .next s' → Visits s' t → Visits s t

/-- The loop leaves in state `t`. -/
def Exits (s t : σ) : Prop := ∃ u, Visits body s u ∧ body u = .exit t

variable {body}

theorem runLoop_mono {fuel more : Nat} {s t : σ} (hle : fuel ≤ more)
    (h : runLoop body fuel s = some t) : runLoop body more s = some t := by
  induction fuel generalizing more s with
  | zero => cases h
  | succ fuel ih =>
      obtain ⟨more, rfl⟩ := Nat.exists_eq_succ_of_ne_zero (by omega : more ≠ 0)
      simp only [runLoop] at h ⊢
      cases hb : body s with
      | next s' => rw [hb] at h; exact ih (Nat.le_of_succ_le_succ hle) h
      | exit t' => rw [hb] at h; exact h

theorem runLoop_iff_exits {s t : σ} : (∃ fuel, runLoop body fuel s = some t) ↔ Exits body s t := by
  constructor
  · rintro ⟨fuel, h⟩
    induction fuel generalizing s with
    | zero => cases h
    | succ fuel ih =>
        simp only [runLoop] at h
        cases hb : body s with
        | next s' =>
            rw [hb] at h
            obtain ⟨u, hu, he⟩ := ih h
            exact ⟨u, .step hb hu, he⟩
        | exit t' =>
            rw [hb] at h
            cases h
            exact ⟨s, .refl s, hb⟩
  · rintro ⟨u, hu, he⟩
    induction hu with
    | refl s => exact ⟨1, by simp only [runLoop, he]⟩
    | step hs _ ih =>
        obtain ⟨fuel, h⟩ := ih he
        exact ⟨fuel+1, by simp only [runLoop, hs, h]⟩

theorem Exits.unique {s t u : σ} (h : Exits body s t) (k : Exits body s u) : t = u := by
  obtain ⟨n, hn⟩ := runLoop_iff_exits.mpr h
  obtain ⟨m, hm⟩ := runLoop_iff_exits.mpr k
  have hn' := runLoop_mono (Nat.le_max_left n m) hn
  have hm' := runLoop_mono (Nat.le_max_right n m) hm
  exact Option.some.inj (hn'.symm.trans hm')

theorem Exits.of_visits {s t u : σ} (h : Visits body s t) (k : Exits body s u) :
    Exits body t u := by
  induction h with
  | refl s => exact k
  | step hs _ ih =>
      obtain ⟨v, hv, he⟩ := k
      cases hv with
      | refl => rw [hs] at he; cases he
      | step hs' hv =>
          rw [hs] at hs'
          cases hs'
          exact ih ⟨v, hv, he⟩

theorem Visits.trans {s t u : σ} (h : Visits body s t) (k : Visits body t u) : Visits body s u := by
  induction h with
  | refl s => exact k
  | step hb _ ih => exact .step hb (ih k)

theorem visits_invariant {I : σ → Prop} (hstep : ∀ s s', I s → body s = .next s' → I s')
    {s t : σ} (h : Visits body s t) (hs : I s) : I t := by
  induction h with
  | refl s => exact hs
  | step hb _ ih => exact ih (hstep _ _ hs hb)

/-- A measure that falls on every further pass makes the loop leave. -/
theorem exits_of_measure {I : σ → Prop} (μ : σ → Nat)
    (hstep : ∀ s s', I s → body s = .next s' → I s' ∧ μ s' < μ s) {s : σ} (hs : I s) :
    ∃ t, Exits body s t := by
  induction hn : μ s using Nat.strongRecOn generalizing s with
  | ind n ih =>
      cases hb : body s with
      | exit t => exact ⟨t, s, .refl s, hb⟩
      | next s' =>
          obtain ⟨hs', hlt⟩ := hstep s s' hs hb
          obtain ⟨t, u, hu, he⟩ := ih (μ s') (by omega) hs' rfl
          exact ⟨t, u, .step hb hu, he⟩

/-- A fuelled computation returns `r`: every large enough fuel gives exactly `r`. -/
def Returns {ρ : Type*} (f : Nat → Option ρ) (r : ρ) : Prop :=
  ∃ fuel, ∀ more, fuel ≤ more → f more = some r

theorem Returns.unique {ρ : Type*} {f : Nat → Option ρ} {r q : ρ} (h : Returns f r) (k : Returns f q) : r = q := by
  obtain ⟨n, hn⟩ := h
  obtain ⟨m, hm⟩ := k
  have hr := hn (max n m) (Nat.le_max_left n m)
  have hq := hm (max n m) (Nat.le_max_right n m)
  exact Option.some.inj (hr.symm.trans hq)

theorem Exits.returns {ρ : Type*} {s t : σ} (h : Exits body s t) (f : σ → ρ) :
    Returns (fun fuel => (runLoop body fuel s).map f) (f t) := by
  obtain ⟨fuel, hf⟩ := runLoop_iff_exits.mpr h
  refine ⟨fuel, fun more hle => ?_⟩
  simp only [runLoop_mono hle hf, Option.map]

/-- No fuel ends the computation. -/
def Diverges {ρ : Type*} (f : Nat → Option ρ) : Prop := ∀ fuel, f fuel = none

/-- What comes after a loop may be something that never returns itself. -/
theorem Exits.returns_bind {ρ : Type*} {s t : σ} (h : Exits body s t) {f : σ → Option ρ} {r : ρ} (hr : f t = some r) :
    Returns (fun fuel => (runLoop body fuel s).bind f) r := by
  obtain ⟨fuel, hf⟩ := runLoop_iff_exits.mpr h
  refine ⟨fuel, fun more hle => ?_⟩
  simp only [runLoop_mono hle hf, Option.bind, hr]

theorem Exits.diverges_bind {ρ : Type*} {s t : σ} (h : Exits body s t) {f : σ → Option ρ} (hnone : f t = none) :
    Diverges fun fuel => (runLoop body fuel s).bind f := by
  intro fuel
  cases hloop : runLoop body fuel s with
  | none => simp only [hloop, Option.bind]
  | some u =>
      have hu := h.unique (runLoop_iff_exits.mp ⟨fuel, hloop⟩)
      simp only [hloop, Option.bind, hu ▸ hnone]

/-- What is returned after a loop comes of the state it leaves with. -/
theorem Exits.of_returns_bind {ρ : Type*} {s t : σ} (h : Exits body s t) {f : σ → Option ρ} {r : ρ}
    (hr : Returns (fun fuel => (runLoop body fuel s).bind f) r) : f t = some r := by
  cases hf : f t with
  | none =>
      obtain ⟨fuel, hr⟩ := hr
      have hnone : (runLoop body fuel s).bind f = none := h.diverges_bind hf fuel
      exact hnone.symm.trans (hr fuel (Nat.le_refl fuel))
  | some q => exact congrArg some ((h.returns_bind hf).unique hr)

end LoopFuel
