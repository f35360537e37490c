import P2PFilesystem.Traces
import Mathlib.Data.Fintype.Card
import Mathlib.Algebra.Order.BigOperators.Group.Finset
import Mathlib.Data.List.Nodup
import Mathlib.Logic.Function.Basic

/-!
# Workers on a bounded queue

A reader takes in jobs and puts them into a queue with a bound, workers take them out and do
them step by step on a shared state. The rules say what holds in every interleaving: no job is
lost or done twice, what each step keeps, and how many workers are left when some are stuck.
-/
namespace WorkQueue
open Traces

variable {σ α φ ο κ : Type*}

/-- A job with the number under which it came in. -/
structure Job (α : Type*) where
  ticket : Nat
  data : α

/-- What a worker does with a job, in phases. A step ends the job or leaves a phase, and may put
something out. Others may change the shared state as well. -/
structure Program (σ α φ ο : Type*) where
  first : φ
  step : σ → α → φ → σ → Option φ → Option ο → Prop
  outside : σ → σ → Prop

/-- `received` and `started` are the jobs that ever came in and that were ever taken. -/
structure Pool (σ α φ ο κ : Type*) where
  shared : σ
  received : List (Job α)
  reader : Option (Job α)
  queue : List (Job α)
  started : List (Job α)
  workers : κ → Option (Job α × φ)
  emitted : List (Nat × ο)

inductive PoolEvent (α κ : Type*) where
  | receives (a : α)
  | enqueues
  | takes (k : κ)
  | works (k : κ)
  | outside

def Pool.start (s : σ) : Pool σ α φ ο κ := ⟨s, [], none, [], [], fun _ => none, []⟩

/-- The data of the jobs that were taken. -/
def Pool.Taken (s : Pool σ α φ ο κ) (a : α) : Prop := ∃ j ∈ s.started, j.data = a

inductive Step [DecidableEq κ] (prog : Program σ α φ ο) (capacity : Nat) :
    Pool σ α φ ο κ → PoolEvent α κ → Pool σ α φ ο κ → Prop
  | receives {s : Pool σ α φ ο κ} {a : α} : s.reader = none →
      Step prog capacity s (.receives a) { s with
        received := s.received ++ [⟨s.received.length, a⟩]
        reader := some ⟨s.received.length, a⟩ }
  | enqueues {s : Pool σ α φ ο κ} {j : Job α} : s.reader = some j → s.queue.length < capacity →
      Step prog capacity s .enqueues { s with reader := none, queue := s.queue ++ [j] }
  | takes {s : Pool σ α φ ο κ} {k : κ} {j : Job α} {rest : List (Job α)} : s.workers k = none → s.queue = j :: rest →
      Step prog capacity s (.takes k) { s with
        queue := rest
        started := s.started ++ [j]
        workers := Function.update s.workers k (some (j, prog.first)) }
  | works {s : Pool σ α φ ο κ} {k : κ} {j : Job α} {p : φ} {shared : σ} {next : Option φ} {out : Option ο} :
      s.workers k = some (j, p) → prog.step s.shared j.data p shared next out →
      Step prog capacity s (.works k) { s with
        shared := shared
        workers := Function.update s.workers k (next.map fun q => (j, q))
        emitted := s.emitted ++ (out.map fun x => (j.ticket, x)).toList }
  | outside {s : Pool σ α φ ο κ} {shared : σ} : prog.outside s.shared shared →
      Step prog capacity s .outside { s with shared := shared }

/-- What is put out is the last of a job. -/
def Program.EmitsLast (prog : Program σ α φ ο) : Prop :=
  ∀ s a p s' next x, prog.step s a p s' next (some x) → next = none

/-- The jobs that came in are those that were taken, those in the queue and the one at the reader,
in this order. Every job is with one worker at most and puts out once at most, when it is over. -/
structure Accounted (capacity : Nat) (s : Pool σ α φ ο κ) : Prop where
  split : s.started ++ (s.queue ++ s.reader.toList) = s.received
  tickets : s.received.map Job.ticket = List.range s.received.length
  bounded : s.queue.length ≤ capacity
  taken : ∀ k j p, s.workers k = some (j, p) → j ∈ s.started
  alone : ∀ k k' j j' p p', s.workers k = some (j, p) → s.workers k' = some (j', p') → j.ticket = j'.ticket → k = k'
  finished : ∀ k j p, s.workers k = some (j, p) → j.ticket ∉ s.emitted.map Prod.fst
  emitted : ∀ n ∈ s.emitted.map Prod.fst, n ∈ s.started.map Job.ticket
  once : (s.emitted.map Prod.fst).Nodup

section Accounts
variable {capacity : Nat} {s t : Pool σ α φ ο κ}

theorem accounted_start (s : σ) : Accounted capacity (Pool.start s : Pool σ α φ ο κ) where
  split := rfl
  tickets := rfl
  bounded := Nat.zero_le _
  taken := nofun
  alone := nofun
  finished := nofun
  emitted := nofun
  once := List.nodup_nil

theorem Accounted.tickets_nodup (h : Accounted capacity s) : (s.received.map Job.ticket).Nodup :=
  h.tickets ▸ List.nodup_range

theorem Accounted.mem_received (h : Accounted capacity s) {j : Job α} (hj : j ∈ s.started) : j ∈ s.received :=
  h.split ▸ List.mem_append_left _ hj

/-- The tickets are the places in the order in which the jobs came in. -/
theorem Accounted.getElem?_ticket (h : Accounted capacity s) {j : Job α} (hj : j ∈ s.received) :
    s.received[j.ticket]? = some j := by
  obtain ⟨i, hi, rfl⟩ := List.mem_iff_getElem.mp hj
  have hticket : (s.received.map Job.ticket)[i]? = some i := by
    rw [h.tickets, List.getElem?_range hi]
  rw [List.getElem?_map, List.getElem?_eq_getElem hi, Option.map_some, Option.some.injEq] at hticket
  rw [hticket, List.getElem?_eq_getElem hi]

/-- A job that is next in the queue was not taken before. -/
theorem Accounted.fresh (h : Accounted capacity s) {j : Job α} {rest : List (Job α)} (hqueue : s.queue = j :: rest) :
    j.ticket ∉ s.started.map Job.ticket := by
  have hnodup := h.tickets_nodup
  rw [← h.split, List.map_append] at hnodup
  intro hmem
  refine (List.nodup_append.mp hnodup).2.2 _ hmem _ ?_ rfl
  rw [hqueue]
  exact List.mem_cons_self

variable [DecidableEq κ] {prog : Program σ α φ ο}

theorem update_cases {f : κ → Option (Job α × φ)} {k k' : κ} {x : Option (Job α × φ)} {y : Job α × φ}
    (h : Function.update f k x k' = some y) : k' = k ∧ x = some y ∨ k' ≠ k ∧ f k' = some y := by
  by_cases hk : k' = k
  · subst hk
    rw [Function.update_self] at h
    exact .inl ⟨rfl, h⟩
  · rw [Function.update_of_ne hk] at h
    exact .inr ⟨hk, h⟩

theorem Accounted.takes (h : Accounted capacity s) {k : κ} {j : Job α} {rest : List (Job α)} (p : φ)
    (hqueue : s.queue = j :: rest) : Accounted capacity { s with
      queue := rest, started := s.started ++ [j], workers := Function.update s.workers k (some (j, p)) } := by
  have hfresh := h.fresh hqueue
  have hother : ∀ k' j' p', s.workers k' = some (j', p') → j'.ticket ≠ j.ticket := fun k' j' p' hk' heq =>
    hfresh (heq ▸ List.mem_map_of_mem (h.taken k' j' p' hk'))
  constructor
  · have hsplit := h.split
    rw [hqueue] at hsplit
    simpa using hsplit
  · exact h.tickets
  · have hbound := h.bounded
    rw [hqueue] at hbound
    exact (Nat.le_succ _).trans hbound
  · intro k' j' p' hk'
    rcases update_cases hk' with ⟨rfl, heq⟩ | ⟨-, hk'⟩
    · cases heq
      exact List.mem_append_right _ List.mem_cons_self
    · exact List.mem_append_left _ (h.taken k' j' p' hk')
  · intro k₁ k₂ j₁ j₂ p₁ p₂ h₁ h₂ hticket
    rcases update_cases h₁ with ⟨rfl, heq₁⟩ | ⟨-, hold₁⟩
    · rcases update_cases h₂ with ⟨rfl, -⟩ | ⟨-, hold₂⟩
      · rfl
      · cases heq₁
        exact absurd hticket.symm (hother k₂ j₂ p₂ hold₂)
    · rcases update_cases h₂ with ⟨rfl, heq₂⟩ | ⟨-, hold₂⟩
      · cases heq₂
        exact absurd hticket (hother k₁ j₁ p₁ hold₁)
      · exact h.alone k₁ k₂ j₁ j₂ p₁ p₂ hold₁ hold₂ hticket
  · intro k' j' p' hk'
    rcases update_cases hk' with ⟨rfl, heq⟩ | ⟨-, hk'⟩
    · cases heq
      exact fun hmem => hfresh (h.emitted _ hmem)
    · exact h.finished k' j' p' hk'
  · intro n hn
    rw [List.map_append]
    exact List.mem_append_left _ (h.emitted n hn)
  · exact h.once

theorem Accounted.works (hlast : prog.EmitsLast) (h : Accounted capacity s) {k : κ} {j : Job α} {p : φ} {shared : σ}
    {next : Option φ} {out : Option ο} (hk : s.workers k = some (j, p))
    (hstep : prog.step s.shared j.data p shared next out) : Accounted capacity { s with
      shared := shared
      workers := Function.update s.workers k (next.map fun q => (j, q))
      emitted := s.emitted ++ (out.map fun x => (j.ticket, x)).toList } := by
  have hsame : ∀ k' j' p', Function.update s.workers k (next.map fun q => (j, q)) k' = some (j', p') →
      ∃ q, s.workers k' = some (j', q) := by
    intro k' j' p' hk'
    rcases update_cases hk' with ⟨rfl, heq⟩ | ⟨-, hk'⟩
    · obtain ⟨q, -, heq⟩ := Option.map_eq_some_iff.mp heq
      cases heq
      exact ⟨p, hk⟩
    · exact ⟨p', hk'⟩
  refine ⟨h.split, h.tickets, h.bounded, ?_, ?_, ?_, ?_, ?_⟩
  · intro k' j' p' hk'
    obtain ⟨q, hq⟩ := hsame k' j' p' hk'
    exact h.taken k' j' q hq
  · intro k₁ k₂ j₁ j₂ p₁ p₂ h₁ h₂ hticket
    obtain ⟨q₁, hq₁⟩ := hsame k₁ j₁ p₁ h₁
    obtain ⟨q₂, hq₂⟩ := hsame k₂ j₂ p₂ h₂
    exact h.alone k₁ k₂ j₁ j₂ q₁ q₂ hq₁ hq₂ hticket
  · intro k' j' p' hk' hmem
    obtain ⟨q, hq⟩ := hsame k' j' p' hk'
    rw [List.map_append, List.mem_append] at hmem
    rcases hmem with hmem | hmem
    · exact h.finished k' j' q hq hmem
    · cases out with
      | none => cases hmem
      | some x =>
          have hticket : j'.ticket = j.ticket := by simpa using hmem
          have heq : k' = k := h.alone k' k j' j q p hq hk hticket
          rcases update_cases hk' with ⟨-, hnext⟩ | ⟨hne, -⟩
          · rw [hlast _ _ _ _ _ _ hstep] at hnext
            cases hnext
          · exact hne heq
  · intro n hn
    rw [List.map_append, List.mem_append] at hn
    rcases hn with hn | hn
    · exact h.emitted n hn
    · cases out with
      | none => cases hn
      | some x =>
          have hticket : n = j.ticket := by simpa using hn
          rw [hticket]
          exact List.mem_map_of_mem (h.taken k j p hk)
  · cases out with
    | none => simpa using h.once
    | some x =>
        have hnew := h.finished k j p hk
        rw [List.map_append]
        refine List.nodup_append.mpr ⟨h.once, List.nodup_singleton _, ?_⟩
        rintro n hn m hm rfl
        rw [List.mem_singleton.mp hm] at hn
        exact hnew hn

theorem Accounted.step (hlast : prog.EmitsLast) {e : PoolEvent α κ} (h : Accounted capacity s)
    (hstep : Step prog capacity s e t) : Accounted capacity t := by
  cases hstep with
  | @receives a hreader =>
      refine { h with split := ?_, tickets := ?_ }
      · have hsplit := h.split
        rw [hreader] at hsplit
        rw [← hsplit]
        simp
      · rw [List.map_append, h.tickets, List.length_append, List.length_singleton, List.range_succ]
        rfl
  | @enqueues j hreader hroom =>
      refine { h with split := ?_, bounded := ?_ }
      · have hsplit := h.split
        rw [hreader] at hsplit
        rw [← hsplit]
        simp
      · rw [List.length_append, List.length_singleton]
        exact hroom
  | takes hidle hqueue => exact h.takes _ hqueue
  | works hk hwork => exact h.works hlast hk hwork
  | outside => exact { h with }

/-- In every interleaving the account is right. -/
theorem accounted_run (hlast : prog.EmitsLast) {start : σ} {hist : List (Pool σ α φ ο κ × PoolEvent α κ)}
    (hrun : Trace (Step prog capacity) (Pool.start start) hist s) : Accounted capacity s :=
  hrun.invariant (fun _ _ _ h hstep => h.step hlast hstep) (accounted_start start)

end Accounts

/-- What every step keeps: of the shared state, of a job in a phase, and of what is put out. All
may depend on which data was taken so far. -/
structure Keeps (prog : Program σ α φ ο) (I : (α → Prop) → σ → Prop) (J : (α → Prop) → α → φ → Prop)
    (R : (α → Prop) → α → ο → Prop) : Prop where
  mono : ∀ {T T' : α → Prop} {s}, (∀ a, T a → T' a) → I T s → I T' s
  mono_job : ∀ {T T' : α → Prop} {a p}, (∀ a, T a → T' a) → J T a p → J T' a p
  mono_out : ∀ {T T' : α → Prop} {a x}, (∀ a, T a → T' a) → R T a x → R T' a x
  first : ∀ T a, J T a prog.first
  step : ∀ {T : α → Prop} {s a p s' next out}, I T s → T a → J T a p → prog.step s a p s' next out →
    I T s' ∧ (∀ q ∈ next, J T a q) ∧ ∀ x ∈ out, R T a x
  outside : ∀ {T : α → Prop} {s s'}, I T s → prog.outside s s' → I T s'

/-- What holds of a pool by such rules. -/
structure Kept (I : (α → Prop) → σ → Prop) (J : (α → Prop) → α → φ → Prop) (R : (α → Prop) → α → ο → Prop)
    (s : Pool σ α φ ο κ) : Prop where
  shared : I s.Taken s.shared
  atWork : ∀ k j p, s.workers k = some (j, p) → j ∈ s.started ∧ J s.Taken j.data p
  emitted : ∀ x ∈ s.emitted, ∃ j ∈ s.started, j.ticket = x.1 ∧ R s.Taken j.data x.2

section Invariants
variable {capacity : Nat} {s t : Pool σ α φ ο κ} {prog : Program σ α φ ο} {I : (α → Prop) → σ → Prop}
  {J : (α → Prop) → α → φ → Prop} {R : (α → Prop) → α → ο → Prop}

theorem Keeps.start (h : Keeps prog I J R) {start : σ} (hstart : I (fun _ => False) start) :
    Kept I J R (Pool.start start : Pool σ α φ ο κ) := ⟨h.mono (fun _ => False.elim) hstart, nofun, nofun⟩

variable [DecidableEq κ]

theorem Keeps.pool_step (h : Keeps prog I J R) {e : PoolEvent α κ} (hs : Kept I J R s)
    (hstep : Step prog capacity s e t) : Kept I J R t := by
  cases hstep with
  | receives => exact { hs with }
  | enqueues => exact { hs with }
  | @takes k j rest hidle hqueue =>
      have htaken : ∀ a, s.Taken a → Pool.Taken { s with
          queue := rest, started := s.started ++ [j], workers := Function.update s.workers k (some (j, prog.first)) } a := by
        rintro a ⟨j', hj', rfl⟩
        exact ⟨j', List.mem_append_left _ hj', rfl⟩
      refine ⟨h.mono htaken hs.shared, ?_, ?_⟩
      · intro k' j' p' hk'
        rcases update_cases hk' with ⟨-, heq⟩ | ⟨-, hold⟩
        · cases heq
          exact ⟨List.mem_append_right _ List.mem_cons_self, h.first _ _⟩
        · obtain ⟨hj', hJ⟩ := hs.atWork k' j' p' hold
          exact ⟨List.mem_append_left _ hj', h.mono_job htaken hJ⟩
      · intro x hx
        obtain ⟨j', hj', hticket, hR⟩ := hs.emitted x hx
        exact ⟨j', List.mem_append_left _ hj', hticket, h.mono_out htaken hR⟩
  | @works k j p shared next out hk hwork =>
      obtain ⟨hj, hJ⟩ := hs.atWork k j p hk
      obtain ⟨hshared, hnext, hout⟩ := h.step hs.shared ⟨j, hj, rfl⟩ hJ hwork
      refine ⟨hshared, ?_, ?_⟩
      · intro k' j' p' hk'
        rcases update_cases hk' with ⟨-, heq⟩ | ⟨-, hold⟩
        · obtain ⟨q, hq, heq⟩ := Option.map_eq_some_iff.mp heq
          cases heq
          exact ⟨hj, hnext _ hq⟩
        · exact hs.atWork k' j' p' hold
      · intro x hx
        rcases List.mem_append.mp hx with hx | hx
        · exact hs.emitted x hx
        · obtain ⟨y, hy, heq⟩ := Option.map_eq_some_iff.mp (Option.mem_toList.mp hx)
          cases heq
          exact ⟨j, hj, rfl, hout y hy⟩
  | outside houtside => exact ⟨h.outside hs.shared houtside, hs.atWork, hs.emitted⟩

theorem Keeps.run (h : Keeps prog I J R) {start : σ} (hstart : I (fun _ => False) start)
    {hist : List (Pool σ α φ ο κ × PoolEvent α κ)} (hrun : Trace (Step prog capacity) (Pool.start start) hist s) :
    Kept I J R s :=
  hrun.invariant (fun _ _ _ hs hstep => h.pool_step hs hstep) (h.start hstart)

end Invariants

/-- While the shared state is in `B`, a job in a phase of `H` stays in one and puts nothing out, and
so does one whose data is in `C` from its start on. A phase outside `M` does not lead into `M`, and
outputs of `Q` come from `M` only. -/
structure Jams (prog : Program σ α φ ο) (B : σ → Prop) (H : α → φ → Prop) : Prop where
  step : ∀ {s a p s' next out}, B s → prog.step s a p s' next out → B s'
  outside : ∀ {s s'}, B s → prog.outside s s' → B s'
  held : ∀ {s a p s' next out}, B s → H a p → prog.step s a p s' next out → (∃ q, next = some q ∧ H a q) ∧ out = none

structure Drains (prog : Program σ α φ ο) (B : σ → Prop) (M : α → φ → Prop) (Q : ο → Bool) : Prop where
  first : ∀ a, ¬ M a prog.first
  step : ∀ {s a p s' q out}, B s → prog.step s a p s' (some q) out → M a q → M a p
  emits : ∀ {s a p s' next x}, B s → prog.step s a p s' next (some x) → Q x = true → M a p ∧ next = none

section Stuck
variable [Fintype κ] {capacity : Nat} {s t : Pool σ α φ ο κ} {prog : Program σ α φ ο} {B : σ → Prop}
  {H M : α → φ → Prop} {Q : ο → Bool} {hist : List (Pool σ α φ ο κ × PoolEvent α κ)}

open Classical in
/-- The workers whose job is in one of these phases. -/
noncomputable def Pool.heldBy (s : Pool σ α φ ο κ) (H : α → φ → Prop) : Finset κ :=
  Finset.univ.filter fun k => ∃ j p, s.workers k = some (j, p) ∧ H j.data p

theorem Pool.mem_heldBy {k : κ} : k ∈ s.heldBy H ↔ ∃ j p, s.workers k = some (j, p) ∧ H j.data p := by
  simp [heldBy]

theorem Pool.heldBy_congr (h : t.workers = s.workers) : t.heldBy H = s.heldBy H := by
  ext k
  simp only [mem_heldBy, h]

variable [DecidableEq κ]

omit [Fintype κ] in
theorem Jams.shared_step (h : Jams prog B H) {e : PoolEvent α κ} (hB : B s.shared)
    (hstep : Step prog capacity s e t) : B t.shared := by
  cases hstep with
  | receives => exact hB
  | enqueues => exact hB
  | takes => exact hB
  | works _ hwork => exact h.step hB hwork
  | outside houtside => exact h.outside hB houtside

omit [Fintype κ] in
theorem Jams.shared_run (h : Jams prog B H) (hB : B s.shared) (hrun : Trace (Step prog capacity) s hist t) : B t.shared :=
  hrun.invariant (I := fun u => B u.shared) (fun _ _ _ hB hstep => h.shared_step hB hstep) hB

open Classical in
/-- A worker that is held stays so, and each new job of the kind holds one more. -/
theorem Jams.held_step (h : Jams prog B H) {e : PoolEvent α κ} (hB : B s.shared) (hstep : Step prog capacity s e t) :
    ∃ new, t.started = s.started ++ new ∧
      (new.countP fun j => H j.data prog.first) + (s.heldBy H).card ≤ (t.heldBy H).card := by
  have hsame : ∀ t : Pool σ α φ ο κ, t.workers = s.workers → (s.heldBy H).card ≤ (t.heldBy H).card := fun t ht =>
    (congrArg Finset.card (Pool.heldBy_congr ht)).ge
  cases hstep with
  | receives => exact ⟨[], (List.append_nil _).symm, by rw [List.countP_nil, Nat.zero_add]; exact hsame _ rfl⟩
  | enqueues => exact ⟨[], (List.append_nil _).symm, by rw [List.countP_nil, Nat.zero_add]; exact hsame _ rfl⟩
  | outside => exact ⟨[], (List.append_nil _).symm, by rw [List.countP_nil, Nat.zero_add]; exact hsame _ rfl⟩
  | @takes k j rest hidle hqueue =>
      refine ⟨[j], rfl, ?_⟩
      have hnot : k ∉ s.heldBy H := by
        intro hk
        obtain ⟨_, _, hk, -⟩ := Pool.mem_heldBy.mp hk
        rw [hidle] at hk
        cases hk
      have hkept : ∀ k' ∈ s.heldBy H, k' ≠ k ∧ ∃ j' p', s.workers k' = some (j', p') ∧ H j'.data p' := fun k' hk' =>
        ⟨fun heq => hnot (heq ▸ hk'), Pool.mem_heldBy.mp hk'⟩
      rw [List.countP_singleton]
      split_ifs with hfirst
      · rw [Nat.add_comm, ← Finset.card_insert_of_notMem hnot]
        refine Finset.card_le_card fun k' hk' => Pool.mem_heldBy.mpr ?_
        rcases Finset.mem_insert.mp hk' with rfl | hk'
        · exact ⟨j, prog.first, Function.update_self .., of_decide_eq_true hfirst⟩
        · obtain ⟨hne, j', p', hj', hH⟩ := hkept k' hk'
          exact ⟨j', p', (Function.update_of_ne hne ..).trans hj', hH⟩
      · rw [Nat.zero_add]
        refine Finset.card_le_card fun k' hk' => Pool.mem_heldBy.mpr ?_
        obtain ⟨hne, j', p', hj', hH⟩ := hkept k' hk'
        exact ⟨j', p', (Function.update_of_ne hne ..).trans hj', hH⟩
  | @works k j p shared next out hk hwork =>
      refine ⟨[], (List.append_nil _).symm, ?_⟩
      rw [List.countP_nil, Nat.zero_add]
      refine Finset.card_le_card fun k' hk' => Pool.mem_heldBy.mpr ?_
      obtain ⟨j', p', hj', hH⟩ := Pool.mem_heldBy.mp hk'
      by_cases hne : k' = k
      · subst hne
        cases hk.symm.trans hj'
        obtain ⟨⟨q, hq, hH'⟩, -⟩ := h.held hB hH hwork
        exact ⟨j, q, (Function.update_self ..).trans (by rw [hq]; rfl), hH'⟩
      · exact ⟨j', p', (Function.update_of_ne hne ..).trans hj', hH⟩

open Classical in
theorem Jams.held_run (h : Jams prog B H) (hB : B s.shared) (hrun : Trace (Step prog capacity) s hist t) :
    ∃ new, t.started = s.started ++ new ∧
      (new.countP fun j => H j.data prog.first) + (s.heldBy H).card ≤ (t.heldBy H).card := by
  induction hrun with
  | start => exact ⟨[], (List.append_nil _).symm, by rw [List.countP_nil, Nat.zero_add]⟩
  | next hrun hstep ih =>
      obtain ⟨new, hnew, hcount⟩ := ih
      obtain ⟨more, hmore, hcount'⟩ := h.held_step (h.shared_run hB hrun) hstep
      refine ⟨new ++ more, by rw [hmore, hnew, List.append_assoc], ?_⟩
      rw [List.countP_append]
      omega

/-- With all workers held, no job is taken and nothing is put out any more. -/
theorem Jams.frozen (h : Jams prog B H) (hB : B s.shared) (hall : ∀ k, k ∈ s.heldBy H)
    (hrun : Trace (Step prog capacity) s hist t) :
    t.started = s.started ∧ t.emitted = s.emitted ∧ ∀ k, k ∈ t.heldBy H := by
  induction hrun with
  | start => exact ⟨rfl, rfl, hall⟩
  | @next hist t u e hrun hstep ih =>
      obtain ⟨hstarted, hemitted, hheld⟩ := ih
      have hBt := h.shared_run hB hrun
      cases hstep with
      | receives => exact ⟨hstarted, hemitted, hheld⟩
      | enqueues => exact ⟨hstarted, hemitted, hheld⟩
      | outside => exact ⟨hstarted, hemitted, hheld⟩
      | @takes k j rest hidle hqueue =>
          obtain ⟨_, _, hk, -⟩ := Pool.mem_heldBy.mp (hheld k)
          rw [hidle] at hk
          cases hk
      | @works k j p shared next out hk hwork =>
          obtain ⟨_, _, hk', hH⟩ := Pool.mem_heldBy.mp (hheld k)
          cases hk.symm.trans hk'
          obtain ⟨⟨q, rfl, hH'⟩, rfl⟩ := h.held hBt hH hwork
          refine ⟨hstarted, (List.append_nil _).trans hemitted, fun k' => Pool.mem_heldBy.mpr ?_⟩
          by_cases hne : k' = k
          · subst hne
            exact ⟨j, q, Function.update_self .., hH'⟩
          · obtain ⟨j', p', hj', hH''⟩ := Pool.mem_heldBy.mp (hheld k')
            exact ⟨j', p', (Function.update_of_ne hne ..).trans hj', hH''⟩

/-- An output of the kind ends the job of a worker that could still make one. -/
theorem Drains.step_le (h : Drains prog B M Q) {e : PoolEvent α κ} (hB : B s.shared) (hstep : Step prog capacity s e t) :
    (t.emitted.countP fun x => Q x.2) + (t.heldBy M).card ≤ (s.emitted.countP fun x => Q x.2) + (s.heldBy M).card := by
  have hsame : ∀ t : Pool σ α φ ο κ, t.workers = s.workers → t.emitted = s.emitted →
      (t.emitted.countP fun x => Q x.2) + (t.heldBy M).card ≤ (s.emitted.countP fun x => Q x.2) + (s.heldBy M).card := by
    intro t hworkers hemitted
    rw [hemitted, Pool.heldBy_congr hworkers]
  cases hstep with
  | receives => exact hsame _ rfl rfl
  | enqueues => exact hsame _ rfl rfl
  | outside => exact hsame _ rfl rfl
  | @takes k j rest hidle hqueue =>
      refine Nat.add_le_add_left (Finset.card_le_card fun k' hk' => ?_) _
      obtain ⟨j', p', hj', hM⟩ := Pool.mem_heldBy.mp hk'
      rcases update_cases hj' with ⟨-, heq⟩ | ⟨-, hold⟩
      · cases heq
        exact absurd hM (h.first _)
      · exact Pool.mem_heldBy.mpr ⟨j', p', hold, hM⟩
  | @works k j p shared next out hk hwork =>
      -- whoever could still put out could do so before
      have hsubset : ∀ k' ∈ Pool.heldBy { s with
          shared := shared
          workers := Function.update s.workers k (next.map fun q => (j, q))
          emitted := s.emitted ++ (out.map fun x => (j.ticket, x)).toList } M, k' ∈ s.heldBy M := by
        intro k' hk'
        obtain ⟨j', p', hj', hM⟩ := Pool.mem_heldBy.mp hk'
        rcases update_cases hj' with ⟨rfl, heq⟩ | ⟨-, hold⟩
        · obtain ⟨q, rfl, heq⟩ := Option.map_eq_some_iff.mp heq
          cases heq
          exact Pool.mem_heldBy.mpr ⟨j, p, hk, h.step hB hwork hM⟩
        · exact Pool.mem_heldBy.mpr ⟨j', p', hold, hM⟩
      by_cases hout : ∃ x, out = some x ∧ Q x = true
      · obtain ⟨x, rfl, hQ⟩ := hout
        obtain ⟨hM, rfl⟩ := h.emits hB hwork hQ
        have hmem : k ∈ s.heldBy M := Pool.mem_heldBy.mpr ⟨j, p, hk, hM⟩
        have hless : ∀ k' ∈ Pool.heldBy { s with
            shared := shared
            workers := Function.update s.workers k none
            emitted := s.emitted ++ [(j.ticket, x)] } M, k' ∈ (s.heldBy M).erase k := by
          intro k' hk'
          refine Finset.mem_erase.mpr ⟨?_, hsubset k' hk'⟩
          rintro rfl
          obtain ⟨j', p', hj', -⟩ := Pool.mem_heldBy.mp hk'
          rcases update_cases hj' with ⟨-, heq⟩ | ⟨hne, -⟩
          · cases heq
          · exact hne rfl
        have hcard := Finset.card_le_card hless
        have hpos := Finset.card_pos.mpr ⟨k, hmem⟩
        rw [Finset.card_erase_of_mem hmem] at hcard
        have hcount : ((s.emitted ++ [(j.ticket, x)]).countP fun x => Q x.2) = (s.emitted.countP fun x => Q x.2) + 1 := by
          rw [List.countP_append, List.countP_singleton, if_pos hQ]
        refine (Nat.add_le_add_left hcard _).trans ?_
        change ((s.emitted ++ [(j.ticket, x)]).countP fun x => Q x.2) + _ ≤ _
        rw [hcount]
        omega
      · have hcount : ((s.emitted ++ (out.map fun x => (j.ticket, x)).toList).countP fun x => Q x.2) =
            s.emitted.countP fun x => Q x.2 := by
          cases out with
          | none => rw [Option.map_none, Option.toList_none, List.append_nil]
          | some x =>
              have hQ : ¬ Q x = true := fun hQ => hout ⟨x, rfl, hQ⟩
              rw [Option.map_some, Option.toList_some, List.countP_append, List.countP_singleton, if_neg hQ]
              rfl
        change ((s.emitted ++ (out.map fun x => (j.ticket, x)).toList).countP fun x => Q x.2) + _ ≤ _
        rw [hcount]
        exact Nat.add_le_add_left (Finset.card_le_card hsubset) _

/-- The workers that could still make an output of the kind make one each at most, ever. -/
theorem Drains.run_le (h : Drains prog B M Q) (hjams : Jams prog B H) (hB : B s.shared)
    (hrun : Trace (Step prog capacity) s hist t) :
    (t.emitted.countP fun x => Q x.2) + (t.heldBy M).card ≤ (s.emitted.countP fun x => Q x.2) + (s.heldBy M).card := by
  induction hrun with
  | start => exact Nat.le_refl _
  | next hrun hstep ih => exact (h.step_le (hjams.shared_run hB hrun) hstep).trans ih

end Stuck

/-- The steps of the reader and the workers; nothing new comes in and nobody else is at work. -/
inductive PoolEvent.Internal : PoolEvent α κ → Prop
  | enqueues : Internal .enqueues
  | takes (k : κ) : Internal (.takes k)
  | works (k : κ) : Internal (.works k)

/-- `rank p` more steps end a job in phase `p` after its next one. -/
def Program.Ranked (prog : Program σ α φ ο) (rank : φ → Nat) : Prop :=
  ∀ {s a p s' q out}, prog.step s a p s' (some q) out → rank q < rank p

section Progress
variable [Fintype κ] [DecidableEq κ] {capacity : Nat} {s t : Pool σ α φ ο κ} {prog : Program σ α φ ο} {rank : φ → Nat}
  {hist : List (Pool σ α φ ο κ × PoolEvent α κ)}

def jobWork (rank : φ → Nat) : Option (Job α × φ) → Nat
  | none => 0
  | some (_, p) => rank p + 1

/-- The steps that are left for what came in, if every job takes as many as it can. -/
def Pool.work (prog : Program σ α φ ο) (rank : φ → Nat) (s : Pool σ α φ ο κ) : Nat :=
  (rank prog.first + 3) * s.reader.toList.length + (rank prog.first + 2) * s.queue.length + ∑ k, jobWork rank (s.workers k)

/-- The jobs that came in and are not over. -/
def Pool.unfinished (s : Pool σ α φ ο κ) : Nat :=
  s.reader.toList.length + s.queue.length + (Finset.univ.filter fun k => (s.workers k).isSome).card

omit [DecidableEq κ] in
theorem work_le_unfinished (s : Pool σ α φ ο κ) (hfirst : ∀ p, rank p ≤ rank prog.first) :
    s.work prog rank ≤ (rank prog.first + 3) * s.unfinished := by
  have hsum : ∑ k, jobWork rank (s.workers k) ≤ ∑ k, if (s.workers k).isSome then rank prog.first + 1 else 0 := by
    refine Finset.sum_le_sum fun k _ => ?_
    cases s.workers k with
    | none => exact Nat.zero_le _
    | some jp => exact Nat.succ_le_succ (hfirst jp.2)
  rw [← Finset.sum_filter, Finset.sum_const, Nat.nsmul_eq_mul, Nat.mul_comm] at hsum
  unfold Pool.work Pool.unfinished
  rw [Nat.mul_add, Nat.mul_add]
  have hqueue : (rank prog.first + 2) * s.queue.length ≤ (rank prog.first + 3) * s.queue.length :=
    Nat.mul_le_mul_right _ (Nat.le_succ _)
  have hbusy := Nat.mul_le_mul_right (Finset.univ.filter fun k => (s.workers k).isSome).card
    (Nat.add_le_add_left (by decide : 1 ≤ 3) (rank prog.first))
  omega

theorem sum_update_add (rank : φ → Nat) (f : κ → Option (Job α × φ)) (k : κ) (x : Option (Job α × φ)) :
    (∑ k', jobWork rank (Function.update f k x k')) + jobWork rank (f k) = (∑ k', jobWork rank (f k')) + jobWork rank x := by
  rw [← Finset.add_sum_erase Finset.univ _ (Finset.mem_univ k), ← Finset.add_sum_erase Finset.univ _ (Finset.mem_univ k),
    Function.update_self]
  have hrest : ∑ k' ∈ Finset.univ.erase k, jobWork rank (Function.update f k x k') =
      ∑ k' ∈ Finset.univ.erase k, jobWork rank (f k') := by
    refine Finset.sum_congr rfl fun k' hk' => ?_
    rw [Function.update_of_ne (Finset.ne_of_mem_erase hk')]
  omega

theorem work_step (hrank : prog.Ranked rank) {e : PoolEvent α κ} (he : e.Internal) (hstep : Step prog capacity s e t) :
    t.work prog rank < s.work prog rank := by
  cases hstep with
  | receives => cases he
  | outside => cases he
  | @enqueues j hreader hroom =>
      simp only [Pool.work, hreader, Option.toList_none, Option.toList_some, List.length_nil, List.length_singleton,
        List.length_append]
      rw [Nat.mul_add]
      omega
  | @takes k j rest hidle hqueue =>
      have hsum := sum_update_add rank s.workers k (some (j, prog.first))
      rw [hidle] at hsum
      change _ + 0 = _ + (rank prog.first + 1) at hsum
      simp only [Pool.work, hqueue, List.length_cons, Nat.mul_add]
      omega
  | @works k j p shared next out hk hwork =>
      have hsum := sum_update_add rank s.workers k (next.map fun q => (j, q))
      have hless : jobWork rank (next.map fun q => (j, q)) < jobWork rank (s.workers k) := by
        rw [hk]
        cases next with
        | none => exact Nat.succ_pos _
        | some q => exact Nat.succ_lt_succ (hrank hwork)
      simp only [Pool.work]
      omega

theorem work_run (hrank : prog.Ranked rank) (hinternal : ∀ p ∈ hist, p.2.Internal) (hrun : Trace (Step prog capacity) s hist t) :
    hist.length + t.work prog rank ≤ s.work prog rank := by
  induction hrun with
  | start => exact (Nat.zero_add _).le
  | next hrun hstep ih =>
      have hbefore := ih fun p hp => hinternal p (List.mem_append_left _ hp)
      have hlast := work_step hrank (hinternal _ (List.mem_append_right _ List.mem_cons_self)) hstep
      rw [List.length_append, List.length_singleton]
      omega

omit [Fintype κ] in
/-- Where the reader and the workers cannot go on and every job can take its next step, nothing is left. -/
theorem idle_of_no_step [Nonempty κ] (hcapacity : 0 < capacity) (hno : ∀ e u, e.Internal → ¬ Step prog capacity s e u)
    (hready : ∀ k j p, s.workers k = some (j, p) → ∃ s' next out, prog.step s.shared j.data p s' next out) :
    s.reader = none ∧ s.queue = [] ∧ ∀ k, s.workers k = none := by
  have hworkers : ∀ k, s.workers k = none := by
    intro k
    cases hk : s.workers k with
    | none => rfl
    | some jp =>
        obtain ⟨s', next, out, hstep⟩ := hready k jp.1 jp.2 hk
        exact absurd (.works hk hstep) (hno _ _ (.works k))
  have hqueue : s.queue = [] := by
    cases hq : s.queue with
    | nil => rfl
    | cons j rest =>
        obtain ⟨k⟩ := ‹Nonempty κ›
        exact absurd (.takes (hworkers k) hq) (hno _ _ (.takes k))
  refine ⟨?_, hqueue, hworkers⟩
  cases hreader : s.reader with
  | none => rfl
  | some j =>
      have hroom : s.queue.length < capacity := by
        rw [hqueue]
        exact hcapacity
      exact absurd (.enqueues hreader hroom) (hno _ _ .enqueues)

end Progress

end WorkQueue
