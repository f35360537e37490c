import P2PFilesystem.RequestMap

/-!
# The senders of waiting calls

`send_request_and_wait` returns `BadResponse` when the oneshot sender of the call is dropped
without a response. While a call waits its sender is in the map, with one worker, or used up
for the response in the channel, so with unique request ids this never happens.
-/
namespace P2PFilesystem
open Traces

namespace Correlator
variable {ι κ : Type*} {ids : ι → RequestId} {s s' : Correlator ι κ}

/-- Where the sender of a call is. -/
inductive SenderAt (ids : ι → RequestId) (s : Correlator ι κ) (c : ι) : Prop
  | mapped : s.map.lookup (ids c) = some c → SenderAt ids s c
  | held {k : κ} {d : Delivery} : s.workers k = .holding d c → SenderAt ids s c
  | used {d : Delivery} : s.channels c = some d → SenderAt ids s c

/-- The sender of every call that still listens is somewhere, and no call had to do without. -/
structure SendersKept (ids : ι → RequestId) (s : Correlator ι κ) : Prop where
  kept : ∀ c, (s.calls c).receiverAlive = true → SenderAt ids s c
  answered : ∀ c, s.calls c ≠ .returned (.error .badResponse)

theorem sendersKept_new : SendersKept ids (new : Correlator ι κ) := ⟨nofun, nofun⟩

section Steps
variable [DecidableEq ι] [DecidableEq κ]

omit [DecidableEq κ] in
theorem calls_setCall (s : Correlator ι κ) (c c' : ι) (x : CallState) :
    (s.setCall c x).calls c' = x ∧ c' = c ∨ (s.setCall c x).calls c' = s.calls c' ∧ c' ≠ c := by
  unfold setCall
  by_cases hc : c' = c
  · subst hc
    exact .inl ⟨Function.update_self .., rfl⟩
  · exact .inr ⟨Function.update_of_ne hc .., hc⟩

omit [DecidableEq κ] in
/-- One call moves on. Its sender stays where it is while it listens, and no other call had its
sender where something is taken away. -/
theorem SendersKept.setCall (h : s.SendersKept ids) {c : ι} {x : CallState} {map : RequestMap ι}
    (hx : x ≠ .returned (.error .badResponse)) (hc : x.receiverAlive = true → SenderAt ids { s with map := map } c)
    (hmap : ∀ c', c' ≠ c → s.map.lookup (ids c') = some c' → map.lookup (ids c') = some c') :
    SendersKept ids { s.setCall c x with map := map } := by
  constructor
  · intro c' halive
    change ((s.setCall c x).calls c').receiverAlive = true at halive
    rcases calls_setCall s c c' x with ⟨heq, rfl⟩ | ⟨heq, hne⟩
    · rw [heq] at halive
      cases hc halive with
      | mapped hl => exact .mapped hl
      | held hk => exact .held hk
      | used hd => exact .used hd
    · rw [heq] at halive
      cases h.kept c' halive with
      | mapped hl => exact .mapped (hmap c' hne hl)
      | held hk => exact .held hk
      | used hd => exact .used hd
  · intro c'
    change (s.setCall c x).calls c' ≠ _
    rcases calls_setCall s c c' x with ⟨heq, -⟩ | ⟨heq, -⟩
    · rw [heq]
      exact hx
    · rw [heq]
      exact h.answered c'

omit [DecidableEq ι] in
/-- A worker without a sender moves on, with the sender of the entry it removes if there is one. -/
theorem SendersKept.setWorker (h : s.SendersKept ids) {k : κ} {w : WorkerState ι} {map : RequestMap ι}
    (hk : ∀ d c, s.workers k ≠ .holding d c)
    (hmap : ∀ c, s.map.lookup (ids c) = some c → map.lookup (ids c) = some c ∨ ∃ d, w = .holding d c) :
    SendersKept ids { s.setWorker k w with map := map } := by
  refine ⟨fun c halive => ?_, h.answered⟩
  cases h.kept c halive with
  | mapped hl =>
      rcases hmap c hl with hl | ⟨d, rfl⟩
      · exact .mapped hl
      · exact .held (k := k) (d := d) (Function.update_self ..)
  | @held k' d hk' =>
      have hne : k' ≠ k := by
        rintro rfl
        exact hk d c hk'
      exact .held (k := k') (d := d) ((Function.update_of_ne hne ..).trans hk')
  | used hd => exact .used hd

/-- The response goes into the channel if anybody listens to it. -/
theorem SendersKept.deliver (h : s.SendersKept ids) {k : κ} {d : Delivery} {c : ι} (hk : s.workers k = .holding d c) :
    SendersKept ids ((s.deliver c d).setWorker k .idle) := by
  have hother : ∀ {c' k' d'}, c' ≠ c → s.workers k' = .holding d' c' →
      Function.update s.workers k .idle k' = .holding d' c' := by
    intro c' k' d' hne hk'
    have hk'k : k' ≠ k := by
      rintro rfl
      exact hne (WorkerState.holding.inj (hk'.symm.trans hk)).2
    exact (Function.update_of_ne hk'k ..).trans hk'
  unfold Correlator.deliver
  by_cases halive : (s.calls c).receiverAlive = true
  · rw [if_pos halive]
    refine ⟨fun c' halive' => ?_, h.answered⟩
    by_cases hne : c' = c
    · subst hne
      exact .used (d := d) (Function.update_self ..)
    · cases h.kept c' halive' with
      | mapped hl => exact .mapped hl
      | held hk' => exact .held (hother hne hk')
      | used hd => exact .used ((Function.update_of_ne hne ..).trans hd)
  · rw [if_neg halive]
    refine ⟨fun c' halive' => ?_, h.answered⟩
    have hne : c' ≠ c := by
      rintro rfl
      exact halive halive'
    cases h.kept c' halive' with
    | mapped hl => exact .mapped hl
    | held hk' => exact .held (hother hne hk')
    | used hd => exact .used hd

theorem SendersKept.step (hids : Function.Injective ids) {e : CorrelatorEvent ι κ} (h : s.SendersKept ids)
    (hstep : CorrelatorStep ids s e s') : s'.SendersKept ids := by
  have hsame : ∀ c c', c' ≠ c → s.map.lookup (ids c') = some c' → s.map.lookup (ids c') = some c' := fun _ _ _ => id
  have herase : ∀ c c', c' ≠ c → s.map.lookup (ids c') = some c' → (s.map.erase (ids c)).lookup (ids c') = some c' := by
    intro c c' hne hl
    rw [AList.lookup_erase_ne (hids.ne hne)]
    exact hl
  have hstays : ∀ c, (s.calls c).receiverAlive = true → SenderAt ids { s with map := s.map } c := h.kept
  cases hstep with
  | @addRequest c hc =>
      refine h.setCall nofun (fun _ => .mapped (AList.lookup_insert ..)) fun c' hne hl => ?_
      exact (AList.lookup_insert_ne (hids.ne hne)).trans hl
  | @sent c hc => exact h.setCall nofun (fun _ => hstays c (by rw [hc]; rfl)) (hsame c)
  | @sendFails c hc => exact h.setCall nofun (fun _ => hstays c (by rw [hc]; rfl)) (hsame c)
  | @removeUnsent c hc => exact h.setCall nofun nofun (herase c)
  | @receives c d hc hd => exact h.setCall nofun nofun (hsame c)
  | @senderDropped c hc hempty hmap hheld =>
      have halive : (s.calls c).receiverAlive = true := by rw [hc]; rfl
      cases h.kept c halive with
      | mapped hl => exact absurd hl (hmap _)
      | held hk => exact absurd hk (hheld _ _)
      | used hd => cases hempty.symm.trans hd
  | @timesOut c hc => exact h.setCall nofun nofun (hsame c)
  | @removeTimedOut c hc => exact h.setCall nofun nofun (herase c)
  | @arrives k r hk =>
      have hnext : SendersKept ids { s.setWorker k (.checking ⟨s.arrivals, r⟩) with map := s.map } :=
        h.setWorker (by rw [hk]; nofun) fun _ hl => .inl hl
      refine ⟨fun c halive => ?_, hnext.answered⟩
      cases hnext.kept c halive with
      | mapped hl => exact .mapped hl
      | held hk' => exact .held hk'
      | used hd => exact .used hd
  | @contains k d hk => exact h.setWorker (by rw [hk]; nofun) fun _ hl => .inl hl
  | @take k d hk =>
      refine h.setWorker (by rw [hk]; nofun) fun c hl => ?_
      by_cases hid : ids c = d.response.requestId
      · refine .inr ⟨d, ?_⟩
        have htaken : (s.map.takeRequest d.response.requestId).1 = some c := by
          rw [← hid]
          exact hl
        rw [htaken]
      · exact .inl ((AList.lookup_erase_ne hid).trans hl)
  | send hk => exact h.deliver hk

end Steps
end Correlator

open Correlator

/-- Calls with distinct request ids and any workers, in any order of their steps. While a call
listens its sender is in exactly one place: in the map under the call's id, with one worker, or
used up for a response with that id in the channel. No call is told that its sender was dropped,
and the map has entries of pending calls only. -/
theorem sender_in_one_place {ι κ : Type*} [DecidableEq ι] [DecidableEq κ] {ids : ι → RequestId}
    (hids : Function.Injective ids) {hist : List (Correlator ι κ × CorrelatorEvent ι κ)} {s : Correlator ι κ}
    (hrun : Trace (CorrelatorStep ids) new hist s) :
    (∀ c, (s.calls c).receiverAlive = true →
      s.map.lookup (ids c) = some c ∧ (∀ k d, s.workers k ≠ .holding d c) ∧ s.channels c = none ∨
      s.map.lookup (ids c) = none ∧ (∃! k, ∃ d, s.workers k = .holding d c) ∧ s.channels c = none ∨
      s.map.lookup (ids c) = none ∧ (∀ k d, s.workers k ≠ .holding d c) ∧
        ∃ d, s.channels c = some d ∧ d.response.requestId = ids c) ∧
    (∀ c, s.calls c ≠ .returned (.error .badResponse)) ∧
    ∀ id c, s.map.lookup id = some c → id = ids c ∧ (s.calls c).Pending := by
  have hkept : s.SendersKept ids := hrun.invariant (fun _ _ _ h hstep => h.step hids hstep) sendersKept_new
  have hcorrelates : s.Correlates ids := hrun.invariant (fun _ _ _ h hstep => h.step hids hstep) correlates_new
  have hsender := hcorrelates.sender
  have hunused : ∀ {c}, c ∉ s.served → s.channels c = none := by
    intro c hc
    cases hd : s.channels c with
    | none => rfl
    | some d => exact absurd (mem_served.mpr ⟨d, hsender.received hd⟩) hc
  refine ⟨fun c halive => ?_, hkept.answered, fun id c hl => ⟨hsender.mapped_id hl, hsender.mapped_pending hl⟩⟩
  cases hkept.kept c halive with
  | mapped hl => exact .inl ⟨hl, hsender.mapped_unheld hl, hunused (hsender.mapped_unserved hl)⟩
  | @held k d hk =>
      refine .inr (.inl ⟨hsender.lookup_ids hids fun id hl => hsender.mapped_unheld hl k d hk, ⟨k, ⟨d, hk⟩, ?_⟩,
        hunused (hsender.held_unserved hk)⟩)
      rintro k' ⟨d', hk'⟩
      exact hsender.held_once hk' hk
  | @used d hd =>
      have hmem := hsender.received hd
      refine .inr (.inr ⟨hsender.lookup_of_served hids hmem, fun k d' hk => ?_, d, hd, hsender.served_id hmem⟩)
      exact hsender.held_unserved hk (mem_served.mpr ⟨d, hmem⟩)

/-- A worker has taken the sender of a call that listens, and has not sent yet. -/
theorem sender_in_one_place_held : Function.Injective twoIds ∧ ∃ (hist : _) (s : Correlator Bool Bool),
    Trace (CorrelatorStep twoIds) new hist s ∧ s.calls false = .waiting ∧ s.map.lookup (twoIds false) = none ∧
    s.channels false = none ∧ ∀ c, s.calls c ≠ .returned (.error .badResponse) := by
  have hids : Function.Injective twoIds := by decide
  have hasked : Trace (CorrelatorStep twoIds) (new : Correlator Bool Bool) _ _ :=
    .next (.next .start (.addRequest (c := false) rfl)) (.sent (c := false) rfl)
  have hrun := ((hasked.next (.arrives (k := true) (r := firstPong) rfl)).next (.contains (k := true) rfl)).next
    (.take (k := true) rfl)
  exact ⟨hids, _, _, hrun, rfl, rfl, rfl, (sender_in_one_place hids hrun).2.1⟩

end P2PFilesystem
