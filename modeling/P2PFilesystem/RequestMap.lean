import P2PFilesystem.RoutingTable
import P2PFilesystem.Messages
import P2PFilesystem.Traces
import Mathlib.Data.List.AList

/-!
# Matching responses to requests

`networking/request_map.rs` and `Node::send_request_and_wait`. Calls and workers take their
steps in any order. A worker checks the map, takes the sender out of it and sends on it in
three steps, and a call may give up between any two of them.
-/
namespace P2PFilesystem
open Traces

/-- The pending requests. A oneshot sender is named by the call whose channel it belongs to. -/
abbrev RequestMap (ι : Type*) := AList fun _ : RequestId => ι

namespace RequestMap
variable {ι : Type*}

def addRequest (self : RequestMap ι) (requestId : RequestId) (sender : ι) : RequestMap ι := self.insert requestId sender

def takeRequest (self : RequestMap ι) (requestId : RequestId) : Option ι × RequestMap ι :=
  (self.lookup requestId, self.erase requestId)

def containsRequest (self : RequestMap ι) (requestId : RequestId) : Bool := (self.lookup requestId).isSome

def removeRequest (self : RequestMap ι) (requestId : RequestId) : RequestMap ι := self.erase requestId

end RequestMap

/-- A response as it came off the socket. The number tells duplicates apart. -/
structure Delivery where
  arrival : Nat
  response : Response

/-- Where a call of `send_request_and_wait` stands. -/
inductive CallState where
  | idle
  | added
  | sendFailed
  | waiting
  | timedOut
  | returned (result : Except NodeError Delivery)

/-- Where a worker in `handle_response` stands. -/
inductive WorkerState (ι : Type*) where
  | idle
  | checking (d : Delivery)
  | taking (d : Delivery)
  | holding (d : Delivery) (sender : ι)

/-- Begun, and not yet past its last access to the map. -/
inductive CallState.Pending : CallState → Prop
  | added : Pending .added
  | sendFailed : Pending .sendFailed
  | waiting : Pending .waiting
  | timedOut : Pending .timedOut

/-- The receiving end is dropped when the timeout fires, or on return. -/
def CallState.receiverAlive : CallState → Bool
  | .added | .sendFailed | .waiting => true
  | .idle | .timedOut | .returned _ => false

def WorkerState.delivery {ι : Type*} : WorkerState ι → Option Delivery
  | .idle => none
  | .checking d | .taking d | .holding d _ => some d

/-- The calls and workers of one node. `delivered` records every successful send on a channel. -/
structure Correlator (ι κ : Type*) where
  map : RequestMap ι
  calls : ι → CallState
  channels : ι → Option Delivery
  workers : κ → WorkerState ι
  arrivals : Nat
  delivered : List (ι × Delivery)

inductive CorrelatorEvent (ι κ : Type*) where
  | addRequest (c : ι)
  | sent (c : ι)
  | sendFails (c : ι)
  | removeUnsent (c : ι)
  | receives (c : ι)
  | senderDropped (c : ι)
  | timesOut (c : ι)
  | removeTimedOut (c : ι)
  | arrives (k : κ) (r : Response)
  | contains (k : κ)
  | take (k : κ)
  | send (k : κ)

namespace Correlator
variable {ι κ : Type*}

def new : Correlator ι κ := ⟨∅, fun _ => .idle, fun _ => none, fun _ => .idle, 0, []⟩

/-- The calls that got a response, latest first. -/
def served (s : Correlator ι κ) : List ι := s.delivered.map Prod.fst

/-- The response instances that were handed over, latest first. -/
def consumed (s : Correlator ι κ) : List Nat := s.delivered.map fun p => p.2.arrival

section Steps
variable [DecidableEq ι] [DecidableEq κ]

def setCall (s : Correlator ι κ) (c : ι) (x : CallState) : Correlator ι κ :=
  { s with calls := Function.update s.calls c x }

def setWorker (s : Correlator ι κ) (k : κ) (w : WorkerState ι) : Correlator ι κ :=
  { s with workers := Function.update s.workers k w }

def removeRequest (s : Correlator ι κ) (requestId : RequestId) : Correlator ι κ :=
  { s with map := s.map.removeRequest requestId }

/-- `sender.send(response)` succeeds while the receiver is there. -/
def deliver (s : Correlator ι κ) (c : ι) (d : Delivery) : Correlator ι κ :=
  if (s.calls c).receiverAlive then
    { s with channels := Function.update s.channels c (some d), delivered := (c, d) :: s.delivered }
  else s

end Steps
end Correlator

open Correlator in
/-- One step of a call with request id `ids c`, or of a worker. Each access to the map is one
step, since it is made under the map's lock. -/
inductive CorrelatorStep {ι κ : Type*} [DecidableEq ι] [DecidableEq κ] (ids : ι → RequestId) :
    Correlator ι κ → CorrelatorEvent ι κ → Correlator ι κ → Prop
  | addRequest {s : Correlator ι κ} {c : ι} : s.calls c = .idle →
      CorrelatorStep ids s (.addRequest c) { s.setCall c .added with map := s.map.addRequest (ids c) c }
  | sent {s : Correlator ι κ} {c : ι} : s.calls c = .added → CorrelatorStep ids s (.sent c) (s.setCall c .waiting)
  | sendFails {s : Correlator ι κ} {c : ι} : s.calls c = .added →
      CorrelatorStep ids s (.sendFails c) (s.setCall c .sendFailed)
  | removeUnsent {s : Correlator ι κ} {c : ι} : s.calls c = .sendFailed →
      CorrelatorStep ids s (.removeUnsent c) ((s.removeRequest (ids c)).setCall c (.returned (.error .unableToSend)))
  | receives {s : Correlator ι κ} {c : ι} {d : Delivery} : s.calls c = .waiting → s.channels c = some d →
      CorrelatorStep ids s (.receives c) (s.setCall c (.returned (.ok d)))
  | senderDropped {s : Correlator ι κ} {c : ι} : s.calls c = .waiting → s.channels c = none →
      (∀ id, s.map.lookup id ≠ some c) → (∀ k d, s.workers k ≠ .holding d c) →
      CorrelatorStep ids s (.senderDropped c) (s.setCall c (.returned (.error .badResponse)))
  | timesOut {s : Correlator ι κ} {c : ι} : s.calls c = .waiting →
      CorrelatorStep ids s (.timesOut c) (s.setCall c .timedOut)
  | removeTimedOut {s : Correlator ι κ} {c : ι} : s.calls c = .timedOut →
      CorrelatorStep ids s (.removeTimedOut c)
        ((s.removeRequest (ids c)).setCall c (.returned (.error .responseTimeout)))
  | arrives {s : Correlator ι κ} {k : κ} {r : Response} : s.workers k = .idle →
      CorrelatorStep ids s (.arrives k r)
        { s.setWorker k (.checking ⟨s.arrivals, r⟩) with arrivals := s.arrivals + 1 }
  | contains {s : Correlator ι κ} {k : κ} {d : Delivery} : s.workers k = .checking d →
      CorrelatorStep ids s (.contains k)
        (s.setWorker k (if s.map.containsRequest d.response.requestId then .taking d else .idle))
  | take {s : Correlator ι κ} {k : κ} {d : Delivery} : s.workers k = .taking d →
      CorrelatorStep ids s (.take k)
        { s.setWorker k (match (s.map.takeRequest d.response.requestId).1 with
            | some c => .holding d c
            | none => .idle) with map := (s.map.takeRequest d.response.requestId).2 }
  | send {s : Correlator ι κ} {k : κ} {d : Delivery} {c : ι} : s.workers k = .holding d c →
      CorrelatorStep ids s (.send k) ((s.deliver c d).setWorker k .idle)

namespace Correlator
variable {ι κ : Type*} {ids : ι → RequestId} {s s' : Correlator ι κ}

/-- The sender of a call is in the map under the call's id, with one worker, or used up by a
send. -/
structure OneSender (ids : ι → RequestId) (s : Correlator ι κ) : Prop where
  mapped_id : ∀ {id c}, s.map.lookup id = some c → id = ids c
  mapped_pending : ∀ {id c}, s.map.lookup id = some c → (s.calls c).Pending
  mapped_unserved : ∀ {id c}, s.map.lookup id = some c → c ∉ s.served
  mapped_unheld : ∀ {id c}, s.map.lookup id = some c → ∀ k d, s.workers k ≠ .holding d c
  held_id : ∀ {k d c}, s.workers k = .holding d c → d.response.requestId = ids c
  held_begun : ∀ {k d c}, s.workers k = .holding d c → s.calls c ≠ .idle
  held_unserved : ∀ {k d c}, s.workers k = .holding d c → c ∉ s.served
  held_once : ∀ {k k' d d' c}, s.workers k = .holding d c → s.workers k' = .holding d' c → k = k'
  served_id : ∀ {c d}, (c, d) ∈ s.delivered → d.response.requestId = ids c
  served_begun : ∀ {c}, c ∈ s.served → s.calls c ≠ .idle
  served_once : s.served.Nodup
  received : ∀ {c d}, s.channels c = some d → (c, d) ∈ s.delivered
  returned : ∀ {c d}, s.calls c = .returned (.ok d) → (c, d) ∈ s.delivered

/-- A response instance is with one worker, or was handed over once. -/
structure OneHandover (s : Correlator ι κ) : Prop where
  arrived : ∀ {k d}, (s.workers k).delivery = some d → d.arrival < s.arrivals
  unconsumed : ∀ {k d}, (s.workers k).delivery = some d → d.arrival ∉ s.consumed
  once : ∀ {k k' d d'}, (s.workers k).delivery = some d → (s.workers k').delivery = some d' →
    d.arrival = d'.arrival → k = k'
  consumed_arrived : ∀ n ∈ s.consumed, n < s.arrivals
  consumed_once : s.consumed.Nodup

structure Correlates (ids : ι → RequestId) (s : Correlator ι κ) : Prop where
  sender : s.OneSender ids
  handover : s.OneHandover

theorem correlates_new : Correlates ids (new : Correlator ι κ) :=
  ⟨⟨nofun, nofun, nofun, nofun, nofun, nofun, nofun, nofun, nofun, nofun, List.nodup_nil, nofun, nofun⟩,
    ⟨nofun, nofun, nofun, nofun, List.nodup_nil⟩⟩

theorem mem_served {c : ι} : c ∈ s.served ↔ ∃ d, (c, d) ∈ s.delivered := by
  unfold served
  simp only [List.mem_map, Prod.exists, exists_and_right, exists_eq_right]

/-- The map has no entry under the id of a call, unless it is that call's own. -/
theorem OneSender.lookup_ids (h : s.OneSender ids) (hids : Function.Injective ids) {c : ι}
    (hc : ∀ id, s.map.lookup id ≠ some c) : s.map.lookup (ids c) = none := by
  cases hl : s.map.lookup (ids c) with
  | none => rfl
  | some c' =>
      have hcc : c = c' := hids (h.mapped_id hl)
      subst hcc
      exact absurd hl (hc _)

theorem OneSender.lookup_of_served (h : s.OneSender ids) (hids : Function.Injective ids) {c : ι} {d : Delivery}
    (hd : (c, d) ∈ s.delivered) : s.map.lookup (ids c) = none :=
  h.lookup_ids hids fun _ hl => h.mapped_unserved hl (mem_served.mpr ⟨d, hd⟩)

theorem OneSender.lookup_of_returned (h : s.OneSender ids) (hids : Function.Injective ids) {c : ι}
    {result : Except NodeError Delivery} (hc : s.calls c = .returned result) : s.map.lookup (ids c) = none := by
  refine h.lookup_ids hids fun id hl => ?_
  have hp := h.mapped_pending hl
  rw [hc] at hp
  cases hp

/-- Removing an entry loses no call but the one of that id. -/
theorem lookup_of_erase {m : RequestMap ι} {a b : RequestId} {c : ι} (h : (m.erase a).lookup b = some c) :
    b ≠ a ∧ m.lookup b = some c := by
  have hne : b ≠ a := by
    rintro rfl
    rw [AList.lookup_erase] at h
    cases h
  exact ⟨hne, (AList.lookup_erase_ne hne).symm.trans h⟩

theorem OneSender.removeRequest (h : s.OneSender ids) (a : RequestId) : (s.removeRequest a).OneSender ids :=
  { h with
    mapped_id := fun hl => h.mapped_id (lookup_of_erase hl).2
    mapped_pending := fun hl => h.mapped_pending (lookup_of_erase hl).2
    mapped_unserved := fun hl => h.mapped_unserved (lookup_of_erase hl).2
    mapped_unheld := fun hl => h.mapped_unheld (lookup_of_erase hl).2 }

/-- A call that has begun moves on. If it returns, its entry must be gone already, and what it
returns must have been delivered. -/
theorem OneSender.setCall [DecidableEq ι] (h : s.OneSender ids) {c : ι} {x : CallState} (hx : x ≠ .idle)
    (hpending : x.Pending ∨ s.map.lookup (ids c) = none)
    (hresult : ∀ d, x = .returned (.ok d) → (c, d) ∈ s.delivered) : (s.setCall c x).OneSender ids := by
  have hbegun : ∀ c', s.calls c' ≠ .idle → (s.setCall c x).calls c' ≠ .idle := by
    intro c' hc'
    unfold Correlator.setCall
    dsimp only
    by_cases hcc : c' = c
    · rw [hcc, Function.update_self]
      exact hx
    · rw [Function.update_of_ne hcc]
      exact hc'
  refine { h with
    mapped_pending := ?_
    held_begun := fun hw => hbegun _ (h.held_begun hw)
    served_begun := fun hc' => hbegun _ (h.served_begun hc')
    returned := ?_ }
  · intro id c' hl
    change (Function.update s.calls c x c').Pending
    by_cases hcc : c' = c
    · subst hcc
      rw [Function.update_self]
      refine hpending.resolve_right fun hnone => ?_
      have hid := h.mapped_id hl
      rw [← hid] at hnone
      exact nomatch hnone.symm.trans hl
    · rw [Function.update_of_ne hcc]
      exact h.mapped_pending hl
  · intro c' d hc'
    change Function.update s.calls c x c' = _ at hc'
    by_cases hcc : c' = c
    · subst hcc
      rw [Function.update_self] at hc'
      exact hresult d hc'
    · rw [Function.update_of_ne hcc] at hc'
      exact h.returned hc'

theorem setWorker_eq [DecidableEq κ] {k k' : κ} {w w' : WorkerState ι} (h : (s.setWorker k w).workers k' = w') :
    k' = k ∧ w = w' ∨ k' ≠ k ∧ s.workers k' = w' := by
  change Function.update s.workers k w k' = w' at h
  by_cases hk : k' = k
  · subst hk
    rw [Function.update_self] at h
    exact .inl ⟨rfl, h⟩
  · rw [Function.update_of_ne hk] at h
    exact .inr ⟨hk, h⟩

/-- A worker that holds no sender afterwards. -/
theorem OneSender.setWorker [DecidableEq κ] (h : s.OneSender ids) (k : κ) {w : WorkerState ι} (hw : ∀ d c, w ≠ .holding d c) :
    (s.setWorker k w).OneSender ids := by
  have hold : ∀ {k' d c}, (s.setWorker k w).workers k' = .holding d c → s.workers k' = .holding d c := by
    intro k' d c hk'
    rcases setWorker_eq hk' with ⟨-, hw'⟩ | ⟨-, hk'⟩
    · exact absurd hw' (hw d c)
    · exact hk'
  exact { h with
    mapped_unheld := fun hl k' d hk' => h.mapped_unheld hl k' d (hold hk')
    held_id := fun hk' => h.held_id (hold hk')
    held_begun := fun hk' => h.held_begun (hold hk')
    held_unserved := fun hk' => h.held_unserved (hold hk')
    held_once := fun hk hk' => h.held_once (hold hk) (hold hk') }

section Steps
variable [DecidableEq ι] [DecidableEq κ]

omit [DecidableEq κ] in
theorem OneSender.addRequest (h : s.OneSender ids) {c : ι} (hc : s.calls c = .idle) :
    OneSender ids { s.setCall c .added with map := s.map.addRequest (ids c) c } := by
  have h' : (s.setCall c .added).OneSender ids := h.setCall nofun (.inl .added) fun _ => nofun
  have hunserved : c ∉ s.served := fun hs => h.served_begun hs hc
  have hunheld : ∀ k d, s.workers k ≠ .holding d c := fun k d hw => h.held_begun hw hc
  have hcases : ∀ {id c'}, (s.map.addRequest (ids c) c).lookup id = some c' →
      id = ids c ∧ c = c' ∨ s.map.lookup id = some c' := by
    intro id c' hl
    unfold RequestMap.addRequest at hl
    by_cases hid : id = ids c
    · rw [hid, AList.lookup_insert, Option.some.injEq] at hl
      exact .inl ⟨hid, hl⟩
    · rw [AList.lookup_insert_ne hid] at hl
      exact .inr hl
  refine { h' with mapped_id := ?_, mapped_pending := ?_, mapped_unserved := ?_, mapped_unheld := ?_ }
  · intro id c' hl
    rcases hcases hl with ⟨hid, rfl⟩ | hl
    · exact hid
    · exact h.mapped_id hl
  · intro id c' hl
    rcases hcases hl with ⟨hid, rfl⟩ | hl
    · change (Function.update s.calls c .added c).Pending
      rw [Function.update_self]
      exact .added
    · exact h'.mapped_pending hl
  · intro id c' hl
    rcases hcases hl with ⟨hid, rfl⟩ | hl
    · exact hunserved
    · exact h.mapped_unserved hl
  · intro id c' hl
    rcases hcases hl with ⟨hid, rfl⟩ | hl
    · exact hunheld
    · exact h.mapped_unheld hl

omit [DecidableEq ι] in
/-- The sender moves from the map to the worker, which is the only one to have it. -/
theorem OneSender.take (h : s.OneSender ids) {k : κ} {d : Delivery} {c : ι}
    (hl : s.map.lookup d.response.requestId = some c) :
    OneSender ids ((s.removeRequest d.response.requestId).setWorker k (.holding d c)) := by
  have hgone : ∀ {id c'}, (s.map.erase d.response.requestId).lookup id = some c' → c' ≠ c := by
    rintro id c' hl' rfl
    obtain ⟨hne, hl'⟩ := lookup_of_erase hl'
    exact hne ((h.mapped_id hl').trans (h.mapped_id hl).symm)
  have hbegun : s.calls c ≠ .idle := by
    intro hc
    have hp := h.mapped_pending hl
    rw [hc] at hp
    cases hp
  have h' := h.removeRequest d.response.requestId
  refine { h' with mapped_unheld := ?_, held_id := ?_, held_begun := ?_, held_unserved := ?_, held_once := ?_ }
  · intro id c' hl' k' d' hk'
    rcases setWorker_eq hk' with ⟨-, hw⟩ | ⟨-, hk'⟩
    · exact hgone hl' (WorkerState.holding.inj hw).2.symm
    · exact h'.mapped_unheld hl' k' d' hk'
  · intro k' d' c' hk'
    rcases setWorker_eq hk' with ⟨-, ⟨⟩⟩ | ⟨-, hk'⟩
    · exact h.mapped_id hl
    · exact h.held_id hk'
  · intro k' d' c' hk'
    rcases setWorker_eq hk' with ⟨-, ⟨⟩⟩ | ⟨-, hk'⟩
    · exact hbegun
    · exact h.held_begun hk'
  · intro k' d' c' hk'
    rcases setWorker_eq hk' with ⟨-, ⟨⟩⟩ | ⟨-, hk'⟩
    · exact h.mapped_unserved hl
    · exact h.held_unserved hk'
  · intro k₁ k₂ d₁ d₂ c' h₁ h₂
    rcases setWorker_eq h₁ with ⟨rfl, hw₁⟩ | ⟨-, h₁'⟩
    · rcases setWorker_eq h₂ with ⟨rfl, -⟩ | ⟨-, h₂'⟩
      · rfl
      · exact absurd ((WorkerState.holding.inj hw₁).2 ▸ h₂') (h.mapped_unheld hl k₂ d₂)
    · rcases setWorker_eq h₂ with ⟨rfl, hw₂⟩ | ⟨-, h₂'⟩
      · exact absurd ((WorkerState.holding.inj hw₂).2 ▸ h₁') (h.mapped_unheld hl k₁ d₁)
      · exact h.held_once h₁' h₂'

/-- The sender is used up by the send, so the worker's call was not served before. -/
theorem OneSender.deliver (h : s.OneSender ids) {k : κ} {d : Delivery} {c : ι}
    (hw : s.workers k = .holding d c) : OneSender ids ((s.deliver c d).setWorker k .idle) := by
  unfold Correlator.deliver
  by_cases halive : (s.calls c).receiverAlive = true
  · rw [if_pos halive]
    have hserved : ∀ {c'}, c' ∉ s.served → c' ≠ c → c' ∉ c :: s.served :=
      fun hnot hne hmem => (List.mem_cons.mp hmem).elim hne hnot
    have hold : ∀ {k' d' c'}, (s.setWorker k .idle).workers k' = .holding d' c' →
        c' ≠ c ∧ s.workers k' = .holding d' c' := by
      intro k' d' c' hk'
      rcases setWorker_eq hk' with ⟨-, ⟨⟩⟩ | ⟨hne, hk'⟩
      refine ⟨?_, hk'⟩
      rintro rfl
      exact hne (h.held_once hk' hw)
    exact {
      mapped_id := h.mapped_id
      mapped_pending := h.mapped_pending
      mapped_unserved := fun hl => hserved (h.mapped_unserved hl) fun hcc => h.mapped_unheld hl k d (hcc ▸ hw)
      mapped_unheld := fun hl k' d' hk' => h.mapped_unheld hl k' d' (hold hk').2
      held_id := fun hk' => h.held_id (hold hk').2
      held_begun := fun hk' => h.held_begun (hold hk').2
      held_unserved := fun hk' => hserved (h.held_unserved (hold hk').2) (hold hk').1
      held_once := fun h₁ h₂ => h.held_once (hold h₁).2 (hold h₂).2
      served_id := by
        intro c' d' hmem
        rcases List.mem_cons.mp hmem with hnew | hmem
        · obtain ⟨rfl, rfl⟩ := Prod.mk.inj hnew
          exact h.held_id hw
        · exact h.served_id hmem
      served_begun := by
        intro c' hmem
        rcases List.mem_cons.mp hmem with rfl | hmem
        · exact h.held_begun hw
        · exact h.served_begun hmem
      served_once := List.nodup_cons.mpr ⟨h.held_unserved hw, h.served_once⟩
      received := by
        intro c' d' hc'
        change Function.update s.channels c (some d) c' = some d' at hc'
        by_cases hcc : c' = c
        · subst hcc
          rw [Function.update_self, Option.some.injEq] at hc'
          exact hc' ▸ List.mem_cons_self
        · rw [Function.update_of_ne hcc] at hc'
          exact List.mem_cons_of_mem _ (h.received hc')
      returned := fun hc' => List.mem_cons_of_mem _ (h.returned hc') }
  · rw [if_neg halive]
    exact h.setWorker k fun _ _ => nofun

omit [DecidableEq ι] [DecidableEq κ] in
/-- Nothing new is with a worker, and nothing was handed over. -/
theorem OneHandover.of_fewer (h : s.OneHandover)
    (hw : ∀ {k d}, (s'.workers k).delivery = some d → (s.workers k).delivery = some d)
    (harrivals : s'.arrivals = s.arrivals) (hdelivered : s'.delivered = s.delivered) : s'.OneHandover := by
  have hconsumed : s'.consumed = s.consumed := by
    unfold consumed
    rw [hdelivered]
  exact {
    arrived := fun hk => harrivals ▸ h.arrived (hw hk)
    unconsumed := fun hk => hconsumed ▸ h.unconsumed (hw hk)
    once := fun h₁ h₂ => h.once (hw h₁) (hw h₂)
    consumed_arrived := by
      rw [hconsumed, harrivals]
      exact h.consumed_arrived
    consumed_once := hconsumed ▸ h.consumed_once }

omit [DecidableEq ι] in
theorem delivery_setWorker {k k' : κ} {w : WorkerState ι} {d : Delivery}
    (h : ((s.setWorker k w).workers k').delivery = some d) :
    k' = k ∧ w.delivery = some d ∨ k' ≠ k ∧ (s.workers k').delivery = some d := by
  obtain ⟨hk, hw⟩ | ⟨hk, hw⟩ := setWorker_eq (rfl : (s.setWorker k w).workers k' = _)
  · rw [← hw] at h
    exact .inl ⟨hk, h⟩
  · rw [← hw] at h
    exact .inr ⟨hk, h⟩

omit [DecidableEq ι] in
/-- A worker goes on with the response it has, or drops it. -/
theorem OneHandover.setWorker (h : s.OneHandover) {k : κ} {w : WorkerState ι}
    (hw : ∀ d, w.delivery = some d → (s.workers k).delivery = some d) : (s.setWorker k w).OneHandover := by
  refine h.of_fewer ?_ rfl rfl
  intro k' d hk'
  rcases delivery_setWorker hk' with ⟨rfl, hd⟩ | ⟨-, hd⟩
  · exact hw d hd
  · exact hd

omit [DecidableEq ι] in
/-- A response that comes in has a number of its own. -/
theorem OneHandover.arrives (h : s.OneHandover) (k : κ) (r : Response) :
    OneHandover { s.setWorker k (.checking ⟨s.arrivals, r⟩) with arrivals := s.arrivals + 1 } := by
  refine { h with arrived := ?_, unconsumed := ?_, once := ?_, consumed_arrived := ?_ }
  · intro k' d hk'
    rcases delivery_setWorker hk' with ⟨-, ⟨⟩⟩ | ⟨-, hd⟩
    · exact Nat.lt_succ_self _
    · exact Nat.lt_succ_of_lt (h.arrived hd)
  · intro k' d hk'
    rcases delivery_setWorker hk' with ⟨-, ⟨⟩⟩ | ⟨-, hd⟩
    · exact fun hmem => Nat.lt_irrefl _ (h.consumed_arrived _ hmem)
    · exact h.unconsumed hd
  · intro k₁ k₂ d₁ d₂ h₁ h₂ heq
    rcases delivery_setWorker h₁ with ⟨rfl, ⟨⟩⟩ | ⟨-, hd₁⟩
    · rcases delivery_setWorker h₂ with ⟨rfl, -⟩ | ⟨-, hd₂⟩
      · rfl
      · exact absurd heq.symm (h.arrived hd₂).ne
    · rcases delivery_setWorker h₂ with ⟨rfl, ⟨⟩⟩ | ⟨-, hd₂⟩
      · exact absurd heq (h.arrived hd₁).ne
      · exact h.once hd₁ hd₂ heq
  · exact fun n hn => Nat.lt_succ_of_lt (h.consumed_arrived n hn)

theorem OneHandover.deliver (h : s.OneHandover) {k : κ} {d : Delivery} {c : ι}
    (hw : s.workers k = .holding d c) : OneHandover ((s.deliver c d).setWorker k .idle) := by
  have hd : (s.workers k).delivery = some d := by
    rw [hw]
    rfl
  unfold Correlator.deliver
  by_cases halive : (s.calls c).receiverAlive = true
  · rw [if_pos halive]
    have hold : ∀ {k' d'}, ((s.setWorker k .idle).workers k').delivery = some d' →
        d'.arrival ≠ d.arrival ∧ (s.workers k').delivery = some d' := by
      intro k' d' hk'
      rcases delivery_setWorker hk' with ⟨-, ⟨⟩⟩ | ⟨hne, hd'⟩
      exact ⟨fun heq => hne (h.once hd' hd heq), hd'⟩
    exact {
      arrived := fun hk' => h.arrived (hold hk').2
      unconsumed := fun hk' hmem => (List.mem_cons.mp hmem).elim (hold hk').1 (h.unconsumed (hold hk').2)
      once := fun h₁ h₂ => h.once (hold h₁).2 (hold h₂).2
      consumed_arrived := by
        intro n hn
        rcases List.mem_cons.mp hn with rfl | hn
        · exact h.arrived hd
        · exact h.consumed_arrived n hn
      consumed_once := List.nodup_cons.mpr ⟨h.unconsumed hd, h.consumed_once⟩ }
  · rw [if_neg halive]
    exact h.setWorker fun _ => nofun

theorem Correlates.step (hids : Function.Injective ids) {e : CorrelatorEvent ι κ} (h : s.Correlates ids)
    (hstep : CorrelatorStep ids s e s') : s'.Correlates ids := by
  have hsame : ∀ {t : Correlator ι κ}, t.workers = s.workers → t.arrivals = s.arrivals → t.delivered = s.delivered →
      t.OneHandover := fun hw ha hd => h.handover.of_fewer (fun hk => hw ▸ hk) ha hd
  cases hstep with
  | addRequest hc => exact ⟨h.sender.addRequest hc, hsame rfl rfl rfl⟩
  | sent hc => exact ⟨h.sender.setCall nofun (.inl .waiting) (fun _ => nofun), hsame rfl rfl rfl⟩
  | sendFails hc => exact ⟨h.sender.setCall nofun (.inl .sendFailed) (fun _ => nofun), hsame rfl rfl rfl⟩
  | removeUnsent hc =>
      exact ⟨(h.sender.removeRequest _).setCall nofun (.inr (AList.lookup_erase _ _)) (fun _ => nofun), hsame rfl rfl rfl⟩
  | receives hc hd =>
      have hmem := h.sender.received hd
      refine ⟨h.sender.setCall nofun (.inr (h.sender.lookup_of_served hids hmem)) ?_, hsame rfl rfl rfl⟩
      rintro d' ⟨⟩
      exact hmem
  | senderDropped hc hempty hmap hheld =>
      exact ⟨h.sender.setCall nofun (.inr (h.sender.lookup_ids hids hmap)) (fun _ => nofun), hsame rfl rfl rfl⟩
  | timesOut hc => exact ⟨h.sender.setCall nofun (.inl .timedOut) (fun _ => nofun), hsame rfl rfl rfl⟩
  | removeTimedOut hc =>
      exact ⟨(h.sender.removeRequest _).setCall nofun (.inr (AList.lookup_erase _ _)) (fun _ => nofun), hsame rfl rfl rfl⟩
  | @arrives k r hk =>
      have hsender : (s.setWorker k (.checking ⟨s.arrivals, r⟩)).OneSender ids :=
        h.sender.setWorker k fun _ _ => nofun
      exact ⟨{ hsender with }, h.handover.arrives k r⟩
  | @contains k d hk =>
      cases s.map.containsRequest d.response.requestId with
      | true =>
          refine ⟨h.sender.setWorker k ?_, h.handover.setWorker ?_⟩
          · rintro _ _ ⟨⟩
          · rw [hk]
            exact fun _ => id
      | false => exact ⟨h.sender.setWorker k (fun _ _ => nofun), h.handover.setWorker fun _ => nofun⟩
  | @take k d hk =>
      unfold RequestMap.takeRequest
      dsimp only
      cases hl : s.map.lookup d.response.requestId with
      | some c =>
          have hnext : (s.setWorker k (.holding d c)).OneHandover := by
            refine h.handover.setWorker ?_
            rw [hk]
            exact fun _ => id
          exact ⟨h.sender.take hl, { hnext with }⟩
      | none =>
          have hnext : (s.setWorker k .idle).OneHandover := h.handover.setWorker fun _ => nofun
          exact ⟨(h.sender.removeRequest _).setWorker k fun _ _ => nofun, { hnext with }⟩
  | send hk => exact ⟨h.sender.deliver hk, h.handover.deliver hk⟩

omit [DecidableEq ι] [DecidableEq κ] in
theorem Correlates.not_mem (h : s.Correlates ids) (hids : Function.Injective ids) {c : ι}
    {result : Except NodeError Delivery} (hc : s.calls c = .returned result) : ids c ∉ s.map :=
  AList.lookup_eq_none.mp (h.sender.lookup_of_returned hids hc)

/-- A call that has returned takes no further step. -/
theorem step_keeps_returned {e : CorrelatorEvent ι κ} {c : ι} {result : Except NodeError Delivery}
    (hc : s.calls c = .returned result) (hstep : CorrelatorStep ids s e s') : s'.calls c = .returned result := by
  have hother : ∀ {c' x}, s.calls c' ≠ .returned result → (s.setCall c' x).calls c = .returned result := by
    intro c' x hc'
    have hne : c ≠ c' := by
      rintro rfl
      exact hc' hc
    exact (Function.update_of_ne hne _ _).trans hc
  cases hstep with
  | addRequest h => exact hother (by rw [h]; nofun)
  | sent h => exact hother (by rw [h]; nofun)
  | sendFails h => exact hother (by rw [h]; nofun)
  | removeUnsent h => exact hother (by rw [h]; nofun)
  | receives h _ => exact hother (by rw [h]; nofun)
  | senderDropped h _ _ _ => exact hother (by rw [h]; nofun)
  | timesOut h => exact hother (by rw [h]; nofun)
  | removeTimedOut h => exact hother (by rw [h]; nofun)
  | arrives => exact hc
  | contains => exact hc
  | take => exact hc
  | @send k d c' _ =>
      have hcalls : (s.deliver c' d).calls = s.calls := by
        unfold Correlator.deliver
        split_ifs <;> rfl
      exact (congrFun hcalls c).trans hc

end Steps
end Correlator

open Correlator

/-- Calls with distinct request ids and any workers, in any order of their steps. Each call
gets at most one response and it carries the call's id, each response instance goes to at most
one call, a call returns only what it got, and when it has returned its id is out of the map
for good. -/
theorem correlator_run {ι κ : Type*} [DecidableEq ι] [DecidableEq κ] {ids : ι → RequestId}
    (hids : Function.Injective ids) {hist : List (Correlator ι κ × CorrelatorEvent ι κ)} {s : Correlator ι κ}
    (hrun : Trace (CorrelatorStep ids) new hist s) :
    s.served.Nodup ∧ s.consumed.Nodup ∧ (∀ c d, (c, d) ∈ s.delivered → d.response.requestId = ids c) ∧
    (∀ c d, s.calls c = .returned (.ok d) → (c, d) ∈ s.delivered) ∧
    ∀ c result, s.calls c = .returned result → ids c ∉ s.map ∧
      ∀ hist' t, Trace (CorrelatorStep ids) s hist' t → t.calls c = .returned result ∧ ids c ∉ t.map := by
  have h : s.Correlates ids := hrun.invariant (fun _ _ _ h hstep => h.step hids hstep) correlates_new
  refine ⟨h.sender.served_once, h.handover.consumed_once, fun _ _ => h.sender.served_id,
    fun _ _ => h.sender.returned, fun c result hc => ⟨h.not_mem hids hc, fun hist' t hlater => ?_⟩⟩
  have hkept : t.Correlates ids ∧ t.calls c = .returned result :=
    hlater.invariant (I := fun u => u.Correlates ids ∧ u.calls c = .returned result)
      (fun _ _ _ h hstep => ⟨h.1.step hids hstep, step_keeps_returned h.2 hstep⟩) ⟨h, hc⟩
  exact ⟨hkept.2, hkept.1.not_mem hids hkept.2⟩

def twoIds (c : Bool) : RequestId := ⟨List.replicate 16 (if c then 1 else 0), List.length_replicate⟩

def firstPong : Response := ⟨.pong, .local 2 4002, .local 1 4001, twoIds false⟩

/-- Two workers check for the same call before either of them takes its sender. -/
theorem correlator_run_duplicate :
    Function.Injective twoIds ∧ ∃ (hist : _) (s : Correlator Bool Bool), Trace (CorrelatorStep twoIds) new hist s ∧
      s.calls false = .returned (.ok ⟨1, firstPong⟩) ∧ s.served = [false] ∧ twoIds false ∉ s.map := by
  have hids : Function.Injective twoIds := by decide
  have hasked : Trace (CorrelatorStep twoIds) (new : Correlator Bool Bool) _ _ :=
    .next (.next .start (.addRequest (c := false) rfl)) (.sent (c := false) rfl)
  have hchecked := ((((hasked.next (.arrives (k := false) (r := firstPong) rfl)).next
    (.arrives (k := true) (r := firstPong) rfl)).next (.contains (k := false) rfl)).next (.contains (k := true) rfl))
  have htaken := (hchecked.next (.take (k := true) rfl)).next (.take (k := false) rfl)
  have hrun := (htaken.next (.send (k := true) rfl)).next (.receives (c := false) rfl rfl)
  exact ⟨hids, _, _, hrun, rfl, rfl, ((correlator_run hids hrun).2.2.2.2 false _ rfl).1⟩

end P2PFilesystem
