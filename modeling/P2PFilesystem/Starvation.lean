import P2PFilesystem.WorkerPool

/-!
# Workers that wait for their own guard

A worker whose request came from an unknown contact of a full bucket waits for the table it holds
itself. The other three answer what they are at, and each waits as well from its next request to
the node on.
-/
namespace P2PFilesystem
open WorkQueue Traces

/-- The table cannot be had any more. -/
structure Receiver.Jammed (server : Server) (s : Receiver) : Prop where
  blocked : s.blocked = true
  nodeInfo_eq : s.server.nodeInfo = server.nodeInfo
  table_eq : s.server.routingTable = server.routingTable

section Phases
variable (decode : Text → Option Message) (node : NodeInfo)

/-- A job that comes to a guard of the table before anything goes out. -/
def WorkerPhase.NeedsTable (data : Text) : WorkerPhase → Prop
  | .parse => ∃ request, Asks decode node data request
  | .recordPossibleNeighbour _ => True
  | .ping _ => True
  | .getKClosest _ _ => True
  | _ => False

/-- A job that may still be answered without the table. -/
def WorkerPhase.MayAnswer : WorkerPhase → Prop
  | .isChunkAlreadyStored _ _ => True
  | .updateChunkUploadTime _ _ => True
  | .addActiveTcpConnection _ _ => True
  | .sendResponse _ => True
  | _ => False

variable {decode node} {W : Surroundings}

theorem Server.handleGetPortMessage_frame (s : Server) (request : Request) (fileId : Key) (listener : Option UInt16) :
    (s.handleGetPortMessage request fileId listener).server.nodeInfo = s.nodeInfo ∧
    (s.handleGetPortMessage request fileId listener).server.routingTable = s.routingTable := by
  unfold Server.handleGetPortMessage
  split
  · exact ⟨rfl, rfl⟩
  · split <;> exact ⟨rfl, rfl⟩

/-- What a step of a worker does while the table cannot be had. -/
structure StuckStep (decode : Text → Option Message) (data : Text) (s : Receiver) (p : WorkerPhase) (s' : Receiver)
    (next : Option WorkerPhase) (out : Option WorkerOutput) : Prop where
  jammed : Receiver.Jammed s.server s'
  needs : p.NeedsTable decode s.server.nodeInfo data →
    (∃ q, next = some q ∧ q.NeedsTable decode s.server.nodeInfo data) ∧ out = none
  mayAnswer : ∀ q ∈ next, q.MayAnswer → p.MayAnswer
  answers : ∀ x ∈ out, x.isSent = true → p.MayAnswer ∧ next = none

theorem stuckStep {s s' : Receiver} {data : Text} {p : WorkerPhase} {env : WorkerEnv} {next : Option WorkerPhase}
    {out : Option WorkerOutput} (h : s.blocked = true) (hstep : p.step decode env s data = some (s', next, out)) :
    StuckStep decode data s p s' next out := by
  have hsame : Receiver.Jammed s.server s := ⟨h, rfl, rfl⟩
  have hsilent : ∀ x ∈ (none : Option WorkerOutput), x.isSent = true → p.MayAnswer ∧ next = none := fun x hx =>
    absurd hx (Option.not_mem_none x)
  have hover : ∀ q ∈ (none : Option WorkerPhase), q.MayAnswer → p.MayAnswer := fun q hq => absurd hq (Option.not_mem_none q)
  cases p with
  | parse =>
      cases hstep
      refine ⟨hsame, ?_, ?_, hsilent⟩
      · rintro ⟨request, hdispatch, hid⟩
        have hown : ¬ request.receiver.id ≠ s.server.nodeInfo.id := not_not.mpr hid
        rw [hdispatch]
        exact ⟨⟨.recordPossibleNeighbour request, if_neg hown, trivial⟩, rfl⟩
      · intro q hq hanswers
        split at hq
        · cases hq
        · cases hq
          exact hanswers
        · split_ifs at hq
          · cases hq
          · cases hq
            exact hanswers
  | handleResponse response =>
      cases hstep
      refine ⟨hsame, False.elim, hover, ?_⟩
      rintro x ⟨⟩ hsent
      cases hsent
  | recordPossibleNeighbour request =>
      simp only [WorkerPhase.step, if_pos h] at hstep
      cases hstep
  | ping request => cases hstep
  | getKClosest request target =>
      simp only [WorkerPhase.step, if_pos h] at hstep
      cases hstep
  | isChunkAlreadyStored request chunkId =>
      cases hstep
      exact ⟨hsame, False.elim, fun _ _ _ => trivial, hsilent⟩
  | updateChunkUploadTime request chunkId =>
      cases hstep
      exact ⟨⟨h, rfl, rfl⟩, False.elim, fun _ _ _ => trivial, hsilent⟩
  | addActiveTcpConnection request fileId =>
      cases hstep
      obtain ⟨hnode, htable⟩ := s.server.handleGetPortMessage_frame request fileId env.listener
      exact ⟨⟨h, hnode, htable⟩, False.elim, fun _ _ _ => trivial, hsilent⟩
  | readChunk request chunkId port =>
      cases hstep
      refine ⟨hsame, False.elim, ?_, hsilent⟩
      intro q hq hanswers
      obtain ⟨sent, -, rfl⟩ := Option.map_eq_some_iff.mp hq
      exact hanswers
  | connect address content =>
      cases hstep
      refine ⟨hsame, False.elim, hover, ?_⟩
      intro x hx hsent
      split_ifs at hx
      · cases hx
        cases hsent
      · cases hx
  | sendResponse response =>
      cases hstep
      exact ⟨hsame, False.elim, hover, fun _ _ _ => ⟨trivial, rfl⟩⟩

theorem Receiver.Jammed.trans {server : Server} {s s' : Receiver} (h : Receiver.Jammed server s)
    (h' : Receiver.Jammed s.server s') : Receiver.Jammed server s' :=
  ⟨h'.blocked, h'.nodeInfo_eq.trans h.nodeInfo_eq, h'.table_eq.trans h.table_eq⟩

theorem jams (server : Server) : Jams (workerProgram W) (Receiver.Jammed server)
    (WorkerPhase.NeedsTable W.decode server.nodeInfo) where
  step := fun h ⟨_, _, hstep⟩ => h.trans (stuckStep h.blocked hstep).jammed
  outside := by
    rintro s s' h houtside
    cases houtside with
    | stores hfree => exact absurd (h.blocked.symm.trans hfree) Bool.noConfusion
    | looksUp hfree => exact absurd (h.blocked.symm.trans hfree) Bool.noConfusion
    | uploads => exact { h with }
    | writes => exact { h with }
  held := by
    rintro s data p s' next out h hneeds ⟨env, -, hstep⟩
    have hstuck := (stuckStep h.blocked hstep).needs
    rw [h.nodeInfo_eq] at hstuck
    exact hstuck hneeds

theorem drains (server : Server) : Drains (workerProgram W) (Receiver.Jammed server)
    (fun _ => WorkerPhase.MayAnswer) WorkerOutput.isSent where
  first := fun _ => id
  step := fun h ⟨_, _, hstep⟩ hanswers => (stuckStep h.blocked hstep).mayAnswer _ rfl hanswers
  emits := fun h ⟨_, _, hstep⟩ hsent => (stuckStep h.blocked hstep).answers _ rfl hsent

theorem Server.handlerOf_ne_ping (s : Server) (request request' : Request) : s.handlerOf request ≠ .ping request' := by
  unfold Server.handlerOf
  cases request.requestType <;> exact nofun

/-- A worker comes to the ping with the write guard. -/
theorem blocked_of_ping {s s' : Receiver} {data : Text} {p : WorkerPhase} {env : WorkerEnv} {request : Request}
    {out : Option WorkerOutput} (hstep : p.step decode env s data = some (s', some (.ping request), out)) :
    s'.blocked = true := by
  cases p with
  | recordPossibleNeighbour sent =>
      simp only [WorkerPhase.step] at hstep
      split_ifs at hstep with hfree hroom
      · injection hstep with heq
        injection heq with hs hnext
        injection hnext with hnext hout
        exact absurd (Option.some.inj hnext) (s.server.handlerOf_ne_ping sent request)
      · cases hstep
        simp only [Receiver.store, hroom, Bool.not_false]
  | parse =>
      simp only [WorkerPhase.step, Option.some.injEq, Prod.mk.injEq] at hstep
      obtain ⟨-, hnext, -⟩ := hstep
      split at hnext
      · cases hnext
      · cases hnext
      · split_ifs at hnext
        cases hnext
  | handleResponse response => cases hstep
  | ping sent => cases hstep
  | getKClosest sent target =>
      simp only [WorkerPhase.step] at hstep
      split_ifs at hstep
      simp only [Option.some.injEq, Prod.mk.injEq, Option.map_eq_some_iff] at hstep
      obtain ⟨-, ⟨response, -, hnext⟩, -⟩ := hstep
      cases hnext
  | isChunkAlreadyStored sent chunkId =>
      simp only [WorkerPhase.step, Option.some.injEq, Prod.mk.injEq] at hstep
      obtain ⟨-, hnext, -⟩ := hstep
      split at hnext
      · split at hnext <;> cases hnext
      · split at hnext <;> cases hnext
  | updateChunkUploadTime sent chunkId => cases hstep
  | addActiveTcpConnection sent fileId =>
      simp only [WorkerPhase.step, Option.some.injEq, Prod.mk.injEq, Option.map_eq_some_iff] at hstep
      obtain ⟨-, ⟨response, -, hnext⟩, -⟩ := hstep
      cases hnext
  | readChunk request chunkId port =>
      simp only [WorkerPhase.step, Option.some.injEq, Prod.mk.injEq, Option.map_eq_some_iff] at hstep
      obtain ⟨-, ⟨sent, -, hnext⟩, -⟩ := hstep
      cases hnext
  | connect address content => cases hstep
  | sendResponse response => cases hstep

/-- The steps that a job can take at most after the next one. -/
def WorkerPhase.rank : WorkerPhase → Nat
  | .parse => 4
  | .recordPossibleNeighbour _ => 3
  | .isChunkAlreadyStored _ _ => 2
  | .getKClosest _ _ => 1
  | .updateChunkUploadTime _ _ => 1
  | .addActiveTcpConnection _ _ => 1
  | .readChunk _ _ _ => 1
  | .handleResponse _ => 0
  | .ping _ => 0
  | .connect _ _ => 0
  | .sendResponse _ => 0

theorem WorkerPhase.rank_le (p : WorkerPhase) : p.rank ≤ 4 := by
  cases p <;> simp [rank]

theorem Server.handlerOf_rank (s : Server) (request : Request) : (s.handlerOf request).rank < 3 := by
  unfold Server.handlerOf
  cases request.requestType <;> simp [WorkerPhase.rank]

theorem workerProgram_ranked : (workerProgram W).Ranked WorkerPhase.rank := by
  rintro s data p s' q out ⟨env, -, hstep⟩
  cases p with
  | parse =>
      simp only [WorkerPhase.step, Option.some.injEq, Prod.mk.injEq] at hstep
      obtain ⟨-, hnext, -⟩ := hstep
      split at hnext
      · cases hnext
      · cases hnext
        exact Nat.succ_pos 3
      · split_ifs at hnext
        cases hnext
        exact Nat.lt_succ_self 3
  | handleResponse response => cases hstep
  | recordPossibleNeighbour request =>
      simp only [WorkerPhase.step] at hstep
      split_ifs at hstep
      · simp only [Option.some.injEq, Prod.mk.injEq] at hstep
        obtain ⟨-, rfl, -⟩ := hstep
        exact s.server.handlerOf_rank request
      · cases hstep
        exact Nat.succ_pos 2
  | ping request => cases hstep
  | getKClosest request target =>
      simp only [WorkerPhase.step] at hstep
      split_ifs at hstep
      simp only [Option.some.injEq, Prod.mk.injEq, Option.map_eq_some_iff] at hstep
      obtain ⟨-, ⟨response, -, rfl⟩, -⟩ := hstep
      exact Nat.succ_pos 0
  | isChunkAlreadyStored request chunkId =>
      simp only [WorkerPhase.step, Option.some.injEq, Prod.mk.injEq] at hstep
      obtain ⟨-, hnext, -⟩ := hstep
      split at hnext
      · split at hnext
        · cases hnext
          exact Nat.lt_succ_self 1
        · cases hnext
          exact Nat.succ_pos 1
      · split at hnext
        · cases hnext
          exact Nat.succ_pos 1
        · cases hnext
          exact Nat.lt_succ_self 1
  | updateChunkUploadTime request chunkId =>
      cases hstep
      exact Nat.succ_pos 0
  | addActiveTcpConnection request fileId =>
      simp only [WorkerPhase.step, Option.some.injEq, Prod.mk.injEq, Option.map_eq_some_iff] at hstep
      obtain ⟨-, ⟨response, -, rfl⟩, -⟩ := hstep
      exact Nat.succ_pos 0
  | readChunk request chunkId port =>
      simp only [WorkerPhase.step, Option.some.injEq, Prod.mk.injEq, Option.map_eq_some_iff] at hstep
      obtain ⟨-, ⟨sent, -, rfl⟩, -⟩ := hstep
      exact Nat.succ_pos 0
  | connect address content => cases hstep
  | sendResponse response => cases hstep

/-- Nothing but the table can make a worker wait. -/
theorem workerProgram_ready {s : Receiver} (hfree : s.blocked = false) (data : Text) {p : WorkerPhase}
    (hp : ∀ request, p ≠ .ping request) : ∃ s' next out, (workerProgram W).step s data p s' next out := by
  suffices hsome : ∃ x, p.step W.decode ⟨0, none, true, true⟩ s data = some x by
    obtain ⟨⟨s', next, out⟩, hstep⟩ := hsome
    exact ⟨s', next, out, _, fun port hport => absurd hport (Option.not_mem_none port), hstep⟩
  cases p with
  | ping request => exact absurd rfl (hp request)
  | recordPossibleNeighbour request =>
      simp only [WorkerPhase.step, hfree, Bool.false_eq_true, if_false]
      split <;> exact ⟨_, rfl⟩
  | getKClosest request target =>
      simp only [WorkerPhase.step, hfree, Bool.false_eq_true, if_false]
      exact ⟨_, rfl⟩
  | _ => exact ⟨_, rfl⟩

end Phases

section Runs
variable {W : Surroundings} {start : Receiver}
  {hist later : List (ReceivePool × ReceiveEvent)} {s t : ReceivePool} {k : Fin receiveWorkerTaskCount}
  {j : Job Text} {request : Request}

def PingsJam (s : ReceivePool) : Prop := ∀ k j request, s.workers k = some (j, .ping request) → s.shared.blocked = true

theorem PingsJam.step {e : ReceiveEvent} (h : PingsJam s) (hstep : ReceiveStep W s e t) : PingsJam t := by
  intro k' j' request' hk'
  cases hstep with
  | receives => exact h k' j' request' hk'
  | enqueues => exact h k' j' request' hk'
  | takes =>
      rcases update_cases hk' with ⟨-, heq⟩ | ⟨-, hold⟩
      · cases heq
      · exact h k' j' request' hold
  | works hk hwork =>
      obtain ⟨env, -, hwork⟩ := hwork
      rcases update_cases hk' with ⟨-, heq⟩ | ⟨-, hold⟩
      · obtain ⟨q, rfl, heq⟩ := Option.map_eq_some_iff.mp heq
        cases heq
        exact blocked_of_ping hwork
      · exact (stuckStep (h k' j' request' hold) hwork).jammed.blocked
  | outside houtside =>
      exact ((jams s.shared.server).outside ⟨h k' j' request' hk', rfl, rfl⟩ houtside).blocked

theorem pingsJam_run (hrun : Trace (ReceiveStep W) (Pool.start start) hist s) : PingsJam s := by
  refine hrun.invariant (fun _ _ _ h hstep => h.step hstep) ?_
  intro k j request hk
  cases hk

open Classical in
/-- From the moment a worker pings the head of a full bucket: the table stays as it is, three more
responses are sent at most, and three more requests to the node are taken at most. After the third
of them no datagram is handled any more, and after a hundred and one more none is received. -/
theorem ping_starves (hrun : Trace (ReceiveStep W) (Pool.start start) hist s)
    (hping : s.workers k = some (j, .ping request)) (hlater : Trace (ReceiveStep W) s later t) :
    t.shared.server.routingTable = s.shared.server.routingTable ∧
    (t.emitted.countP fun x => x.2.isSent) ≤ (s.emitted.countP fun x => x.2.isSent) + 3 ∧
    ∃ new, t.started = s.started ++ new ∧
      let requests := new.countP fun j => ∃ request, Asks W.decode s.shared.server.nodeInfo j.data request
      requests ≤ 3 ∧ (requests = 3 → ∀ last u, Trace (ReceiveStep W) t last u →
        u.started = t.started ∧ u.emitted = t.emitted ∧ u.received.length ≤ t.started.length + 101) := by
  have hjammed : Receiver.Jammed s.shared.server s.shared := ⟨pingsJam_run hrun k j request hping, rfl, rfl⟩
  have hjams : Jams (workerProgram W) _ _ := jams s.shared.server
  obtain ⟨new, hstarted, hcount⟩ := hjams.held_run hjammed hlater
  -- the job of the ping needs the table and is not answered
  have hpinging : k ∈ s.heldBy (WorkerPhase.NeedsTable W.decode s.shared.server.nodeInfo) :=
    Pool.mem_heldBy.mpr ⟨j, .ping request, hping, trivial⟩
  have hsilent : k ∉ s.heldBy fun _ => WorkerPhase.MayAnswer := by
    intro hk
    obtain ⟨j', p', hk', hanswers⟩ := Pool.mem_heldBy.mp hk
    cases hping.symm.trans hk'
    exact hanswers
  have hone := Finset.card_pos.mpr ⟨k, hpinging⟩
  have hfour : (t.heldBy (WorkerPhase.NeedsTable W.decode s.shared.server.nodeInfo)).card ≤ 4 := Finset.card_le_univ _
  refine ⟨(hjams.shared_run hjammed hlater).table_eq, ?_, new, hstarted, ?_, ?_⟩
  · have hdrains := (drains (W := W) s.shared.server).run_le hjams hjammed hlater
    have hthree : (s.heldBy fun _ => WorkerPhase.MayAnswer).card < 4 :=
      Finset.card_lt_univ_of_notMem hsilent
    omega
  · exact Nat.le_of_lt_succ ((Nat.lt_add_of_pos_right hone).trans_le (hcount.trans hfour))
  · intro hthree last u hlast
    have hall : t.heldBy (WorkerPhase.NeedsTable W.decode s.shared.server.nodeInfo) = Finset.univ := by
      refine (Finset.card_eq_iff_eq_univ _).mp (Nat.le_antisymm hfour ?_)
      exact (Nat.add_le_add hthree.ge hone).trans hcount
    obtain ⟨hsame, hemitted, -⟩ := hjams.frozen (hjams.shared_run hjammed hlater)
      (fun k' => hall ▸ Finset.mem_univ k') hlast
    have haccount : Accounted queueCapacity u :=
      hlast.invariant (fun _ _ _ h hstep => h.step workerProgram_emitsLast hstep)
        (hlater.invariant (fun _ _ _ h hstep => h.step workerProgram_emitsLast hstep)
          (accounted_run workerProgram_emitsLast hrun))
    refine ⟨hsame, hemitted, ?_⟩
    have hreader : u.reader.toList.length ≤ 1 := by
      cases u.reader with
      | none => exact Nat.zero_le 1
      | some j => exact Nat.le_refl 1
    have hqueue : u.queue.length ≤ 100 := haccount.bounded
    rw [← haccount.split, List.length_append, List.length_append, hsame]
    omega

/-- A ping from a stranger whose bucket is full leaves a worker at the ping of the head. -/
theorem callerRequest_pings {table : RoutingTable} (hfull : ¬ table.hasRoomFor callerRequest.sender = true) :
    ∃ hist, ∃ s : ReceivePool, ∃ k j, Trace (ReceiveStep callerSurroundings)
      (Pool.start ⟨⟨.local 0 4001, table, .new ∅⟩, false⟩) hist s ∧ s.workers k = some (j, .ping callerRequest) := by
  obtain ⟨hist, t, hrun, hshared, -, -, -, hwork, -⟩ := callerRequest_parsed (k := ⟨0, by decide⟩)
    (s := Pool.start ⟨⟨.local 0 4001, table, .new ∅⟩, false⟩) rfl rfl (fun _ => rfl) rfl
  have hstep : (WorkerPhase.recordPossibleNeighbour callerRequest).step callerSurroundings.decode ⟨0, none, true, true⟩
      t.shared callerDatagram =
      some (t.shared.store callerRequest.sender, some (.ping callerRequest), none) := by
    have hfree : ¬ t.shared.blocked = true := by
      rw [hshared]
      exact Bool.false_ne_true
    have hnoroom : ¬ t.shared.server.routingTable.hasRoomFor callerRequest.sender = true := by
      rw [hshared]
      exact hfull
    simp only [WorkerPhase.step, if_neg hfree, if_neg hnoroom]
  exact ⟨_, _, _, _, hrun.next (.works hwork ⟨_, listens_none _, hstep⟩), Function.update_self ..⟩

theorem ping_starves_caller : ∃ hist, ∃ s : ReceivePool,
    Trace (ReceiveStep callerSurroundings)
      (Pool.start ⟨⟨.local 0 4001, fullBucketTable, .new ∅⟩, false⟩) hist s ∧
    ∀ later t, Trace (ReceiveStep callerSurroundings) s later t →
      t.shared.server.routingTable = s.shared.server.routingTable ∧
      (t.emitted.countP fun x => x.2.isSent) ≤ (s.emitted.countP fun x => x.2.isSent) + 3 := by
  have hfull : ¬ fullBucketTable.hasRoomFor callerRequest.sender = true := by decide +kernel
  obtain ⟨hist, s, k, j, hrun, hping⟩ := callerRequest_pings hfull
  refine ⟨hist, s, hrun, fun later t hlater => ?_⟩
  obtain ⟨htable, hsent, -⟩ := ping_starves hrun hping hlater
  exact ⟨htable, hsent⟩

end Runs

end P2PFilesystem
