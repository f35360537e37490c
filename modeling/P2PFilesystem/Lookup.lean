import P2PFilesystem.ClosestScan
import P2PFilesystem.LookupBuffer
import P2PFilesystem.LoopFuel

/-!
# Iterative lookups

`Node::find_node`, `Node::join_network` and `Node::find_storer` of `core/node.rs`. The
network is an oracle that says what `send_request_and_wait` gives for each contact in
each round. A run keeps the answers of all its rounds, newest first; of these the source
itself keeps only the newest, as `current_responses` of `find_storer`.
-/
namespace P2PFilesystem
open LoopFuel

/-- The outcome of the request sent in a round to a contact. -/
abbrev Answers := Nat → NodeInfo → Except NodeError Response

def singleLookup (resolver : NodeInfo) (forValue : Bool) (outcome : Except NodeError Response) :
    LookupResponse :=
  match outcome with
  | .ok response => match response.responseType with
      | .nodes nodes => .newNodesSuccessful resolver nodes
      | .hasValue _ => if forValue then .newValueSuccessful resolver else .newFailed resolver
      | _ => .newFailed resolver
  | .error _ => .newFailed resolver

def lookupRound (resolvers : List NodeInfo) (forValue : Bool) (answer : NodeInfo → Except NodeError Response) :
    List LookupResponse :=
  resolvers.map fun resolver => singleLookup resolver forValue (answer resolver)

structure LookupRun where
  buffer : LookupBuffer
  rounds : List (List LookupResponse)
  deriving DecidableEq

def lookupPass (forValue : Bool) (answers : Answers) (s : LookupRun) : Pass LookupRun :=
  let (resolvers, buffer) := s.buffer.getAlphaUnqueriedNodes
  if resolvers.isEmpty then .exit { s with buffer := buffer }
  else
    let responses := lookupRound resolvers forValue (answers s.rounds.length)
    let (goOn, buffer) := buffer.recordLookupRoundResponses responses forValue
    if goOn then .next ⟨buffer, responses :: s.rounds⟩ else .exit ⟨buffer, responses :: s.rounds⟩

/-- The last lookup on the resulting nodes that have not been queried yet. -/
def closingRound (answers : Answers) (s : LookupRun) : LookupRun :=
  let responses := lookupRound s.buffer.getUnqueriedResultingNodes false (answers s.rounds.length)
  ⟨(s.buffer.recordLookupRoundResponses responses false).2, responses :: s.rounds⟩

inductive LookupError where
  | routingTable (e : RoutingTableError)
  | beaconUnavailable (e : NodeError)
  | bail (message : Text)
  deriving DecidableEq

structure Node where
  key : Key
  address : SocketAddr
  routingTable : RoutingTable
  deriving DecidableEq

namespace Node

def toNodeInfo (self : Node) : NodeInfo := ⟨self.key, self.address⟩

/-- `Node::ping`: the address comes from the routing table. -/
def ping (self : Node) (nodeId : Key) (send : NodeInfo → Except NodeError Response) :
    Except NodeError Response :=
  match self.routingTable.getNodeinfo nodeId with
  | .error e => .error (.routingTableFailed e)
  | .ok none => .error .pingMissingNode
  | .ok (some info) => send info

/-- The rounds shared by `find_node` and `join_network`; `none` is exhausted fuel. -/
def nodeLookup (self : Node) (target : Key) (initial : List NodeInfo)
    (rounds : List (List LookupResponse)) (answers : Answers) (fuel : Nat) : Option LookupRun :=
  (runLoop (lookupPass false answers) fuel ⟨LookupBuffer.new target initial self.toNodeInfo, rounds⟩).map
    (closingRound answers)

/-- `find_node`; a contact that cannot be stored is only logged. The table update is taken to its
end; whether it comes to one is a matter of the lock on the table. -/
def findNode (self : Node) (target : Key) (answers : Answers) (pings : Nat → PingOutcome)
    (now fuel : Nat) : Option (Except LookupError (List NodeInfo) × Node) :=
  match self.routingTable.lookupGetNClosest target alpha now with
  | (.error e, table) => some (.error (.routingTable e), { self with routingTable := table })
  | (.ok initialResolvers, table) =>
      if initialResolvers.isEmpty then
        some (.error (.bail "No initial resolvers available for find_node resolutions".toList),
          { self with routingTable := table })
      else (self.nodeLookup target initialResolvers [] answers fuel).map fun s =>
        let stores := s.buffer.getResponsiveNodes.zipIdx.map fun n => (n.1, pings n.2)
        (.ok s.buffer.getResultingVector, { self with routingTable := table.storeAll stores })

/-- The table update of `join_network` stops at the first error. -/
def storeUntilError (table : RoutingTable) : List (NodeInfo × PingOutcome) →
    Except RoutingTableError Unit × RoutingTable
  | [] => (.ok (), table)
  | (n, ping) :: rest => match table.storeNodeinfo n ping with
      | (.error e, table) => (.error e, table)
      | (.ok _, table) => storeUntilError table rest

/-- `join_network`: the answer of the beacon is the first round. -/
def joinNetwork (self : Node) (beacon : NodeInfo) (answers : Answers) (pings : Nat → PingOutcome)
    (send : NodeInfo → Except NodeError Response) (fuel : Nat) :
    Option (Except LookupError (List NodeInfo) × Node) :=
  match self.routingTable.storeNodeinfo beacon (pings 0) with
  | (.error e, table) => some (.error (.routingTable e), { self with routingTable := table })
  | (.ok _, table) =>
      let self := { self with routingTable := table }
      match self.ping beacon.id send with
      | .error e => some (.error (.beaconUnavailable e), self)
      | .ok _ =>
          let first := singleLookup beacon false (answers 0 beacon)
          if first.kClosest.isEmpty then
            some (.error (.bail "Failed to join network. Beacon node did not respond.".toList), self)
          else
            let initial := first.kClosest.filter (fun node => node ≠ self.toNodeInfo)
            (self.nodeLookup self.key initial [[first]] answers fuel).map fun s =>
              match storeUntilError table
                  (s.buffer.getResponsiveNodes.zipIdx.map fun n => (n.1, pings (n.2 + 1))) with
              | (.error e, table) => (.error (.routingTable e), { self with routingTable := table })
              | (.ok _, table) => (.ok s.buffer.getResultingVector, { self with routingTable := table })

/-- The search for a storer after the round loop has left with `s`; with it the answers of
all rounds of the call. -/
def storerOf (target : Key) (answers : Answers) (s : LookupRun) :
    Except LookupError NodeInfo × List (List LookupResponse) :=
  let failure := LookupError.bail ("Failed to find storer for chunk ".toList ++ target.toHexString ++ ['.'])
  let currentResponses := s.rounds.headD []
  match currentResponses.find? LookupResponse.isValue with
  | some response => (.ok response.resolver, s.rounds)
  | none =>
      let remainingResolvers := s.buffer.getUnqueriedResultingNodes
      if remainingResolvers.isEmpty then (.error failure, s.rounds)
      else
        let remainingResponses := lookupRound remainingResolvers true (answers s.rounds.length)
        match remainingResponses.find? LookupResponse.isValue with
        | some response => (.ok response.resolver, remainingResponses :: s.rounds)
        | none => (.error failure, remainingResponses :: s.rounds)

/-- `find_storer`; `readChunkOk` tells whether this node holds the chunk itself. -/
def findStorer (self : Node) (target : Key) (readChunkOk : Bool) (answers : Answers) (fuel : Nat) :
    Option (Except LookupError NodeInfo × List (List LookupResponse)) :=
  if readChunkOk then some (.ok self.toNodeInfo, [])
  else match self.routingTable.getAlphaClosest target with
    | .error e => some (.error (.routingTable e), [])
    | .ok initialResolvers =>
        if initialResolvers.isEmpty then
          some (.error (.bail "No initial resolvers available for find_value resolutions".toList), [])
        else (runLoop (lookupPass true answers) fuel
          ⟨LookupBuffer.new target initialResolvers self.toNodeInfo, []⟩).map (storerOf target answers)

end Node

section Passes
variable {forValue : Bool} {answers : Answers} {s s' t : LookupRun}

def nextRound (forValue : Bool) (answers : Answers) (s : LookupRun) : List LookupResponse :=
  lookupRound s.buffer.batch forValue (answers s.rounds.length)

def nextBuffer (forValue : Bool) (answers : Answers) (s : LookupRun) : Bool × LookupBuffer :=
  s.buffer.markBatch.recordLookupRoundResponses (nextRound forValue answers s) forValue

theorem lookupRound_nil (answer : NodeInfo → Except NodeError Response) :
    lookupRound [] forValue answer = [] := rfl

theorem singleLookup_resolver (c : NodeInfo) (forValue : Bool) (o : Except NodeError Response) :
    (singleLookup c forValue o).resolver = c := by
  unfold singleLookup
  split
  · split
    · rfl
    · split_ifs <;> rfl
    · rfl
  · rfl

theorem lookupRound_resolvers (cs : List NodeInfo) (forValue : Bool)
    (answer : NodeInfo → Except NodeError Response) :
    (lookupRound cs forValue answer).map LookupResponse.resolver = cs := by
  rw [lookupRound, List.map_map]
  exact (List.map_congr_left fun c _ => singleLookup_resolver c forValue _).trans (List.map_id cs)

/-- Everything a pass can do. -/
theorem lookupPass_cases (forValue : Bool) (answers : Answers) (s : LookupRun) :
    (s.buffer.batch = [] ∧ lookupPass forValue answers s = .exit s) ∨
    (s.buffer.batch ≠ [] ∧
      ((nextBuffer forValue answers s).1 = true ∧ lookupPass forValue answers s =
          .next ⟨(nextBuffer forValue answers s).2, nextRound forValue answers s :: s.rounds⟩ ∨
        (nextBuffer forValue answers s).1 = false ∧ lookupPass forValue answers s =
          .exit ⟨(nextBuffer forValue answers s).2, nextRound forValue answers s :: s.rounds⟩)) := by
  simp only [lookupPass, nextBuffer, nextRound, LookupBuffer.getAlphaUnqueriedNodes_eq]
  by_cases hbatch : s.buffer.batch = []
  · left
    refine ⟨hbatch, ?_⟩
    have hmark : s.buffer.markBatch = s.buffer := by
      unfold LookupBuffer.markBatch
      simp [hbatch]
    rw [if_pos (List.isEmpty_iff.mpr hbatch), hmark]
  · right
    refine ⟨hbatch, ?_⟩
    rw [if_neg fun h => hbatch (List.isEmpty_iff.mp h)]
    cases (s.buffer.markBatch.recordLookupRoundResponses
        (lookupRound s.buffer.batch forValue (answers s.rounds.length)) forValue).1 with
    | true => exact .inl ⟨rfl, rfl⟩
    | false => exact .inr ⟨rfl, rfl⟩

theorem lookupPass_next (h : lookupPass forValue answers s = .next s') :
    s.buffer.batch ≠ [] ∧
      s' = ⟨(nextBuffer forValue answers s).2, nextRound forValue answers s :: s.rounds⟩ := by
  rcases lookupPass_cases forValue answers s with ⟨-, he⟩ | ⟨hbatch, ⟨-, he⟩ | ⟨-, he⟩⟩
  · rw [he] at h; cases h
  · rw [he] at h; cases h; exact ⟨hbatch, rfl⟩
  · rw [he] at h; cases h

theorem lookupPass_exit (h : lookupPass forValue answers s = .exit t) :
    s.buffer.batch = [] ∧ t = s ∨
    s.buffer.batch ≠ [] ∧ (nextBuffer forValue answers s).1 = false ∧
      t = ⟨(nextBuffer forValue answers s).2, nextRound forValue answers s :: s.rounds⟩ := by
  rcases lookupPass_cases forValue answers s with ⟨hbatch, he⟩ | ⟨hbatch, ⟨-, he⟩ | ⟨hstop, he⟩⟩
  · rw [he] at h; cases h; exact .inl ⟨hbatch, rfl⟩
  · rw [he] at h; cases h
  · rw [he] at h; cases h; exact .inr ⟨hbatch, hstop, rfl⟩

/-- Every round of a finished loop was run from a visited state or was there before. -/
theorem exits_rounds_mem (h : Exits (lookupPass forValue answers) s t) {rs : List LookupResponse}
    (hrs : rs ∈ t.rounds) :
    rs ∈ s.rounds ∨ ∃ s', Visits (lookupPass forValue answers) s s' ∧ rs = nextRound forValue answers s' := by
  obtain ⟨u, hu, he⟩ := h
  induction hu with
  | refl s =>
      rcases lookupPass_exit he with ⟨-, rfl⟩ | ⟨-, -, rfl⟩
      · exact .inl hrs
      · rcases List.mem_cons.mp hrs with rfl | hold
        · exact .inr ⟨s, .refl s, rfl⟩
        · exact .inl hold
  | @step s s1 u hs hu ih =>
      rcases ih he with hold | ⟨s', hs', hr⟩
      · rw [(lookupPass_next hs).2] at hold
        rcases List.mem_cons.mp hold with rfl | hold
        · exact .inr ⟨s, .refl s, rfl⟩
        · exact .inl hold
      · exact .inr ⟨s', .step hs hs', hr⟩

theorem exits_rounds_subset (h : Exits (lookupPass forValue answers) s t) : s.rounds ⊆ t.rounds := by
  obtain ⟨u, hu, he⟩ := h
  induction hu with
  | refl s =>
      rcases lookupPass_exit he with ⟨-, rfl⟩ | ⟨-, -, rfl⟩
      · exact List.Subset.refl _
      · exact List.subset_cons_self _ _
  | step hs hu ih =>
      obtain ⟨-, rfl⟩ := lookupPass_next hs
      exact fun rs hrs => ih he (List.mem_cons_of_mem _ hrs)

theorem nextRound_mem_of_exits (h : Exits (lookupPass forValue answers) s t) (hbatch : s.buffer.batch ≠ []) :
    nextRound forValue answers s ∈ t.rounds := by
  obtain ⟨u, hu, he⟩ := h
  cases hu with
  | refl =>
      rcases lookupPass_exit he with ⟨hnil, -⟩ | ⟨-, -, rfl⟩
      · exact absurd hnil hbatch
      · exact List.mem_cons_self
  | step hs hu =>
      obtain ⟨-, rfl⟩ := lookupPass_next hs
      exact exits_rounds_subset ⟨u, hu, he⟩ List.mem_cons_self

theorem exits_invariant {I : LookupRun → Prop}
    (hround : ∀ s, I s → s.buffer.batch ≠ [] →
      I ⟨(nextBuffer forValue answers s).2, nextRound forValue answers s :: s.rounds⟩)
    (h : Exits (lookupPass forValue answers) s t) (hs : I s) : I t := by
  obtain ⟨u, hu, he⟩ := h
  have hI : I u := visits_invariant (fun s s' hI hb => by
    obtain ⟨hbatch, rfl⟩ := lookupPass_next hb
    exact hround s hI hbatch) hu hs
  rcases lookupPass_exit he with ⟨-, rfl⟩ | ⟨hbatch, -, rfl⟩
  · exact hI
  · exact hround u hI hbatch

/-- Every round asks somebody new and only finitely many contacts exist, so the round loop
of every lookup ends, whatever is answered. -/
theorem lookup_exits (forValue : Bool) (answers : Answers) (s : LookupRun) :
    ∃ t, Exits (lookupPass forValue answers) s t := by
  have := Fintype.ofFinite NodeInfo
  refine exits_of_measure (I := fun _ => True) (fun s => s.buffer.remaining Finset.univ) ?_ trivial
  intro s s' _ hnext
  obtain ⟨hbatch, rfl⟩ := lookupPass_next hnext
  exact ⟨trivial, (LookupBuffer.remaining_record_le (fun _ _ c _ => Finset.mem_univ c) _ forValue).trans_lt
    (LookupBuffer.remaining_markBatch_lt Finset.univ hbatch)⟩

end Passes

end P2PFilesystem
