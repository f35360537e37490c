import P2PFilesystem.RoundEntries
import P2PFilesystem.SelfLookup

/-!
# The ids in a lookup

The buffer tells contacts apart by id and address, and compares them whole with this node;
marking, asking and storing go by id. Whether an id has one entry is therefore up to what
the answers list.
-/
namespace P2PFilesystem
open LoopFuel

/-- Some answer of the run lists the contact, and the round got that far. -/
def LookupRun.Lists (forValue : Bool) (s : LookupRun) (c : NodeInfo) : Prop :=
  ∃ rs ∈ s.rounds, LookupBuffer.Reports (LookupBuffer.heard forValue rs) c

/-- The buffer holds what the answers so far list, this node apart. -/
def LookupRun.Covers (forValue : Bool) (s : LookupRun) : Prop :=
  ∀ c, s.Lists forValue c → c ≠ s.buffer.thisNode → c ∈ s.buffer.contacts

/-- From `start` to `s` the buffer takes in each new contact that is listed, once. -/
structure Gathers (forValue : Bool) (start s : LookupRun) : Prop where
  thisNode_eq : s.buffer.thisNode = start.buffer.thisNode
  mem_iff : ∀ c, c ∈ s.buffer.contacts ↔
    c ∈ start.buffer.contacts ∨ c ≠ start.buffer.thisNode ∧ s.Lists forValue c
  perm : ∃ fresh, s.buffer.contacts.Perm (start.buffer.contacts ++ fresh) ∧ fresh.Nodup ∧
    ∀ c ∈ fresh, c ∉ start.buffer.contacts

theorem LookupRun.lists_cons {forValue : Bool} {b : LookupBuffer} {rs : List LookupResponse}
    {rounds : List (List LookupResponse)} {c : NodeInfo} (b' : LookupBuffer) :
    LookupRun.Lists forValue ⟨b, rs :: rounds⟩ c ↔
      LookupBuffer.Reports (LookupBuffer.heard forValue rs) c ∨ LookupRun.Lists forValue ⟨b', rounds⟩ c := by
  simp only [LookupRun.Lists, List.mem_cons, exists_eq_or_imp]

namespace Gathers
variable {forValue : Bool} {answers : Answers} {start s t : LookupRun}

theorem refl (h : start.Covers forValue) : Gathers forValue start start where
  thisNode_eq := rfl
  mem_iff := fun c => ⟨.inl, fun hc => hc.elim id fun hnew => h c hnew.2 hnew.1⟩
  perm := ⟨[], by rw [List.append_nil], List.nodup_nil, nofun⟩

theorem covers (h : Gathers forValue start s) : s.Covers forValue := by
  intro c hc hne
  rw [h.thisNode_eq] at hne
  exact (h.mem_iff c).mpr (.inr ⟨hne, hc⟩)

/-- A round over a buffer with the same contacts. -/
theorem record (h : Gathers forValue start s) {b : LookupBuffer} (hcontacts : b.contacts = s.buffer.contacts)
    (hthis : b.thisNode = s.buffer.thisNode) (rs : List LookupResponse) :
    Gathers forValue start ⟨(b.recordLookupRoundResponses rs forValue).2, rs :: s.rounds⟩ := by
  have hself : b.thisNode = start.buffer.thisNode := hthis.trans h.thisNode_eq
  constructor
  · exact LookupBuffer.record_of_recordResponses (I := fun b' => b'.thisNode = start.buffer.thisNode) (fun _ hb => hb)
      ((LookupBuffer.recordResponses_thisNode forValue rs b).trans hself)
  · intro c
    rw [LookupBuffer.mem_contacts_record, hcontacts, h.mem_iff, LookupRun.lists_cons s.buffer, hself]
    tauto
  · obtain ⟨more, hmore, hnodup, hmem⟩ := LookupBuffer.record_entries rs b forValue
    obtain ⟨fresh, hperm, hfresh, hnew⟩ := h.perm
    have hunknown : ∀ c ∈ more.map LookupNodeInfo.nodeInfo, c ∉ s.buffer.contacts := by
      intro c hc
      obtain ⟨f, hf, rfl⟩ := List.mem_map.mp hc
      rw [← hcontacts]
      exact ((hmem f).mp hf).unknown
    have hafter : (b.recordLookupRoundResponses rs forValue).2.contacts.Perm
        (s.buffer.contacts ++ more.map LookupNodeInfo.nodeInfo) := by
      have := hmore.map LookupNodeInfo.nodeInfo
      rw [List.map_append, List.map_map] at this
      rwa [← hcontacts]
    refine ⟨fresh ++ more.map LookupNodeInfo.nodeInfo, ?_, ?_, fun c hc => ?_⟩
    · rw [← List.append_assoc]
      exact hafter.trans (hperm.append_right _)
    · refine List.nodup_append.mpr ⟨hfresh, hnodup, fun c hc d hd heq => hunknown d hd ?_⟩
      exact hperm.mem_iff.mpr (List.mem_append_right _ (heq ▸ hc))
    · cases List.mem_append.mp hc with
      | inl hc => exact hnew c hc
      | inr hc =>
          intro hold
          exact hunknown c hc (hperm.mem_iff.mpr (List.mem_append_left _ hold))

theorem next (h : Gathers forValue start s) (answers : Answers) :
    Gathers forValue start ⟨(nextBuffer forValue answers s).2, nextRound forValue answers s :: s.rounds⟩ :=
  h.record s.buffer.contacts_markBatch rfl _

theorem visits (h : start.Covers forValue) (hs : Visits (lookupPass forValue answers) start s) :
    Gathers forValue start s := by
  refine visits_invariant (I := Gathers forValue start) (fun u u' hu hnext => ?_) hs (refl h)
  rw [(lookupPass_next hnext).2]
  exact hu.next answers

theorem exits (h : start.Covers forValue) (ht : Exits (lookupPass forValue answers) start t) :
    Gathers forValue start t :=
  exits_invariant (I := Gathers forValue start) (fun _ hu _ => hu.next answers) ht (refl h)

theorem closing (h : Gathers false start s) (answers : Answers) : Gathers false start (closingRound answers s) :=
  h.record rfl rfl _

/-- The entries of a run have one id each if its first ones have and no listed contact brings an id again. -/
theorem nodup_ids_iff (h : Gathers forValue start s) : (s.buffer.contacts.map NodeInfo.id).Nodup ↔
    (start.buffer.contacts.map NodeInfo.id).Nodup ∧ OneAddress (· ∈ s.buffer.contacts) := by
  obtain ⟨fresh, hperm, hfresh, hnew⟩ := h.perm
  rw [(hperm.map NodeInfo.id).nodup_iff]
  constructor
  · intro hnodup
    refine ⟨hnodup.sublist ((List.sublist_append_left _ _).map NodeInfo.id), fun a c ha hc hid => ?_⟩
    exact List.inj_on_of_nodup_map hnodup (hperm.mem_iff.mp ha) (hperm.mem_iff.mp hc) hid
  · rintro ⟨hstart, hone⟩
    have hnodup : (start.buffer.contacts ++ fresh).Nodup := by
      refine List.nodup_append.mpr ⟨List.Nodup.of_map _ hstart, hfresh, fun c hc d hd heq => ?_⟩
      exact hnew d hd (heq ▸ hc)
    exact hnodup.map_on fun a ha c hc hid => hone a c (hperm.mem_iff.mpr ha) (hperm.mem_iff.mpr hc) hid

theorem nodup_ids_of (h : Gathers forValue start s) (hnodup : (s.buffer.contacts.map NodeInfo.id).Nodup) :
    (start.buffer.contacts.map NodeInfo.id).Nodup := (h.nodup_ids_iff.mp hnodup).1

end Gathers

/-- How the lookups of a node start, by whether they are for a value. The first list of
`join_network` is what the beacon answers. -/
inductive Node.StartsLookup (self : Node) (answers : Answers) : Bool → LookupRun → Prop
  | findNode {target : Key} {now : Nat} {initial : List NodeInfo} {table : RoutingTable} :
      self.routingTable.lookupGetNClosest target alpha now = (.ok initial, table) →
      StartsLookup self answers false ⟨.new target initial self.toNodeInfo, []⟩
  | joinNetwork (beacon : NodeInfo) :
      StartsLookup self answers false ⟨.new self.key
        ((singleLookup beacon false (answers 0 beacon)).kClosest.filter (· ≠ self.toNodeInfo)) self.toNodeInfo,
        [[singleLookup beacon false (answers 0 beacon)]]⟩
  | findStorer {target : Key} {initial : List NodeInfo} :
      self.routingTable.getAlphaClosest target = .ok initial →
      StartsLookup self answers true ⟨.new target initial self.toNodeInfo, []⟩

/-- The run with its last round; that of `find_storer` is not recorded. -/
def lastRecorded (forValue : Bool) (answers : Answers) (t : LookupRun) : LookupRun :=
  if forValue then t else closingRound answers t

/-- The buffers of a lookup: in front of a round, while its batch is in flight, behind the loop, and at
the end. -/
inductive ReachesBuffer (forValue : Bool) (answers : Answers) (start : LookupRun) : LookupBuffer → Prop
  | visited {s : LookupRun} : Visits (lookupPass forValue answers) start s → ReachesBuffer forValue answers start s.buffer
  | inFlight {s : LookupRun} : Visits (lookupPass forValue answers) start s →
      ReachesBuffer forValue answers start s.buffer.markBatch
  | left {t : LookupRun} : Exits (lookupPass forValue answers) start t → ReachesBuffer forValue answers start t.buffer
  | last {t : LookupRun} : Exits (lookupPass forValue answers) start t →
      ReachesBuffer forValue answers start (lastRecorded forValue answers t).buffer

/-- One id each, and none of them the own one. -/
def Node.Apart (self : Node) (contacts : List NodeInfo) : Prop :=
  (contacts.map NodeInfo.id).Nodup ∧ self.key ∉ contacts.map NodeInfo.id

/-- A lookup in which ids stand for contacts: in all its buffers, in what it asks in a round and in the
last one, and in what it stores in the end. -/
structure Node.DistinctIds (node : Node) (forValue : Bool) (answers : Answers) (start : LookupRun) : Prop where
  buffers : ∀ b, ReachesBuffer forValue answers start b → node.Apart b.contacts
  asks : ∀ s, Visits (lookupPass forValue answers) start s → node.Apart s.buffer.batch
  asksLast : ∀ t, Exits (lookupPass forValue answers) start t → node.Apart t.buffer.getUnqueriedResultingNodes
  stores : ∀ t, Exits (lookupPass forValue answers) start t →
    node.Apart (lastRecorded forValue answers t).buffer.getResponsiveNodes

/-- The first contacts have distinct ids, and no contact that is listed brings one of them again, that of
another listed one or the own id. -/
structure Node.ListsIdsOnce (node : Node) (forValue : Bool) (start s : LookupRun) : Prop where
  start_nodup : (start.buffer.contacts.map NodeInfo.id).Nodup
  one_address : OneAddress fun c => c ∈ start.buffer.contacts ∨ c ≠ node.toNodeInfo ∧ s.Lists forValue c
  not_own : ∀ c, c ∈ start.buffer.contacts ∨ c ≠ node.toNodeInfo ∧ s.Lists forValue c → c.id ≠ node.key

namespace Node
variable {self : Node} {forValue : Bool} {answers : Answers} {start s t : LookupRun}

theorem StartsLookup.buffer_eq (h : self.StartsLookup answers forValue start) :
    ∃ target initial, start.buffer = .new target initial self.toNodeInfo := by
  cases h with
  | findNode _ => exact ⟨_, _, rfl⟩
  | joinNetwork beacon => exact ⟨_, _, rfl⟩
  | findStorer _ => exact ⟨_, _, rfl⟩

theorem StartsLookup.thisNode (h : self.StartsLookup answers forValue start) :
    start.buffer.thisNode = self.toNodeInfo := by
  obtain ⟨target, initial, hbuffer⟩ := h.buffer_eq
  rw [hbuffer]
  rfl

theorem StartsLookup.covers (h : self.StartsLookup answers forValue start) : start.Covers forValue := by
  intro c hc hne
  obtain ⟨rs, hrs, r, hr, -, hk⟩ := hc
  cases h with
  | findNode _ => cases hrs
  | joinNetwork beacon =>
      rw [List.mem_singleton.mp hrs, LookupBuffer.heard_false, List.mem_singleton] at hr
      rw [hr] at hk
      exact (LookupBuffer.contacts_new_perm _ _ _).mem_iff.mpr (List.mem_filter.mpr ⟨hk, decide_eq_true hne⟩)
  | findStorer _ => cases hrs

theorem Apart.sublist {cs ds : List NodeInfo} (h : self.Apart ds) (hsub : cs.Sublist ds) : self.Apart cs :=
  ⟨h.1.sublist (hsub.map NodeInfo.id), fun hin => h.2 ((hsub.map NodeInfo.id).subset hin)⟩

/-- What holds of the ids at the end held before. -/
theorem Apart.of_gathers (h : self.Apart t.buffer.contacts) (hs : Gathers forValue s t) : self.Apart s.buffer.contacts := by
  refine ⟨hs.nodup_ids_of h.1, fun hin => h.2 ?_⟩
  obtain ⟨c, hc, hid⟩ := List.mem_map.mp hin
  exact hid ▸ List.mem_map_of_mem ((hs.mem_iff c).mpr (.inl hc))

theorem gathers_lastRecorded (h : start.Covers forValue) (ht : Exits (lookupPass forValue answers) start t) :
    Gathers forValue start (lastRecorded forValue answers t) := by
  cases forValue with
  | true => exact Gathers.exits h ht
  | false => exact (Gathers.exits h ht).closing answers

theorem gathers_last_of_exits (h : s.Covers forValue) :
    Gathers forValue s (lastRecorded forValue answers s) := by
  cases forValue with
  | true => exact .refl h
  | false => exact (Gathers.refl h).closing answers

theorem apart_lastRecorded_iff (hstart : self.StartsLookup answers forValue start)
    (ht : Exits (lookupPass forValue answers) start t) :
    self.Apart (lastRecorded forValue answers t).buffer.contacts ↔
      self.ListsIdsOnce forValue start (lastRecorded forValue answers t) := by
  have hgathers := gathers_lastRecorded hstart.covers ht
  have hmem := hgathers.mem_iff
  rw [hstart.thisNode] at hmem
  have hown : self.key ∉ (lastRecorded forValue answers t).buffer.contacts.map NodeInfo.id ↔
      ∀ c ∈ (lastRecorded forValue answers t).buffer.contacts, c.id ≠ self.key := by
    simp only [List.mem_map, not_exists, not_and, ne_eq]
  unfold Apart
  rw [hgathers.nodup_ids_iff, hown]
  simp only [hmem]
  constructor
  · rintro ⟨⟨hnodup, hone⟩, hnot⟩
    exact ⟨hnodup, hone, hnot⟩
  · intro h
    exact ⟨⟨h.start_nodup, h.one_address⟩, h.not_own⟩

/-- Ids stand for contacts throughout a lookup exactly if its start and the answers to it list each id with one
address, and never the own id except as this node. -/
theorem distinctIds_iff (hstart : self.StartsLookup answers forValue start) : ∃ t,
    Exits (lookupPass forValue answers) start t ∧
    (self.DistinctIds forValue answers start ↔
      self.ListsIdsOnce forValue start (lastRecorded forValue answers t)) := by
  obtain ⟨t, ht⟩ := lookup_exits forValue answers start
  refine ⟨t, ht, ?_⟩
  rw [← apart_lastRecorded_iff hstart ht]
  constructor
  · intro h
    exact h.buffers _ (.last ht)
  · intro hlast
    have hleft : self.Apart t.buffer.contacts :=
      hlast.of_gathers (gathers_last_of_exits (Gathers.exits hstart.covers ht).covers)
    have hvisited : ∀ s, Visits (lookupPass forValue answers) start s → self.Apart s.buffer.contacts := by
      intro s hs
      exact hleft.of_gathers (Gathers.exits (Gathers.visits hstart.covers hs).covers (ht.of_visits hs))
    constructor
    · intro b hb
      cases hb with
      | visited hs => exact hvisited _ hs
      | inFlight hs =>
          rw [LookupBuffer.contacts_markBatch]
          exact hvisited _ hs
      | left ht' => exact ht.unique ht' ▸ hleft
      | last ht' => exact ht.unique ht' ▸ hlast
    · intro s hs
      exact (hvisited s hs).sublist ((List.take_sublist _ _).trans (List.filter_sublist.map LookupNodeInfo.nodeInfo))
    · intro t' ht'
      rw [← ht.unique ht']
      exact hleft.sublist ((List.filter_sublist.trans (List.take_sublist _ _)).map LookupNodeInfo.nodeInfo)
    · intro t' ht'
      rw [← ht.unique ht']
      exact hlast.sublist (List.filter_sublist.map LookupNodeInfo.nodeInfo)

/-- A lookup that starts from the own table starts with distinct ids. -/
theorem StartsLookup.apart_of_valid (hvalid : self.routingTable.Valid) (hid : self.routingTable.id = self.key)
    (hstart : self.StartsLookup answers forValue start) (hown : start.rounds = []) : self.Apart start.buffer.contacts := by
  have hinitial : ∀ (target : Key) (initial : List NodeInfo), initial.Nodup → initial ⊆ self.routingTable.getAllNodeinfos →
      self.Apart (LookupBuffer.new target initial self.toNodeInfo).contacts := by
    intro target initial hnodup hsub
    have hperm := LookupBuffer.contacts_new_perm target initial self.toNodeInfo
    constructor
    · refine (hperm.map NodeInfo.id).nodup_iff.mpr (hnodup.map_on fun a ha c hc hac => ?_)
      exact List.inj_on_of_nodup_map hvalid.nodup_ids (hsub ha) (hsub hc) hac
    · intro hin
      obtain ⟨c, hc, hcid⟩ := List.mem_map.mp hin
      apply hvalid.id_notMem
      rw [hid, ← hcid]
      exact List.mem_map_of_mem (hsub (hperm.mem_iff.mp hc))
  cases hstart with
  | findNode h =>
      obtain ⟨hnodup, hsub⟩ := hvalid.lookupGetNClosest_subset h
      exact hinitial _ _ hnodup hsub
  | joinNetwork beacon => cases hown
  | findStorer h =>
      obtain ⟨hnodup, hsub⟩ := hvalid.getNClosest_subset h
      exact hinitial _ _ hnodup hsub

end Node

/-- The search of `lateNode` in its own table. -/
def lateStart : LookupRun := ⟨.new (Key.ofTopByte 0x80 0) [.local 0x40 8080] lateNode.toNodeInfo, []⟩

theorem lateNode_starts (answers : Answers) : lateNode.StartsLookup answers false lateStart := by
  have hfound : (lateNode.routingTable.lookupGetNClosest (Key.ofTopByte 0x80 0) alpha 0).1 = .ok [.local 0x40 8080] := by
    decide +kernel
  have hlookup : lateNode.routingTable.lookupGetNClosest (Key.ofTopByte 0x80 0) alpha 0 =
      (.ok [.local 0x40 8080], (lateNode.routingTable.lookupGetNClosest (Key.ofTopByte 0x80 0) alpha 0).2) :=
    Prod.ext hfound rfl
  exact .findNode hlookup

/-- Everybody answers: the first contact lists two others, and these list what is known already. -/
def promptReply (c : NodeInfo) : Except NodeError Response :=
  .ok ⟨.nodes (if c = .local 0x40 8080 then [.local 0x82 8080, .local 0x81 8080] else [.local 0x40 8080, .local 0x81 8080]),
    c, lateNode.toNodeInfo, zeroRequestId⟩

def promptContacts : List NodeInfo := [.local 0x81 8080, .local 0x82 8080, .local 0x40 8080]

/-- The lookup ends after two rounds, with everybody asked. -/
theorem promptReply_exits : ∃ t, Exits (lookupPass false fun _ => promptReply) lateStart t ∧ t.rounds.length = 2 ∧
    t.buffer.contacts = promptContacts ∧ t.buffer.getUnqueriedResultingNodes = [] ∧
    (closingRound (fun _ => promptReply) t).buffer.contacts = promptContacts ∧
    (closingRound (fun _ => promptReply) t).buffer.getResponsiveNodes = promptContacts := by
  have hrun : (runLoop (lookupPass false fun _ => promptReply) 4 lateStart).any (fun t => decide (t.rounds.length = 2) &&
      decide (t.buffer.contacts = promptContacts) && decide (t.buffer.getUnqueriedResultingNodes = []) &&
      decide ((closingRound (fun _ => promptReply) t).buffer.contacts = promptContacts) &&
      decide ((closingRound (fun _ => promptReply) t).buffer.getResponsiveNodes = promptContacts)) = true := by
    decide +kernel
  obtain ⟨t, ht, hcheck⟩ := (Option.any_eq_true _ _).mp hrun
  simp only [Bool.and_eq_true, decide_eq_true_eq] at hcheck
  obtain ⟨⟨⟨⟨hrounds, hcontacts⟩, hnone⟩, hclosing⟩, hresponsive⟩ := hcheck
  exact ⟨t, runLoop_iff_exits.mp ⟨4, ht⟩, hrounds, hcontacts, hnone, hclosing, hresponsive⟩

/-- Three contacts answer in two rounds, and each id stays with one of them. -/
theorem lateNode_distinctIds_prompt : lateNode.DistinctIds false (fun _ => promptReply) lateStart ∧
    ∃ t, Exits (lookupPass false fun _ => promptReply) lateStart t ∧ t.rounds.length = 2 ∧
      t.buffer.contacts = promptContacts := by
  have hstart := lateNode_starts fun _ => promptReply
  obtain ⟨t, ht, hiff⟩ := Node.distinctIds_iff hstart
  obtain ⟨u, hu, hrounds, hcontacts, -, hclosing, -⟩ := promptReply_exits
  obtain rfl := ht.unique hu
  have hapart : lateNode.Apart (lastRecorded false (fun _ => promptReply) t).buffer.contacts := by
    have hlast : (lastRecorded false (fun _ => promptReply) t).buffer.contacts = promptContacts := hclosing
    rw [hlast]
    exact ⟨by decide, by decide⟩
  exact ⟨hiff.mpr ((Node.apart_lastRecorded_iff hstart ht).mp hapart), t, ht, hrounds, hcontacts⟩

/-- The first answer lists an id with two addresses and the own id with a third one. -/
def repeatedIds : Answers := fun _ c =>
  .ok ⟨.nodes [.local 0x81 8080, .local 0x81 8081, .local 0 9000], c, lateNode.toNodeInfo, zeroRequestId⟩

theorem lateNode_repeatedIds : lateNode.StartsLookup repeatedIds false lateStart ∧
    ¬ lateNode.DistinctIds false repeatedIds lateStart := by
  refine ⟨lateNode_starts repeatedIds, fun h => ?_⟩
  have hpass : (match lookupPass false repeatedIds lateStart with
      | .next s => decide (s.buffer.contacts.map NodeInfo.id).Nodup
      | .exit _ => true) = false := by decide +kernel
  cases hnext : lookupPass false repeatedIds lateStart with
  | next s =>
      rw [hnext] at hpass
      exact of_decide_eq_false hpass (h.buffers _ (.visited (.step hnext (.refl s)))).1
  | exit t =>
      rw [hnext] at hpass
      cases hpass

end P2PFilesystem
