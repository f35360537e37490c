import P2PFilesystem.AnsweringPeers

/-!
# Finding the nearest node

In a network of any size a node knows few others. It is enough that each knows somebody in
every part of the key space where there is somebody: whoever is not the nearest to a key
then knows a nearer one, and a lookup, which ends with everybody it returns asked, has the
nearest node of the whole network in front. The call returns it once its table update ends,
which it does unless a responsive node belongs into a full bucket.
-/
namespace P2PFilesystem
open LoopFuel

/-- A table by which a lookup of `asker` finds its way: all its contacts fit into an answer and
are live, and each bucket that a live node belongs to has somebody in it. -/
structure RoutingTable.Guides (t : RoutingTable) (live : NodeInfo → Prop) (asker n : NodeInfo) : Prop where
  informed : t.Informed asker n
  known : ∀ c ∈ t.getAllNodeinfos, live c ∨ c = asker
  represents : ∀ b, live b → b ≠ asker → b ≠ n →
    ∃ z ∈ t.getAllNodeinfos, z ≠ asker ∧ t.getBucketIndex z.id = t.getBucketIndex b.id

/-- The own table of the asking node, which knows live nodes only. -/
structure RoutingTable.Lists (t : RoutingTable) (live : NodeInfo → Prop) (asker : NodeInfo) : Prop where
  id_eq : t.id = asker.id
  valid : t.Valid
  live_of_mem : ∀ c ∈ t.getAllNodeinfos, live c

/-- Every live node guides the lookups of the asking node. -/
structure Navigable (live : NodeInfo → Prop) (asker : NodeInfo) (net : PeerNetwork) : Prop where
  guides : ∀ a, live a → a ≠ asker → (net.table a).Guides live asker a
  own : (net.table asker).Lists live asker

/-- The live nodes and the asking one. -/
def TakesPart (live : NodeInfo → Prop) (asker : NodeInfo) (c : NodeInfo) : Prop := live c ∨ c = asker

section Guiding
variable {live : NodeInfo → Prop} {me a : NodeInfo} {t : RoutingTable} {net : PeerNetwork} {target : Key}

theorem RoutingTable.getBucketIndex_storeNodeinfo (t : RoutingTable) (x : NodeInfo) (ping : PingOutcome) (key : Key) :
    (t.storeNodeinfo x ping).2.getBucketIndex key = t.getBucketIndex key := by
  simp only [getBucketIndex_eq, storeNodeinfo_id]

/-- A table that guides the asking node still does once it has stored it. -/
theorem RoutingTable.Guides.store (h : t.Guides live me a) (hone : OneAddress (TakesPart live me)) (hlive : live a)
    (hne : a ≠ me) (ping : PingOutcome) : (t.storeNodeinfo me ping).2.Guides live me a := by
  have hid : a.id ≠ me.id := fun hid => hne (hone a me (.inl hlive) (.inr rfl) hid)
  have hperm := h.informed.stored_perm hid ping
  have hmem : ∀ c, c ∈ (t.storeNodeinfo me ping).2.getAllNodeinfos ↔ c ∈ listedTo me t.getAllNodeinfos := fun c =>
    hperm.mem_iff
  have hvalid := storeNodeinfo_valid h.informed.valid me ping
  refine ⟨⟨?_, hvalid, ?_⟩, fun c hc => ?_, fun b hb hbme hba => ?_⟩
  · rw [storeNodeinfo_id, h.informed.id_eq]
  · refine h.informed.fits.mono ((nodup_listedTo hvalid me).subperm fun c hc => ?_)
    rcases List.mem_cons.mp hc with rfl | hc
    · exact List.mem_cons_self
    · exact (hmem c).mp (List.mem_of_mem_filter hc)
  · rcases List.mem_cons.mp ((hmem c).mp hc) with rfl | hc
    · exact .inr rfl
    · exact h.known c (List.mem_of_mem_filter hc)
  · obtain ⟨z, hz, hzme, hindex⟩ := h.represents b hb hbme hba
    refine ⟨z, (hmem z).mpr (List.mem_cons_of_mem me (List.mem_filter.mpr ⟨hz, ?_⟩)), hzme, ?_⟩
    · simpa using fun hid => hzme (hone z me (h.known z hz) (.inr rfl) hid)
    · simp only [getBucketIndex_storeNodeinfo, hindex]

/-- Whoever is not nearest to a key knows a nearer node. -/
theorem RoutingTable.Guides.nearer (h : t.Guides live me a) {b : NodeInfo} (hb : live b) (hbme : b ≠ me)
    (hlt : b.id.dist target < a.id.dist target) :
    ∃ z ∈ t.getAllNodeinfos, z ≠ me ∧ z.id.dist target < a.id.dist target := by
  have hba : b ≠ a := fun hba => Nat.lt_irrefl _ (hba ▸ hlt)
  have hids : t.id ≠ b.id := by
    rw [h.informed.id_eq]
    exact fun hid => Nat.lt_irrefl _ (hid ▸ hlt)
  obtain ⟨z, hz, hzme, hindex⟩ := h.represents b hb hbme hba
  have hbucket : t.getBucketIndex b.id = .ok (t.id.dist b.id).log2 := getBucketIndex_ok.mpr ⟨hids, rfl⟩
  have hbit := (dist_lt_own_iff hbucket target).mp (h.informed.id_eq.symm ▸ hlt)
  have hcloser := (dist_lt_own_iff (hindex.trans hbucket) target).mpr hbit
  exact ⟨z, hz, hzme, h.informed.id_eq ▸ hcloser⟩

theorem Navigable.request (h : Navigable live me net) (hone : OneAddress (TakesPart live me)) (type : RequestType)
    (c : NodeInfo) (transit : Transit) : Navigable live me (sendLookupRequest me type c transit net).2 := by
  rcases table_sendLookupRequest me c type transit net with hsame | ⟨hcme, hstored, hrest⟩
  · refine ⟨fun a ha hne => ?_, ?_⟩
    · rw [hsame a]
      exact h.guides a ha hne
    · rw [hsame me]
      exact h.own
  · refine ⟨fun a ha hne => ?_, ?_⟩
    · by_cases hac : a = c
      · subst hac
        rw [hstored]
        exact (h.guides a ha hne).store hone ha hne _
      · rw [hrest a hac]
        exact h.guides a ha hne
    · rw [hrest me (Ne.symm hcme)]
      exact h.own

/-- The asking node may store live nodes. -/
theorem Navigable.setTable (h : Navigable live me net) {table : RoutingTable} (hown : table.Lists live me) :
    Navigable live me (net.setTable me table) where
  guides := by
    intro a ha hne
    rw [PeerNetwork.table_setTable_of_ne hne]
    exact h.guides a ha hne
  own := by
    rw [PeerNetwork.table_setTable]
    exact hown

theorem RoutingTable.Lists.storeAll (h : t.Lists live me) {stores : List (NodeInfo × PingOutcome)}
    (hstores : ∀ s ∈ stores, live s.1 ∧ s.1 ≠ me) : (t.storeAll stores).Lists live me where
  id_eq := by rw [storeAll_id, h.id_eq]
  valid := storeAll_valid h.valid stores
  live_of_mem := by
    intro c hc
    rcases h.valid.mem_storeAll hc with hold | hnew
    · exact h.live_of_mem c hold
    · obtain ⟨s, hs, rfl⟩ := List.mem_map.mp hnew
      exact (hstores s hs).1

end Guiding

/-- A lookup for a key that is no live node's id, in a network where every live node answers
and what else goes on leaves it navigable. -/
structure Expedition (live : NodeInfo → Prop) (me : NodeInfo) (target : Key) (traffic : Traffic) : Prop where
  oneAddress : OneAddress (TakesPart live me)
  key_ne : ∀ c, live c → c ≠ me → c.id ≠ target
  answered : ∀ round c, live c → c ≠ me → (traffic.transit round c).Answered me c
  others : ∀ round net, Navigable live me net → Navigable live me (traffic.others round net)

namespace Expedition
variable {live : NodeInfo → Prop} {me a : NodeInfo} {net : PeerNetwork} {traffic : Traffic} {target : Key}
  {answers : Answers} {initial : List NodeInfo} {s t : LookupRun} (h : Expedition live me target traffic)
include h

theorem kept (forValue : Bool) : KeptInLookup me target forValue traffic (Navigable live me) where
  others := h.others
  request := fun _ c _ hnet => hnet.request h.oneAddress _ c _

section Rounds
variable (hfrom : ComeFrom me target false traffic (Navigable live me) answers)
include hfrom

/-- A live node answers with all its contacts, of a table that guides the asking node. -/
theorem answer (round : Nat) (ha : live a) (hne : a ≠ me) :
    ∃ l response, ∃ table : RoutingTable, answers round a = .ok response ∧ response.responseType = .nodes l ∧
      table.Guides live me a ∧ ∀ c, c ∈ l ↔ c ∈ listedTo me table.getAllNodeinfos := by
  obtain ⟨net, hnet, hround⟩ := hfrom round
  have hguides := (h.others round net hnet).guides a ha hne
  have hid : a.id ≠ me.id := fun hid => hne (h.oneAddress a me (.inl ha) (.inr rfl) hid)
  obtain ⟨l, hl, hperm⟩ := hguides.informed.answer hid (h.key_ne a ha hne) (h.answered round a ha hne)
  rw [hround]
  exact ⟨l, _, _, hl, rfl, hguides, fun c => hperm.mem_iff⟩

theorem answersKnown : AnswersKnown (TakesPart live me) me answers := by
  intro round c hc hne
  obtain ⟨l, response, table, hanswer, htype, hguides, hl⟩ := h.answer hfrom round (hc.resolve_right hne) hne
  refine ⟨l, response, hanswer, htype, fun d hd => ?_⟩
  rcases List.mem_cons.mp ((hl d).mp hd) with rfl | hd
  · exact .inr rfl
  · exact hguides.known d (List.mem_of_mem_filter hd)

/-- No live node is nearer to the key than the first contact of a finished lookup. -/
theorem nearest (hs : ResponsiveRun (TakesPart live me) initial me (lookupStart target initial me))
    (hexits : Exits (lookupPass false answers) (lookupStart target initial me) t) {c : NodeInfo} {rest : List NodeInfo}
    (hhead : t.buffer.contacts = c :: rest) {b : NodeInfo} (hb : live b) (hbme : b ≠ me) :
    c.id.dist target ≤ b.id.dist target := by
  have hclosed := hs.closed h.oneAddress (fun _ hu => hu.batchAnswers (h.answersKnown hfrom)) hexits
  have htarget : t.buffer.target = target := exits_target hexits
  have hcmem : c ∈ t.buffer.contacts := hhead ▸ List.mem_cons_self
  obtain ⟨hcknown, hcme⟩ := hclosed.run.known_of_mem hcmem
  refine Nat.le_of_not_lt fun hlt => ?_
  have hanswered : t.Answered c := hclosed.answered_of_mem (by
    rw [hclosed.resultingVector_eq, List.map_take, ← LookupBuffer.contacts, hhead]
    exact List.mem_cons_self)
  obtain ⟨round, hreported⟩ := hanswered.reported hexits
  obtain ⟨l, response, table, hok, htype, hguides, hl⟩ := h.answer hfrom round (hcknown.resolve_right hcme) hcme
  obtain ⟨z, hz, hzme, hcloser⟩ := hguides.nearer hb hbme hlt
  -- the nearer node was reported, so it is in the buffer, behind the first contact
  have hlisted : z ∈ l := by
    refine (hl z).mpr (List.mem_cons_of_mem me (List.mem_filter.mpr ⟨hz, ?_⟩))
    simpa using fun hid => hzme (h.oneAddress z me (hguides.known z hz) (.inr rfl) hid)
  have hmem : z ∈ t.buffer.contacts := (hclosed.run.mem_contacts z).mpr ⟨hzme, .inr (hreported l response hok htype hlisted)⟩
  have hsorted : t.buffer.contacts.Pairwise fun x y => x.id.dist t.buffer.target ≤ y.id.dist t.buffer.target :=
    List.pairwise_map.mpr hclosed.run.allAnswered.sorted
  rw [hhead, htarget] at hsorted
  rw [hhead] at hmem
  rcases List.mem_cons.mp hmem with rfl | hrest
  · exact Nat.lt_irrefl _ hcloser
  · exact Nat.not_le_of_lt hcloser (List.rel_of_pairwise_cons hsorted hrest)

end Rounds

omit h in
/-- The contacts of a finished lookup are live nodes. -/
theorem contacts_live (hclosed : Closed (TakesPart live me) initial me t) {c : NodeInfo} (hc : c ∈ t.buffer.contacts) :
    live c ∧ c ≠ me := by
  obtain ⟨hknown, hcme⟩ := hclosed.run.known_of_mem hc
  exact ⟨hknown.resolve_right hcme, hcme⟩

end Expedition

/-- Three nodes, of which the first two know their neighbours in a row, and the one that asks
and knows the first only. -/
def rowTable (n : NodeInfo) : RoutingTable :=
  (RoutingTable.new n.id 0).storeAll (((if n = .local 0x80 4001 then [.local 0xC0 4002]
    else if n = .local 0xC0 4002 then [.local 0x80 4001, .local 0xE0 4003]
    else if n = .local 0xE0 4003 then [.local 0x80 4001, .local 0xC0 4002]
    else [.local 0x80 4001]) : List NodeInfo).map fun c => (c, fun _ => .error .responseTimeout))

def rowNetwork : PeerNetwork := ⟨fun n => ⟨{ Server.started n with routingTable := rowTable n }, ∅⟩, fun _ => rfl⟩

def rowNodes : List NodeInfo := [.local 0x80 4001, .local 0xC0 4002, .local 0xE0 4003]

theorem rowTable_valid (n : NodeInfo) : (rowTable n).Valid :=
  RoutingTable.storeAll_valid (RoutingTable.new_valid n.id 0) _

theorem rowNetwork_navigable : Navigable (· ∈ rowNodes) (.local 1 4000) rowNetwork := by
  have hown : ∀ c ∈ (rowTable (.local 1 4000)).getAllNodeinfos, c ∈ rowNodes := by decide +kernel
  refine ⟨fun a ha _ => ?_, ⟨by decide +kernel, rowTable_valid (.local 1 4000), hown⟩⟩
  have hid : ∀ a ∈ rowNodes, (rowTable a).id = a.id := by decide +kernel
  have hfits : ∀ a ∈ rowNodes, ListFits (listedTo (.local 1 4000) (rowTable a).getAllNodeinfos) a (.local 1 4000) := by
    decide +kernel
  have hknown : ∀ a ∈ rowNodes, ∀ c ∈ (rowTable a).getAllNodeinfos, c ∈ rowNodes := by decide +kernel
  have hrepresents : ∀ a ∈ rowNodes, ∀ b ∈ rowNodes, b ≠ a → ∃ z ∈ (rowTable a).getAllNodeinfos,
      z ≠ .local 1 4000 ∧ (rowTable a).getBucketIndex z.id = (rowTable a).getBucketIndex b.id := by decide +kernel
  exact ⟨⟨hid a ha, rowTable_valid a, hfits a ha⟩, fun c hc => .inl (hknown a ha c hc),
    fun b hb _ hba => hrepresents a ha b hb hba⟩

theorem rowNetwork_expedition : Expedition (· ∈ rowNodes) (.local 1 4000) (Key.ofTopByte 0xF0 0) steadyTraffic where
  oneAddress := by
    have hids : ∀ a ∈ .local 1 4000 :: rowNodes, ∀ b ∈ .local 1 4000 :: rowNodes, a.id = b.id → a = b := by decide +kernel
    exact fun a b ha hb => hids a (List.mem_cons.mpr ha.symm) b (List.mem_cons.mpr hb.symm)
  key_ne := by
    have hkeys : ∀ c ∈ rowNodes, c.id ≠ Key.ofTopByte 0xF0 0 := by decide +kernel
    exact fun c hc _ => hkeys c hc
  answered := fun _ _ _ hne => steadyTransit_answered hne
  others := fun _ _ => id

end P2PFilesystem
