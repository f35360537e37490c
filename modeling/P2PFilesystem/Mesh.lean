import P2PFilesystem.AnsweringPeers
import P2PFilesystem.XorMetric

/-!
# Networks in which everybody knows everybody

A small network is a mesh once its nodes have joined one after the other. While the list of
all other nodes fits into one answer, joining a mesh through any member makes a larger one,
and `find_node` in a mesh finds every other node.
-/
namespace P2PFilesystem
open LoopFuel KeySort

/-- The nodes of a network so small that each can list all others to any of them. -/
structure Roster where
  nodes : List NodeInfo
  nodup_ids : (nodes.map NodeInfo.id).Nodup
  fits : ∀ a ∈ nodes, ∀ b ∈ nodes, a ≠ b → ListFits (nodes.filter (· ≠ a)) a b

namespace Roster
variable (r : Roster)

theorem nodup : r.nodes.Nodup := List.Nodup.of_map _ r.nodup_ids

theorem oneAddress : OneAddress (· ∈ r.nodes) := fun _ _ ha hb hid =>
  List.inj_on_of_nodup_map r.nodup_ids ha hb hid

theorem length_le : r.nodes.length ≤ 15 := by
  cases hnodes : r.nodes with
  | nil => exact Nat.zero_le _
  | cons a rest =>
      cases hrest : rest with
      | nil => exact Nat.le_add_left 1 14
      | cons b rest' =>
          have hnd := r.nodup
          rw [hnodes, hrest] at hnd
          have hab : a ≠ b := fun h => (List.nodup_cons.mp hnd).1 (h ▸ List.mem_cons_self)
          have hfit := (r.fits a (by simp [hnodes]) b (by simp [hnodes, hrest]) hab).length_le
          have hall : r.nodes.filter (· ≠ a) = rest := by
            rw [hnodes, List.filter_cons_of_neg (by simp), List.filter_eq_self]
            intro c hc
            have hca : c ≠ a := fun h => (List.nodup_cons.mp hnd).1 (hrest ▸ h ▸ hc)
            simpa using hca
          rw [hall, hrest] at hfit
          rw [List.length_cons]
          omega

/-- Part of the nodes. -/
def sub (nodes : List NodeInfo) (h : nodes.Sublist r.nodes) : Roster where
  nodes := nodes
  nodup_ids := r.nodup_ids.sublist (h.map NodeInfo.id)
  fits := fun a ha b hb hne => (r.fits a (h.subset ha) b (h.subset hb) hne).mono
    (h.filter (fun c => decide (c ≠ a))).subperm

end Roster

/-- The table of a node that knows nobody but nodes from a list. -/
structure RoutingTable.Within (t : RoutingTable) (nodes : List NodeInfo) (n : NodeInfo) : Prop where
  id_eq : t.id = n.id
  valid : t.Valid
  subset : t.getAllNodeinfos ⊆ nodes

namespace RoutingTable.Within
variable {r : Roster} {t : RoutingTable} {n : NodeInfo}

theorem mono {nodes more : List NodeInfo} (h : t.Within nodes n) (hsub : nodes ⊆ more) : t.Within more n :=
  ⟨h.id_eq, h.valid, fun _ hc => hsub (h.subset hc)⟩

/-- A node that has just started knows nobody. -/
theorem new (n : NodeInfo) (now : Nat) : (RoutingTable.new n.id now).Within [] n where
  id_eq := rfl
  valid := new_valid n.id now
  subset := by
    intro c hc
    obtain ⟨b, hb, hcb⟩ := List.mem_flatMap.mp hc
    rw [List.eq_of_mem_replicate hb] at hcb
    cases hcb

variable (h : t.Within r.nodes n) (hn : n ∈ r.nodes)
include h

/-- The table of a node of the roster has room for all others. -/
theorem hasRoomFor (c : NodeInfo) : t.hasRoomFor c = true := by
  refine h.valid.hasRoomFor_of_length (lt_of_le_of_lt ?_ (by decide : 15 < K)) c
  exact ((List.Nodup.of_map _ h.valid.nodup_ids).subperm h.subset).length_le.trans r.length_le

include hn

theorem store {c : NodeInfo} (hc : c ∈ r.nodes) (hne : c ≠ n) (ping : PingOutcome) :
    (t.storeNodeinfo c ping).1 = .ok () ∧ (t.storeNodeinfo c ping).2.Within r.nodes n ∧
      ∀ d, d ∈ (t.storeNodeinfo c ping).2.getAllNodeinfos ↔ d = c ∨ d ∈ t.getAllNodeinfos := by
  have hid : t.id ≠ c.id := by
    rw [h.id_eq]
    exact fun hid => hne (r.oneAddress c n hc hn hid.symm)
  obtain ⟨hok, hmem⟩ := h.valid.storeNodeinfo_of_room hid (h.hasRoomFor c) ping
  have hcontacts : ∀ d, d ∈ (t.storeNodeinfo c ping).2.getAllNodeinfos ↔ d = c ∨ d ∈ t.getAllNodeinfos := by
    intro d
    rw [hmem d]
    by_cases hdc : d = c
    · exact iff_of_true (.inl hdc) (.inl hdc)
    · refine or_congr_right ⟨And.left, fun hd => ⟨hd, fun hid => hdc ?_⟩⟩
      exact r.oneAddress d c (h.subset hd) hc hid
  refine ⟨hok, ⟨?_, storeNodeinfo_valid h.valid c ping, fun d hd => ?_⟩, hcontacts⟩
  · rw [storeNodeinfo_id, h.id_eq]
  · rcases (hcontacts d).mp hd with rfl | hd
    · exact hc
    · exact h.subset hd

/-- Stores of other nodes of the roster find room one after the other. -/
theorem roomForAll (stopAtError : Bool) {stores : List (NodeInfo × PingOutcome)}
    (hstores : ∀ s ∈ stores, s.1 ∈ r.nodes ∧ s.1 ≠ n) : t.roomForAll stopAtError stores = true := by
  induction stores generalizing t with
  | nil => rfl
  | cons s stores ih =>
      obtain ⟨hok, hwithin, -⟩ := h.store hn (hstores s List.mem_cons_self).1 (hstores s List.mem_cons_self).2 s.2
      have hrest := ih hwithin fun s' hs' => hstores s' (List.mem_cons_of_mem s hs')
      rw [RoutingTable.roomForAll, h.hasRoomFor, Bool.true_and]
      rcases hstore : t.storeNodeinfo s.1 s.2 with ⟨result, table⟩
      rw [hstore] at hok hrest
      subst hok
      exact hrest

/-- Stores of other nodes of the roster all succeed. -/
theorem storeAll {stores : List (NodeInfo × PingOutcome)} (hstores : ∀ s ∈ stores, s.1 ∈ r.nodes ∧ s.1 ≠ n) :
    Node.storeUntilError t stores = (.ok (), t.storeAll stores) ∧ (t.storeAll stores).Within r.nodes n ∧
      ∀ d, d ∈ (t.storeAll stores).getAllNodeinfos ↔ d ∈ stores.map Prod.fst ∨ d ∈ t.getAllNodeinfos := by
  induction stores generalizing t with
  | nil => exact ⟨rfl, h, fun d => by simp [RoutingTable.storeAll]⟩
  | cons s stores ih =>
      obtain ⟨hok, hwithin, hmem⟩ := h.store hn (hstores s List.mem_cons_self).1 (hstores s List.mem_cons_self).2 s.2
      obtain ⟨hrest, hwithin', hmem'⟩ := ih hwithin fun s' hs' => hstores s' (List.mem_cons_of_mem s hs')
      refine ⟨?_, hwithin', fun d => ?_⟩
      · have hcons : t.storeAll (s :: stores) = (t.storeNodeinfo s.1 s.2).2.storeAll stores := rfl
        rw [Node.storeUntilError, hcons]
        rcases hstore : t.storeNodeinfo s.1 s.2 with ⟨result, table⟩
        rw [hstore] at hok hrest
        subst hok
        exact hrest
      · rw [List.map_cons, List.mem_cons, or_assoc]
        rw [or_left_comm, ← hmem d]
        exact hmem' d

end RoutingTable.Within

/-- The table of a node that knows all other members, and of others at most a visitor. -/
structure RoutingTable.Covers (t : RoutingTable) (members : List NodeInfo) (visitor n : NodeInfo) : Prop where
  id_eq : t.id = n.id
  valid : t.Valid
  knows : ∀ c ∈ members, c ≠ n → c ∈ t.getAllNodeinfos
  known : ∀ c ∈ t.getAllNodeinfos, c ∈ members ∨ c = visitor

/-- A network where everybody knows everybody, some of whom have stored a visitor that asks. -/
def Visited (members : List NodeInfo) (visitor : NodeInfo) (net : PeerNetwork) : Prop :=
  ∀ a ∈ members, (net.table a).Covers members visitor a

/-- Everybody knows all others, and nobody else. -/
structure Mesh (members : List NodeInfo) (net : PeerNetwork) : Prop where
  id_eq : ∀ a ∈ members, (net.table a).id = a.id
  valid : ∀ a ∈ members, (net.table a).Valid
  contacts : ∀ a ∈ members, ∀ c, c ∈ (net.table a).getAllNodeinfos ↔ c ∈ members ∧ c ≠ a

namespace RoutingTable.Covers
variable {r : Roster} {t : RoutingTable} {members : List NodeInfo} {me a : NodeInfo}

theorem within (h : t.Covers members me a) (hmembers : members ⊆ r.nodes) (hme : me ∈ r.nodes) : t.Within r.nodes a where
  id_eq := h.id_eq
  valid := h.valid
  subset := by
    intro c hc
    rcases h.known c hc with hc | rfl
    · exact hmembers hc
    · exact hme

theorem ne_of_mem (h : t.Covers members me a) {c : NodeInfo} (hc : c ∈ t.getAllNodeinfos) : c ≠ a := fun heq =>
  h.valid.id_ne hc (by rw [heq, h.id_eq])

theorem mem_iff (h : t.Covers members me a) (hme : me ∈ t.getAllNodeinfos ∨ me ∈ members) {c : NodeInfo} :
    c ∈ t.getAllNodeinfos ↔ c ≠ a ∧ (c ∈ members ∨ c = me) := by
  refine ⟨fun hc => ⟨h.ne_of_mem hc, h.known c hc⟩, ?_⟩
  rintro ⟨hca, hc | rfl⟩
  · exact h.knows c hc hca
  · exact hme.elim (fun hc => hc) fun hmem => h.knows c hmem hca

section Listing
variable (h : t.Covers members me a) (hmembers : members ⊆ r.nodes) (hme : me ∈ r.nodes) (hne : a ≠ me)
include h hmembers hme hne

/-- What a member lists to the visitor: everybody but itself. -/
theorem mem_listedTo (c : NodeInfo) :
    c ∈ listedTo me t.getAllNodeinfos ↔ c ≠ a ∧ (c ∈ members ∨ c = me) := by
  rw [listedTo, List.mem_cons, List.mem_filter, decide_eq_true_iff]
  constructor
  · rintro (rfl | ⟨hc, -⟩)
    · exact ⟨hne.symm, .inr rfl⟩
    · exact ⟨h.ne_of_mem hc, h.known c hc⟩
  · rintro ⟨hca, hc⟩
    by_cases hcme : c = me
    · exact .inl hcme
    · refine .inr ⟨h.knows c (hc.resolve_right hcme) hca, fun hid => hcme ?_⟩
      exact r.oneAddress c me (hmembers (hc.resolve_right hcme)) hme hid

theorem fits (ha : a ∈ members) : ListFits (listedTo me t.getAllNodeinfos) a me := by
  refine (r.fits a (hmembers ha) me hme hne).mono (List.Nodup.subperm ?_ fun c hc => ?_)
  · exact nodup_listedTo h.valid me
  · obtain ⟨hca, hc⟩ := (h.mem_listedTo hmembers hme hne c).mp hc
    refine List.mem_filter.mpr ⟨?_, by simpa using hca⟩
    rcases hc with hc | rfl
    · exact hmembers hc
    · exact hme

end Listing
end RoutingTable.Covers

section Visits
variable {r : Roster} {members : List NodeInfo} {me a : NodeInfo} {net : PeerNetwork}

theorem Mesh.visited (h : Mesh members net) (visitor : NodeInfo) : Visited members visitor net := fun a ha =>
  ⟨h.id_eq a ha, h.valid a ha, fun c hc hne => (h.contacts a ha c).mpr ⟨hc, hne⟩,
    fun c hc => .inl ((h.contacts a ha c).mp hc).1⟩

namespace Visited

/-- Visited by one of its members a mesh stays one. -/
theorem mesh (h : Visited members me net) (hme : me ∈ members) : Mesh members net where
  id_eq := fun a ha => (h a ha).id_eq
  valid := fun a ha => (h a ha).valid
  contacts := by
    intro a ha c
    rw [(h a ha).mem_iff (.inr hme), and_comm]
    exact and_congr_left fun _ => ⟨fun hc => hc.elim id fun hcme => hcme ▸ hme, .inl⟩

variable (h : Visited members me net) (hmembers : members ⊆ r.nodes) (hme : me ∈ r.nodes) (ha : a ∈ members) (hne : a ≠ me)
include h hmembers hme ha hne

theorem informed : (net.table a).Informed me a :=
  ⟨(h a ha).id_eq, (h a ha).valid, (h a ha).fits hmembers hme hne ha⟩

/-- Once the visitor is stored by a member, the network is visited as before. -/
theorem store (ping : PingOutcome) {net' : PeerNetwork}
    (hstored : net'.table a = ((net.table a).storeNodeinfo me ping).2)
    (hothers : ∀ m, m ≠ a → net'.table m = net.table m) :
    Visited members me net' ∧ me ∈ (net'.table a).getAllNodeinfos := by
  obtain ⟨-, hwithin, hmem⟩ := ((h a ha).within hmembers hme).store (hmembers ha) hme hne.symm ping
  rw [← hstored] at hwithin hmem
  refine ⟨fun b hb => ?_, (hmem me).mpr (.inl rfl)⟩
  by_cases hab : b = a
  · subst hab
    refine ⟨hwithin.id_eq, hwithin.valid, fun c hc hcb => (hmem c).mpr (.inr ((h b hb).knows c hc hcb)), fun c hc => ?_⟩
    exact ((hmem c).mp hc).elim .inr ((h b hb).known c)
  · rw [hothers b hab]
    exact h b hb

end Visited
end Visits

/-- Every member answers every request of the call in time. -/
def Traffic.AnsweredBy (traffic : Traffic) (me : NodeInfo) (members : List NodeInfo) : Prop :=
  ∀ round, ∀ c ∈ members, c ≠ me → (traffic.transit round c).Answered me c

/-- The members and the visitor. -/
def Present (members : List NodeInfo) (me : NodeInfo) (c : NodeInfo) : Prop := c ∈ members ∨ c = me

/-- The buffer of a lookup holds no stranger and not the visitor. -/
theorem ResponsiveRun.contacts_subset {members initial : List NodeInfo} {me c : NodeInfo} {s : LookupRun}
    (h : ResponsiveRun (Present members me) initial me s) (hc : c ∈ s.buffer.contacts) : c ∈ members ∧ c ≠ me := by
  obtain ⟨hknown, hne⟩ := h.known_of_mem hc
  exact ⟨hknown.resolve_right hne, hne⟩

theorem ResponsiveRun.batch_subset {members initial : List NodeInfo} {me c : NodeInfo} {s : LookupRun}
    (h : ResponsiveRun (Present members me) initial me s) (hc : c ∈ s.buffer.batch) : c ∈ members ∧ c ≠ me := by
  obtain ⟨hknown, hne⟩ := h.known_of_batch hc
  exact ⟨hknown.resolve_right hne, hne⟩

/-- A lookup by a node of the roster in a network of others: everybody answers, nobody is asked
for its own id, and what else goes on leaves everybody known to all members. -/
structure Inquiry (r : Roster) (members : List NodeInfo) (me : NodeInfo) (target : Key) (traffic : Traffic) : Prop where
  members_subset : members ⊆ r.nodes
  me_mem : me ∈ r.nodes
  key_ne : ∀ c ∈ members, c ≠ me → c.id ≠ target
  answered : traffic.AnsweredBy me members
  others : ∀ round net, Visited members me net → Visited members me (traffic.others round net)

namespace Inquiry
variable {r : Roster} {members : List NodeInfo} {me a : NodeInfo} {net : PeerNetwork} {traffic : Traffic} {target : Key}
  {answers : Answers} {initial : List NodeInfo} {s t : LookupRun} (h : Inquiry r members me target traffic)
include h

theorem oneAddress : OneAddress (Present members me) := by
  refine r.oneAddress.mono fun c hc => ?_
  rcases hc with hc | rfl
  · exact h.members_subset hc
  · exact h.me_mem

/-- A request that changes a table leaves the visitor with a member or concerns no member. -/
theorem request {type : RequestType} {transit : Transit} (hnet : Visited members me net) :
    Visited members me (sendLookupRequest me type a transit net).2 := by
  rcases table_sendLookupRequest me a type transit net with hsame | ⟨hne, hstored, hrest⟩
  · intro b hb
    rw [hsame b]
    exact hnet b hb
  · by_cases ha : a ∈ members
    · exact (hnet.store h.members_subset h.me_mem ha hne _ hstored hrest).1
    · intro b hb
      rw [hrest b fun hba => ha (hba ▸ hb)]
      exact hnet b hb

theorem kept (forValue : Bool) : KeptInLookup me target forValue traffic (Visited members me) where
  others := h.others
  request := fun _ _ _ hnet => h.request hnet

section Rounds
variable (hfrom : ComeFrom me target false traffic (Visited members me) answers)
include hfrom

/-- A member answers with everybody but itself. -/
theorem answer (round : Nat) (ha : a ∈ members) (hne : a ≠ me) :
    ∃ l response, answers round a = .ok response ∧ response.responseType = .nodes l ∧ l.Nodup ∧
      ∀ c, c ∈ l ↔ c ≠ a ∧ Present members me c := by
  obtain ⟨net, hnet, hround⟩ := hfrom round
  have hvisited := h.others round net hnet
  have hid : a.id ≠ me.id := fun hid => hne (r.oneAddress a me (h.members_subset ha) h.me_mem hid)
  obtain ⟨l, hl, hperm⟩ := (hvisited.informed h.members_subset h.me_mem ha hne).answer hid (h.key_ne a ha hne)
    (h.answered round a ha hne)
  rw [hround]
  exact ⟨l, _, hl, rfl, hperm.nodup_iff.mpr (nodup_listedTo (hvisited a ha).valid me),
    fun c => hperm.mem_iff.trans ((hvisited a ha).mem_listedTo h.members_subset h.me_mem hne c)⟩

theorem answersKnown : AnswersKnown (Present members me) me answers := by
  intro round c hc hne
  obtain ⟨l, response, hanswer, htype, -, hl⟩ := h.answer hfrom round (hc.resolve_right hne) hne
  exact ⟨l, response, hanswer, htype, fun d hd => ((hl d).mp hd).2⟩

theorem closed (hs : ResponsiveRun (Present members me) initial me s) (hexits : Exits (lookupPass false answers) s t) :
    Closed (Present members me) initial me t :=
  hs.closed h.oneAddress (fun _ hu => hu.batchAnswers (h.answersKnown hfrom)) hexits

end Rounds

theorem length_contacts_le (hclosed : Closed (Present members me) initial me t) : t.buffer.contacts.length ≤ K := by
  have hsub : t.buffer.contacts ⊆ r.nodes := fun c hc => h.members_subset (hclosed.run.contacts_subset hc).1
  exact (hclosed.run.allAnswered.nodup.subperm hsub).length_le.trans (r.length_le.trans (by decide))

/-- A member of a mesh starts its lookups from other members. -/
theorem findNode_start (hme : me ∈ members) (hother : ∃ c ∈ members, c ≠ me) (hkey : me.id ≠ target)
    (hnet : Mesh members net) (now : Nat) :
    ∃ initial table, (net.table me).lookupGetNClosest target alpha now = (.ok initial, table) ∧ initial ≠ [] ∧
      initial.Nodup ∧ (∀ c ∈ initial, c ∈ members ∧ c ≠ me) ∧ Visited members me (net.setTable me table) := by
  have hvalid := hnet.valid me hme
  obtain ⟨b, hb, hbme⟩ := hother
  have hne : (net.table me).getAllNodeinfos ≠ [] := List.ne_nil_of_mem ((hnet.contacts me hme b).mpr ⟨hb, hbme⟩)
  obtain ⟨initial, table, hinit, hstart, hid, htable, hsame⟩ := hvalid.lookupGetNClosest_ok
    (show (net.table me).id ≠ target by rw [hnet.id_eq me hme]; exact hkey) (by decide : 1 ≤ alpha) hne now
  obtain ⟨hnd, hsub⟩ := hvalid.lookupGetNClosest_subset hinit
  refine ⟨initial, table, hinit, hstart, hnd, fun c hc => (hnet.contacts me hme c).mp (hsub hc), fun a ha => ?_⟩
  by_cases hame : a = me
  · subst hame
    rw [PeerNetwork.table_setTable]
    refine ⟨hid.trans (hnet.id_eq a ha), htable, fun c hc hca => ?_, fun c hc => ?_⟩
    · rw [hsame]
      exact (hnet.contacts a ha c).mpr ⟨hc, hca⟩
    · rw [hsame] at hc
      exact .inl ((hnet.contacts a ha c).mp hc).1
  · rw [PeerNetwork.table_setTable_of_ne hame]
    exact hnet.visited me a ha

/-- A lookup that knows one member when it starts knows all of them in the end. -/
theorem contacts_perm (hmembers : members.Nodup) (hclosed : Closed (Present members me) initial me t)
    (hfrom : ComeFrom me target false traffic (Visited members me) answers)
    (hexits : Exits (lookupPass false answers) (lookupStart target initial me) t) (hstart : initial ≠ [])
    (hinitial : ∀ c ∈ initial, c ∈ members ∧ c ≠ me) : t.buffer.contacts.Perm (members.filter (· ≠ me)) := by
  refine (List.perm_ext_iff_of_nodup hclosed.run.allAnswered.nodup (hmembers.filter _)).mpr fun c => ?_
  rw [List.mem_filter, decide_eq_true_iff]
  refine ⟨hclosed.run.contacts_subset, fun hc => (hclosed.run.mem_contacts c).mpr ⟨hc.2, ?_⟩⟩
  obtain ⟨d, hd⟩ := List.exists_mem_of_ne_nil initial hstart
  by_cases hcd : c = d
  · exact .inl (hcd ▸ hd)
  · -- the first resolver was asked, and it lists everybody but itself
    have hdmem := (hclosed.run.mem_contacts d).mpr ⟨(hinitial d hd).2, .inl hd⟩
    have hanswered : t.Answered d := hclosed.answered_of_mem (by
      rw [hclosed.resultingVector_eq, List.map_take]
      exact (List.take_of_length_le (h.length_contacts_le hclosed)).symm ▸ hdmem)
    obtain ⟨round, hreported⟩ := hanswered.reported hexits
    obtain ⟨l, response, hok, htype, -, hl⟩ := h.answer hfrom round (hinitial d hd).1 (hinitial d hd).2
    exact .inr (hreported l response hok htype ((hl c).mpr ⟨hcd, .inl hc.1⟩))

theorem contacts_eq (hmembers : members.Nodup) (hclosed : Closed (Present members me) initial me t)
    (hfrom : ComeFrom me target false traffic (Visited members me) answers)
    (hexits : Exits (lookupPass false answers) (lookupStart target initial me) t) (hstart : initial ≠ [])
    (hinitial : ∀ c ∈ initial, c ∈ members ∧ c ≠ me) :
    t.buffer.contacts = sortByDistance NodeInfo.id target (members.filter (· ≠ me)) := by
  have hids : ((members.filter (· ≠ me)).map NodeInfo.id).Nodup := by
    refine List.Nodup.map_on (fun a ha b hb hab => ?_) (hmembers.filter _)
    exact r.oneAddress a b (h.members_subset (List.mem_of_mem_filter ha)) (h.members_subset (List.mem_of_mem_filter hb)) hab
  have htarget : t.buffer.target = target := exits_target hexits
  refine (eq_sortByDistance_iff hids target).mpr ⟨h.contacts_perm hmembers hclosed hfrom hexits hstart hinitial, ?_⟩
  refine List.pairwise_map.mpr (hclosed.run.allAnswered.sorted.imp fun {a b} hab => ?_)
  rw [htarget] at hab
  exact Key.cmp_distance_ne_gt.mpr hab

/-- With further members in the own table the network is visited as before. -/
theorem visited_storeAll (hnet : Visited members me net) {stores : List (NodeInfo × PingOutcome)}
    (hstores : ∀ s ∈ stores, s.1 ∈ members ∧ s.1 ≠ me) :
    Visited members me (net.setTable me ((net.table me).storeAll stores)) := by
  intro a ha
  by_cases hame : a = me
  · subst hame
    rw [PeerNetwork.table_setTable]
    obtain ⟨-, hwithin, hmem⟩ := ((hnet a ha).within h.members_subset h.me_mem).storeAll h.me_mem fun s hs =>
      ⟨h.members_subset (hstores s hs).1, (hstores s hs).2⟩
    refine ⟨hwithin.id_eq, hwithin.valid, fun c hc hca => (hmem c).mpr (.inr ((hnet a ha).knows c hc hca)), fun c hc => ?_⟩
    rcases (hmem c).mp hc with hstored | hold
    · obtain ⟨s, hs, rfl⟩ := List.mem_map.mp hstored
      exact .inl (hstores s hs).1
    · exact (hnet a ha).known c hold
  · rw [PeerNetwork.table_setTable_of_ne hame]
    exact hnet a ha

/-- `find_node` by a member returns all others, the closest first, and the mesh stays one. -/
theorem findNode (hmembers : members.Nodup) (hme : me ∈ members) (hother : ∃ c ∈ members, c ≠ me)
    (hkey : me.id ≠ target) (hnet : Mesh members net) (pings : Nat → PingOutcome) (now : Nat) :
    ∃ net', Returns (net.findNode me target traffic pings now)
      (.ok (sortByDistance NodeInfo.id target (members.filter (· ≠ me))), net') ∧ Mesh members net' := by
  obtain ⟨initial, table, hinit, hstart, hnd, hinitial, htouched⟩ := h.findNode_start hme hother hkey hnet now
  obtain ⟨t, net', answers, hfrom, hnet', hexits, hreturns, -⟩ := (h.kept false).findNode pings hinit hstart hnd htouched
  have hclosed := h.closed hfrom (ResponsiveRun.start hnd (fun hin => (hinitial me hin).2 rfl)
    fun c hc => .inl (hinitial c hc).1) hexits
  have hvector := hclosed.closingRound_resultingVector answers
  rw [List.take_of_length_le (h.length_contacts_le hclosed),
    h.contacts_eq hmembers hclosed hfrom hexits hstart hinitial] at hvector
  rw [hvector] at hreturns
  have hstores : ∀ s ∈ (closingRound answers t).buffer.tableStores pings, s.1 ∈ members ∧ s.1 ≠ me := by
    intro s hs
    obtain ⟨n, hn, rfl⟩ := List.mem_map.mp hs
    exact hclosed.run.contacts_subset (hclosed.mem_responsiveNodes answers (List.fst_mem_of_mem_zipIdx hn))
  have hroom := ((hnet' me hme).within h.members_subset h.me_mem).roomForAll h.me_mem false fun s hs =>
    ⟨h.members_subset (hstores s hs).1, (hstores s hs).2⟩
  exact ⟨_, hreturns hroom, (h.visited_storeAll hnet' hstores).mesh hme⟩

end Inquiry
end P2PFilesystem
