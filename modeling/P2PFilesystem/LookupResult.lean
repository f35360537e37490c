import P2PFilesystem.LookupFlags

/-!
# What a node lookup returns

`find_node` and `join_network` return the first `K` buffer entries that are not marked
as failed, whether or not these were ever asked. Whether the result is what its
documentation says is therefore a matter of the contacts that nobody asked: those beyond
the first `K` when the round loop ends, and those first reported in the last round.
-/
namespace P2PFilesystem
open LoopFuel KeySort

section Prefix
variable {α : Type*} {f : α → Nat} {l : List α} {n d : Nat}

/-- The first `n` members with `p` all have `q` when the ones that lack `q` come too late. -/
theorem forall_take_filter_iff (p : α → Bool) (q : α → Prop) :
    (∀ x ∈ (l.filter p).take n, q x) ↔
      ∀ pre x post, l = pre ++ x :: post → p x = true → ¬ q x → n ≤ pre.countP p := by
  constructor
  · intro h pre x post hl hp hq
    by_contra hlt
    refine hq (h x ?_)
    rw [hl, List.filter_append, List.filter_cons_of_pos hp, List.take_append,
      ← List.countP_eq_length_filter]
    refine List.mem_append_right _ ?_
    obtain ⟨m, hm⟩ := Nat.exists_eq_add_of_lt (Nat.lt_of_not_le hlt)
    rw [hm, Nat.add_assoc, Nat.add_sub_cancel_left]
    exact List.mem_cons_self
  · intro h x hx
    induction l generalizing n with
    | nil => simp at hx
    | cons a l ih =>
        cases hp : p a with
        | false =>
            rw [List.filter_cons_of_neg (by rw [hp]; exact Bool.false_ne_true)] at hx
            refine ih (fun pre y post hl hy hq => ?_) hx
            have := h (a :: pre) y post (by rw [hl, List.cons_append]) hy hq
            rwa [List.countP_cons_of_neg (by rw [hp]; exact Bool.false_ne_true)] at this
        | true =>
            rw [List.filter_cons_of_pos hp] at hx
            cases n with
            | zero => cases hx
            | succ n =>
                rcases List.mem_cons.mp hx with rfl | htail
                · by_contra hq
                  exact absurd (h [] x l rfl hp hq) (Nat.not_succ_le_zero n)
                · refine ih (fun pre y post hl hy hq => ?_) htail
                  have := h (a :: pre) y post (by rw [hl, List.cons_append]) hy hq
                  rw [List.countP_cons_of_pos hp] at this
                  exact Nat.le_of_succ_le_succ this

theorem take_le_iff_countP (h : Ascending f l) :
    ((l.take n).length = n ∧ ∀ m ∈ l.take n, f m ≤ d) ↔ n ≤ l.countP (fun m => f m ≤ d) := by
  constructor
  · rintro ⟨hlen, hle⟩
    calc n = (l.take n).length := hlen.symm
      _ = (l.take n).countP (fun m => f m ≤ d) :=
          (List.countP_eq_length.mpr fun m hm => decide_eq_true (hle m hm)).symm
      _ ≤ l.countP (fun m => f m ≤ d) := (List.take_sublist n l).countP_le
  · intro hn
    have hlt := h.take_lt (k := d + 1) (n := n) (by simpa only [Nat.lt_succ_iff] using hn)
    refine ⟨?_, fun m hm => Nat.le_of_lt_succ (hlt m hm)⟩
    rw [List.length_take]
    exact Nat.min_eq_left (hn.trans List.countP_le_length)

/-- In an ascending list whose equal keys agree on `q` it is enough to count the closer members. -/
theorem late_iff_countP (h : Ascending f l) (p q : α → Bool)
    (hq : ∀ a ∈ l, ∀ b ∈ l, f a = f b → q a = q b) :
    (∀ pre x post, l = pre ++ x :: post → p x = true → q x = false → n ≤ pre.countP p) ↔
      ∀ x ∈ l, p x = true → q x = false → n ≤ l.countP fun m => p m && q m && decide (f m < f x) := by
  constructor
  · intro hlate x hx hp hqx
    -- the first member with `p` and without `q`
    have hsome : (l.find? fun m => p m && !q m).isSome :=
      List.find?_isSome.mpr ⟨x, hx, by rw [hp, hqx]; rfl⟩
    obtain ⟨x₀, hfind⟩ := Option.isSome_iff_exists.mp hsome
    obtain ⟨hx₀, pre, post, rfl, hpre⟩ := List.find?_eq_some_iff_append.mp hfind
    rw [Bool.and_eq_true, Bool.not_eq_true'] at hx₀
    have hle : f x₀ ≤ f x := by
      rcases List.mem_append.mp hx with hin | hin
      · have := hpre x hin
        rw [hp, hqx] at this
        cases this
      · exact h.le_of_append_cons hin
    refine (hlate pre x₀ post rfl hx₀.1 hx₀.2).trans ?_
    rw [List.countP_append]
    refine Nat.le_add_right_of_le (List.countP_mono_left fun m hm hpm => ?_)
    have hqm : q m = true := by
      have := hpre m hm
      rw [hpm] at this
      simpa using this
    have hmx : f m ≤ f x₀ := (List.pairwise_append.mp h).2.2 m hm x₀ List.mem_cons_self
    have hne : f m ≠ f x₀ := fun he => by
      have := hq m (List.mem_append_left _ hm) x₀ (List.mem_append_right _ List.mem_cons_self) he
      rw [hqm, hx₀.2] at this
      cases this
    rw [hpm, hqm, Bool.true_and, Bool.true_and, decide_eq_true_iff]
    omega
  · rintro hcount pre x post rfl hp hqx
    refine (hcount x (List.mem_append_right _ List.mem_cons_self) hp hqx).trans ?_
    have hrest : (x :: post).countP (fun m => p m && q m && decide (f m < f x)) = 0 := by
      refine List.countP_eq_zero.mpr fun m hm hlt => ?_
      rw [Bool.and_eq_true, decide_eq_true_iff] at hlt
      exact absurd (h.le_of_append_cons hm) (Nat.not_le_of_lt hlt.2)
    rw [List.countP_append, hrest, Nat.add_zero]
    refine List.countP_mono_left fun m _ hm => ?_
    rw [Bool.and_eq_true, Bool.and_eq_true] at hm
    exact hm.1.1

end Prefix

/-- What `find_node` and `join_network` promise of a finished lookup: everybody returned
answered a request of the call, and nobody reported who would have answered is missing
while being closer than somebody returned or while there is room. -/
def ClosestResponsive (target : Key) (thisNode : NodeInfo) (reply : NodeInfo → Except NodeError Response)
    (t : LookupRun) : Prop :=
  (∀ c ∈ t.buffer.getResultingVector, t.Answered c) ∧
  ∀ c ∈ t.reported, c ≠ thisNode → AnswersNodes (reply c) → c ∉ t.buffer.getResultingVector →
    t.buffer.getResultingVector.length = K ∧
    ∀ m ∈ t.buffer.getResultingVector, m.id.dist target ≤ c.id.dist target

/-- After the last round every standing contact that did not answer has `K` standing ones
before it. So has, at most as far as itself, every reported contact that is marked as failed
although it would answer: its id was asked under another address. -/
def UnheardComeLate (target : Key) (thisNode : NodeInfo) (reply : NodeInfo → Except NodeError Response)
    (t : LookupRun) : Prop :=
  (∀ pre e post, t.buffer.nodes = pre ++ e :: post → e.standing = true → ¬ t.Answered e.nodeInfo →
    K ≤ pre.countP LookupNodeInfo.standing) ∧
  ∀ c ∈ t.reported, c ≠ thisNode → AnswersNodes (reply c) → c ∈ t.buffer.contacts →
    (∀ e ∈ t.buffer.nodes, e.nodeInfo = c → e.standing = false) →
    K ≤ t.buffer.nodes.countP fun e => e.standing && decide (e.nodeInfo.id.dist target ≤ c.id.dist target)

theorem closestResponsive_iff {target : Key} {thisNode : NodeInfo}
    {reply : NodeInfo → Except NodeError Response} {t : LookupRun} (htarget : t.buffer.target = target)
    (hsorted : t.buffer.Sorted) (hknown : ∀ c ∈ t.reported, c ≠ thisNode → c ∈ t.buffer.contacts) :
    ClosestResponsive target thisNode reply t ↔ UnheardComeLate target thisNode reply t := by
  have hfilter : Ascending (fun e : LookupNodeInfo => e.nodeInfo.id.dist target)
      (t.buffer.nodes.filter LookupNodeInfo.standing) := by
    rw [← htarget]
    exact hsorted.sublist List.filter_sublist
  have hvec : t.buffer.getResultingVector =
      ((t.buffer.nodes.filter LookupNodeInfo.standing).take K).map LookupNodeInfo.nodeInfo := rfl
  refine and_congr ?_ (forall₃_congr fun c hc hne => forall_congr' fun halive => ?_)
  · rw [← forall_take_filter_iff, hvec, List.forall_mem_map]
  · have hcount := take_le_iff_countP (n := K) (d := c.id.dist target) hfilter
    rw [List.countP_filter] at hcount
    simp only [hvec, List.length_map, List.forall_mem_map]
    constructor
    · intro h _ hfailed
      have hnot : c ∉ ((t.buffer.nodes.filter LookupNodeInfo.standing).take K).map
          LookupNodeInfo.nodeInfo := by
        intro hin
        obtain ⟨e, he, hinfo⟩ := List.mem_map.mp hin
        obtain ⟨hmem, hst⟩ := List.mem_filter.mp (List.mem_of_mem_take he)
        rw [hfailed e hmem hinfo] at hst
        cases hst
      have := hcount.mp (h hnot)
      simpa only [Bool.and_comm] using this
    · intro h hnot
      by_cases hall : ∀ e ∈ t.buffer.nodes, e.nodeInfo = c → e.standing = false
      · exact hcount.mpr (by simpa only [Bool.and_comm] using h (hknown c hc hne) hall)
      · -- a standing entry outside the first `K` has all of them before it
        simp only [not_forall, Bool.not_eq_false] at hall
        obtain ⟨e, he, rfl, hst⟩ := hall
        have hin : e ∈ t.buffer.nodes.filter LookupNodeInfo.standing := List.mem_filter.mpr ⟨he, hst⟩
        have hout : e ∉ (t.buffer.nodes.filter LookupNodeInfo.standing).take K := fun hm =>
          hnot (List.mem_map.mpr ⟨e, hm, rfl⟩)
        rw [← List.take_append_drop K (t.buffer.nodes.filter LookupNodeInfo.standing)] at hin hfilter
        have hdrop := (List.mem_append.mp hin).resolve_left hout
        have hpos := List.length_pos_of_mem hdrop
        rw [List.length_drop] at hpos
        refine ⟨by rw [List.length_take]; omega, fun m hm => ?_⟩
        exact (List.pairwise_append.mp hfilter).2.2 m hm e hdrop

/-- The round loop leaves with `t`: every contact that was not asked, nor is asked in the
last round, has `K` closer ones that are asked and answer with contacts. -/
def UnaskedComeLate (target : Key) (reply : NodeInfo → Except NodeError Response) (t : LookupRun) : Prop :=
  ∀ c ∈ t.knownAtEnd reply, c ∉ t.askedAtEnd → K ≤ (t.knownAtEnd reply).countP fun m =>
    decide (m ∈ t.askedAtEnd) && (singleLookup m false (reply m)).gaveNodes &&
      decide (m.id.dist target < c.id.dist target)

section Unasked
variable {target : Key} {thisNode : NodeInfo} {reply : NodeInfo → Except NodeError Response} {t : LookupRun}

/-- Asked, and answers with contacts. -/
def LookupRun.hears (reply : NodeInfo → Except NodeError Response) (s : LookupRun) (c : NodeInfo) : Bool :=
  decide (c ∈ s.asked) && (singleLookup c false (reply c)).gaveNodes

theorem FlagsTell.hears_iff (h : FlagsTell reply t) (c : NodeInfo) : t.hears reply c = true ↔ t.Answered c := by
  rw [LookupRun.hears, Bool.and_eq_true, decide_eq_true_iff, gaveNodes_singleLookup, h.answered_iff]

theorem FlagsTell.standing_of_hears (h : FlagsTell reply t) {e : LookupNodeInfo} (he : e ∈ t.buffer.nodes)
    (hc : t.hears reply e.nodeInfo = true) : e.standing = true := by
  rw [h.hears_iff, h.answered_iff] at hc
  by_contra hst
  exact ((h.failed_iff e he).mp (Bool.eq_false_of_not_eq_true hst)).2 hc.2

theorem FlagsTell.unasked_iff (h : FlagsTell reply t) {e : LookupNodeInfo} (he : e ∈ t.buffer.nodes) :
    e.standing = true ∧ t.hears reply e.nodeInfo = false ↔ e.nodeInfo ∉ t.asked := by
  have hfailed := h.failed_iff e he
  rw [← Bool.not_eq_true, h.hears_iff, h.answered_iff, ← Bool.not_eq_false, hfailed]
  tauto

/-- Where flags tell who is silent, the contacts not heard of are those that nobody asked. -/
theorem FlagsTell.unheardComeLate_iff (h : FlagsTell reply t) (htarget : t.buffer.target = target)
    (hsorted : t.buffer.Sorted) (hone : OneAddress (· ∈ t.buffer.contacts)) :
    UnheardComeLate target thisNode reply t ↔ ∀ c ∈ t.buffer.contacts, c ∉ t.asked →
      K ≤ t.buffer.contacts.countP fun m => t.hears reply m && decide (m.id.dist target < c.id.dist target) := by
  have hnone : ∀ c ∈ t.reported, c ≠ thisNode → AnswersNodes (reply c) → c ∈ t.buffer.contacts →
      (∀ e ∈ t.buffer.nodes, e.nodeInfo = c → e.standing = false) →
      K ≤ t.buffer.nodes.countP fun e =>
        e.standing && decide (e.nodeInfo.id.dist target ≤ c.id.dist target) := by
    intro c _ _ ha hc hfailed
    obtain ⟨e, he, rfl⟩ := List.mem_map.mp hc
    exact absurd ha ((h.failed_iff e he).mp (hfailed e he rfl)).2
  have hagree : ∀ a ∈ t.buffer.nodes, ∀ b ∈ t.buffer.nodes,
      a.nodeInfo.id.dist target = b.nodeInfo.id.dist target →
        t.hears reply a.nodeInfo = t.hears reply b.nodeInfo := by
    intro a ha b hb hd
    rw [hone _ _ (LookupBuffer.mem_contacts_of_mem ha) (LookupBuffer.mem_contacts_of_mem hb)
      (Key.dist_left_injective hd)]
  have hlate := late_iff_countP (n := K) (by rw [← htarget]; exact hsorted) LookupNodeInfo.standing
    (fun e => t.hears reply e.nodeInfo) hagree
  have hcount : ∀ d, (t.buffer.nodes.countP fun m =>
      m.standing && t.hears reply m.nodeInfo && decide (m.nodeInfo.id.dist target < d)) =
      t.buffer.contacts.countP fun m => t.hears reply m && decide (m.id.dist target < d) := by
    intro d
    rw [LookupBuffer.contacts, List.countP_map]
    refine List.countP_congr fun e he => ?_
    simp only [Function.comp_apply, Bool.and_eq_true, decide_eq_true_iff]
    exact and_congr_left fun _ => and_iff_right_of_imp (h.standing_of_hears he)
  constructor
  · rintro ⟨hfirst, -⟩ c hc hasked
    obtain ⟨e, he, rfl⟩ := List.mem_map.mp hc
    obtain ⟨hst, hout⟩ := (h.unasked_iff he).mpr hasked
    rw [← hcount]
    refine hlate.mp (fun pre x post hl hx hx' => hfirst pre x post hl hx ?_) e he hst hout
    rw [← h.hears_iff, hx']
    exact Bool.false_ne_true
  · intro hunasked
    refine ⟨fun pre e post hl hst hout => ?_, hnone⟩
    rw [← h.hears_iff, Bool.not_eq_true] at hout
    refine hlate.mpr (fun x hx hx₁ hx₂ => ?_) pre e post hl hst hout
    rw [hcount]
    exact hunasked _ (LookupBuffer.mem_contacts_of_mem hx) ((h.unasked_iff hx).mp ⟨hx₁, hx₂⟩)

theorem unaskedComeLate_iff :
    let last := closingRound (fun _ => reply) t
    UnaskedComeLate target reply t ↔ ∀ c ∈ last.buffer.contacts, c ∉ last.asked →
      K ≤ last.buffer.contacts.countP fun m =>
        last.hears reply m && decide (m.id.dist target < c.id.dist target) := by
  intro last
  have hperm : last.buffer.contacts.Perm (t.knownAtEnd reply) := closingRound_contacts
  refine forall_congr' fun c => imp_congr hperm.mem_iff.symm (imp_congr ?_ ?_)
  · rw [closingRound_asked]
  · rw [hperm.countP_eq]
    simp only [last, LookupRun.hears, closingRound_asked]

end Unasked

section Runs
variable {answers : Answers} {s t : LookupRun}

/-- Node lookups keep the buffer sorted and every reported contact in it. -/
structure KeepsReported (thisNode : NodeInfo) (s : LookupRun) : Prop where
  sorted : s.buffer.Sorted
  thisNode_eq : s.buffer.thisNode = thisNode
  known : ∀ c ∈ s.reported, c ≠ thisNode → c ∈ s.buffer.contacts

theorem KeepsReported.record {thisNode : NodeInfo} (h : KeepsReported thisNode s) {b : LookupBuffer}
    (hthis : b.thisNode = thisNode) (hb : s.buffer.contacts ⊆ b.contacts) (rs : List LookupResponse) :
    KeepsReported thisNode ⟨(b.recordLookupRoundResponses rs false).2, rs :: s.rounds⟩ := by
  rw [LookupBuffer.record_of_no_value (Bool.false_and _)]
  refine ⟨LookupBuffer.sort_sorted _, ?_, fun c hc hne => ?_⟩
  · rw [LookupBuffer.thisNode_sort, LookupBuffer.recordResponses_thisNode, hthis]
  · rw [LookupBuffer.mem_contacts_sort]
    obtain ⟨rs', hrs', hrep⟩ := LookupRun.mem_reported.mp hc
    rcases List.mem_cons.mp hrs' with rfl | hold
    · exact LookupBuffer.mem_recordResponses_of_reports (Bool.false_and _) hrep (hthis ▸ hne)
    · exact LookupBuffer.recordResponses_contacts_subset false rs b
        (hb (h.known c (LookupRun.mem_reported.mpr ⟨rs', hold, hrep⟩) hne))

theorem KeepsReported.exits {thisNode : NodeInfo} (h : KeepsReported thisNode s)
    (ht : Exits (lookupPass false answers) s t) : KeepsReported thisNode t :=
  exits_invariant (I := KeepsReported thisNode)
    (fun u hu _ => hu.record (b := u.buffer.markBatch) hu.thisNode_eq
      (by rw [LookupBuffer.contacts_markBatch]; exact List.Subset.refl _) _) ht h

theorem KeepsReported.closing {thisNode : NodeInfo} (h : KeepsReported thisNode s) (answers : Answers) :
    KeepsReported thisNode (closingRound answers s) := h.record h.thisNode_eq (List.Subset.refl _) _

theorem closingRound_target : (closingRound answers s).buffer.target = s.buffer.target :=
  LookupBuffer.record_of_recordResponses (I := fun b => b.target = s.buffer.target) (fun _ hb => hb)
    (LookupBuffer.recordResponses_target false _ _)

theorem KeepsReported.closestResponsive_iff {thisNode : NodeInfo} {reply : NodeInfo → Except NodeError Response}
    (h : KeepsReported thisNode s) (ht : Exits (lookupPass false fun _ => reply) s t) :
    ClosestResponsive s.buffer.target thisNode reply (closingRound (fun _ => reply) t) ↔
      UnheardComeLate s.buffer.target thisNode reply (closingRound (fun _ => reply) t) := by
  have hclosed := (h.exits ht).closing (fun _ => reply)
  exact P2PFilesystem.closestResponsive_iff (closingRound_target.trans (exits_target ht)) hclosed.sorted hclosed.known

/-- With one address for each id it is enough to know who is asked. -/
theorem FlagsTell.unheardComeLate_iff_unasked {thisNode : NodeInfo} {reply : NodeInfo → Except NodeError Response}
    (hflags : FlagsTell reply s) (h : KeepsReported thisNode s) (ht : Exits (lookupPass false fun _ => reply) s t)
    (hone : OneAddress (· ∈ t.knownAtEnd reply)) :
    UnheardComeLate s.buffer.target thisNode reply (closingRound (fun _ => reply) t) ↔
      UnaskedComeLate s.buffer.target reply t := by
  have hclosed := (h.exits ht).closing (fun _ => reply)
  have htarget : (closingRound (fun _ => reply) t).buffer.target = s.buffer.target :=
    closingRound_target.trans (exits_target ht)
  have hlast : OneAddress (· ∈ (closingRound (fun _ => reply) t).buffer.contacts) :=
    hone.mono fun c hc => closingRound_contacts.mem_iff.mp hc
  have hbefore : OneAddress (· ∈ t.buffer.contacts) := hone.mono fun c hc => List.mem_append_left _ hc
  have hflags' := (hflags.exits ht hbefore).closing hlast
  exact (hflags'.unheardComeLate_iff htarget hclosed.sorted hlast).trans unaskedComeLate_iff.symm

end Runs

def Node.StartsFindNode (self : Node) (target : Key) (now : Nat) (start : LookupRun) : Prop :=
  ∃ initial table, self.routingTable.lookupGetNClosest target alpha now = (.ok initial, table) ∧
    start = lookupStart target initial self.toNodeInfo

def Node.StartsJoin (self : Node) (beacon : NodeInfo) (reply : NodeInfo → Except NodeError Response)
    (start : LookupRun) : Prop :=
  let first := singleLookup beacon false (reply beacon)
  start = ⟨LookupBuffer.new self.key (first.kClosest.filter (· ≠ self.toNodeInfo)) self.toNodeInfo, [[first]]⟩

theorem keepsReported_start (target : Key) (initial : List NodeInfo) (thisNode : NodeInfo) :
    KeepsReported thisNode (lookupStart target initial thisNode) :=
  ⟨LookupBuffer.sort_sorted _, rfl, fun c hc => by cases hc⟩

theorem keepsReported_join (self : Node) (first : LookupResponse) :
    KeepsReported self.toNodeInfo ⟨LookupBuffer.new self.key
      (first.kClosest.filter (· ≠ self.toNodeInfo)) self.toNodeInfo, [[first]]⟩ := by
  refine ⟨LookupBuffer.sort_sorted _, rfl, fun c hc hne => ?_⟩
  obtain ⟨rs, hrs, r, hr, -, hk⟩ := LookupRun.mem_reported.mp hc
  rw [List.mem_singleton.mp hrs, List.mem_singleton] at hr
  rw [hr] at hk
  exact (LookupBuffer.contacts_new_perm _ _ _).mem_iff.mpr
    (List.mem_filter.mpr ⟨hk, decide_eq_true hne⟩)

theorem flagsTell_start (target : Key) (initial : List NodeInfo) (thisNode : NodeInfo)
    (reply : NodeInfo → Except NodeError Response) :
    FlagsTell reply (lookupStart target initial thisNode) :=
  FlagsTell.new target initial thisNode fun rs hrs => by cases hrs

theorem flagsTell_join (self : Node) {beacon : NodeInfo} {reply : NodeInfo → Except NodeError Response}
    (h : AnswersNodes (reply beacon)) (initial : List NodeInfo) :
    FlagsTell reply ⟨LookupBuffer.new self.key initial self.toNodeInfo,
      [[singleLookup beacon false (reply beacon)]]⟩ := by
  refine FlagsTell.new _ _ _ fun rs hrs r hr => ?_
  rw [List.mem_singleton.mp hrs, List.mem_singleton] at hr
  rw [hr, singleLookup_resolver]
  exact ⟨rfl, h⟩

theorem Node.nodeLookup_returns {ρ : Type*} (self : Node) {target : Key} {initial : List NodeInfo}
    {rounds : List (List LookupResponse)} {answers : Answers} {t : LookupRun}
    (h : Exits (lookupPass false answers) ⟨LookupBuffer.new target initial self.toNodeInfo, rounds⟩ t)
    (g : LookupRun → ρ) :
    Returns (fun fuel => (self.nodeLookup target initial rounds answers fuel).map g)
      (g (closingRound answers t)) := by
  have hcall : (fun fuel => (self.nodeLookup target initial rounds answers fuel).map g) = fun fuel =>
      (runLoop (lookupPass false answers) fuel
        ⟨LookupBuffer.new target initial self.toNodeInfo, rounds⟩).map (g ∘ closingRound answers) := by
    funext fuel
    rw [Node.nodeLookup, Option.map_map]
  rw [hcall]
  exact h.returns (g ∘ closingRound answers)

theorem Node.findNode_returns (self : Node) (target : Key) (answers : Answers)
    (pings : Nat → PingOutcome) (now : Nat) :
    ∃ result node, Returns (self.findNode target answers pings now) (result, node) ∧
      ∀ r, result = .ok r → ∃ start t, self.StartsFindNode target now start ∧
        Exits (lookupPass false answers) start t ∧
        r = (closingRound answers t).buffer.getResultingVector := by
  unfold Node.findNode
  rcases hinit : self.routingTable.lookupGetNClosest target alpha now with ⟨⟨e⟩ | ⟨initial⟩, table⟩
  · exact ⟨_, _, ⟨0, fun _ _ => rfl⟩, fun r hr => by cases hr⟩
  · dsimp only
    split_ifs with hempty
    · exact ⟨_, _, ⟨0, fun _ _ => rfl⟩, fun r hr => by cases hr⟩
    · obtain ⟨t, ht⟩ := lookup_exits false answers (lookupStart target initial self.toNodeInfo)
      refine ⟨_, _, self.nodeLookup_returns ht _, fun r hr => ?_⟩
      exact ⟨_, t, ⟨initial, table, hinit, rfl⟩, ht, (Except.ok.inj hr).symm⟩

theorem Node.joinNetwork_returns (self : Node) (beacon : NodeInfo)
    (reply : NodeInfo → Except NodeError Response) (pings : Nat → PingOutcome)
    (send : NodeInfo → Except NodeError Response) :
    ∃ result node, Returns (self.joinNetwork beacon (fun _ => reply) pings send) (result, node) ∧
      ∀ r, result = .ok r → AnswersNodes (reply beacon) ∧ ∃ start t, self.StartsJoin beacon reply start ∧
        Exits (lookupPass false fun _ => reply) start t ∧
        r = (closingRound (fun _ => reply) t).buffer.getResultingVector := by
  unfold Node.joinNetwork
  rcases hstore : self.routingTable.storeNodeinfo beacon (pings 0) with ⟨⟨e⟩ | ⟨_⟩, table⟩
  · exact ⟨_, _, ⟨0, fun _ _ => rfl⟩, fun r hr => by cases hr⟩
  · dsimp only
    cases Node.ping { self with routingTable := table } beacon.id send with
    | error e => exact ⟨_, _, ⟨0, fun _ _ => rfl⟩, fun r hr => by cases hr⟩
    | ok _ =>
        dsimp only
        split_ifs with hempty
        · exact ⟨_, _, ⟨0, fun _ _ => rfl⟩, fun r hr => by cases hr⟩
        · obtain ⟨t, ht⟩ := lookup_exits false (fun _ => reply)
            ⟨LookupBuffer.new self.key ((singleLookup beacon false (reply beacon)).kClosest.filter
              (· ≠ self.toNodeInfo)) self.toNodeInfo, [[singleLookup beacon false (reply beacon)]]⟩
          refine ⟨_, _, Node.nodeLookup_returns { self with routingTable := table } ht _, fun r hr => ?_⟩
          obtain ⟨m, hm⟩ := List.exists_mem_of_ne_nil _ fun h => hempty (List.isEmpty_iff.mpr h)
          refine ⟨answersNodes_of_mem_kClosest hm, _, t, rfl, ht, ?_⟩
          split at hr
          · cases hr
          · exact (Except.ok.inj hr).symm

/-- The only known contact reports four, of which the three closest are silent; the fourth
is asked in the last round and reports a silent one. -/
def lateNode : Node where
  key := Key.ofTopByte 0 0
  address := SocketAddr.localhost 8000
  routingTable := (RoutingTable.new (Key.ofTopByte 0 0) 0).storeAll
    [(NodeInfo.local 0x40 8080, fun _ => .error .responseTimeout)]

def lateReply (c : NodeInfo) : Except NodeError Response :=
  let reply := fun ns => Response.mk (.nodes ns) c lateNode.toNodeInfo zeroRequestId
  if c = NodeInfo.local 0x40 8080 then .ok (reply ([0x81, 0x82, 0x83, 0x84].map (NodeInfo.local · 8080)))
  else if c = NodeInfo.local 0x84 8080 then .ok (reply [NodeInfo.local 0x85 8080])
  else .error .responseTimeout

end P2PFilesystem
