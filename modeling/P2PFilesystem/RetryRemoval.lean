import P2PFilesystem.ShardStorage

/-!
# Removals that fail

`remove_dead_chunks` deletes the files of expired chunks one after the other and takes the chunks out
of the map when all are deleted. A deletion that fails after others have succeeded leaves chunks in
the map whose files are gone.
-/
namespace P2PFilesystem
namespace ShardStorageManager

/-- After a removal that fails what is owned is on disk, and a removal with working deletions at the
same time or later clears map and disk of what has expired. -/
def RetryWorks (m : ShardStorageManager) (now : Nat) (iter : List Key) (deletable : Key → Bool) : Prop :=
  let (result, m') := m.removeDeadChunks now iter deletable
  result ≠ .ok () →
    (∀ h, m'.owns h → (m'.files.lookup h).isSome) ∧
    ∀ now' iter', now ≤ now' → iter'.Perm m'.ownedChunks.keys →
      let (result, m'') := m'.removeDeadChunks now' iter' fun _ => true
      result = .ok () ∧ ∀ h, m'.isDead now' h = true → ¬ m''.owns h ∧ m''.files.lookup h = none

variable {m : ShardStorageManager} {now : Nat} {iter : List Key} {deletable : Key → Bool}

/-- Where all that is owned is on disk a removal with working deletions removes what has expired. -/
theorem removeDeadChunks_clears (hfiles : ∀ h, m.owns h → (m.files.lookup h).isSome)
    (hiter : iter.Perm m.ownedChunks.keys) (now : Nat) :
    (m.removeDeadChunks now iter fun _ => true).1 = .ok () ∧ ∀ h, m.isDead now h = true →
      ¬ (m.removeDeadChunks now iter fun _ => true).2.owns h ∧
      (m.removeDeadChunks now iter fun _ => true).2.files.lookup h = none := by
  obtain ⟨hok, hspec⟩ := removeDeadChunks_spec hfiles hiter now
  refine ⟨hok, fun h hdead => ?_⟩
  obtain ⟨hfile, hentry⟩ := hspec h
  rw [if_pos hdead] at hfile hentry
  refine ⟨?_, hfile⟩
  rw [owns, hentry]
  exact Bool.false_ne_true

theorem exists_first_failure {dead : List Key} (h : ¬ ∀ k ∈ dead, deletable k = true) :
    ∃ before k after, dead = before ++ k :: after ∧ (∀ h ∈ before, deletable h = true) ∧ deletable k = false := by
  cases hfind : dead.find? fun k => !deletable k with
  | none =>
      refine absurd (fun k hk => ?_) h
      simpa using List.find?_eq_none.mp hfind k hk
  | some k =>
      obtain ⟨hk, before, after, hsplit, hbefore⟩ := List.find?_eq_some_iff_append.mp hfind
      refine ⟨before, k, after, hsplit, fun b hb => ?_, ?_⟩
      · simpa using hbefore b hb
      · simpa using hk

/-- A removal can be retried unless a deletion succeeded before one failed. -/
theorem retryWorks_iff (hfiles : ∀ h, m.owns h ↔ (m.files.lookup h).isSome) (hiter : iter.Perm m.ownedChunks.keys)
    (now : Nat) (deletable : Key → Bool) : m.RetryWorks now iter deletable ↔
      ∀ first ∈ (iter.filter (m.isDead now)).head?, deletable first = true →
        ∀ h ∈ iter.filter (m.isDead now), deletable h = true := by
  unfold RetryWorks
  by_cases hall : ∀ k ∈ iter.filter (m.isDead now), deletable k = true
  · obtain ⟨rest, hremove, -⟩ := removeDeadChunks_ok (fun h => (hfiles h).mp) hiter now deletable hall
    rw [hremove]
    exact iff_of_true (fun hne => absurd rfl hne) fun _ _ _ => hall
  · obtain ⟨before, k, after, hdead, hbefore, hk⟩ := exists_first_failure hall
    obtain ⟨rest, hremove, hlookup⟩ := removeDeadChunks_error (fun h => (hfiles h).mp) hiter hdead hbefore hk
    rw [hremove]
    cases before with
    | nil =>
        -- nothing was deleted
        have hrest : ∀ h, m.owns h → (rest.lookup h).isSome := by
          intro h howns
          rw [hlookup, if_neg List.not_mem_nil]
          exact (hfiles h).mp howns
        refine iff_of_true (fun _ => ⟨hrest, fun now' iter' _ hiter' => ?_⟩) fun first hfirst hdel => ?_
        · exact removeDeadChunks_clears (m := { m with files := rest }) hrest hiter' now'
        · rw [hdead] at hfirst
          cases hfirst
          rw [hk] at hdel
          cases hdel
    | cons first before =>
        refine iff_of_false (fun h => ?_) fun h => hall (h first (by rw [hdead]; rfl) (hbefore first List.mem_cons_self))
        -- the first file is gone, but its chunk is still in the map
        have hmem : first ∈ iter.filter (m.isDead now) := by
          rw [hdead]
          exact List.mem_cons_self
        have hgone := (h nofun).1 first (isDead_owns (List.mem_filter.mp hmem).2)
        rw [hlookup, if_pos List.mem_cons_self] at hgone
        cases hgone

/-- Two chunks, stored when the clock starts. -/
def twoStored : ShardStorageManager :=
  let m := ((new ∅).addActiveTcpConnection 5000 ⟨Key.ofTopByte 1 0, .localhost 4001⟩ (Key.ofTopByte 8 0)).2
  let m := (m.storeChunkForKnownPeer [1] 5000 .ok 0).2
  let m := (m.addActiveTcpConnection 5000 ⟨Key.ofTopByte 1 0, .localhost 4001⟩ (Key.ofTopByte 9 0)).2
  (m.storeChunkForKnownPeer [2] 5000 .ok 0).2

theorem twoStored_owns_iff (h : Key) : twoStored.owns h ↔ (twoStored.files.lookup h).isSome := by
  have hkeys : twoStored.ownedChunks.keys = twoStored.files.keys := by decide +kernel
  rw [owns, AList.lookup_isSome, AList.lookup_isSome, AList.mem_keys, AList.mem_keys, hkeys]

/-- The one file that cannot be deleted comes first. -/
theorem retryWorks_twoStored : twoStored.RetryWorks (defaultChunkExpireTimeS * nanosPerS)
    [Key.ofTopByte 8 0, Key.ofTopByte 9 0] fun h => h = Key.ofTopByte 9 0 := by
  refine (retryWorks_iff twoStored_owns_iff ?_ _ _).mpr fun first hfirst hdel => ?_
  · decide +kernel
  · have hhead : ([Key.ofTopByte 8 0, Key.ofTopByte 9 0].filter
        (twoStored.isDead (defaultChunkExpireTimeS * nanosPerS))).head? = some (Key.ofTopByte 8 0) := by
      decide +kernel
    cases hhead.symm.trans hfirst
    exact absurd hdel (by decide)

/-- The one file that cannot be deleted comes second: the first chunk is still in the map, but not on disk. -/
theorem not_retryWorks_twoStored : ¬ twoStored.RetryWorks (defaultChunkExpireTimeS * nanosPerS)
    [Key.ofTopByte 8 0, Key.ofTopByte 9 0] fun h => h = Key.ofTopByte 8 0 := by
  intro h
  have hdisk := (h nofun).1 (Key.ofTopByte 8 0) rfl
  cases hdisk

end ShardStorageManager
end P2PFilesystem
