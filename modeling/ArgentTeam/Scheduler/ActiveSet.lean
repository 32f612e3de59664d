import ArgentTeam.Scheduler.Concurrency
import ArgentTeam.Lib.Runs

/-!
# The jobs that are active

What the concurrency policy is worth over time: a job becomes active only where the policy
admits it beside the jobs that are active, listed in any order, and stops being active at any
time. The policy looks at a pair of jobs from the candidate's side only;
`active_set_apart` says that the pairs are kept apart all the same, and that the order in
which the active jobs are listed does not matter for the verdict.
-/

namespace ArgentTeam

namespace Scheduler

/-! ### Footprints that are provably disjoint -/

/-- A root is an ancestor of another one, or the same. -/
def AncestorOrEqual (a b : PyStr) : Prop := a = b ∨ a ++ [slash] <+: b

/-- Two footprints in the same repository that are provably disjoint. -/
structure Separate (a b : MutationFootprint) : Prop where
  branches : given a.branchIdentity = true → given b.branchIdentity = true →
    a.branchIdentity ≠ b.branchIdentity
  targets : given a.integrationTarget = true → given b.integrationTarget = true →
    a.integrationTarget ≠ b.integrationTarget
  left : a.pathRoots ≠ []
  right : b.pathRoots ≠ []
  roots : ∀ r ∈ normRoots a.pathRoots, ∀ s ∈ normRoots b.pathRoots,
    ¬AncestorOrEqual r s ∧ ¬AncestorOrEqual s r

/-- Two footprints that are provably disjoint: both repositories are known, and they are two,
or the footprints keep apart within the one. -/
def ProvablyDisjoint (a b : MutationFootprint) : Prop :=
  given a.repoIdentity = true ∧ given b.repoIdentity = true ∧
    (a.repoIdentity ≠ b.repoIdentity ∨ Separate a b)

theorem isPrefix_iff {a b : PyStr} (ha : a ≠ []) : isPrefix a b ↔ AncestorOrEqual a b := by
  unfold isPrefix AncestorOrEqual
  rw [Bool.and_eq_true, Bool.or_eq_true, decide_eq_true_iff, decide_eq_true_iff,
    PyStr.startsWith_iff]
  exact and_iff_right ha

theorem pathRootsConflict_eq_false_iff {rootsA rootsB : List PyStr} :
    pathRootsConflict rootsA rootsB = false ↔
      ∀ r ∈ normRoots rootsA, ∀ s ∈ normRoots rootsB,
        ¬AncestorOrEqual r s ∧ ¬AncestorOrEqual s r := by
  have hne : ∀ {roots : List PyStr} {r : PyStr}, r ∈ normRoots roots → r ≠ [] := fun hr => by
    simpa using (List.mem_filter.mp hr).2
  rw [pathRootsConflict, List.any_eq_false]
  refine forall₂_congr fun r hr => ?_
  rw [Bool.not_eq_true, List.any_eq_false]
  refine forall₂_congr fun s hs => ?_
  rw [Bool.or_eq_true, isPrefix_iff (hne hr), isPrefix_iff (hne hs), not_or]

/-- What the classification of two footprints proves. -/
theorem provablyDisjoint_of_disjoint {a b : MutationFootprint}
    (h : footprintOverlap a b = .disjoint) : ProvablyDisjoint a b := by
  unfold footprintOverlap at h
  split at h
  · cases h
  next hknown =>
    simp only [Bool.or_eq_true, Bool.not_eq_true', not_or, Bool.not_eq_false] at hknown
    refine ⟨hknown.1, hknown.2, ?_⟩
    split at h
    next hrepo => exact .inl hrepo
    · right
      split at h
      · cases h
      next hbranch =>
        split at h
        · cases h
        next htarget =>
          split at h
          · cases h
          next hroots =>
            split at h
            · cases h
            next hconflict =>
              simp only [Bool.and_eq_true, decide_eq_true_eq, not_and] at hbranch htarget
              exact ⟨fun ha hb => hbranch ⟨ha, hb⟩, fun ha hb => htarget ⟨ha, hb⟩,
                fun ha => hroots (.inl ha), fun hb => hroots (.inr hb),
                (pathRootsConflict_eq_false_iff).mp (Bool.eq_false_of_not_eq_true hconflict)⟩

/-! ### Jobs that are kept apart -/

structure KeptApart (a b : JobFacts) : Prop where
  worktrees : a.isWriter = true → b.isWriter = true →
    given a.footprint.canonicalWorktreePath = true →
    given b.footprint.canonicalWorktreePath = true →
    a.footprint.canonicalWorktreePath ≠ b.footprint.canonicalWorktreePath
  footprints : a.isWriter = true → b.isWriter = true → ProvablyDisjoint a.footprint b.footprint
  alone : a.actionClass ≠ some .global ∧ b.actionClass ≠ some .global
  left : a.actionClass = some .repoGlobal → a.footprint.repoIdentity ≠ none →
    b.footprint.repoIdentity ≠ a.footprint.repoIdentity
  right : b.actionClass = some .repoGlobal → b.footprint.repoIdentity ≠ none →
    a.footprint.repoIdentity ≠ b.footprint.repoIdentity

section Admission

variable {candidate a : JobFacts} {active listed listed' : List JobFacts}

/-- A candidate that is admitted is kept apart from every job the policy was shown. -/
theorem keptApart_of_allowParallel
    (h : (decideConcurrency candidate active).verdict = .allowParallel) (ha : a ∈ active) :
    KeptApart candidate a := by
  have hcompatible := compatible_of_allowParallel h ha
  obtain ⟨-, hscope, hactive, hwriter⟩ := allowParallel_iff.mp h
  have hexcluded : excludedBy candidate a = false := by
    simpa using List.find?_eq_none.mp (Option.map_eq_none_iff.mp hactive) a ha
  refine ⟨fun hcw haw _ hag heq => ?_, fun hcw haw =>
    provablyDisjoint_of_disjoint (hcompatible.disjoint hcw haw),
    ⟨hcompatible.left, hcompatible.right⟩, fun hrepo hknown heq => ?_, fun hrepo hknown heq => ?_⟩
  · simp only [writerGate, hcw, if_true] at hwriter
    have hnone := List.findSome?_eq_none_iff.mp hwriter a ha
    simp only [writerConflict, haw, hag, heq] at hnone
    simp at hnone
  · -- the candidate's own scope
    simp only [candidateScopeGate, hrepo, Option.map_eq_none_iff] at hscope
    have hnot := List.find?_eq_none.mp hscope a ha
    exact hnot (by simp [sameRepo, heq, hknown])
  · -- the scope of the active job
    simp [excludedBy, hrepo, sameRepo, hknown, heq] at hexcluded

/-! ### The verdict and the order of the active jobs -/

theorem isNone_find?_perm {p : JobFacts → Bool} (h : listed.Perm listed') :
    listed.find? p = none ↔ listed'.find? p = none := by
  simp only [List.find?_eq_none, h.mem_iff]

theorem candidateScopeGate_perm (h : listed.Perm listed') :
    candidateScopeGate candidate listed = none ↔ candidateScopeGate candidate listed' = none := by
  unfold candidateScopeGate
  split
  · simp only [Option.map_eq_none_iff, List.head?_eq_none_iff]
    exact ⟨fun hnil => (hnil ▸ h).symm.eq_nil, fun hnil => (hnil ▸ h).eq_nil⟩
  · simp only [Option.map_eq_none_iff]
    exact isNone_find?_perm h
  · exact Iff.rfl

theorem activeScopeGate_perm (h : listed.Perm listed') :
    activeScopeGate candidate listed = none ↔ activeScopeGate candidate listed' = none := by
  simp only [activeScopeGate, Option.map_eq_none_iff]
  exact isNone_find?_perm h

theorem writerGate_perm (h : listed.Perm listed') :
    writerGate candidate listed = none ↔ writerGate candidate listed' = none := by
  unfold writerGate
  split
  · simp only [List.findSome?_eq_none_iff, h.mem_iff]
  · exact Iff.rfl

/-- The gates that look at the active jobs only ever serialize. -/
theorem verdict_eq_serialize (hdep : dependencyGate candidate = none)
    (h : (decideConcurrency candidate active).verdict ≠ .allowParallel) :
    (decideConcurrency candidate active).verdict = .serialize := by
  unfold decideConcurrency at h ⊢
  rw [hdep, Option.none_or] at h ⊢
  cases hscope : candidateScopeGate candidate active with
  | some d =>
    unfold candidateScopeGate at hscope
    split at hscope
    · obtain ⟨b, -, rfl⟩ := Option.map_eq_some_iff.mp hscope
      rfl
    · obtain ⟨b, -, rfl⟩ := Option.map_eq_some_iff.mp hscope
      rfl
    · cases hscope
  | none =>
    cases hactive : activeScopeGate candidate active with
    | some d =>
      obtain ⟨b, -, rfl⟩ := Option.map_eq_some_iff.mp hactive
      rfl
    | none =>
      cases hwriter : writerGate candidate active with
      | none => simp [hscope, hactive, hwriter, allowed] at h
      | some d =>
        unfold writerGate at hwriter
        split at hwriter
        · obtain ⟨b, -, hb⟩ := List.exists_of_findSome?_eq_some hwriter
          unfold writerConflict at hb
          split at hb
          · cases hb
          · split at hb
            · cases hb
              rfl
            · split at hb <;> cases hb <;> rfl
        · cases hwriter

/-- The verdict does not depend on the order in which the active jobs are listed. -/
theorem verdict_perm (h : listed.Perm listed') :
    (decideConcurrency candidate listed).verdict =
      (decideConcurrency candidate listed').verdict := by
  cases hdep : dependencyGate candidate with
  | some d => simp [decideConcurrency, hdep]
  | none =>
    have hallow : (decideConcurrency candidate listed).verdict = .allowParallel ↔
        (decideConcurrency candidate listed').verdict = .allowParallel := by
      rw [allowParallel_iff, allowParallel_iff, candidateScopeGate_perm h, activeScopeGate_perm h,
        writerGate_perm h]
    by_cases hin : (decideConcurrency candidate listed).verdict = .allowParallel
    · rw [hin, hallow.mp hin]
    · rw [verdict_eq_serialize hdep hin, verdict_eq_serialize hdep (mt hallow.mpr hin)]

end Admission

/-! ### The active set over time -/

/-- What happens to the active set. -/
inductive Change
  /-- A job asks to run beside the active jobs, listed in some order. -/
  | admission (candidate : JobFacts) (listed : List JobFacts)
  | remove (job : JobFacts)

/-- The active set after a change: a candidate is added only if the policy allows it. -/
def afterChange (active : List JobFacts) : Change → List JobFacts
  | .admission candidate listed =>
    if listed.Perm active ∧ (decideConcurrency candidate listed).verdict = .allowParallel then
      candidate :: active
    else active
  | .remove job => active.erase job

def activeAfter (changes : List Change) : List JobFacts := Runs.run afterChange [] changes

theorem keptApart_afterChange {active : List JobFacts} (h : active.Pairwise KeptApart)
    (c : Change) :
    (afterChange active c).Pairwise KeptApart := by
  cases c with
  | remove job => exact h.sublist List.erase_sublist
  | admission candidate listed =>
    rw [afterChange]
    split
    next hadmitted =>
      refine List.pairwise_cons.mpr ⟨fun a ha => ?_, h⟩
      exact keptApart_of_allowParallel hadmitted.2 (hadmitted.1.mem_iff.mpr ha)
    · exact h

/-- A job that acts globally is the only one among jobs that are kept apart. -/
theorem eq_singleton_of_global {active : List JobFacts} (h : active.Pairwise KeptApart)
    {a : JobFacts} (ha : a ∈ active) (hglobal : a.actionClass = some .global) : active = [a] := by
  cases active with
  | nil => exact absurd ha List.not_mem_nil
  | cons b rest =>
    cases rest with
    | nil => rw [List.mem_singleton.mp ha]
    | cons c rest =>
      obtain ⟨hfirst, -⟩ := List.pairwise_cons.mp h
      rcases List.mem_cons.mp ha with rfl | ha
      · exact absurd hglobal (hfirst c List.mem_cons_self).alone.1
      · exact absurd hglobal (hfirst a ha).alone.2

/-- **No two overlapping writers**: after every sequence of admissions and removals the active
jobs are kept apart, a job that acts globally is alone, and the verdict on a candidate is the
same in whatever order they are listed. -/
theorem active_set_apart (changes : List Change) :
    (activeAfter changes).Pairwise KeptApart ∧
    (∀ a ∈ activeAfter changes, a.actionClass = some .global → activeAfter changes = [a]) ∧
    ∀ candidate listed listed', listed.Perm listed' →
      (decideConcurrency candidate listed).verdict =
        (decideConcurrency candidate listed').verdict := by
  have happart : (activeAfter changes).Pairwise KeptApart :=
    Runs.run_always (fun _ c h => keptApart_afterChange h c) List.Pairwise.nil
  exact ⟨happart, fun a ha hglobal => eq_singleton_of_global happart ha hglobal,
    fun _ _ _ h => verdict_perm h⟩

/-! ### Footprints with fields that are not known -/

/-- An implementer that writes below a root of a repository; its worktree, its branch and its
target are not recorded. -/
def rootWriter (jobId root : String) : JobFacts where
  jobId := jobId
  role := some .implementer
  resourceClass := .light
  footprint := { repoIdentity := some "repo", pathRoots := [PyStr.ofString root] }
  dependsOn := none
  actionClass := none

/-- **Not every two writers have different worktrees, branches and targets**: where they are
not recorded, they are not compared. -/
theorem writers_without_branches :
    ¬∀ changes : List Change, (activeAfter changes).Pairwise fun a b =>
      a.isWriter = true → b.isWriter = true →
        a.footprint.canonicalWorktreePath ≠ b.footprint.canonicalWorktreePath ∧
        (a.footprint.repoIdentity ≠ b.footprint.repoIdentity ∨
          a.footprint.branchIdentity ≠ b.footprint.branchIdentity ∧
          a.footprint.integrationTarget ≠ b.footprint.integrationTarget) :=
  fun h => absurd (h [.admission (rootWriter "A" "a") [], .admission (rootWriter "B" "b")
    [rootWriter "A" "a"]]) (by decide +kernel)

def globalJob : JobFacts where
  jobId := "G"
  role := none
  resourceClass := .light
  footprint := {}
  dependsOn := none
  actionClass := some .global

/-- A job that acts globally, and a third writer beside two others, listed both ways. -/
theorem active_set_apart_roots :
    activeAfter [.admission globalJob [], .admission (rootWriter "A" "a")
      [globalJob]] = [globalJob] ∧
    (decideConcurrency (rootWriter "C" "c") [rootWriter "A" "a", rootWriter "B" "b"]).verdict =
      (decideConcurrency (rootWriter "C" "c") [rootWriter "B" "b", rootWriter "A" "a"]).verdict :=
  ⟨(active_set_apart [.admission globalJob [], .admission (rootWriter "A" "a")
    [globalJob]]).2.1 globalJob
      (by decide) rfl,
    (active_set_apart []).2.2 _ _ _ (List.Perm.swap ..)⟩

end Scheduler

end ArgentTeam
