import ArgentTeam.Supervisor.Rows

/-!
# The concurrency policy

Whether a job may run beside the jobs that are active, decided from their facts alone.
The policy reads no table: who is active is what its caller says.
-/

namespace ArgentTeam

namespace Scheduler

open Supervisor

inductive ResourceClass
  | light | medium | heavy | exclusive
  deriving DecidableEq

def ResourceClass.isWriterClass : ResourceClass → Bool
  | .light => false
  | .medium | .heavy | .exclusive => true

/-- The scopes of an action that must run alone. -/
inductive ActionScope
  | global | repoGlobal
  deriving DecidableEq

/-- What a job is going to change. -/
structure MutationFootprint where
  repoIdentity : Option String := none
  canonicalWorktreePath : Option String := none
  branchIdentity : Option String := none
  pathRoots : List PyStr := []
  integrationTarget : Option String := none
  deriving DecidableEq

/-- How the job another one depends on has ended. -/
inductive DependencyTerminal
  | missing
  | terminal (t : Option Terminal)
  deriving DecidableEq

/-- What the policy knows about a job. -/
structure JobFacts where
  jobId : String
  role : Option Role
  resourceClass : ResourceClass
  footprint : MutationFootprint
  dependsOn : Option String
  dependencyTerminal : Option DependencyTerminal := none
  actionClass : Option ActionScope
  deriving DecidableEq

/-- `is_writer`: by role, or by resource class. -/
def JobFacts.isWriter (f : JobFacts) : Bool :=
  f.role = some .implementer || f.role = some .qa || f.resourceClass.isWriterClass

/-! ### Paths -/

/-- The separator of a path. -/
def slash : PyChar := .scalar '/'

/-- One segment of a path, resolved against those before it. -/
def resolveSegment (parts : List PyStr) (seg : PyStr) : List PyStr :=
  if seg = [] ∨ seg = PyStr.ofString "." then parts
  else if seg = PyStr.ofString ".." then parts.dropLast
  else parts ++ [seg]

def normRel (path : PyStr) : PyStr :=
  let p := PyStr.strip (path.map fun c => if c = .scalar '\\' then slash else c)
  let parts := (p.splitOn slash).foldl resolveSegment []
  (((List.intercalate [slash] parts).reverse).dropWhile (· = slash)).reverse

def isPrefix (ancestor path : PyStr) : Bool :=
  ancestor ≠ [] && (ancestor = path || PyStr.startsWith (ancestor ++ [slash]) path)

/-- The roots a footprint names, normalised. -/
def normRoots (roots : List PyStr) : List PyStr := (roots.map normRel).filter fun r => r ≠ []

def pathRootsConflict (rootsA rootsB : List PyStr) : Bool :=
  (normRoots rootsA).any fun a => (normRoots rootsB).any fun b => isPrefix a b || isPrefix b a

theorem pathRootsConflict_comm (rootsA rootsB : List PyStr) :
    pathRootsConflict rootsA rootsB = pathRootsConflict rootsB rootsA := by
  rw [Bool.eq_iff_iff]
  simp only [pathRootsConflict, List.any_eq_true, Bool.or_eq_true]
  constructor
  · rintro ⟨a, ha, b, hb, hab⟩
    exact ⟨b, hb, a, ha, hab.symm⟩
  · rintro ⟨b, hb, a, ha, hab⟩
    exact ⟨a, ha, b, hb, hab.symm⟩

/-! ### Footprints -/

inductive Overlap
  | overlap | disjoint | unknown
  deriving DecidableEq

/-- A text that is there and not empty. -/
def given (s : Option String) : Bool := s.any fun t => t ≠ ""

def footprintOverlap (a b : MutationFootprint) : Overlap :=
  if !given a.repoIdentity || !given b.repoIdentity then .unknown
  else if a.repoIdentity ≠ b.repoIdentity then .disjoint
  else if given a.branchIdentity && given b.branchIdentity &&
      a.branchIdentity = b.branchIdentity then .overlap
  else if given a.integrationTarget && given b.integrationTarget &&
      a.integrationTarget = b.integrationTarget then .overlap
  else if a.pathRoots = [] ∨ b.pathRoots = [] then .unknown
  else if pathRootsConflict a.pathRoots b.pathRoots then .overlap
  else .disjoint

theorem footprintOverlap_comm (a b : MutationFootprint) :
    footprintOverlap a b = footprintOverlap b a := by
  unfold footprintOverlap
  rw [pathRootsConflict_comm a.pathRoots b.pathRoots, Bool.or_comm (!given a.repoIdentity),
    Bool.and_comm (given a.branchIdentity), Bool.and_comm (given a.integrationTarget)]
  simp only [ne_comm (a := a.repoIdentity), eq_comm (a := a.branchIdentity),
    eq_comm (a := a.integrationTarget), or_comm (a := a.pathRoots = [])]

/-! ### The decision -/

inductive ConcurrencyVerdict
  | allowParallel | serialize | defer | block
  deriving DecidableEq

inductive ConcurrencyReasonCode
  | readonlySafe | distinctWorktree | distinctRepo | worktreeConflict | repoOverlap
  | unknownOverlap | dependencyNotMet | dependencyUnknown | actionGlobalSerialize

def ConcurrencyReasonCode.text : ConcurrencyReasonCode → String
  | readonlySafe => "READONLY_SAFE"
  | distinctWorktree => "DISTINCT_WORKTREE"
  | distinctRepo => "DISTINCT_REPO"
  | worktreeConflict => "WORKTREE_CONFLICT"
  | repoOverlap => "REPO_OVERLAP"
  | unknownOverlap => "UNKNOWN_OVERLAP"
  | dependencyNotMet => "DEPENDENCY_NOT_MET"
  | dependencyUnknown => "DEPENDENCY_UNKNOWN"
  | actionGlobalSerialize => "ACTION_GLOBAL_SERIALIZE"

structure ConcurrencyDecision where
  verdict : ConcurrencyVerdict
  reasonCode : ConcurrencyReasonCode
  conflictJobId : Option String := none

/-- The two jobs write to the same known repository. -/
def sameRepo (candidate active : JobFacts) : Bool :=
  active.footprint.repoIdentity ≠ none &&
    active.footprint.repoIdentity = candidate.footprint.repoIdentity

/-- The job must wait for another one. -/
def serializedBy (reason : ConcurrencyReasonCode) (active : JobFacts) : ConcurrencyDecision where
  verdict := .serialize
  reasonCode := reason
  conflictJobId := some active.jobId

/-- What the policy decides because of the job the candidate depends on. -/
def dependencyGate (candidate : JobFacts) : Option ConcurrencyDecision :=
  if candidate.dependsOn = none then none
  else match candidate.dependencyTerminal with
    | some .missing => some { verdict := .block, reasonCode := .dependencyUnknown }
    | some (.terminal (some .done)) => none
    | _ => some { verdict := .defer, reasonCode := .dependencyNotMet }

/-- What it decides because of the scope of the candidate. -/
def candidateScopeGate (candidate : JobFacts) (active : List JobFacts) :
    Option ConcurrencyDecision :=
  match candidate.actionClass with
  | some .global => active.head?.map (serializedBy .actionGlobalSerialize)
  | some .repoGlobal =>
    (active.find? (sameRepo candidate)).map (serializedBy .actionGlobalSerialize)
  | none => none

/-- An active job that must run alone keeps the candidate out. -/
def excludedBy (candidate active : JobFacts) : Bool :=
  active.actionClass = some .global ||
    (active.actionClass = some .repoGlobal && sameRepo candidate active)

def activeScopeGate (candidate : JobFacts) (active : List JobFacts) : Option ConcurrencyDecision :=
  (active.find? (excludedBy candidate)).map (serializedBy .actionGlobalSerialize)

/-- What stands between two writers. -/
def writerConflict (candidate active : JobFacts) : Option ConcurrencyDecision :=
  if !active.isWriter then none
  else if given candidate.footprint.canonicalWorktreePath &&
      given active.footprint.canonicalWorktreePath &&
      candidate.footprint.canonicalWorktreePath = active.footprint.canonicalWorktreePath then
    some (serializedBy .worktreeConflict active)
  else match footprintOverlap candidate.footprint active.footprint with
    | .overlap => some (serializedBy .repoOverlap active)
    | .unknown => some (serializedBy .unknownOverlap active)
    | .disjoint => none

def writerGate (candidate : JobFacts) (active : List JobFacts) : Option ConcurrencyDecision :=
  if candidate.isWriter then active.findSome? (writerConflict candidate) else none

/-- The candidate may run. -/
def allowed (candidate : JobFacts) (active : List JobFacts) : ConcurrencyDecision where
  verdict := .allowParallel
  reasonCode :=
    if !candidate.isWriter then .readonlySafe
    else if active.any fun a => a.isWriter && candidate.footprint.repoIdentity ≠ none &&
        a.footprint.repoIdentity ≠ none &&
        candidate.footprint.repoIdentity ≠ a.footprint.repoIdentity then .distinctRepo
    else .distinctWorktree

/-- `decide` of the policy: the first gate that objects. -/
def decideConcurrency (candidate : JobFacts) (active : List JobFacts) : ConcurrencyDecision :=
  ((((dependencyGate candidate).or (candidateScopeGate candidate active)).or
    (activeScopeGate candidate active)).or (writerGate candidate active)).getD
      (allowed candidate active)

/-! ### What an admission is worth -/

/-- Two jobs whose agents may run side by side: neither must run alone, and if both write,
their footprints are provably disjoint. -/
structure Compatible (a b : JobFacts) : Prop where
  left : a.actionClass ≠ some .global
  right : b.actionClass ≠ some .global
  disjoint : a.isWriter = true → b.isWriter = true →
    footprintOverlap a.footprint b.footprint = .disjoint

theorem compatible_iff {a b : JobFacts} : Compatible a b ↔
    a.actionClass ≠ some .global ∧ b.actionClass ≠ some .global ∧
      (a.isWriter → b.isWriter →
        footprintOverlap a.footprint b.footprint = .disjoint) :=
  ⟨fun h => ⟨h.left, h.right, h.disjoint⟩, fun h => ⟨h.1, h.2.1, h.2.2⟩⟩

instance {a b : JobFacts} : Decidable (Compatible a b) := decidable_of_iff' _ compatible_iff

theorem Compatible.symm {a b : JobFacts} (h : Compatible a b) : Compatible b a where
  left := h.right
  right := h.left
  disjoint hb ha := by rw [footprintOverlap_comm, h.disjoint ha hb]

section Admission

variable {candidate a : JobFacts} {active : List JobFacts} {d : ConcurrencyDecision}

theorem not_allowed_of_dependencyGate
    (h : dependencyGate candidate = some d) : d.verdict ≠ .allowParallel := by
  unfold dependencyGate at h
  split at h
  · cases h
  · split at h <;> cases h <;> simp

theorem not_allowed_of_candidateScopeGate
    (h : candidateScopeGate candidate active = some d) : d.verdict ≠ .allowParallel := by
  unfold candidateScopeGate at h
  split at h
  · obtain ⟨b, -, rfl⟩ := Option.map_eq_some_iff.mp h
    simp [serializedBy]
  · obtain ⟨b, -, rfl⟩ := Option.map_eq_some_iff.mp h
    simp [serializedBy]
  · cases h

theorem not_allowed_of_activeScopeGate
    (h : activeScopeGate candidate active = some d) : d.verdict ≠ .allowParallel := by
  obtain ⟨b, -, rfl⟩ := Option.map_eq_some_iff.mp h
  simp [serializedBy]

theorem not_allowed_of_writerConflict
    (h : writerConflict candidate a = some d) : d.verdict ≠ .allowParallel := by
  unfold writerConflict at h
  split at h
  · cases h
  · split at h
    · cases h
      simp [serializedBy]
    · split at h <;> cases h <;> simp [serializedBy]

theorem not_allowed_of_writerGate
    (h : writerGate candidate active = some d) : d.verdict ≠ .allowParallel := by
  unfold writerGate at h
  split at h
  · obtain ⟨b, -, hb⟩ := List.exists_of_findSome?_eq_some h
    exact not_allowed_of_writerConflict hb
  · cases h

/-- A candidate is admitted exactly if no gate objects. -/
theorem allowParallel_iff : (decideConcurrency candidate active).verdict = .allowParallel ↔
    dependencyGate candidate = none ∧ candidateScopeGate candidate active = none ∧
      activeScopeGate candidate active = none ∧ writerGate candidate active = none := by
  unfold decideConcurrency
  cases h₁ : dependencyGate candidate with
  | some d => simpa using not_allowed_of_dependencyGate h₁
  | none =>
    cases h₂ : candidateScopeGate candidate active with
    | some d => simpa using not_allowed_of_candidateScopeGate h₂
    | none =>
      cases h₃ : activeScopeGate candidate active with
      | some d => simpa using not_allowed_of_activeScopeGate h₃
      | none =>
        cases h₄ : writerGate candidate active with
        | some d => simpa using not_allowed_of_writerGate h₄
        | none => simp [allowed]

/-- **What an admission proves**: the candidate may run beside every job the policy was
shown. -/
theorem compatible_of_allowParallel
    (h : (decideConcurrency candidate active).verdict = .allowParallel) (ha : a ∈ active) :
    Compatible candidate a := by
  obtain ⟨-, hscope, hactive, hwriter⟩ := (allowParallel_iff).mp h
  refine ⟨fun hglobal => ?_, fun hglobal => ?_, fun hcw haw => ?_⟩
  · -- a global candidate is admitted only beside nobody
    simp only [candidateScopeGate, hglobal, Option.map_eq_none_iff,
      List.head?_eq_none_iff] at hscope
    rw [hscope] at ha
    exact absurd ha List.not_mem_nil
  · have hnone := List.find?_eq_none.mp (Option.map_eq_none_iff.mp hactive) a ha
    exact hnone (by simp [excludedBy, hglobal])
  · simp only [writerGate, hcw, if_true] at hwriter
    have hnone := List.findSome?_eq_none_iff.mp hwriter a ha
    simp only [writerConflict, haw, Bool.not_true, Bool.false_eq_true, if_false] at hnone
    split at hnone
    · cases hnone
    · split at hnone
      · cases hnone
      · cases hnone
      · assumption

/-! ### Admission one after the other -/

/-- Nothing keeps the candidate from running beside the other job. -/
def Beside (candidate a : JobFacts) : Prop :=
  excludedBy candidate a = false ∧ excludedBy a candidate = false ∧
    (candidate.isWriter → writerConflict candidate a = none)

theorem sameRepo_comm (a b : JobFacts) : sameRepo a b = sameRepo b a := by
  unfold sameRepo
  grind

theorem Beside.symm (h : Beside candidate a) : Beside a candidate := by
  refine ⟨h.2.1, h.1, fun hw => ?_⟩
  have hwriter := h.2.2
  revert hwriter
  unfold writerConflict
  rw [footprintOverlap_comm a.footprint]
  cases footprintOverlap candidate.footprint a.footprint <;> grind

/-- **The policy decides job by job.** -/
theorem allowParallel_iff_forall_beside :
    (decideConcurrency candidate active).verdict = .allowParallel ↔
      dependencyGate candidate = none ∧ ∀ a ∈ active, Beside candidate a := by
  have hscope : candidateScopeGate candidate active = none ↔
      ∀ a ∈ active, excludedBy a candidate = false := by
    unfold candidateScopeGate excludedBy
    rcases candidate.actionClass with _ | _ | _
    · simp
    · cases active with
      | nil => simp
      | cons b bs => exact iff_of_false (by simp) fun h => by simpa using h b
    · simp [sameRepo_comm candidate]
  have hwriter : writerGate candidate active = none ↔
      ∀ a ∈ active, candidate.isWriter → writerConflict candidate a = none := by
    unfold writerGate
    split <;> simp_all
  rw [allowParallel_iff, hscope, hwriter, activeScopeGate, Option.map_eq_none_iff,
    List.find?_eq_none]
  simp only [Beside, ← forall₂_and, Bool.not_eq_true]
  grind

/-- The jobs are admitted one after the other, the last one first in the list. -/
def AdmittedInTurn : List JobFacts → Prop
  | [] => True
  | candidate :: active =>
    (decideConcurrency candidate active).verdict = .allowParallel ∧ AdmittedInTurn active

theorem admittedInTurn_iff : AdmittedInTurn active ↔
    (∀ a ∈ active, dependencyGate a = none) ∧ active.Pairwise Beside := by
  induction active with
  | nil => simp [AdmittedInTurn]
  | cons a active ih =>
    rw [AdmittedInTurn, ih, allowParallel_iff_forall_beside, List.forall_mem_cons,
      List.pairwise_cons]
    tauto

/-- **The order of admission is no matter**: what is admitted one after the other is so in every
other order, and any part of it alone. -/
theorem admitted_in_any_order (jobs : List JobFacts) :
    AdmittedInTurn jobs ↔ ∀ part, List.Subperm part jobs → AdmittedInTurn part := by
  refine ⟨fun h part ⟨jobs', hperm, hsub⟩ => ?_, fun h => h jobs (List.Subperm.refl jobs)⟩
  obtain ⟨hgate, hpair⟩ := admittedInTurn_iff.mp h
  refine admittedInTurn_iff.mpr ⟨fun a ha => hgate a (hsub.subset (hperm.mem_iff.mpr ha)), ?_⟩
  exact (hperm.pairwise_iff fun h => h.symm).mp (hpair.sublist hsub)

end Admission

end Scheduler

end ArgentTeam
