import ArgentTeam.Scheduler.Concurrency
import Mathlib.Algebra.BigOperators.Group.List.Basic
import Mathlib.Algebra.Order.Ring.Int
import Mathlib.Algebra.Order.Ring.Rat

/-!
# The resource governor

Whether a host has room for one more job. The governor compares a snapshot of the host with a
policy in seven steps, and the first step that refuses decides; a job that no step refuses is
admitted, with the limits it is to run under (`admits_iff`). Bytes and counts are integers; the
ratios of the policy and of the snapshot are exact rationals.
-/

namespace ArgentTeam

namespace Scheduler.ResourceClass

def value : ResourceClass → String
  | light => "LIGHT"
  | medium => "MEDIUM"
  | heavy => "HEAVY"
  | exclusive => "EXCLUSIVE"

/-- The classes. -/
def all : List ResourceClass := [light, medium, heavy, exclusive]

/-- `ResourceClass(..)`; `none` where it raises. -/
def ofValue? (s : String) : Option ResourceClass := all.find? fun c => s = c.value

@[simp]
theorem ofValue?_value (c : ResourceClass) : ofValue? c.value = some c := by
  cases c <;> simp [ofValue?, all, value]

end Scheduler.ResourceClass

namespace Resource

open Scheduler

/-! ### The policy -/

/-- `int(..)`, of a ratio: the part towards zero. -/
def truncate (q : ℚ) : ℤ := q.num.tdiv q.den

def mib (n : ℤ) : ℤ := n * (1024 * 1024)

def gib (n : ℚ) : ℤ := truncate (n * (1024 * 1024 * 1024))

structure ResourceLimits where
  memoryHighBytes : ℤ
  memoryMaxBytes : ℤ
  swapMaxBytes : ℤ
  cpuQuotaPercent : ℤ
  timeoutSeconds : Option ℤ

structure ResourcePolicy where
  policyVersion : String := "1"
  lightLimits : ResourceLimits := ⟨mib 768, gib 1, mib 256, 100, some (15 * 60)⟩
  mediumLimits : ResourceLimits := ⟨gib 2, gib (5 / 2), mib 512, 200, some (45 * 60)⟩
  heavyLimits : ResourceLimits := ⟨gib 3, gib 4, gib 1, 300, some (120 * 60)⟩
  exclusiveLimits : ResourceLimits := ⟨gib (9 / 2), gib (11 / 2), gib (3 / 2), 400, none⟩
  minimumHostReserveBytes : ℤ := gib (3 / 2)
  hostReserveRamRatio : ℚ := 1 / 5
  swapWarningRatio : ℚ := 7 / 10
  swapBlockRatio : ℚ := 17 / 20
  minimumDiskFreeBytes : ℤ := gib 10
  minimumDiskFreeRatio : ℚ := 3 / 20
  largeTempFactor : ℚ := 2
  tmpForbiddenMarkers : List PyStr :=
    ["node_modules", "site-packages", ".venv", "venv", "env", "repo", "worktree", "build", "dist",
      "cache", "artifact", "store", ".pnpm-store", ".npm", ".cargo", ".yarn", "target"].map
      PyStr.ofString
  maxWritersGlobal : ℤ := 1
  maxLight : ℤ := 2
  maxMedium : ℤ := 1
  maxHeavy : ℤ := 1
  deferRetrySeconds : ℤ := 300
  loadMultiplier5min : ℚ := 3 / 2

def ResourcePolicy.limitsFor (policy : ResourcePolicy) : ResourceClass → ResourceLimits
  | .light => policy.lightLimits
  | .medium => policy.mediumLimits
  | .heavy => policy.heavyLimits
  | .exclusive => policy.exclusiveLimits

def requiredHostReserve (memTotalBytes minimumHostReserveBytes : ℤ) (hostReserveRamRatio : ℚ) :
    ℤ :=
  if memTotalBytes ≤ 0 then minimumHostReserveBytes
  else max minimumHostReserveBytes (truncate (hostReserveRamRatio * memTotalBytes))

def effectiveMemoryMax (classMemoryMaxBytes memAvailableBytes reserveBytes : ℤ) : ℤ :=
  max 0 (min classMemoryMaxBytes (memAvailableBytes - reserveBytes))

theorem effectiveMemoryMax_mono {ceiling available available' reserve : ℤ}
    (h : available ≤ available') :
    effectiveMemoryMax ceiling available reserve ≤
      effectiveMemoryMax ceiling available' reserve := by
  unfold effectiveMemoryMax
  omega

/-! ### The snapshot -/

def fieldActiveJobs : String := "active_jobs"

/-- `HostResourceSnapshot`, as far as the governor reads it; `none` is a fact nobody knows. -/
structure HostResourceSnapshot where
  memTotalBytes : Option ℤ
  memAvailableBytes : Option ℤ
  swapTotalBytes : Option ℤ
  swapFreeBytes : Option ℤ
  rootFreeBytes : Option ℤ
  rootFreeRatio : Option ℚ
  workspaceFreeBytes : Option ℤ
  tmpFsType : Option String
  load5min : Option ℚ
  cpuCount : Option ℤ
  /-- `active_jobs`: jobs with the values of their classes. -/
  activeJobs : List (String × String) := []
  unknownFields : List String := []
  snapshotHash : String := ""

/-- The classes of jobs, as far as there are such classes. -/
def classes (activeJobs : List (String × String)) : List ResourceClass :=
  activeJobs.filterMap fun item => ResourceClass.ofValue? item.2

/-- `_active_counts`, of one class. -/
def activeCounts (activeJobs : List (String × String)) (c : ResourceClass) : ℕ :=
  (classes activeJobs).count c

def activeReservedBytes (activeJobs : List (String × String)) (policy : ResourcePolicy) : ℤ :=
  ((classes activeJobs).map fun c => (policy.limitsFor c).memoryMaxBytes).sum

def writerActive (activeJobs : List (String × String)) : ℕ :=
  activeCounts activeJobs .medium + activeCounts activeJobs .heavy +
    activeCounts activeJobs .exclusive

/-! ### The decision -/

/-- `ResourceReasonCode`, as far as the governor gives it. -/
inductive ResourceReasonCode
  | ok
  | insufficientMemoryReserve
  | swapPressure
  | diskLow
  | tmpfsPolicyViolation
  | loadPressure
  | concurrencyLimit
  | resourceEvidenceUnknown
  | externalCiPreferred

inductive AdmissionVerdict
  | allow | defer | denyLocal | preferExternal
  deriving DecidableEq

/-- `AdmissionDecision`; `none` for limits that have been left empty. -/
structure AdmissionDecision where
  resourceClass : ResourceClass
  policyVersion : String
  snapshotRef : String
  decision : AdmissionVerdict
  reasonCode : ResourceReasonCode
  nextEligibleAt : Option String
  effectiveLimits : Option ResourceLimits
  timestamp : String

/-- The job may run, here or elsewhere. -/
def AdmissionDecision.Admits (d : AdmissionDecision) : Prop :=
  d.decision = .allow ∨ d.decision = .preferExternal

instance (d : AdmissionDecision) : Decidable d.Admits := inferInstanceAs (Decidable (_ ∨ _))

/-- What the governor takes from the interpreter. -/
structure Interpreter where
  nowIsoDefault : String
  plusSeconds : Option String → ℤ → String
  lower : PyStr → PyStr

/-- `now_iso or _now_iso_default()`. -/
def Interpreter.nowOr (py : Interpreter) (nowIso : Option String) : String :=
  (nowIso.filter fun t => t ≠ "").getD py.nowIsoDefault

def Interpreter.addSecondsIso (py : Interpreter) (nowIso : Option String) (seconds : ℤ) : String :=
  if seconds ≤ 0 then py.nowOr nowIso else py.plusSeconds nowIso seconds

def isTmpPathForbidden (py : Interpreter) (policy : ResourcePolicy) (path : PyStr) : Bool :=
  let norm := (((PyStr.strip path).map fun c => if c = .scalar '\\' then slash else c).reverse
    |>.dropWhile (· = slash)).reverse
  if norm = [] then false
  else if norm = PyStr.ofString "/tmp" ∨ PyStr.startsWith (PyStr.ofString "/tmp/") norm then
    (norm.splitOn slash).any fun part => policy.tmpForbiddenMarkers.contains (py.lower part)
  else false

/-- What a decision is asked for, besides the class. -/
structure Request where
  nowIso : Option String := none
  preferExternalCi : Bool := false
  estimatedTempBytes : Option ℤ := none
  tmpPaths : List PyStr := []

/-- What a decision is about. -/
structure Candidate extends Request where
  resourceClass : ResourceClass

/-- The classes from `MEDIUM` up. -/
def mediumUp : List ResourceClass := [.medium, .heavy, .exclusive]

theorem mem_mediumUp {c : ResourceClass} : c ∈ mediumUp ↔ c.isWriterClass := by
  cases c <;> simp [mediumUp, ResourceClass.isWriterClass]

section Steps

variable (py : Interpreter) (policy : ResourcePolicy) (snapshot : HostResourceSnapshot)
  (candidate : Candidate)

/-- A decision, with what is the same in all of them. -/
def decided (decision : AdmissionVerdict) (reasonCode : ResourceReasonCode)
    (nextEligibleAt : Option String) (effectiveLimits : Option ResourceLimits) :
    AdmissionDecision where
  resourceClass := candidate.resourceClass
  policyVersion := policy.policyVersion
  snapshotRef := snapshot.snapshotHash
  decision := decision
  reasonCode := reasonCode
  nextEligibleAt := nextEligibleAt
  effectiveLimits := effectiveLimits
  timestamp := py.nowOr candidate.nowIso

/-- A decision to wait. -/
def deferred (reasonCode : ResourceReasonCode) : AdmissionDecision :=
  decided py policy snapshot candidate .defer reasonCode
    (some (py.addSecondsIso candidate.nowIso policy.deferRetrySeconds)) none

/-- A decision against the host. -/
def denied (reasonCode : ResourceReasonCode) : AdmissionDecision :=
  decided py policy snapshot candidate .denyLocal reasonCode none none

def missingCritical (resourceClass : ResourceClass) : List String :=
  (if snapshot.memTotalBytes = none then ["mem_total_bytes"] else []) ++
  (if snapshot.memAvailableBytes = none then ["mem_available_bytes"] else []) ++
  (if snapshot.swapTotalBytes = none then ["swap_total_bytes"] else []) ++
  (if snapshot.swapFreeBytes = none then ["swap_free_bytes"] else []) ++
  (if snapshot.rootFreeBytes = none then ["root_free"] else []) ++
  (if snapshot.tmpFsType = none then ["tmp_fs_type"] else []) ++
  (if fieldActiveJobs ∈ snapshot.unknownFields then [fieldActiveJobs] else []) ++
  if resourceClass ∈ mediumUp then
    (if snapshot.load5min = none then ["load"] else []) ++
    (if snapshot.cpuCount = none then ["cpu_count"] else [])
  else []

/-- The first step: what has to be known. -/
def evidenceUnknown : Option AdmissionDecision :=
  if missingCritical snapshot candidate.resourceClass ≠ [] then
    if candidate.resourceClass ∈ mediumUp then
      some (denied py policy snapshot candidate .resourceEvidenceUnknown)
    else some (deferred py policy snapshot candidate .resourceEvidenceUnknown)
  else none

/-- The second step: who else is active. -/
def concurrencyLimits : Option AdmissionDecision :=
  let refusal := some (deferred py policy snapshot candidate .concurrencyLimit)
  let counts := activeCounts snapshot.activeJobs
  if candidate.resourceClass = .exclusive ∧
      0 < writerActive snapshot.activeJobs + counts .light then refusal
  else if 0 < counts .exclusive then refusal
  else if candidate.resourceClass.isWriterClass ∧
      policy.maxWritersGlobal ≤ writerActive snapshot.activeJobs then refusal
  else if candidate.resourceClass = .light ∧ policy.maxLight ≤ counts .light then refusal
  else none

/-- The share of the swap space that is in use, if there is any swap space. -/
def swapRatio : Option ℚ :=
  match snapshot.swapTotalBytes with
  | none => none
  | some total =>
    if 0 < total then some (((total - snapshot.swapFreeBytes.getD 0 : ℤ) : ℚ) / total) else none

/-- The third step: the swap space. -/
def swapPressure : Option AdmissionDecision :=
  match swapRatio snapshot with
  | none => none
  | some ratio =>
    if policy.swapBlockRatio ≤ ratio ∧ candidate.resourceClass.isWriterClass then
      some (deferred py policy snapshot candidate .swapPressure)
    else if policy.swapWarningRatio ≤ ratio ∧ candidate.resourceClass ∈ mediumUp then
      some (deferred py policy snapshot candidate .swapPressure)
    else none

/-- There is too little room on the disks. -/
def diskLow : Bool :=
  (match snapshot.rootFreeBytes with
    | none => false
    | some free => free < policy.minimumDiskFreeBytes ||
        snapshot.rootFreeRatio.any fun ratio => ratio < policy.minimumDiskFreeRatio) ||
  match candidate.estimatedTempBytes with
  | none => false
  | some estimated => snapshot.workspaceFreeBytes.any fun free =>
      free < truncate (estimated * policy.largeTempFactor)

/-- The fourth step: the disks. -/
def disks : Option AdmissionDecision :=
  if diskLow policy snapshot candidate then some (denied py policy snapshot candidate .diskLow)
  else none

/-- The fifth step: what may lie in `/tmp`. -/
def tmpfsPolicy : Option AdmissionDecision :=
  if snapshot.tmpFsType = some "tmpfs" ∧
      candidate.tmpPaths.any (isTmpPathForbidden py policy) = true then
    some (denied py policy snapshot candidate .tmpfsPolicyViolation)
  else none

/-- The memory to be left to the host. The step that asks for it comes behind the one that has
found the total to be known. -/
def reserve : ℤ :=
  requiredHostReserve (snapshot.memTotalBytes.getD 0) policy.minimumHostReserveBytes
    policy.hostReserveRamRatio

/-- The sixth step: the memory. -/
def hostReserve : Option AdmissionDecision :=
  match snapshot.memAvailableBytes with
  | none => none
  | some available =>
    if available - activeReservedBytes snapshot.activeJobs policy -
        (policy.limitsFor candidate.resourceClass).memoryMaxBytes < reserve policy snapshot then
      some (deferred py policy snapshot candidate .insufficientMemoryReserve)
    else none

/-- The load is above what the processors are meant to carry. -/
def overloaded : Bool :=
  match snapshot.load5min, snapshot.cpuCount with
  | some load, some cpus => 0 < cpus && cpus * policy.loadMultiplier5min < load
  | _, _ => false

/-- The seventh step: the load. -/
def loadPressure : Option AdmissionDecision :=
  if candidate.resourceClass ∈ mediumUp ∧ overloaded policy snapshot = true then
    some (deferred py policy snapshot candidate .loadPressure)
  else none

/-- The steps that may refuse a job, in their order. -/
def refusals : List (Option AdmissionDecision) :=
  [evidenceUnknown py policy snapshot candidate, concurrencyLimits py policy snapshot candidate,
    swapPressure py policy snapshot candidate, disks py policy snapshot candidate,
    tmpfsPolicy py policy snapshot candidate, hostReserve py policy snapshot candidate,
    loadPressure py policy snapshot candidate]

end Steps

structure ResourceGovernor where
  policy : ResourcePolicy := {}

/-- `_effective_limits`: the ceilings are those of the governor's own policy, whatever policy the
job is admitted under. -/
def ResourceGovernor.effectiveLimits (governor : ResourceGovernor) (resourceClass : ResourceClass)
    (snapshot : HostResourceSnapshot) (reserve : ℤ) : ResourceLimits :=
  let limits := governor.policy.limitsFor resourceClass
  { limits with
    memoryMaxBytes :=
      match snapshot.memAvailableBytes with
      | none => limits.memoryMaxBytes
      | some available => effectiveMemoryMax limits.memoryMaxBytes available reserve }

/-- The last two steps: a job that is admitted. -/
def ResourceGovernor.admitted (governor : ResourceGovernor) (py : Interpreter)
    (policy : ResourcePolicy) (snapshot : HostResourceSnapshot) (candidate : Candidate) :
    AdmissionDecision :=
  let limits := some (governor.effectiveLimits candidate.resourceClass snapshot
    (reserve policy snapshot))
  if candidate.preferExternalCi then
    decided py policy snapshot candidate .preferExternal .externalCiPreferred none limits
  else decided py policy snapshot candidate .allow .ok none limits

/-- `_decide`. -/
def ResourceGovernor.decideCandidate (governor : ResourceGovernor) (py : Interpreter)
    (policy : ResourcePolicy) (snapshot : HostResourceSnapshot) (candidate : Candidate) :
    AdmissionDecision :=
  ((refusals py policy snapshot candidate).findSome? id).getD
    (governor.admitted py policy snapshot candidate)

/-- `decide`, of the value of a class; `none` where it raises. -/
def ResourceGovernor.decide (governor : ResourceGovernor) (py : Interpreter)
    (resourceClass : String) (snapshot : HostResourceSnapshot) (request : Request)
    (policy : Option ResourcePolicy) : Option AdmissionDecision :=
  (ResourceClass.ofValue? resourceClass).map fun rc =>
    governor.decideCandidate py (policy.getD governor.policy) snapshot
      { request with resourceClass := rc }

/-! ### What each step lets pass -/

section Passing

variable {py : Interpreter} {policy : ResourcePolicy} {snapshot : HostResourceSnapshot}
  {candidate : Candidate} {governor : ResourceGovernor}

/-- What the first step asks for. -/
structure Evident (snapshot : HostResourceSnapshot) (rc : ResourceClass) : Prop where
  memTotal : snapshot.memTotalBytes ≠ none
  memAvailable : snapshot.memAvailableBytes ≠ none
  swapTotal : snapshot.swapTotalBytes ≠ none
  swapFree : snapshot.swapFreeBytes ≠ none
  rootFree : snapshot.rootFreeBytes ≠ none
  /-- What `/tmp` is. -/
  tmpFsType : snapshot.tmpFsType ≠ none
  activeJobs : fieldActiveJobs ∉ snapshot.unknownFields
  /-- The load, for the classes from `MEDIUM` up. -/
  load : rc ∈ mediumUp → snapshot.load5min ≠ none
  cpus : rc ∈ mediumUp → snapshot.cpuCount ≠ none

theorem missingCritical_eq_nil_iff {rc : ResourceClass} :
    missingCritical snapshot rc = [] ↔ Evident snapshot rc := by
  have hite : ∀ {p : Prop} [Decidable p] {x : String}, (if p then [x] else []) = [] ↔ ¬p := by
    intro p _ x
    split <;> simp_all
  constructor
  · intro h
    simp only [missingCritical, List.append_eq_nil_iff, hite] at h
    obtain ⟨⟨⟨⟨⟨⟨⟨hmem, havail⟩, hswap⟩, hfree⟩, hroot⟩, htmp⟩, hactive⟩, hrest⟩ := h
    refine ⟨hmem, havail, hswap, hfree, hroot, htmp, hactive, fun hrc => ?_, fun hrc => ?_⟩ <;>
      rw [if_pos hrc, List.append_eq_nil_iff, hite, hite] at hrest
    · exact hrest.1
    · exact hrest.2
  · intro h
    simp only [missingCritical, List.append_eq_nil_iff, hite]
    refine ⟨⟨⟨⟨⟨⟨⟨h.memTotal, h.memAvailable⟩, h.swapTotal⟩, h.swapFree⟩, h.rootFree⟩,
      h.tmpFsType⟩, h.activeJobs⟩, ?_⟩
    split
    next hrc => simp [h.load hrc, h.cpus hrc]
    · rfl

theorem evidenceUnknown_eq_none_iff :
    evidenceUnknown py policy snapshot candidate = none ↔
      Evident snapshot candidate.resourceClass := by
  rw [← missingCritical_eq_nil_iff]
  unfold evidenceUnknown
  split
  next hne => split <;> simp [hne]
  next hnil => simpa using hnil

/-- What the second step asks for. -/
structure Concurrent (policy : ResourcePolicy) (activeJobs : List (String × String))
    (rc : ResourceClass) : Prop where
  alone : rc = .exclusive → writerActive activeJobs + activeCounts activeJobs .light = 0
  shared : activeCounts activeJobs .exclusive = 0
  writers : rc.isWriterClass = true → (writerActive activeJobs : ℤ) < policy.maxWritersGlobal
  light : rc = .light → (activeCounts activeJobs .light : ℤ) < policy.maxLight

theorem concurrencyLimits_eq_none_iff :
    concurrencyLimits py policy snapshot candidate = none ↔
      Concurrent policy snapshot.activeJobs candidate.resourceClass := by
  constructor
  · intro h
    simp only [concurrencyLimits] at h
    split_ifs at h with halone hshared hwriters hlight
    refine ⟨fun hrc => ?_, by omega, fun hrc => ?_, fun hrc => ?_⟩
    · by_contra hne
      exact halone ⟨hrc, Nat.pos_of_ne_zero hne⟩
    · by_contra hle
      exact hwriters ⟨hrc, Int.not_lt.mp hle⟩
    · by_contra hle
      exact hlight ⟨hrc, Int.not_lt.mp hle⟩
  · intro h
    simp only [concurrencyLimits]
    rw [if_neg fun hc => absurd (h.alone hc.1) (Nat.pos_iff_ne_zero.mp hc.2),
      if_neg fun hc => absurd h.shared (Nat.pos_iff_ne_zero.mp hc),
      if_neg fun hc => absurd (h.writers hc.1) (Int.not_lt.mpr hc.2),
      if_neg fun hc => absurd (h.light hc.1) (Int.not_lt.mpr hc.2)]

/-- The third step asks the writers for swap space below both thresholds. -/
theorem swapPressure_eq_none_iff :
    swapPressure py policy snapshot candidate = none ↔
      (candidate.resourceClass.isWriterClass → ∀ ratio ∈ swapRatio snapshot,
        ratio < policy.swapBlockRatio ∧ ratio < policy.swapWarningRatio) := by
  unfold swapPressure
  cases hratio : swapRatio snapshot with
  | none => simp
  | some ratio =>
    simp only [mem_mediumUp, Option.mem_def, Option.some.injEq, forall_eq']
    constructor
    · intro h hwriter
      split_ifs at h with hblock hwarning
      exact ⟨Rat.not_le.mp fun hle => hblock ⟨hle, hwriter⟩,
        Rat.not_le.mp fun hle => hwarning ⟨hle, hwriter⟩⟩
    · intro h
      rw [if_neg fun hc => Rat.not_le.mpr (h hc.2).1 hc.1,
        if_neg fun hc => Rat.not_le.mpr (h hc.2).2 hc.1]

theorem disks_eq_none_iff :
    disks py policy snapshot candidate = none ↔ diskLow policy snapshot candidate = false := by
  unfold disks
  split <;> simp_all

theorem tmpfsPolicy_eq_none_iff :
    tmpfsPolicy py policy snapshot candidate = none ↔ ¬(snapshot.tmpFsType = some "tmpfs" ∧
      candidate.tmpPaths.any (isTmpPathForbidden py policy)) := by
  unfold tmpfsPolicy
  split <;> simp_all

/-- The sixth step asks for what the host is to be left, beside all ceilings. -/
theorem hostReserve_eq_none_iff :
    hostReserve py policy snapshot candidate = none ↔ ∀ available ∈ snapshot.memAvailableBytes,
      reserve policy snapshot ≤ available - activeReservedBytes snapshot.activeJobs policy -
        (policy.limitsFor candidate.resourceClass).memoryMaxBytes := by
  unfold hostReserve
  cases snapshot.memAvailableBytes with
  | none => simp
  | some available =>
    simp only [Option.mem_def, Option.some.injEq, forall_eq']
    split
    next hlt => simpa using hlt
    next hge => simpa using hge

theorem loadPressure_eq_none_iff :
    loadPressure py policy snapshot candidate = none ↔
      ¬(candidate.resourceClass ∈ mediumUp ∧ overloaded policy snapshot) := by
  unfold loadPressure
  split <;> simp_all

/-- What no step refuses. -/
structure Passes (py : Interpreter) (policy : ResourcePolicy) (snapshot : HostResourceSnapshot)
    (candidate : Candidate) : Prop where
  evident : Evident snapshot candidate.resourceClass
  concurrent : Concurrent policy snapshot.activeJobs candidate.resourceClass
  swap : candidate.resourceClass.isWriterClass = true → ∀ ratio ∈ swapRatio snapshot,
    ratio < policy.swapBlockRatio ∧ ratio < policy.swapWarningRatio
  disks : diskLow policy snapshot candidate = false
  tmpfs : ¬(snapshot.tmpFsType = some "tmpfs" ∧
    candidate.tmpPaths.any (isTmpPathForbidden py policy) = true)
  memory : ∀ available ∈ snapshot.memAvailableBytes, reserve policy snapshot ≤
    available - activeReservedBytes snapshot.activeJobs policy -
      (policy.limitsFor candidate.resourceClass).memoryMaxBytes
  load : ¬(candidate.resourceClass ∈ mediumUp ∧ overloaded policy snapshot = true)

theorem passes_iff : Passes py policy snapshot candidate ↔
    (refusals py policy snapshot candidate).findSome? id = none := by
  simp only [List.findSome?_eq_none_iff, refusals, List.forall_mem_cons, id_eq,
    List.not_mem_nil, IsEmpty.forall_iff, implies_true, and_true,
    evidenceUnknown_eq_none_iff, concurrencyLimits_eq_none_iff, swapPressure_eq_none_iff,
    disks_eq_none_iff, tmpfsPolicy_eq_none_iff, hostReserve_eq_none_iff, loadPressure_eq_none_iff]
  constructor
  all_goals
    rintro ⟨hevident, hconcurrent, hswap, hdisks, htmpfs, hmemory, hload⟩
    exact ⟨hevident, hconcurrent, hswap, hdisks, htmpfs, hmemory, hload⟩

theorem not_admits_of_refusal {d : AdmissionDecision}
    (h : some d ∈ refusals py policy snapshot candidate) : ¬d.Admits := by
  have hdeferred : ∀ reason, ¬(deferred py policy snapshot candidate reason).Admits := by
    simp [deferred, decided, AdmissionDecision.Admits]
  have hdenied : ∀ reason, ¬(denied py policy snapshot candidate reason).Admits := by
    simp [denied, decided, AdmissionDecision.Admits]
  simp only [refusals, List.mem_cons, List.not_mem_nil, or_false] at h
  rcases h with h | h | h | h | h | h | h
  · unfold evidenceUnknown at h
    split_ifs at h <;> cases h
    · exact hdenied _
    · exact hdeferred _
  · simp only [concurrencyLimits] at h
    split_ifs at h <;> cases h <;> exact hdeferred _
  · unfold swapPressure at h
    split at h
    · cases h
    · split_ifs at h <;> cases h <;> exact hdeferred _
  · unfold disks at h
    split_ifs at h
    cases h
    exact hdenied _
  · unfold tmpfsPolicy at h
    split_ifs at h
    cases h
    exact hdenied _
  · unfold hostReserve at h
    split at h
    · cases h
    · split_ifs at h
      cases h
      exact hdeferred _
  · unfold loadPressure at h
    split_ifs at h
    cases h
    exact hdeferred _

/-- **When a job is admitted**: exactly if no step refuses it. -/
theorem admits_iff : (governor.decideCandidate py policy snapshot candidate).Admits ↔
    Passes py policy snapshot candidate := by
  rw [passes_iff]
  unfold ResourceGovernor.decideCandidate
  cases h : (refusals py policy snapshot candidate).findSome? id with
  | none =>
    simp only [Option.getD_none, iff_true, ResourceGovernor.admitted]
    split
    · exact .inr rfl
    · exact .inl rfl
  | some d =>
    obtain ⟨step, hmem, rfl⟩ := List.exists_of_findSome?_eq_some h
    simpa using not_admits_of_refusal hmem

theorem effectiveLimits_decideCandidate (h : Passes py policy snapshot candidate) :
    (governor.decideCandidate py policy snapshot candidate).effectiveLimits =
      some (governor.effectiveLimits candidate.resourceClass snapshot
        (reserve policy snapshot)) := by
  rw [ResourceGovernor.decideCandidate, (passes_iff).mp h, Option.getD_none,
    ResourceGovernor.admitted]
  split <;> rfl

end Passing

end Resource

end ArgentTeam
