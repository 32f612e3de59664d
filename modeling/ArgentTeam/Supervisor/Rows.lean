import ArgentTeam.Models

/-!
# Rows of the supervisor

The job row the supervisor and the scheduler share, the rows of the action journal and
of the write intents, what a run-status provider observes, and the bounds of the
supervisor. A job row projects its V2C status onto one of eight primary states
(`derivePrimaryState`); every write that touches one of the projected columns goes
through that projection.
-/

namespace ArgentTeam

namespace Supervisor

/-! ### Enumerations -/

/-- What a run-status provider says of a run. -/
inductive RunStatus
  | notFound | running | succeeded | failed | cancelled | unknown | conflict
  deriving DecidableEq

inductive SupervisorJobStatus
  | active | waitingRun | waitingGate | backoff | recovering | error | terminal
  deriving DecidableEq

inductive RecoveryState
  | none | discoveringRun | restoringBinding | consumingResult | retryingStep
  | ambiguousWriter | runtimeUnknown | coreRecoveryRequired | persistentError
  deriving DecidableEq

inductive ReconcileAction
  | none | wait | startRole | createDispatch | spawnRun | bindRun | applyPatchSet
  | runSandboxTests | recordTestResult | consumeResult | markRunFailed | coreRecover
  | presentOwnerGate | closeDone | closeFailed | closeBlocked | persistentError
  deriving DecidableEq

inductive PrimaryState
  | queued | running | waitingExternal | ownerGate | blocked | failed | lost | done
  deriving DecidableEq

/-- Why a job is queued. -/
inductive QueueReason
  | new | retryBackoff | waitEvent | waitDeadline | gateApproved | recovery
  | resourceDeferred | resourceDenied | concurrencySerialized
  deriving DecidableEq

/-- How a job has ended. -/
inductive Terminal
  | done | failed | blocked
  deriving DecidableEq

/-- What a row of the journal is about. -/
inductive ActionType
  | startRole | createDispatch | spawnRun | bindRun | applyPatchSet | runSandboxTests
  | recordTestResult | consumeResult | markRunFailed | coreRecover | presentOwnerGate
  | closeJob
  deriving DecidableEq

def ActionType.value : ActionType → String
  | startRole => "START_ROLE"
  | createDispatch => "CREATE_DISPATCH"
  | spawnRun => "SPAWN_RUN"
  | bindRun => "BIND_RUN"
  | applyPatchSet => "APPLY_PATCH_SET"
  | runSandboxTests => "RUN_SANDBOX_TESTS"
  | recordTestResult => "RECORD_TEST_RESULT"
  | consumeResult => "CONSUME_RESULT"
  | markRunFailed => "MARK_RUN_FAILED"
  | coreRecover => "CORE_RECOVER"
  | presentOwnerGate => "PRESENT_OWNER_GATE"
  | closeJob => "CLOSE_JOB"

/-- Status of a row of the journal. -/
inductive ActionStatus
  | planned | running | uncertain | succeeded | failed
  deriving DecidableEq

/-! ### Bounds -/

def later (now : Time) (seconds : ℕ) : Time := now + seconds * 1000000

def maxActionRetries : ℕ := 5

def maxRuntimeUnknown : ℕ := 5

def missingBoundRunConfirmations : ℕ := 8

def missingUnboundSpawnConfirmations : ℕ := 15

def maxDispatchAttemptsPerStep : ℕ := 3

def runningPollSeconds : ℕ := 2

def backoffSeconds (retryCount : ℕ) : ℕ := min (2 ^ retryCount) 30

theorem backoffSeconds_mono {m n : ℕ} (h : m ≤ n) : backoffSeconds m ≤ backoffSeconds n := by
  have hpow : 2 ^ m ≤ 2 ^ n := Nat.pow_le_pow_right (by omega) h
  simp only [backoffSeconds]
  omega

/-! ### The job row -/

/-- A job, as the supervisor and the scheduler read and write it. -/
structure JobRow where
  id : String
  taskId : String
  status : SupervisorJobStatus
  primaryState : PrimaryState
  queueReason : QueueReason
  waiting : Bool
  terminal : Option Terminal
  recoveryState : RecoveryState
  ownerInstanceId : Option String
  leaseEpoch : ℕ
  leaseExpiresAt : Option Time
  nextEligibleAt : Option Time
  nextWakeAt : Option Time
  nextAction : ReconcileAction
  retryCount : ℕ
  missingConfirmations : ℕ
  ownerPromptedAt : Option Time
  ownerPromptedGateId : Option String
  lastErrorCode : Option String
  factsVersion : ℕ
  deriving DecidableEq

def derivePrimaryState (status : SupervisorJobStatus) (terminal : Option Terminal)
    (waiting : Bool) : PrimaryState :=
  match terminal, status with
  | some .done, _ => .done
  | some .failed, _ => .failed
  | some .blocked, _ => .blocked
  | none, .terminal => .blocked
  | none, .waitingRun => if waiting then .waitingExternal else .queued
  | none, .active => .running
  | none, .waitingGate => .ownerGate
  | none, .backoff => .queued
  | none, .recovering => .lost
  | none, .error => .blocked

/-- What a write of `Store._update_supervisor_job` leaves of a row, its primary state
derived from the columns that were written. -/
def JobRow.project (j : JobRow) : JobRow :=
  { j with primaryState := derivePrimaryState j.status j.terminal j.waiting }

/-! ### The journal -/

/-- The key of an action, by its parts; a digest in a key is the value itself
(`ActionKey.text`). -/
inductive ActionKey
  /-- Starting a role, for an attempt at a position. -/
  | startRole (jobId : String) (cycle pos attempt : ℕ)
  | createDispatch (jobId : String) (cycle pos attempt : ℕ)
  | spawn (dispatchId : String)
  | bind (dispatchId runId : String)
  /-- Applying the patch set of a result. -/
  | apply (dispatchId : String) (result : Json)
  | tests (dispatchId : String) (frozen : Json)
  | recordTest (dispatchId : String) (frozen : Json)
  | consume (dispatchId runId : String) (canonical : Json)
  | fail (dispatchId runId : String)
  | coreRecover (jobId : String)
  | presentGate (jobId : String) (gateId : Option String)
  | close (jobId : String) (terminal : Terminal)
  deriving DecidableEq

/-- The text of a way to end. -/
def Terminal.value : Terminal → String
  | done => "DONE"
  | failed => "FAILED"
  | blocked => "BLOCKED"

/-- A row of the journal. The digest of the arguments is the arguments themselves, and
the row is identified by the digest of its key, that is by its key. -/
structure SupervisorAction where
  jobId : String
  dispatchId : Option String
  actionType : ActionType
  actionKey : ActionKey
  argsHash : Json
  inputHash : Option Json
  preconditionHash : Option String
  effectHash : Option String
  patchSetJson : Option Json
  status : ActionStatus
  attemptCount : ℕ
  lastErrorCode : Option String
  createdAt : Time

structure WriteIntent where
  dispatchId : String
  canonicalInputHash : Json
  intentActionId : ActionKey

/-! ### Observations -/

structure RunObservation where
  status : RunStatus
  sessionId : Option String
  runId : Option String
  provider : Option String
  model : Option String
  thinkingTier : Option String
  result : Option Json
  resultHash : Option Json
  authoritativeNotFound : Bool
  errorCode : Option String
  adapterExceptionType : Option String

end Supervisor

end ArgentTeam
