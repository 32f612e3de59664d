import ArgentTeam.Supervisor.Journal

/-!
# The durable queue

What the queue and lease primitives of `store.py` do to a job row. All of them but the
renewal of a lease go through `_transition_job`, which refuses to touch a job that has
ended, checks what the caller expects to find, and bumps the version of the facts. A
refused primitive leaves the row as it is.
-/

namespace ArgentTeam

namespace Supervisor

def maxLeaseTtlSeconds : ℕ := 86400

def maxPolicyRefLen : ℕ := 256

def notBlank (s : String) : Bool := !(PyStr.strip (PyStr.ofString s)).isEmpty

/-- The evidence about a worktree, as a takeover reads it. -/
inductive WorktreeVerdict
  | cleanupPending | blockedDiverged | other
  deriving DecidableEq

/-- What a caller of a primitive expects of the lease. -/
structure LeaseCas where
  owner : String
  epoch : ℕ
  deriving DecidableEq

/-- How a job is to be queued. -/
structure Requeue where
  queueReason : QueueReason
  nextEligibleAt : Option Time
  waiting : Bool := false
  errorCode : Option String

namespace JobRow

variable (j : JobRow)

def leaseHeld (now : Time) : Bool := j.leaseExpiresAt.any fun t => now < t

def leaseIsCurrent (cas : LeaseCas) (now : Time) : Bool :=
  j.ownerInstanceId = some cas.owner && j.leaseEpoch = cas.epoch && j.leaseHeld now

/-- The fields a stale scan is fenced by. -/
def fence : PrimaryState × Option String × ℕ × Option Time × ℕ :=
  (j.primaryState, j.ownerInstanceId, j.leaseEpoch, j.leaseExpiresAt, j.factsVersion)

/-- What `_transition_job` does not refuse: a job that has not ended, or a blocked one
with the authorisation of the owner. -/
def transitionable (ownerAuthorized : Bool) : Bool :=
  j.terminal ≠ some .done && j.terminal ≠ some .failed &&
    (ownerAuthorized || (j.terminal ≠ some .blocked && j.primaryState ≠ .blocked))

/-- The write of `_transition_job`. -/
def transition (toPrimary : PrimaryState) (status : SupervisorJobStatus) : JobRow :=
  { j with primaryState := toPrimary, status := status, factsVersion := j.factsVersion + 1 }

/-- The lease is given up. -/
def unleased : JobRow := { j with ownerInstanceId := none, leaseExpiresAt := none }

def statusForEnqueue : QueueReason → SupervisorJobStatus
  | .retryBackoff => .backoff
  | _ => .waitingRun

/-- The fields every requeue writes. -/
def queued (r : Requeue) : JobRow :=
  ({ j.unleased with
      queueReason := r.queueReason
      nextEligibleAt := r.nextEligibleAt
      waiting := r.waiting
      lastErrorCode := r.errorCode } : JobRow).transition .queued (statusForEnqueue r.queueReason)

/-- `_job_is_claimable`. -/
def claimable (now : Time) : Bool :=
  j.primaryState = .queued && !(j.nextEligibleAt.any fun t => now < t) &&
    !(j.ownerInstanceId.isSome && j.leaseHeld now)

/-- A new owner, under the next epoch. -/
def leasedTo (owner : String) (ttl : ℕ) (now : Time) : JobRow :=
  ({ j with
      ownerInstanceId := some owner
      leaseEpoch := j.leaseEpoch + 1
      leaseExpiresAt := some (later now ttl) } : JobRow).transition .running .active

/-- The job is taken out of service. -/
def quarantined (toPrimary : PrimaryState) (status : SupervisorJobStatus)
    (terminal : Option Terminal)
    (errorCode : String) : JobRow :=
  ({ j.unleased with
      terminal := terminal
      lastErrorCode := some errorCode
      nextAction := .none
      nextWakeAt := none } : JobRow).transition toPrimary status

end JobRow

/-- The primitives of the queue, with their arguments. -/
inductive QueueOp
  /-- `claim_job`, `claim_next_job`. -/
  | claim (owner : String) (ttl : ℕ)
  /-- `enqueue_job` by the holder of the lease. -/
  | requeue (cas : LeaseCas) (r : Requeue)
  /-- `enqueue_job` of a job nobody holds. -/
  | enqueue (r : Requeue)
  /-- `enqueue_job` of a blocked job, authorised by the owner. -/
  | reopen (policyRef : String) (r : Requeue)
  /-- `renew_lease`. -/
  | renew (cas : LeaseCas) (ttl : ℕ)
  /-- `release_lease`. -/
  | release (cas : LeaseCas)
  /-- `clear_lease`. -/
  | clear (cas : LeaseCas)
  | quarantineLost (errorCode : String) (expected : Option JobRow)
  | quarantineBlocked (errorCode : String) (expected : Option JobRow)
  /-- `recover_takeover_job`. -/
  | takeover (expected : JobRow) (owner : String) (ttl : ℕ) (processAlive : Bool)
    (worktree : Option WorktreeVerdict)

/-- A broker effect of the job is still open. -/
def Journal.applyInFlight (js : Journal) (jobId : String) : Bool :=
  js.any fun a => a.jobId = jobId && a.actionType = .applyPatchSet &&
    (a.status = .running || a.status = .uncertain)

/-- A time to live the queue accepts. -/
def validTtl (ttl : ℕ) : Bool := 0 < ttl && ttl ≤ maxLeaseTtlSeconds

/-- What a primitive does to a row; `none` if it is refused. -/
def QueueOp.attempt (now : Time) (js : Journal) (j : JobRow) : QueueOp → Option JobRow
  | .claim owner ttl =>
    if notBlank owner && validTtl ttl && j.claimable now && j.transitionable false then
      some (j.leasedTo owner ttl now)
    else none
  | .requeue cas r =>
    if notBlank cas.owner && j.transitionable false && j.leaseIsCurrent cas now then
      some (j.queued r)
    else none
  | .enqueue r =>
    if j.ownerInstanceId = none ∧ j.primaryState = .queued ∧ j.transitionable false then
      some (j.queued r)
    else none
  | .reopen policyRef r =>
    if notBlank policyRef && policyRef.length ≤ maxPolicyRefLen && j.primaryState = .blocked &&
        j.terminal = some .blocked && j.ownerInstanceId = none && j.leaseExpiresAt = none then
      some (({ j with terminal := none } : JobRow).queued r)
    else none
  | .renew cas ttl =>
    if notBlank cas.owner && validTtl ttl && j.leaseIsCurrent cas now then
      some { j with leaseExpiresAt := some (later now ttl) }
    else none
  | .release cas =>
    if notBlank cas.owner && j.transitionable false && j.leaseIsCurrent cas now then
      some (j.unleased.transition .queued .waitingRun)
    else none
  | .clear cas =>
    if notBlank cas.owner && j.leaseIsCurrent cas now then
      some { j.unleased with factsVersion := j.factsVersion + 1 }
    else none
  | .quarantineLost errorCode expected =>
    if (expected.all fun e => e.fence = j.fence) && j.transitionable false then
      some (j.quarantined .lost .recovering j.terminal errorCode)
    else none
  | .quarantineBlocked errorCode expected =>
    if (expected.all fun e => e.fence = j.fence) && j.transitionable false then
      some (j.quarantined .blocked .terminal (some .blocked) errorCode)
    else none
  | .takeover expected owner ttl processAlive worktree =>
    if notBlank owner && validTtl ttl && expected.fence = j.fence && j.primaryState = .running &&
        j.terminal = none && (j.leaseExpiresAt.any fun t => t ≤ now) && !processAlive &&
        !js.applyInFlight j.id then
      match worktree with
      | some .blockedDiverged =>
        some (j.quarantined .blocked .terminal (some .blocked) "WORKTREE_DIVERGED")
      | some .other => some (j.quarantined .lost .recovering j.terminal "AMBIGUOUS_WRITER")
      | some .cleanupPending | none => some (j.leasedTo owner ttl now)
    else none

/-- The row after a primitive, refused or not. -/
def QueueOp.apply (now : Time) (js : Journal) (j : JobRow) (op : QueueOp) : JobRow :=
  (op.attempt now js j).getD j

/-! ### What the queue leaves alone -/

/-- A primitive that neither takes a job out of service nor brings it back: claiming it,
queueing it, and what happens to its lease. -/
def QueueOp.routine : QueueOp → Bool
  | claim .. | requeue .. | enqueue .. | renew .. | release .. | clear .. => true
  | takeover _ _ _ _ worktree => worktree = none || worktree = some .cleanupPending
  | reopen .. | quarantineLost .. | quarantineBlocked .. => false

section Frame

variable {now : Time} {js : Journal} {j j' : JobRow} {op : QueueOp}

/-- What every write of the queue keeps: the job, its counters, and what the owner was
asked. -/
structure JobRow.SameWork (j j' : JobRow) : Prop where
  id : j'.id = j.id
  taskId : j'.taskId = j.taskId
  retryCount : j'.retryCount = j.retryCount
  missingConfirmations : j'.missingConfirmations = j.missingConfirmations
  ownerPromptedAt : j'.ownerPromptedAt = j.ownerPromptedAt

theorem QueueOp.sameWork : j.SameWork (op.apply now js j) := by
  cases op <;> simp only [apply, attempt] <;> split <;> try split
  all_goals exact ⟨rfl, rfl, rfl, rfl, rfl⟩

theorem QueueOp.routine_terminal (h : op.routine) :
    (op.apply now js j).terminal = j.terminal := by
  cases op <;> simp only [routine, apply, attempt] at h ⊢ <;> split <;> try split
  all_goals first | rfl | simp_all

theorem QueueOp.apply_status (hs : j.status ≠ .error) : (op.apply now js j).status ≠ .error := by
  have hqueue : ∀ r, JobRow.statusForEnqueue r ≠ .error := by intro r; cases r <;> decide
  cases op <;> simp only [apply, attempt] <;> split <;> try split
  all_goals first
    | exact hs
    | exact hqueue _
    | simp [JobRow.leasedTo, JobRow.quarantined, JobRow.transition]

theorem QueueOp.apply_blocked (hp : j.primaryState = .blocked) (ht : j.terminal = none) :
    (op.apply now js j).status = j.status ∧ (op.apply now js j).primaryState = .blocked ∧
      (op.apply now js j).terminal = none := by
  have hnot : j.transitionable false = false := by simp [JobRow.transitionable, hp, ht]
  cases op <;> simp only [apply, attempt] <;> split <;>
    simp_all [JobRow.claimable, JobRow.unleased]

end Frame

end Supervisor

end ArgentTeam
