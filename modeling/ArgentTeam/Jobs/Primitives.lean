import ArgentTeam.Lib.Runs
import ArgentTeam.Scheduler.Concurrency
import ArgentTeam.Supervisor.Queue

/-!
# Everything that writes a job row

Beside the queue and lease primitives, a row is written by the scan of `claim_next_job`, by
the two ends of an external wait, by `commit_recovery_decision`, and by
`_update_supervisor_job`, which takes any columns and derives the primary state from them
unless the caller names it. A holder may ask `enqueue_job` for a requeue without naming the
epoch of its lease.

A `Call` is one of these, at an instant and with the journal as it is then; the calls of any
number of instances, in the order in which they commit, are a list.
-/

namespace ArgentTeam

namespace Jobs

open Supervisor

inductive FailureClass
  | normalExit
  | codeOrProcessFailure
  | resourceOom
  | resourceMemoryLimit
  | resourceTimeout
  | resourceEnforcementFailure
  | resourceCapacityFailure
  | scopeCleanupUnverified
  | unknownTermination
  deriving DecidableEq

inductive RecoveryDecision
  | complete
  | retryBounded
  | deferResource
  | blockResource
  | preferExternal
  | quarantineLost
  | failNonresource
  deriving DecidableEq

def isValidRecoveryPair : FailureClass → RecoveryDecision → Bool
  | .normalExit, d => d = .complete
  | .codeOrProcessFailure, d => d = .failNonresource
  | .resourceOom, d => d = .blockResource || d = .preferExternal
  | .resourceMemoryLimit, d => d = .blockResource || d = .deferResource
  | .resourceTimeout, d => d = .retryBounded || d = .deferResource || d = .blockResource
  | .resourceEnforcementFailure, d => d = .deferResource || d = .quarantineLost
  | .resourceCapacityFailure, d => d = .deferResource || d = .blockResource
  | .scopeCleanupUnverified, d => d = .quarantineLost
  | .unknownTermination, d => d = .quarantineLost

/-- The columns `_update_supervisor_job` is given; what is not given stays as it is. -/
structure JobUpdate where
  status : Option SupervisorJobStatus := none
  terminal : Option (Option Terminal) := none
  recoveryState : Option RecoveryState := none
  waiting : Option Bool := none
  queueReason : Option QueueReason := none
  primaryState : Option PrimaryState := none
  ownerInstanceId : Option (Option String) := none
  leaseEpoch : Option ℕ := none
  leaseExpiresAt : Option (Option Time) := none
  nextEligibleAt : Option (Option Time) := none
  nextWakeAt : Option (Option Time) := none
  nextAction : Option ReconcileAction := none
  retryCount : Option ℕ := none
  missingConfirmations : Option ℕ := none
  ownerPromptedAt : Option (Option Time) := none
  ownerPromptedGateId : Option (Option String) := none
  lastErrorCode : Option (Option String) := none
  factsVersion : Option ℕ := none

namespace JobUpdate

variable (u : JobUpdate) (j : JobRow)

/-- One of the columns is given that the primary state is derived from. -/
def projects : Bool :=
  u.status.isSome || u.terminal.isSome || u.recoveryState.isSome || u.waiting.isSome ||
    u.queueReason.isSome

/-- `_derive_primary_state_for_update`. -/
def derived : PrimaryState :=
  derivePrimaryState (u.status.getD j.status) (u.terminal.getD j.terminal)
    (u.waiting.getD j.waiting)

def newPrimaryState : PrimaryState :=
  u.primaryState.getD (if u.projects then u.derived j else j.primaryState)

/-- The terminal guard of `_update_supervisor_job`. -/
def allowed : Bool :=
  match j.terminal with
  | none => true
  | some .done => u.terminal.getD j.terminal = some .done && u.newPrimaryState j = .done
  | some .failed => u.terminal.getD j.terminal = some .failed && u.newPrimaryState j = .failed
  | some .blocked => u.terminal.getD j.terminal = some .blocked && u.newPrimaryState j = .blocked

def write : JobRow :=
  { j with
    status := u.status.getD j.status
    primaryState := u.newPrimaryState j
    queueReason := u.queueReason.getD j.queueReason
    waiting := u.waiting.getD j.waiting
    terminal := u.terminal.getD j.terminal
    recoveryState := u.recoveryState.getD j.recoveryState
    ownerInstanceId := u.ownerInstanceId.getD j.ownerInstanceId
    leaseEpoch := u.leaseEpoch.getD j.leaseEpoch
    leaseExpiresAt := u.leaseExpiresAt.getD j.leaseExpiresAt
    nextEligibleAt := u.nextEligibleAt.getD j.nextEligibleAt
    nextWakeAt := u.nextWakeAt.getD j.nextWakeAt
    nextAction := u.nextAction.getD j.nextAction
    retryCount := u.retryCount.getD j.retryCount
    missingConfirmations := u.missingConfirmations.getD j.missingConfirmations
    ownerPromptedAt := u.ownerPromptedAt.getD j.ownerPromptedAt
    ownerPromptedGateId := u.ownerPromptedGateId.getD j.ownerPromptedGateId
    lastErrorCode := u.lastErrorCode.getD j.lastErrorCode
    factsVersion := u.factsVersion.getD j.factsVersion }

end JobUpdate

/-- The `CHECK` of the table `supervisor_jobs`: a job that has ended says so, and has nothing
left to do. -/
def rowCheck (j : JobRow) : Bool :=
  j.terminal = none || (j.status = .terminal && j.nextAction = .none)

/-- What writes a job row, with its arguments. -/
inductive Primitive
  | queue (op : QueueOp)
  /-- `enqueue_job` with an owner, and without the epoch of its lease. -/
  | requeueByOwner (owner : String) (r : Requeue)
  /-- `claim_next_job`, whose scan has reached the row; what the job depends on is looked
  up on the way. -/
  | claimNext (owner : String) (ttl : ℕ) (dependsOn : Option Scheduler.DependencyTerminal)
  /-- `transition_to_waiting_external`; the table of the waits takes no wait of the kind
  `NONE`. -/
  | waitExternal (cas : LeaseCas) (nextCheckAt : Time)
  /-- `complete_wait_and_requeue`, of a wait of the job that is still open. -/
  | completeWait (queueReason : QueueReason)
  /-- `commit_recovery_decision`; whether the event was consumed already. -/
  | commitRecovery (cas : LeaseCas) (failure : FailureClass) (decision : RecoveryDecision)
    (reasonCode : String) (nextEligibleAt : Option Time) (expected : Option JobRow)
    (consumed : Bool)
  /-- `_update_supervisor_job`. -/
  | update (u : JobUpdate)

/-- The row of a job whose recovery puts it back into the queue. -/
def requeuedByRecovery (j : JobRow) (reason : QueueReason) (nextEligibleAt : Option Time)
    (reasonCode : String) : JobRow :=
  ({ j.unleased with
      queueReason := reason
      nextEligibleAt := nextEligibleAt
      lastErrorCode := some reasonCode } : JobRow).transition .queued
    (JobRow.statusForEnqueue reason)

/-- The transition of a recovery decision; `none` where `commit_recovery_decision` does not
handle it. -/
def recovered (j : JobRow) (reasonCode : String) (nextEligibleAt : Option Time) :
    RecoveryDecision → Option JobRow
  | .retryBounded => some (requeuedByRecovery j .retryBackoff nextEligibleAt reasonCode)
  | .deferResource => some (requeuedByRecovery j .resourceDeferred nextEligibleAt reasonCode)
  | .blockResource | .preferExternal =>
    some (j.quarantined .blocked .terminal (some .blocked) reasonCode)
  | .quarantineLost => some (j.quarantined .lost .recovering j.terminal reasonCode)
  | .complete | .failNonresource => none

/-- A recovery decision queues the job again, or takes it out of service. -/
theorem recovered_cases {j j' : JobRow} {reasonCode : String} {nextEligibleAt : Option Time}
    {decision : RecoveryDecision} (h : recovered j reasonCode nextEligibleAt decision = some j') :
    (decision = .retryBounded ∧
      j' = requeuedByRecovery j .retryBackoff nextEligibleAt reasonCode) ∨
    (decision = .deferResource ∧
      j' = requeuedByRecovery j .resourceDeferred nextEligibleAt reasonCode) ∨
    j' = j.quarantined .blocked .terminal (some .blocked) reasonCode ∨
    j' = j.quarantined .lost .recovering j.terminal reasonCode := by
  cases decision <;> simp_all [recovered]

/-- What a primitive does to a row; `none` if it is refused. -/
def Primitive.attempt (now : Time) (js : Journal) (j : JobRow) : Primitive → Option JobRow
  | .queue op => op.attempt now js j
  | .requeueByOwner owner r =>
    if notBlank owner && j.transitionable false && j.ownerInstanceId = some owner &&
        j.leaseHeld now then
      some (j.queued r)
    else none
  | .claimNext owner ttl dependsOn =>
    if !j.claimable now then none
    else
      match dependsOn with
      | some .missing =>
        -- a prerequisite that does not exist takes the job out of service
        if j.terminal = none && j.transitionable false then
          some (j.quarantined .blocked .terminal (some .blocked) "DEPENDENCY_UNKNOWN")
        else none
      | some (.terminal t) =>
        if t = some .done then (QueueOp.claim owner ttl).attempt now js j else none
      | none => (QueueOp.claim owner ttl).attempt now js j
  | .waitExternal cas nextCheckAt =>
    if notBlank cas.owner && j.primaryState = .running && j.leaseIsCurrent cas now &&
        j.transitionable false then
      some (({ j.unleased with
        waiting := true
        nextWakeAt := some nextCheckAt
        nextEligibleAt := some nextCheckAt
        nextAction := .wait } : JobRow).transition .waitingExternal .waitingRun)
    else none
  | .completeWait queueReason =>
    if j.primaryState = .waitingExternal && j.transitionable false then
      some (({ j.unleased with
        queueReason := queueReason
        waiting := false
        nextEligibleAt := some now
        nextWakeAt := none
        nextAction := .none } : JobRow).transition .queued .waitingRun)
    else none
  | .commitRecovery cas failure decision reasonCode nextEligibleAt expected consumed =>
    if isValidRecoveryPair failure decision && notBlank cas.owner &&
        (expected.all fun e => e.fence = j.fence) && j.terminal = none &&
        j.primaryState = .running && j.leaseIsCurrent cas now && !consumed then
      recovered j reasonCode nextEligibleAt decision
    else none
  | .update u => if u.allowed j && rowCheck (u.write j) then some (u.write j) else none

structure Call where
  now : Time
  journal : Journal
  op : Primitive

/-- A call while nothing is in the journal. -/
def Primitive.at (p : Primitive) (now : Time) : Call := ⟨now, [], p⟩

/-- The row that `create_supervisor_job` inserts. -/
def createSupervisorJob (id taskId : String) : JobRow where
  id := id
  taskId := taskId
  status := .waitingRun
  primaryState := .queued
  queueReason := .new
  waiting := false
  terminal := none
  recoveryState := .none
  ownerInstanceId := none
  leaseEpoch := 0
  leaseExpiresAt := none
  nextEligibleAt := none
  nextWakeAt := none
  nextAction := .none
  retryCount := 0
  missingConfirmations := 0
  ownerPromptedAt := none
  ownerPromptedGateId := none
  lastErrorCode := none
  factsVersion := 0

def Call.refused (j : JobRow) (c : Call) : Bool := (c.op.attempt c.now c.journal j).isNone

/-- The guards of the primitives: what each asks of the row, the instant and its arguments. -/
def Primitive.admits (now : Time) (js : Journal) (j : JobRow) : Primitive → Bool
  | .queue (.claim owner ttl) =>
    notBlank owner && validTtl ttl && j.claimable now && j.transitionable false
  | .queue (.requeue cas _) | .queue (.release cas) =>
    notBlank cas.owner && j.transitionable false && j.leaseIsCurrent cas now
  | .queue (.enqueue _) =>
    j.ownerInstanceId = none && j.primaryState = .queued && j.transitionable false
  | .queue (.reopen policyRef _) =>
    notBlank policyRef && policyRef.length ≤ maxPolicyRefLen && j.primaryState = .blocked &&
      j.terminal = some .blocked && j.ownerInstanceId = none && j.leaseExpiresAt = none
  | .queue (.renew cas ttl) => notBlank cas.owner && validTtl ttl && j.leaseIsCurrent cas now
  | .queue (.clear cas) => notBlank cas.owner && j.leaseIsCurrent cas now
  | .queue (.quarantineLost _ expected) | .queue (.quarantineBlocked _ expected) =>
    (expected.all fun e => e.fence = j.fence) && j.transitionable false
  | .queue (.takeover expected owner ttl processAlive _) =>
    notBlank owner && validTtl ttl && expected.fence = j.fence && j.primaryState = .running &&
      j.terminal = none && (j.leaseExpiresAt.any fun t => t ≤ now) && !processAlive &&
      !js.applyInFlight j.id
  | .requeueByOwner owner _ =>
    notBlank owner && j.transitionable false && j.ownerInstanceId = some owner && j.leaseHeld now
  | .claimNext owner ttl dependsOn =>
    j.claimable now &&
      match dependsOn with
      | some .missing => j.terminal = none && j.transitionable false
      | some (.terminal t) =>
        t = some .done && notBlank owner && validTtl ttl && j.transitionable false
      | none => notBlank owner && validTtl ttl && j.transitionable false
  | .waitExternal cas _ =>
    notBlank cas.owner && j.primaryState = .running && j.leaseIsCurrent cas now &&
      j.transitionable false
  | .completeWait _ => j.primaryState = .waitingExternal && j.transitionable false
  | .commitRecovery cas failure decision _ _ expected consumed =>
    isValidRecoveryPair failure decision && notBlank cas.owner &&
      (expected.all fun e => e.fence = j.fence) && j.terminal = none &&
      j.primaryState = .running && j.leaseIsCurrent cas now && !consumed &&
      decision ≠ .complete && decision ≠ .failNonresource
  | .update u => u.allowed j && rowCheck (u.write j)

def Call.admitted (j : JobRow) (c : Call) : Bool := c.op.admits c.now c.journal j

/-- The row after a call, refused or not. -/
def step (j : JobRow) (c : Call) : JobRow := (c.op.attempt c.now c.journal j).getD j

/-- The row after some calls. -/
abbrev run (j : JobRow) (cs : List Call) : JobRow := Runs.run step j cs

variable {j j' : JobRow} {c : Call} {now : Time}

theorem step_of_attempt (h : c.op.attempt c.now c.journal j = some j') : step j c = j' := by
  rw [step, h]
  rfl

theorem step_of_refused (h : c.refused j) : step j c = j := by
  rw [step, Option.isNone_iff_eq_none.mp h]
  rfl

theorem not_refused_iff : c.refused j = false ↔ ∃ j', c.op.attempt c.now c.journal j = some j' := by
  unfold Call.refused
  cases c.op.attempt c.now c.journal j <;> simp

theorem isSome_ite_some {α : Type} {p : Prop} [Decidable p] {x : α} :
    (if p then some x else none).isSome = decide p := by
  split <;> simp_all

/-- A primitive does something exactly if it admits the row. -/
theorem isSome_attempt {js : Journal} {p : Primitive} :
    (p.attempt now js j).isSome = p.admits now js j := by
  cases p with
  | queue op =>
    cases op with
    | takeover expected owner ttl alive worktree =>
      rcases worktree with _ | _ | _ | _ <;>
        simp only [Primitive.attempt, QueueOp.attempt, Primitive.admits, isSome_ite_some,
          Bool.decide_coe]
    | enqueue r =>
      simp only [Primitive.attempt, QueueOp.attempt, Primitive.admits, isSome_ite_some,
        Bool.decide_and, Bool.decide_coe, Bool.and_assoc]
    | _ =>
      simp only [Primitive.attempt, QueueOp.attempt, Primitive.admits, isSome_ite_some,
        Bool.decide_coe]
  | claimNext owner ttl dependsOn =>
    simp only [Primitive.attempt, QueueOp.attempt, Primitive.admits]
    cases j.claimable now with
    | false => rfl
    | true =>
      rcases dependsOn with _ | _ | t
      · simp [isSome_ite_some]
      · simp [isSome_ite_some]
      · by_cases ht : t = some .done <;> simp [ht, isSome_ite_some]
  | commitRecovery cas failure decision reasonCode nextEligibleAt expected consumed =>
    simp only [Primitive.attempt, Primitive.admits]
    cases decision <;> simp [recovered, isSome_ite_some]
  | requeueByOwner | waitExternal | completeWait | update =>
    simp only [Primitive.attempt, Primitive.admits, isSome_ite_some, Bool.decide_coe]

theorem refused_eq_not_admitted : c.refused j = !c.admitted j := by
  rw [Call.admitted, ← isSome_attempt, Call.refused]
  cases c.op.attempt c.now c.journal j <;> rfl

/-! ### What a call can do -/

/-- What the primitives write, each with the guard it has passed. -/
inductive Effect (now : Time) (j : JobRow) : Primitive → JobRow → Prop
  | claim {owner ttl} (hq : j.primaryState = .queued) (ht : j.transitionable false = true) :
    Effect now j (.queue (.claim owner ttl)) (j.leasedTo owner ttl now)
  | claimNext {owner ttl dependsOn} (hq : j.primaryState = .queued)
    (ht : j.transitionable false = true) :
    Effect now j (.claimNext owner ttl dependsOn) (j.leasedTo owner ttl now)
  | missing {owner ttl} (hq : j.primaryState = .queued) (hend : j.terminal = none) :
    Effect now j (.claimNext owner ttl (some .missing))
      (j.quarantined .blocked .terminal (some .blocked) "DEPENDENCY_UNKNOWN")
  | takeover {expected owner ttl alive worktree} (hr : j.primaryState = .running)
    (hend : j.terminal = none) (hexp : (j.leaseExpiresAt.any fun t => t ≤ now) = true) :
    Effect now j (.queue (.takeover expected owner ttl alive worktree)) (j.leasedTo owner ttl now)
  | takeoverBlocked {expected owner ttl alive worktree} (hr : j.primaryState = .running)
    (hend : j.terminal = none) :
    Effect now j (.queue (.takeover expected owner ttl alive worktree))
      (j.quarantined .blocked .terminal (some .blocked) "WORKTREE_DIVERGED")
  | takeoverLost {expected owner ttl alive worktree} (hr : j.primaryState = .running)
    (hend : j.terminal = none) :
    Effect now j (.queue (.takeover expected owner ttl alive worktree))
      (j.quarantined .lost .recovering j.terminal "AMBIGUOUS_WRITER")
  | requeue {cas r} (ht : j.transitionable false = true)
    (hc : j.leaseIsCurrent cas now = true) : Effect now j (.queue (.requeue cas r)) (j.queued r)
  | requeueByOwner {owner r} (hb : notBlank owner = true) (ht : j.transitionable false = true)
    (ho : j.ownerInstanceId = some owner) (hl : j.leaseHeld now = true) :
    Effect now j (.requeueByOwner owner r) (j.queued r)
  | enqueue {r} (ho : j.ownerInstanceId = none) (hq : j.primaryState = .queued)
    (ht : j.transitionable false = true) : Effect now j (.queue (.enqueue r)) (j.queued r)
  | reopen {policyRef r} (href : notBlank policyRef = true)
    (hlen : policyRef.length ≤ maxPolicyRefLen) (hb : j.primaryState = .blocked)
    (hend : j.terminal = some .blocked) (ho : j.ownerInstanceId = none)
    (hl : j.leaseExpiresAt = none) :
    Effect now j (.queue (.reopen policyRef r)) (({ j with terminal := none } : JobRow).queued r)
  | renew {cas ttl} (hc : j.leaseIsCurrent cas now = true) :
    Effect now j (.queue (.renew cas ttl)) { j with leaseExpiresAt := some (later now ttl) }
  | release {cas} (ht : j.transitionable false = true) (hc : j.leaseIsCurrent cas now = true) :
    Effect now j (.queue (.release cas)) (j.unleased.transition .queued .waitingRun)
  | clear {cas} (hc : j.leaseIsCurrent cas now = true) :
    Effect now j (.queue (.clear cas)) { j.unleased with factsVersion := j.factsVersion + 1 }
  | quarantineLost {errorCode expected} (hf : (expected.all fun e => e.fence = j.fence) = true)
    (ht : j.transitionable false = true) :
    Effect now j (.queue (.quarantineLost errorCode expected))
      (j.quarantined .lost .recovering j.terminal errorCode)
  | quarantineBlocked {errorCode expected} (hf : (expected.all fun e => e.fence = j.fence) = true)
    (ht : j.transitionable false = true) :
    Effect now j (.queue (.quarantineBlocked errorCode expected))
      (j.quarantined .blocked .terminal (some .blocked) errorCode)
  | waitExternal {cas nextCheckAt} (hr : j.primaryState = .running)
    (hc : j.leaseIsCurrent cas now = true) (ht : j.transitionable false = true) :
    Effect now j (.waitExternal cas nextCheckAt)
      (({ j.unleased with
        waiting := true
        nextWakeAt := some nextCheckAt
        nextEligibleAt := some nextCheckAt
        nextAction := .wait } : JobRow).transition .waitingExternal .waitingRun)
  | completeWait {queueReason} (hw : j.primaryState = .waitingExternal)
    (ht : j.transitionable false = true) :
    Effect now j (.completeWait queueReason)
      (({ j.unleased with
        queueReason := queueReason
        waiting := false
        nextEligibleAt := some now
        nextWakeAt := none
        nextAction := .none } : JobRow).transition .queued .waitingRun)
  | recovery {cas failure decision reasonCode nextEligibleAt expected consumed j'}
    (hend : j.terminal = none) (hr : j.primaryState = .running)
    (hc : j.leaseIsCurrent cas now = true)
    (hrec : recovered j reasonCode nextEligibleAt decision = some j') :
    Effect now j (.commitRecovery cas failure decision reasonCode nextEligibleAt
      expected consumed) j'
  | update {u} (hu : u.allowed j = true) (hc : rowCheck (u.write j) = true) :
    Effect now j (.update u) (u.write j)

theorem queued_of_claimable (h : j.claimable now) :
    j.primaryState = .queued := by
  simp only [JobRow.claimable, Bool.and_eq_true, decide_eq_true_eq] at h
  exact h.1.1

/-- **What a call that is not refused has done.** -/
theorem effect_of_attempt {js : Journal} {p : Primitive}
    (h : p.attempt now js j = some j') : Effect now j p j' := by
  -- the checks a primitive has passed are the hypotheses of its constructor
  cases p with
  | queue op =>
    cases op <;> simp only [Primitive.attempt, QueueOp.attempt, Option.ite_none_right_eq_some,
      Bool.and_eq_true, decide_eq_true_eq] at h
    case claim owner ttl =>
      obtain ⟨⟨⟨-, hc⟩, ht⟩, hj⟩ := h
      cases hj
      exact .claim (queued_of_claimable hc) ht
    case requeue cas r =>
      obtain ⟨⟨⟨-, ht⟩, hc⟩, hj⟩ := h
      cases hj
      exact .requeue ht hc
    case enqueue r =>
      obtain ⟨⟨ho, hq, ht⟩, hj⟩ := h
      cases hj
      exact .enqueue ho hq ht
    case reopen policyRef r =>
      obtain ⟨⟨⟨⟨⟨⟨href, hlen⟩, hb⟩, hend⟩, ho⟩, hl⟩, hj⟩ := h
      cases hj
      exact .reopen href hlen hb hend ho hl
    case renew cas ttl =>
      obtain ⟨⟨-, hc⟩, hj⟩ := h
      cases hj
      exact .renew hc
    case release cas =>
      obtain ⟨⟨⟨-, ht⟩, hc⟩, hj⟩ := h
      cases hj
      exact .release ht hc
    case clear cas =>
      obtain ⟨⟨-, hc⟩, hj⟩ := h
      cases hj
      exact .clear hc
    case quarantineLost errorCode expected =>
      obtain ⟨⟨hf, ht⟩, hj⟩ := h
      cases hj
      exact .quarantineLost hf ht
    case quarantineBlocked errorCode expected =>
      obtain ⟨⟨hf, ht⟩, hj⟩ := h
      cases hj
      exact .quarantineBlocked hf ht
    case takeover expected owner ttl alive worktree =>
      obtain ⟨⟨⟨⟨⟨⟨-, hr⟩, hend⟩, hexp⟩, -⟩, -⟩, hj⟩ := h
      rcases worktree with _ | _ | _ | _
      · cases hj
        exact .takeover hr hend hexp
      · cases hj
        exact .takeover hr hend hexp
      · cases hj
        exact .takeoverBlocked hr hend
      · cases hj
        exact .takeoverLost hr hend
  | requeueByOwner owner r =>
    simp only [Primitive.attempt, Option.ite_none_right_eq_some, Bool.and_eq_true,
      decide_eq_true_eq] at h
    obtain ⟨⟨⟨⟨hb, ht⟩, ho⟩, hl⟩, hj⟩ := h
    cases hj
    exact .requeueByOwner hb ht ho hl
  | claimNext owner ttl dependsOn =>
    have hclaim : (QueueOp.claim owner ttl).attempt now js j = some j' →
        Effect now j (.claimNext owner ttl dependsOn) j' := by
      intro h
      simp only [QueueOp.attempt, Option.ite_none_right_eq_some, Bool.and_eq_true] at h
      obtain ⟨⟨⟨-, hc⟩, ht⟩, hj⟩ := h
      cases hj
      exact .claimNext (queued_of_claimable hc) ht
    simp only [Primitive.attempt, Bool.not_eq_true', Option.ite_none_left_eq_some,
      Bool.not_eq_false] at h
    obtain ⟨hc, hj⟩ := h
    rcases dependsOn with _ | _ | t
    · exact hclaim hj
    · simp only [Option.ite_none_right_eq_some, Bool.and_eq_true, decide_eq_true_eq] at hj
      obtain ⟨⟨hend, -⟩, hj⟩ := hj
      cases hj
      exact .missing (queued_of_claimable hc) hend
    · simp only [Option.ite_none_right_eq_some] at hj
      exact hclaim hj.2
  | waitExternal cas nextCheckAt =>
    simp only [Primitive.attempt, Option.ite_none_right_eq_some, Bool.and_eq_true,
      decide_eq_true_eq] at h
    obtain ⟨⟨⟨⟨-, hr⟩, hc⟩, ht⟩, hj⟩ := h
    cases hj
    exact .waitExternal hr hc ht
  | completeWait queueReason =>
    simp only [Primitive.attempt, Option.ite_none_right_eq_some, Bool.and_eq_true,
      decide_eq_true_eq] at h
    obtain ⟨⟨hw, ht⟩, hj⟩ := h
    cases hj
    exact .completeWait hw ht
  | commitRecovery cas failure decision reasonCode nextEligibleAt expected consumed =>
    simp only [Primitive.attempt, Option.ite_none_right_eq_some, Bool.and_eq_true,
      decide_eq_true_eq] at h
    obtain ⟨⟨⟨⟨⟨-, hend⟩, hr⟩, hc⟩, -⟩, hj⟩ := h
    exact .recovery hend hr hc hj
  | update u =>
    simp only [Primitive.attempt, Option.ite_none_right_eq_some, Bool.and_eq_true] at h
    obtain ⟨⟨hu, hc⟩, hj⟩ := h
    cases hj
    exact .update hu hc

theorem step_cases (j : JobRow) (c : Call) :
    (c.refused j ∧ step j c = j) ∨ (c.refused j = false ∧ Effect c.now j c.op (step j c)) := by
  cases h : c.refused j with
  | true => exact .inl ⟨rfl, step_of_refused h⟩
  | false =>
    obtain ⟨j', hj'⟩ := (not_refused_iff).mp h
    rw [step_of_attempt hj']
    exact .inr ⟨rfl, effect_of_attempt hj'⟩

theorem iff_admitted_imp {P Q : Prop} (hsame : step j c = j → P)
    (heffect : Effect c.now j c.op (step j c) → (P ↔ Q)) : P ↔ (c.admitted j → Q) := by
  rcases step_cases j c with ⟨href, hstep⟩ | ⟨hnot, heff⟩
  · rw [refused_eq_not_admitted, Bool.not_eq_true'] at href
    refine iff_of_true (hsame hstep) fun hadm => ?_
    rw [href] at hadm
    cases hadm
  · rw [refused_eq_not_admitted, Bool.not_eq_false'] at hnot
    rw [forall_prop_of_true hnot]
    exact heffect heff

end Jobs

end ArgentTeam
