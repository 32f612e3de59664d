import ArgentTeam.Supervisor.Rows
import ArgentTeam.Core.Dispatch

/-!
# The decision table

`Supervisor._decide` and everything below it: one reconciliation decides what to do next
from one consistent snapshot of the job, of the facts of the core and of the action
journal, and from one observation of the run. The plan is committed on the job row in
the same transaction (`JobRow.commit`).
-/

namespace ArgentTeam

namespace Supervisor

/-! ### What a decision reads -/

/-- The snapshot a decision is based on. -/
structure Snapshot where
  job : JobRow
  task : Task
  frontier : Workflow.Frontier
  activeDispatch : Option AgentDispatch
  dispatchAtFrontier : Option AgentDispatch
  activeRoleRun : Option RoleRun
  gate : Option OwnerApproval
  openGatesCount : ℕ
  actions : List SupervisorAction
  intents : List WriteIntent

/-- What is decided. -/
structure Plan where
  action : ReconcileAction
  reason : String
  dispatchId : Option String := none
  wakeAt : Option Time := none
  status : Option SupervisorJobStatus := none
  recoveryState : Option RecoveryState := none
  retryCount : Option ℕ := none
  missingConfirmations : Option ℕ := none
  lastErrorCode : Option String := none

def isImplementer (role : Role) : Bool := role = .implementer

def isWriteRole (role : Role) : Bool := role = .implementer || role = .qa

def Plan.error (reason : String) (dispatchId : Option String) : Plan where
  action := .persistentError
  reason := reason
  dispatchId := dispatchId
  status := some .error
  lastErrorCode := some reason

/-! ### The journal, as a decision reads it -/

namespace Snapshot

def spawnAction (s : Snapshot) (dispatchId : String) : Option SupervisorAction :=
  s.actions.find? fun a => a.actionKey = .spawn dispatchId

/-- The rows of a type that a dispatch has. -/
def actionsOf (s : Snapshot) (dispatchId : String) (type : ActionType) : List SupervisorAction :=
  s.actions.filter fun a => a.dispatchId = some dispatchId && a.actionType = type

/-- The first of the latest rows. -/
def latest : List SupervisorAction → Option SupervisorAction
  | [] => none
  | a :: as => match latest as with
    | some b => if a.createdAt < b.createdAt then some b else some a
    | none => some a

def latestAction (s : Snapshot) (dispatchId : String) (type : ActionType) :
    Option SupervisorAction :=
  latest (s.actionsOf dispatchId type)

/-- The latest row of a type has used up its attempts. -/
def exhausted (s : Snapshot) (dispatchId : String) (type : ActionType) : Bool :=
  (s.latestAction dispatchId type).any fun a =>
    a.status = .failed && maxActionRetries ≤ a.attemptCount

def actionSucceeded (s : Snapshot) (dispatchId : String) (type : ActionType) : Bool :=
  (s.actionsOf dispatchId type).any fun a => a.status = .succeeded

def committedApplyIntents (s : Snapshot) (dispatchId : String) : List SupervisorAction :=
  (s.actionsOf dispatchId .applyPatchSet).filter fun a =>
    a.status = .running || a.status = .uncertain || a.status = .succeeded

def divergedApplyIntent (s : Snapshot) (dispatchId : String) : Option SupervisorAction :=
  (s.committedApplyIntents dispatchId).find? fun a =>
    a.status = .uncertain && a.lastErrorCode = some "workspace_diverged"

def frozenWriteResultHash (s : Snapshot) (dispatchId : String) : Option Json :=
  match s.intents.find? fun i => i.dispatchId = dispatchId with
  | some winner => some winner.canonicalInputHash
  | none => (s.committedApplyIntents dispatchId).head?.bind SupervisorAction.inputHash

end Snapshot

/-- `_canonical_full_result_hash`: the canonical form of a result, standing for its
digest; a missing or falsy result counts as the empty object. -/
def canonicalFullResultHash (result : Option Json) : Json :=
  match result with
  | some r => if r.truthy then r.sorted else .obj []
  | none => .obj []

/-! ### Backing off -/

section Decide

variable (now : Time) (s : Snapshot)

/-- Look again soon. -/
def poll (reason : String) (dispatchId : Option String) : Plan where
  action := .wait
  reason := reason
  dispatchId := dispatchId
  status := some .active
  wakeAt := some (later now runningPollSeconds)

/-- The bounded backoff that `_adapter_backoff`, `_write_hash_mismatch_plan` and
`_apply_diverged_plan` share: one more retry, and a sticky error once there have been
`maxRuntimeUnknown` of them. -/
def unavailablePlan (reason : String) (dispatchId : String) : Plan :=
  let retry := s.job.retryCount + 1
  if maxRuntimeUnknown ≤ retry then
    { Plan.error reason (some dispatchId) with
      recoveryState := some .persistentError
      retryCount := some retry }
  else
    { action := .wait
      reason := reason
      dispatchId := some dispatchId
      status := some .backoff
      recoveryState := some .runtimeUnknown
      retryCount := some retry
      wakeAt := some (later now (backoffSeconds retry)) }

/-- The reason an unusable observation is given. -/
def adapterReason : RunStatus → String
  | .unknown => "adapter_unknown"
  | .conflict => "adapter_conflict"
  | .notFound => "adapter_not_found"
  | .running => "adapter_running"
  | .succeeded => "adapter_succeeded"
  | .failed => "adapter_failed"
  | .cancelled => "adapter_cancelled"

def adapterBackoff (ad : AgentDispatch) (obs : RunObservation) : Plan :=
  unavailablePlan now s (adapterReason obs.status) ad.id.text

def writeHashMismatchPlan (ad : AgentDispatch) : Plan :=
  unavailablePlan now s "write_result_hash_mismatch" ad.id.text

def applyDivergedPlan (ad : AgentDispatch) : Plan :=
  unavailablePlan now s "workspace_diverged" ad.id.text

/-- The run is missing: confirm it once more, with a growing delay. -/
def waitMissing (ad : AgentDispatch) (reason : String) (recoveryState : RecoveryState) : Plan where
  action := .wait
  reason := reason
  dispatchId := some ad.id.text
  status := some .active
  recoveryState := some recoveryState
  missingConfirmations := some (s.job.missingConfirmations + 1)
  retryCount := some (s.job.retryCount + 1)
  wakeAt := some (later now (backoffSeconds s.job.retryCount))

/-! ### Deciding -/

def decideGate : Option Plan :=
  let inconsistent (reason : String) : Plan :=
    { Plan.error reason none with lastErrorCode := some "gate_task_inconsistent" }
  let waiting (reason : String) : Plan :=
    { poll now reason none with status := some .waitingGate }
  if 1 < s.openGatesCount then some (Plan.error "multiple_active_gates" none)
  else match s.task.state, s.gate with
    | .ownerApprovalRequired, none => some (inconsistent "gate_task_inconsistent_no_gate")
    | .ownerApprovalRequired, some gate => match gate.status with
      | .pending =>
        if s.job.ownerPromptedAt = none ∨ s.job.ownerPromptedGateId ≠ some gate.id.text then
          some
            { action := .presentOwnerGate, reason := "present_gate", status := some .waitingGate }
        else some (waiting "waiting_gate")
      | .approved => some (waiting "gate_approved_waiting_execution")
      | _ => some (inconsistent "gate_task_inconsistent_no_gate")
    | _, some gate =>
      if gate.status.live then some (inconsistent "gate_task_inconsistent_active_gate") else none
    | _, none => none

def decideNoActive (role : Role) : Plan :=
  let latest := s.dispatchAtFrontier
  if latest.any fun d => (d.status = .failed || d.status = .rejected) &&
      maxDispatchAttemptsPerStep ≤ d.attemptNo then
    { action := .closeFailed, reason := "max_attempts" }
  else if s.activeRoleRun.all fun rr => rr.role ≠ role then
    { action := .startRole, reason := "need_role", dispatchId := latest.map (·.id.text) }
  else
    { action := .createDispatch
      reason := "need_dispatch"
      dispatchId := latest.map (·.id.text)
      missingConfirmations := some 0
      retryCount := some 0 }

/-- The branch of `_decide_unbound` for a run that is not found. -/
def decideNotSpawned (role : Role) (ad : AgentDispatch) (obs : RunObservation) : Plan :=
  let spawn := s.spawnAction ad.id.text
  if spawn.any fun a => a.status = .failed && maxActionRetries ≤ a.attemptCount then
    { Plan.error "spawn_run_exhausted" (some ad.id.text) with
      recoveryState := some .persistentError }
  else if !obs.authoritativeNotFound then
    waitMissing now s ad "not_found_non_authoritative" .discoveringRun
  else if spawn = none then
    { action := .spawnRun
      reason := "spawn_run"
      dispatchId := some ad.id.text
      recoveryState := some .discoveringRun }
  else if missingUnboundSpawnConfirmations ≤ s.job.missingConfirmations + 1 then
    { action := .closeBlocked
      reason := "spawn_unresolvable"
      recoveryState := if isImplementer role then some .ambiguousWriter else none }
  else waitMissing now s ad "spawn_pending" .discoveringRun

def decideUnbound (role : Role) (ad : AgentDispatch) : Option RunObservation → Plan
  | none => poll now "no_observation" none
  | some obs => match obs.status with
    | .running | .succeeded | .failed | .cancelled =>
      if obs.runId = none ∨ obs.sessionId = none then
        { poll now "run_active_no_binding_values" (some ad.id.text) with
          recoveryState := some .discoveringRun }
      else
        { action := .bindRun
          reason := "bind_observed_run"
          dispatchId := some ad.id.text
          recoveryState := some .restoringBinding
          missingConfirmations := some 0 }
    | .notFound => decideNotSpawned now s role ad obs
    | .unknown | .conflict => adapterBackoff now s ad obs

/-- The first of the steps of the write pipeline that has used up its attempts. -/
def exhaustedStep (ad : AgentDispatch) : Option String :=
  if s.exhausted ad.id.text .applyPatchSet then some "apply_patch_set_exhausted"
  else if s.exhausted ad.id.text .runSandboxTests then some "run_sandbox_tests_exhausted"
  else if s.exhausted ad.id.text .recordTestResult then some "record_test_result_exhausted"
  else if s.exhausted ad.id.text .consumeResult then some "consume_result_exhausted"
  else none

/-- A step of the write pipeline, or the consumption of a result. -/
def Plan.consuming (action : ReconcileAction) (reason : String) (ad : AgentDispatch) : Plan where
  action := action
  reason := reason
  dispatchId := some ad.id.text
  recoveryState := some .consumingResult

def decideWritePreconditions (ad : AgentDispatch) (obs : RunObservation) : Plan :=
  match exhaustedStep s ad with
  | some code =>
    { Plan.error code (some ad.id.text) with recoveryState := some .persistentError }
  | none =>
    if (s.divergedApplyIntent ad.id.text).isSome then applyDivergedPlan now s ad
    else if !s.actionSucceeded ad.id.text .applyPatchSet then
      .consuming .applyPatchSet "apply_patch_set" ad
    else if (s.frozenWriteResultHash ad.id.text).any fun frozen =>
        canonicalFullResultHash obs.result ≠ frozen then
      writeHashMismatchPlan now s ad
    else if !s.actionSucceeded ad.id.text .runSandboxTests then
      .consuming .runSandboxTests "run_sandbox_tests" ad
    else if !s.actionSucceeded ad.id.text .recordTestResult then
      .consuming .recordTestResult "record_test_result" ad
    else .consuming .consumeResult "consume_result" ad

def decideBound (role : Role) (ad : AgentDispatch) : Option RunObservation → Plan
  | none => poll now "no_observation" none
  | some obs => match obs.status with
    | .running => { poll now "run_running" (some ad.id.text) with retryCount := some 0 }
    | .succeeded =>
      if isWriteRole role then decideWritePreconditions now s ad obs
      else if s.exhausted ad.id.text .consumeResult then
        { action := .markRunFailed
          reason := "consume_unresolvable"
          dispatchId := some ad.id.text
          recoveryState := some .retryingStep }
      else .consuming .consumeResult "consume_result" ad
    | .failed | .cancelled =>
      { action := .markRunFailed
        reason := "run_failed"
        dispatchId := some ad.id.text
        recoveryState := some .retryingStep }
    | .notFound =>
      if missingBoundRunConfirmations ≤ s.job.missingConfirmations + 1 then
        if isImplementer role then
          { action := .closeBlocked
            reason := "ambiguous_writer"
            recoveryState := some .ambiguousWriter }
        else
          { action := .markRunFailed
            reason := "missing_bound_run"
            dispatchId := some ad.id.text
            recoveryState := some .coreRecoveryRequired }
      else waitMissing now s ad "bound_run_missing" .discoveringRun
    | .unknown | .conflict => adapterBackoff now s ad obs

/-- The dispatch has no run it is bound to. -/
def unbound (ad : AgentDispatch) : Bool :=
  ad.status = .pending || (ad.status = .recoveryPending && ad.childSessionId = none)

/-- What is decided for a dispatch that is active at the frontier, or for none. -/
def decideAtFrontier (role : Role) (obs : Option RunObservation) : Plan :=
  match s.activeDispatch with
  | none => decideNoActive s role
  | some ad =>
    if ad.cycleNo ≠ s.frontier.cycleNo ∨ ad.position ≠ s.frontier.position ∨ ad.role ≠ role then
      Plan.error "ledger_conflict_active_dispatch" (some ad.id.text)
    else if unbound ad then decideUnbound now s role ad obs
    else decideBound now s role ad obs

def decide (obs : Option RunObservation) : Plan :=
  if s.job.terminal ≠ none then { action := .none, reason := "job_terminal" }
  else if s.job.status = .error then { action := .none, reason := "error_state" }
  else match s.task.state with
    | .done => { action := .closeDone, reason := "task_done" }
    | .failed | .cancelled => { action := .closeFailed, reason := "task_failed_cancelled" }
    | .blocked => { action := .closeBlocked, reason := "task_blocked" }
    | _ => match decideGate now s with
      | some plan => plan
      | none => match s.frontier.expectedRole with
        | none => Plan.error "frontier_exhausted" none
        | some role => decideAtFrontier now s role obs

/-! ### What a plan means -/

section Cases

variable {now s} {obs : Option RunObservation} {o : RunObservation} {role : Role}
  {ad : AgentDispatch}

/-- **Where a plan comes from**: the job has stopped, or its task has, or it is a matter
of the gate, or the sequence is exhausted, or of the frontier. -/
theorem decide_cases :
    ((s.job.terminal ≠ none ∨ s.job.status = .error) ∧ (decide now s obs).action = .none ∧
      (decide now s obs).retryCount = none) ∨
    (((decide now s obs).action = .closeDone ∨ (decide now s obs).action = .closeFailed ∨
      (decide now s obs) = { action := .closeBlocked, reason := "task_blocked" }) ∧
      (decide now s obs).retryCount = none ∧ (decide now s obs).status = none) ∨
    decideGate now s = some (decide now s obs) ∨
    decide now s obs = Plan.error "frontier_exhausted" none ∨
    (s.job.terminal = none ∧ s.job.status ≠ .error ∧ decideGate now s = none ∧
      ∃ role, s.frontier.expectedRole = some role ∧
        decide now s obs = decideAtFrontier now s role obs) := by
  unfold decide
  by_cases hterm : s.job.terminal = none
  · by_cases herr : s.job.status = .error
    · simp [hterm, herr]
    · rw [if_neg (not_not.mpr hterm), if_neg herr]
      cases hstate : s.task.state <;> dsimp only <;>
        first
        | (refine .inr (.inl ?_); simp)
        | (cases hgate : decideGate now s with
           | some plan => simp
           | none => cases hrole : s.frontier.expectedRole with
             | none => simp
             | some role => simp [hterm, herr])
  · simp [hterm]

theorem decideGate_action {plan : Plan} (h : decideGate now s = some plan) :
    (plan.action = .presentOwnerGate ∨ plan.action = .wait ∨ plan.action = .persistentError) ∧
      plan.retryCount = none ∧ plan.missingConfirmations = none := by
  simp only [decideGate] at h
  repeat' split at h
  all_goals first | (cases h; done) | (cases h; simp [Plan.error, poll])

theorem unavailablePlan_action {reason d : String} :
    (unavailablePlan now s reason d).action = .wait ∨
      (unavailablePlan now s reason d).action = .persistentError := by
  simp only [unavailablePlan]
  split
  · exact .inr rfl
  · exact .inl rfl

theorem decideNoActive_action :
    (decideNoActive s role).action = .closeFailed ∨ (decideNoActive s role).action = .startRole ∨
      (decideNoActive s role).action = .createDispatch := by
  simp only [decideNoActive]
  split
  · exact .inl rfl
  split
  · exact .inr (.inl rfl)
  · exact .inr (.inr rfl)

/-- A run that is not there is waited for, is spawned if the journal knows nothing of
it, or is given up. -/
theorem decideNotSpawned_action :
    (decideNotSpawned now s role ad o).action = .wait ∨
    (decideNotSpawned now s role ad o).action = .persistentError ∨
    (decideNotSpawned now s role ad o).action = .closeBlocked ∨
    ((decideNotSpawned now s role ad o).action = .spawnRun ∧ s.spawnAction ad.id.text = none ∧
      (decideNotSpawned now s role ad o).dispatchId = some ad.id.text) := by
  simp only [decideNotSpawned]
  split
  · exact .inr (.inl rfl)
  split
  · exact .inl rfl
  split
  · rename_i hnone
    exact .inr (.inr (.inr ⟨rfl, hnone, rfl⟩))
  split
  · exact .inr (.inr (.inl rfl))
  · exact .inl rfl

/-- An unbound dispatch is waited for, bound, spawned if the journal knows nothing of
it, or given up. -/
theorem decideUnbound_action :
    (decideUnbound now s role ad obs).action = .wait ∨
    (decideUnbound now s role ad obs).action = .persistentError ∨
    (decideUnbound now s role ad obs).action = .closeBlocked ∨
    (decideUnbound now s role ad obs).action = .bindRun ∨
    ((decideUnbound now s role ad obs).action = .spawnRun ∧ s.spawnAction ad.id.text = none ∧
      (decideUnbound now s role ad obs).dispatchId = some ad.id.text) := by
  cases obs with
  | none => exact .inl rfl
  | some o =>
    have hunusable : (adapterBackoff now s ad o).action = .wait ∨
      (adapterBackoff now s ad o).action = .persistentError := unavailablePlan_action
    unfold decideUnbound
    cases hstatus : o.status <;> simp only [hstatus]
    case notFound =>
      rcases @decideNotSpawned_action now s o role ad with
        h | h | h | h
      · exact .inl h
      · exact .inr (.inl h)
      · exact .inr (.inr (.inl h))
      · exact .inr (.inr (.inr (.inr h)))
    case unknown | conflict =>
      rcases hunusable with h | h
      · exact .inl h
      · exact .inr (.inl h)
    all_goals
      split
      · exact .inl rfl
      · exact .inr (.inr (.inr (.inl rfl)))

/-- The write pipeline takes its steps, waits, or gives up. -/
theorem decideWritePreconditions_action :
    (decideWritePreconditions now s ad o).action ∈ [.wait, .persistentError, .applyPatchSet,
      .runSandboxTests, .recordTestResult, .consumeResult] := by
  have hdiverged := @unavailablePlan_action now s "workspace_diverged" ad.id.text
  have hmismatch := @unavailablePlan_action now s "write_result_hash_mismatch" ad.id.text
  unfold decideWritePreconditions
  split
  · simp [Plan.error]
  split
  · rcases hdiverged with h | h <;> simp [applyDivergedPlan, h]
  split
  · simp [Plan.consuming]
  split
  · rcases hmismatch with h | h <;> simp [writeHashMismatchPlan, h]
  split
  · simp [Plan.consuming]
  split <;> simp [Plan.consuming]

theorem decideBound_action :
    (decideBound now s role ad obs).action ∈ [.wait, .persistentError, .closeBlocked,
      .markRunFailed, .applyPatchSet, .runSandboxTests, .recordTestResult, .consumeResult] := by
  cases obs with
  | none => simp [decideBound, poll]
  | some o =>
    have hwrite := @decideWritePreconditions_action now s o ad
    have hunusable : (adapterBackoff now s ad o).action = .wait ∨
      (adapterBackoff now s ad o).action = .persistentError := unavailablePlan_action
    unfold decideBound
    cases hstatus : o.status <;> simp only [hstatus]
    case succeeded =>
      split
      · simp only [List.mem_cons, List.not_mem_nil, or_false] at hwrite ⊢
        grind
      split <;> simp [Plan.consuming]
    case notFound =>
      split
      · split <;> simp
      · simp [waitMissing]
    case unknown | conflict => rcases hunusable with h | h <;> simp [h]
    all_goals simp [poll]

/-- A run is spawned only for the active dispatch at the frontier, and only while the
journal has no row for it. -/
theorem spawnAction_eq_none (h : (decide now s obs).action = .spawnRun) :
    ∃ ad, s.activeDispatch = some ad ∧ (decide now s obs).dispatchId = some ad.id.text ∧
      s.spawnAction ad.id.text = none := by
  rcases @decide_cases now s obs with ⟨-, hn, -⟩ | ⟨hclose, -⟩ | hgate |
    hexh | ⟨-, -, -, role, -, hfront⟩
  · exact absurd (hn.symm.trans h) (by simp)
  · rcases hclose with hc | hc | hc <;> simp [hc] at h
  · rcases (decideGate_action hgate).1 with hg | hg | hg <;> simp [hg] at h
  · simp [hexh, Plan.error] at h
  · rw [hfront] at h ⊢
    unfold decideAtFrontier at h ⊢
    cases had : s.activeDispatch with
    | none =>
      simp only [had] at h
      rcases @decideNoActive_action s role with hn | hn | hn <;> simp [hn] at h
    | some ad =>
      simp only [had] at h ⊢
      split at h
      · simp [Plan.error] at h
      rename_i hfit
      rw [if_neg hfit]
      split at h
      · rename_i hun
        rw [if_pos hun]
        rcases @decideUnbound_action now s obs role ad with
          hu | hu | hu | hu | hu
        · simp [hu] at h
        · simp [hu] at h
        · simp [hu] at h
        · simp [hu] at h
        · exact ⟨ad, rfl, hu.2.2, hu.2.1⟩
      · have hb := @decideBound_action now s obs role ad
        rw [h] at hb
        simp at hb

/-- The tasks that are in progress, and not at the gate. -/
def inProgress : TaskState → Bool
  | .done | .failed | .cancelled | .blocked | .ownerApprovalRequired => false
  | _ => true

theorem decideGate_eq_none (hstate : inProgress s.task.state) (hcount : s.openGatesCount ≤ 1)
    (hgate : ∀ g ∈ s.gate, g.status.live = false) : decideGate now s = none := by
  unfold decideGate
  simp only [show ¬1 < s.openGatesCount by omega, if_false]
  cases hs : s.task.state <;> cases hg : s.gate <;> simp_all [inProgress]

theorem decide_eq_atFrontier (hterm : s.job.terminal = none) (hstatus : s.job.status ≠ .error)
    (hstate : inProgress s.task.state) (hgate : decideGate now s = none)
    (hrole : s.frontier.expectedRole = some role) :
    decide now s obs = decideAtFrontier now s role obs := by
  unfold decide
  rw [if_neg (not_not.mpr hterm), if_neg hstatus]
  cases hs : s.task.state <;> simp_all [inProgress]

/-- The dispatch is the one the workflow expects at its frontier. -/
def atFrontier (f : Workflow.Frontier) (ad : AgentDispatch) : Bool :=
  ad.cycleNo = f.cycleNo && ad.position = f.position && f.expectedRole = some ad.role

theorem decideAtFrontier_of_active (hactive : s.activeDispatch = some ad)
    (hfront : atFrontier s.frontier ad) :
    decideAtFrontier now s ad.role obs =
      if unbound ad then decideUnbound now s ad.role ad obs else decideBound now s
        ad.role ad obs := by
  simp only [atFrontier, Bool.and_eq_true, decide_eq_true_eq] at hfront
  unfold decideAtFrontier
  simp [hactive, hfront.1.1, hfront.1.2]

end Cases

end Decide

/-! ### Committing a plan -/

/-- What `_commit` writes on the job row. A plan to back off gives the lease up. The
primary state is derived anew if one of the columns it projects is written. -/
def JobRow.commit (j : JobRow) (plan : Plan) : JobRow :=
  let backsOff : Prop := plan.status = some .backoff
  let written : JobRow :=
    { j with
      nextAction := plan.action
      factsVersion := j.factsVersion + 1
      nextWakeAt := plan.wakeAt
      status := plan.status.getD j.status
      queueReason := if backsOff then .retryBackoff else j.queueReason
      nextEligibleAt := if backsOff then plan.wakeAt.or j.nextEligibleAt else j.nextEligibleAt
      ownerInstanceId := if backsOff then none else j.ownerInstanceId
      leaseExpiresAt := if backsOff then none else j.leaseExpiresAt
      recoveryState := plan.recoveryState.getD j.recoveryState
      retryCount := plan.retryCount.getD j.retryCount
      missingConfirmations := plan.missingConfirmations.getD j.missingConfirmations
      lastErrorCode := plan.lastErrorCode.or j.lastErrorCode }
  if plan.status.isSome || plan.recoveryState.isSome then written.project else written

section Commit

variable {j : JobRow} {plan : Plan}

@[simp]
theorem JobRow.commit_status : (j.commit plan).status = plan.status.getD j.status := by
  simp only [commit]
  split <;> rfl

@[simp]
theorem JobRow.commit_terminal : (j.commit plan).terminal = j.terminal := by
  simp only [commit]
  split <;> rfl

@[simp]
theorem JobRow.commit_id : (j.commit plan).id = j.id := by
  simp only [commit]
  split <;> rfl

@[simp]
theorem JobRow.commit_taskId : (j.commit plan).taskId = j.taskId := by
  simp only [commit]
  split <;> rfl

@[simp]
theorem JobRow.commit_retryCount :
    (j.commit plan).retryCount = plan.retryCount.getD j.retryCount := by
  simp only [commit]
  split <;> rfl

@[simp]
theorem JobRow.commit_missingConfirmations :
    (j.commit plan).missingConfirmations =
      plan.missingConfirmations.getD j.missingConfirmations := by
  simp only [commit]
  split <;> rfl

@[simp]
theorem JobRow.commit_nextWakeAt : (j.commit plan).nextWakeAt = plan.wakeAt := by
  simp only [commit]
  split <;> rfl

@[simp]
theorem JobRow.commit_leaseEpoch : (j.commit plan).leaseEpoch = j.leaseEpoch := by
  simp only [commit]
  split <;> rfl

theorem JobRow.commit_lease (h : plan.status ≠ some .backoff) :
    (j.commit plan).ownerInstanceId = j.ownerInstanceId ∧
      (j.commit plan).leaseExpiresAt = j.leaseExpiresAt := by
  simp only [commit]
  split <;> simp [project]

theorem JobRow.commit_primaryState {status : SupervisorJobStatus} (h : plan.status = some status) :
    (j.commit plan).primaryState = derivePrimaryState status j.terminal j.waiting := by
  simp [commit, h, project]

theorem JobRow.commit_primaryState_of_none (h : plan.status = none)
    (hr : plan.recoveryState = none) : (j.commit plan).primaryState = j.primaryState := by
  simp [commit, h, hr]

end Commit

/-! ### Reading a snapshot -/

def currentDispatch (db : Db) (taskId : Uuid) : Option AgentDispatch :=
  (db.listDispatches taskId).find? fun d => d.status.active

/-- The first of the dispatches with the largest attempt. -/
def lastAttempt : List AgentDispatch → Option AgentDispatch
  | [] => none
  | d :: ds => match lastAttempt ds with
    | some e => if d.attemptNo < e.attemptNo then some e else some d
    | none => some d

def dispatchAtFrontier (db : Db) (taskId : Uuid) (f : Workflow.Frontier) : Option AgentDispatch :=
  lastAttempt ((db.listDispatches taskId).filter fun d =>
    d.cycleNo = f.cycleNo && d.position = f.position)

/-- The live approvals of a task, in the order they were requested. -/
def activeGates (db : Db) (taskId : Uuid) : List OwnerApproval :=
  (db.listApprovals taskId).filter fun a => a.status.live

/-- `_current_gate`: the active gate, or else the last one. -/
def currentGate (db : Db) (taskId : Uuid) : Option OwnerApproval :=
  (activeGates db taskId).head?.or (db.listApprovals taskId).getLast?

/-- `_read_snapshot`: every fact a decision is based on. -/
def readSnapshot (db : Db) (job : JobRow) (actions : List SupervisorAction)
    (intents : List WriteIntent) : Option Snapshot := do
  let task ← db.getTask job.taskId
  let frontier := Core.workflowFrontier db task.id
  some
    { job := job
      task := task
      frontier := frontier
      activeDispatch := currentDispatch db task.id
      dispatchAtFrontier := dispatchAtFrontier db task.id frontier
      activeRoleRun := db.getActiveRoleRun task.id
      gate := currentGate db task.id
      openGatesCount := (activeGates db task.id).length
      actions := actions
      intents := intents }

end Supervisor

end ArgentTeam
