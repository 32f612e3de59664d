import ArgentTeam.Core.Basics
import Mathlib.Data.List.Dedup

/-!
# Recovery

`recover`: what a restarted core does with the work that was going on. A dispatch of a
read-only role that was never spawned fails; every other open dispatch becomes, or
stays, `RECOVERY_PENDING`, for its result may still arrive, and its task is parked in
`RECOVERING` unless it has ended or is paused. Role runs and task runs that no such
dispatch keeps open fail, and a task left in `RECOVERING` by an earlier recovery goes
back to where it was.
-/

namespace ArgentTeam

open Prog Store

namespace Core

structure RecoveryReport where
  interruptedRoleRuns : ℕ
  interruptedTaskRuns : ℕ
  /-- Tasks moved out of `RECOVERING`: from where to where. -/
  rolledBack : List (Uuid × TaskState × TaskState)
  recoveryPendingDispatches : ℕ
  deriving DecidableEq

/-- Whether the result of an interrupted dispatch may still arrive: a writer's always, a
reader's once it has been spawned. -/
def mayStillArrive (d : AgentDispatch) : Bool := d.role = .implementer || d.status = .running

/-- One interrupted dispatch. -/
def recoverDispatch (d : AgentDispatch) : Cmd Unit :=
  if mayStillArrive d then do
    let _ ← updateDispatchStatus d.id .recoveryPending
    emitRole "agent.recovery_pending" d.taskId d.role [("dispatch_id", .text d.id.text)]
  else do
    let _ ← updateDispatchStatus d.id .failed
    pure ()

/-- Park a task in `RECOVERING`, unless it has ended or is paused. -/
def parkTask (taskId : Uuid) : Cmd Unit := do
  let task ← read fun w => w.db.getTask taskId.text
  whenSome (task.filter fun t => !t.state.isTerminal && !t.state.isPause) fun t => do
    let _ ← updateTaskState t.id .recovering (some t.state)
    emitTransition t.id t.state .recovering

def failRoleRun (rr : RoleRun) : Cmd Unit := do
  let _ ← updateRoleRunStatus rr.id .failed
  emitRole "role.failed" rr.taskId rr.role
    [("role", .text rr.role.value), ("detail", .text "interrupted")]

def failTaskRunRow (tr : TaskRun) : Cmd Unit := do
  let _ ← updateTaskRunStatus tr.id .failed
  pure ()

/-- Where a task that is not parked goes: nowhere unless it is in `RECOVERING`, and to
`BLOCKED` where its recovery target is refused. -/
def rollbackTarget (t : Task) : Option TaskState :=
  let target := recoveryTarget t.state t.resumeState
  if target = t.state then none
  else some (if TaskState.isAllowed .recovering target t.resumeState then target else .blocked)

/-- Move a task out of `RECOVERING`. -/
def rollBack (t : Task) : Cmd Unit :=
  whenSome (rollbackTarget t) fun target => do
    let _ ← updateTaskState t.id target none
    emitTransition t.id t.state target

def tasksOf (ds : List AgentDispatch) : List Uuid := (ds.map AgentDispatch.taskId).dedup

def recoverWork : Cmd RecoveryReport := do
  let _ ← nowIso
  emit "system.recovery_started" .null none none (.dict [])
  let dispatches ← read fun w => w.db.listAllDispatches
  let interrupted := dispatches.filter fun d => d.status = .pending || d.status = .running
  let unresolved := (dispatches.filter fun d => d.status = .recoveryPending) ++
    interrupted.filter mayStillArrive
  forEach recoverDispatch interrupted
  forEach parkTask (tasksOf unresolved)
  let roleRuns ← read fun w => w.db.log.roleRuns.rows.filter fun r => r.status = .started
  forEach failRoleRun (roleRuns.filter fun r =>
    !(unresolved.any fun d => d.taskId = r.taskId && d.role = r.role))
  let taskRuns ← read fun w => w.db.log.taskRuns.rows.filter fun r => r.status = .started
  forEach failTaskRunRow (taskRuns.filter fun r => !(unresolved.any fun d => d.taskRunId = r.id))
  let tasks ← read fun w => w.db.core.tasks.rows.filter fun t => t.id ∉ tasksOf unresolved
  forEach rollBack tasks
  emit "system.recovery_completed" .null none none
    (.dict [("interrupted_role_runs", .int roleRuns.length),
      ("interrupted_task_runs", .int taskRuns.length),
      ("recovery_pending_dispatches", .int unresolved.length)])
  pure ⟨roleRuns.length, taskRuns.length,
    tasks.filterMap fun t => (rollbackTarget t).map fun target => (t.id, t.state, target),
    unresolved.length⟩

def recover (source : String) (key : Option String) : Cmd RecoveryReport := do
  requireOwner source
  idempotent key "recover" (.dict [("source", .text source)])
    (do
      let report ← recoverWork
      pure (report, "recovered"))
    (fun _ => pure ⟨0, 0, [], 0⟩)

/-! ### What this command moves -/

section Moves

variable {τ : Type} {π : World → τ} {Q : τ → τ → Prop} [OffReports π] [Std.Refl Q] [IsTrans τ Q]
  {d : AgentDispatch} {taskId : Uuid} {rr : RoleRun} {tr : TaskRun} {t : Task} {source : String}
  {key : Option String}

instance [∀ id, Moves π Q (updateDispatchStatus id .recoveryPending)]
    [∀ id, Moves π Q (updateDispatchStatus id .failed)] : Moves π Q (recoverDispatch d) := by
  unfold recoverDispatch
  split <;> exact moves_bind inferInstance fun _ => inferInstance

instance [∀ id s r, Moves π Q (updateTaskState id s r)] : Moves π Q (parkTask taskId) := by
  unfold parkTask
  exact moves_bind inferInstance fun _ => moves_whenSome fun _ =>
    moves_bind inferInstance fun _ => inferInstance

instance [∀ id, Moves π Q (updateRoleRunStatus id .failed)] : Moves π Q (failRoleRun rr) :=
  moves_bind inferInstance fun _ => inferInstance

instance [∀ id status, Moves π Q (updateTaskRunStatus id status)] :
    Moves π Q (failTaskRunRow tr) :=
  moves_bind inferInstance fun _ => inferInstance

instance [∀ id s r, Moves π Q (updateTaskState id s r)] : Moves π Q (rollBack t) :=
  moves_whenSome fun _ => moves_bind inferInstance fun _ => inferInstance

instance [∀ id, Moves π Q (updateDispatchStatus id .recoveryPending)]
    [∀ id, Moves π Q (updateDispatchStatus id .failed)]
    [∀ id, Moves π Q (updateRoleRunStatus id .failed)]
    [∀ id status, Moves π Q (updateTaskRunStatus id status)]
    [∀ id s r, Moves π Q (updateTaskState id s r)] : Moves π Q recoverWork := by
  unfold recoverWork
  repeat' first | infer_instance | refine moves_bind ?_ fun _ => ?_

theorem moves_recover [∀ r, Moves π Q (setCommandIdempotency r)] (hwork : Moves π Q recoverWork) :
    Moves π Q (recover source key) :=
  moves_bind inferInstance fun _ =>
    moves_idempotent (moves_bind hwork fun _ => inferInstance) fun _ => inferInstance

instance [∀ r, Moves π Q (setCommandIdempotency r)]
    [∀ id, Moves π Q (updateDispatchStatus id .recoveryPending)]
    [∀ id, Moves π Q (updateDispatchStatus id .failed)]
    [∀ id, Moves π Q (updateRoleRunStatus id .failed)]
    [∀ id status, Moves π Q (updateTaskRunStatus id status)]
    [∀ id s r, Moves π Q (updateTaskState id s r)] : Moves π Q (recover source key) :=
  moves_recover inferInstance

end Moves

end Core

end ArgentTeam
