import ArgentTeam.Supervisor.Queue

/-!
# Reconciling

One pass of a supervisor over a job: `reconcile` reads a snapshot, decides and commits;
`perform_next_safe_action_if_required` carries the decision out. The snapshot is read
again and compared inside the transaction that commits, so that the decision is the one
on the facts at the commit. The observation is whatever the run-status provider said.
-/

namespace ArgentTeam

namespace Supervisor

/-- What a supervisor works on: the database of the core, its job, its journal and its
write intents, and – no part of any database – the dispatches for which an agent may
have been started. -/
structure SupervisorDb where
  db : Db
  job : JobRow
  actions : Journal
  intents : List WriteIntent
  launches : List String

/-- A decision, with the token it was authored under. -/
structure ReconcileDecision where
  action : ReconcileAction
  reason : String
  dispatchId : Option String
  factsVersion : ℕ
  ownerInstanceId : Option String
  leaseEpoch : ℕ

/-- `_enforce_lease_fence`: a leased job is written by its holder only. -/
def JobRow.leaseFence (j : JobRow) (holder : Option LeaseCas) (now : Time) : Bool :=
  j.ownerInstanceId = none || holder.any fun cas => j.leaseIsCurrent cas now

namespace SupervisorDb

variable (w : SupervisorDb)

def snapshot : Option Snapshot := readSnapshot w.db w.job w.actions w.intents

def author (plan : Plan) : ReconcileDecision where
  action := plan.action
  reason := plan.reason
  dispatchId := plan.dispatchId
  factsVersion := w.job.factsVersion + 1
  ownerInstanceId := w.job.ownerInstanceId
  leaseEpoch := w.job.leaseEpoch

/-- `reconcile`; `none` if nothing was decided. -/
def reconcile (holder : Option LeaseCas) (now : Time) (obs : Option RunObservation) :
    Option ReconcileDecision × SupervisorDb :=
  match w.snapshot with
  | none => (none, w)
  | some s =>
    if w.job.leaseFence holder now then
      let plan := decide now s obs
      (some (w.author plan), { w with job := w.job.commit plan })
    else (none, w)

variable {w} in
theorem reconcile_of_snapshot {holder : Option LeaseCas} {now : Time} {obs : Option RunObservation}
    {s : Snapshot} (hs : w.snapshot = some s) (hfence : w.job.leaseFence holder now) :
    w.reconcile holder now obs = (some (w.author (decide now s obs)),
      { w with job := w.job.commit (decide now s obs) }) := by
  simp [reconcile, hs, hfence]

variable {w} in
/-- A decision is authored on a snapshot, by a holder of the lease. -/
theorem eq_of_reconcile {holder : Option LeaseCas} {now : Time} {obs : Option RunObservation}
    {d : ReconcileDecision} {w' : SupervisorDb} (h : w.reconcile holder now obs = (some d, w')) :
    ∃ s, w.snapshot = some s ∧ w.job.leaseFence holder now ∧
      d = w.author (decide now s obs) ∧ w' = { w with job := w.job.commit (decide now s obs) } := by
  unfold reconcile at h
  cases hs : w.snapshot with
  | none => simp [hs] at h
  | some s =>
    by_cases hfence : w.job.leaseFence holder now
    · simp only [hs, hfence, if_true, Prod.mk.injEq, Option.some.injEq] at h
      exact ⟨s, rfl, hfence, h.1.symm, h.2.symm⟩
    · simp [hs, hfence] at h

variable {w} in
theorem of_snapshot {s : Snapshot} (h : w.snapshot = some s) :
    s.job = w.job ∧ s.actions = w.actions ∧ s.intents = w.intents := by
  unfold snapshot readSnapshot at h
  cases ht : w.db.getTask w.job.taskId with
  | none => simp [ht] at h
  | some task =>
    simp only [ht, Option.bind_eq_bind, Option.bind_some, Option.some.injEq] at h
    rw [← h]
    exact ⟨rfl, rfl, rfl⟩

def persistError (errorCode : String) : SupervisorDb :=
  if w.job.terminal = none then
    { w with
      job := JobRow.project
        { w.job with
          status := .error
          recoveryState := .persistentError
          lastErrorCode := some errorCode
          nextAction := .none
          nextWakeAt := none
          factsVersion := w.job.factsVersion + 1 } }
  else w

/-- The journal row of `_close_job`. -/
def closeOpening (t : Terminal) : Opening where
  actionKey := .close w.job.id t
  actionType := .closeJob
  jobId := w.job.id
  dispatchId := none
  argsHash := .dict [("terminal", .text (t.value))]

/-- `_close_job`: the row of the journal and the end of the job, in one transaction; a
job that has ended in another way is left alone. -/
def closeJob (t : Terminal) (now : Time) : SupervisorDb :=
  let o := w.closeOpening t
  let actions := match Journal.find w.actions o.actionKey with
    | some _ => Journal.finishAction w.actions o.actionKey .succeeded none
    | none => w.actions ++ [{ o.row now with status := .succeeded }]
  match w.job.terminal with
  | some t' => if t' = t then { w with actions := actions } else w
  | none =>
    { w with
      actions := actions
      job := JobRow.project
        { w.job with
          terminal := some t
          status := .terminal
          nextAction := .none
          nextWakeAt := none
          factsVersion := w.job.factsVersion + 1 } }

def performPersistentError (reason : String) : SupervisorDb :=
  { w with
    job := JobRow.project
      { w.job with status := .error, lastErrorCode := some reason, nextAction := .none } }

variable {w} in
theorem closeJob_of_open {t : Terminal} {now : Time} (h : w.job.terminal = none) :
    (w.closeJob t now).job.terminal = some t ∧ (w.closeJob t now).job.taskId = w.job.taskId ∧
      (w.closeJob t now).db = w.db ∧ (w.closeJob t now).launches = w.launches := by
  unfold closeJob
  rw [h]
  exact ⟨rfl, rfl, rfl, rfl⟩

/-- How concrete runs begin: a job that was just claimed, for a day, and an empty journal. -/
def claimed (db : Db) (taskId : String) : SupervisorDb where
  db := db
  job :=
    { id := "supervisor:" ++ taskId
      taskId := taskId
      status := .active
      primaryState := .running
      queueReason := .new
      waiting := false
      terminal := none
      recoveryState := .none
      ownerInstanceId := some "supervisor"
      leaseEpoch := 1
      leaseExpiresAt := some (later 0 maxLeaseTtlSeconds)
      nextEligibleAt := none
      nextWakeAt := none
      nextAction := .none
      retryCount := 0
      missingConfirmations := 0
      ownerPromptedAt := none
      ownerPromptedGateId := none
      lastErrorCode := none
      factsVersion := 1 }
  actions := []
  intents := []
  launches := []

end SupervisorDb

/-- The holder of the lease of a concrete run, at an epoch. -/
def heldAt (epoch : ℕ) : LeaseCas := ⟨"supervisor", epoch⟩

/-- A run that is known not to exist. -/
def RunObservation.missing : RunObservation where
  status := .notFound
  sessionId := none
  runId := none
  provider := none
  model := none
  thinkingTier := none
  result := none
  resultHash := none
  authoritativeNotFound := true
  errorCode := none
  adapterExceptionType := none

theorem decide_of_terminal {now : Time} {s : Snapshot} {obs : Option RunObservation}
    (h : s.job.terminal ≠ none) :
    decide now s obs = { action := .none, reason := "job_terminal" } :=
  if_pos h

end Supervisor

end ArgentTeam
