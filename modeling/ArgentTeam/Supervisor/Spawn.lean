import ArgentTeam.Core.Exec
import ArgentTeam.Supervisor.Reconcile

/-!
# Spawning a run

The agent of a dispatch is started by `_perform_spawn_run`, the one handler whose effect
no transaction covers: the row of the journal is begun, the enforcer is asked, the row is
finished. A start may be refused long before any process exists – the admission defers
it, no context pack can be built – and then the row is `FAILED`, with attempts left, and
the scheduler queues the job again.

The decision table does not look at any of that. It plans `SPAWN_RUN` if the dispatch has
no row at all, and from then on only counts how often the run was not found: a refused
start is never tried again (`Supervisor.refused_spawn_abandoned`).
-/

namespace ArgentTeam

namespace Supervisor

/-! ### The handler -/

/-- How an attempt to start an agent goes, once its row has been begun. -/
inductive SpawnAttempt
  /-- The admission is not `ALLOW`, or there is no enforcer. -/
  | notAdmitted (code : String)
  /-- The context pack could not be built. -/
  | contextFailed (code : String)
  /-- Something else failed before the enforcer was asked. -/
  | raised (code : String)
  /-- The enforcer failed; a process may have been started before it did. -/
  | notEnforced (code : String) (mayHaveStarted : Bool)
  | started
  /-- The supervisor died; a process may have been started before it did. -/
  | died (mayHaveStarted : Bool)

/-- A process may have been started. -/
def SpawnAttempt.mayHaveStarted : SpawnAttempt → Bool
  | notEnforced _ b | died b => b
  | started => true
  | notAdmitted _ | contextFailed _ | raised _ => false

/-- The row the attempt leaves behind: the new status and the error, or nothing if
nobody was left to write it. -/
def SpawnAttempt.verdict : SpawnAttempt → Option (ActionStatus × Option String)
  | notAdmitted code | contextFailed code | raised code | notEnforced code _ =>
    some (.failed, some code)
  | started => some (.succeeded, none)
  | died _ => none

/-- The journal row of `_perform_spawn_run`. -/
def spawnOpening (jobId dispatchId : String) : Opening where
  actionKey := .spawn dispatchId
  actionType := .spawnRun
  jobId := jobId
  dispatchId := some dispatchId
  argsHash := .dict [("dispatch_id", .text dispatchId)]

namespace SupervisorDb

/-- `_perform_spawn_run`: only a row that was begun anew, or once more, lets the enforcer
be asked. -/
def performSpawnRun (w : SupervisorDb) (dispatchId : String) (attempt : SpawnAttempt)
    (now : Time) : SupervisorDb :=
  match w.db.getDispatch dispatchId with
  | none => w
  | some _ => match Journal.beginAction w.actions (spawnOpening w.job.id dispatchId) now with
    | none => w.persistError "SPAWN_RUN_args_hash_mismatch"
    | some (.succeeded, _, _) | some (.running, _, _) => w
    | some (.exhausted, _, _) => w.persistError "SPAWN_RUN_exhausted"
    | some (.new, _, actions) | some (.retry, _, actions) =>
      { w with
        launches := if attempt.mayHaveStarted then w.launches ++ [dispatchId] else w.launches
        actions := match attempt.verdict with
          | some (status, code) => actions.finishAction (.spawn dispatchId) status code
          | none => actions }

/-! ### Passes -/

/-- The handlers this development has no definition for, as one function. -/
abbrev Handlers : Type := ReconcileDecision → Time → SupervisorDb → SupervisorDb

/-- `perform_next_safe_action_if_required`, for the holder of the decision's token. -/
def perform (others : Handlers) (attempt : SpawnAttempt) (now : Time) (d : ReconcileDecision)
    (w : SupervisorDb) : SupervisorDb :=
  match d.action, d.dispatchId with
  | .none, _ | .wait, _ => w
  | .spawnRun, some dispatchId => w.performSpawnRun dispatchId attempt now
  | .closeDone, _ => w.closeJob .done now
  | .closeFailed, _ => w.closeJob .failed now
  | .closeBlocked, _ => w.closeJob .blocked now
  | .persistentError, _ => w.performPersistentError d.reason
  | _, _ => others d now w

end SupervisorDb

/-- What may happen to a job: a primitive of the queue, or a pass of a supervisor. -/
inductive JobEvent
  | queue (now : Time) (op : QueueOp)
  /-- A pass, by a holder, with what it observes and how an attempt to start would go. -/
  | pass (holder : Option LeaseCas) (now : Time) (obs : Option RunObservation)
    (attempt : SpawnAttempt)

/-- A job that is being worked on, and the decisions made on it so far. -/
structure Watched where
  desk : SupervisorDb
  decisions : List ReconcileDecision

/-- One event. -/
def Watched.step (others : SupervisorDb.Handlers) (t : Watched) : JobEvent → Watched
  | .queue now op => { t with desk.job := op.apply now t.desk.actions t.desk.job }
  | .pass holder now obs attempt => match t.desk.reconcile holder now obs with
    | (some d, desk) => ⟨desk.perform others attempt now d, t.decisions ++ [d]⟩
    | (none, desk) => { t with desk := desk }

/-! ### A refused start -/

/-- A dispatch that waits for its run, with nothing else for its job to do: the task is
in progress and not at the gate, and the dispatch is active at the frontier and has no
run. -/
structure AwaitsRun (db : Db) (taskId : String) (task : Task) (ad : AgentDispatch) : Prop where
  found : db.getTask taskId = some task
  working : inProgress task.state = true
  gate : activeGates db task.id = []
  active : currentDispatch db task.id = some ad
  expected : atFrontier (Core.workflowFrontier db task.id) ad = true
  unbound : unbound ad = true

/-- A start that was refused before any process existed, with attempts left. -/
structure Refused (w : SupervisorDb) (task : Task) (ad : AgentDispatch) : Prop where
  awaits : AwaitsRun w.db w.job.taskId task ad
  nonterminal : w.job.terminal = none
  healthy : w.job.status ≠ .error
  row : ∃ a, Journal.find w.actions (.spawn ad.id.text) = some a ∧ a.status = .failed ∧
    a.attemptCount < maxActionRetries
  unlaunched : ad.id.text ∉ w.launches

section Awaiting

variable {w : SupervisorDb} {task : Task} {ad : AgentDispatch} {now : Time} {o : RunObservation}

/-- A run that is not found, of a dispatch that waits for it, is a matter of the spawn
row alone. -/
theorem AwaitsRun.decide (h : AwaitsRun w.db w.job.taskId task ad) (hterm : w.job.terminal = none)
    (hstatus : w.job.status ≠ .error) (ho : o.status = .notFound) :
    ∃ s, w.snapshot = some s ∧ s.job = w.job ∧
      Supervisor.decide now s (some o) = decideNotSpawned now s ad.role ad o := by
  have hsnap : w.snapshot = readSnapshot w.db w.job w.actions w.intents := rfl
  rw [readSnapshot, h.found] at hsnap
  refine ⟨_, hsnap, rfl, ?_⟩
  have hdead : ∀ g ∈ currentGate w.db task.id, g.status.live = false := by
    intro g hg
    have hnone : ∀ a ∈ w.db.listApprovals task.id, a.status.live ≠ true := by
      simpa [activeGates] using h.gate
    have hlast : (w.db.listApprovals task.id).getLast? = some g := by
      simpa [currentGate, h.gate] using hg
    simpa using hnone g (List.mem_of_getLast? hlast)
  have hrole : (Core.workflowFrontier w.db task.id).expectedRole = some ad.role := by
    have := h.expected
    simp only [atFrontier, Bool.and_eq_true, decide_eq_true_eq] at this
    exact this.2
  rw [decide_eq_atFrontier hterm hstatus h.working
    (decideGate_eq_none h.working (by simp [h.gate]) hdead) hrole,
    decideAtFrontier_of_active h.active h.expected, if_pos h.unbound]
  simp [decideUnbound, ho]

/-- **What a pass makes of a refused start**: it waits, or it closes the job. -/
theorem Refused.reconcile (h : Refused w task ad) (ho : o.status = .notFound)
    (hauth : o.authoritativeNotFound) {holder : Option LeaseCas}
    (hfence : w.job.leaseFence holder now) :
    ∃ plan, w.reconcile holder now (some o) =
        (some (w.author plan), { w with job := w.job.commit plan }) ∧
      plan.status ≠ some .error ∧
      ((missingUnboundSpawnConfirmations ≤ w.job.missingConfirmations + 1 ∧
          plan.action = .closeBlocked ∧ plan.reason = "spawn_unresolvable") ∨
        (w.job.missingConfirmations + 1 < missingUnboundSpawnConfirmations ∧ plan.action = .wait ∧
          plan.missingConfirmations = some (w.job.missingConfirmations + 1))) := by
  obtain ⟨s, hs, hjob, hdec⟩ := @AwaitsRun.decide w _ _ now _ h.awaits h.nonterminal h.healthy ho
  obtain ⟨a, hrow, hfailed, hleft⟩ := h.row
  have hspawn : s.spawnAction ad.id.text = some a := by
    rw [← hrow, ← (SupervisorDb.of_snapshot hs).2.1]
    rfl
  refine ⟨_, SupervisorDb.reconcile_of_snapshot hs hfence, ?_⟩
  rw [hdec]
  have hnot : ¬maxActionRetries ≤ a.attemptCount := by omega
  have hplan : decideNotSpawned now s ad.role ad o =
      if missingUnboundSpawnConfirmations ≤ w.job.missingConfirmations + 1 then
        { action := .closeBlocked
          reason := "spawn_unresolvable"
          recoveryState := if isImplementer ad.role then some .ambiguousWriter else none }
      else waitMissing now s ad "spawn_pending" .discoveringRun := by
    simp [decideNotSpawned, hspawn, hnot, hauth, hjob]
  rw [hplan]
  split
  · rename_i hmany
    exact ⟨by simp, .inl ⟨hmany, rfl, rfl⟩⟩
  · rename_i hfew
    exact ⟨by simp [waitMissing], .inr ⟨by omega, rfl, by simp [waitMissing, hjob]⟩⟩

end Awaiting

/-! ### Runs after a refused start -/

/-- Nothing happens to the job but routine business of the queue, and passes by the
holder of its lease that find no run. -/
def FindsNoRun (t : Watched) : JobEvent → Bool
  | .queue _ op => op.routine
  | .pass holder now obs _ => t.desk.job.leaseFence holder now &&
    obs.any fun o => o.status = .notFound && o.authoritativeNotFound

def passes (events : List JobEvent) : ℕ := events.countP fun e => match e with
  | .pass .. => true
  | .queue .. => false

/-- The state of a run after a refused start, in which the job had been missing its run
`missing` times before: no decision has been to spawn, no agent has been started, and the
job still counts, or is closed. -/
structure GivesUp (missing : ℕ) (task : Task) (ad : AgentDispatch) (t : Watched) : Prop where
  awaits : AwaitsRun t.desk.db t.desk.job.taskId task ad
  unspawned : ∀ d ∈ t.decisions, d.action ≠ .spawnRun
  unlaunched : ad.id.text ∉ t.desk.launches
  fate : (Refused t.desk task ad ∧
      t.desk.job.missingConfirmations = missing + t.decisions.length ∧
      missing + t.decisions.length < missingUnboundSpawnConfirmations) ∨
    (t.desk.job.terminal = some .blocked ∧ ∃ d ∈ t.decisions, d.action = .closeBlocked ∧
      d.reason = "spawn_unresolvable")

section Runs

variable {others : SupervisorDb.Handlers} {t : Watched} {task : Task} {ad : AgentDispatch}
  {missing : ℕ}

theorem Refused.queue {w : SupervisorDb} (h : Refused w task ad) {op : QueueOp}
    (hop : op.routine) {now : Time} :
    Refused { w with job := op.apply now w.actions w.job } task ad where
  awaits := by
    have htask : (op.apply now w.actions w.job).taskId = w.job.taskId := QueueOp.sameWork.taskId
    simpa [htask] using h.awaits
  nonterminal := (QueueOp.routine_terminal hop).trans h.nonterminal
  healthy := QueueOp.apply_status h.healthy
  row := h.row
  unlaunched := h.unlaunched

/-- One event. -/
theorem GivesUp.step (h : GivesUp missing task ad t) {e : JobEvent}
    (he : FindsNoRun t e) :
    GivesUp missing task ad (t.step others e) ∧
      (t.step others e).decisions.length = t.decisions.length + passes [e] := by
  cases e with
  | queue now op =>
    have hop : op.routine = true := he
    have hsame : t.desk.job.SameWork (op.apply now t.desk.actions t.desk.job) := QueueOp.sameWork
    refine ⟨⟨?_, h.unspawned, h.unlaunched, ?_⟩, rfl⟩
    · have hawaits := h.awaits
      rw [← hsame.taskId] at hawaits
      exact hawaits
    · rcases h.fate with ⟨href, hmissing, hfew⟩ | ⟨hclosed, hd⟩
      · exact .inl ⟨href.queue hop, hsame.missingConfirmations.trans hmissing, hfew⟩
      · exact .inr ⟨(QueueOp.routine_terminal hop).trans hclosed, hd⟩
  | pass holder now obs attempt =>
    simp only [FindsNoRun, Bool.and_eq_true, Option.any_eq_true] at he
    obtain ⟨hfence, o, rfl, ho⟩ := he
    simp only [decide_eq_true_eq] at ho
    have hone : passes [JobEvent.pass holder now (some o) attempt] = 1 := rfl
    rcases h.fate with ⟨href, hmissing, hfew⟩ | ⟨hclosed, hd⟩
    · -- The job still counts: it counts once more, or is closed now.
      obtain ⟨plan, hrec, herr, hplan⟩ := href.reconcile ho.1 ho.2 hfence
      have hstep : t.step others (.pass holder now (some o) attempt) =
          ⟨SupervisorDb.perform others attempt now (t.desk.author plan)
            { t.desk with job := t.desk.job.commit plan },
              t.decisions ++ [t.desk.author plan]⟩ := by
        simp only [Watched.step, hrec]
      rw [hstep, hone]
      refine ⟨?_, by simp⟩
      rcases hplan with ⟨hmany, haction, hreason⟩ | ⟨hfew', haction, hcount⟩
      · have hclose : SupervisorDb.perform others attempt now (t.desk.author plan)
            { t.desk with job := t.desk.job.commit plan } =
            ({ t.desk with job := t.desk.job.commit plan } : SupervisorDb).closeJob
              .blocked now := by
          simp [SupervisorDb.perform, SupervisorDb.author, haction]
        obtain ⟨hterm, htask, hdb, hlaunch⟩ := @SupervisorDb.closeJob_of_open
          { t.desk with job := t.desk.job.commit plan } .blocked now
            (by simpa using href.nonterminal)
        rw [hclose]
        refine ⟨?_, ?_, ?_, .inr ⟨hterm, t.desk.author plan, by simp, haction, hreason⟩⟩
        · show AwaitsRun (SupervisorDb.db _) (JobRow.taskId _) task ad
          rw [hdb, htask]
          simpa using h.awaits
        · intro d hd
          rcases List.mem_append.mp hd with hd | hd
          · exact h.unspawned d hd
          · obtain rfl := List.mem_singleton.mp hd
            simp [SupervisorDb.author, haction]
        · show ad.id.text ∉ SupervisorDb.launches _
          rw [hlaunch]
          exact h.unlaunched
      · have hwait : SupervisorDb.perform others attempt now (t.desk.author plan)
            { t.desk with job := t.desk.job.commit plan } =
            { t.desk with job := t.desk.job.commit plan } := by
          simp [SupervisorDb.perform, SupervisorDb.author, haction]
        rw [hwait]
        have hawaits : AwaitsRun t.desk.db (t.desk.job.commit plan).taskId task ad := by
          simpa using h.awaits
        refine ⟨hawaits, ?_, h.unlaunched, .inl ⟨⟨hawaits, by simpa using href.nonterminal, ?_,
          href.row, href.unlaunched⟩, ?_, ?_⟩⟩
        · intro d hd
          rcases List.mem_append.mp hd with hd | hd
          · exact h.unspawned d hd
          · obtain rfl := List.mem_singleton.mp hd
            simp [SupervisorDb.author, haction]
        · simp only [JobRow.commit_status]
          intro hbad
          cases hs : plan.status with
          | none => exact href.healthy (by simpa [hs] using hbad)
          | some st => exact herr (by simpa [hs] using hbad)
        · simp [hcount, hmissing]
          omega
        · simp
          omega
    · -- A closed job stays as it is.
      have hsnap : t.desk.snapshot = readSnapshot t.desk.db t.desk.job t.desk.actions
        t.desk.intents := rfl
      rw [readSnapshot, h.awaits.found] at hsnap
      have hrec := @SupervisorDb.reconcile_of_snapshot _ _ _ (some o) _ hsnap hfence
      rw [decide_of_terminal (by simp [hclosed])] at hrec
      have hstep : t.step others (.pass holder now (some o) attempt) =
          ⟨{ t.desk with job := t.desk.job.commit { action := .none, reason := "job_terminal" } },
            t.decisions ++ [t.desk.author { action := .none, reason := "job_terminal" }]⟩ := by
        simp only [Watched.step, hrec]
        rfl
      rw [hstep, hone]
      obtain ⟨d, hd, hdec⟩ := hd
      refine ⟨⟨by simpa using h.awaits, ?_, h.unlaunched, .inr ⟨by simpa using hclosed, d,
        List.mem_append_left _ hd, hdec⟩⟩, by simp⟩
      intro d' hd'
      rcases List.mem_append.mp hd' with hd' | hd'
      · exact h.unspawned d' hd'
      · obtain rfl := List.mem_singleton.mp hd'
        simp [SupervisorDb.author]

theorem GivesUp.run (h : GivesUp missing task ad t) {events : List JobEvent}
    (hrun : Runs.Along (Watched.step others) (fun t e => FindsNoRun t e = true) t events) :
    GivesUp missing task ad (Runs.run (Watched.step others) t events) ∧
      (Runs.run (Watched.step others) t events).decisions.length =
        t.decisions.length + passes events := by
  induction events generalizing t with
  | nil => exact ⟨h, rfl⟩
  | cons e events ih =>
    obtain ⟨hstep, hlen⟩ := @GivesUp.step others _ _ _ _ h _ hrun.1
    obtain ⟨hend, hcount⟩ := ih hstep hrun.2
    refine ⟨hend, hcount.trans ?_⟩
    have hsplit : passes (e :: events) = passes [e] + passes events := by
      simp only [passes, List.countP_cons, List.countP_nil]
      omega
    omega

end Runs

/-- **A refused start is never tried again.** Whatever has a row in the journal is not
spawned by any decision. In particular, when the start of an agent was refused before any
process existed, with attempts left, then every later pass that finds no run – however
often the job is queued, claimed and taken over in between – only counts; the fifteenth
closes the job as blocked, `spawn_unresolvable`, with no agent ever started. -/
theorem refused_spawn_abandoned (others : SupervisorDb.Handlers) :
    (∀ (w w' : SupervisorDb) (holder : Option LeaseCas) (now : Time) (obs : Option RunObservation)
      (d : ReconcileDecision) (dispatchId : String),
      (Journal.find w.actions (.spawn dispatchId)).isSome →
      w.reconcile holder now obs = (some d, w') →
      ¬(d.action = .spawnRun ∧ d.dispatchId = some dispatchId)) ∧
    (∀ (w : SupervisorDb) (task : Task) (ad : AgentDispatch) (events : List JobEvent),
      Refused w task ad →
      w.job.missingConfirmations < missingUnboundSpawnConfirmations →
      Runs.Along (Watched.step others) (fun t e => FindsNoRun t e = true) ⟨w, []⟩ events →
      let t := Runs.run (Watched.step others) ⟨w, []⟩ events
      t.decisions.length = passes events ∧
      (∀ d ∈ t.decisions, d.action ≠ .spawnRun) ∧
      ad.id.text ∉ t.desk.launches ∧
      (missingUnboundSpawnConfirmations ≤ w.job.missingConfirmations + passes events →
        t.desk.job.terminal = some .blocked ∧
          ∃ d ∈ t.decisions, d.action = .closeBlocked ∧ d.reason = "spawn_unresolvable")) := by
  constructor
  · rintro w w' holder now obs d dispatchId hrow hrec ⟨haction, hid⟩
    obtain ⟨s, hs, -, rfl, -⟩ := SupervisorDb.eq_of_reconcile hrec
    obtain ⟨ad, -, had, hnone⟩ := spawnAction_eq_none haction
    obtain rfl : ad.id.text = dispatchId := Option.mem_unique had hid
    rw [show s.spawnAction ad.id.text = Journal.find s.actions (.spawn ad.id.text) from rfl,
      (SupervisorDb.of_snapshot hs).2.1] at hnone
    simp [hnone] at hrow
  · intro w task ad events href hfew hrun
    have hstart : GivesUp w.job.missingConfirmations task ad ⟨w, []⟩ :=
      ⟨href.awaits, by simp, href.unlaunched, .inl ⟨href, by simp, by simpa using hfew⟩⟩
    obtain ⟨hend, hlen⟩ := hstart.run hrun
    have hcount : (Runs.run (Watched.step others) ⟨w, []⟩ events).decisions.length =
        passes events := by simpa using hlen
    refine ⟨hcount, hend.unspawned, hend.unlaunched, fun hmany => ?_⟩
    rcases hend.fate with ⟨-, -, hstill⟩ | hclosed
    · omega
    · exact hclosed

/-! ### A run -/

/-- The dispatch of the lead (6) waits for its run. -/
def leadPending : SupervisorDb :=
  .claimed (Core.run .lenient Core.ticking
    (Core.begun ++ (Core.dispatchTo .lead 0 1 .standard 6).take 2)).db (Core.num 1)

/-- A pass at the very start that finds no run. -/
def findsNone (epoch : ℕ) (attempt : SpawnAttempt) : JobEvent :=
  .pass (some (heldAt epoch)) 0 (some .missing) attempt

/-- How a job whose start was deferred is queued. -/
def deferral : Requeue where
  queueReason := .resourceDeferred
  nextEligibleAt := none
  errorCode := some "MEMORY_PRESSURE"

/-- The start is deferred, and the job is queued and claimed again. -/
def deferredStart : List JobEvent :=
  [findsNone 1 (.notAdmitted "admission:DEFER"),
    .queue 0 (.requeue (heldAt 1) deferral),
    .queue 0 (.claim "supervisor" maxLeaseTtlSeconds)]

/-- The job after such a start. -/
def startDeferred : Watched :=
  Runs.run (Watched.step fun _ _ w => w) ⟨leadPending, []⟩ deferredStart

/-- Fifteen passes that would all be free to start the agent. -/
def fifteenPasses : List JobEvent := List.replicate 15 (findsNone 2 .started)

/-- A start was deferred once, with four attempts left; the job is closed as
`spawn_unresolvable` although the enforcer was never asked. -/
theorem deferred_start_closes_job :
    let t := Runs.run (Watched.step fun _ _ w => w) startDeferred fifteenPasses
    (startDeferred.desk.actions.map fun a => (a.actionType, a.status, a.attemptCount)) =
      [(.spawnRun, .failed, 1)] ∧
    startDeferred.desk.job.primaryState = .running ∧
    t.decisions.map ReconcileDecision.action =
      [.spawnRun] ++ List.replicate 14 .wait ++ [.closeBlocked] ∧
    t.decisions.getLast?.map ReconcileDecision.reason = some "spawn_unresolvable" ∧
    t.desk.job.terminal = some .blocked ∧ t.desk.launches = [] := by
  decide +kernel

def leadTask : Task := (startDeferred.desk.db.getTask (Core.num 1)).get (by decide +kernel)

def leadDispatch : AgentDispatch :=
  (currentDispatch startDeferred.desk.db leadTask.id).get (by decide +kernel)

theorem startDeferred_refused : Refused startDeferred.desk leadTask leadDispatch := by
  have hfacts : inProgress leadTask.state = true ∧
      activeGates startDeferred.desk.db leadTask.id = [] ∧
      atFrontier (Core.workflowFrontier startDeferred.desk.db leadTask.id) leadDispatch = true ∧
      unbound leadDispatch = true ∧ startDeferred.desk.job.terminal = none ∧
      startDeferred.desk.job.status ≠ .error ∧ startDeferred.desk.job.taskId = Core.num 1 ∧
      ((Journal.find startDeferred.desk.actions (.spawn leadDispatch.id.text)).any fun a =>
        a.status = .failed && a.attemptCount < maxActionRetries) = true ∧
      leadDispatch.id.text ∉ startDeferred.desk.launches := by
    decide +kernel
  obtain ⟨hstate, hgates, hfront, hunbound, hterm, hstatus, htask, hrow, hlaunch⟩ := hfacts
  obtain ⟨a, ha, hfailed⟩ := Option.any_eq_true .. |>.mp hrow
  simp only [Bool.and_eq_true, decide_eq_true_eq] at hfailed
  exact ⟨⟨by rw [htask]; exact (Option.some_get _).symm, hstate, hgates, (Option.some_get _).symm,
    hfront, hunbound⟩, hterm, hstatus, ⟨a, ha, hfailed⟩, hlaunch⟩

/-- The start of the lead's agent, once deferred, is given up. -/
theorem refused_spawn_abandoned_lead :
    let t := Runs.run (Watched.step fun _ _ w => w) ⟨startDeferred.desk, []⟩ fifteenPasses
    (∀ d ∈ t.decisions, d.action ≠ .spawnRun) ∧ leadDispatch.id.text ∉ t.desk.launches ∧
      t.desk.job.terminal = some .blocked := by
  obtain ⟨-, hnone, hlaunch, hclosed⟩ := (refused_spawn_abandoned fun _ _ w => w).2
    startDeferred.desk leadTask leadDispatch fifteenPasses startDeferred_refused
    (by decide +kernel) (by decide +kernel)
  exact ⟨hnone, hlaunch, (hclosed (by decide +kernel)).1⟩

end Supervisor

end ArgentTeam
