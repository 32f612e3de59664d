import ArgentTeam.Core.Basics

/-!
# Projects, tasks, role runs and evidence

The commands of `core.py` by which an owner opens projects and tasks and the roles work
on them: transitions, role runs with their handoffs, task runs, and the evidence they
leave – findings, test runs, reviews and decisions. Each is its checks, its writes and
its events, run once under `idempotent`.
-/

namespace ArgentTeam

open Prog Store

namespace Core

/-! ### Projects and tasks -/

def createProject (name source : String) (key : Option String) : Cmd (Option Project) := do
  requireOwner source
  idempotent key "create_project" (.dict [("name", .text name), ("source", .text source)])
    (do
      let pid ← uuid4
      let _ ← nowIso
      let p : Project := ⟨pid, name, key⟩
      insertProject p
      pure (some p, pid.text))
    (refetch Db.getProject)

def riskValue : RiskClass → String
  | .low => "LOW"
  | .normal => "NORMAL"
  | .high => "HIGH"

/-- The stored text of a policy. -/
def policyValue : ExternalActionsPolicy → String
  | .allowedWithGate => "ALLOWED_WITH_GATE"
  | .forbidden => "FORBIDDEN"

def newTask (id projectId : Uuid) (title : String) (description : Option String)
    (risk : RiskClass) (policy : ExternalActionsPolicy) (key : Option String) : Task where
  id := id
  projectId := projectId
  title := title
  description := description
  state := .new
  resumeState := none
  riskClass := risk
  externalActionsPolicy := policy
  idempotencyKey := key

def createTask (projectId title source : String) (key description : Option String)
    (risk : RiskClass) (policy : ExternalActionsPolicy) : Cmd (Option Task) := do
  requireOwner source
  idempotent key "create_task"
    (.dict [("project_id", .text projectId), ("title", .text title), ("source", .text source),
      ("description", .optText description), ("risk_class", .text (riskValue risk)),
      ("external_actions_policy", .text (policyValue policy))])
    (do
      let project ← read fun w => w.db.getProject projectId
      let project ← orRaise project (.error .notFound "project %r not found" [projectId])
      let tid ← uuid4
      let _ ← nowIso
      let t := newTask tid project.id title description risk policy key
      insertTask t
      emit "task.created" (.text tid.text) none (some TaskState.new.value)
        (.dict [("project_id", .text projectId)])
      pure (some t, tid.text))
    (refetch Db.getTask)

/-- `transition`: the lead's transitions, which neither enter nor leave a pause. -/
def transition (taskId : String) (toState : TaskState) (source : String) (key : Option String) :
    Cmd (Option Task) := do
  checkSource source
  idempotent key "transition"
    (.dict [("task_id", .text taskId), ("to_state", .text toState.value),
      ("source", .text source)])
    (do
      let task ← theTask taskId
      requireRoleActor task .lead source
      require (task.state.isPause = false ∧ toState.isPause = false)
        (.error .invalidTransition
          "pause states are reserved for the dedicated gate/resume/recover commands" [])
      validateTransition task.state toState task.resumeState
      applyTransition task toState none
      let task ← read fun w => w.db.getTask taskId
      pure (task, taskId))
    (refetch Db.getTask)

/-- `resume`: from `PAUSED` back to the resume state. -/
def resume (taskId source : String) (key : Option String) : Cmd (Option Task) := do
  checkSource source
  idempotent key "resume" (.dict [("task_id", .text taskId), ("source", .text source)])
    (do
      let task ← theTask taskId
      requireRoleActor task .lead source
      require (task.state = .paused)
        (.error .invalidTransition "resume requires state PAUSED, got %s" [task.state.value])
      let rs ← orRaise task.resumeState
        (.error .invalidTransition "task is PAUSED without a resume_state" [])
      validateTransition task.state rs (some rs)
      applyTransition task rs none
      let task ← read fun w => w.db.getTask taskId
      pure (task, taskId))
    (refetch Db.getTask)

/-! ### What these commands do to tasks -/

section Transitions

variable {w : World} {taskId source : String} {key : Option String} {c : CoreDb}

/-- **What `create_task` does**: nothing, or it inserts a new task. -/
theorem createTask_core {projectId title : String} {description : Option String}
    {risk : RiskClass} {policy : ExternalActionsPolicy}
    (h : (createTask projectId title source key description risk policy w).2.db.core = c) :
    c = w.db.core ∨ ∃ t tasks, t.state = .new ∧ t.resumeState = none ∧
      w.db.core.tasks.insert? t = some tasks ∧ c = { w.db.core with tasks := tasks } := by
  refine (command_core (requireOwner_snd source) (fun _ => inferInstance) h).imp_right ?_
  rintro ⟨-, -, r, w₁, hr, rfl⟩
  simp only [returns_bind, returns_read, returns_orRaise, returns_uuid4, returns_nowIso,
    insertTask, Relvar.returns_insert, returns_pure] at hr
  obtain ⟨_, _, ⟨-, rfl⟩, p, _, ⟨-, rfl⟩, id, _, ⟨-, rfl⟩, _, _, ⟨-, rfl⟩, _, _, ⟨tasks, ht, rfl⟩,
    _, w₂, hemit, -, rfl⟩ := hr
  exact ⟨_, tasks, rfl, rfl, ht, Moves.frame core hemit⟩

/-- **What `transition` does**: nothing, or it moves its task from a state that is no
pause to another one. -/
theorem transition_core {toState : TaskState}
    (h : (transition taskId toState source key w).2.db.core = c) :
    c = w.db.core ∨ ∃ task ∈ w.db.getTask taskId, task.state.isPause = false ∧
      toState.isPause = false ∧ TaskState.isAllowed task.state toState task.resumeState ∧
      SetState w.db.core c task.id toState none := by
  refine (command_core (checkSource_snd source) (fun _ => inferInstance) h).imp_right ?_
  rintro ⟨-, -, r, w₁, hr, rfl⟩
  simp only [returns_bind, returns_theTask, returns_requireRoleActor, returns_require,
    returns_validateTransition, returns_read, returns_pure] at hr
  obtain ⟨task, _, ⟨htask, rfl⟩, -, _, ⟨-, -, rfl⟩, -, _, ⟨⟨hsrc, hdst⟩, rfl⟩, -, _,
    ⟨hallowed, rfl⟩, _, w₂, happly, -, _, ⟨-, rfl⟩, -, rfl⟩ := hr
  exact ⟨task, htask, hsrc, hdst, hallowed, setState_of_applyTransition happly⟩

/-- **What `resume` does**: nothing, or it moves its task from `PAUSED` to its resume
state. -/
theorem resume_core (h : (resume taskId source key w).2.db.core = c) :
    c = w.db.core ∨ ∃ task ∈ w.db.getTask taskId, task.state = .paused ∧
      ∃ rs ∈ task.resumeState, TaskState.isAllowed .paused rs (some rs) = true ∧
      SetState w.db.core c task.id rs none := by
  refine (command_core (checkSource_snd source) (fun _ => inferInstance) h).imp_right ?_
  rintro ⟨-, -, r, w₁, hr, rfl⟩
  simp only [returns_bind, returns_theTask, returns_requireRoleActor, returns_require,
    returns_orRaise, returns_validateTransition, returns_read, returns_pure] at hr
  obtain ⟨task, _, ⟨htask, rfl⟩, -, _, ⟨-, -, rfl⟩, -, _, ⟨hsrc, rfl⟩, rs, _, ⟨hrs, rfl⟩, -, _,
    ⟨hallowed, rfl⟩, _, w₂, happly, -, _, ⟨-, rfl⟩, -, rfl⟩ := hr
  rw [hsrc] at hallowed
  exact ⟨task, htask, hsrc, rs, hrs, hallowed, setState_of_applyTransition happly⟩

end Transitions

/-! ### Role runs -/

/-- The role that may start next: the one the latest handoff names, or the lead. -/
def expectedRole (db : Db) (taskId : Uuid) : Role :=
  match db.getLatestHandoff taskId with
  | some h => h.toRole
  | none => .lead

def startRole (taskId : String) (role : Role) (source : String) (key : Option String) :
    Cmd (Option RoleRun) := do
  checkSource source
  idempotent key "start_role"
    (.dict [("task_id", .text taskId), ("role", .text role.value), ("source", .text source)])
    (do
      let task ← theTask taskId
      require (source = roleSource .lead)
        (.error .permissionDenied "start_role is lead-only" [])
      require (task.state.isTerminal = false ∧ task.state.isPause = false ∧ task.state ≠ .blocked)
        (.error .invalidTransition "cannot start a role run from state %s" [task.state.value])
      let active ← read fun w => w.db.getActiveRoleRun task.id
      require (active = none)
        (.error .roleConflict "task %r already has an active role run" [taskId])
      let expected ← read fun w => expectedRole w.db task.id
      require (role = expected)
        (.error .roleConflict "next role must be %r (handoff required), got %r"
          [expected.value, role.value])
      let rid ← uuid4
      let _ ← nowIso
      let rr : RoleRun := ⟨rid, task.id, role, .started⟩
      insertRoleRun rr
      emitRole "role.started" task.id role [("role", .text role.value)]
      pure (some rr, rid.text))
    (refetch Db.getRoleRun)

/-- What `complete_role` and `fail_role` share: the run has to be started and the source
its role; the run ends, and a handoff to the next role of the pipeline is recorded. -/
def endRole (roleRunId source : String) (status : RunStatus) (type : String)
    (payload : List (String × Json)) : Cmd (Option RoleRun × String) := do
  let rr ← theRoleRun roleRunId
  require (rr.status = .started)
    (.error .idempotencyError "role run %r is not started (%s)" [roleRunId, rr.status.value])
  require (source = roleSource rr.role) (wrongSource rr.role source)
  let _ ← nowIso
  let _ ← updateRoleRunStatus rr.id status
  insertNewHandoff rr.taskId rr.role (defaultNextRole rr.role)
  emitRole type rr.taskId rr.role (("role", .text rr.role.value) :: payload)
  emitHandoff "handoff.created" rr.taskId rr.role (defaultNextRole rr.role)
  let rr ← read fun w => w.db.getRoleRun roleRunId
  pure (rr, roleRunId)

def completeRole (roleRunId source : String) (key : Option String) : Cmd (Option RoleRun) := do
  checkSource source
  idempotent key "complete_role"
    (.dict [("role_run_id", .text roleRunId), ("source", .text source)])
    (endRole roleRunId source .completed "role.completed" []) (refetch Db.getRoleRun)

def failRole (roleRunId source : String) (detail key : Option String) : Cmd (Option RoleRun) := do
  checkSource source
  idempotent key "fail_role"
    (.dict [("role_run_id", .text roleRunId), ("source", .text source),
      ("detail", .optText detail)])
    (endRole roleRunId source .failed "role.failed"
      (match detail with
        | some d => [("detail", .text d)]
        | none => []))
    (refetch Db.getRoleRun)

/-! ### Task runs -/

def startTaskRun (taskId source : String) (key : Option String) : Cmd (Option TaskRun) := do
  checkSource source
  idempotent key "start_task_run" (.dict [("task_id", .text taskId), ("source", .text source)])
    (do
      let task ← theTask taskId
      let rid ← uuid4
      let _ ← nowIso
      let tr : TaskRun := ⟨rid, task.id, .started⟩
      insertTaskRun tr
      pure (some tr, rid.text))
    (refetch Db.getTaskRun)

/-- What `complete_task_run` and `fail_task_run` share. -/
def endTaskRun (taskRunId : String) (status : RunStatus) : Cmd (Option TaskRun × String) := do
  let tr ← theTaskRun taskRunId
  require (tr.status = .started)
    (.error .idempotencyError "task run %r is not started" [taskRunId])
  let _ ← nowIso
  let _ ← updateTaskRunStatus tr.id status
  let tr ← read fun w => w.db.getTaskRun taskRunId
  pure (tr, taskRunId)

def completeTaskRun (taskRunId source : String) (key : Option String) : Cmd (Option TaskRun) := do
  checkSource source
  idempotent key "complete_task_run"
    (.dict [("task_run_id", .text taskRunId), ("source", .text source)])
    (endTaskRun taskRunId .completed) (refetch Db.getTaskRun)

def failTaskRun (taskRunId source : String) (key : Option String) : Cmd (Option TaskRun) := do
  checkSource source
  idempotent key "fail_task_run"
    (.dict [("task_run_id", .text taskRunId), ("source", .text source)])
    (endTaskRun taskRunId .failed) (refetch Db.getTaskRun)

/-! ### Evidence -/

def addFinding (taskId severity description source : String) (key : Option String) :
    Cmd (Option Finding) := do
  checkSource source
  idempotent key "add_finding"
    (.dict [("task_id", .text taskId), ("severity", .text severity),
      ("description", .text description), ("source", .text source)])
    (do
      let task ← theTask taskId
      requireActiveRoleIn task.id [.reviewer, .qa] source
      let fid ← uuid4
      let _ ← nowIso
      let f : Finding := ⟨fid, task.id, severity, description, .opened, .controller⟩
      insertFinding f
      emitTask "finding.created" task.id
        [("finding_id", .text fid.text), ("severity", .text severity)]
      pure (some f, fid.text))
    (refetch Db.getFinding)

def resolveFinding (findingId source : String) (key : Option String) : Cmd (Option Finding) := do
  checkSource source
  idempotent key "resolve_finding"
    (.dict [("finding_id", .text findingId), ("source", .text source)])
    (do
      let f ← read fun w => w.db.getFinding findingId
      let f ← orRaise f (.error .notFound "finding %r not found" [findingId])
      requireActiveRoleIn f.taskId [.reviewer, .qa] source
      require (f.status = .opened)
        (.error .idempotencyError "finding %r is not open (%s)" [findingId, f.status.value])
      let _ ← nowIso
      let _ ← updateFindingStatus f.id .resolved
      emitTask "finding.resolved" f.taskId [("finding_id", .text findingId)]
      let f ← read fun w => w.db.getFinding findingId
      pure (f, findingId))
    (refetch Db.getFinding)

def recordTestRun (taskId : String) (result : TestResult) (source : String)
    (detail key : Option String) : Cmd (Option TestRun) := do
  checkSource source
  idempotent key "record_test_run"
    (.dict [("task_id", .text taskId), ("result", .text result.value), ("source", .text source),
      ("detail", .optText detail)])
    (do
      let task ← theTask taskId
      requireActiveRoleIn task.id [.qa, .implementer] source
      let rid ← uuid4
      let _ ← nowIso
      let tr : TestRun := ⟨rid, task.id, result, detail, .controller⟩
      insertTestRun tr
      emitTask "test.started" task.id [("test_run_id", .text rid.text)]
      emitTask "test.completed" task.id
        [("test_run_id", .text rid.text), ("result", .text result.value)]
      pure (some tr, rid.text))
    (refetch Db.getTestRun)

def approveRecommendations : List String :=
  ["approve", "approved", "accept", "accepted", "pass", "passed", "yes", "ok"]

/-- `_canonical_review_verdict`: what is not a known approval rejects. -/
def canonicalReviewVerdict (recommendation : PyStr) : String :=
  if approveRecommendations.any fun v => recommendation.strip.lower = PyStr.ofString v then
    "approve"
  else "reject"

/-- `record_review`; its detail is free text. -/
def recordReview (taskId verdict source : String) (detail : Option (String × JsonText))
    (key : Option String) : Cmd (Option Review) := do
  checkSource source
  idempotent key "record_review"
    (.dict [("task_id", .text taskId), ("verdict", .text verdict), ("source", .text source),
      ("detail", .optText (detail.map Prod.fst))])
    (do
      let task ← theTask taskId
      requireActiveRoleIn task.id [.reviewer] source
      let rid ← uuid4
      let _ ← nowIso
      let rv : Review := ⟨rid, task.id, canonicalReviewVerdict (PyStr.ofString verdict),
        detail.map Prod.snd, .controller⟩
      insertReview rv
      emitTask "review.started" task.id [("review_id", .text rid.text)]
      emitTask "review.completed" task.id
        [("review_id", .text rid.text), ("verdict", .text rv.verdict)]
      pure (some rv, rid.text))
    (refetch Db.getReview)

/-- `record_decision`; its detail is free text, which the workflow later reads as JSON. -/
def recordDecision (taskId decision source : String) (detail : Option (String × JsonText))
    (key : Option String) : Cmd (Option Decision) := do
  checkSource source
  idempotent key "record_decision"
    (.dict [("task_id", .text taskId), ("decision", .text decision), ("source", .text source),
      ("detail", .optText (detail.map Prod.fst))])
    (do
      let task ← theTask taskId
      requireRoleActor task .lead source
      let did ← uuid4
      let _ ← nowIso
      let d : Decision := ⟨did, task.id, decision, detail.map Prod.snd⟩
      insertDecision d
      emitTask "lead.decision" task.id [("decision_id", .text did.text)]
      pure (some d, did.text))
    (refetch Db.getDecision)

/-! ### What these commands move

A command moves a view along a preorder as soon as the mutators it is built from do. -/

section Moves

variable {τ : Type} {π : World → τ} {Q : τ → τ → Prop} [OffReports π] [OfRuns π Q]
  [Std.Refl Q] [IsTrans τ Q] {name projectId title taskId roleRunId taskRunId findingId source
    severity description decision verdict type : String} {key text : Option String}
      {risk : RiskClass}
  {policy : ExternalActionsPolicy} {dst : TaskState} {role : Role} {status : RunStatus}
  {result : TestResult} {detail : Option (String × JsonText)} {payload : List (String × Json)}

set_option synthInstance.maxSize 10000

attribute [local instance] moves_steps moves_keyed

instance : Moves π Q (endRole roleRunId source status type payload) := by
  unfold endRole
  infer_instance

instance : Moves π Q (endTaskRun taskRunId status) := by
  unfold endTaskRun
  infer_instance

variable [∀ r, Moves π Q (setCommandIdempotency r)]

instance : Moves π Q (createProject name source key) := by
  unfold createProject
  infer_instance

instance [∀ tid pid title text risk policy key,
      Moves π Q (insertTask (newTask tid pid title text risk policy key))] :
    Moves π Q (createTask projectId title source key text risk policy) := by
  unfold createTask
  infer_instance

instance [∀ id s r, Moves π Q (updateTaskState id s r)] :
    Moves π Q (transition taskId dst source key) := by
  unfold transition
  infer_instance

instance [∀ id s r, Moves π Q (updateTaskState id s r)] : Moves π Q (resume taskId source key) := by
  unfold resume
  infer_instance

instance : Moves π Q (startRole taskId role source key) := by
  unfold startRole
  infer_instance

instance : Moves π Q (completeRole roleRunId source key) :=
  moves_bind inferInstance fun _ => moves_idempotent inferInstance inferInstance

instance : Moves π Q (failRole roleRunId source text key) :=
  moves_bind inferInstance fun _ => moves_idempotent inferInstance inferInstance

instance : Moves π Q (startTaskRun taskId source key) := by
  unfold startTaskRun
  infer_instance

instance : Moves π Q (completeTaskRun taskRunId source key) :=
  moves_bind inferInstance fun _ => moves_idempotent inferInstance inferInstance

instance : Moves π Q (failTaskRun taskRunId source key) :=
  moves_bind inferInstance fun _ => moves_idempotent inferInstance inferInstance

instance [∀ f, Moves π Q (insertFinding f)] :
    Moves π Q (addFinding taskId severity description source key) := by
  unfold addFinding
  infer_instance

instance [∀ id s, Moves π Q (updateFindingStatus id s)] :
    Moves π Q (resolveFinding findingId source key) := by
  unfold resolveFinding
  infer_instance

instance : Moves π Q (recordTestRun taskId result source text key) := by
  unfold recordTestRun
  infer_instance

instance [∀ r, Moves π Q (insertReview r)] :
    Moves π Q (recordReview taskId verdict source detail key) := by
  unfold recordReview
  infer_instance

instance [∀ d, Moves π Q (insertDecision d)] :
    Moves π Q (recordDecision taskId decision source detail key) := by
  unfold recordDecision
  infer_instance

end Moves

end Core

end ArgentTeam
