import ArgentTeam.Core.Exec

/-!
# Calls

A command as a call: what it returns, the key it is given, the name and the arguments it is
recorded under, the checks it makes before it looks at its key, and what it answers with when
its key is recorded already. `step` runs the call and keeps the world it leaves behind.
-/

namespace ArgentTeam

open Prog Store

namespace Core

def Command.Result : Command → Type
  | .createProject .. => Option Project
  | .createTask .. | .transition .. | .resume .. => Option Task
  | .startRole .. | .completeRole .. | .failRole .. => Option RoleRun
  | .startTaskRun .. | .completeTaskRun .. | .failTaskRun .. => Option TaskRun
  | .requestAction .. => Option ActionRequestResult
  | .approve .. | .reject .. | .executeApproved .. => Option OwnerApproval
  | .addFinding .. | .resolveFinding .. => Option Finding
  | .recordTestRun .. => Option TestRun
  | .recordReview .. => Option Review
  | .recordDecision .. => Option Decision
  | .createDispatch .. | .bindSpawnResult .. | .markAgentFailed .. => Option AgentDispatch
  | .receiveAgentResult .. => ReceiveResult
  | .recover .. => RecoveryReport

def call (cfg : Config) : (c : Command) → Cmd c.Result
  | .createProject name source key => createProject name source key
  | .createTask projectId title source key description risk policy =>
    createTask projectId title source key description risk policy
  | .transition taskId toState source key => transition taskId toState source key
  | .resume taskId source key => resume taskId source key
  | .startRole taskId role source key => startRole taskId role source key
  | .completeRole roleRunId source key => completeRole roleRunId source key
  | .failRole roleRunId source detail key => failRole roleRunId source detail key
  | .startTaskRun taskId source key => startTaskRun taskId source key
  | .completeTaskRun taskRunId source key => completeTaskRun taskRunId source key
  | .failTaskRun taskRunId source key => failTaskRun taskRunId source key
  | .requestAction taskId action scope actorRole source key =>
    requestAction taskId action scope actorRole source key
  | .approve approvalId source taskId action scope key =>
    approve approvalId source taskId action scope key
  | .reject approvalId source taskId action scope key =>
    reject approvalId source taskId action scope key
  | .executeApproved approvalId source taskId action scope key =>
    executeApproved approvalId source taskId action scope key
  | .addFinding taskId severity description source key =>
    addFinding taskId severity description source key
  | .resolveFinding findingId source key => resolveFinding findingId source key
  | .recordTestRun taskId result source detail key => recordTestRun taskId result source detail key
  | .recordReview taskId verdict source detail key => recordReview taskId verdict source detail key
  | .recordDecision taskId decision source detail key =>
    recordDecision taskId decision source detail key
  | .createDispatch taskId taskRunId role position cycleNo kind choice source parent key routing =>
    createDispatch cfg taskId taskRunId role position cycleNo kind choice source parent key routing
  | .bindSpawnResult dispatchId spawn source key => bindSpawnResult dispatchId spawn source key
  | .receiveAgentResult dispatchId eventMeta result source key =>
    receiveAgentResult cfg dispatchId eventMeta result source key
  | .markAgentFailed dispatchId reason source key errorClass errorCode =>
    markAgentFailed dispatchId reason source key errorClass errorCode
  | .recover source key => recover source key

theorem step_eq_call (cfg : Config) (w : World) (c : Command) :
    step cfg w c = (call cfg c w).2 := by
  cases c <;> rfl

namespace Command

def key : Command → Option String
  | .createProject _ _ key | .createTask _ _ _ key _ _ _ | .transition _ _ _ key
  | .resume _ _ key | .startRole _ _ _ key | .completeRole _ _ key | .failRole _ _ _ key
  | .startTaskRun _ _ key | .completeTaskRun _ _ key | .failTaskRun _ _ key
  | .requestAction _ _ _ _ _ key | .approve _ _ _ _ _ key | .reject _ _ _ _ _ key
  | .executeApproved _ _ _ _ _ key | .addFinding _ _ _ _ key | .resolveFinding _ _ key
  | .recordTestRun _ _ _ _ key | .recordReview _ _ _ _ key | .recordDecision _ _ _ _ key
  | .createDispatch _ _ _ _ _ _ _ _ _ key _ | .bindSpawnResult _ _ _ key
  | .receiveAgentResult _ _ _ _ key | .markAgentFailed _ _ _ key _ _ | .recover _ key => key

/-- The name it is recorded under. -/
def name : Command → String
  | .createProject .. => "create_project"
  | .createTask .. => "create_task"
  | .transition .. => "transition"
  | .resume .. => "resume"
  | .startRole .. => "start_role"
  | .completeRole .. => "complete_role"
  | .failRole .. => "fail_role"
  | .startTaskRun .. => "start_task_run"
  | .completeTaskRun .. => "complete_task_run"
  | .failTaskRun .. => "fail_task_run"
  | .requestAction .. => "request_action"
  | .approve .. => "approve"
  | .reject .. => "reject"
  | .executeApproved .. => "execute_approved"
  | .addFinding .. => "add_finding"
  | .resolveFinding .. => "resolve_finding"
  | .recordTestRun .. => "record_test_run"
  | .recordReview .. => "record_review"
  | .recordDecision .. => "record_decision"
  | .createDispatch .. => "create_dispatch"
  | .bindSpawnResult .. => "bind_spawn_result"
  | .receiveAgentResult .. => "receive_agent_result"
  | .markAgentFailed .. => "mark_agent_failed"
  | .recover .. => "recover"

/-- The arguments it is recorded with. -/
def args : Command → Json
  | .createProject name source _ => .dict [("name", .text name), ("source", .text source)]
  | .createTask projectId title source _ description risk policy =>
    .dict [("project_id", .text projectId), ("title", .text title), ("source", .text source),
      ("description", .optText description), ("risk_class", .text (riskValue risk)),
      ("external_actions_policy", .text (policyValue policy))]
  | .transition taskId toState source _ =>
    .dict [("task_id", .text taskId), ("to_state", .text toState.value), ("source", .text source)]
  | .resume taskId source _ | .startTaskRun taskId source _ =>
    .dict [("task_id", .text taskId), ("source", .text source)]
  | .startRole taskId role source _ =>
    .dict [("task_id", .text taskId), ("role", .text role.value), ("source", .text source)]
  | .completeRole roleRunId source _ =>
    .dict [("role_run_id", .text roleRunId), ("source", .text source)]
  | .failRole roleRunId source detail _ =>
    .dict [("role_run_id", .text roleRunId), ("source", .text source), ("detail", .optText detail)]
  | .completeTaskRun taskRunId source _ | .failTaskRun taskRunId source _ =>
    .dict [("task_run_id", .text taskRunId), ("source", .text source)]
  | .requestAction taskId action scope actorRole source _ =>
    requestArgs taskId action scope actorRole source
  | .approve approvalId source taskId action scope _
  | .reject approvalId source taskId action scope _
  | .executeApproved approvalId source taskId action scope _ =>
    gateArgs approvalId source taskId action scope
  | .addFinding taskId severity description source _ =>
    .dict [("task_id", .text taskId), ("severity", .text severity),
      ("description", .text description), ("source", .text source)]
  | .resolveFinding findingId source _ =>
    .dict [("finding_id", .text findingId), ("source", .text source)]
  | .recordTestRun taskId result source detail _ =>
    .dict [("task_id", .text taskId), ("result", .text result.value), ("source", .text source),
      ("detail", .optText detail)]
  | .recordReview taskId verdict source detail _ =>
    .dict [("task_id", .text taskId), ("verdict", .text verdict), ("source", .text source),
      ("detail", .optText (detail.map Prod.fst))]
  | .recordDecision taskId decision source detail _ =>
    .dict [("task_id", .text taskId), ("decision", .text decision), ("source", .text source),
      ("detail", .optText (detail.map Prod.fst))]
  | .createDispatch taskId taskRunId role position cycleNo kind choice source parent _ routing =>
    .dict [("task_id", .text taskId), ("task_run_id", .text taskRunId),
      ("role", .text role.value), ("position", .int position), ("cycle_no", .int cycleNo),
      ("sequence_kind", .text kind.value),
      ("model_choice", choice.elim .null ModelChoice.toJson), ("source", .text source),
      ("parent_dispatch_id", .optText parent),
      ("routing_decision_id", .optText (routing.map RoutingRecord.decisionId))]
  | .bindSpawnResult dispatchId s source _ =>
    .dict [("dispatch_id", .text dispatchId), ("child_session_id", .text s.childSessionId),
      ("openclaw_run_id", .text s.openclawRunId), ("actual_provider", .optText s.actualProvider),
      ("actual_model", .optText s.actualModel), ("thinking_tier", .optText s.thinkingTier),
      ("source", .text source)]
  | .receiveAgentResult dispatchId eventMeta result source _ =>
    .dict [("dispatch_id", .text dispatchId), ("event_meta", eventMeta), ("result", result),
      ("source", .text source)]
  | .markAgentFailed dispatchId reason source _ errorClass errorCode =>
    .dict [("dispatch_id", .text dispatchId), ("reason", .text reason), ("source", .text source),
      ("error_class", .optText errorClass), ("error_code", .optText errorCode)]
  | .recover source _ => .dict [("source", .text source)]

/-- The checks it makes before it looks at its key. -/
def checks (cfg : Config) : Command → Cmd Unit
  | .createProject _ source _ | .createTask _ _ source _ _ _ _ | .approve _ source _ _ _ _
  | .reject _ source _ _ _ _ | .executeApproved _ source _ _ _ _ | .recover source _ =>
    requireOwner source
  | .transition _ _ source _ | .resume _ source _ | .startRole _ _ source _
  | .completeRole _ source _ | .failRole _ source _ _ | .startTaskRun _ source _
  | .completeTaskRun _ source _ | .failTaskRun _ source _ | .addFinding _ _ _ source _
  | .resolveFinding _ source _ | .recordTestRun _ _ source _ _ | .recordReview _ _ source _ _
  | .recordDecision _ _ source _ _ => checkSource source
  | .bindSpawnResult _ _ source _ | .receiveAgentResult _ _ _ source _ => requireController source
  | .markAgentFailed _ _ source _ errorClass _ => do
    requireController source
    require (∀ c ∈ errorClass, c ∈ errorClassValues)
      (.error .dispatchError "invalid error_class %r" (errorClass.elim [] fun c => [c]))
  | .requestAction taskId action _ actorRole source _ => do
    checkSource source
    let task ← theTask taskId
    onlyIf (classifyAction action task.externalActionsPolicy = .autonomous) <|
      onlyIf (hasPermission actorRole (permissionFor action).1 (permissionFor action).2 = false)
        (denyRole taskId action actorRole)
  | .createDispatch taskId _ role _ _ _ choice source _ _ routing => do
    requireController source
    whenSome routing fun r => do
      onlyIf (choice.isSome = true)
        (violation taskId role "model_choice_and_decision"
          "model_choice and routing_decision are mutually exclusive" [])
      whenSome (cfg.validateRouting r taskId role) raise
    let task ← theTask taskId
    checkIdentity taskId task role routing (dispatchIdentity task role choice routing)

end Command

/-! ### What a recorded command answers with -/

/-- The row a recorded result names, as it is now. -/
def named {α : Type} (find : Db → String → Option α) (db : Db) (resultId : String) :
    Option (Option α) :=
  (find db resultId).map some

def requestAnswer (db : Db) (resultId : String) : Option (Option ActionRequestResult) :=
  match stripTag "approval:" resultId with
  | some id => (db.getApproval id).map fun ap =>
    some ⟨ap.action, ap.scope, .ownerApprovalRequired, false, some ap, none⟩
  | none =>
    match stripTag "execution:" resultId with
    | some id => (db.getActionExecution id).map fun ex =>
      some ⟨ex.action, ex.scope, classifyAction ex.action .allowedWithGate,
        ex.status = .executed, none, some ex.id⟩
    | none => (stripTag "blocked:" resultId).map fun _ => none

/-- The answer of a recorded decision of the owner. -/
def gateAnswer (taskId action scope : String) (db : Db) (resultId : String) :
    Option (Option OwnerApproval) :=
  named (fun db id => (db.getApproval id).filter fun ap => ap.taskId.text = taskId ∧
    ap.action = action ∧ ap.scope = scope ∧ ap.bindingHash = ⟨taskId, action, scope⟩) db resultId

def receiveAnswer (dispatchId : String) (db : Db) (_ : String) : Option ReceiveResult :=
  some ⟨dispatchId, if (db.getDispatch dispatchId).map AgentDispatch.status = some .consumed
    then "duplicate" else "rejected", none⟩

/-- What a command answers with when it is recorded with the given result. -/
def Command.answer : (c : Command) → Db → String → Option c.Result
  | .createProject .. => named Db.getProject
  | .createTask .. | .transition .. | .resume .. => named Db.getTask
  | .startRole .. | .completeRole .. | .failRole .. => named Db.getRoleRun
  | .startTaskRun .. | .completeTaskRun .. | .failTaskRun .. => named Db.getTaskRun
  | .requestAction .. => requestAnswer
  | .approve _ _ taskId action scope _ | .reject _ _ taskId action scope _
  | .executeApproved _ _ taskId action scope _ => gateAnswer taskId action scope
  | .addFinding .. | .resolveFinding .. => named Db.getFinding
  | .recordTestRun .. => named Db.getTestRun
  | .recordReview .. => named Db.getReview
  | .recordDecision .. => named Db.getDecision
  | .createDispatch .. | .bindSpawnResult .. | .markAgentFailed .. => named Db.getDispatch
  | .receiveAgentResult dispatchId .. => receiveAnswer dispatchId
  | .recover .. => fun _ _ => some ⟨0, 0, [], 0⟩

/-- Whether the first answer is the one that is given from the record: a receipt and a
recovery are answered differently when they are repeated. -/
def Command.Echoes : Command → Prop
  | .receiveAgentResult .. | .recover .. => False
  | _ => True

end Core

end ArgentTeam
