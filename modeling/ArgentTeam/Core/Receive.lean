import ArgentTeam.Core.Tasks
import ArgentTeam.Core.Dispatch

/-!
# Results

`receive_agent_result`: a completion event names a dispatch and carries a result. What
does not fit the dispatch – its identity, its binding, the current run, role and
handoff – is quarantined and refused without an exception. A result that fits and that
the validator accepts is consumed, and in the same transaction its effects are applied:
findings, the decision of a lead, test runs, a review; the role run ends, a handoff to
the next role is recorded, and the state of the task follows.
-/

namespace ArgentTeam

open Prog Store

namespace Core

/-! ### Refusing -/

/-- What `receive_agent_result` returns. -/
structure ReceiveResult where
  dispatchId : String
  /-- `consumed`, `duplicate`, `rejected` or `unknown`. -/
  status : String
  reason : Option String
  deriving DecidableEq

/-- `str(value)`. -/
def strOf (cfg : Config) : Json → PyStr
  | .str s => s
  | v => cfg.str v

/-- One value of the sanitized metadata: a text of at most 512 characters, replaced by
its digest where it holds a deny-listed word. -/
def cleanMeta (cfg : Config) (value : Json) : Cmd Json := do
  let s : PyStr := (if value = .null then PyStr.ofString "<none>" else strOf cfg value).take 512
  if containsDenylisted s = none then pure (.str s)
  else do
    let utf8 ← orRaise s.encode? (.error .unicodeEncodeError "surrogates not allowed" [])
    pure (.text ("<redacted:" ++ cfg.digest12 utf8 ++ ">"))

/-- `_sanitize_event_meta`, keys sorted. -/
def sanitizeEventMeta (cfg : Config) : Json → Cmd Json
  | .obj fields => do
    let session ← cleanMeta cfg (Json.getD fields "child_session_id" .null)
    let run ← cleanMeta cfg (Json.getD fields "run_id" .null)
    let type ← cleanMeta cfg (Json.getD fields "event_type" .null)
    let status ← cleanMeta cfg (Json.getD fields "status" .null)
    pure (.dict [("event_type", type), ("run_id", run), ("session_key", session),
      ("status", status)])
  | _ => pure (.obj [])

def quarantine (cfg : Config) (taskId : Json) (dispatchId reason : String) (eventMeta : Json) :
    Cmd Unit := do
  let id ← uuid4
  let cleaned ← sanitizeEventMeta cfg eventMeta
  let _ ← nowIso
  insertQuarantine ⟨id, taskId, dispatchId, reason, cleaned⟩

/-- Quarantine a result and report the refusal, `_quarantine` and `_emit_rejected`. -/
def refuse (cfg : Config) (taskId : Json) (dispatchId reason status : String)
    (eventMeta : Json) : Cmd ReceiveResult := do
  quarantine cfg taskId dispatchId reason eventMeta
  emit "agent.result_rejected" taskId none none
    (.dict [("reason", .text reason), ("dispatch_id", .text dispatchId)])
  pure ⟨dispatchId, status, some reason⟩

/-- A duplicate: the result of this very run has been consumed already. -/
def acceptDuplicate (taskId : Uuid) (dispatchId : String) : Cmd ReceiveResult := do
  emitTask "agent.result_duplicate" taskId [("dispatch_id", .text dispatchId)]
  pure ⟨dispatchId, "duplicate", none⟩

/-! ### The checks -/

def eventMetaMismatch (d : AgentDispatch) : Json → Option String
  | .obj fields =>
    if ["task_id", "child_session_id", "run_id", "parent_dispatch_id", "event_type",
        "status"].any fun key => !Json.has fields key then some "missing_metadata"
    else if Json.get? fields "task_id" ≠ some (.text d.taskId.text) then some "task_mismatch"
    else if Json.get? fields "child_session_id" ≠ some (.optText d.childSessionId) then
      some "session_mismatch"
    else if Json.get? fields "run_id" ≠ some (.optText d.openclawRunId) then
      some "run_id_mismatch"
    else if Json.get? fields "parent_dispatch_id" ≠
        some (.optText (d.parentDispatchId.map Uuid.text)) then some "parent_mismatch"
    else if Json.get? fields "status" ≠ some (.text "completed") ∧
        Json.get? fields "status" ≠ some (.text "succeeded") then some "invalid_status"
    else none
  | _ => some "missing_metadata"

def resultEnvelopeMismatch (d : AgentDispatch) : Json → Option String
  | .obj fields =>
    if Json.get? fields "task_id" ≠ some (.text d.taskId.text) then some "task_mismatch"
    else if Json.get? fields "dispatch_id" ≠ some (.text d.id.text) then
      some "dispatch_mismatch"
    else if Json.get? fields "role" ≠ some (.text d.role.value) then some "role_mismatch"
    else none
  | _ => some "malformed_output"

def modelMismatch (d : AgentDispatch) : Option String :=
  if d.actualProvider ≠ some d.expectedAgentClass then some "provider_mismatch"
  else if d.actualModel ≠ some d.expectedModelClass then some "model_mismatch"
  else if d.thinkingTier ≠ some d.expectedThinkingTier then some "thinking_mismatch"
  else none

/-- The reason a result that is not a duplicate is refused for, if there is one: status,
identity, binding, run, role, handoff and state, in this order. -/
def refusal (db : Db) (d : AgentDispatch) (eventMeta result : Json) : Option String :=
  if d.status = .failed ∨ d.status = .rejected ∨ d.status = .quarantined then
    some "stale_dispatch"
  else if d.status = .pending then some "pending_injection"
  else (eventMetaMismatch d eventMeta).or <| (resultEnvelopeMismatch d result).or <|
    (modelMismatch d).or <|
    if d.childSessionId = none ∨ d.openclawRunId = none then some "not_bound"
    else if (db.getLatestTaskRun d.taskId).map TaskRun.id ≠ some d.taskRunId then
      some "stale_run"
    else if (db.getActiveRoleRun d.taskId).map RoleRun.role ≠ some d.role then
      some "role_mismatch"
    else if d.handoffId ≠ (db.getLatestHandoff d.taskId).map Handoff.id then
      some "handoff_mismatch"
    else if ((db.getTask d.taskId.text).elim true fun t => t.state.isTerminal) = true then
      some "task_ended"
    else none

/-! ### The effects of a result -/

/-- A text a database has to store. -/
def storable (s : PyStr) : Cmd String :=
  orRaise s.encode? (.error .unicodeEncodeError "surrogates not allowed" [])

/-- The finding an accepted or rejected identifier names. -/
def namedFinding (fid : Json) : Cmd (Option Finding) := match fid with
  | .str s => do
    let id ← storable s
    read fun w => w.db.getFinding id
  | v => do
    require (v.bindable = true) (.error .interfaceError "Error binding parameter" [])
    pure none

/-- `_validate_effect_bindings`: the findings a result names belong to the task. -/
def validateEffectBindings (taskId : Uuid) (fields : List (PyStr × Json)) : Cmd Unit :=
  forEach (fun field => forEach (fun fid => do
      let f ← namedFinding fid
      require (f.map Finding.taskId = some taskId)
        (.error .dispatchError "finding %r does not belong to task %r" [taskId.text]))
    (Json.getD fields field .null).elems) ["accepted_findings", "rejected_findings"]

/-- The description of a finding: its title where it has none. -/
def findingDescription (cfg : Config) (f : List (PyStr × Json)) : PyStr :=
  match (Json.get? f "description").filter Json.truthy,
      (Json.get? f "title").filter Json.truthy with
  | some v, _ => strOf cfg v
  | none, some v => strOf cfg v
  | none, none => []

/-- The effect of one finding of a result; what is no dictionary is skipped. -/
def recordFinding (cfg : Config) (taskId : Uuid) : Json → Cmd Unit
  | .obj f => do
    let fid ← uuid4
    let severity ← storable (strOf cfg (Json.getD f "severity" (.text "medium")))
    let description ← storable (findingDescription cfg f)
    insertFinding ⟨fid, taskId, severity, description, .opened, .agent⟩
    emitTask "finding.created" taskId
      [("finding_id", .text fid.text), ("severity", .text severity)]
  | _ => pure ()

/-- Resolve a finding the lead has accepted, if it is open. -/
def resolveAccepted (taskId : Uuid) (fid : Json) : Cmd Unit := do
  let f ← namedFinding fid
  whenSome (f.filter fun f => f.status = .opened) fun f => do
    let _ ← updateFindingStatus f.id .resolved
    emitTask "finding.resolved" taskId [("finding_id", fid)]

/-- The detail of a lead's decision, keys sorted. -/
def decisionDetail (d : AgentDispatch) (fields : List (PyStr × Json)) : List (PyStr × Json) :=
  [(PyStr.ofString "accepted_findings", (Json.getD fields "accepted_findings" (.arr [])).sorted),
    (PyStr.ofString "cycle_no", .int d.cycleNo),
    (PyStr.ofString "position", .int d.position),
    (PyStr.ofString "rationale", (Json.getD fields "rationale" (.text "")).sorted),
    (PyStr.ofString "rejected_findings",
      (Json.getD fields "rejected_findings" (.arr [])).sorted),
    (PyStr.ofString "rework_include_reviewer",
      (Json.getD fields "rework_include_reviewer" .null).sorted)]

def resultDecision (fields : List (PyStr × Json)) : Option String :=
  match Json.get? fields "decision" with
  | some (.str s) => s.encode?
  | _ => none

/-- The effects of a lead's result: the decision, and on `accept` the accepted findings
are resolved. -/
def leadEffects (d : AgentDispatch) (fields : List (PyStr × Json)) : Cmd Unit := do
  let decision ← orRaise (resultDecision fields) (.error .typeError "decision" [])
  let did ← uuid4
  insertDecision ⟨did, d.taskId, decision, some (some (.obj (decisionDetail d fields)))⟩
  emitTask "lead.decision" d.taskId
    [("decision_id", .text did.text), ("decision", .text decision)]
  onlyIf (decision = "accept")
    (forEach (resolveAccepted d.taskId) (Json.getD fields "accepted_findings" (.arr [])).elems)

/-- The name and the result of a test. -/
def testFields (cfg : Config) : Json → PyStr × PyStr
  | .obj t => (strOf cfg (Json.getD t "name" (.text "")),
      strOf cfg (Json.getD t "result" (.text "passed")))
  | .str s => ([], s)
  | _ => ([], PyStr.ofString "passed")

def coerceResult (s : PyStr) : Option TestResult :=
  if s = PyStr.ofString "passed" then some .passed
  else if s = PyStr.ofString "failed" then some .failed
  else none

/-- The effect of one test of a result. -/
def recordTest (cfg : Config) (taskId : Uuid) (t : Json) : Cmd Unit := do
  let rid ← uuid4
  let result ← orRaise (coerceResult (testFields cfg t).2)
    (.error .valueError "%r is not a valid TestResult" [])
  let name ← storable (testFields cfg t).1
  insertTestRun ⟨rid, taskId, result, if name = "" then none else some name, .agent⟩
  emitTask "test.started" taskId [("test_run_id", .text rid.text)]
  emitTask "test.completed" taskId
    [("test_run_id", .text rid.text), ("result", .text result.value)]

/-- The detail of a review, keys sorted. -/
def reviewDetail (recommendation : PyStr) (fields : List (PyStr × Json)) : Json :=
  .dict [("architecture_findings", (Json.getD fields "architecture_findings" (.arr [])).sorted),
    ("recommendation", .str recommendation),
    ("security_findings", (Json.getD fields "security_findings" (.arr [])).sorted),
    ("severity", (Json.getD fields "severity" (.text "")).sorted)]

def reviewEffects (cfg : Config) (d : AgentDispatch) (fields : List (PyStr × Json)) :
    Cmd Unit := do
  let rid ← uuid4
  let recommendation := strOf cfg (Json.getD fields "recommendation" (.text ""))
  let verdict := canonicalReviewVerdict recommendation
  insertReview ⟨rid, d.taskId, verdict, some (some (reviewDetail recommendation fields)), .agent⟩
  emitTask "review.started" d.taskId [("review_id", .text rid.text)]
  emitTask "review.completed" d.taskId
    [("review_id", .text rid.text), ("verdict", .text verdict)]

/-- The effects of a result that depend on the role. -/
def sectionEffects (cfg : Config) (d : AgentDispatch) (fields : List (PyStr × Json)) : Cmd Unit :=
  match d.role with
  | .lead => leadEffects d fields
  | .qa => forEach (recordTest cfg d.taskId) (Json.getD fields "tests" (.arr [])).elems
  | .reviewer => reviewEffects cfg d fields
  | .analyst | .implementer => pure ()

def applyRoleEffects (cfg : Config) (d : AgentDispatch) (fields : List (PyStr × Json)) :
    Cmd Unit := do
  let _ ← nowIso
  forEach (recordFinding cfg d.taskId) (Json.getD fields "findings" .null).elems
  sectionEffects cfg d fields

def completeActiveRole (d : AgentDispatch) : Cmd Unit :=
  endActiveRole d .completed "role.completed" []

/-- `_sequence_handoff`: a handoff to the role the frontier expects next. -/
def sequenceHandoff (d : AgentDispatch) : Cmd Unit := do
  let next ← read fun w => (workflowFrontier w.db d.taskId).expectedRole
  whenSome next fun role => do
    let _ ← nowIso
    insertNewHandoff d.taskId d.role role
    emitHandoff "handoff.created" d.taskId d.role role
    emitHandoff "handoff.accepted" d.taskId d.role role

/-! ### The state follows -/

/-- The step of the standard sequence at each position. -/
def standardStep : ℕ → List (TaskState × TaskState)
  | 0 => [(.new, .planning)]
  | 1 => [(.planning, .analyzing)]
  | 2 => [(.analyzing, .leadDecision)]
  | 3 => [(.leadDecision, .implementing)]
  | 4 => [(.implementing, .testing)]
  | 5 => [(.testing, .reviewing)]
  | 6 => [(.reviewing, .finalDecision)]
  | _ => []

/-- The step of a rework cycle: by role, since the positions vary with the reviewer. The
final lead passes through `REVIEWING` where the reviewer was left out. -/
def reworkStep (role : Role) (position : ℕ) (current : TaskState) :
    List (TaskState × TaskState) :=
  match role with
  | .implementer => [(.rework, .implementing)]
  | .qa => [(.implementing, .testing)]
  | .reviewer => [(.testing, .reviewing)]
  | .lead =>
    if position = 0 then []
    else if current = .reviewing then [(.reviewing, .finalDecision)]
    else if current = .testing then [(.testing, .reviewing), (.reviewing, .finalDecision)]
    else []
  | .analyst => []

def finalStep (decision : Option String) : List (TaskState × TaskState) :=
  if decision = some "accept" then [(.finalDecision, .done)]
  else if decision = some "rework" then [(.finalDecision, .rework)]
  else if decision = some "cancel" then [(.finalDecision, .cancelled)]
  else []

/-- The step of a lead's decision. At the first position of the standard sequence only
a rework decision has one. -/
def leadStep (kind : SequenceKind) (position : ℕ) (decision : Option String) :
    List (TaskState × TaskState) :=
  match kind with
  | .standard =>
    if position = 0 ∧ decision = some "rework" then [(.planning, .rework)]
    else if position = 2 then
      if decision = some "rework" then [(.leadDecision, .rework)]
      else if decision = some "cancel" then [(.leadDecision, .cancelled)]
      else []
    else if position = 6 then finalStep decision
    else []
  | .rework =>
    if 0 < position then finalStep decision
    else if decision = some "cancel" then [(.rework, .cancelled)]
    else []

/-- `_state_sync_plan`: the steps the state of the task takes when a dispatch is
consumed. -/
def stateSyncPlan (d : AgentDispatch) (decision : Option String) (current : TaskState) :
    List (TaskState × TaskState) :=
  (match d.sequenceKind with
    | .standard => standardStep d.position
    | .rework => reworkStep d.role d.position current) ++
  (if d.role = .lead then leadStep d.sequenceKind d.position decision else [])

/-- One step of the plan, on the current state of the task. -/
def syncStep (taskId : Uuid) (step : TaskState × TaskState) : Cmd Unit := do
  let current ← theTask taskId.text
  require (current.state = step.1)
    (.error .invalidTransition "expected task state %s for state sync, got %s"
      [step.1.value, current.state.value])
  validateTransition current.state step.2 current.resumeState
  applyTransition current step.2 none

/-- A task that was parked in `RECOVERING` goes back to where it was. -/
def leaveRecovery (task : Task) : Cmd Unit :=
  onlyIf (task.state = .recovering) do
    let rs ← orRaise task.resumeState
      (.error .invalidTransition "RECOVERING without a resume_state" [])
    validateTransition task.state rs (some rs)
    applyTransition task rs none

def applyStateSync (d : AgentDispatch) (decision : Option String) : Cmd Unit := do
  let task ← theTask d.taskId.text
  leaveRecovery task
  let current ← theTask d.taskId.text
  forEach (syncStep d.taskId) (stateSyncPlan d decision current.state)

/-! ### Receiving -/

/-- What follows the consumption of a result. -/
def consumeEffects (cfg : Config) (d : AgentDispatch) (fields : List (PyStr × Json)) :
    Cmd Unit := do
  applyRoleEffects cfg d fields
  completeActiveRole d
  sequenceHandoff d

/-- Consume an accepted result. -/
def consumeWork (cfg : Config) (d : AgentDispatch) (dispatchId : String)
    (out : RoleOutput d.role) : Cmd ReceiveResult := do
  validateEffectBindings d.taskId out.fields
  let _ ← nowIso
  let rc ← consumeDispatch d.id (Json.obj out.fields).sorted
  if rc ≠ 1 then acceptDuplicate d.taskId dispatchId
  else do
    emitRole "agent.result_received" d.taskId d.role [("dispatch_id", .text dispatchId)]
    consumeEffects cfg d out.fields
    applyStateSync d (resultDecision out.fields)
    emitRole "agent.result_accepted" d.taskId d.role [("dispatch_id", .text dispatchId)]
    emitRole "agent.completed" d.taskId d.role [("dispatch_id", .text dispatchId)]
    pure ⟨dispatchId, "consumed", none⟩

/-- A result for a dispatch that has been consumed: the duplicate of a run is accepted,
anything else is refused. -/
def receiveConsumed (cfg : Config) (d : AgentDispatch) (dispatchId : String) (eventMeta : Json) :
    Cmd ReceiveResult :=
  caseSome (eventMetaMismatch d eventMeta)
    (fun reason => refuse cfg (.text d.taskId.text) dispatchId reason "rejected" eventMeta)
    (acceptDuplicate d.taskId dispatchId)

/-- A result for a dispatch that has not been consumed. -/
def receiveOpen (cfg : Config) (d : AgentDispatch) (dispatchId : String)
    (eventMeta result : Json) : Cmd ReceiveResult := do
  let reason ← read fun w => refusal w.db d eventMeta result
  caseSome reason
    (fun reason => refuse cfg (.text d.taskId.text) dispatchId reason "rejected" eventMeta)
    (match Outputs.accept d.role result with
      | .ok out => consumeWork cfg d dispatchId out
      | .error (.error .outputValidationError _ _) => do
        let _ ← nowIso
        let _ ← updateDispatchStatus d.id .rejected
        refuse cfg (.text d.taskId.text) dispatchId "malformed_output" "rejected" eventMeta
      | .error e => raise e)

def claimedTask : Json → Json
  | .obj fields => Json.getD fields "task_id" .null
  | _ => .null

def receiveWork (cfg : Config) (dispatchId : String) (eventMeta result : Json) :
    Cmd ReceiveResult := do
  let d ← read fun w => w.db.getDispatch dispatchId
  caseSome d
    (fun d =>
      if d.status = .consumed then receiveConsumed cfg d dispatchId eventMeta
      else receiveOpen cfg d dispatchId eventMeta result)
    (refuse cfg (claimedTask eventMeta) dispatchId "dispatch_unknown" "unknown" eventMeta)

/-- The answer to a repeated key. -/
def receiveAgain (dispatchId : String) : Cmd ReceiveResult := do
  let d ← read fun w => w.db.getDispatch dispatchId
  pure ⟨dispatchId,
    if d.map AgentDispatch.status = some .consumed then "duplicate" else "rejected", none⟩

def receiveAgentResult (cfg : Config) (dispatchId : String) (eventMeta result : Json)
    (source : String) (key : Option String) : Cmd ReceiveResult := do
  requireController source
  idempotent key "receive_agent_result"
    (.dict [("dispatch_id", .text dispatchId), ("event_meta", eventMeta), ("result", result),
      ("source", .text source)])
    (do
      let r ← receiveWork cfg dispatchId eventMeta result
      pure (r, dispatchId))
    (fun _ => receiveAgain dispatchId)

/-! ### What this command moves -/

section Moves

variable {τ : Type} {π : World → τ} {Q : τ → τ → Prop} [OffReports π] [Std.Refl Q] [IsTrans τ Q]
  {cfg : Config} {taskId : Uuid} {claimed value eventMeta result : Json} {d : AgentDispatch}
  {dispatchId reason status source : String} {fields : List (PyStr × Json)} {key : Option String}

set_option synthInstance.maxSize 10000

attribute [local instance] moves_steps

instance : Moves π Q (cleanMeta cfg value) := by
  unfold cleanMeta
  extract_lets s
  split
  · infer_instance
  · exact moves_bind inferInstance fun _ => inferInstance

instance : Moves π Q (sanitizeEventMeta cfg eventMeta) := by
  unfold sanitizeEventMeta
  split <;> infer_instance

instance : Moves π Q (refuse cfg claimed dispatchId reason status eventMeta) := by
  unfold refuse quarantine
  infer_instance

instance : Moves π Q (acceptDuplicate taskId dispatchId) := moves_bind inferInstance fun _ =>
  inferInstance

instance {s : PyStr} : Moves π Q (storable s) := by
  unfold storable
  infer_instance

instance : Moves π Q (namedFinding value) := by
  unfold namedFinding
  split <;> infer_instance

instance : Moves π Q (validateEffectBindings taskId fields) :=
  moves_forEach fun _ => moves_forEach fun _ => moves_bind inferInstance fun _ => inferInstance

instance [∀ f, Moves π Q (insertFinding f)] : Moves π Q (recordFinding cfg taskId value) := by
  unfold recordFinding
  split <;> infer_instance

instance [∀ id s, Moves π Q (updateFindingStatus id s)] :
    Moves π Q (resolveAccepted taskId value) := by
  unfold resolveAccepted
  infer_instance

instance [∀ d, Moves π Q (insertDecision d)] [∀ id s, Moves π Q (updateFindingStatus id s)] :
    Moves π Q (leadEffects d fields) := by
  unfold leadEffects
  infer_instance

instance [∀ r, Moves π Q (insertTestRun r)] : Moves π Q (recordTest cfg taskId value) := by
  unfold recordTest
  infer_instance

instance [∀ r, Moves π Q (insertReview r)] : Moves π Q (reviewEffects cfg d fields) := by
  unfold reviewEffects
  infer_instance

instance [∀ d, Moves π Q (insertDecision d)] [∀ id s, Moves π Q (updateFindingStatus id s)]
    [∀ r, Moves π Q (insertTestRun r)] [∀ r, Moves π Q (insertReview r)] :
    Moves π Q (sectionEffects cfg d fields) := by
  unfold sectionEffects
  split <;> infer_instance

instance [∀ f, Moves π Q (insertFinding f)] [∀ d, Moves π Q (insertDecision d)]
    [∀ id s, Moves π Q (updateFindingStatus id s)] [∀ r, Moves π Q (insertTestRun r)]
    [∀ r, Moves π Q (insertReview r)] : Moves π Q (applyRoleEffects cfg d fields) := by
  unfold applyRoleEffects
  infer_instance

instance [∀ id, Moves π Q (updateRoleRunStatus id .completed)] :
    Moves π Q (completeActiveRole d) := by
  unfold completeActiveRole
  infer_instance

instance : Moves π Q (sequenceHandoff d) := by
  unfold sequenceHandoff
  infer_instance

instance [∀ f, Moves π Q (insertFinding f)] [∀ d, Moves π Q (insertDecision d)]
    [∀ id s, Moves π Q (updateFindingStatus id s)] [∀ r, Moves π Q (insertTestRun r)]
    [∀ r, Moves π Q (insertReview r)] [∀ id, Moves π Q (updateRoleRunStatus id .completed)] :
    Moves π Q (consumeEffects cfg d fields) :=
  moves_bind inferInstance fun _ => moves_bind inferInstance fun _ => inferInstance

section State

variable [∀ id s r, Moves π Q (updateTaskState id s r)]

instance {step : TaskState × TaskState} : Moves π Q (syncStep taskId step) := by
  unfold syncStep
  infer_instance

instance {task : Task} : Moves π Q (leaveRecovery task) :=
  moves_onlyIf <| moves_bind inferInstance fun _ => moves_bind inferInstance fun _ => inferInstance

instance {decision : Option String} : Moves π Q (applyStateSync d decision) := by
  unfold applyStateSync
  infer_instance

end State

/-- Consuming a result moves what its consumption, its effects and the state that
follows them move. -/
theorem moves_consumeWork {out : RoleOutput d.role}
    (hconsume : ∀ r, Moves π Q (consumeDispatch d.id r))
    (heffects : ∀ fields, Moves π Q (consumeEffects cfg d fields))
    (hsync : ∀ decision, Moves π Q (applyStateSync d decision)) :
    Moves π Q (consumeWork cfg d dispatchId out) := by
  unfold consumeWork
  refine moves_bind inferInstance fun _ => moves_bind inferInstance fun _ =>
    moves_bind (hconsume _) fun rc => ?_
  split <;> infer_instance

instance : Moves π Q (receiveConsumed cfg d dispatchId eventMeta) :=
  moves_caseSome (fun _ => inferInstance) inferInstance

theorem moves_receiveOpen [∀ id, Moves π Q (updateDispatchStatus id .rejected)]
    (hwork : ∀ out, Moves π Q (consumeWork cfg d dispatchId out)) :
    Moves π Q (receiveOpen cfg d dispatchId eventMeta result) := by
  unfold receiveOpen
  refine moves_bind inferInstance fun reason => moves_caseSome (fun _ => inferInstance) ?_
  split
  · exact hwork _
  · exact moves_bind inferInstance fun _ => moves_bind inferInstance fun _ => inferInstance
  · infer_instance

theorem moves_receiveWork
    (hopen : ∀ d, Moves π Q (receiveOpen cfg d dispatchId eventMeta result)) :
    Moves π Q (receiveWork cfg dispatchId eventMeta result) :=
  moves_bind inferInstance fun _ => moves_caseSome (fun _ => inferInstance) inferInstance

instance : Moves π Q (receiveAgain dispatchId) := moves_bind inferInstance fun _ => inferInstance

theorem moves_receiveAgentResult [∀ r, Moves π Q (setCommandIdempotency r)]
    (hwork : Moves π Q (receiveWork cfg dispatchId eventMeta result)) :
    Moves π Q (receiveAgentResult cfg dispatchId eventMeta result source key) :=
  moves_bind inferInstance fun _ =>
    moves_idempotent (moves_bind hwork fun _ => inferInstance) fun _ => inferInstance

instance [∀ r, Moves π Q (setCommandIdempotency r)] [∀ f, Moves π Q (insertFinding f)]
    [∀ d, Moves π Q (insertDecision d)] [∀ id s, Moves π Q (updateFindingStatus id s)]
    [∀ r, Moves π Q (insertTestRun r)] [∀ r, Moves π Q (insertReview r)]
    [∀ id, Moves π Q (updateRoleRunStatus id .completed)]
    [∀ id s r, Moves π Q (updateTaskState id s r)]
    [∀ id, Moves π Q (updateDispatchStatus id .rejected)]
    [∀ id r, Moves π Q (consumeDispatch id r)] :
    Moves π Q (receiveAgentResult cfg dispatchId eventMeta result source key) :=
  moves_receiveAgentResult <| moves_receiveWork fun _ => moves_receiveOpen fun _ =>
    moves_consumeWork (fun _ => inferInstance) (fun _ => inferInstance) fun _ => inferInstance

end Moves

end Core

end ArgentTeam
