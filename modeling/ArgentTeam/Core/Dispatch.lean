import ArgentTeam.Core.Basics

/-!
# Dispatches

The controller's commands that open and close a dispatch without a result: the creation
of a dispatch at the workflow frontier, its binding to the session that was spawned for
it, and its failure.

Two things these commands consult lie outside of the core: the registry of models, and
the consistency check of a routing decision. Both are asked before anything is written,
and both are parameters of the model (`Config`), next to what the sanitizing of event
metadata needs of the Python library.
-/

namespace ArgentTeam

open Prog Store

structure Config where
  /-- `ModelRegistry.validate_identity`: the error of a provider, model and thinking
  tier that may not be dispatched. -/
  validateIdentity : String → String → Option String → Option Error
  /-- `_validate_routing_decision`: the error of an inconsistent decision. -/
  validateRouting : RoutingRecord → String → Role → Option Error
  /-- `str` of a value that is neither a string nor `None`. -/
  str : Json → PyStr
  digest12 : String → String

/-- A configuration that refuses nothing, for concrete runs. -/
def Config.lenient : Config := ⟨fun _ _ _ => none, fun _ _ _ => none, fun _ => [], fun _ => ""⟩

namespace Core

def workflowFrontier (db : Db) (taskId : Uuid) : Workflow.Frontier :=
  Workflow.frontier (db.listDispatches taskId) (db.listDecisions taskId)
    ((db.listFindings taskId).any fun f => f.status = .opened)

/-! ### Creation -/

/-- A choice of provider, model and thinking tier. -/
structure ModelChoice where
  provider : Option String
  model : Option String
  thinkingTier : Option String

def ModelChoice.toJson (c : ModelChoice) : Json :=
  .dict [("provider", .optText c.provider), ("model", .optText c.model),
    ("thinking_tier", .optText c.thinkingTier)]

/-- `RoutingDecision.thinking_tier`: the reasoning level in lower case. -/
def thinkingTier (r : RoutingRecord) : Option String :=
  r.reasoningLevel.bind fun level => (PyStr.ofString level).lower.encode?

/-- A violation of the role policy: the event is recorded outside of any transaction,
before the error. -/
def violation (taskId : String) (role : Role) (reason text : String) (values : List String) :
    Cmd Unit := do
  emit "policy.role_violation" (.text taskId) (some role.value) none
    (.dict [("reason", .text reason)])
  raise (.error .rolePolicyViolation text values)

/-- The identity a dispatch is created with: that of the routing decision, of the model
choice, or of the routing table. -/
def dispatchIdentity (task : Task) (role : Role) (choice : Option ModelChoice)
    (routing : Option RoutingRecord) : ModelChoice :=
  match choice, routing with
  | some c, _ => c
  | none, some r => ⟨r.provider, r.model, thinkingTier r⟩
  | none, none =>
    let (provider, model, thinking) := resolveModel role task.riskClass
    ⟨some provider, some model, some thinking⟩

/-- The checks of an identity: a routing decision has to name one, and anything else has
to pass the role policy. -/
def checkIdentity (taskId : String) (task : Task) (role : Role) (routing : Option RoutingRecord)
    (identity : ModelChoice) : Cmd Unit :=
  caseSome routing
    (fun _ => onlyIf
      (identity.provider = none ∨ identity.model = none ∨ identity.thinkingTier = none)
      (violation taskId role "router_decision_terminal"
        "router decision for %s has no dispatch identity" [role.value]))
    (onlyIf (validateModelChoice role identity.provider identity.model identity.thinkingTier
        task.riskClass = false)
      (violation taskId role "model_choice" "invalid model choice for %s: %s/%s/%s"
        [role.value, identity.provider.getD "None", identity.model.getD "None",
          identity.thinkingTier.getD "None"]))

/-- The work of `create_dispatch`. -/
def createDispatchWork (cfg : Config) (taskId taskRunId : String) (role : Role)
    (position cycleNo : ℕ) (kind : SequenceKind) (parent : Option String)
    (routing : Option RoutingRecord) (identity : ModelChoice) :
    Cmd (Option AgentDispatch × String) := do
  let task ← theTask taskId
  let active ← read fun w => w.db.getActiveRoleRun task.id
  require (active.map RoleRun.role = some role)
    (.error .permissionDenied "task %r has no active %s role run" [taskId, role.value])
  require (task.state.isTerminal = false ∧ task.state.isPause = false)
    (.error .invalidTransition "cannot dispatch from state %s" [task.state.value])
  let frontier ← read fun w => workflowFrontier w.db task.id
  require (frontier.expectedRole = some role)
    (.error .roleConflict "expected next role is %r, got %r"
      [frontier.expectedRole.elim "None" Role.value, role.value])
  require (cycleNo = frontier.cycleNo ∧ position = frontier.position ∧
      kind = frontier.sequenceKind)
    (.error .dispatchError "dispatch position/cycle/kind does not match workflow frontier" [])
  let dispatches ← read fun w => w.db.listDispatches task.id
  require ((dispatches.any fun d => d.status.active) = false)
    (.error .dispatchError "task already has an active dispatch" [])
  let run ← read fun w => (w.db.getTaskRun taskRunId).filter fun r => r.taskId = task.id
  let run ← orRaise run
    (.error .dispatchError "task_run %r does not belong to task %r" [taskRunId, taskId])
  let parentRow ← read fun w => parent.bind w.db.getDispatch
  require (parent.isSome = parentRow.isSome)
    (.error .dispatchError "parent dispatch %r does not exist" [parent.getD ""])
  let handoff ← read fun w => w.db.getLatestHandoff task.id
  let provider ← orRaise identity.provider (.error .modelRegistryError "unknown provider" [])
  let model ← orRaise identity.model (.error .modelRegistryError "unknown model" [])
  whenSome (cfg.validateIdentity provider model identity.thinkingTier) raise
  whenSome routing fun r => do
    let _ ← nowIso
    insertRoutingDecision r
  let did ← uuid4
  let _ ← nowIso
  let thinking ← orRaise identity.thinkingTier integrityError
  require ((routing.elim 0 RoutingRecord.escalationLevel) ≤ 4) integrityError
  let d : AgentDispatch := {
    id := did, taskId := task.id, taskRunId := run.id, role,
    parentDispatchId := parentRow.map AgentDispatch.id, expectedAgentClass := provider,
    expectedModelClass := model, expectedThinkingTier := thinking, childSessionId := none,
    openclawRunId := none, actualProvider := none, actualModel := none, thinkingTier := none,
    status := .pending, cycleNo, position, sequenceKind := kind,
    attemptNo := (dispatches.filter fun d => d.cycleNo = cycleNo && d.position = position).length
      + 1,
    handoffId := handoff.map Handoff.id, result := none,
    routingDecisionId := routing.map RoutingRecord.decisionId,
    escalationLevel := routing.elim 0 RoutingRecord.escalationLevel,
    routingReasonCode := routing.map RoutingRecord.decisionReasonCode }
  insertDispatch d
  emitRole "agent.dispatch_created" task.id role
    [("dispatch_id", .text did.text), ("position", .int position), ("cycle_no", .int cycleNo)]
  emitRole "handoff.expected" task.id role [("dispatch_id", .text did.text)]
  pure (some d, did.text)

def createDispatch (cfg : Config) (taskId taskRunId : String) (role : Role)
    (position cycleNo : ℕ) (kind : SequenceKind) (choice : Option ModelChoice) (source : String)
    (parent key : Option String) (routing : Option RoutingRecord) :
    Cmd (Option AgentDispatch) := do
  requireController source
  whenSome routing fun r => do
    onlyIf (choice.isSome = true)
      (violation taskId role "model_choice_and_decision"
        "model_choice and routing_decision are mutually exclusive" [])
    whenSome (cfg.validateRouting r taskId role) raise
  let task ← theTask taskId
  let identity := dispatchIdentity task role choice routing
  checkIdentity taskId task role routing identity
  idempotent key "create_dispatch"
    (.dict [("task_id", .text taskId), ("task_run_id", .text taskRunId),
      ("role", .text role.value), ("position", .int position), ("cycle_no", .int cycleNo),
      ("sequence_kind", .text kind.value),
      ("model_choice", choice.elim .null ModelChoice.toJson), ("source", .text source),
      ("parent_dispatch_id", .optText parent),
      ("routing_decision_id", .optText (routing.map RoutingRecord.decisionId))])
    (createDispatchWork cfg taskId taskRunId role position cycleNo kind parent routing identity)
    (refetch Db.getDispatch)

/-! ### Binding -/

/-- What a spawn reports: the session, the run, and the identity it runs with, as far as
it is known. -/
structure SpawnResult where
  childSessionId : String
  openclawRunId : String
  actualProvider : Option String
  actualModel : Option String
  thinkingTier : Option String

/-- The policy and the exact identity a spawn has to meet; a dispatch that a routing
decision authorised is exempt from the role policy. -/
def spawnAllowed (d : AgentDispatch) (task : Task) (s : SpawnResult) : Bool :=
  (d.routingDecisionId.isSome || validateModelChoice d.role s.actualProvider s.actualModel
    s.thinkingTier task.riskClass) &&
  (s.actualProvider = some d.expectedAgentClass && s.actualModel = some d.expectedModelClass &&
    s.thinkingTier = some d.expectedThinkingTier)

/-- Reject a dispatch whose spawn reported another identity. -/
def rejectSpawn (d : AgentDispatch) : Cmd Unit := do
  let rc ← rejectDispatchCas d.id
  require (rc = 1)
    (.error .dispatchError "dispatch %r could not be rejected (already bound)" [d.id.text])
  emitRole "policy.role_violation" d.taskId d.role [("reason", .text "model_mismatch")]

def bindSpawn (d : AgentDispatch) (s : SpawnResult) : Cmd Unit := do
  let _ ← nowIso
  let rc ← updateDispatchBind
    (.error .dispatchError "session/run already bound to another dispatch: %s" []) d.id
    s.childSessionId s.openclawRunId s.actualProvider s.actualModel s.thinkingTier
  require (rc = 1) (.error .dispatchError "dispatch %r could not be bound" [d.id.text])
  emitRole "agent.started" d.taskId d.role [("dispatch_id", .text d.id.text)]

/-- The error of a spawn with another identity than the dispatch expects. -/
def modelMismatchError (d : AgentDispatch) (s : SpawnResult) : Error :=
  .error .rolePolicyViolation "model mismatch for %s: %s/%s/%s"
    [d.role.value, s.actualProvider.getD "None", s.actualModel.getD "None",
      s.thinkingTier.getD "None"]

/-- The work of `bind_spawn_result`: bind, or reject and return the error to raise once
the rejection has been committed. -/
def bindSpawnResultWork (dispatchId : String) (s : SpawnResult) :
    Cmd ((Option Error × Option AgentDispatch) × String) := do
  let d ← theDispatch dispatchId
  require (d.status = .pending ∨ d.status = .recoveryPending)
    (.error .dispatchError "dispatch %r is not PENDING/RECOVERY_PENDING (%s)"
      [dispatchId, d.status.value])
  let task ← theTask d.taskId.text
  if spawnAllowed d task s = false then do
    rejectSpawn d
    pure ((some (modelMismatchError d s), none), dispatchId)
  else do
    bindSpawn d s
    let d ← read fun w => w.db.getDispatch dispatchId
    pure ((none, d), dispatchId)

/-- The transaction of `bind_spawn_result`. -/
def bindSpawnResultOnce (dispatchId : String) (s : SpawnResult) (source : String)
    (key : Option String) : Cmd (Option Error × Option AgentDispatch) :=
  idempotent key "bind_spawn_result"
    (.dict [("dispatch_id", .text dispatchId), ("child_session_id", .text s.childSessionId),
      ("openclaw_run_id", .text s.openclawRunId), ("actual_provider", .optText s.actualProvider),
      ("actual_model", .optText s.actualModel), ("thinking_tier", .optText s.thinkingTier),
      ("source", .text source)])
    (bindSpawnResultWork dispatchId s)
    (fun id => do
      let d ← refetch Db.getDispatch id
      pure (none, d))

/-- `bind_spawn_result`: the error of a rejected spawn is raised after the transaction. -/
def bindSpawnResult (dispatchId : String) (s : SpawnResult) (source : String)
    (key : Option String) : Cmd (Option AgentDispatch) := do
  requireController source
  let r ← bindSpawnResultOnce dispatchId s source key
  whenSome r.1 raise
  pure r.2

/-! ### Failure -/

def errorClassValues : List String :=
  ["NONE", "TRANSIENT", "DETERMINISTIC", "RESOURCE", "EXTERNAL", "SECURITY", "OWNER_REQUIRED",
    "CONTEXT", "PROVIDER"]

/-- End the active run of the dispatched role, if that role is active. -/
def endActiveRole (d : AgentDispatch) (status : RunStatus) (type : String)
    (payload : List (String × Json)) : Cmd Unit := do
  let active ← read fun w => (w.db.getActiveRoleRun d.taskId).filter fun r => r.role = d.role
  whenSome active fun rr => do
    let _ ← updateRoleRunStatus rr.id status
    emitRole type d.taskId d.role (("role", .text d.role.value) :: payload)

/-- The work of `mark_agent_failed`: the dispatch and its role run fail, and a handoff
back to the same role asks for another attempt. -/
def markAgentFailedWork (dispatchId reason : String) : Cmd (Option AgentDispatch × String) := do
  let d ← theDispatch dispatchId
  require (d.status = .running ∨ d.status = .recoveryPending)
    (.error .dispatchError "dispatch %r is not RUNNING/RECOVERY_PENDING (%s)"
      [dispatchId, d.status.value])
  let _ ← nowIso
  let _ ← updateDispatchStatus d.id .failed
  endActiveRole d .failed "role.failed" [("detail", .text "agent_failed")]
  insertNewHandoff d.taskId d.role d.role
  emitHandoff "handoff.created" d.taskId d.role d.role
  emitRole "agent.failed" d.taskId d.role
    [("dispatch_id", .text dispatchId), ("reason", .text reason)]
  let d ← read fun w => w.db.getDispatch dispatchId
  pure (d, dispatchId)

def markAgentFailed (dispatchId reason source : String) (key errorClass errorCode : Option String) :
    Cmd (Option AgentDispatch) := do
  requireController source
  require (∀ c ∈ errorClass, c ∈ errorClassValues)
    (.error .dispatchError "invalid error_class %r" (errorClass.elim [] fun c => [c]))
  idempotent key "mark_agent_failed"
    (.dict [("dispatch_id", .text dispatchId), ("reason", .text reason), ("source", .text source),
      ("error_class", .optText errorClass), ("error_code", .optText errorCode)])
    (markAgentFailedWork dispatchId reason) (refetch Db.getDispatch)

/-! ### What a binding does -/

section Binding

variable {w w' : World} {dispatchId source : String} {s : SpawnResult} {key : Option String}
  {d : AgentDispatch} {o : Option AgentDispatch} {id : String}

theorem eq_of_returns_refetch {α : Type} {find : Db → String → Option α} {o : Option α}
    (h : (refetch find id).Returns w o w') : w = w' := by
  simp only [refetch, returns_bind, returns_read, returns_require, returns_pure] at h
  obtain ⟨_, _, ⟨rfl, rfl⟩, -, _, ⟨-, rfl⟩, -, rfl⟩ := h
  rfl

theorem bindSpawnResultOnce_cases {r : Option Error × Option AgentDispatch}
    (h : (bindSpawnResultOnce dispatchId s source key).Returns w r w') :
    w'.db = w.db ∨ (recorded w.db key "bind_spawn_result" = none ∧
      ∃ r w₁, (bindSpawnResultWork dispatchId s).Returns w r w₁ ∧ w'.db.core = w₁.db.core) := by
  rcases returns_idempotent.mp h with ⟨rec, -, -, hagain⟩ | ⟨hrec, id, w₁, hwork, rfl⟩
  · simp only [returns_bind, returns_pure] at hagain
    obtain ⟨o', _, hfetch, -, rfl⟩ := hagain
    exact Or.inl (by rw [eq_of_returns_refetch hfetch])
  · exact Or.inr ⟨hrec, _, w₁, hwork, recordCommand_core⟩

/-- **What a binding leaves behind**: the database as it was, or, for a call from the
controller that is no replay, what its work made of it. -/
theorem bindSpawnResult_cases (w : World) (dispatchId : String) (s : SpawnResult) (source : String)
    (key : Option String) :
    (bindSpawnResult dispatchId s source key w).2.db = w.db ∨
    (source = roleSource .lead ∧ recorded w.db key "bind_spawn_result" = none ∧
      ∃ r w₁, (bindSpawnResultWork dispatchId s).Returns w r w₁ ∧
        (bindSpawnResult dispatchId s source key w).2.db.core = w₁.db.core) := by
  rcases returns_or_raises (bindSpawnResult dispatchId s source key) w with
    ⟨o, w', h⟩ | ⟨e, w', h⟩
  all_goals
    rw [h.snd_eq]
    unfold bindSpawnResult at h
  · simp only [returns_bind, returns_requireController, returns_whenSome, not_returns_raise,
      and_false, exists_false, false_or, returns_pure] at h
    obtain ⟨-, _, ⟨hsource, rfl⟩, r, w₁, hr, -, _, ⟨-, rfl⟩, -, rfl⟩ := h
    exact (bindSpawnResultOnce_cases hr).imp_right fun hr => ⟨hsource, hr⟩
  · simp only [raises_bind, returns_requireController, raises_whenSome, raises_raise,
      not_raises_pure, returns_whenSome, and_false, exists_false, or_false] at h
    rcases h with h | ⟨-, _, ⟨hsource, rfl⟩, h | ⟨r, w₁, hr, e', -, rfl, rfl⟩⟩
    · exact Or.inl (by rw [eq_of_raises_requireController h])
    · exact Or.inl (raises_idempotent h).1
    · exact (bindSpawnResultOnce_cases hr).imp_right fun hr => ⟨hsource, hr⟩

end Binding

/-! ### What these commands move -/

section Moves

variable {τ : Type} {π : World → τ} {Q : τ → τ → Prop} [OffReports π] [Std.Refl Q] [IsTrans τ Q]
  {cfg : Config} {taskId taskRunId dispatchId reason text type source : String} {task : Task}
  {role : Role} {position cycleNo : ℕ} {kind : SequenceKind} {choice : Option ModelChoice}
  {parent key errorClass errorCode : Option String} {routing : Option RoutingRecord}
  {identity : ModelChoice} {values : List String} {payload : List (String × Json)}
  {status : RunStatus} {d : AgentDispatch} {s : SpawnResult}

set_option synthInstance.maxSize 10000

attribute [local instance] moves_steps

instance : Moves π Q (violation taskId role reason text values) := moves_bind inferInstance fun _ =>
  inferInstance

instance : Moves π Q (checkIdentity taskId task role routing identity) :=
  moves_caseSome (fun _ => moves_onlyIf inferInstance) (moves_onlyIf inferInstance)

theorem moves_createDispatch [∀ r, Moves π Q (setCommandIdempotency r)]
    (hwork : ∀ identity, Moves π Q
      (createDispatchWork cfg taskId taskRunId role position cycleNo kind parent
        routing identity)) :
    Moves π Q (createDispatch cfg taskId taskRunId role position cycleNo kind choice source parent
      key routing) := by
  unfold createDispatch
  refine moves_bind inferInstance fun _ => moves_bind (moves_whenSome fun r => ?_) fun _ => ?_
  · exact moves_bind (moves_onlyIf inferInstance) fun _ => moves_whenSome fun _ => inferInstance
  · exact moves_bind inferInstance fun task => moves_bind inferInstance fun _ =>
      moves_idempotent (hwork _) fun _ => inferInstance

instance [∀ d, Moves π Q (insertDispatch d)] : Moves π Q
    (createDispatchWork cfg taskId taskRunId role position cycleNo kind parent routing
    identity) := by
  unfold createDispatchWork
  repeat' first | infer_instance | refine moves_bind ?_ fun _ => ?_

instance [∀ r, Moves π Q (setCommandIdempotency r)] [∀ d, Moves π Q (insertDispatch d)] :
    Moves π Q (createDispatch cfg taskId taskRunId role position cycleNo kind choice source parent
      key routing) :=
  moves_createDispatch fun _ => inferInstance

instance [∀ id, Moves π Q (rejectDispatchCas id)] : Moves π Q (rejectSpawn d) := by
  unfold rejectSpawn
  infer_instance

instance [∀ e id s r p m t, Moves π Q (updateDispatchBind e id s r p m t)] :
    Moves π Q (bindSpawn d s) := by
  unfold bindSpawn
  infer_instance

instance [∀ id, Moves π Q (rejectDispatchCas id)]
    [∀ e id s r p m t, Moves π Q (updateDispatchBind e id s r p m t)] :
    Moves π Q (bindSpawnResultWork dispatchId s) := by
  unfold bindSpawnResultWork
  refine moves_bind inferInstance fun d => moves_bind inferInstance fun _ =>
    moves_bind inferInstance fun task => ?_
  split <;> infer_instance

theorem moves_bindSpawnResult [∀ r, Moves π Q (setCommandIdempotency r)]
    (hwork : Moves π Q (bindSpawnResultWork dispatchId s)) :
    Moves π Q (bindSpawnResult dispatchId s source key) := by
  refine moves_bind inferInstance fun _ => moves_bind ?_ fun r =>
    moves_bind (moves_whenSome fun _ => inferInstance) fun _ => inferInstance
  unfold bindSpawnResultOnce
  exact moves_idempotent hwork fun _ => moves_bind inferInstance fun _ => inferInstance

instance [∀ r, Moves π Q (setCommandIdempotency r)] [∀ id, Moves π Q (rejectDispatchCas id)]
    [∀ e id s r p m t, Moves π Q (updateDispatchBind e id s r p m t)] :
    Moves π Q (bindSpawnResult dispatchId s source key) :=
  moves_bindSpawnResult inferInstance

instance [∀ id, Moves π Q (updateRoleRunStatus id status)] :
    Moves π Q (endActiveRole d status type payload) :=
  moves_bind inferInstance fun _ => moves_whenSome fun _ => moves_bind inferInstance fun _ =>
    inferInstance

instance [∀ id, Moves π Q (updateDispatchStatus id .failed)]
    [∀ id, Moves π Q (updateRoleRunStatus id .failed)] :
    Moves π Q (markAgentFailedWork dispatchId reason) := by
  unfold markAgentFailedWork
  infer_instance

instance [∀ r, Moves π Q (setCommandIdempotency r)]
    [∀ id, Moves π Q (updateDispatchStatus id .failed)]
    [∀ id, Moves π Q (updateRoleRunStatus id .failed)] :
    Moves π Q (markAgentFailed dispatchId reason source key errorClass errorCode) :=
  moves_bind inferInstance fun _ => moves_bind inferInstance fun _ =>
    moves_idempotent inferInstance fun _ => inferInstance

end Moves

end Core

end ArgentTeam
