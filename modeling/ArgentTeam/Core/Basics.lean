import ArgentTeam.Store
import ArgentTeam.StateMachine
import ArgentTeam.Workflow
import ArgentTeam.Policy
import ArgentTeam.Outputs

/-!
# What every command is made of

The helpers of `core.py`: the checks of source and role, the emission of events, the
application of a transition, the binding check of approvals, and the wrapper that runs
a command in one transaction and answers a repeated idempotency key from the record.

The last section says what these helpers move. A *view* of the world that depends on
the database alone, and not on the log, survives all of them; the commands of the
other modules inherit this by composition.
-/

namespace ArgentTeam

open Prog Store

namespace Core

/-! ### Sources and roles -/

/-- `_check_source`: the source has to be trusted. -/
def checkSource (source : String) : Cmd Unit :=
  require (isTrusted source = true)
    (.error .untrustedSource "untrusted source rejected: %r" [source])

/-- `_require_owner`: the source has to be the authenticated owner. -/
def requireOwner (source : String) : Cmd Unit := do
  checkSource source
  require (source = ownerSource)
    (.error .ownerAuthorityRequired "owner authority required, got %r" [source])

/-- `_require_controller`: the source has to be the lead. -/
def requireController (source : String) : Cmd Unit := do
  checkSource source
  require (source = roleSource .lead)
    (.error .permissionDenied "controller (role:lead) required, got %r" [source])

/-- The error of an operation asked for by another source than the role's. -/
def wrongSource (role : Role) (source : String) : Error :=
  .error .permissionDenied "operation requires source %r, got %r" [roleSource role, source]

/-- `_require_role_actor`: the task has an active run of the role, and the source is
that role. -/
def requireRoleActor (task : Task) (actorRole : Role) (source : String) : Cmd Unit := do
  require (source = roleSource actorRole) (wrongSource actorRole source)
  let active ← read fun w => w.db.getActiveRoleRun task.id
  require (active.map RoleRun.role = some actorRole)
    (.error .permissionDenied "task %r has no active %s role run"
      [task.id.text, actorRole.value])

/-- `_require_active_role_in`: the task has an active run of one of the roles, and the
source is the role that runs. -/
def requireActiveRoleIn (taskId : Uuid) (allowed : List Role) (source : String) : Cmd Unit := do
  let active ← read fun w => w.db.getActiveRoleRun taskId
  let active ← orRaise active
    (.error .permissionDenied "task %r has no active role run" [taskId.text])
  require (active.role ∈ allowed)
    (.error .permissionDenied "role %r is not allowed for this operation" [active.role.value])
  require (source = roleSource active.role) (wrongSource active.role source)

def requireActionableState (task : Task) : Cmd Unit :=
  require (task.state.isActionable = true)
    (.error .invalidTransition "cannot request action from state %s" [task.state.value])

/-! ### Lookups that must succeed -/

def theTask (taskId : String) : Cmd Task := do
  let task ← read fun w => w.db.getTask taskId
  orRaise task (.error .notFound "task %r not found" [taskId])

def theRoleRun (roleRunId : String) : Cmd RoleRun := do
  let rr ← read fun w => w.db.getRoleRun roleRunId
  orRaise rr (.error .notFound "role run %r not found" [roleRunId])

def theTaskRun (taskRunId : String) : Cmd TaskRun := do
  let tr ← read fun w => w.db.getTaskRun taskRunId
  orRaise tr (.error .notFound "task run %r not found" [taskRunId])

def theDispatch (dispatchId : String) : Cmd AgentDispatch := do
  let d ← read fun w => w.db.getDispatch dispatchId
  orRaise d (.error .notFound "dispatch %r not found" [dispatchId])

def theApproval (approvalId : String) : Cmd OwnerApproval := do
  let ap ← read fun w => w.db.getApproval approvalId
  orRaise ap (.error .approvalError "approval %r not found" [approvalId])

/-! ### Events and transitions -/

/-- `_emit`: draw an identifier, read the clock, filter the event, write it. -/
def emit (type : String) (taskId : Json) (role state : Option String) (payload : Json) :
    Cmd Unit := do
  let id ← uuid4
  let _ ← nowIso
  require (checkEvent type taskId role state payload = none)
    (.error .privacyViolation "event contains deny-listed term" [])
  require (taskId.bindable = true) (.error .interfaceError "Error binding parameter" [])
  Tables.events.insertOrIgnore ⟨id, type, taskId, role, state, payload⟩

/-- An event about a task, without role and state. -/
def emitTask (type : String) (taskId : Uuid) (payload : List (String × Json)) : Cmd Unit :=
  emit type (.text taskId.text) none none (.dict payload)

def emitRole (type : String) (taskId : Uuid) (role : Role) (payload : List (String × Json)) :
    Cmd Unit :=
  emit type (.text taskId.text) (some role.value) none (.dict payload)

def emitTransition (taskId : Uuid) (src dst : TaskState) : Cmd Unit :=
  emit "task.state_changed" (.text taskId.text) none (some dst.value)
    (.dict [("from_state", .text src.value), ("to_state", .text dst.value)])

def emitHandoff (type : String) (taskId : Uuid) (fromRole toRole : Role) : Cmd Unit :=
  emitTask type taskId [("from_role", .text fromRole.value), ("to_role", .text toRole.value)]

/-- `models_handoff`, inserted. -/
def insertNewHandoff (taskId : Uuid) (fromRole toRole : Role) : Cmd Unit := do
  let id ← uuid4
  insertHandoff ⟨id, taskId, fromRole, toRole⟩

def validateTransition (src dst : TaskState) (resume : Option TaskState) : Cmd Unit :=
  require (TaskState.isAllowed src dst resume = true) (TaskState.invalidTransition src dst)

/-- `_apply_transition`: write the state, and the events of the transition. -/
def applyTransition (task : Task) (dst : TaskState) (newResume : Option TaskState) :
    Cmd Unit := do
  let _ ← nowIso
  let _ ← updateTaskState task.id dst newResume
  emitTransition task.id task.state dst
  onlyIf (dst = .done)
    (emit "task.completed" (.text task.id.text) none (some TaskState.done.value) (.dict []))

/-! ### Approvals -/

/-- `_check_full_binding`: task, action and scope have to match, and so does the
stored binding hash. -/
def checkFullBinding (ap : OwnerApproval) (taskId action scope : String) : Cmd Unit := do
  require (ap.taskId.text = taskId ∧ ap.action = action ∧ ap.scope = scope)
    (.error .approvalError "approval binding mismatch: task_id/action/scope must all match"
      [ap.taskId.text, ap.action, ap.scope, taskId, action, scope])
  require (ap.bindingHash = ⟨taskId, action, scope⟩)
    (.error .approvalError "approval %r binding_hash mismatch" [ap.id.text])

/-! ### Idempotency -/

/-- The row a recorded result names. -/
def refetch {α : Type} (find : Db → String → Option α) (resultId : String) :
    Cmd (Option α) := do
  let o ← read fun w => find w.db resultId
  require (o.isSome = true)
    (.error .idempotencyError "idempotent replay: entity %r missing" [resultId])
  pure o

/-- The error of a key that is used again with other arguments. -/
def keyReused (key command : String) : Error :=
  .error .idempotencyError "idempotency key %r reused for %r with different arguments"
    [key, command]

/-- `_idempotent`: run the work in one transaction. Under a key, a recorded command is
answered by refetching its result, and one that is not is recorded. The sorted form of the
arguments stands for their digest. -/
def idempotent {α : Type} (key : Option String) (command : String) (args : Json)
    (work : Cmd (α × String)) (again : String → Cmd α) : Cmd α :=
  transaction <| caseSome key
    (fun k => do
      let existing ← read fun w => w.db.getCommandIdempotency k command
      caseSome existing
        (fun r => do
          require (r.args = args.sorted) (keyReused k command)
          again r.resultId)
        (do
          let r ← work
          let _ ← nowIso
          setCommandIdempotency ⟨k, command, r.2, args.sorted⟩
          pure r.1))
    (do
      let r ← work
      pure r.1)

/-! ### What the helpers return -/

section Returns

variable {α : Type} {w w' : World} {e : Error} {a : α} {source id : String} {task : Task}
  {key : Option String} {command : String} {args : Json} {work : Cmd (α × String)}
  {again : String → Cmd α}

theorem isTrusted_roleSource (role : Role) : isTrusted (roleSource role) := by
  cases role <;> decide

variable {u : Unit}

@[simp]
theorem returns_checkSource :
    (checkSource source).Returns w u w' ↔ isTrusted source ∧ w = w' := by
  simp [checkSource]

@[simp]
theorem returns_requireOwner :
    (requireOwner source).Returns w u w' ↔ source = ownerSource ∧ w = w' := by
  have : isTrusted ownerSource = true := by decide
  simp only [requireOwner, returns_bind, returns_checkSource, returns_require]
  constructor
  · rintro ⟨-, _, ⟨-, rfl⟩, rfl, rfl⟩
    exact ⟨rfl, rfl⟩
  · rintro ⟨rfl, rfl⟩
    exact ⟨(), w, ⟨this, rfl⟩, rfl, rfl⟩

@[simp]
theorem returns_requireController :
    (requireController source).Returns w u w' ↔ source = roleSource .lead ∧ w = w' := by
  simp only [requireController, returns_bind, returns_checkSource, returns_require]
  constructor
  · rintro ⟨-, _, ⟨-, rfl⟩, rfl, rfl⟩
    exact ⟨rfl, rfl⟩
  · rintro ⟨rfl, rfl⟩
    exact ⟨(), w, ⟨isTrusted_roleSource .lead, rfl⟩, rfl, rfl⟩

@[simp]
theorem raises_checkSource :
    (checkSource source).Raises w e w' ↔ isTrusted source = false ∧
      .error .untrustedSource "untrusted source rejected: %r" [source] = e ∧ w = w' := by
  simp [checkSource]

theorem eq_of_raises_requireOwner (h : (requireOwner source).Raises w e w') : w = w' := by
  simp only [requireOwner, raises_bind, raises_checkSource, returns_checkSource,
    raises_require] at h
  rcases h with ⟨-, -, rfl⟩ | ⟨-, _, ⟨-, rfl⟩, -, -, rfl⟩ <;> rfl

theorem eq_of_raises_requireController (h : (requireController source).Raises w e w') :
    w = w' := by
  simp only [requireController, raises_bind, raises_checkSource, returns_checkSource,
    raises_require] at h
  rcases h with ⟨-, -, rfl⟩ | ⟨-, _, ⟨-, rfl⟩, -, -, rfl⟩ <;> rfl

@[simp]
theorem returns_theTask {t : Task} :
    (theTask id).Returns w t w' ↔ w.db.getTask id = some t ∧ w = w' := by
  simp [theTask]

@[simp]
theorem returns_theDispatch {d : AgentDispatch} :
    (theDispatch id).Returns w d w' ↔ w.db.getDispatch id = some d ∧ w = w' := by
  simp [theDispatch]

variable {ap : OwnerApproval}

@[simp]
theorem returns_theApproval :
    (theApproval id).Returns w ap w' ↔ w.db.getApproval id = some ap ∧ w = w' := by
  simp [theApproval]

@[simp]
theorem returns_requireRoleActor {role : Role} :
    (requireRoleActor task role source).Returns w u w' ↔ source = roleSource role ∧
      (w.db.getActiveRoleRun task.id).map RoleRun.role = some role ∧ w = w' := by
  simp only [requireRoleActor, returns_bind, returns_require, returns_read]
  constructor
  · rintro ⟨-, _, ⟨rfl, rfl⟩, _, _, ⟨rfl, rfl⟩, h, rfl⟩
    exact ⟨rfl, h, rfl⟩
  · rintro ⟨rfl, h, rfl⟩
    exact ⟨(), w, ⟨rfl, rfl⟩, _, w, ⟨rfl, rfl⟩, h, rfl⟩

@[simp]
theorem returns_requireActionableState :
    (requireActionableState task).Returns w u w' ↔ task.state.isActionable ∧ w = w' := by
  simp [requireActionableState]

@[simp]
theorem returns_validateTransition {src dst : TaskState} {resume : Option TaskState} :
    (validateTransition src dst resume).Returns w u w' ↔
      TaskState.isAllowed src dst resume ∧ w = w' := by
  simp [validateTransition]

@[simp]
theorem returns_checkFullBinding {taskId action scope : String} :
    (checkFullBinding ap taskId action scope).Returns w u w' ↔
      (ap.taskId.text = taskId ∧ ap.action = action ∧ ap.scope = scope) ∧
      ap.bindingHash = ⟨taskId, action, scope⟩ ∧ w = w' := by
  simp only [checkFullBinding, returns_bind, returns_require]
  constructor
  · rintro ⟨-, _, ⟨h, rfl⟩, h', rfl⟩
    exact ⟨h, h', rfl⟩
  · rintro ⟨h, h', rfl⟩
    exact ⟨(), w, ⟨h, rfl⟩, h', rfl⟩

def recorded (db : Db) (key : Option String) (command : String) : Option CommandIdempotency :=
  key.bind fun k => db.getCommandIdempotency k command

/-- The world once a command has been recorded under its key. -/
def recordCommand (key : Option String) (command resultId : String) (args : Json) (w : World) :
    World :=
  match key with
  | none => w
  | some k => Tables.commandIdempotency.set
      (((Tables.commandIdempotency.get w).insert? ⟨k, command, resultId, args⟩).getD
        (Tables.commandIdempotency.get w)) { w with reads := w.reads + 1 }

section Record

variable {resultId : String}

@[simp]
theorem recordCommand_core : (recordCommand key command resultId args w).db.core = w.db.core := by
  cases key <;> rfl

end Record

/-- **A command returns in one of two ways**: its key is recorded with the same
arguments, and it answers again; or its work is done, and recorded. -/
theorem returns_idempotent :
    (idempotent key command args work again).Returns w a w' ↔
      (∃ r, recorded w.db key command = some r ∧ r.args = args.sorted ∧
        (again r.resultId).Returns w a w') ∨
      (recorded w.db key command = none ∧ ∃ resultId w₁, work.Returns w (a, resultId) w₁ ∧
        recordCommand key command resultId args.sorted w₁ = w') := by
  cases key with
  | none =>
    simp only [idempotent, recorded, recordCommand, returns_transaction, caseSome, returns_bind,
      returns_pure, Option.bind_none, reduceCtorEq, false_and, exists_false, false_or, true_and]
    constructor
    · rintro ⟨⟨a, resultId⟩, w₁, hw, rfl, rfl⟩
      exact ⟨resultId, w₁, hw, rfl⟩
    · rintro ⟨resultId, w₁, hw, rfl⟩
      exact ⟨_, w₁, hw, rfl, rfl⟩
  | some k =>
    simp only [idempotent, recorded, recordCommand, returns_transaction, returns_caseSome,
      returns_bind, returns_read, returns_require, returns_nowIso, returns_pure,
      Relvar.returns_insertOrIgnore, setCommandIdempotency, Option.bind_some, Option.some.injEq,
      exists_eq_left', reduceCtorEq, false_and, or_false]
    constructor
    · rintro ⟨_, _, ⟨rfl, rfl⟩, ⟨r, hr, -, _, ⟨hargs, rfl⟩, h⟩ |
        ⟨hr, ⟨a, resultId⟩, w₁, hw, -, _, ⟨-, rfl⟩, -, rfl, rfl⟩⟩
      · exact Or.inl ⟨r, hr, hargs, h⟩
      · exact Or.inr ⟨hr, resultId, w₁, hw, rfl⟩
    · rintro (⟨r, hr, hargs, h⟩ | ⟨hr, resultId, w₁, hw, rfl⟩)
      · exact ⟨_, _, ⟨rfl, rfl⟩, Or.inl ⟨r, hr, (), _, ⟨hargs, rfl⟩, h⟩⟩
      · exact ⟨_, _, ⟨rfl, rfl⟩, Or.inr ⟨hr, _, w₁, hw, _, _, ⟨rfl, rfl⟩, (), rfl, rfl⟩⟩

/-- **A command that raises leaves the database alone**, and unless its key is recorded it
is its work that raises. -/
theorem raises_idempotent (h : (idempotent key command args work again).Raises w e w') :
    w'.db = w.db ∧ ((∃ r, recorded w.db key command = some r ∧
        ((∃ k, e = keyReused k command) ∨ ∃ w₁, (again r.resultId).Raises w e w₁)) ∨
      (recorded w.db key command = none ∧ ∃ w₁, work.Raises w e w₁ ∧
        { w₁ with db := w.db } = w')) := by
  cases key with
  | none =>
    simp only [idempotent, raises_transaction, caseSome, raises_bind, not_raises_pure, and_false,
      exists_false, or_false] at h
    obtain ⟨w₁, hw, rfl⟩ := h
    exact ⟨rfl, Or.inr ⟨rfl, w₁, hw, rfl⟩⟩
  | some k =>
    simp only [idempotent, raises_transaction, raises_caseSome, raises_bind, not_raises_read,
      returns_read, raises_require, returns_require, setCommandIdempotency, not_raises_nowIso,
      Relvar.not_raises_insertOrIgnore, not_raises_pure, Option.some.injEq, exists_eq_left',
      reduceCtorEq, false_and, and_false, exists_false, false_or, or_false] at h
    obtain ⟨w₁, ⟨_, _, ⟨rfl, rfl⟩, h⟩, rfl⟩ := h
    refine ⟨rfl, ?_⟩
    rcases h with ⟨r, hr, ⟨-, rfl, -⟩ | ⟨-, _, ⟨-, rfl⟩, h⟩⟩ | ⟨hr, h⟩
    · exact Or.inl ⟨r, hr, Or.inl ⟨k, rfl⟩⟩
    · exact Or.inl ⟨r, hr, Or.inr ⟨w₁, h⟩⟩
    · exact Or.inr ⟨hr, w₁, h, rfl⟩

section Expiry

variable {type : String} {taskId : Uuid} {claimed payload : Json} {fields : List (String × Json)}
  {role state : Option String} {src dst : TaskState} {resume : Option TaskState} {id : Uuid}

@[simp]
theorem emit_not_expired :
    ¬(emit type claimed role state payload).Raises w (.approvalExpired id) w' := by
  simp [emit]

@[simp]
theorem emitTask_not_expired :
    ¬(emitTask type taskId fields).Raises w (.approvalExpired id) w' :=
  emit_not_expired

@[simp]
theorem emitTransition_not_expired :
    ¬(emitTransition taskId src dst).Raises w (.approvalExpired id) w' :=
  emit_not_expired

@[simp]
theorem applyTransition_not_expired :
    ¬(applyTransition task dst resume).Raises w (.approvalExpired id) w' := by
  simp [applyTransition, updateTaskState, integrityError]

@[simp]
theorem validateTransition_not_expired :
    ¬(validateTransition src dst resume).Raises w (.approvalExpired id) w' := by
  simp [validateTransition, TaskState.invalidTransition]

@[simp]
theorem checkFullBinding_not_expired {t action scope : String} :
    ¬(checkFullBinding ap t action scope).Raises w (.approvalExpired id) w' := by
  simp [checkFullBinding]

@[simp]
theorem theApproval_not_expired {t : String} :
    ¬(theApproval t).Raises w (.approvalExpired id) w' := by
  simp [theApproval]

end Expiry

end Returns

/-! ### What the helpers move -/

/-- A view of the world that depends on the database alone. -/
class OfDb {τ : Type} (π : World → τ) : Prop where
  congr : ∀ w w' : World, w.db = w'.db → π w = π w'

/-- A view of the world that does not depend on what only reports: the handoffs, the events,
the quarantine and the routing decisions. -/
class OffReports {τ : Type} (π : World → τ) : Prop where
  congr : ∀ w w' : World, w.db.core = w'.db.core → w.db.jobs = w'.db.jobs →
    w.db.log.projects = w'.db.log.projects → w.db.log.taskRuns = w'.db.log.taskRuns →
    w.db.log.roleRuns = w'.db.log.roleRuns → w.db.log.testRuns = w'.db.log.testRuns →
    w.db.log.reviews = w'.db.log.reviews →
    w.db.log.commandIdempotency = w'.db.log.commandIdempotency → π w = π w'

/-- A view of the world that does not depend on the log tables. -/
class OffLog {τ : Type} (π : World → τ) : Prop where
  congr : ∀ w w' : World, w.db.core = w'.db.core → w.db.jobs = w'.db.jobs → π w = π w'

/-- A view of the world that of the log tables depends on what a result writes at most: the
runs of roles, the test runs and the reviews. -/
class OffBooks {τ : Type} (π : World → τ) : Prop where
  congr : ∀ w w' : World, w.db.core = w'.db.core → w.db.jobs = w'.db.jobs →
    w.db.log.roleRuns = w'.db.log.roleRuns → w.db.log.testRuns = w'.db.log.testRuns →
    w.db.log.reviews = w'.db.log.reviews → π w = π w'

/-- A view of the world that depends on the core tables alone. -/
class OfCore {τ : Type} (π : World → τ) : Prop where
  congr : ∀ w w' : World, w.db.core = w'.db.core → π w = π w'

/-- The tables that decide what a task may do next. -/
def core (w : World) : CoreDb := w.db.core

instance : OfCore core := ⟨fun _ _ h => h⟩

section Apart

variable {τ : Type} {π : World → τ}

instance [hπ : OfCore π] : OffLog π := ⟨fun w w' h _ => hπ.congr w w' h⟩

instance [hπ : OffLog π] : OffBooks π := ⟨fun w w' h h' _ _ _ => hπ.congr w w' h h'⟩

instance [hπ : OffBooks π] : OffReports π :=
  ⟨fun w w' hcore hjobs _ _ hroles htests hreviews _ =>
    hπ.congr w w' hcore hjobs hroles htests hreviews⟩

instance [hπ : OffReports π] : OfDb π :=
  ⟨fun w w' h => hπ.congr w w' (by rw [h]) (by rw [h]) (by rw [h]) (by rw [h]) (by rw [h])
    (by rw [h]) (by rw [h]) (by rw [h])⟩

section Log

variable [hπ : OffLog π]

instance : Tables.roleRuns.Apart π := ⟨fun _ _ => hπ.congr _ _ rfl rfl⟩
instance : Tables.testRuns.Apart π := ⟨fun _ _ => hπ.congr _ _ rfl rfl⟩
instance : Tables.reviews.Apart π := ⟨fun _ _ => hπ.congr _ _ rfl rfl⟩

end Log

section Books

variable [hπ : OffBooks π]

instance : Tables.projects.Apart π := ⟨fun _ _ => hπ.congr _ _ rfl rfl rfl rfl rfl⟩
instance : Tables.taskRuns.Apart π := ⟨fun _ _ => hπ.congr _ _ rfl rfl rfl rfl rfl⟩
instance : Tables.commandIdempotency.Apart π := ⟨fun _ _ => hπ.congr _ _ rfl rfl rfl rfl rfl⟩

end Books

section Reports

variable [hπ : OffReports π]

instance : Tables.handoffs.Apart π :=
  ⟨fun _ _ => hπ.congr _ _ rfl rfl rfl rfl rfl rfl rfl rfl⟩
instance : Tables.events.Apart π :=
  ⟨fun _ _ => hπ.congr _ _ rfl rfl rfl rfl rfl rfl rfl rfl⟩
instance : Tables.quarantine.Apart π :=
  ⟨fun _ _ => hπ.congr _ _ rfl rfl rfl rfl rfl rfl rfl rfl⟩
instance : Tables.routingDecisions.Apart π :=
  ⟨fun _ _ => hπ.congr _ _ rfl rfl rfl rfl rfl rfl rfl rfl⟩

end Reports

section Jobs

variable [hπ : OfCore π]

instance : Tables.externalActionRequests.Apart π := ⟨fun _ _ => hπ.congr _ _ rfl⟩
instance : Tables.externalActionAudit.Apart π := ⟨fun _ _ => hπ.congr _ _ rfl⟩

end Jobs

end Apart

section Moves

variable {τ α : Type} {π : World → τ} {Q : τ → τ → Prop} [hπ : OfDb π] [hrefl : Std.Refl Q]

instance : Moves π Q nowIso :=
  ⟨fun w => by rw [hπ.congr w (nowIso w).2 rfl]; exact hrefl.refl _⟩

instance : Moves π Q uuid4 :=
  ⟨fun w => by rw [hπ.congr w (uuid4 w).2 rfl]; exact hrefl.refl _⟩

instance {m : Cmd α} [h : Moves π Q m] : Moves π Q (transaction m) := by
  refine ⟨fun w => ?_⟩
  have hw := h.moves w
  rcases hm : m w with ⟨_ | _, w₁⟩
  · have hback : (transaction m w).2.db = w.db := by simp [transaction, atomically, hm]
    rw [hπ.congr _ w hback]
    exact hrefl.refl _
  · rw [show transaction m w = m w by simp [transaction, atomically, hm]]
    exact hw

variable [IsTrans τ Q] {taskId : Uuid} {source : String} {id : String} {type : String} {task : Task}

set_option synthInstance.maxSize 10000

attribute [local instance] moves_steps

instance {ttl : ℕ} : Moves π Q (expiryIso ttl) := moves_bind inferInstance fun _ => inferInstance

instance : Moves π Q (checkSource source) := by
  unfold checkSource
  infer_instance

instance : Moves π Q (requireOwner source) := moves_bind inferInstance fun _ =>
  inferInstance

instance : Moves π Q (requireController source) :=
  moves_bind inferInstance fun _ => inferInstance

instance {role : Role} :
    Moves π Q (requireRoleActor task role source) := by
  unfold requireRoleActor
  infer_instance

instance {allowed : List Role} :
    Moves π Q (requireActiveRoleIn taskId allowed source) := by
  unfold requireActiveRoleIn
  infer_instance

instance : Moves π Q (requireActionableState task) := by
  unfold requireActionableState
  infer_instance

instance : Moves π Q (theTask id) := moves_bind inferInstance fun _ => inferInstance

instance : Moves π Q (theRoleRun id) := moves_bind inferInstance fun _ =>
  inferInstance

instance : Moves π Q (theTaskRun id) := moves_bind inferInstance fun _ =>
  inferInstance

instance : Moves π Q (theDispatch id) := moves_bind inferInstance fun _ =>
  inferInstance

instance : Moves π Q (theApproval id) := moves_bind inferInstance fun _ =>
  inferInstance

instance {src dst : TaskState} {resume : Option TaskState} :
    Moves π Q (validateTransition src dst resume) := by
  unfold validateTransition
  infer_instance

instance {taskId action scope : String} :
    Moves π Q (checkFullBinding ap taskId action scope) :=
  moves_bind inferInstance fun _ => inferInstance

instance {find : Db → String → Option α} : Moves π Q (refetch find id) := by
  unfold refetch
  infer_instance

instance [Tables.events.Apart π] {taskId : Json} {role state : Option String}
    {payload : Json} : Moves π Q (emit type taskId role state payload) := by
  unfold emit
  infer_instance

instance [Tables.events.Apart π] {payload : List (String × Json)} :
    Moves π Q (emitTask type taskId payload) := by
  unfold emitTask
  infer_instance

instance [Tables.events.Apart π] {role : Role}
    {payload : List (String × Json)} : Moves π Q (emitRole type taskId role payload) := by
  unfold emitRole
  infer_instance

instance [Tables.events.Apart π] {src dst : TaskState} :
    Moves π Q (emitTransition taskId src dst) := by
  unfold emitTransition
  infer_instance

instance [Tables.events.Apart π] {fromRole toRole : Role} :
    Moves π Q (emitHandoff type taskId fromRole toRole) := by
  unfold emitHandoff
  infer_instance

instance [Tables.handoffs.Apart π] {fromRole toRole : Role} :
    Moves π Q (insertNewHandoff taskId fromRole toRole) := by
  unfold insertNewHandoff insertHandoff
  infer_instance

instance [Tables.events.Apart π] {dst : TaskState} {resume : Option TaskState}
    [Moves π Q (updateTaskState task.id dst resume)] :
    Moves π Q (applyTransition task dst resume) := by
  unfold applyTransition
  infer_instance

instance [Tables.commandIdempotency.Apart π] {r : CommandIdempotency} :
    Moves π Q (setCommandIdempotency r) := by
  unfold setCommandIdempotency
  infer_instance

theorem moves_idempotent [∀ r, Moves π Q (setCommandIdempotency r)] {key : Option String}
    {command : String} {args : Json} {work : Cmd (α × String)} {again : String → Cmd α}
    (hwork : Moves π Q work) (hagain : ∀ id, Moves π Q (again id)) :
    Moves π Q (idempotent key command args work again) := by
  have hfree : Moves π Q (do
      let r ← work
      pure r.1) := moves_bind hwork fun _ => inferInstance
  have hkey : ∀ k : String, Moves π Q (do
      let r ← work
      let _ ← nowIso
      setCommandIdempotency ⟨k, command, r.2, args.sorted⟩
      pure r.1) := by
    intro k
    infer_instance
  have : Moves π Q (caseSome key
      (fun k => do
        let existing ← read fun w => w.db.getCommandIdempotency k command
        caseSome existing
          (fun r => do
            require (r.args = args.sorted) (keyReused k command)
            again r.resultId)
          (do
            let r ← work
            let _ ← nowIso
            setCommandIdempotency ⟨k, command, r.2, args.sorted⟩
            pure r.1))
      (do
        let r ← work
        pure r.1)) := by
    refine moves_caseSome (fun k => moves_bind inferInstance fun o => ?_) hfree
    exact moves_caseSome (fun r => moves_bind inferInstance fun _ => hagain _) (hkey k)
  unfold idempotent
  infer_instance

theorem moves_keyed [∀ r, Moves π Q (setCommandIdempotency r)] {key : Option String}
    {command : String} {args : Json} {work : Cmd (α × String)} {again : String → Cmd α}
    [hwork : Moves π Q work] [hagain : ∀ id, Moves π Q (again id)] :
    Moves π Q (idempotent key command args work again) := moves_idempotent hwork hagain

end Moves

/-! ### What the mutators move

A mutator of a log table leaves alone every view that does not depend on them, and a
mutator of a core table the views its table lies apart from. -/

section Mutators

variable {τ : Type} {π : World → τ} {Q : τ → τ → Prop} [OffReports π] [Std.Refl Q]
  {id id' : Uuid} {now : Time}

instance [Tables.projects.Apart π] {p : Project} : Moves π Q (insertProject p) := by
  unfold insertProject
  infer_instance

instance [Tables.taskRuns.Apart π] {r : TaskRun} : Moves π Q (insertTaskRun r) := by
  unfold insertTaskRun
  infer_instance

instance [Tables.taskRuns.Apart π] {status : RunStatus} :
    Moves π Q (updateTaskRunStatus id status) := by
  unfold updateTaskRunStatus
  infer_instance

instance [Tables.roleRuns.Apart π] {r : RoleRun} : Moves π Q (insertRoleRun r) := by
  unfold insertRoleRun
  infer_instance

instance [Tables.roleRuns.Apart π] {status : RunStatus} :
    Moves π Q (updateRoleRunStatus id status) := by
  unfold updateRoleRunStatus
  infer_instance

instance [Tables.testRuns.Apart π] {r : TestRun} : Moves π Q (insertTestRun r) := by
  unfold insertTestRun
  infer_instance

instance [Tables.reviews.Apart π] {r : Review} : Moves π Q (insertReview r) := by
  unfold insertReview
  infer_instance

instance [IsTrans τ Q] {q : AgentResultQuarantine} : Moves π Q (insertQuarantine q) :=
  moves_bind inferInstance fun _ => inferInstance

instance [IsTrans τ Q] {r : RoutingRecord} : Moves π Q (insertRoutingDecision r) := by
  unfold insertRoutingDecision
  exact moves_bind inferInstance fun _ => inferInstance

section Tasks

variable [Tables.tasks.Apart π]

instance {t : Task} : Moves π Q (insertTask t) := by unfold insertTask; infer_instance

instance {state : TaskState} {resume : Option TaskState} :
    Moves π Q (updateTaskState id state resume) := by
  unfold updateTaskState
  infer_instance

end Tasks

section Evidence

instance [Tables.findings.Apart π] {f : Finding} : Moves π Q (insertFinding f) := by
  unfold insertFinding
  infer_instance

instance [Tables.findings.Apart π] {status : FindingStatus} :
    Moves π Q (updateFindingStatus id status) := by
  unfold updateFindingStatus
  infer_instance

instance [Tables.decisions.Apart π] {d : Decision} : Moves π Q (insertDecision d) := by
  unfold insertDecision
  infer_instance

end Evidence

section Approvals

variable [Tables.ownerApprovals.Apart π]

instance {a : OwnerApproval} : Moves π Q (insertApproval a) := by
  unfold insertApproval
  infer_instance

instance : Moves π Q (markApproved id now) := by unfold markApproved; infer_instance

instance : Moves π Q (markRejected id now) := by unfold markRejected; infer_instance

instance : Moves π Q (consumeApproval id now) := by unfold consumeApproval; infer_instance

instance : Moves π Q (consumeApprovalWithExecution id now id') := by
  unfold consumeApprovalWithExecution
  infer_instance

instance : Moves π Q (markExpired id now) := by unfold markExpired; infer_instance

end Approvals

instance [Tables.actionExecutions.Apart π] {x : ActionExecution} :
    Moves π Q (insertActionExecution x) := by
  unfold insertActionExecution
  infer_instance

section Dispatches

variable [Tables.agentDispatches.Apart π]

instance {d : AgentDispatch} : Moves π Q (insertDispatch d) := by
  unfold insertDispatch
  infer_instance

instance {e : Error} {session run : String} {provider model tier : Option String} :
    Moves π Q (updateDispatchBind e id session run provider model tier) := by
  unfold updateDispatchBind
  infer_instance

instance : Moves π Q (rejectDispatchCas id) := by unfold rejectDispatchCas; infer_instance

instance {status : DispatchStatus} : Moves π Q (updateDispatchStatus id status) := by
  unfold updateDispatchStatus
  infer_instance

instance {result : Json} : Moves π Q (consumeDispatch id result) := by
  unfold consumeDispatch
  infer_instance

end Dispatches

/-- A view that the mutators of the projects, of the runs and of the reviews move along a
preorder. -/
class OfRecords (π : World → τ) (Q : τ → τ → Prop) : Prop where
  project : ∀ p, Moves π Q (insertProject p)
  taskRun : ∀ r, Moves π Q (insertTaskRun r)
  taskRunStatus : ∀ id status, Moves π Q (updateTaskRunStatus id status)
  roleRun : ∀ r, Moves π Q (insertRoleRun r)
  roleRunStatus : ∀ id status, Moves π Q (updateRoleRunStatus id status)
  testRun : ∀ r, Moves π Q (insertTestRun r)
  review : ∀ r, Moves π Q (insertReview r)

attribute [instance] OfRecords.review

/-- A view that the mutators of the projects and of the runs move along a preorder. -/
class OfRuns (π : World → τ) (Q : τ → τ → Prop) : Prop where
  project : ∀ p, Moves π Q (insertProject p)
  taskRun : ∀ r, Moves π Q (insertTaskRun r)
  taskRunStatus : ∀ id status, Moves π Q (updateTaskRunStatus id status)
  roleRun : ∀ r, Moves π Q (insertRoleRun r)
  roleRunStatus : ∀ id status, Moves π Q (updateRoleRunStatus id status)
  testRun : ∀ r, Moves π Q (insertTestRun r)

attribute [instance] OfRuns.project OfRuns.taskRun OfRuns.taskRunStatus OfRuns.roleRun
  OfRuns.roleRunStatus OfRuns.testRun

instance [h : OfRecords π Q] : OfRuns π Q where
  project := h.project
  taskRun := h.taskRun
  taskRunStatus := h.taskRunStatus
  roleRun := h.roleRun
  roleRunStatus := h.roleRunStatus
  testRun := h.testRun

instance [OffLog π] : OfRecords π Q where
  project _ := inferInstance
  taskRun _ := inferInstance
  taskRunStatus _ _ := inferInstance
  roleRun _ := inferInstance
  roleRunStatus _ _ := inferInstance
  testRun _ := inferInstance
  review _ := inferInstance

end Mutators

/-! ### What a command leaves behind -/

section Cases

variable {α : Type} {w w' : World} {a : α} {e : Error} {key : Option String} {command : String}
  {args : Json} {work : Cmd (α × String)} {again : String → Cmd α} {task : Task}
  {dst : TaskState} {resume : Option TaskState} {id : String}

/-- **What a command leaves of a view of the database**: what it was, or, where its key is not
recorded, what its work made of it. -/
theorem idempotent_view {τ : Type} (π : World → τ) [hπ : OfDb π] [Tables.commandIdempotency.Apart π]
    (hagain : ∀ id, Moves π Eq (again id)) :
    π (idempotent key command args work again w).2 = π w ∨
      (recorded w.db key command = none ∧ ∃ r w₁, work.Returns w r w₁ ∧
        π (idempotent key command args work again w).2 = π w₁) := by
  rcases returns_or_raises (idempotent key command args work again) w with
    ⟨a, w', h⟩ | ⟨e, w', h⟩
  · rw [h.snd_eq]
    rcases (returns_idempotent).mp h with ⟨r, -, -, h⟩ | ⟨hrec, resultId, w₁, hwork, rfl⟩
    · exact Or.inl (Moves.of_returns (h := hagain r.resultId) h).symm
    · refine Or.inr ⟨hrec, _, w₁, hwork, ?_⟩
      cases key with
      | none => rfl
      | some k => exact (Relvar.Apart.apart _ _).trans (hπ.congr _ _ rfl)
  · rw [h.snd_eq]
    exact Or.inl (hπ.congr _ _ (raises_idempotent h).1)

theorem idempotent_rule {τ : Type} (π : World → τ) [OfDb π] [Tables.commandIdempotency.Apart π]
    {P : World → Prop} (hcongr : ∀ w₁ w₂, π w₂ = π w₁ → P w₁ → P w₂)
    (hagain : ∀ id, Moves π Eq (again id)) (hw : P w)
    (hwork : ∀ r w₁, recorded w.db key command = none → work.Returns w r w₁ → P w₁) :
    P (idempotent key command args work again w).2 := by
  rcases idempotent_view π hagain with h | ⟨hrec, r, w₁, hr, h⟩
  · exact hcongr w _ h hw
  · exact hcongr w₁ _ h (hwork r w₁ hrec hr)

theorem idempotent_core {c : CoreDb} (hagain : ∀ id, Moves core Eq (again id))
    (h : (idempotent key command args work again w).2.db.core = c) :
    c = w.db.core ∨ (recorded w.db key command = none ∧
      ∃ r w₁, work.Returns w r w₁ ∧ c = w₁.db.core) := by
  subst h
  exact idempotent_view core hagain

theorem checked_snd {β : Type} {check : Cmd β} {m : β → Cmd α} (hcheck : ∀ w, (check w).2 = w) :
    ((check >>= m) w).2 = w ∨
      ∃ b, check.Returns w b w ∧ ((check >>= m) w).2 = (m b w).2 := by
  rcases bind_snd_cases (m := check) (f := m) (s := w) with ⟨e, w₁, hr, hsnd⟩ | ⟨b, w₁, hr, hsnd⟩
  · exact Or.inl (hsnd.trans (hr.snd_eq.symm.trans (hcheck w)))
  · obtain rfl : w = w₁ := (hcheck w).symm.trans hr.snd_eq
    exact Or.inr ⟨b, hr, hsnd⟩

/-- The same for a command that starts with a check, as nearly all do. -/
theorem command_core {check : Cmd Unit} {c : CoreDb} (hcheck : ∀ w, (check w).2 = w)
    (hagain : ∀ id, Moves core Eq (again id))
    (h : ((do check; idempotent key command args work again) w).2.db.core = c) :
    c = w.db.core ∨ (check.Returns w () w ∧ recorded w.db key command = none ∧
      ∃ r w₁, work.Returns w r w₁ ∧ c = w₁.db.core) := by
  subst h
  rcases checked_snd hcheck with h | ⟨_, hc, h⟩ <;> rw [h]
  · exact Or.inl rfl
  · exact (idempotent_core hagain rfl).imp_right fun h => ⟨hc, h⟩

theorem checkSource_snd (source : String) (w : World) : (checkSource source w).2 = w := by
  unfold checkSource require
  split <;> rfl

theorem theTask_snd (id : String) (w : World) : (theTask id w).2 = w := by
  rcases returns_or_raises (theTask id) w with ⟨t, w', h⟩ | ⟨e, w', h⟩ <;> rw [h.snd_eq]
  · exact (returns_theTask.mp h).2.symm
  · simp only [theTask, raises_bind, not_raises_read, returns_read, raises_orRaise, false_or] at h
    obtain ⟨_, _, ⟨-, rfl⟩, -, -, rfl⟩ := h
    rfl

theorem requireController_snd (source : String) (w : World) :
    (requireController source w).2 = w := by
  rcases returns_or_raises (requireController source) w with ⟨u, w', h⟩ | ⟨e, w', h⟩ <;>
    rw [h.snd_eq]
  · exact (returns_requireController.mp h).2.symm
  · exact (eq_of_raises_requireController h).symm

theorem requireOwner_snd (source : String) (w : World) : (requireOwner source w).2 = w := by
  rcases returns_or_raises (requireOwner source) w with ⟨u, w', h⟩ | ⟨e, w', h⟩ <;>
    rw [h.snd_eq]
  · exact (returns_requireOwner.mp h).2.symm
  · exact (eq_of_raises_requireOwner h).symm

/-- The core tables before and after the state of a task was written: nothing else has
changed. -/
def SetState (c c' : CoreDb) (id : Uuid) (state : TaskState) (resume : Option TaskState) : Prop :=
  ∃ tasks, c.tasks.update? (fun t => t.id = id)
      (fun t => { t with state := state, resumeState := resume }) = some tasks ∧
    c' = { c with tasks := tasks }

theorem setState_of_updateTaskState {id : Uuid} {n : ℕ}
    (h : (updateTaskState id dst resume).Returns w n w') :
    SetState w.db.core w'.db.core id dst resume := by
  simp only [updateTaskState, Relvar.returns_update] at h
  obtain ⟨t', ht, -, rfl⟩ := h
  exact ⟨t', ht, rfl⟩

theorem setState_of_applyTransition
    (h : (applyTransition task dst resume).Returns w u w') :
    SetState w.db.core w'.db.core task.id dst resume := by
  simp only [applyTransition, returns_bind, returns_nowIso] at h
  obtain ⟨-, _, ⟨-, rfl⟩, _, w₁, hupdate, _, w₂, hemit, hdone⟩ := h
  have h₁ : core w₁ = core w₂ := Moves.of_returns (R := Eq) hemit
  have h₂ : core w₂ = core w' := Moves.of_returns (R := Eq) hdone
  have hset := setState_of_updateTaskState hupdate
  rwa [show w₁.db.core = w'.db.core from h₁.trans h₂] at hset

theorem mem_of_setState {c c' : CoreDb} {id : Uuid} (h : SetState c c' id dst resume) {t' : Task} :
    t' ∈ c'.tasks.rows ↔ ∃ t ∈ c.tasks.rows,
      (t.id = id ∧ t' = { t with state := dst, resumeState := resume }) ∨ (t.id ≠ id ∧ t' = t) := by
  obtain ⟨tasks, ht, rfl⟩ := h
  rw [Table.mem_of_update? ht]
  refine exists_congr fun t => and_congr_right fun _ => ?_
  by_cases hid : t.id = id <;> simp [Table.patch, hid, eq_comm]

end Cases

end Core

end ArgentTeam
