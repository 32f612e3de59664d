import ArgentTeam.Core.Basics

/-!
# The owner gate

The commands of `core.py` around gated actions. A role requests an action; one that the
owner has to approve parks the task at the gate, in `OWNER_APPROVAL_REQUIRED`, behind a
pending approval. The owner approves or rejects, and an approved action is executed
once. An approval that has expired when it is named is marked expired and its task is
released, in a transaction of its own: the one that noticed has been rolled back.
-/

namespace ArgentTeam

open Prog Store

namespace Core

/-! ### Requesting -/

structure ActionRequestResult where
  action : String
  scope : String
  actionClass : ActionClass
  allowed : Bool
  approval : Option OwnerApproval
  executionId : Option Uuid

/-- The time to live of an approval, in seconds. -/
def approvalTtlSeconds : ℕ := 3600

/-- What is left of a text after a tag. -/
def stripTag (tag s : String) : Option String :=
  if tag.toList.isPrefixOf s.toList then some (String.ofList (s.toList.drop tag.toList.length))
  else none

def requestActionRefetch (resultId : String) : Cmd (Option ActionRequestResult) :=
  caseSome (stripTag "approval:" resultId)
    (fun id => do
      let ap ← read fun w => w.db.getApproval id
      let ap ← orRaise ap
        (.error .idempotencyError "idempotent replay: approval %r missing" [resultId])
      pure (some ⟨ap.action, ap.scope, .ownerApprovalRequired, false, some ap, none⟩))
    (caseSome (stripTag "execution:" resultId)
      (fun id => do
        let ex ← read fun w => w.db.getActionExecution id
        let ex ← orRaise ex
          (.error .idempotencyError "idempotent replay: execution %r missing" [resultId])
        pure (some ⟨ex.action, ex.scope, classifyAction ex.action .allowedWithGate,
          ex.status = .executed, none, some ex.id⟩))
      (do
        require ((stripTag "blocked:" resultId).isSome = true)
          (.error .idempotencyError "unknown request_action result %r" [resultId])
        pure none))

/-- The work of a request that is forbidden: record the attempt. -/
def requestForbidden (taskId action scope : String) (actorRole : Role) (source : String) :
    Cmd (Unit × String) := do
  let task ← theTask taskId
  requireRoleActor task actorRole source
  requireActionableState task
  let eid ← uuid4
  let now ← nowIso
  insertActionExecution ⟨eid, task.id, none, action, scope, actorRole, .blocked, now⟩
  emitTask "lead.decision" task.id [("blocked", .bool true)]
  pure ((), "blocked:" ++ eid.text)

def newApproval (id taskId : Uuid) (action scope : String) (requestedBy : Role)
    (createdAt expiresAt : Time) : OwnerApproval where
  id := id
  taskId := taskId
  action := action
  scope := scope
  status := .pending
  requestedBy := requestedBy
  createdAt := createdAt
  decidedAt := none
  consumedAt := none
  expiresAt := expiresAt
  bindingHash := ⟨taskId.text, action, scope⟩
  approvedAt := none
  executionId := none
  executedAt := none
  closedAt := none

/-- The work of a request the owner has to approve: record a pending approval and park
the task at the gate. -/
def requestApproval (taskId action scope : String) (actorRole : Role) (source : String) :
    Cmd (Option ActionRequestResult × String) := do
  let task ← theTask taskId
  requireRoleActor task actorRole source
  requireActionableState task
  let approvals ← read fun w => w.db.listApprovals task.id
  require ((approvals.any fun a => a.action = action && a.scope = scope && a.status.live) = false)
    (.error .approvalError "duplicate pending/approved approval for %r/%r" [action, scope])
  let aid ← uuid4
  let now ← nowIso
  let expires ← expiryIso approvalTtlSeconds
  let ap := newApproval aid task.id action scope actorRole now expires
  insertApproval ap
  let task ← theTask taskId
  validateTransition task.state .ownerApprovalRequired task.resumeState
  applyTransition task .ownerApprovalRequired (some task.state)
  emitTask "gate.owner_required" task.id [("approval_id", .text aid.text)]
  pure (some ⟨action, scope, .ownerApprovalRequired, false, some ap, none⟩,
    "approval:" ++ aid.text)

/-- The work of a request a role may take on its own. -/
def requestAutonomous (taskId action scope : String) (actorRole : Role) (source : String) :
    Cmd (Option ActionRequestResult × String) := do
  let task ← theTask taskId
  requireRoleActor task actorRole source
  requireActionableState task
  require (hasPermission actorRole (permissionFor action).1 (permissionFor action).2 = true)
    (permissionDenied actorRole (permissionFor action).1 (permissionFor action).2)
  let eid ← uuid4
  let now ← nowIso
  insertActionExecution ⟨eid, task.id, none, action, scope, actorRole, .executed, now⟩
  pure (some ⟨action, scope, .autonomous, true, none, some eid⟩, "execution:" ++ eid.text)

/-- The event of a role that asks for more than it may, recorded outside of any
transaction, and its error. -/
def denyRole (taskId action : String) (actorRole : Role) : Cmd Unit := do
  emit "policy.role_violation" (.text taskId) (some actorRole.value) none
    (.dict [("reason", .text "permission_denied"), ("action", .text action)])
  raise (permissionDenied actorRole (permissionFor action).1 (permissionFor action).2)

/-- The arguments of `request_action`, as recorded under its key. -/
def requestArgs (taskId action scope : String) (actorRole : Role) (source : String) : Json :=
  .dict [("task_id", .text taskId), ("action", .text action), ("scope", .text scope),
    ("actor_role", .text actorRole.value), ("source", .text source)]

/-- A request, once its action has been classified. -/
def requestClassified (taskId action scope : String) (actorRole : Role) (source : String)
    (key : Option String) : ActionClass → Cmd (Option ActionRequestResult)
  | .forbidden => do
    idempotent key "request_action" (requestArgs taskId action scope actorRole source)
      (requestForbidden taskId action scope actorRole source) fun _ => pure ()
    raise (.error .forbiddenAction "action %r is forbidden" [action])
  | .ownerApprovalRequired =>
    idempotent key "request_action" (requestArgs taskId action scope actorRole source)
      (requestApproval taskId action scope actorRole source) requestActionRefetch
  | .autonomous => do
    onlyIf (hasPermission actorRole (permissionFor action).1 (permissionFor action).2 = false)
      (denyRole taskId action actorRole)
    idempotent key "request_action" (requestArgs taskId action scope actorRole source)
      (requestAutonomous taskId action scope actorRole source) requestActionRefetch

def requestAction (taskId action scope : String) (actorRole : Role) (source : String)
    (key : Option String) : Cmd (Option ActionRequestResult) := do
  checkSource source
  let task ← theTask taskId
  requestClassified taskId action scope actorRole source key
    (classifyAction action task.externalActionsPolicy)

/-! ### Deciding -/

/-- `_approve_work_in_transaction`. -/
def approveWork (ap : OwnerApproval) (taskId action scope : String) :
    Cmd (Option OwnerApproval) := do
  checkFullBinding ap taskId action scope
  let now ← nowIso
  require (ap.status = .pending)
    (.error .approvalError "approval %r is not pending (%s)" [ap.id.text, ap.status.value])
  require (now < ap.expiresAt) (.approvalExpired ap.id)
  let rc ← markApproved ap.id now
  require (rc ≠ 0) (.error .approvalError "approval %r could not be approved" [ap.id.text])
  emitTask "gate.owner_approved" ap.taskId [("approval_id", .text ap.id.text)]
  read fun w => w.db.getApproval ap.id.text

/-- The task of an approval, if it is at the gate. -/
def gatedTask (db : Db) (ap : OwnerApproval) : Option Task :=
  (db.getTask ap.taskId.text).filter fun t => t.state = .ownerApprovalRequired

def blockTask (task : Task) : Cmd Unit := do
  validateTransition task.state .blocked task.resumeState
  applyTransition task .blocked none

/-- `_reject_work_in_transaction`. The expiry is looked at before the status: the
status is left to the update, which only a pending approval passes. -/
def rejectWork (ap : OwnerApproval) (taskId action scope : String) :
    Cmd (Option OwnerApproval) := do
  checkFullBinding ap taskId action scope
  let now ← nowIso
  require (now < ap.expiresAt) (.approvalExpired ap.id)
  let rc ← markRejected ap.id now
  require (rc ≠ 0)
    (.error .approvalError "approval %r is not pending (%s)" [ap.id.text, ap.status.value])
  let task ← read fun w => gatedTask w.db ap
  whenSome task blockTask
  emitTask "gate.owner_rejected" ap.taskId [("approval_id", .text ap.id.text)]
  read fun w => w.db.getApproval ap.id.text

/-- Send a task at the gate back to a state it remembers. -/
def resumeTask (task : Task) (resume : TaskState) : Cmd Unit := do
  validateTransition task.state resume task.resumeState
  applyTransition task resume none

/-- `_expire_and_release`: the approval expires, and its task leaves the gate for its
resume state, or for `BLOCKED`. -/
def expireAndRelease (approvalId : Uuid) : Cmd Unit := do
  let now ← nowIso
  let _ ← markExpired approvalId now
  let ap ← read fun w => w.db.getApproval approvalId.text
  whenSome ap fun ap => do
    let task ← read fun w => gatedTask w.db ap
    whenSome task fun task =>
      caseSome (task.resumeState.filter TaskState.isValidResumeTarget) (resumeTask task)
        (blockTask task)

/-- The work of `execute_approved`: the execution is recorded and bound to the approval
it consumes. The consumption carries the first of two readings of the clock, the
execution the second. -/
def executeWork (ap : OwnerApproval) (taskId action scope : String) :
    Cmd (Option OwnerApproval) := do
  checkFullBinding ap taskId action scope
  let now ← nowIso
  require (ap.status = .approved)
    (.error .approvalError "approval %r is not approved (%s)" [ap.id.text, ap.status.value])
  require (now < ap.expiresAt) (.approvalExpired ap.id)
  require (classifyAction ap.action .allowedWithGate ≠ .forbidden)
    (.error .forbiddenAction "action %r is forbidden" [ap.action])
  let eid ← uuid4
  let created ← nowIso
  insertActionExecution
    ⟨eid, ap.taskId, some ap.id, ap.action, ap.scope, ap.requestedBy, .executed, created⟩
  let rc ← consumeApprovalWithExecution ap.id now eid
  require (rc ≠ 0)
    (.error .approvalError "approval %r not consumable (%s)" [ap.id.text, ap.status.value])
  let task ← read fun w => gatedTask w.db ap
  whenSome task fun task => whenSome task.resumeState (resumeTask task)
  read fun w => w.db.getApproval ap.id.text

def approvalBindingRefetch (taskId action scope resultId : String) :
    Cmd (Option OwnerApproval) := do
  let ap ← read fun w => w.db.getApproval resultId
  let ap ← orRaise ap
    (.error .idempotencyError "idempotent replay: approval %r missing" [resultId])
  checkFullBinding ap taskId action scope
  pure (some ap)

/-- What becomes of an exception of a gate command: an expiry is carried out, in its own
transaction, and reported. -/
def onExpired (e : Error) : Cmd (Option OwnerApproval) := match e with
  | .approvalExpired id => do
    transaction (expireAndRelease id)
    raise (.error .approvalError "approval %r expired" [id.text])
  | e => raise e

/-- The arguments of a gate command, as recorded under its key. -/
def gateArgs (approvalId source taskId action scope : String) : Json :=
  .dict [("approval_id", .text approvalId), ("task_id", .text taskId), ("action", .text action),
    ("scope", .text scope), ("source", .text source)]

/-- What `approve`, `reject` and `execute_approved` share. -/
def gateCommand (command : String)
    (work : OwnerApproval → String → String → String → Cmd (Option OwnerApproval))
    (approvalId source taskId action scope : String) (key : Option String) :
    Cmd (Option OwnerApproval) := do
  requireOwner source
  rescue
    (idempotent key command (gateArgs approvalId source taskId action scope)
      (do
        let ap ← theApproval approvalId
        let ap ← work ap taskId action scope
        pure (ap, approvalId))
      (approvalBindingRefetch taskId action scope))
    onExpired

def approve : (approvalId source taskId action scope : String) → (key : Option String) →
    Cmd (Option OwnerApproval) :=
  gateCommand "approve" approveWork

def reject : (approvalId source taskId action scope : String) → (key : Option String) →
    Cmd (Option OwnerApproval) :=
  gateCommand "reject" rejectWork

def executeApproved : (approvalId source taskId action scope : String) →
    (key : Option String) → Cmd (Option OwnerApproval) :=
  gateCommand "execute_approved" executeWork

/-! ### What these commands move -/

section Moves

variable {τ : Type} {π : World → τ} {Q : τ → τ → Prop} [OffReports π] [Std.Refl Q] [IsTrans τ Q]
  {approvalId taskId action scope source resultId : String} {actorRole : Role}
  {key : Option String} {ap : OwnerApproval} {task : Task} {id : Uuid}

set_option synthInstance.maxSize 10000

attribute [local instance] moves_steps

instance : Moves π Q (requestActionRefetch resultId) := by
  unfold requestActionRefetch
  infer_instance

instance : Moves π Q (denyRole taskId action actorRole) := moves_bind inferInstance fun _ =>
  inferInstance

instance [∀ x, Moves π Q (insertActionExecution x)] :
    Moves π Q (requestForbidden taskId action scope actorRole source) := by
  unfold requestForbidden
  infer_instance

instance [∀ x, Moves π Q (insertActionExecution x)] :
    Moves π Q (requestAutonomous taskId action scope actorRole source) := by
  unfold requestAutonomous
  infer_instance

instance [∀ id t a s r c e, Moves π Q (insertApproval (newApproval id t a s r c e))]
    [∀ id s r, Moves π Q (updateTaskState id s r)] :
    Moves π Q (requestApproval taskId action scope actorRole source) := by
  unfold requestApproval
  infer_instance

/-- A request moves what the work of its class moves. -/
theorem moves_requestAction [∀ r, Moves π Q (setCommandIdempotency r)]
    (hforbidden : Moves π Q (requestForbidden taskId action scope actorRole source))
    (happroval : Moves π Q (requestApproval taskId action scope actorRole source))
    (hautonomous : Moves π Q (requestAutonomous taskId action scope actorRole source)) :
    Moves π Q (requestAction taskId action scope actorRole source key) := by
  refine moves_bind inferInstance fun _ => moves_bind inferInstance fun task => ?_
  cases classifyAction action task.externalActionsPolicy with
  | forbidden =>
    exact moves_bind (moves_idempotent hforbidden fun _ => inferInstance) fun _ => inferInstance
  | ownerApprovalRequired => exact moves_idempotent happroval fun _ => inferInstance
  | autonomous =>
    exact moves_bind (moves_onlyIf inferInstance) fun _ =>
      moves_idempotent hautonomous fun _ => inferInstance

instance [∀ r, Moves π Q (setCommandIdempotency r)] [∀ x, Moves π Q (insertActionExecution x)]
    [∀ id t a s r c e, Moves π Q (insertApproval (newApproval id t a s r c e))]
    [∀ id s r, Moves π Q (updateTaskState id s r)] :
    Moves π Q (requestAction taskId action scope actorRole source key) :=
  moves_requestAction inferInstance inferInstance inferInstance

instance : Moves π Q (approvalBindingRefetch taskId action scope resultId) := by
  unfold approvalBindingRefetch
  infer_instance

section Works

variable [∀ id s r, Moves π Q (updateTaskState id s r)]

instance : Moves π Q (blockTask task) := moves_bind inferInstance fun _ => inferInstance

instance {dst : TaskState} : Moves π Q (resumeTask task dst) := moves_bind inferInstance fun _ =>
  inferInstance

instance [∀ id now, Moves π Q (markExpired id now)] : Moves π Q (expireAndRelease id) := by
  unfold expireAndRelease
  infer_instance

instance [∀ id now, Moves π Q (markApproved id now)] :
    Moves π Q (approveWork ap taskId action scope) := by
  unfold approveWork
  infer_instance

instance [∀ id now, Moves π Q (markRejected id now)] :
    Moves π Q (rejectWork ap taskId action scope) := by
  unfold rejectWork
  infer_instance

instance [∀ x, Moves π Q (insertActionExecution x)]
    [∀ id now eid, Moves π Q (consumeApprovalWithExecution id now eid)] :
    Moves π Q (executeWork ap taskId action scope) := by
  unfold executeWork
  infer_instance

end Works

/-- A gate command moves what its work and the release of an expired approval move. -/
theorem moves_gateCommand [∀ r, Moves π Q (setCommandIdempotency r)] {command : String}
    {work : OwnerApproval → String → String → String → Cmd (Option OwnerApproval)}
    (hwork : ∀ ap, Moves π Q (work ap taskId action scope))
    (hrelease : ∀ id, Moves π Q (expireAndRelease id)) :
    Moves π Q (gateCommand command work approvalId source taskId action scope key) := by
  refine moves_bind inferInstance fun _ => moves_rescue ?_ fun e => ?_
  · refine moves_idempotent ?_ fun _ => inferInstance
    exact moves_bind inferInstance fun ap => moves_bind (hwork ap) fun _ => inferInstance
  · cases e with
    | approvalExpired id => exact moves_bind inferInstance fun _ => inferInstance
    | error cls text values => exact inferInstanceAs (Moves π Q (raise _))

section Commands

variable [∀ r, Moves π Q (setCommandIdempotency r)] [∀ id s r, Moves π Q (updateTaskState id s r)]
  [∀ id now, Moves π Q (markExpired id now)]

instance [∀ id now, Moves π Q (markApproved id now)] :
    Moves π Q (approve approvalId source taskId action scope key) :=
  moves_gateCommand (fun _ => inferInstance) fun _ => inferInstance

instance [∀ id now, Moves π Q (markRejected id now)] :
    Moves π Q (reject approvalId source taskId action scope key) :=
  moves_gateCommand (fun _ => inferInstance) fun _ => inferInstance

instance [∀ x, Moves π Q (insertActionExecution x)]
    [∀ id now eid, Moves π Q (consumeApprovalWithExecution id now eid)] :
    Moves π Q (executeApproved approvalId source taskId action scope key) :=
  moves_gateCommand (fun _ => inferInstance) fun _ => inferInstance

end Commands

end Moves

end Core

end ArgentTeam
