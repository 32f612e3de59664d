import ArgentTeam.Lib.Table
import ArgentTeam.JobModels

/-!
# The store

The tables of the team-control core with their constraints, and the mutators and
queries of `store.py` that the core uses. A primary key or a unique index is part of
the type of its table (`Table`), so a database that violates one cannot be built. No
foreign key is modelled: every insert below follows, in the same transaction, a lookup
of the row it refers to, and nothing is ever deleted from the tables referred to.

The tables are grouped by what depends on them: `CoreDb` holds those that decide what
a task may do next, `LogDb` those that record who did what, and `JobDb` those of the
supervisor, the merge queue and the external actions.

Besides the database, a command reads the clock and draws identifiers. Both come from
the outside: successive readings never go back, and the identifiers are arbitrary –
where one repeats, the primary key of the table it is used in refuses it.
-/

namespace ArgentTeam

open Prog

/-! ### Constraints -/

/-- Two optional keys are both there and equal. -/
def sameKey {κ : Type} [DecidableEq κ] (a b : Option κ) : Bool := a.isSome && a = b

def Project.clash (a b : Project) : Bool := a.id = b.id || sameKey a.idempotencyKey b.idempotencyKey

def Task.clash (a b : Task) : Bool := a.id = b.id || sameKey a.idempotencyKey b.idempotencyKey

def TaskRun.clash (a b : TaskRun) : Bool := a.id = b.id

/-- Primary key of role runs, and at most one started run a task. -/
def RoleRun.clash (a b : RoleRun) : Bool :=
  a.id = b.id || (a.taskId = b.taskId && a.status = .started && b.status = .started)

/-- Primary key of handoffs. -/
def Handoff.clash (a b : Handoff) : Bool := a.id = b.id

/-- Primary key of findings. -/
def Finding.clash (a b : Finding) : Bool := a.id = b.id

def TestRun.clash (a b : TestRun) : Bool := a.id = b.id

/-- Primary key of reviews. -/
def Review.clash (a b : Review) : Bool := a.id = b.id

/-- Primary key of decisions. -/
def Decision.clash (a b : Decision) : Bool := a.id = b.id

/-- Primary key of approvals, at most one live approval for a binding, and at most one
approval for an execution. -/
def OwnerApproval.clash (a b : OwnerApproval) : Bool :=
  a.id = b.id ||
    (a.taskId = b.taskId && a.action = b.action && a.scope = b.scope && a.status.live &&
      b.status.live) ||
    sameKey a.executionId b.executionId

/-- Primary key of executions. -/
def ActionExecution.clash (a b : ActionExecution) : Bool := a.id = b.id

/-- Primary key of events. -/
def Event.clash (a b : Event) : Bool := a.id = b.id

/-- Primary key of dispatches, one attempt number a position, at most one active
dispatch a task, and a session and a run bound to at most one dispatch. -/
def AgentDispatch.clash (a b : AgentDispatch) : Bool :=
  a.id = b.id ||
    (a.taskId = b.taskId && a.cycleNo = b.cycleNo && a.position = b.position &&
      a.attemptNo = b.attemptNo) ||
    (a.taskId = b.taskId && a.status.active && b.status.active) ||
    sameKey a.childSessionId b.childSessionId || sameKey a.openclawRunId b.openclawRunId

/-- Primary key of the quarantine log. -/
def AgentResultQuarantine.clash (a b : AgentResultQuarantine) : Bool := a.id = b.id

/-- Primary key of the routing ledger. -/
def RoutingRecord.clash (a b : RoutingRecord) : Bool := a.decisionId = b.decisionId

/-- Primary key of the idempotency records. -/
def CommandIdempotency.clash (a b : CommandIdempotency) : Bool :=
  a.key = b.key && a.command = b.command

/-- Primary key of jobs. -/
def SupervisorJob.clash (a b : SupervisorJob) : Bool := a.id = b.id

/-- Primary key of locks. -/
def ActionLock.clash (a b : ActionLock) : Bool := a.lockName = b.lockName

/-- Primary key of candidates, at most one candidate for a source and a target, and at
most one integrating candidate a target. -/
def IntegrationCandidate.clash (a b : IntegrationCandidate) : Bool :=
  a.id = b.id || (a.sourceJobId = b.sourceJobId && a.integrationTarget = b.integrationTarget) ||
    (a.repository = b.repository && a.integrationTarget = b.integrationTarget &&
      a.state = .integrating && b.state = .integrating)

/-- Primary key and idempotency key of requests. -/
def ExternalActionRequest.clash (a b : ExternalActionRequest) : Bool :=
  a.requestId = b.requestId || a.idempotencyKey = b.idempotencyKey

/-- Primary key of the audit. -/
def ExternalActionAudit.clash (a b : ExternalActionAudit) : Bool := a.auditId = b.auditId

/-! ### The database -/

/-- The tables that decide what a task may do next. -/
structure CoreDb where
  tasks : Table Task Task.clash
  findings : Table Finding Finding.clash
  decisions : Table Decision Decision.clash
  ownerApprovals : Table OwnerApproval OwnerApproval.clash
  actionExecutions : Table ActionExecution ActionExecution.clash
  agentDispatches : Table AgentDispatch AgentDispatch.clash

/-- The tables that record who did what. -/
structure LogDb where
  projects : Table Project Project.clash
  taskRuns : Table TaskRun TaskRun.clash
  roleRuns : Table RoleRun RoleRun.clash
  handoffs : Table Handoff Handoff.clash
  testRuns : Table TestRun TestRun.clash
  reviews : Table Review Review.clash
  events : Table Event Event.clash
  quarantine : Table AgentResultQuarantine AgentResultQuarantine.clash
  routingDecisions : Table RoutingRecord RoutingRecord.clash
  commandIdempotency : Table CommandIdempotency CommandIdempotency.clash

/-- The tables of the supervisor, the merge queue and the external actions. -/
structure JobDb where
  supervisorJobs : Table SupervisorJob SupervisorJob.clash
  actionLocks : Table ActionLock ActionLock.clash
  integrationCandidates : Table IntegrationCandidate IntegrationCandidate.clash
  externalActionRequests : Table ExternalActionRequest ExternalActionRequest.clash
  externalActionAudit : Table ExternalActionAudit ExternalActionAudit.clash

/-- The database. -/
structure Db where
  core : CoreDb
  log : LogDb
  jobs : JobDb

def Db.empty : Db where
  core := ⟨.empty, .empty, .empty, .empty, .empty, .empty⟩
  log := ⟨.empty, .empty, .empty, .empty, .empty, .empty, .empty, .empty, .empty, .empty⟩
  jobs := ⟨.empty, .empty, .empty, .empty, .empty⟩

/-- What a command runs in: the database, and the outside. -/
structure World where
  db : Db
  clock : ℕ →o Time
  reads : ℕ
  /-- The identifiers `uuid4` draws. -/
  uuids : ℕ → Uuid
  draws : ℕ

/-- The identifiers of a concrete run: dashes for the sixteens, and a last digit. -/
def Uuid.numbered (n : ℕ) : Uuid where
  text := String.ofList (List.replicate (n / 16) '-' ++ [Nat.digitChar (n % 16)])
  hexDash := by
    have hdigit : ∀ k < 16, isHexDash (Nat.digitChar k) = true := by decide
    simp [hdigit (n % 16) (Nat.mod_lt n (by decide)), show isHexDash '-' = true by decide]

theorem Uuid.numbered_injective : Function.Injective Uuid.numbered := by
  intro m n h
  have htext := congrArg String.toList (congrArg Uuid.text h)
  simp only [Uuid.numbered, String.toList_ofList] at htext
  obtain ⟨hdashes, hdigits⟩ := List.append_inj' htext rfl
  have hdiv : m / 16 = n / 16 := by simpa using congrArg List.length hdashes
  have hdigit : ∀ a < 16, ∀ b < 16, Nat.digitChar a = Nat.digitChar b → a = b := by decide
  have hmod : m % 16 = n % 16 := hdigit _ (Nat.mod_lt m (by decide)) _ (Nat.mod_lt n (by decide))
    (by simpa using hdigits)
  omega

/-- A world to start a concrete run in: an empty database and numbered identifiers. -/
def World.initial (clock : ℕ →o Time) : World where
  db := Db.empty
  clock := clock
  reads := 0
  uuids := Uuid.numbered
  draws := 0

/-- A command or a step of one. -/
abbrev Cmd := Prog World Error

def integrityError : Error := .error .integrityError "UNIQUE constraint failed" []

/-- `with self._transaction()`: a raise rolls the database back, and nothing else. -/
def transaction {α : Type} (m : Cmd α) : Cmd α :=
  atomically World.db (fun db w => { w with db }) m

/-- Take a reading of the clock. -/
def nowIso : Cmd Time := fun w => (.ok (w.clock w.reads), { w with reads := w.reads + 1 })

/-- Take a reading of the clock and add a time to live, in seconds. -/
def expiryIso (ttlSeconds : ℕ) : Cmd Time := do
  let now ← nowIso
  pure (now + ttlSeconds * 1000000)

/-- Draw an identifier. -/
def uuid4 : Cmd Uuid := fun w => (.ok (w.uuids w.draws), { w with draws := w.draws + 1 })

section Outside

variable {w w' : World} {t : Time} {u : Uuid} {e : Error} {α : Type} {m : Cmd α} {a : α}

@[simp]
theorem returns_nowIso :
    nowIso.Returns w t w' ↔ w.clock w.reads = t ∧ { w with reads := w.reads + 1 } = w' := by
  simp [nowIso, Returns]

@[simp]
theorem not_raises_nowIso : ¬nowIso.Raises w e w' := by
  simp [nowIso, Raises]

@[simp]
theorem returns_uuid4 :
    uuid4.Returns w u w' ↔ w.uuids w.draws = u ∧ { w with draws := w.draws + 1 } = w' := by
  simp [uuid4, Returns]

@[simp]
theorem not_raises_uuid4 : ¬uuid4.Raises w e w' := by
  simp [uuid4, Raises]

@[simp]
theorem returns_transaction : (transaction m).Returns w a w' ↔ m.Returns w a w' :=
  returns_atomically

@[simp]
theorem raises_transaction :
    (transaction m).Raises w e w' ↔ ∃ w₁, m.Raises w e w₁ ∧ { w₁ with db := w.db } = w' :=
  raises_atomically

end Outside

/-! ### Places of the tables -/

namespace Tables

def tasks : Relvar World Task Task.clash :=
  ⟨fun w => w.db.core.tasks,
    fun t w => { w with db := { w.db with core := { w.db.core with tasks := t } } }⟩

def findings : Relvar World Finding Finding.clash :=
  ⟨fun w => w.db.core.findings,
    fun t w => { w with db := { w.db with core := { w.db.core with findings := t } } }⟩

def decisions : Relvar World Decision Decision.clash :=
  ⟨fun w => w.db.core.decisions,
    fun t w => { w with db := { w.db with core := { w.db.core with decisions := t } } }⟩

def ownerApprovals : Relvar World OwnerApproval OwnerApproval.clash :=
  ⟨fun w => w.db.core.ownerApprovals,
    fun t w => { w with db := { w.db with core := { w.db.core with ownerApprovals := t } } }⟩

def actionExecutions : Relvar World ActionExecution ActionExecution.clash :=
  ⟨fun w => w.db.core.actionExecutions,
    fun t w => { w with db := { w.db with core := { w.db.core with actionExecutions := t } } }⟩

def agentDispatches : Relvar World AgentDispatch AgentDispatch.clash :=
  ⟨fun w => w.db.core.agentDispatches,
    fun t w => { w with db := { w.db with core := { w.db.core with agentDispatches := t } } }⟩

def projects : Relvar World Project Project.clash :=
  ⟨fun w => w.db.log.projects,
    fun t w => { w with db := { w.db with log := { w.db.log with projects := t } } }⟩

def taskRuns : Relvar World TaskRun TaskRun.clash :=
  ⟨fun w => w.db.log.taskRuns,
    fun t w => { w with db := { w.db with log := { w.db.log with taskRuns := t } } }⟩

def roleRuns : Relvar World RoleRun RoleRun.clash :=
  ⟨fun w => w.db.log.roleRuns,
    fun t w => { w with db := { w.db with log := { w.db.log with roleRuns := t } } }⟩

def handoffs : Relvar World Handoff Handoff.clash :=
  ⟨fun w => w.db.log.handoffs,
    fun t w => { w with db := { w.db with log := { w.db.log with handoffs := t } } }⟩

def testRuns : Relvar World TestRun TestRun.clash :=
  ⟨fun w => w.db.log.testRuns,
    fun t w => { w with db := { w.db with log := { w.db.log with testRuns := t } } }⟩

def reviews : Relvar World Review Review.clash :=
  ⟨fun w => w.db.log.reviews,
    fun t w => { w with db := { w.db with log := { w.db.log with reviews := t } } }⟩

def events : Relvar World Event Event.clash :=
  ⟨fun w => w.db.log.events,
    fun t w => { w with db := { w.db with log := { w.db.log with events := t } } }⟩

/-- The place of the quarantine log. -/
def quarantine : Relvar World AgentResultQuarantine AgentResultQuarantine.clash :=
  ⟨fun w => w.db.log.quarantine,
    fun t w => { w with db := { w.db with log := { w.db.log with quarantine := t } } }⟩

/-- The place of the routing ledger. -/
def routingDecisions : Relvar World RoutingRecord RoutingRecord.clash :=
  ⟨fun w => w.db.log.routingDecisions,
    fun t w => { w with db := { w.db with log := { w.db.log with routingDecisions := t } } }⟩

/-- The place of the idempotency records. -/
def commandIdempotency : Relvar World CommandIdempotency CommandIdempotency.clash :=
  ⟨fun w => w.db.log.commandIdempotency,
    fun t w => { w with db := { w.db with log := { w.db.log with commandIdempotency := t } } }⟩

def externalActionRequests : Relvar World ExternalActionRequest ExternalActionRequest.clash :=
  ⟨fun w => w.db.jobs.externalActionRequests, fun t w =>
    { w with db := { w.db with jobs := { w.db.jobs with externalActionRequests := t } } }⟩

def externalActionAudit : Relvar World ExternalActionAudit ExternalActionAudit.clash :=
  ⟨fun w => w.db.jobs.externalActionAudit,
    fun t w => { w with db := { w.db with jobs := { w.db.jobs with externalActionAudit := t } } }⟩

end Tables

/-! ### Queries -/

namespace Db

def getProject (db : Db) (id : String) : Option Project :=
  db.log.projects.lookup (fun r => r.id.text) id

def getTask (db : Db) (id : String) : Option Task :=
  db.core.tasks.lookup (fun r => r.id.text) id

def getTaskRun (db : Db) (id : String) : Option TaskRun :=
  db.log.taskRuns.lookup (fun r => r.id.text) id

def getLatestTaskRun (db : Db) (taskId : Uuid) : Option TaskRun :=
  (db.log.taskRuns.rows.filter fun r => r.taskId = taskId).getLast?

def getRoleRun (db : Db) (id : String) : Option RoleRun :=
  db.log.roleRuns.lookup (fun r => r.id.text) id

def getActiveRoleRun (db : Db) (taskId : Uuid) : Option RoleRun :=
  db.log.roleRuns.rows.find? fun r => r.taskId = taskId && r.status = .started

def getLatestHandoff (db : Db) (taskId : Uuid) : Option Handoff :=
  (db.log.handoffs.rows.filter fun r => r.taskId = taskId).getLast?

def getFinding (db : Db) (id : String) : Option Finding :=
  db.core.findings.lookup (fun r => r.id.text) id

def listFindings (db : Db) (taskId : Uuid) : List Finding :=
  db.core.findings.rows.filter fun r => r.taskId = taskId

def getTestRun (db : Db) (id : String) : Option TestRun :=
  db.log.testRuns.lookup (fun r => r.id.text) id

def getReview (db : Db) (id : String) : Option Review :=
  db.log.reviews.lookup (fun r => r.id.text) id

def getDecision (db : Db) (id : String) : Option Decision :=
  db.core.decisions.lookup (fun r => r.id.text) id

def listDecisions (db : Db) (taskId : Uuid) : List Decision :=
  db.core.decisions.rows.filter fun r => r.taskId = taskId

def getApproval (db : Db) (id : String) : Option OwnerApproval :=
  db.core.ownerApprovals.lookup (fun r => r.id.text) id

def listApprovals (db : Db) (taskId : Uuid) : List OwnerApproval :=
  db.core.ownerApprovals.rows.filter fun r => r.taskId = taskId

def getActionExecution (db : Db) (id : String) : Option ActionExecution :=
  db.core.actionExecutions.lookup (fun r => r.id.text) id

def getCommandIdempotency (db : Db) (key command : String) : Option CommandIdempotency :=
  db.log.commandIdempotency.lookup (fun r => (r.key, r.command)) (key, command)

def getDispatch (db : Db) (id : String) : Option AgentDispatch :=
  db.core.agentDispatches.lookup (fun r => r.id.text) id

end Db

/-- The order in which dispatches are listed: cycle, position, attempt. -/
def AgentDispatch.le (a b : AgentDispatch) : Bool :=
  a.cycleNo < b.cycleNo || (a.cycleNo = b.cycleNo &&
    (a.position < b.position || (a.position = b.position && a.attemptNo ≤ b.attemptNo)))

namespace Db

/-- `list_dispatches` of one task. -/
def listDispatches (db : Db) (taskId : Uuid) : List AgentDispatch :=
  (db.core.agentDispatches.rows.filter fun r => r.taskId = taskId).insertionSort fun a b =>
    a.le b

/-- `list_dispatches` of all tasks. -/
def listAllDispatches (db : Db) : List AgentDispatch :=
  db.core.agentDispatches.rows.insertionSort fun a b => a.le b

variable {d : AgentDispatch}

@[simp]
theorem mem_listDispatches {db : Db} {taskId : Uuid} :
    d ∈ db.listDispatches taskId ↔ d ∈ db.core.agentDispatches.rows ∧ d.taskId = taskId := by
  simp [listDispatches]

@[simp]
theorem mem_listAllDispatches {db : Db} :
    d ∈ db.listAllDispatches ↔ d ∈ db.core.agentDispatches.rows := by
  simp [listAllDispatches]

end Db

/-! ### Rows and their keys

Rows of a core table are known by their primary key. -/

theorem Task.clash_comm (a b : Task) : a.clash b = b.clash a := by
  simp only [Task.clash, sameKey]
  grind

theorem Finding.clash_comm (a b : Finding) : a.clash b = b.clash a := by
  simp only [Finding.clash]
  grind

theorem OwnerApproval.clash_comm (a b : OwnerApproval) : a.clash b = b.clash a := by
  simp only [OwnerApproval.clash, sameKey]
  grind

theorem AgentDispatch.clash_comm (a b : AgentDispatch) : a.clash b = b.clash a := by
  simp only [AgentDispatch.clash, sameKey]
  grind

section Keys

variable {db : Db} {id : String}

theorem Task.eq_of_id {tasks : Table Task Task.clash} {a b : Task} (ha : a ∈ tasks.rows)
    (hb : b ∈ tasks.rows) (h : a.id = b.id) : a = b :=
  Table.eq_of_clash Task.clash_comm ha hb (by simp [Task.clash, h])

theorem OwnerApproval.eq_of_id {approvals : Table OwnerApproval OwnerApproval.clash}
    {a b : OwnerApproval} (ha : a ∈ approvals.rows) (hb : b ∈ approvals.rows) (h : a.id = b.id) :
    a = b :=
  Table.eq_of_clash OwnerApproval.clash_comm ha hb (by simp [OwnerApproval.clash, h])

theorem AgentDispatch.eq_of_id {dispatches : Table AgentDispatch AgentDispatch.clash}
    {a b : AgentDispatch} (ha : a ∈ dispatches.rows) (hb : b ∈ dispatches.rows)
    (h : a.id = b.id) : a = b :=
  Table.eq_of_clash AgentDispatch.clash_comm ha hb (by simp [AgentDispatch.clash, h])

theorem Db.getTask_eq_some {t : Task} :
    db.getTask id = some t ↔ t ∈ db.core.tasks.rows ∧ t.id.text = id :=
  Table.lookup_eq_some_iff Task.clash_comm fun a b h => by
    simp [Task.clash, Uuid.text_injective h]

theorem Db.getFinding_eq_some {f : Finding} :
    db.getFinding id = some f ↔ f ∈ db.core.findings.rows ∧ f.id.text = id :=
  Table.lookup_eq_some_iff Finding.clash_comm fun a b h => by
    simp [Finding.clash, Uuid.text_injective h]

theorem Db.getApproval_eq_some {a : OwnerApproval} :
    db.getApproval id = some a ↔ a ∈ db.core.ownerApprovals.rows ∧ a.id.text = id :=
  Table.lookup_eq_some_iff OwnerApproval.clash_comm fun a b h => by
    simp [OwnerApproval.clash, Uuid.text_injective h]

theorem Db.getDispatch_eq_some :
    db.getDispatch id = some d ↔ d ∈ db.core.agentDispatches.rows ∧ d.id.text = id :=
  Table.lookup_eq_some_iff AgentDispatch.clash_comm fun a b h => by
    simp [AgentDispatch.clash, Uuid.text_injective h]

end Keys

/-! ### What becomes of an approval

The row of an approval after each transition of its status. -/

namespace OwnerApproval

def approve (now : Time) (a : OwnerApproval) : OwnerApproval :=
  { a with status := .approved, decidedAt := some now, approvedAt := some now }

def reject (now : Time) (a : OwnerApproval) : OwnerApproval :=
  { a with status := .rejected, decidedAt := some now, closedAt := some now }

/-- It is consumed, and no execution is bound to it. -/
def consume (now : Time) (a : OwnerApproval) : OwnerApproval :=
  { a with status := .consumed, consumedAt := some now }

def consumeWith (now : Time) (executionId : Uuid) (a : OwnerApproval) : OwnerApproval :=
  { a with
    status := .consumed, consumedAt := some now, executionId := some executionId,
    executedAt := some now, closedAt := some now }

def expire (a : OwnerApproval) : OwnerApproval :=
  { a with status := .expired, closedAt := some a.expiresAt }

variable {now : Time} {executionId : Uuid} {a : OwnerApproval}

@[simp]
theorem approve_id : (a.approve now).id = a.id := rfl

@[simp]
theorem reject_id : (a.reject now).id = a.id := rfl

@[simp]
theorem consume_id : (a.consume now).id = a.id := rfl

@[simp]
theorem consumeWith_id : (a.consumeWith now executionId).id = a.id := rfl

@[simp]
theorem expire_id : a.expire.id = a.id := rfl

end OwnerApproval

/-! ### Mutators -/

namespace Store

def insertProject (p : Project) : Cmd Unit := Tables.projects.insert integrityError p

def insertTask (t : Task) : Cmd Unit := Tables.tasks.insert integrityError t

def updateTaskState (taskId : Uuid) (state : TaskState) (resume : Option TaskState) : Cmd ℕ :=
  Tables.tasks.update integrityError (fun t => t.id = taskId)
    fun t => { t with state, resumeState := resume }

def insertTaskRun (r : TaskRun) : Cmd Unit := Tables.taskRuns.insert integrityError r

def updateTaskRunStatus (runId : Uuid) (status : RunStatus) : Cmd ℕ :=
  Tables.taskRuns.update integrityError (fun r => r.id = runId) fun r => { r with status }

def insertRoleRun (r : RoleRun) : Cmd Unit := Tables.roleRuns.insert integrityError r

def updateRoleRunStatus (runId : Uuid) (status : RunStatus) : Cmd ℕ :=
  Tables.roleRuns.update integrityError (fun r => r.id = runId) fun r => { r with status }

def insertHandoff (h : Handoff) : Cmd Unit := Tables.handoffs.insert integrityError h

def insertFinding (f : Finding) : Cmd Unit := Tables.findings.insert integrityError f

def updateFindingStatus (findingId : Uuid) (status : FindingStatus) : Cmd ℕ :=
  Tables.findings.update integrityError (fun f => f.id = findingId) fun f => { f with status }

def insertTestRun (r : TestRun) : Cmd Unit := Tables.testRuns.insert integrityError r

def insertReview (r : Review) : Cmd Unit := Tables.reviews.insert integrityError r

def insertDecision (d : Decision) : Cmd Unit := Tables.decisions.insert integrityError d

def insertApproval (a : OwnerApproval) : Cmd Unit := Tables.ownerApprovals.insert integrityError a

/-- `_mark_approved`: only a pending, unexpired approval. -/
def markApproved (approvalId : Uuid) (now : Time) : Cmd ℕ :=
  Tables.ownerApprovals.update integrityError
    (fun a => a.id = approvalId && (a.status = .pending && now < a.expiresAt))
    (OwnerApproval.approve now)

/-- `_mark_rejected`: only a pending approval. -/
def markRejected (approvalId : Uuid) (now : Time) : Cmd ℕ :=
  Tables.ownerApprovals.update integrityError
    (fun a => a.id = approvalId && a.status = .pending) (OwnerApproval.reject now)

/-- `_consume_approval`: only an approved, unexpired approval; no execution is bound. -/
def consumeApproval (approvalId : Uuid) (now : Time) : Cmd ℕ :=
  Tables.ownerApprovals.update integrityError
    (fun a => a.id = approvalId && (a.status = .approved && now < a.expiresAt))
    (OwnerApproval.consume now)

/-- `_consume_approval_with_execution`: the same, binding the execution. -/
def consumeApprovalWithExecution (approvalId : Uuid) (now : Time) (executionId : Uuid) : Cmd ℕ :=
  Tables.ownerApprovals.update integrityError
    (fun a => a.id = approvalId && (a.status = .approved && now < a.expiresAt))
    (OwnerApproval.consumeWith now executionId)

/-- `_mark_expired`: only a live, expired approval. -/
def markExpired (approvalId : Uuid) (now : Time) : Cmd ℕ :=
  Tables.ownerApprovals.update integrityError
    (fun a => a.id = approvalId && (a.status.live && a.expiresAt ≤ now)) OwnerApproval.expire

def insertActionExecution (x : ActionExecution) : Cmd Unit :=
  Tables.actionExecutions.insert integrityError x

def insertDispatch (d : AgentDispatch) : Cmd Unit := Tables.agentDispatches.insert integrityError d

/-- `_update_dispatch_bind`: only a pending or recovery-pending dispatch. -/
def updateDispatchBind (e : Error) (dispatchId : Uuid)
    (childSessionId openclawRunId : String)
    (actualProvider actualModel thinkingTier : Option String) :
    Cmd ℕ :=
  Tables.agentDispatches.update e
    (fun d => d.id = dispatchId && (d.status = .pending || d.status = .recoveryPending))
    fun d => { d with
      status := .running, childSessionId := some childSessionId,
      openclawRunId := some openclawRunId, actualProvider, actualModel, thinkingTier }

/-- `_reject_dispatch_cas`: only a pending or recovery-pending dispatch. -/
def rejectDispatchCas (dispatchId : Uuid) : Cmd ℕ :=
  Tables.agentDispatches.update integrityError
    (fun d => d.id = dispatchId && (d.status = .pending || d.status = .recoveryPending))
    fun d => { d with status := .rejected }

def updateDispatchStatus (dispatchId : Uuid) (status : DispatchStatus) : Cmd ℕ :=
  Tables.agentDispatches.update integrityError (fun d => d.id = dispatchId)
    fun d => { d with status }

/-- `_consume_dispatch`: only a running or recovery-pending dispatch. -/
def consumeDispatch (dispatchId : Uuid) (result : Json) : Cmd ℕ :=
  Tables.agentDispatches.update integrityError
    (fun d => d.id = dispatchId && (d.status = .running || d.status = .recoveryPending))
    fun d => { d with status := .consumed, result := some result }

/-- `_insert_quarantine`: its claimed task has to be bindable. -/
def insertQuarantine (q : AgentResultQuarantine) : Cmd Unit := do
  require (q.taskId.bindable = true) (.error .interfaceError "Error binding parameter" [])
  Tables.quarantine.insert integrityError q

def setCommandIdempotency (r : CommandIdempotency) : Cmd Unit :=
  Tables.commandIdempotency.insertOrIgnore r

/-- `_insert_routing_decision`: a repeated decision is a no-op, a collision with
different content an error. -/
def insertRoutingDecision (r : RoutingRecord) : Cmd Unit := do
  let existing ← read fun w => w.db.log.routingDecisions.lookup
    RoutingRecord.decisionId r.decisionId
  caseSome existing
    (fun old => require (old = r)
      (.error .dispatchError "routing_decision %r collision: differs from the persisted decision"
        [r.decisionId]))
    (Tables.routingDecisions.insert integrityError r)

end Store

/-! ### Opening the store again

`_create_schema` on a database of the current version: every statement of the schema
is a no-op but for the closure backfill of `_migrate`, which runs on every open and
recomputes five columns of every approval from its status. -/

namespace Store

/-- The executions bound to an approval, oldest first. -/
def executionsOf (c : CoreDb) (approvalId : Uuid) : List ActionExecution :=
  c.actionExecutions.rows.filter fun x => x.approvalId = some approvalId

/-- The closure columns the backfill writes. -/
structure Closure where
  bindingHash : Binding
  approvedAt : Option Time
  executionId : Option Uuid
  executedAt : Option Time
  closedAt : Option Time

def closureOf (a : OwnerApproval) : Closure :=
  ⟨a.bindingHash, a.approvedAt, a.executionId, a.executedAt, a.closedAt⟩

/-- The approval with other closure columns. -/
def withClosure (c : Closure) (a : OwnerApproval) : OwnerApproval :=
  { a with
    bindingHash := c.bindingHash, approvedAt := c.approvedAt, executionId := c.executionId,
    executedAt := c.executedAt, closedAt := c.closedAt }

/-- The closure columns as the backfill recomputes them; there are none for a consumed
approval that is not bound to exactly one execution. -/
def recomputed (c : CoreDb) (a : OwnerApproval) : Option Closure :=
  let binding : Binding := ⟨a.taskId.text, a.action, a.scope⟩
  match a.status with
  | .pending => some ⟨binding, none, none, none, none⟩
  | .approved => some ⟨binding, a.decidedAt, none, none, none⟩
  | .rejected => some ⟨binding, none, none, none, a.decidedAt⟩
  | .expired => some ⟨binding, none, none, none, some a.expiresAt⟩
  | .consumed => match executionsOf c a.id with
    | [x] => some ⟨binding, a.decidedAt, some x.id, some x.createdAt, a.consumedAt⟩
    | _ => none

/-- The error with which the backfill refuses to open the store. -/
def migrationError (a : OwnerApproval) : Error :=
  .error .integrityError
    "V4 migration fail-closed: consumed approval %r has not exactly 1 execution row" [a.id.text]

def backfill (a : OwnerApproval) : Cmd Unit := do
  let c ← read fun w => recomputed w.db.core a
  let c ← orRaise c (migrationError a)
  let _ ← Tables.ownerApprovals.update integrityError (fun b => b.id = a.id) (withClosure c)
  pure ()

/-- **Reopening**: `_create_schema` on a database of the current schema version. -/
def createSchema : Cmd Unit := transaction do
  let rows ← read fun w => w.db.core.ownerApprovals.rows
  forEach backfill rows

end Store

end ArgentTeam
