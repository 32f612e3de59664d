import ArgentTeam.Broker.Settle

/-!
# Calls of the broker, one step at a time

Any number of calls of the broker run on the same tables. A call is followed from one access to
the tables, or to the provider, to the next, and carries the rows it has read; between two of
its steps other calls take theirs, leases and locks change hands, approvals are given, time
passes, and a call may stop for good. A history notes what the calls have checked, what they
have consumed, and when they were with the provider.
-/

namespace ArgentTeam

open MergeQueue (Holder)

namespace Broker

namespace Calls

/-! ### Calls -/

/-- The calls that work on a request. -/
inductive Op
  | authorizeAutonomous
  | authorizeOwner (approvalId : String)
  | execute (h : Holder)
  | redriveWaiting (h : Holder)
  | reconcile (h : Holder)
  deriving DecidableEq

/-- The states of a request a call goes on with. -/
def Op.accepts : Op → RequestState → Bool
  | authorizeAutonomous, state => !state.isTerminal
  | authorizeOwner _, state => state = .pending
  | execute _, state => state = .authorized
  | redriveWaiting _, state => state = .waitingExternal
  | reconcile _, state => state = .executing || state = .waitingExternal

/-- The approval a call is made with, where it is made with one. -/
def Op.approvalId? : Op → Option String
  | authorizeOwner approvalId => some approvalId
  | authorizeAutonomous | execute _ | redriveWaiting _ | reconcile _ => none

/-- The holder a call is made for, where it is made for one. -/
def Op.holder? : Op → Option Holder
  | authorizeAutonomous | authorizeOwner _ => none
  | execute h | redriveWaiting h | reconcile h => some h

/-- Where a call stands between two of its steps, with what it has read. -/
inductive Point
  | reading
  /-- It is about to see whether the request has expired. -/
  | expiry (row : RequestRow)
  /-- It is about to block the request, which has expired. -/
  | expiring (row : RequestRow)
  | policy (row : RequestRow)
  | denying (row : RequestRow) (reason : String)
  | approval (row : RequestRow)
  /-- It is about to see whether the approval has expired, and who gave it. -/
  | approvalExpiry (row : RequestRow) (ap : ApprovalRow)
  /-- It is about to compare the approval with the request. -/
  | binding (row : RequestRow) (ap : ApprovalRow) (now : Time)
  | consuming (row : RequestRow) (ap : ApprovalRow) (job : Option SupervisorJob) (now : Time)
  | authorizing (row : RequestRow) (decision : PolicyDecision)
  | locking (row : RequestRow)
  /-- It is about to move the request to EXECUTING. -/
  | opening (row : RequestRow)
  /-- The request is EXECUTING, and the call is about to check what has to hold. -/
  | preparing (row : RequestRow)
  | dispatching (row : RequestRow)
  /-- It is about to settle the request: with an answer, or because a precondition fails. -/
  | settling (row : RequestRow) (answer : Option Answer)
  /-- It is in the adapter's `observe`. -/
  | observing (row : RequestRow)
  /-- It is about to write down what was observed. -/
  | recording (row : RequestRow) (o : ProviderObservation)
  | releasing (row : RequestRow)
  | returned
  deriving DecidableEq

structure Call where
  op : Op
  requestId : String
  point : Point
  deriving DecidableEq

/-- What is noted of a call. -/
inductive Event
  /-- It has found that the request, which expires then, has not expired. -/
  | unexpired (c : ℕ) (requestId : String) (expiresAt : Option Time) (now : Time)
  | evaluated (c : ℕ) (op : Op) (requestId : String) (decision : PolicyDecision)
  /-- It has consumed an approval for a request, whose source job was this one when the approval
  was compared with it. -/
  | consumed (c : ℕ) (approvalId : String) (row : RequestRow) (job : Option SupervisorJob)
    (ap : ApprovalRow) (now : Time)
  | authorized (c : ℕ) (requestId : String)
  /-- It has called an operation of the adapter. -/
  | dispatched (c : ℕ) (requestId : String)
  | answered (c : ℕ) (requestId : String) (answer : Answer)
  /-- It has called `observe` of the adapter. -/
  | observed (c : ℕ) (requestId : String)

/-- The tables, the calls and their history. -/
structure System extends BrokerDb where
  calls : ℕ → Option Call
  log : List Event

/-! ### The steps of a call -/

def lockName (r : RequestRow) : String :=
  "repo:" ++ r.repository ++ ":external-action:" ++ r.requestId

/-- All the policy reads of the store: the source job. -/
def jobStore (id : String) (job : Option SupervisorJob) : Db :=
  { Db.empty with jobs := { Db.empty.jobs with
      supervisorJobs := ⟨job.toList.map fun j => { j with id := id },
        by cases job <;> simp⟩ } }

/-- `evaluate_policy` of a row. -/
def policyOf (d : Driver) (db : BrokerDb) (r : RequestRow) : PolicyDecision × String :=
  evaluatePolicy d.toBroker (jobStore r.sourceJobId (db.jobs r.sourceJobId))
    r.toExternalActionRequest

/-- `MUTATION_ACTIONS`. -/
def isMutation (action : String) : Bool :=
  action ∈ ["push_feature_branch", "create_pull_request", "update_pull_request",
    "merge_pull_request", "create_release", "deploy_production"]

/-- The actions `_dispatch` has an operation of the adapter for. -/
def isOperation (action : String) : Bool :=
  action ∈ ["read_repository", "read_ref", "read_pull_request", "read_checks",
    "push_feature_branch", "create_pull_request", "update_pull_request"]

/-- What `_dispatch` returns for the others. -/
def unsupported (action : String) : ProviderResult where
  outcome := PyStr.ofString Outcome.validationFailed.text
  detail := some (PyStr.ofString ("unsupported action '" ++ action ++ "'"))

/-- `_check_preconditions`: the source job is still done. -/
def sourceDone (db : BrokerDb) (r : RequestRow) : Bool :=
  (db.jobs r.sourceJobId).any fun j => j.terminal = some "DONE"

/-- What `_drive` makes of an answer, or of a precondition that fails, up to the transition. -/
def settlement (d : Driver) (now : Time) (h : Holder) (r : RequestRow) :
    Option Answer → Option (RequestState × Columns)
  | some a => settle d now h r.attemptCount a
  | none => finalize d .blocked (some "PRECONDITION_FAILED") (fixedCode "source_terminal_mutated")
      none none

/-- The approval of an identifier, if it can be consumed: `_consume_approval`. -/
def consumable (db : BrokerDb) (approvalId : String) (now : Time) : Option ApprovalRow :=
  (db.approvals approvalId).filter fun a => a.status = .approved ∧ now < a.expiresAt

def consume (db : BrokerDb) (approvalId : String) (a : ApprovalRow) (now : Time) : BrokerDb :=
  { db with
    approvals := Function.update db.approvals approvalId
      (some { a with toOwnerApproval := a.toOwnerApproval.consume now }) }

/-- What a step of a call makes of the tables, where it leads, and what is noted. -/
structure Turn where
  db : BrokerDb
  point : Point
  notes : List Event := []

/-- A step that asks for a transition, and goes on in the same way whether it goes through. -/
def Turn.attempt (db : BrokerDb) (attempted : Except Fault BrokerDb) (p : Point) : Turn :=
  ⟨attempted.toOption.getD db, p, []⟩

section Steps

variable (d : Driver) (db : BrokerDb) (c : ℕ) (call : Call)

def readingTurn : Turn :=
  match db.requests call.requestId with
  | none => ⟨db, .returned, []⟩
  | some row =>
    if call.op.accepts row.state = true then ⟨db, .expiry row, []⟩ else ⟨db, .returned, []⟩

/-- `_check_expired`. -/
def expiryTurn (row : RequestRow) : Turn :=
  if row.expiresAt.any (· ≤ db.now) then ⟨db, .expiring row, []⟩
  else
    ⟨db,
      match call.op with
      | .reconcile _ => .locking row
      | .authorizeAutonomous | .authorizeOwner _ | .execute _ | .redriveWaiting _ => .policy row,
      [.unexpired c call.requestId row.expiresAt db.now]⟩

/-- `_expire`. -/
def expiringTurn (row : RequestRow) : Turn :=
  .attempt db (transitionRow db call.requestId row.state .blocked row.revision
    { lastFailureClass := some (some "PRECONDITION_FAILED"),
      lastErrorCode := some (fixedCode "EXPIRED") }) .returned

/-- Where a call goes once the policy has decided. -/
def afterPolicy (row : RequestRow) (decision : PolicyDecision) (reason : String) : Op → Point
  | .authorizeAutonomous =>
    if decision = .allowAutonomous then .authorizing row decision else .denying row reason
  | .authorizeOwner _ => if decision = .deny then .returned else .approval row
  | .execute _ | .redriveWaiting _ => if decision = .deny then .denying row reason else .locking row
  | .reconcile _ => .returned

def policyTurn (row : RequestRow) : Turn :=
  ⟨db, afterPolicy row (policyOf d db row).1 (policyOf d db row).2 call.op,
    [.evaluated c call.op call.requestId (policyOf d db row).1]⟩

/-- `_deny`. -/
def denyingTurn (row : RequestRow) (reason : String) : Turn :=
  .attempt db (transitionRow db call.requestId row.state .denied row.revision
    { lastFailureClass := some (some "POLICY_DENIED"),
      lastErrorCode := some (fixedCode reason) }) .returned

/-- It reads the approval, which has to be approved. -/
def approvalTurn (row : RequestRow) (approvalId : String) : Turn :=
  match (db.approvals approvalId).filter fun ap => ap.status = .approved with
  | none => ⟨db, .returned, []⟩
  | some ap => ⟨db, .approvalExpiry row ap, []⟩

def consumingTurn (row : RequestRow) (job : Option SupervisorJob) (now : Time)
    (approvalId : String) : Turn :=
  match consumable db approvalId now with
  | none => ⟨db, .returned, []⟩
  | some a => ⟨consume db approvalId a now, .authorizing row .ownerGateRequired,
      [.consumed c approvalId row job a now]⟩

def authorizingTurn (row : RequestRow) (decision : PolicyDecision) : Turn :=
  match transitionRow db call.requestId .pending .authorized row.revision
      { authorizationState := some decision.value, lastErrorCode := some none } with
  | .ok db' => ⟨db', .returned, [.authorized c call.requestId]⟩
  | .error _ => ⟨db, .returned, []⟩

/-- It acquires the lock, and calls `observe` where it reconciles. -/
def lockingTurn (row : RequestRow) (h : Holder) : Turn :=
  match MergeQueue.tryAcquireActionLock db.toDb (lockName row) h with
  | none | some (false, _) => ⟨db, .returned, []⟩
  | some (true, queue) =>
    match call.op with
    | .reconcile _ =>
      ⟨{ db with toDb := queue }, .observing row, [.observed c call.requestId]⟩
    | .authorizeAutonomous | .authorizeOwner _ | .execute _ | .redriveWaiting _ =>
      ⟨{ db with toDb := queue }, .opening row, []⟩

/-- It moves the request to EXECUTING. -/
def openingTurn (row : RequestRow) (h : Holder) : Turn :=
  match transitionRowAuthoritative db (lockName row) h call.requestId row.state .executing
      row.revision { holder := some (some h) } with
  | .ok db' => ⟨db', .preparing (movedRow .executing { holder := some (some h) } row), []⟩
  | .error _ => ⟨db, .releasing row, []⟩

/-- It goes on to the adapter, if nothing keeps it from there. -/
def preparingTurn (row : RequestRow) : Turn :=
  if isMutation row.action = true ∧ d.writeEnabled = false then
    ⟨db, .settling row (some (.raised .writeDisabled)), []⟩
  else if sourceDone db row = false then ⟨db, .settling row none, []⟩
  else if isOperation row.action = true then
    ⟨db, .dispatching row, [.dispatched c call.requestId]⟩
  else ⟨db, .settling row (some (.result (unsupported row.action))), []⟩

/-- It settles the request; where it raises, nothing is written. -/
def settlingTurn (row : RequestRow) (answer : Option Answer) (h : Holder) : Turn :=
  match settlement d db.now h row answer with
  | none => ⟨db, .releasing row, []⟩
  | some (dst, cols) =>
    .attempt db (transitionRowAuthoritative db (lockName row) h call.requestId row.state dst
      row.revision cols) (.releasing row)

/-- It writes down what was observed. -/
def recordingTurn (row : RequestRow) (o : ProviderObservation) (h : Holder) : Turn :=
  match (if o.found = true then found o else none) with
  | none => ⟨db, .releasing row, []⟩
  | some cols =>
    .attempt db (transitionRowAuthoritative db (lockName row) h call.requestId row.state
      .succeeded row.revision cols) (.releasing row)

/-- The next step of a call, as the provider answers. -/
def turn (answer : Answer) (seen : Observed) : Point → Turn
  | .reading => readingTurn db call
  | .expiry row => expiryTurn db c call row
  | .expiring row => expiringTurn db call row
  | .policy row => policyTurn d db c call row
  | .denying row reason => denyingTurn db call row reason
  | .approval row => call.op.approvalId?.elim ⟨db, .returned, []⟩ (approvalTurn db row)
  | .approvalExpiry row ap =>
    if db.now < ap.expiresAt ∧ ap.sourceClass = .trusted then ⟨db, .binding row ap db.now, []⟩
    else ⟨db, .returned, []⟩
  | .binding row ap now =>
    if bindsApproval d.toBroker row.toExternalActionRequest (db.jobs row.sourceJobId)
        ap.toOwnerApproval = true then
      ⟨db, .consuming row ap (db.jobs row.sourceJobId) now, []⟩
    else ⟨db, .returned, []⟩
  | .consuming row _ job now =>
    call.op.approvalId?.elim ⟨db, .returned, []⟩ (consumingTurn db c row job now)
  | .authorizing row decision => authorizingTurn db c call row decision
  | .locking row => call.op.holder?.elim ⟨db, .returned, []⟩ (lockingTurn db c call row)
  | .opening row => call.op.holder?.elim ⟨db, .returned, []⟩ (openingTurn db call row)
  | .preparing row => preparingTurn d db c call row
  | .dispatching row => ⟨db, .settling row (some answer), [.answered c call.requestId answer]⟩
  | .settling row a => call.op.holder?.elim ⟨db, .returned, []⟩ (settlingTurn d db call row a)
  | .observing row =>
    seen.observation?.elim ⟨db, .releasing row, []⟩ fun o => ⟨db, .recording row o, []⟩
  | .recording row o => call.op.holder?.elim ⟨db, .returned, []⟩ (recordingTurn db call row o)
  | .releasing row =>
    call.op.holder?.elim ⟨db, .returned, []⟩ fun h =>
      ⟨{ db with toDb := MergeQueue.releaseActionLock db.toDb (lockName row) h }, .returned, []⟩
  | .returned => ⟨db, .returned, []⟩

end Steps

namespace System

/-- The tables are written. -/
def set (s : System) (db : BrokerDb) : System := { s with toBrokerDb := db }

/-- The locks are written. -/
def setQueue (s : System) (db : MergeQueue.Db) : System := { s with toDb := db }

/-- A call stands at a point. -/
def goTo (s : System) (c : ℕ) (call : Call) (p : Point) : System :=
  { s with calls := Function.update s.calls c (some { call with point := p }) }

/-- A call has taken a step. -/
def take (s : System) (c : ℕ) (call : Call) (t : Turn) : System where
  toBrokerDb := t.db
  calls := Function.update s.calls c (some { call with point := t.point })
  log := s.log ++ t.notes

variable {s : System} {c c' : ℕ} {call : Call} {p : Point} {t : Turn}

@[simp]
theorem calls_goTo_self : (s.goTo c call p).calls c = some { call with point := p } :=
  Function.update_self ..

theorem calls_goTo_of_ne (h : c' ≠ c) : (s.goTo c call p).calls c' = s.calls c' :=
  Function.update_of_ne h ..

@[simp]
theorem calls_take_self : (s.take c call t).calls c = some { call with point := t.point } :=
  Function.update_self ..

theorem calls_take_of_ne (h : c' ≠ c) : (s.take c call t).calls c' = s.calls c' :=
  Function.update_of_ne h ..

end System

/-! ### Steps of the system -/

/-- What the core does with approvals. -/
inductive ApprovalOp
  /-- `_insert_approval`. -/
  | insert (ap : ApprovalRow)
  | markApproved (id : String)
  | markRejected (id : String)
  | markExpired (id : String)
  /-- `_consume_approval_with_execution`. -/
  | consumeWithExecution (id : String) (executionId : Uuid)

/-- An approval is written, if it is as it has to be. -/
def patchApproval (db : BrokerDb) (id : String) (when : OwnerApproval → Bool)
    (write : OwnerApproval → OwnerApproval) : BrokerDb :=
  match (db.approvals id).filter fun a => when a.toOwnerApproval with
  | none => db
  | some a =>
    { db with
      approvals := Function.update db.approvals id
        (some { a with toOwnerApproval := write a.toOwnerApproval }) }

/-- The tables after the core has written an approval. -/
def writeApproval (db : BrokerDb) : ApprovalOp → BrokerDb
  | .insert ap =>
    if db.approvals ap.id.text = none then
      { db with approvals := Function.update db.approvals ap.id.text (some ap) }
    else db
  | .markApproved id =>
    patchApproval db id (fun a => a.status = .pending && db.now < a.expiresAt)
      (OwnerApproval.approve db.now)
  | .markRejected id =>
    patchApproval db id (fun a => a.status = .pending) (OwnerApproval.reject db.now)
  | .markExpired id =>
    patchApproval db id (fun a => a.status.live && a.expiresAt ≤ db.now) OwnerApproval.expire
  | .consumeWithExecution id executionId =>
    patchApproval db id (fun a => a.status = .approved && db.now < a.expiresAt)
      (OwnerApproval.consumeWith db.now executionId)

def newRow (d : Driver) (r : CreateRequest) (v : Validated) (expiresAt : Time) : RequestRow where
  toExternalActionRequest := newRequest d.toBroker r v expiresAt
  attemptCount := 0
  nextAttemptAt := none
  providerObjectId := none
  providerState := none
  holderOwnerInstanceId := none
  holderLeaseEpoch := 0

/-- What happens to the system. -/
inductive Act
  /-- `create_request` has validated a request, and inserts its row. -/
  | create (r : CreateRequest) (v : Validated) (expiresAt : Time)
  | start (c : ℕ) (op : Op) (requestId : String)
  /-- A call takes its next step; if it is with the provider, that is how it comes back. -/
  | next (c : ℕ) (answer : Answer) (seen : Observed)
  /-- A call stops for good. -/
  | crash (c : ℕ)
  | approval (op : ApprovalOp)
  /-- A job row is written: its lease is claimed, renewed, released or taken over, it ends. -/
  | writeJob (id : String) (row : Option SupervisorJob)
  | acquire (name : String) (h : Holder)
  | release (name : String) (h : Holder)
  | reclaim (name : String)
  | waits (n : ℕ)

def step (d : Driver) (s : System) : Act → System
  | .create r v expiresAt =>
    if s.requests (newRow d r v expiresAt).requestId = none then
      { s with
        requests := Function.update s.requests (newRow d r v expiresAt).requestId
          (some (newRow d r v expiresAt)) }
    else s
  | .start c op requestId =>
    if (s.calls c).isNone then s.goTo c ⟨op, requestId, .reading⟩ .reading else s
  | .next c answer seen =>
    match s.calls c with
    | none => s
    | some call => s.take c call (turn d s.toBrokerDb c call answer seen call.point)
  | .crash c =>
    match s.calls c with
    | none => s
    | some call => s.goTo c call .returned
  | .approval op => s.set (writeApproval s.toBrokerDb op)
  | .writeJob id row => { s with jobs := Function.update s.jobs id row }
  | .acquire name h =>
    s.setQueue (((MergeQueue.tryAcquireActionLock s.toDb name h).map (·.2)).getD s.toDb)
  | .release name h => s.setQueue (MergeQueue.releaseActionLock s.toDb name h)
  | .reclaim name => s.setQueue (MergeQueue.reclaimStaleActionLock s.toDb name)
  | .waits n => { s with now := s.now + n }

/-- The system before the first request: there are no requests and no calls. -/
def initial (queue : MergeQueue.Db) (approvals : String → Option ApprovalRow) : System where
  toDb := queue
  requests := fun _ => none
  approvals := approvals
  calls := fun _ => none
  log := []

/-- The system after a run. -/
def run (d : Driver) (queue : MergeQueue.Db) (approvals : String → Option ApprovalRow)
    (as : List Act) : System := Runs.run (step d) (initial queue approvals) as

/-! ### How concrete runs begin -/

/-- A driver of an adapter that may write, which may update pull requests on its own. -/
def fixture : Driver where
  providerName := "fixture"
  allowlist := [⟨"fixture", "acct", ["repo"], ["update_pull_request"], [], []⟩]
  autonomousActions := ["update_pull_request"]
  provenanceMac := fun _ => ""
  sha256 := fun _ => "6ecbfd5a34c1d3e8cdcc0613"
  validatePrTitle := .ok
  validatePrBody := .ok
  writeEnabled := true
  redact := id
  mem_redact := fun _ _ h => .inl h

def updateRequest : CreateRequest where
  provider := "fixture"
  account := "acct"
  action := "update_pull_request"
  repository := "repo"
  resourceRef := "7"
  requestedScope := "prod"
  parameters := .obj []
  expectedPreconditions := .null
  idempotencyKey := "key"
  provenance := ⟨1, "job", "candidate", "repo", "abcdef1", "abcdef2", "main", "", ""⟩
  expiryTtlSeconds := 50

/-- Its identifier. -/
def updateId : String := "xr_6ecbfd5a34c1d3e8cdcc0613"

/-- The finished job the request comes from, and one that drives it. -/
def twoJobs : MergeQueue.Db where
  now := 0
  jobs id :=
    if id = "job" then some { MergeQueue.leased "job" with terminal := some "DONE" }
    else if id = "driver" then some (MergeQueue.leased "driver") else none
  locks _ := none
  candidates := []

def steps (c n : ℕ) : List Act := List.replicate n (.next c .other .nothing)

/-- The request is created, authorized, and executed until the adapter is called. -/
def untilDispatch : List Act :=
  .create updateRequest ⟨.boundedWrite, .obj [], .obj []⟩ 50 ::
    .start 0 .authorizeAutonomous updateId :: steps 0 4 ++
    .start 1 (.execute ("driver", 1)) updateId :: steps 1 6

end Calls

end Broker

end ArgentTeam
