import ArgentTeam.Lib.Json

/-!
# The data model

The enumerations, the rows and the exceptions of the team-control core, after
`models.py`. A row carries the columns that some command reads or returns; the
bookkeeping times that nothing ever reads are left out.

Identifiers the core draws itself are `Uuid`s: hexadecimal digits and dashes, so that
no word of the privacy deny-list can occur in one. Whatever a caller passes in to
name a row is an ordinary string, compared with the text of the identifier.
-/

namespace ArgentTeam

/-- An instant, in microseconds: the fixed-width ISO strings the store compares are
ordered like the instants they denote. -/
abbrev Time := ℕ

/-- The characters of a UUID. -/
def isHexDash (c : Char) : Bool := c ∈ "0123456789abcdef-".toList

/-- An identifier drawn by `uuid4`. -/
structure Uuid where
  text : String
  hexDash : text.toList.all isHexDash = true
  deriving DecidableEq

theorem Uuid.text_injective : Function.Injective Uuid.text := by
  rintro ⟨s, hs⟩ ⟨t, ht⟩ h
  cases h
  rfl

@[simp]
theorem Uuid.text_inj {a b : Uuid} : a.text = b.text ↔ a = b := Uuid.text_injective.eq_iff

/-! ### Enumerations -/

inductive RiskClass
  | low
  | normal
  | high
  deriving DecidableEq

/-- Whether external actions are gated or forbidden. -/
inductive ExternalActionsPolicy
  | allowedWithGate
  | forbidden
  deriving DecidableEq

inductive DispatchStatus
  | pending
  | running
  | consumed
  | failed
  | rejected
  | quarantined
  | recoveryPending
  deriving DecidableEq

/-- The stored text of a status. -/
def DispatchStatus.value : DispatchStatus → String
  | pending => "PENDING"
  | running => "RUNNING"
  | consumed => "CONSUMED"
  | failed => "FAILED"
  | rejected => "REJECTED"
  | quarantined => "QUARANTINED"
  | recoveryPending => "RECOVERY_PENDING"

/-- The statuses of a dispatch that still expects a result. -/
def DispatchStatus.active : DispatchStatus → Bool
  | pending | running | recoveryPending => true
  | consumed | failed | rejected | quarantined => false

inductive SequenceKind
  | standard
  | rework
  deriving DecidableEq

/-- The stored text of a kind. -/
def SequenceKind.value : SequenceKind → String
  | standard => "STANDARD"
  | rework => "REWORK"

theorem SequenceKind.value_injective : Function.Injective SequenceKind.value := by
  intro a b h
  cases a <;> cases b <;> first | rfl | exact absurd h (by decide)

inductive TaskState
  | new
  | planning
  | analyzing
  | leadDecision
  | implementing
  | testing
  | reviewing
  | finalDecision
  | done
  | rework
  | blocked
  | ownerApprovalRequired
  | paused
  | failed
  | recovering
  | cancelled
  deriving DecidableEq

/-- The stored text of a state. -/
def TaskState.value : TaskState → String
  | new => "NEW"
  | planning => "PLANNING"
  | analyzing => "ANALYZING"
  | leadDecision => "LEAD_DECISION"
  | implementing => "IMPLEMENTING"
  | testing => "TESTING"
  | reviewing => "REVIEWING"
  | finalDecision => "FINAL_DECISION"
  | done => "DONE"
  | rework => "REWORK"
  | blocked => "BLOCKED"
  | ownerApprovalRequired => "OWNER_APPROVAL_REQUIRED"
  | paused => "PAUSED"
  | failed => "FAILED"
  | recovering => "RECOVERING"
  | cancelled => "CANCELLED"

theorem TaskState.value_injective : Function.Injective TaskState.value := by
  intro a b h
  cases a <;> cases b <;> first | rfl | exact absurd h (by decide)

/-- The five fixed roles of the team. -/
inductive Role
  | lead
  | analyst
  | implementer
  | qa
  | reviewer
  deriving DecidableEq

/-- The stored text of a role. -/
def Role.value : Role → String
  | lead => "lead"
  | analyst => "analyst"
  | implementer => "implementer"
  | qa => "qa"
  | reviewer => "reviewer"

theorem Role.value_injective : Function.Injective Role.value := by
  intro a b h
  cases a <;> cases b <;> first | rfl | exact absurd h (by decide)

inductive ArtifactCategory
  | productCode
  | testCode
  | other

def ArtifactCategory.value : ArtifactCategory → String
  | productCode => "PRODUCT_CODE"
  | testCode => "TEST_CODE"
  | other => "OTHER"

/-- Artifact access mode. -/
inductive Permission
  | read
  | write
  deriving DecidableEq

inductive RunStatus
  | started
  | completed
  | failed
  deriving DecidableEq

def RunStatus.value : RunStatus → String
  | started => "started"
  | completed => "completed"
  | failed => "failed"

inductive ApprovalStatus
  | pending
  | approved
  | rejected
  | consumed
  | expired
  deriving DecidableEq

def ApprovalStatus.value : ApprovalStatus → String
  | pending => "pending"
  | approved => "approved"
  | rejected => "rejected"
  | consumed => "consumed"
  | expired => "expired"

/-- An approval that can still be decided or executed: it holds its task at the
owner gate. -/
def ApprovalStatus.live : ApprovalStatus → Bool
  | pending | approved => true
  | rejected | consumed | expired => false

/-- Persisted outcome of a gated action. -/
inductive ActionExecutionStatus
  | executed
  | blocked
  deriving DecidableEq

inductive ActionClass
  | autonomous
  | ownerApprovalRequired
  | forbidden
  deriving DecidableEq

inductive FindingStatus
  | opened
  | resolved
  deriving DecidableEq

def FindingStatus.value : FindingStatus → String
  | opened => "open"
  | resolved => "resolved"

inductive TestResult
  | passed
  | failed

def TestResult.value : TestResult → String
  | passed => "passed"
  | failed => "failed"

theorem TestResult.value_injective : Function.Injective TestResult.value := by
  intro a b h
  cases a <;> cases b <;> first | rfl | exact absurd h (by decide)

/-- Provenance of an evidence row: written by the controller, or derived from agent
output. -/
inductive EvidenceClass
  | controller
  | agent
  deriving DecidableEq

/-! ### Exceptions -/

/-- The exception classes that can leave a command. -/
inductive ErrorClass
  | invalidTransition
  | roleConflict
  | permissionDenied
  | forbiddenAction
  | approvalError
  | untrustedSource
  | ownerAuthorityRequired
  | privacyViolation
  | idempotencyError
  | notFound
  | rolePolicyViolation
  | outputValidationError
  | dispatchError
  | modelRegistryError
  | integrityError
  | interfaceError
  | unicodeEncodeError
  | valueError
  | typeError
  | provenanceError
  | requestNotFound
  | requestRevisionError
  | authorizationError
  | illegalRequestTransition
  | idempotencyConflictError
  | leaseFencedError
  | recursionError
  deriving DecidableEq

/-- An exception: the internal signal that an approval has expired, or an error with
its text, where `%r` and `%s` stand for the values that follow. -/
inductive Error
  | approvalExpired (approvalId : Uuid)
  | error (cls : ErrorClass) (text : String) (values : List String)
  deriving DecidableEq

/-! ### Rows -/

structure Project where
  id : Uuid
  name : String
  idempotencyKey : Option String

structure Task where
  id : Uuid
  projectId : Uuid
  title : String
  description : Option String
  state : TaskState
  resumeState : Option TaskState
  riskClass : RiskClass
  externalActionsPolicy : ExternalActionsPolicy
  idempotencyKey : Option String

structure TaskRun where
  id : Uuid
  taskId : Uuid
  status : RunStatus

structure RoleRun where
  id : Uuid
  taskId : Uuid
  role : Role
  status : RunStatus

/-- A handoff from one role to the next. -/
structure Handoff where
  id : Uuid
  taskId : Uuid
  fromRole : Role
  toRole : Role

structure Finding where
  id : Uuid
  taskId : Uuid
  severity : String
  description : String
  status : FindingStatus
  sourceClass : EvidenceClass

structure TestRun where
  id : Uuid
  taskId : Uuid
  result : TestResult
  detail : Option String
  sourceClass : EvidenceClass

/-- A text column, as `json.loads` reads it: `none` if the text is no JSON. -/
abbrev JsonText := Option Json

structure Review where
  id : Uuid
  taskId : Uuid
  verdict : String
  detail : Option JsonText
  sourceClass : EvidenceClass

structure Decision where
  id : Uuid
  taskId : Uuid
  decision : String
  detail : Option JsonText

/-- What a gate is bound to: the arguments of `gates.binding_hash`, standing for
their digest. -/
structure Binding where
  taskId : String
  action : String
  scope : String
  deriving DecidableEq

structure OwnerApproval where
  id : Uuid
  taskId : Uuid
  action : String
  scope : String
  status : ApprovalStatus
  requestedBy : Role
  createdAt : Time
  decidedAt : Option Time
  consumedAt : Option Time
  expiresAt : Time
  bindingHash : Binding
  approvedAt : Option Time
  executionId : Option Uuid
  executedAt : Option Time
  closedAt : Option Time
  deriving DecidableEq

structure ActionExecution where
  id : Uuid
  taskId : Uuid
  approvalId : Option Uuid
  action : String
  scope : String
  actorRole : Role
  status : ActionExecutionStatus
  createdAt : Time

structure Event where
  id : Uuid
  type : String
  taskId : Json
  role : Option String
  state : Option String
  payload : Json

/-- The expected run of an agent, and what came of it. -/
structure AgentDispatch where
  id : Uuid
  taskId : Uuid
  taskRunId : Uuid
  role : Role
  /-- The dispatch that spawned it; `none` is the controller. -/
  parentDispatchId : Option Uuid
  expectedAgentClass : String
  expectedModelClass : String
  expectedThinkingTier : String
  childSessionId : Option String
  openclawRunId : Option String
  actualProvider : Option String
  actualModel : Option String
  thinkingTier : Option String
  status : DispatchStatus
  cycleNo : ℕ
  position : ℕ
  sequenceKind : SequenceKind
  attemptNo : ℕ
  handoffId : Option Uuid
  result : Option Json
  routingDecisionId : Option String
  escalationLevel : ℕ
  routingReasonCode : Option String
  deriving DecidableEq

/-- An entry of the quarantine log. -/
structure AgentResultQuarantine where
  id : Uuid
  taskId : Json
  dispatchId : String
  reason : String
  eventMeta : Json

/-- What the ledger keeps of a routing decision. -/
structure RoutingRecord where
  decisionId : String
  jobId : String
  provider : Option String
  model : Option String
  reasoningLevel : Option String
  escalationLevel : ℕ
  decisionReasonCode : String
  policyVersion : String
  requirementsHash : String
  evidenceRefs : List String
  decisionSha256 : String
  registryVersion : Option String
  evidenceVersion : Option String
  policyHash : Option String
  registryHash : Option String
  evidenceHash : Option String
  inputsHash : Option String
  deriving DecidableEq

/-- The record of a command that ran under an idempotency key; the arguments stand
for their digest. -/
structure CommandIdempotency where
  key : String
  command : String
  resultId : String
  args : Json

end ArgentTeam
