import ArgentTeam.Models

/-!
# Jobs, candidates and external requests

The rows of the supervisor, of the merge queue and of the external action broker, as
far as the merge queue and the broker read or write them. Their identifiers are plain
strings: job names chosen by the supervisor, and digests.
-/

namespace ArgentTeam

/-! ### States -/

inductive CandidateState
  | pending
  | ready
  | integrating
  | conflicted
  | stale
  | blocked
  | integrated
  | failed
  deriving DecidableEq

/-- Git-derived classification of a merge. -/
inductive MergeClassification
  | cleanApply
  | divergedClean
  | conflict
  | staleBase
  | dependencyNotIntegrated
  | unknown
  deriving DecidableEq

inductive RequestState
  | pending
  | authorized
  | executing
  | waitingExternal
  | succeeded
  | failed
  | blocked
  | denied
  deriving DecidableEq

def RequestState.value : RequestState → String
  | pending => "PENDING"
  | authorized => "AUTHORIZED"
  | executing => "EXECUTING"
  | waitingExternal => "WAITING_EXTERNAL"
  | succeeded => "SUCCEEDED"
  | failed => "FAILED"
  | blocked => "BLOCKED"
  | denied => "DENIED"

def RequestState.isTerminal : RequestState → Bool
  | succeeded | failed | blocked | denied => true
  | pending | authorized | executing | waitingExternal => false

/-- The closed edge map of the request lifecycle. -/
def RequestState.targets : RequestState → List RequestState
  | pending => [authorized, denied, blocked]
  | authorized => [executing, denied, blocked]
  | executing => [waitingExternal, succeeded, failed, blocked]
  | waitingExternal => [executing, succeeded, failed, blocked]
  | succeeded | failed | blocked | denied => []

theorem RequestState.targets_of_isTerminal {s : RequestState} (h : s.isTerminal) :
    s.targets = [] := by
  cases s <;> first | rfl | exact Bool.noConfusion h

/-- The three classes of external actions. -/
inductive ActionTaxonomy
  | read
  | boundedWrite
  | sensitive
  deriving DecidableEq

/-! ### Rows -/

structure SupervisorJob where
  id : String
  taskId : String
  ownerInstanceId : Option String
  leaseEpoch : ℕ
  leaseExpiresAt : Option Time
  terminal : Option String
  repoIdentity : Option String
  baseCommit : Option String
  branchIdentity : Option String
  canonicalWorktreePath : Option String
  expectedHead : Option String
  currentHead : Option String
  openFindingsCount : ℕ
  dependsOn : Option String
  deriving DecidableEq

/-- The head of a job: expected, or else current. -/
def SupervisorJob.sourceHead (j : SupervisorJob) : Option String :=
  match j.expectedHead with
  | some h => if h = "" then j.currentHead else some h
  | none => j.currentHead

/-- A named action lock and its holder. -/
structure ActionLock where
  lockName : String
  holderJobId : String
  holderLeaseEpoch : ℕ

/-- A candidate of the merge queue. -/
structure IntegrationCandidate where
  id : String
  repository : String
  integrationTarget : String
  sourceJobId : String
  state : CandidateState
  queuePosition : ℕ
  priority : ℤ
  dependsOn : Option String
  baseCommit : Option String
  sourceHead : Option String
  sourceBranch : Option String
  integrationWorktreePath : Option String
  integrationBranch : Option String
  integratedHead : Option String
  mergeClassification : Option MergeClassification
  conflictDetail : Option String
  revision : ℕ
  holderOwnerInstanceId : Option String
  holderLeaseEpoch : ℕ
  resultJson : Option Json
  lastErrorCode : Option String
  deriving DecidableEq

structure ExternalActionRequest where
  requestId : String
  provider : String
  account : String
  action : String
  policyClass : ActionTaxonomy
  repository : String
  resourceRef : String
  sourceJobId : String
  sourceCandidateId : String
  requestedScope : String
  parameters : Json
  expectedPreconditions : Json
  idempotencyKey : String
  provenanceHash : String
  state : RequestState
  authorizationState : Option String
  revision : ℕ
  lastFailureClass : Option String
  lastErrorCode : Option String
  expiresAt : Option Time
  deriving DecidableEq

structure ExternalActionAudit where
  auditId : Uuid
  requestId : String
  eventType : String
  failureClass : Option String
  reasonCode : String
  detail : String

end ArgentTeam
