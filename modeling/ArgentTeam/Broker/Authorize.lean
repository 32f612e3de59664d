import ArgentTeam.Broker.Requests

/-!
# Authorization of external actions

The policy engine of the broker, and the two ways out of `PENDING`: an autonomous request
is authorized by the policy alone, any other by an owner approval that is bound to exactly
this request. Every transition of a request is fenced by its revision and follows the
closed edge map.
-/

namespace ArgentTeam

open Prog Store

namespace Broker

/-! ### Branch safety -/

def stripRefPrefix (ref : PyStr) : PyStr :=
  if startsWith ref "refs/heads/" then ref.drop 11
  else if startsWith ref "refs/tags/" then ref.drop 10
  else ref

/-- `is_protected_ref`; what is no text is protected. -/
def isProtectedRef : Json → Bool
  | .str s =>
    let name := stripRefPrefix s
    ["main", "master", "stable"].any (fun n => name = PyStr.ofString n) ||
      ["release", "production"].any (startsWith name.lower)
  | _ => true

def autonomousBranchOk (branch : Json) (taskId : String) (namespaces : List String) : Bool :=
  match branch with
  | .str s => (branchIdentityError s).isNone && !isProtectedRef branch &&
      namespaces.any fun ns => ns ≠ "" && startsWith s ns &&
        startsWith (s.drop ns.length) (taskId ++ "-")
  | _ => false

/-! ### Policy -/

inductive PolicyDecision
  | allowAutonomous
  | ownerGateRequired
  | deny
  deriving DecidableEq

/-- The stored text of a decision. -/
def PolicyDecision.value : PolicyDecision → String
  | allowAutonomous => "ALLOW_AUTONOMOUS"
  | ownerGateRequired => "OWNER_GATE_REQUIRED"
  | deny => "DENY"

/-- A field of the parameters, `""` where it is not set. -/
def parameter (r : ExternalActionRequest) (key : String) : Json :=
  match r.parameters with
  | .obj fields => Json.getD fields key (.text "")
  | _ => .text ""

/-- The branch safety of `evaluate_policy`. -/
def branchPolicy (db : Db) (entry : AllowlistEntry) (r : ExternalActionRequest) :
    PolicyDecision × String :=
  if r.action = "push_feature_branch" then
    let branch := parameter r "branch"
    let taskId := ((getJob db r.sourceJobId).map SupervisorJob.taskId).getD ""
    let namespaces := if entry.branchNamespaces = [] then ["argent/"] else entry.branchNamespaces
    if isProtectedRef branch then (.ownerGateRequired, "PROTECTED_REF")
    else if autonomousBranchOk branch taskId namespaces = false then
      (.ownerGateRequired, "BRANCH_NOT_IN_NAMESPACE")
    else (.allowAutonomous, "ALLOWED")
  else if r.action = "create_pull_request" then
    if entry.prTargets.any (fun t => parameter r "base_branch" = .text t) then
      (.allowAutonomous, "ALLOWED")
    else (.deny, "NOT_ALLOWLISTED")
  else (.allowAutonomous, "ALLOWED")

/-- `evaluate_policy`: a decision and its reason code. The allowlist comes before the gate of
the sensitive actions, so that no approval gets around it. -/
def evaluatePolicy (b : Broker) (db : Db) (r : ExternalActionRequest) : PolicyDecision × String :=
  match actionTaxonomy r.action with
  | none => (.deny, "UNKNOWN_ACTION")
  | some taxonomy =>
    if b.providerName ≠ r.provider then (.deny, "UNKNOWN_PROVIDER")
    else match b.allowlist.find? fun e => e.provider = r.provider && e.account = r.account with
      | none => (.deny, "UNKNOWN_ACCOUNT")
      | some entry =>
        if r.repository ∉ entry.repositories then (.deny, "UNKNOWN_REPO")
        else if r.action ∉ entry.permittedActions then (.deny, "CLASS_NOT_PERMITTED")
        else if taxonomy = .sensitive then (.ownerGateRequired, "SENSITIVE_ACTION")
        else if taxonomy = .boundedWrite ∧ r.action ∉ b.autonomousActions then
          (.ownerGateRequired, "NOT_AUTONOMOUS")
        else branchPolicy db entry r

/-! ### Transitions of a request -/

/-- The row of a request that moves to a state. The authorization state and the failure class
are kept where the caller names none. -/
def moved (dst : RequestState) (authorization failureClass errorCode : Option String)
    (r : ExternalActionRequest) : ExternalActionRequest :=
  { r with
    state := dst, revision := r.revision + 1,
    authorizationState := authorization <|> r.authorizationState,
    lastFailureClass := failureClass <|> r.lastFailureClass, lastErrorCode := errorCode }

/-- `_transition_request_locked`, fenced by the revision and the edge map. -/
def transitionRequestLocked (requestId : String) (src dst : RequestState) (expectedRevision : ℕ)
    (authorization failureClass errorCode : Option String) : Cmd ExternalActionRequest := do
  let row ← read fun w => getRequest w.db requestId
  let row ← orRaise row (.error .notFound "external action request %r not found" [requestId])
  require (row.state = src) (.error .requestRevisionError "request %r in state %r, expected %r"
    [requestId, row.state.value, src.value])
  require (row.revision = expectedRevision)
    (.error .requestRevisionError "request %r revision mismatch" [requestId])
  require (dst ∈ row.state.targets)
    (.error .illegalRequestTransition "request %r: illegal transition %r -> %r"
      [requestId, row.state.value, dst.value])
  let _ ← Tables.externalActionRequests.update integrityError
    (fun r => r.requestId = requestId) (moved dst authorization failureClass errorCode)
  pure (moved dst authorization failureClass errorCode row)

/-- `transition_external_action_request`. -/
def transitionRequest (requestId : String) (src dst : RequestState) (expectedRevision : ℕ)
    (authorization failureClass errorCode : Option String) : Cmd ExternalActionRequest := do
  let _ ← nowIso
  transaction
    (transitionRequestLocked requestId src dst expectedRevision authorization
    failureClass errorCode)

/-- A lost fence is no error for a transition that closes a request: the row is read
again. -/
def orCurrent (row : ExternalActionRequest) : Error → Cmd ExternalActionRequest
  | .error .requestRevisionError _ _ | .error .illegalRequestTransition _ _ => do
    let current ← read fun w => getRequest w.db row.requestId
    pure (current.getD row)
  | e => raise e

def checkExpired (row : ExternalActionRequest) : Cmd Bool :=
  caseSome row.expiresAt
    (fun expires => do
      let now ← nowIso
      pure (decide (expires ≤ now)))
    (pure false)

/-- `_expire`: the request is blocked, and audited. -/
def expire (row : ExternalActionRequest) : Cmd ExternalActionRequest := do
  let updated ← rescue
    (transitionRequest row.requestId row.state .blocked row.revision none
      (some "PRECONDITION_FAILED") (some "EXPIRED"))
    (orCurrent row)
  appendAudit row.requestId "EXECUTED" (some "PRECONDITION_FAILED") "EXPIRED" ""
  pure updated

/-- `_deny`: the request is denied, and audited. -/
def deny (row : ExternalActionRequest) (reason : String) : Cmd ExternalActionRequest := do
  let updated ← rescue
    (transitionRequest row.requestId row.state .denied row.revision none (some "POLICY_DENIED")
      (some reason))
    (orCurrent row)
  appendAudit row.requestId "EXECUTED" (some "POLICY_DENIED") reason ""
  pure updated

/-! ### Authorization -/

def authorizationError (text : String) (values : List String) : Error :=
  .error .authorizationError text values

/-- The request that is to be authorized. -/
def theRequest (requestId : String) : Cmd ExternalActionRequest := do
  let row ← read fun w => getRequest w.db requestId
  orRaise row (.error .requestNotFound "%s" [requestId])

def authorizeAutonomous (b : Broker) (requestId : String) : Cmd ExternalActionRequest := do
  let row ← theRequest requestId
  if row.state.isTerminal = true then pure row
  else do
    let expired ← checkExpired row
    if expired = true then expire row
    else do
      let (decision, reason) ← read fun w => evaluatePolicy b w.db row
      if decision ≠ .allowAutonomous then deny row reason
      else do
        let updated ← transitionRequest requestId .pending .authorized row.revision
          (some decision.value) none none
        appendAudit requestId "AUTHORIZED" none "ALLOWED"
          ("authorized autonomous: " ++ decision.value)
        pure updated

/-- `_approval_scope`: the scope an approval has to have for exactly this request. -/
def approvalScope (b : Broker) (r : ExternalActionRequest) : String :=
  let digest (v : Json) : Json := .text (b.sha256 (String.ofList v.dumps))
  String.ofList (Json.dumps (.arr [.text r.provider, .text r.account, .text r.repository,
    .text r.resourceRef, .text r.requestedScope, .text r.provenanceHash, .text r.sourceJobId,
    .text r.sourceCandidateId, .text r.idempotencyKey, digest r.parameters,
    digest r.expectedPreconditions]))

def bindsApproval (b : Broker) (row : ExternalActionRequest) (job : Option SupervisorJob)
    (ap : OwnerApproval) : Bool :=
  job.any fun job =>
    ap.taskId.text = job.taskId && ap.action = row.action && ap.scope = approvalScope b row &&
      ap.bindingHash = ⟨job.taskId, ap.action, approvalScope b row⟩

/-- The checks of `authorize_owner`, up to the consumption of the approval. They end with a
reading of the clock. -/
def ownerApproval (b : Broker) (requestId approvalId : String) :
    Cmd (ExternalActionRequest × OwnerApproval × Time) := do
  let row ← theRequest requestId
  require (row.state.isTerminal = false) (authorizationError "request %r is terminal" [requestId])
  require (row.state = .pending) (authorizationError "request %r is not PENDING" [requestId])
  let expired ← checkExpired row
  onlyIf (expired = true) do
    let _ ← expire row
    raise (authorizationError "request expired" [])
  let policy ← read fun w => evaluatePolicy b w.db row
  require (policy.1 ≠ .deny)
    (authorizationError "policy denies owner authorization: %s" [policy.2])
  let ap ← read fun w => w.db.getApproval approvalId
  let ap ← orRaise ap (authorizationError "approval not found in authoritative store" [])
  require (ap.status = .approved) (authorizationError "approval is not approved" [])
  let now ← nowIso
  require (now < ap.expiresAt) (authorizationError "approval expired" [])
  let job ← read fun w => getJob w.db row.sourceJobId
  require (bindsApproval b row job ap = true)
    (authorizationError "owner approval binding mismatch" [])
  pure (row, ap, now)

/-- `authorize_owner`: the approval is consumed before the request moves, in a transaction of
its own, and no execution is recorded for it. -/
def authorizeOwner (b : Broker) (requestId approvalId : String) : Cmd ExternalActionRequest := do
  let (row, ap, now) ← ownerApproval b requestId approvalId
  let rc ← consumeApproval ap.id now
  require (rc = 1) (authorizationError "approval already consumed or expired" [])
  let updated ← transitionRequest requestId .pending .authorized row.revision
    (some PolicyDecision.ownerGateRequired.value) none none
  appendAudit requestId "AUTHORIZED" none "ALLOWED"
    ("authorized owner-gate (" ++ PolicyDecision.ownerGateRequired.value ++ "): approval " ++
      approvalId)
  pure updated

end Broker

end ArgentTeam
