import ArgentTeam.Store

/-!
# External action requests

How the broker turns an integration result into a request (`external_action_broker.py`,
`worktree.py` and the store's side of it): the parameters of the action are validated and
bound to the integrated head, the provenance is checked against the store, and the request
is written under an identifier derived from provider, account, repository, action and the
caller's idempotency key.

The keyed digest of the provenance, the digest the identifiers are made of, and the
redaction of publication texts are parameters of the model (`Broker`), with the trusted
configuration of the broker.
-/

namespace ArgentTeam

open Prog Store

/-! ### Configuration -/

/-- An entry of the allowlist: what one account may do. -/
structure AllowlistEntry where
  provider : String
  account : String
  repositories : List String
  permittedActions : List String
  branchNamespaces : List String
  prTargets : List String

/-- The provenance of a request, as the controller hands it over. -/
structure Provenance where
  version : ℤ
  sourceJobId : String
  sourceCandidateId : String
  repository : String
  sourceHead : String
  integratedHead : String
  branch : String
  scope : String
  provenanceHash : String

structure Broker where
  providerName : String
  allowlist : List AllowlistEntry
  autonomousActions : List String
  /-- `compute_provenance_mac`, under the controller's key. -/
  provenanceMac : Provenance → String
  sha256 : String → String
  /-- `validate_pr_title`: the title as it is published, or why it is refused. -/
  validatePrTitle : Json → Except Error Json
  validatePrBody : Json → Except Error Json

namespace Broker

/-! ### Identities -/

def valueError (text : String) (values : List String) : Error := .error .valueError text values

def provenanceError (text : String) : Error := .error .provenanceError text []

def isShaLike (s : PyStr) : Bool :=
  7 ≤ s.length && s.length ≤ 64 &&
    s.all fun c => PyStr.contains [c] (PyStr.ofString "0123456789abcdefABCDEF")

/-- `validate_repo_identity` of a text: what is wrong with it. -/
def repoIdentityError (repo : String) : Option String :=
  if (PyStr.ofString repo).strip = [] then
    some "repo_identity must be a non-empty string when set"
  else if repo.length > 256 then some "repo_identity exceeds 256 chars"
  else none

/-- A text is a substring. -/
def hasText (s : PyStr) (w : String) : Bool := PyStr.contains (PyStr.ofString w) s

/-- A text is a prefix. -/
def startsWith (s : PyStr) (w : String) : Bool := (PyStr.ofString w).isPrefixOf s

/-- A text is a suffix. -/
def endsWith (s : PyStr) (w : String) : Bool := (PyStr.ofString w).isSuffixOf s

/-- `validate_branch_identity` of a text: what is wrong with it. -/
def branchIdentityError (s : PyStr) : Option String :=
  if s.strip = [] then some "branch_identity must be a non-empty string when set"
  else if s.length > 256 then some "branch_identity exceeds 256 chars"
  else if ["\n", "\r", " ", "\t"].any (hasText s) then some "branch_identity contains whitespace"
  else if s.any fun c => PyStr.code c < 0x20 || PyStr.code c = 0x7F then
    some "branch_identity contains control characters"
  else if startsWith s "-" then some "branch_identity may not start with '-'"
  else if startsWith s "/" || endsWith s "/" then
    some "branch_identity may not start or end with '/'"
  else if endsWith s "." || endsWith s ".lock" then
    some "branch_identity may not end with '.' or '.lock'"
  else if ["..", "~", "^", ":", "@\x7b", "//", " "].any (hasText s) then
    some "branch_identity contains a reserved revision token"
  else if ["?", "*", "[", "\\"].any (hasText s) then
    some "branch_identity contains a reserved glob token"
  else none

/-- `validate_branch_identity` of a value: `None` passes. -/
def branchValueError : Json → Option String
  | .null => none
  | .str s => branchIdentityError s
  | _ => some "branch_identity must be a non-empty string when set"

/-- A value is a full commit identifier. -/
def isSha : Json → Bool
  | .str s => isShaLike s
  | _ => false

/-! ### Actions -/

/-- `ACTIONS`, the closed registry. -/
def actionTaxonomy (action : String) : Option ActionTaxonomy :=
  if action ∈ ["read_repository", "read_ref", "read_pull_request", "read_checks"] then some .read
  else if action ∈ ["push_feature_branch", "create_pull_request", "update_pull_request"] then
    some .boundedWrite
  else if action ∈ ["merge_pull_request", "create_release", "deploy_production"] then
    some .sensitive
  else none

/-! ### Parameters -/

/-- `_require`: the first key that is missing. -/
def requireKeys (params : List (PyStr × Json)) (keys : List String) : Cmd Unit :=
  whenSome (keys.find? fun k => !Json.has params k) fun k =>
    raise (valueError "missing required parameter %r" [k])

/-- The value of a text that is not refused. -/
def unrefused (r : Except Error Json) : Cmd Json := fun w => (r, w)

/-- A field of the parameters, where it is set, as it is published. -/
def publish (params : List (PyStr × Json)) (key : String) (validate : Json → Except Error Json) :
    Cmd (List (PyStr × Json)) :=
  caseSome (Json.get? params key)
    (fun v => do
      let v ← unrefused (validate v)
      pure (params.map fun f => if f.1 = PyStr.ofString key then (f.1, v) else f))
    (pure params)

/-- The title and the body of a pull request, as they are published. -/
def publishTexts (b : Broker) (params : List (PyStr × Json)) : Cmd (List (PyStr × Json)) := do
  let params ← publish params "title" b.validatePrTitle
  publish params "body" b.validatePrBody

/-- A branch that passed its validation has to be free of revision tokens; where it is
`None`, the search for one fails. -/
def requireNoToken : Json → Cmd Unit
  | .str s =>
    require (["..", "~", "^", ":", "@\x7b", " "].any (hasText s) = false)
      (valueError "branch contains a reserved revision token" [])
  | _ => raise (.error .typeError "argument of type 'NoneType' is not iterable" [])

/-- A mapping, `None` being the empty one. -/
def mapping? : Json → Option (List (PyStr × Json))
  | .null => some []
  | .obj fields => some fields
  | _ => none

/-- A positive integer; `True` is one. -/
def isPositiveInt : Json → Bool
  | .int n => 0 < n
  | .bool b => b
  | _ => false

def validateParameters (b : Broker) (action : String) (parameters : Json) :
    Cmd (List (PyStr × Json)) := do
  let params ← orRaise (mapping? parameters) (valueError "parameters must be a mapping" [])
  require (∀ f ∈ params, f.1 ≠ [] ∧ f.1.length ≤ 256)
    (valueError "parameter key must be a bounded string" [])
  if action = "push_feature_branch" then do
    requireKeys params ["branch", "sha"]
    whenSome (branchValueError (Json.getD params "branch" .null)) fun msg =>
      raise (valueError "invalid branch: %s" [msg])
    requireNoToken (Json.getD params "branch" .null)
    require (isSha (Json.getD params "sha" .null) = true)
      (valueError "push sha must be a full sha" [])
    pure params
  else if action = "create_pull_request" then do
    requireKeys params ["head_branch", "base_branch", "head_sha"]
    whenSome (branchValueError (Json.getD params "head_branch" .null)) fun msg =>
      raise (valueError "invalid head_branch: %s" [msg])
    whenSome (branchValueError (Json.getD params "base_branch" .null)) fun msg =>
      raise (valueError "invalid base_branch: %s" [msg])
    require (isSha (Json.getD params "head_sha" .null) = true)
      (valueError "PR head_sha must be a full sha" [])
    publishTexts b params
  else if action = "update_pull_request" then do
    requireKeys params ["number"]
    require (isPositiveInt (Json.getD params "number" .null) = true)
      (valueError "PR number must be a positive integer" [])
    publishTexts b params
  else pure params

/-- `_bind_mutation_to_integrated`. -/
def bindMutation (action : String) (params : List (PyStr × Json)) (integratedHead : String) :
    Cmd Unit :=
  if action = "push_feature_branch" then
    require (Json.getD params "sha" .null = .text integratedHead)
      (valueError "push sha must equal the candidate's integrated HEAD" [])
  else if action = "create_pull_request" then
    require (Json.getD params "head_sha" .null = .text integratedHead)
      (valueError "PR head_sha must equal the candidate's integrated HEAD" [])
  else pure ()

/-- `_bounded_json`: the value with its keys sorted, if its text is not too long. -/
def boundedJson (v : Json) (name : String) : Cmd Json := do
  require (v.dumps.length ≤ 64 * 1024)
    (valueError "%s exceeds the JSON byte budget (%s)" [name, "65536"])
  pure v.sorted

/-! ### Provenance -/

/-- `get_integration_candidate`. -/
def getCandidate (db : Db) (id : String) : Option IntegrationCandidate :=
  db.jobs.integrationCandidates.lookup IntegrationCandidate.id id

/-- `get_supervisor_job`. -/
def getJob (db : Db) (id : String) : Option SupervisorJob :=
  db.jobs.supervisorJobs.lookup SupervisorJob.id id

/-- `get_external_action_request`. -/
def getRequest (db : Db) (id : String) : Option ExternalActionRequest :=
  db.jobs.externalActionRequests.lookup ExternalActionRequest.requestId id

/-- The severity of the first open finding of the task that blocks an external action. -/
def blockingFinding (db : Db) (taskId : String) : Option String :=
  (db.core.findings.rows.filter fun f => f.taskId.text = taskId && f.status = .opened).findSome?
    fun f =>
      let severity := (PyStr.ofString f.severity).strip.upper
      if severity = PyStr.ofString "HIGH" then some "HIGH"
      else if severity = PyStr.ofString "CRITICAL" then some "CRITICAL" else none

def verifyProvenance (b : Broker) (p : Provenance) : Cmd Unit := do
  require (p.version = 1) (provenanceError "unsupported provenance version")
  require (p.provenanceHash.length = 64) (provenanceError "provenance_hash must be a sha256 hex")
  require (p.provenanceHash = b.provenanceMac p)
    (provenanceError "provenance_hash mismatch (forged/stale)")
  let candidate ← read fun w => getCandidate w.db p.sourceCandidateId
  let candidate ← orRaise candidate (provenanceError "source_candidate missing")
  require (candidate.state = .integrated) (provenanceError "source_candidate not INTEGRATED")
  require (candidate.sourceJobId = p.sourceJobId)
    (provenanceError "source_job_id mismatch vs candidate")
  require (isShaLike (PyStr.ofString (candidate.integratedHead.getD "")) = true)
    (provenanceError "integrated_head not proven")
  require (candidate.integratedHead = some p.integratedHead)
    (provenanceError "integrated_head mismatch vs candidate")
  let job ← read fun w => getJob w.db p.sourceJobId
  let job ← orRaise job (provenanceError "source_job missing")
  require (job.terminal = some "DONE") (provenanceError "source_job not terminal DONE")
  require (isShaLike (PyStr.ofString (job.sourceHead.getD "")) = true)
    (provenanceError "source_head not proven")
  require (job.sourceHead = some p.sourceHead) (provenanceError "source_head mismatch vs job")
  require (repoIdentityError p.repository = none) (provenanceError "repository invalid")
  require (p.repository = candidate.repository)
    (provenanceError "repository mismatch vs candidate")
  require (candidate.integrationTarget = p.branch)
    (provenanceError "integration target mismatch vs candidate")
  let blocking ← read fun w => blockingFinding w.db job.taskId
  require (blocking = none) (provenanceError "unresolved finding blocks external action")
  require (branchIdentityError (PyStr.ofString p.branch) = none)
    (provenanceError "branch invalid")

/-! ### Creation -/

/-- The arguments of `create_request`. -/
structure CreateRequest where
  provider : String
  account : String
  action : String
  repository : String
  resourceRef : String
  requestedScope : String
  parameters : Json
  expectedPreconditions : Json
  idempotencyKey : String
  provenance : Provenance
  expiryTtlSeconds : ℤ

/-- What a request is digested as: five fields, separated by a null character. -/
def joined (provider account repository action idempotencyKey : String) : String :=
  String.intercalate "\x00" [provider, account, repository, action, idempotencyKey]

/-- `request_id_for`, of the text the request is digested as. -/
def requestIdFor (b : Broker) (text : String) : String :=
  "xr_" ++ String.ofList ((b.sha256 text).toList.take 24)

/-- What is left of a request after validation. -/
structure Validated where
  taxonomy : ActionTaxonomy
  parameters : Json
  preconditions : Json
  deriving DecidableEq

/-- The checks of `create_request`, in order. -/
def validate (b : Broker) (r : CreateRequest) : Cmd Validated := do
  let taxonomy ← orRaise (actionTaxonomy r.action) (valueError "unknown action %r" [r.action])
  require (r.provider ≠ "" ∧ r.provider.length ≤ 64)
    (valueError "provider must be a bounded non-empty string" [])
  require (r.account ≠ "" ∧ r.account.length ≤ 128)
    (valueError "account must be a bounded non-empty string" [])
  whenSome (repoIdentityError r.repository) fun msg =>
    raise (valueError "invalid repository: %s" [msg])
  require (r.requestedScope.length ≤ 256)
    (valueError "requested_scope must be a bounded string" [])
  require ((PyStr.ofString r.idempotencyKey).strip ≠ [])
    (valueError "idempotency_key must be a non-empty string" [])
  require (1 ≤ r.expiryTtlSeconds ∧ r.expiryTtlSeconds ≤ 7 * 24 * 3600)
    (valueError "expiry_ttl_seconds out of range" [])
  verifyProvenance b r.provenance
  let params ← validateParameters b r.action r.parameters
  let preconditions ← orRaise
    (mapping? (if r.expectedPreconditions.truthy then r.expectedPreconditions else .obj []))
    (valueError "expected_preconditions must be a mapping" [])
  bindMutation r.action params r.provenance.integratedHead
  let params ← boundedJson (.obj params) "parameters"
  let preconditions ← boundedJson (.obj preconditions) "expected_preconditions"
  pure ⟨taxonomy, params, preconditions⟩

def newRequest (b : Broker) (r : CreateRequest) (v : Validated) (expiresAt : Time) :
    ExternalActionRequest where
  requestId := requestIdFor b
    (joined r.provider r.account r.repository r.action r.idempotencyKey)
  provider := r.provider
  account := r.account
  action := r.action
  policyClass := v.taxonomy
  repository := r.repository
  resourceRef := String.ofList (r.resourceRef.toList.take 256)
  sourceJobId := r.provenance.sourceJobId
  sourceCandidateId := r.provenance.sourceCandidateId
  requestedScope := r.requestedScope
  parameters := v.parameters
  expectedPreconditions := v.preconditions
  idempotencyKey := r.idempotencyKey
  provenanceHash := r.provenance.provenanceHash
  state := .pending
  authorizationState := none
  revision := 0
  lastFailureClass := none
  lastErrorCode := none
  expiresAt := some expiresAt

/-- `_external_request_equivalent`. -/
def equivalent (existing new : ExternalActionRequest) : Bool :=
  existing.provider = new.provider && existing.account = new.account &&
    existing.action = new.action && existing.repository = new.repository &&
    existing.resourceRef = new.resourceRef && existing.requestedScope = new.requestedScope &&
    existing.parameters = new.parameters

/-- The transaction of `create_external_action_request`: the row, and whether it is new. -/
def createRequestLocked (new : ExternalActionRequest) : Cmd (ExternalActionRequest × Bool) := do
  let row ← read fun w => getRequest w.db new.requestId
  let existing ← read fun w => w.db.jobs.externalActionRequests.lookup
    ExternalActionRequest.idempotencyKey new.idempotencyKey
  caseSome row (fun row => pure (row, false)) <|
    caseSome existing
      (fun existing => do
        require (equivalent existing new = true)
          (.error .idempotencyConflictError
            "idempotency_key %r reused with a non-equivalent request" [new.idempotencyKey])
        pure (existing, false))
      (do
        Tables.externalActionRequests.insert integrityError new
        pure (new, true))

def createExternalActionRequest (new : ExternalActionRequest) :
    Cmd (ExternalActionRequest × Bool) := do
  let _ ← nowIso
  transaction (createRequestLocked new)

/-- `append_external_action_audit`. -/
def appendAudit (requestId eventType : String) (failureClass : Option String)
    (reasonCode detail : String) : Cmd Unit := do
  let row ← read fun w => getRequest w.db requestId
  require (row.isSome = true)
    (.error .notFound "cannot audit a non-existent request %r" [requestId])
  let _ ← nowIso
  let id ← uuid4
  Tables.externalActionAudit.insert integrityError
    ⟨id, requestId, eventType, failureClass, String.ofList (reasonCode.toList.take 64),
      String.ofList (detail.toList.take 512)⟩

def createRequest (b : Broker) (r : CreateRequest) : Cmd ExternalActionRequest := do
  let v ← validate b r
  let now ← nowIso
  let new := newRequest b r v (now + r.expiryTtlSeconds.toNat * 1000000)
  let (row, created) ← createExternalActionRequest new
  onlyIf (created = true) (appendAudit row.requestId "REQUESTED" none "ALLOWED" "")
  pure row

end Broker

end ArgentTeam
