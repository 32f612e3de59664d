import ArgentTeam.Core.Exec
import ArgentTeam.Broker.Authorize

/-!
# Runs of the core and the broker

The broker works on the store of the core. A run interleaves the commands of the core with
the broker's calls, and with two things the model leaves open: what the supervisor and the
merge queue make of their own tables, and how a request goes on once it is authorized.
-/

namespace ArgentTeam

open Prog Store

namespace Broker

/-- Two rows are the same request: they agree in everything a request is created with. -/
structure SameRequest (r r' : ExternalActionRequest) : Prop where
  requestId : r'.requestId = r.requestId
  provider : r'.provider = r.provider
  account : r'.account = r.account
  action : r'.action = r.action
  repository : r'.repository = r.repository
  resourceRef : r'.resourceRef = r.resourceRef
  requestedScope : r'.requestedScope = r.requestedScope
  parameters : r'.parameters = r.parameters
  idempotencyKey : r'.idempotencyKey = r.idempotencyKey

/-- What the execution and the reconciliation of requests make of their rows: they stay the
same requests. -/
structure Progress where
  next : ExternalActionRequest → ExternalActionRequest
  same : ∀ r, SameRequest r (next r)

/-- The tables of the supervisor and the merge queue. -/
structure Supervision where
  supervisorJobs : Table SupervisorJob SupervisorJob.clash
  actionLocks : Table ActionLock ActionLock.clash
  integrationCandidates : Table IntegrationCandidate IntegrationCandidate.clash

/-- A step of the system. -/
inductive Action
  | core (c : Core.Command)
  | createRequest (r : CreateRequest)
  | authorizeAutonomous (requestId : String)
  | authorizeOwner (requestId approvalId : String)
  | progress (p : Progress)
  /-- The supervisor and the merge queue write their tables. -/
  | supervise (s : Supervision)

/-- The world after requests have gone on. -/
def progress (p : Progress) : Cmd ℕ :=
  Tables.externalActionRequests.update integrityError (fun _ => true) p.next

/-- The world after the supervisor and the merge queue have written their tables. -/
def supervise (s : Supervision) (w : World) : World :=
  { w with db := { w.db with jobs := { w.db.jobs with
      supervisorJobs := s.supervisorJobs, actionLocks := s.actionLocks,
      integrationCandidates := s.integrationCandidates } } }

/-- The world a step leaves behind. -/
def step (cfg : Config) (b : Broker) (w : World) : Action → World
  | .core c => Core.step cfg w c
  | .createRequest r => (createRequest b r w).2
  | .authorizeAutonomous requestId => (authorizeAutonomous b requestId w).2
  | .authorizeOwner requestId approvalId => (authorizeOwner b requestId approvalId w).2
  | .progress p => (progress p w).2
  | .supervise s => supervise s w

def run (cfg : Config) (b : Broker) : World → List Action → World := Runs.run (step cfg b)

/-- A run whose steps all meet a condition. -/
def Along (cfg : Config) (b : Broker) (ok : World → Action → Prop) : World → List Action → Prop :=
  Runs.Along (step cfg b) ok

/-! ### Calls that leave a view alone -/

section Views

variable {τ : Type} {view : World → τ} {R : τ → τ → Prop} [Std.Refl R] [IsTrans τ R] {b : Broker}
  {params : List (PyStr × Json)} {row : ExternalActionRequest}

set_option synthInstance.maxSize 10000

attribute [local instance] moves_steps

instance {r : Except Error Json} : Moves view R (unrefused r) :=
  ⟨fun w => Std.Refl.refl (view w)⟩

instance {v : Json} : Moves view R (requireNoToken v) := by
  cases v <;> unfold requireNoToken <;> infer_instance

instance {keys : List String} :
    Moves view R (requireKeys params keys) := by
  unfold requireKeys
  infer_instance

instance {key : String} {f : Json → Except Error Json} :
    Moves view R (publish params key f) :=
  moves_caseSome (fun _ => moves_bind inferInstance fun _ => inferInstance) inferInstance

instance : Moves view R (publishTexts b params) :=
  moves_bind inferInstance fun _ => inferInstance

instance {action : String} {parameters : Json} :
    Moves view R (validateParameters b action parameters) := by
  unfold validateParameters
  infer_instance

instance {action head : String} :
    Moves view R (bindMutation action params head) := by
  unfold bindMutation
  infer_instance

instance {v : Json} {name : String} : Moves view R (boundedJson v name) :=
  moves_bind inferInstance fun _ => inferInstance

instance {p : Provenance} : Moves view R (verifyProvenance b p) := by
  unfold verifyProvenance
  repeat' first | infer_instance | refine moves_bind ?_ fun _ => ?_

instance {r : CreateRequest} : Moves view R (validate b r) := by
  unfold validate
  repeat' first | infer_instance | refine moves_bind ?_ fun _ => ?_

instance {requestId : String} : Moves view R (theRequest requestId) :=
  moves_bind inferInstance fun _ => inferInstance

instance {e : Error} : Moves view R (orCurrent row e) := by
  unfold orCurrent
  split
  · exact moves_bind inferInstance fun _ => inferInstance
  · exact moves_bind inferInstance fun _ => inferInstance
  · infer_instance

variable [Core.OfDb view]

instance : Moves view R (checkExpired row) :=
  moves_caseSome (fun _ => moves_bind inferInstance fun _ => inferInstance) inferInstance

instance [Tables.externalActionAudit.Apart view] {id type reason detail : String}
    {cls : Option String} : Moves view R (appendAudit id type cls reason detail) := by
  unfold appendAudit
  infer_instance

section Requests

variable [∀ id src dst n a f e, Moves view R (transitionRequest id src dst n a f e)]
  [Tables.externalActionAudit.Apart view]

instance : Moves view R (expire row) := by
  unfold expire
  repeat' first | infer_instance | refine moves_bind ?_ fun _ => ?_ |
    refine moves_rescue ?_ fun _ => ?_

instance {reason : String} : Moves view R (deny row reason) := by
  unfold deny
  repeat' first | infer_instance | refine moves_bind ?_ fun _ => ?_ |
    refine moves_rescue ?_ fun _ => ?_

instance {requestId : String} : Moves view R (authorizeAutonomous b requestId) := by
  unfold authorizeAutonomous
  infer_instance

instance {requestId approvalId : String} :
    Moves view R (ownerApproval b requestId approvalId) := by
  unfold ownerApproval
  infer_instance

instance [∀ id now, Moves view R (consumeApproval id now)] {requestId approvalId : String} :
    Moves view R (authorizeOwner b requestId approvalId) := by
  unfold authorizeOwner
  infer_instance

instance [∀ new, Moves view R (createExternalActionRequest new)] {r : CreateRequest} :
    Moves view R (createRequest b r) := by
  unfold createRequest
  infer_instance

end Requests

section Apart

variable [Tables.externalActionRequests.Apart view]

instance {id : String} {src dst : RequestState} {n : ℕ} {a f e : Option String} :
    Moves view R (transitionRequestLocked id src dst n a f e) := by
  unfold transitionRequestLocked
  infer_instance

instance {id : String} {src dst : RequestState} {n : ℕ} {a f e : Option String} :
    Moves view R (transitionRequest id src dst n a f e) :=
  moves_bind inferInstance fun _ => inferInstance

instance {new : ExternalActionRequest} : Moves view R (createRequestLocked new) := by
  unfold createRequestLocked
  refine moves_bind inferInstance fun _ => moves_bind inferInstance fun _ => ?_
  refine moves_caseSome (fun _ => inferInstance) (moves_caseSome (fun _ => ?_) ?_)
  all_goals exact moves_bind inferInstance fun _ => inferInstance

instance {new : ExternalActionRequest} : Moves view R (createExternalActionRequest new) :=
  moves_bind inferInstance fun _ => inferInstance

instance {p : Progress} : Moves view R (progress p) := by
  unfold progress
  infer_instance

end Apart

end Views

/-! ### How concrete runs begin -/

/-- A finished job of the task. -/
def doneJob : SupervisorJob where
  id := "job"
  taskId := Core.num 1
  ownerInstanceId := none
  leaseEpoch := 0
  leaseExpiresAt := none
  terminal := some "DONE"
  repoIdentity := some "repo"
  baseCommit := none
  branchIdentity := none
  canonicalWorktreePath := none
  expectedHead := some "abcdef1"
  currentHead := none
  openFindingsCount := 0
  dependsOn := none

/-- Its candidate, integrated. -/
def integratedCandidate : IntegrationCandidate where
  id := "candidate"
  repository := "repo"
  integrationTarget := "main"
  sourceJobId := "job"
  state := .integrated
  queuePosition := 0
  priority := 0
  dependsOn := none
  baseCommit := none
  sourceHead := some "abcdef1"
  sourceBranch := none
  integrationWorktreePath := none
  integrationBranch := none
  integratedHead := some "abcdef2"
  mergeClassification := none
  conflictDetail := none
  revision := 0
  holderOwnerInstanceId := none
  holderLeaseEpoch := 0
  resultJson := none
  lastErrorCode := none

/-- What the supervisor and the merge queue have written by then. -/
def finished : Supervision where
  supervisorJobs := ⟨[doneJob], by simp⟩
  actionLocks := .empty
  integrationCandidates := ⟨[integratedCandidate], by simp⟩

/-- A broker that may deploy, with the digests of the texts its one request needs. -/
def github : Broker where
  providerName := "github"
  allowlist := [⟨"github", "acct", ["repo"], ["deploy_production"], [], []⟩]
  autonomousActions := []
  provenanceMac := fun _ => String.ofList (List.replicate 64 'a')
  sha256 := fun s =>
    if s = "{}" then "44136fa355b3678a1146ad16f7e8649e94fb4fc21fe77e8310c060f61caaff8a"
    else "6ecbfd5a34c1d3e8cdcc06131c5e59cd4485e63ef31dc0224ec0e55b9aecc802"
  validatePrTitle := .ok
  validatePrBody := .ok

def deployRequest (resource : String) : CreateRequest where
  provider := "github"
  account := "acct"
  action := "deploy_production"
  repository := "repo"
  resourceRef := resource
  requestedScope := "prod"
  parameters := .obj []
  expectedPreconditions := .null
  idempotencyKey := "key"
  provenance := ⟨1, "job", "candidate", "repo", "abcdef1", "abcdef2", "main", "",
    String.ofList (List.replicate 64 'a')⟩
  expiryTtlSeconds := 3600

/-- The text that request is digested as. -/
def deployText : String := joined "github" "acct" "repo" "deploy_production" "key"

end Broker

end ArgentTeam
