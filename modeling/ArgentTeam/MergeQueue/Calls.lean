import ArgentTeam.Broker.Requests
import ArgentTeam.MergeQueue.ActionLock
import ArgentTeam.Planning.Plan

/-!
# The calls of the merge queue

`enqueue_candidate`, `evaluate_candidate`, `integrate_candidate`, `process_target` and
`reconcile_target`, as calls that run side by side. A step of a call is one of its transactions,
one of its reads, or one of its visits to git, to the plan builder and to the test runner; between
two of them the other calls take theirs, leases are claimed and expire, locks are acquired,
released and reclaimed, and a call may stop for good. What git, the review policy, an injected
plan builder and the test runner say is up to them.
-/

namespace ArgentTeam

namespace MergeQueue

namespace Calls

/-! ### The queue -/

/-- What the queue is set up with. -/
structure Queue where
  config : Config
  canonicalRepo : String → String
  worktreePath : String → String → String
  /-- `_mac_key`, if there is one. -/
  macKey : Option String
  hmac : String → Json → String
  sha256 : Json → String
  planBuilder : Bool
  inventory : Planning.TestInventory
  policy : Planning.TestPolicy
  riskClass : String → Option PyStr

/-- What a plan builder comes back with. -/
inductive Planned
  /-- A plan, with its `plan_hash`. -/
  | plan (planHash : Option String)
  /-- It raises an `IntegrationError`. -/
  | refused (text : String)
  | raised

/-- What a test runner comes back with. -/
inductive Ran
  | evidence (value : Json)
  /-- It raises an `IntegrationError`. -/
  | refused (text : String)
  | raised

/-- What a call is told by git, the review policy, the plan builder and the test runner, if its
step asks them. -/
structure Told where
  admissionErrors : List String := []
  reviewError : Option String := none
  /-- `resolve_sha` of the target. -/
  targetTip : Option String := none
  mergeBase : Option String := none
  isAncestor : String → String → Bool := fun _ _ => false
  mergeTreeConflicts : Option Bool := none
  branchExists : Bool := false
  addWorktree : Bool := false
  /-- `merge_no_ff`: nothing if it is clean, and the detail otherwise. -/
  mergeNoFf : Option String := none
  /-- `head` of the worktree. -/
  head : Option String := none
  changedPaths : List PyStr := []
  planned : Planned := .raised
  ran : Ran := .raised

/-! ### Transitions -/

/-- The columns a transition writes besides the state and the holder. -/
structure Fields where
  integrationWorktreePath : Option String := none
  integrationBranch : Option String := none
  integratedHead : Option String := none
  mergeClassification : Option MergeClassification := none
  conflictDetail : Option String := none
  resultJson : Option Json := none
  /-- `last_error_code`, which may be cleared. -/
  lastErrorCode : Option (Option String) := none

def Fields.write (f : Fields) (row : IntegrationCandidate) : IntegrationCandidate :=
  { row with
    integrationWorktreePath := f.integrationWorktreePath <|> row.integrationWorktreePath
    integrationBranch := f.integrationBranch <|> row.integrationBranch
    integratedHead := f.integratedHead <|> row.integratedHead
    mergeClassification := f.mergeClassification <|> row.mergeClassification
    conflictDetail := f.conflictDetail <|> row.conflictDetail
    resultJson := f.resultJson <|> row.resultJson
    lastErrorCode := f.lastErrorCode.getD row.lastErrorCode }

/-- What a transition writes of the holder of a candidate. -/
inductive HolderWrite
  | keep
  | record (h : Holder)
  /-- `clear_holder`. -/
  | clear

def HolderWrite.write (row : IntegrationCandidate) : HolderWrite → IntegrationCandidate
  | keep => row
  | record h => { row with holderOwnerInstanceId := some h.1, holderLeaseEpoch := h.2 }
  | clear => { row with holderOwnerInstanceId := none, holderLeaseEpoch := 0 }

/-- A transition that a call asks for. -/
structure Request where
  row : IntegrationCandidate
  src : CandidateState
  dst : CandidateState
  fields : Fields
  fence : Option Holder
  clearHolder : Bool := false

def Request.holder (r : Request) : HolderWrite :=
  match r.fence with
  | some h => .record h
  | none => if r.clearHolder then .clear else .keep

/-- The row after the transition, up to its revision. -/
def Request.write (r : Request) (row : IntegrationCandidate) : IntegrationCandidate :=
  r.fields.write (r.holder.write { row with state := r.dst })

/-- Why a transition is refused. -/
inductive Refusal
  /-- `LeaseFencedError`: the lease or the lock is lost. -/
  | fenced
  /-- `CandidateRevisionError` or `NotFound`. -/
  | race
  /-- `IntegrityError`: another candidate of the target is INTEGRATING. -/
  | integrity

/-- `idx_integration_candidates_one_integrating`: another candidate of the same target is
INTEGRATING. -/
def othersIntegrating (db : Db) (id : String) : Bool :=
  (getIntegrationCandidate db id).any fun row => db.candidates.any fun d =>
    d.id ≠ row.id && d.repository = row.repository &&
      d.integrationTarget = row.integrationTarget && d.state = .integrating

/-- `transition_integration_candidate`, and where it is fenced
`transition_integration_candidate_authoritative`. -/
def transition (q : Queue) (db : Db) (r : Request) : Except Refusal Db :=
  if ∃ h ∈ r.fence, ¬(jobHoldsCurrentLease db h = true ∧
      db.locks (lockName q.config r.row.repository r.row.integrationTarget) = some h) then
    .error .fenced
  else
    match transitionIntegrationCandidate db r.row.id r.src r.row.revision r.write with
    | none => .error .race
    | some db' =>
      if r.dst = .integrating ∧ othersIntegrating db r.row.id = true then .error .integrity
      else .ok db'

/-! ### Calls -/

/-- What a call is a call of. -/
inductive Op
  /-- `enqueue_candidate`. -/
  | enqueue (sourceJobId target : String) (dependsOn : Option String) (priority : ℤ)
  /-- `evaluate_candidate`. -/
  | evaluate (candidateId : String)
  /-- `integrate_candidate`. -/
  | integrate (candidateId : String) (h : Holder) (runTests : Bool)
  /-- `process_target`. -/
  | process (repository target : String) (h : Holder) (runTests : Bool)
  /-- `reconcile_target`. -/
  | reconcile (repository target : String)
  deriving DecidableEq

/-- The holder that drives a call, if there is one. -/
def Op.holder? : Op → Option Holder
  | integrate _ h _ | process _ _ h _ => some h
  | enqueue .. | evaluate _ | reconcile .. => none

def Op.runTests : Op → Bool
  | integrate _ _ runTests | process _ _ _ runTests => runTests
  | enqueue .. | evaluate _ | reconcile .. => true

/-- `IntegrationOutcome`. -/
structure Outcome where
  candidateId : String
  state : CandidateState
  classification : Option MergeClassification := none
  integratedHead : Option String := none
  detail : Option String := none
  locked : Bool := false

/-- What a call raises. -/
inductive Fault
  /-- The source job is not admitted, or there is none. -/
  | notAdmitted
  | candidateNotFound
  /-- `ValueError`: the holder is no job, or no lease. -/
  | invalidHolder
  /-- `LeaseFencedError`. -/
  | leaseFenced
  /-- `CandidateRevisionError`. -/
  | revision
  /-- `IntegrityError`. -/
  | integrity
  /-- What the plan builder raises. -/
  | planning
  | running
  /-- The evidence has no canonical bytes, or its MAC is no ASCII text. -/
  | unverifiable
  /-- The evidence is too large to be stored. -/
  | oversized
  deriving DecidableEq

/-- What an evaluation or an integration belongs to. -/
inductive Frame
  | alone
  /-- It is one of the evaluations of `process_target`, before these. -/
  | evaluation (ids : List String)
  /-- It is one of the integrations of `process_target`: after these, and before those. -/
  | queue (done : List Outcome) (rest : List IntegrationCandidate)

/-- Where a call stands. -/
inductive Point
  /-- It has looked at the source job, and is about to see whether it is admitted. -/
  | admitting
  /-- It is about to insert the candidate of this job. -/
  | creating (job : SupervisorJob)
  | evaluating (candidateId : String) (frame : Frame)
  /-- It is about to see what it depends on, and whether it has been reviewed. -/
  | weighing (c : IntegrationCandidate) (frame : Frame)
  /-- It is about to move a candidate that it has evaluated. -/
  | promoting (c : IntegrationCandidate) (toState : CandidateState) (error : Option String)
    (frame : Frame)
  /-- It is about to read the candidate to integrate. -/
  | fetching (candidateId : String) (frame : Frame)
  | acquiring (c : IntegrationCandidate) (frame : Frame)
  /-- It is about to move it to INTEGRATING. -/
  | claiming (c : IntegrationCandidate) (frame : Frame)
  | resolving (c : IntegrationCandidate) (frame : Frame)
  /-- It is about to read the source job again. -/
  | revalidating (c : IntegrationCandidate) (tip : String) (frame : Frame)
  | basing (c : IntegrationCandidate) (tip : String) (frame : Frame)
  /-- It is about to classify the merge. -/
  | classifying (c : IntegrationCandidate) (base : String) (frame : Frame)
  | preparing (c : IntegrationCandidate) (base : String) (cls : MergeClassification)
    (frame : Frame)
  /-- It is about to write down the worktree. -/
  | placing (c : IntegrationCandidate) (base : String) (cls : MergeClassification) (frame : Frame)
  | merging (c : IntegrationCandidate) (base : String) (cls : MergeClassification) (frame : Frame)
  /-- It has merged, and is about to read the head. -/
  | heading (c : IntegrationCandidate) (base : String) (cls : MergeClassification) (frame : Frame)
  /-- It is about to write down the head. -/
  | recording (c : IntegrationCandidate) (base : String) (cls : MergeClassification)
    (head : String) (frame : Frame)
  /-- It is about to plan the tests, and to run them. -/
  | testing (c : IntegrationCandidate) (base : String) (cls : MergeClassification)
    (head : String) (frame : Frame)
  /-- It is about to write down the evidence. -/
  | evidencing (c : IntegrationCandidate) (cls : MergeClassification) (head : String)
    (planHash : Option String) (evidence : Json) (frame : Frame)
  /-- It is about to move the candidate to INTEGRATED. -/
  | closing (c : IntegrationCandidate) (cls : MergeClassification) (head : String)
    (planHash : Option String) (evidence : Json) (frame : Frame)
  /-- It is about to give the candidate up, in this state. -/
  | marking (c : IntegrationCandidate) (state : CandidateState) (fields : Fields) (frame : Frame)
  /-- It is about to read the candidate again, which somebody else has moved. -/
  | rereading (c : IntegrationCandidate) (frame : Frame)
  /-- It has lost its lease or the lock, and is about to read the candidate. -/
  | lost (c : IntegrationCandidate) (frame : Frame)
  /-- It is about to release the lock, with what comes of the integration. -/
  | releasing (c : IntegrationCandidate) (result : Except Fault Outcome) (frame : Frame)
  /-- It is about to acquire the lock of the target. -/
  | entering
  /-- It is about to list the candidates for the first time. -/
  | listing
  /-- It is about to list them again, and to order them. -/
  | ordering
  | blocking (members queue : List IntegrationCandidate)
  /-- It is about to release the lock of the target, with what it raises, if it does. -/
  | leaving (done : List Outcome) (raises : Option Fault)
  /-- It is about to list the candidates to reconcile. -/
  | scanning
  /-- It is about to look at the lease of the holder of the first of these. -/
  | probing (cs : List IntegrationCandidate)
  /-- The holder is live, and it is about to see whether it has the lock. -/
  | checking (c : IntegrationCandidate) (rest : List IntegrationCandidate)
  /-- It is about to put a candidate back. -/
  | resetting (c : IntegrationCandidate) (rest : List IntegrationCandidate)
  | reclaiming
  /-- It has returned, with what it has done to candidates, or it has raised. -/
  | returned (result : Except Fault (List Outcome))
  | crashed

structure Call where
  op : Op
  point : Point

inductive Note
  | claimed (candidateId : String)
  | merged (candidateId : String)
  | head (head : String)
  /-- It has built a plan with this hash, and this is what its tests came to. -/
  | tested (planHash : Option String) (evidence : Json)

/-- The tables, the calls and what is noted of each. -/
structure System extends Db where
  calls : ℕ → Option Call
  log : List (ℕ × Note)

/-! ### What the queue computes -/

/-- `_classify` with `classify_merge`. -/
def classify (db : Db) (q : Queue) (told : Told) (c : IntegrationCandidate) (base : String) :
    MergeClassification :=
  if dependencySatisfied q.config db c = false then .dependencyNotIntegrated
  else if Broker.isShaLike (PyStr.ofString base) = false ∨
      Broker.isShaLike (PyStr.ofString (c.sourceHead.getD "")) = false then .unknown
  else
    match told.mergeBase with
    | none => .staleBase
    | some mb =>
      let head := c.sourceHead.getD ""
      if ∃ claimed ∈ c.baseCommit, Broker.isShaLike (PyStr.ofString claimed) = true ∧
          (told.isAncestor claimed base = false ∨ told.isAncestor claimed head = false) then
        .staleBase
      else if base = mb then .cleanApply
      else if head = mb then .staleBase
      else
        match told.mergeTreeConflicts with
        | none => .unknown
        | some true => .conflict
        | some false => .divergedClean

/-- `_current_integration_base`: the head of the last integrated candidate, or the tip. -/
def integrationBase (db : Db) (repository target tip : String) : String :=
  ((listIntegrationCandidates db repository target).foldl (fun last c =>
    if c.state = .integrated ∧ Broker.isShaLike (PyStr.ofString (c.integratedHead.getD "")) = true
    then c.integratedHead else last) none).getD tip

def integrationBranch (target : String) : String :=
  "integration/" ++ String.ofList (target.toList.dropWhile (· = '/'))

/-- `_ensure_integration_worktree`: what is wrong, if something is. -/
def worktreeError (db : Db) (told : Told) (repository target base : String) : Option String :=
  if Broker.isShaLike (PyStr.ofString base) = false then some "invalid integration base sha"
  else if told.branchExists = true ∧ (listIntegrationCandidates db repository target).all (fun c =>
      c.integrationBranch ≠ some (integrationBranch target)) = true then
    some ("refusing to remove unowned branch '" ++ integrationBranch target ++ "'")
  else if told.addWorktree = false then
    some ("failed to create integration worktree for '" ++ target ++ "'")
  else none

def defaultPlanBuilder (db : Db) (q : Queue) (c : IntegrationCandidate) (changed : List PyStr)
    (base : String) : Planned :=
  match Planning.buildTestPlan q.inventory q.policy q.sha256 q.hmac
      { changedPaths := changed
        baseRef := some (PyStr.ofString base)
        phaseClosing := true
        riskClass := (db.jobs c.sourceJobId).bind fun job => q.riskClass job.taskId }
      (q.macKey.getD "") with
  | none => .raised
  | some plan => .plan (some plan.planHash)

/-- The plan of `_run_integration_tests`. -/
def planned (db : Db) (q : Queue) (told : Told) (c : IntegrationCandidate) (base : String) :
    Planned :=
  if q.planBuilder = true then told.planned
  else defaultPlanBuilder db q c told.changedPaths base

/-- What the MAC of the evidence is taken of. -/
def evidencePayload (fields : List (PyStr × Json)) : Json :=
  .dict [("verdict", Json.getD fields "verdict" .null),
    ("plan_hash", Json.getD fields "plan_hash" .null),
    ("source_hash", Json.getD fields "source_hash" .null),
    ("test_definition_hash", Json.getD fields "test_definition_hash" .null)]

/-- A value has canonical bytes if all its texts have an encoding. -/
def encodable (value : Json) : Bool :=
  (value.scan fun s => if s.encode?.isSome then none else some "").isNone

/-- An ASCII text, which is all that `hmac.compare_digest` takes. -/
def isAscii (s : PyStr) : Bool := s.all fun c => PyStr.code c < 128

/-- `_evidence_authentic`, which may raise. -/
def evidenceAuthentic (q : Queue) (planHash : Option String) : Json → Except Fault Bool
  | .obj fields =>
    if Json.getD fields "plan_hash" .null ≠ Json.optText planHash then .ok false
    else
      match q.macKey, Json.get? fields "evidence_mac" with
      | some key, some (.str mac) =>
        if mac = [] then .ok false
        else if encodable (evidencePayload fields) = true ∧ isAscii mac = true then
          .ok (mac = PyStr.ofString (q.hmac key (evidencePayload fields)))
        else .error .unverifiable
      | _, _ => .ok false
  | .null | .bool _ | .int _ | .float _ | .str _ | .arr _ => .ok false

/-- `evidence.get("verdict")`. -/
def verdict (evidence : Json) : Json := Json.getD evidence.entries "verdict" .null

/-- `serialize_candidate_result` raises: the text is longer than `MAX_RESULT_JSON_BYTES`. -/
def oversized (evidence : Json) : Bool := 65536 < evidence.dumps.length

/-! ### The steps of a call -/

/-- What a step of a call makes of the tables, where it leads, and what is noted. -/
structure Turn where
  db : Db
  point : Point
  notes : List Note := []

def outcomeOf (c : IntegrationCandidate) : Outcome :=
  ⟨c.id, c.state, c.mergeClassification, c.integratedHead, c.lastErrorCode, false⟩

/-- Where the loop over the evaluations goes on. -/
def nextEvaluation : List String → Point
  | [] => .ordering
  | id :: ids => .evaluating id (.evaluation ids)

/-- Where the loop over the queue goes on. -/
def nextIntegration (done : List Outcome) : List IntegrationCandidate → Point
  | [] => .leaving done none
  | c :: rest => .fetching c.id (.queue done rest)

/-- Where an evaluation leads that has come to its end. -/
def evaluated : Frame → Point
  | .alone | .queue _ _ => .returned (.ok [])
  | .evaluation ids => nextEvaluation ids

/-- Where a call goes on after an integration. -/
def integrated (o : Outcome) : Frame → Point
  | .alone | .evaluation _ => .returned (.ok [o])
  | .queue done rest =>
    match o.state with
    | .integrated | .stale => nextIntegration (done ++ [o]) rest
    | .conflicted | .failed => .leaving (done ++ [o]) none
    | .pending | .ready | .integrating | .blocked =>
      if o.locked then .leaving (done ++ [o]) none else nextIntegration (done ++ [o]) rest

/-- Where a call goes that raises. -/
def raised (e : Fault) : Frame → Point
  | .alone => .returned (.error e)
  | .evaluation _ => .leaving [] (some e)
  | .queue done _ => .leaving done (some e)

/-- The rest of a call from the end of an integration on. -/
def settled (frame : Frame) : Except Fault Outcome → Point
  | .ok o => integrated o frame
  | .error e => raised e frame

/-- The transition that a call at a point asks for, with the holder that drives the call. -/
def Point.request (q : Queue) (h? : Option Holder) : Point → Option Request
  | .promoting c toState error _ =>
    some ⟨c, c.state, toState, { lastErrorCode := some error }, none, false⟩
  | .claiming c _ => h?.map fun h => ⟨c, .ready, .integrating, {}, some h, false⟩
  | .placing c _ _ _ => h?.map fun h =>
    ⟨c, .integrating, .integrating,
      { integrationWorktreePath := some (q.worktreePath c.repository c.integrationTarget)
        integrationBranch := some (integrationBranch c.integrationTarget) }, some h, false⟩
  | .recording c _ cls head _ => h?.map fun h =>
    ⟨c, .integrating, .integrating,
      { integratedHead := some head, mergeClassification := some cls }, some h, false⟩
  | .evidencing c _ _ _ evidence _ => h?.map fun h =>
    ⟨c, .integrating, .integrating, { resultJson := some evidence }, some h, false⟩
  | .closing c cls head _ _ _ => h?.map fun h =>
    ⟨c, c.state, .integrated,
      { mergeClassification := some cls
        integratedHead := some head
        lastErrorCode := some (some "tests_passed") }, some h, false⟩
  | .marking c state fields _ => h?.map fun h => ⟨c, c.state, state, fields, some h, false⟩
  | .blocking (c :: _) _ =>
    some ⟨c, c.state, .blocked, { lastErrorCode := some (some "dependency_cycle") }, none, false⟩
  | .resetting c _ =>
    some ⟨c, .integrating, .pending, { lastErrorCode := some (some "recovered_after_restart") },
      none, true⟩
  | _ => none

/-- The candidate as it is, or else as it was read. -/
def current (db : Db) (c : IntegrationCandidate) : IntegrationCandidate :=
  (getIntegrationCandidate db c.id).getD c

/-- A fenced transition of an integration that goes on if it goes through, and ends with this
outcome if somebody else has moved the candidate. -/
def fenced (db : Db) (c : IntegrationCandidate) (attempted : Except Refusal Db) (race : Point)
    (frame : Frame) (go : IntegrationCandidate → Point) (notes : List Note := []) : Turn :=
  match attempted with
  | .ok db' => ⟨db', go (current db' c), notes⟩
  | .error .fenced => ⟨db, .lost c frame, []⟩
  | .error .race => ⟨db, race, []⟩
  | .error .integrity => ⟨db, .releasing c (.error .integrity) frame, []⟩

def raced (c : IntegrationCandidate) (state : CandidateState) (detail : String) (frame : Frame) :
    Point :=
  .releasing c (.ok { candidateId := c.id, state := state, detail := some detail }) frame

/-- The candidate is given up. -/
def giveUp (c : IntegrationCandidate) (state : CandidateState) (detail : String) (frame : Frame)
    (cls : Option MergeClassification := none) : Point :=
  .marking c state { lastErrorCode := some (some detail), mergeClassification := cls } frame

section Steps

variable (q : Queue) (db : Db) (told : Told) (op : Op)

/-- Whether a job and an epoch are such as the store accepts. -/
def validHolder (h : Holder) : Bool := (PyStr.ofString h.1).strip ≠ [] && 0 < h.2

/-- `create_integration_candidate`, with what `enqueue_candidate` takes from the job. -/
def create (sourceJobId target : String) (dependsOn : Option String) (priority : ℤ)
    (job : SupervisorJob) : Turn :=
  let repository := q.canonicalRepo (job.repoIdentity.getD "")
  let id := q.config.candidateIdFor repository target sourceJobId
  match getIntegrationCandidate db id with
  | some c => ⟨db, .returned (.ok [outcomeOf c]), []⟩
  | none =>
    if db.candidates.any (fun c => c.sourceJobId = sourceJobId ∧ c.integrationTarget = target) =
        true then ⟨db, .returned (.error .integrity), []⟩
    else
      let row : IntegrationCandidate :=
        { id := id
          repository := repository
          integrationTarget := target
          sourceJobId := sourceJobId
          state := .pending
          queuePosition := ((listIntegrationCandidates db repository target).map
            (·.queuePosition)).foldl max 0 + 1
          priority := priority
          dependsOn := dependsOn.or ((job.dependsOn.filter (· ≠ "")).map
            (q.config.candidateIdFor repository target))
          baseCommit := job.baseCommit
          sourceHead := job.sourceHead
          sourceBranch := job.branchIdentity
          integrationWorktreePath := none
          integrationBranch := none
          integratedHead := none
          mergeClassification := none
          conflictDetail := none
          revision := 0
          holderOwnerInstanceId := none
          holderLeaseEpoch := 0
          resultJson := none
          lastErrorCode := none }
      ⟨{ db with candidates := db.candidates ++ [row] }, .returned (.ok [outcomeOf row]), []⟩

def evaluatingTurn (candidateId : String) (frame : Frame) : Turn :=
  match getIntegrationCandidate db candidateId with
  | none => ⟨db, raised .candidateNotFound frame, []⟩
  | some c =>
    if c.state = .pending ∨ c.state = .stale then ⟨db, .weighing c frame, []⟩
    else ⟨db, evaluated frame, []⟩

/-- It sees what a candidate depends on, and whether it has been reviewed. -/
def weighingTurn (c : IntegrationCandidate) (frame : Frame) : Turn :=
  if dependencySatisfied q.config db c = true then
    match ((db.jobs c.sourceJobId).bind fun _ => told.reviewError).filter (· ≠ "") with
    | some e => ⟨db, .promoting c .pending (some e) frame, []⟩
    | none => ⟨db, .promoting c .ready none frame, []⟩
  else ⟨db, .promoting c .pending (some "DEPENDENCY_NOT_INTEGRATED") frame, []⟩

/-- The transition of an evaluation, which nothing catches. -/
def promotingTurn (frame : Frame) : Except Refusal Db → Turn
  | .ok db' => ⟨db', evaluated frame, []⟩
  | .error .race | .error .fenced => ⟨db, raised .revision frame, []⟩
  | .error .integrity => ⟨db, raised .integrity frame, []⟩

/-- It reads the candidate to integrate. -/
def fetchingTurn (candidateId : String) (frame : Frame) : Turn :=
  match getIntegrationCandidate db candidateId with
  | none => ⟨db, raised .candidateNotFound frame, []⟩
  | some c => ⟨db, .acquiring c frame, []⟩

def acquiringTurn (h : Holder) (c : IntegrationCandidate) (frame : Frame) : Turn :=
  if validHolder h = false then ⟨db, raised .invalidHolder frame, []⟩
  else
    match tryAcquireActionLock db (lockName q.config c.repository c.integrationTarget) h with
    | none => ⟨db, raised .leaseFenced frame, []⟩
    | some (false, db') =>
      ⟨db', integrated { outcomeOf c with
        classification := none, integratedHead := none,
        detail := some "target_locked_by_another_holder", locked := true } frame, []⟩
    | some (true, db') => ⟨db', .claiming c frame, []⟩

/-- It reads the source job again. -/
def revalidatingTurn (c : IntegrationCandidate) (tip : String) (frame : Frame) : Turn :=
  match (db.jobs c.sourceJobId).filter fun job => job.terminal = some "DONE" with
  | none => ⟨db, giveUp c .stale "source_terminal_mutated" frame, []⟩
  | some job =>
    if job.sourceHead ≠ c.sourceHead then ⟨db, giveUp c .stale "source_head_changed" frame, []⟩
    else ⟨db, .basing c tip frame, []⟩

def basingTurn (c : IntegrationCandidate) (tip : String) (frame : Frame) : Turn :=
  let base := integrationBase db c.repository c.integrationTarget tip
  if Broker.isShaLike (PyStr.ofString base) = false then
    ⟨db, giveUp c .failed "integration_base_unresolved" frame, []⟩
  else ⟨db, .classifying c base frame, []⟩

def classifyingTurn (c : IntegrationCandidate) (base : String) (frame : Frame) : Turn :=
  let cls := classify db q told c base
  match cls with
  | .dependencyNotIntegrated =>
    ⟨db, giveUp c .pending "dependency_not_integrated" frame (some cls), []⟩
  | .staleBase => ⟨db, giveUp c .stale "stale_base" frame (some cls), []⟩
  | .conflict => ⟨db, giveUp c .conflicted "merge_conflict" frame (some cls), []⟩
  | .unknown => ⟨db, giveUp c .failed "merge_classification_unknown" frame (some cls), []⟩
  | .cleanApply | .divergedClean => ⟨db, .preparing c base cls frame, []⟩

def preparingTurn (c : IntegrationCandidate) (base : String) (cls : MergeClassification)
    (frame : Frame) : Turn :=
  match worktreeError db told c.repository c.integrationTarget base with
  | some e => ⟨db, giveUp c .failed e frame, []⟩
  | none => ⟨db, .placing c base cls frame, []⟩

def mergingTurn (c : IntegrationCandidate) (base : String) (cls : MergeClassification)
    (frame : Frame) : Turn :=
  match told.mergeNoFf with
  | some e => ⟨db, .marking c .conflicted
      { mergeClassification := some cls, conflictDetail := some e } frame, []⟩
  | none => ⟨db, .heading c base cls frame, [.merged c.id]⟩

def headingTurn (c : IntegrationCandidate) (base : String) (cls : MergeClassification)
    (frame : Frame) : Turn :=
  match told.head.filter fun head => Broker.isShaLike (PyStr.ofString head) with
  | none => ⟨db, giveUp c .failed "integrated_head_unreadable" frame, []⟩
  | some head => ⟨db, .recording c base cls head frame, [.head head]⟩

/-- It plans the tests, and runs them. -/
def testingTurn (c : IntegrationCandidate) (base : String) (cls : MergeClassification)
    (head : String) (frame : Frame) : Turn :=
  match planned db q told c base with
  | .raised => ⟨db, .releasing c (.error .planning) frame, []⟩
  | .refused text => ⟨db, giveUp c .failed text frame, []⟩
  | .plan planHash =>
    match told.ran with
    | .raised => ⟨db, .releasing c (.error .running) frame, []⟩
    | .refused text => ⟨db, giveUp c .failed text frame, []⟩
    | .evidence e => ⟨db, .evidencing c cls head planHash e frame, [.tested planHash e]⟩

/-- It looks at the evidence, and writes it down. -/
def evidencingTurn (c : IntegrationCandidate) (cls : MergeClassification) (head : String)
    (planHash : Option String) (evidence : Json) (frame : Frame)
    (attempted : Except Refusal Db) : Turn :=
  match evidenceAuthentic q planHash evidence with
  | .error e => ⟨db, .releasing c (.error e) frame, []⟩
  | .ok false => ⟨db, giveUp c .failed "integration_evidence_unauthenticated" frame, []⟩
  | .ok true =>
    if oversized evidence = true then ⟨db, .releasing c (.error .oversized) frame, []⟩
    else
      fenced db c attempted (raced c .integrating "state_changed_after_tests" frame) frame
        fun c' =>
          if verdict evidence = .text "DONE" then .closing c' cls head planHash evidence frame
          else giveUp c' .failed "tests_failed" frame (some cls)

/-- It acquires the lock of the target. -/
def enteringTurn (h : Holder) (repository target : String) : Turn :=
  if validHolder h = false then ⟨db, .returned (.error .invalidHolder), []⟩
  else
    match tryAcquireActionLock db (lockName q.config repository target) h with
    | none => ⟨db, .returned (.error .leaseFenced), []⟩
    | some (false, db') => ⟨db', .returned (.ok []), []⟩
    | some (true, db') => ⟨db', .listing, []⟩

/-- It looks at the lease of the holder of an INTEGRATING candidate. -/
def probingTurn : List IntegrationCandidate → Turn
  | [] => ⟨db, .reclaiming, []⟩
  | c :: rest =>
    if c.state = .integrating then
      if c.holderOwnerInstanceId.any (fun holder => validHolder (holder, c.holderLeaseEpoch) &&
          jobHoldsCurrentLease db (holder, c.holderLeaseEpoch)) = true then
        ⟨db, .checking c rest, []⟩
      else ⟨db, .resetting c rest, []⟩
    else ⟨db, .probing rest, []⟩

/-- It sees whether that holder has the lock. -/
def checkingTurn (repository target : String) (c : IntegrationCandidate)
    (rest : List IntegrationCandidate) : Turn :=
  if db.locks (lockName q.config repository target) =
      c.holderOwnerInstanceId.map fun holder => (holder, c.holderLeaseEpoch) then
    ⟨db, .probing rest, []⟩
  else ⟨db, .resetting c rest, []⟩

/-- The repository and the target that a call of `process_target` or of `reconcile_target` is
about. -/
def Op.scope : Op → String × String
  | process repository target _ _ | reconcile repository target => (repository, target)
  | enqueue .. | evaluate _ | integrate .. => ("", "")

/-- The holder that drives a call. -/
def Op.holder (op : Op) : Holder := op.holder?.getD ("", 0)

/-- What the transition that a call at a point asks for comes to. -/
def attempt (p : Point) : Except Refusal Db :=
  (p.request q op.holder?).elim (.error .race) (transition q db)

/-- It sees whether the source job is admitted. -/
def admittingTurn : Op → Turn
  | .enqueue sourceJobId _ _ _ =>
    match db.jobs sourceJobId with
    | none => ⟨db, .returned (.error .notAdmitted), []⟩
    | some job =>
      if told.admissionErrors = [] then ⟨db, .creating job, []⟩
      else ⟨db, .returned (.error .notAdmitted), []⟩
  | .evaluate _ | .integrate .. | .process .. | .reconcile .. => ⟨db, .crashed, []⟩

/-- It inserts the candidate. -/
def creatingTurn (job : SupervisorJob) : Op → Turn
  | .enqueue sourceJobId target dependsOn priority =>
    create q db sourceJobId target dependsOn priority job
  | .evaluate _ | .integrate .. | .process .. | .reconcile .. => ⟨db, .crashed, []⟩

/-- The next step of a call. -/
def turn (p : Point) : Turn :=
  match p with
  | .admitting => admittingTurn db told op
  | .creating job => creatingTurn q db job op
  | .evaluating candidateId frame => evaluatingTurn db candidateId frame
  | .weighing c frame => weighingTurn q db told c frame
  | .promoting _ _ _ frame => promotingTurn db frame (attempt q db op p)
  | .fetching candidateId frame => fetchingTurn db candidateId frame
  | .acquiring c frame => acquiringTurn q db op.holder c frame
  | .claiming c frame =>
    fenced db c (attempt q db op p) (raced c c.state "state_changed_concurrently" frame) frame
      (.resolving · frame) [.claimed c.id]
  | .resolving c frame =>
    ⟨db, told.targetTip.elim (giveUp c .failed "target_tip_unreadable" frame)
      (.revalidating c · frame), []⟩
  | .revalidating c tip frame => revalidatingTurn db c tip frame
  | .basing c tip frame => basingTurn db c tip frame
  | .classifying c base frame => classifyingTurn q db told c base frame
  | .preparing c base cls frame => preparingTurn db told c base cls frame
  | .placing c base cls frame =>
    fenced db c (attempt q db op p) (raced c .integrating "state_changed_during_prepare" frame)
      frame (.merging · base cls frame)
  | .merging c base cls frame => mergingTurn db told c base cls frame
  | .heading c base cls frame => headingTurn db told c base cls frame
  | .recording c base cls head frame =>
    fenced db c (attempt q db op p) (raced c .integrating "state_changed_after_merge" frame) frame
      fun c' =>
        if op.runTests = true then .testing c' base cls head frame
        else giveUp c' .failed "tests_not_run" frame (some cls)
  | .testing c base cls head frame => testingTurn q db told c base cls head frame
  | .evidencing c cls head planHash evidence frame =>
    evidencingTurn q db c cls head planHash evidence frame (attempt q db op p)
  | .closing c _ _ _ _ frame | .marking c _ _ frame =>
    fenced db c (attempt q db op p) (.rereading c frame) frame
      fun c' => .releasing c (.ok (outcomeOf c')) frame
  | .rereading c frame => ⟨db, .releasing c (.ok (outcomeOf (current db c))) frame, []⟩
  | .lost c frame =>
    ⟨db, raced c (current db c).state "holder_lease_or_lock_lost" frame, []⟩
  | .releasing c result frame =>
    ⟨releaseActionLock db (lockName q.config c.repository c.integrationTarget) op.holder,
      settled frame result, []⟩
  | .entering => enteringTurn q db op.holder op.scope.1 op.scope.2
  | .listing =>
    ⟨db, nextEvaluation (((listIntegrationCandidates db op.scope.1 op.scope.2).filter fun c =>
      c.state = .pending ∨ c.state = .stale).map (·.id)), []⟩
  | .ordering =>
    let candidates := listIntegrationCandidates db op.scope.1 op.scope.2
    ⟨db, .blocking (blocked candidates) (ordered candidates), []⟩
  | .blocking [] queue => ⟨db, nextIntegration [] queue, []⟩
  | .blocking (_ :: members) queue =>
    ⟨(attempt q db op p).toOption.getD db, .blocking members queue, []⟩
  | .leaving done raises =>
    ⟨releaseActionLock db (lockName q.config op.scope.1 op.scope.2) op.holder,
      .returned (raises.elim (.ok done) .error), []⟩
  | .scanning => ⟨db, .probing (listIntegrationCandidates db op.scope.1 op.scope.2), []⟩
  | .probing cs => probingTurn db cs
  | .checking c rest => checkingTurn q db op.scope.1 op.scope.2 c rest
  | .resetting _ rest => ⟨(attempt q db op p).toOption.getD db, .probing rest, []⟩
  | .reclaiming =>
    ⟨reclaimStaleActionLock db (lockName q.config op.scope.1 op.scope.2), .returned (.ok []), []⟩
  | .returned result => ⟨db, .returned result, []⟩
  | .crashed => ⟨db, .crashed, []⟩

end Steps

/-! ### The system -/

/-- Where a call begins. -/
def Op.start : Op → Point
  | enqueue .. => .admitting
  | evaluate candidateId => .evaluating candidateId .alone
  | integrate candidateId _ _ => .fetching candidateId .alone
  | process .. => .entering
  | reconcile .. => .scanning

namespace System

/-- A call stands at a point. -/
def goTo (s : System) (c : ℕ) (op : Op) (p : Point) : System :=
  { s with calls := Function.update s.calls c (some ⟨op, p⟩) }

/-- A call has taken a step. -/
def take (s : System) (c : ℕ) (op : Op) (t : Turn) : System where
  toDb := t.db
  calls := Function.update s.calls c (some ⟨op, t.point⟩)
  log := s.log ++ t.notes.map (c, ·)

/-- The tables are written. -/
def set (s : System) (db : Db) : System := { s with toDb := db }

variable {s : System} {c c' : ℕ} {op : Op} {p : Point} {t : Turn} {call call' : Call}

theorem cases_update (h : Function.update s.calls c (some call) c' = some call') :
    c' = c ∧ call' = call ∨ c' ≠ c ∧ s.calls c' = some call' := by
  by_cases hc : c' = c
  · rw [hc, Function.update_self] at h
    exact .inl ⟨hc, (Option.some.inj h).symm⟩
  · rw [Function.update_of_ne hc] at h
    exact .inr ⟨hc, h⟩

theorem calls_goTo (h : (s.goTo c op p).calls c' = some call) :
    c' = c ∧ call = ⟨op, p⟩ ∨ c' ≠ c ∧ s.calls c' = some call := cases_update h

theorem calls_take (h : (s.take c op t).calls c' = some call) :
    c' = c ∧ call = ⟨op, t.point⟩ ∨ c' ≠ c ∧ s.calls c' = some call := cases_update h

end System

/-- What happens to the system. -/
inductive Act
  | start (c : ℕ) (op : Op)
  /-- A call takes its next step, and is told this if it asks. -/
  | next (c : ℕ) (told : Told)
  /-- A call stops for good. -/
  | crash (c : ℕ)
  /-- A job row is written: its lease is claimed, renewed, released or taken over, it ends. -/
  | writeJob (id : String) (row : Option SupervisorJob)
  | acquire (name : String) (h : Holder)
  | release (name : String) (h : Holder)
  | reclaim (name : String)
  | waits (n : ℕ)

def step (q : Queue) (s : System) : Act → System
  | .start c op => if (s.calls c).isNone then s.goTo c op op.start else s
  | .next c told =>
    match s.calls c with
    | none => s
    | some call => s.take c call.op (turn q s.toDb told call.op call.point)
  | .crash c =>
    match s.calls c with
    | none => s
    | some call => s.goTo c call.op .crashed
  | .writeJob id row => { s with jobs := Function.update s.jobs id row }
  | .acquire name h => s.set (((tryAcquireActionLock s.toDb name h).map (·.2)).getD s.toDb)
  | .release name h => s.set (releaseActionLock s.toDb name h)
  | .reclaim name => s.set (reclaimStaleActionLock s.toDb name)
  | .waits n => { s with now := s.now + n }

/-- The system before the first call: there are no candidates. -/
def initial (now : Time) (jobs : String → Option SupervisorJob)
    (locks : String → Option Holder) : System where
  now := now
  jobs := jobs
  locks := locks
  candidates := []
  calls := fun _ => none
  log := []

/-- The system after a run. -/
def run (q : Queue) (now : Time) (jobs : String → Option SupervisorJob)
    (locks : String → Option Holder) (as : List Act) : System :=
  Runs.run (step q) (initial now jobs locks) as

end Calls

end MergeQueue

end ArgentTeam
