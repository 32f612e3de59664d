import ArgentTeam.External.CiRead
import ArgentTeam.Lib.JsonSize
import ArgentTeam.Supervisor.Rows

/-!
# What the manager does about a CI wait

`_process_ci_wait` of `ci_external_wait.py` decides, of a row it has read and of what the
adapter answers, whether the job is woken or the wait put off, and writes down the evidence
for it. The evidence is bounded: one that does not fit makes the whole call raise, and the
pass around it puts the wait off instead. The JSON texts of a row are held as the values that
they decode to.
-/

namespace ArgentTeam

namespace External

open Supervisor

def maxCiEvidenceBytes : ℕ := 64 * 1024

/-! ### What is written down -/

/-- The stored text of a state. -/
def CiState.value : CiState → String
  | pending => "PENDING"
  | success => "SUCCESS"
  | failure => "FAILURE"
  | cancelled => "CANCELLED"
  | timedOut => "TIMED_OUT"
  | actionRequired => "ACTION_REQUIRED"
  | neutral => "NEUTRAL"
  | skipped => "SKIPPED"
  | noChecksConfigured => "NO_CHECKS_CONFIGURED"
  | providerUnavailable => "PROVIDER_UNAVAILABLE"
  | rateLimited => "RATE_LIMITED"
  | unknown => "UNKNOWN"

/-- The transition to a state: `ci_` and its text in lower case. -/
def CiState.transition : CiState → String
  | pending => "ci_pending"
  | success => "ci_success"
  | failure => "ci_failure"
  | cancelled => "ci_cancelled"
  | timedOut => "ci_timed_out"
  | actionRequired => "ci_action_required"
  | neutral => "ci_neutral"
  | skipped => "ci_skipped"
  | noChecksConfigured => "ci_no_checks_configured"
  | providerUnavailable => "ci_provider_unavailable"
  | rateLimited => "ci_rate_limited"
  | unknown => "ci_unknown"

/-- `CI_TERMINAL_STATES`. -/
def CiState.isTerminal : CiState → Bool
  | success | failure | cancelled | timedOut | actionRequired => true
  | _ => false

/-- What is observed of a wait: the state of its run, or of its pull request. -/
inductive Observed
  | ci (s : CiState)
  | stale
  | closed
  | merged

/-- The stored text of what is observed. -/
def Observed.value : Observed → String
  | ci s => s.value
  | stale => "STALE"
  | closed => "CLOSED"
  | merged => "MERGED"

/-- `ALL_CI_FAILURE_CLASSES`. -/
inductive CiFailureClass
  | codeFailure
  | infrastructureFailure
  | cancelled
  | timeout
  | provider
  | unknown

def CiFailureClass.value : CiFailureClass → String
  | codeFailure => "CODE_FAILURE"
  | infrastructureFailure => "INFRASTRUCTURE_FAILURE"
  | cancelled => "CANCELLED"
  | timeout => "TIMEOUT"
  | provider => "PROVIDER"
  | unknown => "UNKNOWN"

/-- The stored text of the state of a pull request. -/
def PrState.value : PrState → String
  | opened => "OPEN"
  | closed => "CLOSED"
  | merged => "MERGED"
  | unknown => "UNKNOWN"
  | other => ""

def ProviderError.value : ProviderError → String
  | unavailable => "unavailable"
  | rateLimited => "rate_limited"
  | network => "network"
  | unknown => "unknown"
  | other => ""

/-- The stored text of a conclusion. -/
def CheckConclusion.value : CheckConclusion → String
  | success => "SUCCESS"
  | failure => "FAILURE"
  | cancelled => "CANCELLED"
  | timedOut => "TIMED_OUT"
  | actionRequired => "ACTION_REQUIRED"
  | neutral => "NEUTRAL"
  | skipped => "SKIPPED"
  | stale => "STALE"
  | startupFailure => "STARTUP_FAILURE"
  | unknown => "UNKNOWN"

/-- The stored text of a status. -/
def CheckStatus.value : CheckStatus → String
  | queued => "QUEUED"
  | inProgress => "IN_PROGRESS"
  | completed => "COMPLETED"
  | pending => "PENDING"
  | unknown => "UNKNOWN"
  | other => ""

/-- The text of what `_validate_read` has against a read. -/
def ReadError.value : ReadError → String
  | badRef => "bad_ref"
  | wrongIdentity => "wrong_identity"
  | badPrState => "bad_pr_state"
  | badProviderError => "bad_provider_error"
  | tooManyChecks => "too_many_checks"
  | badCheckConclusion => "bad_check_conclusion"
  | badCheckStatus => "bad_check_status"
  | badCheckContradictory => "bad_check_contradictory"
  | badCheckName => "bad_check_name"
  | badEventVersion => "bad_event_version"

/-- `ErrorClass` of `job_state.py`. -/
inductive JobErrorClass
  | none
  | transient
  | deterministic
  | resource
  | external
  | security
  | ownerRequired
  | context
  | provider

/-- The policy of a wait, as `load_policy` reads it. -/
structure CiPolicy where
  requiredChecks : Option (List PyStr)
  optionalChecks : List PyStr
  expectedBase : Option PyStr

structure CiEvidence where
  aggregateState : Option Observed
  classification : CiFailureClass
  transition : String
  observedAt : Time
  expectedHeadSha : PyStr
  headSha : Json
  baseRef : Json
  prState : Option PrState
  providerError : Option ProviderError
  rateLimitResetAt : Option PyStr
  eventVersion : ℤ
  requiredChecks : Option (List PyStr)
  optionalChecks : List PyStr
  observedCheckNames : Option (List PyStr)
  result : Option (List ReadCheck × List PyStr)

/-- A row of `external_waits`, of kind `ci`. -/
structure CiWaitRow where
  waitId : String
  jobId : String
  provider : String
  ref : PyStr
  expectedSubject : PyStr
  lastObservedState : Option Observed
  nextCheckAt : Time
  deadlineAt : Option Time
  checkAttempt : ℕ
  eventVersion : ℤ
  terminalObservedAt : Option Time
  ciPolicy : Option CiPolicy
  ciEvidence : Option CiEvidence

def CiWaitRow.isOpen (w : CiWaitRow) : Bool := w.terminalObservedAt.isNone

/-! ### The text of the evidence -/

section Text

-- how a time is printed
variable (iso : Time → PyStr)

/-- The value of an optional Python string. -/
def optStr : Option PyStr → Json
  | some s => .str s
  | none => .null

def namesJson (names : List PyStr) : Json := .arr (names.map .str)

def checkToEvidence (c : ReadCheck) : Json :=
  Json.dict
    [("name", .str (normCheckName c.name)),
      ("conclusion", Json.optText (c.conclusion.map CheckConclusion.value)),
      ("status", Json.text c.status.value),
      ("run_ref", .str ((c.runRef.getD []).take maxCiRunRefLen)),
      ("details_url", .str ((c.detailsUrl.getD []).take maxCiRunRefLen))]

def CiEvidence.toJson (e : CiEvidence) : Json :=
  Json.dict <|
    [("aggregate_state", Json.optText (e.aggregateState.map Observed.value)),
      ("classification", Json.text e.classification.value),
      ("transition", Json.text e.transition),
      ("observed_at", .str (iso e.observedAt)),
      ("expected_head_sha", .str e.expectedHeadSha),
      ("head_sha", e.headSha),
      ("base_ref", e.baseRef),
      ("pr_state", Json.optText (e.prState.map PrState.value)),
      ("provider_error", Json.optText (e.providerError.map ProviderError.value)),
      ("rate_limit_reset_at", optStr e.rateLimitResetAt),
      ("event_version", .int e.eventVersion),
      ("required_checks", (e.requiredChecks.map namesJson).getD .null),
      ("optional_checks", namesJson e.optionalChecks),
      ("observed_check_names", (e.observedCheckNames.map namesJson).getD .null)] ++
    match e.result with
    | none => []
    | some (failing, missing) =>
      [("failing_checks", .arr (failing.map checkToEvidence)),
        ("missing_required", namesJson missing)]

/-- The text of the evidence is within the budget. -/
def CiEvidence.Fits (e : CiEvidence) : Prop := (e.toJson iso).textSize ≤ maxCiEvidenceBytes

instance (e : CiEvidence) : Decidable (e.Fits iso) := inferInstanceAs (Decidable (_ ≤ _))

/-- `dump_evidence`: none where it raises. -/
def dumpEvidence (e : CiEvidence) : Option CiEvidence :=
  if maxCiEvidenceBytes < (e.toJson iso).compact.length then none else some e

theorem dumpEvidence_eq (e : CiEvidence) :
    dumpEvidence iso e = if e.Fits iso then some e else none := by
  rw [dumpEvidence, Json.length_compact]
  by_cases h : e.Fits iso
  · rw [if_neg (not_lt.mpr h), if_pos h]
  · rw [if_pos (not_le.mp h), if_neg h]

end Text

/-! ### Reading a run -/

/-- `_FAILING_CHECK_CONCLUSIONS`. -/
def CheckConclusion.failing : CheckConclusion → Bool
  | failure | cancelled | timedOut | actionRequired | startupFailure | neutral | skipped
  | stale => true
  | success | unknown => false

def failingObservedChecks (checks : List ReadCheck) (required : Option (List PyStr)) :
    List ReadCheck :=
  checks.filter fun c => c.conclusion.any CheckConclusion.failing &&
    match required.map (List.map normCheckName) with
    | none | some [] => true
    | some req => req.elem c.name

def missingRequiredChecks (checks : List ReadCheck) (required : List PyStr) : List PyStr :=
  (((required.map normCheckName).filter fun n => !(namesOf checks).elem n).dedup).insertionSort
    fun m n => PyStr.le m n

def infraMarkers : List String :=
  ["deploy", "preview", "pages", "netlify", "vercel", "release", "infrastructure", "infra",
    "terraform", "provision"]

def codeMarkers : List String :=
  ["test", "lint", "build", "check", "ci", "type", "unit", "integration", "e2e", "format",
    "coverage", "mypy", "pytest"]

/-- The names of the checks in lower case, one after another. -/
def joinedNames (failing : List ReadCheck) : PyStr :=
  List.intercalate (PyStr.ofString " ") (failing.map fun c => PyStr.lower c.name)

def classifyCiFailure (aggregate : CiState) (failing : List ReadCheck)
    (providerError : Option ProviderError) : CiFailureClass :=
  if providerError.any fun e => e ≠ .other then .provider
  else if aggregate = .rateLimited || aggregate = .providerUnavailable then .provider
  else if aggregate = .timedOut then .timeout
  else if aggregate = .cancelled then .cancelled
  else if aggregate = .actionRequired then .unknown
  else if failing.any fun c => c.conclusion = some .timedOut then .timeout
  else if failing.any fun c => c.conclusion = some .cancelled then .cancelled
  else if infraMarkers.any fun m => PyStr.contains (PyStr.ofString m) (joinedNames failing) then
    .infrastructureFailure
  else if codeMarkers.any fun m => PyStr.contains (PyStr.ofString m) (joinedNames failing) then
    .codeFailure
  else .unknown

def errorClassFor : CiState → JobErrorClass
  | .success => .none
  | .actionRequired => .ownerRequired
  | _ => .external

/-! ### The manager -/

/-- What comes of asking: nobody is registered, the adapter raises, or it returns a read. -/
inductive CiAnswer
  | noAdapter
  | raises (name : String)
  | read (r : CiRead)

/-- What the manager does about a wait. -/
inductive CiOutcome
  | wake (queueReason : QueueReason) (errorClass : JobErrorClass) (reason : String)
    (state : Option Observed) (evidence : CiEvidence) (eventVersion : Option ℤ)
  /-- The wait is put off. -/
  | backoff (state : Option Observed) (outcome reason : String) (evidence : Option CiEvidence)

/-- The job is woken. -/
def CiOutcome.wakes : CiOutcome → Bool
  | wake .. => true
  | backoff .. => false

/-- `load_policy`. -/
def CiWaitRow.policy (w : CiWaitRow) : CiPolicy := w.ciPolicy.getD ⟨none, [], none⟩

/-- `_prior_observed_check_names`. -/
def CiWaitRow.priorNames (w : CiWaitRow) : Option (List PyStr) :=
  w.ciEvidence.bind CiEvidence.observedCheckNames

def requiredSetMateriallyChanged (w : CiWaitRow) (read : CiRead) : Bool :=
  (w.policy.requiredChecks.getD []).any fun n =>
    w.priorNames.any fun prior => prior.elem n && !(namesOf read.checks).elem n

def evidence (w : CiWaitRow) (policy : CiPolicy) (now : Time) (aggregate : Option Observed)
    (classification : CiFailureClass) (transition : String) (read : Option CiRead)
    (observed : Option (List PyStr)) : CiEvidence where
  aggregateState := aggregate
  classification := classification
  transition := transition
  observedAt := now
  expectedHeadSha := w.expectedSubject
  headSha := (read.map CiRead.prHeadSha).getD .null
  baseRef := (read.map CiRead.baseRef).getD .null
  prState := read.map CiRead.prState
  providerError := read.bind CiRead.providerError
  rateLimitResetAt := read.bind CiRead.rateLimitResetAt
  eventVersion := (read.map CiRead.eventVersion).getD 0
  requiredChecks := policy.requiredChecks
  optionalChecks := policy.optionalChecks
  observedCheckNames := observed
  result := none

def readEvidence (w : CiWaitRow) (now : Time) (read : CiRead) (aggregate : Observed)
    (classification : CiFailureClass) (transition : String) : CiEvidence :=
  evidence w w.policy now (some aggregate) classification transition (some read)
    (some (namesOf read.checks))

/-- The state of the run in a read. -/
def aggregateOf (w : CiWaitRow) (read : CiRead) : CiState :=
  aggregateCiState (read.checks.map ReadCheck.toCiCheck) w.policy.requiredChecks

def checksEvidence (w : CiWaitRow) (now : Time) (read : CiRead) : CiEvidence :=
  let aggregate := aggregateOf w read
  let failing := failingObservedChecks read.checks w.policy.requiredChecks
  let missing := missingRequiredChecks read.checks (w.policy.requiredChecks.getD [])
  let classification := classifyCiFailure aggregate failing read.providerError
  if requiredSetMateriallyChanged w read then
    readEvidence w now read (.ci aggregate) classification "required_check_set_changed"
  else if aggregate.isTerminal then
    { readEvidence w now read (.ci aggregate) classification aggregate.transition with
      result := some (failing, missing) }
  else readEvidence w now read (.ci aggregate) classification aggregate.transition

section Process

variable (iso : Time → PyStr)

/-- A read that is bound to the wait, of a pull request that is open: its checks count. -/
def aboutChecks (w : CiWaitRow) (now : Time) (read : CiRead) : Option CiOutcome :=
  let aggregate := aggregateOf w read
  (dumpEvidence iso (checksEvidence w now read)).map fun e =>
    if requiredSetMateriallyChanged w read then
      .wake .waitEvent .external "required_check_set_changed" (some (.ci aggregate)) e
        (some read.eventVersion)
    else if aggregate.isTerminal then
      .wake .waitEvent (errorClassFor aggregate) aggregate.transition (some (.ci aggregate)) e
        (some read.eventVersion)
    else
      .backoff (some (.ci aggregate)) "pending"
        (if aggregate = .noChecksConfigured then "no_checks_configured"
          else if aggregate = .unknown then "unknown"
          else "pending") (some e)

/-- A read that the manager has let through. -/
def aboutRead (w : CiWaitRow) (now : Time) (read : CiRead) : Option CiOutcome :=
  let wake (state : Observed) (reason : String) : Option CiOutcome :=
    (dumpEvidence iso (readEvidence w now read state .unknown reason)).map fun e =>
      .wake .waitEvent .external reason (some state) e (some read.eventVersion)
  let backoff (state : CiState) (classification : CiFailureClass) (outcome reason : String) :
      Option CiOutcome :=
    (dumpEvidence iso (readEvidence w now read (.ci state) classification reason)).map fun e =>
      .backoff (some (.ci state)) outcome reason (some e)
  match read.providerError with
  | some .rateLimited => backoff .rateLimited .provider "rate_limited" "rate_limited"
  | some _ => backoff .providerUnavailable .provider "provider_unavailable" "provider_unavailable"
  | none =>
    -- the read must be bound to the wait before anything is made of its checks
    if read.prHeadSha = .null then backoff .unknown .unknown "pending" "missing_head"
    else if read.prHeadSha ≠ .str w.expectedSubject then wake .stale "stale_head_change"
    else if read.baseRef ≠ optStr w.policy.expectedBase then wake .stale "base_ref_changed"
    else if read.prState = .unknown then backoff .unknown .unknown "pending" "unknown_pr_state"
    else if read.prState = .closed then wake .closed "pr_closed"
    else if read.prState = .merged then wake .merged "pr_merged_unexpected"
    else aboutChecks iso w now read

/-- `_process_ci_wait`, of the row the manager has read: none where it raises. -/
def processCiWait (w : CiWaitRow) (now : Time) (answer : CiAnswer) : Option CiOutcome :=
  if w.deadlineAt.any fun t => t ≤ now then
    (dumpEvidence iso (evidence w ⟨none, [], none⟩ now none .unknown "ci_deadline" none none)).map
      fun e => .wake .waitDeadline .external "ci_deadline" none e none
  else
    match answer with
    | .noAdapter => some (.backoff none "unknown_provider" "provider_not_allowlisted" none)
    | .raises name =>
      if parseCiRef w.ref = none then some (.backoff none "malformed" "bad_ref" none)
      else
        (dumpEvidence iso (evidence w w.policy now (some (.ci .providerUnavailable)) .provider
          "provider_unavailable" none none)).map fun e =>
          .backoff (some (.ci .providerUnavailable)) "adapter_error" name (some e)
    | .read read =>
      match validateRead read w.ref with
      | some e => some (.backoff none "malformed" e.value none)
      | none => aboutRead iso w now read

/-- What is done where `_process_ci_wait` raises. -/
def afterError : CiOutcome := .backoff none "adapter_error" "ValueError" none

end Process

/-! ### A read that is bound to its wait -/

/-- The manager lets the read through, nothing went wrong, and it is bound to the wait, of a
pull request that is open. -/
structure Bound (w : CiWaitRow) (read : CiRead) : Prop where
  valid : validateRead read w.ref = none
  clean : read.providerError = none
  head : read.prHeadSha = .str w.expectedSubject
  base : read.baseRef = optStr w.policy.expectedBase
  opened : read.prState = .opened

variable {iso : Time → PyStr} {w : CiWaitRow} {now : Time} {read : CiRead}

theorem prState_ne_other_of_valid {ref : PyStr} (h : validateRead read ref = none) :
    read.prState ≠ .other := by
  intro hother
  unfold validateRead at h
  split at h
  · cases h
  · rw [if_pos hother] at h
    split_ifs at h

/-- The deadline has not passed. -/
def CiWaitRow.InTime (w : CiWaitRow) (now : Time) : Prop := ∀ t, w.deadlineAt = some t → now < t

theorem deadline_any_eq_false (h : w.InTime now) :
    ¬(w.deadlineAt.any fun t => decide (t ≤ now)) = true := by
  intro hany
  obtain ⟨t, ht, hle⟩ := (Option.any_eq_true _ _).mp hany
  exact absurd (h t ht) (not_lt.mpr (of_decide_eq_true hle))

theorem processCiWait_of_bound (h : Bound w read) (htime : w.InTime now) :
    processCiWait iso w now (.read read) = aboutChecks iso w now read := by
  rw [processCiWait, if_neg (deadline_any_eq_false htime)]
  simp [h.valid, aboutRead, h.clean, h.head, h.base, h.opened]

end External

end ArgentTeam
