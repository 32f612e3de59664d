import ArgentTeam.Broker.Lifecycle

/-!
# Settling a request

What the broker makes of an answer of the provider: `_settle`, `_finalize` and `_bounded_wait`
of `external_action_broker.py`, up to the transition they ask the store for, and the same for
an observation of `_reconcile_locked`. The redaction of secrets, a list of regular expressions,
is a parameter.
-/

namespace ArgentTeam

open MergeQueue (Holder)

namespace Broker

structure Driver extends Broker where
  writeEnabled : Bool
  /-- The substitutions of `_redact_secrets` and of the token markers. -/
  redact : PyStr → PyStr
  mem_redact : ∀ s, ∀ c ∈ redact s, c ∈ s ∨ c ∈ PyStr.ofString "[REDACTED]"

/-! ### Answers of the provider -/

structure ProviderResult where
  outcome : PyStr
  objectId : Option PyStr := none
  state : Option Json := none
  detail : Option PyStr := none
  deriving DecidableEq

/-- The exceptions of an adapter, by the clause of `_drive` that catches them. -/
inductive ProviderException
  | writeDisabled | rateLimited | conflict | credentialError | validationError | unavailable
  /-- Any other exception, with the name of its type. -/
  | exception (typeName : String)
  /-- What is no `Exception`: nothing catches it. -/
  | exit
  deriving DecidableEq

/-- How an operation of the adapter ends. -/
inductive Answer
  | result (r : ProviderResult)
  | other
  | raised (e : ProviderException)
  deriving DecidableEq

/-- `ALLOWED_OUTCOMES`. -/
inductive Outcome
  | success | waiting | rateLimited | unavailable | conflict | validationFailed | credentialError
  deriving DecidableEq

def Outcome.text : Outcome → String
  | success => "success"
  | waiting => "waiting"
  | rateLimited => "rate_limited"
  | unavailable => "unavailable"
  | conflict => "conflict"
  | validationFailed => "validation_failed"
  | credentialError => "credential_error"

/-- The outcome with a text, if it is an allowed one. -/
def Outcome.ofText? (s : PyStr) : Option Outcome :=
  [success, waiting, rateLimited, unavailable, conflict, validationFailed, credentialError].find?
    fun o => s = PyStr.ofString o.text

@[simp]
theorem Outcome.ofText?_text (o : Outcome) : Outcome.ofText? (PyStr.ofString o.text) = some o := by
  cases o <;> decide

/-- The result `_drive` makes of an exception, where it makes one. -/
def ProviderException.result? : ProviderException → Option ProviderResult
  | writeDisabled | exit => none
  | rateLimited => some
      { outcome := PyStr.ofString Outcome.rateLimited.text,
        detail := some (PyStr.ofString "rate_limited") }
  | conflict => some
      { outcome := PyStr.ofString Outcome.conflict.text,
        detail := some (PyStr.ofString "conflict") }
  | credentialError => some
      { outcome := PyStr.ofString Outcome.credentialError.text,
        detail := some (PyStr.ofString "credential_error") }
  | validationError => some
      { outcome := PyStr.ofString Outcome.validationFailed.text,
        detail := some (PyStr.ofString "validation_failed") }
  | unavailable => some
      { outcome := PyStr.ofString Outcome.unavailable.text,
        detail := some (PyStr.ofString "unavailable") }
  | exception typeName => some
      { outcome := PyStr.ofString Outcome.unavailable.text,
        detail := some (PyStr.ofString typeName) }

def Answer.result? : Answer → Option ProviderResult
  | .result r => some r
  | .other => none
  | .raised e => e.result?

/-- The outcome of an answer, if it is an allowed one. -/
def Answer.outcome? (a : Answer) : Option Outcome :=
  a.result?.bind fun r => Outcome.ofText? r.outcome

/-- An outcome after which nothing is tried again. -/
def Outcome.isFinal : Outcome → Bool
  | success | conflict | validationFailed | credentialError => true
  | waiting | rateLimited | unavailable => false

/-! ### Texts -/

/-- `_CONTROL_CHARS_RE`. -/
def isControl (c : PyChar) : Bool :=
  let n := PyStr.code c
  n ≤ 0x8 || n = 0xB || n = 0xC || (0xE ≤ n && n ≤ 0x1F) || n = 0x7F

def sanitizeProviderDetail (d : Driver) : Option PyStr → PyStr
  | none => []
  | some s => (d.redact (s.filter fun c => !isControl c)).take 512

/-- `MAX_PROVIDER_STATE_JSON_BYTES` and `_bounded_json`: a state that is not too long. -/
def fits (state : Json) : Bool := state.dumps.length ≤ 64 * 1024

/-! ### Settling -/

/-- `_finalize`, up to the transition: nothing if it raises. -/
def finalize (d : Driver) (dst : RequestState) (failureClass : Option String)
    (errorCode : Option PyStr) (objectId : Option PyStr) (state : Option Json) :
    Option (RequestState × Columns) :=
  if state.all fits then
    some (dst, {
      lastFailureClass := some failureClass
      lastErrorCode := some (some ((sanitizeProviderDetail d errorCode).take 64))
      providerObjectId := objectId.map (·.take 256)
      providerState := state.map Json.sorted
      holder := some none })
  else none

def maxRetryAttempts : ℕ := 8

def nextCheckDelaySeconds (attempt : ℕ) : ℕ := [1, 2, 5, 10, 30].getD (min (attempt - 1) 4) 30 * 60

/-- `_bounded_wait`, up to the transition. -/
def boundedWait (d : Driver) (now : Time) (h : Holder) (attemptCount : ℕ)
    (failureClass : Option String) (detail : Option PyStr) : Option (RequestState × Columns) :=
  let attempt := attemptCount + 1
  if maxRetryAttempts < attempt then
    finalize d .failed (some (failureClass.getD "UNKNOWN"))
      (some (if detail.getD [] = [] then PyStr.ofString "RETRY_EXHAUSTED" else detail.getD []))
      none none
  else
    some (.waitingExternal, {
      attemptCount := some attempt
      nextAttemptAt := some (now + nextCheckDelaySeconds attempt * 1000000)
      lastFailureClass := failureClass.map some
      lastErrorCode := detail.map fun s => some ((sanitizeProviderDetail d (some s)).take 64)
      holder := some (some h) })

def fixedCode (s : String) : Option PyStr := some (PyStr.ofString s)

/-- `_settle` of a result, up to the transition. -/
def settleResult (d : Driver) (now : Time) (h : Holder) (attemptCount : ℕ) (r : ProviderResult) :
    Option (RequestState × Columns) :=
  match Outcome.ofText? r.outcome with
  | none => finalize d .failed (some "LOCAL_CODE_ERROR") (fixedCode "BAD_OUTCOME") none none
  | some .success => finalize d .succeeded none none r.objectId r.state
  | some .waiting => boundedWait d now h attemptCount none none
  | some .rateLimited => boundedWait d now h attemptCount (some "RATE_LIMIT") r.detail
  | some .unavailable => boundedWait d now h attemptCount (some "PROVIDER_UNAVAILABLE") r.detail
  | some .conflict => finalize d .failed (some "CONFLICT") r.detail none none
  | some .validationFailed => finalize d .failed (some "REMOTE_VALIDATION") r.detail none none
  | some .credentialError => finalize d .failed (some "CREDENTIAL") r.detail none none

/-- A write the adapter or the broker refuses. -/
def finalizeWriteDisabled (d : Driver) : Option (RequestState × Columns) :=
  finalize d .failed (some "POLICY_DENIED") (fixedCode "PROVIDER_WRITE_DISABLED") none none

/-- What `_drive` makes of the end of an operation, up to the transition. -/
def settle (d : Driver) (now : Time) (h : Holder) (attemptCount : ℕ) :
    Answer → Option (RequestState × Columns)
  | .result r => settleResult d now h attemptCount r
  | .other =>
    finalize d .failed (some "LOCAL_CODE_ERROR") (fixedCode "BAD_PROVIDER_RESULT") none none
  | .raised .writeDisabled => finalizeWriteDisabled d
  | .raised e => e.result?.bind (settleResult d now h attemptCount)

/-! ### Observations -/

structure ProviderObservation where
  found : Bool
  objectId : Option PyStr := none
  state : Option Json := none
  deriving DecidableEq

/-- How `observe` of the adapter ends. -/
inductive Observed
  | observation (o : ProviderObservation)
  | nothing
  /-- What is no `Exception`. -/
  | exit

/-- What `_reconcile_locked` goes by, if it is not left by an exit. -/
def Observed.observation? : Observed → Option ProviderObservation
  | observation o => some o
  | nothing => some { found := false }
  | exit => none

/-- The columns of a request that was found: nothing if writing the state raises. -/
def found (o : ProviderObservation) : Option Columns :=
  if o.state.all fits then
    some {
      providerObjectId := some ((o.objectId.getD []).take 256)
      providerState := o.state.map Json.sorted
      holder := some none }
  else none

/-! ### What can be written down -/

/-- A text has an encoding, as far as it is kept. -/
def keeps (n : ℕ) (s : PyStr) : Bool := (PyStr.encode? (s.take n)).isSome

/-- An answer that can be written down: it is no exit; the state and the identifier of a
success are short enough and have an encoding, and so has the detail of a failure, as far as it
is kept. -/
def Answer.recordable (d : Driver) : Answer → Bool
  | .raised .exit => false
  | .other | .raised _ => true
  | .result r =>
    match Outcome.ofText? r.outcome with
    | none | some .waiting => true
    | some .success => r.state.all fits && r.objectId.all (keeps 256)
    | some .rateLimited | some .unavailable | some .conflict | some .validationFailed
    | some .credentialError => keeps 64 (sanitizeProviderDetail d r.detail)

/-- An observation that can be written down. -/
def ProviderObservation.recordable (o : ProviderObservation) : Bool :=
  o.state.all fits && keeps 256 (o.objectId.getD [])

/-! ### Where settling leads -/

section

variable {d : Driver} {now : Time} {h : Holder} {attemptCount : ℕ} {dst dst' : RequestState}
  {failureClass : Option String} {errorCode detail objectId : Option PyStr} {state : Option Json}
  {cols : Columns} {a : Answer}

theorem finalize_eq_some
    (heq : finalize d dst failureClass errorCode objectId state = some (dst', cols)) :
    dst' = dst ∧ cols.attemptCount = none := by
  unfold finalize at heq
  split at heq
  · cases heq
    exact ⟨rfl, rfl⟩
  · cases heq

theorem attemptCount_of_found {o : ProviderObservation} (heq : found o = some cols) :
    cols.attemptCount = none := by
  unfold found at heq
  split at heq
  · cases heq
    rfl
  · cases heq

theorem boundedWait_eq_some
    (heq : boundedWait d now h attemptCount failureClass detail = some (dst, cols)) :
    dst = .failed ∧ cols.attemptCount = none ∨
      dst = .waitingExternal ∧ cols.attemptCount = some (attemptCount + 1) ∧
        attemptCount + 1 ≤ maxRetryAttempts := by
  unfold boundedWait at heq
  dsimp only at heq
  split at heq
  · exact .inl (finalize_eq_some heq)
  next hlast =>
    cases heq
    exact .inr ⟨rfl, rfl, Nat.le_of_not_lt hlast⟩

/-- A result settles its request for good, unless it is one to be tried again and there are
attempts left. -/
theorem settleResult_eq_some {r : ProviderResult}
    (heq : settleResult d now h attemptCount r = some (dst, cols)) :
    dst.isTerminal ∧ cols.attemptCount = none ∨
      dst = .waitingExternal ∧ cols.attemptCount = some (attemptCount + 1) ∧
        attemptCount + 1 ≤ maxRetryAttempts ∧
          ∃ o, Outcome.ofText? r.outcome = some o ∧ o.isFinal = false := by
  have hfinal : ∀ {dst' fc code oid st}, dst'.isTerminal = true →
      finalize d dst' fc code oid st = some (dst, cols) →
        dst.isTerminal = true ∧ cols.attemptCount = none := by
    intro dst' fc code oid st hterminal hfin
    obtain ⟨rfl, hnone⟩ := finalize_eq_some hfin
    exact ⟨hterminal, hnone⟩
  have hwait : ∀ {fc det o}, Outcome.ofText? r.outcome = some o → o.isFinal = false →
      boundedWait d now h attemptCount fc det = some (dst, cols) →
        dst.isTerminal = true ∧ cols.attemptCount = none ∨
          dst = .waitingExternal ∧ cols.attemptCount = some (attemptCount + 1) ∧
            attemptCount + 1 ≤ maxRetryAttempts ∧
              ∃ o, Outcome.ofText? r.outcome = some o ∧ o.isFinal = false := by
    intro fc det o ho hretry hbounded
    rcases boundedWait_eq_some hbounded with ⟨rfl, hnone⟩ | ⟨rfl, hattempt, hlast⟩
    · exact .inl ⟨rfl, hnone⟩
    · exact .inr ⟨rfl, hattempt, hlast, o, ho, hretry⟩
  unfold settleResult at heq
  split at heq
  · exact .inl (hfinal rfl heq)
  · exact .inl (hfinal rfl heq)
  next ho => exact hwait ho rfl heq
  next ho => exact hwait ho rfl heq
  next ho => exact hwait ho rfl heq
  all_goals exact .inl (hfinal rfl heq)

/-- **An answer settles its request for good**, unless it is one to be tried again and there
are attempts left. -/
theorem settle_eq_some (heq : settle d now h attemptCount a = some (dst, cols)) :
    dst.isTerminal ∧ cols.attemptCount = none ∨
      dst = .waitingExternal ∧ cols.attemptCount = some (attemptCount + 1) ∧
        attemptCount + 1 ≤ maxRetryAttempts ∧
          ∃ o, a.outcome? = some o ∧ o.isFinal = false := by
  unfold settle at heq
  split at heq
  · exact settleResult_eq_some heq
  · obtain ⟨rfl, hnone⟩ := finalize_eq_some heq
    exact .inl ⟨rfl, hnone⟩
  · obtain ⟨rfl, hnone⟩ := finalize_eq_some heq
    exact .inl ⟨rfl, hnone⟩
  next e hne =>
    obtain ⟨r, hr, hsettle⟩ := Option.bind_eq_some_iff.mp heq
    rcases settleResult_eq_some hsettle with hend | ⟨hdst, hattempt, hlast, o, ho, hretry⟩
    · exact .inl hend
    · refine .inr ⟨hdst, hattempt, hlast, o, ?_, hretry⟩
      rw [Answer.outcome?, Answer.result?, hr]
      exact ho

end

end Broker

end ArgentTeam
