import ArgentTeam.Broker.Dispatches

/-!
# Failures of the GitHub command line

The adapter runs `gh` and classifies a failure of it: by the exit code, as if that were the HTTP
status of the answer, and by words in what it wrote to its standard error. But `gh` exits with 1
whenever the API answers with an error, and the status is in the text: so the words alone decide
what the broker makes of the answer.
-/

namespace ArgentTeam

namespace Broker

/-! ### The classification -/

/-- One of some words is in a text. -/
def mentions (low : PyStr) (words : List String) : Bool :=
  words.any fun w => PyStr.contains (PyStr.ofString w) low

def limitWords : List String := ["rate limit", "secondary rate limit"]

def conflictWords : List String := ["non-fast-forward", "fetch first", "rejected", "conflict"]

/-- `classify_gh_failure`. -/
def classifyGhFailure (returncode : Option ℤ) (stderr : PyStr) : ProviderException :=
  let low := PyStr.lower stderr
  match returncode with
  | none => .unavailable
  | some code =>
    if code = 429 || mentions low limitWords then .rateLimited
    else if code = 401 then .credentialError
    else if code = 403 then
      if mentions low ["protected branch", "required status", "policy"] then .validationError
      else .credentialError
    else if code = 409 || mentions low conflictWords then .conflict
    else if code = 400 || code = 422 then .validationError
    else if 500 ≤ code then .unavailable
    else .unavailable

/-- How a command ends that the adapter runs. -/
inductive Finished
  | exited (returncode : ℤ) (stderr : Option PyStr)
  /-- `FileNotFoundError`, `TimeoutExpired` or another `OSError`. -/
  | failed

/-- What `_exec` raises. A `ProviderNetworkError` is a `ProviderUnavailable`. -/
def exec : Finished → Option ProviderException
  | .exited returncode stderr =>
    if returncode = 0 then none else some (classifyGhFailure returncode (stderr.getD []))
  | .failed => some .unavailable

/-! ### Answers of the API -/

/-- What `gh` writes of an answer with an HTTP status. -/
def errorText (status : ℕ) (message : PyStr) : PyStr :=
  PyStr.ofString ("HTTP " ++ toString status ++ ": ") ++ message

/-- The end of `gh` at such an answer. -/
def apiError (status : ℕ) (message : PyStr) : Finished :=
  .exited 1 (some (errorText status message))

/-- The classes that are documented for a status. -/
def documented : ℕ → List ProviderException
  | 401 => [.credentialError]
  | 403 => [.credentialError, .validationError]
  | 409 => [.conflict]
  | 400 | 422 => [.validationError]
  | 429 => [.rateLimited]
  | _ => [.unavailable]

/-- The statuses of a request that is refused for good. -/
def refusals : List ℕ := [400, 401, 403, 409, 422]

/-- **Told apart by the answer**: the exception is of a class that is documented for the status; a
request that is refused for good fails, and is not dispatched again in any run; one that is not
fails only when it has been put off too often. -/
structure ToldApart (status : ℕ) (message : PyStr) : Prop where
  documented : ∃ e ∈ exec (apiError status message), e ∈ documented status
  refused : status ∈ refusals → ∀ e ∈ exec (apiError status message),
    (∀ d now h attemptCount, ∃ cols, settle d now h attemptCount (.raised e) =
      some (.failed, cols)) ∧
    ∀ d queue approvals as c id, .answered c id (.raised e) ∈
        (Calls.run d queue approvals as).log → ∀ bs,
      Calls.dispatches id (Calls.run d queue approvals (as ++ bs)).log =
        Calls.dispatches id (Calls.run d queue approvals as).log
  deferred : status ∉ refusals → ∀ e ∈ exec (apiError status message),
    ∀ d now h attemptCount cols, settle d now h attemptCount (.raised e) =
      some (.failed, cols) → maxRetryAttempts ≤ attemptCount

/-- The words of the text fit the status: those of a rate limit are there for a 429, those of a
conflict and of no limit for a 409, and none of them for a status that is classed as an outage. -/
def Worded (status : ℕ) (message : PyStr) : Prop :=
  let low := PyStr.lower (errorText status message)
  (status = 429 ∧ mentions low limitWords = true) ∨
    (status = 409 ∧ mentions low limitWords = false ∧ mentions low conflictWords = true) ∨
    (status ∉ [400, 401, 403, 409, 422, 429] ∧ mentions low limitWords = false ∧
      mentions low conflictWords = false)

section

variable {status : ℕ} {message : PyStr} {e : ProviderException}

/-- **The words decide**: the status is not read. -/
theorem exec_apiError : exec (apiError status message) = some
    (if mentions (PyStr.lower (errorText status message)) limitWords then .rateLimited
    else if mentions (PyStr.lower (errorText status message)) conflictWords then .conflict
    else .unavailable) := by
  simp [exec, apiError, classifyGhFailure]

/-- The exception is of a class that is documented, exactly where the words fit. -/
theorem documented_iff :
    (∃ e ∈ exec (apiError status message), e ∈ documented status) ↔ Worded status message := by
  have hclasses : ∀ e : ProviderException, e ∈ documented status ↔
      (status = 401 ∧ e = .credentialError) ∨
      (status = 403 ∧ (e = .credentialError ∨ e = .validationError)) ∨
      (status = 409 ∧ e = .conflict) ∨ ((status = 400 ∨ status = 422) ∧ e = .validationError) ∨
      (status = 429 ∧ e = .rateLimited) ∨
      (status ∉ [400, 401, 403, 409, 422, 429] ∧ e = .unavailable) := by
    intro e
    unfold documented
    split <;> simp_all
  simp only [exec_apiError, Option.mem_def, Option.some.injEq, exists_eq_left', hclasses, Worded]
  generalize mentions (PyStr.lower (errorText status message)) limitWords = limited
  generalize mentions (PyStr.lower (errorText status message)) conflictWords = conflicting
  cases limited <;> cases conflicting <;> simp

/-- What is raised for a refusal is settled for good. -/
theorem settle_of_final (he : e ∈ [ProviderException.credentialError, .validationError, .conflict])
    (d : Driver) (now : Time) (h : MergeQueue.Holder) (attemptCount : ℕ) :
    (∃ cols, settle d now h attemptCount (.raised e) = some (.failed, cols)) ∧
      Calls.isFinal (.raised e) := by
  simp only [List.mem_cons, List.not_mem_nil, or_false] at he
  rcases he with rfl | rfl | rfl <;>
    simp [settle, ProviderException.result?, settleResult, finalize, Calls.isFinal,
      Answer.outcome?, Answer.result?, Outcome.isFinal]

/-- What is raised for any other answer fails only where the attempts are used up. -/
theorem attempts_of_deferred (he : e ∈ [ProviderException.rateLimited, .unavailable]) {d : Driver}
    {now : Time} {h : MergeQueue.Holder} {attemptCount : ℕ} {cols : Columns}
    (hfailed : settle d now h attemptCount (.raised e) = some (.failed, cols)) :
    maxRetryAttempts ≤ attemptCount := by
  by_contra hlt
  have hleft : ¬maxRetryAttempts < attemptCount + 1 := by omega
  simp only [List.mem_cons, List.not_mem_nil, or_false] at he
  rcases he with rfl | rfl <;>
    simp [settle, ProviderException.result?, settleResult, boundedWait, hleft] at hfailed

/-- **An answer is told apart from the others exactly where the words of its text fit its status.**
A refusal is never told apart, but for a conflict. -/
theorem toldApart_iff (status : ℕ) (message : PyStr) :
    ToldApart status message ↔ Worded status message := by
  refine ⟨fun h => (documented_iff).mp h.documented, fun hworded => ?_⟩
  obtain ⟨e, he, hdocumented⟩ := (documented_iff).mpr hworded
  have honly : ∀ e' ∈ exec (apiError status message), e' = e := fun e' he' =>
    Option.mem_unique he' he
  have hrefusals : status ∈ refusals →
      documented status ⊆ [.credentialError, .validationError, .conflict] := by
    intro hrefused
    simp only [refusals, List.mem_cons, List.not_mem_nil, or_false] at hrefused
    rcases hrefused with rfl | rfl | rfl | rfl | rfl <;> simp [documented]
  have hothers : status ∉ refusals → documented status ⊆ [.rateLimited, .unavailable] := by
    intro hdeferred
    unfold documented
    split <;> simp_all [refusals]
  refine ⟨⟨e, he, hdocumented⟩, fun hrefused e' he' => ?_, fun hdeferred e' he' => ?_⟩
  · rw [honly e' he']
    have hfinal := settle_of_final (hrefusals hrefused hdocumented)
    refine ⟨fun d now h n => (hfinal d now h n).1, ?_⟩
    intro d queue approvals as c id hanswered bs
    refine Calls.dispatches_run_append (List.any_eq_true.mpr ⟨_, hanswered, ?_⟩)
    simp [Calls.isFinalAnswer, (hfinal d 0 default 0).2]
  · rw [honly e' he']
    intro d now h n cols
    exact attempts_of_deferred (hothers hdeferred hdocumented)

/-- **A refusal may be taken for an outage**: a validation error, which is dispatched again. -/
theorem refusal_deferred : ¬∀ status message, ToldApart status message := by
  intro h
  obtain ⟨e, he, hdocumented⟩ := (h 422 (PyStr.ofString "Validation Failed")).documented
  rw [exec_apiError, Option.mem_def, Option.some.injEq] at he
  split_ifs at he <;> subst he <;> simp [documented] at hdocumented

end

end Broker

end ArgentTeam
