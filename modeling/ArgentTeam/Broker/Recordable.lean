import ArgentTeam.Broker.Snapshots
import Mathlib.Algebra.BigOperators.Group.List.Lemmas

/-!
# Which answers settle a request

What `_settle` makes of an answer can be written down or not: the state of the provider may be too
long, and an identifier or a detail may have no encoding. Exactly the answers that can be written
down settle the request (`recorded_settle_iff`, `answers_settle`); the others leave it EXECUTING.
-/

namespace ArgentTeam

open MergeQueue (Holder jobHoldsCurrentLease)

namespace Broker

variable {d : Driver} {now : Time} {h : Holder} {n : ℕ} {dst dst' : RequestState}
  {failureClass : Option String} {errorCode detail objectId : Option PyStr} {state : Option Json}
  {cols : Columns} {a : Answer} {r : ProviderResult} {s : PyStr}

/-! ### Texts -/

/-- A text without lone surrogates. -/
def Scalar (s : PyStr) : Prop := ∀ c ∈ s, (PyStr.scalar? c).isSome = true

theorem scalar_ofString (t : String) : Scalar (PyStr.ofString t) := by
  intro c hc
  obtain ⟨c', -, rfl⟩ := List.mem_map.mp hc
  rfl

theorem keeps_of_scalar (h : Scalar s) (m : ℕ) : keeps m s :=
  PyStr.isSome_encode?_iff.mpr fun c hc => h c (List.mem_of_mem_take hc)

theorem scalar_sanitize (h : Scalar s) : Scalar (sanitizeProviderDetail d (some s)) := by
  intro c hc
  rcases d.mem_redact _ c (List.mem_of_mem_take hc) with hkept | hmark
  · exact h c (List.mem_filter.mp hkept).1
  · exact scalar_ofString _ c hmark

theorem keeps_fixedCode (t : String) : keeps 64 (sanitizeProviderDetail d (fixedCode t)) :=
  keeps_of_scalar (scalar_sanitize (scalar_ofString t)) 64

theorem keeps_none : keeps 64 (sanitizeProviderDetail d none) := rfl

/-! ### What is recorded -/

/-- What is asked for is a transition to this state, and can be written down. -/
def Recorded (x : Option (RequestState × Columns)) (dst : RequestState) : Prop :=
  ∃ cols, x = some (dst, cols) ∧ cols.bindable = true

@[simp]
theorem recorded_some : Recorded (some (dst, cols)) dst' ↔ cols.bindable ∧ dst' = dst := by
  constructor
  · rintro ⟨_, ⟨⟩, hbindable⟩
    exact ⟨hbindable, rfl⟩
  · rintro ⟨hbindable, rfl⟩
    exact ⟨cols, rfl, hbindable⟩

@[simp]
theorem not_recorded_none : ¬Recorded none dst := by
  rintro ⟨_, ⟨⟩, -⟩

theorem recorded_finalize : Recorded (finalize d dst failureClass errorCode objectId state) dst' ↔
    (state.all fits ∧ keeps 64 (sanitizeProviderDetail d errorCode) ∧
      objectId.all (keeps 256)) ∧ dst' = dst := by
  unfold finalize
  split
  next hfits =>
    rw [recorded_some, Columns.bindable, Bool.and_eq_true, Option.all_map]
    exact and_congr_left' (and_iff_right hfits).symm
  next hlong => exact iff_of_false not_recorded_none fun hrecorded => hlong hrecorded.1.1

theorem recorded_finalize_detail : Recorded (finalize d dst failureClass errorCode none none) dst' ↔
    keeps 64 (sanitizeProviderDetail d errorCode) ∧ dst' = dst := by
  rw [recorded_finalize]
  simp

theorem recorded_finalize_fixedCode {t : String} :
    Recorded (finalize d dst failureClass (fixedCode t) none none) dst' ↔ dst' = dst := by
  rw [recorded_finalize_detail]
  exact and_iff_right (keeps_fixedCode t)

theorem recorded_boundedWait : Recorded (boundedWait d now h n failureClass detail) dst ↔
    keeps 64 (sanitizeProviderDetail d detail) ∧
      dst = if n < maxRetryAttempts then .waitingExternal else .failed := by
  unfold boundedWait
  dsimp only
  split
  next hlast =>
    have hstate :
        (if n < maxRetryAttempts then RequestState.waitingExternal else .failed) = .failed :=
      if_neg (by omega)
    rw [hstate, recorded_finalize_detail]
    refine and_congr_left' ?_
    by_cases hempty : detail.getD [] = []
    · -- The fixed code takes the place of a detail that is missing or empty; both are kept.
      rw [if_pos hempty]
      refine iff_of_true (keeps_fixedCode "RETRY_EXHAUSTED") ?_
      cases detail with
      | none => exact keeps_none
      | some s =>
        rw [Option.getD_some] at hempty
        rw [hempty]
        exact keeps_of_scalar (scalar_sanitize fun c hc => absurd hc List.not_mem_nil) 64
    · rw [if_neg hempty]
      cases detail with
      | none => exact absurd rfl hempty
      | some s => exact Iff.rfl
  next hlast =>
    rw [if_pos (by omega), recorded_some, Columns.bindable]
    refine and_congr_left' ?_
    cases detail with
    | none => simp [keeps_none]
    | some s => simp [keeps]

def settledState (n : ℕ) : Option Outcome → RequestState
  | some .success => .succeeded
  | some .waiting | some .rateLimited | some .unavailable =>
    if n < maxRetryAttempts then .waitingExternal else .failed
  | some .conflict | some .validationFailed | some .credentialError | none => .failed

theorem recorded_settleResult : Recorded (settleResult d now h n r) dst ↔
    (Answer.result r).recordable d ∧ dst = settledState n (Outcome.ofText? r.outcome) := by
  unfold settleResult Answer.recordable
  dsimp only
  split
  next ho =>
    rw [ho, recorded_finalize_fixedCode]
    exact (and_iff_right rfl).symm
  next ho =>
    rw [ho, recorded_finalize, keeps_none]
    simp [settledState]
  next ho =>
    rw [ho, recorded_boundedWait, keeps_none]
    exact Iff.rfl
  all_goals
    next ho => first
      | rw [ho, recorded_boundedWait]
        exact Iff.rfl
      | rw [ho, recorded_finalize_detail]
        exact Iff.rfl

/-- **Exactly the answers that can be written down settle the request.** -/
theorem recorded_settle_iff : Recorded (settle d now h n a) dst ↔
    a.recordable d ∧ dst = settledState n a.outcome? := by
  have hraised : ∀ {e : ProviderException} {r}, e.result? = some r →
      (Answer.result r).recordable d = true →
      (Recorded (settle d now h n (.raised e)) dst ↔
        dst = settledState n (Answer.raised e).outcome?) := by
    intro e r hr hrecordable
    have hsettle : settle d now h n (.raised e) = settleResult d now h n r := by
      cases e <;> cases hr <;> rfl
    rw [hsettle, recorded_settleResult, Answer.outcome?, Answer.result?, hr]
    exact and_iff_right hrecordable
  cases a with
  | result r => exact recorded_settleResult
  | other => exact (recorded_finalize_fixedCode).trans (and_iff_right rfl).symm
  | raised e =>
    cases e with
    | writeDisabled => exact (recorded_finalize_fixedCode).trans (and_iff_right rfl).symm
    | exit => exact iff_of_false not_recorded_none fun hrecorded => (by cases hrecorded.1)
    | _ =>
      refine (hraised rfl ?_).trans (and_iff_right rfl).symm
      unfold Answer.recordable
      dsimp only
      rw [Outcome.ofText?_text]
      exact keeps_fixedCode _

theorem recorded_settle (h' : a.recordable d) :
    Recorded (settle d now h n a) (settledState n a.outcome?) :=
  (recorded_settle_iff).mpr ⟨h', rfl⟩

theorem found_eq_some_iff {o : ProviderObservation} :
    (∃ cols, found o = some cols ∧ cols.bindable) ↔ o.recordable := by
  unfold found ProviderObservation.recordable
  rw [Bool.and_eq_true]
  split
  next hfits =>
    refine Iff.trans ?_ (and_iff_right hfits).symm
    constructor
    · rintro ⟨_, ⟨⟩, hbindable⟩
      exact hbindable
    · exact fun hkeeps => ⟨_, rfl, hkeeps⟩
  next hlong =>
    refine iff_of_false ?_ fun hrecordable => hlong hrecordable.1
    rintro ⟨_, ⟨⟩, -⟩

/-! ### Transitions that nothing keeps from going through -/

variable (cols) in
/-- A fenced transition of a row that is as the caller says. -/
theorem transitionRowAuthoritative_eq {db : BrokerDb} {name id : String} {row : RequestRow}
    (hlease : jobHoldsCurrentLease db.toDb h) (hlock : db.locks name = some h)
    (hrow : db.requests id = some row) (hedge : dst ∈ row.state.targets) :
    transitionRowAuthoritative db name h id row.state dst row.revision cols =
      if cols.bindable = true then
        .ok { db with requests := Function.update db.requests id (some (movedRow dst cols row)) }
      else .error .unencodable := by
  rw [transitionRowAuthoritative, if_pos ⟨hlease, hlock⟩, transitionRow, hrow]
  dsimp only
  rw [if_neg (by simp), if_neg (by simpa using hedge)]
  cases cols.bindable <;> rfl

namespace Calls

variable {queue : MergeQueue.Db} {approvals : String → Option ApprovalRow} {as : List Act}
  {db : BrokerDb} {call : Call} {row : RequestRow} {o : ProviderObservation} {s : System} {c : ℕ}

/-- What `_finalize`, `_bounded_wait` and `_reconcile_locked` do not catch. -/
def escapes : Except Fault BrokerDb → Bool
  | .ok _ | .error .leaseFenced | .error .requestRevision => false
  | .error .notFound | .error .illegalTransition | .error .unencodable => true

def settleRaises (d : Driver) (db : BrokerDb) (call : Call) (row : RequestRow) (a : Answer)
    (h : Holder) : Bool :=
  match settlement d db.now h row (some a) with
  | none => true
  | some (dst, cols) => escapes (transitionRowAuthoritative db (lockName row) h
      call.requestId row.state dst row.revision cols)

/-- It raises when it is about to write down what was observed. -/
def recordRaises (db : BrokerDb) (call : Call) (row : RequestRow) (o : ProviderObservation)
    (h : Holder) : Bool :=
  match found o with
  | none => true
  | some cols => escapes (transitionRowAuthoritative db (lockName row) h
      call.requestId row.state .succeeded row.revision cols)

/-- A transition by the one who has the lease and the lock, of a row that is as the caller says,
does not raise only if it can be written down. -/
theorem bindable_of_escapes (hlease : jobHoldsCurrentLease db.toDb h)
    (hlock : db.locks (lockName row) = some h) (hrow : db.requests call.requestId = some row)
    (hnone : escapes (transitionRowAuthoritative db (lockName row) h call.requestId row.state dst
      row.revision cols) = false) : cols.bindable := by
  rw [transitionRowAuthoritative, if_pos ⟨hlease, hlock⟩, transitionRow, hrow] at hnone
  dsimp only at hnone
  rw [if_neg (by simp)] at hnone
  split at hnone
  · cases hnone
  · cases hbindable : cols.bindable with
    | true => rfl
    | false =>
      rw [if_pos hbindable] at hnone
      cases hnone

/-- A request as an answer should leave it. -/
structure Settled (r : RequestRow) (a : Answer) : Prop where
  succeeded : r.state = .succeeded ↔ a.outcome? = some .success
  closed : r.state = .succeeded ∨ r.state = .waitingExternal ∨ r.state = .failed ∨
    r.state = .blocked

theorem settled_settledState {o : Option Outcome} :
    (settledState n o = .succeeded ↔ o = some .success) ∧
      (settledState n o = .succeeded ∨ settledState n o = .waitingExternal ∨
        settledState n o = .failed) := by
  cases o with
  | none => simp [settledState]
  | some o => cases o <;> simp only [settledState] <;> (try split) <;> simp

theorem settling_next {answer : Answer} {seen : Observed} (hcall : s.calls c = some call)
    (hpoint : call.point = .settling row (some a)) (hop : call.op.holder? = some h) :
    (step d s (.next c answer seen)).requests =
      (settlingTurn d s.toBrokerDb call row (some a) h).db.requests := by
  simp only [step, hcall, hpoint, turn, hop, Option.elim_some]
  rfl

theorem recording_next {answer : Answer} {seen : Observed} (hcall : s.calls c = some call)
    (hpoint : call.point = .recording row o) (hop : call.op.holder? = some h) :
    (step d s (.next c answer seen)).requests =
      (recordingTurn s.toBrokerDb call row o h).db.requests := by
  simp only [step, hcall, hpoint, turn, hop, Option.elim_some]
  rfl

/-- **Settling**, by a call whose holder has the lease and the lock, of a request that is as the
call has opened it. -/
theorem settle_iff (hlease : jobHoldsCurrentLease db.toDb h)
    (hlock : db.locks (lockName row) = some h) (hrow : db.requests call.requestId = some row)
    (hopen : row.state = .executing) :
    (settleRaises d db call row a h = false ∧
      ∃ r, (settlingTurn d db call row (some a) h).db.requests call.requestId = some r ∧
        Settled r a) ↔ a.recordable d := by
  constructor
  · rintro ⟨hraises, -⟩
    unfold settleRaises at hraises
    cases hset : settlement d db.now h row (some a) with
    | none =>
      rw [hset] at hraises
      cases hraises
    | some x =>
      rw [hset] at hraises
      have hbindable := bindable_of_escapes hlease hlock hrow hraises
      exact ((recorded_settle_iff).mp ⟨x.2, hset, hbindable⟩).1
  · intro hrecordable
    have hrecorded : Recorded (settle d db.now h row.attemptCount a)
        (settledState row.attemptCount a.outcome?) := recorded_settle hrecordable
    obtain ⟨cols, hset, hbindable⟩ := hrecorded
    obtain ⟨hsucceeded, hclosed⟩ :=
      settled_settledState (n := row.attemptCount) (o := a.outcome?)
    generalize settledState row.attemptCount a.outcome? = dst at hset hsucceeded hclosed
    have hedge : dst ∈ row.state.targets := by
      rw [hopen]
      rcases hclosed with rfl | rfl | rfl <;> decide
    have hset' : settlement d db.now h row (some a) = some (dst, cols) := hset
    have hgoes := transitionRowAuthoritative_eq cols hlease hlock hrow hedge
    rw [if_pos hbindable] at hgoes
    refine ⟨?_, movedRow dst cols row, ?_, hsucceeded, ?_⟩
    · simp only [settleRaises, hset', hgoes, escapes]
    · simp only [settlingTurn, hset', hgoes]
      exact Function.update_self ..
    · rcases hclosed with hdst | hdst | hdst
      · exact .inl hdst
      · exact .inr (.inl hdst)
      · exact .inr (.inr (.inl hdst))

/-- **Writing down what was found**, under the lease and the lock, of a request that is as the call
has read it. -/
theorem record_iff (hlease : jobHoldsCurrentLease db.toDb h)
    (hlock : db.locks (lockName row) = some h) (hrow : db.requests call.requestId = some row)
    (hopen : row.state = .executing ∨ row.state = .waitingExternal) (hfound : o.found) :
    (recordRaises db call row o h = false ∧
      ∃ r, (recordingTurn db call row o h).db.requests call.requestId = some r ∧
        r.state = .succeeded) ↔ o.recordable := by
  constructor
  · rintro ⟨hraises, -⟩
    unfold recordRaises at hraises
    cases hset : found o with
    | none =>
      rw [hset] at hraises
      cases hraises
    | some cols =>
      rw [hset] at hraises
      exact (found_eq_some_iff).mp ⟨cols, hset, bindable_of_escapes hlease hlock hrow hraises⟩
  · intro hrecordable
    obtain ⟨cols, hset, hbindable⟩ := (found_eq_some_iff).mpr hrecordable
    have hedge : RequestState.succeeded ∈ row.state.targets := by
      rcases hopen with hstate | hstate <;> rw [hstate] <;> decide
    have hgoes := transitionRowAuthoritative_eq cols hlease hlock hrow hedge
    rw [if_pos hbindable] at hgoes
    refine ⟨?_, movedRow .succeeded cols row, ?_, rfl⟩
    · simp only [recordRaises, hset, hgoes, escapes]
    · simp only [recordingTurn, if_pos hfound, hset, hgoes]
      exact Function.update_self ..

/-! ### Runs -/

theorem allInformed_run : AllInformed (run d queue approvals as) :=
  Runs.run_always (fun _ act h => allInformed_step h act) (by rintro c call ⟨⟩)

/-- **Every answer that can be written down settles the request, and no other does.** In every
run, a call whose holder has the lease and the lock, and whose request is as the call has opened it,
does not raise when it settles an answer, and leaves the request SUCCEEDED exactly if the outcome
is success, and otherwise put off, FAILED or BLOCKED, if and only if the answer can be written
down; a request that has been moved meanwhile is left alone. The same for what a reconciliation has
found. -/
theorem answers_settle (d : Driver) (queue : MergeQueue.Db)
    (approvals : String → Option ApprovalRow) (as : List Act) (c : ℕ) (call : Call)
    (row : RequestRow) (h : Holder) (answer : Answer) (seen : Observed)
    (hcall : (run d queue approvals as).calls c = some call)
    (hlease : jobHoldsCurrentLease (run d queue approvals as).toDb h = true)
    (hlock : (run d queue approvals as).locks (lockName row) = some h) :
    let s := run d queue approvals as
    let s' := step d s (.next c answer seen)
    (∀ a, call.op.holder? = some h → call.point = .settling row (some a) →
        (s.requests call.requestId = some row →
          ((settleRaises d s.toBrokerDb call row a h = false ∧
            ∃ r, s'.requests call.requestId = some r ∧ Settled r a) ↔ a.recordable d = true)) ∧
        (s.requests call.requestId ≠ some row → s'.requests = s.requests)) ∧
      ∀ o, call.op = .reconcile h → call.point = .recording row o → o.found = true →
        (s.requests call.requestId = some row →
          ((recordRaises s.toBrokerDb call row o h = false ∧
            ∃ r, s'.requests call.requestId = some r ∧ r.state = .succeeded) ↔
              o.recordable = true)) ∧
        (s.requests call.requestId ≠ some row → s'.requests = s.requests) := by
  intro s s'
  have hinformed : Informed s.toBrokerDb call := allInformed_run c call hcall
  have hfits := hinformed.fits
  have hmoved : ∀ {row}, call.point.row? = some row → s.requests call.requestId ≠ some row →
      s'.requests = s.requests := by
    intro row hread hne
    have htaken : s' = s.take c call (turn d s.toBrokerDb c call answer seen call.point) := by
      simp only [s', step]
      rw [hcall]
    rw [htaken]
    rcases requests_turn d s.toBrokerDb c call answer seen call.point with heq | hgoes
    · exact heq
    · obtain ⟨row', dst, cols, fence, hrow', hasks, -⟩ := hgoes.exists_row hinformed
      obtain rfl : row' = row := Option.some.inj (hasks.row?_eq.symm.trans hread)
      exact absurd hrow' hne
  refine ⟨fun a hop hpoint => ⟨fun hrow => ?_, hmoved (by rw [hpoint]; rfl)⟩,
    fun o hop hpoint hfound => ⟨fun hrow => ?_, hmoved (by rw [hpoint]; rfl)⟩⟩
  · rw [settling_next hcall hpoint hop]
    rw [hpoint] at hfits
    exact settle_iff hlease hlock hrow hfits
  · have hholder : call.op.holder? = some h := by rw [hop]; rfl
    rw [recording_next hcall hpoint hholder]
    rw [hpoint, hop] at hfits
    refine record_iff hlease hlock hrow ?_ hfound
    have haccepts : (row.state = .executing || row.state = .waitingExternal) = true := hfits
    simpa using haccepts

/-! ### A request that is updated -/

theorem isSome_untilDispatch :
    ((run fixture twoJobs (fun _ => none) untilDispatch).requests updateId).isSome = true := by
  decide +kernel

/-- The row of the request while its execution is open. -/
def openRow : RequestRow :=
  ((run fixture twoJobs (fun _ => none) untilDispatch).requests updateId).get isSome_untilDispatch

/-- The call that executes it. -/
def updating (p : Point) : Call := ⟨.execute ("driver", 1), updateId, p⟩

/-- A success without a state. -/
def success : Answer := .result { outcome := PyStr.ofString "success" }

theorem run_untilDispatch : let s := run fixture twoJobs (fun _ => none) untilDispatch
    s.calls 1 = some (updating (.dispatching openRow)) ∧
      jobHoldsCurrentLease s.toDb ("driver", 1) = true ∧
      s.locks (lockName openRow) = some ("driver", 1) ∧ s.requests updateId = some openRow := by
  decide

theorem next_dispatching (d : Driver) (a : Answer) (seen : Observed) {op : Op} {id : String}
    (hcall : s.calls c = some ⟨op, id, .dispatching row⟩) :
    (step d s (.next c a seen)).toBrokerDb = s.toBrokerDb ∧
      (step d s (.next c a seen)).calls c = some ⟨op, id, .settling row (some a)⟩ := by
  simp only [step, hcall]
  exact ⟨rfl, System.calls_take_self⟩

/-- **A success is recorded.** -/
theorem answers_settle_success :
    let s := run fixture twoJobs (fun _ => none) (untilDispatch ++ [.next 1 success .nothing])
    let call := updating (.settling openRow (some success))
    settleRaises fixture s.toBrokerDb call openRow success ("driver", 1) = false ∧
      ∃ r, (step fixture s (.next 1 .other .nothing)).requests call.requestId = some r ∧
        Settled r success := by
  intro s call
  have hsettle := answers_settle fixture twoJobs (fun _ => none)
    (untilDispatch ++ [.next 1 success .nothing]) 1 call openRow ("driver", 1) .other .nothing
    (by decide) (by decide) (by decide)
  have hrow : s.requests call.requestId = some openRow := by decide
  exact ((hsettle.1 success rfl rfl).1 hrow).mpr (by decide)

/-- A text of many letters, as a state of the provider. -/
def letters (n : ℕ) : Json := .str (List.replicate n (.scalar 'a'))

theorem length_dumps_letters (n : ℕ) : (letters n).dumps.length = n + 2 := by
  have hchars : (List.replicate n (PyChar.scalar 'a')).flatMap PyStr.dumpsChar =
      List.replicate n 'a' := by
    induction n with
    | zero => rfl
    | succ n ih =>
      rw [List.replicate_succ, List.flatMap_cons, ih, List.replicate_succ]
      rfl
  rw [letters, Json.dumps, PyStr.dumps, hchars, List.length_append, List.length_cons,
    List.length_replicate]
  rfl

/-- A success whose state is a text of 65536 letters. -/
def longSuccess : Answer :=
  .result { outcome := PyStr.ofString "success", state := some (letters 65536) }

theorem recordable_longSuccess : longSuccess.recordable d = false := by
  have hlong : fits (letters 65536) = false := by
    rw [fits, length_dumps_letters]
    decide
  unfold longSuccess Answer.recordable
  dsimp only
  rw [show PyStr.ofString "success" = PyStr.ofString Outcome.success.text from rfl,
    Outcome.ofText?_text]
  dsimp only
  rw [Option.all_some, hlong]
  rfl

/-- **A success is not always recorded**: where the state of the provider is too long, the call
raises, and the request stays EXECUTING. -/
theorem long_success_not_recorded :
    ¬∀ (d : Driver) (queue : MergeQueue.Db) (approvals : String → Option ApprovalRow)
      (as : List Act) (c : ℕ) (call : Call) (row : RequestRow) (h : Holder) (a answer : Answer)
      (seen : Observed), let s := run d queue approvals as
      s.calls c = some call → call.point = .settling row (some a) → call.op.holder? = some h →
      jobHoldsCurrentLease s.toDb h = true → s.locks (lockName row) = some h →
      s.requests call.requestId = some row →
        settleRaises d s.toBrokerDb call row a h = false ∧
          ∃ r, (step d s (.next c answer seen)).requests call.requestId = some r ∧
            Settled r a := by
  intro hall
  have hnot : longSuccess.recordable fixture = false := recordable_longSuccess
  generalize longSuccess = a at hnot
  obtain ⟨hcall, hlease, hlock, hrow⟩ := run_untilDispatch
  obtain ⟨hdb, hcall'⟩ := next_dispatching fixture a .nothing hcall
  have hrun : run fixture twoJobs (fun _ => none) (untilDispatch ++ [.next 1 a .nothing]) =
      step fixture (run fixture twoJobs (fun _ => none) untilDispatch)
        (.next 1 a .nothing) := Runs.run_append
  have hopen : openRow.state = .executing := by decide
  rw [← hrun] at hdb hcall'
  generalize hs : run fixture twoJobs (fun _ => none)
    (untilDispatch ++ [.next 1 a .nothing]) = s at hdb hcall'
  have hlease' : jobHoldsCurrentLease s.toBrokerDb.toDb ("driver", 1) = true := by rw [hdb, hlease]
  have hlock' : s.toBrokerDb.locks (lockName openRow) = some ("driver", 1) := by rw [hdb, hlock]
  have hrow' : s.toBrokerDb.requests updateId = some openRow := by rw [hdb, hrow]
  have hsettled := hall fixture twoJobs (fun _ => none)
    (untilDispatch ++ [.next 1 a .nothing]) 1
    (updating (.settling openRow (some a))) openRow ("driver", 1) a .other
    .nothing
  rw [hs] at hsettled
  have hraises := hsettled hcall' rfl rfl hlease' hlock' hrow'
  rw [settling_next hcall' rfl rfl] at hraises
  have hrecordable : a.recordable fixture = true :=
    (settle_iff hlease' hlock' hrow' hopen).mp hraises
  rw [hnot] at hrecordable
  cases hrecordable

end Calls

end Broker

end ArgentTeam
