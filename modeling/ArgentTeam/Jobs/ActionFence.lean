import ArgentTeam.Jobs.Lease
import ArgentTeam.Lib.Interleave
import ArgentTeam.Supervisor.Backoff

/-!
# The fence around an action

While a handler acts on a decision, the store is armed with the token of the decision: owner,
epoch and version of the facts. `_transaction` checks the token against the row right after
`BEGIN IMMEDIATE`, so that nothing comes between the check and what the transaction writes. But
a handler may also write outside a transaction, and there nothing is checked.

Each handler is here the order in which it asks and writes (`handler`), while other instances
call the store and time goes by between any two of its steps. `effects_fenced_iff` says that
everything it writes is written under the fence exactly if the fence stands whenever the
handler comes to one of the four writes outside a transaction. The handlers that make none of
the four are safe however they are interleaved (`transactional_effects_fenced`).
-/

namespace ArgentTeam

namespace Jobs

open Supervisor Interleave

/-- What a handler asks on its way. -/
inductive Question
  /-- The decision is `NONE` or `WAIT`, or the job does not exist. -/
  | nothingToDo
  | leaseLost
  /-- The facts have another version than those of the decision. -/
  | staleDecision
  /-- `_recheck_lease_fence` raises. -/
  | recheckRaises
  /-- What the handler is about is missing, or the observation contradicts it. -/
  | skipped
  /-- The row of the journal has succeeded already. -/
  | alreadySucceeded
  | exhausted
  /-- The row was left running, and what it was for has happened. -/
  | reconciled
  | running
  /-- A command of the core, a builder or a check of the input raises. -/
  | raises
  /-- The routing decision is terminal or not of this job. -/
  | unroutable
  | noValidFallback
  /-- The resource governor does not admit the run, or there is no enforcer. -/
  | notAdmitted
  /-- No process was started in a verified scope. -/
  | enforcementFailed
  | registers
  | openRegistration
  | injectedTests
  | consumed
  /-- There is a structured handoff to persist. -/
  | handsOff
  /-- There is a checkpoint store, and a record to put there. -/
  | checkpoints
  /-- There is an intent already that a write was committed to. -/
  | committedIntent
  | refusedResult
  | emptyPatchSet
  | noWorkspaceRoot
  /-- Another result holds the intent of the dispatch. -/
  | intentConflict
  /-- The row of the intent that has won is gone. -/
  | winnerMissing
  | diverged
  /-- The intent has nothing to apply. -/
  | noop
  | lockUnavailable
  /-- The workspace is as after the patches, or as neither before nor after. -/
  | applied
  | patchSetMissing
  | identityMismatch
  | writerBound
  /-- The writer guard cannot be installed. -/
  | guardFails
  /-- The broker reports errors, or leaves something else than was predicted. -/
  | brokerFails

inductive CoreCommand
  | startRole | createDispatch | bindSpawnResult | recordTestRun | receiveAgentResult
  | markAgentFailed | recover
  deriving DecidableEq

inductive Write
  | beginAction
  | beginApplyAction
  | finishAction
  | core (command : CoreCommand)
  | persistContextPack
  | insertProcessRegistration
  /-- `mark_process_terminal_with_evidence`. -/
  | markProcessTerminal
  | setDispatchAttemptOutcome
  | insertHandoffV2
  | createCheckpoint
  | bindWriterWorktree
  /-- The update of `current_head`. -/
  | updateCurrentHead
  | applyJobBackoff (errorCode : String)
  | providerUnavailableBackoff
  /-- The update by which the owner has been prompted. -/
  | promptOwner (gateId : Option String)
  | closeJob (terminal : Terminal)
  /-- The update of `_perform_persistent_error`. -/
  | persistentError (reason : String)
  deriving DecidableEq

/-- The writes that are inside a `_transaction`. The other four are statements of their own. -/
def Write.inTransaction : Write → Bool
  | .insertProcessRegistration | .markProcessTerminal | .setDispatchAttemptOutcome
  | .insertHandoffV2 => false
  | _ => true

/-! ### The handlers -/

/-- What a handler does, in its order. -/
abbrev Handler := Code Question Write

namespace Handler

/-- `_finish_action` at the end: if it is refused, the handler raises. -/
def finish : Handler := .write .finishAction .done .done

/-- `_finish_action` inside a `try` whose `except` calls it again. -/
def finishGuarded : Handler := .write .finishAction .done finish

/-- `_begin_action`, up to a row that is running. -/
def begin (w : Write) (next : Handler) : Handler :=
  .write w (.ask .alreadySucceeded .done (.ask .exhausted .done next)) .done

/-- A command of the core and the end of the action. That the fence refuses the command is an
`ArgentError` too, and the handler goes on to `_finish_action`. -/
def command (c : CoreCommand) (next : Handler) : Handler :=
  .ask .raises finish (.write (.core c) next finish)

def journaled (c : CoreCommand) : Handler :=
  begin .beginAction (.ask .reconciled finish (command c finish))

def performStartRole : Handler := .ask .skipped .done (journaled .startRole)

def performCreateDispatch : Handler :=
  .ask .skipped .done <|
  .ask .noValidFallback (.write .providerUnavailableBackoff .done .done) <|
  .ask .unroutable (.write (.closeJob .blocked) .done .done) (journaled .createDispatch)

/-- `_register_process_evidence`: a registration that fails is passed over. -/
def registerProcessEvidence (next : Handler) : Handler :=
  .ask .registers (.write .insertProcessRegistration next next) next

def performSpawnRun : Handler :=
  .ask .skipped .done <|
  begin .beginAction <|
  .ask .running .done <|
  .ask .notAdmitted finishGuarded <|
  -- the context pack
  .ask .raises finish (.write .persistContextPack spawn finish)
where
  spawn : Handler :=
    .ask .raises finish <|
    .ask .recheckRaises finish <|
    .ask .enforcementFailed finishGuarded (registerProcessEvidence finish)

def performBindRun : Handler := .ask .skipped .done (journaled .bindSpawnResult)

def performMarkRunFailed : Handler := .ask .skipped .done (journaled .markAgentFailed)

def performCoreRecover : Handler := begin .beginAction (command .recover finish)

/-- `_run_sandbox_scoped` and what follows it. -/
def runSandboxScoped : Handler :=
  registerProcessEvidence <|
  .ask .openRegistration (.write .markProcessTerminal finish finish) finish

def performRunSandboxTests : Handler :=
  .ask .skipped .done <|
  begin .beginAction <|
  .ask .injectedTests finish <|
  .ask .notAdmitted finish <|
  -- the enforcer has left no process behind
  .ask .enforcementFailed finish runSandboxScoped

def performRecordTestResult : Handler :=
  .ask .skipped .done <|
  begin .beginAction <|
  .ask .reconciled finish <|
  command .recordTestRun (.write .setDispatchAttemptOutcome finish finish)

def performConsumeResult : Handler :=
  .ask .skipped .done <|
  .ask .refusedResult (begin .beginAction finish) <|
  begin .beginAction <|
  .ask .reconciled finish <|
  command .receiveAgentResult (.ask .consumed handOff finish)
where
  /-- `_persist_structured_handoff`, which raises nothing. -/
  handOff : Handler := .ask .handsOff (.write .insertHandoffV2 checkpoint checkpoint) checkpoint
  /-- `_create_checkpoint`, which raises nothing. -/
  checkpoint : Handler := .ask .checkpoints (.write .createCheckpoint finish finish) finish

def invokeBrokerLocked : Handler :=
  .ask .patchSetMissing finish <|
  .ask .identityMismatch (.write (.applyJobBackoff "workspace_identity_mismatch") .done .done) <|
  .ask .writerBound broker (.write .bindWriterWorktree broker .done)
where
  broker : Handler :=
    .ask .guardFails (.write (.applyJobBackoff "writer_guard_install_failed") .done .done) <|
    .ask .recheckRaises .done <|
    .ask .brokerFails finish (.write .updateCurrentHead finish .done)

def applyPatchSetFenced : Handler :=
  .ask .lockUnavailable (.write (.applyJobBackoff "apply_lock_unavailable") .done .done) <|
  -- the row is no longer running, or there is no workspace
  .ask .skipped .done <|
  .ask .applied finish invokeBrokerLocked

def reconcileExistingApply : Handler :=
  .ask .alreadySucceeded .done <|
  .ask .diverged .done <|
  .ask .noop finish <|
  .ask .noWorkspaceRoot .done applyPatchSetFenced

/-- `_begin_apply_action`, and `_apply_conflict_outcome` where another result holds the
intent. -/
def beginApply (next : Handler) : Handler :=
  .write .beginApplyAction
    (.ask .intentConflict (.ask .winnerMissing .done reconcileExistingApply) next) .done

def performApplyPatchSet : Handler :=
  .ask .skipped .done <|
  .ask .committedIntent reconcileExistingApply <|
  .ask .refusedResult (begin .beginAction finish) <|
  .ask .emptyPatchSet (beginApply (.ask .alreadySucceeded .done finish)) <|
  .ask .noWorkspaceRoot .done <|
  beginApply (.ask .alreadySucceeded .done (.ask .exhausted .done applyPatchSetFenced))

def performPresentOwnerGate (gateId : Option String) : Handler :=
  begin .beginAction <|
  .ask .reconciled finish (.write (.promptOwner gateId) finish .done)

/-- `_perform_close_done` and its like. -/
def performClose (terminal : Terminal) : Handler := .write (.closeJob terminal) .done .done

def performPersistentError (reason : String) : Handler :=
  .write (.persistentError reason) .done .done

end Handler

open Handler in
/-- The handler of a decision, and the gate it finds. -/
def handler (d : ReconcileDecision) (gateId : Option String) : Handler :=
  match d.action with
  | .none | .wait => .done
  | .startRole => performStartRole
  | .createDispatch => performCreateDispatch
  | .spawnRun => performSpawnRun
  | .bindRun => performBindRun
  | .applyPatchSet => performApplyPatchSet
  | .runSandboxTests => performRunSandboxTests
  | .recordTestResult => performRecordTestResult
  | .consumeResult => performConsumeResult
  | .markRunFailed => performMarkRunFailed
  | .coreRecover => performCoreRecover
  | .presentOwnerGate => performPresentOwnerGate gateId
  | .closeDone => performClose .done
  | .closeFailed => performClose .failed
  | .closeBlocked => performClose .blocked
  | .persistentError => performPersistentError d.reason

/-- `perform_next_safe_action_if_required`, as far as the handler goes. -/
def performNextSafeAction (d : ReconcileDecision) (gateId : Option String) : Handler :=
  .ask .nothingToDo .done <|
  .ask .leaseLost .done <|
  .ask .staleDecision .done (handler d gateId)

/-! ### What happens to the job meanwhile -/

/-- The row of the job, the clock, and what the handler itself has added to the version of the
facts. -/
structure World where
  job : JobRow
  now : Time
  own : ℕ
  deriving DecidableEq

/-- What the others do while a handler is at work. -/
inductive Other
  /-- Another instance calls a primitive of the store. -/
  | writes (op : Primitive) (journal : Journal)
  | waits (seconds : ℕ)

/-- One action of the others. -/
def act (w : World) : Other → World
  | .writes op journal => { w with job := step w.job ⟨w.now, journal, op⟩ }
  | .waits seconds => { w with now := later w.now seconds }

/-- The lease a decision was made under, where it was made under one. -/
def leaseOf (d : ReconcileDecision) : Option LeaseCas :=
  d.ownerInstanceId.map fun owner => ⟨owner, d.leaseEpoch⟩

/-- `_check_action_fence`: for a decision made under a lease, the lease is current and the facts
have not moved. -/
def checkActionFence (d : ReconcileDecision) (w : World) : Bool :=
  (leaseOf d).all fun cas => w.job.leaseIsCurrent cas w.now && w.job.factsVersion = d.factsVersion

def decides (d : ReconcileDecision) (w : World) : Question → Option Bool
  | .leaseLost => some (!(leaseOf d).all fun cas => w.job.leaseIsCurrent cas w.now)
  | .staleDecision => some (w.job.factsVersion ≠ d.factsVersion)
  | .recheckRaises => some (!w.job.leaseFence (leaseOf d) w.now)
  | _ => none

/-- What a write does to the row of the job; `none` if it raises. Most write other tables. -/
def Write.onJob (d : ReconcileDecision) (w : World) : Write → Option JobRow
  | .applyJobBackoff errorCode =>
    if w.job.leaseFence (leaseOf d) w.now then some (w.job.unavailable w.now errorCode) else none
  | .providerUnavailableBackoff =>
    if w.job.terminal ≠ none then some w.job
    else if w.job.leaseFence (leaseOf d) w.now then some (w.job.unroutable w.now)
    else none
  | .promptOwner gateId =>
    (Primitive.update
      { ownerPromptedAt := some (some w.now)
        ownerPromptedGateId := some gateId }).attempt w.now [] w.job
  | .closeJob terminal =>
    if w.job.terminal = some terminal then some w.job
    else
      (Primitive.update
        { terminal := some (some terminal)
          status := some .terminal
          nextAction := some .none
          nextWakeAt := some none
          factsVersion := some (w.job.factsVersion + 1) }).attempt w.now [] w.job
  | .persistentError reason =>
    (Primitive.update
      { status := some .error
        lastErrorCode := some (some reason)
        nextAction := some .none }).attempt w.now [] w.job
  | _ => some w.job

/-- A write of the handler: refused by the fence if it is inside a transaction, and otherwise
made. -/
def attempt (d : ReconcileDecision) (w : World) (x : Write) : Option World :=
  if x.inTransaction && !checkActionFence d w then none
  else (x.onJob d w).map fun j =>
    { w with job := j, own := w.own + (j.factsVersion - w.job.factsVersion) }

def among (d : ReconcileDecision) : System World Other Question Write where
  act := act
  decides := decides d
  attempt := attempt d

/-- What the handler of a decision writes, each with what it finds: the answers to its questions
and what the others do come turn by turn. -/
def effects (d : ReconcileDecision) (gateId : Option String) (turns : List (Interleave.Turn Other))
    (w : World) : List (World × Write) :=
  commits (among d) (performNextSafeAction d gateId) turns w

/-- The row names the owner and the epoch of the decision, under a lease that has not expired,
and the version of the facts is the one of the decision, but for what the handler has added. -/
def UnderFence (d : ReconcileDecision) (w : World) : Prop :=
  w.job.ownerInstanceId = d.ownerInstanceId ∧ w.job.leaseEpoch = d.leaseEpoch ∧
    w.job.leaseHeld w.now = true ∧
    (w.job.factsVersion = d.factsVersion ∨ w.job.factsVersion = d.factsVersion + w.own)

instance (d : ReconcileDecision) (w : World) : Decidable (UnderFence d w) :=
  inferInstanceAs (Decidable (_ ∧ _ ∧ _ ∧ _))

/-- Whenever the handler comes to a write that is not inside a transaction, what the others have
left behind is still under the fence. -/
def Undisturbed (d : ReconcileDecision) (gateId : Option String)
    (turns : List (Interleave.Turn Other)) (w : World) : Prop :=
  Meets (among d) (fun w x => x.inTransaction = false → UnderFence d w)
    (performNextSafeAction d gateId) turns w

variable {d : ReconcileDecision} {gateId : Option String} {turns : List (Interleave.Turn Other)}
  {w w' : World} {x : Write} {owner : String}

theorem underFence_of_check (hd : d.ownerInstanceId = some owner)
    (h : checkActionFence d w) : UnderFence d w := by
  simp only [checkActionFence, leaseOf, hd, Option.map_some, Option.all_some, Bool.and_eq_true,
    decide_eq_true_eq, JobRow.leaseIsCurrent] at h
  obtain ⟨⟨⟨howner, hepoch⟩, hheld⟩, hfacts⟩ := h
  exact ⟨howner.trans hd.symm, hepoch, hheld, .inl hfacts⟩

theorem underFence_of_attempt (hd : d.ownerInstanceId = some owner) (hx : x.inTransaction)
    (h : attempt d w x = some w') : UnderFence d w := by
  refine underFence_of_check hd ?_
  rw [attempt, hx] at h
  cases hcheck : checkActionFence d w with
  | true => rfl
  | false => simp [hcheck] at h

theorem effects_iff_undisturbed (hd : d.ownerInstanceId = some owner) :
    (∀ e ∈ effects d gateId turns w, UnderFence d e.1) ↔ Undisturbed d gateId turns w :=
  @forall_commits_iff _ _ _ _ (among d) (fun w _ => UnderFence d w) _ _ _ _
    fun _ _ _ hx h => underFence_of_attempt hd hx h

/-- The handlers that write inside transactions only. -/
def transactional (a : ReconcileAction) : Bool :=
  a ∉ [.spawnRun, .runSandboxTests, .recordTestResult, .consumeResult]

theorem avoids_of_transactional (h : transactional d.action = true) :
    (performNextSafeAction d gateId).avoids (fun x => !x.inTransaction) = true := by
  rw [performNextSafeAction, handler]
  cases ha : d.action <;> first | rfl | (rw [ha] at h; exact absurd h (by decide))

theorem transactional_effects_fenced (hd : d.ownerInstanceId = some owner)
    (h : transactional d.action) :
    ∀ e ∈ effects d gateId turns w, UnderFence d e.1 := by
  refine (effects_iff_undisturbed hd).mpr (meets_iff.mpr fun e he hout => ?_)
  have hin := kind_eq_false_of_avoids (avoids_of_transactional h) e he
  rw [hout] at hin
  cases hin

/-! ### The other four -/

/-- A job under the lease of a decision, for a moment. -/
def heldFor (d : ReconcileDecision) : World where
  job := { createSupervisorJob "job" "task" with
    primaryState := .running
    ownerInstanceId := d.ownerInstanceId
    leaseEpoch := d.leaseEpoch
    leaseExpiresAt := some 1
    factsVersion := d.factsVersion }
  now := 0
  own := 0

/-- The answers that take a handler to its write outside a transaction. -/
def answersTo : ReconcileAction → List Bool
  | .spawnRun => List.replicate 14 false ++ [true]
  | .runSandboxTests => List.replicate 10 false ++ [true]
  | .consumeResult => List.replicate 11 false ++ [true, true]
  | _ => List.replicate 10 false

/-- The handler is left alone up to there, and then the lease runs out. -/
def expiresAt (a : ReconcileAction) : List (Interleave.Turn Other) :=
  (answersTo a).map (⟨[], ·⟩) ++ [⟨[.waits 1], false⟩]

/-- Each of the four can be caught by the end of its lease right before a write that nothing
checks. -/
theorem not_fenced_of_not_transactional (hd : d.ownerInstanceId = some owner)
    (h : transactional d.action = false) :
    ¬∀ e ∈ effects d none (expiresAt d.action) (heldFor d), UnderFence d e.1 := by
  obtain ⟨action, reason, dispatchId, factsVersion, ownerInstanceId, leaseEpoch⟩ := d
  obtain rfl : ownerInstanceId = some owner := hd
  have hfour : action ∈ [.spawnRun, .runSandboxTests, .recordTestResult, .consumeResult] := by
    simpa [transactional, or_iff_not_imp_left] using h
  simp only [List.mem_cons, List.not_mem_nil, or_false] at hfour
  -- the run of each is evaluated up to the write, under a clock that has passed the expiry
  rcases hfour with rfl | rfl | rfl | rfl <;>
    simp [effects, performNextSafeAction, handler, Handler.performSpawnRun,
      Handler.performRunSandboxTests, Handler.performRecordTestResult,
      Handler.performConsumeResult, Handler.performSpawnRun.spawn, Handler.begin,
      Handler.command, Handler.registerProcessEvidence, Handler.runSandboxScoped,
      Handler.performConsumeResult.handOff, expiresAt, answersTo, List.replicate, commits, among,
      decides, System.found, Runs.run, attempt, Write.inTransaction, checkActionFence, leaseOf,
      heldFor, JobRow.leaseIsCurrent, JobRow.leaseHeld, Write.onJob, act, UnderFence,
      JobRow.leaseFence, later]

/-- **What a handler writes is fenced while it stays inside transactions**: under a lease, all
that a handler writes is written under the fence exactly if the fence stands whenever it
registers a process, marks one as ended, sets the outcome of an attempt or persists a handoff;
and it is so however the handler is interleaved exactly if the handler does none of these. -/
theorem effects_fenced_iff (hd : d.ownerInstanceId = some owner) :
    (∀ gateId turns w, (∀ e ∈ effects d gateId turns w, UnderFence d e.1) ↔
      Undisturbed d gateId turns w) ∧
    ((∀ gateId turns w, ∀ e ∈ effects d gateId turns w, UnderFence d e.1) ↔
      transactional d.action = true) := by
  refine ⟨fun _ _ _ => effects_iff_undisturbed hd, fun h => ?_, fun h gateId turns w => ?_⟩
  · by_contra hnot
    exact not_fenced_of_not_transactional hd (Bool.eq_false_iff.mpr hnot) (h _ _ _)
  · exact transactional_effects_fenced hd h

/-! ### A takeover in the middle -/

/-- A job that was claimed for a minute. -/
def claimedForMinute : World where
  job := run (createSupervisorJob "job" "task") [(Primitive.queue (.claim "a" 60)).at 0]
  now := 0
  own := 0

/-- The decision to record the result of the tests of a dispatch, under that lease. -/
def recordsTest : ReconcileDecision where
  action := .recordTestResult
  reason := "record_test"
  dispatchId := some "dispatch"
  factsVersion := claimedForMinute.job.factsVersion
  ownerInstanceId := some "a"
  leaseEpoch := 1

/-- The lease runs out, and another instance takes the job over. -/
def leaseTaken : List Other :=
  [.waits 60, .writes (.queue (.takeover claimedForMinute.job "b" 60 false none)) []]

/-- The handler of `recordsTest`, up to the write after `record_test_run`. -/
def recordsAlone : List (Interleave.Turn Other) := List.replicate 10 ⟨[], false⟩

/-- If the job is taken over right after `record_test_run`, the handler still sets the outcome of
the attempt. -/
theorem record_after_takeover_not_fenced :
    ¬∀ e ∈ effects recordsTest none (recordsAlone ++ [⟨leaseTaken, false⟩]) claimedForMinute,
      UnderFence recordsTest e.1 := by
  intro h
  have hlast : (leaseTaken.foldl act claimedForMinute, Write.setDispatchAttemptOutcome) ∈
      effects recordsTest none (recordsAlone ++ [⟨leaseTaken, false⟩]) claimedForMinute := by
    decide
  exact absurd (h _ hlast) (by decide +kernel)

/-- Left alone, the handler writes everything under the fence. -/
theorem effects_fenced_alone :
    recordsTest.ownerInstanceId = some "a" ∧
    ∀ e ∈ effects recordsTest none (recordsAlone ++ [⟨[], false⟩, ⟨[], false⟩]) claimedForMinute,
      UnderFence recordsTest e.1 :=
  ⟨rfl, ((effects_fenced_iff rfl).1 _ _ _).mpr (meets_iff.mpr (by decide))⟩

end Jobs

end ArgentTeam
