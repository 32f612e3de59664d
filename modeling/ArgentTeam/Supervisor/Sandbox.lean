import ArgentTeam.Supervisor.Pipeline

/-!
# The verdict of the sandbox

The sandbox runs the tests of a workspace inside an enforced scope. What the enforcer says
of the run goes three ways: the exit code is returned, the evidence of the termination is
written to the registration of the process, and the registration is read again to tell a
resource failure from a failure of the code.

The registration is read by the dispatch, not by the process: the newest one of the
dispatch is taken to be that of the sandbox. It is so exactly if the scope carried a
process id and the registry took the row. The backend that runs the command reports no
process id (`runInScope`), so that it is the agent's evidence that is classified as soon
as the agent of the dispatch is registered. And a red run leaves a row that has failed,
which the decision table answers with another run, never with a record
(`Supervisor.sandbox_verdict_iff`).
-/

namespace ArgentTeam

namespace Supervisor

/-! ### Classes of terminations -/

/-- How a process ended, or why it never ran. -/
inductive TerminationClass
  | normalExit | nonzeroExit | timeout | oomKill | memoryLimit | scopeCreationFailed
  | scopeVerificationFailed | enforcementUnavailable | scopeCleanupUnverified
  | unknownTermination
  deriving DecidableEq

inductive FailureClass
  | normalExit | codeOrProcessFailure | resourceOom | resourceMemoryLimit | resourceTimeout
  | resourceEnforcementFailure | resourceCapacityFailure | scopeCleanupUnverified
  | unknownTermination

/-- A counter of `memory.events`, if it is an integer. -/
def counter (events : Json) (key : String) : ℤ :=
  match events with
  | .obj fields => match Json.get? fields key with
    | some (.int n) => n
    | _ => 0
  | _ => 0

def delta (events : Option Json) (key : String) : ℤ :=
  match events with
  | some events => max 0 (counter events key)
  | none => 0

def memoryEventsDelta (baseline current : Json) : Json :=
  .dict (["oom_kill", "oom_group_kill", "max", "high"].map fun key =>
    (key, .int (max 0 (counter current key - counter baseline key))))

/-- `classify_termination`; no caller here gives it an enforcement status. -/
def classifyTermination (exitCode : Option ℤ) (scopeEvents : Option Json) (timedOut : Bool) :
    TerminationClass :=
  if timedOut then .timeout
  else if 0 < delta scopeEvents "oom_kill" ∨ 0 < delta scopeEvents "oom_group_kill" then .oomKill
  else if 0 < delta scopeEvents "max" ∨ 0 < delta scopeEvents "high" then .memoryLimit
  else match exitCode with
    | some 0 => .normalExit
    | some _ => .nonzeroExit
    | none => .unknownTermination

def failureClassFromTermination : TerminationClass → FailureClass
  | .normalExit => .normalExit
  | .nonzeroExit => .codeOrProcessFailure
  | .timeout => .resourceTimeout
  | .oomKill => .resourceOom
  | .memoryLimit => .resourceMemoryLimit
  | .scopeCreationFailed | .scopeVerificationFailed | .enforcementUnavailable =>
    .resourceEnforcementFailure
  | .scopeCleanupUnverified => .scopeCleanupUnverified
  | .unknownTermination => .unknownTermination

def classifyFailure (terminationClass : Option TerminationClass) (exitCode : Option ℤ)
    (timedOut : Bool) (scopeEvents : Option Json) : FailureClass :=
  failureClassFromTermination
    (terminationClass.getD (classifyTermination exitCode scopeEvents timedOut))

def isResourceFailure : FailureClass → Bool
  | .normalExit | .codeOrProcessFailure => false
  | _ => true

/-! ### The registry of processes -/

inductive ProcessStatus
  | running | terminal | unknown
  deriving DecidableEq

structure ProcessRegistration where
  processId : String
  jobId : String
  dispatchId : Option String
  pid : ℕ
  terminationClass : Option TerminationClass
  timedOut : Bool
  /-- Its `memory.events`, if they can be read. -/
  scopeEvents : Option Json
  status : ProcessStatus
  exitCode : Option ℤ
  terminalAt : Option Time

/-- The registrations, in the order of insertion. -/
abbrev Registry := List ProcessRegistration

namespace Registry

/-- `get_process_registration_for_dispatch`: the newest one. -/
def newest (rs : Registry) (dispatchId : String) : Option ProcessRegistration :=
  rs.reverse.find? fun r => r.dispatchId = some dispatchId

/-- `mark_process_terminal_with_evidence`: the first terminal evidence stays. -/
def markTerminal (rs : Registry) (processId : String) (exitCode : Option ℤ)
    (terminationClass : Option TerminationClass) (timedOut : Bool) (scopeEvents : Option Json)
    (now : Time) : Registry :=
  rs.map fun r => if r.processId = processId ∧ r.status ≠ .terminal then
    { r with
      status := .terminal
      exitCode := exitCode
      terminalAt := some now
      terminationClass := terminationClass
      timedOut := timedOut
      scopeEvents := scopeEvents }
    else r

end Registry

/-! ### The enforcer -/

/-- How the enforcement of a scope went. -/
inductive EnforcementStatus
  | scopeOk | scopeCreationFailed | scopeVerificationFailed | enforcementUnavailable
  | scopeCleanupUnverified
  deriving DecidableEq

/-- What the backend reports of a command that ran. -/
structure ScopedRun where
  exitCode : Option ℤ
  timedOut : Bool
  pid : Option ℕ

/-- How a command ends, or is ended. -/
inductive Communicated
  | exited (returncode : ℤ)
  /-- It is killed, at the end of its time. -/
  | expired

/-- `run_in_scope`: what it returns has no process id. -/
def runInScope : Communicated → ScopedRun
  | .exited returncode => ⟨some returncode, returncode = 124, none⟩
  | .expired => ⟨some (-1), true, none⟩

/-- What happens to a scope, up to where it fails. Where there is a scope to be cleaned up,
that it is inactive is proved or not. -/
inductive SandboxRun
  /-- Nothing is created: the limits or the name are refused. -/
  | unavailable
  | notCreated
  | notVerified (inactive : Bool)
  | notRun (inactive : Bool)
  /-- The command ran, between two reads of `memory.events`. -/
  | ran (run : ScopedRun) (baseline current : Json) (inactive : Bool)

/-- A scope, as far as the supervisor reads it. -/
structure ExecutionScope where
  processId : Option ℕ
  /-- The `memory.events` it began with. -/
  memoryEventsBaseline : Option Json

structure EnforcementResult where
  status : EnforcementStatus
  scope : Option ExecutionScope := none
  exitCode : Option ℤ := none
  timedOut : Bool := false
  scopeEvents : Option Json := none
  terminationClass : Option TerminationClass := none

def barrierResult (status : EnforcementStatus) (inactive : Bool) : EnforcementResult where
  status := if inactive then status else .scopeCleanupUnverified
  scope := some ⟨none, none⟩

def enforceAndRun : SandboxRun → EnforcementResult
  | .unavailable => { status := .enforcementUnavailable }
  | .notCreated => { status := .scopeCreationFailed }
  | .notVerified inactive => barrierResult .scopeVerificationFailed inactive
  | .notRun inactive => barrierResult .scopeCreationFailed inactive
  | .ran run baseline current inactive =>
    let events := memoryEventsDelta baseline current
    { status := if inactive then .scopeOk else .scopeCleanupUnverified
      scope := some ⟨run.pid, some baseline⟩
      exitCode := run.exitCode
      timedOut := run.timedOut
      scopeEvents := some events
      terminationClass := some (classifyTermination run.exitCode (some events) run.timedOut) }

/-! ### The handler -/

/-- A supervisor at work, with the registry of processes. -/
structure SandboxDesk where
  desk : SupervisorDb
  registry : Registry
  keyed : Journal.Keyed desk.actions

/-- What a test finds. -/
structure SandboxVisit where
  workspaceRoot : Option String
  obs : RunObservation
  /-- The verdict of a fresh admission, if it is not `ALLOW`. -/
  admission : Option String
  run : SandboxRun
  processId : String
  identified : Bool
  storable : Bool
  now : Time

/-- What comes of it. -/
inductive SandboxOutcome
  | skipped (reason : String) | adapterException (exceptionType : String) | argsHashMismatch
  | alreadySucceeded | exhausted | resourceEnforcementFailed | resourceTerminationFailed
  | executed
  deriving DecidableEq

/-- The sandbox was run. -/
def SandboxOutcome.ran : SandboxOutcome → Bool
  | resourceTerminationFailed | executed => true
  | _ => false

def actionAdapterConflict (obs : RunObservation) : Option String :=
  if obs.status = .conflict then obs.adapterExceptionType else none

/-- The journal row of `_perform_run_sandbox_tests`. -/
def testsOpening (jobId dispatchId workspaceRoot : String) (frozen : Json) : Opening where
  actionKey := .tests dispatchId frozen
  actionType := .runSandboxTests
  jobId := jobId
  dispatchId := some dispatchId
  argsHash := .dict [("workspace", .text workspaceRoot), ("result_hash", frozen)]

/-- `_bounded_json`; what a scope counts never reaches its limit of characters. -/
def boundedJson : Option Json → Option Json
  | some (.obj (field :: fields)) => some (.obj (field :: fields))
  | _ => none

/-- `_register_process_evidence`: a registration that fails leaves none. -/
def registerProcessEvidence (rs : Registry) (v : SandboxVisit) (jobId dispatchId : String)
    (pid : ℕ) (baseline : Option Json) : Registry :=
  if v.storable && rs.all fun r => r.processId ≠ v.processId then
    rs ++ [{
      processId := v.processId
      jobId := jobId
      dispatchId := some dispatchId
      pid := pid
      terminationClass := none
      timedOut := false
      scopeEvents := boundedJson baseline
      status := if v.identified then .running else .unknown
      exitCode := none
      terminalAt := none }]
  else rs

/-- The process of a scope is registered, and the newest registration of the dispatch is
marked as terminal. -/
def recordTermination (rs : Registry) (v : SandboxVisit) (jobId dispatchId : String)
    (result : EnforcementResult) : Registry :=
  match result.scope with
  | some ⟨some (pid + 1), baseline⟩ =>
    let rs' := registerProcessEvidence rs v jobId dispatchId (pid + 1) baseline
    match rs'.newest dispatchId with
    | none => rs'
    | some reg =>
      if result.status = .scopeCleanupUnverified then
        rs'.markTerminal reg.processId result.exitCode (some .scopeCleanupUnverified)
          false none v.now
      else
        rs'.markTerminal reg.processId result.exitCode result.terminationClass result.timedOut
          (boundedJson result.scopeEvents) v.now
  | _ => rs

/-- `_run_sandbox_scoped`: the exit code, and the registry. -/
def runSandboxScoped (rs : Registry) (v : SandboxVisit) (jobId dispatchId : String) :
    ℤ × Registry :=
  let result := enforceAndRun v.run
  let rs' := recordTermination rs v jobId dispatchId result
  if result.status = .scopeCleanupUnverified ∨ result.scope = none then (-1, rs')
  else (result.exitCode.getD (-1), rs')

def sandboxResourceTermination (rs : Registry) (dispatchId : String) : Bool :=
  (rs.newest dispatchId).any fun reg =>
    isResourceFailure (classifyFailure reg.terminationClass reg.exitCode reg.timedOut
      reg.scopeEvents)

/-- What a run leaves in the journal. -/
def sandboxVerdict (rs : Registry) (dispatchId : String) (exitCode : ℤ) :
    SandboxOutcome × ActionStatus × Option String :=
  if sandboxResourceTermination rs dispatchId then
    (.resourceTerminationFailed, .failed, some "resource_termination")
  else if exitCode = 0 then (.executed, .succeeded, none)
  else (.executed, .failed, some ("exit_code_" ++ toString exitCode))

/-- `_perform_run_sandbox_tests`, without the substitute for the sandbox that only tests
inject. -/
def performRunSandboxTests (w : SupervisorDb) (rs : Registry) (dispatchId : String)
    (v : SandboxVisit) : SandboxOutcome × SupervisorDb × Registry :=
  match v.workspaceRoot with
  | none => (.skipped "no_workspace", w, rs)
  | some root => match Journal.frozenWriteResultHash w.actions dispatchId w.intents with
    | none => (.skipped "no_frozen_result_hash", w, rs)
    | some frozen => match w.db.getDispatch dispatchId with
      | none => (.skipped "dispatch_missing", w, rs)
      | some _ => match actionAdapterConflict v.obs with
        | some exceptionType => (.adapterException exceptionType, w, rs)
        | none =>
          if canonicalFullResultHash v.obs.result ≠ frozen then
            (.skipped "result_hash_mismatch", w, rs)
          else
            let o := testsOpening w.job.id dispatchId root frozen
            match Journal.beginAction w.actions o v.now with
            | none => (.argsHashMismatch, w.persistError "RUN_SANDBOX_TESTS_args_hash_mismatch", rs)
            | some (.succeeded, _, _) => (.alreadySucceeded, w, rs)
            | some (.exhausted, _, _) => (.exhausted,
              w.persistError "RUN_SANDBOX_TESTS_exhausted", rs)
            | some (_, _, actions) => match v.admission with
              | some verdict =>
                (.resourceEnforcementFailed, { w with
                  actions := actions.finishAction o.actionKey .failed
                    (some ("admission:" ++ verdict)) },
                  rs)
              | none =>
                let (exitCode, rs') := runSandboxScoped rs v w.job.id dispatchId
                let (outcome, status, code) := sandboxVerdict rs' dispatchId exitCode
                (outcome, { w with actions := actions.finishAction o.actionKey status code }, rs')

/-! ### What the claim of a verdict is about -/

namespace SandboxRun

/-- How the process of the sandbox ended, if it ran, or whether it may still run. -/
def termination : SandboxRun → Option TerminationClass
  | .unavailable | .notCreated => none
  | .notVerified inactive | .notRun inactive =>
    if inactive then none else some .scopeCleanupUnverified
  | .ran run baseline current inactive =>
    if inactive then
      some (classifyTermination run.exitCode (some
        (memoryEventsDelta baseline current)) run.timedOut)
    else some .scopeCleanupUnverified

/-- The process exited with 0, without evidence of a resource failure. -/
def Green (r : SandboxRun) : Prop := r.termination = some .normalExit

/-- The process exited otherwise, without evidence of a resource failure. -/
def Red (r : SandboxRun) : Prop := r.termination = some .nonzeroExit

instance (r : SandboxRun) : Decidable r.Green := inferInstanceAs (Decidable (_ = _))

instance (r : SandboxRun) : Decidable r.Red := inferInstanceAs (Decidable (_ = _))

/-- The process exited with 0 in a scope that was cleaned up, but with evidence of a resource
failure. -/
def Concealed : SandboxRun → Prop
  | .ran run baseline current true => run.exitCode = some 0 ∧
    classifyTermination run.exitCode (some (memoryEventsDelta baseline current)) run.timedOut ≠
      .normalExit
  | _ => False

/-- The process of the scope, if the backend names it. -/
def pid : SandboxRun → Option ℕ
  | .ran run _ _ _ => run.pid
  | _ => none

end SandboxRun

/-- The sandbox gets a registration of its own: the backend names its process, and the
store takes the row. -/
def Registers (rs : Registry) (v : SandboxVisit) : Prop :=
  (∃ n, v.run.pid = some (n + 1)) ∧ v.storable = true ∧ ∀ r ∈ rs, r.processId ≠ v.processId

/-- The evidence that is classified for the dispatch is that of this run, and the
registrations that were there are unchanged. -/
def OwnEvidence (rs rs' : Registry) (dispatchId : String) (run : SandboxRun) : Prop :=
  ∃ own : Registry, rs' = rs ++ own ∧ rs'.newest dispatchId = own.newest dispatchId ∧
    ∀ r ∈ own, r.terminationClass = run.termination

/-- What a test is recorded as, and what that makes of the attempt. -/
structure TestRecord where
  result : TestResult
  /-- Whether the attempt is a `SUCCESS`, and not a failure of `CAPABILITY`. -/
  success : Bool

/-- `_perform_record_test_result`: what it records. -/
def testRecord (js : Journal) (dispatchId : String) : TestRecord :=
  if js.actionSucceeded dispatchId .runSandboxTests then ⟨.passed, true⟩ else ⟨.failed, false⟩

/-- On this observation the next decision, whenever it is made, is to record this. -/
def FollowedByRecord (w : SupervisorDb) (dispatchId : String) (obs : RunObservation)
    (record : TestRecord) : Prop :=
  ∀ holder now d w', w.reconcile holder now (some obs) = (some d, w') →
    d.action = .recordTestResult ∧ d.dispatchId = some dispatchId ∧
      testRecord w'.actions dispatchId = record

/-- The verdict is the sandbox's own. -/
structure VerdictIsOwn (rs : Registry) (w' : SupervisorDb) (rs' : Registry) (dispatchId : String)
    (run : SandboxRun) (obs : RunObservation) : Prop where
  status : w'.actions.actionSucceeded dispatchId .runSandboxTests = true ↔ run.Green
  evidence : OwnEvidence rs rs' dispatchId run
  recorded : (run.Green → FollowedByRecord w' dispatchId obs ⟨.passed, true⟩) ∧
    (run.Red → FollowedByRecord w' dispatchId obs ⟨.failed, false⟩)

structure VerdictCondition (w : SupervisorDb) (rs : Registry) (dispatchId : String)
    (v : SandboxVisit) : Prop where
  notRed : ¬v.run.Red
  identified : Registers rs v ∨ rs.newest dispatchId = none ∧ ¬v.run.Concealed
  unrecorded : v.run.Green → w.actions.actionSucceeded dispatchId .recordTestResult = false

/-! ### The evidence -/

section Evidence

variable {rs rs' : Registry} {v : SandboxVisit} {jobId dispatchId : String} {now : Time}
  {r : ProcessRegistration} {n : ℕ} {exitCode : Option ℤ} {events : Option Json} {timedOut : Bool}

theorem isResourceFailure_eq_false {c : TerminationClass} :
    isResourceFailure (failureClassFromTermination c) = false ↔
      c = .normalExit ∨ c = .nonzeroExit := by
  cases c <;> simp [isResourceFailure, failureClassFromTermination]

theorem newest_append_own (h : r.dispatchId = some dispatchId) :
    Registry.newest (rs ++ [r]) dispatchId = some r := by
  simp [Registry.newest, h]

/-- Marking a registration takes none from the dispatch. -/
theorem isSome_newest_markTerminal {processId : String}
    {c : Option TerminationClass} :
    ((rs.markTerminal processId exitCode c timedOut events now).newest dispatchId).isSome =
      (rs.newest dispatchId).isSome := by
  unfold Registry.newest Registry.markTerminal
  rw [← List.map_reverse]
  induction rs.reverse with
  | nil => rfl
  | cons r l ih =>
    rw [List.map_cons, List.find?_cons, List.find?_cons]
    have hsame : ∀ r' : ProcessRegistration, (if r'.processId = processId ∧
        r'.status ≠ .terminal then
        { r' with
          status := .terminal
          exitCode := exitCode
          terminalAt := some now
          terminationClass := c
          timedOut := timedOut
          scopeEvents := events }
        else r').dispatchId = r'.dispatchId := by
      intro r'
      split <;> rfl
    rw [hsame]
    by_cases hd : r.dispatchId = some dispatchId
    · simp [hd]
    · simpa [hd] using ih

theorem markTerminal_of_ne {processId : String} {c : Option TerminationClass}
    (h : ∀ r ∈ rs, r.processId ≠ processId) :
    rs.markTerminal processId exitCode c timedOut events now = rs := by
  unfold Registry.markTerminal
  calc
    _ = rs.map id := List.map_congr_left fun r hr => if_neg fun hr' => h r hr hr'.1
    _ = rs := List.map_id rs

theorem registerProcessEvidence_of_not {pid : ℕ} {baseline : Option Json}
    (h : ¬(v.storable ∧ ∀ r ∈ rs, r.processId ≠ v.processId)) :
    registerProcessEvidence rs v jobId dispatchId pid baseline = rs := by
  unfold registerProcessEvidence
  refine if_neg fun hall => h ?_
  simpa using hall

/-- **The registration of its own**: one row is added, with the evidence of the run. -/
theorem recordTermination_of_registers (h : Registers rs v) :
    ∃ own : ProcessRegistration, recordTermination rs v jobId dispatchId (enforceAndRun v.run) =
      rs ++ [own] ∧ own.dispatchId = some dispatchId ∧
        own.terminationClass = v.run.termination := by
  obtain ⟨⟨n, hpid⟩, hstorable, hfresh⟩ := h
  cases hrun : v.run with
  | ran run baseline current inactive =>
    rw [hrun] at hpid
    have hpid' : run.pid = some (n + 1) := hpid
    have hregister : ∃ row : ProcessRegistration, row.dispatchId = some dispatchId ∧
        row.processId = v.processId ∧ row.status ≠ .terminal ∧
        registerProcessEvidence rs v jobId dispatchId (n + 1) (some baseline) = rs ++ [row] := by
      have hall : (v.storable && rs.all fun r => r.processId ≠ v.processId) = true := by
        simpa [hstorable] using hfresh
      refine ⟨_, rfl, rfl, ?_, if_pos hall⟩
      cases v.identified <;> simp
    obtain ⟨row, hdispatch, hid, hstatus, hrow⟩ := hregister
    have hmark : ∀ (exitCode : Option ℤ) (c : Option TerminationClass) (timedOut : Bool)
        (events : Option Json), ∃ own : ProcessRegistration,
          Registry.markTerminal (rs ++ [row]) row.processId exitCode c timedOut events v.now =
            rs ++ [own] ∧ own.dispatchId = some dispatchId ∧ own.terminationClass = c := by
      intro exitCode c timedOut events
      have hold : Registry.markTerminal rs row.processId exitCode c timedOut events v.now = rs :=
        markTerminal_of_ne fun r hr => by rw [hid]; exact hfresh r hr
      have hnew : Registry.markTerminal [row] row.processId exitCode c timedOut events v.now =
          [{ row with
            status := .terminal
            exitCode := exitCode
            terminalAt := some v.now
            terminationClass := c
            timedOut := timedOut
            scopeEvents := events }] := by
        simp [Registry.markTerminal, hstatus]
      refine ⟨{ row with
        status := .terminal
        exitCode := exitCode
        terminalAt := some v.now
        terminationClass := c
        timedOut := timedOut
        scopeEvents := events }, ?_, hdispatch, rfl⟩
      calc
        _ = Registry.markTerminal rs row.processId exitCode c timedOut events v.now ++
            Registry.markTerminal [row] row.processId exitCode c timedOut events v.now :=
          List.map_append
        _ = _ := by rw [hold, hnew]
    have hnewest := @newest_append_own rs dispatchId row hdispatch
    cases inactive with
    | true =>
      obtain ⟨own, hown, hd, hc⟩ := hmark run.exitCode
        (some (classifyTermination run.exitCode (some (memoryEventsDelta baseline current))
          run.timedOut))
        run.timedOut (boundedJson (some (memoryEventsDelta baseline current)))
      refine ⟨own, ?_, hd, hc⟩
      simpa [recordTermination, enforceAndRun, hpid', hrow, hnewest] using hown
    | false =>
      obtain ⟨own, hown, hd, hc⟩ := hmark run.exitCode (some .scopeCleanupUnverified) false none
      refine ⟨own, ?_, hd, hc⟩
      simpa [recordTermination, enforceAndRun, hpid', hrow, hnewest] using hown
  | unavailable | notCreated | notVerified _ | notRun _ => simp [hrun, SandboxRun.pid] at hpid

/-- Without a registration of its own, a run at most marks what its dispatch has. -/
theorem recordTermination_eq_or (h : ¬Registers rs v) :
    recordTermination rs v jobId dispatchId (enforceAndRun v.run) = rs ∨
      ∃ reg exitCode c timedOut events, rs.newest dispatchId = some reg ∧
        recordTermination rs v jobId dispatchId (enforceAndRun v.run) =
          rs.markTerminal reg.processId exitCode c timedOut events v.now := by
  cases hrun : v.run with
  | ran run baseline current inactive =>
    unfold recordTermination
    cases hpid : run.pid with
    | none => simp [enforceAndRun, hpid]
    | some n => cases n with
      | zero => simp [enforceAndRun, hpid]
      | succ n =>
        have hnot : ¬(v.storable = true ∧ ∀ r ∈ rs, r.processId ≠ v.processId) :=
          fun hstored => h ⟨⟨n, by simp [hrun, SandboxRun.pid, hpid]⟩, hstored⟩
        simp only [enforceAndRun, hpid, registerProcessEvidence_of_not hnot]
        cases hnewest : rs.newest dispatchId with
        | none => simp
        | some reg =>
          right
          cases inactive with
          | true | false => exact ⟨reg, _, _, _, _, rfl, rfl⟩
  | unavailable | notCreated | notVerified _ | notRun _ =>
    simp [recordTermination, enforceAndRun, barrierResult]

/-- **No registration of its own**: none is added, and what the dispatch has it still has. -/
theorem recordTermination_of_not_registers (h : ¬Registers rs v) :
    (recordTermination rs v jobId dispatchId (enforceAndRun v.run)).length = rs.length ∧
    (Registry.newest (recordTermination rs v jobId dispatchId (enforceAndRun v.run))
      dispatchId).isSome = (rs.newest dispatchId).isSome := by
  rcases recordTermination_eq_or h with heq | ⟨reg, exitCode, c, timedOut, events, -, heq⟩
  · rw [heq]
    exact ⟨rfl, rfl⟩
  · rw [heq]
    exact ⟨List.length_map .., isSome_newest_markTerminal⟩

/-- **Whose evidence it is**: that of the run exactly if the run has a registration of its
own, or the dispatch has none. -/
theorem ownEvidence_iff :
    OwnEvidence rs (recordTermination rs v jobId dispatchId (enforceAndRun v.run))
      dispatchId v.run ↔
      Registers rs v ∨ rs.newest dispatchId = none := by
  by_cases hreg : Registers rs v
  · obtain ⟨own, hown, hd, hc⟩ := @recordTermination_of_registers rs v jobId dispatchId hreg
    refine iff_of_true ⟨[own], hown, ?_, ?_⟩ (.inl hreg)
    · rw [hown, newest_append_own hd]
      exact (@newest_append_own [] dispatchId own hd).symm
    · intro r hr
      obtain rfl := List.mem_singleton.mp hr
      exact hc
  · obtain ⟨hlength, hsome⟩ := @recordTermination_of_not_registers rs v jobId dispatchId hreg
    constructor
    · rintro ⟨own, hown, hnewest, -⟩
      have hnil : own = [] := by
        rw [hown, List.length_append] at hlength
        exact List.length_eq_zero_iff.mp (by omega)
      subst hnil
      rw [hnewest] at hsome
      have hnone : (rs.newest dispatchId).isSome = false := hsome.symm
      exact .inr (by simpa using hnone)
    · intro hnone
      have hnone := hnone.resolve_left hreg
      have hsame : recordTermination rs v jobId dispatchId (enforceAndRun v.run) = rs := by
        rcases recordTermination_eq_or hreg with heq | ⟨reg, _, _, _, _, hnewest, -⟩
        · exact heq
        · cases hnone.symm.trans hnewest
      refine ⟨[], by rw [hsame, List.append_nil], ?_, by simp⟩
      rw [hsame, hnone]
      rfl

/-! ### The status -/

theorem exitCode_of_normalExit
    (h : classifyTermination exitCode events timedOut = .normalExit) : exitCode = some 0 := by
  unfold classifyTermination at h
  split at h
  · cases h
  split at h
  · cases h
  split at h
  · cases h
  split at h
  · rfl
  · cases h
  · cases h

theorem exitCode_of_nonzeroExit
    (h : classifyTermination exitCode events timedOut = .nonzeroExit) : exitCode ≠ some 0 := by
  rintro rfl
  unfold classifyTermination at h
  split at h
  · cases h
  split at h
  · cases h
  split at h
  · cases h
  · cases h

theorem runSandboxScoped_fst : (runSandboxScoped rs v jobId dispatchId).1 = 0 ↔
    v.run.Green ∨ v.run.Concealed := by
  unfold runSandboxScoped
  cases hrun : v.run with
  | ran run baseline current inactive =>
    cases inactive with
    | true =>
      have hzero : run.exitCode.getD (-1) = 0 ↔ run.exitCode = some 0 := by
        cases run.exitCode <;> simp
      simp only [enforceAndRun, SandboxRun.Green, SandboxRun.termination, SandboxRun.Concealed]
      simp only [if_true, reduceCtorEq, or_false, if_false, hzero, Option.some.injEq]
      constructor
      · intro hexit
        by_cases hc : classifyTermination run.exitCode (some (memoryEventsDelta baseline current))
            run.timedOut = .normalExit
        · exact .inl hc
        · exact .inr ⟨hexit, hc⟩
      · rintro (hc | ⟨hexit, -⟩)
        · exact exitCode_of_normalExit hc
        · exact hexit
    | false => simp [enforceAndRun, SandboxRun.Green, SandboxRun.termination, SandboxRun.Concealed]
  | unavailable | notCreated =>
    simp [enforceAndRun, SandboxRun.Green, SandboxRun.termination, SandboxRun.Concealed]
  | notVerified inactive | notRun inactive =>
    cases inactive <;> simp [enforceAndRun, barrierResult, SandboxRun.Green, SandboxRun.termination,
      SandboxRun.Concealed]

theorem runSandboxScoped_snd : (runSandboxScoped rs v jobId dispatchId).2 =
    recordTermination rs v jobId dispatchId (enforceAndRun v.run) := by
  unfold runSandboxScoped
  simp only
  split <;> rfl

theorem sandboxVerdict_status {exitCode : ℤ} :
    (sandboxVerdict rs dispatchId exitCode).2.1 = .succeeded ↔
      sandboxResourceTermination rs dispatchId = false ∧ exitCode = 0 := by
  unfold sandboxVerdict
  cases sandboxResourceTermination rs dispatchId with
  | true => simp
  | false =>
    by_cases hexit : exitCode = 0
    · simp [hexit]
    · simp [hexit]

/-- With a registration of its own, a run succeeds exactly if it was green. -/
theorem status_of_registers (h : Registers rs v) :
    (sandboxVerdict (runSandboxScoped rs v jobId dispatchId).2 dispatchId
      (runSandboxScoped rs v jobId dispatchId).1).2.1 = .succeeded ↔ v.run.Green := by
  obtain ⟨own, hown, hd, hc⟩ := @recordTermination_of_registers rs v jobId dispatchId h
  obtain ⟨n, hpid⟩ := h.1
  rw [sandboxVerdict_status, runSandboxScoped_fst, runSandboxScoped_snd, hown,
    sandboxResourceTermination, newest_append_own hd, Option.any_some, hc, classifyFailure]
  cases hrun : v.run with
  | ran run baseline current inactive =>
    cases inactive with
    | true =>
      simp only [SandboxRun.termination, if_true, Option.getD_some, isResourceFailure_eq_false,
        SandboxRun.Green, SandboxRun.Concealed, Option.some.injEq]
      constructor
      · rintro ⟨hnormal | hnonzero, hc | ⟨hexit, -⟩⟩
        · exact hc
        · exact hnormal
        · exact hc
        · exact absurd hexit (exitCode_of_nonzeroExit hnonzero)
      · exact fun hc => ⟨.inl hc, .inl hc⟩
    | false => simp [SandboxRun.termination, SandboxRun.Green, isResourceFailure,
        failureClassFromTermination]
  | unavailable | notCreated | notVerified _ | notRun _ => simp [hrun, SandboxRun.pid] at hpid

/-- Where the dispatch has no registration at all, what is concealed succeeds as well. -/
theorem status_of_unregistered (h : ¬Registers rs v) (hnone : rs.newest dispatchId = none) :
    (sandboxVerdict (runSandboxScoped rs v jobId dispatchId).2 dispatchId
      (runSandboxScoped rs v jobId dispatchId).1).2.1 = .succeeded ↔
      v.run.Green ∨ v.run.Concealed := by
  have hsome := (@recordTermination_of_not_registers rs v jobId dispatchId h).2
  rw [hnone] at hsome
  have hnone' : Registry.newest (recordTermination rs v jobId dispatchId (enforceAndRun v.run))
      dispatchId = none := by simpa using hsome
  rw [sandboxVerdict_status, runSandboxScoped_fst, runSandboxScoped_snd,
    sandboxResourceTermination, hnone']
  simp

theorem not_green_of_concealed (h : v.run.Concealed) : ¬v.run.Green := by
  cases hrun : v.run with
  | ran run baseline current inactive =>
    rw [hrun] at h
    cases inactive with
    | true =>
      intro hgreen
      exact h.2 (Option.some.inj hgreen)
    | false => exact h.elim
  | unavailable | notCreated | notVerified _ | notRun _ =>
    rw [hrun] at h
    exact h.elim

theorem not_green_of_red (h : v.run.Red) : ¬v.run.Green := by
  intro hgreen
  exact absurd (h.symm.trans hgreen) (by simp)

end Evidence

/-! ### A test, and the next decision -/

section Test

variable {w w' : SupervisorDb} {rs rs' : Registry} {v : SandboxVisit} {dispatchId : String}
  {outcome : SandboxOutcome} {holder : Option LeaseCas} {now : Time} {obs : RunObservation}
  {d : ReconcileDecision} {s : Snapshot} {ad : AgentDispatch} {status : ActionStatus}

/-- **What a test that ran has done**: its row was begun, and finished with the verdict on
the registry it left. -/
theorem of_performRunSandboxTests
    (h : performRunSandboxTests w rs dispatchId v = (outcome, w', rs')) (hran : outcome.ran) :
    ∃ root frozen begun a actions code,
      Journal.beginAction w.actions (testsOpening w.job.id dispatchId root frozen) v.now =
        some (begun, a, actions) ∧
      rs' = (runSandboxScoped rs v w.job.id dispatchId).2 ∧
      w' = { w with
        actions := actions.finishAction (.tests dispatchId frozen)
          (sandboxVerdict rs' dispatchId (runSandboxScoped rs v w.job.id
            dispatchId).1).2.1 code } := by
  unfold performRunSandboxTests at h
  split at h
  · cases h; cases hran
  rename_i root hroot
  split at h
  · cases h; cases hran
  rename_i frozen hfrozen
  split at h
  · cases h; cases hran
  split at h
  · cases h; cases hran
  split at h
  · cases h; cases hran
  simp only at h
  split at h
  · cases h; cases hran
  · cases h; cases hran
  · cases h; cases hran
  · rename_i begun a actions _ _ hbegin
    split at h
    · cases h; cases hran
    · obtain ⟨-, rfl, rfl⟩ := h
      exact ⟨root, frozen, begun, a, actions, _, hbegin, rfl, rfl⟩

/-- The rows after a test: those that test have its status, the others are as before. -/
theorem touched_of_performRunSandboxTests (hkeyed : Journal.Keyed w.actions)
    (h : performRunSandboxTests w rs dispatchId v = (outcome, w', rs')) (hran : outcome.ran) :
    ∃ o new g, Touched o w.actions w'.actions new g ∧ o.actionType = .runSandboxTests ∧
      o.dispatchId = some dispatchId ∧ (∃ frozen, o.actionKey = .tests dispatchId frozen) ∧
      (∀ b ∈ w'.actions, b.actionKey = o.actionKey → b.status =
        (sandboxVerdict (runSandboxScoped rs v w.job.id dispatchId).2 dispatchId
          (runSandboxScoped rs v w.job.id dispatchId).1).2.1) ∧
      (∀ type, type ≠ .runSandboxTests → ∀ d,
        Journal.actionsOf w'.actions d type = Journal.actionsOf w.actions d type) := by
  obtain ⟨root, frozen, begun, a, actions, code, hbegin, rfl, rfl⟩ :=
    of_performRunSandboxTests h hran
  obtain ⟨new, g, htouched⟩ := touched_of_beginAction hbegin
  obtain ⟨g', htouched', hstatus⟩ := @Touched.finish _ _ _ _ _ htouched
    (sandboxVerdict (runSandboxScoped rs v w.job.id dispatchId).2 dispatchId
      (runSandboxScoped rs v w.job.id dispatchId).1).2.1 code
  refine ⟨testsOpening w.job.id dispatchId root frozen, new, g', htouched', rfl, rfl, ⟨frozen, rfl⟩,
    hstatus, fun type htype d => htouched'.actionsOf_of_ne (fun a ha hkey => ?_) htype.symm⟩
  rw [(hkeyed a ha dispatchId frozen hkey).2]
  exact htype.symm

/-- The next decision on this observation, in the pipeline. -/
theorem decision_after (hs : w.snapshot = some s) (hin : InPipeline s ad)
    (hobs : obs.status = .succeeded) {actions : Journal} {holder' : Option LeaseCas} {now' : Time}
    {d' : ReconcileDecision} {w'' : SupervisorDb}
    (h : ({ w with actions := actions } : SupervisorDb).reconcile holder' now' (some obs) =
      (some d', w'')) :
    d'.action = (decideWritePreconditions now' { s with actions := actions } ad obs).action ∧
      d'.dispatchId = some ad.id.text ∧ w''.actions = actions := by
  obtain ⟨s', hs', -, rfl, rfl⟩ := SupervisorDb.eq_of_reconcile h
  obtain rfl := Option.some.inj (hs'.symm.trans (snapshot_actions hs))
  have hin' : InPipeline { s with actions := actions } ad :=
    @InPipeline.reread s ad hin s.job actions hin.nonterminal hin.healthy
  refine ⟨?_, ?_, rfl⟩
  · rw [SupervisorDb.author, hin'.decide hobs]
  · rw [SupervisorDb.author, hin'.decide hobs]
    exact decideWritePreconditions_dispatchId

end Test

/-- **When the verdict of the sandbox is its own**: for a dispatch whose workspace is to be
tested, whatever is registered for it and however the sandbox goes, the verdict is the
sandbox's own exactly if the run is not red, the sandbox is registered or nothing is, and
what is tested has not been recorded before. -/
theorem sandbox_verdict_iff (t : SandboxDesk) {holder : Option LeaseCas} {now : Time}
    {obs : RunObservation} {d : ReconcileDecision} {w w' : SupervisorDb} {rs' : Registry}
    {dispatchId : String} {v : SandboxVisit} {outcome : SandboxOutcome}
    (hplan : t.desk.reconcile holder now (some obs) = (some d, w))
    (haction : d.action = .runSandboxTests) (hdispatch : d.dispatchId = some dispatchId)
    (hrun : performRunSandboxTests w t.registry dispatchId v = (outcome, w', rs'))
    (hran : outcome.ran = true) :
    VerdictIsOwn t.registry w' rs' dispatchId v.run obs ↔
      VerdictCondition w t.registry dispatchId v := by
  obtain ⟨s, ad, hs, hactions, hin, hobs, hid, hplanned, hsame, hfence⟩ :=
    planned_of_reconcile hplan (by simp [haction])
  obtain rfl : ad.id.text = dispatchId := Option.mem_unique hid hdispatch
  have hkeyed : Journal.Keyed w.actions := hsame ▸ t.keyed
  obtain ⟨root, frozen, begun, a, actions, code, hbegin, hrs, hw'⟩ :=
    of_performRunSandboxTests hrun hran
  obtain ⟨o, new, g, htouched, htype, hd, ⟨frozen', hkey⟩, hstatus, hothers⟩ :=
    touched_of_performRunSandboxTests hkeyed hrun hran
  obtain ⟨hleft, hwhole, hdone, hhash, htests⟩ :=
    decideWritePreconditions_runSandboxTests.mp (hplanned.trans haction)
  rw [Snapshot.actionSucceeded_eq, hactions] at htests hdone
  -- The tests have succeeded exactly if the verdict says so.
  have hsucceeded := htouched.actionSucceeded_tests hkeyed hkey hd htype hstatus htests
  have hevidence : OwnEvidence t.registry rs' ad.id.text v.run ↔
      Registers t.registry v ∨ t.registry.newest ad.id.text = none := by
    rw [hrs, runSandboxScoped_snd]
    exact ownEvidence_iff
  have hw'' : w' = { w with actions := w'.actions } := by
    rw [hw']
  have hrecord : Journal.actionSucceeded w'.actions ad.id.text .recordTestResult =
      Journal.actionSucceeded w.actions ad.id.text .recordTestResult := by
    unfold Journal.actionSucceeded
    rw [hothers .recordTestResult (by simp)]
  have hnext : ∀ {holder' now' d' w''}, w'.reconcile holder' now' (some obs) = (some d', w'') →
      d'.action = (decideWritePreconditions now' { s with actions := w'.actions } ad obs).action ∧
        d'.dispatchId = some ad.id.text ∧ w''.actions = w'.actions := by
    intro holder' now' d' w'' h
    rw [hw''] at h
    exact decision_after hs hin hobs h
  have hagain : ∃ d' w'', w'.reconcile holder now (some obs) = (some d', w'') := by
    have hread : w'.snapshot = some { s with actions := w'.actions } := by
      rw [hw'']
      exact snapshot_actions hs
    have hfence' : w'.job.leaseFence holder now = true := by
      rw [hw']
      exact hfence
    exact ⟨_, _, SupervisorDb.reconcile_of_snapshot hread hfence'⟩
  obtain ⟨d', w'', hd'⟩ := hagain
  constructor
  · rintro ⟨hgreen, hown, hpassed, hfailed⟩
    refine ⟨fun hred => ?_, ?_, fun hg => ?_⟩
    · -- A record would be planned only if the tests had succeeded.
      have hact := (hfailed hred holder now d' w'' hd').1
      rw [(hnext hd').1, decideWritePreconditions_recordTestResult] at hact
      exact not_green_of_red hred (hgreen.mp hact.2.2.2.2.1)
    · by_cases hreg : Registers t.registry v
      · exact .inl hreg
      · have hnone := (hevidence.mp hown).resolve_left hreg
        refine .inr ⟨hnone, fun hcon => not_green_of_concealed hcon ?_⟩
        exact hgreen.mp (hsucceeded.mpr ((status_of_unregistered hreg hnone).mpr (.inr hcon)))
    · have hact := (hpassed hg holder now d' w'' hd').1
      rw [(hnext hd').1, decideWritePreconditions_recordTestResult] at hact
      rw [← hrecord]
      exact hact.2.2.2.2.2
  · rintro ⟨hnotred, hidentified, hunrecorded⟩
    have hgreen : Journal.actionSucceeded w'.actions ad.id.text .runSandboxTests = true ↔
        v.run.Green := by
      rw [hsucceeded]
      rcases hidentified with hreg | ⟨hnone, hopen⟩
      · exact status_of_registers hreg
      · by_cases hreg : Registers t.registry v
        · exact status_of_registers hreg
        · rw [status_of_unregistered hreg hnone]
          exact or_iff_left hopen
    refine ⟨hgreen, hevidence.mpr (hidentified.imp_right And.left), fun hg => ?_,
      fun hred => absurd hred hnotred⟩
    intro holder' now' d' w'' h
    obtain ⟨hact, hid', hactions'⟩ := hnext h
    have hpass := hgreen.mpr hg
    refine ⟨?_, hid', by rw [hactions', testRecord, if_pos hpass]⟩
    rw [hact, decideWritePreconditions_recordTestResult]
    have hrows : ∀ type, type ≠ .runSandboxTests → ∀ d,
        Snapshot.actionsOf { s with actions := w'.actions } d type = s.actionsOf d type := by
      intro type htype d
      rw [Snapshot.actionsOf_eq, Snapshot.actionsOf_eq, hactions]
      exact hothers type htype d
    have hstep : exhaustedStep { s with actions := w'.actions } ad = none := by
      rw [exhaustedStep_eq_none] at hleft ⊢
      refine ⟨?_, ?_, ?_, ?_⟩
      · rw [exhausted_congr (hrows _ (by simp) _)]
        exact hleft.1
      · have hstatus' : ∀ b ∈ w'.actions, b.actionKey = o.actionKey → b.status = .succeeded :=
          fun b hb hbkey => (hstatus b hb hbkey).trans (hsucceeded.mp hpass)
        have hnot := hleft.2.1
        rw [Snapshot.exhausted, Snapshot.latestAction, Snapshot.actionsOf_eq, hactions,
          Option.any_eq_false] at hnot
        rw [Snapshot.exhausted, Snapshot.latestAction, Option.any_eq_false]
        intro b hb
        have hspent := @Touched.not_exhausted _ _ _ _ _ ad.id.text .runSandboxTests
          htouched hstatus'
          (fun c hc => by simpa using hnot c hc) b hb
        simpa using hspent
      · rw [exhausted_congr (hrows _ (by simp) _)]
        exact hleft.2.2.1
      · rw [exhausted_congr (hrows _ (by simp) _)]
        exact hleft.2.2.2
    have happly := hrows .applyPatchSet (by simp) ad.id.text
    refine ⟨hstep, ?_, ?_, ?_, hpass, ?_⟩
    · rw [diverged_congr happly]
      exact hwhole
    · rw [actionSucceeded_congr happly, Snapshot.actionSucceeded_eq, hactions]
      exact hdone
    · rw [frozen_congr happly rfl]
      exact hhash
    · rw [Snapshot.actionSucceeded_eq]
      exact hrecord.trans (hunrecorded hg)

/-! ### A test of QA -/

/-- The result of QA (dispatch 66). -/
def qaResult : Json := Core.outputOf .qa 66 (Core.tested "test")

/-- The run it was observed of. -/
def qaSucceeded : RunObservation where
  status := .succeeded
  sessionId := some (Core.num 66)
  runId := some (Core.num 66)
  provider := none
  model := none
  thinkingTier := none
  result := some qaResult
  resultHash := none
  authoritativeNotFound := false
  errorCode := none
  adapterExceptionType := none

/-- QA has handed in its result, and its patch set was applied. -/
def qaApplied (registry : Registry) : SandboxDesk where
  desk :=
    { SupervisorDb.claimed (Core.run .lenient Core.ticking Core.qaAtWork).db (Core.num 1) with
      actions :=
        [{ jobId := "supervisor:" ++ Core.num 1
           dispatchId := some (Core.num 66)
           actionType := .applyPatchSet
           actionKey := .apply (Core.num 66) qaResult.sorted
           argsHash := .text "empty"
           inputHash := some qaResult.sorted
           preconditionHash := none
           effectHash := none
           patchSetJson := none
           status := .succeeded
           attemptCount := 1
           lastErrorCode := none
           createdAt := 0 }]
      intents := [⟨Core.num 66, qaResult.sorted, .apply (Core.num 66) qaResult.sorted⟩] }
  registry := registry
  keyed := by
    intro a ha d frozen hkey
    obtain rfl := List.mem_singleton.mp ha
    cases hkey

/-- The agent of its dispatch, as it was registered when it was spawned. -/
def qaAgent : ProcessRegistration where
  processId := "agent"
  jobId := "supervisor:" ++ Core.num 1
  dispatchId := some (Core.num 66)
  pid := 100
  terminationClass := none
  timedOut := false
  scopeEvents := none
  status := .running
  exitCode := none
  terminalAt := none

/-- The sandbox ends with this exit code, and nothing was counted. -/
def exits (returncode : ℤ) : SandboxVisit where
  workspaceRoot := some "workspace"
  obs := qaSucceeded
  admission := none
  run := .ran (runInScope (.exited returncode)) (.obj []) (.obj []) true
  processId := "sandbox"
  identified := true
  storable := true
  now := 0

/-- Decide, test, and decide again on the same observation: what is planned, the outcome,
whether the tests have succeeded, and what is planned next. -/
def testAndDecide (t : SandboxDesk) (v : SandboxVisit) :
    Option (ReconcileAction × SandboxOutcome × Bool × ReconcileAction) :=
  match t.desk.reconcile (some (heldAt 1)) 0 (some qaSucceeded) with
  | (some d, w) =>
    let (outcome, w', _) := performRunSandboxTests w t.registry (Core.num 66) v
    match w'.reconcile (some (heldAt 1)) 0 (some qaSucceeded) with
    | (some d', _) => some (d.action, outcome,
        w'.actions.actionSucceeded (Core.num 66) .runSandboxTests, d'.action)
    | _ => none
  | _ => none

/-- A green run of a dispatch whose agent is registered fails, and is planned again; so is a
red run, whether an agent is registered or not. -/
theorem green_run_fails :
    (exits 0).run.Green ∧ (exits 1).run.Red ∧
    testAndDecide (qaApplied [qaAgent]) (exits 0) =
      some (.runSandboxTests, .resourceTerminationFailed, false, .runSandboxTests) ∧
    testAndDecide (qaApplied []) (exits 1) =
      some (.runSandboxTests, .executed, false, .runSandboxTests) := by
  decide +kernel

/-- What is decided where no process is registered. -/
def qaDecided : Option ReconcileDecision × SupervisorDb :=
  (qaApplied []).desk.reconcile (some (heldAt 1)) 0 (some qaSucceeded)

/-- What a green run does there. -/
def qaTested : SandboxOutcome × SupervisorDb × Registry :=
  performRunSandboxTests qaDecided.2 (qaApplied []).registry (Core.num 66) (exits 0)

/-- Where no process is registered, a green run has the verdict of the sandbox. -/
theorem sandbox_verdict_iff_green :
    qaTested.2.1.actions.actionSucceeded (Core.num 66) .runSandboxTests = true ∧
      VerdictIsOwn [] qaTested.2.1 qaTested.2.2 (Core.num 66) (exits 0).run qaSucceeded := by
  have hfacts : (qaDecided.1.any fun d =>
      d.action = .runSandboxTests && d.dispatchId = some (Core.num 66)) = true ∧
      qaTested.1.ran = true ∧ (exits 0).run.Green ∧
      qaTested.2.1.actions.actionSucceeded (Core.num 66) .runSandboxTests = true ∧
      qaDecided.2.actions.actionSucceeded (Core.num 66) .recordTestResult = false := by
    decide +kernel
  obtain ⟨hplan, hran, hgreen, hsucceeded, hunrecorded⟩ := hfacts
  obtain ⟨d, hd, hboth⟩ := Option.any_eq_true .. |>.mp hplan
  rw [Bool.and_eq_true, decide_eq_true_eq, decide_eq_true_eq] at hboth
  have hpair : ∀ x : Option ReconcileDecision × SupervisorDb, x.1 = some d → x = (some d, x.2) :=
    fun _ h => Prod.ext h rfl
  have heta : ∀ x : SandboxOutcome × SupervisorDb × Registry, x = (x.1, x.2.1, x.2.2) :=
    fun _ => rfl
  refine ⟨hsucceeded, (sandbox_verdict_iff (qaApplied []) (hpair qaDecided hd) hboth.1 hboth.2
    (heta qaTested) hran).mpr ⟨?_, ?_, ?_⟩⟩
  · exact fun hred => not_green_of_red hred hgreen
  · exact .inr ⟨rfl, fun hconcealed => not_green_of_concealed hconcealed hgreen⟩
  · exact fun _ => hunrecorded

end Supervisor

end ArgentTeam
