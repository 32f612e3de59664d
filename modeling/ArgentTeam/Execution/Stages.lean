import ArgentTeam.Execution.Evidence
import ArgentTeam.Lib.Hoare

/-!
# The stages of a plan

The executor goes through the stages of a plan and, in each that the resource gate admits,
through its selectors: a pass that the store vouches for is reused, everything else is run. What
is not a pass ends the stage and the plan. The gate, the runner and the file of the store are
asked in the order of a log, and may answer, or fail, as the log so far has it.

The flags of the two loops say at each point what the log says (`Ongoing`, `Halted`), which is
where the verdict comes from: it can be read off the stages of the report, and nothing comes after
what halts the plan.
-/

namespace ArgentTeam

namespace Execution

open Planning

/-! ### What is asked and what is reported -/

structure RunnerOutcome where
  classification : ResultClass
  summary : PyStr := []
  artifactRef : PyStr := []
  testCount : ℤ := 0

structure ResourceAdmission where
  allowed : Bool
  reason : PyStr := []

structure SelectorResult where
  selector : PyStr
  classification : ResultClass
  reused : Bool := false
  evidenceHash : PyStr := []
  summary : PyStr := []
  artifactRef : PyStr := []
  testCount : ℤ := 0

inductive StageState
  | pending
  | running
  | passed
  | failed
  | blocked
  | skipped

inductive Verdict
  | done
  | failed
  | blocked
  deriving DecidableEq

structure StageExecution where
  name : String
  state : StageState
  selectorResults : List SelectorResult := []
  summary : PyStr := []

/-- `ExecutionReport`, without the time it took. -/
structure ExecutionReport where
  planHash : String
  snapshot : SnapshotIdentity
  verdict : Verdict
  stages : List StageExecution
  firstFailureStage : Option String := none
  firstFailureSelector : Option PyStr := none
  firstFailureClass : Option ResultClass := none
  stagesPlanned : ℕ := 0
  stagesExecuted : ℕ := 0
  stagesReused : ℕ := 0
  stagesAvoided : ℕ := 0
  fullSuiteAvoided : Bool := false
  totalTests : ℤ := 0
  authoritative : Bool := false

/-- What leaves `execute_plan` besides a report. -/
inductive Raised
  /-- `_resolve_mac_key` finds no key. -/
  | noKey
  /-- `_validate_plan` raises. -/
  | invalidPlan
  | otherRoot
  /-- The snapshot is not what the root holds, or the root cannot be read. -/
  | otherSnapshot
  | gate
  | runner
  | store
  deriving DecidableEq

variable {κ : Type} {hmac : κ → Json → String}

/-- What the loops of `execute_plan` come to. -/
inductive Event (hmac : κ → Json → String)
  | admitted (stage : String)
  | denied (stage : String)
  /-- A selector is not run: the store, as it is then, has a record of it. -/
  | reused (selector : PyStr) (store : EvidenceStore hmac) (rec : EvidenceRecord)
  | ran (selector : PyStr) (outcome : RunnerOutcome)

/-- The plan does not go on after an event. -/
def Event.Stops : Event hmac → Prop
  | denied _ => True
  | ran _ outcome => outcome.classification ≠ .testPass
  | admitted _ | reused .. => False

/-- What `execute_plan` asks, each answer given by the log so far; `none` where it raises. -/
structure Surroundings (hmac : κ → Json → String) where
  /-- `resource_gate.admit`; there may be no gate. -/
  gate : Option (List (Event hmac) → Option ResourceAdmission)
  runner : List (Event hmac) → PyStr → Option RunnerOutcome
  now : List (Event hmac) → PyStr
  onDisk : List (Event hmac) → Option ℕ
  replaces : List (Event hmac) → Bool
  /-- `project_root`, or that of the runner. -/
  declaredRoot : Option PyStr
  resolve : PyStr → PyStr
  computeSnapshotIdentity : PyStr → Option SnapshotIdentity

/-- The variables of `execute_plan`, its store, and the log. -/
structure Locals (hmac : κ → Json → String) where
  store : Option (EvidenceStore hmac)
  log : List (Event hmac) := []
  stagesExec : List StageExecution := []
  stagesExecuted : ℕ := 0
  stagesReused : ℕ := 0
  stagesAvoided : ℕ := 0
  fullSuiteAvoided : Bool := false
  totalTests : ℤ := 0
  firstFailureStage : Option String := none
  firstFailureSelector : Option PyStr := none
  firstFailureClass : Option ResultClass := none
  verdict : Verdict := .done
  stop : Bool := false
  selectorResults : List SelectorResult := []
  stageReused : Bool := true
  stageFailed : Bool := false
  stageBlocked : Bool := false

/-! ### The loop over the selectors -/

section Selectors

variable (plan : TestPlan) (snapshot : SnapshotIdentity) (env : Surroundings hmac)

/-- The record that is added for a selector that has been run. -/
def recordOf (sel : PyStr) (outcome : RunnerOutcome) (now : PyStr) : EvidenceRecord :=
  .of (EvidenceStore.wanted sel snapshot plan) outcome.classification now outcome.artifactRef
    outcome.summary outcome.testCount []

/-- `store.add`, if there is a store. It goes on where a record cannot be taken a MAC of, of which
`compute_evidence_mac` raises: the pass is reported by then. -/
def addEvidence (sel : PyStr) (outcome : RunnerOutcome) : Prog (Locals hmac) Raised Unit := do
  let l ← Prog.read id
  Prog.whenSome l.store fun store => do
    let added ← Prog.orRaise
      (store.add (recordOf plan snapshot sel outcome (env.now l.log))) .store
    Prog.change fun l => { l with store := some added }
    Prog.onlyIf (added.persistent = true) do
      Prog.require (env.onDisk l.log = some added.expectedGeneration ∧ env.replaces l.log = true)
        .store
      Prog.change fun l => { l with
        store := some { added with expectedGeneration := added.expectedGeneration + 1 } }

/-- A pass that the store vouches for. -/
def Locals.reuse (sel : PyStr) (store : EvidenceStore hmac) (rec : EvidenceRecord)
    (l : Locals hmac) : Locals hmac :=
  { l with
    log := l.log ++ [.reused sel store rec]
    selectorResults := l.selectorResults ++ [⟨sel, .testPass, true, rec.evidenceHash, rec.summary,
      rec.artifactRef, rec.testCount⟩]
    totalTests := l.totalTests + rec.testCount }

/-- A selector that has been run. -/
def Locals.ran (sel : PyStr) (outcome : RunnerOutcome) (l : Locals hmac) : Locals hmac :=
  { l with
    log := l.log ++ [.ran sel outcome]
    totalTests := l.totalTests + outcome.testCount
    selectorResults := l.selectorResults ++ [⟨sel, outcome.classification, false, [],
      outcome.summary, outcome.artifactRef, outcome.testCount⟩] }

/-- A result that is not a pass. -/
def Locals.fail (stage : PlanStage) (sel : PyStr) (outcome : RunnerOutcome) (l : Locals hmac) :
    Locals hmac :=
  let first := l.firstFailureClass.isNone
  { l with
    stageReused := false
    firstFailureClass := if first then some outcome.classification else l.firstFailureClass
    firstFailureSelector := if first then some sel else l.firstFailureSelector
    firstFailureStage := if first then some stage.name else l.firstFailureStage
    stageFailed := l.stageFailed || outcome.classification = .testFailure
    stageBlocked := l.stageBlocked || outcome.classification ≠ .testFailure
    verdict := if outcome.classification = .testFailure then .failed else .blocked }

/-- The store and the record that a selector is reused from. -/
def Locals.reusable (sel : PyStr) (l : Locals hmac) :
    Option (EvidenceStore hmac × EvidenceRecord) :=
  l.store.bind fun store => (store.findReusablePass sel snapshot plan).map fun rec => (store, rec)

/-- A round of the loop over the selectors; whether it goes on. -/
def runSelector (stage : PlanStage) (sel : PyStr) : Prog (Locals hmac) Raised Bool := do
  let l ← Prog.read id
  Prog.caseSome (l.reusable plan snapshot sel)
    (fun found => do
      Prog.change (Locals.reuse sel found.1 found.2)
      pure true)
    (do
      let outcome ← Prog.orRaise (env.runner l.log sel) .runner
      Prog.change (Locals.ran sel outcome)
      addEvidence plan snapshot env sel outcome
      if outcome.classification = .testPass then do
        Prog.change fun l => { l with stageReused := false }
        pure true
      else do
        Prog.change (Locals.fail stage sel outcome)
        pure false)

/-- The loop over the selectors, until one of them breaks it. -/
def runSelectors (stage : PlanStage) : List PyStr → Prog (Locals hmac) Raised Unit
  | [] => pure ()
  | sel :: sels => do
    let go ← runSelector plan snapshot env stage sel
    Prog.onlyIf (go = true) (runSelectors stage sels)

end Selectors

/-! ### The loop over the stages -/

section Stages

variable (plan : TestPlan) (snapshot : SnapshotIdentity) (env : Surroundings hmac)

/-- A stage after one that has stopped the plan. -/
def Locals.skip (stage : PlanStage) (l : Locals hmac) : Locals hmac :=
  { l with
    stagesExec := l.stagesExec ++ [{
      name := stage.name
      state := .skipped
      summary := PyStr.ofString "skipped: earlier stage produced a non-PASS result" }]
    stagesAvoided := l.stagesAvoided + 1
    fullSuiteAvoided := l.fullSuiteAvoided || stage.name = "full_suite" }

/-- A stage that the gate denies. -/
def Locals.deny (stage : PlanStage) (reason : PyStr) (l : Locals hmac) : Locals hmac :=
  let summary := PyStr.ofString "resource admission denied: " ++ reason
  { l with
    log := l.log ++ [.denied stage.name]
    stagesExec := l.stagesExec ++ [{
      name := stage.name
      state := .blocked
      selectorResults := stage.selectors.map fun sel =>
        { selector := sel, classification := .resourceFailure, summary := summary }
      summary := summary }]
    verdict := .blocked
    firstFailureStage := some (l.firstFailureStage.getD stage.name)
    firstFailureClass := some (l.firstFailureClass.getD .resourceFailure)
    stop := true }

/-- A stage that the gate admits. -/
def Locals.enter (stage : PlanStage) (l : Locals hmac) : Locals hmac :=
  { l with
    log := l.log ++ [.admitted stage.name]
    selectorResults := []
    stageReused := true
    stageFailed := false
    stageBlocked := false }

/-- The end of a stage. -/
def Locals.leave (stage : PlanStage) (l : Locals hmac) : Locals hmac :=
  if l.stageFailed then
    { l with
      stagesExec := l.stagesExec ++ [{
        name := stage.name
        state := .failed
        selectorResults := l.selectorResults
        summary := PyStr.ofString "genuine test failure; later stages not executed" }]
      stop := true }
  else if l.stageBlocked then
    { l with
      stagesExec := l.stagesExec ++ [{
        name := stage.name
        state := .blocked
        selectorResults := l.selectorResults
        summary := PyStr.ofString "non-PASS terminal result; later stages not executed" }]
      stop := true }
  else
    { l with
      stagesExec := l.stagesExec ++ [{
        name := stage.name
        state := .passed
        selectorResults := l.selectorResults }]
      stagesExecuted := l.stagesExecuted + 1
      stagesReused := if l.stageReused then l.stagesReused + 1 else l.stagesReused }

/-- A round of the loop over the stages. -/
def runStage (gate : List (Event hmac) → Option ResourceAdmission) (stage : PlanStage) :
    Prog (Locals hmac) Raised Unit := do
  let l ← Prog.read id
  if l.stop then Prog.change (Locals.skip stage)
  else do
    let admission ← Prog.orRaise (gate l.log) .gate
    if admission.allowed then do
      Prog.change (Locals.enter stage)
      runSelectors plan snapshot env stage stage.selectors
      Prog.change (Locals.leave stage)
    else Prog.change (Locals.deny stage admission.reason)

def blockedNoGate : ExecutionReport where
  planHash := plan.planHash
  snapshot := snapshot
  verdict := .blocked
  stages := plan.stages.map fun st =>
    { name := st.name
      state := .blocked
      selectorResults := st.selectors.map fun sel =>
        { selector := sel
          classification := .resourceFailure
          summary := PyStr.ofString "no resource gate configured (fail-closed)" }
      summary :=
        PyStr.ofString "no resource gate configured; execution refused (fail-closed)" }
  firstFailureStage := plan.stages.head?.map PlanStage.name
  firstFailureClass := some .resourceFailure
  stagesPlanned := plan.stages.length
  authoritative := true

def checkSnapshot : Prog (Locals hmac) Raised Unit :=
  Prog.whenSome env.declaredRoot fun declared => do
    let canon := env.resolve declared
    Prog.require (snapshot.root = [] ∨ snapshot.root = canon) .otherRoot
    let computed ← Prog.orRaise (env.computeSnapshotIdentity canon) .otherSnapshot
    Prog.require (snapshot.sourceHash = computed.sourceHash ∧
      snapshot.testDefinitionHash = computed.testDefinitionHash ∧
      snapshot.configHash = computed.configHash ∧
      snapshot.executorId = computed.executorId) .otherSnapshot

def report (l : Locals hmac) : ExecutionReport where
  planHash := plan.planHash
  snapshot := snapshot
  verdict := l.verdict
  stages := l.stagesExec
  firstFailureStage := l.firstFailureStage
  firstFailureSelector := l.firstFailureSelector
  firstFailureClass := l.firstFailureClass
  stagesPlanned := plan.stages.length
  stagesExecuted := l.stagesExecuted
  stagesReused := l.stagesReused
  stagesAvoided := l.stagesAvoided
  fullSuiteAvoided := l.fullSuiteAvoided
  totalTests := l.totalTests
  authoritative := true

def executePlan (sha256 : Json → String) (key : Option κ) :
    Prog (Locals hmac) Raised ExecutionReport := do
  let key ← Prog.orRaise key .noKey
  Prog.require (validatePlan sha256 hmac plan key = true) .invalidPlan
  if plan.stages = [] then
    pure
      { planHash := plan.planHash
        snapshot := snapshot
        verdict := .blocked
        stages := []
        authoritative := true }
  else
    Prog.caseSome env.gate
      (fun gate => do
        checkSnapshot snapshot env
        Prog.forEach (runStage plan snapshot env gate) plan.stages
        Prog.read (report plan snapshot))
      (pure (blockedNoGate plan snapshot))

end Stages

/-! ### What the log says -/

section Log

variable (plan : TestPlan) (snapshot : SnapshotIdentity) (log : List (Event hmac))

/-- Nothing has stopped the plan. -/
def Calm : Prop := ∀ e ∈ log, ¬e.Stops

/-- The last event, and no other, has stopped the plan. -/
def Stopped : Prop := ∃ front e, log = front ++ [e] ∧ Calm front ∧ e.Stops

/-- A selector has passed: it has been run, or the store as it was then vouches for it. -/
def SelectorPassed (sel : PyStr) (res : SelectorResult) : Prop :=
  res.selector = sel ∧ res.classification = .testPass ∧
    ((res.reused = false ∧ ∃ outcome : RunnerOutcome, outcome.classification = .testPass ∧
        Event.ran sel outcome ∈ log) ∨
      (res.reused = true ∧ ∃ store rec, Event.reused sel store rec ∈ log ∧
        rec.evidenceHash = res.evidenceHash ∧
          store.Vouches (EvidenceStore.wanted sel snapshot plan) rec))

/-- A stage has passed: it has been admitted, and all its selectors have passed. -/
structure StagePassed (st : PlanStage) (ex : StageExecution) : Prop where
  name : ex.name = st.name
  admitted : Event.admitted st.name ∈ log
  selectors : List.Forall₂ (SelectorPassed plan snapshot log) st.selectors ex.selectorResults

variable {plan snapshot log} {log' : List (Event hmac)}

theorem SelectorPassed.mono (hsub : log ⊆ log') {sel : PyStr} {res : SelectorResult}
    (h : SelectorPassed plan snapshot log sel res) : SelectorPassed plan snapshot log' sel res := by
  obtain ⟨hsel, hpass, ⟨hrun, outcome, houtcome, hmem⟩ | ⟨hreused, store, rec, hmem, hrec⟩⟩ := h
  · exact ⟨hsel, hpass, .inl ⟨hrun, outcome, houtcome, hsub hmem⟩⟩
  · exact ⟨hsel, hpass, .inr ⟨hreused, store, rec, hsub hmem, hrec⟩⟩

theorem StagePassed.mono (hsub : log ⊆ log') {st : PlanStage} {ex : StageExecution}
    (h : StagePassed plan snapshot log st ex) : StagePassed plan snapshot log' st ex :=
  ⟨h.name, hsub h.admitted, h.selectors.imp fun _ _ hs => hs.mono hsub⟩

theorem Calm.append {e : Event hmac} (h : Calm log) (he : ¬e.Stops) : Calm (log ++ [e]) := by
  intro e' he'
  rcases List.mem_append.mp he' with hmem | hmem
  · exact h e' hmem
  · rw [List.mem_singleton.mp hmem]
    exact he

/-- **Nothing comes after what has stopped the plan.** -/
theorem eq_nil_of_stops (h : Calm log ∨ Stopped log) {before after : List (Event hmac)}
    {e : Event hmac} (hsplit : log = before ++ e :: after) (he : e.Stops) : after = [] := by
  rcases h with hcalm | ⟨front, e', rfl, hfront, -⟩
  · exact absurd he (hcalm e (by simp [hsplit]))
  · rcases List.eq_nil_or_concat after with rfl | ⟨init, last, rfl⟩
    · rfl
    · rw [List.concat_eq_append, ← List.cons_append, ← List.append_assoc] at hsplit
      have hmem : e ∈ front := by
        rw [(List.append_inj' hsplit rfl).1]
        simp
      exact absurd he (hfront e hmem)

end Log

/-! ### The invariant of the loops -/

section Invariant

variable (plan : TestPlan) (snapshot : SnapshotIdentity)

/-- Whatever way the call ends, nothing has come after what has stopped the plan. -/
def Ordered (_ : Raised) (l : Locals hmac) : Prop := Calm l.log ∨ Stopped l.log

/-- Some stages have passed, and the plan goes on. -/
structure Ongoing (done : List PlanStage) (l : Locals hmac) : Prop where
  verdict : l.verdict = .done
  going : l.stop = false
  calm : Calm l.log
  stages : List.Forall₂ (StagePassed plan snapshot l.log) done l.stagesExec

/-- The plan has been stopped. -/
structure Halted (l : Locals hmac) : Prop where
  verdict : l.verdict ≠ .done
  stopped : l.stop = true
  log : Stopped l.log
  result : ∃ ex ∈ l.stagesExec, ∃ res ∈ ex.selectorResults, res.classification ≠ .testPass

/-- Within a stage, some selectors have passed, and the stage goes on. -/
structure Within (done : List PlanStage) (st : PlanStage) (sels : List PyStr) (l : Locals hmac) :
    Prop extends Ongoing plan snapshot done l where
  admitted : Event.admitted st.name ∈ l.log
  flags : l.stageFailed = false ∧ l.stageBlocked = false
  selectors : List.Forall₂ (SelectorPassed plan snapshot l.log) sels l.selectorResults

/-- Within a stage, a selector has not passed. -/
structure Broken (l : Locals hmac) : Prop where
  verdict : l.verdict ≠ .done
  flags : l.stageFailed = true ∨ l.stageBlocked = true
  log : Stopped l.log
  result : ∃ res ∈ l.selectorResults, res.classification ≠ .testPass

variable {plan snapshot} {env : Surroundings hmac} {done : List PlanStage} {st : PlanStage}
  {sels : List PyStr} {sel : PyStr} {l : Locals hmac}

/-- Adding evidence changes the store only. -/
theorem triple_addEvidence {P : Locals hmac → Prop} {E : Raised → Locals hmac → Prop}
    {outcome : RunnerOutcome} (hP : ∀ l store, P l → P { l with store })
    (hE : ∀ e l, P l → E e l) :
    Prog.Triple P (addEvidence plan snapshot env sel outcome) (fun _ => P) E := by
  refine Prog.triple_read_bind fun l => ?_
  refine Prog.triple_whenSome (fun store _ => ?_) fun _ s hs => hs.1
  refine Prog.Triple.bind (Q := fun _ => P) (Prog.triple_orRaise (fun s _ hs _ => hs.1)
    fun s hs _ => hE _ s hs.1) fun added => ?_
  refine Prog.Triple.bind (Q := fun _ => P) (Prog.triple_change fun s hs => hP s _ hs) fun _ => ?_
  refine Prog.triple_onlyIf (fun _ => ?_) fun _ s hs => hs
  refine Prog.Triple.bind (Q := fun _ => P) (Prog.triple_require (fun s hs _ => hs)
    fun s hs _ => hE _ s hs) fun _ => ?_
  exact Prog.triple_change fun s hs => hP s _ hs

theorem Within.reuse (h : Within plan snapshot done st sels l)
    {found : EvidenceStore hmac × EvidenceRecord}
    (hfound : l.reusable plan snapshot sel = some found) :
    Within plan snapshot done st (sels ++ [sel]) (l.reuse sel found.1 found.2) := by
  have hsub : l.log ⊆ l.log ++ [.reused sel found.1 found.2] := List.subset_append_left _ _
  have hvouches : found.1.Vouches (EvidenceStore.wanted sel snapshot plan) found.2 := by
    obtain ⟨store, -, hmap⟩ := Option.bind_eq_some_iff.mp hfound
    obtain ⟨rec, hrec, rfl⟩ := Option.map_eq_some_iff.mp hmap
    exact EvidenceStore.vouches_of_findReusablePass hrec
  refine ⟨⟨h.verdict, h.going, h.calm.append id, ?_⟩, hsub h.admitted, h.flags, ?_⟩
  · exact h.stages.imp fun _ _ hs => hs.mono hsub
  · refine List.rel_append (h.selectors.imp fun _ _ hs => hs.mono hsub) (.cons ?_ .nil)
    exact ⟨rfl, rfl, .inr ⟨rfl, _, _, List.mem_append_right _ (List.mem_singleton_self _), rfl,
      hvouches⟩⟩

/-- A selector that has been run and has passed. -/
theorem Within.ran (h : Within plan snapshot done st sels l) {outcome : RunnerOutcome}
    (hpass : outcome.classification = .testPass) :
    Within plan snapshot done st (sels ++ [sel]) (l.ran sel outcome) := by
  have hsub : l.log ⊆ l.log ++ [.ran sel outcome] := List.subset_append_left _ _
  refine ⟨⟨h.verdict, h.going, h.calm.append (not_not.mpr hpass), ?_⟩, hsub h.admitted, h.flags,
    ?_⟩
  · exact h.stages.imp fun _ _ hs => hs.mono hsub
  · refine List.rel_append (h.selectors.imp fun _ _ hs => hs.mono hsub) (.cons ?_ .nil)
    exact ⟨rfl, hpass, .inl ⟨rfl, outcome, hpass,
      List.mem_append_right _ (List.mem_singleton_self _)⟩⟩

theorem triple_runSelector : Prog.Triple (Within plan snapshot done st sels)
    (runSelector plan snapshot env st sel)
    (fun go l => if go = true then Within plan snapshot done st (sels ++ [sel]) l else Broken l)
    Ordered := by
  refine Prog.triple_read_bind fun l => Prog.triple_caseSome (fun found hfound => ?_) fun _ => ?_
  · refine Prog.Triple.bind (Q := fun _ => Within plan snapshot done st (sels ++ [sel]))
      (Prog.triple_change fun s hs => ?_) fun _ => Prog.triple_pure fun s hs => hs
    obtain ⟨hs, rfl⟩ := hs
    exact hs.reuse hfound
  · refine Prog.Triple.bind (Q := fun _ => Within plan snapshot done st sels)
      (Prog.triple_orRaise (fun s _ hs _ => hs.1) fun s hs _ => .inl hs.1.calm) fun outcome => ?_
    by_cases hpass : outcome.classification = .testPass
    · refine Prog.Triple.bind (Q := fun _ => Within plan snapshot done st (sels ++ [sel]))
        (Prog.triple_change fun s hs => hs.ran hpass) fun _ => ?_
      refine Prog.Triple.bind (triple_addEvidence (fun l store hs =>
        ⟨⟨hs.verdict, hs.going, hs.calm, hs.stages⟩, hs.admitted, hs.flags, hs.selectors⟩)
        fun e l hs => .inl hs.calm) fun _ => ?_
      rw [if_pos hpass]
      refine Prog.Triple.bind (Q := fun _ => Within plan snapshot done st (sels ++ [sel]))
        (Prog.triple_change fun l hs => ?_) fun _ => Prog.triple_pure fun s hs => hs
      exact ⟨⟨hs.verdict, hs.going, hs.calm, hs.stages⟩, hs.admitted, hs.flags, hs.selectors⟩
    · -- the event that stops the plan is written before the evidence is added
      refine Prog.Triple.bind (Q := fun _ l => Stopped l.log ∧
        ∃ res ∈ l.selectorResults, res.classification ≠ .testPass)
        (Prog.triple_change fun s hs => ⟨⟨s.log, .ran sel outcome, rfl, hs.calm, hpass⟩, _,
          List.mem_append_right _ (List.mem_singleton_self _), hpass⟩) fun _ => ?_
      refine Prog.Triple.bind (triple_addEvidence (fun l store hs => hs)
        fun e l hs => .inr hs.1) fun _ => ?_
      rw [if_neg hpass]
      refine Prog.Triple.bind (Q := fun _ => Broken) (Prog.triple_change fun l hs => ?_)
        fun _ => Prog.triple_pure fun s hs => hs
      refine ⟨?_, ?_, hs.1, hs.2⟩
      · by_cases hfail : outcome.classification = .testFailure <;> simp [Locals.fail, hfail]
      · by_cases hfail : outcome.classification = .testFailure <;> simp [Locals.fail, hfail]

theorem triple_runSelectors (todo : List PyStr) (sels : List PyStr) :
    Prog.Triple (Within plan snapshot done st sels) (runSelectors plan snapshot env st todo)
      (fun _ l => Within plan snapshot done st (sels ++ todo) l ∨ Broken l) Ordered := by
  induction todo generalizing sels with
  | nil => exact Prog.triple_pure fun s hs => .inl (by rwa [List.append_nil])
  | cons sel todo ih =>
    refine Prog.Triple.bind triple_runSelector fun go => ?_
    refine Prog.triple_onlyIf (fun hgo => ?_) fun hgo s hs => .inr (by rwa [if_neg hgo] at hs)
    have hnext := ih (sels ++ [sel])
    rw [List.append_assoc] at hnext
    exact hnext.pre fun s hs => by rwa [if_pos hgo] at hs

theorem Within.leave (h : Within plan snapshot done st st.selectors l) :
    Ongoing plan snapshot (done ++ [st]) (l.leave st) := by
  rw [Locals.leave, if_neg (by simp [h.flags.1]), if_neg (by simp [h.flags.2])]
  refine ⟨h.verdict, h.going, h.calm, ?_⟩
  exact List.rel_append h.stages (.cons ⟨rfl, h.admitted, h.selectors⟩ .nil)

theorem Broken.leave (h : Broken l) : Halted (l.leave st) := by
  unfold Locals.leave
  split
  · exact ⟨h.verdict, rfl, h.log, _, List.mem_append_right _ (List.mem_singleton_self _), h.result⟩
  next hfailed =>
    rw [if_pos (h.flags.resolve_left hfailed)]
    exact ⟨h.verdict, rfl, h.log, _, List.mem_append_right _ (List.mem_singleton_self _), h.result⟩

theorem Ongoing.deny (h : Ongoing plan snapshot done l) (hst : st.selectors ≠ []) {reason : PyStr} :
    Halted (l.deny st reason) := by
  obtain ⟨sel, hsel⟩ := List.exists_mem_of_ne_nil _ hst
  refine ⟨nofun, rfl, ⟨l.log, .denied st.name, rfl, h.calm, trivial⟩, _,
    List.mem_append_right _ (List.mem_singleton_self _), _, List.mem_map_of_mem hsel, nofun⟩

theorem Ongoing.enter (h : Ongoing plan snapshot done l) :
    Within plan snapshot done st [] (l.enter st) := by
  have hsub : l.log ⊆ l.log ++ [.admitted st.name] := List.subset_append_left _ _
  refine ⟨⟨h.verdict, h.going, h.calm.append id, ?_⟩, List.mem_append_right _ (by simp), ⟨rfl, rfl⟩,
    .nil⟩
  exact h.stages.imp fun _ _ hs => hs.mono hsub

/-- **A round of the loop over the stages.** -/
theorem triple_runStage {gate : List (Event hmac) → Option ResourceAdmission}
    (hst : st.selectors ≠ []) :
    Prog.Triple (fun l => Ongoing plan snapshot done l ∨ Halted l)
      (runStage plan snapshot env gate st)
      (fun _ l => Ongoing plan snapshot (done ++ [st]) l ∨ Halted l) Ordered := by
  refine Prog.triple_read_bind fun l => Prog.triple_ite (fun hstop => ?_) fun hgo => ?_
  · refine Prog.triple_change fun s hs => .inr ?_
    obtain ⟨hs | hs, rfl⟩ := hs
    · exact absurd hstop (by simp [hs.going])
    · obtain ⟨ex, hex, hres⟩ := hs.result
      exact ⟨hs.verdict, hs.stopped, hs.log, ex, List.mem_append_left _ hex, hres⟩
  · have hongoing : ∀ s : Locals hmac,
        (Ongoing plan snapshot done s ∨ Halted s) ∧ id s = l → Ongoing plan snapshot done s := by
      rintro s ⟨hs | hs, rfl⟩
      · exact hs
      · exact absurd hs.stopped hgo
    refine Prog.Triple.bind (Q := fun _ => Ongoing plan snapshot done)
      (Prog.triple_orRaise (fun s _ hs _ => hongoing s hs)
        fun s hs _ => .inl (hongoing s hs).calm) fun admission => ?_
    refine Prog.triple_ite (fun _ => ?_) fun _ =>
      Prog.triple_change fun s hs => .inr (hs.deny hst)
    refine Prog.Triple.bind (Q := fun _ => Within plan snapshot done st [])
      (Prog.triple_change fun s hs => hs.enter) fun _ => ?_
    refine Prog.Triple.bind (triple_runSelectors st.selectors []) fun _ => ?_
    refine Prog.triple_change fun s hs => ?_
    rcases hs with hs | hs
    · exact .inl hs.leave
    · exact .inr hs.leave

/-- **The loop over the stages.** -/
theorem triple_runStages {gate : List (Event hmac) → Option ResourceAdmission}
    (hplan : ∀ st ∈ plan.stages, st.selectors ≠ []) :
    Prog.Triple (Ongoing plan snapshot []) (Prog.forEach
      (runStage plan snapshot env gate) plan.stages)
      (fun _ l => Ongoing plan snapshot plan.stages l ∨ Halted l) Ordered := by
  refine Prog.Triple.pre (Prog.triple_forEach
    (I := fun done l => Ongoing plan snapshot done l ∨ Halted l) fun done st todo hsplit => ?_)
    fun s hs => .inl hs
  exact triple_runStage (hplan st (by simp [hsplit]))

end Invariant

/-! ### The verdict -/

section Verdict

variable {plan : TestPlan} {snapshot : SnapshotIdentity} {env : Surroundings hmac}
  {sha256 : Json → String} {l : Locals hmac}

theorem selectors_ne_nil {key : κ} (h : validatePlan sha256 hmac plan key) :
    ∀ st ∈ plan.stages, st.selectors ≠ [] := by
  simp only [validatePlan, Bool.and_eq_true, List.all_eq_true, decide_eq_true_eq] at h
  exact fun st hst => (h.1.2 st hst).1.1

def Locals.start (store : Option (EvidenceStore hmac)) : Locals hmac := { store }

/-- What the verdict of a report says. -/
def Judged (plan : TestPlan) (snapshot : SnapshotIdentity) (rep : ExecutionReport)
    (l : Locals hmac) : Prop :=
  rep.verdict = .done ↔
    plan.stages ≠ [] ∧ List.Forall₂ (StagePassed plan snapshot l.log) plan.stages rep.stages

theorem exists_left_of_forall₂ {α β : Type} {R : α → β → Prop} {xs : List α} {ys : List β}
    (h : List.Forall₂ R xs ys) {y : β} (hy : y ∈ ys) : ∃ x ∈ xs, R x y := by
  induction h with
  | nil => cases hy
  | cons hrel _ ih =>
    rcases List.mem_cons.mp hy with rfl | hmem
    · exact ⟨_, List.mem_cons_self, hrel⟩
    · obtain ⟨x, hx, hR⟩ := ih hmem
      exact ⟨x, List.mem_cons_of_mem _ hx, hR⟩

theorem pass_of_forall₂ {log : List (Event hmac)} {sts : List PlanStage}
    {exs : List StageExecution} (h : List.Forall₂ (StagePassed plan snapshot log) sts exs)
    {ex : StageExecution} (hex : ex ∈ exs) {res : SelectorResult}
    (hres : res ∈ ex.selectorResults) :
    res.classification = .testPass := by
  obtain ⟨st, -, hst⟩ := exists_left_of_forall₂ h hex
  obtain ⟨sel, -, hsel⟩ := exists_left_of_forall₂ hst.selectors hres
  exact hsel.2.1

theorem Ongoing.judged (h : Ongoing plan snapshot plan.stages l)
    (hne : plan.stages ≠ []) : Judged plan snapshot (report plan snapshot l) l :=
  iff_of_true h.verdict ⟨hne, h.stages⟩

theorem Halted.judged (h : Halted l) :
    Judged plan snapshot (report plan snapshot l) l := by
  refine iff_of_false h.verdict fun hpassed => ?_
  obtain ⟨ex, hex, res, hres, hfail⟩ := h.result
  exact hfail (pass_of_forall₂ hpassed.2 hex hres)

theorem judged_blockedNoGate (hlog : l.log = []) :
    Judged plan snapshot (blockedNoGate plan snapshot) l := by
  refine iff_of_false nofun fun ⟨hne, hpassed⟩ => ?_
  obtain ⟨st, hst⟩ := List.exists_mem_of_ne_nil _ hne
  obtain ⟨ex, hex, hrel⟩ : ∃ ex ∈ (blockedNoGate plan snapshot).stages,
      StagePassed plan snapshot l.log st ex := exists_left_of_forall₂ hpassed.flip hst
  have hadmitted := hrel.admitted
  rw [hlog] at hadmitted
  cases hadmitted

theorem triple_checkSnapshot {P : Locals hmac → Prop} {E : Raised → Locals hmac → Prop}
    (hE : ∀ e l, P l → E e l) : Prog.Triple P (checkSnapshot snapshot env) (fun _ => P) E := by
  refine Prog.triple_whenSome (fun declared _ => ?_) fun _ s hs => hs
  refine Prog.Triple.bind (Q := fun _ => P)
    (Prog.triple_require (fun s hs _ => hs) fun s hs _ => hE _ s hs) fun _ => ?_
  refine Prog.Triple.bind (Q := fun _ => P)
    (Prog.triple_orRaise (fun s _ hs _ => hs) fun s hs _ => hE _ s hs) fun computed => ?_
  exact Prog.triple_require (fun s hs _ => hs) fun s hs _ => hE _ s hs

/-- **What a call reports and what it has done.** -/
theorem triple_executePlan {key : Option κ} {store : Option (EvidenceStore hmac)} :
    Prog.Triple (fun l => l = Locals.start store) (executePlan plan snapshot env sha256 key)
      (fun rep l => Judged plan snapshot rep l ∧ (Calm l.log ∨ Stopped l.log)) Ordered := by
  have hcalm : ∀ l : Locals hmac, l = Locals.start store → Calm l.log := by
    rintro l rfl
    exact nofun
  refine Prog.Triple.bind (Q := fun _ l => l = Locals.start store)
    (Prog.triple_orRaise (fun s _ hs _ => hs) fun s hs _ => .inl (hcalm s hs)) fun key => ?_
  refine Prog.Triple.bind (Q := fun _ l => l = Locals.start store ∧
      validatePlan sha256 hmac plan key = true)
    (Prog.triple_require (fun s hs hvalid => ⟨hs, hvalid⟩) fun s hs _ => .inl (hcalm s hs))
    fun _ => Prog.triple_of_fact fun hvalid => ?_
  refine Prog.triple_ite (fun hnil => Prog.triple_pure fun l hl => ?_) fun hne => ?_
  · exact ⟨iff_of_false nofun fun h => h.1 hnil, .inl (hcalm l hl)⟩
  refine Prog.triple_caseSome (fun gate _ => ?_) fun _ => Prog.triple_pure fun l hl => ?_
  · refine Prog.Triple.bind (triple_checkSnapshot fun e l hl => .inl (hcalm l hl)) fun _ => ?_
    refine Prog.Triple.bind ((triple_runStages (selectors_ne_nil hvalid)).pre fun l hl => ?_)
      fun _ => ?_
    · exact hl ▸ ⟨rfl, rfl, nofun, .nil⟩
    · intro l hl
      refine ⟨fun rep l' hr => ?_, fun e l' hr => absurd hr Prog.not_raises_read⟩
      obtain ⟨rfl, rfl⟩ := Prog.returns_read.mp hr
      rcases hl with hl | hl
      · exact ⟨hl.judged hne, .inl hl.calm⟩
      · exact ⟨hl.judged, .inr hl.log⟩
  · refine ⟨judged_blockedNoGate ?_, .inl (hcalm l hl)⟩
    rw [hl, Locals.start]

/-- **DONE means that every selector has passed**: that is what the verdict of a report says,
whatever the gate, the runner and the store do, and nothing comes after a result that is not a
pass, or a stage that is denied, however the call ends. -/
theorem done_iff_passed (plan : TestPlan) (snapshot : SnapshotIdentity) (env : Surroundings hmac)
    (sha256 : Json → String) (key : Option κ) (store : Option (EvidenceStore hmac)) :
    (∀ rep l, (executePlan plan snapshot env sha256 key).Returns (Locals.start store) rep l →
      (rep.verdict = .done ↔ plan.stages ≠ [] ∧
        List.Forall₂ (StagePassed plan snapshot l.log) plan.stages rep.stages)) ∧
      ∀ before e after, e.Stops →
        (executePlan plan snapshot env sha256 key (Locals.start store)).2.log =
          before ++ e :: after → after = [] := by
  have htriple : Prog.Triple (fun l => l = Locals.start store)
      (executePlan plan snapshot env sha256 key)
      (fun rep l => Judged plan snapshot rep l ∧ (Calm l.log ∨ Stopped l.log)) Ordered :=
    triple_executePlan
  refine ⟨fun rep l hr => (htriple.of_returns rfl hr).1, fun before e after he hsplit => ?_⟩
  refine eq_nil_of_stops ?_ hsplit he
  rcases Prog.returns_or_raises (executePlan plan snapshot env sha256 key) (Locals.start store)
    with ⟨rep, l, hr⟩ | ⟨e', l, hr⟩
  · rw [hr.snd_eq]
    exact (htriple.of_returns rfl hr).2
  · rw [hr.snd_eq]
    exact htriple.of_raises rfl hr

/-! ### A small plan -/

section Small

/-- A plan of one stage with two selectors. -/
def smallPlan : TestPlan where
  riskLevel := .low
  documentationOnly := false
  fullSuiteRequired := false
  stages := [⟨"targeted", [[.scalar 'a'], [.scalar 'b']], [], []⟩]
  policyVersion := []
  policyHash := ""
  inventoryVersion := []
  inventoryHash := ""
  changeSetHash := ""
  escalationReasons := []
  planHash := "5a"
  planMac := "e1"

/-- A snapshot without a root. -/
def smallSnapshot : SnapshotIdentity :=
  ⟨[.scalar 's'], [.scalar 't'], [.scalar 'x'], [], [], by decide⟩

/-- A hash, and a MAC. -/
def smallMac (_ : Unit) (_ : Json) : String := "e1"

/-- A gate that admits all stages and a runner that passes all selectors. -/
def smallSurroundings : Surroundings smallMac where
  gate := some fun _ => some { allowed := true }
  runner := fun _ _ => some { classification := .testPass, testCount := 1 }
  now := fun _ => []
  onDisk := fun _ => some 0
  replaces := fun _ => true
  declaredRoot := none
  resolve := id
  computeSnapshotIdentity := fun _ => none

def smallCall : Prog (Locals smallMac) Raised ExecutionReport :=
  executePlan smallPlan smallSnapshot smallSurroundings (fun _ => "5a") (some ())

/-- The variables before it: a store without a file. -/
def smallStart : Locals smallMac := .start (some (.fresh smallMac false 1 () (by decide)))

/-- The small plan is DONE, and so its stage has passed. -/
theorem done_small : ∃ rep l, smallCall.Returns smallStart rep l ∧
    List.Forall₂ (StagePassed smallPlan smallSnapshot l.log) smallPlan.stages rep.stages := by
  have hverdict : (smallCall smallStart).1.map ExecutionReport.verdict = .ok .done := by
    decide
  rcases hrun : (smallCall smallStart).1 with e | rep
  · rw [hrun] at hverdict
    cases hverdict
  · rw [hrun] at hverdict
    have hreturns := Prog.returns_of_fst hrun
    have hdone : rep.verdict = .done := Except.ok.inj hverdict
    exact ⟨rep, _, hreturns, (((done_iff_passed smallPlan smallSnapshot smallSurroundings
      (fun _ => "5a") (some ()) _).1 rep _ hreturns).mp hdone).2⟩

end Small

end Verdict

end Execution

end ArgentTeam
