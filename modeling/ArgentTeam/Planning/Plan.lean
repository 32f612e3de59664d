import ArgentTeam.Planning.Inventory

/-!
# Plans that are built can be executed

The planner collects selectors, each for a stage and with a reason, and puts a selector into the
stage it was collected for first. The executor refuses a plan that was tampered with, whose
stages are out of order or hold nothing, or that lacks the stage of the full suite although it
says that the full suite is required.

Two lists of conditions speak of the full suite, the conditions of the policy and the obligations
that come with a module or with what is unknown, and only the first sets the flag of the plan;
and a selector that was collected for an earlier stage never reaches the last one.
`executable_iff` says that nothing else is wrong: a plan is executable exactly if the selector of
the full suite is not asked for earlier where the flag is set, and not asked for at all where it
is not (`FullSuiteFits`).
-/

namespace ArgentTeam

namespace Planning

/-! ### What has changed -/

structure ChangeEvidence where
  changedPaths : List PyStr
  baseRef : Option PyStr := none
  schemaMigration : Bool := false
  phaseClosing : Bool := false
  securityReviewed : Bool := false
  riskClass : Option PyStr := none

structure ChangeImpact where
  /-- `subsystems`, in the order of their texts. -/
  subsystems : List Subsystem
  riskTags : List RiskTag
  changedModules : List PyStr
  unknownPaths : List PyStr
  riskLevel : RiskLevel
  schemaMigration : Bool
  testInfrastructure : Bool
  multipleSubsystems : Bool
  documentationOnly : Bool

/-- `sorted`, of texts. -/
def sorted (xs : List PyStr) : List PyStr := xs.insertionSort fun a b => PyStr.le a b

/-- What the loop over the changed paths has collected. -/
structure Touched where
  subsystems : List Subsystem := []
  tags : List RiskTag := []
  changedModules : List PyStr := []
  unknown : List PyStr := []
  testInfra : Bool := false
  docPaths : ℕ := 0

variable (inventory : TestInventory) (policy : TestPolicy)

/-- One round of that loop. -/
def Touched.touch (t : Touched) (p : PyStr) : Touched :=
  if inventory.isTestInfraPath p then
    { t with
      testInfra := true
      subsystems := t.subsystems ++ [.testInfra]
      tags := t.tags ++ (lookup policy.subsystemRiskTags .testInfra).getD [] }
  else if isDocumentationPath p then
    { t with subsystems := t.subsystems ++ [.documentation], docPaths := t.docPaths + 1 }
  else
    match inventory.subsystemForPath p with
    | none => { t with unknown := t.unknown ++ [p] }
    | some sub =>
      { t with
        subsystems := t.subsystems ++ [sub]
        tags := t.tags ++ (lookup policy.subsystemRiskTags sub).getD [] ++ policy.overrideFor p
        changedModules := t.changedModules ++ [p] }

def classLevel (riskClass : Option PyStr) : RiskLevel :=
  match riskClass with
  | none => .low
  | some c => (named [RiskLevel.high, .critical, .medium] RiskLevel.value c.strip.upper).getD .low

/-- `derive_change_impact`, of changed paths that are given. -/
def deriveChangeImpact (evidence : ChangeEvidence) : ChangeImpact :=
  let norm := evidence.changedPaths.map normalizePath
  let t := norm.foldl (Touched.touch inventory policy) {}
  let migration := evidence.schemaMigration || t.subsystems.elem .persistence
  let substantive := Subsystem.all.filter fun s =>
    t.subsystems.elem s && s ≠ .documentation && s ≠ .testInfra
  let multiple := 2 ≤ substantive.length
  let tagged : RiskLevel :=
    t.tags.foldl (fun risk tag => risk.maxRisk (policy.riskLevelForTag tag)) .low
  let risk := tagged.maxRisk (if migration then .critical else .low)
    |>.maxRisk (if t.unknown ≠ [] then .medium else .low)
    |>.maxRisk (classLevel evidence.riskClass)
    |>.maxRisk (if multiple then .high else .low)
  { subsystems := Subsystem.all.filter t.subsystems.elem
    riskTags := RiskTag.all.filter t.tags.elem
    changedModules := sorted t.changedModules
    unknownPaths := sorted t.unknown
    riskLevel := risk
    schemaMigration := migration
    testInfrastructure := t.testInfra
    multipleSubsystems := multiple
    documentationOnly := t.docPaths = norm.length && 0 < t.docPaths }

/-! ### Whether the full suite is required -/

/-- The conditions of `_full_suite_required`, with what makes each true and its reason. -/
def fullSuiteChecks (evidence : ChangeEvidence) (impact : ChangeImpact) :
    List (FullSuiteCondition × Bool × String) :=
  [(.phaseClosing, evidence.phaseClosing, "phase closing workflow"),
    (.riskCritical, impact.riskLevel = .critical, "risk CRITICAL"),
    (.riskHigh, impact.riskLevel = .high, "risk HIGH"),
    (.testInfrastructureChange, impact.testInfrastructure, "test infrastructure modified"),
    (.schemaMigration, impact.schemaMigration, "schema/migration change"),
    (.multipleSubsystems, impact.multipleSubsystems, "multiple subsystems changed"),
    (.testPlanUncertainty, impact.unknownPaths ≠ [],
      "unknown changed path(s) -> conservative breadth"),
    (.plannerMetadataUncertainty, false, "planner metadata uncertainty"),
    (.securityReviewedPatch, evidence.securityReviewed,
      "independently reviewed security-sensitive patch")]

/-- The reasons of `_full_suite_required`. -/
def fullSuiteReasons (evidence : ChangeEvidence) (impact : ChangeImpact) : List String :=
  ((fullSuiteChecks evidence impact).filter fun c =>
    policy.fullSuiteRequiredWhen.elem c.1 && c.2.1).map (fun c => c.2.2) ++
    (impact.subsystems.filter fun sub =>
      (lookup policy.hardInvariants sub).any HardInvariant.fullSuite).map fun sub =>
      "hard invariant " ++ sub.value ++ " requires full suite"

/-- The flag of `_full_suite_required`. -/
def fullSuiteRequired (evidence : ChangeEvidence) (impact : ChangeImpact) : Bool :=
  fullSuiteReasons policy evidence impact ≠ []

/-! ### What is collected -/

/-- A call of `add`. -/
structure Entry where
  stage : String
  sel : Selector
  reason : PyStr
  mandatory : Bool := false

/-- The selectors of the regressions an obligation requires, and the full suite if it requires
it. -/
def obliged (ob : HardInvariant) (reason : Selector → PyStr) (fullReason : PyStr) : List Entry :=
  (ob.requiredRegression.map fun sel => ⟨"phase_regression", sel, reason sel, true⟩) ++
    if ob.fullSuite then [⟨"full_suite", inventory.fullSuiteSelector, fullReason, true⟩] else []

section Collected

variable (impact : ChangeImpact)

def testedSubsystems : List Subsystem := impact.subsystems.filter (· ≠ .documentation)

/-- The tests of the changed modules. -/
def targetedEntries : List Entry :=
  impact.changedModules.flatMap fun mod =>
    (inventory.targetedFor mod).map fun sel =>
      ⟨"targeted", sel, PyStr.ofString "directly targets changed module " ++ mod, false⟩

/-- The tests of the subsystems. -/
def moduleEntries : List Entry :=
  (testedSubsystems impact).flatMap fun sub =>
    (inventory.moduleSelectors sub).map fun sel =>
      ⟨"module", sel, PyStr.ofString ("module regression for subsystem " ++ sub.value), false⟩

/-- The tests of the phase of a subsystem, and the regressions that it requires. -/
def phaseEntriesOf (sub : Subsystem) : List Entry :=
  let inv := lookup policy.hardInvariants sub
  (if impact.riskLevel ≠ .low ∨ inv.isSome then
    (inventory.phaseSelectors sub).map fun sel =>
      ⟨"phase_regression", sel, PyStr.ofString ("phase regression for subsystem " ++ sub.value ++
        (if inv.isSome then " (HARD INVARIANT)" else "")), false⟩
  else []) ++
    ((inv.map HardInvariant.requiredRegression).getD []).map fun sel =>
      ⟨"phase_regression", sel,
        PyStr.ofString ("HARD INVARIANT " ++ sub.value ++ ": ") ++ sel.text, true⟩

/-- The tests of the phases, and the regressions that the subsystems require. -/
def phaseEntries : List Entry :=
  (testedSubsystems impact).flatMap (phaseEntriesOf inventory policy impact)

/-- What a changed module requires. -/
def obligedByModule (mod : PyStr) : List Entry :=
  match policy.moduleInvariant mod with
  | none => []
  | some mhi =>
    obliged inventory mhi
      (fun sel => PyStr.ofString "MODULE HARD INVARIANT " ++ mod ++ PyStr.ofString ": " ++ sel.text)
      (PyStr.ofString "module hard invariant " ++ mod ++ PyStr.ofString " requires full suite")

/-- What the changed modules require. -/
def moduleInvariantEntries : List Entry :=
  impact.changedModules.flatMap (obligedByModule inventory policy)

/-- What unknown paths require. -/
def unknownEntries : List Entry :=
  if impact.unknownPaths ≠ [] then
    obliged inventory policy.unknownHandling.toHardInvariant
      (fun _ => PyStr.ofString "UNKNOWN path -> conservative broaden")
      (PyStr.ofString "UNKNOWN path -> full suite")
  else []

/-- What a change of the test infrastructure requires. -/
def testInfraEntries : List Entry :=
  if impact.testInfrastructure then
    obliged inventory policy.testInfraHandling.toHardInvariant
      (fun _ => PyStr.ofString "test infrastructure modified -> broad regression")
      (PyStr.ofString "test infrastructure modified -> full suite")
  else []

def policyEntries (evidence : ChangeEvidence) : List Entry :=
  if fullSuiteRequired policy evidence impact then
    [⟨"full_suite", inventory.fullSuiteSelector,
      PyStr.ofString "full suite required by policy", true⟩]
  else []

/-- The calls of `add`, in order. -/
def entries (evidence : ChangeEvidence) : List Entry :=
  targetedEntries inventory impact ++ moduleEntries inventory impact ++
    phaseEntries inventory policy impact ++ moduleInvariantEntries inventory policy impact ++
    unknownEntries inventory policy impact ++ testInfraEntries inventory policy impact ++
    policyEntries inventory policy impact evidence

end Collected

/-- What `add` writes to. -/
structure Collected where
  reasonsBySel : List (Selector × List PyStr) := []
  mandatorySels : List Selector := []
  stageOfSel : List (Selector × String) := []

namespace Collected

variable (b : Collected)

/-- The reasons after another one. -/
def withReason (sel : Selector) (reason : PyStr) : List (Selector × List PyStr) :=
  match lookup b.reasonsBySel sel with
  | none => b.reasonsBySel ++ [(sel, [reason])]
  | some _ => b.reasonsBySel.map fun e =>
    if e.1 = sel ∧ reason ∉ e.2 then (e.1, e.2 ++ [reason]) else e

def add (e : Entry) : Collected where
  reasonsBySel := b.withReason e.sel e.reason
  mandatorySels :=
    if e.mandatory ∧ e.sel ∉ b.mandatorySels then b.mandatorySels ++ [e.sel] else b.mandatorySels
  stageOfSel :=
    if (lookup b.stageOfSel e.sel).isSome then b.stageOfSel
    else b.stageOfSel ++ [(e.sel, e.stage)]

end Collected

/-! ### The plan -/

structure PlanStage where
  name : String
  selectors : List PyStr
  reasons : List (PyStr × List PyStr)
  mandatory : List PyStr

structure TestPlan where
  riskLevel : RiskLevel
  documentationOnly : Bool
  fullSuiteRequired : Bool
  stages : List PlanStage
  policyVersion : PyStr
  policyHash : String
  inventoryVersion : PyStr
  inventoryHash : String
  changeSetHash : String
  escalationReasons : List String
  planHash : String := ""
  planMac : String := ""

namespace TestPlan

variable (plan : TestPlan)

def mandatorySelectors : List PyStr := plan.stages.flatMap PlanStage.mandatory

/-- `plan_content_payload`. -/
def contentPayload : Json :=
  let texts (xs : List PyStr) : Json := .arr (xs.map .str)
  .dict
    [("risk", .text plan.riskLevel.value),
      ("full_suite_required", .bool plan.fullSuiteRequired),
      ("stages", .arr (plan.stages.map fun st => .dict
        [("name", .text st.name),
          ("selectors", texts st.selectors),
          ("reasons", .obj (st.reasons.map fun r => (r.1, texts r.2))),
          ("mandatory", texts st.mandatory)])),
      ("policy_hash", .text plan.policyHash),
      ("inventory_hash", .text plan.inventoryHash),
      ("change_set_hash", .text plan.changeSetHash)]

/-- `recompute_plan_hash`. -/
def recomputeHash (sha256 : Json → String) : String := sha256 plan.contentPayload

/-- `compute_plan_mac`. -/
def computeMac {κ : Type} (hmac : κ → Json → String) (key : κ) : String :=
  hmac key (.dict [("plan_hash", .text plan.planHash), ("content", plan.contentPayload)])

end TestPlan

def canonicalStageOrder : List String := ["targeted", "module", "phase_regression", "full_suite"]

/-- A stage of the plan; `none` if nothing was collected for it first. -/
def Collected.stage (b : Collected) (name : String) : Option PlanStage :=
  let sels := sorted ((b.stageOfSel.filter fun e => e.2 = name).map fun e => e.1.text)
  if sels = [] then none
  else
    some
      { name := name
        selectors := sels
        reasons := sels.map fun s =>
          (s, sorted (((b.reasonsBySel.find? fun r => r.1.text = s).map Prod.snd).getD []))
        mandatory := sorted ((b.mandatorySels.map Selector.text).filter fun m => m ∈ sels) }

/-- What the hash of a change set is taken of. -/
def changeSet (evidence : ChangeEvidence) : Json :=
  let optional : Option PyStr → Json := fun s => (s.map Json.str).getD .null
  .dict
    [("changed_paths", .arr ((sorted (evidence.changedPaths.map normalizePath)).map .str)),
      ("base_ref", optional evidence.baseRef),
      ("schema_migration", .bool evidence.schemaMigration),
      ("phase_closing", .bool evidence.phaseClosing),
      ("security_reviewed", .bool evidence.securityReviewed),
      ("risk_class", optional evidence.riskClass)]

/-- `sorted(set(..))`, of reasons. -/
def sortedReasons (reasons : List String) : List String :=
  reasons.dedup.insertionSort fun a b => PyStr.le (PyStr.ofString a) (PyStr.ofString b)

/-- A plan with its hash and its MAC. -/
def TestPlan.signed {κ : Type} (sha256 : Json → String) (hmac : κ → Json → String) (key : κ)
    (plan : TestPlan) : TestPlan :=
  let hashed := { plan with planHash := plan.recomputeHash sha256 }
  { hashed with planMac := hashed.computeMac hmac key }

/-- The plan of `build_test_plan`, without its hash and its MAC. -/
def draftPlan (sha256 : Json → String) (evidence : ChangeEvidence) (impact : ChangeImpact) :
    TestPlan where
  riskLevel := impact.riskLevel
  documentationOnly := impact.documentationOnly
  fullSuiteRequired := fullSuiteRequired policy evidence impact
  stages := canonicalStageOrder.filterMap
    ((entries inventory policy impact evidence).foldl Collected.add {}).stage
  policyVersion := policy.version
  policyHash := policy.contentHash
  inventoryVersion := inventory.version
  inventoryHash := inventory.contentHash
  changeSetHash := sha256 (changeSet evidence)
  escalationReasons := sortedReasons (fullSuiteReasons policy evidence impact ++
    (if impact.unknownPaths ≠ [] then ["unknown path(s) escalated"] else []) ++
    if impact.testInfrastructure then ["test infrastructure escalated"] else [])

/-- `build_test_plan`, with a key; `none` where it raises. -/
def buildTestPlan {κ : Type} (sha256 : Json → String) (hmac : κ → Json → String)
    (evidence : ChangeEvidence) (key : κ) : Option TestPlan :=
  if evidence.changedPaths = [] then none
  else
    let impact := deriveChangeImpact inventory policy evidence
    some ((draftPlan inventory policy sha256 evidence impact).signed sha256 hmac key)

/-! ### The executor -/

/-- The loop over the names of the stages: each is known, and after the one before it. -/
def inOrder : ℤ → List String → Bool
  | _, [] => true
  | idx, name :: names =>
    name ∈ canonicalStageOrder && idx < canonicalStageOrder.idxOf name &&
      inOrder (canonicalStageOrder.idxOf name) names

/-- Whether `_validate_plan` lets a plan pass. -/
def validatePlan {κ : Type} (sha256 : Json → String) (hmac : κ → Json → String) (plan : TestPlan)
    (key : κ) : Bool :=
  let names := plan.stages.map PlanStage.name
  plan.planHash = plan.recomputeHash sha256 && plan.planMac = plan.computeMac hmac key &&
    names.dedup.length = names.length && inOrder (-1) names &&
    (plan.stages.all fun st =>
      st.selectors ≠ [] && (st.selectors.all fun sel => sel ≠ []) &&
        st.mandatory.all fun m => m ∈ st.selectors) &&
    (!plan.fullSuiteRequired || "full_suite" ∈ names)

end Planning

end ArgentTeam
