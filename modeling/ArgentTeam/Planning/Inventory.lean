import ArgentTeam.Lib.Json

/-!
# Test inventories and test policies

What the planner of the tests is configured with. An inventory says which subsystem a file
belongs to and which tests there are for it; a policy says which changes are risky, and which
regressions and when the full suite they ask for. Both are parsed from a decoded document, and
refused unless they name only subsystems, risks and conditions that exist, only selectors under
the roots of the tests, and keep the floors that are fixed in the code.

Whether a selector matches a file of the repository is a parameter, as is the hash of a
document.
-/

namespace ArgentTeam

namespace Planning

/-! ### Names -/

/-- What a text names, among the values of an enumeration. -/
def named {α : Type} (all : List α) (value : α → String) (s : PyStr) : Option α :=
  all.find? fun a => PyStr.ofString (value a) = s

inductive RiskLevel
  | low | medium | high | critical
  deriving DecidableEq

namespace RiskLevel

/-- The text. -/
def value : RiskLevel → String
  | low => "LOW"
  | medium => "MEDIUM"
  | high => "HIGH"
  | critical => "CRITICAL"

/-- `_RISK_RANK`. -/
def rank : RiskLevel → ℕ
  | low => 0
  | medium => 1
  | high => 2
  | critical => 3

/-- The levels. -/
def all : List RiskLevel := [low, medium, high, critical]

/-- `_max_risk`, of two levels. -/
def maxRisk (a b : RiskLevel) : RiskLevel := if a.rank < b.rank then b else a

end RiskLevel

inductive Subsystem
  | context | core | documentation | modelRouting | persistence | resource | security
  | supervisor | testInfra
  deriving DecidableEq

namespace Subsystem

/-- The text. -/
def value : Subsystem → String
  | context => "CONTEXT"
  | core => "CORE"
  | documentation => "DOCUMENTATION"
  | modelRouting => "MODEL_ROUTING"
  | persistence => "PERSISTENCE"
  | resource => "RESOURCE"
  | security => "SECURITY"
  | supervisor => "SUPERVISOR"
  | testInfra => "TEST_INFRA"

/-- The subsystems, in the order of their texts. -/
def all : List Subsystem :=
  [context, core, documentation, modelRouting, persistence, resource, security, supervisor,
    testInfra]

end Subsystem

inductive RiskTag
  | schemaMigration | leaseFencingScheduler | securityTrustBoundary | writeBrokerExecutionBoundary
  | crashRecovery | processOwnership | resourceEnforcement | contextIntegrity
  | modelRoutingIndependence | terminalStateTransition | testInfrastructure
  deriving DecidableEq

namespace RiskTag

/-- The text. -/
def value : RiskTag → String
  | schemaMigration => "SCHEMA_MIGRATION"
  | leaseFencingScheduler => "LEASE_FENCING_SCHEDULER"
  | securityTrustBoundary => "SECURITY_TRUST_BOUNDARY"
  | writeBrokerExecutionBoundary => "WRITE_BROKER_EXECUTION_BOUNDARY"
  | crashRecovery => "CRASH_RECOVERY"
  | processOwnership => "PROCESS_OWNERSHIP"
  | resourceEnforcement => "RESOURCE_ENFORCEMENT"
  | contextIntegrity => "CONTEXT_INTEGRITY"
  | modelRoutingIndependence => "MODEL_ROUTING_INDEPENDENCE"
  | terminalStateTransition => "TERMINAL_STATE_TRANSITION"
  | testInfrastructure => "TEST_INFRASTRUCTURE"

/-- The tags. -/
def all : List RiskTag :=
  [schemaMigration, leaseFencingScheduler, securityTrustBoundary, writeBrokerExecutionBoundary,
    crashRecovery, processOwnership, resourceEnforcement, contextIntegrity,
    modelRoutingIndependence, terminalStateTransition, testInfrastructure]

/-- `_MANDATORY_RISK_TAGS`: the least level a policy may give a tag. -/
def floor : RiskTag → RiskLevel
  | schemaMigration => .critical
  | contextIntegrity => .medium
  | _ => .high

end RiskTag

/-- `_FULL_SUITE_CONDITIONS`. -/
inductive FullSuiteCondition
  | phaseClosing | riskCritical | riskHigh | testInfrastructureChange | schemaMigration
  | multipleSubsystems | testPlanUncertainty | plannerMetadataUncertainty | securityReviewedPatch
  deriving DecidableEq

namespace FullSuiteCondition

/-- The text. -/
def value : FullSuiteCondition → String
  | phaseClosing => "phase_closing"
  | riskCritical => "risk_CRITICAL"
  | riskHigh => "risk_HIGH"
  | testInfrastructureChange => "test_infrastructure_change"
  | schemaMigration => "schema_migration"
  | multipleSubsystems => "multiple_subsystems"
  | testPlanUncertainty => "test_plan_uncertainty"
  | plannerMetadataUncertainty => "planner_metadata_uncertainty"
  | securityReviewedPatch => "security_reviewed_patch"

/-- The conditions. -/
def all : List FullSuiteCondition :=
  [phaseClosing, riskCritical, riskHigh, testInfrastructureChange, schemaMigration,
    multipleSubsystems, testPlanUncertainty, plannerMetadataUncertainty, securityReviewedPatch]

/-- `_MANDATORY_FULL_SUITE_CONDITIONS`. -/
def mandatory : List FullSuiteCondition :=
  [phaseClosing, riskHigh, riskCritical, testInfrastructureChange, multipleSubsystems]

end FullSuiteCondition

/-- What a value names: a text among those of an enumeration. -/
def ofJson {α : Type} (all : List α) (value : α → String) : Json → Option α
  | .str s => named all value s
  | _ => none

/-- `d.get(key)`, of a dictionary whose keys are not literals. -/
def lookup {α κ : Type} [DecidableEq κ] (fields : List (κ × α)) (key : κ) : Option α :=
  (fields.find? fun f => f.1 = key).map Prod.snd

/-! ### Paths -/

def separator : PyChar := .scalar '/'

/-- `path.rsplit("/", 1)[-1]`. -/
def basename (path : PyStr) : PyStr := (path.reverse.takeWhile (· ≠ separator)).reverse

/-- `s.endswith(w)`. -/
def endsWith (w s : PyStr) : Bool := PyStr.startsWith w.reverse s.reverse

/-- `s.startswith(w)`, of a literal. -/
def under (w : String) (s : PyStr) : Bool := PyStr.startsWith (PyStr.ofString w) s

/-- A path without the dots it starts with. -/
def dropDots : PyStr → PyStr
  | .scalar '.' :: .scalar '/' :: rest => dropDots rest
  | p => p

def normalizePath (path : PyStr) : PyStr := (dropDots path.strip).dropWhile (· = separator)

/-! ### Selectors -/

/-- A selector of tests: a text that is not empty. -/
structure Selector where
  text : PyStr
  nonempty : text ≠ []
  deriving DecidableEq

/-- The checks of `_validate_selector` on a text that is not empty. -/
def validSelector (matchesFile : PyStr → Bool) (sel : PyStr) : Bool :=
  let s := sel.strip
  !(under "/" s) && !(PyStr.contains (PyStr.ofString "..") s) &&
    (under "tests/" s || s = PyStr.ofString "tests" || under "e2e-fixture/tests/" s ||
      s = PyStr.ofString "e2e-fixture/tests") &&
    matchesFile s

/-- `_validate_selector`; `none` where it raises. -/
def Selector.parse (matchesFile : PyStr → Bool) : Json → Option Selector
  | .str s =>
    if h : s ≠ [] then if validSelector matchesFile s then some ⟨s, h⟩ else none else none
  | _ => none

def selectors (matchesFile : PyStr → Bool) : Json → Option (List Selector)
  | .arr xs => xs.mapM (Selector.parse matchesFile)
  | _ => none

def fieldsOf : Json → Option (List (PyStr × Json))
  | .obj fields => some fields
  | _ => none

def nonemptyText : Json → Option PyStr
  | .str s => if s = [] then none else some s
  | _ => none

/-- A text, or `None`. -/
def optionalText : Json → Option (Option PyStr)
  | .null => some none
  | .str s => some (some s)
  | _ => none

/-! ### The inventory -/

structure SubsystemTests where
  phase : Option PyStr
  moduleSelectors : List Selector
  phaseSelectors : List Selector

structure TestInventory where
  version : PyStr
  moduleOwnership : List (PyStr × Subsystem)
  subsystemTests : List (Subsystem × SubsystemTests)
  targetedTests : List (PyStr × List Selector)
  manualSuites : List (PyStr × PyStr)
  fullSuiteSelector : Selector
  contentHash : String

def plannerOwned (path : PyStr) : Bool :=
  under "argent_core/registry/test_" path ||
    ["argent_core/test_planning.py", "argent_core/test_inventory.py",
      "argent_core/change_impact.py", "argent_core/test_execution.py"].any fun p =>
      PyStr.ofString p = path

/-- `_TEST_INFRA_BASENAMES`. -/
def protectedBasename (name : PyStr) : Bool :=
  ["test_planning.py", "test_inventory.py", "change_impact.py", "test_execution.py",
    "test_inventory_v1.json", "test_policy_v1.json"].any fun p => PyStr.ofString p = name

/-- The ownership table of an inventory keeps the files of the planner, and a base name has one
owner. -/
def ownershipSound (ownership : List (PyStr × Subsystem)) : Bool :=
  (ownership.all fun e =>
    (!(plannerOwned e.1) || e.2 = .testInfra) &&
      (!(protectedBasename (basename e.1)) || e.2 = .testInfra)) &&
    ownership.all fun e => ownership.all fun f => basename e.1 ≠ basename f.1 || e.2 = f.2

/-- An entry of `subsystem_tests`. -/
def SubsystemTests.parse (matchesFile : PyStr → Bool) (value : Json) : Option SubsystemTests := do
  let entry ← fieldsOf value
  let phase ← optionalText (Json.getD entry "phase" .null)
  let moduleSelectors ← selectors matchesFile (← Json.get? entry "module_selectors")
  let phaseSelectors ← selectors matchesFile (← Json.get? entry "phase_selectors")
  some ⟨phase, moduleSelectors, phaseSelectors⟩

/-- `TestInventory.from_dict`; `none` where it raises. -/
def TestInventory.fromDict (sha256 : Json → String) (matchesFile : PyStr → Bool)
    (data : List (PyStr × Json)) : Option TestInventory := do
  let version ← nonemptyText (← Json.get? data "inventory_version")
  guard (version = PyStr.ofString "1")
  let ownershipRaw ← fieldsOf (← Json.get? data "module_ownership")
  guard (ownershipRaw.isEmpty = false)
  let testsRaw ← fieldsOf (← Json.get? data "subsystem_tests")
  let ownership ← ownershipRaw.mapM fun e => do
    let sub ← ofJson Subsystem.all Subsystem.value e.2
    if e.1 = [] then none else some (e.1, sub)
  guard (ownershipSound ownership)
  let tests ← testsRaw.mapM fun e => do
    let sub ← named Subsystem.all Subsystem.value e.1
    let entry ← SubsystemTests.parse matchesFile e.2
    some (sub, entry)
  let targetedRaw ← fieldsOf (← Json.get? data "targeted_tests")
  let targeted ← targetedRaw.mapM fun e => do
    let sels ← selectors matchesFile e.2
    if e.1 = [] then none else some (e.1, sels)
  let manualRaw ← fieldsOf (Json.getD data "manual_suites" (.obj []))
  let manual ← manualRaw.mapM fun e => do
    let reason ← nonemptyText e.2
    if e.1 = [] then none else some (e.1, reason)
  let full ← Selector.parse matchesFile (← Json.get? data "full_suite_selector")
  guard (full.text = PyStr.ofString "tests/")
  some
    { version := version
      moduleOwnership := ownership
      subsystemTests := tests
      targetedTests := targeted
      manualSuites := manual
      fullSuiteSelector := full
      contentHash := sha256 (.obj data) }

/-- `is_documentation_path`, which reads nothing of the inventory. -/
def isDocumentationPath (path : PyStr) : Bool :=
  let norm := normalizePath path
  under "docs/" norm || (norm.all (· ≠ separator) && endsWith (PyStr.ofString ".md") norm)

namespace TestInventory

variable (inventory : TestInventory)

def subsystemForPath (path : PyStr) : Option Subsystem :=
  let norm := normalizePath path
  lookup inventory.moduleOwnership norm <|> lookup inventory.moduleOwnership (basename norm) <|>
    (inventory.moduleOwnership.find? fun e => basename e.1 = basename norm).map Prod.snd

def moduleSelectors (sub : Subsystem) : List Selector :=
  ((lookup inventory.subsystemTests sub).map SubsystemTests.moduleSelectors).getD []

def phaseSelectors (sub : Subsystem) : List Selector :=
  ((lookup inventory.subsystemTests sub).map SubsystemTests.phaseSelectors).getD []

def targetedFor (path : PyStr) : List Selector :=
  (lookup inventory.targetedTests (basename path)).getD []

def isTestInfraPath (path : PyStr) : Bool :=
  let norm := normalizePath path
  inventory.subsystemForPath norm = some .testInfra || under "tests/" norm ||
    norm = PyStr.ofString "tests" || under "e2e-fixture/" norm ||
    norm = PyStr.ofString "conftest.py" || endsWith (PyStr.ofString "_helpers.py") norm ||
    endsWith (PyStr.ofString "/conftest.py") norm

end TestInventory

/-! ### The policy -/

structure HardInvariant where
  requiredRegression : List Selector
  fullSuite : Bool

structure HandlingPolicy extends HardInvariant where
  policy : Option PyStr

structure TestPolicy where
  version : PyStr
  riskRaisingChanges : List (RiskTag × RiskLevel)
  subsystemRiskTags : List (Subsystem × List RiskTag)
  moduleTagOverrides : List (PyStr × List RiskTag)
  hardInvariants : List (Subsystem × HardInvariant)
  moduleHardInvariants : List (PyStr × HardInvariant)
  fullSuiteRequiredWhen : List FullSuiteCondition
  unknownHandling : HandlingPolicy
  testInfraHandling : HandlingPolicy
  contentHash : String

/-- A truth value. -/
def boolOf : Json → Option Bool
  | .bool b => some b
  | _ => none

/-- An obligation: an entry of `hard_invariants` or of `module_hard_invariants`. -/
def HardInvariant.parse (matchesFile : PyStr → Bool) (value : Json) : Option HardInvariant := do
  let entry ← fieldsOf value
  let req ← selectors matchesFile (← Json.get? entry "required_regression")
  let full ← boolOf (Json.getD entry "full_suite" (.bool false))
  some ⟨req, full⟩

/-- `_parse_handling`, where the full suite is required. -/
def HandlingPolicy.parse (matchesFile : PyStr → Bool) (value : Json) : Option HandlingPolicy := do
  let invariant ← HardInvariant.parse matchesFile value
  guard (invariant.requiredRegression.isEmpty = false)
  guard (invariant.fullSuite = true)
  let policy ← optionalText (Json.getD (← fieldsOf value) "policy" .null)
  some { invariant with policy := policy }

def riskTags (levels : List (RiskTag × RiskLevel)) : Json → Option (List RiskTag)
  | .arr xs => do
    let tags ← xs.mapM (ofJson RiskTag.all RiskTag.value)
    guard (tags.all fun tag => (lookup levels tag).isSome)
    some tags
  | _ => none

/-- `TestPolicy.from_dict`; `none` where it raises. -/
def TestPolicy.fromDict (sha256 : Json → String) (matchesFile : PyStr → Bool)
    (data : List (PyStr × Json)) : Option TestPolicy := do
  let version ← nonemptyText (← Json.get? data "policy_version")
  guard (version = PyStr.ofString "1")
  let levelsRaw ← fieldsOf (← Json.get? data "risk_raising_changes")
  let levels ← levelsRaw.mapM fun e => do
    let tag ← named RiskTag.all RiskTag.value e.1
    let level ← ofJson RiskLevel.all RiskLevel.value e.2
    some (tag, level)
  -- a tag that is missing, or below its floor, is refused; so is an empty table
  guard (RiskTag.all.all fun tag =>
    (lookup levels tag).any fun level => tag.floor.rank ≤ level.rank)
  let tagsRaw ← fieldsOf (← Json.get? data "subsystem_risk_tags")
  let tags ← tagsRaw.mapM fun e => do
    let sub ← named Subsystem.all Subsystem.value e.1
    let tags ← riskTags levels e.2
    some (sub, tags)
  let overridesRaw ← fieldsOf (← Json.get? data "module_tag_overrides")
  let overrides ← overridesRaw.mapM fun e => do
    let tags ← riskTags levels e.2
    if e.1 = [] then none else some (e.1, tags)
  let invariantsRaw ← fieldsOf (← Json.get? data "hard_invariants")
  let invariants ← invariantsRaw.mapM fun e => do
    let sub ← named Subsystem.all Subsystem.value e.1
    let invariant ← HardInvariant.parse matchesFile e.2
    some (sub, invariant)
  guard ([Subsystem.security, .supervisor, .persistence].all fun sub =>
    (lookup invariants sub).any HardInvariant.fullSuite)
  let modulesRaw ← fieldsOf (Json.getD data "module_hard_invariants" (.obj []))
  let modules ← modulesRaw.mapM fun e => do
    let invariant ← HardInvariant.parse matchesFile e.2
    if e.1 = [] then none else some (e.1, invariant)
  let conditions ← match Json.get? data "full_suite_required_when" with
    | some (.arr xs) => xs.mapM (ofJson FullSuiteCondition.all FullSuiteCondition.value)
    | _ => none
  guard (FullSuiteCondition.mandatory.all fun c => c ∈ conditions)
  let unknownHandling ← HandlingPolicy.parse matchesFile (← Json.get? data "unknown_handling")
  let testInfraHandling ← HandlingPolicy.parse matchesFile (← Json.get? data "test_infra_handling")
  some
    { version := version
      riskRaisingChanges := levels
      subsystemRiskTags := tags
      moduleTagOverrides := overrides
      hardInvariants := invariants
      moduleHardInvariants := modules
      fullSuiteRequiredWhen := conditions
      unknownHandling := unknownHandling
      testInfraHandling := testInfraHandling
      contentHash := sha256 (.obj data) }

namespace TestPolicy

variable (policy : TestPolicy)

def riskLevelForTag (tag : RiskTag) : RiskLevel :=
  (lookup policy.riskRaisingChanges tag).getD .low

/-- The tags of a module that was changed: by its path, or else by its base name. -/
def overrideFor (path : PyStr) : List RiskTag :=
  (lookup policy.moduleTagOverrides path <|>
    lookup policy.moduleTagOverrides (basename path)).getD []

/-- The obligation of a module: by its path, or else by its base name. -/
def moduleInvariant (path : PyStr) : Option HardInvariant :=
  lookup policy.moduleHardInvariants path <|> lookup policy.moduleHardInvariants (basename path)

end TestPolicy

end Planning

end ArgentTeam
