import ArgentTeam.Models
import Mathlib.Data.List.Lex
import Mathlib.Data.Char

/-!
# Models and what they claim

The registry of providers and models is data: which models there are, what each claims to be
capable of, and whether it is switched on. A registry that has been accepted knows the provider of
each of its models, and no model claims more than its provider supports. The floor is what a model
has to meet to be considered at all; cost is no part of it.
-/

namespace ArgentTeam

namespace Routing

/-! ### Vocabulary -/

inductive AvailabilityState
  | available
  | degraded
  | unavailable
  | disabled
  | unknown
  deriving DecidableEq

inductive LifecycleState
  | active
  | deprecated
  | retired
  deriving DecidableEq

inductive ReasoningLevel
  | low
  | medium
  | high
  deriving DecidableEq

/-- `_REASONING_RANK`. -/
def ReasoningLevel.rank : ReasoningLevel → ℕ
  | low => 0
  | medium => 1
  | high => 2

inductive Capability
  | coordination
  | simpleAnalysis
  | codeImplementation
  | complexCodeImplementation
  | debugging
  | repositoryReasoning
  | architecture
  | securityReview
  | codeReview
  | rootCauseAnalysis
  | toolUse
  | longContext
  | vision
  | structuredOutput
  deriving DecidableEq

/-- The members of `CostClass`, `LatencyClass` and `ReliabilityClass`. -/
inductive ClassLevel
  | low
  | medium
  | high
  | unknown
  deriving DecidableEq

abbrev CostClass := ClassLevel

abbrev LatencyClass := ClassLevel

abbrev ReliabilityClass := ClassLevel

/-- `_CLASS_RANK`, of the classes that have one. -/
def ClassLevel.rank : ClassLevel → ℕ
  | low | unknown => 0
  | medium => 1
  | high => 2

inductive Independence
  | sameModelAllowed
  | differentModelRequired
  | differentProviderPreferred
  | differentProviderRequired
  deriving DecidableEq

inductive ToolCapability
  | codeEdit
  | shellExec
  | webSearch
  | fileAccess
  deriving DecidableEq

/-! ### Descriptors -/

structure ProviderDescriptor where
  providerId : String
  enabled : Bool
  availabilityState : AvailabilityState
  capabilitiesSupported : List Capability := []
  deriving DecidableEq

structure ModelDescriptor where
  modelId : String
  providerId : String
  enabled : Bool
  lifecycleState : LifecycleState
  contextWindowMetadata : Option ℕ := none
  reasoningLevelsSupported : List ReasoningLevel := []
  toolCapabilities : List ToolCapability := []
  latencyClass : LatencyClass := .unknown
  costClass : CostClass := .unknown
  reliabilityClass : ReliabilityClass := .unknown
  capabilityTags : List Capability := []
  deriving DecidableEq

structure CapabilityRequirements where
  requiredCapabilities : List Capability := []
  minimumReasoningLevel : ReasoningLevel := .low
  toolRequirements : List ToolCapability := []
  contextRequirement : Option ℕ := none
  independenceRequirement : Independence := .sameModelAllowed
  qualityFloor : ReliabilityClass := .unknown

/-! ### The registry -/

/-- `ModelRegistry`: the values of its two dictionaries, and what has been checked of them. -/
structure ModelRegistry where
  /-- The values of `_providers`. -/
  providers : List ProviderDescriptor
  /-- The values of `_models`. -/
  models : List ModelDescriptor
  /-- The keys of `_providers` are the ids. -/
  providerIds : (providers.map ProviderDescriptor.providerId).Nodup
  /-- The keys of `_models` are the ids. -/
  modelIds : (models.map ModelDescriptor.modelId).Nodup
  references : ∀ md ∈ models, ∃ pd ∈ providers, pd.providerId = md.providerId ∧
    ∀ c ∈ md.capabilityTags, c ∈ pd.capabilitiesSupported

namespace ModelRegistry

variable (registry : ModelRegistry)

def getProvider (providerId : String) : Option ProviderDescriptor :=
  registry.providers.find? fun pd => pd.providerId = providerId

def getModel (modelId : String) : Option ModelDescriptor :=
  registry.models.find? fun md => md.modelId = modelId

def listModels : List ModelDescriptor :=
  registry.models.insertionSort fun a b => a.modelId.toList ≤ b.modelId.toList

end ModelRegistry

/-! ### The floor -/

/-- A model supports a reasoning level, or one above it: `_reasoning_satisfies` and
`_reasoning_level_supported`. -/
def reasoningSatisfies (supported : List ReasoningLevel) (minimum : ReasoningLevel) : Bool :=
  supported.any fun level => minimum.rank ≤ level.rank

def classSatisfies (actual minimum : ClassLevel) : Bool :=
  if minimum = .unknown then true
  else if actual = .unknown then false
  else minimum.rank ≤ actual.rank

def satisfiesFloor (model : ModelDescriptor) (requirements : CapabilityRequirements) : Bool :=
  (requirements.requiredCapabilities.all fun c => c ∈ model.capabilityTags) &&
    reasoningSatisfies model.reasoningLevelsSupported requirements.minimumReasoningLevel &&
    (requirements.toolRequirements.all fun t => t ∈ model.toolCapabilities) &&
    (match requirements.contextRequirement with
      | none => true
      | some tokens => model.contextWindowMetadata.any fun window => tokens ≤ window) &&
    classSatisfies model.reliabilityClass requirements.qualityFloor

section

variable {registry : ModelRegistry} {md md' : ModelDescriptor}

theorem mem_listModels : md ∈ registry.listModels ↔ md ∈ registry.models :=
  List.mem_insertionSort _

theorem eq_of_modelId (h : md ∈ registry.models) (h' : md' ∈ registry.models)
    (hid : md.modelId = md'.modelId) : md = md' :=
  List.inj_on_of_nodup_map registry.modelIds h h' hid

/-- A model is found under its id. -/
theorem getModel_eq_some {modelId : String} :
    registry.getModel modelId = some md ↔ md ∈ registry.models ∧ md.modelId = modelId := by
  constructor
  · intro h
    exact ⟨List.mem_of_find?_eq_some h, by simpa using List.find?_some h⟩
  · rintro ⟨hmem, rfl⟩
    cases hfind : registry.getModel md.modelId with
    | none =>
      have hnone := List.find?_eq_none.mp hfind md hmem
      simp at hnone
    | some md' =>
      have hid : md'.modelId = md.modelId := by simpa using List.find?_some hfind
      rw [eq_of_modelId (List.mem_of_find?_eq_some hfind) hmem hid]

theorem reasoningSatisfies_iff {supported : List ReasoningLevel} {minimum : ReasoningLevel} :
    reasoningSatisfies supported minimum ↔
      ∃ level ∈ supported, minimum.rank ≤ level.rank := by
  simp [reasoningSatisfies]

theorem satisfiesFloor_iff {capabilities : List Capability} {minimum : ReasoningLevel}
    {independence : Independence} :
    satisfiesFloor md
      { requiredCapabilities := capabilities
        minimumReasoningLevel := minimum
        independenceRequirement := independence } = true ↔
      (∀ c ∈ capabilities, c ∈ md.capabilityTags) ∧
        ∃ level ∈ md.reasoningLevelsSupported, minimum.rank ≤ level.rank := by
  simp [satisfiesFloor, classSatisfies, reasoningSatisfies_iff]

end

end Routing

end ArgentTeam
