import ArgentTeam.Routing.Policy
import Mathlib.Data.Prod.Lex

/-!
# Routing a dispatch

From what is known of a task the router derives the triggers of an escalation, the requirements –
those of the role, replaced by those of the escalation profiles that apply – and the level. Among
the models that meet all of them it chooses the first in the order of tier, cost, latency and id
that can be used; where the very first one cannot, the policy has to permit a fallback.
-/

namespace ArgentTeam

namespace Routing

/-! ### Reasons and errors -/

inductive RoutingReasonCode
  | minimumSufficient
  | repeatedFixFailure
  | testsStillRed
  | rootCauseUnproven
  | contradictoryEvidence
  | reviewerRejectedCandidate
  | unexpectedScopeGrowth
  | securityComplexity
  | concurrencyComplexity
  | recoveryComplexity
  | providerFailure
  | modelFailure
  | capabilityFloorUnmet
  | missingRequiredExternalInfo
  | ownerGate
  | noEligibleCandidate
  | validatedFallback
  | noValidFallback
  deriving DecidableEq

/-- `_TERMINAL_REASON_CODES`. -/
def RoutingReasonCode.terminal : RoutingReasonCode → Bool
  | ownerGate | noEligibleCandidate | noValidFallback => true
  | _ => false

/-- The code of a `RoutingError`. -/
inductive RoutingError
  /-- `ROUTING_REQUEST_INVALID`. -/
  | requestInvalid
  /-- `ROUTING_POLICY_INVALID`. -/
  | policyInvalid
  deriving DecidableEq

/-! ### Requests -/

inductive AttemptOutcome
  | capability
  | transient
  | external
  | provider
  | resource
  | context
  | security
  | ownerRequired
  | success
  | other
  deriving DecidableEq

structure AttemptEvidence where
  attemptNo : ℤ
  outcomeClass : AttemptOutcome

structure RoutingEvidence where
  priorAttempts : List AttemptEvidence := []
  testResults : List String := []
  reviewerVerdicts : List PyStr := []
  openFindingsCount : ℤ := 0
  confirmedFinding : Bool := false
  securityRelevant : Bool := false
  concurrencyRelevant : Bool := false

/-- `AvailabilitySnapshot`, with what its constructor has checked. -/
structure AvailabilitySnapshot where
  providerStates : List (String × AvailabilityState)
  modelStates : List (String × AvailabilityState)
  /-- The keys of `provider_states`. -/
  providerKeys : (providerStates.map Prod.fst).Nodup ∧ ∀ e ∈ providerStates, e.1 ≠ ""
  /-- The keys of `model_states`. -/
  modelKeys : (modelStates.map Prod.fst).Nodup ∧ ∀ e ∈ modelStates, e.1 ≠ ""
  bounded : providerStates.length ≤ 64 ∧ modelStates.length ≤ 128

/-- The entry of a key. -/
def stateOf (states : List (String × AvailabilityState)) (key : String) :
    Option AvailabilityState :=
  (states.find? fun e => e.1 = key).map Prod.snd

structure RoutingRequest where
  jobId : String
  taskId : String
  role : Role
  riskClass : RiskClass := .normal
  dispatchId : Option String := none
  referenceModelId : Option String := none
  independenceRequirement : Option Independence := none
  evidence : RoutingEvidence := {}
  currentEscalationLevel : ℤ := 0
  policyVersion : String := "2"
  availabilitySnapshot : Option AvailabilitySnapshot := none

/-- `_validate_request` does not raise. -/
def RoutingRequest.valid (request : RoutingRequest) : Bool :=
  request.jobId ≠ "" && request.taskId ≠ "" && 0 ≤ request.currentEscalationLevel &&
    request.policyVersion = "2"

/-! ### Triggers -/

def isRejectVerdict (verdict : PyStr) : Bool :=
  PyStr.lower (PyStr.strip verdict) = PyStr.ofString "reject"

def isApproveVerdict (verdict : PyStr) : Bool :=
  PyStr.lower (PyStr.strip verdict) = PyStr.ofString "approve"

/-- The last two of a history, the last one first, meet two conditions. -/
def flips {α : Type} (last before : α → Bool) (history : List α) : Bool :=
  match history.reverse with
  | a :: b :: _ => last a && before b
  | _ => false

def testsContradict (tests : List String) : Bool := flips (· = "failed") (· = "passed") tests

def verdictsContradict (verdicts : List PyStr) : Bool :=
  flips isRejectVerdict isApproveVerdict verdicts

/-- A code, if a condition holds. -/
def triggerIf (condition : Bool) (code : RoutingReasonCode) : List RoutingReasonCode :=
  if condition then [code] else []

def detectTriggers (evidence : RoutingEvidence) : List RoutingReasonCode :=
  triggerIf (2 ≤ ((evidence.priorAttempts.filter fun a => a.outcomeClass = .capability).map
      AttemptEvidence.attemptNo).dedup.length) .repeatedFixFailure ++
    triggerIf (evidence.testResults.getLast? = some "failed") .testsStillRed ++
    triggerIf (0 < evidence.openFindingsCount && !evidence.confirmedFinding) .rootCauseUnproven ++
    triggerIf (evidence.reviewerVerdicts.any isRejectVerdict) .reviewerRejectedCandidate ++
    triggerIf (testsContradict evidence.testResults || verdictsContradict evidence.reviewerVerdicts)
      .contradictoryEvidence ++
    triggerIf evidence.securityRelevant .securityComplexity ++
    triggerIf evidence.concurrencyRelevant .concurrencyComplexity ++
    triggerIf (evidence.priorAttempts.any fun a =>
      a.outcomeClass = .external || a.outcomeClass = .provider || a.outcomeClass = .transient)
      .providerFailure

/-- A root cause that several fixes have not met. -/
def hardRootCause (triggers : List RoutingReasonCode) : Bool :=
  .repeatedFixFailure ∈ triggers && .testsStillRed ∈ triggers && .rootCauseUnproven ∈ triggers

def applyTriggerLevels (level current : ℕ) (triggers : List RoutingReasonCode) (role : Role) : ℕ :=
  let level := if hardRootCause triggers then max level 2 else level
  let level := if .securityComplexity ∈ triggers ∧ role ∈ [Role.analyst, .reviewer, .lead] then
    max level 2 else level
  let steps := [RoutingReasonCode.reviewerRejectedCandidate, .contradictoryEvidence,
    .concurrencyComplexity, .recoveryComplexity, .unexpectedScopeGrowth].any (· ∈ triggers)
  if steps || (hardRootCause triggers && 2 ≤ current) then level + 1 else level

/-! ### Requirements -/

/-- What is required of a model: the capabilities, the reasoning and the models that are
allowed, and the level of entry. -/
structure Wanted where
  requiredCaps : List Capability
  minReason : ReasoningLevel
  entryLevel : ℕ
  allowed : List String

/-- The requirements of a role. -/
def Profile.wanted (p : Profile) (risk : RiskClass) : Wanted :=
  ⟨p.requiredCapabilities, p.minimumReasoningLevel, p.entryLevelFor risk, p.allowedModels⟩

/-- An escalation profile replaces the capabilities, and narrows all the rest. -/
def Wanted.escalate (w : Wanted) (p : Profile) : Wanted :=
  ⟨p.requiredCapabilities, maxReason w.minReason p.minimumReasoningLevel,
    max w.entryLevel p.entryLevel, w.allowed.filter fun m => m ∈ p.allowedModels⟩

/-- The escalation profile of a name, if it is there and applies to the role. -/
def RoutingPolicy.applicable (policy : RoutingPolicy) (profileId : String) (role : Role) :
    Option Profile :=
  (policy.escalationProfile profileId).filter fun p => p.applies role

/-- The escalation profiles that are applied, in their order. -/
def RoutingPolicy.escalations (policy : RoutingPolicy) (triggers : List RoutingReasonCode)
    (role : Role) : List Profile :=
  (if .securityComplexity ∈ triggers then
    match policy.applicable "security_review" role with
    | some sec => [sec]
    | none => (policy.applicable "deep_analysis" role).toList
  else []) ++
  if hardRootCause triggers then (policy.applicable "root_cause_analysis" role).toList else []

/-- The requirements of a request. -/
def RoutingPolicy.wanted (policy : RoutingPolicy) (request : RoutingRequest) (profile : Profile) :
    Wanted :=
  (policy.escalations (detectTriggers request.evidence) request.role).foldl Wanted.escalate
    (profile.wanted request.riskClass)

/-- The independence that is required: of a reviewer, always a different model. -/
def RoutingRequest.independence (request : RoutingRequest) (profile : Profile) : Independence :=
  if request.role = .reviewer then .differentModelRequired
  else (request.independenceRequirement.or profile.independence).getD .sameModelAllowed

def RoutingPolicy.level (policy : RoutingPolicy) (request : RoutingRequest) (entryLevel : ℕ) : ℕ :=
  let current := (max 0 (min request.currentEscalationLevel policy.ownerLevel)).toNat
  min (applyTriggerLevels (max entryLevel current) current (detectTriggers request.evidence)
    request.role) policy.ownerLevel

/-- The reasoning of a level: its default, or what is required, up to its ceiling. -/
def RoutingPolicy.reasoning (policy : RoutingPolicy) (level : Fin (policy.maxAutomaticLevel + 1))
    (minReason : ReasoningLevel) : ReasoningLevel :=
  let reasoning := maxReason (policy.reasoningDefaults level) minReason
  if (policy.reasoningCeilings level).rank < reasoning.rank then policy.reasoningCeilings level
  else reasoning

/-! ### Candidates -/

def modelRegistryEnabled (registry : ModelRegistry) (model : ModelDescriptor) : Bool :=
  model.enabled && model.lifecycleState = .active &&
    (registry.getProvider model.providerId).any ProviderDescriptor.enabled

def independenceOk (model : ModelDescriptor) (reference : Option ModelDescriptor)
    (constraint : Independence) : Bool :=
  match constraint, reference with
  | .sameModelAllowed, _ => true
  | _, none => false
  | .differentModelRequired, some reference => model.modelId ≠ reference.modelId
  | .differentProviderRequired, some reference => model.providerId ≠ reference.providerId
  | .differentProviderPreferred, some _ => true

def eligibleCandidates (registry : ModelRegistry) (policy : RoutingPolicy)
    (requirements : CapabilityRequirements) (allowed : List String)
    (level : Fin (policy.maxAutomaticLevel + 1)) (reasoningLevel : ReasoningLevel)
    (referenceModelId : Option String) (evidence : EvidenceRegistry) (minStatus : EvidenceStatus) :
    List ModelDescriptor :=
  registry.listModels.filter fun model =>
    model.modelId ∈ allowed &&
      (policy.tierOf model.modelId).any (fun tier => policy.levelMinTiers level ≤ tier) &&
      modelRegistryEnabled registry model && satisfiesFloor model requirements &&
      reasoningSatisfies model.reasoningLevelsSupported reasoningLevel &&
      independenceOk model (referenceModelId.bind registry.getModel)
        requirements.independenceRequirement &&
      satisfiesEvidence evidence model.modelId requirements.requiredCapabilities minStatus

/-- The key of `_rank_all`. -/
def RoutingPolicy.rankKey (policy : RoutingPolicy) (m : ModelDescriptor) :
    ℕ ×ₗ ℕ ×ₗ ℕ ×ₗ List Char :=
  toLex ((policy.tierOf m.modelId).getD 99, toLex (policy.costRank m.costClass,
    toLex (policy.latencyRank m.latencyClass, m.modelId.toList)))

def rankAll (candidates : List ModelDescriptor) (policy : RoutingPolicy) : List ModelDescriptor :=
  candidates.insertionSort fun a b => policy.rankKey a ≤ policy.rankKey b

/-! ### Availability -/

/-- `_AVAILABILITY_RANK`. -/
def AvailabilityState.rank : AvailabilityState → ℕ
  | disabled => 0
  | unavailable => 1
  | unknown => 2
  | degraded => 3
  | available => 4

def worseAvailability (a b : AvailabilityState) : AvailabilityState :=
  if a.rank ≤ b.rank then a else b

def effectiveAvailability (registry : ModelRegistry) (model : ModelDescriptor)
    (snapshot : Option AvailabilitySnapshot) : AvailabilityState :=
  let registryDefault := ((registry.getProvider model.providerId).map
    ProviderDescriptor.availabilityState).getD .unknown
  match snapshot with
  | none => registryDefault
  | some s =>
    match (stateOf s.modelStates model.modelId).or (stateOf s.providerStates model.providerId) with
    | none => registryDefault
    | some state => worseAvailability registryDefault state

def isUsable (registry : ModelRegistry) (snapshot : Option AvailabilitySnapshot)
    (model : ModelDescriptor) : Bool :=
  effectiveAvailability registry model snapshot ∈ [AvailabilityState.available, .degraded]

/-- `_select`: the model, and whether it is a fallback. -/
def select (candidates : List ModelDescriptor) (policy : RoutingPolicy) (registry : ModelRegistry)
    (snapshot : Option AvailabilitySnapshot) : Option ModelDescriptor × Bool :=
  match rankAll candidates policy with
  | [] => (none, false)
  | primary :: others =>
    if isUsable registry snapshot primary then (some primary, false)
    else if policy.fallbackEnabled = false then (none, true)
    else if effectiveAvailability registry primary snapshot ∉ policy.fallbackTriggerStates then
      (none, true)
    else (others.find? (isUsable registry snapshot), true)

/-! ### Decisions -/

structure RoutingDecision where
  jobId : String
  taskId : String
  role : Role
  dispatchId : Option String
  provider : Option String
  model : Option String
  reasoningLevel : Option ReasoningLevel
  escalationLevel : ℕ
  requiredCapabilities : List Capability
  matchedCapabilities : List Capability
  decisionReasonCode : RoutingReasonCode
  referenceModelId : Option String
  independenceRequirement : Independence
  deriving DecidableEq

def RoutingDecision.isTerminal (d : RoutingDecision) : Bool :=
  d.provider.isNone || d.model.isNone || 4 ≤ d.escalationLevel || d.decisionReasonCode.terminal

def decisionReason (triggers : List RoutingReasonCode) (level baseLevel : ℕ) : RoutingReasonCode :=
  let capability := if baseLevel < level then
    [RoutingReasonCode.repeatedFixFailure, .rootCauseUnproven, .reviewerRejectedCandidate,
      .contradictoryEvidence, .concurrencyComplexity, .unexpectedScopeGrowth, .recoveryComplexity,
      .testsStillRed, .securityComplexity].find? (· ∈ triggers)
    else none
  (capability.or ([RoutingReasonCode.providerFailure, .modelFailure, .validatedFallback].find?
    (· ∈ triggers))).getD .minimumSufficient

def buildDecision (request : RoutingRequest) (chosen : Option ModelDescriptor) (level : ℕ)
    (reasoningLevel : Option ReasoningLevel) (requiredCaps : List Capability)
    (reasonCode : RoutingReasonCode) (independence : Independence) : RoutingDecision where
  jobId := request.jobId
  taskId := request.taskId
  role := request.role
  dispatchId := request.dispatchId
  provider := chosen.map ModelDescriptor.providerId
  model := chosen.map ModelDescriptor.modelId
  reasoningLevel := reasoningLevel
  escalationLevel := level
  requiredCapabilities := requiredCaps
  matchedCapabilities := match chosen with
    | some m => requiredCaps.filter fun c => c ∈ m.capabilityTags
    | none => []
  decisionReasonCode := reasonCode
  referenceModelId := request.referenceModelId
  independenceRequirement := independence

def terminal (request : RoutingRequest) (requiredCaps : List Capability)
    (reasonCode : RoutingReasonCode) (level : ℕ) (independence : Independence) : RoutingDecision :=
  buildDecision request none level none requiredCaps reasonCode independence

/-! ### Routing -/

/-- The candidates of a request at a level. -/
def candidatesAt (registry : ModelRegistry) (policy : RoutingPolicy) (evidence : EvidenceRegistry)
    (request : RoutingRequest) (profile : Profile) (level : Fin (policy.maxAutomaticLevel + 1)) :
    List ModelDescriptor :=
  let wanted := policy.wanted request profile
  eligibleCandidates registry policy
    { requiredCapabilities := wanted.requiredCaps
      minimumReasoningLevel := wanted.minReason
      independenceRequirement := request.independence profile }
    wanted.allowed level (policy.reasoning level wanted.minReason) request.referenceModelId evidence
    policy.evidenceMinimumStatus

/-- What `route` decides at a level that is reached without the owner. -/
def decideAt (registry : ModelRegistry) (policy : RoutingPolicy) (evidence : EvidenceRegistry)
    (request : RoutingRequest) (profile : Profile) (level : Fin (policy.maxAutomaticLevel + 1)) :
    RoutingDecision :=
  let wanted := policy.wanted request profile
  let independence := request.independence profile
  let candidates := candidatesAt registry policy evidence request profile level
  match select candidates policy registry request.availabilitySnapshot with
  | (none, _) =>
    terminal request wanted.requiredCaps
      (if candidates = [] then .noEligibleCandidate else .noValidFallback) level independence
  | (some chosen, usedFallback) =>
    buildDecision request (some chosen) level (some (policy.reasoning level wanted.minReason))
      wanted.requiredCaps
      (if usedFallback then .validatedFallback
      else decisionReason (detectTriggers request.evidence) level
        (profile.entryLevelFor request.riskClass))
      independence

def route (registry : ModelRegistry) (policy : RoutingPolicy) (evidence : EvidenceRegistry)
    (request : RoutingRequest) : Except RoutingError RoutingDecision :=
  if request.valid = false then .error .requestInvalid
  else
    match policy.profileForRole request.role with
    | none => .error .policyInvalid
    | some profile =>
      let wanted := policy.wanted request profile
      let level := policy.level request wanted.entryLevel
      if .missingRequiredExternalInfo ∈ detectTriggers request.evidence then
        .ok (terminal request wanted.requiredCaps .ownerGate level (request.independence profile))
      else if h : level < policy.maxAutomaticLevel + 1 then
        .ok (decideAt registry policy evidence request profile ⟨level, h⟩)
      else
        .ok (terminal request wanted.requiredCaps .ownerGate level (request.independence profile))

end Routing

end ArgentTeam
