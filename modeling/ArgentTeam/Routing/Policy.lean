import ArgentTeam.Routing.Evidence

/-!
# The routing policy

Which models a role may be given, at which level of escalation it starts, what a model has to
support at each level. A policy that has been accepted says this for every level up to the highest
one that is reached without the owner, and has a tier for every model that it allows.
-/

namespace ArgentTeam

namespace Routing

def maxReason (a b : ReasoningLevel) : ReasoningLevel := if b.rank ≤ a.rank then a else b

/-! ### Profiles -/

/-- A profile, as `_parse_profile` returns it. -/
structure Profile where
  /-- `roles`; an escalation profile may have none. -/
  roles : List Role := []
  requiredCapabilities : List Capability
  minimumReasoningLevel : ReasoningLevel
  entryLevel : ℕ
  lowRiskEntryLevel : Option ℕ := none
  allowedModels : List String
  independence : Option Independence := none
  deriving DecidableEq

/-- What `_parse_profile` checks of a profile, given the tiers and the ceilings. -/
structure Profile.Parsed (p : Profile) (tiers : List (String × ℕ))
    (ceiling : ℕ → Option ReasoningLevel) : Prop where
  roles : p.roles.Nodup
  capabilities : p.requiredCapabilities ≠ [] ∧ p.requiredCapabilities.Nodup
  levels : p.entryLevel ≤ 4 ∧ ∀ l ∈ p.lowRiskEntryLevel, l ≤ 4
  allowed : p.allowedModels ≠ [] ∧ p.allowedModels.Nodup ∧
    ∀ m ∈ p.allowedModels, m ∈ tiers.map Prod.fst
  reasoning : ∀ l, l = p.entryLevel ∨ p.lowRiskEntryLevel = some l →
    ∀ c ∈ ceiling l, p.minimumReasoningLevel.rank ≤ c.rank

/-- `_entry_level`. -/
def Profile.entryLevelFor (p : Profile) (risk : RiskClass) : ℕ :=
  match p.lowRiskEntryLevel with
  | some l => if risk = .low then l else p.entryLevel
  | none => p.entryLevel

/-- `_profile_applies`. -/
def Profile.applies (p : Profile) (role : Role) : Bool := p.roles = [] || role ∈ p.roles

/-! ### Policies -/

def atLevel {n : ℕ} {α : Type} (table : Fin n → α) (level : ℕ) : Option α :=
  if h : level < n then some (table ⟨level, h⟩) else none

/-- `RoutingPolicy`, with what its constructor has checked. -/
structure RoutingPolicy where
  maxAutomaticLevel : ℕ
  ownerLevel : ℕ
  reasoningDefaults : Fin (maxAutomaticLevel + 1) → ReasoningLevel
  reasoningCeilings : Fin (maxAutomaticLevel + 1) → ReasoningLevel
  levelMinTiers : Fin (maxAutomaticLevel + 1) → ℕ
  modelTiers : List (String × ℕ)
  profiles : List (String × Profile)
  escalationProfiles : List (String × Profile) := []
  costOrder : List ClassLevel
  latencyOrder : List ClassLevel
  evidenceMinimumStatus : EvidenceStatus := .provisional
  fallbackEnabled : Bool := false
  fallbackTriggerStates : List AvailabilityState := [.unavailable]
  owner : maxAutomaticLevel < ownerLevel ∧ ownerLevel ≤ 4
  defaults : ∀ level, (reasoningDefaults level).rank ≤ (reasoningCeilings level).rank
  minTiers : ∀ level, levelMinTiers level ≤ 2
  tierKeys : (modelTiers.map Prod.fst).Nodup
  tiers : modelTiers ≠ [] ∧ ∀ t ∈ modelTiers.map Prod.snd,
    t ≤ 2 ∧ ∀ t' < t, t' ∈ modelTiers.map Prod.snd
  profileKeys : profiles ≠ [] ∧ (profiles.map Prod.fst).Nodup
  parsed : ∀ e ∈ profiles, e.2.Parsed modelTiers (atLevel reasoningCeilings)
  escalationKeys : (escalationProfiles.map Prod.fst).Nodup
  escalationParsed : ∀ e ∈ escalationProfiles, e.2.Parsed modelTiers (atLevel reasoningCeilings)
  costs : costOrder ≠ [] ∧ costOrder.Nodup
  latencies : latencyOrder ≠ [] ∧ latencyOrder.Nodup
  evidence : 0 < evidenceMinimumStatus.rank
  triggerStates : fallbackTriggerStates ≠ [] ∧ fallbackTriggerStates.Nodup

namespace RoutingPolicy

variable (policy : RoutingPolicy)

def tierOf (modelId : String) : Option ℕ :=
  (policy.modelTiers.find? fun e => e.1 = modelId).map Prod.snd

/-- `profile_for_role`, if there is one. -/
def profileForRole (role : Role) : Option Profile :=
  (policy.profiles.find? fun e => role ∈ e.2.roles).map Prod.snd

def escalationProfile (profileId : String) : Option Profile :=
  (policy.escalationProfiles.find? fun e => e.1 = profileId).map Prod.snd

/-- `cost_rank`; a class that is not in the order comes last. -/
def costRank (c : CostClass) : ℕ := policy.costOrder.idxOf c

def latencyRank (c : LatencyClass) : ℕ := policy.latencyOrder.idxOf c

/-- What `validate_models` and `_validate_allowed_model` require of a model. -/
def knows (registry : ModelRegistry) (modelId : String) : Bool :=
  match registry.getModel modelId with
  | none => false
  | some md => md.enabled && (registry.getProvider md.providerId).isSome

/-- `validate_models` does not raise. -/
def validateModels (registry : ModelRegistry) : Bool :=
  (policy.modelTiers.all fun e => knows registry e.1) &&
    (policy.profiles.all fun e => e.2.allowedModels.all (knows registry)) &&
    policy.escalationProfiles.all fun e => e.2.allowedModels.all (knows registry)

end RoutingPolicy

end Routing

end ArgentTeam
