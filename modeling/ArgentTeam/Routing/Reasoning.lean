import ArgentTeam.Routing.Floor

/-!
# The reasoning of a decision

The reasoning level of a decision starts as the default of its level, is raised to what the profiles
require, and is cut to the ceiling of the level. When a policy is accepted, the minimum of each
profile is compared with the ceilings at its own levels of entry, and a request can be moved above
them: there the minimum is met up to the ceiling. Where no ceiling is below that of a lower level,
what was compared is enough, and every minimum is met. A model supports a level if it lists that
level or a higher one, so the level of a decision need not be among those its model lists
(`unlisted_reasoning`).
-/

namespace ArgentTeam

namespace Routing

variable {registry : ModelRegistry} {policy : RoutingPolicy} {evidence : EvidenceRegistry}
  {request : RoutingRequest} {d : RoutingDecision} {profile p : Profile} {role : Role}

/-- The profiles that a request is held to: that of its role, and the escalation profiles that are
applied. -/
def RoutingPolicy.inForce (policy : RoutingPolicy) (request : RoutingRequest) : List Profile :=
  (policy.profileForRole request.role).toList ++
    policy.escalations (detectTriggers request.evidence) request.role

/-- No ceiling is below that of a lower level. -/
def RoutingPolicy.CeilingsRise (policy : RoutingPolicy) : Prop :=
  ∀ lower upper, lower ≤ upper →
    (policy.reasoningCeilings lower).rank ≤ (policy.reasoningCeilings upper).rank

theorem mem_inForce (hprofile : policy.profileForRole request.role = some profile) :
    p ∈ policy.inForce request ↔
      p = profile ∨ p ∈ policy.escalations (detectTriggers request.evidence) request.role := by
  rw [RoutingPolicy.inForce, hprofile, Option.toList_some, List.singleton_append, List.mem_cons]

/-! ### The profiles of a policy -/

theorem parsed_of_profileForRole (h : policy.profileForRole role = some p) :
    p.Parsed policy.modelTiers (atLevel policy.reasoningCeilings) := by
  obtain ⟨e, hfind, rfl⟩ := Option.map_eq_some_iff.mp h
  exact policy.parsed e (List.mem_of_find?_eq_some hfind)

theorem parsed_of_applicable {profileId : String}
    (h : policy.applicable profileId role = some p) :
    p.Parsed policy.modelTiers (atLevel policy.reasoningCeilings) := by
  obtain ⟨hp, -⟩ := Option.filter_eq_some_iff.mp h
  obtain ⟨e, hfind, rfl⟩ := Option.map_eq_some_iff.mp hp
  exact policy.escalationParsed e (List.mem_of_find?_eq_some hfind)

/-- What is applied has been parsed. -/
theorem parsed_of_mem_escalations {triggers : List RoutingReasonCode}
    (h : p ∈ policy.escalations triggers role) :
    p.Parsed policy.modelTiers (atLevel policy.reasoningCeilings) := by
  rw [RoutingPolicy.escalations, List.mem_append] at h
  rcases h with h | h
  · split at h
    · split at h
      next sec hsec =>
        rw [List.mem_singleton.mp h]
        exact parsed_of_applicable hsec
      · exact parsed_of_applicable (Option.mem_toList.mp h)
    · cases h
  · split at h
    · exact parsed_of_applicable (Option.mem_toList.mp h)
    · cases h

/-! ### The level -/

theorem le_applyTriggerLevels {level current : ℕ} {triggers : List RoutingReasonCode}
    : level ≤ applyTriggerLevels level current triggers role := by
  unfold applyTriggerLevels
  dsimp only
  split_ifs <;> omega

/-- The level of a decision is that of the request. -/
theorem escalationLevel_of_route (h : route registry policy evidence request = .ok d)
    (hprofile : policy.profileForRole request.role = some profile) :
    d.escalationLevel = policy.level request (policy.wanted request profile).entryLevel := by
  unfold route at h
  split at h
  · cases h
  · rw [hprofile] at h
    dsimp only at h
    split at h
    · cases h
      rfl
    · split at h
      · cases h
        unfold decideAt
        dsimp only
        split <;> rfl
      · cases h
        rfl

/-- Where a level is below that of the owner, no level of entry is above it. -/
theorem entryLevel_le_level {entryLevel : ℕ}
    (h : policy.level request entryLevel < policy.ownerLevel) :
    entryLevel ≤ policy.level request entryLevel := by
  unfold RoutingPolicy.level at h ⊢
  dsimp only at h ⊢
  generalize (max 0 (min request.currentEscalationLevel policy.ownerLevel)).toNat = current at h ⊢
  have hcurrent := le_max_left entryLevel current
  have htriggers : max entryLevel current ≤ applyTriggerLevels (max entryLevel current) current
      (detectTriggers request.evidence) request.role := le_applyTriggerLevels
  omega

/-! ### The reasoning -/

section Reasoning

variable {level : Fin (policy.maxAutomaticLevel + 1)} {minReason : ReasoningLevel}

theorem reasoning_le_ceiling :
    (policy.reasoning level minReason).rank ≤ (policy.reasoningCeilings level).rank := by
  unfold RoutingPolicy.reasoning
  dsimp only
  split <;> omega

theorem le_reasoning_iff {n : ℕ} (hn : n ≤ minReason.rank) :
    n ≤ (policy.reasoning level minReason).rank ↔ n ≤ (policy.reasoningCeilings level).rank := by
  refine ⟨fun h => h.trans reasoning_le_ceiling, fun h => ?_⟩
  have hraised : n ≤ (maxReason (policy.reasoningDefaults level) minReason).rank :=
    hn.trans (maxReason_le.mp le_rfl).2
  unfold RoutingPolicy.reasoning
  dsimp only
  split
  · exact h
  · exact hraised

end Reasoning

/-- What was compared at the levels of entry is enough where no ceiling is below that of a lower
level. -/
theorem minimum_le_ceiling (hrise : policy.CeilingsRise)
    (hparsed : p.Parsed policy.modelTiers (atLevel policy.reasoningCeilings)) {entry : ℕ}
    (hentry : entry = p.entryLevel ∨ p.lowRiskEntryLevel = some entry)
    {level : Fin (policy.maxAutomaticLevel + 1)} (hle : entry ≤ level) :
    p.minimumReasoningLevel.rank ≤ (policy.reasoningCeilings level).rank := by
  have hlt : entry < policy.maxAutomaticLevel + 1 := lt_of_le_of_lt hle level.2
  have hceiling : atLevel policy.reasoningCeilings entry =
      some (policy.reasoningCeilings ⟨entry, hlt⟩) := dif_pos hlt
  exact (hparsed.reasoning entry hentry _ hceiling).trans (hrise _ _ hle)

theorem entryLevelFor_eq (risk : RiskClass) :
    p.entryLevelFor risk = p.entryLevel ∨ p.lowRiskEntryLevel = some (p.entryLevelFor risk) := by
  unfold Profile.entryLevelFor
  split
  next low hlow =>
    split
    · exact .inr hlow
    · exact .inl rfl
  · exact .inl rfl

/-- Every profile in force has a level of entry that is not above the level of the request. -/
theorem exists_entry_le {level : ℕ}
    (hprofile : policy.profileForRole request.role = some profile)
    (hlevel : (policy.wanted request profile).entryLevel ≤ level)
    (hp : p ∈ policy.inForce request) :
    p.Parsed policy.modelTiers (atLevel policy.reasoningCeilings) ∧
      ∃ entry, (entry = p.entryLevel ∨ p.lowRiskEntryLevel = some entry) ∧ entry ≤ level := by
  obtain ⟨hrole, hescalations⟩ := @entryLevel_le_foldl (profile.wanted request.riskClass)
    (policy.escalations (detectTriggers request.evidence) request.role)
  rcases (mem_inForce hprofile).mp hp with rfl | hp
  · exact ⟨parsed_of_profileForRole hprofile, _, entryLevelFor_eq _, hrole.trans hlevel⟩
  · exact ⟨parsed_of_mem_escalations hp, _, .inl rfl, (hescalations p hp).trans hlevel⟩

theorem minimum_le_wanted (hprofile : policy.profileForRole request.role = some profile)
    (hp : p ∈ policy.inForce request) :
    p.minimumReasoningLevel.rank ≤ (policy.wanted request profile).minReason.rank := by
  obtain ⟨hrole, hescalations⟩ := minReason_foldl_le.mp
    (le_refl (policy.wanted request profile).minReason.rank)
  rcases (mem_inForce hprofile).mp hp with rfl | hp
  · exact hrole
  · exact hescalations p hp

/-- **The reasoning of a decision** is within the ceiling of its level, and the model supports it
and the minimum of every profile in force. Every such minimum that is within the ceiling of the
level is met; all of them are where no ceiling is below that of a lower level. -/
theorem reasoning_of_route (h : route registry policy evidence request = .ok d)
    (hd : d.isTerminal = false) :
    ∃ m ∈ registry.models, ∃ reasoning ceiling, d.model = some m.modelId ∧
      d.reasoningLevel = some reasoning ∧
      atLevel policy.reasoningCeilings d.escalationLevel = some ceiling ∧
      reasoning.rank ≤ ceiling.rank ∧
      reasoningSatisfies m.reasoningLevelsSupported reasoning = true ∧
      (∀ p ∈ policy.inForce request,
        reasoningSatisfies m.reasoningLevelsSupported p.minimumReasoningLevel = true ∧
          (p.minimumReasoningLevel.rank ≤ ceiling.rank →
            p.minimumReasoningLevel.rank ≤ reasoning.rank)) ∧
      (policy.CeilingsRise →
        ∀ p ∈ policy.inForce request, p.minimumReasoningLevel.rank ≤ reasoning.rank) := by
  obtain ⟨profile, level, m, usedFallback, code, hprofile, hselect, hbuild⟩ :=
    exists_chosen_of_route h hd
  obtain ⟨hadmitted, hreasoned⟩ :=
    (mem_candidatesAt_iff hprofile hbuild).mp (select_spec hselect).1
  have hescalation : d.escalationLevel = level := by rw [hbuild]; rfl
  have hdecided : d.reasoningLevel =
      some (policy.reasoning level (policy.wanted request profile).minReason) := by rw [hbuild]; rfl
  have hmet : ∀ p ∈ policy.inForce request,
      p.minimumReasoningLevel.rank ≤ (policy.reasoningCeilings level).rank →
        p.minimumReasoningLevel.rank ≤
          (policy.reasoning level (policy.wanted request profile).minReason).rank := fun p hp =>
    (le_reasoning_iff (minimum_le_wanted hprofile hp)).mpr
  have hentry : (policy.wanted request profile).entryLevel ≤ level := by
    have hlevel := escalationLevel_of_route h hprofile
    rw [hescalation] at hlevel
    rw [hlevel]
    refine entryLevel_le_level ?_
    rw [← hlevel]
    exact lt_of_lt_of_le level.2 policy.owner.1
  refine ⟨m, hadmitted.registered, _, _, by rw [hbuild]; rfl, hdecided,
    by rw [hescalation]; exact dif_pos level.2, reasoning_le_ceiling,
    reasoningSatisfies_iff.mpr (hreasoned.decision _ hdecided), fun p hp => ⟨?_, hmet p hp⟩,
    fun hrise p hp => ?_⟩
  · obtain ⟨listed, hlisted, hrole, hescalations⟩ := hreasoned.profiles profile hprofile
    refine reasoningSatisfies_iff.mpr ⟨listed, hlisted, ?_⟩
    rcases (mem_inForce hprofile).mp hp with rfl | hp
    · exact hrole
    · exact hescalations p hp
  · obtain ⟨hparsed, entry, hor, hle⟩ := exists_entry_le hprofile hentry hp
    exact hmet p hp (minimum_le_ceiling hrise hparsed hor hle)

/-! ### A model of high reasoning only -/

section Unlisted

/-- The second model lists the highest level alone. -/
def highRegistry : ModelRegistry where
  providers := [smallProvider]
  models := [smallModel "a" .low, smallModel "b" .high]
  providerIds := smallRegistry.providerIds
  modelIds := by decide
  references := by decide

theorem route_high : route highRegistry smallPolicy smallEvidence smallRequest =
    .ok smallDecision := by
  decide

/-- **The level of a decision need not be listed**: a model that lists only `HIGH` is chosen with
`MEDIUM`. -/
theorem unlisted_reasoning : ¬∀ registry policy evidence request d,
    RoutingPolicy.validateModels policy registry = true →
    route registry policy evidence request = .ok d → d.isTerminal = false →
    ∃ m ∈ registry.models, ∃ reasoning, d.model = some m.modelId ∧
      d.reasoningLevel = some reasoning ∧
      (∀ p ∈ policy.inForce request, p.minimumReasoningLevel.rank ≤ reasoning.rank) ∧
      (∀ ceiling ∈ atLevel policy.reasoningCeilings d.escalationLevel,
        reasoning.rank ≤ ceiling.rank) ∧
      reasoning ∈ m.reasoningLevelsSupported := by
  intro h
  obtain ⟨m, hm, reasoning, hmodel, hdecided, -, -, hlisted⟩ := h highRegistry smallPolicy
    smallEvidence smallRequest smallDecision (by decide) route_high (by decide)
  have hid : m.modelId = "b" := (Option.some.inj hmodel).symm
  have hchosen : m = smallModel "b" .high :=
    eq_of_modelId hm (List.mem_cons_of_mem _ List.mem_cons_self) hid
  rw [hchosen, ← Option.some.inj hdecided] at hlisted
  exact absurd hlisted (by decide)

/-- The one ceiling of the policy rises, and the minimum is met. -/
theorem reasoning_small : ∃ m ∈ highRegistry.models, ∃ reasoning ceiling,
    smallDecision.model = some m.modelId ∧ smallDecision.reasoningLevel = some reasoning ∧
    atLevel smallPolicy.reasoningCeilings smallDecision.escalationLevel = some ceiling ∧
    reasoning.rank ≤ ceiling.rank ∧
    reasoningSatisfies m.reasoningLevelsSupported reasoning = true ∧
    (∀ p ∈ smallPolicy.inForce smallRequest,
      reasoningSatisfies m.reasoningLevelsSupported p.minimumReasoningLevel = true ∧
        (p.minimumReasoningLevel.rank ≤ ceiling.rank →
          p.minimumReasoningLevel.rank ≤ reasoning.rank)) ∧
    (smallPolicy.CeilingsRise → ∀ p ∈ smallPolicy.inForce smallRequest,
      p.minimumReasoningLevel.rank ≤ reasoning.rank) :=
  reasoning_of_route route_high (by decide)

end Unlisted

end Routing

end ArgentTeam
