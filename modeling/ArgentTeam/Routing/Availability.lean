import ArgentTeam.Routing.Reasoning

/-!
# What an availability snapshot changes

A snapshot is there to lower what the registry says of a provider, and against the registry it never
raises anything. Its two tables are another matter: what it says of a model itself is used in place
of what it says of the provider, and not together with it. So an entry that is added for a model
raises it exactly if its provider is recorded as one that cannot be used and the entry is better
(`usable_of_lowers_iff`), and a provider that is recorded as `UNAVAILABLE` keeps its models from
being selected except for those that have such an entry (`never_selected_iff`).
-/

namespace ArgentTeam

namespace Routing

variable {registry : ModelRegistry} {policy : RoutingPolicy} {evidence : EvidenceRegistry}
  {request : RoutingRequest} {d : RoutingDecision} {m : ModelDescriptor}
  {s s' : AvailabilitySnapshot} {profile : Profile}

/-! ### States -/

/-- A state in which a model is used. -/
def AvailabilityState.Usable (state : AvailabilityState) : Prop :=
  state = .available ∨ state = .degraded

instance : DecidablePred AvailabilityState.Usable := fun _ => inferInstanceAs (Decidable (_ ∨ _))

theorem AvailabilityState.usable_iff {state : AvailabilityState} :
    state.Usable ↔ 3 ≤ state.rank := by
  cases state <;> decide

theorem usable_worseAvailability {a b : AvailabilityState} :
    (worseAvailability a b).Usable ↔ a.Usable ∧ b.Usable := by
  rw [worseAvailability, AvailabilityState.usable_iff, AvailabilityState.usable_iff,
    AvailabilityState.usable_iff]
  split <;> omega

/-- What the registry says of the provider of a model. -/
def registryDefault (registry : ModelRegistry) (model : ModelDescriptor) : AvailabilityState :=
  ((registry.getProvider model.providerId).map ProviderDescriptor.availabilityState).getD .unknown

/-- What a snapshot says of a model itself. -/
def AvailabilitySnapshot.ownEntry (s : AvailabilitySnapshot) (model : ModelDescriptor) :
    Option AvailabilityState :=
  stateOf s.modelStates model.modelId

def AvailabilitySnapshot.providerEntry (s : AvailabilitySnapshot) (model : ModelDescriptor) :
    Option AvailabilityState :=
  stateOf s.providerStates model.providerId

/-- **When a model is used**: the registry permits it, and so does the first of the two entries that
is there. -/
theorem isUsable_iff : isUsable registry (some s) m ↔
    (registryDefault registry m).Usable ∧
      ∀ state ∈ (s.ownEntry m).or (s.providerEntry m), state.Usable := by
  have heffective : isUsable registry (some s) m = true ↔
      (effectiveAvailability registry m (some s)).Usable := by
    simp [isUsable, AvailabilityState.Usable]
  rw [heffective]
  cases hentry : (s.ownEntry m).or (s.providerEntry m) with
  | none =>
    have heq : effectiveAvailability registry m (some s) = registryDefault registry m := by
      unfold AvailabilitySnapshot.ownEntry AvailabilitySnapshot.providerEntry at hentry
      simp only [effectiveAvailability, hentry]
      rfl
    simp [heq]
  | some state =>
    have heq : effectiveAvailability registry m (some s) =
        worseAvailability (registryDefault registry m) state := by
      unfold AvailabilitySnapshot.ownEntry AvailabilitySnapshot.providerEntry at hentry
      simp only [effectiveAvailability, hentry]
      rfl
    simp [heq, usable_worseAvailability]

/-! ### Lower snapshots -/

/-- Every entry of a table is in another one, with no better state. -/
def TableLowers (states states' : List (String × AvailabilityState)) : Prop :=
  ∀ key, ∀ state ∈ stateOf states key, ∃ state' ∈ stateOf states' key, state'.rank ≤ state.rank

/-- A snapshot with entries added, and the states of others lowered. -/
structure Lowers (s s' : AvailabilitySnapshot) : Prop where
  providers : TableLowers s.providerStates s'.providerStates
  models : TableLowers s.modelStates s'.modelStates

theorem TableLowers.not_usable {states states' : List (String × AvailabilityState)}
    (hlower : TableLowers states states') {key : String} {state : AvailabilityState}
    (hstate : stateOf states key = some state) (hnot : ¬state.Usable) :
    ∃ state', stateOf states' key = some state' ∧ ¬state'.Usable := by
  obtain ⟨state', hstate', hle⟩ := hlower key state hstate
  refine ⟨state', hstate', fun husable => hnot ?_⟩
  rw [AvailabilityState.usable_iff] at husable ⊢
  omega

variable (registry m s s') in
/-- An entry for a model takes the place of the entry of its provider. -/
structure Displaces : Prop where
  default : (registryDefault registry m).Usable
  absent : s.ownEntry m = none
  provider : ∃ state ∈ s.providerEntry m, ¬state.Usable
  own : ∃ state ∈ s'.ownEntry m, state.Usable

/-- **Lowering a snapshot raises a model** in one case only: where an entry of its own takes the
place of that of its provider. -/
theorem usable_of_lowers_iff (hlower : Lowers s s') :
    (isUsable registry (some s') m → isUsable registry (some s) m) ↔
      ¬Displaces registry m s s' := by
  constructor
  · rintro h ⟨hdefault, habsent, ⟨state, hstate, hnot⟩, own, hown, husable⟩
    have hafter : isUsable registry (some s') m = true := by
      refine (isUsable_iff).mpr ⟨hdefault, ?_⟩
      rw [Option.mem_def.mp hown, Option.some_or]
      rintro _ ⟨⟩
      exact husable
    obtain ⟨-, hbefore⟩ := (isUsable_iff).mp (h hafter)
    rw [habsent, Option.none_or] at hbefore
    exact hnot (hbefore state hstate)
  · intro hdisplaces hafter
    obtain ⟨hdefault, hall⟩ := (isUsable_iff).mp hafter
    refine (isUsable_iff).mpr ⟨hdefault, fun state hstate => ?_⟩
    by_contra hnot
    rcases Option.or_eq_some_iff.mp (Option.mem_def.mp hstate) with hown | ⟨habsent, hprovider⟩
    · -- the entry of the model is still there, and no better
      obtain ⟨state', hstate', hnot'⟩ := hlower.models.not_usable hown hnot
      refine hnot' (hall state' ?_)
      rw [show s'.ownEntry m = some state' from hstate', Option.some_or, Option.mem_def]
    · obtain ⟨state', hstate', hnot'⟩ := hlower.providers.not_usable hprovider hnot
      cases hown : s'.ownEntry m with
      | none =>
        refine hnot' (hall state' ?_)
        rw [hown, Option.none_or]
        exact hstate'
      | some own =>
        refine hdisplaces ⟨hdefault, habsent, ⟨state, hprovider, hnot⟩, own, hown, hall own ?_⟩
        rw [hown, Option.some_or, Option.mem_def]

/-! ### Selection -/

theorem requiredCaps_foldl {w : Wanted} {ps : List Profile} :
    (ps.foldl Wanted.escalate w).requiredCaps = w.requiredCaps ∨
      ∃ p ∈ ps, (ps.foldl Wanted.escalate w).requiredCaps = p.requiredCapabilities := by
  induction ps generalizing w with
  | nil => exact .inl rfl
  | cons p ps ih =>
    rw [List.foldl_cons]
    rcases @ih (w.escalate p) with h | ⟨q, hq, h⟩
    · exact .inr ⟨p, List.mem_cons_self, h⟩
    · exact .inr ⟨q, List.mem_cons_of_mem _ hq, h⟩

theorem requiredCaps_ne_nil
    (hprofile : policy.profileForRole request.role = some profile) :
    (policy.wanted request profile).requiredCaps ≠ [] := by
  rw [RoutingPolicy.wanted]
  rcases @requiredCaps_foldl (profile.wanted request.riskClass)
    (policy.escalations (detectTriggers request.evidence) request.role) with h | ⟨p, hp, h⟩
  · rw [h]
    exact (parsed_of_profileForRole hprofile).capabilities.1
  · rw [h]
    exact (parsed_of_mem_escalations hp).capabilities.1

variable (registry m) in
/-- A model that some policy can select: it is switched on, and claims a capability and a level of
reasoning. -/
structure Selectable : Prop where
  enabled : modelRegistryEnabled registry m = true
  capabilities : m.capabilityTags ≠ []
  reasoning : m.reasoningLevelsSupported ≠ []

theorem isUsable_of_route (h : route registry policy evidence request = .ok d)
    (hd : d.isTerminal = false) (hm : m ∈ registry.models) (hmodel : d.model = some m.modelId) :
    isUsable registry request.availabilitySnapshot m ∧ Selectable registry m := by
  obtain ⟨profile, level, chosen, usedFallback, code, hprofile, hselect, hbuild⟩ :=
    exists_chosen_of_route h hd
  obtain ⟨hcandidate, husable⟩ := (select_spec hselect).1
  obtain ⟨hadmitted, hreasoned⟩ := (mem_candidatesAt_iff hprofile hbuild).mp ⟨hcandidate, husable⟩
  have hid : chosen.modelId = m.modelId := by
    rw [hbuild] at hmodel
    exact Option.some.inj hmodel
  obtain rfl : chosen = m := eq_of_modelId hadmitted.registered hm hid
  refine ⟨husable, modelRegistryEnabled_iff.mpr ⟨hadmitted.enabled, hadmitted.active,
    hadmitted.provider⟩, fun hnone => ?_, fun hnone => ?_⟩
  · obtain ⟨c, hc⟩ := List.exists_mem_of_ne_nil _ (requiredCaps_ne_nil hprofile)
    have hrequired : d.requiredCapabilities = (policy.wanted request profile).requiredCaps := by
      rw [hbuild]
      rfl
    have hclaimed := hadmitted.capabilities c (by rw [hrequired]; exact hc)
    rw [hnone] at hclaimed
    cases hclaimed
  · obtain ⟨listed, hlisted, -⟩ := hreasoned.profiles profile hprofile
    rw [hnone] at hlisted
    cases hlisted

/-- What is decided at a level that is reached without the owner. -/
theorem route_eq_decideAt {level : Fin (policy.maxAutomaticLevel + 1)}
    (hvalid : request.valid) (hprofile : policy.profileForRole request.role = some profile)
    (hinfo : RoutingReasonCode.missingRequiredExternalInfo ∉ detectTriggers request.evidence)
    (hlevel : policy.level request (policy.wanted request profile).entryLevel = level) :
    route registry policy evidence request =
      .ok (decideAt registry policy evidence request profile level) := by
  rw [route, if_neg (by rw [hvalid]; decide), hprofile]
  dsimp only
  rw [if_neg hinfo, dif_pos (by rw [hlevel]; exact level.2)]
  simp only [hlevel]

/-- What is decided where the first candidate is selected. -/
theorem decideAt_of_select {level : Fin (policy.maxAutomaticLevel + 1)}
    (hselect : select (candidatesAt registry policy evidence request profile level) policy registry
      request.availabilitySnapshot = (some m, false)) :
    decideAt registry policy evidence request profile level = buildDecision request (some m) level
      (some (policy.reasoning level (policy.wanted request profile).minReason))
      (policy.wanted request profile).requiredCaps
      (decisionReason (detectTriggers request.evidence) level
        (profile.entryLevelFor request.riskClass))
      (request.independence profile) := by
  unfold decideAt
  dsimp only
  rw [hselect]
  rfl

/-- The one candidate there is is selected if it can be used. -/
theorem select_of_sole {candidates : List ModelDescriptor} {snapshot : Option AvailabilitySnapshot}
    (hsole : ∀ m', m' ∈ candidates ↔ m' = m) (husable : isUsable registry snapshot m) :
    select candidates policy registry snapshot = (some m, false) := by
  have hmem : ∀ m', m' ∈ rankAll candidates policy ↔ m' = m := fun m' =>
    (List.mem_insertionSort _).trans (hsole m')
  unfold select
  split
  next hnil =>
    rw [hnil] at hmem
    exact absurd ((hmem m).mpr rfl) List.not_mem_nil
  next primary others horder =>
    obtain rfl := (hmem primary).mp (by rw [horder]; exact List.mem_cons_self)
    rw [if_pos husable]

/-! ### A policy for one model -/

section Sole

variable (m) (c : Capability)

/-- A profile that allows one model, for one of its capabilities. -/
def soleProfile : Profile where
  roles := [.implementer]
  requiredCapabilities := [c]
  minimumReasoningLevel := .low
  entryLevel := 0
  allowedModels := [m.modelId]

/-- A policy with one automatic level and one model. -/
def solePolicy : RoutingPolicy where
  maxAutomaticLevel := 0
  ownerLevel := 1
  reasoningDefaults _ := .low
  reasoningCeilings _ := .high
  levelMinTiers _ := 0
  modelTiers := [(m.modelId, 0)]
  profiles := [("implementer", soleProfile m c)]
  costOrder := [.low]
  latencyOrder := [.low]
  owner := by exact smallPolicy.owner
  defaults := fun _ => by decide
  minTiers := by exact smallPolicy.minTiers
  tierKeys := List.nodup_singleton _
  tiers := by simp
  profileKeys := by simp
  parsed := by
    intro e he
    rw [List.mem_singleton.mp he]
    refine ⟨List.nodup_singleton _, ⟨List.cons_ne_nil _ _, List.nodup_singleton _⟩,
      by simp [soleProfile],
      ⟨List.cons_ne_nil _ _, List.nodup_singleton _, fun _ => id⟩, ?_⟩
    rintro l - ceiling -
    exact Nat.zero_le _
  escalationKeys := by exact smallPolicy.escalationKeys
  escalationParsed := by simp
  costs := by exact smallPolicy.costs
  latencies := by exact smallPolicy.latencies
  evidence := by exact smallPolicy.evidence
  triggerStates := by exact smallPolicy.triggerStates

/-- The model has been seen to do such work. -/
def soleEvidence : EvidenceRegistry where
  entries := [⟨m.modelId, c.category, .verified⟩]
  keys := List.nodup_singleton _

def soleRequest (s : AvailabilitySnapshot) : RoutingRequest :=
  { smallRequest with availabilitySnapshot := some s }

/-- The decision that gives it to the model. -/
def soleDecision (s : AvailabilitySnapshot) : RoutingDecision :=
  buildDecision (soleRequest s) (some m) 0 (some .low) [c] .minimumSufficient .sameModelAllowed

theorem validateModels_sole (hm : m ∈ registry.models)
    (henabled : modelRegistryEnabled registry m) :
    (solePolicy m c).validateModels registry := by
  have hknows : RoutingPolicy.knows registry m.modelId = true := by
    obtain ⟨hon, -, pd, hpd, -⟩ := modelRegistryEnabled_iff.mp henabled
    rw [RoutingPolicy.knows, getModel_eq_some.mpr ⟨hm, rfl⟩]
    simp [hon, hpd]
  simp [RoutingPolicy.validateModels, solePolicy, soleProfile, hknows]

variable {m c}

theorem detectTriggers_sole : detectTriggers (soleRequest s).evidence = [] := rfl

theorem wanted_sole : (solePolicy m c).wanted (soleRequest s) (soleProfile m c) =
    ⟨[c], .low, 0, [m.modelId]⟩ := rfl

theorem level_sole : (solePolicy m c).level (soleRequest s) 0 = 0 := by
  have hcurrent : (soleRequest s).currentEscalationLevel = 0 := rfl
  rw [RoutingPolicy.level, detectTriggers_sole, hcurrent]
  simp [applyTriggerLevels, hardRootCause]

theorem mem_candidatesAt_sole (hm : m ∈ registry.models) (hselectable : Selectable registry m)
    (hc : c ∈ m.capabilityTags) {level : Fin ((solePolicy m c).maxAutomaticLevel + 1)}
    {m' : ModelDescriptor} :
    m' ∈ candidatesAt registry (solePolicy m c) (soleEvidence m c) (soleRequest s)
      (soleProfile m c) level ↔ m' = m := by
  simp only [candidatesAt, eligibleCandidates, wanted_sole, List.mem_filter, mem_listModels,
    Bool.and_eq_true, decide_eq_true_eq, List.mem_singleton]
  constructor
  · rintro ⟨hmem, ⟨⟨⟨⟨⟨⟨hid, -⟩, -⟩, -⟩, -⟩, -⟩, -⟩⟩
    exact eq_of_modelId hmem hm hid
  · rintro rfl
    obtain ⟨listed, hlisted⟩ := List.exists_mem_of_ne_nil _ hselectable.reasoning
    have hreasoning : ∀ minimum : ReasoningLevel, minimum = .low →
        reasoningSatisfies m'.reasoningLevelsSupported minimum = true := by
      rintro _ rfl
      exact reasoningSatisfies_iff.mpr ⟨listed, hlisted, Nat.zero_le _⟩
    refine ⟨hm, ⟨⟨⟨⟨⟨⟨rfl, ?_⟩, hselectable.enabled⟩, ?_⟩, hreasoning _ rfl⟩, rfl⟩, ?_⟩⟩
    · simp [RoutingPolicy.tierOf, solePolicy]
    · refine satisfiesFloor_iff.mpr ⟨?_, listed, hlisted, Nat.zero_le _⟩
      rintro _ hmem
      rwa [List.mem_singleton.mp hmem]
    · refine (satisfiesEvidence_iff (solePolicy m' c).evidence).mpr ?_
      rintro _ hmem
      rw [List.mem_singleton.mp hmem]
      simp [EvidenceRegistry.getStatus, soleEvidence, solePolicy, EvidenceStatus.rank]

/-- Where it can be used, it is selected. -/
theorem route_sole (hm : m ∈ registry.models) (hselectable : Selectable registry m)
    (hc : c ∈ m.capabilityTags) (husable : isUsable registry (some s) m) :
    route registry (solePolicy m c) (soleEvidence m c) (soleRequest s) =
      .ok (soleDecision m c s) := by
  have hprofile : (solePolicy m c).profileForRole (soleRequest s).role = some (soleProfile m c) :=
    rfl
  have hvalid : (soleRequest s).valid = true := by
    simp [RoutingRequest.valid, soleRequest, smallRequest]
  have hlevel : (solePolicy m c).level (soleRequest s)
      ((solePolicy m c).wanted (soleRequest s) (soleProfile m c)).entryLevel =
      (⟨0, Nat.succ_pos _⟩ : Fin ((solePolicy m c).maxAutomaticLevel + 1)) := by
    rw [wanted_sole]
    exact level_sole
  have hinfo : RoutingReasonCode.missingRequiredExternalInfo ∉
      detectTriggers (soleRequest s).evidence := by
    rw [detectTriggers_sole]
    exact List.not_mem_nil
  rw [route_eq_decideAt hvalid hprofile hinfo hlevel,
    decideAt_of_select (select_of_sole (fun m' => mem_candidatesAt_sole hm hselectable hc) husable)]
  rfl

end Sole

/-! ### Providers that cannot be used -/

variable (registry m s) in
/-- **What makes a model of an unavailable provider selectable**: an entry of its own that permits
it, where the registry permits it too. -/
structure Overrides : Prop where
  default : (registryDefault registry m).Usable
  own : ∃ state ∈ s.ownEntry m, state.Usable
  selectable : Selectable registry m

/-- **When a model of an unavailable provider is never selected**: whatever the policy, the evidence
and the request under the snapshot, unless it has an entry of its own that permits it. -/
theorem never_selected_iff (hm : m ∈ registry.models)
    (hprovider : s.providerEntry m = some .unavailable) :
    (∀ policy evidence request d, RoutingPolicy.validateModels policy registry →
      request.availabilitySnapshot = some s → route registry policy evidence request = .ok d →
      d.isTerminal = false → d.model ≠ some m.modelId) ↔ ¬Overrides registry m s := by
  constructor
  · rintro hnever ⟨hdefault, ⟨own, hown, husable⟩, hselectable⟩
    obtain ⟨c, hc⟩ := List.exists_mem_of_ne_nil _ hselectable.capabilities
    refine hnever (solePolicy m c) (soleEvidence m c) (soleRequest s) (soleDecision m c s)
      (validateModels_sole m c hm hselectable.enabled) rfl (route_sole hm hselectable hc ?_) ?_ rfl
    · refine isUsable_iff.mpr ⟨hdefault, ?_⟩
      rw [Option.mem_def.mp hown, Option.some_or]
      rintro _ ⟨⟩
      exact husable
    · simp [RoutingDecision.isTerminal, soleDecision, buildDecision, RoutingReasonCode.terminal]
  · intro hoverrides policy evidence request d _ hsnapshot hroute hd hmodel
    obtain ⟨husable, hselectable⟩ := isUsable_of_route hroute hd hm hmodel
    rw [hsnapshot] at husable
    obtain ⟨hdefault, hall⟩ := isUsable_iff.mp husable
    cases hown : s.ownEntry m with
    | none =>
      rw [hown, Option.none_or, hprovider] at hall
      exact absurd (hall .unavailable rfl) (by decide)
    | some own =>
      refine hoverrides ⟨hdefault, ⟨own, hown, hall own ?_⟩, hselectable⟩
      rw [hown, Option.some_or, Option.mem_def]

/-- **An availability snapshot only lowers availability**, where no entry of a model displaces that
of its provider: adding entries and lowering states raises a model in that case alone, and under a
provider that is recorded as `UNAVAILABLE` a model is selectable in that case alone. -/
theorem snapshot_lowers_iff (registry : ModelRegistry) (m : ModelDescriptor)
    (s s' : AvailabilitySnapshot) :
    (Lowers s s' →
      ((isUsable registry (some s') m = true → isUsable registry (some s) m = true) ↔
        ¬Displaces registry m s s')) ∧
    (m ∈ registry.models → s.providerEntry m = some .unavailable →
      ((∀ policy evidence request d, RoutingPolicy.validateModels policy registry = true →
        request.availabilitySnapshot = some s → route registry policy evidence request = .ok d →
        d.isTerminal = false → d.model ≠ some m.modelId) ↔ ¬Overrides registry m s)) :=
  ⟨usable_of_lowers_iff, never_selected_iff⟩

/-! ### A model of an unavailable provider -/

section Outage

/-- A provider is recorded as unavailable. -/
def outage : AvailabilitySnapshot where
  providerStates := [("p", .unavailable)]
  modelStates := []
  providerKeys := by decide
  modelKeys := by decide
  bounded := by decide

/-- A model of it is recorded as available. -/
def exempted : AvailabilitySnapshot where
  providerStates := [("p", .unavailable)]
  modelStates := [("b", .available)]
  providerKeys := by decide
  modelKeys := by decide
  bounded := by decide

theorem lowers_exempted : Lowers outage exempted := by
  refine ⟨fun key state hstate => ⟨state, hstate, le_rfl⟩, fun key state hstate => ?_⟩
  cases hstate

/-- **An entry raises a model**, and it is selected although its provider is unavailable. -/
theorem snapshot_raises : ¬∀ (registry : ModelRegistry) (m : ModelDescriptor)
    (s s' : AvailabilitySnapshot),
    (Lowers s s' → isUsable registry (some s') m = true → isUsable registry (some s) m = true) ∧
    (m ∈ registry.models → s.providerEntry m = some .unavailable →
      ∀ policy evidence request d, RoutingPolicy.validateModels policy registry = true →
        request.availabilitySnapshot = some s → route registry policy evidence request = .ok d →
        d.isTerminal = false → d.model ≠ some m.modelId) := by
  intro h
  obtain ⟨hraised, -⟩ := h smallRegistry (smallModel "b" .medium) outage exempted
  exact absurd (hraised lowers_exempted (by decide)) (by decide)

/-- The entry of the model displaces that of its provider, and overrides it. -/
theorem snapshot_lowers_exempted :
    ((isUsable smallRegistry (some exempted) (smallModel "b" .medium) = true →
        isUsable smallRegistry (some outage) (smallModel "b" .medium) = true) ↔
      ¬Displaces smallRegistry (smallModel "b" .medium) outage exempted) ∧
    ((∀ policy evidence request d, RoutingPolicy.validateModels policy smallRegistry = true →
      request.availabilitySnapshot = some exempted →
      route smallRegistry policy evidence request = .ok d → d.isTerminal = false →
      d.model ≠ some (smallModel "b" .medium).modelId) ↔
      ¬Overrides smallRegistry (smallModel "b" .medium) exempted) :=
  ⟨(snapshot_lowers_iff smallRegistry (smallModel "b" .medium) outage exempted).1 lowers_exempted,
    (snapshot_lowers_iff smallRegistry (smallModel "b" .medium) exempted exempted).2
      (by decide) (by decide)⟩

end Outage

end Routing

end ArgentTeam
