import ArgentTeam.Routing.Route

/-!
# The floor under every decision

A decision that is not terminal names a model that meets everything that is required at its level,
and the first such model in the order of tier, cost, latency and id: the fallback looks through the
same models in the same order, and never leaves them (`floored_of_route`). Among what is required
is the reasoning: a cheaper model that meets all the rest is passed by if it supports no level of
reasoning that is high enough (`cheaper_without_reasoning`).
-/

namespace ArgentTeam

namespace Routing

variable {registry : ModelRegistry} {policy : RoutingPolicy} {evidence : EvidenceRegistry}
  {request : RoutingRequest} {d : RoutingDecision} {profile : Profile} {m : ModelDescriptor}

variable (registry policy evidence request d m) in
/-- **What a model is admitted by**, apart from its reasoning. -/
structure Admitted : Prop where
  registered : m ∈ registry.models
  allowed : ∀ profile, policy.profileForRole request.role = some profile →
    m.modelId ∈ profile.allowedModels
  escalations : ∀ p ∈ policy.escalations (detectTriggers request.evidence) request.role,
    m.modelId ∈ p.allowedModels
  tier : ∃ tier minimum, policy.tierOf m.modelId = some tier ∧
    atLevel policy.levelMinTiers d.escalationLevel = some minimum ∧ minimum ≤ tier
  enabled : m.enabled = true
  active : m.lifecycleState = .active
  provider : ∃ pd, registry.getProvider m.providerId = some pd ∧ pd.enabled = true
  /-- Its effective availability is `AVAILABLE` or `DEGRADED`. -/
  usable : effectiveAvailability registry m request.availabilitySnapshot ∈
    [AvailabilityState.available, .degraded]
  capabilities : ∀ c ∈ d.requiredCapabilities, c ∈ m.capabilityTags
  independence : independenceOk m (d.referenceModelId.bind registry.getModel)
    d.independenceRequirement = true
  evidence : satisfiesEvidence evidence m.modelId d.requiredCapabilities
    policy.evidenceMinimumStatus = true

variable (policy request d m) in
/-- A model supports the reasoning of the decision, and that of all profiles. -/
structure Reasoned : Prop where
  decision : ∀ r ∈ d.reasoningLevel, ∃ level ∈ m.reasoningLevelsSupported, r.rank ≤ level.rank
  profiles : ∀ profile, policy.profileForRole request.role = some profile →
    ∃ level ∈ m.reasoningLevelsSupported, profile.minimumReasoningLevel.rank ≤ level.rank ∧
      ∀ p ∈ policy.escalations (detectTriggers request.evidence) request.role,
        p.minimumReasoningLevel.rank ≤ level.rank

/-! ### The requirements -/

theorem maxReason_le {a b : ReasoningLevel} {n : ℕ} :
    (maxReason a b).rank ≤ n ↔ a.rank ≤ n ∧ b.rank ≤ n := by
  unfold maxReason
  split <;> omega

theorem mem_allowed_foldl {w : Wanted} {ps : List Profile} {id : String} :
    id ∈ (ps.foldl Wanted.escalate w).allowed ↔
      id ∈ w.allowed ∧ ∀ p ∈ ps, id ∈ p.allowedModels := by
  induction ps generalizing w with
  | nil => simp
  | cons p ps ih =>
    rw [List.foldl_cons, ih, Wanted.escalate, List.mem_filter, List.forall_mem_cons,
      decide_eq_true_eq, and_assoc]

theorem minReason_foldl_le {w : Wanted} {ps : List Profile} {n : ℕ} :
    (ps.foldl Wanted.escalate w).minReason.rank ≤ n ↔
      w.minReason.rank ≤ n ∧ ∀ p ∈ ps, p.minimumReasoningLevel.rank ≤ n := by
  induction ps generalizing w with
  | nil => simp
  | cons p ps ih =>
    rw [List.foldl_cons, ih, Wanted.escalate, maxReason_le, List.forall_mem_cons, and_assoc]

theorem entryLevel_le_foldl {w : Wanted} {ps : List Profile} :
    w.entryLevel ≤ (ps.foldl Wanted.escalate w).entryLevel ∧
      ∀ p ∈ ps, p.entryLevel ≤ (ps.foldl Wanted.escalate w).entryLevel := by
  induction ps generalizing w with
  | nil => simp
  | cons p ps ih =>
    obtain ⟨hw, hps⟩ := @ih (w.escalate p)
    rw [Wanted.escalate, sup_le_iff] at hw
    exact ⟨hw.1, List.forall_mem_cons.mpr ⟨hw.2, hps⟩⟩

/-! ### The candidates -/

theorem modelRegistryEnabled_iff : modelRegistryEnabled registry m ↔
    m.enabled ∧ m.lifecycleState = .active ∧
      ∃ pd, registry.getProvider m.providerId = some pd ∧ pd.enabled := by
  simp [modelRegistryEnabled, Option.any_eq_true, and_assoc]

/-- **The candidates that can be used** are the models that are admitted, and support the
reasoning. -/
theorem mem_candidatesAt_iff {level : Fin (policy.maxAutomaticLevel + 1)}
    (hprofile : policy.profileForRole request.role = some profile) {code : RoutingReasonCode}
    {chosen : Option ModelDescriptor}
    (hd : d = buildDecision request chosen level
      (some (policy.reasoning level (policy.wanted request profile).minReason))
      (policy.wanted request profile).requiredCaps code (request.independence profile)) :
    m ∈ candidatesAt registry policy evidence request profile level ∧
        isUsable registry request.availabilitySnapshot m ↔
      Admitted registry policy evidence request d m ∧ Reasoned policy request d m := by
  have hlevel : atLevel policy.levelMinTiers level = some (policy.levelMinTiers level) :=
    dif_pos level.2
  have hallowed : m.modelId ∈ (policy.wanted request profile).allowed ↔
      m.modelId ∈ profile.allowedModels ∧
        ∀ p ∈ policy.escalations (detectTriggers request.evidence) request.role,
          m.modelId ∈ p.allowedModels := mem_allowed_foldl
  have hreason : ∀ n, (policy.wanted request profile).minReason.rank ≤ n ↔
      profile.minimumReasoningLevel.rank ≤ n ∧
        ∀ p ∈ policy.escalations (detectTriggers request.evidence) request.role,
          p.minimumReasoningLevel.rank ≤ n := fun n => minReason_foldl_le
  simp only [candidatesAt, eligibleCandidates, List.mem_filter, mem_listModels, Bool.and_eq_true,
    decide_eq_true_eq, Option.any_eq_true, modelRegistryEnabled_iff, reasoningSatisfies_iff,
    satisfiesFloor_iff, hallowed, hreason, isUsable]
  subst hd
  generalize policy.wanted request profile = w at *
  generalize policy.reasoning level w.minReason = r at *
  constructor
  · rintro ⟨⟨hmem, ⟨⟨⟨⟨⟨⟨hallow, hescalations⟩, tier, htier, hle⟩, henabled, hactive, hprovider⟩,
      hcapabilities, hprofiles⟩, hdecision⟩, hindependence⟩, hevidence⟩, husable⟩
    refine ⟨⟨hmem, fun p hp => ?_, hescalations, ⟨tier, _, htier, hlevel, hle⟩, henabled, hactive,
      hprovider, husable, hcapabilities, hindependence, hevidence⟩, fun r hr => ?_, fun p hp => ?_⟩
    · rwa [← Option.mem_unique hprofile hp]
    · rwa [← Option.some.inj hr]
    · rwa [← Option.mem_unique hprofile hp]
  · rintro ⟨h, h'⟩
    obtain ⟨tier, minimum, htier, hminimum, hle⟩ := h.tier
    rw [← Option.mem_unique hlevel hminimum] at hle
    exact ⟨⟨h.registered, ⟨⟨⟨⟨⟨⟨h.allowed profile hprofile, h.escalations⟩, tier, htier, hle⟩,
      h.enabled, h.active, h.provider⟩, h.capabilities, h'.profiles profile hprofile⟩,
      h'.decision _ rfl⟩, h.independence⟩, h.evidence⟩, h.usable⟩

/-! ### The choice -/

/-- The first element of a sorted list with a property is the least one with it. -/
theorem le_of_find_eq_some {α β : Type} [Preorder β] {key : α → β} {p : α → Bool} {as : List α}
    {a : α} (hsorted : as.Pairwise fun x y => key x ≤ key y) (hfind : as.find? p = some a) :
    ∀ b ∈ as, p b = true → key a ≤ key b := by
  obtain ⟨-, before, after, rfl, hbefore⟩ := List.find?_eq_some_iff_append.mp hfind
  intro b hb hpb
  rcases List.mem_append.mp hb with hb | hb
  · have hnot := hbefore b hb
    rw [hpb] at hnot
    cases hnot
  · rcases List.mem_cons.mp hb with rfl | hb
    · exact le_rfl
    · exact (List.pairwise_cons.mp (List.pairwise_append.mp hsorted).2.1).1 b hb

/-- **The fallback never leaves the order**: whatever is chosen is the first that can be used. -/
theorem find_eq_of_select {candidates : List ModelDescriptor}
    {snapshot : Option AvailabilitySnapshot} {usedFallback : Bool}
    (h : select candidates policy registry snapshot = (some m, usedFallback)) :
    (rankAll candidates policy).find? (isUsable registry snapshot) = some m := by
  unfold select at h
  split at h
  · cases h
  next primary others horder =>
    rw [horder]
    split at h
    next husable =>
      cases h
      exact List.find?_cons_of_pos husable
    next hunusable =>
      rw [List.find?_cons_of_neg (by simpa using hunusable)]
      split at h
      · cases h
      · split at h
        · cases h
        · exact congrArg Prod.fst h

/-- What is chosen is a candidate that can be used, and the first of them. -/
theorem select_spec {candidates : List ModelDescriptor} {snapshot : Option AvailabilitySnapshot}
    {usedFallback : Bool}
    (h : select candidates policy registry snapshot = (some m, usedFallback)) :
    (m ∈ candidates ∧ isUsable registry snapshot m) ∧
      ∀ m' ∈ candidates, isUsable registry snapshot m' →
        policy.rankKey m ≤ policy.rankKey m' := by
  have hfind := find_eq_of_select h
  have hmem : ∀ m', m' ∈ rankAll candidates policy ↔ m' ∈ candidates := fun m' =>
    List.mem_insertionSort _
  have hsorted : (rankAll candidates policy).Pairwise fun a b =>
      policy.rankKey a ≤ policy.rankKey b :=
    List.pairwise_insertionSort (fun a b : ModelDescriptor => policy.rankKey a ≤ policy.rankKey b) _
  refine ⟨⟨(hmem m).mp (List.mem_of_find?_eq_some hfind), List.find?_some hfind⟩,
    fun m' hm' husable => ?_⟩
  exact le_of_find_eq_some hsorted hfind m' ((hmem m').mpr hm') husable

/-! ### Decisions -/

theorem isTerminal_terminal (request : RoutingRequest) (caps : List Capability)
    (code : RoutingReasonCode) (level : ℕ) (independence : Independence) :
    (terminal request caps code level independence).isTerminal := rfl

theorem exists_chosen_of_decideAt {level : Fin (policy.maxAutomaticLevel + 1)}
    (hd : (decideAt registry policy evidence request profile level).isTerminal = false) :
    ∃ m usedFallback code,
      select (candidatesAt registry policy evidence request profile level) policy registry
        request.availabilitySnapshot = (some m, usedFallback) ∧
      decideAt registry policy evidence request profile level = buildDecision request (some m) level
        (some (policy.reasoning level (policy.wanted request profile).minReason))
        (policy.wanted request profile).requiredCaps code (request.independence profile) := by
  unfold decideAt at hd ⊢
  simp only at hd ⊢
  split at hd
  · rw [isTerminal_terminal] at hd
    cases hd
  next m usedFallback hselect => exact ⟨m, usedFallback, _, hselect, rfl⟩

/-- What a decision is that is not terminal. -/
theorem exists_chosen_of_route (h : route registry policy evidence request = .ok d)
    (hd : d.isTerminal = false) :
    ∃ profile level m usedFallback code,
      policy.profileForRole request.role = some profile ∧
      select (candidatesAt registry policy evidence request profile level) policy registry
        request.availabilitySnapshot = (some m, usedFallback) ∧
      d = buildDecision request (some m) level
        (some (policy.reasoning level (policy.wanted request profile).minReason))
        (policy.wanted request profile).requiredCaps code (request.independence profile) := by
  unfold route at h
  split at h
  · cases h
  · split at h
    · cases h
    next profile hprofile =>
      simp only at h
      split at h
      · cases h
        rw [isTerminal_terminal] at hd
        cases hd
      · split at h
        next hlevel =>
          cases h
          obtain ⟨m, usedFallback, code, hselect, hbuild⟩ := exists_chosen_of_decideAt hd
          exact ⟨profile, _, m, usedFallback, code, hprofile, hselect, hbuild⟩
        · cases h
          rw [isTerminal_terminal] at hd
          cases hd

/-- **The floor**: a decision that is not terminal names a model that is admitted and supports the
reasoning, and no other such model comes before it. -/
theorem floored_of_route (h : route registry policy evidence request = .ok d)
    (hd : d.isTerminal = false) :
    ∃ m, d.model = some m.modelId ∧ d.provider = some m.providerId ∧
      Admitted registry policy evidence request d m ∧ Reasoned policy request d m ∧
      ∀ m', Admitted registry policy evidence request d m' → Reasoned policy request d m' →
        ¬policy.rankKey m' < policy.rankKey m := by
  obtain ⟨profile, level, m, usedFallback, code, hprofile, hselect, hbuild⟩ :=
    exists_chosen_of_route h hd
  obtain ⟨hchosen, hleast⟩ := select_spec hselect
  obtain ⟨hadmitted, hreasoned⟩ := (mem_candidatesAt_iff hprofile hbuild).mp hchosen
  refine ⟨m, by rw [hbuild]; rfl, by rw [hbuild]; rfl, hadmitted, hreasoned,
    fun m' hadmitted' hreasoned' => not_lt.mpr ?_⟩
  obtain ⟨hmem, husable⟩ := (mem_candidatesAt_iff hprofile hbuild).mpr ⟨hadmitted', hreasoned'⟩
  exact hleast m' hmem husable

/-! ### A cheaper model -/

section Small

def smallProvider : ProviderDescriptor where
  providerId := "p"
  enabled := true
  availabilityState := .available
  capabilitiesSupported := [.codeImplementation]

/-- A model of it, with one level of reasoning. -/
def smallModel (modelId : String) (level : ReasoningLevel) : ModelDescriptor where
  modelId := modelId
  providerId := "p"
  enabled := true
  lifecycleState := .active
  reasoningLevelsSupported := [level]
  capabilityTags := [.codeImplementation]

/-- A registry with two models that differ in their reasoning. -/
def smallRegistry : ModelRegistry where
  providers := [smallProvider]
  models := [smallModel "a" .low, smallModel "b" .medium]
  providerIds := by decide
  modelIds := by decide
  references := by decide

/-- A profile that allows both. -/
def smallProfile : Profile where
  roles := [.implementer]
  requiredCapabilities := [.codeImplementation]
  minimumReasoningLevel := .low
  entryLevel := 0
  allowedModels := ["a", "b"]

/-- A policy with one automatic level, of medium reasoning. -/
def smallPolicy : RoutingPolicy where
  maxAutomaticLevel := 0
  ownerLevel := 1
  reasoningDefaults _ := .medium
  reasoningCeilings _ := .medium
  levelMinTiers _ := 0
  modelTiers := [("a", 0), ("b", 0)]
  profiles := [("implementer", smallProfile)]
  costOrder := [.low]
  latencyOrder := [.low]
  owner := by decide
  defaults := fun _ => le_rfl
  minTiers := fun _ => Nat.zero_le _
  tierKeys := by decide
  tiers := by decide
  profileKeys := by decide
  parsed := by
    rintro e he
    rw [List.mem_singleton.mp he]
    refine ⟨by decide, by decide, by decide, by decide, ?_⟩
    rintro l - c -
    exact Nat.zero_le _
  escalationKeys := by decide
  escalationParsed := by simp
  costs := by decide
  latencies := by decide
  evidence := by decide
  triggerStates := by decide

/-- Both have been seen to write code. -/
def smallEvidence : EvidenceRegistry where
  entries := [⟨"a", .repositoryCoding, .provisional⟩, ⟨"b", .repositoryCoding, .provisional⟩]
  keys := by decide

/-- A request of an implementer. -/
def smallRequest : RoutingRequest where
  jobId := "j"
  taskId := "t"
  role := .implementer

/-- The second model is chosen. -/
def smallDecision : RoutingDecision :=
  buildDecision smallRequest (some (smallModel "b" .medium)) 0 (some .medium) [.codeImplementation]
    .minimumSufficient .sameModelAllowed

theorem route_small : route smallRegistry smallPolicy smallEvidence smallRequest =
    .ok smallDecision := by
  decide

/-- The first model meets all that is required but for the reasoning. -/
theorem admitted_small : Admitted smallRegistry smallPolicy smallEvidence smallRequest
    smallDecision (smallModel "a" .low) := by
  have hprofile : smallPolicy.profileForRole smallRequest.role = some smallProfile := by
    decide
  have hescalations : smallPolicy.escalations (detectTriggers smallRequest.evidence)
      smallRequest.role = [] := by
    decide
  refine ⟨List.mem_cons_self, fun profile hp => ?_, fun p hp => ?_, ⟨0, 0, by decide,
    by decide, le_rfl⟩, rfl, rfl, ⟨smallProvider, by decide, rfl⟩,
    by decide, fun c hc => hc, rfl, by decide⟩
  · rw [← Option.mem_unique hprofile hp]
    exact List.mem_cons_self
  · rw [hescalations] at hp
    cases hp

/-- **A cheaper model is passed by**: it meets all that is required but for the reasoning. -/
theorem cheaper_without_reasoning : ¬∀ registry policy evidence request d,
    RoutingPolicy.validateModels policy registry = true →
    route registry policy evidence request = .ok d → d.isTerminal = false →
    ∃ m, d.model = some m.modelId ∧ Admitted registry policy evidence request d m ∧
      ∀ m', Admitted registry policy evidence request d m' →
        ¬policy.rankKey m' < policy.rankKey m := by
  intro h
  obtain ⟨m, hmodel, hadmitted, hleast⟩ := h smallRegistry smallPolicy smallEvidence smallRequest
    smallDecision (by decide) route_small (by decide)
  have hid : m.modelId = "b" := (Option.some.inj hmodel).symm
  have hm : m = smallModel "b" .medium :=
    eq_of_modelId hadmitted.registered (List.mem_cons_of_mem _ List.mem_cons_self) hid
  have hcheaper : smallPolicy.rankKey (smallModel "a" .low) < smallPolicy.rankKey m := by
    rw [hm]
    decide
  exact hleast _ admitted_small hcheaper

/-- The decision has a model that is admitted. -/
theorem floored_small : ∃ m, smallDecision.model = some m.modelId ∧
    smallDecision.provider = some m.providerId ∧
    Admitted smallRegistry smallPolicy smallEvidence smallRequest smallDecision m ∧
    Reasoned smallPolicy smallRequest smallDecision m ∧
    ∀ m', Admitted smallRegistry smallPolicy smallEvidence smallRequest smallDecision m' →
      Reasoned smallPolicy smallRequest smallDecision m' →
        ¬smallPolicy.rankKey m' < smallPolicy.rankKey m :=
  floored_of_route route_small (by decide)

end Small

end Routing

end ArgentTeam
