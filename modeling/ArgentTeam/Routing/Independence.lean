import ArgentTeam.Routing.Floor

/-!
# The independence of a decision

How far a model has to differ from the model of reference can be said in three places: by the
request, by the profile of the role, and for a review by the router itself. The first that speaks
decides, and for a review that is always the router, with a different model. What has been decided
is met, and with it everything that asks for no more (`independence_of_route`). A place that asks
for more than the one that decides is not heard: a review that is requested from a different
provider may be given to another model of the same one (`same_provider_review`).
-/

namespace ArgentTeam

namespace Routing

variable {registry : ModelRegistry} {policy : RoutingPolicy} {evidence : EvidenceRegistry}
  {request : RoutingRequest} {d : RoutingDecision} {profile : Profile} {m : ModelDescriptor}
  {referenceModelId : Option String} {c c' : Independence}

/-- How much a constraint asks for. -/
def Independence.strength : Independence → ℕ
  | sameModelAllowed => 0
  | differentProviderPreferred => 1
  | differentModelRequired => 2
  | differentProviderRequired => 3

/-- What a constraint asks of a model, given the id of the model of reference: nothing, that there
is a reference, or that the model or its provider is a different one. -/
def Independent (registry : ModelRegistry) (referenceModelId : Option String)
    (m : ModelDescriptor) : Independence → Prop
  | .sameModelAllowed => True
  | .differentProviderPreferred =>
    ∃ reference ∈ registry.models, referenceModelId = some reference.modelId
  | .differentModelRequired => ∃ reference ∈ registry.models,
    referenceModelId = some reference.modelId ∧ m.modelId ≠ reference.modelId
  | .differentProviderRequired => ∃ reference ∈ registry.models,
    referenceModelId = some reference.modelId ∧ m.providerId ≠ reference.providerId

/-- The constraints that are expressed for a request. -/
def RoutingRequest.expressed (request : RoutingRequest) (profile : Profile) : List Independence :=
  request.independenceRequirement.toList ++ profile.independence.toList ++
    if request.role = .reviewer then [.differentModelRequired] else []

variable (request profile c) in
/-- The constraint in force is that of the first place that speaks. -/
structure InForce : Prop where
  byRouter : request.role = .reviewer → c = .differentModelRequired
  byRequest : request.role ≠ .reviewer → ∀ asked ∈ request.independenceRequirement, c = asked
  byProfile : request.role ≠ .reviewer → request.independenceRequirement = none →
    ∀ default ∈ profile.independence, c = default
  unsaid : request.role ≠ .reviewer → request.independenceRequirement = none →
    profile.independence = none → c = .sameModelAllowed

/-! ### Constraints -/

theorem bind_getModel_eq_some {reference : ModelDescriptor} :
    referenceModelId.bind registry.getModel = some reference ↔
      reference ∈ registry.models ∧ referenceModelId = some reference.modelId := by
  rw [Option.bind_eq_some_iff]
  constructor
  · rintro ⟨modelId, rfl, hfind⟩
    obtain ⟨hmem, rfl⟩ := getModel_eq_some.mp hfind
    exact ⟨hmem, rfl⟩
  · rintro ⟨hmem, rfl⟩
    exact ⟨reference.modelId, rfl, getModel_eq_some.mpr ⟨hmem, rfl⟩⟩

/-- The filter keeps exactly the models that are as independent as is asked for. -/
theorem independenceOk_iff :
    independenceOk m (referenceModelId.bind registry.getModel) c ↔
      Independent registry referenceModelId m c := by
  have hreference : ∀ P : ModelDescriptor → Prop,
      (∃ reference ∈ registry.models, referenceModelId = some reference.modelId ∧ P reference) ↔
        ∃ reference, referenceModelId.bind registry.getModel = some reference ∧ P reference := by
    intro P
    refine exists_congr fun reference => ?_
    rw [bind_getModel_eq_some, and_assoc]
  cases c with
  | sameModelAllowed => simp [independenceOk, Independent]
  | differentProviderPreferred =>
    have hpreferred := hreference fun _ => True
    simp only [and_true] at hpreferred
    rw [Independent, hpreferred]
    cases referenceModelId.bind registry.getModel <;> simp [independenceOk]
  | differentModelRequired =>
    rw [Independent, hreference fun reference => m.modelId ≠ reference.modelId]
    cases referenceModelId.bind registry.getModel <;> simp [independenceOk]
  | differentProviderRequired =>
    rw [Independent, hreference fun reference => m.providerId ≠ reference.providerId]
    cases referenceModelId.bind registry.getModel <;> simp [independenceOk]

theorem Independent.differentModel (hm : m ∈ registry.models)
    (h : Independent registry referenceModelId m .differentProviderRequired) :
    Independent registry referenceModelId m .differentModelRequired := by
  obtain ⟨reference, hmem, hid, hprovider⟩ := h
  refine ⟨reference, hmem, hid, fun hsame => hprovider ?_⟩
  rw [eq_of_modelId hm hmem hsame]

theorem Independent.preferred
    (h : Independent registry referenceModelId m .differentModelRequired) :
    Independent registry referenceModelId m .differentProviderPreferred := by
  obtain ⟨reference, hmem, hid, -⟩ := h
  exact ⟨reference, hmem, hid⟩

/-- **What meets a constraint meets every weaker one.** -/
theorem Independent.weaken (hm : m ∈ registry.models)
    (h : Independent registry referenceModelId m c) (hle : c'.strength ≤ c.strength) :
    Independent registry referenceModelId m c' := by
  cases c' with
  | sameModelAllowed => trivial
  | differentProviderPreferred =>
    cases c with
    | sameModelAllowed => exact absurd hle (by decide)
    | differentProviderPreferred => exact h
    | differentModelRequired => exact h.preferred
    | differentProviderRequired => exact (h.differentModel hm).preferred
  | differentModelRequired =>
    cases c with
    | sameModelAllowed | differentProviderPreferred => exact absurd hle (by decide)
    | differentModelRequired => exact h
    | differentProviderRequired => exact h.differentModel hm
  | differentProviderRequired =>
    cases c with
    | sameModelAllowed | differentProviderPreferred | differentModelRequired =>
      exact absurd hle (by decide)
    | differentProviderRequired => exact h

/-! ### Precedence -/

/-- The router takes the first place that speaks. -/
theorem inForce_independence : InForce request profile (request.independence profile) := by
  unfold RoutingRequest.independence
  refine ⟨fun hrole => if_pos hrole, fun hrole asked hasked => ?_,
    fun hrole hnone default hdefault => ?_, fun hrole hnone hnone' => ?_⟩
  · rw [if_neg hrole, Option.mem_def.mp hasked, Option.some_or, Option.getD_some]
  · rw [if_neg hrole, hnone, Option.none_or, Option.mem_def.mp hdefault, Option.getD_some]
  · rw [if_neg hrole, hnone, hnone', Option.none_or, Option.getD_none]

/-- **The independence of a decision**: the first place that speaks decides, and the chosen model
meets what it asks for, and every expressed constraint that is not stronger. -/
theorem independence_of_route (h : route registry policy evidence request = .ok d)
    (hd : d.isTerminal = false) :
    ∃ profile, policy.profileForRole request.role = some profile ∧
      InForce request profile d.independenceRequirement ∧
      ∃ m ∈ registry.models, d.model = some m.modelId ∧
        Independent registry request.referenceModelId m d.independenceRequirement ∧
        ∀ c ∈ request.expressed profile, c.strength ≤ d.independenceRequirement.strength →
          Independent registry request.referenceModelId m c := by
  obtain ⟨profile, level, m, usedFallback, code, hprofile, hselect, hbuild⟩ :=
    exists_chosen_of_route h hd
  obtain ⟨hadmitted, -⟩ := (mem_candidatesAt_iff hprofile hbuild).mp (select_spec hselect).1
  have hforce : d.independenceRequirement = request.independence profile := by rw [hbuild]; rfl
  have hreference : d.referenceModelId = request.referenceModelId := by rw [hbuild]; rfl
  have hmet := (independenceOk_iff).mp hadmitted.independence
  rw [hreference] at hmet
  refine ⟨profile, hprofile, by rw [hforce]; exact inForce_independence, m, hadmitted.registered,
    by rw [hbuild]; rfl, hmet, fun c _ hle => hmet.weaken hadmitted.registered hle⟩

/-! ### A review by the same provider -/

section Review

def reviewProfile : Profile := { smallProfile with roles := [.reviewer] }

def reviewPolicy : RoutingPolicy :=
  { smallPolicy with
    profiles := [("reviewer", reviewProfile)]
    profileKeys := by decide
    parsed := by
      intro e he
      rw [List.mem_singleton.mp he]
      refine ⟨by decide, by decide, by decide, by decide, ?_⟩
      rintro l - c -
      exact Nat.zero_le _ }

/-- A review of what the first model has written, requested from a different provider. -/
def reviewRequest : RoutingRequest where
  jobId := "j"
  taskId := "t"
  role := .reviewer
  referenceModelId := some "a"
  independenceRequirement := some .differentProviderRequired

/-- The other model of the provider is chosen. -/
def reviewDecision : RoutingDecision :=
  buildDecision reviewRequest (some (smallModel "b" .medium)) 0 (some .medium) [.codeImplementation]
    .minimumSufficient .differentModelRequired

theorem route_review : route smallRegistry reviewPolicy smallEvidence reviewRequest =
    .ok reviewDecision := by
  decide +kernel

/-- **The strongest constraint need not be met**: a review that is requested from a different
provider is given to the provider of the model of reference. -/
theorem same_provider_review : ¬∀ registry policy evidence request d,
    RoutingPolicy.validateModels policy registry = true →
    route registry policy evidence request = .ok d → d.isTerminal = false →
    ∃ profile, policy.profileForRole request.role = some profile ∧
      ∃ m ∈ registry.models, d.model = some m.modelId ∧
        ∀ c ∈ request.expressed profile,
          (∀ c' ∈ request.expressed profile, c'.strength ≤ c.strength) →
          Independent registry request.referenceModelId m c := by
  intro h
  obtain ⟨profile, -, m, hm, hmodel, hmet⟩ := h smallRegistry reviewPolicy smallEvidence
    reviewRequest reviewDecision (by decide) route_review (by decide)
  have hasked : Independence.differentProviderRequired ∈ reviewRequest.expressed profile :=
    List.mem_append_left _ (List.mem_append_left _ List.mem_cons_self)
  have hstrongest : ∀ c' : Independence,
      c'.strength ≤ Independence.differentProviderRequired.strength := by
    intro c'
    cases c' <;> decide
  obtain ⟨reference, hreference, -, hprovider⟩ := hmet _ hasked fun c' _ => hstrongest c'
  have hsame : ∀ md ∈ smallRegistry.models, md.providerId = "p" := by decide
  exact hprovider ((hsame m hm).trans (hsame reference hreference).symm)

/-- The model that is chosen is a different one. -/
theorem independence_review : ∃ profile,
    reviewPolicy.profileForRole reviewRequest.role = some profile ∧
    InForce reviewRequest profile reviewDecision.independenceRequirement ∧
    ∃ m ∈ smallRegistry.models, reviewDecision.model = some m.modelId ∧
      Independent smallRegistry reviewRequest.referenceModelId m
        reviewDecision.independenceRequirement ∧
      ∀ c ∈ reviewRequest.expressed profile,
        c.strength ≤ reviewDecision.independenceRequirement.strength →
        Independent smallRegistry reviewRequest.referenceModelId m c :=
  independence_of_route route_review (by decide)

end Review

end Routing

end ArgentTeam
