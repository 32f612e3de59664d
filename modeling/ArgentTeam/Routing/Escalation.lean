import ArgentTeam.Routing.Reasoning

/-!
# Escalation

A decision carries the level it was made at, and the next request for the same work is made at that
level. The triggers are read off the evidence again: a trigger that raises the level by one step
raises it with every request, whether or not there is new evidence, up to the gate of the owner.
-/

namespace ArgentTeam

namespace Routing

/-! ### The level of a request -/

def stepCodes : List RoutingReasonCode :=
  [.reviewerRejectedCandidate, .contradictoryEvidence, .concurrencyComplexity, .recoveryComplexity,
    .unexpectedScopeGrowth]

def Deep (triggers : List RoutingReasonCode) (role : Role) : Prop :=
  hardRootCause triggers = true ∨
    .securityComplexity ∈ triggers ∧ role ∈ [Role.analyst, .reviewer, .lead]

/-- The triggers that raise the level of a request at the level `current`. -/
def Steps (triggers : List RoutingReasonCode) (current : ℕ) : Prop :=
  (∃ code ∈ stepCodes, code ∈ triggers) ∨ hardRootCause triggers = true ∧ 2 ≤ current

/-- The triggers that raise the level at some level. -/
def Climbs (triggers : List RoutingReasonCode) : Prop :=
  (∃ code ∈ stepCodes, code ∈ triggers) ∨ hardRootCause triggers = true

instance {triggers : List RoutingReasonCode} {role : Role} : Decidable (Deep triggers role) := by
  unfold Deep
  infer_instance

instance {triggers : List RoutingReasonCode} {current : ℕ} :
    Decidable (Steps triggers current) := by
  unfold Steps
  infer_instance

/-- The level that triggers lead to: the greatest of those that are asked for, and a step. -/
def raised (triggers : List RoutingReasonCode) (role : Role) (entryLevel current : ℕ) : ℕ :=
  max (max entryLevel current) (if Deep triggers role then 2 else 0) +
    if Steps triggers current then 1 else 0

section Levels

variable {triggers : List RoutingReasonCode} {role : Role} {entryLevel current : ℕ}

theorem applyTriggerLevels_eq : applyTriggerLevels (max entryLevel current) current triggers role =
    raised triggers role entryLevel current := by
  have hsteps : (([RoutingReasonCode.reviewerRejectedCandidate, .contradictoryEvidence,
      .concurrencyComplexity, .recoveryComplexity, .unexpectedScopeGrowth].any (· ∈ triggers) ||
      (hardRootCause triggers && decide (2 ≤ current))) = true) ↔ Steps triggers current := by
    simp [Steps, stepCodes]
  have hdeep : (if .securityComplexity ∈ triggers ∧ role ∈ [Role.analyst, .reviewer, .lead] then
      max (if hardRootCause triggers then max (max entryLevel current) 2
        else max entryLevel current) 2
      else if hardRootCause triggers then max (max entryLevel current) 2
      else max entryLevel current) =
      max (max entryLevel current) (if Deep triggers role then 2 else 0) := by
    by_cases hsecurity : .securityComplexity ∈ triggers ∧ role ∈ [Role.analyst, .reviewer, .lead]
    · have hdeep : Deep triggers role := .inr hsecurity
      rw [if_pos hsecurity, if_pos hdeep]
      split <;> omega
    · rw [if_neg hsecurity]
      by_cases hhard : hardRootCause triggers = true
      · have hdeep : Deep triggers role := .inl hhard
        rw [if_pos hhard, if_pos hdeep]
      · have hdeep : ¬Deep triggers role := fun h => h.elim hhard hsecurity
        rw [if_neg hhard, if_neg hdeep, Nat.max_zero]
  simp only [applyTriggerLevels, hsteps, hdeep, raised]
  split <;> rfl

theorem Steps.climbs (h : Steps triggers current) : Climbs triggers :=
  h.imp id And.left

/-- Triggers that climb impose deep reasoning, or raise the level at every level. -/
theorem Climbs.steps (h : Climbs triggers) (hlevel : Deep triggers role → 2 ≤ current) :
    Steps triggers current :=
  h.imp id fun hhard => ⟨hhard, hlevel (.inl hhard)⟩

theorem le_raised : current ≤ raised triggers role entryLevel current := by
  unfold raised
  omega

/-- **Raising a level again leaves it as it is only where no step is left**: no trigger climbs, or
the bound is reached. -/
theorem raised_again_iff {owner : ℕ} (hcurrent : current ≤ owner) :
    min (raised triggers role entryLevel (min (raised triggers role entryLevel current)
      owner)) owner =
      min (raised triggers role entryLevel current) owner ↔
      ¬Climbs triggers ∨ owner ≤ raised triggers role entryLevel current := by
  have hfirst : max (max entryLevel current) (if Deep triggers role then 2 else 0) ≤
      raised triggers role entryLevel current := Nat.le_add_right ..
  generalize hr : raised triggers role entryLevel current = r at *
  by_cases howner : owner ≤ r
  · simp only [min_eq_right howner, howner, or_true, iff_true]
    exact min_eq_right le_raised
  · rw [min_eq_left (Nat.le_of_not_le howner)]
    by_cases hclimbs : Climbs triggers
    · have hsteps : Steps triggers r := hclimbs.steps fun (hdeep : Deep triggers role) => by
        rw [if_pos hdeep] at hfirst
        omega
      simp only [hclimbs, howner, not_true_eq_false, or_self, iff_false, raised, if_pos hsteps]
      omega
    · have hnone : ¬Steps triggers r := fun h => hclimbs h.climbs
      simp only [hclimbs, not_false_eq_true, true_or, iff_true, raised, if_neg hnone]
      omega

end Levels

/-! ### Routing again -/

section Again

variable {registry : ModelRegistry} {policy : RoutingPolicy} {evidence : EvidenceRegistry}
  {request : RoutingRequest} {profile : Profile} {d : RoutingDecision}

/-- The next request for the same work, with nothing new. -/
def RoutingRequest.following (request : RoutingRequest) (d : RoutingDecision) : RoutingRequest :=
  { request with currentEscalationLevel := d.escalationLevel }

/-- What is decided after so many repetitions of a request. -/
def repeated (registry : ModelRegistry) (policy : RoutingPolicy) (evidence : EvidenceRegistry) :
    ℕ → RoutingRequest → Except RoutingError RoutingDecision
  | 0, request => route registry policy evidence request
  | n + 1, request => do
    let d ← route registry policy evidence request
    repeated registry policy evidence n (request.following d)

variable (registry policy evidence request d) in
/-- The escalation of a request settles at the level of the decision. -/
structure Settles : Prop where
  again : ∃ d', route registry policy evidence (request.following d) = .ok d' ∧
    d'.escalationLevel = d.escalationLevel
  bounds : request.currentEscalationLevel ≤ d.escalationLevel ∧
    d.escalationLevel ≤ policy.ownerLevel
  gate : ∀ n d', repeated registry policy evidence n request = .ok d' →
    d'.decisionReasonCode = .ownerGate → d.decisionReasonCode = .ownerGate

variable (policy request) in
/-- The level a request is made at is one of the policy, and no step is left above it: no trigger
climbs, or the level they start from is within a step of the owner's. -/
def NoStepLeft : Prop :=
  request.currentEscalationLevel ≤ policy.ownerLevel ∧
    (¬Climbs (detectTriggers request.evidence) ∨ ∃ profile ∈ policy.profileForRole request.role,
      policy.ownerLevel ≤ raised (detectTriggers request.evidence) request.role
        (policy.wanted request profile).entryLevel request.currentEscalationLevel.toNat)

theorem level_eq {entryLevel : ℕ} : policy.level request entryLevel =
    min (raised (detectTriggers request.evidence) request.role entryLevel
      (min request.currentEscalationLevel.toNat policy.ownerLevel)) policy.ownerLevel := by
  have hcurrent : (max 0 (min request.currentEscalationLevel policy.ownerLevel)).toNat =
      min request.currentEscalationLevel.toNat policy.ownerLevel := by omega
  rw [RoutingPolicy.level, hcurrent, applyTriggerLevels_eq]

theorem valid_following (h : request.valid) : (request.following d).valid := by
  simp only [RoutingRequest.valid, Bool.and_eq_true, decide_eq_true_eq] at h ⊢
  exact ⟨⟨h.1.1, Int.natCast_nonneg _⟩, h.2⟩

/-- A request that is routed is valid, and of a role the policy has a profile for. -/
theorem profile_of_route (h : route registry policy evidence request = .ok d) :
    request.valid ∧ ∃ profile, policy.profileForRole request.role = some profile := by
  unfold route at h
  split at h
  · cases h
  next hvalid =>
    refine ⟨by simpa using hvalid, ?_⟩
    cases hprofile : policy.profileForRole request.role with
    | none => simp [hprofile] at h
    | some profile => exact ⟨profile, rfl⟩

/-- Nothing but the level of a request tells a repetition from it. -/
theorem route_following (h : route registry policy evidence request = .ok d)
    (hprofile : policy.profileForRole request.role = some profile)
    (hlevel : policy.level (request.following d) (policy.wanted request profile).entryLevel =
      d.escalationLevel) :
    route registry policy evidence (request.following d) = .ok d := by
  have hfollowing := valid_following (d := d) (profile_of_route h).1
  rw [escalationLevel_of_route h hprofile] at hlevel
  have hrole : policy.profileForRole (request.following d).role = some profile := hprofile
  have hwanted : policy.wanted (request.following d) profile = policy.wanted request profile := rfl
  have hvalid := (profile_of_route h).1
  rw [← h]
  simp only [route, hvalid, hfollowing, hrole, hprofile, hwanted, hlevel]
  rfl

/-- A decision that comes again comes after every number of repetitions. -/
theorem repeated_eq (h : route registry policy evidence request = .ok d)
    (hagain : route registry policy evidence (request.following d) = .ok d) (n : ℕ) :
    repeated registry policy evidence n request = .ok d := by
  induction n generalizing request with
  | zero => exact h
  | succ n ih =>
    have hnext : repeated registry policy evidence (n + 1) request =
        repeated registry policy evidence n (request.following d) := by
      rw [repeated, h]
      rfl
    rw [hnext]
    exact ih hagain hagain

/-- **The level of a repetition is the same exactly where no step is left.** -/
theorem level_following_iff (h : route registry policy evidence request = .ok d)
    (hprofile : policy.profileForRole request.role = some profile) :
    policy.level (request.following d) (policy.wanted request profile).entryLevel =
        d.escalationLevel ↔
      ¬Climbs (detectTriggers request.evidence) ∨ policy.ownerLevel ≤
        raised (detectTriggers request.evidence) request.role
          (policy.wanted request profile).entryLevel
          (min request.currentEscalationLevel.toNat policy.ownerLevel) := by
  have hlevel := escalationLevel_of_route h hprofile
  rw [level_eq] at hlevel
  have hfollowing : min (request.following d).currentEscalationLevel.toNat policy.ownerLevel =
      d.escalationLevel := by
    change min ((d.escalationLevel : ℤ).toNat) _ = _
    omega
  rw [level_eq, hfollowing, hlevel]
  exact raised_again_iff (Nat.min_le_right ..)

/-- The levels of a decision are those of the policy, from that of the request on. -/
theorem bounds_of_route (h : route registry policy evidence request = .ok d) :
    (request.currentEscalationLevel ≤ d.escalationLevel ↔
      request.currentEscalationLevel ≤ policy.ownerLevel) ∧
    d.escalationLevel ≤ policy.ownerLevel := by
  obtain ⟨-, profile, hprofile⟩ := profile_of_route h
  have hlevel := escalationLevel_of_route h hprofile
  have hraised : min request.currentEscalationLevel.toNat policy.ownerLevel ≤
      raised (detectTriggers request.evidence) request.role
        (policy.wanted request profile).entryLevel
        (min request.currentEscalationLevel.toNat policy.ownerLevel) := le_raised
  rw [level_eq] at hlevel
  omega

/-- **An escalation settles exactly where no step is left.** A trigger that climbs raises the level
with every repetition of the request, up to the gate of the owner. -/
theorem escalation_settles_iff (h : route registry policy evidence request = .ok d) :
    Settles registry policy evidence request d ↔ NoStepLeft policy request := by
  obtain ⟨-, profile, hprofile⟩ := profile_of_route h
  have hagain := level_following_iff h hprofile
  obtain ⟨hbelow, hbound⟩ := bounds_of_route h
  have hnone : request.currentEscalationLevel ≤ policy.ownerLevel →
      (NoStepLeft policy request ↔ policy.level (request.following d)
        (policy.wanted request profile).entryLevel = d.escalationLevel) := by
    intro hcurrent
    rw [hagain]
    simp [NoStepLeft, hcurrent, hprofile]
  constructor
  · rintro ⟨⟨d', hd', hsame⟩, hbounds, -⟩
    have hrole : policy.profileForRole (request.following d).role = some profile := hprofile
    rw [hnone (hbelow.mp hbounds.1), ← hsame]
    exact (escalationLevel_of_route hd' hrole).symm
  · intro hstep
    have hroute := route_following h hprofile ((hnone hstep.1).mp hstep)
    refine ⟨⟨d, hroute, rfl⟩, ⟨hbelow.mpr hstep.1, hbound⟩, fun n d' hn hgate => ?_⟩
    rw [repeated_eq h hroute n] at hn
    cases hn
    exact hgate

end Again

/-! ### A task that involves concurrency -/

/-- The policy has two automatic levels. -/
def tallPolicy : RoutingPolicy :=
  { smallPolicy with
    maxAutomaticLevel := 1
    ownerLevel := 2
    reasoningDefaults := fun _ => .medium
    reasoningCeilings := fun _ => .medium
    levelMinTiers := fun _ => 0
    owner := by decide
    defaults := fun _ => le_rfl
    minTiers := fun _ => Nat.zero_le _
    parsed := by
      intro e he
      rw [List.mem_singleton.mp he]
      refine ⟨by decide, by decide, by decide, by decide, ?_⟩
      rintro l - c -
      exact Nat.zero_le _
    escalationParsed := by simp [smallPolicy] }

/-- A request for a task that involves concurrency. -/
def tallRequest : RoutingRequest :=
  { smallRequest with evidence := { concurrencyRelevant := true } }

/-- It is given to a model, a level up. -/
def tallDecision : RoutingDecision :=
  buildDecision tallRequest (some (smallModel "b" .medium)) 1 (some .medium) [.codeImplementation]
    .concurrencyComplexity .sameModelAllowed

/-- **A request may climb to the gate of the owner without anything new**: the first is given to a
model, the second goes to the owner. -/
theorem escalation_climbs : ¬∀ registry policy evidence request d,
    RoutingPolicy.validateModels policy registry = true →
    route registry policy evidence request = .ok d →
    Settles registry policy evidence request d := by
  intro h
  have hfirst : route smallRegistry tallPolicy smallEvidence tallRequest = .ok tallDecision := by
    decide
  have hsecond : repeated smallRegistry tallPolicy smallEvidence 1 tallRequest =
      .ok (terminal tallRequest [.codeImplementation] .ownerGate 2 .sameModelAllowed) := by
    decide
  have hgate := (h _ _ _ _ _ (by decide) hfirst).gate 1 _ hsecond rfl
  cases hgate

/-- Without a trigger, the level stays. -/
theorem escalation_settles_small :
    Settles smallRegistry smallPolicy smallEvidence smallRequest smallDecision :=
  (escalation_settles_iff route_small).mpr ⟨by decide, .inl (by
    rintro (⟨code, -, hcode⟩ | hhard)
    · cases hcode
    · cases hhard)⟩

end Routing

end ArgentTeam
