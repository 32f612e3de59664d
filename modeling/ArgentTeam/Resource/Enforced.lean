import ArgentTeam.Lib.Except
import ArgentTeam.Resource.Limits
import Mathlib.Algebra.Order.BigOperators.Group.List

/-!
# The limits of an admitted job are enforced

Between the admission of a job and its start the limits are validated against the policy again,
written down as properties of a scope, and the processor quota is compared with what systemd reports
of the scope. A job that is admitted under the governor's own policy has room for its whole ceiling,
so its limits are those of its class; what they lack is a timeout, where the class has none.
-/

namespace ArgentTeam

namespace Resource

open Scheduler

/-! ### Validation -/

/-- Why `validate_effective_limits` raises. -/
inductive LimitsError
  | invalid (name : String)
  | highAboveMax
  | aboveCeiling (name : String)
  | aboveMaximum

structure ValidLimits where
  memoryHighBytes : ℤ
  memoryMaxBytes : ℤ
  swapMaxBytes : ℤ
  cpuQuotaPercent : ℤ
  timeoutSeconds : ℤ

/-- `_get`, with `_is_positive_int`. -/
def getPositive (name : String) : Option ℤ → Except LimitsError ℤ
  | some value => if 0 < value then .ok value else .error (.invalid name)
  | none => .error (.invalid name)

def require (holds : Prop) [Decidable holds] (e : LimitsError) : Except LimitsError Unit :=
  if holds then .ok () else .error e

/-- The largest timeout of the classes. -/
def ResourcePolicy.maxTimeout (policy : ResourcePolicy) : ℤ :=
  ((ResourceClass.all.filterMap fun c => (policy.limitsFor c).timeoutSeconds).max?).getD 0

def validateEffectiveLimits (effective : ResourceLimits) (resourceClass : ResourceClass)
    (policy : ResourcePolicy) : Except LimitsError ValidLimits := do
  let limits := policy.limitsFor resourceClass
  let memoryHigh ← getPositive "memory_high_bytes" (some effective.memoryHighBytes)
  let memoryMax ← getPositive "memory_max_bytes" (some effective.memoryMaxBytes)
  let swapMax ← getPositive "swap_max_bytes" (some effective.swapMaxBytes)
  let cpuQuota ← getPositive "cpu_quota_percent" (some effective.cpuQuotaPercent)
  let timeout ← getPositive "timeout_seconds" effective.timeoutSeconds
  require (memoryHigh ≤ memoryMax) .highAboveMax
  require (memoryMax ≤ limits.memoryMaxBytes) (.aboveCeiling "MemoryMax")
  require (memoryHigh ≤ limits.memoryHighBytes) (.aboveCeiling "MemoryHigh")
  require (swapMax ≤ limits.swapMaxBytes) (.aboveCeiling "SwapMax")
  require (cpuQuota ≤ limits.cpuQuotaPercent) (.aboveCeiling "CPUQuota")
  require (timeout ≤ policy.maxTimeout) .aboveMaximum
  pure ⟨memoryHigh, memoryMax, swapMax, cpuQuota, timeout⟩

def defaultTasksMax : ℕ := 64

def translateLimitsToProperties (limits : ValidLimits) : List (String × String) :=
  [("MemoryHigh", toString limits.memoryHighBytes), ("MemoryMax", toString limits.memoryMaxBytes),
    ("MemorySwapMax", toString limits.swapMaxBytes),
    ("CPUQuota", toString limits.cpuQuotaPercent ++ "%"), ("TasksMax", toString defaultTasksMax)]

/-! ### Time spans -/

/-- `unit_map`. -/
def unitMap : List (List Char × ℕ) :=
  [(['u', 's'], 1), (['m', 's'], 1000), (['s'], 1000000), (['m', 'i', 'n'], 60000000),
    (['h'], 3600000000), (['d'], 86400000000)]

/-- A part of a time span: digits, and a unit of the map. No unit begins with a digit. -/
def parsePart (part : List Char) : Option ℕ :=
  let digits := part.takeWhile Char.isDigit
  if digits = [] then none
  else (unitMap.find? fun u => u.1 = part.dropWhile Char.isDigit).map fun u =>
    Nat.ofDigitChars 10 digits 0 * u.2

/-- `_parse_usec`, of a text of ASCII characters with no white space but blanks. -/
def parseUsec (raw : List Char) : Option ℕ :=
  let parts := (raw.splitOn ' ').filter fun part => part ≠ []
  if parts = [] then none else (parts.mapM parsePart).map List.sum

def cpuQuotaMatches (raw : List Char) (cpuQuotaPercent : ℤ) : Bool :=
  (parseUsec raw).map Int.ofNat = some (cpuQuotaPercent * 10000)

/-- The units systemd writes time spans in, from a second up. -/
def spanUnits : List (List Char × ℕ) :=
  [(['y'], 31557600000000), (['m', 'o', 'n', 't', 'h'], 2629800000000), (['w'], 604800000000),
    (['d'], 86400000000), (['h'], 3600000000), (['m', 'i', 'n'], 60000000), (['s'], 1000000),
    (['m', 's'], 1000), (['u', 's'], 1)]

/-- The parts systemd writes a time span in: whole numbers of units, but for the last part of what
is less than a minute, which may have a fraction, of thousandths. -/
def spanParts : List (List Char × ℕ) → ℕ → List (List Char)
  | [], _ => []
  | (unit, usec) :: units, t =>
    if t < usec then spanParts units t
    else if t < 60000000 ∧ t % usec ≠ 0 then
      [Nat.toDigits 10 (t / usec) ++ '.' ::
        ((Nat.toDigits 10 (1000 + t % usec * 1000 / usec)).drop 1 ++ unit)]
    else (Nat.toDigits 10 (t / usec) ++ unit) :: spanParts units (t % usec)

/-- What systemd reports of a quota. -/
def quotaText (cpuQuotaPercent : ℕ) : List Char :=
  [' '].intercalate (spanParts spanUnits (cpuQuotaPercent * 10000))

/-- No part of a time span has a fraction. -/
def Whole : List (List Char × ℕ) → ℕ → Prop
  | [], t => t = 0
  | (_, usec) :: units, t =>
    if t < usec then Whole units t
    else (60000000 ≤ t ∨ t % usec = 0) ∧ Whole units (t % usec)

section Spans

variable {units : List (List Char × ℕ)} {t : ℕ}

theorem parsePart_whole {u : List Char × ℕ} (hu : u ∈ unitMap) (n : ℕ) :
    parsePart (Nat.toDigits 10 n ++ u.1) = some (n * u.2) := by
  have hunits : ∀ u ∈ unitMap, (u.1.takeWhile Char.isDigit = [] ∧
      u.1.dropWhile Char.isDigit = u.1) ∧ (unitMap.find? fun v => v.1 = u.1) = some u := by
    decide
  obtain ⟨⟨htake, hdrop⟩, hfind⟩ := hunits u hu
  have hdigits : ∀ c ∈ Nat.toDigits 10 n, c.isDigit = true := fun c hc =>
    Nat.isDigit_of_mem_toDigits (by omega) (by omega) hc
  simp only [parsePart, List.takeWhile_append_of_pos hdigits, List.dropWhile_append_of_pos hdigits,
    htake, hdrop, List.append_nil, Nat.toDigits_ne_nil, if_false, hfind, Option.map_some,
    Nat.ofDigitChars_ten_toDigits]

/-- **The parts of a whole time span add up to it.** -/
theorem sum_spanParts (hunits : ∀ u ∈ units, u ∈ unitMap) (h : Whole units t) :
    ∃ ns, (spanParts units t).mapM parsePart = some ns ∧ ns.sum = t := by
  induction units generalizing t with
  | nil =>
    obtain rfl : t = 0 := h
    exact ⟨[], rfl, rfl⟩
  | cons u units ih =>
    have hrest : ∀ v ∈ units, v ∈ unitMap := fun v hv => hunits v (List.mem_cons_of_mem u hv)
    rw [Whole] at h
    rw [spanParts]
    split_ifs at h with hlt
    · rw [if_pos hlt]
      exact ih hrest h
    · have hwhole : ¬(t < 60000000 ∧ t % u.2 ≠ 0) := by omega
      rw [if_neg hlt, if_neg hwhole]
      obtain ⟨ns, hns, hsum⟩ := ih hrest h.2
      refine ⟨t / u.2 * u.2 :: ns, ?_, ?_⟩
      · simp [List.mapM_cons, parsePart_whole (hunits u List.mem_cons_self), hns]
      · rw [List.sum_cons, hsum, Nat.mul_comm]
        exact Nat.div_add_mod t u.2

/-- A part is not empty, and has no blank in it. -/
theorem mem_spanParts (hunits : ∀ u ∈ units, u ∈ unitMap) (h : Whole units t) :
    ∀ part ∈ spanParts units t, part ≠ [] ∧ ' ' ∉ part := by
  induction units generalizing t with
  | nil => simp [spanParts]
  | cons u units ih =>
    have hrest : ∀ v ∈ units, v ∈ unitMap := fun v hv => hunits v (List.mem_cons_of_mem u hv)
    rw [Whole] at h
    rw [spanParts]
    split_ifs at h with hlt
    · rw [if_pos hlt]
      exact ih hrest h
    · have hwhole : ¬(t < 60000000 ∧ t % u.2 ≠ 0) := by omega
      rw [if_neg hlt, if_neg hwhole]
      intro part hpart
      rcases List.mem_cons.mp hpart with rfl | hpart
      · have hunit : ∀ u ∈ unitMap, ' ' ∉ u.1 := by decide
        refine ⟨by simp [Nat.toDigits_ne_nil], fun hblank => ?_⟩
        rcases List.mem_append.mp hblank with hdigit | hmem
        · exact absurd (Nat.isDigit_of_mem_toDigits (by omega) (by omega) hdigit) (by decide)
        · exact hunit u (hunits u List.mem_cons_self) hmem
      · exact ih hrest h.2 part hpart

/-- The part of a quota that is less than a minute is a number of seconds, or less than one. -/
def WholeQuota (cpuQuotaPercent : ℕ) : Prop :=
  cpuQuotaPercent < 60480000 ∧ (cpuQuotaPercent % 100 = 0 ∨ cpuQuotaPercent % 6000 < 100)

theorem whole_of_wholeQuota {q : ℕ} (h : WholeQuota q) : Whole (spanUnits.drop 3) (q * 10000) := by
  obtain ⟨-, hq⟩ := h
  simp only [spanUnits, List.drop_succ_cons, List.drop_zero, Whole]
  split_ifs <;> omega

theorem cpuQuotaMatches_quotaText {q : ℕ} (hpos : 0 < q) (h : WholeQuota q) :
    cpuQuotaMatches (quotaText q) q := by
  have hunits : ∀ u ∈ spanUnits.drop 3, u ∈ unitMap := by decide
  have hparts : spanParts spanUnits (q * 10000) = spanParts (spanUnits.drop 3) (q * 10000) := by
    have := h.1
    simp only [spanUnits, spanParts, List.drop_succ_cons, List.drop_zero]
    rw [if_pos (by omega), if_pos (by omega), if_pos (by omega)]
  have hwhole := whole_of_wholeQuota h
  obtain ⟨ns, hns, hsum⟩ := sum_spanParts hunits hwhole
  have hmem := mem_spanParts hunits hwhole
  have hne : spanParts (spanUnits.drop 3) (q * 10000) ≠ [] := by
    intro hnil
    rw [hnil] at hns
    cases hns
    simp at hsum
    omega
  have hfilter : (spanParts (spanUnits.drop 3) (q * 10000)).filter (fun part => part ≠ []) =
      spanParts (spanUnits.drop 3) (q * 10000) :=
    List.filter_eq_self.mpr fun part hpart => by simpa using (hmem part hpart).1
  simp only [cpuQuotaMatches, parseUsec, quotaText, hparts,
    List.splitOn_intercalate ' ' (fun part hpart => (hmem part hpart).2) hne, hfilter, hne,
    if_false, hns, Option.map_some, hsum]
  simp

end Spans

/-! ### Admission and validation -/

/-- The ceilings of a class are positive, and the high mark of its memory is below the maximum. -/
structure ResourceLimits.Sound (limits : ResourceLimits) : Prop where
  high : 0 < limits.memoryHighBytes
  max : limits.memoryHighBytes ≤ limits.memoryMaxBytes
  swap : 0 < limits.swapMaxBytes
  quota : 0 < limits.cpuQuotaPercent
  timeout : ∀ t ∈ limits.timeoutSeconds, 0 < t

/-- Limits are validated as they are, and stated as the properties of a scope. -/
structure Enforceable (limits : ResourceLimits) (c : ResourceClass) (policy : ResourcePolicy)
    (v : ValidLimits) : Prop where
  valid : validateEffectiveLimits limits c policy = .ok v
  same : limits = ⟨v.memoryHighBytes, v.memoryMaxBytes, v.swapMaxBytes, v.cpuQuotaPercent,
    some v.timeoutSeconds⟩
  stated : ∀ e ∈ [("MemoryHigh", toString limits.memoryHighBytes),
    ("MemoryMax", toString limits.memoryMaxBytes), ("MemorySwapMax", toString limits.swapMaxBytes),
    ("CPUQuota", toString limits.cpuQuotaPercent ++ "%")], e ∈ translateLimitsToProperties v

section Admission

variable {py : Interpreter} {policy : ResourcePolicy} {snapshot : HostResourceSnapshot}
  {candidate : Candidate} {c : ResourceClass}

/-- **An admitted job has its whole ceiling**: the step that asks for the reserve of the host has
found room for it. -/
theorem effectiveLimits_eq {governor : ResourceGovernor}
    (hpasses : Passes py governor.policy snapshot candidate)
    (hsound : ∀ k, (governor.policy.limitsFor k).Sound) :
    governor.effectiveLimits candidate.resourceClass snapshot (reserve governor.policy snapshot) =
      governor.policy.limitsFor candidate.resourceClass := by
  have hactive : 0 ≤ activeReservedBytes snapshot.activeJobs governor.policy := by
    refine List.sum_nonneg fun bytes hbytes => ?_
    obtain ⟨k, -, rfl⟩ := List.mem_map.mp hbytes
    exact (hsound k).high.le.trans (hsound k).max
  have hhigh := (hsound candidate.resourceClass).high
  have hmax := (hsound candidate.resourceClass).max
  unfold ResourceGovernor.effectiveLimits
  cases havailable : snapshot.memAvailableBytes with
  | none => rfl
  | some available =>
    have hroom := hpasses.memory available havailable
    have hceiling : effectiveMemoryMax
        (governor.policy.limitsFor candidate.resourceClass).memoryMaxBytes
        available (reserve governor.policy snapshot) =
          (governor.policy.limitsFor candidate.resourceClass).memoryMaxBytes := by
      unfold effectiveMemoryMax
      omega
    simp only [hceiling]

theorem le_maxTimeout {t : ℤ} (h : (policy.limitsFor c).timeoutSeconds = some t) :
    t ≤ policy.maxTimeout := by
  have hmem : t ∈ ResourceClass.all.filterMap fun c => (policy.limitsFor c).timeoutSeconds :=
    List.mem_filterMap.mpr ⟨c, by cases c <;> simp [ResourceClass.all], h⟩
  unfold ResourcePolicy.maxTimeout
  cases hmax : (ResourceClass.all.filterMap fun c => (policy.limitsFor c).timeoutSeconds).max? with
  | none =>
    rw [List.max?_eq_none_iff.mp hmax] at hmem
    exact absurd hmem List.not_mem_nil
  | some m => exact (List.max?_eq_some_iff.mp hmax).2 t hmem

theorem enforceable_of_timeout (hsound : (policy.limitsFor c).Sound) {t : ℤ}
    (h : (policy.limitsFor c).timeoutSeconds = some t) :
    ∃ v, Enforceable (policy.limitsFor c) c policy v := by
  have hmax : 0 < (policy.limitsFor c).memoryMaxBytes := lt_of_lt_of_le hsound.high hsound.max
  refine ⟨⟨(policy.limitsFor c).memoryHighBytes, (policy.limitsFor c).memoryMaxBytes,
    (policy.limitsFor c).swapMaxBytes, (policy.limitsFor c).cpuQuotaPercent, t⟩, ?_, ?_, ?_⟩
  · simp [validateEffectiveLimits, getPositive, hsound.high, hmax, hsound.swap, hsound.quota, h,
      bind, Except.bind, require, hsound.max, hsound.timeout t h, le_maxTimeout h,
        pure, Except.pure]
  · rw [← h]
  · simp [translateLimitsToProperties]

/-- Those of a class without one are refused for it. -/
theorem validate_of_none (hsound : (policy.limitsFor c).Sound)
    (h : (policy.limitsFor c).timeoutSeconds = none) :
    validateEffectiveLimits (policy.limitsFor c) c policy =
      .error (.invalid "timeout_seconds") := by
  have hmax : 0 < (policy.limitsFor c).memoryMaxBytes := lt_of_lt_of_le hsound.high hsound.max
  simp [validateEffectiveLimits, getPositive, hsound.high, hmax, hsound.swap, hsound.quota, h, bind,
    Except.bind]

/-- What has been validated is not above the ceiling. -/
theorem memoryMax_le_of_validate {limits : ResourceLimits} {v : ValidLimits}
    (h : validateEffectiveLimits limits c policy = .ok v) :
    limits.memoryMaxBytes ≤ (policy.limitsFor c).memoryMaxBytes := by
  simp only [validateEffectiveLimits, Except.bind_eq_ok] at h
  obtain ⟨_, -, max, hmax, _, -, _, -, _, -, _, -, _, hceiling, -⟩ := h
  unfold require at hceiling
  split at hceiling
  next hle =>
    simp only [getPositive] at hmax
    split_ifs at hmax
    cases hmax
    exact hle
  · cases hceiling

end Admission

section Decide

variable {governor : ResourceGovernor} {py : Interpreter} {c : ResourceClass}
  {snapshot : HostResourceSnapshot} {request : Request} {policy : Option ResourcePolicy}
  {d : AdmissionDecision}

/-- The limits of a job that is admitted under the governor's own policy are the ceilings of its
class. -/
theorem limits_of_admits (hd : governor.decide py c.value snapshot request policy = some d)
    (hown : policy.getD governor.policy = governor.policy) (hadmits : d.Admits)
    (hsound : ∀ k, (governor.policy.limitsFor k).Sound) :
    d.effectiveLimits = some (governor.policy.limitsFor c) := by
  simp only [ResourceGovernor.decide, ResourceClass.ofValue?_value, Option.map_some,
    Option.some.injEq, hown] at hd
  subst hd
  have hpasses := admits_iff.mp hadmits
  rw [effectiveLimits_decideCandidate hpasses, effectiveLimits_eq hpasses hsound]

/-- **The limits of an admitted job are enforceable**, where its class has a timeout: they are the
ceilings of the class, valid as they are, the properties state them, and the quota is found in what
systemd reports of it, if that has no fraction. Where the class has none, validation refuses the
limits for it. -/
theorem limits_of_allowed (hd : governor.decide py c.value snapshot request policy = some d)
    (hown : policy.getD governor.policy = governor.policy) (hallow : d.decision = .allow)
    (hsound : ∀ k, (governor.policy.limitsFor k).Sound) :
    d.effectiveLimits = some (governor.policy.limitsFor c) ∧
      ((governor.policy.limitsFor c).timeoutSeconds ≠ none → ∃ v,
        Enforceable (governor.policy.limitsFor c) c governor.policy v ∧
        (WholeQuota v.cpuQuotaPercent.toNat →
          cpuQuotaMatches (quotaText v.cpuQuotaPercent.toNat) v.cpuQuotaPercent = true)) ∧
      ((governor.policy.limitsFor c).timeoutSeconds = none →
        validateEffectiveLimits (governor.policy.limitsFor c) c governor.policy =
          .error (.invalid "timeout_seconds")) := by
  refine ⟨limits_of_admits hd hown (.inl hallow) hsound, fun h => ?_, validate_of_none (hsound c)⟩
  obtain ⟨t, ht⟩ := Option.ne_none_iff_exists'.mp h
  obtain ⟨v, hv⟩ := enforceable_of_timeout (hsound c) ht
  have hquota : 0 < v.cpuQuotaPercent := by
    have hpositive := (hsound c).quota
    rwa [hv.same] at hpositive
  refine ⟨v, hv, fun hwhole => ?_⟩
  have hmatches := cpuQuotaMatches_quotaText (by omega) hwhole
  rwa [Int.toNat_of_nonneg hquota.le] at hmatches

end Decide

/-! ### The default policy -/

theorem sound_default (k : ResourceClass) : (({} : ResourcePolicy).limitsFor k).Sound := by
  cases k <;> exact ⟨by decide +kernel, by decide +kernel, by decide +kernel, by decide +kernel,
    by decide +kernel⟩

/-- The limits of a light job are enforceable. -/
theorem limits_of_allowed_light :
    ∃ d, ({} : ResourceGovernor).decide plainInterpreter "LIGHT" (roomyHost []) {} none = some d ∧
      d.effectiveLimits = some (({} : ResourcePolicy).limitsFor .light) ∧
      ((({} : ResourcePolicy).limitsFor .light).timeoutSeconds ≠ none → ∃ v,
        Enforceable (({} : ResourcePolicy).limitsFor .light) .light {} v ∧
        (WholeQuota v.cpuQuotaPercent.toNat →
          cpuQuotaMatches (quotaText v.cpuQuotaPercent.toNat) v.cpuQuotaPercent = true)) ∧
      ((({} : ResourcePolicy).limitsFor .light).timeoutSeconds = none →
        validateEffectiveLimits (({} : ResourcePolicy).limitsFor .light) .light {} =
          .error (.invalid "timeout_seconds")) :=
  ⟨({} : ResourceGovernor).decideCandidate plainInterpreter {} (roomyHost [])
      { resourceClass := .light }, rfl,
    @limits_of_allowed {} plainInterpreter .light (roomyHost []) {} none _ rfl rfl
      (by decide +kernel) sound_default⟩

/-- A policy under which light jobs get less than by default. -/
def smallPolicy : ResourcePolicy := { lightLimits := ⟨mib 256, mib 512, mib 256, 100, some 60⟩ }

theorem sound_smallPolicy (k : ResourceClass) : (smallPolicy.limitsFor k).Sound := by
  cases k with
  | light => exact ⟨by decide, by decide, by decide, by decide, by decide⟩
  | medium => exact sound_default .medium
  | heavy => exact sound_default .heavy
  | exclusive => exact sound_default .exclusive

/-- **An admitted job may be refused for its limits**: one that asks to be alone has no timeout, and
one that is admitted under another policy than the governor's own has the ceilings of the latter. -/
theorem admitted_not_enforceable :
    (¬∀ (governor : ResourceGovernor) (py : Interpreter) (c : ResourceClass)
      (snapshot : HostResourceSnapshot) (request : Request) (d : AdmissionDecision),
      governor.decide py c.value snapshot request none = some d → d.decision = .allow →
      (∀ k, (governor.policy.limitsFor k).Sound) →
      ∃ limits v, d.effectiveLimits = some limits ∧ Enforceable limits c governor.policy v) ∧
    ¬∀ (governor : ResourceGovernor) (py : Interpreter) (c : ResourceClass)
      (snapshot : HostResourceSnapshot) (request : Request) (policy : ResourcePolicy)
      (d : AdmissionDecision),
      governor.decide py c.value snapshot request (some policy) = some d → d.decision = .allow →
      (∀ k, (governor.policy.limitsFor k).Sound) → (∀ k, (policy.limitsFor k).Sound) →
      (policy.limitsFor c).timeoutSeconds ≠ none →
      ∃ limits v, d.effectiveLimits = some limits ∧ Enforceable limits c policy v := by
  constructor
  · intro h
    have hd : ResourceGovernor.decide {} plainInterpreter ResourceClass.exclusive.value
        (roomyHost []) {} none = some (({} : ResourceGovernor).decideCandidate plainInterpreter {}
          (roomyHost []) { resourceClass := .exclusive }) := rfl
    have hallow : (({} : ResourceGovernor).decideCandidate plainInterpreter {} (roomyHost [])
        { resourceClass := .exclusive }).decision = .allow := by
      decide +kernel
    obtain ⟨limits, v, hlimits, hv⟩ := h _ _ _ _ _ _ hd hallow sound_default
    rw [limits_of_admits hd rfl (.inl hallow) sound_default] at hlimits
    cases hlimits
    have htimeout : none = some v.timeoutSeconds := congrArg ResourceLimits.timeoutSeconds hv.same
    cases htimeout
  · intro h
    obtain ⟨limits, v, hlimits, hv⟩ := h {} plainInterpreter .light (roomyHost []) {} smallPolicy _
      rfl (by decide +kernel) sound_default sound_smallPolicy (by decide +kernel)
    have hmax : limits.memoryMaxBytes = gib 1 := by
      have hceiling : (((({} : ResourceGovernor).decideCandidate plainInterpreter smallPolicy
          (roomyHost []) { resourceClass := .light }).effectiveLimits).map
            ResourceLimits.memoryMaxBytes) = some (gib 1) := by
        decide +kernel
      exact Option.some.inj ((congrArg (Option.map ResourceLimits.memoryMaxBytes)
        hlimits).symm.trans
        hceiling)
    have hle := memoryMax_le_of_validate hv.valid
    rw [hmax] at hle
    exact absurd hle (by decide +kernel)

end Resource

end ArgentTeam
