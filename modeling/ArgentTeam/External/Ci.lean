import ArgentTeam.Lib.Json
import ArgentTeam.Lib.Ladder

/-!
# The state of a CI run

`aggregate_ci_state` of `ci_external_wait.py` reads a list of normalized checks and the
names that are required. It indexes the checks by name, keeping the first of each, and
walks down a ladder of outcomes: the state it returns is the rung of the worst conclusion
found (`aggregateCiState_eq_rung`). GitHub reports several checks under one name, and a
state nobody knows is normalized to a conclusion the ladder has no rung for; what follows
from that is `aggregateCiState_sound_iff`.
-/

namespace ArgentTeam

namespace External

def maxCiCheckNameLen : ℕ := 256

inductive CiState
  | pending
  | success
  | failure
  | cancelled
  | timedOut
  | actionRequired
  | neutral
  | skipped
  | noChecksConfigured
  | providerUnavailable
  | rateLimited
  | unknown
  deriving DecidableEq

/-- The conclusions of `CHECK_CONCLUSIONS`, and what `_status_state_to_conclusion` makes of
a state it does not know. -/
inductive CheckConclusion
  | success
  | failure
  | cancelled
  | timedOut
  | actionRequired
  | neutral
  | skipped
  | stale
  | startupFailure
  | unknown
  deriving DecidableEq

/-- `CiCheck`: a normalized check, with the fields that aggregation reads. -/
structure CiCheck where
  name : PyStr
  conclusion : Option CheckConclusion

def normCheckName (name : PyStr) : PyStr := name.strip.take maxCiCheckNameLen

/-- `_concl`, of the index that keeps the first check of each name. -/
def concl (checks : List CiCheck) (name : PyStr) : Option CheckConclusion :=
  (checks.find? fun c => c.name = name).bind CiCheck.conclusion

/-- The rungs that an empty set of required names has in common with any other. -/
def terminalRung (checks : List CiCheck) (names : List PyStr) : Option CiState :=
  if names.any fun n =>
      concl checks n = some .failure || concl checks n = some .startupFailure then
    some .failure
  else if names.any fun n => concl checks n = some .cancelled then some .cancelled
  else if names.any fun n => concl checks n = some .timedOut then some .timedOut
  else if names.any fun n => concl checks n = some .actionRequired then some .actionRequired
  else none

def aggregateCiState (checks : List CiCheck) (required : Option (List PyStr)) : CiState :=
  match required.map (List.map normCheckName) with
  | none => .unknown
  | some req =>
    if checks = [] then .noChecksConfigured
    else if req = [] then
      -- never a success: nothing proves that the checks seen are all there are
      (terminalRung checks (checks.map CiCheck.name)).getD .unknown
    else
      (terminalRung checks req).getD <|
        if req.any fun n => concl checks n = some .neutral || concl checks n = some .skipped ||
            concl checks n = some .stale then .unknown
        else if req.any fun n => !(checks.any fun c => c.name = n) then .unknown
        else if req.any fun n => concl checks n = none then .pending
        else .success

/-! ### The ladder -/

/-- How bad a conclusion is: the rung it stands on. A conclusion without a rung of its own
falls through to the bottom. -/
def conclusionRung : Option CheckConclusion → ℕ
  | some .failure | some .startupFailure => 6
  | some .cancelled => 5
  | some .timedOut => 4
  | some .actionRequired => 3
  | some .neutral | some .skipped | some .stale => 2
  | none => 1
  | some .success | some .unknown => 0

/-- How bad a check is. -/
def severity (c : CiCheck) : ℕ := conclusionRung c.conclusion

/-- The rung of a name that no check has. -/
def absentRung : ℕ := 2

/-- How bad a check is where no name is required: what is not a failure is not known. -/
def severityObserved (c : CiCheck) : ℕ := max absentRung (severity c)

def rung : ℕ → CiState
  | 0 => .success
  | 1 => .pending
  | 2 => .unknown
  | 3 => .actionRequired
  | 4 => .timedOut
  | 5 => .cancelled
  | _ => .failure

variable {checks checks' : List CiCheck} {required : Option (List PyStr)} {names : List PyStr}

theorem severity_le (c : CiCheck) : severity c ≤ 6 := by
  unfold severity conclusionRung
  split <;> omega

theorem severityObserved_le (c : CiCheck) : severityObserved c ≤ 6 :=
  max_le (by decide) (severity_le c)

theorem rung_inj {m n : ℕ} (hm : m ≤ 6) (hn : n ≤ 6) (h : rung m = rung n) : m = n := by
  have hall : ∀ m ≤ 6, ∀ n ≤ 6, rung m = rung n → m = n := by decide
  exact hall m hm n hn h

/-- The worst rung among the names, where some are required. -/
abbrev worst (checks : List CiCheck) (names : List PyStr) : ℕ :=
  Ladder.top CiCheck.name severity absentRung checks names

/-- The worst rung among the names, where none is required. -/
abbrev worstObserved (checks : List CiCheck) (names : List PyStr) : ℕ :=
  Ladder.top CiCheck.name severityObserved absentRung checks names

theorem worst_le : worst checks names ≤ 6 :=
  Ladder.top_le (by decide) severity_le

theorem worstObserved_le : worstObserved checks names ≤ 6 :=
  Ladder.top_le (by decide) severityObserved_le

/-- The rung a name stands on, where some are required. -/
abbrev levelOf (checks : List CiCheck) (n : PyStr) : ℕ :=
  Ladder.level CiCheck.name severity absentRung checks n

section Rungs

variable {n : PyStr} {i : ℕ}

/-- The rung of a name is that of the conclusion in the index, unless the name is not
there. -/
theorem levelOf_cases :
    ((checks.any fun c => c.name = n) = false ∧ concl checks n = none ∧ levelOf checks n = 2) ∨
      ((checks.any fun c => c.name = n) = true ∧
        levelOf checks n = conclusionRung (concl checks n)) := by
  unfold levelOf Ladder.level concl
  cases h : checks.find? fun c => c.name = n with
  | none => exact .inl ⟨by simpa using h, rfl, rfl⟩
  | some c =>
    refine .inr ⟨?_, rfl⟩
    rw [List.any_eq_true]
    exact ⟨c, List.mem_of_find?_eq_some h, by simpa using List.find?_some h⟩

theorem levelOf_eq_iff (hi : 3 ≤ i) : levelOf checks n = i ↔
    conclusionRung (concl checks n) = i := by
  rcases @levelOf_cases checks n with ⟨-, hconcl, hlevel⟩ | ⟨-, hlevel⟩
  · rw [hlevel, hconcl]
    simp only [conclusionRung]
    omega
  · rw [hlevel]

def conclusionsOn : ℕ → List (Option CheckConclusion)
  | 0 => [some .success, some .unknown]
  | 1 => [none]
  | 2 => [some .neutral, some .skipped, some .stale]
  | 3 => [some .actionRequired]
  | 4 => [some .timedOut]
  | 5 => [some .cancelled]
  | 6 => [some .failure, some .startupFailure]
  | _ + 7 => []

theorem conclusionRung_eq_iff {x : Option CheckConclusion} :
    conclusionRung x = i ↔ x ∈ conclusionsOn i := by
  constructor
  · rintro rfl
    rcases x with _ | x
    · exact List.mem_singleton_self _
    · cases x <;> simp [conclusionRung, conclusionsOn]
  · have hall : ∀ y ∈ conclusionsOn i, conclusionRung y = i := by
      rcases i with _ | _ | _ | _ | _ | _ | _ | i <;> simp [conclusionsOn, conclusionRung]
    exact hall x

end Rungs

/-- The walk over the failures, by rungs. -/
theorem terminalRung_eq_rungs :
    terminalRung checks names =
      if names.any fun n => levelOf checks n = 6 then some .failure
      else if names.any fun n => levelOf checks n = 5 then some .cancelled
      else if names.any fun n => levelOf checks n = 4 then some .timedOut
      else if names.any fun n => levelOf checks n = 3 then some .actionRequired
      else none := by
  simp only [terminalRung, levelOf_eq_iff (show 3 ≤ 6 by omega),
    levelOf_eq_iff (show 3 ≤ 5 by omega), levelOf_eq_iff (show 3 ≤ 4 by omega),
    levelOf_eq_iff (le_refl 3), conclusionRung_eq_iff, conclusionsOn, List.mem_cons,
    List.not_mem_nil, or_false, Bool.decide_or]

/-- The walk over the failures stops at the worst rung, if that is one of theirs. -/
theorem terminalRung_eq (hne : names ≠ []) :
    terminalRung checks names =
      if 3 ≤ worst checks names then some (rung (worst checks names)) else none := by
  have htop := @Ladder.any_level_top _ _ _ CiCheck.name severity absentRung checks names hne
  have hlt := fun i => @Ladder.any_level_of_top_lt _ _ _ CiCheck.name severity absentRung checks
    names i
  have hle : worst checks names ≤ 6 := worst_le
  rw [terminalRung_eq_rungs]
  simp only [worst] at hle ⊢
  generalize Ladder.top CiCheck.name severity absentRung checks names = t at *
  simp only [levelOf]
  -- no name stands above the top, and some name stands on it
  rcases (by omega : t = 6 ∨ t = 5 ∨ t = 4 ∨ t = 3 ∨ t < 3) with rfl | rfl | rfl | rfl | hlow
  · simp [htop, rung]
  · simp [htop, hlt 6 (by omega), rung]
  · simp [htop, hlt 6 (by omega), hlt 5 (by omega), rung]
  · simp [htop, hlt 6 (by omega), hlt 5 (by omega), hlt 4 (by omega), rung]
  · simp [hlt 6 (by omega), hlt 5 (by omega), hlt 4 (by omega), hlt 3 (by omega), hlow]

/-- The walk over the names without a failure stops at the worst rung as well. -/
theorem lowerRungs_eq (hne : names ≠ []) (hlow : worst checks names ≤ 2) :
    (if names.any fun n => concl checks n = some .neutral || concl checks n = some .skipped ||
        concl checks n = some .stale then CiState.unknown
      else if names.any fun n => !(checks.any fun c => c.name = n) then .unknown
      else if names.any fun n => concl checks n = none then .pending
      else .success) = rung (worst checks names) := by
  obtain ⟨k, hk, hlevel⟩ :=
    @Ladder.exists_level_eq_top _ _ _ CiCheck.name severity absentRung checks names hne
  have hle : ∀ n ∈ names, levelOf checks n ≤ worst checks names :=
    fun n hn => Ladder.level_le_top hn
  change levelOf checks k = worst checks names at hlevel
  -- the two tests of the second rung, and the one of the first
  have htwo : (∃ n ∈ names, levelOf checks n = 2) ↔
      (∃ n ∈ names, concl checks n = some .neutral ∨ concl checks n = some .skipped ∨
        concl checks n = some .stale) ∨
      ∃ n ∈ names, (checks.any fun c => c.name = n) = false := by
    rw [← exists_or]
    refine exists_congr fun n => ?_
    rw [← and_or_left]
    refine and_congr_right fun _ => ?_
    have hrung : concl checks n = some .neutral ∨ concl checks n = some .skipped ∨
        concl checks n = some .stale ↔ conclusionRung (concl checks n) = 2 := by
      rw [conclusionRung_eq_iff]
      simp [conclusionsOn]
    rw [hrung]
    rcases @levelOf_cases checks n with ⟨hout, hconcl, hl⟩ | ⟨hin, hl⟩
    · simp [hl, hout]
    · simp [hl, hin]
  have hone : (∃ n ∈ names, levelOf checks n = 2) ∨
      ((∃ n ∈ names, levelOf checks n = 1) ↔ ∃ n ∈ names, concl checks n = none) := by
    by_cases h2 : ∃ n ∈ names, levelOf checks n = 2
    · exact .inl h2
    · refine .inr (exists_congr fun n => and_congr_right fun hn => ?_)
      rcases @levelOf_cases checks n with ⟨-, -, hl⟩ | ⟨-, hl⟩
      · exact absurd ⟨n, hn, hl⟩ h2
      · rw [hl, conclusionRung_eq_iff, conclusionsOn, List.mem_singleton]
  have hrung : ∀ i, (∃ n ∈ names, levelOf checks n = i) → i ≤ worst checks names := by
    rintro i ⟨n, hn, rfl⟩
    exact hle n hn
  by_cases h2 : ∃ n ∈ names, levelOf checks n = 2
  · have htop : worst checks names = 2 := le_antisymm hlow (hrung 2 h2)
    rw [htop]
    rcases htwo.mp h2 with hA | hB
    · rw [if_pos (by simpa [or_assoc] using hA)]
      rfl
    · have hany : (names.any fun n => !(checks.any fun c => c.name = n)) = true := by
        simpa using hB
      rw [if_pos hany, ite_self]
      rfl
  · have hAB := mt htwo.mpr h2
    rw [not_or] at hAB
    have hne2 : worst checks names ≠ 2 := fun h => h2 ⟨k, hk, hlevel.trans h⟩
    rw [if_neg (by simpa [or_assoc] using hAB.1), if_neg (by simpa using hAB.2)]
    by_cases h1 : ∃ n ∈ names, levelOf checks n = 1
    · have htop : worst checks names = 1 := by
        have := hrung 1 h1
        omega
      rw [htop, if_pos (by simpa using (hone.resolve_left h2).mp h1)]
      rfl
    · have htop : worst checks names = 0 := by
        have hne1 : worst checks names ≠ 1 := fun h => h1 ⟨k, hk, hlevel.trans h⟩
        omega
      rw [htop, if_neg (by simpa using mt (hone.resolve_left h2).mpr h1)]
      rfl

/-- **The state of a run is the rung of the worst name that is required.** -/
theorem aggregateCiState_eq_rung {names : List PyStr} (hchecks : checks ≠ [])
    (hnames : names ≠ []) :
    aggregateCiState checks (some names) = rung (worst checks (names.map normCheckName)) := by
  have hreq : names.map normCheckName ≠ [] := by simpa using hnames
  simp only [aggregateCiState, Option.map_some, if_neg hchecks, if_neg hreq, terminalRung_eq hreq]
  by_cases h3 : 3 ≤ worst checks (names.map normCheckName)
  · rw [if_pos h3, Option.getD_some]
  · rw [if_neg h3, Option.getD_none]
    exact lowerRungs_eq hreq (by omega)

/-- Where no name is required, it is the rung of the worst check there is. -/
theorem aggregateCiState_eq_rung_observed (hchecks : checks ≠ []) :
    aggregateCiState checks (some []) =
      rung (worstObserved checks (checks.map CiCheck.name)) := by
  have hnames : checks.map CiCheck.name ≠ [] := by simpa using hchecks
  have hmax : worstObserved checks (checks.map CiCheck.name) =
      max 2 (worst checks (checks.map CiCheck.name)) := Ladder.top_max hnames
  simp only [aggregateCiState, Option.map_some, List.map_nil, if_neg hchecks, if_true,
    terminalRung_eq hnames, hmax]
  by_cases h3 : 3 ≤ worst checks (checks.map CiCheck.name)
  · rw [if_pos h3, Option.getD_some, max_eq_right (by omega)]
  · rw [if_neg h3, Option.getD_none, max_eq_left (by omega)]
    rfl

/-! ### Success, and the order of the checks -/

/-- What a success is to mean: the names that are required are known, there are some, and
each of them is the name of a check, all of whose checks have succeeded. -/
def Clean (checks : List CiCheck) (required : Option (List PyStr)) : Prop :=
  ∃ names, required = some names ∧ names ≠ [] ∧ ∀ n ∈ names.map normCheckName,
    (∃ c ∈ checks, c.name = n) ∧ ∀ c ∈ checks, c.name = n → c.conclusion = some .success

/-- Where some names are required: one of them has checks that all stand on one rung (or
has none), no required name has a check on a worse rung, and if that is the bottom rung, no
check of a required name has a conclusion without a rung of its own. -/
def Unmasked (checks : List CiCheck) (names : List PyStr) : Prop :=
  ∃ k ∈ names, ∃ h, Ladder.Settled CiCheck.name severity absentRung checks names k h ∧
    (h = 0 → ∀ c ∈ checks, c.name ∈ names → c.conclusion ≠ some .unknown)

/-- Where no name is required: one of the names has checks on one rung only, and no check
stands on a worse one, all rungs below the failures being the same. -/
def UnmaskedObserved (checks : List CiCheck) : Prop :=
  ∃ k ∈ checks.map CiCheck.name, ∃ h,
    Ladder.Settled CiCheck.name severityObserved absentRung checks (checks.map CiCheck.name) k h

/-- When the first checks of the names speak for all of them. -/
def FirstSpeaks (checks : List CiCheck) (required : Option (List PyStr)) : Prop :=
  match required with
  | none => True
  | some [] => checks = [] ∨ UnmaskedObserved checks
  | some names => checks = [] ∨ Unmasked checks (names.map normCheckName)

theorem not_clean_nil_names : ¬Clean checks (some []) := by
  rintro ⟨names, heq, hne, -⟩
  exact hne (Option.some.inj heq).symm

theorem not_clean_nil : ¬Clean [] required := by
  rintro ⟨names, -, hne, hall⟩
  obtain ⟨n, hn⟩ := List.exists_mem_of_ne_nil names hne
  obtain ⟨⟨c, hc, -⟩, -⟩ := hall _ (List.mem_map_of_mem hn)
  cases hc

theorem Clean.severity_eq (h : Clean checks (some names)) {n : PyStr}
    (hn : n ∈ names.map normCheckName) {r : ℕ}
    (hr : r ∈ Ladder.ranksOf CiCheck.name severity absentRung checks n) : r = 0 := by
  obtain ⟨_, heq, -, hall⟩ := h
  cases heq
  obtain ⟨⟨c, hc, hname⟩, hsuccess⟩ := hall n hn
  rcases Ladder.mem_ranksOf.mp hr with ⟨a, ha, hk, rfl⟩ | ⟨hout, -⟩
  · simp [severity, hsuccess a ha hk, conclusionRung]
  · exact absurd hname (hout c hc)

/-- On the bottom rung are the successes, and the conclusions without a rung. -/
theorem clean_of_severity_eq (hne : names ≠ [])
    (h : ∀ n ∈ names.map normCheckName,
      ∀ r ∈ Ladder.ranksOf CiCheck.name severity absentRung checks n, r = 0)
    (hknown : ∀ c ∈ checks, c.name ∈ names.map normCheckName → c.conclusion ≠ some .unknown) :
    Clean checks (some names) := by
  refine ⟨names, rfl, hne, fun n hn => ⟨?_, fun c hc hname => ?_⟩⟩
  · by_contra hout
    have habsent := h n hn absentRung
      (Ladder.mem_ranksOf.mpr (.inr ⟨fun c hc hname => hout ⟨c, hc, hname⟩, rfl⟩))
    cases habsent
  · have hzero : conclusionRung c.conclusion = 0 :=
      h n hn _ (Ladder.mem_ranksOf.mpr (.inl ⟨c, hc, hname, rfl⟩))
    have hnot : c.conclusion ≠ some .unknown := hknown c hc (hname ▸ hn)
    revert hzero hnot
    rcases c.conclusion with _ | x
    · simp [conclusionRung]
    · cases x <;> simp [conclusionRung]

/-- Where no name is required, nothing is a success; the state is free of the order exactly
if the first checks speak for all. -/
theorem observed_sound_iff (hchecks : checks ≠ []) :
    ((aggregateCiState checks (some []) = .success ↔ Clean checks (some [])) ∧
      ∀ checks', checks.Perm checks' →
        aggregateCiState checks' (some []) = aggregateCiState checks (some [])) ↔
      UnmaskedObserved checks := by
  have hnames : checks.map CiCheck.name ≠ [] := by simpa using hchecks
  have hfail : aggregateCiState checks (some []) ≠ .success := by
    rw [aggregateCiState_eq_rung_observed hchecks]
    intro h
    have hzero : worstObserved checks (checks.map CiCheck.name) = 0 :=
      rung_inj worstObserved_le (by omega) h
    have hmax : worstObserved checks (checks.map CiCheck.name) =
        max 2 (worst checks (checks.map CiCheck.name)) := Ladder.top_max hnames
    omega
  unfold UnmaskedObserved
  rw [← Ladder.top_perm_iff hnames, and_iff_right
    (iff_of_false hfail not_clean_nil_names)]
  refine forall₂_congr fun checks' hperm => ?_
  have hchecks' : checks' ≠ [] := fun h => hchecks (by rw [h] at hperm; exact hperm.eq_nil)
  have hsame : worstObserved checks' (checks'.map CiCheck.name) =
      worstObserved checks' (checks.map CiCheck.name) :=
    Ladder.top_congr fun n => ((hperm.map CiCheck.name).mem_iff).symm
  rw [aggregateCiState_eq_rung_observed hchecks, aggregateCiState_eq_rung_observed hchecks', hsame]
  exact ⟨rung_inj worstObserved_le worstObserved_le, congrArg rung⟩

theorem required_sound_iff (hchecks : checks ≠ []) (hne : names ≠ []) :
    ((aggregateCiState checks (some names) = .success ↔ Clean checks (some names)) ∧
      ∀ checks', checks.Perm checks' →
        aggregateCiState checks' (some names) = aggregateCiState checks (some names)) ↔
      Unmasked checks (names.map normCheckName) := by
  have hreq : names.map normCheckName ≠ [] := by simpa using hne
  have hperm : (∀ checks', checks.Perm checks' →
      aggregateCiState checks' (some names) = aggregateCiState checks (some names)) ↔
      ∃ k ∈ names.map normCheckName, ∃ h,
        Ladder.Settled CiCheck.name severity absentRung checks (names.map normCheckName) k h := by
    rw [← Ladder.top_perm_iff hreq]
    refine forall₂_congr fun checks' hp => ?_
    have hchecks' : checks' ≠ [] := fun h => hchecks (by rw [h] at hp; exact hp.eq_nil)
    rw [aggregateCiState_eq_rung hchecks hne, aggregateCiState_eq_rung hchecks' hne]
    exact ⟨rung_inj worst_le worst_le, congrArg rung⟩
  rw [hperm]
  unfold Unmasked
  constructor
  · rintro ⟨hsound, k, hk, h, hs⟩
    refine ⟨k, hk, h, hs, ?_⟩
    -- a conclusion that is not known stands on the rung of success
    rintro rfl c hc hname hunknown
    have htop : worst checks (names.map normCheckName) = 0 := hs.top_eq hk
    rw [aggregateCiState_eq_rung hchecks hne, htop] at hsound
    obtain ⟨_, heq, -, hall⟩ := hsound.mp rfl
    cases heq
    rw [(hall _ hname).2 c hc rfl] at hunknown
    cases hunknown
  · rintro ⟨k, hk, h, hs, hknown⟩
    refine ⟨?_, k, hk, h, hs⟩
    have htop : worst checks (names.map normCheckName) = h := hs.top_eq hk
    rw [aggregateCiState_eq_rung hchecks hne, htop]
    constructor
    · intro hsuccess
      have hzero : h = 0 := rung_inj (htop ▸ worst_le) (by omega) hsuccess
      subst hzero
      exact clean_of_severity_eq hne (fun n hn r hr => Nat.le_zero.mp (hs.2 n hn r hr))
        (hknown rfl)
    · intro hclean
      have hzero : h = 0 := by
        rw [← hs.1 _ Ladder.level_mem_ranksOf]
        exact hclean.severity_eq hk Ladder.level_mem_ranksOf
      rw [hzero]
      rfl

/-- **When success is sound and free of the order of the checks.** -/
theorem aggregateCiState_sound_iff (checks : List CiCheck) (required : Option (List PyStr)) :
    ((aggregateCiState checks required = .success ↔ Clean checks required) ∧
      ∀ checks', checks.Perm checks' →
        aggregateCiState checks' required = aggregateCiState checks required) ↔
      FirstSpeaks checks required := by
  by_cases hchecks : checks = []
  · subst hchecks
    have hfirst : FirstSpeaks [] required := by
      rcases required with _ | _ | _ <;> simp [FirstSpeaks]
    have hfail : aggregateCiState [] required ≠ .success := by
      rcases required with _ | _ <;> simp [aggregateCiState]
    refine iff_of_true ⟨iff_of_false hfail not_clean_nil, fun checks' hperm => ?_⟩ hfirst
    rw [hperm.nil_eq]
  · match required with
    | none =>
      refine iff_of_true ⟨iff_of_false (by simp [aggregateCiState]) ?_, fun _ _ => rfl⟩ trivial
      rintro ⟨_, heq, -⟩
      cases heq
    | some [] =>
      rw [observed_sound_iff hchecks]
      exact ⟨.inr, fun h => h.resolve_left hchecks⟩
    | some (n :: ns) =>
      rw [required_sound_iff hchecks (List.cons_ne_nil n ns)]
      exact ⟨.inr, fun h => h.resolve_left hchecks⟩

/-- Two checks of one name, of which the first has succeeded and the second has failed, are
a success; the other way round they are a failure. -/
theorem masked_failure :
    ¬((aggregateCiState [⟨PyStr.ofString "ci", some .success⟩, ⟨PyStr.ofString "ci", some .failure⟩]
          (some [PyStr.ofString "ci"]) = .success ↔
        Clean [⟨PyStr.ofString "ci", some .success⟩, ⟨PyStr.ofString "ci", some .failure⟩]
          (some [PyStr.ofString "ci"])) ∧
      ∀ checks', [⟨PyStr.ofString "ci", some .success⟩,
          ⟨PyStr.ofString "ci", some .failure⟩].Perm checks' →
        aggregateCiState checks' (some [PyStr.ofString "ci"]) =
          aggregateCiState
            [⟨PyStr.ofString "ci", some .success⟩, ⟨PyStr.ofString "ci", some .failure⟩]
            (some [PyStr.ofString "ci"])) := by
  intro h
  exact absurd (h.2 _ (List.Perm.swap _ _ [])) (by decide)

end External

end ArgentTeam
