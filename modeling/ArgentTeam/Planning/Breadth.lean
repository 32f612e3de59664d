import ArgentTeam.Lib.TextOrder
import ArgentTeam.Planning.Floor

/-!
# The breadth of a plan

A change that touches more files, or that is said to be riskier, has no smaller plan. Each path is
looked at by itself, and what is found of it is added to what was found of the others
(`foldl_touch`): so the impact of a change grows with the change (`Grows`), and with the impact
grow the calls of `add` (`entries_subset`), the stages and the flag.

One rule could break this: two of the conditions of the full suite ask for a level and not for a
level at least as high. A policy that is accepted has both of them.

As for the order of the paths, what is found of them is sorted, or is a set: nothing depends on it.
-/

namespace ArgentTeam

namespace Planning

variable (inventory : TestInventory) (policy : TestPolicy)

/-! ### What is found of each path -/

def tagsOf (p : PyStr) : List RiskTag :=
  if inventory.isTestInfraPath p then (lookup policy.subsystemRiskTags .testInfra).getD []
  else if isDocumentationPath p then []
  else
    match inventory.subsystemForPath p with
    | none => []
    | some sub => (lookup policy.subsystemRiskTags sub).getD [] ++ policy.overrideFor p

/-- A path is a module that has changed. -/
def isModule (p : PyStr) : Bool :=
  !inventory.isTestInfraPath p && !isDocumentationPath p && (inventory.subsystemForPath p).isSome

/-- A path is documentation, and no test. -/
def isDocument (p : PyStr) : Bool := !inventory.isTestInfraPath p && isDocumentationPath p

section Touched

variable {inventory policy} {t : Touched} {p : PyStr} {ps : List PyStr}

theorem touch_eq : t.touch inventory policy p =
    { subsystems := t.subsystems ++ (subsystemOf inventory p).toList
      tags := t.tags ++ tagsOf inventory policy p
      changedModules := t.changedModules ++ [p].filter (isModule inventory)
      unknown := t.unknown ++ [p].filter fun p => subsystemOf inventory p = none
      testInfra := t.testInfra || inventory.isTestInfraPath p
      docPaths := t.docPaths + [p].countP (isDocument inventory) } := by
  unfold Touched.touch subsystemOf tagsOf isModule isDocument
  by_cases hinfra : inventory.isTestInfraPath p = true
  · simp [hinfra]
  · by_cases hdoc : isDocumentationPath p = true
    · simp [hinfra, hdoc]
    · cases hsub : inventory.subsystemForPath p <;> simp [hinfra, hdoc, hsub]

/-- **The loop over the changed paths** adds up what it finds of each. -/
theorem foldl_touch : ps.foldl (Touched.touch inventory policy) t =
    { subsystems := t.subsystems ++ ps.filterMap (subsystemOf inventory)
      tags := t.tags ++ ps.flatMap (tagsOf inventory policy)
      changedModules := t.changedModules ++ ps.filter (isModule inventory)
      unknown := t.unknown ++ ps.filter fun p => subsystemOf inventory p = none
      testInfra := t.testInfra || ps.any inventory.isTestInfraPath
      docPaths := t.docPaths + ps.countP (isDocument inventory) } := by
  induction ps generalizing t with
  | nil => simp
  | cons p ps ih =>
    rw [List.foldl_cons, ih, touch_eq]
    have hsub : (p :: ps).filterMap (subsystemOf inventory) =
        (subsystemOf inventory p).toList ++ ps.filterMap (subsystemOf inventory) := by
      cases h : subsystemOf inventory p <;> simp [h]
    rw [hsub, ← List.singleton_append (l := ps), List.filter_append, List.filter_append,
      List.countP_append, List.flatMap_append, List.any_append]
    simp [List.append_assoc, Bool.or_assoc, Nat.add_assoc]

end Touched

/-! ### The level of a change -/

section Level

variable {policy} {tags tags' : List RiskTag} {r : RiskLevel} {n : ℕ}

theorem le_rank_foldl : n ≤ (tags.foldl (fun risk tag =>
      risk.maxRisk (policy.riskLevelForTag tag)) r).rank ↔
    n ≤ r.rank ∨ ∃ tag ∈ tags, n ≤ (policy.riskLevelForTag tag).rank := by
  induction tags generalizing r with
  | nil => simp
  | cons tag tags ih =>
    rw [List.foldl_cons, ih, rank_maxRisk, le_max_iff, or_assoc]
    simp only [List.mem_cons, exists_eq_or_imp]

theorem rank_injective {a b : RiskLevel} (h : a.rank = b.rank) : a = b := by
  cases a <;> cases b <;> first | rfl | cases h

theorem rank_foldl_le (h : ∀ tag ∈ tags, tag ∈ tags') :
    (tags.foldl (fun risk tag => risk.maxRisk (policy.riskLevelForTag tag)) r).rank ≤
      (tags'.foldl (fun risk tag => risk.maxRisk (policy.riskLevelForTag tag)) r).rank := by
  refine (le_rank_foldl).mpr (((le_rank_foldl).mp le_rfl).imp_right ?_)
  rintro ⟨tag, htag, hle⟩
  exact ⟨tag, h tag htag, hle⟩

end Level

/-! ### Larger changes -/

/-- A change with all paths of another, and flags that are as strong. -/
structure Stronger (evidence evidence' : ChangeEvidence) : Prop where
  paths : ∀ p ∈ evidence.changedPaths, p ∈ evidence'.changedPaths
  schemaMigration : evidence.schemaMigration = true → evidence'.schemaMigration = true
  phaseClosing : evidence.phaseClosing = true → evidence'.phaseClosing = true
  securityReviewed : evidence.securityReviewed = true → evidence'.securityReviewed = true
  riskClass : (classLevel evidence.riskClass).rank ≤ (classLevel evidence'.riskClass).rank

/-- All that a plan is made of grows from one impact to another. -/
structure Grows (impact impact' : ChangeImpact) : Prop where
  subsystems : ∀ sub ∈ impact.subsystems, sub ∈ impact'.subsystems
  changedModules : ∀ mod ∈ impact.changedModules, mod ∈ impact'.changedModules
  unknownPaths : impact.unknownPaths ≠ [] → impact'.unknownPaths ≠ []
  riskLevel : impact.riskLevel.rank ≤ impact'.riskLevel.rank
  schemaMigration : impact.schemaMigration = true → impact'.schemaMigration = true
  testInfrastructure : impact.testInfrastructure = true → impact'.testInfrastructure = true
  multipleSubsystems : impact.multipleSubsystems = true → impact'.multipleSubsystems = true

/-- A plan that has all of another. -/
structure Broader (plan plan' : TestPlan) : Prop where
  risk : plan.riskLevel.rank ≤ plan'.riskLevel.rank
  selectors : ∀ sel ∈ plan.stages.flatMap PlanStage.selectors,
    sel ∈ plan'.stages.flatMap PlanStage.selectors
  mandatory : ∀ sel ∈ plan.mandatorySelectors, sel ∈ plan'.mandatorySelectors
  fullSuite : plan.fullSuiteRequired = true → plan'.fullSuiteRequired = true

section Impact

variable {inventory policy} {evidence evidence' : ChangeEvidence}

/-- **The impact of a larger change is larger.** -/
theorem grows (h : Stronger evidence evidence') :
    Grows (deriveChangeImpact inventory policy evidence)
      (deriveChangeImpact inventory policy evidence') := by
  have hnorm : ∀ p ∈ evidence.changedPaths.map normalizePath,
      p ∈ evidence'.changedPaths.map normalizePath := by
    intro p hp
    obtain ⟨q, hq, rfl⟩ := List.mem_map.mp hp
    exact List.mem_map_of_mem (h.paths q hq)
  generalize hps : evidence.changedPaths.map normalizePath = ps at hnorm
  generalize hps' : evidence'.changedPaths.map normalizePath = ps' at hnorm
  have hsubs : ∀ sub ∈ ps.filterMap (subsystemOf inventory),
      sub ∈ ps'.filterMap (subsystemOf inventory) := by
    intro sub hsub
    obtain ⟨p, hp, heq⟩ := List.mem_filterMap.mp hsub
    exact List.mem_filterMap.mpr ⟨p, hnorm p hp, heq⟩
  have hfilter : ∀ (q : PyStr → Bool), ∀ p ∈ ps.filter q, p ∈ ps'.filter q := by
    intro q p hp
    obtain ⟨hp, hq⟩ := List.mem_filter.mp hp
    exact List.mem_filter.mpr ⟨hnorm p hp, hq⟩
  have hunknown : (ps.filter fun p => subsystemOf inventory p = none) ≠ [] →
      (ps'.filter fun p => subsystemOf inventory p = none) ≠ [] := by
    intro hne
    obtain ⟨p, hp⟩ := List.exists_mem_of_ne_nil _ hne
    exact List.ne_nil_of_mem (hfilter _ p hp)
  have htags : ∀ tag ∈ ps.flatMap (tagsOf inventory policy),
      tag ∈ ps'.flatMap (tagsOf inventory policy) := by
    intro tag htag
    obtain ⟨p, hp, htag⟩ := List.mem_flatMap.mp htag
    exact List.mem_flatMap.mpr ⟨p, hnorm p hp, htag⟩
  have hmigration : (evidence.schemaMigration ||
        (ps.filterMap (subsystemOf inventory)).elem .persistence) = true →
      (evidence'.schemaMigration ||
        (ps'.filterMap (subsystemOf inventory)).elem .persistence) = true := by
    simp only [Bool.or_eq_true, List.elem_iff]
    exact Or.imp h.schemaMigration (hsubs _)
  have hmultiple : 2 ≤ (Subsystem.all.filter fun s =>
        (ps.filterMap (subsystemOf inventory)).elem s && s ≠ .documentation &&
          s ≠ .testInfra).length →
      2 ≤ (Subsystem.all.filter fun s =>
        (ps'.filterMap (subsystemOf inventory)).elem s && s ≠ .documentation &&
          s ≠ .testInfra).length := by
    intro hle
    refine hle.trans (List.Sublist.length_le (List.monotone_filter_right _ fun s hs => ?_))
    simp only [Bool.and_eq_true, List.elem_iff] at hs ⊢
    exact ⟨⟨hsubs s hs.1.1, hs.1.2⟩, hs.2⟩
  have hraise : ∀ {a b : Prop} [Decidable a] [Decidable b] (level : RiskLevel), (a → b) →
      (if a then level else .low).rank ≤ (if b then level else .low).rank := by
    intro a b _ _ level hab
    split_ifs with ha hb
    · exact le_rfl
    · exact absurd (hab ha) hb
    · exact Nat.zero_le _
    · exact le_rfl
  constructor
  · simp only [deriveChangeImpact, foldl_touch, hps, hps', List.nil_append, List.mem_filter,
      List.elem_iff]
    exact fun sub hsub => ⟨hsub.1, hsubs sub hsub.2⟩
  · simp only [deriveChangeImpact, foldl_touch, hps, hps', List.nil_append, mem_sorted]
    exact hfilter _
  · simp only [deriveChangeImpact, foldl_touch, hps, hps', List.nil_append]
    intro hne
    obtain ⟨p, hp⟩ := List.exists_mem_of_ne_nil _ hne
    exact List.ne_nil_of_mem (mem_sorted.mpr (hfilter _ p (mem_sorted.mp hp)))
  · simp only [deriveChangeImpact, foldl_touch, hps, hps', List.nil_append, rank_maxRisk]
    exact max_le_max (max_le_max (max_le_max (max_le_max (rank_foldl_le htags)
      (hraise _ hmigration)) (hraise _ hunknown)) h.riskClass)
      (hraise _ (by simpa using hmultiple))
  · simp only [deriveChangeImpact, foldl_touch, hps, hps', List.nil_append]
    exact hmigration
  · simp only [deriveChangeImpact, foldl_touch, hps, hps', Bool.false_or, List.any_eq_true]
    rintro ⟨p, hp, hinfra⟩
    exact ⟨p, hnorm p hp, hinfra⟩
  · simp only [deriveChangeImpact, foldl_touch, hps, hps', List.nil_append, decide_eq_true_eq]
    exact hmultiple

end Impact

/-! ### What is asked for -/

section Asked

variable {inventory policy} {evidence evidence' : ChangeEvidence} {impact impact' : ChangeImpact}

/-- The full suite is required where a condition of the policy is met, or a subsystem asks for
it. -/
theorem fullSuiteRequired_iff : fullSuiteRequired policy evidence impact ↔
    (∃ c ∈ fullSuiteChecks evidence impact, c.1 ∈ policy.fullSuiteRequiredWhen ∧ c.2.1) ∨
      ∃ sub ∈ impact.subsystems,
        (lookup policy.hardInvariants sub).any HardInvariant.fullSuite := by
  constructor
  · rw [fullSuiteRequired, decide_eq_true_eq]
    intro hne
    obtain ⟨reason, hreason⟩ := List.exists_mem_of_ne_nil _ hne
    rcases List.mem_append.mp hreason with hreason | hreason
    · obtain ⟨c, hc, -⟩ := List.mem_map.mp hreason
      obtain ⟨hc, hmet⟩ := List.mem_filter.mp hc
      rw [Bool.and_eq_true, List.elem_iff] at hmet
      exact .inl ⟨c, hc, hmet⟩
    · obtain ⟨sub, hsub, -⟩ := List.mem_map.mp hreason
      obtain ⟨hsub, hfull⟩ := List.mem_filter.mp hsub
      exact .inr ⟨sub, hsub, hfull⟩
  · rintro (⟨c, hc, hin, htrue⟩ | ⟨sub, hsub, hfull⟩)
    · exact fullSuiteRequired_of_condition hc hin htrue
    · exact fullSuiteRequired_of_subsystem hsub hfull

/-- **The full suite stays required.** A level that is no longer high is critical, and an accepted
policy has a condition for either. -/
theorem fullSuiteRequired_grows (hfloor : Floored policy) (hs : Stronger evidence evidence')
    (hg : Grows impact impact') (h : fullSuiteRequired policy evidence impact) :
    fullSuiteRequired policy evidence' impact' := by
  have hrisk : 2 ≤ impact'.riskLevel.rank → fullSuiteRequired policy evidence' impact' = true := by
    intro hrank
    rcases high_or_critical hrank with hlevel | hlevel
    · exact hfloor.required (c := .riskHigh) (by decide) (by simp [fullSuiteChecks, hlevel])
    · exact hfloor.required (c := .riskCritical) (by decide) (by simp [fullSuiteChecks, hlevel])
  rcases (fullSuiteRequired_iff).mp h with ⟨c, hc, hin, htrue⟩ | ⟨sub, hsub, hfull⟩
  · -- the condition that was met is met again
    have hagain : ∀ b, (∃ reason, (c.1, b, reason) ∈ fullSuiteChecks evidence' impact') →
        b = true → fullSuiteRequired policy evidence' impact' = true := by
      rintro b ⟨reason, hmem⟩ hb
      exact fullSuiteRequired_of_condition hmem hin hb
    simp only [fullSuiteChecks, List.mem_cons, List.not_mem_nil, or_false] at hc
    rcases hc with rfl | rfl | rfl | rfl | rfl | rfl | rfl | rfl | rfl
    · exact hagain evidence'.phaseClosing (by simp [fullSuiteChecks])
        (hs.phaseClosing htrue)
    · refine hrisk (le_trans ?_ hg.riskLevel)
      rw [of_decide_eq_true htrue]
      decide
    · refine hrisk (le_trans ?_ hg.riskLevel)
      rw [of_decide_eq_true htrue]
      decide
    · exact hagain impact'.testInfrastructure (by simp [fullSuiteChecks])
        (hg.testInfrastructure htrue)
    · exact hagain impact'.schemaMigration (by simp [fullSuiteChecks])
        (hg.schemaMigration htrue)
    · exact hagain impact'.multipleSubsystems (by simp [fullSuiteChecks])
        (hg.multipleSubsystems htrue)
    · exact hagain (decide (impact'.unknownPaths ≠ [])) (by simp [fullSuiteChecks])
        (decide_eq_true (hg.unknownPaths (of_decide_eq_true htrue)))
    · cases htrue
    · exact hagain evidence'.securityReviewed (by simp [fullSuiteChecks])
        (hs.securityReviewed htrue)
  · exact fullSuiteRequired_of_subsystem (hg.subsystems sub hsub) hfull

/-- **All that was asked for is asked for again**, with the same reasons. -/
theorem entries_subset (hfloor : Floored policy) (hs : Stronger evidence evidence')
    (hg : Grows impact impact') :
    ∀ e ∈ entries inventory policy impact evidence,
      e ∈ entries inventory policy impact' evidence' := by
  have htested : ∀ sub ∈ testedSubsystems impact, sub ∈ testedSubsystems impact' := by
    intro sub hsub
    obtain ⟨hsub, hdoc⟩ := List.mem_filter.mp hsub
    exact List.mem_filter.mpr ⟨hg.subsystems sub hsub, hdoc⟩
  have hflat {α : Type} {xs ys : List α} {f g : α → List Entry} {e : Entry}
      (hxs : ∀ x ∈ xs, x ∈ ys) (hf : ∀ x, e ∈ f x → e ∈ g x) (he : e ∈ xs.flatMap f) :
      e ∈ ys.flatMap g := by
    obtain ⟨x, hx, he⟩ := List.mem_flatMap.mp he
    exact List.mem_flatMap.mpr ⟨x, hxs x hx, hf x he⟩
  have hif {a b : Prop} [Decidable a] [Decidable b] {es : List Entry} {e : Entry} (hab : a → b)
      (he : e ∈ if a then es else []) : e ∈ if b then es else [] := by
    split at he
    next ha => rwa [if_pos (hab ha)]
    next => cases he
  intro e he
  simp only [entries, List.mem_append] at he ⊢
  rcases he with (((((he | he) | he) | he) | he) | he) | he
  · exact .inl (.inl (.inl (.inl (.inl (.inl (hflat hg.changedModules (fun _ => id) he))))))
  · exact .inl (.inl (.inl (.inl (.inl (.inr (hflat htested (fun _ => id) he))))))
  · refine .inl (.inl (.inl (.inl (.inr (hflat htested (fun sub he => ?_) he)))))
    simp only [phaseEntriesOf, List.mem_append] at he ⊢
    refine he.imp_left (hif (Or.imp_left fun hlow hlow' => hlow ?_))
    have hrank := hg.riskLevel
    rw [hlow'] at hrank
    exact rank_injective (Nat.le_zero.mp hrank)
  · exact .inl (.inl (.inl (.inr (hflat hg.changedModules (fun _ => id) he))))
  · exact .inl (.inl (.inr (hif hg.unknownPaths he)))
  · exact .inl (.inr (hif hg.testInfrastructure he))
  · exact .inr (hif (fullSuiteRequired_grows hfloor hs hg) he)

end Asked

/-! ### What is in a plan -/

section Held

variable {inventory policy} {es : List Entry} {full : Selector} {plan : TestPlan}

/-- **The selectors of a plan** are those that were asked for. -/
theorem mem_planSelectors (hw : Wellformed full es)
    (hstages : plan.stages = canonicalStageOrder.filterMap (es.foldl Collected.add {}).stage)
    {s : PyStr} :
    s ∈ plan.stages.flatMap PlanStage.selectors ↔ ∃ e ∈ es, e.sel.text = s := by
  rw [List.mem_flatMap]
  constructor
  · rintro ⟨st, hst, hs⟩
    rw [hstages] at hst
    obtain ⟨name, -, hst⟩ := List.mem_filterMap.mp hst
    obtain ⟨-, -, hsel, -⟩ := stage_eq_some (gathered es) hst
    obtain ⟨sel, rfl, hfirst⟩ := (hsel s).mp hs
    obtain ⟨e, he, rfl, -⟩ := firstStage_mem hfirst
    exact ⟨e, he, rfl⟩
  · rintro ⟨e, he, rfl⟩
    obtain ⟨st, hst, hs, -⟩ := exists_stage hw hstages he
    exact ⟨st, hst, hs⟩

/-- The level and the flag of a plan. -/
theorem fields_planFor {κ : Type} {sha256 : Json → String} {hmac : κ → Json → String}
    {evidence : ChangeEvidence} {key : Option κ}
    (h : planFor inventory policy sha256 hmac evidence key = some plan) :
    plan.riskLevel = (deriveChangeImpact inventory policy evidence).riskLevel ∧
      plan.fullSuiteRequired = fullSuiteRequired policy evidence
        (deriveChangeImpact inventory policy evidence) := by
  unfold planFor at h
  split at h
  · cases h
  · obtain rfl := Option.some.inj h
    cases key <;> exact ⟨rfl, rfl⟩

end Held

/-! ### The order of the paths -/

section Order

variable {inventory policy} {evidence : ChangeEvidence} {ps qs : List PyStr}

theorem sorted_perm (h : ps.Perm qs) : sorted ps = sorted qs := by
  have : Std.Total (α := PyStr) fun a b => PyStr.le a b = true := ⟨PyStr.le_total⟩
  have : IsTrans PyStr fun a b => PyStr.le a b = true := ⟨fun _ _ _ => PyStr.le_trans⟩
  refine List.Perm.eq_of_pairwise (fun _ _ _ _ => PyStr.le_antisymm)
    (List.pairwise_insertionSort _ ps) (List.pairwise_insertionSort _ qs) ?_
  exact (List.perm_insertionSort _ ps).trans (h.trans (List.perm_insertionSort _ qs).symm)

theorem elem_perm {α : Type} [DecidableEq α] {xs ys : List α} (h : xs.Perm ys) (x : α) :
    xs.elem x = ys.elem x := by
  rw [Bool.eq_iff_iff, List.elem_iff, List.elem_iff, h.mem_iff]

/-- **The impact does not depend on the order of the paths.** -/
theorem deriveChangeImpact_perm (h : evidence.changedPaths.Perm ps) :
    deriveChangeImpact inventory policy { evidence with changedPaths := ps } =
      deriveChangeImpact inventory policy evidence := by
  have hnorm : (evidence.changedPaths.map normalizePath).Perm (ps.map normalizePath) := h.map _
  generalize hps : evidence.changedPaths.map normalizePath = xs at hnorm
  generalize hps' : ps.map normalizePath = ys at hnorm
  have hsubs := hnorm.filterMap (subsystemOf inventory)
  have htags := hnorm.flatMap_right (tagsOf inventory policy)
  have hunknown := hnorm.filter fun p => subsystemOf inventory p = none
  have hlevel : ((xs.flatMap (tagsOf inventory policy)).foldl
        (fun (risk : RiskLevel) tag => risk.maxRisk (policy.riskLevelForTag tag)) .low) =
      (ys.flatMap (tagsOf inventory policy)).foldl
        (fun (risk : RiskLevel) tag => risk.maxRisk (policy.riskLevelForTag tag)) .low :=
    rank_injective (le_antisymm (rank_foldl_le fun _ => htags.mem_iff.mp)
      (rank_foldl_le fun _ => htags.mem_iff.mpr))
  have hnil : (xs.filter fun p => subsystemOf inventory p = none) = [] ↔
      (ys.filter fun p => subsystemOf inventory p = none) = [] := by
    rw [← List.length_eq_zero_iff, hunknown.length_eq, List.length_eq_zero_iff]
  have hany : xs.any inventory.isTestInfraPath = ys.any inventory.isTestInfraPath := by
    rw [Bool.eq_iff_iff, List.any_eq_true, List.any_eq_true]
    exact exists_congr fun p => and_congr_left fun _ => hnorm.mem_iff
  simp only [deriveChangeImpact, foldl_touch, hps, hps', List.nil_append, ne_eq, hlevel, hnil,
    hany, elem_perm hsubs, elem_perm htags, sorted_perm hunknown,
    sorted_perm (hnorm.filter (isModule inventory)), hnorm.countP_eq, hnorm.length_eq]

/-- **Nor does the plan.** -/
theorem planFor_perm {κ : Type} {sha256 : Json → String} {hmac : κ → Json → String}
    {key : Option κ} (h : evidence.changedPaths.Perm ps) :
    planFor inventory policy sha256 hmac { evidence with changedPaths := ps } key =
      planFor inventory policy sha256 hmac evidence key := by
  have hchanges : changeSet { evidence with changedPaths := ps } = changeSet evidence := by
    simp only [changeSet, sorted_perm (h.map normalizePath)]
  have hdraft (impact : ChangeImpact) :
      draftPlan inventory policy sha256 { evidence with changedPaths := ps } impact =
        draftPlan inventory policy sha256 evidence impact := by
    simp only [draftPlan, hchanges]
    rfl
  have hnil : ps = [] ↔ evidence.changedPaths = [] := by
    rw [← List.length_eq_zero_iff, ← h.length_eq, List.length_eq_zero_iff]
  simp only [planFor, deriveChangeImpact_perm h, hdraft, hnil]

end Order

/-! ### Breadth -/

section Broad

variable {inventory policy}

/-- **A larger change has a plan as broad**, and the order of the paths does not count. -/
theorem plan_breadth {κ : Type} {sha256 : Json → String} {hmac : κ → Json → String}
    {matchesFile : PyStr → Bool} {policyData : List (PyStr × Json)}
    (hpolicy : TestPolicy.fromDict sha256 matchesFile policyData = some policy) :
    (∀ (evidence evidence' : ChangeEvidence) (key key' : Option κ) (plan plan' : TestPlan),
      Stronger evidence evidence' →
      planFor inventory policy sha256 hmac evidence key = some plan →
      planFor inventory policy sha256 hmac evidence' key' = some plan' → Broader plan plan') ∧
    ∀ (evidence : ChangeEvidence) (ps : List PyStr) (key : Option κ),
      evidence.changedPaths.Perm ps →
      planFor inventory policy sha256 hmac { evidence with changedPaths := ps } key =
        planFor inventory policy sha256 hmac evidence key := by
  refine ⟨fun evidence evidence' key key' plan plan' hs hplan hplan' => ?_,
    fun evidence ps key => planFor_perm⟩
  have hfloor := floored hpolicy
  have hg := @grows inventory policy evidence evidence' hs
  have hsub := @entries_subset inventory policy _ _ _ _ hfloor hs hg
  have hstages := stages_planFor hplan
  have hstages' := stages_planFor hplan'
  obtain ⟨hrisk, hfull⟩ := fields_planFor hplan
  obtain ⟨hrisk', hfull'⟩ := fields_planFor hplan'
  constructor
  · rw [hrisk, hrisk']
    exact hg.riskLevel
  · intro sel
    rw [mem_planSelectors wellformed_entries hstages,
      mem_planSelectors wellformed_entries hstages']
    rintro ⟨e, he, hsel⟩
    exact ⟨e, hsub e he, hsel⟩
  · intro sel
    rw [mem_mandatorySelectors wellformed_entries hstages,
      mem_mandatorySelectors wellformed_entries hstages']
    rintro ⟨e, he, hsel⟩
    exact ⟨e, hsub e he, hsel⟩
  · rw [hfull, hfull']
    exact fullSuiteRequired_grows hfloor hs hg

/-- The change that closes a phase has a plan as broad as the same change that does not. -/
theorem plan_breadth_small :
    ∃ config ∈ smallConfig ["tests/test_models.py"] false,
      ∃ plan ∈ planFor config.1 config.2 (fun _ => "sha256") (fun _ _ => "hmac")
          (smallChange false) (none : Option Unit),
        ∃ plan' ∈ planFor config.1 config.2 (fun _ => "sha256") (fun _ _ => "hmac")
          (smallChange true) (none : Option Unit), Broader plan plan' := by
  obtain ⟨inventory, policy, -, hpolicy, hconfig⟩ := small_accepted
  have hplan (phaseClosing : Bool) : ∃ plan, planFor inventory policy (fun _ => "sha256")
      (fun _ _ => "hmac") (smallChange phaseClosing) (none : Option Unit) = some plan :=
    ⟨_, if_neg (by cases phaseClosing <;> decide)⟩
  obtain ⟨plan, hsome⟩ := hplan false
  obtain ⟨plan', hsome'⟩ := hplan true
  have hstronger : Stronger (smallChange false) (smallChange true) :=
    ⟨fun _ => id, id, fun _ => rfl, id, le_rfl⟩
  exact ⟨(inventory, policy), hconfig, plan, hsome, plan', hsome',
    (plan_breadth hpolicy).1 _ _ none none plan plan' hstronger hsome hsome'⟩

end Broad

end Planning

end ArgentTeam
