import ArgentTeam.Lib.Except
import ArgentTeam.Planning.Executable

/-!
# The floor of the full suite

A policy that the loader accepts has levels for all risk tags, obligations of the subsystems that
matter most, conditions and handling of what is unknown that cannot be left out. Together they
imply that the full suite is mandatory in the plan of every change that `NeedsFullSuite` – each
way to need it leads to a condition that no accepted policy lacks – and so are the regressions
that an obligation of a subsystem or of a changed module requires.

Documentation comes before all of this: a path that is documentation counts for no other
subsystem, whatever the inventory says of it, and what a policy requires of documentation is not
collected.
-/

namespace ArgentTeam

namespace Planning

variable (inventory : TestInventory) (policy : TestPolicy)

/-! ### What a path counts for -/

/-- The subsystem a path counts for: the tests first, then documentation, then the owner of the
path; `none` if it has none. -/
def subsystemOf (p : PyStr) : Option Subsystem :=
  if inventory.isTestInfraPath p then some .testInfra
  else if isDocumentationPath p then some .documentation
  else inventory.subsystemForPath p

/-- Some changed path counts for the subsystem. -/
def Changes (evidence : ChangeEvidence) (sub : Subsystem) : Prop :=
  ∃ p ∈ evidence.changedPaths, subsystemOf inventory (normalizePath p) = some sub

/-- A subsystem other than documentation and the tests. -/
def Substantive (sub : Subsystem) : Prop := sub ≠ .documentation ∧ sub ≠ .testInfra

/-- **A change that needs the full suite**, whatever the policy. -/
def NeedsFullSuite (evidence : ChangeEvidence) : Prop :=
  evidence.phaseClosing = true ∨
    (∃ p ∈ evidence.changedPaths, inventory.isTestInfraPath (normalizePath p) = true) ∨
    (∃ p ∈ evidence.changedPaths, subsystemOf inventory (normalizePath p) = none) ∨
    (∃ sub ∈ [Subsystem.security, .supervisor, .persistence], Changes inventory evidence sub) ∨
    (∃ sub sub', Substantive sub ∧ Substantive sub' ∧ sub ≠ sub' ∧
      Changes inventory evidence sub ∧ Changes inventory evidence sub') ∨
    evidence.schemaMigration = true ∨
    classLevel evidence.riskClass = .high ∨ classLevel evidence.riskClass = .critical

/-- A plan demands a selector: it is in a stage, and marked mandatory there. -/
def TestPlan.Demands (plan : TestPlan) (sel : PyStr) : Prop :=
  ∃ st ∈ plan.stages, sel ∈ st.selectors ∧ sel ∈ st.mandatory

/-! ### What the loop over the changed paths has seen -/

section Touched

variable {inventory policy} {evidence : ChangeEvidence} {t : Touched} {ps : List PyStr}
  {sub : Subsystem}

theorem mem_subsystems_touch {p : PyStr} :
    sub ∈ (t.touch inventory policy p).subsystems ↔
      sub ∈ t.subsystems ∨ subsystemOf inventory p = some sub := by
  unfold Touched.touch subsystemOf
  split
  · simp [eq_comm]
  · split
    · simp [eq_comm]
    · cases inventory.subsystemForPath p <;> simp [eq_comm]

theorem mem_unknown_touch {p q : PyStr} :
    q ∈ (t.touch inventory policy p).unknown ↔
      q ∈ t.unknown ∨ q = p ∧ subsystemOf inventory p = none := by
  unfold Touched.touch subsystemOf
  split
  · simp
  · split
    · simp
    · cases inventory.subsystemForPath p <;> simp

theorem testInfra_touch {p : PyStr} :
    (t.touch inventory policy p).testInfra ↔
      t.testInfra ∨ inventory.isTestInfraPath p := by
  unfold Touched.touch
  split
  next h => simp [h]
  next h =>
    split
    · simp [h]
    · cases inventory.subsystemForPath p <;> simp [h]

/-- What the loop leaves, read off the paths it went over. -/
theorem touched_iff :
    (sub ∈ (ps.foldl (Touched.touch inventory policy) t).subsystems ↔
        sub ∈ t.subsystems ∨ ∃ p ∈ ps, subsystemOf inventory p = some sub) ∧
      (∀ q, q ∈ (ps.foldl (Touched.touch inventory policy) t).unknown ↔
        q ∈ t.unknown ∨ q ∈ ps ∧ subsystemOf inventory q = none) ∧
      ((ps.foldl (Touched.touch inventory policy) t).testInfra ↔
        t.testInfra ∨ ∃ p ∈ ps, inventory.isTestInfraPath p) := by
  induction ps generalizing t with
  | nil => simp
  | cons p ps ih =>
    obtain ⟨hsub, hunknown, hinfra⟩ := ih (t := t.touch inventory policy p)
    refine ⟨?_, fun q => ?_, ?_⟩
    · rw [List.foldl_cons, hsub, mem_subsystems_touch, or_assoc]
      simp only [List.mem_cons, exists_eq_or_imp]
    · rw [List.foldl_cons, hunknown, mem_unknown_touch, List.mem_cons, or_assoc]
      refine or_congr_right ?_
      constructor
      · rintro (⟨rfl, hnone⟩ | ⟨hmem, hnone⟩)
        · exact ⟨.inl rfl, hnone⟩
        · exact ⟨.inr hmem, hnone⟩
      · rintro ⟨rfl | hmem, hnone⟩
        · exact .inl ⟨rfl, hnone⟩
        · exact .inr ⟨hmem, hnone⟩
    · rw [List.foldl_cons, hinfra, testInfra_touch, or_assoc]
      simp only [List.mem_cons, exists_eq_or_imp]

end Touched

/-! ### The impact of a change -/

section Impact

variable {inventory policy} {evidence : ChangeEvidence} {sub : Subsystem}

theorem Subsystem.mem_all (sub : Subsystem) : sub ∈ Subsystem.all := by
  cases sub <;> decide

theorem mem_subsystems_impact :
    sub ∈ (deriveChangeImpact inventory policy evidence).subsystems ↔
      Changes inventory evidence sub := by
  have htouched :=
    (@touched_iff inventory policy {} (evidence.changedPaths.map normalizePath) sub).1
  simp only [deriveChangeImpact, List.mem_filter, List.elem_iff]
  rw [and_iff_right (Subsystem.mem_all sub), htouched]
  simp [Changes]

theorem testInfrastructure_impact :
    (deriveChangeImpact inventory policy evidence).testInfrastructure ↔
      ∃ p ∈ evidence.changedPaths, inventory.isTestInfraPath (normalizePath p) := by
  have htouched :=
    (@touched_iff inventory policy {} (evidence.changedPaths.map normalizePath) .core).2.2
  simpa [deriveChangeImpact] using htouched

theorem unknownPaths_impact :
    (deriveChangeImpact inventory policy evidence).unknownPaths ≠ [] ↔
      ∃ p ∈ evidence.changedPaths, subsystemOf inventory (normalizePath p) = none := by
  have htouched :=
    (@touched_iff inventory policy {} (evidence.changedPaths.map normalizePath) .core).2.1
  constructor
  · intro hne
    obtain ⟨q, hq⟩ := List.exists_mem_of_ne_nil _ hne
    simp only [deriveChangeImpact, mem_sorted, htouched, List.not_mem_nil, false_or] at hq
    obtain ⟨p, hp, rfl⟩ := List.mem_map.mp hq.1
    exact ⟨p, hp, hq.2⟩
  · rintro ⟨p, hp, hnone⟩
    refine List.ne_nil_of_mem (a := normalizePath p) ?_
    simp only [deriveChangeImpact, mem_sorted, htouched]
    exact .inr ⟨List.mem_map_of_mem hp, hnone⟩

theorem multipleSubsystems_impact {sub' : Subsystem} (hsub : Substantive sub)
    (hsub' : Substantive sub') (hne : sub ≠ sub') (h : Changes inventory evidence sub)
    (h' : Changes inventory evidence sub') :
    (deriveChangeImpact inventory policy evidence).multipleSubsystems := by
  have hmem {s : Subsystem} (hs : Substantive s) (hc : Changes inventory evidence s) :
      s ∈ Subsystem.all.filter fun s => ((evidence.changedPaths.map normalizePath).foldl
        (Touched.touch inventory policy) {}).subsystems.elem s && s ≠ .documentation &&
          s ≠ .testInfra := by
    have htouched := (@mem_subsystems_impact inventory policy evidence s).mpr hc
    simp only [deriveChangeImpact, List.mem_filter] at htouched
    simp only [List.mem_filter, htouched.1, htouched.2, hs.1, hs.2, ne_eq, not_false_eq_true,
      decide_true, Bool.and_self, and_self]
  have hpair : [sub, sub'].Subperm _ := List.subperm_of_subset (by simpa using hne)
    (List.cons_subset.mpr ⟨hmem hsub h, List.cons_subset.mpr ⟨hmem hsub' h', List.nil_subset _⟩⟩)
  simpa [deriveChangeImpact] using hpair.length_le

theorem rank_maxRisk (a b : RiskLevel) : (a.maxRisk b).rank = max a.rank b.rank := by
  cases a <;> cases b <;> rfl

theorem high_or_critical {level : RiskLevel} (h : 2 ≤ level.rank) :
    level = .high ∨ level = .critical := by
  cases level <;> simp [RiskLevel.rank] at h ⊢

theorem le_riskLevel_impact :
    (if evidence.schemaMigration then 3 else 0) ≤
        (deriveChangeImpact inventory policy evidence).riskLevel.rank ∧
      (classLevel evidence.riskClass).rank ≤
        (deriveChangeImpact inventory policy evidence).riskLevel.rank := by
  simp only [deriveChangeImpact, rank_maxRisk]
  cases evidence.schemaMigration with
  | false => exact ⟨Nat.zero_le _, by omega⟩
  | true =>
    simp only [Bool.true_or, if_true, RiskLevel.rank]
    omega

end Impact

/-! ### What the loaders leave -/

section Loaded

variable {inventory policy} {sha256 : Json → String} {matchesFile : PyStr → Bool}
  {data : List (PyStr × Json)}

theorem fullSuiteSelector_text
    (h : TestInventory.fromDict sha256 matchesFile data = some inventory) :
    inventory.fullSuiteSelector.text = PyStr.ofString "tests/" := by
  -- version, ownership, tests, targeted tests and manual suites come before it
  iterate 17 obtain ⟨_, -, h⟩ := Option.bind_eq_some_iff.mp h
  obtain ⟨full, -, h⟩ := Option.bind_eq_some_iff.mp h
  obtain ⟨_, hguard, h⟩ := Option.bind_eq_some_iff.mp h
  obtain rfl := Option.some.inj h
  exact (Option.guard_eq_some' _).mp hguard

/-- **What a policy cannot leave out.** -/
structure Floored (policy : TestPolicy) : Prop where
  core : ∀ sub ∈ [Subsystem.security, .supervisor, .persistence],
    (lookup policy.hardInvariants sub).any HardInvariant.fullSuite = true
  conditions : ∀ c ∈ FullSuiteCondition.mandatory, c ∈ policy.fullSuiteRequiredWhen
  unknown : policy.unknownHandling.fullSuite = true
  testInfra : policy.testInfraHandling.fullSuite = true

theorem fullSuite_of_parse {value : Json} {handling : HandlingPolicy}
    (h : HandlingPolicy.parse matchesFile value = some handling) : handling.fullSuite := by
  obtain ⟨invariant, -, h⟩ := Option.bind_eq_some_iff.mp h
  obtain ⟨_, -, h⟩ := Option.bind_eq_some_iff.mp h
  obtain ⟨_, hfull, h⟩ := Option.bind_eq_some_iff.mp h
  obtain ⟨_, -, h⟩ := Option.bind_eq_some_iff.mp h
  obtain ⟨_, -, h⟩ := Option.bind_eq_some_iff.mp h
  obtain rfl := Option.some.inj h
  exact (Option.guard_eq_some' _).mp hfull

theorem floored (h : TestPolicy.fromDict sha256 matchesFile data = some policy) :
    Floored policy := by
  -- the version, the levels and the tags come before the obligations
  iterate 16 obtain ⟨_, -, h⟩ := Option.bind_eq_some_iff.mp h
  obtain ⟨_, hcore, h⟩ := Option.bind_eq_some_iff.mp h
  iterate 2 obtain ⟨_, -, h⟩ := Option.bind_eq_some_iff.mp h
  dsimp only at h
  split at h
  case h_2 => cases h
  obtain ⟨_, -, h⟩ := Option.bind_eq_some_iff.mp h
  obtain ⟨_, hconditions, h⟩ := Option.bind_eq_some_iff.mp h
  obtain ⟨_, -, h⟩ := Option.bind_eq_some_iff.mp h
  obtain ⟨unknown, hunknown, h⟩ := Option.bind_eq_some_iff.mp h
  obtain ⟨_, -, h⟩ := Option.bind_eq_some_iff.mp h
  obtain ⟨infra, hinfra, h⟩ := Option.bind_eq_some_iff.mp h
  obtain rfl := Option.some.inj h
  have hcore := List.all_eq_true.mp ((Option.guard_eq_some' _).mp hcore)
  have hconditions := List.all_eq_true.mp ((Option.guard_eq_some' _).mp hconditions)
  exact ⟨hcore, fun c hc => by simpa using hconditions c hc, fullSuite_of_parse hunknown,
    fullSuite_of_parse hinfra⟩

end Loaded

/-! ### The floor -/

section Floor

variable {inventory policy} {evidence : ChangeEvidence} {impact : ChangeImpact}

theorem mem_demands {plan : TestPlan} {es : List Entry} {full : Selector}
    (hw : Wellformed full es)
    (hstages : plan.stages = canonicalStageOrder.filterMap (es.foldl Collected.add {}).stage)
    {e : Entry} (he : e ∈ es) (hm : e.mandatory) : plan.Demands e.sel.text := by
  obtain ⟨st, hst, hheld, hmand⟩ := exists_stage hw hstages he
  exact ⟨st, hst, hheld, hmand hm⟩

theorem fullSuiteRequired_of_condition
    {c : FullSuiteCondition × Bool × String}
    (hc : c ∈ fullSuiteChecks evidence impact) (hin : c.1 ∈ policy.fullSuiteRequiredWhen)
    (htrue : c.2.1) : fullSuiteRequired policy evidence impact := by
  rw [fullSuiteRequired, decide_eq_true_eq]
  refine List.ne_nil_of_mem (List.mem_append_left _
    (List.mem_map_of_mem (List.mem_filter.mpr ⟨hc, ?_⟩)))
  rw [List.elem_eq_true_of_mem hin, htrue]
  rfl

theorem fullSuiteRequired_of_subsystem {sub : Subsystem}
    (hsub : sub ∈ impact.subsystems)
    (hfull : (lookup policy.hardInvariants sub).any HardInvariant.fullSuite) :
    fullSuiteRequired policy evidence impact := by
  rw [fullSuiteRequired, decide_eq_true_eq]
  exact List.ne_nil_of_mem (List.mem_append_right _
    (List.mem_map_of_mem (List.mem_filter.mpr ⟨hsub, hfull⟩)))

theorem Floored.required (h : Floored policy) {c : FullSuiteCondition}
    (hcond : c ∈ FullSuiteCondition.mandatory)
    (hc : ∃ reason, (c, true, reason) ∈ fullSuiteChecks evidence impact) :
    fullSuiteRequired policy evidence impact := by
  obtain ⟨reason, hc⟩ := hc
  exact fullSuiteRequired_of_condition hc (h.conditions c hcond) rfl

theorem mem_obliged_full {ob : HardInvariant} {reason : Selector → PyStr} {fullReason : PyStr}
    (hfull : ob.fullSuite) :
    ⟨"full_suite", inventory.fullSuiteSelector, fullReason, true⟩ ∈
      obliged inventory ob reason fullReason := by
  simp [obliged, hfull]

theorem mem_policyEntries
    (h : fullSuiteRequired policy evidence impact) :
    ⟨"full_suite", inventory.fullSuiteSelector, PyStr.ofString "full suite required by policy",
      true⟩ ∈ policyEntries inventory policy impact evidence := by
  simp [policyEntries, h]

theorem mem_unknownEntries (h : impact.unknownPaths ≠ [])
    (hfull : policy.unknownHandling.fullSuite) :
    ⟨"full_suite", inventory.fullSuiteSelector, PyStr.ofString "UNKNOWN path -> full suite",
      true⟩ ∈ unknownEntries inventory policy impact := by
  rw [unknownEntries, if_pos h]
  exact mem_obliged_full hfull

/-- **Where the full suite is needed, a call asks for it.** -/
theorem exists_full_entry (hfloor : Floored policy) (hneeds : NeedsFullSuite inventory evidence) :
    ∃ e ∈ entries inventory policy (deriveChangeImpact inventory policy evidence) evidence,
      e.sel = inventory.fullSuiteSelector ∧ e.mandatory := by
  obtain ⟨hmigration, hclass⟩ := @le_riskLevel_impact inventory policy evidence
  set impact := deriveChangeImpact inventory policy evidence
  -- every reason but an unknown path makes the policy require it
  have hpolicy : fullSuiteRequired policy evidence impact = true → ∃ e ∈
      entries inventory policy impact evidence,
        e.sel = inventory.fullSuiteSelector ∧ e.mandatory = true := fun hrequired =>
    ⟨_, List.mem_append_right _ (mem_policyEntries hrequired), rfl, rfl⟩
  have hrisk : 2 ≤ impact.riskLevel.rank → fullSuiteRequired policy evidence impact = true := by
    intro hrank
    rcases high_or_critical hrank with hlevel | hlevel
    · exact hfloor.required (c := .riskHigh) (by decide) (by simp [fullSuiteChecks, hlevel])
    · exact hfloor.required (c := .riskCritical) (by decide) (by simp [fullSuiteChecks, hlevel])
  rcases hneeds with hclosing | hinfra | hunknown | ⟨sub, hsub, hchanges⟩ |
    ⟨sub, sub', hsub, hsub', hne, hchanges, hchanges'⟩ | hschema | hhigh | hcritical
  · exact hpolicy (hfloor.required (c := .phaseClosing) (by decide)
      (by simp [fullSuiteChecks, hclosing]))
  · have hseen := (@testInfrastructure_impact inventory policy evidence).mpr hinfra
    exact hpolicy (hfloor.required (c := .testInfrastructureChange) (by decide)
      (by simp [fullSuiteChecks, impact, hseen]))
  · have hseen := (@unknownPaths_impact inventory policy evidence).mpr hunknown
    exact ⟨_, List.mem_append_left _ (List.mem_append_left _ (List.mem_append_right _
      (mem_unknownEntries hseen hfloor.unknown))), rfl, rfl⟩
  · exact hpolicy (fullSuiteRequired_of_subsystem (mem_subsystems_impact.mpr hchanges)
      (hfloor.core sub hsub))
  · have hseen := @multipleSubsystems_impact inventory policy evidence sub sub' hsub hsub' hne
      hchanges hchanges'
    exact hpolicy (hfloor.required (c := .multipleSubsystems) (by decide)
      (by simp [fullSuiteChecks, impact, hseen]))
  · rw [hschema, if_pos rfl] at hmigration
    exact hpolicy (hrisk (by omega))
  · rw [hhigh] at hclass
    exact hpolicy (hrisk hclass)
  · rw [hcritical] at hclass
    exact hpolicy (hrisk (le_trans (by decide) hclass))

/-- `build_test_plan`, with or without a key; `none` where it raises. -/
def planFor {κ : Type} (inventory : TestInventory) (policy : TestPolicy) (sha256 : Json → String)
    (hmac : κ → Json → String) (evidence : ChangeEvidence) (key : Option κ) : Option TestPlan :=
  if evidence.changedPaths = [] then none
  else
    let impact := deriveChangeImpact inventory policy evidence
    let draft := draftPlan inventory policy sha256 evidence impact
    let hashed := { draft with planHash := draft.recomputeHash sha256 }
    some ((key.map fun k => { hashed with planMac := hashed.computeMac hmac k }).getD hashed)

theorem stages_planFor {κ : Type} {sha256 : Json → String} {hmac : κ → Json → String}
    {key : Option κ} {plan : TestPlan}
    (h : planFor inventory policy sha256 hmac evidence key = some plan) :
    plan.stages = canonicalStageOrder.filterMap
      ((entries inventory policy (deriveChangeImpact inventory policy evidence) evidence).foldl
        Collected.add {}).stage := by
  unfold planFor at h
  split at h
  · cases h
  · obtain rfl := Option.some.inj h
    cases key <;> simp only [Option.map_none, Option.map_some, Option.getD_none, Option.getD_some,
      draftPlan]

/-- **The full suite cannot be configured away.** -/
theorem full_suite_floor {κ : Type} {sha256 : Json → String} {hmac : κ → Json → String}
    {matchesFile : PyStr → Bool} {inventoryData policyData : List (PyStr × Json)} {key : Option κ}
    {plan : TestPlan}
    (hinventory : TestInventory.fromDict sha256 matchesFile inventoryData = some inventory)
    (hpolicy : TestPolicy.fromDict sha256 matchesFile policyData = some policy)
    (hneeds : NeedsFullSuite inventory evidence)
    (hplan : planFor inventory policy sha256 hmac evidence key = some plan) :
    plan.Demands (PyStr.ofString "tests/") ∧
      (∀ sub, Changes inventory evidence sub → sub ≠ .documentation →
        ∀ inv ∈ lookup policy.hardInvariants sub, ∀ sel ∈ inv.requiredRegression,
          plan.Demands sel.text) ∧
      ∀ mod ∈ (deriveChangeImpact inventory policy evidence).changedModules,
        ∀ inv ∈ policy.moduleInvariant mod, ∀ sel ∈ inv.requiredRegression,
          plan.Demands sel.text := by
  set impact := deriveChangeImpact inventory policy evidence
  have hstages := stages_planFor hplan
  have hdemands {e : Entry} (he : e ∈ entries inventory policy impact evidence)
      (hm : e.mandatory = true) : plan.Demands e.sel.text :=
    mem_demands wellformed_entries hstages he hm
  refine ⟨?_, fun sub hsub hdoc inv hinv sel hsel => ?_, fun mod hmod inv hinv sel hsel => ?_⟩
  · obtain ⟨e, he, hsel, hm⟩ := exists_full_entry (floored hpolicy) hneeds
    rw [← fullSuiteSelector_text hinventory, ← hsel]
    exact hdemands he hm
  · obtain ⟨e, he, rfl, hm⟩ :=
      (@exists_phase_required inventory policy impact sel sub).mpr ⟨inv, hinv, hsel⟩
    have htested : sub ∈ testedSubsystems impact :=
      List.mem_filter.mpr ⟨mem_subsystems_impact.mpr hsub, by simpa using hdoc⟩
    refine hdemands ?_ hm
    iterate 4 refine List.mem_append_left _ ?_
    exact List.mem_append_right _ (List.mem_flatMap.mpr ⟨sub, htested, he⟩)
  · have hmem : ∃ e ∈ obligedByModule inventory policy mod, e.sel = sel ∧ e.mandatory = true := by
      rw [obligedByModule, hinv]
      exact ⟨_, List.mem_append_left _ (List.mem_map_of_mem hsel), rfl, rfl⟩
    obtain ⟨e, he, rfl, hm⟩ := hmem
    refine hdemands ?_ hm
    iterate 3 refine List.mem_append_left _ ?_
    exact List.mem_append_right _ (List.mem_flatMap.mpr ⟨mod, hmod, he⟩)

theorem small_accepted : ∃ inventory policy,
    TestInventory.fromDict (fun _ => "sha256") (fun _ => true)
        (smallInventory ["tests/test_models.py"]) = some inventory ∧
      TestPolicy.fromDict (fun _ => "sha256") (fun _ => true) (smallPolicy false) = some policy ∧
      (inventory, policy) ∈ smallConfig ["tests/test_models.py"] false := by
  have hsome : (TestInventory.fromDict (fun _ => "sha256") (fun _ => true)
      (smallInventory ["tests/test_models.py"])).isSome = true ∧
        (TestPolicy.fromDict (fun _ => "sha256") (fun _ => true)
          (smallPolicy false)).isSome = true := by
    decide +kernel
  obtain ⟨hinventory, hpolicy⟩ := hsome
  obtain ⟨inventory, hinventory⟩ := Option.isSome_iff_exists.mp hinventory
  obtain ⟨policy, hpolicy⟩ := Option.isSome_iff_exists.mp hpolicy
  refine ⟨inventory, policy, hinventory, hpolicy, ?_⟩
  rw [smallConfig, hinventory, hpolicy]
  rfl

/-- A change that closes a phase, of the module of the small inventory. -/
theorem full_suite_floor_small :
    ∃ config ∈ smallConfig ["tests/test_models.py"] false,
      ∃ plan ∈ planFor config.1 config.2 (fun _ => "sha256") (fun _ _ => "hmac")
        (smallChange true) (none : Option Unit), plan.Demands (PyStr.ofString "tests/") := by
  obtain ⟨inventory, policy, hinventory, hpolicy, hconfig⟩ := small_accepted
  have hplan : ∃ plan, planFor inventory policy (fun _ => "sha256") (fun _ _ => "hmac")
      (smallChange true) (none : Option Unit) = some plan := ⟨_, if_neg (by decide)⟩
  obtain ⟨plan, hplan⟩ := hplan
  exact ⟨(inventory, policy), hconfig, plan, hplan,
    (full_suite_floor hinventory hpolicy (.inl rfl) hplan).1⟩

end Floor

/-! ### Documentation -/

instance (plan : TestPlan) (sel : PyStr) : Decidable (plan.Demands sel) :=
  inferInstanceAs (Decidable (∃ st ∈ plan.stages, sel ∈ st.selectors ∧ sel ∈ st.mandatory))

/-- An inventory in which a document belongs to the security. -/
def docsInventory : List (PyStr × Json) :=
  (smallInventory []).map fun f =>
    if f.1 = PyStr.ofString "module_ownership" then
      (f.1, .dict [("docs/security.md", .text "SECURITY")])
    else f

/-- A policy with an obligation of the documentation. -/
def docsPolicy : List (PyStr × Json) :=
  (smallPolicy false).map fun f =>
    if f.1 = PyStr.ofString "hard_invariants" then
      (f.1, .dict [("SECURITY", trustTests true), ("SUPERVISOR", trustTests true),
        ("PERSISTENCE", trustTests true), ("DOCUMENTATION", trustTests false)])
    else f

/-- A change of that document. -/
def docsChange (phaseClosing : Bool) : ChangeEvidence where
  changedPaths := [PyStr.ofString "docs/security.md"]
  phaseClosing := phaseClosing

/-- Both are accepted. The document counts for the documentation only, so that the full suite is
not demanded; and where it is, because a phase is closed, what the policy requires of the
documentation is not. -/
theorem documentation_first :
    ∃ inventory ∈ TestInventory.fromDict (fun _ => "sha256") (fun _ => true) docsInventory,
      ∃ policy ∈ TestPolicy.fromDict (fun _ => "sha256") (fun _ => true) docsPolicy,
        inventory.subsystemForPath (PyStr.ofString "docs/security.md") = some .security ∧
        (∃ plan ∈ planFor inventory policy (fun _ => "sha256") (fun _ _ => "hmac")
          (docsChange false) (none : Option Unit), ¬plan.Demands (PyStr.ofString "tests/")) ∧
        (deriveChangeImpact inventory policy (docsChange true)).subsystems = [.documentation] ∧
        (∃ inv ∈ lookup policy.hardInvariants .documentation, ∃ sel ∈ inv.requiredRegression,
          ∃ plan ∈ planFor inventory policy (fun _ => "sha256") (fun _ _ => "hmac")
            (docsChange true) (none : Option Unit), ¬plan.Demands sel.text) := by
  decide +kernel

end Planning

end ArgentTeam
