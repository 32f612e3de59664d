import ArgentTeam.Planning.Plan
import Mathlib.Data.List.Induction

/-!
# Which plans can be executed

What is collected is read off the calls of `add`: a selector is in the stage of the first call
that names it (`firstStage`), and mandatory if any call says so. The four stages that come of it
pass the executor as they are; what is left is the stage of the full suite and the flag
(`executable_iff_first`), and these two are read off the inventory, the policy and the change
(`executable_iff`).
-/

namespace ArgentTeam

namespace Planning

/-- A plan has no stages or can be executed, and its flag says whether the full suite is
mandatory. -/
def Executable {κ : Type} (sha256 : Json → String) (hmac : κ → Json → String)
    (inventory : TestInventory) (plan : TestPlan) (key : κ) : Prop :=
  (plan.stages = [] ∨ validatePlan sha256 hmac plan key = true) ∧
    (plan.fullSuiteRequired = true ↔
      inventory.fullSuiteSelector.text ∈ plan.mandatorySelectors)

/-! ### What is collected -/

/-- The stage of the first call that names a selector. -/
def firstStage (es : List Entry) (sel : Selector) : Option String :=
  (es.find? fun e => e.sel = sel).map Entry.stage

variable {sel : Selector} {ob : HardInvariant} {fullReason : PyStr} {s : PyStr} {e : Entry}

theorem firstStage_append {es fs : List Entry} :
    firstStage (es ++ fs) sel = (firstStage es sel).or (firstStage fs sel) := by
  rw [firstStage, List.find?_append, firstStage, firstStage]
  cases es.find? fun e => e.sel = sel <;> rfl

theorem firstStage_eq_none {es : List Entry} :
    firstStage es sel = none ↔ ∀ e ∈ es, e.sel ≠ sel := by
  simp [firstStage]

theorem firstStage_mem {es : List Entry} {st : String}
    (h : firstStage es sel = some st) : ∃ e ∈ es, e.sel = sel ∧ e.stage = st := by
  obtain ⟨e, he, rfl⟩ := Option.map_eq_some_iff.mp h
  exact ⟨e, List.mem_of_find?_eq_some he, by simpa using List.find?_some he, rfl⟩

/-- What has been written after some calls of `add`. -/
structure Gathered (es : List Entry) (b : Collected) : Prop where
  stage : ∀ sel st, (sel, st) ∈ b.stageOfSel ↔ firstStage es sel = some st
  mandatory : ∀ sel, sel ∈ b.mandatorySels ↔ ∃ e ∈ es, e.sel = sel ∧ e.mandatory = true

theorem isSome_lookup {α κ : Type} [DecidableEq κ] {fields : List (κ × α)} {key : κ} :
    (lookup fields key).isSome ↔ ∃ a, (key, a) ∈ fields := by
  rw [lookup, Option.isSome_map, List.find?_isSome]
  constructor
  · rintro ⟨⟨k, a⟩, hmem, hk⟩
    have hk' : k = key := by simpa using hk
    exact ⟨a, hk' ▸ hmem⟩
  · rintro ⟨a, hmem⟩
    exact ⟨(key, a), hmem, by simp⟩

theorem Gathered.isSome_lookup {es : List Entry} {b : Collected} (h : Gathered es b)
    : (lookup b.stageOfSel sel).isSome = (firstStage es sel).isSome := by
  rw [Bool.eq_iff_iff, Planning.isSome_lookup, Option.isSome_iff_exists]
  exact exists_congr fun st => h.stage sel st

theorem Gathered.add {es : List Entry} {b : Collected} (h : Gathered es b) (e : Entry) :
    Gathered (es ++ [e]) (b.add e) := by
  constructor
  · intro sel st
    have hone : firstStage [e] sel = if e.sel = sel then some e.stage else none := by
      by_cases hsel : e.sel = sel <;> simp [firstStage, hsel]
    rw [firstStage_append, hone]
    simp only [Collected.add, h.isSome_lookup]
    split
    next hold =>
      rw [h.stage]
      by_cases hsel : e.sel = sel
      · rw [hsel] at hold
        obtain ⟨st', hst'⟩ := Option.isSome_iff_exists.mp hold
        simp [hst']
      · simp [hsel]
    next hnew =>
      rw [List.mem_append, h.stage, List.mem_singleton, Prod.mk.injEq]
      by_cases hsel : e.sel = sel
      · rw [hsel, Option.not_isSome_iff_eq_none] at hnew
        simp [hsel, hnew, eq_comm]
      · simp [hsel, Ne.symm hsel]
  · intro sel
    have hmem : sel ∈ (b.add e).mandatorySels ↔
        sel ∈ b.mandatorySels ∨ e.sel = sel ∧ e.mandatory = true := by
      simp only [Collected.add]
      split
      next hadd => rw [List.mem_append, List.mem_singleton, eq_comm]; simp [hadd.1]
      next hkeep =>
        refine (or_iff_left_of_imp ?_).symm
        rintro ⟨rfl, hm⟩
        by_contra hnot
        exact hkeep ⟨hm, hnot⟩
    rw [hmem, h.mandatory]
    constructor
    · rintro (⟨e', he', hsel⟩ | hsel)
      · exact ⟨e', List.mem_append_left _ he', hsel⟩
      · exact ⟨e, by simp, hsel⟩
    · rintro ⟨e', he', hsel⟩
      rcases List.mem_append.mp he' with he' | he'
      · exact .inl ⟨e', he', hsel⟩
      · rw [List.mem_singleton.mp he'] at hsel
        exact .inr hsel

theorem gathered (es : List Entry) : Gathered es (es.foldl Collected.add {}) := by
  induction es using List.reverseRecOn with
  | nil => exact ⟨fun sel st => by simp [firstStage], fun sel => by simp⟩
  | append_singleton es e ih =>
    rw [List.foldl_append]
    exact ih.add e

theorem Selector.text_inj {a b : Selector} : a.text = b.text ↔ a = b := by
  cases a
  cases b
  simp

/-! ### The stages of a plan -/

theorem mem_sorted {xs : List PyStr} : s ∈ sorted xs ↔ s ∈ xs :=
  List.mem_insertionSort _

section Stages

variable {es : List Entry} {b : Collected} {name : String} {st : PlanStage}

/-- A text is in a stage if its selector was named for it first. -/
theorem mem_stageSelectors (h : Gathered es b) :
    s ∈ sorted ((b.stageOfSel.filter fun e => e.2 = name).map fun e => e.1.text) ↔
      ∃ sel, sel.text = s ∧ firstStage es sel = some name := by
  rw [mem_sorted, List.mem_map]
  constructor
  · rintro ⟨⟨sel, name'⟩, hmem, rfl⟩
    obtain ⟨hmem, hname⟩ := List.mem_filter.mp hmem
    have hname' : name' = name := by simpa using hname
    exact ⟨sel, rfl, (h.stage sel name).mp (hname' ▸ hmem)⟩
  · rintro ⟨sel, rfl, hfirst⟩
    exact ⟨(sel, name), List.mem_filter.mpr ⟨(h.stage sel name).mpr hfirst, by simp⟩, rfl⟩

theorem stage_eq_some (h : Gathered es b) (hst : b.stage name = some st) :
    st.name = name ∧ st.selectors ≠ [] ∧
      (∀ s, s ∈ st.selectors ↔ ∃ sel, sel.text = s ∧ firstStage es sel = some name) ∧
      ∀ s, s ∈ st.mandatory ↔
        s ∈ st.selectors ∧ ∃ e ∈ es, e.sel.text = s ∧ e.mandatory := by
  simp only [Collected.stage, Option.ite_none_left_eq_some, Option.some.injEq] at hst
  obtain ⟨hne, rfl⟩ := hst
  refine ⟨rfl, hne, fun s => mem_stageSelectors h, fun s => ?_⟩
  rw [mem_sorted, List.mem_filter, decide_eq_true_eq, and_comm, List.mem_map]
  refine and_congr_right fun _ => ?_
  constructor
  · rintro ⟨sel, hsel, rfl⟩
    obtain ⟨e, he, rfl, hm⟩ := (h.mandatory sel).mp hsel
    exact ⟨e, he, rfl, hm⟩
  · rintro ⟨e, he, rfl, hm⟩
    exact ⟨e.sel, (h.mandatory e.sel).mpr ⟨e, he, rfl, hm⟩, rfl⟩

/-- There is a stage if a selector was named for it first. -/
theorem stage_isSome (h : Gathered es b) :
    (b.stage name).isSome ↔ ∃ sel, firstStage es sel = some name := by
  have hmem : ∀ s, s ∈ sorted ((b.stageOfSel.filter fun e => e.2 = name).map fun e => e.1.text) ↔
      ∃ sel, sel.text = s ∧ firstStage es sel = some name := fun s => mem_stageSelectors h
  rw [Option.isSome_iff_ne_none, Ne, Collected.stage, ite_eq_left_iff]
  constructor
  · intro hsome
    obtain ⟨s, hs⟩ := List.exists_mem_of_ne_nil _ (fun hnil => hsome (fun hne => absurd hnil hne))
    obtain ⟨sel, -, hfirst⟩ := (hmem s).mp hs
    exact ⟨sel, hfirst⟩
  · rintro ⟨sel, hfirst⟩ hnone
    have hs := (hmem sel.text).mpr ⟨sel, rfl, hfirst⟩
    exact absurd (hnone (List.ne_nil_of_mem hs)) (by simp)

theorem stages_names (h : Gathered es b) (names : List String) :
    (names.filterMap b.stage).map PlanStage.name =
      names.filter fun name => (b.stage name).isSome := by
  induction names with
  | nil => rfl
  | cons name names ih =>
    cases hst : b.stage name with
    | none => simp [hst, ih]
    | some st => simp [hst, ih, (stage_eq_some h hst).1]

theorem inOrder_filter (p : String → Bool) :
    (canonicalStageOrder.filter p).dedup.length = (canonicalStageOrder.filter p).length ∧
      inOrder (-1) (canonicalStageOrder.filter p) := by
  simp only [canonicalStageOrder, List.filter]
  cases p "targeted" <;> cases p "module" <;> cases p "phase_regression" <;>
    cases p "full_suite" <;> decide

end Stages

/-! ### The plan and the calls of `add` -/

section Plan

variable {κ : Type} (sha256 : Json → String) (hmac : κ → Json → String) (key : κ)
  {inventory : TestInventory} {policy : TestPolicy} {evidence : ChangeEvidence} {plan : TestPlan}

/-- What holds of every list of calls for a plan: each is for one of the four stages, and the last
stage is for the selector of the full suite. -/
structure Wellformed (full : Selector) (es : List Entry) : Prop where
  stage : ∀ e ∈ es, e.stage ∈ canonicalStageOrder
  full : ∀ e ∈ es, e.stage = "full_suite" → e.sel = full

variable {full : Selector} {es : List Entry}

/-- The executor lets the stages pass that come of some calls, unless the flag asks for the last one
and it is missing. -/
theorem validatePlan_iff (hw : Wellformed full es)
    (hstages : plan.stages = canonicalStageOrder.filterMap (es.foldl Collected.add {}).stage)
    (hhash : plan.planHash = plan.recomputeHash sha256)
    (hmacs : plan.planMac = plan.computeMac hmac key) :
    validatePlan sha256 hmac plan key ↔
      (plan.fullSuiteRequired → firstStage es full = some "full_suite") := by
  have hgather := gathered es
  have hnames := stages_names hgather canonicalStageOrder
  obtain ⟨hdedup, horder⟩ :=
    inOrder_filter fun name => ((es.foldl Collected.add {}).stage name).isSome
  have hheld : ∀ st ∈ plan.stages, (st.selectors ≠ [] && (st.selectors.all fun sel => sel ≠ []) &&
      st.mandatory.all fun m => m ∈ st.selectors) = true := by
    intro st hst
    rw [hstages] at hst
    obtain ⟨name, -, hst⟩ := List.mem_filterMap.mp hst
    obtain ⟨-, hne, hsel, hmand⟩ := stage_eq_some hgather hst
    simp only [Bool.and_eq_true, decide_eq_true_eq, List.all_eq_true]
    refine ⟨⟨hne, fun s hs => ?_⟩, fun m hm => ((hmand m).mp hm).1⟩
    obtain ⟨sel, rfl, -⟩ := (hsel s).mp hs
    exact sel.nonempty
  have hlast : "full_suite" ∈ plan.stages.map PlanStage.name ↔
      firstStage es full = some "full_suite" := by
    rw [hstages, hnames, List.mem_filter, stage_isSome hgather]
    constructor
    · rintro ⟨-, sel, hfirst⟩
      obtain ⟨e, he, rfl, hst⟩ := firstStage_mem hfirst
      rwa [hw.full e he hst] at hfirst
    · intro hfirst
      exact ⟨by decide, full, hfirst⟩
  rw [← hstages] at hnames
  rw [← hnames] at hdedup horder
  simp only [validatePlan, Bool.and_eq_true, decide_eq_true_eq, Bool.or_eq_true,
    Bool.not_eq_true']
  constructor
  · rintro ⟨-, hflag⟩ hrequired
    rw [hrequired] at hflag
    exact hlast.mp (hflag.resolve_left (by decide))
  · intro hflag
    refine ⟨⟨⟨⟨⟨hhash, hmacs⟩, hdedup⟩, horder⟩, List.all_eq_true.mpr hheld⟩, ?_⟩
    cases hrequired : plan.fullSuiteRequired with
    | false => exact .inl rfl
    | true => exact .inr (hlast.mpr (hflag hrequired))

/-- What a call names is in a stage of the plan, and mandatory there if the call says so. -/
theorem exists_stage (hw : Wellformed full es)
    (hstages : plan.stages = canonicalStageOrder.filterMap (es.foldl Collected.add {}).stage)
    (he : e ∈ es) :
    ∃ st ∈ plan.stages, e.sel.text ∈ st.selectors ∧
      (e.mandatory → e.sel.text ∈ st.mandatory) := by
  have hgather := gathered es
  -- a selector that a call names is in the stage of the first one
  cases hfirst : firstStage es e.sel with
  | none => exact absurd rfl (firstStage_eq_none.mp hfirst e he)
  | some name =>
    obtain ⟨e', he', -, rfl⟩ := firstStage_mem hfirst
    obtain ⟨st, hst⟩ := Option.isSome_iff_exists.mp ((stage_isSome hgather).mpr ⟨e.sel, hfirst⟩)
    obtain ⟨-, -, hsel, hmand⟩ := stage_eq_some hgather hst
    have hheld : e.sel.text ∈ st.selectors := (hsel _).mpr ⟨e.sel, rfl, hfirst⟩
    refine ⟨st, ?_, hheld, fun hm => (hmand _).mpr ⟨hheld, e, he, rfl, hm⟩⟩
    rw [hstages]
    exact List.mem_filterMap.mpr ⟨e'.stage, hw.stage e' he', hst⟩

theorem mem_mandatorySelectors (hw : Wellformed full es)
    (hstages : plan.stages = canonicalStageOrder.filterMap (es.foldl Collected.add {}).stage)
    :
    s ∈ plan.mandatorySelectors ↔ ∃ e ∈ es, e.sel.text = s ∧ e.mandatory := by
  rw [TestPlan.mandatorySelectors, List.mem_flatMap]
  constructor
  · rintro ⟨st, hst, hm⟩
    rw [hstages] at hst
    obtain ⟨name, -, hst⟩ := List.mem_filterMap.mp hst
    obtain ⟨-, -, -, hmand⟩ := stage_eq_some (gathered es) hst
    exact ((hmand s).mp hm).2
  · rintro ⟨e, he, rfl, hmandatory⟩
    obtain ⟨st, hst, -, hm⟩ := exists_stage hw hstages he
    exact ⟨st, hst, hm hmandatory⟩

end Plan

section Entries

variable {inventory : TestInventory} {policy : TestPolicy} {impact : ChangeImpact}
  {evidence : ChangeEvidence} {full : Selector}

theorem Wellformed.append {es fs : List Entry} (hes : Wellformed full es)
    (hfs : Wellformed full fs) : Wellformed full (es ++ fs) :=
  ⟨fun e he => (List.mem_append.mp he).elim (hes.stage e) (hfs.stage e),
    fun e he => (List.mem_append.mp he).elim (hes.full e) (hfs.full e)⟩

theorem Wellformed.nil : Wellformed full [] :=
  ⟨fun _ he => absurd he List.not_mem_nil, fun _ he => absurd he List.not_mem_nil⟩

theorem Wellformed.flatMap {α : Type} {xs : List α} {f : α → List Entry}
    (h : ∀ x, Wellformed full (f x)) : Wellformed full (xs.flatMap f) := by
  induction xs with
  | nil => exact .nil
  | cons x xs ih =>
    rw [List.flatMap_cons]
    exact (h x).append ih

variable {reason : Selector → PyStr}

theorem Wellformed.map {sels : List Selector} {stage : String}
    {mandatory : Bool} (hst : stage ∈ canonicalStageOrder)
    (hne : stage ≠ "full_suite") :
    Wellformed full (sels.map fun sel => ⟨stage, sel, reason sel, mandatory⟩) := by
  constructor <;> intro e he <;> obtain ⟨sel, -, rfl⟩ := List.mem_map.mp he
  · exact hst
  · exact fun h => absurd h hne

theorem wellformed_full {reason : PyStr} :
    Wellformed full [⟨"full_suite", full, reason, true⟩] := by
  constructor <;> intro e he <;> rw [List.mem_singleton.mp he]
  · exact List.mem_of_getLast? rfl
  · exact fun _ => rfl

theorem wellformed_obliged :
    Wellformed inventory.fullSuiteSelector (obliged inventory ob reason fullReason) := by
  refine (Wellformed.map (by decide) (by decide)).append ?_
  split
  · exact wellformed_full
  · exact .nil

theorem wellformed_entries :
    Wellformed inventory.fullSuiteSelector (entries inventory policy impact evidence) := by
  refine ((((((?_ : Wellformed _ _).append ?_).append ?_).append ?_).append ?_).append ?_).append ?_
  · exact .flatMap fun mod => .map (by decide) (by decide)
  · exact .flatMap fun sub => .map (by decide) (by decide)
  · refine .flatMap fun sub => ?_
    refine .append ?_ (.map (by decide) (by decide))
    split
    · exact .map (by decide) (by decide)
    · exact .nil
  · refine .flatMap fun mod => ?_
    unfold obligedByModule
    split
    · exact .nil
    · exact wellformed_obliged
  · unfold unknownEntries
    split
    · exact wellformed_obliged
    · exact .nil
  · unfold testInfraEntries
    split
    · exact wellformed_obliged
    · exact .nil
  · unfold policyEntries
    split
    · exact wellformed_full
    · exact .nil

end Entries

/-! ### Where the full suite is asked for -/

section Fits

variable (inventory : TestInventory) (policy : TestPolicy) (impact : ChangeImpact)

/-- The obligations of the changed modules, of unknown paths and of the test infrastructure, in the
order in which they are collected. -/
def obligations : List HardInvariant :=
  impact.changedModules.filterMap policy.moduleInvariant ++
    ((if impact.unknownPaths ≠ [] then [policy.unknownHandling.toHardInvariant] else []) ++
      if impact.testInfrastructure then [policy.testInfraHandling.toHardInvariant] else [])

/-- Up to the first obligation that asks for the full suite, none has its selector among the
regressions it requires. -/
def FullSuiteFirst (full : Selector) : List HardInvariant → Prop
  | [] => True
  | ob :: obs => full ∉ ob.requiredRegression ∧ (ob.fullSuite = true ∨ FullSuiteFirst full obs)

/-- A subsystem has the selector among the regressions it requires. -/
def RequiredBySubsystem (full : Selector) : Prop :=
  ∃ sub ∈ testedSubsystems impact, ∃ inv ∈ lookup policy.hardInvariants sub,
    full ∈ inv.requiredRegression

/-- The selector is among the tests of a changed module, of a subsystem or of its phase, or among
the regressions that a subsystem requires. -/
def CollectedEarlier (full : Selector) : Prop :=
  (∃ mod ∈ impact.changedModules, full ∈ inventory.targetedFor mod) ∨
    (∃ sub ∈ testedSubsystems impact, full ∈ inventory.moduleSelectors sub) ∨
    (∃ sub ∈ testedSubsystems impact,
      (impact.riskLevel ≠ .low ∨ (lookup policy.hardInvariants sub).isSome = true) ∧
        full ∈ inventory.phaseSelectors sub) ∨
    RequiredBySubsystem policy impact full

/-- Where the policy requires the full suite, its selector is not collected for an earlier stage;
where it does not, nothing else asks for it. -/
def FullSuiteFits (evidence : ChangeEvidence) : Prop :=
  let impact := deriveChangeImpact inventory policy evidence
  let full := inventory.fullSuiteSelector
  if fullSuiteRequired policy evidence impact then
    ¬CollectedEarlier inventory policy impact full ∧ FullSuiteFirst full (obligations policy impact)
  else
    ¬RequiredBySubsystem policy impact full ∧
      ∀ ob ∈ obligations policy impact, ob.fullSuite = false ∧ full ∉ ob.requiredRegression

instance decidableFullSuiteFirst (full : Selector) :
    (obs : List HardInvariant) → Decidable (FullSuiteFirst full obs)
  | [] => isTrue trivial
  | ob :: obs =>
    have := decidableFullSuiteFirst full obs
    inferInstanceAs (Decidable (full ∉ ob.requiredRegression ∧
      (ob.fullSuite = true ∨ FullSuiteFirst full obs)))

instance (full : Selector) : Decidable (RequiredBySubsystem policy impact full) :=
  inferInstanceAs (Decidable (∃ sub ∈ testedSubsystems impact,
    ∃ inv ∈ lookup policy.hardInvariants sub, full ∈ inv.requiredRegression))

instance (full : Selector) : Decidable (CollectedEarlier inventory policy impact full) :=
  inferInstanceAs (Decidable ((∃ mod ∈ impact.changedModules, full ∈ inventory.targetedFor mod) ∨
    (∃ sub ∈ testedSubsystems impact, full ∈ inventory.moduleSelectors sub) ∨
    (∃ sub ∈ testedSubsystems impact,
      (impact.riskLevel ≠ .low ∨ (lookup policy.hardInvariants sub).isSome = true) ∧
        full ∈ inventory.phaseSelectors sub) ∨
    RequiredBySubsystem policy impact full))

instance (evidence : ChangeEvidence) : Decidable (FullSuiteFits inventory policy evidence) := by
  unfold FullSuiteFits
  infer_instance

variable {inventory policy impact} {full : Selector} {es : List Entry} {obs : List HardInvariant}
  {sub : Subsystem}

theorem stage_phaseEntriesOf
    (he : e ∈ phaseEntriesOf inventory policy impact sub) : e.stage = "phase_regression" := by
  rcases List.mem_append.mp he with he | he
  · split at he
    · obtain ⟨sel, -, rfl⟩ := List.mem_map.mp he
      rfl
    · exact absurd he List.not_mem_nil
  · obtain ⟨sel, -, rfl⟩ := List.mem_map.mp he
    rfl

theorem exists_mem_flatMap {α : Type} {xs : List α} {f : α → List Entry} {P : Entry → Prop} :
    (∃ e ∈ xs.flatMap f, P e) ↔ ∃ x ∈ xs, ∃ e ∈ f x, P e := by
  constructor
  · rintro ⟨e, he, hP⟩
    obtain ⟨x, hx, he⟩ := List.mem_flatMap.mp he
    exact ⟨x, hx, e, he, hP⟩
  · rintro ⟨x, hx, e, he, hP⟩
    exact ⟨e, List.mem_flatMap.mpr ⟨x, hx, he⟩, hP⟩

theorem exists_phase_tests :
    (∃ e ∈ phaseEntriesOf inventory policy impact sub, e.sel = full ∧ e.mandatory = false) ↔
      (impact.riskLevel ≠ .low ∨ (lookup policy.hardInvariants sub).isSome) ∧
        full ∈ inventory.phaseSelectors sub := by
  cases hinv : lookup policy.hardInvariants sub with
  | none => by_cases hrisk : impact.riskLevel = .low <;> simp [phaseEntriesOf, hinv, hrisk]
  | some inv => simp [phaseEntriesOf, hinv, or_and_right, exists_or]

theorem exists_phase_required :
    (∃ e ∈ phaseEntriesOf inventory policy impact sub, e.sel = full ∧ e.mandatory) ↔
      ∃ inv ∈ lookup policy.hardInvariants sub, full ∈ inv.requiredRegression := by
  cases hinv : lookup policy.hardInvariants sub with
  | none => by_cases hrisk : impact.riskLevel = .low <;> simp [phaseEntriesOf, hinv, hrisk]
  | some inv => simp [phaseEntriesOf, hinv, or_and_right, exists_or]

/-- What the calls for the earlier stages name. -/
theorem exists_sel_early :
    (∃ e ∈ targetedEntries inventory impact ++ (moduleEntries inventory impact ++
      phaseEntries inventory policy impact), e.sel = full) ↔
      CollectedEarlier inventory policy impact full := by
  have htargeted : (∃ e ∈ targetedEntries inventory impact, e.sel = full) ↔
      ∃ mod ∈ impact.changedModules, full ∈ inventory.targetedFor mod := by
    simp [targetedEntries]
  have hmodule : (∃ e ∈ moduleEntries inventory impact, e.sel = full) ↔
      ∃ sub ∈ testedSubsystems impact, full ∈ inventory.moduleSelectors sub := by
    simp [moduleEntries]
  have hphase : (∃ e ∈ phaseEntries inventory policy impact, e.sel = full) ↔
      (∃ sub ∈ testedSubsystems impact,
        (impact.riskLevel ≠ .low ∨ (lookup policy.hardInvariants sub).isSome = true) ∧
          full ∈ inventory.phaseSelectors sub) ∨ RequiredBySubsystem policy impact full := by
    have hsub : ∀ sub, (∃ e ∈ phaseEntriesOf inventory policy impact sub, e.sel = full) ↔
        ((impact.riskLevel ≠ .low ∨ (lookup policy.hardInvariants sub).isSome = true) ∧
          full ∈ inventory.phaseSelectors sub) ∨
        ∃ inv ∈ lookup policy.hardInvariants sub, full ∈ inv.requiredRegression := by
      intro sub
      have htests := @exists_phase_tests inventory policy impact full sub
      have hrequired := @exists_phase_required inventory policy impact full sub
      rw [← htests, ← hrequired, ← exists_or]
      refine exists_congr fun e => ?_
      cases e.mandatory <;> simp
    simp only [phaseEntries, exists_mem_flatMap, hsub, and_or_left, exists_or, RequiredBySubsystem]
  simp only [List.mem_append, or_and_right, exists_or, htargeted, hmodule, hphase, CollectedEarlier]

theorem stage_early
    (he : e ∈ targetedEntries inventory impact ++ (moduleEntries inventory impact ++
      phaseEntries inventory policy impact)) : e.stage ≠ "full_suite" := by
  have hearlier : e.stage = "targeted" ∨ e.stage = "module" ∨ e.stage = "phase_regression" := by
    rcases List.mem_append.mp he with he | he
    · obtain ⟨mod, -, he⟩ := List.mem_flatMap.mp he
      obtain ⟨sel, -, rfl⟩ := List.mem_map.mp he
      exact .inl rfl
    · rcases List.mem_append.mp he with he | he
      · obtain ⟨sub, -, he⟩ := List.mem_flatMap.mp he
        obtain ⟨sel, -, rfl⟩ := List.mem_map.mp he
        exact .inr (.inl rfl)
      · obtain ⟨sub, -, he⟩ := List.mem_flatMap.mp he
        exact .inr (.inr (stage_phaseEntriesOf he))
  rcases hearlier with h | h | h <;> rw [h] <;> decide

/-- What is collected for an earlier stage never reaches the last one. -/
theorem firstStage_early :
    firstStage (targetedEntries inventory impact ++ (moduleEntries inventory impact ++
      phaseEntries inventory policy impact) ++ es) full = some "full_suite" ↔
      ¬CollectedEarlier inventory policy impact full ∧ firstStage es full = some "full_suite" := by
  rw [← exists_sel_early, firstStage_append]
  cases hfirst : firstStage (targetedEntries inventory impact ++ (moduleEntries inventory impact ++
      phaseEntries inventory policy impact)) full with
  | none =>
    have hnone := firstStage_eq_none.mp hfirst
    simpa using fun _ e he => hnone e he
  | some st =>
    obtain ⟨e, he, hsel, rfl⟩ := firstStage_mem hfirst
    refine iff_of_false (fun h => stage_early he (by simpa using h)) fun h => h.1 ⟨e, he, hsel⟩

/-- An obligation before others. -/
theorem firstStage_obliged
    (h : firstStage es inventory.fullSuiteSelector = some "full_suite" ↔
      FullSuiteFirst inventory.fullSuiteSelector obs) :
    firstStage (obliged inventory ob reason fullReason ++ es) inventory.fullSuiteSelector =
        some "full_suite" ↔
      FullSuiteFirst inventory.fullSuiteSelector (ob :: obs) := by
  have hregressions : firstStage (ob.requiredRegression.map fun sel =>
      (⟨"phase_regression", sel, reason sel, true⟩ : Entry)) inventory.fullSuiteSelector =
        if inventory.fullSuiteSelector ∈ ob.requiredRegression then some "phase_regression"
        else none := by
    split
    next hmem =>
      cases hfirst : firstStage (ob.requiredRegression.map fun sel =>
          (⟨"phase_regression", sel, reason sel, true⟩ : Entry)) inventory.fullSuiteSelector with
      | none =>
        have hne := firstStage_eq_none.mp hfirst _ (List.mem_map_of_mem hmem)
        exact absurd rfl hne
      | some st =>
        obtain ⟨e, he, -, rfl⟩ := firstStage_mem hfirst
        obtain ⟨sel, -, rfl⟩ := List.mem_map.mp he
        rfl
    next hmem =>
      refine firstStage_eq_none.mpr fun e he hsel => ?_
      obtain ⟨sel, hsel', rfl⟩ := List.mem_map.mp he
      have hsame : sel = inventory.fullSuiteSelector := hsel
      exact hmem (hsame ▸ hsel')
  rw [obliged, List.append_assoc, firstStage_append, hregressions, FullSuiteFirst]
  by_cases hmem : inventory.fullSuiteSelector ∈ ob.requiredRegression
  · simp [hmem]
  · cases hfull : ob.fullSuite with
    | true => simp [hmem, firstStage]
    | false => simpa [hmem] using h

theorem firstStage_modules (mods : List PyStr)
    (h : firstStage es inventory.fullSuiteSelector = some "full_suite" ↔
      FullSuiteFirst inventory.fullSuiteSelector obs) :
    firstStage (mods.flatMap (obligedByModule inventory policy) ++ es)
        inventory.fullSuiteSelector = some "full_suite" ↔
      FullSuiteFirst inventory.fullSuiteSelector
        (mods.filterMap policy.moduleInvariant ++ obs) := by
  induction mods with
  | nil => exact h
  | cons mod mods ih =>
    rw [List.flatMap_cons, List.append_assoc, List.filterMap_cons, obligedByModule]
    cases policy.moduleInvariant mod with
    | none => exact ih
    | some mhi => exact firstStage_obliged ih

/-- Where the policy requires the full suite, its selector comes to the last stage exactly if
nothing has collected it before. -/
theorem firstStage_entries {evidence : ChangeEvidence}
    (hflag : fullSuiteRequired policy evidence impact) :
    firstStage (entries inventory policy impact evidence) inventory.fullSuiteSelector =
        some "full_suite" ↔
      ¬CollectedEarlier inventory policy impact inventory.fullSuiteSelector ∧
        FullSuiteFirst inventory.fullSuiteSelector (obligations policy impact) := by
  have hpolicy : firstStage (policyEntries inventory policy impact evidence)
      inventory.fullSuiteSelector = some "full_suite" ↔
        FullSuiteFirst inventory.fullSuiteSelector [] := by
    simp [policyEntries, hflag, firstStage, FullSuiteFirst]
  have hinfra : firstStage (testInfraEntries inventory policy impact ++
      policyEntries inventory policy impact evidence) inventory.fullSuiteSelector =
        some "full_suite" ↔ FullSuiteFirst inventory.fullSuiteSelector
          (if impact.testInfrastructure then [policy.testInfraHandling.toHardInvariant]
          else []) := by
    unfold testInfraEntries
    split
    · exact firstStage_obliged hpolicy
    · exact hpolicy
  have hunknown : firstStage (unknownEntries inventory policy impact ++
      (testInfraEntries inventory policy impact ++ policyEntries inventory policy impact evidence))
      inventory.fullSuiteSelector = some "full_suite" ↔
        FullSuiteFirst inventory.fullSuiteSelector
          ((if impact.unknownPaths ≠ [] then [policy.unknownHandling.toHardInvariant] else []) ++
            if impact.testInfrastructure then [policy.testInfraHandling.toHardInvariant]
            else []) := by
    unfold unknownEntries
    split
    · exact firstStage_obliged hinfra
    · exact hinfra
  have hmodules : firstStage (impact.changedModules.flatMap (obligedByModule inventory policy) ++ _)
      _ = _ ↔ FullSuiteFirst _ (impact.changedModules.filterMap policy.moduleInvariant ++ _) :=
    firstStage_modules impact.changedModules hunknown
  rw [obligations, ← hmodules, ← firstStage_early]
  simp only [entries, moduleInvariantEntries, List.append_assoc]

theorem exists_mandatory_obliged
    :
    (∃ e ∈ obliged inventory ob reason fullReason,
      e.sel = inventory.fullSuiteSelector ∧ e.mandatory) ↔
      ob.fullSuite ∨ inventory.fullSuiteSelector ∈ ob.requiredRegression := by
  cases hfull : ob.fullSuite <;> simp [obliged, hfull, or_and_right, exists_or]

/-- Where the policy does not require the full suite, it is mandatory exactly if a subsystem or an
obligation asks for it. -/
theorem exists_mandatory_entries {evidence : ChangeEvidence}
    (hflag : fullSuiteRequired policy evidence impact = false) :
    (∃ e ∈ entries inventory policy impact evidence,
      e.sel = inventory.fullSuiteSelector ∧ e.mandatory) ↔
      RequiredBySubsystem policy impact inventory.fullSuiteSelector ∨
        ∃ ob ∈ obligations policy impact,
          ob.fullSuite ∨ inventory.fullSuiteSelector ∈ ob.requiredRegression := by
  have htargeted : ¬∃ e ∈ targetedEntries inventory impact,
      e.sel = inventory.fullSuiteSelector ∧ e.mandatory = true := by
    simp [targetedEntries]
  have hmodule : ¬∃ e ∈ moduleEntries inventory impact,
      e.sel = inventory.fullSuiteSelector ∧ e.mandatory = true := by
    simp [moduleEntries]
  have hmodules : (∃ e ∈ moduleInvariantEntries inventory policy impact,
      e.sel = inventory.fullSuiteSelector ∧ e.mandatory = true) ↔
        ∃ ob ∈ impact.changedModules.filterMap policy.moduleInvariant,
          ob.fullSuite = true ∨ inventory.fullSuiteSelector ∈ ob.requiredRegression := by
    rw [moduleInvariantEntries, exists_mem_flatMap]
    constructor
    · rintro ⟨mod, hmod, h⟩
      unfold obligedByModule at h
      split at h
      · obtain ⟨e, he, -⟩ := h
        exact absurd he List.not_mem_nil
      next mhi hsome =>
        exact ⟨mhi, List.mem_filterMap.mpr ⟨mod, hmod, hsome⟩, (exists_mandatory_obliged).mp h⟩
    · rintro ⟨ob, hob, h⟩
      obtain ⟨mod, hmod, hsome⟩ := List.mem_filterMap.mp hob
      refine ⟨mod, hmod, ?_⟩
      rw [obligedByModule, hsome]
      exact (exists_mandatory_obliged).mpr h
  have hunknown : (∃ e ∈ unknownEntries inventory policy impact,
      e.sel = inventory.fullSuiteSelector ∧ e.mandatory = true) ↔
        ∃ ob ∈ if impact.unknownPaths ≠ [] then [policy.unknownHandling.toHardInvariant] else [],
          ob.fullSuite = true ∨ inventory.fullSuiteSelector ∈ ob.requiredRegression := by
    unfold unknownEntries
    split
    · rw [exists_mandatory_obliged]
      simp
    · simp
  have hinfra : (∃ e ∈ testInfraEntries inventory policy impact,
      e.sel = inventory.fullSuiteSelector ∧ e.mandatory = true) ↔
        ∃ ob ∈ if impact.testInfrastructure then [policy.testInfraHandling.toHardInvariant] else [],
          ob.fullSuite = true ∨ inventory.fullSuiteSelector ∈ ob.requiredRegression := by
    unfold testInfraEntries
    split
    · rw [exists_mandatory_obliged]
      simp
    · simp
  have hphase : (∃ e ∈ phaseEntries inventory policy impact,
      e.sel = inventory.fullSuiteSelector ∧ e.mandatory = true) ↔
        RequiredBySubsystem policy impact inventory.fullSuiteSelector := by
    simp only [phaseEntries, exists_mem_flatMap, exists_phase_required, RequiredBySubsystem]
  have hpolicy : policyEntries inventory policy impact evidence = [] := by
    simp [policyEntries, hflag]
  rw [entries, hpolicy, obligations, List.append_nil]
  simp only [List.mem_append, or_and_right, exists_or, htargeted, hmodule, hphase, hmodules,
    hunknown, hinfra, false_or, or_assoc]

end Fits

/-- A signed plan of some calls of `add` is executable exactly if the selector of the full suite was
named for the last stage first where the flag is set, and is not mandatory where it is not. -/
theorem executable_iff_first {κ : Type} (sha256 : Json → String) (hmac : κ → Json → String)
    (key : κ) {inventory : TestInventory} {plan : TestPlan} {es : List Entry}
    (hw : Wellformed inventory.fullSuiteSelector es)
    (hstages : plan.stages = canonicalStageOrder.filterMap (es.foldl Collected.add {}).stage)
    (hflag : plan.fullSuiteRequired →
      ∃ e ∈ es, e.sel = inventory.fullSuiteSelector ∧ e.mandatory) :
    Executable sha256 hmac inventory (plan.signed sha256 hmac key) key ↔
      if plan.fullSuiteRequired then
        firstStage es inventory.fullSuiteSelector = some "full_suite"
      else ¬∃ e ∈ es, e.sel = inventory.fullSuiteSelector ∧ e.mandatory := by
  have hvalid : validatePlan sha256 hmac (plan.signed sha256 hmac key) key = true ↔
      (plan.fullSuiteRequired = true →
        firstStage es inventory.fullSuiteSelector = some "full_suite") :=
    validatePlan_iff sha256 hmac key hw hstages rfl rfl
  have hmandatory : inventory.fullSuiteSelector.text ∈
      (plan.signed sha256 hmac key).mandatorySelectors ↔
        ∃ e ∈ es, e.sel = inventory.fullSuiteSelector ∧ e.mandatory = true := by
    refine Iff.trans (mem_mandatorySelectors hw hstages) ?_
    simp only [Selector.text_inj]
  have hsame : (plan.signed sha256 hmac key).fullSuiteRequired = plan.fullSuiteRequired := rfl
  rw [Executable, hvalid, hmandatory, hsame]
  cases hrequired : plan.fullSuiteRequired with
  | false => simp
  | true =>
    rw [if_pos rfl]
    have hmem := hflag hrequired
    constructor
    · rintro ⟨hnil | hfirst, -⟩
      · -- the selector is mandatory in some stage
        have hin := hmandatory.mpr hmem
        rw [TestPlan.mandatorySelectors, hnil] at hin
        exact absurd hin List.not_mem_nil
      · exact hfirst rfl
    · intro hfirst
      exact ⟨.inr fun _ => hfirst, iff_of_true rfl hmem⟩

/-- **When a plan that is built can be executed.** -/
theorem executable_iff {κ : Type} (sha256 : Json → String) (hmac : κ → Json → String)
    (inventory : TestInventory) (policy : TestPolicy) (evidence : ChangeEvidence) (key : κ)
    (hpaths : evidence.changedPaths ≠ []) :
    ∃ plan, buildTestPlan inventory policy sha256 hmac evidence key = some plan ∧
      (Executable sha256 hmac inventory plan key ↔ FullSuiteFits inventory policy evidence) := by
  rw [buildTestPlan, if_neg hpaths]
  refine ⟨_, rfl, ?_⟩
  simp only [FullSuiteFits]
  generalize deriveChangeImpact inventory policy evidence = impact
  have hflag : fullSuiteRequired policy evidence impact = true →
      ∃ e ∈ entries inventory policy impact evidence,
        e.sel = inventory.fullSuiteSelector ∧ e.mandatory = true := by
    intro hrequired
    have hpolicy : policyEntries inventory policy impact evidence =
        [⟨"full_suite", inventory.fullSuiteSelector,
          PyStr.ofString "full suite required by policy", true⟩] := if_pos hrequired
    refine ⟨_, List.mem_append_right _ (hpolicy ▸ List.mem_singleton_self _), rfl, rfl⟩
  refine (executable_iff_first sha256 hmac key wellformed_entries rfl hflag).trans ?_
  change (if fullSuiteRequired policy evidence impact then _ else _) ↔ _
  cases hrequired : fullSuiteRequired policy evidence impact with
  | false =>
    rw [if_neg (by decide), if_neg (by decide), exists_mandatory_entries hrequired, not_or]
    simp
  | true => exact firstStage_entries hrequired

/-! ### Two plans that cannot -/

/-- An inventory of one module, with its tests. -/
def smallInventory (targeted : List String) : List (PyStr × Json) :=
  [("inventory_version", Json.text "1"),
    ("module_ownership", .dict [("argent_core/models.py", .text "CORE")]),
    ("subsystem_tests", .dict []),
    ("targeted_tests", .dict [("models.py", .arr (targeted.map .text))]),
    ("full_suite_selector", .text "tests/")].map fun f => (PyStr.ofString f.1, f.2)

/-- An obligation with one regression. -/
def trustTests (fullSuite : Bool) : Json :=
  .dict [("required_regression", .arr [.text "tests/test_trust.py"]),
    ("full_suite", .bool fullSuite)]

/-- A policy with the floors, in which the module obliges to the full suite or not. -/
def smallPolicy (moduleFullSuite : Bool) : List (PyStr × Json) :=
  [("policy_version", Json.text "1"),
    ("risk_raising_changes",
      .dict (RiskTag.all.map fun tag => (tag.value, .text tag.floor.value))),
    ("subsystem_risk_tags", .dict []),
    ("module_tag_overrides", .dict []),
    ("hard_invariants", .dict [("SECURITY", trustTests true), ("SUPERVISOR", trustTests true),
      ("PERSISTENCE", trustTests true)]),
    ("module_hard_invariants", .dict [("models.py", trustTests moduleFullSuite)]),
    ("full_suite_required_when",
      .arr (FullSuiteCondition.mandatory.map fun c => .text c.value)),
    ("unknown_handling", trustTests true),
    ("test_infra_handling", trustTests true)].map fun f => (PyStr.ofString f.1, f.2)

/-- A change of that module. -/
def smallChange (phaseClosing : Bool) : ChangeEvidence where
  changedPaths := [PyStr.ofString "argent_core/models.py"]
  phaseClosing := phaseClosing

/-- What the documents are parsed to. -/
def smallConfig (targeted : List String) (moduleFullSuite : Bool) :
    Option (TestInventory × TestPolicy) := do
  let inventory ← TestInventory.fromDict (fun _ => "sha256") (fun _ => true)
    (smallInventory targeted)
  let policy ← TestPolicy.fromDict (fun _ => "sha256") (fun _ => true)
    (smallPolicy moduleFullSuite)
  some (inventory, policy)

instance {κ : Type} (sha256 : Json → String) (hmac : κ → Json → String)
    (inventory : TestInventory) (plan : TestPlan) (key : κ) :
    Decidable (Executable sha256 hmac inventory plan key) :=
  inferInstanceAs (Decidable ((_ ∨ _) ∧ (_ ↔ _)))

/-- An inventory and a policy that are accepted, and a plan of theirs that cannot be executed. -/
def Breaks (targeted : List String) (moduleFullSuite phaseClosing : Bool) : Prop :=
  ∃ config ∈ smallConfig targeted moduleFullSuite,
    ∃ plan ∈ buildTestPlan config.1 config.2 (fun _ => "sha256") (fun _ _ => "hmac")
      (smallChange phaseClosing) (),
      ¬Executable (fun _ => "sha256") (fun _ _ => "hmac") config.1 plan ()

/-- A module that obliges to the full suite makes it mandatory without the flag; and the full suite
is not in its stage if it is among the tests of a changed module. -/
theorem small_plans_break :
    Breaks ["tests/test_models.py"] true false ∧ Breaks ["tests/"] false true := by
  unfold Breaks
  decide +kernel

/-- Without either, the plan is executable. -/
theorem executable_iff_small :
    ∃ config ∈ smallConfig ["tests/test_models.py"] false,
      ∃ plan, buildTestPlan config.1 config.2 (fun _ => "sha256") (fun _ _ => "hmac")
        (smallChange true) () = some plan ∧
        Executable (fun _ => "sha256") (fun _ _ => "hmac") config.1 plan () := by
  have hfits : ∃ config ∈ smallConfig ["tests/test_models.py"] false,
      FullSuiteFits config.1 config.2 (smallChange true) := by
    decide +kernel
  obtain ⟨config, hconfig, hfits⟩ := hfits
  obtain ⟨plan, hplan, hiff⟩ := executable_iff (fun _ => "sha256") (fun _ _ => "hmac") config.1
    config.2 (smallChange true) () (by decide)
  exact ⟨config, hconfig, plan, hplan, hiff.mpr hfits⟩

end Planning

end ArgentTeam
