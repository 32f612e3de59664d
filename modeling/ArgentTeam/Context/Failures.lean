import ArgentTeam.Context.Inputs

/-!
# What leaves the builder

The dispatch gate catches a `ContextError`. A `ValueError` gets past it, and the action is then
`failed` and not `context_build_failed`. The validation turns the `ValueError` of a member that
there is not into a `ContextBuildError`; the builder itself does not. It looks the capability and
the reason for an expansion up, and it encodes what it hashes: the texts of each input, then those
of the items that are left, the role and the id of the dispatch.

Which of several errors comes first decides. An artifact that is over the limits is reported
before what comes after it is encoded, and so are too many items and a budget that is exceeded
(`settled_iff`).
-/

namespace ArgentTeam

namespace Context

variable {sha : Sha256} {call : BuildCall} {tier : BudgetTier} {items : List ContextItem}
  {it : ContextItem}

/-! ### Slots -/

/-- What an item is made of, and whether it is within the limits. -/
structure Slot where
  trustClass : TrustClass
  importance : PyStr
  sourceType : String
  sourceRef : PyStr
  content : PyStr
  metadata : List (PyStr × PyStr) := []
  fits : Bool := true

namespace Slot

def encodable (slot : Slot) : Bool :=
  slot.sourceRef.encode?.isSome && slot.content.encode?.isSome

/-- Nothing is wrong with a slot. -/
def good (slot : Slot) : Bool := slot.fits && slot.encodable

def item (sha : Sha256) (slot : Slot) : ContextItem :=
  itemOf sha slot.trustClass slot.importance slot.sourceType slot.sourceRef slot.content
    slot.metadata

def collect (sha : Sha256) (slot : Slot) : Except BuildError ContextItem := do
  check slot.fits "CONTEXT_INVALID_REFERENCE"
  makeItem sha slot.trustClass slot.importance slot.sourceType slot.sourceRef slot.content
    slot.metadata

/-- What a slot with which something is wrong raises. -/
def failure (slot : Slot) : BuildError :=
  if slot.fits then .value else .context "CONTEXT_INVALID_REFERENCE"

end Slot

def ArtifactRef.slot (a : ArtifactRef) : Slot where
  trustClass := .trustedArtifact
  importance := Importance.normal.value
  sourceType := "artifact"
  sourceRef := a.ref
  content := a.text
  metadata := [(PyStr.ofString "artifact_hash", a.contentHash),
    (PyStr.ofString "location", a.location)]
  fits := a.fits

/-- The slots of a call, in the order in which they are collected. -/
def slots (call : BuildCall) : List Slot :=
  { trustClass := .ownerInstruction, importance := Importance.required.value,
    sourceType := "objective", sourceRef := PyStr.ofString "task_objective",
    content := call.objective } ::
  (call.acceptanceCriteria.map (Slot.mk .ownerInstruction Importance.required.value
      "acceptance_criteria" [] · [] true) ++
    call.constraints.map (Slot.mk .trustedPolicy Importance.required.value "constraint" []
      · [] true) ++
    call.policyReferences.map (Slot.mk .trustedPolicy Importance.required.value
      "policy_reference" [] · [] true) ++
    call.facts.map (fun f => Slot.mk .trustedLocalFact f.importance "fact" f.sourceRef f.content
      [] true) ++
    call.artifacts.map ArtifactRef.slot ++
    call.history.map (Slot.mk .optionalHistory Importance.optional.value "history" []
      · [] true) ++
    call.priorResults.map fun r => Slot.mk .agentResult r.importance "prior_result" r.sourceRef
      r.content [] true)

theorem artifactItem_eq_collect (a : ArtifactRef) : artifactItem sha a = a.slot.collect sha := by
  unfold artifactItem Slot.collect ArtifactRef.slot ArtifactRef.fits
  by_cases h : a.ref.length ≤ maxArtifactRefLen
  · by_cases h' : a.location.length ≤ maxArtifactLocationLen
    · simp [h, h', check, bind, Except.bind, ArtifactRef.text]
    · simp [h, h', check, bind, Except.bind]
  · simp [h, check, bind, Except.bind]

theorem collectItems_eq_mapM (sha : Sha256) (call : BuildCall) :
    collectItems sha call = (slots call).mapM (Slot.collect sha) := by
  have hcollect : ∀ trustClass importance sourceType sourceRef content metadata,
      (Slot.mk trustClass importance sourceType sourceRef content metadata true).collect sha =
        makeItem sha trustClass importance sourceType sourceRef content metadata :=
    fun _ _ _ _ _ _ => rfl
  have hartifacts : artifactItem sha = Slot.collect sha ∘ ArtifactRef.slot :=
    funext artifactItem_eq_collect
  unfold collectItems slots
  rw [hartifacts]
  simp only [List.mapM_cons, List.mapM_append, List.mapM_map, Function.comp_def, hcollect,
    bind_assoc, pure_bind, List.append_assoc]

theorem map_item_slots (sha : Sha256) (call : BuildCall) :
    (slots call).map (Slot.item sha) = inputs sha call := by
  simp only [slots, inputs, inputsBefore, inputsAfter, List.map_cons, List.map_append,
    List.map_map, List.append_assoc, List.cons_append]
  rfl

/-! ### The first error -/

section First

variable {α β : Type} {f : α → Except BuildError β} {g : α → β} {good : α → Bool}
  {failure : α → BuildError}

theorem mapM_eq_find (h : ∀ x, f x = if good x then .ok (g x) else .error (failure x))
    (xs : List α) : xs.mapM f = (xs.find? fun x => !good x).elim (.ok (xs.map g)) fun x =>
      .error (failure x) := by
  induction xs with
  | nil => rfl
  | cons x xs ih =>
    rw [List.mapM_cons, h, ih, List.find?_cons]
    cases good x with
    | false => rfl
    | true => cases xs.find? (fun x => !good x) <;> rfl

theorem bind_eq_value {x : Except BuildError α} : (x >>= f) = .error .value ↔
    x = .error .value ∨ ∃ a, x = .ok a ∧ f a = .error .value := by
  cases x <;> simp [bind, Except.bind]

@[simp]
theorem check_bind_eq_value {ok : Bool} {code : String} {x : Except BuildError β} :
    (check ok code >>= fun _ => x) = .error .value ↔ ok = true ∧ x = .error .value := by
  cases ok <;> simp [check, bind, Except.bind]

end First

theorem json_eq_ite (v : Json) : sha.json v =
    if (v.scan Sha256.unencodable).isNone then .ok (sha.ofJson v) else .error .value := rfl

theorem makeItem_eq_value {trustClass : TrustClass} {importance sourceRef content : PyStr}
    {sourceType : String} {metadata : List (PyStr × PyStr)}
    (h : ¬(Encodable sourceRef ∧ Encodable content)) :
    makeItem sha trustClass importance sourceType sourceRef content metadata =
      .error .value := by
  have hid : sha.json (.arr ([trustClass.value, PyStr.ofString sourceType, sourceRef,
      content].map Json.str)) = .error .value := by
    refine if_neg ?_
    rw [isNone_scan_texts]
    exact fun hall => h ⟨hall _ (by simp), hall _ (by simp)⟩
  simp only [List.map_cons, List.map_nil] at hid
  rw [makeItem, makeItemId, hid]
  rfl

theorem Slot.encodable_iff {slot : Slot} :
    slot.encodable ↔ Encodable slot.sourceRef ∧ Encodable slot.content := by
  rw [Slot.encodable, Bool.and_eq_true]
  rfl

theorem Slot.collect_eq (slot : Slot) : slot.collect sha =
    if slot.good then .ok (slot.item sha) else .error slot.failure := by
  unfold Slot.collect Slot.good Slot.failure
  cases slot.fits with
  | false => rfl
  | true =>
    by_cases h : slot.encodable
    · simp only [h, Bool.and_self, if_true]
      obtain ⟨href, hcontent⟩ := (Slot.encodable_iff).mp h
      exact makeItem_eq href hcontent
    · simp only [h, Bool.and_false, if_true]
      exact makeItem_eq_value (mt (Slot.encodable_iff).mpr h)

/-- The first slot of a call with which something is wrong. -/
def firstBad (call : BuildCall) : Option Slot := (slots call).find? fun slot => !slot.good

theorem collectItems_eq_firstBad (sha : Sha256) (call : BuildCall) :
    collectItems sha call =
      (firstBad call).elim (.ok (inputs sha call)) fun slot => .error slot.failure := by
  rw [collectItems_eq_mapM, mapM_eq_find Slot.collect_eq, map_item_slots]
  rfl

/-! ### What is left to be hashed -/

/-- The items that are left to fit the budget. -/
def kept (call : BuildCall) (tier : BudgetTier) (items : List ContextItem) : List ContextItem :=
  trim items tier.softMax call.renderTokens

/-- Neither a limit nor the budget refuses what has been collected. -/
structure Unrefused (call : BuildCall) (tier : BudgetTier) (items : List ContextItem) : Prop where
  few : items.length ≤ maxItems
  required : call.renderTokens (items.filter fun it =>
    it.importance = Importance.required.value) ≤ tier.hard
  /-- What is left exceeds the soft budget only where a reason is given and permitted, and it
  fits the hard one. -/
  expansion : tier.softMax < call.renderTokens (kept call tier items) →
    call.renderTokens (kept call tier items) ≤ tier.hard ∧
      call.expansionReason.isSome = true ∧ call.policy.allowExpansion = true

/-- What is looked up and hashed at the end is a member and has an encoding. -/
structure Hashable (call : BuildCall) (tier : BudgetTier) (items : List ContextItem) : Prop where
  reason : tier.softMax < call.renderTokens (kept call tier items) →
    call.expansionReason.all ExpansionReason.known = true
  /-- `importance` of the items that are left. -/
  importance : ∀ it ∈ kept call tier items, Encodable it.importance
  /-- `metadata` of the items that are left. -/
  metadata : ∀ it ∈ kept call tier items, ∀ e ∈ it.metadata, Encodable e.1 ∧ Encodable e.2
  role : Encodable call.role
  dispatchId : Encodable call.dispatchId

theorem fit_eq (call : BuildCall) (tier : BudgetTier) (items : List ContextItem) :
    fit call tier items =
      if tier.softMax < call.renderTokens (kept call tier items) then
        if call.renderTokens (kept call tier items) ≤ tier.hard ∧
            call.expansionReason.isSome ∧ call.policy.allowExpansion then
          if call.expansionReason.all ExpansionReason.known then
            .ok (kept call tier items, call.expansionReason)
          else .error .value
        else .error (.context "CONTEXT_BUDGET_EXCEEDED")
      else .ok (kept call tier items, none) := by
  have hkept : trim items tier.softMax call.renderTokens = kept call tier items := rfl
  unfold fit
  split
  next hover =>
    simp only [hkept]
    split
    next hmore =>
      by_cases hhard : call.renderTokens (kept call tier items) ≤ tier.hard
      · rcases call.expansionReason with - | reason
        · simp [hhard, check, bind, Except.bind]
        · cases call.policy.allowExpansion <;>
            simp [hhard, check, bind, Except.bind, pure, Except.pure]
      · simp [hhard, check, bind, Except.bind]
    next hless => rfl
  next hless =>
    -- what fits is left as it is
    have hkept : kept call tier items = items := if_pos (not_lt.mp hless)
    rw [hkept, if_neg hless]
    rfl

/-- What the builder has hashed of an item has an encoding. -/
structure Hashed (it : ContextItem) : Prop where
  trustClass : Encodable it.trustClass
  sourceType : Encodable it.sourceType
  sourceRef : Encodable it.sourceRef
  content : Encodable it.content

theorem hashed_item {slot : Slot} (h : slot.good) : Hashed (slot.item sha) := by
  rw [Slot.good, Bool.and_eq_true, Slot.encodable_iff] at h
  exact ⟨encodable_value _, encodable_ofString _, h.2.1, h.2.2⟩

theorem hashed_of_firstBad (h : firstBad call = none)
    (hit : it ∈ inputs sha call) : Hashed it := by
  rw [← map_item_slots] at hit
  obtain ⟨slot, hslot, rfl⟩ := List.mem_map.mp hit
  exact hashed_item (by simpa using List.find?_eq_none.mp h slot hslot)

theorem Hashed.whole_iff (h : Hashed it) : Whole it ↔
    Encodable it.importance ∧ ∀ e ∈ it.metadata, Encodable e.1 ∧ Encodable e.2 :=
  ⟨fun hw => ⟨hw.importance, hw.metadata⟩, fun ⟨himportance, hmetadata⟩ =>
    ⟨h.trustClass, himportance, h.sourceType, h.sourceRef, h.content, hmetadata⟩⟩

/-- A pack cannot be put together exactly when something that is hashed has no encoding. -/
theorem assemble_eq_value_iff {estimated : ℤ} {reason : Option PyStr} :
    assemble sha call tier estimated items reason = .error .value ↔
      ¬((∀ it ∈ items, Whole it) ∧ Encodable call.role ∧ Encodable call.dispatchId) := by
  by_cases hscan : ((canonicalContent items call.role contextPackVersion).scan
      Sha256.unencodable).isNone = true
  · have hcontent := isNone_scan_canonicalContent.mp hscan
    have hid : Encodable (call.dispatchId ++ .scalar (Char.ofNat 0) ::
        sha.ofJson (canonicalContent items call.role contextPackVersion)) ↔
          Encodable call.dispatchId := by
      rw [encodable_append]
      refine and_iff_left (encodable_iff.mpr (List.forall_mem_cons.mpr ⟨rfl, ?_⟩))
      exact encodable_iff.mp (encodable_of_validHex (sha.hexJson _))
    have hitems : ∀ it ∈ items, Whole it := hcontent.2.2
    rw [assemble, contentHash, json_eq_ite, if_pos hscan, and_iff_right hitems,
      and_iff_right hcontent.2.1, ← hid]
    change (makeContextPackId sha call.dispatchId _ >>= _) = _ ↔ _
    unfold makeContextPackId Sha256.text Encodable
    split
    next hsome => simp [hsome, bind, Except.bind, pure, Except.pure]
    next hnone => simp [hnone, bind, Except.bind]
  · have hnot : ¬((∀ it ∈ items, Whole it) ∧ Encodable call.role ∧
        Encodable call.dispatchId) := fun h =>
      hscan (isNone_scan_canonicalContent.mpr ⟨encodable_ofString _, h.2.1, h.1⟩)
    simp only [hnot, not_false_eq_true, iff_true]
    rw [assemble, contentHash, json_eq_ite, if_neg hscan]
    rfl

theorem mem_of_mem_kept (hnodup : items.Nodup)
    (hit : it ∈ kept call tier items) : it ∈ items := by
  obtain ⟨gone, htrimmed⟩ := @exists_trimmed tier.softMax call.renderTokens _ hnodup
  rw [kept, htrimmed.kept] at hit
  exact List.mem_of_mem_filter hit

/-- The rest of the builder after the budget raises a `ValueError` exactly when what is left
cannot be hashed. -/
theorem finish_eq_value_iff {final : List ContextItem} {estimated : ℤ} {reason : Option PyStr} :
    (assemble sha call tier estimated final reason >>= fun pack =>
        validateContextPack sha pack >>= fun _ => pure pack) = .error .value ↔
      ¬((∀ it ∈ final, Whole it) ∧ Encodable call.role ∧ Encodable call.dispatchId) := by
  rw [← @assemble_eq_value_iff sha call tier final estimated reason, bind_eq_value]
  refine or_iff_left ?_
  rintro ⟨pack, hpack, hvalid⟩
  -- what has been put together can be hashed again
  have hwhole := not_not.mp (mt (assemble_eq_value_iff).mpr (by rw [hpack]; exact nofun))
  obtain ⟨pack', hpack', hitems, hrole, hversion⟩ := exists_assemble sha hwhole.1 hwhole.2.1
    hwhole.2.2 tier estimated reason
  cases hpack.symm.trans hpack'
  have hreturn : ∀ u : Unit, (pure pack : Except BuildError ContextPack) ≠ .error .value := fun _ =>
    nofun
  refine bind_ne_value (validateContextPack_ne_value ?_ ?_ ?_) (fun u _ => hreturn u) hvalid
  · rw [hitems]
    exact hwhole.1
  · rw [hrole]
    exact hwhole.2.1
  · rw [hversion]
    exact encodable_ofString _

theorem buildFrom_eq_value_iff (hnodup : items.Nodup) (hitems : ∀ it ∈ items, Hashed it) :
    buildFrom sha call tier items = .error .value ↔
      Unrefused call tier items ∧ ¬Hashable call tier items := by
  have hwhole : ((∀ it ∈ kept call tier items, Whole it) ∧ Encodable call.role ∧
      Encodable call.dispatchId) ↔ (∀ it ∈ kept call tier items, Encodable it.importance ∧
        ∀ e ∈ it.metadata, Encodable e.1 ∧ Encodable e.2) ∧ Encodable call.role ∧
          Encodable call.dispatchId :=
    and_congr_left' (forall₂_congr fun it hit =>
      (hitems it (mem_of_mem_kept hnodup hit)).whole_iff)
  have hhashable : Hashable call tier items ↔ (tier.softMax < call.renderTokens
      (kept call tier items) → call.expansionReason.all ExpansionReason.known = true) ∧
      (∀ it ∈ kept call tier items, Whole it) ∧ Encodable call.role ∧
        Encodable call.dispatchId := by
    rw [hwhole]
    constructor
    · rintro ⟨hreason, himportance, hmetadata, hrole, hdispatch⟩
      exact ⟨hreason, fun it hit => ⟨himportance it hit, hmetadata it hit⟩, hrole, hdispatch⟩
    · rintro ⟨hreason, hkept, hrole, hdispatch⟩
      exact ⟨hreason, fun it hit => (hkept it hit).1, fun it hit => (hkept it hit).2, hrole,
        hdispatch⟩
  have hunrefused : Unrefused call tier items ↔ items.length ≤ maxItems ∧
      call.renderTokens (items.filter fun it => it.importance = Importance.required.value) ≤
        tier.hard ∧ (tier.softMax < call.renderTokens (kept call tier items) →
          call.renderTokens (kept call tier items) ≤ tier.hard ∧
            call.expansionReason.isSome = true ∧ call.policy.allowExpansion = true) :=
    ⟨fun h => ⟨h.few, h.required, h.expansion⟩, fun ⟨hfew, hrequired, hexpansion⟩ =>
      ⟨hfew, hrequired, hexpansion⟩⟩
  rw [hhashable, hunrefused, buildFrom, check_bind_eq_value, check_bind_eq_value, fit_eq,
    decide_eq_true_eq, decide_eq_true_eq, and_assoc, and_assoc]
  refine and_congr_right fun _ => and_congr_right fun _ => ?_
  by_cases hover : tier.softMax < call.renderTokens (kept call tier items)
  · simp only [hover, if_true, forall_const]
    split
    next hpermitted =>
      rw [and_iff_right hpermitted, not_and_or]
      split
      next hknown => exact (finish_eq_value_iff).trans (by simp [hknown])
      next hunknown => simp [hunknown, bind, Except.bind]
    next hrefused => simp [hrefused, bind, Except.bind]
  · simp only [hover, if_false, false_implies, true_and]
    exact finish_eq_value_iff

/-! ### The builder and the gate -/

/-- The builder has returned a pack that the validation accepts, or it has raised a
`ContextError`. -/
inductive Settled (sha : Sha256) : Except BuildError ContextPack → Prop
  | returned {pack : ContextPack} (accepted : validateContextPack sha pack = .ok ()) :
    Settled sha (.ok pack)
  | raised (code : String) : Settled sha (.error (.context code))

/-- What the gate makes of the builder's result. -/
inductive GateOutcome
  | spawns (pack : ContextPack)
  /-- `context_build_failed`, with the code of the error. -/
  | contextBuildFailed (code : String)
  /-- `failed`, for any other exception. -/
  | failed

/-- The handlers of the dispatch gate, about the builder and the second validation. -/
def dispatchGate (sha : Sha256) (result : Except BuildError ContextPack) : GateOutcome :=
  match result >>= fun pack => validateContextPack sha pack >>= fun _ => pure pack with
  | .ok pack => .spawns pack
  | .error (.context code) => .contextBuildFailed code
  | .error .value => .failed

/-- **The condition**: the capability is one of the three, the first slot with which something is
wrong is an artifact over the limits, and where there is none and nothing else is refused, the
rest can be hashed. -/
structure Sound (sha : Sha256) (call : BuildCall) : Prop where
  capability : call.capability ∈ [PyStr.ofString "FLASH", PyStr.ofString "PRO",
    PyStr.ofString "SOL"]
  first : ∀ slot, firstBad call = some slot → slot.fits = false
  rest : firstBad call = none → ∀ tier, call.policy.tierFor call.capability = .ok tier →
    Unrefused call tier (dedup (inputs sha call)) → Hashable call tier (dedup (inputs sha call))

theorem isOk_tierFor (policy : ContextBudgetPolicy) (capability : PyStr) :
    (∃ tier, policy.tierFor capability = .ok tier) ∧ capability ∈ [PyStr.ofString "FLASH",
        PyStr.ofString "PRO", PyStr.ofString "SOL"] ∨
      policy.tierFor capability = .error .value ∧ capability ∉ [PyStr.ofString "FLASH",
        PyStr.ofString "PRO", PyStr.ofString "SOL"] := by
  unfold ContextBudgetPolicy.tierFor
  by_cases hflash : capability = PyStr.ofString "FLASH"
  · exact .inl ⟨⟨policy.flash, if_pos hflash⟩, by simp [hflash]⟩
  · by_cases hpro : capability = PyStr.ofString "PRO"
    · exact .inl ⟨⟨policy.pro, by rw [if_neg hflash, if_pos hpro]⟩, by simp [hpro]⟩
    · by_cases hsol : capability = PyStr.ofString "SOL"
      · exact .inl ⟨⟨policy.sol, by rw [if_neg hflash, if_neg hpro, if_pos hsol]⟩, by simp [hsol]⟩
      · refine .inr ⟨by rw [if_neg hflash, if_neg hpro, if_neg hsol], ?_⟩
        simp [hflash, hpro, hsol]

/-- The builder raises a `ValueError` exactly when the condition is not met. -/
theorem build_eq_value_iff (sha : Sha256) (call : BuildCall) :
    build sha call = .error .value ↔ ¬Sound sha call := by
  rcases isOk_tierFor call.policy call.capability with ⟨⟨tier, htier⟩, hmem⟩ | ⟨herror, hmem⟩
  · rw [build, htier, collectItems_eq_firstBad]
    rcases hfirst : firstBad call with - | slot
    · have hhashed : ∀ it ∈ dedup (inputs sha call), Hashed it := fun it hit =>
        hashed_of_firstBad hfirst ((Chosen.filled_choose _ _ _).best it (mem_dedup.mp hit)).1
      refine (buildFrom_eq_value_iff (nodup_dedup _) hhashed).trans ⟨?_, fun hnot => ?_⟩
      · rintro ⟨hunrefused, hnot⟩ hsound
        exact hnot (hsound.rest hfirst tier htier hunrefused)
      · by_contra hcon
        refine hnot ⟨hmem, fun slot hslot => ?_, fun _ tier' htier' hunrefused => ?_⟩
        · cases hfirst.symm.trans hslot
        · cases htier.symm.trans htier'
          by_contra hhashable
          exact hcon ⟨hunrefused, hhashable⟩
    · show (Except.error slot.failure : Except BuildError ContextPack) = .error .value ↔ _
      unfold Slot.failure
      cases hfits : slot.fits with
      | false =>
        refine iff_of_false (by simp) (not_not.mpr ⟨hmem, fun s hs => ?_, fun hnone => ?_⟩)
        · cases hfirst.symm.trans hs
          exact hfits
        · cases hfirst.symm.trans hnone
      | true =>
        refine iff_of_true rfl fun hsound => ?_
        have hfalse := hsound.first slot hfirst
        rw [hfits] at hfalse
        cases hfalse
  · rw [build, herror]
    exact iff_of_true rfl fun hsound => hmem hsound.capability

theorem accepted_of_build {pack : ContextPack} (h : build sha call = .ok pack) :
    validateContextPack sha pack = .ok () := by
  simp only [build, buildFrom, bind_eq_ok, pure_eq_ok] at h
  obtain ⟨tier, -, items, -, _, -, _, -, _, -, built, -, _, hvalid, rfl⟩ := h
  exact hvalid

theorem settled_iff_ne_value (sha : Sha256) (call : BuildCall) :
    Settled sha (build sha call) ↔ build sha call ≠ .error .value := by
  rcases hbuild : build sha call with (code | -) | pack
  · exact iff_of_true (.raised code) nofun
  · exact iff_of_false nofun fun h => h rfl
  · exact iff_of_true (.returned (accepted_of_build hbuild)) nofun

theorem dispatchGate_eq_failed_iff (sha : Sha256) (call : BuildCall) :
    dispatchGate sha (build sha call) = .failed ↔ build sha call = .error .value := by
  unfold dispatchGate
  rcases hbuild : build sha call with (code | -) | pack
  · exact iff_of_false nofun nofun
  · exact iff_of_true rfl rfl
  · refine iff_of_false ?_ nofun
    simp only [bind, Except.bind, accepted_of_build hbuild]
    exact nofun

/-- **What leaves the builder** is a pack that the validation accepts or a `ContextError` exactly
when the condition is met, and exactly then the gate does not report `failed`. -/
theorem settled_iff (sha : Sha256) (call : BuildCall) :
    (Settled sha (build sha call) ↔ Sound sha call) ∧
      (dispatchGate sha (build sha call) ≠ .failed ↔ Sound sha call) := by
  have hsound : build sha call ≠ .error .value ↔ Sound sha call := by
    rw [Ne, build_eq_value_iff, not_not]
  refine ⟨(settled_iff_ne_value sha call).trans hsound, ?_⟩
  rw [Ne, dispatchGate_eq_failed_iff]
  exact hsound

/-! ### A surrogate in the objective -/

/-- A call with an objective that has no encoding. -/
def surrogateCall : BuildCall where
  jobId := []
  dispatchId := []
  role := []
  objective := [.surrogate 0]

/-- It raises a `ValueError`, and the gate reports `failed`. -/
theorem not_settled_surrogate :
    ¬Settled plainSha (build plainSha surrogateCall) ∧
      dispatchGate plainSha (build plainSha surrogateCall) = .failed := by
  have hvalue : build plainSha surrogateCall = .error .value := by decide
  rw [hvalue]
  exact ⟨nofun, rfl⟩

end Context

end ArgentTeam
