import ArgentTeam.Context.Failures

/-!
# The order of the inputs

What a call of the builder comes to does not depend on the order of its inputs, as long as none of
the orders raises a `ValueError` and those inputs that are taken for duplicates, and that no other
one outranks, are the same: then the items that duplicates leave are the same set, sorting puts
them in the same order, and all the rest is done with what has been sorted (`alike_of_clear`).

Duplicates are found by trust class, source and content. The location and the hash of an artifact
are not among these, and so of two artifacts that differ in them the first one is kept
(`not_alike_of_best`).
-/

namespace ArgentTeam

namespace Context

variable {sha : Sha256} {call call' : BuildCall} {tier : BudgetTier} {items : List ContextItem}
  {it b : ContextItem} {slot : Slot}

/-- Two calls whose inputs are the same but for the order in each slot. -/
structure Shuffled (call call' : BuildCall) : Prop where
  rest : call' = { call with
    acceptanceCriteria := call'.acceptanceCriteria
    constraints := call'.constraints
    policyReferences := call'.policyReferences
    facts := call'.facts
    artifacts := call'.artifacts
    history := call'.history
    priorResults := call'.priorResults }
  acceptanceCriteria : call.acceptanceCriteria.Perm call'.acceptanceCriteria
  constraints : call.constraints.Perm call'.constraints
  policyReferences : call.policyReferences.Perm call'.policyReferences
  facts : call.facts.Perm call'.facts
  artifacts : call.artifacts.Perm call'.artifacts
  history : call.history.Perm call'.history
  priorResults : call.priorResults.Perm call'.priorResults

/-- Two calls come to the same. -/
inductive Alike : Except BuildError ContextPack → Except BuildError ContextPack → Prop
  /-- They raise a `ContextBuildError` with the same code. -/
  | raised (code : String) : Alike (.error (.context code)) (.error (.context code))
  /-- They return packs with the same items, hash, id and text. -/
  | returned {pack pack' : ContextPack} (items : pack.items = pack'.items)
      (contentHash : pack.contentHash = pack'.contentHash)
      (contextPackId : pack.contextPackId = pack'.contextPackId)
      (text : pack.render none = pack'.render none) : Alike (.ok pack) (.ok pack')

/-- An input that no duplicate of it outranks. -/
def BestInput (sha : Sha256) (call : BuildCall) (it : ContextItem) : Prop :=
  Chosen.Best dedupKey (fun it => Importance.rank it.importance) (inputs sha call) it

/-- **The condition**: in no order a `ValueError` is raised; and where all inputs are collected,
two of them that nothing outranks and that are taken for duplicates, or cannot be told apart by
sorting, are the same. -/
structure Clear (sha : Sha256) (call : BuildCall) : Prop where
  sound : ∀ call', Shuffled call call' → Sound sha call'
  same : firstBad call = none → ∀ a b, BestInput sha call a → BestInput sha call b →
    dedupKey a = dedupKey b → a = b
  apart : firstBad call = none → ∀ a b, BestInput sha call a → BestInput sha call b →
    Importance.rank a.importance = Importance.rank b.importance → a.trustClass = b.trustClass →
      a.id = b.id → dedupKey a = dedupKey b

/-! ### Shuffled calls -/

theorem Shuffled.refl (call : BuildCall) : Shuffled call call :=
  ⟨rfl, .refl _, .refl _, .refl _, .refl _, .refl _, .refl _, .refl _⟩

theorem Shuffled.slots (h : Shuffled call call') :
    (Context.slots call).Perm (Context.slots call') := by
  have hobjective : call'.objective = call.objective := by rw [h.rest]
  unfold Context.slots
  rw [hobjective]
  exact (((((((h.acceptanceCriteria.map _).append (h.constraints.map _)).append
    (h.policyReferences.map _)).append (h.facts.map _)).append (h.artifacts.map _)).append
      (h.history.map _)).append (h.priorResults.map _)).cons _

theorem Shuffled.inputs (h : Shuffled call call') :
    (Context.inputs sha call).Perm (Context.inputs sha call') := by
  rw [← map_item_slots, ← map_item_slots]
  exact h.slots.map _

theorem Shuffled.firstBad_eq_none_iff (h : Shuffled call call') :
    firstBad call' = none ↔ firstBad call = none := by
  simp only [firstBad, List.find?_eq_none, h.slots.mem_iff]

/-- What the items are built into does not depend on the slots. -/
theorem Shuffled.buildFrom (h : Shuffled call call') (tier : BudgetTier)
    (items : List ContextItem) :
    buildFrom sha call' tier items = buildFrom sha call tier items := by
  have hjob : call'.jobId = call.jobId := by rw [h.rest]
  have hdispatch : call'.dispatchId = call.dispatchId := by rw [h.rest]
  have hrole : call'.role = call.role := by rw [h.rest]
  have hpolicy : call'.policy = call.policy := by rw [h.rest]
  have hreason : call'.expansionReason = call.expansionReason := by rw [h.rest]
  have hnow : call'.nowIso = call.nowIso := by rw [h.rest]
  have hrender : call'.renderTokens = call.renderTokens := by
    ext items
    rw [BuildCall.renderTokens, BuildCall.renderTokens, BuildCall.identity, BuildCall.identity,
      hjob, hdispatch, hrole]
  have hfit : fit call' tier items = fit call tier items := by
    simp only [fit, hrender, hpolicy, hreason]
  have hassemble : assemble sha call' tier = assemble sha call tier := by
    ext estimated final reason : 3
    simp only [assemble, hrender, hjob, hdispatch, hrole, hnow]
  simp only [Context.buildFrom, hfit, hassemble, hrender]

/-- **One list after the duplicates**, whatever the order before. -/
theorem Clear.dedup (hclear : Clear sha call) (hfirst : firstBad call = none)
    (h : Shuffled call call') :
    Context.dedup (Context.inputs sha call) = Context.dedup (Context.inputs sha call') := by
  unfold Context.dedup
  refine Chosen.insertionSort_congr (fun a ha b hb hab hba => ?_)
    (Chosen.choose_perm (hclear.same hfirst) h.inputs)
  have hfilled := Chosen.filled_choose dedupKey
    (fun it => Importance.rank it.importance) (Context.inputs sha call)
  -- items that the order does not tell apart have the same rank and id, and so the same key
  obtain ⟨hrank, htexts⟩ := numberedLe_antisymm hab hba
  simp only [List.cons.injEq, and_true] at htexts
  have hkey := hclear.apart hfirst a b (hfilled.best a ha) (hfilled.best b hb) (by omega) htexts.1
    htexts.2
  exact Chosen.eq_of_key hfilled.nodup ha hb hkey

theorem build_eq (htier : call.policy.tierFor call.capability = .ok tier) :
    build sha call = (firstBad call).elim (buildFrom sha call tier (dedup (inputs sha call)))
      fun slot => .error slot.failure := by
  rw [build, htier, collectItems_eq_firstBad]
  cases firstBad call <;> rfl

theorem alike_refl {x : Except BuildError ContextPack} (h : x ≠ .error .value) : Alike x x := by
  match x with
  | .ok _ => exact .returned rfl rfl rfl rfl
  | .error (.context code) => exact .raised code
  | .error .value => exact absurd rfl h

theorem Clear.alike (hclear : Clear sha call) (h : Shuffled call call') :
    Alike (build sha call) (build sha call') := by
  have hsound := hclear.sound call (.refl call)
  have hpolicy : call'.policy = call.policy := by rw [h.rest]
  have hcapability : call'.capability = call.capability := by rw [h.rest]
  rcases isOk_tierFor call.policy call.capability with ⟨⟨tier, htier⟩, -⟩ | ⟨-, hmem⟩
  · have htier' : call'.policy.tierFor call'.capability = .ok tier := by
      rw [hpolicy, hcapability, htier]
    rcases hfirst : firstBad call with - | slot
    · have heq : build sha call = build sha call' := by
        rw [build_eq htier, build_eq htier', hfirst, h.firstBad_eq_none_iff.mpr hfirst]
        simp only [Option.elim_none]
        rw [h.buildFrom, hclear.dedup hfirst h]
      rw [← heq]
      exact alike_refl fun hvalue => (build_eq_value_iff sha call).mp hvalue hsound
    · -- an artifact over the limits is the first to be refused in every order
      have hne : firstBad call' ≠ none := fun hnone => by
        rw [h.firstBad_eq_none_iff, hfirst] at hnone
        cases hnone
      obtain ⟨slot', hfirst'⟩ := Option.ne_none_iff_exists'.mp hne
      have hfailure : slot.failure = .context "CONTEXT_INVALID_REFERENCE" := by
        simp [Slot.failure, hsound.first slot hfirst]
      have hfailure' : slot'.failure = .context "CONTEXT_INVALID_REFERENCE" := by
        simp [Slot.failure, (hclear.sound call' h).first slot' hfirst']
      rw [build_eq htier, build_eq htier', hfirst, hfirst', Option.elim_some, Option.elim_some,
        hfailure, hfailure']
      exact .raised _
  · exact absurd hsound.capability hmem

/-- Where all texts have an encoding, no order raises a `ValueError`. -/
theorem Shuffled.sound_of_encodable (h : Shuffled call call')
    (hcapability : call.capability ∈ [PyStr.ofString "FLASH", PyStr.ofString "PRO",
      PyStr.ofString "SOL"]) (hreason : call.expansionReason.all ExpansionReason.known = true)
    (hrole : Encodable call.role) (hdispatch : Encodable call.dispatchId)
    (hslots : ∀ slot ∈ Context.slots call, slot.good = true ∧ Encodable slot.importance ∧
      ∀ e ∈ slot.metadata, Encodable e.1 ∧ Encodable e.2) : Sound sha call' := by
  have hnone : firstBad call' = none := h.firstBad_eq_none_iff.mpr
    (List.find?_eq_none.mpr fun slot hslot => by simp [(hslots slot hslot).1])
  have hkept : ∀ tier, ∀ it ∈ kept call' tier (dedup (Context.inputs sha call')),
      Encodable it.importance ∧ ∀ e ∈ it.metadata, Encodable e.1 ∧ Encodable e.2 := by
    intro tier it hit
    have hmem := ((Chosen.filled_choose _ _ _).best it
      (mem_dedup.mp (mem_of_mem_kept (nodup_dedup _) hit))).1
    rw [← map_item_slots] at hmem
    obtain ⟨slot, hslot, rfl⟩ := List.mem_map.mp hmem
    exact (hslots slot (h.slots.mem_iff.mpr hslot)).2
  rw [h.rest]
  rw [h.rest] at hnone hkept
  refine ⟨hcapability, fun slot hslot => ?_, fun _ tier _ _ => ⟨fun _ => hreason,
    fun it hit => (hkept tier it hit).1, fun it hit => (hkept tier it hit).2, hrole, hdispatch⟩⟩
  rw [hnone] at hslot
  cases hslot

/-- **A `ValueError` is seen**: a call that raises it comes to the same as no other. -/
theorem sound_of_alike (h : Alike (build sha call) (build sha call')) : Sound sha call' := by
  by_contra hnot
  rw [(build_eq_value_iff sha call').mpr hnot] at h
  generalize build sha call = x at h
  cases h

/-! ### Conflicts -/

theorem eq_inputs_of_collectItems (h : collectItems sha call = .ok items) :
    items = inputs sha call := by
  rw [collectItems_eq_firstBad] at h
  rcases hfirst : firstBad call with - | slot <;> rw [hfirst] at h
  · exact (Except.ok.inj h).symm
  · cases h

theorem find?_map_eq_none {α β : Type} {f : α → β} {p : β → Bool} (h : ∀ a, p (f a) = false)
    (l : List α) : (l.map f).find? p = none := by
  refine List.find?_eq_none.mpr fun b hb => ?_
  obtain ⟨a, -, rfl⟩ := List.mem_map.mp hb
  exact Bool.eq_false_iff.mp (h a)

theorem slot_sourceType (a : ArtifactRef) : a.slot.sourceType = "artifact" := rfl

/-- Each input can be made the first one of its slot. -/
theorem exists_promoted (h : slot ∈ slots call) : ∃ call', Shuffled call call' ∧
    (slots call').find? (fun s => s.sourceType = slot.sourceType) = some slot := by
  have hmove : ∀ {α : Type} {l : List α} {x : α}, x ∈ l → ∃ rest, l.Perm (x :: rest) := by
    intro α l x hx
    obtain ⟨s, t, rfl⟩ := List.append_of_mem hx
    exact ⟨s ++ t, List.perm_middle⟩
  have hrefl := Shuffled.refl call
  simp only [slots, List.mem_cons, List.mem_append, List.mem_map] at h
  rcases h with rfl | (((((⟨x, hx, rfl⟩ | ⟨x, hx, rfl⟩) | ⟨x, hx, rfl⟩) | ⟨x, hx, rfl⟩) |
    ⟨x, hx, rfl⟩) | ⟨x, hx, rfl⟩) | ⟨x, hx, rfl⟩
  · exact ⟨call, hrefl, rfl⟩
  all_goals obtain ⟨rest, hperm⟩ := hmove hx
  · refine ⟨{ call with acceptanceCriteria := x :: rest },
      { hrefl with rest := rfl, acceptanceCriteria := hperm }, ?_⟩
    simp only [slots, List.map_cons, List.cons_append, List.find?_cons, String.reduceEq,
      decide_false, decide_true]
  · refine ⟨{ call with constraints := x :: rest },
      { hrefl with rest := rfl, constraints := hperm }, ?_⟩
    simp only [slots, slot_sourceType, List.find?_append, List.find?_cons, List.map_cons,
      find?_map_eq_none, String.reduceEq, decide_false, decide_true, implies_true, Option.none_or,
      Option.some_or]
  · refine ⟨{ call with policyReferences := x :: rest },
      { hrefl with rest := rfl, policyReferences := hperm }, ?_⟩
    simp only [slots, slot_sourceType, List.find?_append, List.find?_cons, List.map_cons,
      find?_map_eq_none, String.reduceEq, decide_false, decide_true, implies_true, Option.none_or,
      Option.some_or]
  · refine ⟨{ call with facts := x :: rest }, { hrefl with rest := rfl, facts := hperm }, ?_⟩
    simp only [slots, slot_sourceType, List.find?_append, List.find?_cons, List.map_cons,
      find?_map_eq_none, String.reduceEq, decide_false, decide_true, implies_true, Option.none_or,
      Option.some_or]
  · refine ⟨{ call with artifacts := x :: rest },
      { hrefl with rest := rfl, artifacts := hperm }, ?_⟩
    simp only [slots, slot_sourceType, List.find?_append, List.find?_cons, List.map_cons,
      find?_map_eq_none, String.reduceEq, decide_false, decide_true, implies_true, Option.none_or,
      Option.some_or]
  · refine ⟨{ call with history := x :: rest }, { hrefl with rest := rfl, history := hperm }, ?_⟩
    simp only [slots, slot_sourceType, List.find?_append, List.find?_cons, List.map_cons,
      find?_map_eq_none, String.reduceEq, decide_false, decide_true, implies_true, Option.none_or,
      Option.some_or]
  · refine ⟨{ call with priorResults := x :: rest },
      { hrefl with rest := rfl, priorResults := hperm }, ?_⟩
    simp only [slots, slot_sourceType, List.find?_append, List.find?_cons, List.map_cons,
      find?_map_eq_none, String.reduceEq, decide_false, decide_true, implies_true, Option.none_or]

/-- An input that nothing outranks is left where it is the first one of its slot. -/
theorem mem_dedup_of_first (h : Shuffled call call') (hbest : BestInput sha call (slot.item sha))
    (hfirst : (slots call').find? (fun s => s.sourceType = slot.sourceType) = some slot) :
    slot.item sha ∈ dedup (inputs sha call') := by
  obtain ⟨-, before, after, hslots, hbefore⟩ := List.find?_eq_some_iff_append.mp hfirst
  have hmem : ∀ it, it ∈ inputs sha call' ↔ it ∈ inputs sha call := fun _ => h.inputs.mem_iff.symm
  have hinputs : inputs sha call' = before.map (Slot.item sha) ++
      slot.item sha :: after.map (Slot.item sha) := by
    rw [← map_item_slots, hslots, List.map_append, List.map_cons]
  rw [mem_dedup, hinputs]
  refine Chosen.mem_choose_of_first (fun it hit hkey => ?_) fun it hit hkey => ?_
  · obtain ⟨s, hs, rfl⟩ := List.mem_map.mp hit
    have hne := hbefore s hs
    have htype := PyStr.ofString_inj.mp (congrArg (fun k => k.2.1) hkey)
    simp [htype] at hne
  · refine hbest.2 it ((hmem it).mp ?_) hkey
    rw [hinputs]
    exact List.mem_append_right _ (List.mem_cons_of_mem _ hit)

/-- **A conflict is seen**: if nothing outranks an input that is taken for a duplicate of an item of
the pack, and is not the same, then it takes the place of that item where it comes first. -/
theorem not_alike_of_best {pack : ContextPack} (hbuild : build sha call = .ok pack)
    (hit : it ∈ pack.items) (hbest : BestInput sha call b) (hkey : dedupKey b = dedupKey it)
    (hne : b ≠ it) : ∃ call', Shuffled call call' ∧ ¬Alike (build sha call) (build sha call') := by
  obtain ⟨slot, hslot, rfl⟩ := List.mem_map.mp ((map_item_slots sha call).symm ▸ hbest.1)
  obtain ⟨call', h, hfirst⟩ := exists_promoted hslot
  refine ⟨call', h, fun halike => ?_⟩
  rw [hbuild] at halike
  rcases hbuild' : build sha call' with e | pack'
  · rw [hbuild'] at halike
    cases halike
  · rw [hbuild'] at halike
    cases halike with | returned hitems
    obtain ⟨tier, items, -, hcollect, hfitted⟩ := fitted_of_build hbuild'
    obtain ⟨gone, htrimmed⟩ := hfitted.trimmed
    rw [hitems, htrimmed.kept] at hit
    have hmem := mem_dedup.mp (List.mem_of_mem_filter hit)
    rw [eq_inputs_of_collectItems hcollect] at hmem
    have hpromoted := mem_dedup.mp (mem_dedup_of_first h hbest hfirst)
    exact hne (Chosen.eq_of_key (Chosen.filled_choose _ _ _).nodup hpromoted hmem hkey)

/-- **The order of the inputs** changes nothing where the condition is met. Where it is not, because
some order raises a `ValueError`, or because an item of the pack is not the same as another input
that is taken for its duplicate and that nothing outranks, the order does change something. -/
theorem alike_of_clear (sha : Sha256) (call : BuildCall) :
    (Clear sha call → ∀ call', Shuffled call call' → Alike (build sha call) (build sha call')) ∧
    ((∀ call', Shuffled call call' → Alike (build sha call) (build sha call')) →
      (∀ call', Shuffled call call' → Sound sha call') ∧
      ∀ pack, build sha call = .ok pack → ∀ it ∈ pack.items, ∀ b, BestInput sha call b →
        dedupKey b = dedupKey it → b = it) := by
  refine ⟨fun hclear call' h => hclear.alike h, fun halike =>
    ⟨fun call' h => sound_of_alike (halike call' h), fun pack hbuild it hit b hbest hkey => ?_⟩⟩
  by_contra hne
  obtain ⟨call', h, hnot⟩ := not_alike_of_best hbuild hit hbest hkey hne
  exact hnot (halike call' h)

/-! ### Two artifacts with the same text -/

section Small

/-- SHA-256 with digests that tell short texts and values apart by their lengths. -/
def lengthSha : Sha256 :=
  { plainSha with
    ofJson := fun v => plainDigest (v.maxStringLen % 16)
    hexJson := fun _ => validHex_plainDigest _ }

def artifactAt (location : Char) : ArtifactRef :=
  { ref := PyStr.ofString "log", location := [.scalar location] }

/-- A call with two artifacts that differ in their locations. -/
def conflictCall : BuildCall where
  jobId := []
  dispatchId := []
  role := []
  objective := [.scalar 'a']
  artifacts := [artifactAt 'x', artifactAt 'y']

/-- With the second artifact in front, it is the one that the pack has. -/
theorem location_of_first :
    ¬∀ call', Shuffled conflictCall call' →
      Alike (build lengthSha conflictCall) (build lengthSha call') := by
  intro h
  have hkept : (build lengthSha conflictCall).toOption.any (fun pack =>
      artifactOf lengthSha (artifactAt 'x') ∈ pack.items) = true := by decide +kernel
  have hbest : BestInput lengthSha conflictCall (artifactOf lengthSha (artifactAt 'y')) := by
    unfold BestInput Chosen.Best
    decide
  rcases hbuild : build lengthSha conflictCall with e | pack
  · rw [hbuild] at hkept
    cases hkept
  · rw [hbuild] at hkept
    simp only [Except.toOption, Option.any_some, decide_eq_true_eq] at hkept
    obtain ⟨call', hcall', hnot⟩ := not_alike_of_best hbuild hkept hbest rfl (by decide)
    exact hnot (h call' hcall')

/-- A call with two acceptance criteria. -/
def clearCall : BuildCall where
  jobId := []
  dispatchId := []
  role := []
  objective := [.scalar 'a']
  acceptanceCriteria := [List.replicate 34 (.scalar 'b'), List.replicate 35 (.scalar 'b')]

/-- The call with its criteria in the other order. -/
def clearCall.swapped : BuildCall :=
  { clearCall with acceptanceCriteria := clearCall.acceptanceCriteria.reverse }

theorem clear_clearCall : Clear lengthSha clearCall := by
  refine ⟨fun call' h => ?_, fun _ a b ha hb => ?_, fun _ a b ha hb _ => ?_⟩
  · refine h.sound_of_encodable (by decide) rfl (encodable_ofString "") (encodable_ofString "") ?_
    unfold Encodable
    decide
  · have hsame : ∀ a ∈ inputs lengthSha clearCall, ∀ b ∈ inputs lengthSha clearCall,
        dedupKey a = dedupKey b → a = b := by decide
    exact hsame a ha.1 b hb.1
  · have hapart : ∀ a ∈ inputs lengthSha clearCall, ∀ b ∈ inputs lengthSha clearCall,
        a.trustClass = b.trustClass → a.id = b.id → dedupKey a = dedupKey b := by decide
    exact hapart a ha.1 b hb.1

/-- Two criteria can be given in either order. -/
theorem alike_criteria :
    Alike (build lengthSha clearCall) (build lengthSha clearCall.swapped) := by
  have hshuffled : Shuffled clearCall clearCall.swapped :=
    { Shuffled.refl clearCall with
      rest := rfl
      acceptanceCriteria := (List.reverse_perm _).symm }
  exact (alike_of_clear lengthSha clearCall).1 clear_clearCall clearCall.swapped hshuffled

end Small

end Context

end ArgentTeam
