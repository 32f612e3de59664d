import ArgentTeam.Workspace.Atomic

/-!
# Patches one at a time

A patch set is meant to be what its patches do one after the other: each of them finds the files as
the one before it has left them. The broker looks for the files that are to be deleted before it
applies anything. A file that is written and then deleted in one set was not there then, and stays;
apart from that, and from a write that the system cuts short, the files of a call without errors
are those that the patches leave one at a time (`sequential_iff`).
-/

namespace ArgentTeam

namespace Workspace

variable (broker : Broker) (scopeRoot : PathText)

/-- One patch: a write sets the content of its path, and a delete removes its path if it is
there. -/
def applyOne (tree : FileTree File) (patch : Patch) : FileTree File :=
  match patch.effect broker tree scopeRoot with
  | some e => tree.set e.1 e.2
  | none => tree

/-- The patches one at a time, in their order. -/
def sequentially (tree : FileTree File) (patches : List Patch) : FileTree File :=
  patches.foldl (applyOne broker scopeRoot) tree

/-- The last patch for each path does what it asks for: a write is written whole, and a delete of
what was not there at the beginning has no write of its path in front of it. -/
def Kept (env : Env) (tree : FileTree File) (patches : List Patch) : Prop :=
  ∀ pre patch post p o, patches = pre ++ patch :: post →
    patch.effect broker tree scopeRoot = some (p, o) →
    (∀ later ∈ post, ∀ o', later.effect broker tree scopeRoot ≠ some (p, o')) →
    match o with
    | some f => f.content.length ≤ env.room pre.length
    | none => tree.node p = none →
      ∀ earlier ∈ pre, ∀ f, earlier.effect broker tree scopeRoot ≠ some (p, some f)

section Sequential

variable {broker scopeRoot} {env : Env} {tree tree' : FileTree File} {root : CanonPath}
  {patch : Patch} {patches : List Patch} {plans : List Plan}

theorem effect_of_sameDirs (h : FileTree.SameDirs tree tree') :
    patch.effect broker tree' scopeRoot = patch.effect broker tree scopeRoot := by
  unfold Patch.effect
  simp only [h.realpath]

/-- One at a time is all changes in a row. -/
theorem sequentially_eq_setAll :
    sequentially broker scopeRoot tree patches =
      tree.setAll (patches.filterMap (Patch.effect broker tree scopeRoot)) := by
  have hfrom : ∀ tree', FileTree.SameDirs tree tree' →
      patches.foldl (applyOne broker scopeRoot) tree' =
        tree'.setAll (patches.filterMap (Patch.effect broker tree scopeRoot)) := by
    induction patches with
    | nil => exact fun _ _ => rfl
    | cons patch patches ih =>
      intro tree' hdirs
      rw [List.foldl_cons, applyOne, effect_of_sameDirs hdirs]
      cases heffect : patch.effect broker tree scopeRoot with
      | none => rw [List.filterMap_cons_none heffect, ih tree' hdirs]
      | some e =>
        rw [List.filterMap_cons_some heffect, FileTree.setAll_cons,
          ih _ (hdirs.trans FileTree.sameDirs_set)]
  exact hfrom tree (.refl tree)

theorem eq_write_of_effect {plan : Plan} {p : CanonPath} {f : File}
    (h : plan.effect = (p, some f)) : plan = .write p f.content := by
  cases plan with
  | write target content => cases h; rfl
  | delete | skip => cases h

theorem exists_effect_iff (heffects : patches.map (Patch.effect broker tree scopeRoot) =
    plans.map fun plan => some plan.effect) {e : CanonPath × Option File} :
    (∃ patch ∈ patches, patch.effect broker tree scopeRoot = some e) ↔
      ∃ plan ∈ plans, plan.effect = e := by
  have hmem : some e ∈ patches.map (Patch.effect broker tree scopeRoot) ↔
      some e ∈ plans.map fun plan => some plan.effect := by rw [heffects]
  simpa using hmem

/-- What a plan needs that is the last one for its path is what its patch needs. -/
theorem last_iff {pre post : List Patch} {pre' post' : List Plan} {plan : Plan} {p : CanonPath}
    {o : Option File}
    (hpre : pre.map (Patch.effect broker tree scopeRoot) = pre'.map fun plan => some plan.effect)
    (hpost : post.map (Patch.effect broker tree scopeRoot) =
      post'.map fun plan => some plan.effect) :
    plan.effect = (p, o) → Planned broker tree root plan →
    ((plan.target ∉ post'.map Plan.target →
      match plan with
      | .write _ content => content.length ≤ env.room pre'.length
      | .delete _ => True
      | .skip target => ∀ content, Plan.write target content ∉ pre') ↔
    ((∀ later ∈ post, ∀ o', later.effect broker tree scopeRoot ≠ some (p, o')) →
      match o with
      | some f => f.content.length ≤ env.room pre.length
      | none => tree.node p = none →
        ∀ earlier ∈ pre, ∀ f, earlier.effect broker tree scopeRoot ≠ some (p, some f))) := by
  intro hplan hplanned
  have htarget : plan.target = p := by rw [← Plan.effect_fst, hplan]
  have hlength : pre.length = pre'.length := by
    have hlengths := congrArg List.length hpre
    rwa [List.length_map, List.length_map] at hlengths
  have hlast : plan.target ∉ post'.map Plan.target ↔
      ∀ later ∈ post, ∀ o', later.effect broker tree scopeRoot ≠ some (p, o') := by
    constructor
    · intro hnot later hlater o' heffect
      obtain ⟨plan', hmem, hplan'⟩ := (exists_effect_iff hpost).mp ⟨later, hlater, heffect⟩
      refine hnot (List.mem_map.mpr ⟨plan', hmem, ?_⟩)
      rw [htarget, ← Plan.effect_fst, hplan']
    · intro hall hmem
      obtain ⟨plan', hmem', heq⟩ := List.mem_map.mp hmem
      obtain ⟨later, hlater, heffect⟩ := (exists_effect_iff hpost).mpr ⟨plan', hmem', rfl⟩
      refine hall later hlater plan'.effect.2 ?_
      rw [heffect, ← htarget, ← heq, ← Plan.effect_fst]
  rw [hlast]
  refine imp_congr_right fun _ => ?_
  cases plan with
  | write target content =>
    cases hplan
    rw [hlength]
  | delete target =>
    cases hplan
    -- what is planned to be deleted is there
    have hfile : (tree.file? p).isSome = true := hplanned.type
    refine iff_of_true trivial fun hnone => ?_
    rw [FileTree.file?, hnone] at hfile
    cases hfile
  | skip target =>
    cases hplan
    have hnone : tree.node p = none := hplanned.type
    constructor
    · intro hno _ earlier hearlier f heffect
      obtain ⟨plan', hmem, hplan'⟩ := (exists_effect_iff hpre).mp ⟨earlier, hearlier, heffect⟩
      rw [eq_write_of_effect hplan'] at hmem
      exact hno _ hmem
    · intro hno content hmem
      obtain ⟨earlier, hearlier, heffect⟩ := (exists_effect_iff hpre).mpr ⟨_, hmem, rfl⟩
      exact hno hnone earlier hearlier _ heffect

/-- What the plans need is what the patches need. -/
theorem honoured_iff_kept
    (heffects : patches.map (Patch.effect broker tree scopeRoot) =
      plans.map fun plan => some plan.effect)
    (hplanned : ∀ plan ∈ plans, Planned broker tree root plan) :
    Honoured env plans ↔ Kept broker scopeRoot env tree patches := by
  constructor
  · rintro h pre patch post p o rfl heffect
    rw [List.map_append, List.map_cons] at heffects
    obtain ⟨pre', rest, rfl, hpre, hrest⟩ := List.map_eq_append_iff.mp heffects.symm
    obtain ⟨plan, post', rfl, hplan, hpost⟩ := List.map_eq_cons_iff.mp hrest
    rw [heffect] at hplan
    exact (last_iff hpre.symm hpost.symm (Option.some.inj hplan) (hplanned plan (by simp))).mp
      (h pre' plan post' rfl)
  · rintro h pre' plan post' rfl
    rw [List.map_append, List.map_cons] at heffects
    obtain ⟨pre, rest, rfl, hpre, hrest⟩ := List.map_eq_append_iff.mp heffects
    obtain ⟨patch, post, rfl, hplan, hpost⟩ := List.map_eq_cons_iff.mp hrest
    exact (last_iff hpre hpost rfl (hplanned plan (by simp))).mpr
      (h pre patch post plan.effect.1 plan.effect.2 rfl hplan)

/-- **A patch set means its patches one at a time**, where a call returns no errors, exactly if the
last patch for each path does what it asks for. -/
theorem sequential_iff {role : Role} {source : String} {result : BrokerResult} {after : World}
    (h : broker.applyPatchSet env scopeRoot patches role source { tree := tree } =
      (.ok result, after)) (herrors : result.errors = []) :
    (∀ p, after.tree.node p = (sequentially broker scopeRoot tree patches).node p) ↔
      Kept broker scopeRoot env tree patches := by
  obtain ⟨root, plans, hagreed, htree, hslots⟩ := executed_of_applyPatchSet h herrors
  have hplans := (agreed_eq_some.mp hagreed).2.2
  obtain ⟨hchanges, hplanned⟩ := planned_of_planAll hplans
  rw [htree, sequentially_eq_setAll, hchanges, honoured_iff hslots hplanned]
  exact honoured_iff_kept (effects_of_planAll hplans) hplanned

end Sequential

/-! ### A file that is written and deleted -/

section Resurrected

/-- Nothing fails. -/
def quietEnv : Env where
  entry := false
  fails _ _ := false
  staging i := ".argent-staging-" ++ toString i
  room _ := 4096

/-- A file that is not there is written, and then deleted. -/
def writeThenDelete : List Patch :=
  [.dict .write (some ["new"]) (some ""), .dict .delete (some ["new"]) none]

def leftover : Except Stop BrokerResult × World :=
  smallBroker.applyPatchSet quietEnv ["", "scope"] writeThenDelete .implementer controllerSource
    { tree := emptyScope }

theorem leftover_ok : leftover.1 = .ok
    { applied := [⟨.write, some ["new"], none⟩], skipped := [⟨.delete, some ["new"], none⟩] } := by
  decide

/-- **A file stays that the last patch deletes.** -/
theorem deleted_file_stays : ¬∀ (broker : Broker) (env : Env) (tree : FileTree File)
    (scopeRoot : PathText) (patches : List Patch) (role : Role) (source : String)
    (result : BrokerResult) (after : World),
    broker.applyPatchSet env scopeRoot patches role source { tree := tree } = (.ok result, after) →
    result.errors = [] →
    ∀ p, after.tree.node p = (sequentially broker scopeRoot tree patches).node p := by
  intro h
  have hstays := h smallBroker quietEnv emptyScope ["", "scope"] writeThenDelete .implementer
    controllerSource _ leftover.2 (Prod.ext leftover_ok rfl) rfl ["scope", "new"]
  exact absurd hstays (by decide)

/-- The file is kept exactly if nothing is written in front of its delete. -/
theorem sequential_leftover :
    (∀ p, leftover.2.tree.node p =
      (sequentially smallBroker ["", "scope"] emptyScope writeThenDelete).node p) ↔
      Kept smallBroker ["", "scope"] quietEnv emptyScope writeThenDelete :=
  sequential_iff (Prod.ext leftover_ok rfl) rfl

end Resurrected

end Workspace

end ArgentTeam
