import ArgentTeam.Lib.FileChanges
import ArgentTeam.Workspace.Broker

/-!
# What planning has checked

A patch set goes on to be applied only if each of its patches has a plan, and a plan is for the path
that the patch leads to: within the allowed root, under no denied path, and of a type that the
operation accepts.
-/

namespace ArgentTeam

namespace Workspace

/-- The change that a patch asks for. -/
def Patch.effect (broker : Broker) (tree : FileTree File) (scopeRoot : PathText) :
    Patch → Option (CanonPath × Option File)
  | .dict .write (some path) content =>
    (broker.decodeContent content).map fun bytes =>
      (tree.realpath (normTarget scopeRoot path), some ⟨bytes, 0o600⟩)
  | .dict .delete (some path) _ => some (tree.realpath (normTarget scopeRoot path), none)
  | _ => none

/-- The change that a plan is for. -/
def Plan.effect : Plan → CanonPath × Option File
  | write target content => (target, some ⟨content, 0o600⟩)
  | delete target | skip target => (target, none)

@[simp]
theorem Plan.effect_fst (plan : Plan) : plan.effect.1 = plan.target := by
  cases plan <;> rfl

structure Planned (broker : Broker) (tree : FileTree File) (root : CanonPath) (plan : Plan) :
    Prop where
  within : Within root plan.target
  allowed : broker.isDeniedPath plan.target = false
  type : match plan with
    | .write target _ => ∀ node, tree.node target = some node → ∃ f, node = .file f
    | .delete target => (tree.file? target).isSome = true
    | .skip target => tree.node target = none

section Planned

variable {broker : Broker} {env : Env} {tree : FileTree File} {scopeRoot : PathText}
  {root : CanonPath} {i : ℕ} {patch : Patch} {patches : List Patch} {plan : Plan}
  {plans : List Plan}

theorem file_of_checkTargetType {fails : Bool} {target : CanonPath}
    (h : checkTargetType tree fails target = .ok ()) :
    ∀ node, tree.node target = some node → ∃ f, node = .file f := by
  intro node hnode
  unfold checkTargetType at h
  rw [hnode] at h
  cases node with
  | file f => exact ⟨f, rfl⟩
  | dir | special | link => split at h <;> cases h

theorem planned_of_planPatch
    (h : broker.planPatch env tree scopeRoot root i patch = .ok plan) :
    patch.effect broker tree scopeRoot = some plan.effect ∧ Planned broker tree root plan := by
  unfold Broker.planPatch at h
  split at h
  · cases h
  · cases h
  · cases h
  · cases h
  · cases h
  next op path content hother hnil hempty =>
    unfold resolveTarget at h
    split at h
    · cases h
    · change (if _ then _ else _) = _ at h
      split at h
      · cases h
      next hallowed =>
        split at h
        · cases h
        next hwithin =>
          rw [Bool.not_eq_true] at hallowed
          rw [not_not] at hwithin
          split at h
          · cases h
          · split at h
            next hop =>
              subst hop
              split at h
              · cases h
              next bytes hbytes =>
                split at h
                · cases h
                · cases hcheck : checkTargetType tree (env.fails i .plan)
                    (tree.realpath (normTarget scopeRoot path)) with
                  | error stop =>
                    rw [hcheck] at h
                    cases h
                  | ok u =>
                    rw [hcheck] at h
                    cases h
                    refine ⟨?_, hwithin, hallowed, file_of_checkTargetType hcheck⟩
                    rw [Patch.effect, hbytes]
                    rfl
            next hop =>
              have hdelete : op = .delete := by
                cases op with
                | write => exact absurd rfl hop
                | delete => rfl
                | other => exact (hother rfl).elim
              subst hdelete
              split at h
              · cases h
              · split at h
                next hnode =>
                  split at h
                  · cases h
                  · cases h
                    exact ⟨rfl, hwithin, hallowed, hnode⟩
                next f hnode =>
                  cases h
                  refine ⟨rfl, hwithin, hallowed, ?_⟩
                  dsimp only
                  rw [FileTree.file?_eq_some.mpr hnode]
                  rfl
                · cases h

/-- Each patch has its plan, in order. -/
theorem forall₂_of_planAll
    (h : broker.planAll env tree scopeRoot root i patches = .ok ([], plans)) :
    List.Forall₂ (fun patch plan => patch.effect broker tree scopeRoot = some plan.effect ∧
      Planned broker tree root plan) patches plans := by
  induction patches generalizing i plans with
  | nil =>
    cases h
    exact .nil
  | cons patch patches ih =>
    rw [Broker.planAll] at h
    split at h
    · cases h
    · cases hrest : broker.planAll env tree scopeRoot root (i + 1) patches with
      | error | ok =>
        rw [hrest] at h
        cases h
    next plan hplan =>
      cases hrest : broker.planAll env tree scopeRoot root (i + 1) patches with
      | error stop =>
        rw [hrest] at h
        cases h
      | ok rest =>
        obtain ⟨errors, plans'⟩ := rest
        rw [hrest] at h
        cases h
        exact .cons (planned_of_planPatch hplan) (ih hrest)

theorem effects_of_planAll
    (h : broker.planAll env tree scopeRoot root i patches = .ok ([], plans)) :
    patches.map (Patch.effect broker tree scopeRoot) = plans.map fun plan => some plan.effect := by
  have hall := forall₂_of_planAll h
  clear h
  induction hall with
  | nil => rfl
  | cons hplan _ ih => rw [List.map_cons, List.map_cons, hplan.1, ih]

/-- **What planning has checked**: each patch has its plan, and nothing else is planned. -/
theorem planned_of_planAll
    (h : broker.planAll env tree scopeRoot root i patches = .ok ([], plans)) :
    patches.filterMap (Patch.effect broker tree scopeRoot) = plans.map Plan.effect ∧
      ∀ plan ∈ plans, Planned broker tree root plan := by
  have hall := forall₂_of_planAll h
  clear h
  induction hall with
  | nil => exact ⟨rfl, nofun⟩
  | cons hplan _ ih =>
    refine ⟨?_, List.forall_mem_cons.mpr ⟨hplan.2, ih.2⟩⟩
    rw [List.filterMap_cons_some hplan.1, ih.1, List.map_cons]

end Planned

end Workspace

end ArgentTeam
