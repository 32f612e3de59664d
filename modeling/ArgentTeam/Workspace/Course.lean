import ArgentTeam.Workspace.Effects

/-!
# The course of a patch set

The plans of a patch set are applied until one of them fails, and how far that is can be told from
the files at the beginning (`course`). Each plan that has been applied has made its change. Where a
check has failed, the changes are then undone, the last one first, by what `_snapshot` had found
(`triple_applyAll`).
-/

namespace ArgentTeam

namespace Workspace

/-- The changes that plans make, with their numbers. -/
def changes (env : Env) : ℕ → List Plan → List (ℕ × CanonPath × Option File)
  | _, [] => []
  | i, plan :: plans => (plan.change env i).toList.map (i, ·) ++ changes env (i + 1) plans

/-- The tree after plans have taken effect. -/
def execAll (env : Env) (i : ℕ) (plans : List Plan) (tree : FileTree File) : FileTree File :=
  tree.setAll ((changes env i plans).map Prod.snd)

/-- What `_snapshot` finds before each change. -/
def snapshots (env : Env) : ℕ → FileTree File → List Plan → List (CanonPath × Option File)
  | _, _, [] => []
  | i, tree, plan :: plans =>
    (plan.change env i).toList.map (fun c => (c.1, snapshot env i tree c.1)) ++
      snapshots env (i + 1) (plan.exec env i tree) plans

/-- How many plans are applied, and how the next one fails. -/
def course (broker : Broker) (env : Env) (root : CanonPath) :
    ℕ → FileTree File → List Plan → ℕ × Option Fault
  | _, _, [] => (0, none)
  | i, tree, plan :: plans =>
    match plan.fault broker env root i tree with
    | some fault => (0, some fault)
    | none =>
      let rest := course broker env root (i + 1) (plan.exec env i tree) plans
      (rest.1 + 1, rest.2)

section Course

variable {broker : Broker} {env : Env} {root : CanonPath} {i : ℕ} {tree : FileTree File}
  {plan : Plan} {plans : List Plan}

@[simp]
theorem execAll_nil : execAll env i [] tree = tree := rfl

theorem execAll_cons :
    execAll env i (plan :: plans) tree = execAll env (i + 1) plans (plan.exec env i tree) := by
  rw [execAll, execAll, Plan.exec, ← FileTree.setAll_append]
  cases h : plan.change env i <;> simp [changes, h]

theorem course_cons_of_none (h : plan.fault broker env root i tree = none) :
    course broker env root i tree (plan :: plans) =
      ((course broker env root (i + 1) (plan.exec env i tree) plans).1 + 1,
        (course broker env root (i + 1) (plan.exec env i tree) plans).2) := by
  rw [course, h]

theorem course_cons_of_some {fault : Fault} (h : plan.fault broker env root i tree = some fault) :
    course broker env root i tree (plan :: plans) = (0, some fault) := by
  rw [course, h]

/-- How many plans take effect. -/
def effective (c : ℕ × Option Fault) : ℕ := if c.2 = some .after then c.1 + 1 else c.1

theorem effective_succ {n : ℕ} {fault : Option Fault} :
    effective (n + 1, fault) = effective (n, fault) + 1 := by
  unfold effective
  split <;> rfl

/-- **Each change is made where files can come and go.** -/
theorem slot_of_mem_changes {n : ℕ} (hn : n ≤ effective (course broker env root i tree plans)) :
    ∀ c ∈ changes env i (plans.take n), tree.Slot c.2.1 := by
  induction plans generalizing i tree n with
  | nil =>
    rw [List.take_nil]
    exact fun c hc => absurd hc List.not_mem_nil
  | cons plan plans ih =>
    cases n with
    | zero => exact fun c hc => absurd hc List.not_mem_nil
    | succ n =>
      intro c hc
      rw [List.take_succ_cons, changes, List.mem_append] at hc
      have heffective : Effective (plan.fault broker env root i tree) := by
        cases hfault : plan.fault broker env root i tree with
        | none => exact .inl rfl
        | some fault =>
          rw [course_cons_of_some hfault, effective] at hn
          split at hn
          next hafter => exact .inr hafter
          · exact absurd hn (Nat.not_succ_le_zero n)
      rcases hc with hc | hc
      · obtain ⟨c', hc', rfl⟩ := List.mem_map.mp hc
        exact (slot_of_fault heffective (Option.mem_toList.mp hc')).1
      · have hset : ∀ e ∈ (plan.change env i).toList, tree.Settable e := fun e he =>
          (slot_of_fault heffective (Option.mem_toList.mp he)).1.settable
        cases hfault : plan.fault broker env root i tree with
        | none =>
          rw [course_cons_of_none hfault, effective_succ] at hn
          exact (FileTree.slot_setAll hset).mp (ih (Nat.le_of_succ_le_succ hn) c hc)
        | some fault =>
          rw [course_cons_of_some hfault, effective] at hn
          split at hn
          · rw [Nat.le_zero.mp (Nat.le_of_succ_le_succ hn)] at hc
            exact absurd hc List.not_mem_nil
          · exact absurd hn (Nat.not_succ_le_zero n)

theorem course_fst (h : (course broker env root i tree plans).2 = none) :
    (course broker env root i tree plans).1 = plans.length := by
  induction plans generalizing i tree with
  | nil => rfl
  | cons plan plans ih =>
    cases hfault : plan.fault broker env root i tree with
    | some fault =>
      rw [course_cons_of_some hfault] at h
      cases h
    | none =>
      rw [course_cons_of_none hfault] at h ⊢
      rw [List.length_cons, ← ih h]

end Course

/-! ### The loop -/

/-- The loop has ended as the course says; `applied` is what had been applied before it. -/
def Halted (broker : Broker) (env : Env) (root : CanonPath) (i : ℕ) (tree : FileTree File)
    (plans : List Plan) (applied : List (CanonPath × Option File)) (T : CanonPath → Prop) :
    Except Stop BrokerResult → World → Prop :=
  let done := (course broker env root i tree plans).1
  match (course broker env root i tree plans).2 with
  | none => fun r w =>
    (∃ result, r = .ok result ∧ result.errors = []) ∧ At (execAll env i (plans.take done) tree) T w
  | some .refused => fun r w =>
    (∃ result, r = .ok result ∧ result.errors ≠ []) ∧
      At ((execAll env i (plans.take done) tree).setAll
        ((snapshots env i tree (plans.take done)).reverse ++ applied)) T w
  | some .before => fun r w =>
    r = .error .raised ∧ At (execAll env i (plans.take done) tree) T w
  | some .after => fun r w =>
    r = .error .raised ∧ At (execAll env i (plans.take (done + 1)) tree) T w

section Loop

variable {broker : Broker} {env : Env} {root : CanonPath} {i : ℕ} {tree : FileTree File}
  {plan : Plan} {plans : List Plan} {T : CanonPath → Prop} {E : Stop → World → Prop}
  {applied : List (CanonPath × Option File)}

/-- What has been applied is undone in order. -/
theorem triple_restore (hT : ∀ a ∈ applied, T a.1) :
    Prog.Triple (At tree T) (Prog.forEach restore applied)
      (fun _ => At (tree.setAll applied) T) E := by
  induction applied generalizing tree with
  | nil => exact Prog.triple_pure fun w hw => hw
  | cons a applied ih =>
    have ha := hT a List.mem_cons_self
    refine Prog.Triple.bind (Q := fun _ => At (tree.set a.1 a.2) T) ?_ fun _ =>
      ih fun b hb => hT b (List.mem_cons_of_mem _ hb)
    unfold restore
    split
    next hnone =>
      rw [hnone]
      exact triple_eraseFile ha
    next f hsome =>
      rw [hsome]
      exact triple_putFile ha

/-- The reason of a check that has failed is what is caught. -/
theorem triple_catchBroker (hT : ∀ p, Reaches env root i tree plan.target p → T p) :
    Prog.Triple (At tree T) (Broker.catchBroker (broker.applyPlan env root i plan))
      (fun failed w => match failed with
        | some _ => plan.fault broker env root i tree = some .refused ∧ At tree T w
        | none => plan.fault broker env root i tree = none ∧ At (plan.exec env i tree) T w)
      (fun stop w => stop = .raised ∧
        (plan.fault broker env root i tree = some .before ∧ At tree T w ∨
          plan.fault broker env root i tree = some .after ∧ At (plan.exec env i tree) T w)) := by
  unfold Broker.catchBroker
  refine Prog.triple_rescue (Prog.Triple.bind (triple_applyPlan broker hT) fun _ =>
    Prog.triple_pure fun w hw => ?_) fun stop => ?_
  · unfold Ended at hw
    split at hw
    next hfault => exact ⟨hfault, hw.2⟩
    · obtain ⟨⟨_, hstop⟩, -⟩ := hw
      cases hstop
    · cases hw.1
    · cases hw.1
  · cases stop with
    | broker reason =>
      refine Prog.triple_pure fun w hw => ?_
      unfold Ended at hw
      split at hw
      · cases hw.1
      next hfault => exact ⟨hfault, hw.2⟩
      · cases hw.1
      · cases hw.1
    | raised =>
      refine Prog.triple_raise fun w hw => ?_
      unfold Ended at hw
      split at hw
      · cases hw.1
      · obtain ⟨⟨_, hstop⟩, -⟩ := hw
        cases hstop
      next hfault => exact ⟨rfl, .inl ⟨hfault, hw.2⟩⟩
      next hfault => exact ⟨rfl, .inr ⟨hfault, hw.2⟩⟩

variable {w : World}

/-- A plan that takes effect, and then the others. -/
theorem halted_cons {r : Except Stop BrokerResult}
    (hfault : plan.fault broker env root i tree = none)
    (h : Halted broker env root (i + 1) (plan.exec env i tree) plans
      ((plan.change env i).toList.map (fun c => (c.1, snapshot env i tree c.1)) ++ applied) T r w) :
    Halted broker env root i tree (plan :: plans) applied T r w := by
  have hcourse := @course_cons_of_none broker env root i tree plan plans hfault
  unfold Halted at h ⊢
  rw [hcourse]
  dsimp only
  rw [List.take_succ_cons, List.take_succ_cons, execAll_cons, execAll_cons, snapshots]
  have hundo : ∀ l : List (CanonPath × Option File), (((plan.change env i).toList.map
      (fun c => (c.1, snapshot env i tree c.1)) ++ l).reverse ++ applied) = l.reverse ++
      ((plan.change env i).toList.map (fun c => (c.1, snapshot env i tree c.1)) ++ applied) := by
    intro l
    cases plan.change env i <;> simp
  rw [hundo]
  exact h

/-- **How the loop ends.** -/
theorem triple_applyAll {result : BrokerResult} (hresult : result.errors = [])
    (happlied : ∀ a ∈ applied, T a.1)
    (hT : ∀ tree', FileTree.SameDirs tree tree' → ∀ j, ∀ plan ∈ plans, ∀ p,
      Reaches env root j tree' plan.target p → T p) :
    Prog.Triple (At tree T) (broker.applyAll env root i applied result plans)
      (fun r => Halted broker env root i tree plans applied T (.ok r))
      (fun stop => Halted broker env root i tree plans applied T (.error stop)) := by
  induction plans generalizing i tree applied result with
  | nil =>
    exact Prog.triple_pure fun w hw => ⟨⟨result, rfl, hresult⟩, hw⟩
  | cons plan plans ih =>
    have hplan := hT tree (.refl tree) i plan List.mem_cons_self
    have hdirs : FileTree.SameDirs tree (plan.exec env i tree) := FileTree.sameDirs_setAll
    have hrest : ∀ tree', FileTree.SameDirs (plan.exec env i tree) tree' → ∀ j, ∀ plan ∈ plans,
        ∀ p, Reaches env root j tree' plan.target p → T p := fun tree' h j plan' hmem =>
      hT tree' (hdirs.trans h) j plan' (List.mem_cons_of_mem _ hmem)
    unfold Broker.applyAll
    refine Prog.triple_read_bind fun before => Prog.Triple.pre
      (P := fun w => At tree T w ∧ snapshot env i tree plan.target = before)
      (Prog.triple_of_fact fun hbefore => ?_) fun w h => ⟨h.1, h.1.1 ▸ h.2⟩
    refine Prog.Triple.bind ((triple_catchBroker hplan).conseq (fun _ => id) (fun _ _ => id)
      fun stop w h => ?_) fun failed => ?_
    · obtain ⟨rfl, ⟨hfault, hw⟩ | ⟨hfault, hw⟩⟩ := h
      · unfold Halted
        rw [course_cons_of_some hfault]
        exact ⟨rfl, hw⟩
      · unfold Halted
        rw [course_cons_of_some hfault]
        refine ⟨rfl, ?_⟩
        rw [Nat.zero_add, List.take_succ_cons, List.take_zero, execAll_cons, execAll_nil]
        exact hw
    · cases failed with
      | some reason =>
        refine Prog.Triple.pre (Prog.triple_of_fact fun hfault => ?_) fun w h => ⟨h.2, h.1⟩
        refine Prog.Triple.bind (triple_restore happlied) fun _ => Prog.triple_pure fun w hw => ?_
        unfold Halted
        rw [course_cons_of_some hfault]
        exact ⟨⟨_, rfl, by simp⟩, hw⟩
      | none =>
        refine Prog.Triple.pre (Prog.triple_of_fact fun hfault => ?_) fun w h => ⟨h.2, h.1⟩
        have hcons : ∀ c, plan.change env i = some c →
            ∀ a ∈ (c.1, snapshot env i tree c.1) :: applied, T a.1 := by
          intro c hc a ha
          rcases List.mem_cons.mp ha with rfl | ha
          · exact hplan _ (slot_of_fault (.inl hfault) hc).2
          · exact happlied a ha
        subst hbefore
        cases plan with
        | write | delete =>
          refine Prog.Triple.conseq (ih ?_ (hcons _ rfl) hrest) (fun _ => id)
            (fun r w => halted_cons hfault) fun stop w => halted_cons hfault
          exact hresult
        | skip target =>
          refine Prog.Triple.conseq (ih ?_ happlied hrest) (fun _ => id)
            (fun r w => halted_cons hfault) fun stop w => halted_cons hfault
          exact hresult

theorem Halted.touched {r : Except Stop BrokerResult}
    (h : Halted broker env root i tree plans applied T r w) : ∀ p ∈ w.touched, T p := by
  revert h
  unfold Halted
  cases (course broker env root i tree plans).2 with
  | none => exact fun h => h.2.2
  | some fault => cases fault <;> exact fun h => h.2.2

end Loop

/-! ### The whole call -/

/-- Nothing is applied, and the call says so. -/
def Declined : Except Stop BrokerResult → Prop
  | .ok result => result.errors ≠ []
  | .error _ => True

/-- The allowed root and the plans with which a call goes on. -/
def agreed (broker : Broker) (env : Env) (tree : FileTree File) (scopeRoot : PathText)
    (patches : List Patch) (role : Role) (source : String) : Option (CanonPath × List Plan) :=
  if source = controllerSource ∧ env.entry = false then
    match allowedRoot tree scopeRoot role with
    | none => none
    | some root =>
      match broker.planAll env tree scopeRoot root 0 patches with
      | .ok ([], plans) => some (root, plans)
      | _ => none
  else none

section Call

variable {broker : Broker} {env : Env} {tree : FileTree File} {scopeRoot : PathText}
  {patches : List Patch} {role : Role} {source : String} {root : CanonPath} {plans : List Plan}

theorem agreed_eq_some : agreed broker env tree scopeRoot patches role source = some (root, plans) ↔
    (source = controllerSource ∧ env.entry = false) ∧
      allowedRoot tree scopeRoot role = some root ∧
      broker.planAll env tree scopeRoot root 0 patches = .ok ([], plans) := by
  unfold agreed
  split
  next hopen =>
    split
    next hnone => simp [hnone]
    next root' hroot =>
      split
      next plans' hplans =>
        simp only [hroot, Option.some.injEq, Prod.mk.injEq]
        constructor
        · rintro ⟨rfl, rfl⟩
          exact ⟨hopen, rfl, hplans⟩
        · rintro ⟨-, rfl, hplans'⟩
          rw [hplans] at hplans'
          cases hplans'
          exact ⟨rfl, rfl⟩
      next hplans =>
        refine ⟨nofun, ?_⟩
        rintro ⟨-, hroot', hplans'⟩
        rw [hroot] at hroot'
        cases hroot'
        exact absurd hplans' (hplans plans)
  next hclosed => exact ⟨nofun, fun h => absurd h.1 hclosed⟩

theorem applyPatchSet_of_none
    (h : agreed broker env w.tree scopeRoot patches role source = none) :
    ∃ r, Declined r ∧ broker.applyPatchSet env scopeRoot patches role source w = (r, w) := by
  unfold Broker.applyPatchSet
  by_cases hsource : source = controllerSource
  · cases hroot : allowedRoot w.tree scopeRoot role with
    | none =>
      refine ⟨.error .raised, trivial, ?_⟩
      simp [bind, Prog.require, Prog.read, Prog.orRaise, hsource, hroot]
    | some root =>
      by_cases hentry : env.entry = false
      · rcases hplans : broker.planAll env w.tree scopeRoot root 0 patches with
          stop | ⟨_ | ⟨error, errors⟩, plans⟩
        · refine ⟨.error stop, trivial, ?_⟩
          simp [bind, Prog.require, Prog.read, Prog.orRaise, liftTree, hsource, hroot, hentry,
            hplans]
        · rw [(agreed_eq_some).mpr ⟨⟨hsource, hentry⟩, hroot, hplans⟩] at h
          cases h
        · refine ⟨.ok { errors := error :: errors }, List.cons_ne_nil _ _, ?_⟩
          simp [bind, pure, Prog.require, Prog.read, Prog.orRaise, liftTree, hsource, hroot, hentry,
            hplans]
      · refine ⟨.error .raised, trivial, ?_⟩
        simp [bind, Prog.require, Prog.read, Prog.orRaise, hsource, hroot, hentry]
  · refine ⟨.error .raised, trivial, ?_⟩
    simp [bind, Prog.require, hsource]

theorem applyPatchSet_of_some
    (h : agreed broker env w.tree scopeRoot patches role source = some (root, plans)) :
    broker.applyPatchSet env scopeRoot patches role source w =
      broker.applyAll env root 0 [] {} plans w := by
  obtain ⟨⟨hsource, hentry⟩, hroot, hplans⟩ := (agreed_eq_some).mp h
  unfold Broker.applyPatchSet
  simp [bind, Prog.require, Prog.read, Prog.orRaise, liftTree, hsource, hroot, hentry, hplans]

/-- **How a call ends** that goes on. -/
theorem halted_applyPatchSet {T : CanonPath → Prop}
    (h : agreed broker env tree scopeRoot patches role source = some (root, plans))
    (hT : ∀ tree', FileTree.SameDirs tree tree' → ∀ j, ∀ plan ∈ plans, ∀ p,
      Reaches env root j tree' plan.target p → T p) :
    Halted broker env root 0 tree plans [] T
      (broker.applyPatchSet env scopeRoot patches role source { tree := tree }).1
      (broker.applyPatchSet env scopeRoot patches role source { tree := tree }).2 := by
  have hstart : At tree T { tree := tree } := ⟨rfl, nofun⟩
  have htriple := @triple_applyAll broker env root 0 tree plans T [] {} rfl
    (fun _ ha => absurd ha List.not_mem_nil) hT
  rw [applyPatchSet_of_some h]
  rcases hrun : broker.applyAll env root 0 [] {} plans { tree := tree } with ⟨stop | result, w⟩
  · exact htriple.of_raises hstart hrun
  · exact htriple.of_returns hstart hrun

/-- **How a call without errors ends**: all plans have made their changes, where files can come and
go. -/
theorem executed_of_applyPatchSet {result : BrokerResult} {after : World}
    (h : broker.applyPatchSet env scopeRoot patches role source { tree := tree } =
      (.ok result, after)) (herrors : result.errors = []) :
    ∃ root plans, agreed broker env tree scopeRoot patches role source = some (root, plans) ∧
      after.tree = execAll env 0 plans tree ∧ ∀ c ∈ changes env 0 plans, tree.Slot c.2.1 := by
  rcases hagreed : agreed broker env tree scopeRoot patches role source with _ | ⟨root, plans⟩
  · obtain ⟨r, hdeclined, hrun⟩ := applyPatchSet_of_none (w := { tree := tree }) hagreed
    rw [h] at hrun
    cases hrun
    exact absurd herrors hdeclined
  · have hhalted := halted_applyPatchSet (T := fun _ => True) hagreed fun _ _ _ _ _ _ _ => trivial
    rw [h] at hhalted
    -- a fault is an error of the result, or an exception
    have hfault : (course broker env root 0 tree plans).2 = none := by
      cases hcourse : (course broker env root 0 tree plans).2 with
      | none => rfl
      | some fault =>
        unfold Halted at hhalted
        rw [hcourse] at hhalted
        cases fault with
        | refused =>
          obtain ⟨⟨result', heq, hne⟩, -⟩ := hhalted
          cases heq
          exact absurd herrors hne
        | before | after => cases hhalted.1
    have hdone := course_fst hfault
    have hslots := @slot_of_mem_changes broker env root 0 tree plans plans.length
      (by rw [effective, hfault, hdone]; simp)
    unfold Halted at hhalted
    rw [hfault] at hhalted
    obtain ⟨-, htree, -⟩ := hhalted
    rw [hdone, List.take_length] at htree
    rw [List.take_length] at hslots
    exact ⟨root, plans, rfl, htree, hslots⟩

end Call

end Workspace

end ArgentTeam
