import ArgentTeam.Lib.Climb
import ArgentTeam.Workspace.Course
import ArgentTeam.Workspace.Planned

/-!
# Where the broker writes

What a patch leads to is within the allowed root, and no link leads out of that. The allowed root of
the QA role is itself found by following links, though, from a name in the task's own directory: if
`tests` is a link, then the files of another directory are the ones that the role may write. The
broker stays in the scope root exactly if the allowed root does (`confined_iff`).
-/

namespace ArgentTeam

namespace Workspace

/-! ### What is not touched is as it was -/

/-- From the one world to the other, something has happened only where the record says so. -/
structure Noted (w w' : World) : Prop where
  kept : ∀ p ∈ w.touched, p ∈ w'.touched
  same : ∀ p, p ∉ w'.touched → w'.tree.node p = w.tree.node p

instance : Std.Refl Noted := ⟨fun _ => ⟨fun _ hp => hp, fun _ _ => rfl⟩⟩

instance : IsTrans World Noted :=
  ⟨fun _ _ _ h h' => ⟨fun p hp => h'.kept p (h.kept p hp), fun p hp =>
    (h'.same p hp).trans (h.same p fun hmem => hp (h'.kept p hmem))⟩⟩

section Noted

variable {broker : Broker} {env : Env} {root : CanonPath} {i : ℕ} {p : CanonPath}

instance {f : File} : Prog.Moves id Noted (putFile p f) := by
  refine ⟨fun w => ⟨fun q hq => List.mem_cons_of_mem _ hq, fun q hq => ?_⟩⟩
  exact FileTree.node_put_of_ne fun heq => hq (heq ▸ List.mem_cons_self)

instance : Prog.Moves id Noted (eraseFile p) := by
  refine ⟨fun w => ⟨fun q hq => List.mem_cons_of_mem _ hq, fun q hq => ?_⟩⟩
  exact FileTree.node_erase_of_ne fun heq => hq (heq ▸ List.mem_cons_self)

instance {α : Type} {g : FileTree File → Except Stop α} : Prog.Moves id Noted (liftTree g) :=
  ⟨fun w => Std.Refl.refl w⟩

instance {point : Point} : Prog.Moves id Noted (env.pass i point) :=
  inferInstanceAs (Prog.Moves id Noted (Prog.require _ _))

instance {path : CanonPath} : Prog.Moves id Noted (Broker.checkWithin root path) :=
  inferInstanceAs (Prog.Moves id Noted (liftTree _))

theorem noted_openStaging {staging : CanonPath} :
    Prog.Moves id Noted (openStaging env i staging) :=
  Prog.moves_bind inferInstance fun _ => inferInstance

theorem noted_stage {staging target : CanonPath} {content : Bytes} :
    Prog.Moves id Noted (broker.stage env root i staging target content) := by
  refine Prog.moves_bind inferInstance fun _ => ?_
  refine Prog.moves_bind inferInstance fun _ => ?_
  refine Prog.moves_bind inferInstance fun _ => ?_
  refine Prog.moves_bind inferInstance fun _ => ?_
  refine Prog.moves_bind inferInstance fun _ => ?_
  refine Prog.moves_bind inferInstance fun _ => ?_
  refine Prog.moves_bind inferInstance fun _ => ?_
  refine Prog.moves_bind inferInstance fun _ => ?_
  exact Prog.moves_bind inferInstance fun _ => inferInstance

theorem noted_writeFile {target : CanonPath} {content : Bytes} :
    Prog.Moves id Noted (broker.writeFile env root i target content) := by
  refine Prog.moves_bind inferInstance fun _ => ?_
  refine Prog.moves_bind inferInstance fun _ => ?_
  refine Prog.moves_bind noted_openStaging fun _ => ?_
  refine Prog.moves_bind (Prog.moves_rescue noted_stage fun _ =>
    Prog.moves_bind inferInstance fun _ => inferInstance) fun _ => ?_
  exact Prog.moves_bind inferInstance fun _ => inferInstance

theorem noted_deleteFile {target : CanonPath} :
    Prog.Moves id Noted (Broker.deleteFile env root i target) := by
  refine Prog.moves_bind inferInstance fun _ => ?_
  refine Prog.moves_bind inferInstance fun _ => ?_
  refine Prog.moves_bind inferInstance fun _ => ?_
  refine Prog.moves_bind inferInstance fun _ => ?_
  refine Prog.moves_bind inferInstance fun _ => ?_
  refine Prog.moves_bind inferInstance fun _ => ?_
  exact Prog.moves_bind inferInstance fun _ => inferInstance

theorem noted_applyPlan {plan : Plan} :
    Prog.Moves id Noted (broker.applyPlan env root i plan) := by
  cases plan with
  | write target content => exact noted_writeFile
  | delete target => exact noted_deleteFile
  | skip target => exact inferInstanceAs (Prog.Moves id Noted (pure ()))

instance {applied : CanonPath × Option File} : Prog.Moves id Noted (restore applied) := by
  unfold restore
  split <;> infer_instance

theorem noted_catchBroker {m : Cmd Unit} (h : Prog.Moves id Noted m) :
    Prog.Moves id Noted (Broker.catchBroker m) := by
  refine Prog.moves_rescue (Prog.moves_bind h fun _ => inferInstance) fun stop => ?_
  cases stop <;> infer_instance

theorem noted_applyAll {plans : List Plan} {applied : List (CanonPath × Option File)}
    {result : BrokerResult} :
    Prog.Moves id Noted (broker.applyAll env root i applied result plans) := by
  induction plans generalizing i applied result with
  | nil => exact inferInstanceAs (Prog.Moves id Noted (pure result))
  | cons plan plans ih =>
    refine Prog.moves_bind inferInstance fun before => ?_
    refine Prog.moves_bind (noted_catchBroker noted_applyPlan) fun failed => ?_
    cases failed with
    | some reason => exact Prog.moves_bind inferInstance fun _ => inferInstance
    | none => cases plan <;> exact ih

/-- **What is not touched is as it was.** -/
theorem node_of_notMem_touched {plans : List Plan} {result : BrokerResult} {tree : FileTree File}
    (h : p ∉ (broker.applyAll env root i [] result plans { tree := tree }).2.touched) :
    (broker.applyAll env root i [] result plans { tree := tree }).2.tree.node p = tree.node p :=
  (noted_applyAll.moves { tree := tree }).same p h

end Noted

/-! ### The scope -/

/-- The directory that a role may write in. -/
def homeOf (tree : FileTree File) (scopeRoot : PathText) : Role → CanonPath
  | .qa => tree.realpath (tree.abspath scopeRoot) ++ ["tests"]
  | _ => tree.realpath (tree.abspath scopeRoot)

/-- A path that a role may write. -/
def InScope (broker : Broker) (home p : CanonPath) : Prop :=
  home <+: p ∧ broker.isDeniedPath p = false

/-- The names of the staging files are drawn at random: they are not those of denied paths. -/
def Fresh (broker : Broker) (env : Env) : Prop :=
  ∀ i, ∀ dp ∈ broker.denyPaths, dp.getLast? ≠ some (env.staging i)

/-- No patch set makes the broker create, replace or delete a file elsewhere. -/
def Confined (broker : Broker) (tree : FileTree File) (scopeRoot : PathText) (role : Role) : Prop :=
  ∀ env, Fresh broker env → ∀ patches source,
    ∀ p ∈ (broker.applyPatchSet env scopeRoot patches role source { tree := tree }).2.touched,
      InScope broker (homeOf tree scopeRoot role) p

/-- The allowed root is in the directory of the role, unless it is no directory, `/`, or denied. -/
def AtHome (broker : Broker) (tree : FileTree File) (scopeRoot : PathText) (role : Role) : Prop :=
  ∀ root, allowedRoot tree scopeRoot role = some root → tree.node root = some .dir → root ≠ [] →
    broker.isDeniedPath root = false → homeOf tree scopeRoot role <+: root

section Scope

variable {broker : Broker} {env : Env} {tree tree' : FileTree File} {scopeRoot : PathText}
  {role : Role} {root home p q : CanonPath} {plan : Plan} {i : ℕ}

theorem isDeniedPath_of_within (h : broker.isDeniedPath p) (hq : Within p q) :
    broker.isDeniedPath q := by
  obtain ⟨dp, hdp, hwithin⟩ := List.any_eq_true.mp h
  exact List.any_eq_true.mpr
    ⟨dp, hdp, decide_eq_true (Within.trans (of_decide_eq_true hwithin) hq)⟩

theorem Planned.target_ne_nil (h : Planned broker tree root plan) : plan.target ≠ [] := by
  have htype := h.type
  cases plan with
  | write target content =>
    rintro rfl
    obtain ⟨f, hf⟩ := htype .dir tree.root
    cases hf
  | delete target =>
    rintro rfl
    dsimp only at htype
    rw [FileTree.file?, tree.root] at htype
    cases htype
  | skip target =>
    rintro rfl
    dsimp only at htype
    rw [tree.root] at htype
    cases htype

theorem within_of_reaches (hdirs : FileTree.SameDirs tree tree')
    (h : Reaches env root i tree' plan.target p) :
    Within root plan.target.dropLast ∧ tree.node plan.target.dropLast = some .dir := by
  obtain ⟨hwithin, hdir, -⟩ := h
  rw [hdirs.isDir, FileTree.isDir_iff] at hdir
  rw [hdirs.realpath, FileTree.realpath_text hdir] at hwithin
  exact ⟨hwithin, hdir⟩

/-- **What is written is in the scope**, if the allowed root is. -/
theorem inScope_of_reaches (hfresh : Fresh broker env)
    (hroot : allowedRoot tree scopeRoot role = some root)
    (hhome : AtHome broker tree scopeRoot role) (hplanned : Planned broker tree root plan)
    (hdirs : FileTree.SameDirs tree tree') (h : Reaches env root i tree' plan.target p) :
    InScope broker (homeOf tree scopeRoot role) p := by
  obtain ⟨hparent, hdir⟩ := within_of_reaches hdirs h
  have htarget := hplanned.target_ne_nil
  have hprefix : plan.target.dropLast <+: plan.target := List.dropLast_prefix _
  have hne : root ≠ [] := by
    rintro rfl
    rcases hplanned.within with heq | ⟨hnil, -⟩
    · exact htarget heq
    · exact hnil rfl
  have hrootDir : tree.node root = some .dir := by
    by_cases heq : root = plan.target.dropLast
    · rw [heq, hdir]
    · exact FileTree.node_above (by rw [hdir]; rfl) hparent.isPrefix heq
  have hallowed : broker.isDeniedPath root = false := by
    rw [← Bool.not_eq_true]
    intro hdenied
    have := isDeniedPath_of_within hdenied hplanned.within
    rw [hplanned.allowed] at this
    cases this
  have hin := (hhome root hroot hrootDir hne hallowed).trans hparent.isPrefix
  rcases h.2.2 with rfl | rfl
  · exact ⟨hin.trans hprefix, hplanned.allowed⟩
  · refine ⟨hin.trans (List.prefix_append _ _), ?_⟩
    rw [← Bool.not_eq_true]
    intro hdenied
    obtain ⟨dp, hdp, hwithin⟩ := List.any_eq_true.mp hdenied
    -- a denied path is not the staging file itself, and so it is the target that it is above
    have hlast : dp ≠ stagingPath env i plan.target := by
      rintro rfl
      exact hfresh i _ hdp (List.getLast?_concat ..)
    rcases of_decide_eq_true hwithin with heq | ⟨hnil, hdp'⟩
    · exact hlast heq.symm
    · have habove : dp <+: plan.target.dropLast := by
        rcases List.prefix_concat_iff.mp hdp' with heq | habove
        · exact absurd heq hlast
        · exact habove
      have htargetDenied : broker.isDeniedPath plan.target = true :=
        List.any_eq_true.mpr
          ⟨dp, hdp, decide_eq_true (.inr ⟨hnil, habove.trans hprefix⟩)⟩
      rw [hplanned.allowed] at htargetDenied
      cases htargetDenied

theorem confined_of_atHome (hhome : AtHome broker tree scopeRoot role) :
    Confined broker tree scopeRoot role := by
  intro env hfresh patches source p hp
  rcases hagreed : agreed broker env tree scopeRoot patches role source with _ | ⟨root, plans⟩
  · obtain ⟨r, -, hrun⟩ := applyPatchSet_of_none (w := { tree := tree }) hagreed
    rw [hrun] at hp
    cases hp
  · obtain ⟨-, hroot, hplans⟩ := agreed_eq_some.mp hagreed
    have hplanned := (planned_of_planAll hplans).2
    have hhalted := halted_applyPatchSet (T := InScope broker (homeOf tree scopeRoot role)) hagreed
      fun tree' hdirs j plan hplan q =>
        inScope_of_reaches hfresh hroot hhome (hplanned plan hplan) hdirs
    exact hhalted.touched p hp

/-! ### A patch that goes where the allowed root leads -/

/-- Nothing fails, and the staging files have this name. -/
def calmEnv (name : String) : Env where
  entry := false
  fails _ _ := false
  staging _ := name
  room _ := 0

/-- A path that leads to a name in a directory, from wherever the scope root is. -/
def pathTo (tree : FileTree File) (scopeRoot : PathText) (p : CanonPath) : PathText :=
  PathText.climb (scopeRoot.length + tree.cwd.length) p

/-- A patch that writes an empty file to a name in a directory. -/
def patchTo (tree : FileTree File) (scopeRoot : PathText) (p : CanonPath) : Patch :=
  .dict .write (some (pathTo tree scopeRoot p)) (some "")

theorem contentHit_nil : broker.contentHit [] = false := by
  rw [Broker.contentHit, broker.decodeUtf8_nil]
  decide

/-- A free name in a directory of the allowed root can be written. -/
theorem planPatch_patchTo {x name : String} (hroot : tree.node root = some .dir) (hne : root ≠ [])
    (hx : IsName x) (hfree : tree.node (root ++ [x]) = none)
    (hallowed : broker.isDeniedPath (root ++ [x]) = false) :
    broker.planPatch (calmEnv name) tree scopeRoot root 0 (patchTo tree scopeRoot (root ++ [x])) =
      .ok (.write (root ++ [x]) []) := by
  have hsome : (tree.node root).isSome = true := by rw [hroot]; rfl
  have hnames : ∀ part ∈ root ++ [x], IsName part := by
    intro part hpart
    rcases List.mem_append.mp hpart with h | h
    · exact tree.names root hsome part h
    · rwa [List.mem_singleton.mp h]
  have hdir : tree.node (root ++ [x]).dropLast = some .dir := by rwa [List.dropLast_concat]
  have hnone : tree.target? (root ++ [x]) = none := by rw [FileTree.target?, hfree]
  have hreal : tree.realpath (normTarget scopeRoot (pathTo tree scopeRoot (root ++ [x]))) =
      root ++ [x] :=
    FileTree.realpath_normpath_climb (by simp) hdir hnames hnone le_rfl
  have hlink : isLink tree (normTarget scopeRoot (pathTo tree scopeRoot
      (root ++ [x]))) = false := by
    obtain ⟨hdirname, hbasename⟩ := FileTree.realpath_dirname_climb (a := scopeRoot) hne hroot hx
      (le_refl (scopeRoot.length + tree.cwd.length))
    unfold isLink normTarget pathTo
    rw [hdirname, hbasename, hnone]
    rfl
  have habs : (pathTo tree scopeRoot (root ++ [x])).isAbs = false :=
    PathText.isAbs_climb (by simp) hnames
  have htype : checkTargetType tree false (root ++ [x]) = .ok () := by
    have hblocked := blocked_of_isDir (FileTree.isDir_iff.mpr hdir)
    unfold checkTargetType
    rw [hfree, hblocked]
    rfl
  have hpart : "" ∉ pathTo tree scopeRoot (root ++ [x]) := by
    intro hmem
    rcases List.mem_append.mp hmem with h | h
    · exact absurd (List.eq_of_mem_replicate h) (by decide)
    · exact (hnames "" h).1 rfl
  have hcons : pathTo tree scopeRoot (root ++ [x]) ≠ [] :=
    List.append_ne_nil_of_right_ne_nil _ (by simp)
  unfold Broker.planPatch patchTo
  generalize pathTo tree scopeRoot (root ++ [x]) = path at hreal hlink habs hpart hcons ⊢
  split
  next h => cases h
  next h => cases h
  next h => cases h
  next h =>
    cases h
    exact absurd rfl hcons
  next h =>
    cases h
    exact absurd (List.mem_singleton.mpr rfl) hpart
  next h =>
    cases h
    rw [resolveTarget, habs, if_neg Bool.false_ne_true, hreal]
    change (if _ then _ else _) = _
    rw [hallowed, if_neg Bool.false_ne_true, if_neg (not_not_intro (within_append hne)), hlink,
      if_neg Bool.false_ne_true, if_pos rfl, Broker.decodeContent, Option.bind_some,
      broker.b64decode_empty]
    dsimp only
    rw [contentHit_nil, if_neg Bool.false_ne_true]
    change (checkTargetType tree false (root ++ [x]) >>= fun _ => _) = _
    rw [htype]
    rfl

theorem writable_of_free {x : String} (hroot : tree.node root = some .dir) (hx : IsName x)
    (hfree : tree.node (root ++ [x]) = none) : tree.Writable (root ++ [x]) := by
  have hsome : (tree.node root).isSome = true := by rw [hroot]; rfl
  refine ⟨by simp, ?_, ?_, ?_, ?_⟩
  · rw [List.dropLast_concat]
    exact FileTree.isDir_iff.mpr hroot
  · intro part hpart
    rcases List.mem_append.mp hpart with h | h
    · exact tree.names root hsome part h
    · rwa [List.mem_singleton.mp h]
  · rw [FileTree.isDir, hfree]
  · rw [FileTree.target?, hfree]

/-- Where nothing fails, a free name in the allowed root is written. -/
theorem writeFault_calm {x name : String} (hroot : tree.node root = some .dir) (hne : root ≠ [])
    (hx : IsName x) (hfree : tree.node (root ++ [x]) = none) (hname : IsName name)
    (hfree' : tree.node (root ++ [name]) = none)
    (hallowed : broker.isDeniedPath (root ++ [x]) = false) :
    broker.writeFault (calmEnv name) root 0 (root ++ [x]) tree = none := by
  have hwritable := writable_of_free hroot hx hfree
  have hreal : tree.realpath (CanonPath.text (root ++ [x])) = root ++ [x] :=
    FileTree.realpath_text_of_dir (by rwa [List.dropLast_concat]) hwritable.2.2.1 hwritable.2.2.2.2
  have htype : checkTargetType tree false (root ++ [x]) = .ok () := by
    unfold checkTargetType
    rw [hfree, blocked_of_isDir hwritable.2.1]
    rfl
  have hopen : Openable (calmEnv name) 0 tree (stagingPath (calmEnv name) 0 (root ++ [x])) := by
    rw [stagingPath, List.dropLast_concat]
    exact ⟨hfree', rfl, writable_of_free hroot hname hfree'⟩
  have hstage : broker.stageFault (calmEnv name) root 0 (root ++ [x]) tree = none := by
    rw [Broker.stageFault, if_neg (by simp [calmEnv]), if_neg,
      if_neg (by simp [calmEnv, hwritable])]
    rw [hreal, hallowed, calmEnv, htype]
    simp [rejects, within_append hne]
  rw [Broker.writeFault, List.dropLast_concat, FileTree.realpath_text hroot,
    if_neg (not_not_intro (.inl rfl)), if_neg (by simp [calmEnv]), if_neg (not_not_intro hopen),
    hstage]
  simp [calmEnv]

/-- If nothing is ever written elsewhere, the allowed root is in the directory of the role:
otherwise a patch that writes to a free name in it would be. -/
theorem atHome_of_confined (h : Confined broker tree scopeRoot role) :
    AtHome broker tree scopeRoot role := by
  intro root hallowedRoot hroot hne hallowed
  have hbad : ({x | (tree.node (root ++ [x])).isSome = true} ∪
      ({x | x ∈ broker.denyPaths.filterMap List.getLast?} ∪
        {x | homeOf tree scopeRoot role = root ++ [x]})).Finite := by
    refine Set.Finite.union ?_ (Set.Finite.union (List.finite_toSet _) ?_)
    · exact tree.finite.preimage fun x _ y _ hxy => by simpa using hxy
    · refine Set.Subsingleton.finite fun x hx y hy => ?_
      simpa using hx.symm.trans hy
  obtain ⟨x, hx, hxbad⟩ := exists_name hbad
  obtain ⟨name, hname, hnamebad⟩ := exists_name hbad
  rw [Set.mem_union, Set.mem_union, not_or, not_or] at hxbad hnamebad
  obtain ⟨hfree, hlast, hhome⟩ := hxbad
  obtain ⟨hfree', hfresh, -⟩ := hnamebad
  rw [Set.mem_ofPred_eq, Option.not_isSome_iff_eq_none] at hfree hfree'
  have hdeny : broker.isDeniedPath (root ++ [x]) = false := by
    refine List.any_eq_false.mpr fun dp hdp hwithin => ?_
    rcases of_decide_eq_true hwithin with heq | ⟨hnil, hprefix⟩
    · refine hlast (List.mem_filterMap.mpr ⟨dp, hdp, ?_⟩)
      rw [← heq, List.getLast?_concat]
    · rcases List.prefix_concat_iff.mp hprefix with heq | habove
      · refine hlast (List.mem_filterMap.mpr ⟨dp, hdp, ?_⟩)
        rw [heq, List.getLast?_concat]
      · have hdenied : broker.isDeniedPath root = true :=
          List.any_eq_true.mpr ⟨dp, hdp, decide_eq_true (.inr ⟨hnil, habove⟩)⟩
        rw [hallowed] at hdenied
        cases hdenied
  have hagreed : agreed broker (calmEnv name) tree scopeRoot
      [patchTo tree scopeRoot (root ++ [x])] role controllerSource =
        some (root, [.write (root ++ [x]) []]) := by
    refine agreed_eq_some.mpr ⟨⟨rfl, rfl⟩, hallowedRoot, ?_⟩
    rw [Broker.planAll, planPatch_patchTo hroot hne hx hfree hdeny]
    rfl
  have hfault : (Plan.write (root ++ [x]) []).fault broker (calmEnv name) root 0 tree = none :=
    writeFault_calm hroot hne hx hfree hname hfree' hdeny
  have hcourse : course broker (calmEnv name) root 0 tree [.write (root ++ [x]) []] =
      (1, none) := by
    rw [course_cons_of_none hfault]
    rfl
  have hhalted := halted_applyPatchSet (T := fun _ => True) hagreed fun _ _ _ _ _ _ _ => trivial
  unfold Halted at hhalted
  rw [hcourse] at hhalted
  obtain ⟨-, htree, -⟩ := hhalted
  -- the file is there now, and so its path is in the record
  have hmem : root ++ [x] ∈ (broker.applyPatchSet (calmEnv name) scopeRoot
      [patchTo tree scopeRoot (root ++ [x])] role controllerSource { tree := tree }).2.touched := by
    by_contra hnot
    rw [applyPatchSet_of_some (w := { tree := tree }) hagreed] at htree hnot
    have hnode := node_of_notMem_touched hnot
    rw [htree, hfree] at hnode
    have hfile := FileTree.node_put_self (f := (⟨[], 0o600⟩ : File))
      (writable_of_free hroot hx hfree)
    cases hnode.symm.trans hfile
  have henv : Fresh broker (calmEnv name) := fun i dp hdp heq =>
    hfresh (List.mem_filterMap.mpr ⟨dp, hdp, heq⟩)
  rcases List.prefix_concat_iff.mp (h (calmEnv name) henv _ controllerSource _ hmem).1 with
    heq | hprefix
  · exact absurd heq hhome
  · exact hprefix

/-- **The broker stays in the scope** exactly if the allowed root does. -/
theorem confined_iff (broker : Broker) (tree : FileTree File) (scopeRoot : PathText) (role : Role) :
    Confined broker tree scopeRoot role ↔ AtHome broker tree scopeRoot role :=
  ⟨atHome_of_confined, confined_of_atHome⟩

end Scope

/-! ### `tests` is a link -/

section Small

/-- The task's own directory has a link to another directory. -/
def linkedTests : FileTree File :=
  .ofEntries [(["other"], .dir), (["scope"], .dir), (["scope", "tests"], .link ["", "other"])]
    (by decide)

theorem not_confined_linkedTests : ¬Confined smallBroker linkedTests ["", "scope"] .qa := by
  intro h
  have hfresh : Fresh smallBroker (calmEnv ".argent-staging-0") := by
    intro i dp hdp
    rw [List.mem_singleton.mp hdp]
    simp [calmEnv]
  have hmem : ["other", "case"] ∈ (smallBroker.applyPatchSet (calmEnv ".argent-staging-0")
      ["", "scope"] [.dict .write (some ["tests", "case"]) (some "")] .qa controllerSource
      { tree := linkedTests }).2.touched := by
    decide
  have hscope := (h _ hfresh _ _ _ hmem).1
  revert hscope
  decide

end Small

end Workspace

end ArgentTeam
