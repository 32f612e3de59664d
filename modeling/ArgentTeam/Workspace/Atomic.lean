import ArgentTeam.Workspace.Course
import ArgentTeam.Workspace.Planned

/-!
# All or nothing

A patch set is meant to take effect as a whole or not at all. What has been applied is undone where
a check of the broker's own has failed, by what could be read before; where anything else has been
raised, nothing is undone. And a file that is to be deleted is looked for when the set is planned,
before the patches in front of it have been applied. So the files are as they are meant to be
exactly where none of this matters (`allOrNothing_iff`).
-/

namespace ArgentTeam

namespace Workspace

/-- Everything below the scope root is in the one tree as it is in the other. -/
def Unchanged (scopeRoot : PathText) (tree tree' : FileTree File) : Prop :=
  ∀ p, tree.realpath (tree.abspath scopeRoot) <+: p → tree'.node p = tree.node p

/-- The last of the changes for each path below the scope root is to what is there already. -/
def Idle (scopeRoot : PathText) (tree : FileTree File)
    (l : List (ℕ × CanonPath × Option File)) : Prop :=
  ∀ pre c post, l = pre ++ c :: post → c.2.1 ∉ post.map (·.2.1) →
    tree.realpath (tree.abspath scopeRoot) <+: c.2.1 → c.2.2 = tree.file? c.2.1

/-- Each file below the scope root could be read before the first of the changes for it. -/
def Recorded (env : Env) (scopeRoot : PathText) (tree : FileTree File)
    (l : List (ℕ × CanonPath × Option File)) : Prop :=
  ∀ pre c post, l = pre ++ c :: post → c.2.1 ∉ pre.map (·.2.1) →
    tree.realpath (tree.abspath scopeRoot) <+: c.2.1 → (tree.file? c.2.1).isSome = true →
      env.fails c.1 .snapshot = false

/-- The last patch for each path takes effect: what it writes is written whole, and where it finds
nothing to delete, nothing has been written in front of it. -/
def Honoured (env : Env) (plans : List Plan) : Prop :=
  ∀ pre plan post, plans = pre ++ plan :: post → plan.target ∉ post.map Plan.target →
    match plan with
    | .write _ content => content.length ≤ env.room pre.length
    | .delete _ => True
    | .skip target => ∀ content, Plan.write target content ∉ pre

section Idle

variable {env : Env} {scopeRoot : PathText} {tree : FileTree File}
  {l : List (ℕ × CanonPath × Option File)} {i : ℕ}

theorem unchanged_setAll_iff (h : ∀ c ∈ l, tree.Slot c.2.1) :
    Unchanged scopeRoot tree (tree.setAll (l.map Prod.snd)) ↔ Idle scopeRoot tree l := by
  have hset : ∀ e ∈ l.map Prod.snd, tree.Settable e := by
    intro e he
    obtain ⟨c, hc, rfl⟩ := List.mem_map.mp he
    exact (h c hc).settable
  constructor
  · rintro hsame pre c post rfl hpost hscope
    refine (FileTree.node_setAll_eq_iff hset).mp (hsame c.2.1 hscope) (pre.map Prod.snd) c.2.2
      (post.map Prod.snd) (by simp) ?_
    rwa [List.map_map]
  · intro hidle p hscope
    refine (FileTree.node_setAll_eq_iff hset).mpr fun pre o post hsplit hpost => ?_
    obtain ⟨pre', rest, rfl, rfl, hrest⟩ := List.map_eq_append_iff.mp hsplit
    obtain ⟨c, post', rfl, hc, rfl⟩ := List.map_eq_cons_iff.mp hrest
    have hlast := hidle pre' c post' rfl
    rw [hc] at hlast
    rw [List.map_map] at hpost
    exact hlast hpost hscope

/-- What `_snapshot` finds before the first change for a path is what was there, if it could be
read. -/
theorem exists_snapshot {plans : List Plan} {pre post : List (ℕ × CanonPath × Option File)}
    {c : ℕ × CanonPath × Option File} (hslots : ∀ c ∈ changes env i plans, tree.Slot c.2.1)
    (hsplit : changes env i plans = pre ++ c :: post) (hpre : c.2.1 ∉ pre.map (·.2.1)) :
    ∃ spre spost, snapshots env i tree plans =
      spre ++ (c.2.1, if env.fails c.1 .snapshot then none else tree.file? c.2.1) :: spost ∧
        c.2.1 ∉ spre.map Prod.fst := by
  induction plans generalizing i tree pre with
  | nil => exact absurd hsplit (by simp [changes])
  | cons plan plans ih =>
    rw [changes] at hsplit hslots
    rw [snapshots]
    cases hchange : plan.change env i with
    | none =>
      rw [hchange] at hsplit hslots
      have hexec : plan.exec env i tree = tree := by
        rw [Plan.exec, hchange]
        rfl
      rw [hexec]
      exact ih hslots hsplit hpre
    | some e =>
      rw [hchange] at hsplit hslots
      have he : tree.Settable e := (hslots (i, e) (by simp)).settable
      have hexec : plan.exec env i tree = tree.set e.1 e.2 := by
        rw [Plan.exec, hchange]
        rfl
      cases pre with
      | nil =>
        cases hsplit
        exact ⟨[], _, rfl, by simp⟩
      | cons c' pre =>
        obtain ⟨rfl, hrest⟩ := List.cons.inj hsplit
        rw [List.map_cons, List.mem_cons, not_or] at hpre
        have hslots' : ∀ c ∈ changes env (i + 1) plans, (plan.exec env i tree).Slot c.2.1 := by
          intro c hc
          rw [hexec, FileTree.slot_set he]
          exact hslots c (List.mem_append_right _ hc)
        obtain ⟨spre, spost, hsnap, hnot⟩ := ih hslots' hrest hpre.2
        rw [hexec, FileTree.file?_set he, if_neg hpre.1] at hsnap
        refine ⟨(e.1, snapshot env i tree e.1) :: spre, spost, ?_, ?_⟩
        · rw [hexec, hsnap]
          rfl
        · rw [List.map_cons, List.mem_cons, not_or]
          exact ⟨hpre.1, hnot⟩

theorem keys_snapshots {plans : List Plan} :
    (snapshots env i tree plans).map Prod.fst = (changes env i plans).map (·.2.1) := by
  induction plans generalizing i tree with
  | nil => rfl
  | cons plan plans ih =>
    rw [snapshots, changes, List.map_append, List.map_append, ih, List.map_map, List.map_map]
    rfl

/-- **Undoing**: changes that are undone leave everything as it was exactly if what was there could
be read. -/
theorem unchanged_undo_iff {plans : List Plan}
    (h : ∀ c ∈ changes env i plans, tree.Slot c.2.1) :
    Unchanged scopeRoot tree
        ((execAll env i plans tree).setAll (snapshots env i tree plans).reverse) ↔
      Recorded env scopeRoot tree (changes env i plans) := by
  rw [execAll, ← FileTree.setAll_append]
  have hslots : ∀ p, p ∈ (changes env i plans).map (·.2.1) → tree.Slot p := by
    intro p hp
    obtain ⟨c, hc, rfl⟩ := List.mem_map.mp hp
    exact h c hc
  have hset : ∀ e ∈ (changes env i plans).map Prod.snd ++ (snapshots env i tree plans).reverse,
      tree.Settable e := by
    intro e he
    refine (hslots e.1 ?_).settable
    rcases List.mem_append.mp he with he | he
    · obtain ⟨c, hc, rfl⟩ := List.mem_map.mp he
      exact List.mem_map_of_mem hc
    · rw [← @keys_snapshots env tree]
      exact List.mem_map_of_mem (List.mem_reverse.mp he)
  -- the first snapshot for a path is what is there in the end
  have hfinal : ∀ pre c post, changes env i plans = pre ++ c :: post →
      c.2.1 ∉ pre.map (·.2.1) → (tree.setAll ((changes env i plans).map Prod.snd ++
        (snapshots env i tree plans).reverse)).node c.2.1 =
          (if env.fails c.1 .snapshot then none else tree.file? c.2.1).map .file := by
    intro pre c post hsplit hpre
    obtain ⟨spre, spost, hsnap, hspre⟩ := exists_snapshot h hsplit hpre
    have hlist : (changes env i plans).map Prod.snd ++ (snapshots env i tree plans).reverse =
        ((changes env i plans).map Prod.snd ++ spost.reverse) ++
          (c.2.1, if env.fails c.1 .snapshot then none else tree.file? c.2.1) :: spre.reverse := by
      rw [hsnap]
      simp
    rw [hlist] at hset ⊢
    refine FileTree.node_setAll hset ?_
    rwa [List.map_reverse, List.mem_reverse]
  constructor
  · intro hsame pre c post hsplit hpre hscope hfile
    have hnode := hsame c.2.1 hscope
    have hclean := (h c (by rw [hsplit]; simp)).2
    rw [hfinal pre c post hsplit hpre, hclean] at hnode
    have hread := FileTree.file_injective hnode
    rw [← Bool.not_eq_true]
    intro hfail
    rw [if_pos hfail] at hread
    rw [← hread] at hfile
    cases hfile
  · intro hrecorded p hscope
    by_cases hp : p ∈ (changes env i plans).map (·.2.1)
    · obtain ⟨pre, c, post, hsplit, rfl, hpre⟩ := exists_first hp
      rw [hfinal pre c post hsplit hpre, (hslots _ hp).2]
      congr 1
      by_cases hfile : (tree.file? c.2.1).isSome = true
      · rw [hrecorded pre c post hsplit hpre hscope hfile]
        rfl
      · rw [Option.not_isSome_iff_eq_none] at hfile
        rw [hfile, ite_self]
    · refine FileTree.node_setAll_of_notMem hset fun hmem => hp ?_
      rw [List.map_append, List.map_reverse, keys_snapshots, List.map_map, List.mem_append,
        List.mem_reverse] at hmem
      exact hmem.elim id id

end Idle

section Honoured

variable {broker : Broker} {env : Env} {root : CanonPath} {i : ℕ} {tree : FileTree File}
  {plans pre post : List Plan} {plan : Plan} {p : CanonPath}

theorem changes_append :
    changes env i (pre ++ plans) = changes env i pre ++ changes env (i + pre.length) plans := by
  induction pre generalizing i with
  | nil => rfl
  | cons plan pre ih =>
    rw [List.cons_append, changes, changes, ih, List.append_assoc, List.length_cons,
      Nat.add_right_comm, Nat.add_assoc]

theorem target_of_change {c : CanonPath × Option File} (h : plan.change env i = some c) :
    c.1 = plan.target := by
  cases plan <;> cases h <;> rfl

theorem exists_of_mem_changes {c : ℕ × CanonPath × Option File} (h : c ∈ changes env i plans) :
    ∃ plan ∈ plans, plan.change env c.1 = some c.2 := by
  induction plans generalizing i with
  | nil => cases h
  | cons plan plans ih =>
    rw [changes, List.mem_append] at h
    rcases h with h | h
    · obtain ⟨e, he, rfl⟩ := List.mem_map.mp h
      exact ⟨plan, List.mem_cons_self, Option.mem_toList.mp he⟩
    · obtain ⟨plan', hmem, hchange⟩ := ih h
      exact ⟨plan', List.mem_cons_of_mem _ hmem, hchange⟩

theorem mem_keys_changes (h : plan ∈ plans) (hskip : ∀ j, plan.change env j ≠ none) :
    plan.target ∈ (changes env i plans).map (·.2.1) := by
  induction plans generalizing i with
  | nil => cases h
  | cons plan' plans ih =>
    rw [changes, List.map_append, List.mem_append]
    rcases List.mem_cons.mp h with rfl | h
    · obtain ⟨e, he⟩ := Option.ne_none_iff_exists'.mp (hskip i)
      refine .inl ?_
      rw [he, ← target_of_change he]
      simp
    · exact .inr (ih h)

theorem notMem_keys_changes (h : p ∉ plans.map Plan.target) :
    p ∉ (changes env i plans).map (·.2.1) := by
  intro hmem
  obtain ⟨c, hc, rfl⟩ := List.mem_map.mp hmem
  obtain ⟨plan, hplan, hchange⟩ := exists_of_mem_changes hc
  exact h (List.mem_map.mpr ⟨plan, hplan, (target_of_change hchange).symm⟩)

/-- The last plan for a path decides what is there, if it makes a change at all. -/
theorem node_execAll (hslots : ∀ c ∈ changes env 0 (pre ++ plan :: post), tree.Slot c.2.1)
    (hpost : plan.target ∉ post.map Plan.target) :
    (execAll env 0 (pre ++ plan :: post) tree).node plan.target =
      match plan.change env pre.length with
      | some e => e.2.map .file
      | none => (execAll env 0 pre tree).node plan.target := by
  have hset : ∀ e ∈ (changes env 0 (pre ++ plan :: post)).map Prod.snd, tree.Settable e := by
    intro e he
    obtain ⟨c, hc, rfl⟩ := List.mem_map.mp he
    exact (hslots c hc).settable
  have hkeys : plan.target ∉
      ((changes env (pre.length + 1) post).map Prod.snd).map Prod.fst := by
    rw [List.map_map]
    exact notMem_keys_changes hpost
  unfold execAll
  rw [changes_append, changes, Nat.zero_add, List.map_append, List.map_append] at hset ⊢
  cases hchange : plan.change env pre.length with
  | some e =>
    rw [hchange] at hset
    have htarget := target_of_change hchange
    obtain ⟨q, o⟩ := e
    subst htarget
    exact FileTree.node_setAll hset hkeys
  | none =>
    rw [hchange] at hset
    rw [FileTree.setAll_append]
    refine FileTree.node_setAll_of_notMem (fun e he => ?_) hkeys
    exact (FileTree.settable_setAll fun e' he' => hset e' (List.mem_append_left _ he')).mpr
      (hset e (List.mem_append_right _ he))

/-- Where there is nothing to delete, there is nothing exactly if nothing has been written. -/
theorem node_execAll_eq_none_iff (hslots : ∀ c ∈ changes env 0 pre, tree.Slot c.2.1)
    (hplanned : ∀ plan ∈ pre, Planned broker tree root plan) (hnone : tree.node p = none) :
    (execAll env 0 pre tree).node p = none ↔ ∀ content, Plan.write p content ∉ pre := by
  have hset : ∀ e ∈ (changes env 0 pre).map Prod.snd, tree.Settable e := by
    intro e he
    obtain ⟨c, hc, rfl⟩ := List.mem_map.mp he
    exact (hslots c hc).settable
  -- what is not there has not been planned to be deleted
  have hwrite : ∀ o, (p, o) ∈ (changes env 0 pre).map Prod.snd →
      o.isSome = true ∧ ∃ content, Plan.write p content ∈ pre := by
    intro o ho
    obtain ⟨c, hc, heq⟩ := List.mem_map.mp ho
    obtain ⟨plan, hplan, hchange⟩ := exists_of_mem_changes hc
    rw [heq] at hchange
    cases plan with
    | write target content =>
      cases hchange
      exact ⟨rfl, content, hplan⟩
    | delete target =>
      cases hchange
      have hfile : (tree.file? p).isSome = true := (hplanned _ hplan).type
      rw [FileTree.file?, hnone] at hfile
      cases hfile
    | skip target => cases hchange
  rw [execAll, ← hnone, FileTree.node_setAll_eq_iff hset]
  constructor
  · intro hlast content hmem
    have hkey : p ∈ ((changes env 0 pre).map Prod.snd).map Prod.fst := by
      have hwritten : (Plan.write p content).target ∈ (changes env 0 pre).map (·.2.1) :=
        mem_keys_changes hmem fun j hskip => by cases hskip
      rwa [List.map_map]
    obtain ⟨l, ⟨q, o⟩, l', hsplit, rfl, hl'⟩ := exists_last hkey
    have hsome := (hwrite o (by rw [hsplit]; simp)).1
    rw [hlast l o l' hsplit hl', FileTree.file?, hnone] at hsome
    cases hsome
  · intro hno l o l' hsplit _
    obtain ⟨-, content, hmem⟩ := hwrite o (by rw [hsplit]; simp)
    exact absurd hmem (hno content)

/-- **What is asked for is what happens** exactly if the last patch for each path takes effect. -/
theorem honoured_iff (hslots : ∀ c ∈ changes env 0 plans, tree.Slot c.2.1)
    (hplanned : ∀ plan ∈ plans, Planned broker tree root plan) :
    (∀ p, (execAll env 0 plans tree).node p = (tree.setAll (plans.map Plan.effect)).node p) ↔
      Honoured env plans := by
  have hset : ∀ e ∈ plans.map Plan.effect, tree.Settable e := by
    intro e he
    obtain ⟨plan, hplan, rfl⟩ := List.mem_map.mp he
    have hslot : (∀ j, plan.change env j ≠ none) → tree.Slot plan.target := by
      intro hskip
      obtain ⟨c, hc, htarget⟩ := List.mem_map.mp (mem_keys_changes (i := 0) hplan hskip)
      exact htarget ▸ hslots c hc
    cases plan with
    | write | delete => exact (hslot nofun).settable
    | skip target => exact FileTree.settable_of_node_none (hplanned _ hplan).type
  have hdecides : ∀ pre plan post, plans = pre ++ plan :: post →
      plan.target ∉ post.map Plan.target →
      ((execAll env 0 plans tree).node plan.target =
          (tree.setAll (plans.map Plan.effect)).node plan.target ↔
        match plan with
        | .write _ content => content.length ≤ env.room pre.length
        | .delete _ => True
        | .skip target => ∀ content, Plan.write target content ∉ pre) := by
    rintro pre plan post rfl hpost
    have hasked : (tree.setAll ((pre ++ plan :: post).map Plan.effect)).node plan.target =
        plan.effect.2.map .file := by
      rw [List.map_append, List.map_cons] at hset ⊢
      have hkeys : plan.effect.1 ∉ (post.map Plan.effect).map Prod.fst := by
        rw [List.map_map]
        simpa using hpost
      rw [← Plan.effect_fst]
      exact FileTree.node_setAll hset hkeys
    rw [node_execAll hslots hpost, hasked]
    cases plan with
    | write | delete => simp [Plan.change, Plan.effect]
    | skip target =>
      refine node_execAll_eq_none_iff (fun c hc => hslots c ?_)
        (fun plan hplan => hplanned plan (List.mem_append_left _ hplan))
        (hplanned (.skip target) (by simp)).type
      rw [changes_append]
      exact List.mem_append_left _ hc
  constructor
  · intro hsame pre plan post hsplit hpost
    exact (hdecides pre plan post hsplit hpost).mp (hsame plan.target)
  · intro hhonoured p
    by_cases hp : p ∈ plans.map Plan.target
    · obtain ⟨pre, plan, post, hsplit, rfl, hpost⟩ := exists_last hp
      exact (hdecides pre plan post hsplit hpost).mpr (hhonoured pre plan post hsplit hpost)
    · have hkeys : p ∉ ((changes env 0 plans).map Prod.snd).map Prod.fst := by
        rw [List.map_map]
        exact notMem_keys_changes hp
      have htargets : p ∉ (plans.map Plan.effect).map Prod.fst := by
        rw [List.map_map]
        simpa using hp
      rw [execAll, FileTree.node_setAll_of_notMem (fun e he => ?_) hkeys,
        FileTree.node_setAll_of_notMem hset htargets]
      obtain ⟨c, hc, rfl⟩ := List.mem_map.mp he
      exact (hslots c hc).settable

end Honoured

/-! ### All or nothing -/

/-- How a call is meant to end: where there are no errors, each patch has taken effect, and
otherwise nothing below the scope root has changed. -/
def Fulfilled (broker : Broker) (tree : FileTree File) (scopeRoot : PathText)
    (patches : List Patch) : Except Stop BrokerResult → World → Prop
  | .ok result, w =>
    if result.errors = [] then
      ∀ p, w.tree.node p =
        (tree.setAll (patches.filterMap (Patch.effect broker tree scopeRoot))).node p
    else Unchanged scopeRoot tree w.tree
  | .error _, w => Unchanged scopeRoot tree w.tree

/-- A patch set takes effect as a whole or not at all. -/
def AllOrNothing (broker : Broker) (env : Env) (tree : FileTree File) (scopeRoot : PathText)
    (patches : List Patch) (role : Role) (source : String) : Prop :=
  Fulfilled broker tree scopeRoot patches
    (broker.applyPatchSet env scopeRoot patches role source { tree := tree }).1
    (broker.applyPatchSet env scopeRoot patches role source { tree := tree }).2

/-- What the plans need, by how far they get. -/
def Sound (broker : Broker) (env : Env) (root : CanonPath) (scopeRoot : PathText)
    (tree : FileTree File) (plans : List Plan) : Prop :=
  match course broker env root 0 tree plans with
  | (_, none) => Honoured env plans
  | (n, some .refused) => Recorded env scopeRoot tree (changes env 0 (plans.take n))
  | (n, some .before) => Idle scopeRoot tree (changes env 0 (plans.take n))
  | (n, some .after) => Idle scopeRoot tree (changes env 0 (plans.take (n + 1)))

/-- The condition for a patch set, if it goes on to be applied. -/
def Recoverable (broker : Broker) (env : Env) (tree : FileTree File) (scopeRoot : PathText)
    (patches : List Patch) (role : Role) (source : String) : Prop :=
  match agreed broker env tree scopeRoot patches role source with
  | none => True
  | some (root, plans) => Sound broker env root scopeRoot tree plans

theorem fulfilled_iff_of_halted {broker : Broker} {env : Env} {root : CanonPath}
    {tree : FileTree File} {scopeRoot : PathText} {patches : List Patch} {plans : List Plan}
    {r : Except Stop BrokerResult} {w : World}
    (heffects : patches.filterMap (Patch.effect broker tree scopeRoot) = plans.map Plan.effect)
    (hplanned : ∀ plan ∈ plans, Planned broker tree root plan)
    (h : Halted broker env root 0 tree plans [] (fun _ => True) r w) :
    Fulfilled broker tree scopeRoot patches r w ↔
      Sound broker env root scopeRoot tree plans := by
  have hslots : ∀ n ≤ effective (course broker env root 0 tree plans),
      ∀ c ∈ changes env 0 (plans.take n), tree.Slot c.2.1 := fun n => slot_of_mem_changes
  unfold Halted at h
  unfold Sound
  rcases hcourse : course broker env root 0 tree plans with ⟨n, fault⟩
  rw [hcourse] at h hslots
  cases fault with
  | none =>
    obtain ⟨⟨result, rfl, hresult⟩, htree, -⟩ := h
    have hall : n = plans.length := by
      have hfst := course_fst (congrArg Prod.snd hcourse)
      rwa [hcourse] at hfst
    rw [Fulfilled, if_pos hresult, htree, heffects, hall, List.take_length]
    refine honoured_iff ?_ hplanned
    have hdone := hslots n le_rfl
    rwa [hall, List.take_length] at hdone
  | some fault =>
    cases fault with
    | refused =>
      obtain ⟨⟨result, rfl, hresult⟩, htree, -⟩ := h
      rw [Fulfilled, if_neg hresult, htree, List.append_nil]
      exact unchanged_undo_iff (hslots n le_rfl)
    | before =>
      obtain ⟨rfl, htree, -⟩ := h
      rw [Fulfilled, htree]
      exact unchanged_setAll_iff (hslots n le_rfl)
    | after =>
      obtain ⟨rfl, htree, -⟩ := h
      rw [Fulfilled, htree]
      exact unchanged_setAll_iff (hslots (n + 1) le_rfl)

/-- **All or nothing**: exactly if what the plans need is there. -/
theorem allOrNothing_iff (broker : Broker) (env : Env) (tree : FileTree File) (scopeRoot : PathText)
    (patches : List Patch) (role : Role) (source : String) :
    AllOrNothing broker env tree scopeRoot patches role source ↔
      Recoverable broker env tree scopeRoot patches role source := by
  unfold AllOrNothing Recoverable
  rcases hagreed : agreed broker env tree scopeRoot patches role source with _ | ⟨root, plans⟩
  · obtain ⟨r, hdeclined, hrun⟩ := applyPatchSet_of_none (w := { tree := tree }) hagreed
    refine iff_of_true ?_ trivial
    rw [hrun]
    cases r with
    | error stop => exact fun p _ => rfl
    | ok result =>
      rw [Fulfilled, if_neg hdeclined]
      exact fun p _ => rfl
  · obtain ⟨heffects, hplanned⟩ := planned_of_planAll (agreed_eq_some.mp hagreed).2.2
    exact fulfilled_iff_of_halted heffects hplanned
      (halted_applyPatchSet hagreed fun _ _ _ _ _ _ _ => trivial)

/-! ### The guard raises between two patches -/

section Small

/-- A directory without a file. -/
def emptyScope : FileTree File := .ofEntries [(["scope"], .dir)] (by decide)

/-- The guard raises before the second patch has any effect. -/
def guardedEnv : Env where
  entry := false
  fails i point := i = 1 ∧ point = .guardBefore
  staging i := ".argent-staging-" ++ toString i
  room _ := 4096

def twoWrites : List Patch :=
  [.dict .write (some ["first"]) (some ""), .dict .write (some ["second"]) (some "")]

theorem first_of_two : ¬AllOrNothing smallBroker guardedEnv emptyScope ["", "scope"] twoWrites
    .implementer controllerSource := by
  intro h
  unfold AllOrNothing at h
  generalize hrun : smallBroker.applyPatchSet guardedEnv ["", "scope"] twoWrites .implementer
    controllerSource { tree := emptyScope } = run at h
  have hraised : run.1.toOption = none := by
    rw [← hrun]
    decide
  have hfile : run.2.tree.node ["scope", "first"] ≠ emptyScope.node ["scope", "first"] := by
    rw [← hrun]
    decide
  obtain ⟨stop | result, w⟩ := run
  · exact hfile (h ["scope", "first"] (by decide))
  · cases hraised

end Small

end Workspace

end ArgentTeam
