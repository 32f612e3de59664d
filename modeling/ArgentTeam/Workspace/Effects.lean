import ArgentTeam.Lib.FileChanges
import ArgentTeam.Lib.Hoare
import ArgentTeam.Workspace.Broker

/-!
# What one patch does

A plan that is applied takes effect, or it is refused by a check of the broker's, or something
raises, before it takes effect or after it. Which of these happens depends on the files as they are
and on what fails around it (`Plan.fault`), and nothing else is left behind: the staging file is
gone in each case (`triple_applyPlan`).
-/

namespace ArgentTeam

namespace Workspace

/-- How the application of a plan fails. -/
inductive Fault
  /-- A `BrokerError`; nothing has happened. -/
  | refused
  /-- Another exception; nothing has happened. -/
  | before
  /-- Another exception, after the plan has taken effect. -/
  | after
  deriving DecidableEq

/-- The change that a plan makes; `os.write` may not write the whole content. -/
def Plan.change (env : Env) (i : ℕ) : Plan → Option (CanonPath × Option File)
  | write target content => some (target, some ⟨content.take (env.room i), 0o600⟩)
  | delete target => some (target, none)
  | skip _ => none

/-- The tree after a plan has taken effect. -/
def Plan.exec (env : Env) (i : ℕ) (plan : Plan) (tree : FileTree File) : FileTree File :=
  tree.setAll (plan.change env i).toList

def Openable (env : Env) (i : ℕ) (tree : FileTree File) (staging : CanonPath) : Prop :=
  tree.node staging = none ∧ env.fails i .openStaging = false ∧ tree.Writable staging

instance (env : Env) (i : ℕ) (tree : FileTree File) (staging : CanonPath) :
    Decidable (Openable env i tree staging) :=
  haveI : Decidable (tree.node staging = none) := decidable_of_iff _ Option.isNone_iff_eq_none
  inferInstanceAs (Decidable (_ ∧ _ ∧ _))

def stagingPath (env : Env) (i : ℕ) (target : CanonPath) : CanonPath :=
  target.dropLast ++ [env.staging i]

/-- A check has raised. -/
def rejects (check : Except Stop Unit) : Bool :=
  match check with
  | .ok _ => false
  | .error _ => true

namespace Broker

variable (broker : Broker) (env : Env)

/-- How `_write_file` fails while the staging file is there. -/
def stageFault (root : CanonPath) (i : ℕ) (target : CanonPath) (tree : FileTree File) :
    Option Fault :=
  if env.fails i .write ∨ env.fails i .guardReplace then some .before
  else if ¬Within root (tree.realpath target.text) ∨
      broker.isDeniedPath (tree.realpath target.text) ∨
      rejects (checkTargetType tree (env.fails i .lstatTarget) target) then
    some .refused
  else if env.fails i .replace ∨ ¬tree.Writable target then some .before
  else none

/-- How `_write_file` fails. -/
def writeFault (root : CanonPath) (i : ℕ) (target : CanonPath) (tree : FileTree File) :
    Option Fault :=
  if ¬Within root (tree.realpath (CanonPath.text target.dropLast)) then some .refused
  else if env.fails i .guardBefore then some .before
  else if ¬Openable env i tree (stagingPath env i target) then some .refused
  else
    match broker.stageFault env root i target tree with
    | some fault => some fault
    | none => if env.fails i .guardAfter ∨ env.fails i .lstatAfter then some .after else none

end Broker

/-- How `_delete_file` fails. -/
def deleteFault (env : Env) (root : CanonPath) (i : ℕ) (target : CanonPath)
    (tree : FileTree File) : Option Fault :=
  if ¬Within root (tree.realpath (CanonPath.text target.dropLast)) ∨
      ¬Within root (tree.realpath target.text) then
    some .refused
  else if env.fails i .lstatDelete then some .before
  else
    match tree.node target with
    | none => some .before
    | some (.file _) =>
      if env.fails i .guardUnlink ∨ env.fails i .unlink then some .before
      else if env.fails i .guardUnlinked then some .after
      else none
    | some _ => some .refused

/-- How the application of a plan fails, if it does. -/
def Plan.fault (broker : Broker) (env : Env) (root : CanonPath) (i : ℕ) (tree : FileTree File) :
    Plan → Option Fault
  | .write target _ => broker.writeFault env root i target tree
  | .delete target => deleteFault env root i target tree
  | .skip _ => none

/-! ### Triples -/

/-- The world has this tree, and what has been touched is of this kind. -/
def At (tree : FileTree File) (T : CanonPath → Prop) (w : World) : Prop :=
  w.tree = tree ∧ ∀ p ∈ w.touched, T p

/-- A plan has ended as its fault says, if it has one. -/
def Ended (fault : Option Fault) (tree tree' : FileTree File) (T : CanonPath → Prop)
    (stop : Option Stop) (w : World) : Prop :=
  match fault with
  | none => stop = none ∧ At tree' T w
  | some .refused => (∃ reason, stop = some (.broker reason)) ∧ At tree T w
  | some .before => stop = some .raised ∧ At tree T w
  | some .after => stop = some .raised ∧ At tree' T w

section Triples

variable {env : Env} {i : ℕ} {tree : FileTree File} {T : CanonPath → Prop}
  {E : Stop → World → Prop} {p : CanonPath} {f : File} {root target : CanonPath} {content : Bytes}

theorem triple_pass {point : Point}
    (hE : env.fails i point → ∀ w, At tree T w → E .raised w) :
    Prog.Triple (At tree T) (env.pass i point)
      (fun _ w => At tree T w ∧ env.fails i point = false) E :=
  Prog.triple_require (fun _ hw hpass => ⟨hw, hpass⟩) fun w hw hfail =>
    hE (Bool.not_eq_false _ ▸ hfail) w hw

theorem triple_liftTree {α : Type} {g : FileTree File → Except Stop α}
    (hE : ∀ stop, g tree = .error stop → ∀ w, At tree T w → E stop w) :
    Prog.Triple (At tree T) (liftTree g) (fun a w => At tree T w ∧ g tree = .ok a) E := by
  intro w hw
  refine ⟨fun a w' h => ?_, fun stop w' h => ?_⟩
  · obtain ⟨hok, rfl⟩ := Prod.mk.inj h
    exact ⟨hw, hw.1 ▸ hok⟩
  · obtain ⟨herror, rfl⟩ := Prod.mk.inj h
    exact hE stop (hw.1 ▸ herror) w hw

theorem triple_putFile (hp : T p) :
    Prog.Triple (At tree T) (putFile p f) (fun _ => At (tree.put p f) T) E :=
  Prog.triple_change fun w hw => ⟨by rw [hw.1], fun q hq => by
    rcases List.mem_cons.mp hq with rfl | hq
    · exact hp
    · exact hw.2 q hq⟩

theorem triple_eraseFile (hp : T p) :
    Prog.Triple (At tree T) (eraseFile p) (fun _ => At (tree.erase p) T) E :=
  Prog.triple_change fun w hw => ⟨by rw [hw.1], fun q hq => by
    rcases List.mem_cons.mp hq with rfl | hq
    · exact hp
    · exact hw.2 q hq⟩

theorem triple_checkWithin {root path : CanonPath}
    (hE : ∀ reason, ¬Within root (tree.realpath path.text) →
      ∀ w, At tree T w → E (.broker reason) w) :
    Prog.Triple (At tree T) (Broker.checkWithin root path)
      (fun _ w => At tree T w ∧ Within root (tree.realpath path.text)) E := by
  refine Prog.Triple.post (triple_liftTree fun stop herror w hw => ?_) fun _ w h => ⟨h.1, ?_⟩
  · split at herror
    · cases herror
    next hnot =>
      cases herror
      exact hE _ hnot w hw
  · have hok := h.2
    split at hok
    next hwithin => exact hwithin
    · cases hok

/-- Nothing is in the way to what is in a directory. -/
theorem blocked_of_isDir {target : CanonPath} (hdir : tree.isDir target.dropLast) :
    blocked tree target = false := by
  refine List.any_eq_false.mpr fun q hq => ?_
  by_cases hqt : q = target
  · simp [hqt]
  · have hprefix := FileTree.prefix_dropLast ((List.mem_inits _ _).mp hq) hqt
    have hnode : tree.isDir q = true := by
      by_cases hqd : q = target.dropLast
      · rw [hqd, hdir]
      · exact FileTree.isDir_iff.mpr (FileTree.node_above
          (by rw [FileTree.isDir_iff.mp hdir]; rfl) hprefix hqd)
    simp [hnode]

variable {fails : Bool}

/-- The type of a target whose directory is there does not depend on the staging file. -/
theorem checkTargetType_put {staging target : CanonPath}
    (hdir : tree.isDir target.dropLast) (hnone : tree.node staging = none)
    (hwritable : tree.Writable staging) (hf : f.setuid = false) :
    checkTargetType (tree.put staging f) fails target = checkTargetType tree fails target := by
  have hdir' : (tree.put staging f).isDir target.dropLast = true := by
    rw [FileTree.isDir_put, hdir]
  unfold checkTargetType
  rw [blocked_of_isDir hdir, blocked_of_isDir hdir']
  by_cases hts : target = staging
  · rw [hts, FileTree.node_put_self hwritable, hnone]
    simp [hf]
  · rw [FileTree.node_put_of_ne hts]

theorem broker_of_checkTargetType {target : CanonPath} {stop : Stop}
    (h : checkTargetType tree fails target = .error stop) : ∃ reason, stop = .broker reason := by
  unfold checkTargetType at h
  split at h
  · cases h
    exact ⟨_, rfl⟩
  · split at h
    · split at h <;> cases h
      exact ⟨_, rfl⟩
    all_goals first | (cases h; exact ⟨_, rfl⟩) | skip
    split at h <;> cases h
    exact ⟨_, rfl⟩

/-- The files are those of a tree with a staging file, and what is done next fails in this way. -/
def Staged (fault : Option Fault) (tree : FileTree File) (staging : CanonPath)
    (T : CanonPath → Prop) (stop : Stop) (w : World) : Prop :=
  (∃ f, At (tree.put staging f) T w) ∧
    ((fault = some .before ∧ stop = .raised) ∨ fault = some .refused ∧ ∃ r, stop = .broker r)

theorem setuid_staging : (File.mk content 0o600).setuid = false := by
  simp [File.setuid]

theorem triple_stage (broker : Broker)
    (hopen : Openable env i tree (stagingPath env i target))
    (hstaging : T (stagingPath env i target))
    (htarget : T target) :
    Prog.Triple (At (tree.put (stagingPath env i target) ⟨[], 0o600⟩) T)
      (broker.stage env root i (stagingPath env i target) target content)
      (fun _ w => broker.stageFault env root i target tree = none ∧
        At ((Plan.write target content).exec env i tree) T w)
      (Staged (broker.stageFault env root i target tree) tree (stagingPath env i target) T) := by
  obtain ⟨hnone, -, hwritable⟩ := hopen
  have hdir : tree.isDir target.dropLast = true := by simpa [stagingPath] using hwritable.2.1
  unfold Broker.stage
  -- what is written and checked while the staging file is there
  refine Prog.Triple.bind (triple_pass fun hfail w hw => ⟨⟨_, hw⟩, .inl ⟨?_, rfl⟩⟩) fun _ =>
    Prog.triple_of_fact fun hwrite => ?_
  · rw [Broker.stageFault, if_pos (.inl hfail)]
  refine Prog.Triple.bind (triple_putFile hstaging) fun _ => ?_
  rw [FileTree.put_put hwritable (FileTree.writable_put.mpr hwritable)]
  refine Prog.Triple.bind (triple_pass fun hfail w hw => ⟨⟨_, hw⟩, .inl ⟨?_, rfl⟩⟩) fun _ =>
    Prog.triple_of_fact fun hguard => ?_
  · rw [Broker.stageFault, if_pos (.inr hfail)]
  have hcalm : ¬(env.fails i .write = true ∨ env.fails i .guardReplace = true) := by
    simp [hwrite, hguard]
  refine Prog.Triple.bind (triple_checkWithin fun reason hnot w hw =>
    ⟨⟨_, hw⟩, .inr ⟨?_, _, rfl⟩⟩) fun _ => Prog.triple_of_fact fun hwithin => ?_
  · rw [FileTree.realpath_put] at hnot
    rw [Broker.stageFault, if_neg hcalm, if_pos (.inl hnot)]
  refine Prog.Triple.bind (triple_liftTree fun stop herror w hw => ?_) fun _ =>
    Prog.triple_of_fact fun hdeny => ?_
  · rw [FileTree.realpath_put] at herror
    split at herror
    next hdenied =>
      cases herror
      refine ⟨⟨_, hw⟩, .inr ⟨?_, _, rfl⟩⟩
      rw [Broker.stageFault, if_neg hcalm, if_pos (.inr (.inl hdenied))]
    · cases herror
  refine Prog.Triple.bind (triple_liftTree fun stop herror w hw => ?_) fun _ =>
    Prog.triple_of_fact fun htype => ?_
  · rw [checkTargetType_put hdir hnone hwritable setuid_staging] at herror
    refine ⟨⟨_, hw⟩, .inr ⟨?_, broker_of_checkTargetType herror⟩⟩
    rw [Broker.stageFault, if_neg hcalm, if_pos (.inr (.inr (by rw [herror]; rfl)))]
  rw [FileTree.realpath_put] at hwithin hdeny
  rw [checkTargetType_put hdir hnone hwritable setuid_staging] at htype
  have haccept : ¬(¬Within root (tree.realpath target.text) ∨
      broker.isDeniedPath (tree.realpath target.text) ∨
      rejects (checkTargetType tree (env.fails i .lstatTarget) target)) := by
    rintro (hnot | hdenied | hreject)
    · exact hnot hwithin
    · rw [if_pos hdenied] at hdeny
      cases hdeny
    · rw [htype] at hreject
      cases hreject
  -- the staging file takes the place of the target
  unfold replaceFile
  refine Prog.Triple.bind (triple_pass fun hfail w hw => ⟨⟨_, hw⟩, .inl ⟨?_, rfl⟩⟩) fun _ =>
    Prog.triple_of_fact fun hreplace => ?_
  · rw [Broker.stageFault, if_neg hcalm, if_neg haccept, if_pos (.inl hfail)]
  refine Prog.Triple.bind (triple_liftTree fun stop herror w hw => ?_) fun _ =>
    Prog.triple_of_fact fun hput => ?_
  · split at herror
    · cases herror
    next hnot =>
      cases herror
      rw [FileTree.writable_put] at hnot
      refine ⟨⟨_, hw⟩, .inl ⟨?_, rfl⟩⟩
      rw [Broker.stageFault, if_neg hcalm, if_neg haccept, if_pos (.inr hnot)]
  have htargetw : tree.Writable target := by
    by_contra hnot
    rw [if_neg (mt FileTree.writable_put.mp hnot)] at hput
    cases hput
  refine Prog.Triple.bind (triple_eraseFile hstaging) fun _ => ?_
  rw [FileTree.erase_put hwritable hnone]
  refine (triple_putFile htarget).post fun _ w hw => ⟨?_, hw⟩
  rw [Broker.stageFault, if_neg hcalm, if_neg haccept, if_neg (by simp [hreplace, htargetw])]

/-- What a plan touches: its target and its staging file, in a directory within the root. -/
def Reaches (env : Env) (root : CanonPath) (i : ℕ) (tree : FileTree File) (target p : CanonPath) :
    Prop :=
  Within root (tree.realpath (CanonPath.text target.dropLast)) ∧ tree.isDir target.dropLast = true ∧
    (p = target ∨ p = stagingPath env i target)

theorem triple_openStaging {staging : CanonPath} (hT : Openable env i tree staging → T staging) :
    Prog.Triple (At tree T) (openStaging env i staging)
      (fun _ w => At (tree.put staging ⟨[], 0o600⟩) T w ∧ Openable env i tree staging)
      (fun stop w => At tree T w ∧ ¬Openable env i tree staging ∧ ∃ r, stop = .broker r) := by
  unfold openStaging
  refine Prog.Triple.bind (triple_liftTree fun stop herror w hw => ⟨hw, ?_⟩) fun _ =>
    Prog.triple_of_fact fun hok => ?_
  · split at herror
    next hsome =>
      cases herror
      refine ⟨fun hopen => ?_, _, rfl⟩
      rw [hopen.1] at hsome
      cases hsome
    · split at herror
      next hfail =>
        cases herror
        refine ⟨fun hopen => ?_, _, rfl⟩
        rcases hfail with hfail | hnot
        · rw [hopen.2.1] at hfail
          cases hfail
        · exact hnot hopen.2.2
      · cases herror
  · have hopen : Openable env i tree staging := by
      split at hok
      · cases hok
      next hnone =>
        split at hok
        · cases hok
        next hcalm =>
          rw [not_or, Bool.not_eq_true, not_not] at hcalm
          exact ⟨Option.not_isSome_iff_eq_none.mp hnone, hcalm⟩
    exact (triple_putFile (hT hopen)).post fun _ w hw => ⟨hw, hopen⟩

theorem triple_writeFile (broker : Broker)
    (hT : ∀ p, Reaches env root i tree target p → T p) :
    Prog.Triple (At tree T) (broker.writeFile env root i target content)
      (fun _ => Ended (broker.writeFault env root i target tree) tree
        ((Plan.write target content).exec env i tree) T none)
      (fun stop => Ended (broker.writeFault env root i target tree) tree
        ((Plan.write target content).exec env i tree) T (some stop)) := by
  unfold Broker.writeFile
  refine Prog.Triple.bind (triple_checkWithin fun reason hnot w hw => ?_) fun _ =>
    Prog.triple_of_fact fun hwithin => ?_
  · rw [Broker.writeFault, if_pos hnot]
    exact ⟨⟨_, rfl⟩, hw⟩
  refine Prog.Triple.bind (triple_pass fun hfail w hw => ?_) fun _ =>
    Prog.triple_of_fact fun hguard => ?_
  · rw [Broker.writeFault, if_neg (not_not_intro hwithin), if_pos hfail]
    exact ⟨rfl, hw⟩
  have hstart : ¬(env.fails i .guardBefore = true) := by simp [hguard]
  have hT' : Openable env i tree (stagingPath env i target) →
      T target ∧ T (stagingPath env i target) := by
    intro hopen
    have hdir : tree.isDir target.dropLast = true := by simpa [stagingPath] using hopen.2.2.2.1
    exact ⟨hT _ ⟨hwithin, hdir, .inl rfl⟩, hT _ ⟨hwithin, hdir, .inr rfl⟩⟩
  refine Prog.Triple.bind ((triple_openStaging fun hopen => (hT' hopen).2).conseq
    (fun _ => id) (fun _ _ => id) fun stop w h => ?_) fun _ => Prog.triple_of_fact fun hopen => ?_
  · obtain ⟨hw, hnot, reason, rfl⟩ := h
    rw [Broker.writeFault, if_neg (not_not_intro hwithin), if_neg hstart, if_pos hnot]
    exact ⟨⟨_, rfl⟩, hw⟩
  have hfault : broker.writeFault env root i target tree =
      match broker.stageFault env root i target tree with
      | some fault => some fault
      | none =>
        if env.fails i .guardAfter ∨ env.fails i .lstatAfter then some .after else none := by
    rw [Broker.writeFault, if_neg (not_not_intro hwithin), if_neg hstart,
      if_neg (not_not_intro hopen)]
  -- the staging file is removed if it has not been used
  refine Prog.Triple.bind (Prog.triple_rescue
    (triple_stage broker hopen (hT' hopen).2 (hT' hopen).1) fun stop => ?_) fun _ => ?_
  · intro w hw
    obtain ⟨⟨f, hw⟩, hstop⟩ := hw
    refine (Prog.Triple.bind (triple_eraseFile (hT' hopen).2) fun _ =>
      Prog.triple_raise fun w' hw' => ?_) w hw
    rw [FileTree.erase_put hopen.2.2 hopen.1] at hw'
    rcases hstop with ⟨hstage, rfl⟩ | ⟨hstage, reason, rfl⟩
    · rw [hfault, hstage]
      exact ⟨rfl, hw'⟩
    · rw [hfault, hstage]
      exact ⟨⟨_, rfl⟩, hw'⟩
  · refine Prog.Triple.pre (Prog.triple_of_fact fun hstage => ?_) fun w h => ⟨h.2, h.1⟩
    rw [hfault, hstage]
    refine Prog.Triple.bind (triple_pass fun hfail w hw => ?_) fun _ =>
      Prog.triple_of_fact fun hafter => ?_
    · rw [if_pos (.inl hfail)]
      exact ⟨rfl, hw⟩
    refine (triple_pass fun hfail w hw => ?_).post fun _ w hw => ?_
    · rw [if_pos (.inr hfail)]
      exact ⟨rfl, hw⟩
    · rw [if_neg (by simp [hafter, hw.2])]
      exact ⟨rfl, hw.1⟩

theorem triple_deleteFile
    (hT : ∀ p, Reaches env root i tree target p → T p) :
    Prog.Triple (At tree T) (Broker.deleteFile env root i target)
      (fun _ => Ended (deleteFault env root i target tree) tree
        ((Plan.delete target).exec env i tree) T none)
      (fun stop => Ended (deleteFault env root i target tree) tree
        ((Plan.delete target).exec env i tree) T (some stop)) := by
  unfold Broker.deleteFile
  refine Prog.Triple.bind (triple_checkWithin fun reason hnot w hw => ?_) fun _ =>
    Prog.triple_of_fact fun hparent => ?_
  · rw [deleteFault, if_pos (.inl hnot)]
    exact ⟨⟨_, rfl⟩, hw⟩
  refine Prog.Triple.bind (triple_checkWithin fun reason hnot w hw => ?_) fun _ =>
    Prog.triple_of_fact fun hwithin => ?_
  · rw [deleteFault, if_pos (.inr hnot)]
    exact ⟨⟨_, rfl⟩, hw⟩
  have hroot : ¬(¬Within root (tree.realpath (CanonPath.text target.dropLast)) ∨
      ¬Within root (tree.realpath target.text)) := by
    simp [hparent, hwithin]
  refine Prog.Triple.bind (triple_pass fun hfail w hw => ?_) fun _ =>
    Prog.triple_of_fact fun hlstat => ?_
  · rw [deleteFault, if_neg hroot, if_pos hfail]
    exact ⟨rfl, hw⟩
  have hseen : ¬(env.fails i .lstatDelete = true) := by simp [hlstat]
  refine Prog.Triple.bind (triple_liftTree fun stop herror w hw => ?_) fun _ =>
    Prog.triple_of_fact fun hok => ?_
  · split at herror
    next hnode =>
      cases herror
      rw [deleteFault, if_neg hroot, if_neg hseen, hnode]
      exact ⟨rfl, hw⟩
    · cases herror
    next node hnofile hnode =>
      cases herror
      rw [deleteFault, if_neg hroot, if_neg hseen, hnode]
      cases node with
      | file f => exact (hnofile f rfl).elim
      | dir | special | link => exact ⟨⟨_, rfl⟩, hw⟩
  obtain ⟨f, hf⟩ : ∃ f, tree.node target = some (.file f) := by
    split at hok
    · cases hok
    next f hnode => exact ⟨f, hnode⟩
    · cases hok
  have hfault : deleteFault env root i target tree =
      if env.fails i .guardUnlink ∨ env.fails i .unlink then some .before
      else if env.fails i .guardUnlinked then some .after
      else none := by
    rw [deleteFault, if_neg hroot, if_neg hseen, hf]
  have hfile : (tree.file? target).isSome = true := by
    rw [FileTree.file?_eq_some.mpr hf]
    rfl
  have htarget : T target :=
    hT _ ⟨hparent, (FileTree.writable_of_file? hfile).2.1, .inl rfl⟩
  rw [hfault]
  refine Prog.Triple.bind (triple_pass fun hfail w hw => ?_) fun _ =>
    Prog.triple_of_fact fun hguard => ?_
  · rw [if_pos (.inl hfail)]
    exact ⟨rfl, hw⟩
  refine Prog.Triple.bind (triple_pass fun hfail w hw => ?_) fun _ =>
    Prog.triple_of_fact fun hunlink => ?_
  · rw [if_pos (.inr hfail)]
    exact ⟨rfl, hw⟩
  refine Prog.Triple.bind (triple_eraseFile htarget) fun _ => ?_
  rw [if_neg (by simp [hguard, hunlink])]
  refine (triple_pass fun hfail w hw => ?_).post fun _ w hw => ?_
  · rw [if_pos hfail]
    exact ⟨rfl, hw⟩
  · rw [if_neg (by simp [hw.2])]
    exact ⟨rfl, hw.1⟩

/-- **What one plan does.** -/
theorem triple_applyPlan (broker : Broker) {root : CanonPath} {plan : Plan}
    (hT : ∀ p, Reaches env root i tree plan.target p → T p) :
    Prog.Triple (At tree T) (broker.applyPlan env root i plan)
      (fun _ => Ended (plan.fault broker env root i tree) tree (plan.exec env i tree) T none)
      (fun stop =>
        Ended (plan.fault broker env root i tree) tree (plan.exec env i tree) T (some stop)) := by
  cases plan with
  | write target content => exact triple_writeFile broker hT
  | delete target => exact triple_deleteFile hT
  | skip target => exact Prog.triple_pure fun w hw => ⟨rfl, hw⟩

end Triples

/-! ### What takes effect -/

section Slots

variable {broker : Broker} {env : Env} {root target : CanonPath} {i : ℕ} {tree : FileTree File}
  {plan : Plan}

/-- The fault of a plan that has taken effect. -/
def Effective (fault : Option Fault) : Prop := fault = none ∨ fault = some .after

theorem passed_of_writeFault (h : Effective (broker.writeFault env root i target tree)) :
    Within root (tree.realpath (CanonPath.text target.dropLast)) ∧
      broker.stageFault env root i target tree = none := by
  unfold Broker.writeFault at h
  split at h
  · simp [Effective] at h
  next hwithin =>
    split at h
    · simp [Effective] at h
    · split at h
      · simp [Effective] at h
      · split at h
        next fault hstage =>
          refine ⟨not_not.mp hwithin, ?_⟩
          -- nothing that fails while the staging file is there fails afterwards
          unfold Broker.stageFault at hstage ⊢
          split at hstage
          · cases hstage
            simp [Effective] at h
          · split at hstage
            · cases hstage
              simp [Effective] at h
            · split at hstage
              · cases hstage
                simp [Effective] at h
              · cases hstage
        next hstage => exact ⟨not_not.mp hwithin, hstage⟩

theorem accepted_of_stageFault (h : broker.stageFault env root i target tree = none) :
    checkTargetType tree (env.fails i .lstatTarget) target = .ok () ∧ tree.Writable target := by
  unfold Broker.stageFault at h
  split at h
  · cases h
  · split at h
    · cases h
    next haccept =>
      split at h
      · cases h
      next hcalm =>
        rw [not_or, not_or] at haccept
        rw [not_or, not_not] at hcalm
        refine ⟨?_, hcalm.2⟩
        cases hcheck : checkTargetType tree (env.fails i .lstatTarget) target with
        | error stop => exact absurd (by rw [hcheck]; rfl) haccept.2.2
        | ok _ => rfl

theorem slot_of_checkTargetType (h : checkTargetType tree fails target = .ok ())
    (hwritable : tree.Writable target) : tree.Slot target := by
  unfold checkTargetType at h
  split at h
  · cases h
  · split at h
    next hnode => exact FileTree.slot_of_node_none hwritable hnode
    · cases h
    · cases h
    · cases h
    next f hnode =>
      refine FileTree.slot_of_file? ?_
      rw [FileTree.file?_eq_some.mpr hnode]
      rfl

theorem passed_of_deleteFault (h : Effective (deleteFault env root i target tree)) :
    Within root (tree.realpath (CanonPath.text target.dropLast)) ∧
      (tree.file? target).isSome := by
  unfold deleteFault at h
  split at h
  · simp [Effective] at h
  next hroot =>
    rw [not_or, not_not, not_not] at hroot
    split at h
    · simp [Effective] at h
    · split at h
      · simp [Effective] at h
      next f hnode =>
        refine ⟨hroot.1, ?_⟩
        rw [FileTree.file?_eq_some.mpr hnode]
        rfl
      · simp [Effective] at h

/-- **What takes effect** does so at the target, where files can come and go, in a directory within
the root. -/
theorem slot_of_fault (h : Effective (plan.fault broker env root i tree))
    {c : CanonPath × Option File} (hc : plan.change env i = some c) :
    tree.Slot c.1 ∧ Reaches env root i tree plan.target c.1 := by
  cases plan with
  | skip target => cases hc
  | write target content =>
    cases hc
    obtain ⟨hwithin, hstage⟩ := passed_of_writeFault h
    obtain ⟨hcheck, hwritable⟩ := accepted_of_stageFault hstage
    exact ⟨slot_of_checkTargetType hcheck hwritable, hwithin, hwritable.2.1, .inl rfl⟩
  | delete target =>
    cases hc
    obtain ⟨hwithin, hfile⟩ := passed_of_deleteFault h
    have hslot := FileTree.slot_of_file? hfile
    exact ⟨hslot, hwithin, hslot.1.2.1, .inl rfl⟩

end Slots

end Workspace

end ArgentTeam
