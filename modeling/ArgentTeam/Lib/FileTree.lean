import Mathlib.Data.Set.Finite.Basic

/-!
# File trees with symbolic links

Paths as a Python program on a POSIX system handles them, and the trees of files they lead into.
A path as it is written is the list of its components, split at the separators; a path from the
root that names no link is a list of names. `FileTree.realpath` takes the one to the other: it
goes through the components and follows each link it meets, but a link that it is following
already, or a name that is not there, is appended as it stands.

What is there is in a directory that is there: a tree carries this as a field, and writing and
removing files keep it. Hence a path to something meets no link on its way, and a call to the
system with such a path acts on what the tree has there. Files do not lead anywhere, and so
`FileTree.realpath` does not depend on them (`FileTree.realpath_put`).
-/

/-- A path from the root, name by name. -/
abbrev CanonPath := List String

/-- A path as it is written, split at its separators. -/
abbrev PathText := List String

/-- A component that names something. -/
def IsName (n : String) : Prop := n ≠ "" ∧ n ≠ "." ∧ n ≠ ".."

instance (n : String) : Decidable (IsName n) := inferInstanceAs (Decidable (_ ∧ _ ∧ _))

namespace PathText

def isAbs : PathText → Bool
  | "" :: _ :: _ => true
  | _ => false

def join (a b : PathText) : PathText :=
  if b.isAbs then b else if a.getLast? = some "" then a.dropLast ++ b else a ++ b

/-- One component, in `os.path.normpath`. -/
def push (absolute : Bool) (names : List String) (part : String) : List String :=
  if part = "" ∨ part = "." then names
  else if part ≠ ".." ∨ (absolute = false ∧ names = []) ∨ names.getLast? = some ".." then
    names ++ [part]
  else names.dropLast

/-- `os.path.normpath`; two slashes at the beginning count as one. -/
def normpath (p : PathText) : PathText :=
  let names := p.foldl (push p.isAbs) []
  if p.isAbs then if names = [] then ["", ""] else "" :: names
  else if names = [] then ["."] else names

def basename (p : PathText) : String := p.getLast?.getD ""

/-- `os.path.dirname`; the directory of a name is the current one. -/
def dirname (p : PathText) : PathText :=
  if p.isAbs ∧ p.length = 2 then ["", ""] else p.dropLast

end PathText

/-- A path from the root, as it is written. -/
def CanonPath.text (p : CanonPath) : PathText := if p = [] then ["", ""] else "" :: p

/-- `_within`: the path is the root, or it goes on with a separator; nothing goes on from `/`. -/
def Within (root path : CanonPath) : Prop := path = root ∨ root ≠ [] ∧ root <+: path

instance (root path : CanonPath) : Decidable (Within root path) :=
  inferInstanceAs (Decidable (_ ∨ _ ∧ _))

theorem Within.isPrefix {root path : CanonPath} (h : Within root path) : root <+: path := by
  rcases h with rfl | ⟨-, h⟩
  · exact List.prefix_rfl
  · exact h

theorem Within.trans {a b c : CanonPath} (h : Within a b) (h' : Within b c) : Within a c := by
  rcases h with rfl | ⟨hne, hab⟩
  · exact h'
  · exact .inr ⟨hne, hab.trans h'.isPrefix⟩

theorem within_append {a b : CanonPath} (ha : a ≠ []) : Within a (a ++ b) :=
  .inr ⟨ha, List.prefix_append a b⟩

/-! ### Trees -/

/-- What a path leads to; `ρ` is what reading it gives. -/
inductive FileNode (ρ : Type)
  | dir
  | file (f : ρ)
  /-- A pipe, a socket or a device. -/
  | special (f : ρ)
  | link (target : PathText)
  deriving DecidableEq

/-- A tree of files. -/
@[ext]
structure FileTree (ρ : Type) where
  node : CanonPath → Option (FileNode ρ)
  cwd : CanonPath
  links : List CanonPath
  root : node [] = some .dir
  closed : ∀ p, p ≠ [] → (node p).isSome = true → node p.dropLast = some .dir
  names : ∀ p, (node p).isSome = true → ∀ n ∈ p, IsName n
  linked : ∀ p target, node p = some (.link target) → p ∈ links
  cwd_dir : node cwd = some .dir
  finite : {p | (node p).isSome = true}.Finite

namespace FileTree

variable {ρ : Type} (t : FileTree ρ)

def target? (p : CanonPath) : Option PathText :=
  match t.node p with
  | some (.link target) => some target
  | _ => none

/-- A path leads to a directory. -/
def isDir (p : CanonPath) : Bool :=
  match t.node p with
  | some .dir => true
  | _ => false

/-- A file is there, or nothing is and a file can be created. -/
def Writable (p : CanonPath) : Prop :=
  p ≠ [] ∧ t.isDir p.dropLast = true ∧ (∀ n ∈ p, IsName n) ∧ t.isDir p = false ∧
    t.target? p = none

instance (p : CanonPath) : Decidable (t.Writable p) :=
  inferInstanceAs (Decidable (_ ∧ _ ∧ _ ∧ _ ∧ _))

variable {t} {p q : CanonPath} {f g : ρ}

theorem isDir_iff : t.isDir p ↔ t.node p = some .dir := by
  unfold isDir
  split <;> simp_all

theorem not_isDir_iff : t.isDir p = false ↔ t.node p ≠ some .dir := by
  rw [Bool.eq_false_iff, Ne, isDir_iff]

theorem dropLast_ne (hp : p ≠ []) : p.dropLast ≠ p := by
  intro h
  have hlength := congrArg List.length h
  rw [List.length_dropLast] at hlength
  have hpos := List.length_pos_iff.mpr hp
  omega

theorem prefix_dropLast (h : q <+: p) (hne : q ≠ p) : q <+: p.dropLast := by
  have hp : p ≠ [] := by
    rintro rfl
    exact hne (List.prefix_nil.mp h)
  rw [← List.dropLast_append_getLast hp] at h
  rcases List.prefix_concat_iff.mp h with heq | h
  · exact absurd (heq.trans (List.dropLast_append_getLast hp)) hne
  · exact h

/-- On the way to what is there, there are directories. -/
theorem node_above (hp : (t.node p).isSome) (hq : q <+: p) (hne : q ≠ p) :
    t.node q = some .dir := by
  induction p using List.reverseRecOn with
  | nil => exact absurd (List.prefix_nil.mp hq) hne
  | append_singleton p n ih =>
    have hdir : t.node p = some .dir := by
      simpa using t.closed (p ++ [n]) (by simp) hp
    rcases List.prefix_concat_iff.mp hq with rfl | hq
    · exact absurd rfl hne
    · by_cases hqp : q = p
      · rw [hqp, hdir]
      · exact ih (by rw [hdir]; rfl) hq hqp

/-! ### Writing and removing files -/

def write (t : FileTree ρ) (p : CanonPath) (f : ρ) (h : t.Writable p) : FileTree ρ where
  node := Function.update t.node p (some (.file f))
  cwd := t.cwd
  links := t.links
  root := by
    rw [Function.update_of_ne h.1.symm]
    exact t.root
  closed := by
    intro q hq hsome
    by_cases hqp : q = p
    · rw [hqp, Function.update_of_ne (dropLast_ne h.1)]
      exact (isDir_iff).mp h.2.1
    · rw [Function.update_of_ne hqp] at hsome
      have hdir := t.closed q hq hsome
      have hne : q.dropLast ≠ p := by
        rintro rfl
        exact (not_isDir_iff).mp h.2.2.2.1 hdir
      rwa [Function.update_of_ne hne]
  names := by
    intro q hsome
    by_cases hqp : q = p
    · rw [hqp]
      exact h.2.2.1
    · rw [Function.update_of_ne hqp] at hsome
      exact t.names q hsome
  linked := by
    intro q target hlink
    by_cases hqp : q = p
    · rw [hqp, Function.update_self] at hlink
      cases hlink
    · rw [Function.update_of_ne hqp] at hlink
      exact t.linked q target hlink
  cwd_dir := by
    have hne : t.cwd ≠ p := by
      rintro rfl
      exact (not_isDir_iff).mp h.2.2.2.1 t.cwd_dir
    rw [Function.update_of_ne hne]
    exact t.cwd_dir
  finite := by
    refine (t.finite.insert p).subset fun q hsome => ?_
    by_cases hqp : q = p
    · exact Or.inl hqp
    · rw [Set.mem_ofPred_eq, Function.update_of_ne hqp] at hsome
      exact Or.inr hsome

/-- The tree without the file at a path. -/
def remove (t : FileTree ρ) (p : CanonPath) (h : ∃ f, t.node p = some (.file f)) : FileTree ρ where
  node := Function.update t.node p none
  cwd := t.cwd
  links := t.links
  root := by
    have hne : [] ≠ p := by
      rintro rfl
      obtain ⟨f, hf⟩ := h
      rw [t.root] at hf
      cases hf
    rw [Function.update_of_ne hne]
    exact t.root
  closed := by
    obtain ⟨f, hf⟩ := h
    intro q hq hsome
    by_cases hqp : q = p
    · rw [hqp, Function.update_self] at hsome
      cases hsome
    · rw [Function.update_of_ne hqp] at hsome
      have hdir := t.closed q hq hsome
      have hne : q.dropLast ≠ p := by
        rintro rfl
        rw [hf] at hdir
        cases hdir
      rwa [Function.update_of_ne hne]
  names := by
    intro q hsome
    by_cases hqp : q = p
    · rw [hqp, Function.update_self] at hsome
      cases hsome
    · rw [Function.update_of_ne hqp] at hsome
      exact t.names q hsome
  linked := by
    intro q target hlink
    by_cases hqp : q = p
    · rw [hqp, Function.update_self] at hlink
      cases hlink
    · rw [Function.update_of_ne hqp] at hlink
      exact t.linked q target hlink
  cwd_dir := by
    obtain ⟨f, hf⟩ := h
    have hne : t.cwd ≠ p := by
      rintro rfl
      rw [t.cwd_dir] at hf
      cases hf
    rw [Function.update_of_ne hne]
    exact t.cwd_dir
  finite := by
    refine t.finite.subset fun q hsome => ?_
    by_cases hqp : q = p
    · rw [Set.mem_ofPred_eq, hqp, Function.update_self] at hsome
      cases hsome
    · rwa [Set.mem_ofPred_eq, Function.update_of_ne hqp] at hsome

/-- Put a file at a path, if it can be written. -/
def put (t : FileTree ρ) (p : CanonPath) (f : ρ) : FileTree ρ :=
  if h : t.Writable p then t.write p f h else t

def file? (t : FileTree ρ) (p : CanonPath) : Option ρ :=
  match t.node p with
  | some (.file f) => some f
  | _ => none

theorem file?_eq_some : t.file? p = some f ↔ t.node p = some (.file f) := by
  unfold file?
  split <;> simp_all

/-- Remove the file at a path, if there is one. -/
def erase (t : FileTree ρ) (p : CanonPath) : FileTree ρ :=
  if h : (t.file? p).isSome = true then
    t.remove p ((Option.isSome_iff_exists.mp h).imp fun _ => file?_eq_some.mp)
  else t

section Put

theorem node_put (h : t.Writable p) :
    (t.put p f).node q = if q = p then some (.file f) else t.node q := by
  rw [put, dif_pos h]
  exact Function.update_apply _ _ _ _

theorem node_put_self (h : t.Writable p) : (t.put p f).node p = some (.file f) := by
  rw [node_put h, if_pos rfl]

theorem node_put_of_ne (hne : q ≠ p) : (t.put p f).node q = t.node q := by
  by_cases h : t.Writable p
  · rw [node_put h, if_neg hne]
  · rw [put, dif_neg h]

theorem node_erase (h : (t.file? p).isSome) :
    (t.erase p).node q = if q = p then none else t.node q := by
  rw [erase, dif_pos h]
  exact Function.update_apply _ _ _ _

theorem node_erase_of_ne (hne : q ≠ p) : (t.erase p).node q = t.node q := by
  by_cases h : (t.file? p).isSome = true
  · rw [node_erase h, if_neg hne]
  · rw [erase, dif_neg h]

@[simp]
theorem cwd_put : (t.put p f).cwd = t.cwd := by
  unfold put
  split <;> rfl

@[simp]
theorem links_put : (t.put p f).links = t.links := by
  unfold put
  split <;> rfl

@[simp]
theorem cwd_erase : (t.erase p).cwd = t.cwd := by
  unfold erase
  split <;> rfl

@[simp]
theorem links_erase : (t.erase p).links = t.links := by
  unfold erase
  split <;> rfl

@[simp]
theorem target?_put : (t.put p f).target? q = t.target? q := by
  by_cases h : t.Writable p
  · rw [target?, node_put h]
    by_cases hq : q = p
    · rw [if_pos hq, hq, h.2.2.2.2]
    · rw [if_neg hq, target?]
  · rw [put, dif_neg h]

theorem target?_of_file? (h : (t.file? p).isSome) : t.target? p = none := by
  obtain ⟨f, hf⟩ := Option.isSome_iff_exists.mp h
  rw [target?, file?_eq_some.mp hf]

@[simp]
theorem target?_erase : (t.erase p).target? q = t.target? q := by
  by_cases h : (t.file? p).isSome = true
  · rw [target?, node_erase h]
    by_cases hq : q = p
    · rw [if_pos hq, hq, target?_of_file? h]
    · rw [if_neg hq, target?]
  · rw [erase, dif_neg h]

@[simp]
theorem isDir_put : (t.put p f).isDir q = t.isDir q := by
  by_cases h : t.Writable p
  · rw [isDir, node_put h]
    by_cases hq : q = p
    · rw [if_pos hq, hq, h.2.2.2.1]
    · rw [if_neg hq, isDir]
  · rw [put, dif_neg h]

theorem isDir_of_file? (h : (t.file? p).isSome) : t.isDir p = false := by
  obtain ⟨f, hf⟩ := Option.isSome_iff_exists.mp h
  rw [isDir, file?_eq_some.mp hf]

@[simp]
theorem isDir_erase : (t.erase p).isDir q = t.isDir q := by
  by_cases h : (t.file? p).isSome = true
  · rw [isDir, node_erase h]
    by_cases hq : q = p
    · rw [if_pos hq, hq, isDir_of_file? h]
    · rw [if_neg hq, isDir]
  · rw [erase, dif_neg h]

@[simp]
theorem writable_put : (t.put p f).Writable q ↔ t.Writable q := by
  simp only [Writable, isDir_put, target?_put]

theorem Writable.file?_put (h : t.Writable p) : (t.put p f).file? p = some f :=
  file?_eq_some.mpr (node_put_self h)

theorem erase_put (h : t.Writable p) (hnone : t.node p = none) : (t.put p f).erase p = t := by
  refine FileTree.ext ?_ (by simp) (by simp)
  funext q
  rw [node_erase (by rw [h.file?_put]; rfl), node_put h]
  by_cases hq : q = p
  · rw [if_pos hq, hq, hnone]
  · rw [if_neg hq, if_neg hq]

theorem put_put (h : t.Writable p) (h' : (t.put p f).Writable p) :
    (t.put p f).put p g = t.put p g := by
  refine FileTree.ext ?_ (by simp) (by simp)
  funext q
  rw [node_put h', node_put h, node_put h]
  split <;> rfl

theorem writable_of_file? (h : (t.file? p).isSome) : t.Writable p := by
  obtain ⟨f, hf⟩ := Option.isSome_iff_exists.mp h
  have hnode := file?_eq_some.mp hf
  have hne : p ≠ [] := by
    rintro rfl
    rw [t.root] at hnode
    cases hnode
  have hsome : (t.node p).isSome = true := by rw [hnode]; rfl
  refine ⟨hne, isDir_iff.mpr (t.closed p hne hsome), t.names p hsome, not_isDir_iff.mpr ?_,
    target?_of_file? h⟩
  rw [hnode]
  exact nofun

end Put

/-! ### Following links -/

end FileTree

/-- A walk along the components of a path: where it is, and the links it has met, each with where
it led, or nothing while it is being followed. -/
structure Walk where
  path : CanonPath
  seen : List (CanonPath × Option CanonPath) := []

namespace Walk

variable (target? : CanonPath → Option PathText)

/-- The links that have been met. -/
def visited (w : Walk) : List CanonPath := w.seen.map Prod.fst

/-- The entry of a link. -/
def lookup (w : Walk) (p : CanonPath) : Option (Option CanonPath) :=
  (w.seen.find? fun e => e.1 = p).map Prod.snd

/-- One component of a path, with so many links at most followed inside each other. -/
def step : ℕ → Walk → String → Walk
  | n, w, part =>
    if part = "" ∨ part = "." then w
    else if part = ".." then { w with path := w.path.dropLast }
    else
      match target? (w.path ++ [part]), w.lookup (w.path ++ [part]) with
      | none, _ => { w with path := w.path ++ [part] }
      | some _, some (some p) => { w with path := p }
      -- the link is being followed: this is a loop
      | some _, some none => { w with path := w.path ++ [part] }
      | some target, none =>
        match n with
        | 0 => { w with path := w.path ++ [part] }
        | n + 1 =>
          let w' := target.foldl (step n)
            ⟨if target.isAbs then [] else w.path, (w.path ++ [part], none) :: w.seen⟩
          ⟨w'.path, (w.path ++ [part], some w'.path) :: w'.seen⟩

variable {target?} {w : Walk} {n : ℕ} {part : String}

theorem step_empty : step target? n w "" = w := by
  unfold step
  rw [if_pos (Or.inl rfl)]

theorem step_up : step target? n w ".." = { w with path := w.path.dropLast } := by
  unfold step
  rw [if_neg (by decide), if_pos rfl]

theorem step_name (hname : IsName part) (hnone : target? (w.path ++ [part]) = none) :
    step target? n w part = { w with path := w.path ++ [part] } := by
  unfold step
  rw [if_neg (by simp [hname.1, hname.2.1]), if_neg hname.2.2, hnone]

/-- A path that meets no link is appended as it is. -/
theorem foldl_step_names {p names : List String} {seen : List (CanonPath × Option CanonPath)}
    (hnames : ∀ part ∈ names, IsName part)
    (hnone : ∀ q, q <+: names → q ≠ [] → target? (p ++ q) = none) :
    names.foldl (step target? n) ⟨p, seen⟩ = ⟨p ++ names, seen⟩ := by
  induction names using List.reverseRecOn with
  | nil => simp
  | append_singleton names part ih =>
    have hfold := ih (fun q hq => hnames q (List.mem_append_left _ hq)) fun q hq hne =>
      hnone q (hq.trans (List.prefix_append _ _)) hne
    rw [List.foldl_append, hfold, List.foldl_cons, List.foldl_nil,
      step_name (hnames part (by simp)) (by simpa using hnone _ List.prefix_rfl (by simp))]
    simp

/-! ### Enough fuel -/

/-- The links that have not been met. -/
def unmet (links : List CanonPath) (w : Walk) : Finset CanonPath :=
  links.toFinset \ w.visited.toFinset

theorem visited_step : w.visited ⊆ (step target? n w part).visited := by
  induction n generalizing w part with
  | zero =>
    unfold step
    split_ifs
    · exact List.Subset.refl _
    · exact List.Subset.refl _
    · split <;> exact List.Subset.refl _
  | succ n ih =>
    have hfold : ∀ (parts : PathText) (v : Walk),
        v.visited ⊆ (parts.foldl (step target? n) v).visited := by
      intro parts
      induction parts with
      | nil => exact fun v => List.Subset.refl _
      | cons part parts ihparts => exact fun v => List.Subset.trans ih (ihparts _)
    unfold step
    split_ifs
    · exact List.Subset.refl _
    · exact List.Subset.refl _
    · split
      · exact List.Subset.refl _
      · exact List.Subset.refl _
      · exact List.Subset.refl _
      · intro p hp
        exact List.mem_cons_of_mem _ (hfold _ _ (List.mem_cons_of_mem _ hp))

theorem mem_visited_of_lookup {p : CanonPath} (h : w.lookup p = none) : p ∉ w.visited := by
  rw [lookup, Option.map_eq_none_iff, List.find?_eq_none] at h
  intro hmem
  obtain ⟨e, he, rfl⟩ := List.mem_map.mp hmem
  simpa using h e he

/-- **Enough fuel**: links are not followed inside each other more often than there are links. -/
theorem step_succ {links : List CanonPath}
    (hlinks : ∀ p, (target? p).isSome → p ∈ links) (h : (unmet links w).card ≤ n) :
    step target? n w part = step target? (n + 1) w part := by
  induction n generalizing w part with
  | zero =>
    unfold step
    split_ifs
    · rfl
    · rfl
    · split
      · rfl
      · rfl
      · rfl
      next target htarget hentry =>
        -- there is a link that has not been met
        have hmem : w.path ++ [part] ∈ unmet links w := by
          rw [unmet, Finset.mem_sdiff, List.mem_toFinset, List.mem_toFinset]
          exact ⟨hlinks _ (by rw [htarget]; rfl), mem_visited_of_lookup hentry⟩
        exact absurd (Finset.card_pos.mpr ⟨_, hmem⟩) (by omega)
  | succ n ih =>
    have hfold : ∀ (parts : PathText) (v : Walk), (unmet links v).card ≤ n →
        parts.foldl (step target? n) v = parts.foldl (step target? (n + 1)) v := by
      intro parts
      induction parts with
      | nil => exact fun v _ => rfl
      | cons part parts ihparts =>
        intro v hv
        have hmono : unmet links (step target? n v part) ⊆ unmet links v := by
          refine Finset.sdiff_subset_sdiff (Finset.Subset.refl _) fun p hp => ?_
          exact List.mem_toFinset.mpr (visited_step (List.mem_toFinset.mp hp))
        rw [List.foldl_cons, List.foldl_cons, ← ih hv]
        exact ihparts _ ((Finset.card_le_card hmono).trans hv)
    rw [step, step]
    split_ifs
    · rfl
    · rfl
    · split
      · rfl
      · rfl
      · rfl
      next target htarget hentry =>
        have hmem : w.path ++ [part] ∈ unmet links w := by
          rw [unmet, Finset.mem_sdiff, List.mem_toFinset, List.mem_toFinset]
          exact ⟨hlinks _ (by rw [htarget]; rfl), mem_visited_of_lookup hentry⟩
        have hless : unmet links ⟨if target.isAbs then [] else w.path,
            (w.path ++ [part], none) :: w.seen⟩ = (unmet links w).erase (w.path ++ [part]) := by
          ext p
          simp only [unmet, visited, List.map_cons, Finset.mem_sdiff, Finset.mem_erase,
            List.mem_toFinset, List.mem_cons, not_or]
          tauto
        have hcard := Finset.card_erase_of_mem hmem
        have heq := hfold target _ (by rw [hless, hcard]; omega)
        dsimp only
        rw [heq]

end Walk

namespace FileTree

variable {ρ : Type} {t : FileTree ρ} {p q : CanonPath} {f : ρ}

def realpath (t : FileTree ρ) (p : PathText) : CanonPath :=
  (p.foldl (Walk.step t.target? t.links.length) ⟨if p.isAbs then [] else t.cwd, []⟩).path

def abspath (t : FileTree ρ) (p : PathText) : PathText :=
  PathText.normpath (PathText.join t.cwd.text p)

/-- More fuel does not change where a path leads. -/
theorem realpath_fuel {p : PathText} {n : ℕ} (h : t.links.length ≤ n) :
    t.realpath p =
      (p.foldl (Walk.step t.target? n) ⟨if p.isAbs then [] else t.cwd, []⟩).path := by
  have hlinks : ∀ q, (t.target? q).isSome = true → q ∈ t.links := by
    intro q hq
    obtain ⟨target, htarget⟩ := Option.isSome_iff_exists.mp hq
    unfold target? at htarget
    split at htarget
    next target' hnode => exact t.linked q target' hnode
    · cases htarget
  have hunmet : ∀ w, (Walk.unmet t.links w).card ≤ t.links.length := fun w =>
    (Finset.card_le_card Finset.sdiff_subset).trans (List.toFinset_card_le t.links)
  have hstep : Walk.step t.target? t.links.length = Walk.step t.target? n := by
    induction n, h using Nat.le_induction with
    | base => rfl
    | succ n hn ih =>
      rw [ih]
      funext w part
      exact Walk.step_succ hlinks ((hunmet w).trans hn)
  rw [realpath, hstep]

/-- **Files lead nowhere.** -/
@[simp]
theorem realpath_put {path : PathText} : (t.put p f).realpath path = t.realpath path := by
  have htarget : (t.put p f).target? = t.target? := funext fun q => target?_put
  rw [realpath, realpath, htarget, links_put, cwd_put]

theorem target?_of_isDir (h : t.node p = some .dir) : t.target? p = none := by
  rw [target?, h]

theorem target?_above (h : t.node p = some .dir) (hq : q <+: p) : t.target? q = none := by
  by_cases hqp : q = p
  · exact target?_of_isDir (hqp ▸ h)
  · exact target?_of_isDir (node_above (by rw [h]; rfl) hq hqp)

theorem foldl_step_of_dir {names : List String} {n : ℕ} (hdir : t.node names.dropLast = some .dir)
    (hnames : ∀ part ∈ names, IsName part) (hnone : t.target? names = none) :
    names.foldl (Walk.step t.target? n) ⟨[], []⟩ = ⟨names, []⟩ := by
  have hfold := @Walk.foldl_step_names t.target? n [] names [] hnames fun q hq _ => ?_
  · simpa using hfold
  · rw [List.nil_append]
    by_cases hqn : q = names
    · rw [hqn, hnone]
    · exact target?_above hdir (prefix_dropLast hq hqn)

theorem realpath_text_of_dir (hdir : t.node p.dropLast = some .dir)
    (hnames : ∀ part ∈ p, IsName part) (hnone : t.target? p = none) : t.realpath p.text = p := by
  rw [realpath, CanonPath.text]
  split
  next hp =>
    rw [List.foldl_cons, List.foldl_cons, List.foldl_nil, Walk.step_empty, Walk.step_empty, hp]
    rfl
  next hp =>
    obtain ⟨part, parts, rfl⟩ := List.exists_cons_of_ne_nil hp
    rw [show PathText.isAbs ("" :: part :: parts) = true from rfl, if_pos rfl, List.foldl_cons,
      Walk.step_empty, foldl_step_of_dir hdir hnames hnone]

/-- **A directory is where its path says.** -/
theorem realpath_text (h : t.node p = some .dir) : t.realpath p.text = p := by
  have hsome : (t.node p).isSome = true := by rw [h]; rfl
  refine realpath_text_of_dir ?_ (t.names p hsome) (target?_of_isDir h)
  by_cases hp : p = []
  · rw [hp]
    exact t.root
  · exact t.closed p hp hsome

/-! ### A tree that is given by what is in it -/

section Entries

variable {entries : List (CanonPath × FileNode ρ)}

/-- What the entries say of a path; the root is there in any case. -/
def entryAt (entries : List (CanonPath × FileNode ρ)) (p : CanonPath) : Option (FileNode ρ) :=
  if p = [] then some .dir else (entries.find? fun e => e.1 = p).map Prod.snd

/-- Each entry is in a directory, under a name. -/
def WellFormed (entries : List (CanonPath × FileNode ρ)) : Prop :=
  ∀ e ∈ entries, entryAt entries e.1.dropLast = some .dir ∧ ∀ n ∈ e.1, IsName n

instance [DecidableEq ρ] : Decidable (WellFormed entries) :=
  inferInstanceAs (Decidable (∀ e ∈ entries, _ ∧ _))

theorem exists_of_entryAt {node : FileNode ρ} (hp : p ≠ []) (h : entryAt entries p = some node) :
    (p, node) ∈ entries := by
  rw [entryAt, if_neg hp] at h
  obtain ⟨e, he, rfl⟩ := Option.map_eq_some_iff.mp h
  have heq : e.1 = p := by simpa using List.find?_some he
  exact heq ▸ List.mem_of_find?_eq_some he

/-- The tree of these entries, with the root as the working directory. -/
def ofEntries (entries : List (CanonPath × FileNode ρ)) (h : WellFormed entries) :
    FileTree ρ where
  node := entryAt entries
  cwd := []
  links := entries.map Prod.fst
  root := if_pos rfl
  closed := by
    intro p hp hsome
    obtain ⟨node, hnode⟩ := Option.isSome_iff_exists.mp hsome
    exact (h _ (exists_of_entryAt hp hnode)).1
  names := by
    intro p hsome n hn
    obtain ⟨node, hnode⟩ := Option.isSome_iff_exists.mp hsome
    exact (h _ (exists_of_entryAt (List.ne_nil_of_mem hn) hnode)).2 n hn
  linked := by
    intro p target hnode
    have hp : p ≠ [] := by
      rintro rfl
      rw [entryAt, if_pos rfl] at hnode
      cases hnode
    exact List.mem_map.mpr ⟨_, exists_of_entryAt hp hnode, rfl⟩
  cwd_dir := if_pos rfl
  finite := by
    refine (([] :: entries.map Prod.fst).finite_toSet).subset fun p hsome => ?_
    by_cases hp : p = []
    · exact List.mem_cons.mpr (.inl hp)
    · obtain ⟨node, hnode⟩ := Option.isSome_iff_exists.mp hsome
      exact List.mem_cons_of_mem _ (List.mem_map.mpr ⟨_, exists_of_entryAt hp hnode, rfl⟩)

end Entries

end FileTree
