import ArgentTeam.Lib.FileTree

/-!
# Climbing out of a directory

`os.path.normpath` removes a component for each `..` by looking at the text alone. A path that is
joined to some directory and starts with enough of them therefore leads to where it would lead from
the root, whatever the directory is (`FileTree.realpath_climb`).
-/

namespace PathText

variable {absolute : Bool} {names : List String}

theorem push_name {part : String} (h : IsName part) :
    push absolute names part = names ++ [part] := by
  rw [push, if_neg (by simp [h.1, h.2.1]), if_pos (Or.inl h.2.2)]

theorem foldl_push_names {parts : List String} (h : ∀ part ∈ parts, IsName part) :
    parts.foldl (push absolute) names = names ++ parts := by
  induction parts generalizing names with
  | nil => simp
  | cons part parts ih =>
    rw [List.foldl_cons, push_name (h part List.mem_cons_self),
      ih fun part hpart => h part (List.mem_cons_of_mem _ hpart)]
    simp

/-- Below the root, `..` removes the last name; above the others it stays, unless the path starts at
the root. -/
theorem push_up {k : ℕ} (hk : absolute → k = 0) (hnames : ".." ∉ names) :
    push absolute (List.replicate k ".." ++ names) ".." =
      if names = [] then if absolute then [] else List.replicate (k + 1) ".."
      else List.replicate k ".." ++ names.dropLast := by
  rw [push, if_neg (by decide)]
  by_cases hne : names = []
  · rw [if_pos hne, hne, List.append_nil]
    cases absolute with
    | true =>
      rw [hk rfl]
      rfl
    | false =>
      rw [if_pos, List.replicate_succ']
      · simp
      · cases k with
        | zero => exact Or.inr (Or.inl ⟨rfl, rfl⟩)
        | succ k => exact Or.inr (Or.inr (by simp [List.replicate_succ']))
  · have hlast : (List.replicate k ".." ++ names).getLast? = some (names.getLast hne) := by
      rw [List.getLast?_append_of_ne_nil _ hne, List.getLast?_eq_some_getLast hne]
    rw [if_neg hne, if_neg, List.dropLast_append_of_ne_nil hne]
    rintro (h | ⟨-, h⟩ | h)
    · exact h rfl
    · exact hne (List.append_eq_nil_iff.mp h).2
    · rw [hlast, Option.some_inj] at h
      exact hnames (h ▸ List.getLast_mem hne)

/-- What the components of a path leave: some `..`, and then names. -/
theorem foldl_push (a : PathText) : ∃ k names,
    a.foldl (push absolute) [] = List.replicate k ".." ++ names ∧ ".." ∉ names ∧
      (absolute → k = 0) ∧ names.length ≤ a.length := by
  induction a using List.reverseRecOn with
  | nil => exact ⟨0, [], rfl, by simp, fun _ => rfl, le_rfl⟩
  | append_singleton a part ih =>
    obtain ⟨k, names, hfold, hnames, hk, hlength⟩ := ih
    rw [List.foldl_append, hfold, List.foldl_cons, List.foldl_nil]
    have hlength' : names.length ≤ (a ++ [part]).length := by
      rw [List.length_append]
      omega
    by_cases hup : part = ".."
    · rw [hup, push_up hk hnames]
      by_cases hne : names = []
      · cases absolute with
        | true => exact ⟨0, [], by simp [hne], by simp, fun _ => rfl, Nat.zero_le _⟩
        | false => exact ⟨k + 1, [], by simp [hne], by simp, nofun, Nat.zero_le _⟩
      · refine ⟨k, names.dropLast, by rw [if_neg hne], fun h => ?_, hk, ?_⟩
        · exact hnames (List.mem_of_mem_dropLast h)
        · rw [List.length_dropLast, List.length_append]
          omega
    · by_cases hempty : part = "" ∨ part = "."
      · exact ⟨k, names, by rw [push, if_pos hempty], hnames, hk, hlength'⟩
      · refine ⟨k, names ++ [part], ?_, ?_, hk, ?_⟩
        · rw [push, if_neg hempty, if_pos (Or.inl hup), List.append_assoc]
        · simpa [hnames] using fun h => hup h.symm
        · rw [List.length_append, List.length_append]
          exact Nat.add_le_add_right hlength _

/-- Enough `..` leave no name. -/
theorem foldl_push_up {k n : ℕ} (hk : absolute → k = 0) (hnames : ".." ∉ names)
    (hn : names.length ≤ n) :
    (List.replicate n "..").foldl (push absolute) (List.replicate k ".." ++ names) =
      if absolute then [] else List.replicate (k + (n - names.length)) ".." := by
  induction n generalizing k names with
  | zero =>
    have hnil : names = [] := List.length_eq_zero_iff.mp (Nat.le_zero.mp hn)
    rw [hnil]
    cases absolute with
    | true => simp [hk]
    | false => simp
  | succ n ih =>
    rw [List.replicate_succ, List.foldl_cons, push_up hk hnames]
    by_cases hne : names = []
    · rw [if_pos hne, hne]
      cases absolute with
      | true => simpa using @ih [] 0 (fun _ => rfl) (by simp) (Nat.zero_le _)
      | false =>
        have hrest := @ih [] (k + 1) nofun (by simp) (Nat.zero_le _)
        simpa [Nat.add_comm 1 n, Nat.add_assoc] using hrest
    · have hpos := List.length_pos_iff.mpr hne
      have hrest := @ih names.dropLast k hk
        (fun h => hnames (List.mem_of_mem_dropLast h))
        (by rw [List.length_dropLast]; omega)
      rw [if_neg hne, hrest, List.length_dropLast]
      congr 3
      omega

theorem isAbs_cons {part : String} {parts : List String} (h : part ≠ "") :
    isAbs (part :: parts) = false := by
  unfold isAbs
  split
  next heq => exact absurd (List.cons.inj heq).1 h
  · rfl

/-- A path that goes up so many directories first. -/
def climb (n : ℕ) (p : CanonPath) : PathText := List.replicate n ".." ++ p

theorem isAbs_climb {n : ℕ} {p : CanonPath} (hp : p ≠ []) (hnames : ∀ part ∈ p, IsName part) :
    isAbs (climb n p) = false := by
  cases n with
  | zero =>
    obtain ⟨part, parts, rfl⟩ := List.exists_cons_of_ne_nil hp
    exact isAbs_cons (hnames part List.mem_cons_self).1
  | succ n => exact isAbs_cons (by decide)

theorem join_of_not_isAbs {a b : PathText} (h : isAbs b = false) (hb : b ≠ []) :
    ∃ a', join a b = a' ++ b ∧ a'.length ≤ a.length ∧ isAbs (a' ++ b) = isAbs a := by
  obtain ⟨part, parts, rfl⟩ := List.exists_cons_of_ne_nil hb
  rw [join, if_neg (by simp [h])]
  match a with
  | [] => exact ⟨[], rfl, le_rfl, h⟩
  | [x] =>
    by_cases hx : x = ""
    · subst hx
      exact ⟨[], rfl, Nat.zero_le _, h⟩
    · refine ⟨[x], if_neg (by simpa using hx), le_rfl, ?_⟩
      rw [isAbs_cons hx]
      exact isAbs_cons hx
  | x :: y :: a =>
    have hhead : ∀ z zs, isAbs (x :: z :: zs) = isAbs (x :: y :: a) := by
      intro z zs
      by_cases hx : x = ""
      · subst hx
        rfl
      · rw [isAbs_cons hx, isAbs_cons hx]
    split
    · refine ⟨(x :: y :: a).dropLast, rfl, by simp, ?_⟩
      rw [List.dropLast_cons_cons]
      obtain ⟨z, zs, hz⟩ := List.exists_cons_of_ne_nil
        (List.append_ne_nil_of_right_ne_nil (y :: a).dropLast (List.cons_ne_nil part parts))
      rw [List.cons_append, hz, hhead]
    · exact ⟨x :: y :: a, rfl, le_rfl, hhead _ _⟩

/-- After enough `..`, nothing is left of the path in front. -/
theorem normpath_climb {a : PathText} {n : ℕ} {p : CanonPath} (hp : p ≠ [])
    (hnames : ∀ part ∈ p, IsName part) (hn : a.length ≤ n) :
    ∃ k, n - a.length ≤ k ∧
      normpath (join a (climb n p)) = if a.isAbs then "" :: p else climb k p := by
  have hclimb : climb n p ≠ [] := List.append_ne_nil_of_right_ne_nil _ hp
  obtain ⟨a', hjoin, hlength, habs⟩ := join_of_not_isAbs (a := a) (isAbs_climb (n := n) hp hnames)
    hclimb
  obtain ⟨k, names, hfold, hup, hk, hlen⟩ := @foldl_push a.isAbs a'
  have hall : (a' ++ climb n p).foldl (push a.isAbs) [] =
      (if a.isAbs then [] else List.replicate (k + (n - names.length)) "..") ++ p := by
    rw [List.foldl_append, hfold, climb, List.foldl_append,
      foldl_push_up hk hup (hlen.trans (hlength.trans hn)), foldl_push_names hnames]
  refine ⟨k + (n - names.length), by omega, ?_⟩
  rw [normpath, hjoin, habs, hall]
  cases a.isAbs with
  | true => simp [hp]
  | false => simp [hp, climb]

end PathText

theorem exists_name {bad : Set String} (h : bad.Finite) : ∃ x, IsName x ∧ x ∉ bad := by
  have hinj : Function.Injective fun n => String.ofList ('n' :: List.replicate n 'n') := by
    intro m n hmn
    simpa using congrArg List.length (String.ofList_injective hmn)
  obtain ⟨_, ⟨n, rfl⟩, hn⟩ := (Set.infinite_range_of_injective hinj).exists_notMem_finite h
  refine ⟨_, ?_, hn⟩
  refine ⟨fun h => ?_, fun h => ?_, fun h => ?_⟩ <;> simpa using congrArg String.toList h

namespace FileTree

variable {ρ : Type} {t : FileTree ρ}

theorem foldl_step_up {p : CanonPath} {n k : ℕ} (h : p.length ≤ k) :
    (List.replicate k "..").foldl (Walk.step t.target? n) ⟨p, []⟩ = ⟨[], []⟩ := by
  induction k generalizing p with
  | zero => rw [List.length_eq_zero_iff.mp (Nat.le_zero.mp h), List.replicate_zero, List.foldl_nil]
  | succ k ih =>
    have hless : p.dropLast.length ≤ k := by
      rw [List.length_dropLast]
      omega
    rw [List.replicate_succ, List.foldl_cons, Walk.step_up]
    exact ih hless

theorem realpath_climb {n : ℕ} {p : CanonPath} (hp : p ≠ []) (hdir : t.node p.dropLast = some .dir)
    (hnames : ∀ part ∈ p, IsName part) (hnone : t.target? p = none) (hn : t.cwd.length ≤ n) :
    t.realpath (PathText.climb n p) = p := by
  rw [realpath, PathText.isAbs_climb hp hnames, PathText.climb, List.foldl_append,
    if_neg Bool.false_ne_true, foldl_step_up hn, foldl_step_of_dir hdir hnames hnone]

/-- **Climbing out**: from any directory, there is a path to anything that is in a directory and is
no link. -/
theorem realpath_normpath_climb {a : PathText} {n : ℕ} {p : CanonPath} (hp : p ≠ [])
    (hdir : t.node p.dropLast = some .dir) (hnames : ∀ part ∈ p, IsName part)
    (hnone : t.target? p = none) (hn : a.length + t.cwd.length ≤ n) :
    t.realpath (PathText.normpath (PathText.join a (PathText.climb n p))) = p := by
  obtain ⟨k, hk, hnorm⟩ := PathText.normpath_climb (a := a) (n := n) hp hnames (by omega)
  rw [hnorm]
  split
  · have htext := realpath_text_of_dir hdir hnames hnone
    rwa [CanonPath.text, if_neg hp] at htext
  · exact realpath_climb hp hdir hnames hnone (by omega)

/-- The directory that such a path names, and the name in it. -/
theorem realpath_dirname_climb {a : PathText} {n : ℕ} {p : CanonPath} {x : String} (hp : p ≠ [])
    (hdir : t.node p = some .dir) (hx : IsName x) (hn : a.length + t.cwd.length ≤ n) :
    t.realpath (PathText.normpath (PathText.join a (PathText.climb n (p ++ [x])))).dirname = p ∧
      (PathText.normpath (PathText.join a (PathText.climb n (p ++ [x])))).basename = x := by
  have hsome : (t.node p).isSome = true := by rw [hdir]; rfl
  have hnames := t.names p hsome
  have hnames' : ∀ part ∈ p ++ [x], IsName part := by
    intro part hpart
    rcases List.mem_append.mp hpart with h | h
    · exact hnames part h
    · rwa [List.mem_singleton.mp h]
  obtain ⟨k, hk, hnorm⟩ := PathText.normpath_climb (a := a) (n := n) (p := p ++ [x]) (by simp)
    hnames' (by omega)
  obtain ⟨part, parts, rfl⟩ := List.exists_cons_of_ne_nil hp
  rw [hnorm]
  split
  · rw [← List.cons_append, PathText.dirname, PathText.basename, if_neg (by simp),
      List.dropLast_concat, List.getLast?_concat]
    exact ⟨realpath_text hdir, rfl⟩
  · have habs := PathText.isAbs_climb (n := k) (by simp) hnames'
    rw [PathText.climb, ← List.append_assoc] at habs ⊢
    rw [PathText.dirname, PathText.basename, habs, if_neg (fun h => Bool.false_ne_true h.1),
      List.dropLast_concat, List.getLast?_concat]
    exact ⟨realpath_climb hp (t.closed _ hp hsome) hnames (target?_of_isDir hdir) (by omega), rfl⟩

end FileTree
