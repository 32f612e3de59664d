import ArgentTeam.Lib.Dict
import ArgentTeam.Lib.FileChanges

/-!
# What the system finds at a path

`FileTree.realpath` is what a program makes of a path that may lead nowhere. The system itself, when
it is asked for a file, goes on only from a directory, and follows so many links and no more
(`FileTree.leads`). Where that leads does not depend on files either (`FileTree.SameDirs.leads`),
and what is found there after some changes is what the last change for it says
(`FileTree.read_setAll`).
-/

/-- How many links the system follows for one path: `MAXSYMLINKS`. -/
def maxLinks : ℕ := 40

/-- Where the system is on its way, and how many links it may still follow. -/
structure Cursor where
  path : CanonPath
  left : ℕ

namespace Cursor

variable (isDir : CanonPath → Bool) (target? : CanonPath → Option PathText)

/-- One component of a path; the number is that of the links that may be followed inside each
other, which are not more than those that may be followed at all. -/
def step : ℕ → Cursor → String → Option Cursor
  | n, c, part =>
    if isDir c.path = false then none
    else if part = "" ∨ part = "." then some c
    else if part = ".." then some { c with path := c.path.dropLast }
    else
      match target? (c.path ++ [part]) with
      | none => some { c with path := c.path ++ [part] }
      | some target =>
        match n, c.left with
        | n + 1, left + 1 =>
          target.foldlM (step n) ⟨if target.isAbs then [] else c.path, left⟩
        | _, _ => none

end Cursor

namespace FileTree

variable {ρ : Type} {t t' : FileTree ρ} {p : CanonPath} {f : ρ} {l : List (CanonPath × Option ρ)}

/-- Where a path in a directory leads: a link is followed, as the system does. -/
def leads (t : FileTree ρ) (p : CanonPath) : Option CanonPath :=
  match t.target? p with
  | none => some p
  | some target =>
    (target.foldlM (Cursor.step t.isDir t.target? (maxLinks - 1))
      ⟨if target.isAbs then [] else p.dropLast, maxLinks - 1⟩).map Cursor.path

/-- The file that a path leads to. -/
def read (t : FileTree ρ) (p : CanonPath) : Option ρ := (t.leads p).bind t.file?

theorem leads_of_target?_eq_none (h : t.target? p = none) : t.leads p = some p := by
  rw [leads, h]

theorem SameDirs.leads (h : SameDirs t t') : t'.leads p = t.leads p := by
  rw [FileTree.leads, FileTree.leads, funext h.target, funext h.isDir]

theorem isSome_node_of_read (h : t.read p = some f) : (t.node p).isSome := by
  cases htarget : t.target? p with
  | some target =>
    unfold target? at htarget
    split at htarget
    next hnode =>
      rw [hnode]
      rfl
    · cases htarget
  | none =>
    rw [read, leads_of_target?_eq_none htarget, Option.bind_some, file?_eq_some] at h
    rw [h]
    rfl

/-- **The last change decides**, for a file. -/
theorem file?_setAll (h : ∀ e ∈ l, t.Settable e) :
    (t.setAll l).file? p = (lastFor p l).getD (t.file? p) := by
  induction l generalizing t with
  | nil => rfl
  | cons e l ih =>
    have he : t.Settable e := h e List.mem_cons_self
    have hl := fun e' he' => (settable_set he).mpr (h e' (List.mem_cons_of_mem e he'))
    rw [setAll_cons, ih hl, file?_set he, lastFor_cons]
    cases lastFor p l with
    | some o => rfl
    | none =>
      rcases eq_or_ne e.1 p with heq | hne
      · simp [heq]
      · simp [hne, hne.symm]

/-- **What is read after some changes.** -/
theorem read_setAll (h : ∀ e ∈ l, t.Settable e) :
    (t.setAll l).read p = ((t.leads p).bind fun q => lastFor q l).getD (t.read p) := by
  rw [read, read, sameDirs_setAll.leads]
  cases t.leads p with
  | none => rfl
  | some q => rw [Option.bind_some, Option.bind_some, Option.bind_some, file?_setAll h]

end FileTree
