import ArgentTeam.Lib.FileTree

/-!
# Changes to a file tree

A change says which file there is at a path from now on, or that there is none. Where files can come
and go at the paths of a list of changes, the last change for a path decides what is there in the
end (`FileTree.node_setAll`), and everything else stays. What does not depend on files is the same
throughout (`FileTree.SameDirs`).
-/

section Splits

variable {α β : Type} {f : α → β} {l : List α} {b : β}

theorem exists_first (h : b ∈ l.map f) :
    ∃ pre a post, l = pre ++ a :: post ∧ f a = b ∧ b ∉ pre.map f := by
  induction l with
  | nil => cases h
  | cons a l ih =>
    by_cases ha : f a = b
    · exact ⟨[], a, l, rfl, ha, by simp⟩
    · obtain ⟨pre, c, post, rfl, hc, hpre⟩ := ih (by simpa [Ne.symm ha] using h)
      exact ⟨a :: pre, c, post, rfl, hc, by simpa [Ne.symm ha] using hpre⟩

theorem exists_last (h : b ∈ l.map f) :
    ∃ pre a post, l = pre ++ a :: post ∧ f a = b ∧ b ∉ post.map f := by
  obtain ⟨pre, a, post, hl, ha, hpre⟩ := exists_first (l := l.reverse) (f := f) (b := b)
    (by rwa [List.map_reverse, List.mem_reverse])
  refine ⟨post.reverse, a, pre.reverse, ?_, ha, by rwa [List.map_reverse, List.mem_reverse]⟩
  rw [← List.reverse_reverse l, hl]
  simp

end Splits

namespace FileTree

variable {ρ : Type} {t t' t'' : FileTree ρ} {p q : CanonPath} {f : ρ} {o : Option ρ}
  {e : CanonPath × Option ρ}

/-! ### Trees with the same directories and links -/

/-- Two trees differ in their files at most. -/
structure SameDirs (t t' : FileTree ρ) : Prop where
  cwd : t'.cwd = t.cwd
  links : t'.links = t.links
  isDir : ∀ p, t'.isDir p = t.isDir p
  target : ∀ p, t'.target? p = t.target? p

namespace SameDirs

theorem refl (t : FileTree ρ) : SameDirs t t := ⟨rfl, rfl, fun _ => rfl, fun _ => rfl⟩

theorem trans (h : SameDirs t t') (h' : SameDirs t' t'') : SameDirs t t'' :=
  ⟨h'.cwd.trans h.cwd, h'.links.trans h.links, fun p => (h'.isDir p).trans (h.isDir p),
    fun p => (h'.target p).trans (h.target p)⟩

theorem put (t : FileTree ρ) (p : CanonPath) (f : ρ) : SameDirs t (t.put p f) :=
  ⟨cwd_put, links_put, fun _ => isDir_put, fun _ => target?_put⟩

theorem erase (t : FileTree ρ) (p : CanonPath) : SameDirs t (t.erase p) :=
  ⟨cwd_erase, links_erase, fun _ => isDir_erase, fun _ => target?_erase⟩

theorem realpath (h : SameDirs t t') (path : PathText) : t'.realpath path = t.realpath path := by
  rw [FileTree.realpath, FileTree.realpath, funext h.target, h.links, h.cwd]

theorem writable (h : SameDirs t t') : t'.Writable p ↔ t.Writable p := by
  simp only [Writable, h.isDir, h.target]

end SameDirs

/-! ### Changes -/

/-- A path at which files can come and go. -/
def Slot (t : FileTree ρ) (p : CanonPath) : Prop :=
  t.Writable p ∧ t.node p = (t.file? p).map .file

/-- A change that can be made: nothing but a file is there, and a new one can be put there. -/
def Settable (t : FileTree ρ) (e : CanonPath × Option ρ) : Prop :=
  (e.2.isSome = true → t.Writable e.1) ∧ t.node e.1 = (t.file? e.1).map .file

/-- Say which file there is at a path. -/
def set (t : FileTree ρ) (p : CanonPath) : Option ρ → FileTree ρ
  | some f => t.put p f
  | none => t.erase p

theorem file_injective : Function.Injective (Option.map (@FileNode.file ρ)) :=
  Option.map_injective fun _ _ => FileNode.file.inj

theorem slot_of_file? (h : (t.file? p).isSome) : t.Slot p := by
  obtain ⟨f, hf⟩ := Option.isSome_iff_exists.mp h
  exact ⟨writable_of_file? h, by rw [hf, file?_eq_some.mp hf, Option.map_some]⟩

theorem slot_of_node_none (hwritable : t.Writable p) (h : t.node p = none) : t.Slot p :=
  ⟨hwritable, by rw [file?, h]; rfl⟩

theorem Slot.settable (h : t.Slot p) : t.Settable (p, o) := ⟨fun _ => h.1, h.2⟩

theorem settable_of_node_none (h : t.node p = none) : t.Settable (p, none) :=
  ⟨fun hsome => absurd hsome Bool.false_ne_true, by rw [file?, h]; rfl⟩

theorem sameDirs_set : SameDirs t (t.set p o) := by
  cases o with
  | none => exact .erase t p
  | some f => exact .put t p f

theorem node_set (h : t.Settable (p, o)) :
    (t.set p o).node q = if q = p then o.map .file else t.node q := by
  cases o with
  | some f => exact node_put (h.1 rfl)
  | none =>
    by_cases hfile : (t.file? p).isSome = true
    · exact node_erase hfile
    · have hclean : t.node p = (t.file? p).map .file := h.2
      rw [set, erase, dif_neg hfile]
      split
      next hq =>
        rw [Option.not_isSome_iff_eq_none] at hfile
        rw [hq, hclean, hfile, Option.map_none]
      · rfl

theorem file?_set (h : t.Settable (p, o)) :
    (t.set p o).file? q = if q = p then o else t.file? q := by
  rw [file?, node_set h]
  by_cases hq : q = p
  · rw [if_pos hq, if_pos hq]
    cases o <;> rfl
  · rw [if_neg hq, if_neg hq, file?]

theorem clean_set (h : t.Settable (p, o)) :
    (t.set p o).node q = ((t.set p o).file? q).map .file ↔ t.node q = (t.file? q).map .file := by
  rw [node_set h, file?_set h]
  split
  next hq =>
    subst hq
    exact ⟨fun _ => h.2, fun _ => rfl⟩
  · exact Iff.rfl

theorem slot_set (h : t.Settable (p, o)) : (t.set p o).Slot q ↔ t.Slot q := by
  rw [Slot, Slot, sameDirs_set.writable, clean_set h]

theorem settable_set (h : t.Settable (p, o)) :
    (t.set p o).Settable e ↔ t.Settable e := by
  rw [Settable, Settable, sameDirs_set.writable, clean_set h]

/-- A list of changes, one after the other. -/
def setAll (t : FileTree ρ) (l : List (CanonPath × Option ρ)) : FileTree ρ :=
  l.foldl (fun t e => t.set e.1 e.2) t

section SetAll

variable {l l' : List (CanonPath × Option ρ)}

@[simp]
theorem setAll_nil : t.setAll [] = t := rfl

@[simp]
theorem setAll_cons :
    t.setAll (e :: l) = (t.set e.1 e.2).setAll l := rfl

theorem setAll_append : t.setAll (l ++ l') = (t.setAll l).setAll l' := List.foldl_append

theorem sameDirs_setAll : SameDirs t (t.setAll l) := by
  induction l generalizing t with
  | nil => exact .refl t
  | cons e l ih => exact (sameDirs_set).trans ih

theorem slot_setAll (h : ∀ e ∈ l, t.Settable e) : (t.setAll l).Slot q ↔ t.Slot q := by
  induction l generalizing t with
  | nil => exact Iff.rfl
  | cons e l ih =>
    have he := h e List.mem_cons_self
    rw [setAll_cons, ih fun e' he' => (settable_set he).mpr (h e' (List.mem_cons_of_mem _ he')),
      slot_set he]

theorem settable_setAll (h : ∀ e ∈ l, t.Settable e) :
    (t.setAll l).Settable e ↔ t.Settable e := by
  induction l generalizing t with
  | nil => exact Iff.rfl
  | cons e' l ih =>
    have he := h e' List.mem_cons_self
    rw [setAll_cons, ih fun e'' he'' => (settable_set he).mpr (h e'' (List.mem_cons_of_mem _ he'')),
      settable_set he]

theorem node_setAll_of_notMem (h : ∀ e ∈ l, t.Settable e) (hq : q ∉ l.map Prod.fst) :
    (t.setAll l).node q = t.node q := by
  induction l generalizing t with
  | nil => rfl
  | cons e l ih =>
    have he := h e List.mem_cons_self
    rw [List.map_cons, List.mem_cons, not_or] at hq
    rw [setAll_cons,
      ih (fun e' he' => (settable_set he).mpr (h e' (List.mem_cons_of_mem _ he'))) hq.2,
      node_set he, if_neg hq.1]

/-- **The last change decides.** -/
theorem node_setAll (h : ∀ e ∈ l ++ (q, o) :: l', t.Settable e) (hq : q ∉ l'.map Prod.fst) :
    (t.setAll (l ++ (q, o) :: l')).node q = o.map .file := by
  have hl : ∀ e ∈ l, t.Settable e := fun e he => h e (List.mem_append_left _ he)
  have hset : (t.setAll l).Settable (q, o) := (settable_setAll hl).mpr (h (q, o) (by simp))
  have hl' : ∀ e ∈ l', ((t.setAll l).set q o).Settable e := fun e he =>
    (settable_set hset).mpr ((settable_setAll hl).mpr (h e (by simp [he])))
  rw [setAll_append, setAll_cons, node_setAll_of_notMem hl' hq, node_set hset, if_pos rfl]

/-- Changes leave a path as it is exactly if the last of them for it does. -/
theorem node_setAll_eq_iff (h : ∀ e ∈ l, t.Settable e) :
    (t.setAll l).node q = t.node q ↔
      ∀ pre o post, l = pre ++ (q, o) :: post → q ∉ post.map Prod.fst → o = t.file? q := by
  constructor
  · rintro hnode pre o post rfl hpost
    have hclean : t.node q = (t.file? q).map .file := (h (q, o) (by simp)).2
    rw [node_setAll h hpost, hclean] at hnode
    exact file_injective hnode
  · intro hlast
    by_cases hq : q ∈ l.map Prod.fst
    · obtain ⟨pre, ⟨p, o⟩, post, rfl, rfl, hpost⟩ := exists_last hq
      rw [node_setAll h hpost, hlast pre o post rfl hpost]
      exact (h (p, o) (by simp)).2.symm
    · exact node_setAll_of_notMem h hq

end SetAll

end FileTree
