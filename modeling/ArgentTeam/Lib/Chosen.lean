import Mathlib.Data.List.Dedup
import Mathlib.Data.List.Induction
import Mathlib.Data.List.Perm.Basic
import Mathlib.Data.List.Sort

/-!
# The best of each kind

A dictionary that is filled in a loop: an element takes the place of another one with its key
only if it has a higher rank. Of the elements with a key, the first of the highest rank is left
(`Chosen.filled_choose`, `Chosen.mem_choose_of_first`). Where those of the highest rank are the
same, what is left does not depend on the order of the loop (`Chosen.choose_perm`); and a list that
is sorted by a key which tells its elements apart does not depend on the order it had before
(`Chosen.insertionSort_congr`).
-/

namespace Chosen

variable {α κ : Type} [DecidableEq κ] (key : α → κ) (rank : α → ℕ)

/-- One round of the loop. -/
def visit (kept : List α) (a : α) : List α :=
  match kept.find? fun b => key b = key a with
  | none => kept ++ [a]
  | some b => if rank b < rank a then kept.map fun c => if key c = key a then a else c else kept

/-- The dictionary after the loop. -/
def choose (as : List α) : List α := as.foldl (visit key rank) []

/-- An element is of the highest rank among those with its key. -/
def Best (as : List α) (a : α) : Prop := a ∈ as ∧ ∀ b ∈ as, key b = key a → rank b ≤ rank a

/-- What the dictionary is after some elements. -/
structure Filled (as kept : List α) : Prop where
  nodup : (kept.map key).Nodup
  best : ∀ a ∈ kept, Best key rank as a
  total : ∀ b ∈ as, ∃ a ∈ kept, key a = key b

variable {key rank} {as bs kept : List α} {a b : α}

omit [DecidableEq κ] in
theorem Filled.append_new (h : Filled key rank as kept) (hnew : ∀ b ∈ kept, key b ≠ key a) :
    Filled key rank (as ++ [a]) (kept ++ [a]) := by
  have hfirst : ∀ b ∈ as, key b ≠ key a := by
    intro b hb hkey
    obtain ⟨c, hc, hcb⟩ := h.total b hb
    exact hnew c hc (hcb.trans hkey)
  refine ⟨?_, fun c hc => ?_, fun b hb => ?_⟩
  · rw [List.map_append, List.map_singleton]
    refine h.nodup.append (List.nodup_singleton _) ?_
    simpa using hnew
  · rcases List.mem_append.mp hc with hc | hc
    · obtain ⟨hmem, hle⟩ := h.best c hc
      refine ⟨List.mem_append_left _ hmem, fun b hb hkey => ?_⟩
      rcases List.mem_append.mp hb with hb | hb
      · exact hle b hb hkey
      · rw [List.mem_singleton.mp hb] at hkey
        exact absurd hkey.symm (hnew c hc)
    · rw [List.mem_singleton.mp hc]
      refine ⟨List.mem_append_right _ (List.mem_singleton_self a), fun b hb hkey => ?_⟩
      rcases List.mem_append.mp hb with hb | hb
      · exact absurd hkey (hfirst b hb)
      · rw [List.mem_singleton.mp hb]
  · rcases List.mem_append.mp hb with hb | hb
    · obtain ⟨c, hc, hkey⟩ := h.total b hb
      exact ⟨c, List.mem_append_left _ hc, hkey⟩
    · exact ⟨a, List.mem_append_right _ (List.mem_singleton_self a),
        by rw [List.mem_singleton.mp hb]⟩

omit [DecidableEq κ] in
theorem eq_of_key (h : (kept.map key).Nodup) (ha : a ∈ kept) (hb : b ∈ kept)
    (hkey : key a = key b) : a = b :=
  List.inj_on_of_nodup_map h ha hb hkey

omit [DecidableEq κ] in
/-- An element that is not outranked changes nothing. -/
theorem Filled.skip (h : Filled key rank as kept) (hb : b ∈ kept) (hkey : key b = key a)
    (hle : rank a ≤ rank b) : Filled key rank (as ++ [a]) kept := by
  refine ⟨h.nodup, fun c hc => ⟨List.mem_append_left _ (h.best c hc).1, fun d hd hd' => ?_⟩,
    fun d hd => ?_⟩
  · rcases List.mem_append.mp hd with hd | hd
    · exact (h.best c hc).2 d hd hd'
    · rw [List.mem_singleton.mp hd] at hd' ⊢
      rwa [← eq_of_key h.nodup hb hc (hkey.trans hd')]
  · rcases List.mem_append.mp hd with hd | hd
    · exact h.total d hd
    · exact ⟨b, hb, by rw [List.mem_singleton.mp hd, hkey]⟩

theorem map_key_replace : (kept.map fun c => if key c = key a then a else c).map key =
    kept.map key := by
  rw [List.map_map]
  refine List.map_congr_left fun c _ => ?_
  by_cases h : key c = key a <;> simp [h]

/-- An element that outranks the one with its key takes its place. -/
theorem Filled.replace (h : Filled key rank as kept) (hb : b ∈ kept) (hkey : key b = key a)
    (hlt : rank b < rank a) :
    Filled key rank (as ++ [a]) (kept.map fun c => if key c = key a then a else c) := by
  refine ⟨by rw [map_key_replace]; exact h.nodup, fun c hc => ?_, fun d hd => ?_⟩
  · obtain ⟨c', hc', rfl⟩ := List.mem_map.mp hc
    by_cases hc'a : key c' = key a
    · rw [if_pos hc'a]
      refine ⟨List.mem_append_right _ (List.mem_singleton_self a), fun d hd hd' => ?_⟩
      rcases List.mem_append.mp hd with hd | hd
      · exact ((h.best b hb).2 d hd (hd'.trans hkey.symm)).trans hlt.le
      · rw [List.mem_singleton.mp hd]
    · rw [if_neg hc'a]
      refine ⟨List.mem_append_left _ (h.best c' hc').1, fun d hd hd' => ?_⟩
      rcases List.mem_append.mp hd with hd | hd
      · exact (h.best c' hc').2 d hd hd'
      · rw [List.mem_singleton.mp hd] at hd'
        exact absurd hd'.symm hc'a
  · obtain ⟨c, hc, hcd⟩ : ∃ c ∈ kept, key c = key d := by
      rcases List.mem_append.mp hd with hd | hd
      · exact h.total d hd
      · exact ⟨b, hb, by rw [List.mem_singleton.mp hd, hkey]⟩
    refine ⟨_, List.mem_map_of_mem hc, ?_⟩
    by_cases hca : key c = key a
    · rw [if_pos hca, ← hcd, hca]
    · rw [if_neg hca, hcd]

theorem Filled.visit (h : Filled key rank as kept) (a : α) :
    Filled key rank (as ++ [a]) (visit key rank kept a) := by
  unfold Chosen.visit
  split
  next hnone =>
    refine h.append_new fun b hb hkey => ?_
    simpa [hkey] using List.find?_eq_none.mp hnone b hb
  next b hsome =>
    have hb : b ∈ kept := List.mem_of_find?_eq_some hsome
    have hkey : key b = key a := by simpa using List.find?_some hsome
    split
    next hlt => exact h.replace hb hkey hlt
    next hge => exact h.skip hb hkey (not_lt.mp hge)

variable (key rank) in
/-- **What the loop leaves.** -/
theorem filled_choose (as : List α) : Filled key rank as (choose key rank as) := by
  induction as using List.reverseRecOn with
  | nil => exact ⟨List.nodup_nil, nofun, nofun⟩
  | append_singleton as a ih =>
    rw [choose, List.foldl_append]
    exact ih.visit a

theorem mem_choose_iff
    (hclear : ∀ a b, Best key rank as a → Best key rank as b → key a = key b → a = b) :
    a ∈ choose key rank as ↔ Best key rank as a := by
  have hfilled := filled_choose key rank as
  refine ⟨hfilled.best a, fun hbest => ?_⟩
  obtain ⟨b, hb, hkey⟩ := hfilled.total a hbest.1
  rwa [hclear a b hbest (hfilled.best b hb) hkey.symm]

theorem mem_visit (hnodup : (kept.map key).Nodup) (ha : a ∈ kept)
    (hle : key b = key a → rank b ≤ rank a) : a ∈ visit key rank kept b := by
  unfold visit
  split
  · exact List.mem_append_left _ ha
  next c hsome =>
    split
    next hlt =>
      have hc : c ∈ kept := List.mem_of_find?_eq_some hsome
      have hkey : key c = key b := by simpa using List.find?_some hsome
      have hab : key a ≠ key b := by
        intro hab
        obtain rfl := eq_of_key hnodup ha hc (hab.trans hkey.symm)
        exact absurd (hle hab.symm) (not_le.mpr hlt)
      exact List.mem_map.mpr ⟨a, ha, if_neg hab⟩
    · exact ha

/-- **The first one is left**, if no later one with its key outranks it. -/
theorem mem_choose_of_first (hbefore : ∀ b ∈ as, key b ≠ key a)
    (hafter : ∀ b ∈ bs, key b = key a → rank b ≤ rank a) : a ∈ choose key rank (as ++ a :: bs) := by
  induction bs using List.reverseRecOn with
  | nil =>
    have hnone : (choose key rank as).find? (fun b => key b = key a) = none := by
      rw [List.find?_eq_none]
      intro b hb
      simpa using hbefore b ((filled_choose key rank as).best b hb).1
    rw [choose, List.foldl_append, ← choose, List.foldl_cons, List.foldl_nil, visit, hnone]
    exact List.mem_append_right _ (List.mem_singleton_self a)
  | append_singleton bs b ih =>
    rw [← List.cons_append, ← List.append_assoc, choose, List.foldl_append, ← choose,
      List.foldl_cons, List.foldl_nil]
    exact mem_visit (filled_choose key rank _).nodup
      (ih fun c hc => hafter c (List.mem_append_left _ hc))
      (hafter b (List.mem_append_right _ (List.mem_singleton_self b)))

/-- **The order of the loop does not matter**, where elements with the same key that nothing with
this key outranks are the same. -/
theorem choose_perm
    (hclear : ∀ a b, Best key rank as a → Best key rank as b → key a = key b → a = b)
    (hperm : as.Perm bs) : (choose key rank as).Perm (choose key rank bs) := by
  have hbest : ∀ a, Best key rank bs a ↔ Best key rank as a := fun a => by
    simp only [Best, hperm.mem_iff]
  refine (List.perm_ext_iff_of_nodup (filled_choose key rank as).nodup.of_map
    (filled_choose key rank bs).nodup.of_map).mpr fun a => ?_
  rw [mem_choose_iff hclear, mem_choose_iff fun a b ha hb =>
    hclear a b ((hbest a).mp ha) ((hbest b).mp hb), hbest]

/-- Lists that are permutations of each other sort to the same list, if the order tells their
elements apart. -/
theorem insertionSort_congr {r : α → α → Prop} [DecidableRel r] [Std.Total r] [IsTrans α r]
    (hantisymm : ∀ a ∈ as, ∀ b ∈ as, r a b → r b a → a = b) (hperm : as.Perm bs) :
    as.insertionSort r = bs.insertionSort r := by
  refine @List.Perm.eq_of_pairwise _ r _ _ (fun a b ha hb hab hba => ?_)
    (List.pairwise_insertionSort r as) (List.pairwise_insertionSort r bs) ?_
  · refine hantisymm a ?_ b ?_ hab hba
    · exact (List.perm_insertionSort r as).mem_iff.mp ha
    · exact hperm.mem_iff.mpr ((List.perm_insertionSort r bs).mem_iff.mp hb)
  · exact (List.perm_insertionSort r as).trans (hperm.trans (List.perm_insertionSort r bs).symm)

end Chosen
