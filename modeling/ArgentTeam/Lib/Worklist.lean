import Mathlib.Data.List.Sort

/-!
# Worklists

A loop that takes the first item out of a worklist, in some order, and puts in what has been
waiting for it. Whatever comes out was there at the beginning, or something that has come out has
put it in, and none of the others that could have come out at that point is before it
(`Worklist.first_of_run`). If each item waits for one other at most, no item comes twice, so that a
worklist of a finite stock runs dry in as many rounds as the stock has items, and what comes out is
all that leads back to what was there (`Worklist.mem_run_iff`).
-/

namespace Worklist

variable {α : Type} (sort : List α → List α) (next : α → List α)

/-- What comes out of a worklist in so many rounds. -/
def run : ℕ → List α → List α
  | 0, _ => []
  | n + 1, heap =>
    match sort heap with
    | [] => []
    | a :: rest => a :: run n (rest ++ next a)

variable {sort next} {a b : α} {n : ℕ} {stock out heap : List α}

/-- What comes out was there, or was put in by something that has come out. -/
theorem mem_or_next_of_mem_run (hsort : ∀ l, (sort l).Perm l) (hb : b ∈ run sort next n heap) :
    b ∈ heap ∨ ∃ a ∈ run sort next n heap, b ∈ next a := by
  induction n generalizing heap with
  | zero => cases hb
  | succ n ih =>
    rw [run] at hb ⊢
    rcases hs : sort heap with _ | ⟨a, rest⟩
    · rw [hs] at hb
      cases hb
    · rw [hs] at hb
      have hperm : (a :: rest).Perm heap := hs ▸ hsort heap
      rcases List.mem_cons.mp hb with rfl | hb
      · exact Or.inl (hperm.subset List.mem_cons_self)
      · rcases ih hb with hmem | ⟨c, hc, hbc⟩
        · rcases List.mem_append.mp hmem with hrest | hnext
          · exact Or.inl (hperm.subset (List.mem_cons_of_mem a hrest))
          · exact Or.inr ⟨a, List.mem_cons_self, hnext⟩
        · exact Or.inr ⟨c, List.mem_cons_of_mem a hc, hbc⟩

/-- What has come out of a worklist, and what is in it: no item comes twice, and what waits for
another has been put in by it. -/
structure Accounted (next : α → List α) (stock out heap : List α) : Prop where
  nodup : (out ++ heap).Nodup
  subset : out ++ heap ⊆ stock
  source : ∀ b ∈ out ++ heap, ∀ a ∈ stock, b ∈ next a → a ∈ out

theorem Accounted.round {rest : List α} (h : Accounted next stock out heap)
    (hperm : (a :: rest).Perm heap) (hnodup : ∀ a, (next a).Nodup)
    (hsubset : ∀ a, next a ⊆ stock)
    (hone : ∀ b, ∀ a ∈ stock, ∀ a' ∈ stock, b ∈ next a → b ∈ next a' → a = a') :
    Accounted next stock (out ++ [a]) (rest ++ next a) := by
  have hall : (out ++ [a] ++ rest).Perm (out ++ heap) := by
    rw [List.append_assoc]
    exact hperm.append_left out
  have hsplit : out ++ [a] ++ (rest ++ next a) = out ++ [a] ++ rest ++ next a := by
    rw [List.append_assoc, List.append_assoc, List.append_assoc]
  have hheap : a ∈ heap := hperm.subset List.mem_cons_self
  have hstock : a ∈ stock := h.subset (List.mem_append_right out hheap)
  have hnew : ∀ b ∈ next a, b ∉ out ++ [a] ++ rest := by
    intro b hb hold
    have ha : a ∈ out := h.source b (hall.subset hold) a hstock hb
    have hdisjoint := (List.nodup_append.mp h.nodup).2.2
    exact hdisjoint a ha a hheap rfl
  refine ⟨?_, ?_, ?_⟩
  · rw [hsplit, List.nodup_append]
    refine ⟨hall.nodup_iff.mpr h.nodup, hnodup a, ?_⟩
    rintro b hold _ hb rfl
    exact hnew b hb hold
  · rw [hsplit]
    intro b hb
    rcases List.mem_append.mp hb with hb | hb
    · exact h.subset (hall.subset hb)
    · exact hsubset a hb
  · rw [hsplit]
    intro b hb a' hstock' ha'
    rcases List.mem_append.mp hb with hb | hb
    · exact List.mem_append_left [a] (h.source b (hall.subset hb) a' hstock' ha')
    · rw [hone b a' hstock' a hstock ha' hb]
      exact List.mem_append_right out (List.mem_singleton_self a)

/-- **All that is in a worklist comes out**, if each item waits for one other at most. -/
theorem mem_run_of_mem (hsort : ∀ l, (sort l).Perm l) (hnodup : ∀ a, (next a).Nodup)
    (hsubset : ∀ a, next a ⊆ stock)
    (hone : ∀ b, ∀ a ∈ stock, ∀ a' ∈ stock, b ∈ next a → b ∈ next a' → a = a')
    (h : Accounted next stock out heap) (hrounds : stock.length ≤ out.length + n)
    (hb : b ∈ heap) : b ∈ run sort next n heap := by
  induction n generalizing out heap with
  | zero =>
    have hlength := h.nodup.length_le_of_subset h.subset
    have hpos := List.length_pos_of_mem hb
    rw [List.length_append] at hlength
    omega
  | succ n ih =>
    rw [run]
    rcases hs : sort heap with _ | ⟨a, rest⟩
    · have hperm : [].Perm heap := hs ▸ hsort heap
      cases hperm.symm.subset hb
    · have hperm : (a :: rest).Perm heap := hs ▸ hsort heap
      rcases List.mem_cons.mp (hperm.symm.subset hb) with rfl | hrest
      · exact List.mem_cons_self
      · refine List.mem_cons_of_mem a ?_
        refine ih (h.round hperm hnodup hsubset hone) ?_ (List.mem_append_left _ hrest)
        rw [List.length_append, List.length_singleton]
        omega

/-! ### Which item comes out -/

/-- **The first item that can come out comes out**: it was there, or something in front of it has
put it in, and of the others of which that is so none is before it. -/
theorem first_of_run {r : α → α → Prop} (hsort : ∀ l, (sort l).Perm l)
    (hsorted : ∀ l, (sort l).Pairwise r) {pre post : List α}
    (h : run sort next n heap = pre ++ a :: post) :
    (a ∈ heap ∨ ∃ c ∈ pre, a ∈ next c) ∧
      ∀ b, (b ∈ heap ∨ ∃ c ∈ pre, b ∈ next c) → b ∉ pre → b ≠ a → r a b := by
  induction n generalizing heap pre with
  | zero => exact absurd h (by simp [run])
  | succ n ih =>
    rw [run] at h
    rcases hs : sort heap with _ | ⟨first, rest⟩
    · rw [hs] at h
      exact absurd h (by simp)
    · rw [hs] at h
      have hperm : (first :: rest).Perm heap := hs ▸ hsort heap
      have hleast : ∀ b ∈ rest, r first b := (List.pairwise_cons.mp (hs ▸ hsorted heap)).1
      cases pre with
      | nil =>
        obtain ⟨rfl, -⟩ := List.cons.inj h
        refine ⟨.inl (hperm.subset List.mem_cons_self), fun b hb _ hne => ?_⟩
        rcases hb with hb | ⟨c, hc, -⟩
        · exact hleast b ((List.mem_cons.mp (hperm.symm.subset hb)).resolve_left hne)
        · cases hc
      | cons c pre =>
        obtain ⟨rfl, hrest⟩ := List.cons.inj h
        obtain ⟨hsource, hfirst⟩ := ih hrest
        -- what can come out after the first round
        have hout : ∀ b, b ∈ rest ++ next first ∨ (∃ c ∈ pre, b ∈ next c) →
            b ∈ heap ∨ ∃ c ∈ first :: pre, b ∈ next c := by
          rintro b (hb | ⟨c, hc, hb⟩)
          · rcases List.mem_append.mp hb with hb | hb
            · exact .inl (hperm.subset (List.mem_cons_of_mem first hb))
            · exact .inr ⟨first, List.mem_cons_self, hb⟩
          · exact .inr ⟨c, List.mem_cons_of_mem first hc, hb⟩
        refine ⟨hout a hsource, fun b hb hnot hne => ?_⟩
        rw [List.mem_cons, not_or] at hnot
        refine hfirst b ?_ hnot.2 hne
        rcases hb with hb | ⟨c, hc, hb⟩
        · have hbrest := (List.mem_cons.mp (hperm.symm.subset hb)).resolve_left hnot.1
          exact .inl (List.mem_append_left _ hbrest)
        · rcases List.mem_cons.mp hc with rfl | hc
          · exact .inl (List.mem_append_right _ hb)
          · exact .inr ⟨c, hc, hb⟩

/-- What comes out leads back to what was there. -/
theorem reached_of_mem_run (hsort : ∀ l, (sort l).Perm l) (hb : b ∈ run sort next n heap) :
    ∃ a ∈ heap, Relation.ReflTransGen (fun a b => b ∈ next a) a b := by
  induction n generalizing heap with
  | zero => cases hb
  | succ n ih =>
    rw [run] at hb
    rcases hs : sort heap with _ | ⟨first, rest⟩
    · rw [hs] at hb
      cases hb
    · rw [hs] at hb
      have hperm : (first :: rest).Perm heap := hs ▸ hsort heap
      have hfirst : first ∈ heap := hperm.subset List.mem_cons_self
      rcases List.mem_cons.mp hb with rfl | hb
      · exact ⟨b, hfirst, .refl⟩
      · obtain ⟨a, ha, hab⟩ := ih hb
        rcases List.mem_append.mp ha with ha | ha
        · exact ⟨a, hperm.subset (List.mem_cons_of_mem first ha), hab⟩
        · exact ⟨first, hfirst, .head ha hab⟩

section Stock

variable (hsort : ∀ l, (sort l).Perm l) (hnodup : ∀ a, (next a).Nodup)
  (hsubset : ∀ a, next a ⊆ stock)
  (hone : ∀ b, ∀ a ∈ stock, ∀ a' ∈ stock, b ∈ next a → b ∈ next a' → a = a')
include hsort hnodup hsubset hone

/-- No item comes out twice, and all of them are from the stock. -/
theorem Accounted.run (h : Accounted next stock out heap) :
    (out ++ run sort next n heap).Nodup ∧ run sort next n heap ⊆ stock := by
  induction n generalizing out heap with
  | zero =>
    rw [Worklist.run, List.append_nil]
    exact ⟨(List.nodup_append.mp h.nodup).1, List.nil_subset _⟩
  | succ n ih =>
    rw [Worklist.run]
    rcases hs : sort heap with _ | ⟨first, rest⟩
    · rw [List.append_nil]
      exact ⟨(List.nodup_append.mp h.nodup).1, List.nil_subset _⟩
    · have hperm : (first :: rest).Perm heap := hs ▸ hsort heap
      have hfirst : first ∈ stock :=
        h.subset (List.mem_append_right out (hperm.subset List.mem_cons_self))
      obtain ⟨hnodup', hsubset'⟩ := ih (h.round hperm hnodup hsubset hone)
      rw [List.append_assoc, List.singleton_append] at hnodup'
      exact ⟨hnodup', List.cons_subset.mpr ⟨hfirst, hsubset'⟩⟩

/-- What is put in comes out. -/
theorem mem_run_of_next (h : Accounted next stock out heap)
    (hrounds : stock.length ≤ out.length + n) (ha : a ∈ run sort next n heap) (hb : b ∈ next a) :
    b ∈ run sort next n heap := by
  induction n generalizing out heap with
  | zero => cases ha
  | succ n ih =>
    rw [run] at ha ⊢
    rcases hs : sort heap with _ | ⟨first, rest⟩
    · rw [hs] at ha
      cases ha
    · rw [hs] at ha
      have hperm : (first :: rest).Perm heap := hs ▸ hsort heap
      have hround := h.round hperm hnodup hsubset hone
      have hrounds' : stock.length ≤ (out ++ [first]).length + n := by
        rw [List.length_append, List.length_singleton]
        omega
      refine List.mem_cons_of_mem first ?_
      rcases List.mem_cons.mp ha with rfl | ha
      · exact mem_run_of_mem hsort hnodup hsubset hone hround hrounds' (List.mem_append_right _ hb)
      · exact ih hround hrounds' ha

/-- **What comes out** is what leads back to what was there. -/
theorem mem_run_iff (h : Accounted next stock [] heap) (hrounds : stock.length ≤ n) :
    b ∈ run sort next n heap ↔
      ∃ a ∈ heap, Relation.ReflTransGen (fun a b => b ∈ next a) a b := by
  have hrounds' : stock.length ≤ ([] : List α).length + n := by
    rwa [List.length_nil, Nat.zero_add]
  refine ⟨reached_of_mem_run hsort, ?_⟩
  rintro ⟨a, ha, hab⟩
  induction hab with
  | refl => exact mem_run_of_mem hsort hnodup hsubset hone h hrounds' ha
  | tail _ hb ih => exact mem_run_of_next hsort hnodup hsubset hone h hrounds' ih hb

end Stock

/-- **What comes out does not depend on the order** of what was there, or of what is put in, if
sorting does not. -/
theorem run_perm {next' : α → List α} {heap' : List α}
    (hcanonical : ∀ l l', l ⊆ stock → l.Perm l' → sort l = sort l')
    (hsort : ∀ l, (sort l).Perm l) (hsubset : ∀ a, next a ⊆ stock) (hstock : heap ⊆ stock)
    (hheap : heap.Perm heap') (hnext : ∀ a, (next a).Perm (next' a)) :
    run sort next n heap = run sort next' n heap' := by
  induction n generalizing heap heap' with
  | zero => rfl
  | succ n ih =>
    rw [run, run, ← hcanonical heap heap' hstock hheap]
    rcases hs : sort heap with _ | ⟨first, rest⟩
    · rfl
    · have hperm : (first :: rest).Perm heap := hs ▸ hsort heap
      refine congrArg (first :: ·) (ih ?_ ((hnext first).append_left rest))
      exact List.append_subset.mpr ⟨fun b hb =>
        hstock (hperm.subset (List.mem_cons_of_mem first hb)), hsubset first⟩

end Worklist
