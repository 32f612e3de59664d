import Mathlib.Order.Defs.Unbundled

/-!
# Runs

A system that takes one step after the other: a run is the list of the actions it is
driven by. A run may be restricted by a condition on each of its steps, a relation
between the state *before* the step and the action taken there, and what the condition
lets a step preserve, every run whose steps all meet it preserves (`Runs.run_inv`).
-/

namespace Runs

variable {σ α : Type} {step : σ → α → σ} {ok ok' : σ → α → Prop} {s : σ} {a : α} {as bs : List α}
  {I : σ → Prop}

/-- The state a run ends in. -/
def run (step : σ → α → σ) : σ → List α → σ
  | s, [] => s
  | s, a :: as => run step (step s a) as

/-- Every step of a run meets a condition. -/
def Along (step : σ → α → σ) (ok : σ → α → Prop) : σ → List α → Prop
  | _, [] => True
  | s, a :: as => ok s a ∧ Along step ok (step s a) as

/-- Whether a condition that can be decided at each step is met along a run. -/
def Along.decide (h : ∀ s a, Decidable (ok s a)) :
    (s : σ) → (as : List α) → Decidable (Along step ok s as)
  | _, [] => isTrue trivial
  | s, a :: as => @instDecidableAnd _ _ (h s a) (Along.decide h (step s a) as)

instance [h : ∀ s a, Decidable (ok s a)] : Decidable (Along step ok s as) := Along.decide h s as

@[simp]
theorem run_append : run step s (as ++ bs) = run step (run step s as) bs := by
  induction as generalizing s with
  | nil => rfl
  | cons a as ih => exact ih

theorem along_append :
    Along step ok s (as ++ bs) ↔ Along step ok s as ∧ Along step ok (run step s as) bs := by
  induction as generalizing s with
  | nil => simp [Along, run]
  | cons a as ih => simp [Along, run, ih, and_assoc]

/-- A condition is met along a run if each step meets it where the run has come to. -/
theorem along_iff_split :
    Along step ok s as ↔ ∀ bs a cs, as = bs ++ a :: cs → ok (run step s bs) a := by
  induction as generalizing s with
  | nil =>
    refine iff_of_true trivial fun bs a cs h => ?_
    cases bs <;> cases h
  | cons a as ih =>
    constructor
    · rintro ⟨ha, has⟩ bs b cs h
      cases bs with
      | nil =>
        cases h
        exact ha
      | cons b' bs =>
        cases h
        exact ih.mp has bs b cs rfl
    · intro h
      refine ⟨h [] a as rfl, ih.mpr fun bs b cs hsplit => ?_⟩
      exact h (a :: bs) b cs (by rw [hsplit]; rfl)

theorem along_congr_of_inv {D : α → Prop}
    (hI : ∀ s a, D a → I s → I (step s a)) (h : ∀ s a, D a → I s → (ok s a ↔ ok' s a)) (hs : I s)
    (hD : ∀ a ∈ as, D a) : Along step ok s as ↔ Along step ok' s as := by
  induction as generalizing s with
  | nil => exact Iff.rfl
  | cons a as ih =>
    have ha : D a := hD a List.mem_cons_self
    exact and_congr (h s a ha hs) (ih (hI s a ha hs) fun b hb => hD b (List.mem_cons_of_mem a hb))

theorem along_congr (h : ∀ s a, ok s a ↔ ok' s a) : Along step ok s as ↔ Along step ok' s as :=
  along_congr_of_inv (I := fun _ => True) (D := fun _ => True) (fun _ _ _ _ => trivial)
    (fun s a _ _ => h s a) trivial fun _ _ => trivial

theorem Along.imp (himp : ∀ s a, ok s a → ok' s a) (h : Along step ok s as) :
    Along step ok' s as := by
  induction as generalizing s with
  | nil => trivial
  | cons a as ih => exact ⟨himp s a h.1, ih h.2⟩

theorem along_of_forall (h : ∀ s a, ok s a) : Along step ok s as := by
  induction as generalizing s with
  | nil => trivial
  | cons a as ih => exact ⟨h s a, ih⟩

/-- **The invariant rule**: what holds at the start, and is preserved by every step that
meets the condition, holds at the end of every run whose steps all meet it. -/
theorem run_inv (hstep : ∀ s a, I s → ok s a → I (step s a)) (hs : I s)
    (h : Along step ok s as) : I (run step s as) := by
  induction as generalizing s with
  | nil => exact hs
  | cons a as ih => exact ih (hstep s a hs h.1) h.2

theorem Along.of_inv (hstep : ∀ s a, I s → ok s a → I (step s a))
    (himp : ∀ s a, I s → ok s a → ok' s a) (hs : I s) (h : Along step ok s as) :
    Along step ok' s as := by
  induction as generalizing s with
  | nil => trivial
  | cons a as ih => exact ⟨himp s a hs h.1, ih (hstep s a hs h.1) h.2⟩

/-- The exact invariant rule, for runs of steps that meet a condition besides. -/
theorem forall_split_iff_along_of {live : σ → α → Prop}
    (hstep : ∀ s a, live s a → I s → (I (step s a) ↔ ok s a)) (hs : I s)
    (hlive : Along step live s as) :
    (∀ bs cs, as = bs ++ cs → I (run step s bs)) ↔ Along step ok s as := by
  induction as generalizing s with
  | nil =>
    refine iff_of_true (fun bs cs h => ?_) trivial
    rw [(List.append_eq_nil_iff.mp h.symm).1]
    exact hs
  | cons a as ih =>
    constructor
    · intro h
      have ha : I (step s a) := h [a] as rfl
      refine ⟨(hstep s a hlive.1 hs).mp ha, (ih ha hlive.2).mp fun bs cs hsplit => ?_⟩
      exact h (a :: bs) cs (by rw [hsplit]; rfl)
    · rintro ⟨ha, has⟩ bs cs h
      cases bs with
      | nil => exact hs
      | cons b bs =>
        cases h
        exact (ih ((hstep s a hlive.1 hs).mpr ha) hlive.2).mpr has bs cs rfl

/-- **The exact invariant rule**: if a step preserves what holds before it exactly if it
meets a condition, then it holds all along a run exactly if all the steps meet it. -/
theorem forall_split_iff_along (hstep : ∀ s a, I s → (I (step s a) ↔ ok s a))
    (hs : I s) : (∀ bs cs, as = bs ++ cs → I (run step s bs)) ↔ Along step ok s as :=
  forall_split_iff_along_of (fun s a _ => hstep s a) hs
    (along_of_forall fun _ _ => trivial)

theorem run_always (hstep : ∀ s a, I s → I (step s a)) (hs : I s) :
    I (run step s as) :=
  run_inv (fun s a h (_ : True) => hstep s a h) hs (along_of_forall fun _ _ => trivial)

/-- **The relation rule**: a preorder that every step respects where it meets the
condition relates the start of a run to its end. -/
theorem run_rel {R : σ → σ → Prop} [Std.Refl R] [IsTrans σ R]
    (hstep : ∀ s a, ok s a → R s (step s a)) (h : Along step ok s as) : R s (run step s as) := by
  refine run_inv (I := R s) (fun t a ht ha => ?_) (Std.Refl.refl s) h
  exact IsTrans.trans _ _ _ ht (hstep t a ha)

end Runs
