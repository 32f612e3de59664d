import Mathlib.Order.Basic
import Mathlib.Data.Nat.Basic

/-!
# Versioned cells

A cell that holds a value or nothing, where each value bears a revision and every write puts one of
a later revision there. Who has read a value knows something of what the cell holds as long as its
revision is the one read: that is what a compare-and-set by the revision rests on.
-/

namespace Versioned

variable {α : Type} {rev : α → ℕ} {c c' : Option α} {n : ℕ} {P Q : α → Prop} {a : α}

/-- The cell is as it was, or was written. -/
def Grows (rev : α → ℕ) (c c' : Option α) : Prop :=
  c' = c ∨ ∃ a', c' = some a' ∧ ∀ a, c = some a → rev a < rev a'

/-- The revision `n` has been in the cell, and if it still is, this holds of the value. -/
def Since (rev : α → ℕ) (c : Option α) (n : ℕ) (P : α → Prop) : Prop :=
  ∃ a, c = some a ∧ n ≤ rev a ∧ (rev a = n → P a)

theorem Grows.refl (c : Option α) : Grows rev c c := .inl rfl

theorem Since.of_read (h : c = some a) (hP : P a) : Since rev c (rev a) P :=
  ⟨a, h, le_rfl, fun _ => hP⟩

theorem Since.imp (h : Since rev c n P) (himp : ∀ a, c = some a → P a → Q a) : Since rev c n Q := by
  obtain ⟨a, hc, hle, hP⟩ := h
  exact ⟨a, hc, hle, fun hn => himp a hc (hP hn)⟩

/-- **A write leaves what is known of an earlier value.** -/
theorem Since.grows (h : Since rev c n P) (hc : Grows rev c c') : Since rev c' n P := by
  rcases hc with rfl | ⟨a', rfl, hlt⟩
  · exact h
  · obtain ⟨a, hc, hle, -⟩ := h
    have hn : n < rev a' := hle.trans_lt (hlt a hc)
    exact ⟨a', rfl, hn.le, fun heq => absurd heq hn.ne'⟩

theorem Since.found (h : Since rev c n P) (hc : c = some a) (hn : rev a = n) : P a := by
  obtain ⟨a', hc', -, hP⟩ := h
  obtain rfl := Option.mem_unique hc hc'
  exact hP hn

end Versioned
