import ArgentTeam.Lib.Json
import Mathlib.Algebra.Order.Ring.Int

/-!
# The order of texts

Texts are compared by the code points of their characters, the shorter one first where it is the
beginning of the other. That is a linear order, and so is the order of tuples of texts; a tuple
behind a number is compared by the number first.
-/

namespace PyStr

variable {s t u : PyStr}

theorem le_refl (s : PyStr) : le s s := by
  induction s with
  | nil => rfl
  | cons c s ih => simp [le, ih]

theorem le_total (s t : PyStr) : le s t ∨ le t s := by
  induction s generalizing t with
  | nil => exact .inl rfl
  | cons c s ih =>
    cases t with
    | nil => exact .inr rfl
    | cons d t =>
      simp only [le, Bool.or_eq_true, Bool.and_eq_true, decide_eq_true_eq]
      rcases lt_trichotomy (code c) (code d) with hlt | heq | hgt
      · exact .inl (.inl hlt)
      · exact (ih t).imp (fun h => .inr ⟨heq, h⟩) fun h => .inr ⟨heq.symm, h⟩
      · exact .inr (.inl hgt)

theorem le_trans (h : le s t) (h' : le t u) : le s u := by
  induction s generalizing t u with
  | nil => rfl
  | cons c s ih =>
    cases t with
    | nil => cases h
    | cons d t =>
      cases u with
      | nil => cases h'
      | cons e u =>
        simp only [le, Bool.or_eq_true, Bool.and_eq_true, decide_eq_true_eq] at h h' ⊢
        rcases h with hlt | ⟨heq, hst⟩
        · rcases h' with hlt' | ⟨heq', -⟩
          · exact .inl (hlt.trans hlt')
          · exact .inl (heq' ▸ hlt)
        · rcases h' with hlt' | ⟨heq', htu⟩
          · exact .inl (heq ▸ hlt')
          · exact .inr ⟨heq.trans heq', ih hst htu⟩

theorem le_antisymm (h : le s t) (h' : le t s) : s = t := by
  induction s generalizing t with
  | nil =>
    cases t with
    | nil => rfl
    | cons d t => cases h'
  | cons c s ih =>
    cases t with
    | nil => cases h
    | cons d t =>
      simp only [le, Bool.or_eq_true, Bool.and_eq_true, decide_eq_true_eq] at h h'
      rcases h with hlt | ⟨heq, hst⟩
      · rcases h' with hlt' | ⟨heq', -⟩ <;> omega
      · rcases h' with hlt' | ⟨-, hts⟩
        · omega
        · rw [code_injective heq, ih hst hts]

end PyStr

/-- The order of tuples of texts. -/
def textsLe : List PyStr → List PyStr → Bool
  | [], _ => true
  | _ :: _, [] => false
  | s :: ss, t :: ts => if s = t then textsLe ss ts else PyStr.le s t

/-- The order of tuples of texts behind a number. -/
def numberedLe (m n : ℤ) (ss ts : List PyStr) : Bool := m < n || (m = n && textsLe ss ts)

section Tuples

variable {ss ts us : List PyStr} {m n k : ℤ}

theorem textsLe_total (ss ts : List PyStr) : textsLe ss ts ∨ textsLe ts ss := by
  induction ss generalizing ts with
  | nil => exact .inl rfl
  | cons s ss ih =>
    cases ts with
    | nil => exact .inr rfl
    | cons t ts =>
      rcases eq_or_ne s t with rfl | hne
      · simpa [textsLe] using ih ts
      · simpa [textsLe, hne, hne.symm] using PyStr.le_total s t

theorem textsLe_trans (h : textsLe ss ts) (h' : textsLe ts us) :
    textsLe ss us := by
  induction ss generalizing ts us with
  | nil => rfl
  | cons s ss ih =>
    cases ts with
    | nil => cases h
    | cons t ts =>
      cases us with
      | nil => cases h'
      | cons u us =>
        rcases eq_or_ne s t with rfl | hst
        · rcases eq_or_ne s u with rfl | hsu
          · simp only [textsLe, if_true] at h h' ⊢
            exact ih h h'
          · simpa [textsLe, hsu] using h'
        · simp only [textsLe, if_neg hst] at h
          rcases eq_or_ne t u with rfl | htu
          · simpa [textsLe, hst] using h
          · simp only [textsLe, if_neg htu] at h'
            have hsu : s ≠ u := by
              rintro rfl
              exact hst (PyStr.le_antisymm h h')
            simpa [textsLe, hsu] using PyStr.le_trans h h'

theorem textsLe_antisymm (h : textsLe ss ts) (h' : textsLe ts ss) : ss = ts := by
  induction ss generalizing ts with
  | nil =>
    cases ts with
    | nil => rfl
    | cons t ts => cases h'
  | cons s ss ih =>
    cases ts with
    | nil => cases h
    | cons t ts =>
      rcases eq_or_ne s t with rfl | hne
      · simp only [textsLe, if_true] at h h'
        rw [ih h h']
      · simp only [textsLe, if_neg hne, if_neg hne.symm] at h h'
        exact absurd (PyStr.le_antisymm h h') hne

theorem numberedLe_eq_true :
    numberedLe m n ss ts ↔ m < n ∨ m = n ∧ textsLe ss ts := by
  simp [numberedLe]

theorem numberedLe_total (m n : ℤ) (ss ts : List PyStr) :
    numberedLe m n ss ts ∨ numberedLe n m ts ss := by
  rw [numberedLe_eq_true, numberedLe_eq_true]
  rcases lt_trichotomy m n with hlt | heq | hgt
  · exact .inl (.inl hlt)
  · exact (textsLe_total ss ts).imp (fun h => .inr ⟨heq, h⟩) fun h => .inr ⟨heq.symm, h⟩
  · exact .inr (.inl hgt)

theorem numberedLe_trans (h : numberedLe m n ss ts) (h' : numberedLe n k ts us) :
    numberedLe m k ss us := by
  rw [numberedLe_eq_true] at h h' ⊢
  rcases h with hlt | ⟨heq, hst⟩
  · exact .inl (by omega)
  · rcases h' with hlt' | ⟨heq', htu⟩
    · exact .inl (by omega)
    · exact .inr ⟨by omega, textsLe_trans hst htu⟩

theorem numberedLe_antisymm (h : numberedLe m n ss ts) (h' : numberedLe n m ts ss) :
    m = n ∧ ss = ts := by
  rw [numberedLe_eq_true] at h h'
  rcases h with hlt | ⟨heq, hst⟩
  · omega
  · rcases h' with hlt' | ⟨-, hts⟩
    · omega
    · exact ⟨heq, textsLe_antisymm hst hts⟩

end Tuples
