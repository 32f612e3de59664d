import Mathlib.Algebra.BigOperators.Group.List.Basic
import Mathlib.Algebra.GroupWithZero.Nat

/-!
# Gathering under a quota

A loop goes through a list. Of each element it makes an item, or nothing, or it raises; it keeps the
items as long as they fit a quota, of how many there may be and of how large they may be together.
The first item that does not fit ends the loop, and so does a bound on how many elements are gone
through.

What is kept is what fits together with all that comes before it (`mem_gather`), whatever would be
made of the elements behind.
-/

/-- How many items there may be, and how large together. -/
structure Quota where
  count : ℕ
  size : ℕ

/-- What has been kept. -/
structure Gathered {β : Type} (size : β → ℕ) where
  items : List β
  total : ℕ
  truncated : Bool
  total_eq : total = (items.map size).sum

namespace Gathered

variable {α β ε : Type} {size : β → ℕ}

/-- Nothing. -/
def empty (size : β → ℕ) : Gathered size := ⟨[], 0, false, rfl⟩

/-- One item more. -/
def add (g : Gathered size) (b : β) : Gathered size where
  items := g.items ++ [b]
  total := g.total + size b
  truncated := g.truncated
  total_eq := by simp [g.total_eq]

/-- Something is left out. -/
def cut (g : Gathered size) : Gathered size := { g with truncated := true }

/-- There is no room for an item. -/
def Full (q : Quota) (g : Gathered size) (b : β) : Prop :=
  q.count ≤ g.items.length ∨ q.size < g.total + size b

instance (q : Quota) (g : Gathered size) (b : β) : Decidable (Full q g b) :=
  inferInstanceAs (Decidable (_ ∨ _))

/-- The loop; the number says how many elements may still be gone through, if there is a bound. -/
def gather (q : Quota) (make : α → Except ε (Option β)) :
    Option ℕ → Gathered size → List α → Except ε (Gathered size)
  | _, g, [] => .ok g
  | room, g, a :: as =>
    if room = some 0 then .ok g.cut
    else
      match make a with
      | .error e => .error e
      | .ok none => gather q make (room.map Nat.pred) g as
      | .ok (some b) =>
        if Full q g b then .ok g.cut else gather q make (room.map Nat.pred) (g.add b) as

/-- The elements that the loop may go through. -/
def reach (room : Option ℕ) (as : List α) : List α := room.elim as as.take

/-- What would be made of each element. -/
def made (make : α → Except ε (Option β)) (as : List α) : List β :=
  as.filterMap fun a => (make a).toOption.join

/-- An item fits behind others. -/
def Fits (q : Quota) (size : β → ℕ) (before : List β) (b : β) : Prop :=
  before.length < q.count ∧ (before.map size).sum + size b ≤ q.size

/-- An item of a list fits together with all that comes before it. -/
def Admitted (q : Quota) (size : β → ℕ) (l : List β) (b : β) : Prop :=
  ∃ before after, l = before ++ b :: after ∧ Fits q size before b

section Gather

variable {q : Quota} {make : α → Except ε (Option β)} {room : Option ℕ} {g g' : Gathered size}
  {a : α} {as : List α} {b : β}

theorem fits_iff : Fits q size g.items b ↔ ¬Full q g b := by
  rw [Fits, Full, not_or, Nat.not_le, Nat.not_lt, g.total_eq]

theorem not_fits_cons {c : β} {before before' : List β} (h : ¬Fits q size before c) :
    ¬Fits q size (before ++ c :: before') b := by
  rintro ⟨hcount, hsize⟩
  refine h ⟨?_, ?_⟩
  · rw [List.length_append, List.length_cons] at hcount
    omega
  · rw [List.map_append, List.sum_append, List.map_cons, List.sum_cons] at hsize
    omega

theorem reach_cons (h : room ≠ some 0) :
    reach room (a :: as) = a :: reach (room.map Nat.pred) as := by
  cases room with
  | none => rfl
  | some n =>
    cases n with
    | zero => exact absurd rfl h
    | succ n => rfl

/-- What is kept: what has been, and what fits behind that together with all that comes before. -/
theorem mem_gather_from (h : gather q make room g as = .ok g') :
    b ∈ g'.items ↔ b ∈ g.items ∨ ∃ before after,
      made make (reach room as) = before ++ b :: after ∧ Fits q size (g.items ++ before) b := by
  induction as generalizing room g with
  | nil =>
    rw [gather, Except.ok.injEq] at h
    have hreach : reach room ([] : List α) = [] := by cases room <;> simp [reach]
    rw [← h, hreach]
    simp [made]
  | cons a as ih =>
    rw [gather] at h
    split at h
    next hroom =>
      rw [Except.ok.injEq] at h
      rw [← h, hroom]
      simp [reach, made, cut]
    next hroom =>
      rw [reach_cons hroom]
      split at h
      next => cases h
      next hmake => simpa [made, hmake, Except.toOption] using ih h
      next c hmake =>
        have hmade : made make (a :: reach (room.map Nat.pred) as) =
            c :: made make (reach (room.map Nat.pred) as) := by
          simp [made, hmake, Except.toOption]
        rw [hmade]
        split at h
        next hfull =>
          -- the item does not fit, and nothing fits behind it
          rw [Except.ok.injEq] at h
          rw [← h]
          refine ⟨.inl, fun hb => hb.resolve_right ?_⟩
          rintro ⟨before, after, heq, hfits⟩
          have hnot : ¬Fits q size g.items c := fun hc => (fits_iff).mp hc hfull
          cases before with
          | nil =>
            obtain ⟨rfl, -⟩ := List.cons.inj heq
            exact hnot (by simpa using hfits)
          | cons d before =>
            obtain ⟨rfl, -⟩ := List.cons.inj heq
            exact not_fits_cons hnot hfits
        next hfull =>
          rw [ih h]
          constructor
          · rintro (hb | ⟨before, after, heq, hfits⟩)
            · rcases List.mem_append.mp hb with hb | hb
              · exact .inl hb
              · obtain rfl := List.mem_singleton.mp hb
                exact .inr ⟨[], _, rfl, by simpa using (fits_iff).mpr hfull⟩
            · exact .inr ⟨c :: before, after, by rw [heq]; rfl, by simpa [add] using hfits⟩
          · rintro (hb | ⟨before, after, heq, hfits⟩)
            · exact .inl (List.mem_append_left _ hb)
            · cases before with
              | nil =>
                obtain ⟨rfl, -⟩ := List.cons.inj heq
                exact .inl (List.mem_append_right _ (List.mem_singleton.mpr rfl))
              | cons d before =>
                obtain ⟨rfl, hrest⟩ := List.cons.inj heq
                exact .inr ⟨before, after, hrest, by simpa [add] using hfits⟩

/-- **What is kept fits together with all that comes before it**, and everything that does is
kept. -/
theorem mem_gather (h : gather q make room (empty size) as = .ok g') :
    b ∈ g'.items ↔ Admitted q size (made make (reach room as)) b := by
  rw [mem_gather_from h]
  simp [empty, Admitted]

/-- What is kept was made of an element that the loop may go through. -/
theorem Admitted.exists_make (h : Admitted q size (made make (reach room as)) b) :
    ∃ a ∈ as, make a = .ok (some b) := by
  obtain ⟨before, after, heq, -⟩ := h
  have hmem : b ∈ made make (reach room as) := by rw [heq]; simp
  obtain ⟨a, ha, hjoin⟩ := List.mem_filterMap.mp hmem
  refine ⟨a, ?_, ?_⟩
  · cases room with
    | none => exact ha
    | some n => exact List.mem_of_mem_take ha
  · cases hmake : make a with
    | error e => simp [hmake, Except.toOption] at hjoin
    | ok o => simpa [hmake, Except.toOption] using hjoin

end Gather

end Gathered
