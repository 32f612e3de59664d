import ArgentTeam.Lib.Json
import Mathlib.Algebra.BigOperators.Group.List.Basic
import Mathlib.Algebra.GroupWithZero.Nat

/-!
# How long a JSON text is

A program that bounds what it stores measures the text of a value. `Json.textSize` is the
length of the compact text of a value, by recursion on the value: the text need not be
written to be measured (`Json.length_compact`).
-/

namespace PyStr

/-- The length of a string literal. -/
def textSize (s : PyStr) : ℕ := 2 + (s.map fun c => (dumpsChar c).length).sum

theorem length_dumps (s : PyStr) : s.dumps.length = s.textSize := by
  rw [dumps, textSize, List.length_append, List.length_cons, List.length_flatMap]
  simp only [List.length_singleton]
  omega

end PyStr

namespace Json

/-- Items separated by a comma. -/
def commas : List (List Char) → List Char
  | [] => []
  | [x] => x
  | x :: y :: xs => x ++ ',' :: commas (y :: xs)

/-- The length of some items, with what separates them. -/
def itemsSize (sizes : List ℕ) : ℕ := sizes.sum + (sizes.length - 1)

theorem length_commas : (xs : List (List Char)) →
    (commas xs).length = itemsSize (xs.map List.length)
  | [] => rfl
  | [x] => by simp [commas, itemsSize]
  | x :: y :: xs => by
    rw [commas, List.length_append, List.length_cons, length_commas (y :: xs)]
    simp only [itemsSize, List.map_cons, List.sum_cons, List.length_cons, List.length_map]
    omega

theorem itemsSize_perm {ms ns : List ℕ} (h : ms.Perm ns) : itemsSize ms = itemsSize ns := by
  rw [itemsSize, itemsSize, h.sum_eq, h.length_eq]

mutual

/-- `json.dumps(value, sort_keys=True, separators=(",", ":"))`. -/
def compact : Json → List Char
  | null => "null".toList
  | bool b => if b then "true".toList else "false".toList
  | int n => (toString n).toList
  | float .nan => "NaN".toList
  | float (.inf negative) => if negative then "-Infinity".toList else "Infinity".toList
  | float (.finite _ text) => text.toList
  | str s => s.dumps
  | arr xs => '[' :: commas (compactList xs) ++ [']']
  | obj fields => '\x7b' :: commas (((compactFields fields).insertionSort fun f g =>
      PyStr.le f.1 g.1).map fun f => f.1.dumps ++ ':' :: f.2) ++ ['\x7d']

def compactList : List Json → List (List Char)
  | [] => []
  | x :: xs => compact x :: compactList xs

def compactFields : List (PyStr × Json) → List (PyStr × List Char)
  | [] => []
  | (k, x) :: xs => (k, compact x) :: compactFields xs

end

mutual

/-- The length of the compact text of a value. -/
def textSize : Json → ℕ
  | null => 4
  | bool b => if b then 4 else 5
  | int n => (toString n).toList.length
  | float .nan => 3
  | float (.inf negative) => if negative then 9 else 8
  | float (.finite _ text) => text.toList.length
  | str s => s.textSize
  | arr xs => 2 + itemsSize (textSizeList xs)
  | obj fields => 2 + itemsSize (textSizeFields fields)

/-- The lengths of the elements of a list. -/
def textSizeList : List Json → List ℕ
  | [] => []
  | x :: xs => textSize x :: textSizeList xs

/-- The lengths of the fields of a dictionary. -/
def textSizeFields : List (PyStr × Json) → List ℕ
  | [] => []
  | (k, x) :: xs => (k.textSize + 1 + textSize x) :: textSizeFields xs

end

mutual

/-- **A value is measured without writing its text.** -/
theorem length_compact : (v : Json) → (compact v).length = textSize v
  | null => rfl
  | bool true => rfl
  | bool false => rfl
  | int _ => rfl
  | float .nan => rfl
  | float (.inf true) => rfl
  | float (.inf false) => rfl
  | float (.finite _ _) => rfl
  | str s => PyStr.length_dumps s
  | arr xs => by
    rw [compact, textSize, ← length_compactList xs, List.length_append, List.length_cons,
      length_commas, List.length_singleton]
    omega
  | obj fields => by
    have hsize := length_compactFields fields
    rw [compact, textSize, List.length_append, List.length_cons, length_commas,
      List.length_singleton, ← hsize, List.map_map]
    -- sorting the fields only changes their order
    have hperm := ((compactFields fields).perm_insertionSort fun f g =>
      PyStr.le f.1 g.1 = true).map (List.length ∘ fun f => f.1.dumps ++ ':' :: f.2)
    rw [itemsSize_perm hperm]
    have hfun : (List.length ∘ fun f : PyStr × List Char => f.1.dumps ++ ':' :: f.2) =
        fun f => f.1.textSize + 1 + f.2.length := by
      funext f
      simp only [Function.comp, List.length_append, List.length_cons, PyStr.length_dumps]
      omega
    rw [hfun]
    omega

theorem length_compactList : (xs : List Json) →
    (compactList xs).map List.length = textSizeList xs
  | [] => rfl
  | x :: xs => by
    rw [compactList, textSizeList, List.map_cons, length_compact x, length_compactList xs]

theorem length_compactFields : (fields : List (PyStr × Json)) →
    (compactFields fields).map (fun f => f.1.textSize + 1 + f.2.length) = textSizeFields fields
  | [] => rfl
  | (k, x) :: xs => by
    rw [compactFields, textSizeFields, List.map_cons, length_compact x, length_compactFields xs]

end

end Json
