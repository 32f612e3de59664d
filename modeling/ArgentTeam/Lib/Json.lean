import Mathlib.Algebra.Group.Int.Defs
import Mathlib.Algebra.Group.Nat.Defs
import Mathlib.Data.List.Sort

/-!
# Decoded JSON

The values a Python program holds after `json.loads`, with the operations such a
program performs on them. Two things are less innocent than they look.

A decoded string is a list of code points, and a code point may be a *lone
surrogate*: the escape `\ud800` is legal JSON, but the string it denotes has no UTF-8
encoding. `PyStr.encode?` says which strings have one, and hence which values a
database can store.

A number is an integer or a float, and Python compares the two – and the booleans –
by value, which is what `Json.eqInt` does.
-/

/-! ### Strings -/

/-- A code point of a Python string. -/
inductive PyChar
  | scalar (c : Char)
  /-- A lone surrogate, `U+D800` and up. -/
  | surrogate (n : Fin 2048)
  deriving DecidableEq

abbrev PyStr := List PyChar

instance neZero_surrogates : @NeZero ℕ Nat.instAddMonoid.toAddZeroClass.toAddZero.toZero 2048 :=
  ⟨by decide⟩

instance : LawfulBEq PyStr := inferInstance

namespace PyStr

/-- The Python string of a literal. -/
def ofString (s : String) : PyStr := s.toList.map .scalar

/-- The scalar value of a code point, if it is one. -/
def scalar? : PyChar → Option Char
  | .scalar c => some c
  | .surrogate _ => none

/-- The string as UTF-8 text; there is none if it holds a lone surrogate. -/
def encode? (s : PyStr) : Option String := (s.mapM scalar?).map String.ofList

/-- Lower case of a code point, as far as the result is ASCII: besides the ASCII
letters, only the dotted capital I and the Kelvin sign lower to ASCII letters. -/
def lowerChar : PyChar → PyStr
  | .scalar c =>
    if c.val = 0x130 then [.scalar 'i', .scalar (Char.ofNat 0x307)]
    else if c.val = 0x212A then [.scalar 'k']
    else [.scalar c.toLower]
  | .surrogate n => [.surrogate n]

/-- `str.lower`, as far as ASCII text can be found in its result. -/
def lower (s : PyStr) : PyStr := s.flatMap lowerChar

/-- Upper case of a code point, as far as the result has an ASCII letter in it: besides the
ASCII letters themselves, those are the dotless i, the long s, the sharp s, the ligatures and
a few letters whose accent becomes a mark of its own. -/
def upperChar : PyChar → PyStr
  | .scalar c =>
    if c.val = 0x131 then [.scalar 'I']
    else if c.val = 0x17F then [.scalar 'S']
    else if c.val = 0xDF then [.scalar 'S', .scalar 'S']
    else if c.val = 0x149 then [.scalar (Char.ofNat 0x2BC), .scalar 'N']
    else if c.val = 0x1F0 then [.scalar 'J', .scalar (Char.ofNat 0x30C)]
    else if c.val = 0x1E96 then [.scalar 'H', .scalar (Char.ofNat 0x331)]
    else if c.val = 0x1E97 then [.scalar 'T', .scalar (Char.ofNat 0x308)]
    else if c.val = 0x1E98 then [.scalar 'W', .scalar (Char.ofNat 0x30A)]
    else if c.val = 0x1E99 then [.scalar 'Y', .scalar (Char.ofNat 0x30A)]
    else if c.val = 0x1E9A then [.scalar 'A', .scalar (Char.ofNat 0x2BE)]
    else if c.val = 0xFB00 then [.scalar 'F', .scalar 'F']
    else if c.val = 0xFB01 then [.scalar 'F', .scalar 'I']
    else if c.val = 0xFB02 then [.scalar 'F', .scalar 'L']
    else if c.val = 0xFB03 then [.scalar 'F', .scalar 'F', .scalar 'I']
    else if c.val = 0xFB04 then [.scalar 'F', .scalar 'F', .scalar 'L']
    else if c.val = 0xFB05 || c.val = 0xFB06 then [.scalar 'S', .scalar 'T']
    else [.scalar c.toUpper]
  | .surrogate n => [.surrogate n]

/-- `str.upper`, as far as ASCII text can be found in its result. -/
def upper (s : PyStr) : PyStr := s.flatMap upperChar

/-- The number of a code point. -/
def code : PyChar → ℕ
  | .scalar c => c.toNat
  | .surrogate n => 0xD800 + n

theorem code_injective : Function.Injective code := by
  rintro (c | m) (d | n) h
  · exact congrArg PyChar.scalar (Char.toNat_inj.mp h)
  · have hc := c.valid
    have hn := n.isLt
    change c.val.toNat = 0xD800 + n.val at h
    change Nat.isValidChar c.val.toNat at hc
    unfold Nat.isValidChar at hc
    omega
  · have hd := d.valid
    have hm := m.isLt
    change 0xD800 + m.val = d.val.toNat at h
    change Nat.isValidChar d.val.toNat at hd
    unfold Nat.isValidChar at hd
    omega
  · change 0xD800 + m.val = 0xD800 + n.val at h
    exact congrArg PyChar.surrogate (Fin.ext (by omega))

/-- `s.startswith(w)`. -/
def startsWith : (w s : PyStr) → Bool
  | [], _ => true
  | _ :: _, [] => false
  | a :: w, b :: s => Nat.beq (code a) (code b) && startsWith w s

/-- The substring test `w in s`. -/
def contains (w : PyStr) : PyStr → Bool
  | [] => w.isEmpty
  | c :: s => startsWith w (c :: s) || contains w s

variable {w s : PyStr}

theorem startsWith_iff : startsWith w s ↔ w <+: s := by
  induction w generalizing s with
  | nil => simp [startsWith]
  | cons a w ih =>
    cases s with
    | nil => simp [startsWith]
    | cons b s =>
      have hcode : Nat.beq (code a) (code b) = true ↔ a = b := by
        rw [Nat.beq_eq]
        exact code_injective.eq_iff
      rw [startsWith, Bool.and_eq_true, hcode, ih, List.cons_prefix_cons]

theorem contains_iff : contains w s ↔ w <:+: s := by
  induction s with
  | nil => simp [contains]
  | cons c s ih => rw [contains, Bool.or_eq_true, startsWith_iff, ih, List.infix_cons_iff]

theorem mem_of_contains (h : contains w s) {c : PyChar} (hc : c ∈ w) : c ∈ s :=
  (contains_iff.mp h).subset hc

/-- White space, as `str.strip` understands it. -/
def isSpace : PyChar → Bool
  | .scalar c =>
    (0x9 ≤ c.val && c.val ≤ 0xD) || (0x1C ≤ c.val && c.val ≤ 0x20) || c.val = 0x85 ||
      c.val = 0xA0 || c.val = 0x1680 || (0x2000 ≤ c.val && c.val ≤ 0x200A) || c.val = 0x2028 ||
      c.val = 0x2029 || c.val = 0x202F || c.val = 0x205F || c.val = 0x3000
  | .surrogate _ => false

def strip (s : PyStr) : PyStr := ((s.dropWhile isSpace).reverse.dropWhile isSpace).reverse

/-- The order of strings by code points. -/
def le : PyStr → PyStr → Bool
  | [], _ => true
  | _ :: _, [] => false
  | c :: s, d :: t => code c < code d || (code c = code d && le s t)

/-- A `\\u` escape. -/
def escape (n : ℕ) : List Char :=
  '\\' :: 'u' :: [n / 4096 % 16, n / 256 % 16, n / 16 % 16, n % 16].map Nat.digitChar

/-- A code point in an ASCII JSON document: printable ASCII stands for itself, the
rest is escaped, above the basic plane as a surrogate pair. -/
def dumpsChar (c : PyChar) : List Char :=
  let n := code c
  if n = 0x22 then ['\\', '"']
  else if n = 0x5C then ['\\', '\\']
  else if n = 0xA then ['\\', 'n']
  else if n = 0xD then ['\\', 'r']
  else if n = 0x9 then ['\\', 't']
  else if n = 0xC then ['\\', 'f']
  else if n = 0x8 then ['\\', 'b']
  else if 0x20 ≤ n ∧ n ≤ 0x7E then [Char.ofNat n]
  else if n < 0x10000 then escape n
  else escape (0xD800 + (n - 0x10000) / 0x400) ++ escape (0xDC00 + (n - 0x10000) % 0x400)

/-- A string in an ASCII JSON document. -/
def dumps (s : PyStr) : List Char := '"' :: s.flatMap dumpsChar ++ ['"']

theorem mapM_scalar?_map (l : List Char) : (l.map PyChar.scalar).mapM scalar? = some l := by
  induction l with
  | nil => rfl
  | cons c l ih => simp [scalar?, ih]

@[simp]
theorem encode?_ofString (s : String) : (ofString s).encode? = some s := by
  rw [encode?, ofString, mapM_scalar?_map]
  simp

theorem eq_of_mapM_scalar? {s : PyStr} {l : List Char} (h : s.mapM scalar? = some l) :
    s = l.map PyChar.scalar := by
  induction s generalizing l with
  | nil =>
    obtain rfl : [] = l := by simpa using h
    rfl
  | cons c s ih =>
    simp only [List.mapM_cons, Option.bind_eq_bind, Option.bind_eq_some_iff, Option.pure_def,
      Option.some.injEq] at h
    obtain ⟨c', hc, l', hl', rfl⟩ := h
    cases c with
    | scalar c =>
      obtain rfl := Option.some.inj hc
      rw [ih hl', List.map_cons]
    | surrogate n => exact absurd hc (by simp [scalar?])

theorem eq_ofString_of_encode? {s : PyStr} {t : String} (h : s.encode? = some t) :
    s = ofString t := by
  obtain ⟨l, hl, rfl⟩ := Option.map_eq_some_iff.mp h
  rw [eq_of_mapM_scalar? hl, ofString, String.toList_ofList]

theorem isSome_encode?_iff {s : PyStr} :
    s.encode?.isSome ↔ ∀ c ∈ s, (scalar? c).isSome := by
  rw [encode?, Option.isSome_map]
  induction s with
  | nil => simp
  | cons c s ih =>
    rw [List.forall_mem_cons, ← ih]
    cases hc : scalar? c <;> cases hs : s.mapM scalar? <;> simp [hc, hs]

theorem ofString_injective : Function.Injective ofString := by
  intro s t h
  have := congrArg encode? h
  simpa using this

@[simp]
theorem ofString_inj {s t : String} : ofString s = ofString t ↔ s = t :=
  ofString_injective.eq_iff

end PyStr

/-! ### Values -/

/-- A Python float: a finite one is its value, with the text `repr` gives it. -/
inductive PyFloat
  | nan
  | inf (negative : Bool)
  | finite (value : Rat) (text : String)
  deriving DecidableEq

/-- A decoded JSON value. -/
inductive Json
  /-- `None`. -/
  | null
  /-- `True` or `False`. -/
  | bool (b : Bool)
  | int (n : ℤ)
  | float (x : PyFloat)
  | str (s : PyStr)
  | arr (xs : List Json)
  /-- A dictionary, in insertion order. -/
  | obj (fields : List (PyStr × Json))

namespace Json

instance : Inhabited Json := ⟨null⟩

/-- The value of a text literal. -/
def text (s : String) : Json := .str (PyStr.ofString s)

/-- A dictionary with literal keys. -/
def dict (fields : List (String × Json)) : Json :=
  .obj (fields.map fun f => (PyStr.ofString f.1, f.2))

/-- The value of an optional text: `None` where there is none. -/
def optText : Option String → Json
  | some s => text s
  | none => null

@[simp]
theorem text_inj {s t : String} : text s = text t ↔ s = t := by
  simp [text]

theorem optText_injective : Function.Injective optText := by
  rintro (_ | s) (_ | t) h
  · rfl
  · exact Json.noConfusion h
  · exact Json.noConfusion h
  · rw [(text_inj).mp h]

/-! ### Equality -/

mutual

/-- Equality of values can be decided. -/
def decEq : (a b : Json) → Decidable (a = b)
  | null, b => match b with
    | null => isTrue rfl
    | bool _ | int _ | float _ | str _ | arr _ | obj _ => isFalse nofun
  | bool x, b => match b with
    | bool y => decidable_of_iff (x = y) (by simp)
    | null | int _ | float _ | str _ | arr _ | obj _ => isFalse nofun
  | int x, b => match b with
    | int y => decidable_of_iff (x = y) (by simp)
    | null | bool _ | float _ | str _ | arr _ | obj _ => isFalse nofun
  | float x, b => match b with
    | float y => decidable_of_iff (x = y) (by simp)
    | null | bool _ | int _ | str _ | arr _ | obj _ => isFalse nofun
  | str x, b => match b with
    | str y => decidable_of_iff (x = y) (by simp)
    | null | bool _ | int _ | float _ | arr _ | obj _ => isFalse nofun
  | arr x, b => match b with
    | arr y => match decEqList x y with
      | isTrue h => isTrue (by rw [h])
      | isFalse h => isFalse (by simpa using h)
    | null | bool _ | int _ | float _ | str _ | obj _ => isFalse nofun
  | obj x, b => match b with
    | obj y => match decEqFields x y with
      | isTrue h => isTrue (by rw [h])
      | isFalse h => isFalse (by simpa using h)
    | null | bool _ | int _ | float _ | str _ | arr _ => isFalse nofun

def decEqList : (xs ys : List Json) → Decidable (xs = ys)
  | [], ys => match ys with
    | [] => isTrue rfl
    | _ :: _ => isFalse nofun
  | x :: xs, ys => match ys with
    | [] => isFalse nofun
    | y :: ys => match decEq x y, decEqList xs ys with
      | isTrue h, isTrue h' => isTrue (by rw [h, h'])
      | isFalse h, _ => isFalse fun hc => h (List.cons.inj hc).1
      | _, isFalse h => isFalse fun hc => h (List.cons.inj hc).2

/-- Equality of dictionaries can be decided. -/
def decEqFields : (xs ys : List (PyStr × Json)) → Decidable (xs = ys)
  | [], ys => match ys with
    | [] => isTrue rfl
    | _ :: _ => isFalse nofun
  | (k, x) :: xs, ys => match ys with
    | [] => isFalse nofun
    | (l, y) :: ys => match decEq x y, decEqFields xs ys with
      | isTrue h, isTrue h' => decidable_of_iff (k = l) (by simp [h, h'])
      | isFalse h, _ => isFalse fun hc => h (Prod.mk.inj (List.cons.inj hc).1).2
      | _, isFalse h => isFalse fun hc => h (List.cons.inj hc).2

end

instance : DecidableEq Json := decEq

/-! ### Reading a value -/

/-- `d.get(key)` on the fields of a dictionary. -/
def get? (fields : List (PyStr × Json)) (key : String) : Option Json :=
  (fields.find? fun f => f.1 = PyStr.ofString key).map Prod.snd

/-- `key in d`. -/
def has (fields : List (PyStr × Json)) (key : String) : Bool := (get? fields key).isSome

/-- `d.get(key, default)`. -/
def getD (fields : List (PyStr × Json)) (key : String) (default : Json) : Json :=
  (get? fields key).getD default

/-- The truth value of a value. -/
def truthy : Json → Bool
  | null => false
  | bool b => b
  | int n => n ≠ 0
  | float (.finite v _) => v ≠ 0
  | float _ => true
  | str s => s ≠ []
  | arr xs => !xs.isEmpty
  | obj fields => !fields.isEmpty

/-- Equality with an integer: `True == 1` and `1.0 == 1`. -/
def eqInt : Json → ℤ → Bool
  | bool b, n => (if b then 1 else 0) = n
  | int m, n => m = n
  | float (.finite v _), n => v = n
  | _, _ => false

/-- The elements of a list, and none of anything else. -/
def elems : Json → List Json
  | arr xs => xs
  | _ => []

/-- Whether a database can bind the value to a parameter: a scalar, an integer in
range, a text with an encoding. -/
def bindable : Json → Bool
  | null | bool _ | float _ => true
  | int n => -2 ^ 63 ≤ n && n < 2 ^ 63
  | str s => s.encode?.isSome
  | arr _ | obj _ => false

@[simp]
theorem bindable_text (s : String) : (text s).bindable := by
  simp [text, bindable]

/-! ### Size and shape -/

mutual

def depth (d : ℕ) : Json → ℕ
  | arr xs => depthList (d + 1) d xs
  | obj fields => depthFields (d + 1) d fields
  | null | bool _ | int _ | float _ | str _ => d

/-- The greatest depth of the elements, or a default if there are none. -/
def depthList (d default : ℕ) : List Json → ℕ
  | [] => default
  | x :: xs => max (depth d x) (depthList d 0 xs)

/-- The greatest depth of the values, or a default if there are none. -/
def depthFields (d default : ℕ) : List (PyStr × Json) → ℕ
  | [] => default
  | (_, x) :: xs => max (depth d x) (depthFields d 0 xs)

end

mutual

/-- The length of the longest string, keys included. -/
def maxStringLen : Json → ℕ
  | str s => s.length
  | arr xs => maxStringLenList xs
  | obj fields => maxStringLenFields fields
  | null | bool _ | int _ | float _ => 0

def maxStringLenList : List Json → ℕ
  | [] => 0
  | x :: xs => max (maxStringLen x) (maxStringLenList xs)

/-- The longest string of a dictionary. -/
def maxStringLenFields : List (PyStr × Json) → ℕ
  | [] => 0
  | (k, x) :: xs => max (max k.length (maxStringLen x)) (maxStringLenFields xs)

end

/-- Items separated by a comma and a blank. -/
def join : List (List Char) → List Char
  | [] => []
  | [x] => x
  | x :: y :: xs => x ++ ',' :: ' ' :: join (y :: xs)

mutual

/-- `json.dumps(value, sort_keys=True)`. -/
def dumps : Json → List Char
  | null => "null".toList
  | bool b => if b then "true".toList else "false".toList
  | int n => (toString n).toList
  | float .nan => "NaN".toList
  | float (.inf negative) => if negative then "-Infinity".toList else "Infinity".toList
  | float (.finite _ text) => text.toList
  | str s => s.dumps
  | arr xs => '[' :: join (dumpsList xs) ++ [']']
  | obj fields => '\x7b' :: join (((dumpsFields fields).insertionSort fun f g =>
      PyStr.le f.1 g.1).map fun f => f.1.dumps ++ ':' :: ' ' :: f.2) ++ ['\x7d']

def dumpsList : List Json → List (List Char)
  | [] => []
  | x :: xs => dumps x :: dumpsList xs

def dumpsFields : List (PyStr × Json) → List (PyStr × List Char)
  | [] => []
  | (k, x) :: xs => (k, dumps x) :: dumpsFields xs

end

mutual

/-- The value with the keys of its dictionaries sorted: two values have the same
`json.dumps` exactly if they have the same sorted form. -/
def sorted : Json → Json
  | arr xs => .arr (sortedList xs)
  | obj fields => .obj ((sortedFields fields).insertionSort fun f g => PyStr.le f.1 g.1)
  | v => v

/-- The elements of a list, sorted inside. -/
def sortedList : List Json → List Json
  | [] => []
  | x :: xs => sorted x :: sortedList xs

/-- The fields of a dictionary, sorted inside. -/
def sortedFields : List (PyStr × Json) → List (PyStr × Json)
  | [] => []
  | (k, x) :: xs => (k, sorted x) :: sortedFields xs

end

@[simp]
theorem sorted_text (s : String) : (text s).sorted = text s := rfl

@[simp]
theorem sorted_optText (s : Option String) : (optText s).sorted = optText s := by
  cases s <;> rfl

theorem sortedFields_eq_map (fields : List (PyStr × Json)) :
    sortedFields fields = fields.map fun f => (f.1, f.2.sorted) := by
  induction fields with
  | nil => rfl
  | cons f fields ih => rw [sortedFields, ih, List.map_cons]

/-- Lists with the same keys, no key twice, are the same as soon as they are permuted. -/
theorem eq_of_perm_fields {α β : Type} {xs ys : List (α × β)} (h : xs.Perm ys)
    (hkeys : xs.map Prod.fst = ys.map Prod.fst) (hnodup : (xs.map Prod.fst).Nodup) : xs = ys := by
  induction xs generalizing ys with
  | nil => exact h.nil_eq
  | cons x xs ih =>
    cases ys with
    | nil => exact absurd h.length_eq (by simp)
    | cons y ys =>
      simp only [List.map_cons, List.cons.injEq] at hkeys
      obtain ⟨hhead, htail⟩ := hkeys
      have hfresh : x.1 ∉ ys.map Prod.fst := by
        rw [← htail]
        exact (List.nodup_cons.mp hnodup).1
      obtain rfl | hx := List.mem_cons.mp (h.mem_iff.mp List.mem_cons_self)
      · rw [ih (List.perm_cons x |>.mp h) htail (List.nodup_cons.mp hnodup).2]
      · exact absurd (List.mem_map_of_mem hx) hfresh

/-- The fields of a dictionary, and none of anything else. -/
def entries : Json → List (PyStr × Json)
  | obj fields => fields
  | null | bool _ | int _ | float _ | str _ | arr _ => []

/-- **A dictionary whose keys are known is known from its sorted form**, up to the order
inside its values. -/
theorem values_of_sorted {a b : Json} (h : a.sorted = b.sorted)
    (hkeys : a.entries.map Prod.fst = b.entries.map Prod.fst)
    (hnodup : (a.entries.map Prod.fst).Nodup) :
    a.entries.map (fun f => f.2.sorted) = b.entries.map fun f => f.2.sorted := by
  cases a with
  | obj xs =>
    cases b with
    | obj ys =>
      have hfst (fs : List (PyStr × Json)) : (sortedFields fs).map Prod.fst = fs.map Prod.fst := by
        rw [sortedFields_eq_map, List.map_map]
        rfl
      simp only [sorted, obj.injEq] at h
      have hperm : (sortedFields xs).Perm (sortedFields ys) :=
        (List.perm_insertionSort _ _).symm.trans (h.symm ▸ List.perm_insertionSort _ _)
      have hsame := eq_of_perm_fields hperm ((hfst xs).trans (hkeys.trans (hfst ys).symm))
        ((hfst xs).symm ▸ hnodup)
      have hvalues := congrArg (List.map Prod.snd) hsame
      simpa [sortedFields_eq_map, entries, Function.comp_def] using hvalues
    | _ => cases h
  | _ =>
    have hb : b.entries = [] := List.map_eq_nil_iff.mp hkeys.symm
    rw [hb]
    rfl

mutual

/-- The first hit of a scan over all strings of a value, keys included. -/
def scan (hit : PyStr → Option String) : Json → Option String
  | str s => hit s
  | arr xs => scanList hit xs
  | obj fields => scanFields hit fields
  | null | bool _ | int _ | float _ => none

def scanList (hit : PyStr → Option String) : List Json → Option String
  | [] => none
  | x :: xs => match scan hit x with
    | some w => some w
    | none => scanList hit xs

/-- The first hit in a dictionary. -/
def scanFields (hit : PyStr → Option String) : List (PyStr × Json) → Option String
  | [] => none
  | (k, x) :: xs => match hit k with
    | some w => some w
    | none => match scan hit x with
      | some w => some w
      | none => scanFields hit xs

end

end Json
