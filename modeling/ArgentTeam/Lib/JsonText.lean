import ArgentTeam.Lib.Json

/-!
# JSON texts

`json.loads`, as a function on texts. The decoder refuses a text in one of two ways: with a
`ValueError`, or, where lists and dictionaries are nested more deeply than it can follow, with a
`RecursionError`. What a float denotes and how deep the decoder can follow are parameters, and so
is what it makes of the pairs of a dictionary.

Strings and integers are read back from what `json.dumps` writes for them, but for one thing: a
high surrogate that is followed by a low one comes back as the one code point that the two escapes
denote together (`scanString_dumps`).
-/

namespace JsonText

/-- What the decoder raises. -/
inductive Fault
  /-- `ValueError`. -/
  | value
  /-- `RecursionError`. -/
  | recursion

structure Decoder where
  float : List Char → PyFloat
  nesting : ℕ
  /-- What is made of the pairs of a dictionary, or nothing for a `ValueError`. -/
  pairs : List (PyStr × Json) → Option Json

/-! ### Tokens -/

/-- A blank between two tokens. -/
def isBlank (c : Char) : Bool := c = ' ' || c = '\t' || c = '\n' || c = '\r'

/-- What follows the blanks. -/
def skip (s : List Char) : List Char := s.dropWhile isBlank

/-- The value of a hexadecimal digit. -/
def hexDigit? (c : Char) : Option ℕ :=
  if '0' ≤ c ∧ c ≤ '9' then some (c.toNat - '0'.toNat)
  else if 'a' ≤ c ∧ c ≤ 'f' then some (c.toNat - 'a'.toNat + 10)
  else if 'A' ≤ c ∧ c ≤ 'F' then some (c.toNat - 'A'.toNat + 10)
  else none

/-- The number that four hexadecimal digits stand for. -/
def hex4? (a b c d : Char) : Option ℕ := do
  let a ← hexDigit? a
  let b ← hexDigit? b
  let c ← hexDigit? c
  let d ← hexDigit? d
  some (((a * 16 + b) * 16 + c) * 16 + d)

def codePoint (n : ℕ) : PyChar :=
  if h : 0xD800 ≤ n ∧ n - 0xD800 < 2048 then .surrogate ⟨n - 0xD800, h.2⟩
  else .scalar (Char.ofNat n)

/-- The character that a short escape stands for. -/
def unescape : Char → Option Char
  | '"' => some '"'
  | '\\' => some '\\'
  | '/' => some '/'
  | 'b' => some (Char.ofNat 0x8)
  | 'f' => some (Char.ofNat 0xC)
  | 'n' => some '\n'
  | 'r' => some '\r'
  | 't' => some '\t'
  | _ => none

/-- A string up to its closing quote, escape by escape, and what follows. -/
def scanUnits : List Char → Option (PyStr × List Char)
  | [] => none
  | '"' :: s => some ([], s)
  | '\\' :: 'u' :: a :: b :: c :: d :: s => do
    let n ← hex4? a b c d
    let (t, s) ← scanUnits s
    some (codePoint n :: t, s)
  | '\\' :: e :: s => do
    let c ← unescape e
    let (t, s) ← scanUnits s
    some (.scalar c :: t, s)
  | c :: s => do
    let (t, s) ← if c.toNat < 0x20 ∨ c = '\\' then none else scanUnits s
    some (.scalar c :: t, s)

/-- The code point of a high surrogate and a low one. -/
def pair (high low : Fin 2048) : PyChar :=
  .scalar (Char.ofNat (0x10000 + high * 0x400 + (low - 0x400)))

/-- A string with each pair of a high surrogate and a low one put together. -/
def joinPairs : PyStr → PyStr
  | .surrogate high :: .surrogate low :: s =>
    if high.val < 0x400 ∧ 0x400 ≤ low.val then pair high low :: joinPairs s
    else .surrogate high :: joinPairs (.surrogate low :: s)
  | c :: s => c :: joinPairs s
  | [] => []

/-- `scanstring`: a string, and what follows its closing quote. -/
def scanString (s : List Char) : Option (PyStr × List Char) :=
  (scanUnits s).map fun r => (joinPairs r.1, r.2)

/-- `sys.int_info.default_max_str_digits`. -/
def maxStrDigits : ℕ := 4300

/-- The integer part of a numeral. -/
def scanInt : List Char → Option (List Char × List Char)
  | '0' :: s => some (['0'], s)
  | s => if s.takeWhile Char.isDigit = [] then none
    else some (s.takeWhile Char.isDigit, s.dropWhile Char.isDigit)

/-- The fraction of a numeral, if there is one. -/
def scanFrac : List Char → List Char × List Char
  | '.' :: s => if s.takeWhile Char.isDigit = [] then ([], '.' :: s)
    else ('.' :: s.takeWhile Char.isDigit, s.dropWhile Char.isDigit)
  | s => ([], s)

def scanSign : List Char → List Char × List Char
  | '+' :: s => (['+'], s)
  | '-' :: s => (['-'], s)
  | s => ([], s)

/-- The exponent of a numeral, if there is one. -/
def scanExp : List Char → List Char × List Char
  | [] => ([], [])
  | e :: s =>
    let (sign, t) := scanSign s
    if (e = 'e' ∨ e = 'E') ∧ t.takeWhile Char.isDigit ≠ [] then
      (e :: sign ++ t.takeWhile Char.isDigit, t.dropWhile Char.isDigit)
    else ([], e :: s)

/-- A numeral without its sign, and what follows. -/
def scanNumber (float : List Char → PyFloat) (negative : Bool) (s : List Char) :
    Option (Json × List Char) := do
  let (digits, s) ← scanInt s
  let (frac, s) := scanFrac s
  let (exp, s) := scanExp s
  let sign := if negative then ['-'] else []
  if frac = [] ∧ exp = [] then
    if digits.length ≤ maxStrDigits then
      some (.int (if negative then -Nat.ofDigitChars 10 digits 0 else Nat.ofDigitChars 10 digits 0),
        s)
    else none
  else some (.float (float (sign ++ digits ++ frac ++ exp)), s)

/-! ### Values -/

/-- A value that is refused with a `ValueError`. -/
def orFault {α : Type} : Option α → Except Fault α
  | some a => .ok a
  | none => .error .value

/-- The items of a list or a dictionary that is not empty, up to the closing bracket. -/
def scanItems {α : Type} (item : List Char → Except Fault (α × List Char)) (closing : Char) :
    ℕ → List Char → Except Fault (List α × List Char)
  | 0, _ => .error .value
  | fuel + 1, s => do
    let (v, s) ← item s
    match skip s with
    | [] => .error .value
    | c :: s =>
      if c = closing then .ok ([v], s)
      else if c = ',' then do
        let (vs, s) ← scanItems item closing fuel (skip s)
        .ok (v :: vs, s)
      else .error .value

/-- The key of an entry, with the colon behind it. -/
def scanKey : List Char → Except Fault (PyStr × List Char)
  | '"' :: s => do
    let (k, s) ← orFault (scanString s)
    match skip s with
    | ':' :: s => .ok (k, skip s)
    | _ => .error .value
  | _ => .error .value

def scanEntry (value : List Char → Except Fault (Json × List Char)) (s : List Char) :
    Except Fault ((PyStr × Json) × List Char) := do
  let (k, s) ← scanKey s
  let (v, s) ← value s
  .ok ((k, v), s)

variable (d : Decoder)

/-- A value that is neither a list nor a dictionary, and what follows. -/
def scanScalar : List Char → Option (Json × List Char)
  | '"' :: s => (scanString s).map fun r => (.str r.1, r.2)
  | 'n' :: 'u' :: 'l' :: 'l' :: s => some (.null, s)
  | 't' :: 'r' :: 'u' :: 'e' :: s => some (.bool true, s)
  | 'f' :: 'a' :: 'l' :: 's' :: 'e' :: s => some (.bool false, s)
  | 'N' :: 'a' :: 'N' :: s => some (.float .nan, s)
  | 'I' :: 'n' :: 'f' :: 'i' :: 'n' :: 'i' :: 't' :: 'y' :: s => some (.float (.inf false), s)
  | '-' :: 'I' :: 'n' :: 'f' :: 'i' :: 'n' :: 'i' :: 't' :: 'y' :: s => some (.float (.inf true), s)
  | '-' :: s => scanNumber d.float true s
  | s => scanNumber d.float false s

/-- `scan_once`: a value, and what follows it. -/
def scanOnce : ℕ → List Char → Except Fault (Json × List Char)
  | 0, '[' :: _ => .error .recursion
  | n + 1, '[' :: s =>
    match skip s with
    | ']' :: s => .ok (.arr [], s)
    | s => do
      let (vs, s) ← scanItems (scanOnce n) ']' (s.length + 1) s
      .ok (.arr vs, s)
  | 0, '\x7b' :: _ => .error .recursion
  | n + 1, '\x7b' :: s =>
    match skip s with
    | '\x7d' :: s => do
      let v ← orFault (d.pairs [])
      .ok (v, s)
    | s => do
      let (fields, s) ← scanItems (scanEntry (scanOnce n)) '\x7d' (s.length + 1) s
      let v ← orFault (d.pairs fields)
      .ok (v, s)
  | _, s => orFault (scanScalar d s)

def loads (s : List Char) : Except Fault Json :=
  if s.head? = some (Char.ofNat 0xFEFF) then .error .value
  else do
    let (v, s) ← scanOnce d d.nesting (skip s)
    if skip s = [] then .ok v else .error .value

/-- The pairs as a dictionary: the last value under a key, where it came first. -/
def dictOf (fields : List (PyStr × Json)) : List (PyStr × Json) :=
  fields.foldl (fun acc f =>
    if f.1 ∈ acc.map Prod.fst then acc.map fun g => if g.1 = f.1 then f else g
    else acc ++ [f]) []

theorem dictOf_of_nodup {fields : List (PyStr × Json)} (h : (fields.map Prod.fst).Nodup) :
    dictOf fields = fields := by
  have hfold : ∀ (done rest : List (PyStr × Json)), ((done ++ rest).map Prod.fst).Nodup →
      rest.foldl (fun acc f => if f.1 ∈ acc.map Prod.fst then
        acc.map fun g => if g.1 = f.1 then f else g else acc ++ [f]) done = done ++ rest := by
    intro done rest
    induction rest generalizing done with
    | nil => simp
    | cons f rest ih =>
      intro hnodup
      have hnew : f.1 ∉ done.map Prod.fst := by
        rw [List.map_append, List.nodup_append] at hnodup
        exact fun hmem => hnodup.2.2 _ hmem _ (by simp) rfl
      rw [List.foldl_cons, if_neg hnew, ih _ (by simpa using hnodup), List.append_assoc,
        List.singleton_append]
  exact hfold [] fields h

/-- The decoder keeps the pairs of a dictionary as they are, if no key is there twice. -/
def Decoder.Faithful (d : Decoder) : Prop :=
  ∀ fields, (fields.map Prod.fst).Nodup → d.pairs fields = some (.obj fields)

/-- The decoder without a hook. -/
def Decoder.plain (float : List Char → PyFloat) (nesting : ℕ) : Decoder :=
  ⟨float, nesting, fun fields => some (.obj (dictOf fields))⟩

theorem Decoder.faithful_plain (float : List Char → PyFloat) (nesting : ℕ) :
    (Decoder.plain float nesting).Faithful := by
  intro fields h
  exact congrArg (fun fs => some (Json.obj fs)) (dictOf_of_nodup h)

/-! ### Strings are read back -/

section Strings

variable {s rest : List Char} {c : PyChar} {n : ℕ}

/-- The code points that the escapes of a code point denote one by one. -/
def units (c : PyChar) : PyStr :=
  if PyStr.code c < 0x10000 then [c]
  else [codePoint (0xD800 + (PyStr.code c - 0x10000) / 0x400),
    codePoint (0xDC00 + (PyStr.code c - 0x10000) % 0x400)]

theorem hexDigit?_digitChar (h : n < 16) : hexDigit? (Nat.digitChar n) = some n := by
  have hall : ∀ k < 16, hexDigit? (Nat.digitChar k) = some k := by decide
  exact hall n h

theorem hex4?_escape (h : n < 0x10000) :
    hex4? (Nat.digitChar (n / 4096 % 16)) (Nat.digitChar (n / 256 % 16))
      (Nat.digitChar (n / 16 % 16)) (Nat.digitChar (n % 16)) = some n := by
  have hlt : ∀ m : ℕ, m % 16 < 16 := fun m => Nat.mod_lt m (by omega)
  simp only [hex4?, hexDigit?_digitChar (hlt _), Option.bind_eq_bind, Option.bind_some,
    Option.some.injEq]
  omega

theorem scanUnits_escape (h : n < 0x10000) :
    scanUnits (PyStr.escape n ++ s) = (scanUnits s).map fun r => (codePoint n :: r.1, r.2) := by
  simp only [PyStr.escape, List.map_cons, List.map_nil, List.cons_append, List.nil_append]
  rw [scanUnits, hex4?_escape h]
  cases scanUnits s <;> rfl

theorem codePoint_code (c : PyChar) : codePoint (PyStr.code c) = c := by
  cases c with
  | scalar c =>
    have hvalid := c.valid
    change Nat.isValidChar c.val.toNat at hvalid
    unfold Nat.isValidChar at hvalid
    have hout : ¬(0xD800 ≤ c.toNat ∧ c.toNat - 0xD800 < 2048) := by
      change ¬(0xD800 ≤ c.val.toNat ∧ c.val.toNat - 0xD800 < 2048)
      omega
    rw [PyStr.code, codePoint, dif_neg hout, Char.ofNat_toNat]
  | surrogate n =>
    have hn := n.isLt
    have hin : 0xD800 ≤ 0xD800 + n.val ∧ 0xD800 + n.val - 0xD800 < 2048 := by omega
    rw [PyStr.code, codePoint, dif_pos hin]
    exact congrArg PyChar.surrogate (Fin.ext (by simp))

theorem scanUnits_plain {c : Char} (hlow : 0x20 ≤ c.toNat) (hquote : c ≠ '"')
    (hslash : c ≠ '\\') :
    scanUnits (c :: s) = (scanUnits s).map fun r => (.scalar c :: r.1, r.2) := by
  have hcontrol : ¬(c.toNat < 0x20 ∨ c = '\\') := by
    rintro (h | h)
    · omega
    · exact hslash h
  rw [scanUnits]
  · rw [if_neg hcontrol]
    cases scanUnits s <;> rfl
  · exact hquote
  · exact fun a b c d t h => absurd h hslash
  · exact fun e t h => absurd h hslash

theorem scanUnits_short {e c : Char} (hu : e ≠ 'u') (he : unescape e = some c) :
    scanUnits ('\\' :: e :: s) = (scanUnits s).map fun r => (.scalar c :: r.1, r.2) := by
  rw [scanUnits]
  · rw [he]
    cases scanUnits s <;> rfl
  · exact fun a b c d t h => absurd h hu

theorem units_of_lt (h : PyStr.code c < 0x10000) : units c = [c] := if_pos h

/-- What one code point is written as is read as the code points of its escapes. -/
theorem scanUnits_dumpsChar (c : PyChar) :
    scanUnits (PyStr.dumpsChar c ++ s) = (scanUnits s).map fun r => (units c ++ r.1, r.2) := by
  have hshort : ∀ e x, e ≠ 'u' → unescape e = some x → PyStr.code c = x.toNat →
      PyStr.code c < 0x10000 →
      scanUnits (['\\', e] ++ s) = (scanUnits s).map fun r => (units c ++ r.1, r.2) := by
    intro e x hu he hcode hlt
    have hc : c = .scalar x := PyStr.code_injective hcode
    rw [units_of_lt hlt, hc]
    exact scanUnits_short hu he
  dsimp only [PyStr.dumpsChar]
  split
  next h => exact hshort '"' '"' (by decide) rfl h (by omega)
  split
  next h => exact hshort '\\' '\\' (by decide) rfl h (by omega)
  split
  next h => exact hshort 'n' '\n' (by decide) rfl h (by omega)
  split
  next h => exact hshort 'r' '\r' (by decide) rfl h (by omega)
  split
  next h => exact hshort 't' '\t' (by decide) rfl h (by omega)
  split
  next h => exact hshort 'f' (Char.ofNat 0xC) (by decide) rfl h (by omega)
  split
  next h => exact hshort 'b' (Char.ofNat 0x8) (by decide) rfl h (by omega)
  split
  next hquote hslash _ _ _ _ _ hprintable =>
    -- printable ASCII stands for itself
    cases c with
    | surrogate n =>
      change 0x20 ≤ 0xD800 + n.val ∧ 0xD800 + n.val ≤ 0x7E at hprintable
      omega
    | scalar x =>
      simp only [PyStr.code] at hquote hslash hprintable ⊢
      rw [Char.ofNat_toNat, units_of_lt (by change x.toNat < 0x10000; omega), List.cons_append,
        List.nil_append, scanUnits_plain hprintable.1]
      · rfl
      · rintro rfl
        exact hquote rfl
      · rintro rfl
        exact hslash rfl
  split
  next hbasic =>
    rw [scanUnits_escape hbasic, codePoint_code, units_of_lt hbasic]
    rfl
  next hhigh =>
    have hcode : PyStr.code c < 0x110000 := by
      cases c with
      | scalar c =>
        have hvalid := c.valid
        change Nat.isValidChar c.val.toNat at hvalid
        unfold Nat.isValidChar at hvalid
        change c.val.toNat < 0x110000
        omega
      | surrogate n =>
        have hn := n.isLt
        change 0xD800 + n.val < 0x110000
        omega
    rw [List.append_assoc, scanUnits_escape (by omega), scanUnits_escape (by omega), units,
      if_neg hhigh]
    cases scanUnits s <;> rfl

theorem scanUnits_flatMap (s : PyStr) (rest : List Char) :
    scanUnits (s.flatMap PyStr.dumpsChar ++ '"' :: rest) = some (s.flatMap units, rest) := by
  induction s with
  | nil => rfl
  | cons c s ih =>
    rw [List.flatMap_cons, List.append_assoc, scanUnits_dumpsChar, ih]
    rfl

theorem codePoint_surrogate (n : Fin 2048) : codePoint (0xD800 + n.val) = .surrogate n :=
  codePoint_code (.surrogate n)

/-- Beyond the basic plane there are two code points, which go together. -/
theorem exists_units (h : ¬PyStr.code c < 0x10000) : ∃ high low : Fin 2048,
    units c = [.surrogate high, .surrogate low] ∧ high.val < 0x400 ∧ 0x400 ≤ low.val ∧
      pair high low = c := by
  cases c with
  | surrogate n => exact absurd (by have hn := n.isLt; change 0xD800 + n.val < _; omega) h
  | scalar c =>
    have hvalid := c.valid
    change Nat.isValidChar c.val.toNat at hvalid
    unfold Nat.isValidChar at hvalid
    have hbeyond : ¬c.val.toNat < 0x10000 := h
    have hhigh : (c.val.toNat - 0x10000) / 0x400 < 2048 := by omega
    have hlow : 0x400 + (c.val.toNat - 0x10000) % 0x400 < 2048 := by omega
    refine ⟨⟨_, hhigh⟩, ⟨_, hlow⟩, ?_, by simp only; omega, by simp only; omega, ?_⟩
    · rw [units, if_neg h]
      have hfirst := codePoint_surrogate ⟨_, hhigh⟩
      have hsecond := codePoint_surrogate ⟨_, hlow⟩
      rw [← hfirst, ← hsecond]
      simp only [PyStr.code, Char.toNat, ← Nat.add_assoc]
    · have hsum : 0x10000 + (c.val.toNat - 0x10000) / 0x400 * 0x400 +
          (0x400 + (c.val.toNat - 0x10000) % 0x400 - 0x400) = c.toNat := by
        change _ = c.val.toNat
        omega
      exact congrArg PyChar.scalar ((congrArg Char.ofNat hsum).trans (Char.ofNat_toNat c))

theorem code_pair {high low : Fin 2048} (hhigh : high.val < 0x400) (hlow : 0x400 ≤ low.val) :
    ¬PyStr.code (pair high low) < 0x10000 := by
  have hlt := low.isLt
  have hvalid : Nat.isValidChar (0x10000 + high.val * 0x400 + (low.val - 0x400)) :=
    .inr ⟨by omega, by omega⟩
  have hnat : (Char.ofNat (0x10000 + high.val * 0x400 + (low.val - 0x400))).toNat =
      0x10000 + high.val * 0x400 + (low.val - 0x400) := by
    rw [Char.ofNat, dif_pos hvalid]
    rfl
  change ¬(Char.ofNat (0x10000 + high.val * 0x400 + (low.val - 0x400))).toNat < 0x10000
  omega

theorem joinPairs_cons_of_ne {t : PyStr} (h : ∀ n, c ≠ .surrogate n) :
    joinPairs (c :: t) = c :: joinPairs t := by
  rw [joinPairs]
  exact fun high low u hc => absurd hc (h high)

theorem joinPairs_cons_surrogate {high : Fin 2048} {t : PyStr}
    (h : ∀ low u, t = .surrogate low :: u → ¬(high.val < 0x400 ∧ 0x400 ≤ low.val)) :
    joinPairs (.surrogate high :: t) = .surrogate high :: joinPairs t := by
  rcases t with - | ⟨c | low, t⟩
  · rfl
  · rfl
  · rw [joinPairs, if_neg (h low t rfl)]

/-- A character that is no surrogate keeps apart what is on its sides. -/
theorem joinPairs_append_scalar (s t : PyStr) (c : Char) :
    joinPairs (s ++ .scalar c :: t) = joinPairs s ++ .scalar c :: joinPairs t := by
  have hscalar := @joinPairs_cons_of_ne (.scalar c) t (by simp)
  induction s using joinPairs.induct with
  | case1 high low s h ih => simp only [List.cons_append, joinPairs, if_pos h, ih]
  | case2 high low s h ih =>
    simp only [List.cons_append] at ih ⊢
    rw [joinPairs, joinPairs, if_neg h, if_neg h, ih, List.cons_append]
  | case3 x s hnot ih =>
    cases x with
    | scalar x =>
      rw [List.cons_append, joinPairs_cons_of_ne (by simp), joinPairs_cons_of_ne (by simp), ih,
        List.cons_append]
    | surrogate high =>
      rw [List.cons_append, joinPairs_cons_surrogate, joinPairs_cons_surrogate, ih,
        List.cons_append]
      · exact fun low u hs => absurd hs (hnot high low u rfl)
      · intro low u hs
        rcases s with - | ⟨y, s⟩
        · cases hs
        · exact absurd (congrArg (· :: s) (List.cons.inj hs).1) (hnot high low s rfl)
  | case4 => exact hscalar

/-- What is put together is beyond the basic plane. -/
theorem mem_of_mem_joinPairs {s : PyStr} (hbasic : PyStr.code c < 0x10000)
    (h : c ∈ joinPairs s) : c ∈ s := by
  induction s using joinPairs.induct with
  | case1 high low s hpair ih =>
    rw [joinPairs, if_pos hpair] at h
    rcases List.mem_cons.mp h with rfl | h
    · exact absurd hbasic (code_pair hpair.1 hpair.2)
    · exact List.mem_cons_of_mem _ (List.mem_cons_of_mem _ (ih h))
  | case2 high low s hpair ih =>
    rw [joinPairs, if_neg hpair] at h
    rcases List.mem_cons.mp h with rfl | h
    · exact List.mem_cons_self
    · exact List.mem_cons_of_mem _ (ih h)
  | case3 x s hnot ih =>
    rw [joinPairs] at h
    · rcases List.mem_cons.mp h with rfl | h
      · exact List.mem_cons_self
      · exact List.mem_cons_of_mem _ (ih h)
    · exact hnot
  | case4 => exact h

/-- The pairs of what is read are those of what was written and those of the escapes. -/
theorem joinPairs_flatMap_units (s : PyStr) : joinPairs (s.flatMap units) = joinPairs s := by
  have hsurrogate : ∀ n, units (.surrogate n) = [.surrogate n] := by
    intro n
    have hn := n.isLt
    exact units_of_lt (by change 0xD800 + n.val < 0x10000; omega)
  induction s using joinPairs.induct with
  | case1 high low s h ih =>
    simp only [List.flatMap_cons, hsurrogate, List.cons_append, List.nil_append, joinPairs,
      if_pos h, ih]
  | case2 high low s h ih =>
    simp only [List.flatMap_cons, hsurrogate, List.cons_append, List.nil_append] at ih ⊢
    rw [joinPairs, joinPairs, if_neg h, if_neg h, ih]
  | case3 c s hnot ih =>
    by_cases hbasic : PyStr.code c < 0x10000
    · rw [List.flatMap_cons, units_of_lt hbasic, List.cons_append, List.nil_append]
      cases c with
      | scalar c => rw [joinPairs_cons_of_ne (by simp), joinPairs_cons_of_ne (by simp), ih]
      | surrogate high =>
        rw [joinPairs_cons_surrogate, joinPairs_cons_surrogate, ih]
        · exact fun low t hs => absurd hs (hnot high low t rfl)
        · -- what comes next is no low surrogate
          rintro low t hs ⟨-, hlow⟩
          rcases s with - | ⟨c', s⟩
          · cases hs
          · rw [List.flatMap_cons] at hs
            by_cases hbasic' : PyStr.code c' < 0x10000
            · rw [units_of_lt hbasic'] at hs
              exact hnot high low s rfl (congrArg (· :: s) (List.cons.inj hs).1)
            · obtain ⟨high', low', hunits, hhigh', -, -⟩ := exists_units hbasic'
              rw [hunits] at hs
              have heq := PyChar.surrogate.inj (List.cons.inj hs).1
              rw [heq] at hhigh'
              omega
    · obtain ⟨high, low, hunits, hhigh, hlow, hpair⟩ := exists_units hbasic
      have hne : ∀ n, c ≠ .surrogate n := by
        rintro n rfl
        have hn := n.isLt
        exact hbasic (by change 0xD800 + n.val < 0x10000; omega)
      rw [List.flatMap_cons, hunits, joinPairs_cons_of_ne hne]
      simp only [List.cons_append, List.nil_append]
      rw [joinPairs, if_pos ⟨hhigh, hlow⟩, hpair, ih]
  | case4 => rfl

theorem scanString_dumps (s : PyStr) (rest : List Char) :
    scanString (s.flatMap PyStr.dumpsChar ++ '"' :: rest) = some (joinPairs s, rest) := by
  rw [scanString, scanUnits_flatMap, Option.map_some, joinPairs_flatMap_units]

end Strings

/-! ### Numerals are read back -/

/-- What follows a numeral does not go on with it. -/
def NumeralEnd (rest : List Char) : Prop :=
  ∀ c t, rest = c :: t → c.isDigit = false ∧ c ≠ '.' ∧ c ≠ 'e' ∧ c ≠ 'E'

section Numerals

variable {digits rest : List Char} {n : ℕ} {t : List Char}

theorem takeWhile_digits (hdigits : ∀ c ∈ digits, c.isDigit) (hrest : NumeralEnd rest) :
    (digits ++ rest).takeWhile Char.isDigit = digits ∧
      (digits ++ rest).dropWhile Char.isDigit = rest := by
  have hnone : rest.takeWhile Char.isDigit = [] ∧ rest.dropWhile Char.isDigit = rest := by
    rcases rest with - | ⟨c, t⟩
    · exact ⟨rfl, rfl⟩
    · simp [(hrest c t rfl).1]
  rw [List.takeWhile_append_of_pos hdigits, List.dropWhile_append_of_pos hdigits, hnone.1, hnone.2,
    List.append_nil]
  exact ⟨rfl, rfl⟩

/-- Only zero begins with a zero. -/
theorem head_toDigits (h : 0 < n) : Nat.toDigits 10 n ≠ '0' :: t := by
  induction n using Nat.strong_induction_on generalizing t with
  | _ n ih =>
    rw [Nat.toDigits_eq_if (by omega)]
    split
    next hsmall =>
      intro heq
      have hall : ∀ k < 10, 0 < k → Nat.digitChar k ≠ '0' := by decide
      exact hall n hsmall h (List.cons.inj heq).1
    next hlarge =>
      rcases hdigits : Nat.toDigits 10 (n / 10) with - | ⟨c, u⟩
      · exact absurd hdigits Nat.toDigits_ne_nil
      · intro heq
        rw [List.cons_append] at heq
        exact ih (n / 10) (by omega) (by omega) (hdigits.trans (by rw [(List.cons.inj heq).1]))

theorem isDigit_toDigits {c : Char} (h : c ∈ Nat.toDigits 10 n) : c.isDigit :=
  Nat.isDigit_of_mem_toDigits (by omega) (by omega) h

theorem scanInt_toDigits (hrest : NumeralEnd rest) :
    scanInt (Nat.toDigits 10 n ++ rest) = some (Nat.toDigits 10 n, rest) := by
  rcases Nat.eq_zero_or_pos n with rfl | hpos
  · rfl
  · obtain ⟨htake, hdrop⟩ := takeWhile_digits (fun c hc => @isDigit_toDigits n c hc) hrest
    rw [scanInt]
    · rw [htake, hdrop, if_neg Nat.toDigits_ne_nil]
    · intro t heq
      rcases hdigits : Nat.toDigits 10 n with - | ⟨c, u⟩
      · exact Nat.toDigits_ne_nil hdigits
      · rw [hdigits, List.cons_append] at heq
        exact head_toDigits hpos (hdigits.trans (by rw [(List.cons.inj heq).1]))

theorem scanFrac_end (hrest : NumeralEnd rest) : scanFrac rest = ([], rest) := by
  rw [scanFrac]
  intro t heq
  exact (hrest _ t heq).2.1 rfl

theorem scanExp_end (hrest : NumeralEnd rest) : scanExp rest = ([], rest) := by
  rcases rest with - | ⟨e, t⟩
  · rfl
  · obtain ⟨-, -, he, hE⟩ := hrest e t rfl
    simp [scanExp, he, hE]

theorem scanNumber_toDigits {float : List Char → PyFloat} {negative : Bool}
    (hshort : (Nat.toDigits 10 n).length ≤ maxStrDigits) (hrest : NumeralEnd rest) :
    scanNumber float negative (Nat.toDigits 10 n ++ rest) =
      some (.int (if negative then -n else n), rest) := by
  simp [scanNumber, scanInt_toDigits hrest, scanFrac_end hrest, scanExp_end hrest, hshort]

theorem scanScalar_digits {d : Decoder} {c : Char} (h : c.isDigit) :
    scanScalar d (c :: t) = scanNumber d.float false (c :: t) := by
  have hne : ∀ x : Char, x.isDigit = false → c ≠ x := by
    rintro x hx rfl
    rw [h] at hx
    cases hx
  rw [scanScalar]
  all_goals
    intros
    rename_i heq
    exact absurd (List.cons.inj heq).1 (hne _ (by decide))

theorem scanScalar_minus {d : Decoder} {c : Char} (h : c.isDigit) :
    scanScalar d ('-' :: c :: t) = scanNumber d.float true (c :: t) := by
  rw [scanScalar]
  rintro u heq
  have hc := (List.cons.inj heq).1
  rw [hc] at h
  exact absurd h (by decide)

theorem toList_toString_int (k : ℤ) : (toString k).toList =
    if k < 0 then '-' :: Nat.toDigits 10 k.natAbs else Nat.toDigits 10 k.natAbs := by
  cases k with
  | ofNat n =>
    have hpos : ¬Int.ofNat n < 0 := by simp
    rw [if_neg hpos]
    exact Nat.toList_repr
  | negSucc n =>
    rw [if_pos (Int.negSucc_lt_zero n)]
    change ("-" ++ Nat.repr (n + 1)).toList = _
    rw [String.toList_append, Nat.toList_repr]
    rfl

/-- An integer is read back. -/
theorem scanScalar_int {d : Decoder} {k : ℤ}
    (hshort : (Nat.toDigits 10 k.natAbs).length ≤ maxStrDigits) (hrest : NumeralEnd rest) :
    scanScalar d ((toString k).toList ++ rest) = some (.int k, rest) := by
  rw [toList_toString_int]
  rcases hdigits : Nat.toDigits 10 k.natAbs with - | ⟨c, t⟩
  · exact absurd hdigits Nat.toDigits_ne_nil
  have hc : c.isDigit = true := isDigit_toDigits (hdigits ▸ List.mem_cons_self)
  have hnumber (negative : Bool) := @scanNumber_toDigits rest k.natAbs d.float negative hshort hrest
  rw [hdigits, List.cons_append] at hnumber
  split
  next hneg =>
    rw [List.cons_append, List.cons_append, scanScalar_minus hc, hnumber]
    simp only [if_true, Option.some.injEq, Prod.mk.injEq, Json.int.injEq, and_true]
    omega
  next hnonneg =>
    rw [List.cons_append, scanScalar_digits hc, hnumber]
    simp only [Bool.false_eq_true, if_false, Option.some.injEq, Prod.mk.injEq, Json.int.injEq,
      and_true]
    omega

end Numerals

end JsonText
