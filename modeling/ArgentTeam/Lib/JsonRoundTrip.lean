import ArgentTeam.Lib.JsonText
import Mathlib.Data.List.Find

/-!
# Writing JSON texts and reading them back

`json.dumps` with sorted keys, in any layout of blanks. What has been written is read back
(`loads_write`), up to the order of the keys and to the surrogates that go together. Floats are
left out, and so are integers that are too long for the decoder and keys that are the same for it.
-/

namespace JsonText

/-! ### Writing -/

/-- Where a text has blanks besides the one behind a colon. -/
structure Layout where
  first : ℕ → List Char
  next : ℕ → List Char
  last : ℕ → List Char
  blank : ∀ n, ∀ c ∈ first n ++ next n ++ last n, isBlank c = true

/-- The layout of `json.dumps(..)`. -/
def Layout.plain : Layout where
  first _ := []
  next _ := [' ']
  last _ := []
  blank := by simp [isBlank]

/-- The layout of `json.dumps(.., indent=1)`. -/
def Layout.indented : Layout where
  first n := '\n' :: List.replicate n ' '
  next n := '\n' :: List.replicate n ' '
  last n := '\n' :: List.replicate n ' '
  blank n c hc := by
    simp only [List.mem_append, List.mem_cons, List.mem_replicate, or_self] at hc
    rcases hc with rfl | ⟨-, rfl⟩ <;> rfl

def bracketed (l : Layout) (level : ℕ) (opening closing : Char) (items : List (List Char)) :
    List Char :=
  if items = [] then [opening, closing]
  else opening :: l.first (level + 1) ++ List.intercalate (',' :: l.next (level + 1)) items ++
    l.last level ++ [closing]

mutual

/-- `json.dumps(.., sort_keys=True)`. -/
def write (l : Layout) (level : ℕ) : Json → List Char
  | .null => "null".toList
  | .bool b => if b then "true".toList else "false".toList
  | .int n => (toString n).toList
  | .float .nan => "NaN".toList
  | .float (.inf negative) => if negative then "-Infinity".toList else "Infinity".toList
  | .float (.finite _ text) => text.toList
  | .str s => s.dumps
  | .arr xs => bracketed l level '[' ']' (writeList l (level + 1) xs)
  | .obj fields => bracketed l level '\x7b' '\x7d'
      (((writeFields l (level + 1) fields).insertionSort fun f g => PyStr.le f.1 g.1).map fun f =>
        f.1.dumps ++ ':' :: ' ' :: f.2)

def writeList (l : Layout) (level : ℕ) : List Json → List (List Char)
  | [] => []
  | x :: xs => write l level x :: writeList l level xs

def writeFields (l : Layout) (level : ℕ) : List (PyStr × Json) → List (PyStr × List Char)
  | [] => []
  | (k, x) :: xs => (k, write l level x) :: writeFields l level xs

end

mutual

/-- What a value is when it is read again. -/
def reread : Json → Json
  | .str s => .str (joinPairs s)
  | .arr xs => .arr (rereadList xs)
  | .obj fields => .obj (((rereadFields fields).insertionSort fun f g =>
      PyStr.le f.1 g.1).map fun f => (joinPairs f.1, f.2))
  | .null => .null
  | .bool b => .bool b
  | .int n => .int n
  | .float x => .float x

def rereadList : List Json → List Json
  | [] => []
  | x :: xs => reread x :: rereadList xs

def rereadFields : List (PyStr × Json) → List (PyStr × Json)
  | [] => []
  | (k, x) :: xs => (k, reread x) :: rereadFields xs

end

/-- A value that can be read again: it has no floats, its integers are not too long, no key is
there twice, and it is not nested too deeply. -/
inductive Readable : ℕ → Json → Prop
  | null {n : ℕ} : Readable n .null
  | bool {n : ℕ} {b : Bool} : Readable n (.bool b)
  | int {n : ℕ} {k : ℤ} (short : (Nat.toDigits 10 k.natAbs).length ≤ maxStrDigits) :
    Readable n (.int k)
  | str {n : ℕ} {s : PyStr} : Readable n (.str s)
  | arr {n : ℕ} {xs : List Json} (items : ∀ x ∈ xs, Readable n x) : Readable (n + 1) (.arr xs)
  | obj {n : ℕ} {fields : List (PyStr × Json)}
    (keys : (fields.map fun f => joinPairs f.1).Nodup)
    (values : ∀ f ∈ fields, Readable n f.2) : Readable (n + 1) (.obj fields)

/-! ### Values are read back -/

/-- A text begins with a character that is neither skipped nor a closing bracket nor a mark of the
byte order. -/
def Begins (s : List Char) : Prop := ∃ c t, s = c :: t ∧ isBlank c = false ∧
  c ∉ [']', '\x7d', Char.ofNat 0xFEFF]

section Items

variable {blanks s t rest : List Char}

theorem skip_blanks (h : ∀ c ∈ blanks, isBlank c) : skip (blanks ++ s) = skip s :=
  List.dropWhile_append_of_pos h

theorem Begins.skip (h : Begins s) : skip (s ++ rest) = s ++ rest := by
  obtain ⟨c, t, rfl, hc, -⟩ := h
  exact List.dropWhile_cons_of_neg (by simp [hc])

theorem Begins.append (h : Begins s) : Begins (s ++ t) := by
  obtain ⟨c, u, rfl, hc, hc'⟩ := h
  exact ⟨c, u ++ t, rfl, hc, hc'⟩

theorem numeralEnd_cons {c : Char} (h : isBlank c ∨ c ∈ [',', ']', '\x7d']) :
    NumeralEnd (c :: t) := by
  rintro x u heq
  obtain ⟨rfl, rfl⟩ := List.cons.inj heq
  have hmem : c ∈ [' ', '\t', '\n', '\r', ',', ']', '\x7d'] := by
    simpa [isBlank, or_assoc] using h
  revert hmem
  simp only [List.mem_cons, List.not_mem_nil, or_false]
  rintro (rfl | rfl | rfl | rfl | rfl | rfl | rfl) <;> decide

theorem numeralEnd_blanks (h : ∀ c ∈ blanks, isBlank c) (hs : NumeralEnd s) :
    NumeralEnd (blanks ++ s) := by
  rcases blanks with - | ⟨c, blanks⟩
  · exact hs
  · exact numeralEnd_cons (.inl (h c List.mem_cons_self))

theorem numeralEnd_nil : NumeralEnd [] := nofun

theorem begins_intercalate {sep : List Char} {xs : List (List Char)} (h : ∀ x ∈ xs, Begins x)
    (hne : xs ≠ []) : Begins (List.intercalate sep xs) := by
  rcases xs with - | ⟨x, - | ⟨y, xs⟩⟩
  · exact absurd rfl hne
  · rw [List.intercalate_singleton]
    exact h x List.mem_cons_self
  · rw [List.intercalate_cons_cons, List.append_assoc]
    exact (h x List.mem_cons_self).append

theorem length_le_intercalate {sep : List Char} {xs : List (List Char)} (h : ∀ x ∈ xs, Begins x) :
    xs.length ≤ (List.intercalate sep xs).length := by
  induction xs with
  | nil => exact Nat.zero_le _
  | cons x xs ih =>
    obtain ⟨c, u, hx, -⟩ := h x List.mem_cons_self
    have hrest := ih fun y hy => h y (List.mem_cons_of_mem _ hy)
    rcases xs with - | ⟨y, xs⟩
    · rw [List.intercalate_singleton, hx]
      simp
    · rw [List.intercalate_cons_cons, hx]
      simp only [List.length_cons, List.length_append] at hrest ⊢
      omega

section Scan

variable {α β : Type} {item : List Char → Except Fault (α × List Char)} {closing : Char}
  {text : β → List Char} {made : β → α} {items : List β} {next last : List Char} {fuel : ℕ}

/-- **Items are read back one by one**, if each of them is. -/
theorem scanItems_intercalate (hclosing : closing ∈ [']', '\x7d'])
    (hnext : ∀ c ∈ next, isBlank c) (hlast : ∀ c ∈ last, isBlank c)
    (hbegins : ∀ i ∈ items, Begins (text i))
    (hitem : ∀ i ∈ items, ∀ rest, NumeralEnd rest → item (text i ++ rest) = .ok (made i, rest))
    (hne : items ≠ []) (hfuel : items.length ≤ fuel) :
    scanItems item closing fuel (List.intercalate (',' :: next) (items.map text) ++
      (last ++ closing :: rest)) = .ok (items.map made, rest) := by
  have hbracket : isBlank closing = false ∧ closing ≠ ',' := by
    simp only [List.mem_cons, List.not_mem_nil, or_false] at hclosing
    rcases hclosing with rfl | rfl <;> decide
  induction items generalizing fuel with
  | nil => exact absurd rfl hne
  | cons i items ih =>
    obtain ⟨fuel, rfl⟩ : ∃ m, fuel = m + 1 := ⟨fuel - 1, by simp at hfuel; omega⟩
    have hi := hitem i List.mem_cons_self
    rcases items with - | ⟨j, items⟩
    · have hend : NumeralEnd (last ++ closing :: rest) :=
        numeralEnd_blanks hlast (numeralEnd_cons (.inr (List.mem_cons_of_mem _ hclosing)))
      have hskip : skip (last ++ closing :: rest) = closing :: rest := by
        rw [skip_blanks hlast]
        exact List.dropWhile_cons_of_neg (by simp [hbracket.1])
      rw [List.map_singleton, List.intercalate_singleton, scanItems, hi _ hend]
      simp only [bind, Except.bind, hskip, if_true, List.map_singleton]
    · have hbegins' : ∀ x ∈ (j :: items).map text, Begins x :=
        List.forall_mem_map.mpr fun k hk => hbegins k (List.mem_cons_of_mem _ hk)
      have hrest : (j :: items).map text ≠ [] := by simp
      have hfuel' : (j :: items).length ≤ fuel := by simpa using hfuel
      have hrec := ih (fun k hk => hbegins k (List.mem_cons_of_mem _ hk))
        (fun k hk => hitem k (List.mem_cons_of_mem _ hk)) (by simp) hfuel'
      have hcomma : ∀ u, skip (',' :: u) = ',' :: u := fun u => rfl
      rw [List.map_cons, List.map_cons, List.intercalate_cons_cons, ← List.map_cons,
        List.append_assoc, List.append_assoc, List.cons_append, scanItems,
        hi _ (numeralEnd_cons (.inr List.mem_cons_self))]
      simp only [bind, Except.bind, hcomma, if_neg hbracket.2.symm, if_true]
      rw [skip_blanks hnext, (begins_intercalate hbegins' hrest).skip, hrec]
      rfl

end Scan

end Items

section Values

variable {d : Decoder} {l : Layout} {n : ℕ} {s t rest : List Char}

theorem writeList_eq_map (l : Layout) (level : ℕ) (xs : List Json) :
    writeList l level xs = xs.map (write l level) := by
  induction xs with
  | nil => rfl
  | cons x xs ih => rw [writeList, ih, List.map_cons]

theorem writeFields_eq_map (l : Layout) (level : ℕ) (fields : List (PyStr × Json)) :
    writeFields l level fields = fields.map fun f => (f.1, write l level f.2) := by
  induction fields with
  | nil => rfl
  | cons f fields ih => rw [writeFields, ih, List.map_cons]

theorem rereadList_eq_map (xs : List Json) : rereadList xs = xs.map reread := by
  induction xs with
  | nil => rfl
  | cons x xs ih => rw [rereadList, ih, List.map_cons]

theorem rereadFields_eq_map (fields : List (PyStr × Json)) :
    rereadFields fields = fields.map fun f => (f.1, reread f.2) := by
  induction fields with
  | nil => rfl
  | cons f fields ih => rw [rereadFields, ih, List.map_cons]

/-- The fields in the order of their keys. -/
def byKey {β : Type} (fields : List (PyStr × β)) : List (PyStr × β) :=
  fields.insertionSort fun f g => PyStr.le f.1 g.1

theorem byKey_map {β γ : Type} (f : β → γ) (fields : List (PyStr × β)) :
    byKey (fields.map fun e => (e.1, f e.2)) = (byKey fields).map fun e => (e.1, f e.2) :=
  (List.map_insertionSort (fun a b : PyStr × β => PyStr.le a.1 b.1 = true)
    (fun a b : PyStr × γ => PyStr.le a.1 b.1 = true) (fun e => (e.1, f e.2)) fields
    fun _ _ _ _ => Iff.rfl).symm

theorem mem_byKey {β : Type} {fields : List (PyStr × β)} {f : PyStr × β} :
    f ∈ byKey fields ↔ f ∈ fields := List.mem_insertionSort _

def entryText (l : Layout) (level : ℕ) (f : PyStr × Json) : List Char :=
  f.1.dumps ++ ':' :: ' ' :: write l level f.2

theorem write_obj (l : Layout) (level : ℕ) (fields : List (PyStr × Json)) :
    write l level (.obj fields) =
      bracketed l level '\x7b' '\x7d' ((byKey fields).map (entryText l (level + 1))) := by
  rw [write, writeFields_eq_map]
  change bracketed l level _ _ ((byKey _).map _) = _
  rw [byKey_map, List.map_map]
  rfl

theorem reread_obj (fields : List (PyStr × Json)) :
    reread (.obj fields) = .obj ((byKey fields).map fun f => (joinPairs f.1, reread f.2)) := by
  rw [reread, rereadFields_eq_map]
  change Json.obj ((byKey _).map _) = _
  rw [byKey_map, List.map_map]
  rfl

theorem begins_cons {c : Char} (hblank : isBlank c = false)
    (hbracket : c ∉ [']', '\x7d', Char.ofNat 0xFEFF]) : Begins (c :: t) :=
  ⟨c, t, rfl, hblank, hbracket⟩

theorem begins_bracketed {level : ℕ} {opening closing : Char} {items : List (List Char)}
    (hblank : isBlank opening = false) (hbracket : opening ∉ [']', '\x7d', Char.ofNat 0xFEFF]) :
    Begins (bracketed l level opening closing items) := by
  unfold bracketed
  split
  · exact begins_cons hblank hbracket
  · exact begins_cons hblank hbracket

theorem begins_digit {c : Char} (h : c.isDigit) : Begins (c :: t) := by
  have hne : ∀ x : Char, x.isDigit = false → c ≠ x := by
    rintro x hx rfl
    rw [h] at hx
    cases hx
  refine begins_cons ?_ ?_
  · simp only [isBlank, Bool.or_eq_false_iff, decide_eq_false_iff_not]
    exact ⟨⟨⟨hne _ (by decide), hne _ (by decide)⟩, hne _ (by decide)⟩, hne _ (by decide)⟩
  · simp only [List.mem_cons, List.not_mem_nil, or_false, not_or]
    exact ⟨hne _ (by decide), hne _ (by decide), hne _ (by decide)⟩

theorem begins_write {v : Json} (h : Readable n v) (level : ℕ) : Begins (write l level v) := by
  cases h with
  | null => exact begins_cons (by decide) (by decide)
  | @bool _ b => cases b <;> exact begins_cons (by decide) (by decide)
  | @int _ k _ =>
    rw [write, toList_toString_int]
    split
    · exact begins_cons (by decide) (by decide)
    · rcases hdigits : Nat.toDigits 10 k.natAbs with - | ⟨c, u⟩
      · exact absurd hdigits Nat.toDigits_ne_nil
      · exact begins_digit (isDigit_toDigits (hdigits ▸ List.mem_cons_self))
  | str => exact begins_cons (by decide) (by decide)
  | arr _ => exact begins_bracketed (by decide) (by decide)
  | obj _ _ => exact begins_bracketed (by decide) (by decide)

theorem scanOnce_scalar {c : Char} (h : c ≠ '[') (h' : c ≠ '\x7b') :
    scanOnce d n (c :: t) = orFault (scanScalar d (c :: t)) := by
  rw [scanOnce]
  · exact fun u _ heq => absurd (List.cons.inj heq).1 h
  · exact fun m u _ heq => absurd (List.cons.inj heq).1 h
  · exact fun u _ heq => absurd (List.cons.inj heq).1 h'
  · exact fun m u _ heq => absurd (List.cons.inj heq).1 h'

theorem scanOnce_string (s : PyStr) (rest : List Char) :
    scanOnce d n (s.dumps ++ rest) = .ok (.str (joinPairs s), rest) := by
  rw [PyStr.dumps, List.append_assoc, List.cons_append, List.singleton_append,
    scanOnce_scalar (by decide) (by decide), scanScalar, scanString_dumps]
  rfl

theorem scanKey_dumps (k : PyStr) (h : Begins s) :
    scanKey (k.dumps ++ ':' :: ' ' :: (s ++ rest)) = .ok (joinPairs k, s ++ rest) := by
  have hcolon : ∀ u, skip (':' :: u) = ':' :: u := fun u => rfl
  have hblank : skip (' ' :: (s ++ rest)) = skip (s ++ rest) := rfl
  rw [PyStr.dumps, List.append_assoc, List.cons_append, List.singleton_append, scanKey,
    scanString_dumps]
  simp only [orFault, bind, Except.bind, hcolon]
  rw [hblank, h.skip]

/-- What is written between brackets is read back. -/
theorem scanItems_bracketed {α β : Type} {item : List Char → Except Fault (α × List Char)}
    {opening closing : Char} {text : β → List Char} {made : β → α} {items : List β} {level : ℕ}
    (hclosing : closing ∈ [']', '\x7d']) (hbegins : ∀ i ∈ items, Begins (text i))
    (hitem : ∀ i ∈ items, ∀ rest, NumeralEnd rest → item (text i ++ rest) = .ok (made i, rest))
    (hne : items ≠ []) (rest : List Char) :
    ∃ s t, bracketed l level opening closing (items.map text) ++ rest = opening :: s ∧
      skip s = t ∧ Begins t ∧
        scanItems item closing (t.length + 1) t = .ok (items.map made, rest) := by
  have hblank : (∀ c ∈ l.first (level + 1), isBlank c = true) ∧
      (∀ c ∈ l.next (level + 1), isBlank c = true) ∧ ∀ c ∈ l.last level, isBlank c = true := by
    have hall := l.blank
    simp only [List.forall_mem_append] at hall
    exact ⟨(hall _).1.1, (hall _).1.2, (hall _).2⟩
  have htexts : ∀ x ∈ items.map text, Begins x := List.forall_mem_map.mpr hbegins
  have hne' : items.map text ≠ [] := by simpa using hne
  have hbegins' := @begins_intercalate (',' :: l.next (level + 1)) _ htexts hne'
  refine ⟨_, _, ?_, (skip_blanks hblank.1).trans hbegins'.skip, hbegins'.append,
    scanItems_intercalate hclosing hblank.2.1 hblank.2.2 hbegins hitem hne ?_⟩
  · rw [bracketed, if_neg hne']
    simp only [List.cons_append, List.append_assoc, List.nil_append]
  · have hlength := @length_le_intercalate (',' :: l.next (level + 1)) _ htexts
    rw [List.length_map] at hlength
    rw [List.length_append]
    omega

theorem scanOnce_list {vs : List Json} (hskip : skip s = t) (hbegins : Begins t)
    (h : scanItems (scanOnce d n) ']' (t.length + 1) t = .ok (vs, rest)) :
    scanOnce d (n + 1) ('[' :: s) = .ok (.arr vs, rest) := by
  obtain ⟨c, u, rfl, -, hc⟩ := hbegins
  rw [scanOnce, hskip]
  split
  next heq => exact absurd (List.cons.inj heq).1 (by rintro rfl; exact hc (by simp))
  · rw [h]
    rfl

theorem scanOnce_dict {fields : List (PyStr × Json)} {v : Json} (hskip : skip s = t)
    (hbegins : Begins t)
    (h : scanItems (scanEntry (scanOnce d n)) '\x7d' (t.length + 1) t = .ok (fields, rest))
    (hpairs : d.pairs fields = some v) :
    scanOnce d (n + 1) ('\x7b' :: s) = .ok (v, rest) := by
  obtain ⟨c, u, rfl, -, hc⟩ := hbegins
  rw [scanOnce, hskip]
  split
  next heq => exact absurd (List.cons.inj heq).1 (by rintro rfl; exact hc (by simp))
  · rw [h]
    simp only [bind, Except.bind, hpairs, orFault]

theorem head_toString_int (k : ℤ) :
    ∃ c t, (toString k).toList = c :: t ∧ c ≠ '[' ∧ c ≠ '\x7b' := by
  rw [toList_toString_int]
  split
  · exact ⟨'-', _, rfl, by decide, by decide⟩
  · rcases hdigits : Nat.toDigits 10 k.natAbs with - | ⟨c, u⟩
    · exact absurd hdigits Nat.toDigits_ne_nil
    · have hc : c.isDigit = true := isDigit_toDigits (hdigits ▸ List.mem_cons_self)
      refine ⟨c, u, rfl, ?_, ?_⟩ <;> rintro rfl <;> exact absurd hc (by decide)

/-- **A value is read back**, whatever the layout. -/
theorem scanOnce_write (hd : d.Faithful) {v : Json} (h : Readable n v) :
    ∀ level rest, NumeralEnd rest →
      scanOnce d n (write l level v ++ rest) = .ok (reread v, rest) := by
  induction h with
  | null => exact fun _ _ _ => scanOnce_scalar (by decide) (by decide)
  | @bool n b =>
    intro level rest _
    cases b <;> exact scanOnce_scalar (by decide) (by decide)
  | @int n k hshort =>
    intro level rest hrest
    obtain ⟨c, t, hwrite, hlist, hdict⟩ := head_toString_int k
    have hscan := @scanScalar_int _ d k hshort hrest
    rw [write, reread]
    rw [hwrite, List.cons_append] at hscan ⊢
    rw [scanOnce_scalar hlist hdict, hscan]
    rfl
  | str => exact fun level rest _ => scanOnce_string _ rest
  | @arr n xs hitems ih =>
    intro level rest hrest
    rw [write, writeList_eq_map, reread, rereadList_eq_map]
    rcases eq_or_ne xs [] with rfl | hne
    · rfl
    · obtain ⟨s, t, htext, hskip, hbegins, hscan⟩ := @scanItems_bracketed l _ _
        (scanOnce d n) '[' ']' (write l (level + 1)) reread xs level (by simp)
        (fun x hx => begins_write (hitems x hx) _) (fun x hx => ih x hx _) hne rest
      rw [htext]
      exact scanOnce_list hskip hbegins hscan
  | @obj n fields hkeys hvalues ih =>
    intro level rest hrest
    rw [write_obj, reread_obj]
    rcases eq_or_ne fields [] with rfl | hne
    · have hpairs := hd [] List.nodup_nil
      change (orFault (d.pairs []) >>= fun v => Except.ok (v, rest)) = _
      rw [hpairs]
      rfl
    · have hitem : ∀ f ∈ byKey fields, ∀ rest, NumeralEnd rest →
          scanEntry (scanOnce d n) (entryText l (level + 1) f ++ rest) =
            .ok ((joinPairs f.1, reread f.2), rest) := by
        intro f hf rest hrest
        have hmem := mem_byKey.mp hf
        rw [entryText, List.append_assoc, List.cons_append, List.cons_append, scanEntry,
          scanKey_dumps f.1 (begins_write (hvalues f hmem) _)]
        simp only [bind, Except.bind, ih f hmem _ rest hrest]
      have hne' : byKey fields ≠ [] := by
        intro hnil
        exact hne (List.eq_nil_iff_forall_not_mem.mpr fun f hf => by
          have hmem := mem_byKey.mpr hf
          rw [hnil] at hmem
          cases hmem)
      have hentry : ∀ f ∈ byKey fields, Begins (entryText l (level + 1) f) :=
        fun f _ => begins_cons (by decide) (by decide)
      obtain ⟨s, t, htext, hskip, hbegins, hscan⟩ := @scanItems_bracketed l _ _
        (scanEntry (scanOnce d n)) '\x7b' '\x7d' (entryText l (level + 1))
        (fun f => (joinPairs f.1, reread f.2)) (byKey fields) level (by simp) hentry hitem hne' rest
      rw [htext]
      refine scanOnce_dict hskip hbegins hscan (hd _ ?_)
      -- no key is there twice, in whatever order
      rw [List.map_map]
      exact (((List.perm_insertionSort _ fields).map _).nodup_iff).mpr hkeys

/-- **What has been written is read back.** -/
theorem loads_write (hd : d.Faithful) {v : Json} (h : Readable d.nesting v) :
    loads d (write l 0 v) = .ok (reread v) := by
  obtain ⟨c, t, htext, hblank, hc⟩ := @begins_write l _ _ h 0
  have hscan := @scanOnce_write d l _ hd v h 0 [] numeralEnd_nil
  have hskip : skip (write l 0 v) = write l 0 v := by
    rw [htext]
    exact List.dropWhile_cons_of_neg (by simp [hblank])
  have hmark : ¬(write l 0 v).head? = some (Char.ofNat 0xFEFF) := by
    rw [htext, List.head?_cons, Option.some.injEq]
    rintro rfl
    exact hc (by simp)
  rw [List.append_nil] at hscan
  rw [loads, if_neg hmark, hskip, hscan]
  rfl

end Values

/-! ### Texts and keys without surrogates -/

theorem joinPairs_ofString (t : String) : joinPairs (PyStr.ofString t) = PyStr.ofString t := by
  unfold PyStr.ofString
  induction t.toList with
  | nil => rfl
  | cons c cs ih => rw [List.map_cons, joinPairs_cons_of_ne (by simp), ih]

theorem joinPairs_of_encode? {s : PyStr} (h : s.encode?.isSome) : joinPairs s = s := by
  obtain ⟨t, ht⟩ := Option.isSome_iff_exists.mp h
  rw [PyStr.eq_ofString_of_encode? ht, joinPairs_ofString]

/-- A dictionary with literal keys has the same fields when it is read again. -/
theorem reread_dict {fields : List (String × Json)} (h : (fields.map Prod.fst).Nodup) :
    ∃ fs, reread (.dict fields) = .obj fs ∧ ∀ key, Json.get? fs key =
      (Json.get? (fields.map fun f => (PyStr.ofString f.1, f.2)) key).map reread := by
  refine ⟨_, reread_obj _, fun key => ?_⟩
  generalize hF : (fields.map fun f => (PyStr.ofString f.1, f.2)) = F
  have hnodup : (F.map Prod.fst).Nodup := by
    have hmap := h.map PyStr.ofString_injective
    rw [← hF, List.map_map]
    rwa [List.map_map] at hmap
  have hkeys : ∀ f ∈ byKey F, (joinPairs f.1, reread f.2) = (f.1, reread f.2) := by
    subst hF
    intro f hf
    obtain ⟨g, -, rfl⟩ := List.mem_map.mp (mem_byKey.mp hf)
    rw [joinPairs_ofString]
  have hperm : F.Perm (byKey F) := (List.perm_insertionSort _ F).symm
  rw [List.map_congr_left hkeys, Json.get?, List.find?_map, Json.get?, Option.map_map,
    Option.map_map, List.find?_eq_find?_of_perm hperm]
  · rfl
  · rintro f ⟨hf, hfkey⟩ g ⟨hg, hgkey⟩
    exact List.inj_on_of_nodup_map hnodup hf hg
      ((of_decide_eq_true hfkey).trans (of_decide_eq_true hgkey).symm)

/-! ### One line -/

theorem intercalate_eq_join (xs : List (List Char)) :
    List.intercalate [',', ' '] xs = Json.join xs := by
  induction xs with
  | nil => rfl
  | cons x xs ih =>
    rcases xs with - | ⟨y, xs⟩
    · rw [List.intercalate_singleton]
      rfl
    · rw [List.intercalate_cons_cons, ih, Json.join, List.append_assoc]
      rfl

theorem bracketed_plain (level : ℕ) (opening closing : Char) (items : List (List Char)) :
    bracketed .plain level opening closing items = opening :: Json.join items ++ [closing] := by
  unfold bracketed
  split
  next hnil =>
    rw [hnil]
    rfl
  · change opening :: [] ++ List.intercalate [',', ' '] items ++ [] ++ [closing] = _
    rw [intercalate_eq_join, List.append_nil, List.cons_append, List.nil_append, List.cons_append]

mutual

theorem write_plain (level : ℕ) : (v : Json) → write .plain level v = v.dumps
  | .null | .bool _ | .int _ | .str _ => by rw [write, Json.dumps]
  | .float .nan | .float (.inf _) | .float (.finite _ _) => by rw [write, Json.dumps]
  | .arr xs => by rw [write, Json.dumps, bracketed_plain, writeList_plain]
  | .obj fields => by rw [write, Json.dumps, bracketed_plain, writeFields_plain]

theorem writeList_plain (level : ℕ) : (xs : List Json) →
    writeList .plain level xs = Json.dumpsList xs
  | [] => rfl
  | x :: xs => by rw [writeList, Json.dumpsList, write_plain level x, writeList_plain level xs]

theorem writeFields_plain (level : ℕ) : (fields : List (PyStr × Json)) →
    writeFields .plain level fields = Json.dumpsFields fields
  | [] => rfl
  | (k, x) :: fields => by
    rw [writeFields, Json.dumpsFields, write_plain level x, writeFields_plain level fields]

end

end JsonText
