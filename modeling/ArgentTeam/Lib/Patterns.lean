import Mathlib.Algebra.BigOperators.Group.List.Basic
import Mathlib.Algebra.GroupWithZero.Nat

/-!
# Patterns, searched for and replaced

A pattern spells out characters of given classes, one by one or as many of a class as there are,
and may ask for a word boundary where it begins and where it ends. `Pattern.find` backtracks as the
matcher of a scripting language does, and `Pattern.sub` replaces what is found from the left.

What a replacement leaves alone is what stands in its result (`Pattern.stays_iff`). But it can bring
a match about that was not there before: it may put a boundary beside what it leaves.
`Pattern.Occ.of_sub` says what an occurrence in the result was before, and
`Pattern.found_of_sub` when it was one already; where it was not, `Pattern.Leaves` or
`Pattern.Enters` fails. `Pattern.found_take_iff` is about the boundary that a cut makes.
-/

variable {α : Type}

/-- A piece of a pattern: a character of a class, or a run of them. -/
inductive Piece (α : Type)
  | one (cls : α → Bool)
  | many (cls : α → Bool) (least : ℕ)

namespace Piece

/-- The class of its characters. -/
def cls : Piece α → α → Bool
  | one c | many c _ => c

/-- How many characters it stands for at least. -/
def least : Piece α → ℕ
  | one _ => 1
  | many _ n => n

def Spells (p : Piece α) (x : List α) : Prop :=
  p.least ≤ x.length ∧ (∀ a ∈ x, p.cls a = true) ∧ match p with
    | one _ => x.length ≤ 1
    | many .. => True

end Piece

/-- The parts spell a text, one after the other. -/
def Spells : List (Piece α) → List α → Prop
  | [], x => x = []
  | p :: ps, x => ∃ y z, x = y ++ z ∧ p.Spells y ∧ Spells ps z

namespace Spells

variable {p : Piece α} {ps qs : List (Piece α)} {x : List α} {a : α} {c : α → Bool} {m n : ℕ}

theorem one_iff : Spells (.one c :: ps) x ↔ ∃ a y, x = a :: y ∧ c a ∧ Spells ps y := by
  constructor
  · rintro ⟨y, z, rfl, ⟨hleast, hcls, hmost⟩, hz⟩
    obtain ⟨a, rfl⟩ := List.length_eq_one_iff.mp (Nat.le_antisymm hmost hleast)
    exact ⟨a, z, rfl, hcls a List.mem_cons_self, hz⟩
  · rintro ⟨a, y, rfl, ha, hy⟩
    exact ⟨[a], y, rfl, ⟨Nat.le_refl 1, by simpa [Piece.cls] using ha, Nat.le_refl 1⟩, hy⟩

theorem many_iff : Spells (.many c n :: ps) x ↔ n = 0 ∧ Spells ps x ∨
    ∃ a y, x = a :: y ∧ c a ∧ Spells (.many c (n - 1) :: ps) y := by
  constructor
  · rintro ⟨y, z, rfl, ⟨hleast, hcls, -⟩, hz⟩
    rcases y with _ | ⟨a, y⟩
    · exact .inl ⟨Nat.le_zero.mp hleast, hz⟩
    · refine .inr ⟨a, y ++ z, rfl, hcls a List.mem_cons_self, y, z, rfl, ⟨?_, ?_, trivial⟩, hz⟩
      · simp only [Piece.least, List.length_cons] at hleast ⊢
        omega
      · exact fun b hb => hcls b (List.mem_cons_of_mem _ hb)
  · rintro (⟨rfl, hx⟩ | ⟨a, y, rfl, ha, y, z, rfl, ⟨hleast, hcls, -⟩, hz⟩)
    · exact ⟨[], x, rfl, ⟨Nat.le_refl 0, by simp, trivial⟩, hx⟩
    · refine ⟨a :: y, z, rfl, ⟨?_, ?_, trivial⟩, hz⟩
      · simp only [Piece.least, List.length_cons] at hleast ⊢
        omega
      · exact List.forall_mem_cons.mpr ⟨ha, hcls⟩

theorem least_le (h : Spells ps x) : (ps.map Piece.least).sum ≤ x.length := by
  induction ps generalizing x with
  | nil => exact Nat.zero_le _
  | cons p ps ih =>
    obtain ⟨y, z, rfl, hy, hz⟩ := h
    rw [List.map_cons, List.sum_cons, List.length_append]
    exact Nat.add_le_add hy.1 (ih hz)

theorem not_mem (h : Spells ps x) (hcls : ps.all (fun p => !p.cls a) = true) : a ∉ x := by
  induction ps generalizing x with
  | nil => simp [show x = [] from h]
  | cons p ps ih =>
    obtain ⟨y, z, rfl, hy, hz⟩ := h
    rw [List.all_cons, Bool.and_eq_true] at hcls
    intro ha
    rcases List.mem_append.mp ha with ha | ha
    · simpa [hy.2.1 a ha] using hcls.1
    · exact ih hz hcls.2 ha

theorem append_iff : Spells (ps ++ qs) x ↔ ∃ y z, x = y ++ z ∧ Spells ps y ∧ Spells qs z := by
  induction ps generalizing x with
  | nil => simp [Spells]
  | cons p ps ih =>
    constructor
    · rintro ⟨y, z, rfl, hy, hz⟩
      obtain ⟨z, w, rfl, hz, hw⟩ := ih.mp hz
      exact ⟨y ++ z, w, (List.append_assoc ..).symm, ⟨y, z, rfl, hy, hz⟩, hw⟩
    · rintro ⟨_, w, rfl, ⟨y, z, rfl, hy, hz⟩, hw⟩
      exact ⟨y, z ++ w, List.append_assoc .., hy, ih.mpr ⟨z, w, rfl, hz, hw⟩⟩

theorem weaken (hmn : m ≤ n) (h : Spells (ps ++ [.many c n]) x) :
    Spells (ps ++ [.many c m]) x := by
  obtain ⟨y, _, rfl, hy, z, w, rfl, ⟨hleast, hcls, -⟩, hw⟩ := (append_iff).mp h
  exact (append_iff).mpr ⟨y, _, rfl, hy, z, w, rfl, ⟨Nat.le_trans hmn hleast, hcls, trivial⟩, hw⟩

theorem getLast?_any (h : Spells (ps ++ [p]) x) (hp : 0 < p.least) :
    x.getLast?.any p.cls := by
  obtain ⟨y, w, rfl, -, z, _, rfl, hz, rfl⟩ := (append_iff).mp h
  obtain rfl | ⟨z, a, rfl⟩ := List.eq_nil_or_concat' z
  · exact absurd hz.1 (Nat.not_le.mpr hp)
  · simpa using hz.2.1 a (by simp)

end Spells

/-! ### Matching -/

/-- Both sides of a place are told apart by whether there is a word. -/
def Edge (word : α → Bool) (a b : Option α) : Prop := a.any word ≠ b.any word

instance (word : α → Bool) (a b : Option α) : Decidable (Edge word a b) :=
  inferInstanceAs (Decidable (_ ≠ _))

/-- The parts that are left, where the text is at its end. -/
def matchEnd (fin : Option α → Option α → Bool) (prev : Option α) : List (Piece α) → Option ℕ
  | [] => if fin prev none then some 0 else none
  | .one _ :: _ => none
  | .many _ n :: ps => if n = 0 then matchEnd fin prev ps else none

/-- The parts that are left, where the text goes on with `a`. A run is as long as it can be. -/
def matchCons (fin : Option α → Option α → Bool) (prev : Option α) (a : α)
    (rest : List (Piece α) → Option ℕ) : List (Piece α) → Option ℕ
  | [] => if fin prev (some a) then some 0 else none
  | .one c :: ps => if c a then (rest ps).map (· + 1) else none
  | .many c n :: ps =>
    (if c a then (rest (.many c (n - 1) :: ps)).map (· + 1) else none) <|>
      if n = 0 then matchCons fin prev a rest ps else none

/-- How far the parts match from here; `fin` is asked what stands on both sides of the end. -/
def matchLen (fin : Option α → Option α → Bool) : List α → Option α → List (Piece α) → Option ℕ
  | [], prev => matchEnd fin prev
  | a :: t, prev => matchCons fin prev a (matchLen fin t (some a))

section Matching

variable {fin : Option α → Option α → Bool} {ps : List (Piece α)} {t x y : List α} {prev : Option α}
  {c : α → Bool} {k n : ℕ}

theorem getLast?_cons_or (a : α) (x : List α) (o : Option α) :
    (a :: x).getLast?.or o = x.getLast?.or (some a) := by
  cases x with
  | nil => rfl
  | cons b x => simp [List.getLast?_cons]

/-- **What is matched is spelt by the parts.** -/
theorem matchLen_sound (h : matchLen fin t prev ps = some k) :
    ∃ x y, t = x ++ y ∧ x.length = k ∧ Spells ps x ∧ fin (x.getLast?.or prev) y.head? := by
  induction t generalizing prev ps k with
  | nil =>
    induction ps with
    | nil =>
      simp only [matchLen, matchEnd, Option.ite_none_right_eq_some, Option.some.injEq] at h
      exact ⟨[], [], rfl, h.2, rfl, h.1⟩
    | cons p ps ih =>
      cases p with
      | one => simp [matchLen, matchEnd] at h
      | many c n =>
        simp only [matchLen, matchEnd, Option.ite_none_right_eq_some] at h
        obtain ⟨x, y, ht, hk, hx, hfin⟩ := ih h.2
        exact ⟨x, y, ht, hk, Spells.many_iff.mpr (.inl ⟨h.1, hx⟩), hfin⟩
  | cons a t iht =>
    induction ps with
    | nil =>
      simp only [matchLen, matchCons, Option.ite_none_right_eq_some, Option.some.injEq] at h
      exact ⟨[], a :: t, rfl, h.2, rfl, h.1⟩
    | cons p ps ih =>
      -- A step into the text, after which the rest is matched.
      have hstep : ∀ qs j, matchLen fin t (some a) qs = some j → j + 1 = k →
          ∃ x y, a :: t = a :: x ++ y ∧ (a :: x).length = k ∧ Spells qs x ∧
            fin ((a :: x).getLast?.or prev) y.head? = true := by
        intro qs j hj hk
        obtain ⟨x, y, rfl, rfl, hx, hfin⟩ := iht hj
        exact ⟨x, y, rfl, hk, hx, getLast?_cons_or a x prev ▸ hfin⟩
      cases p with
      | one c =>
        simp only [matchLen, matchCons, Option.ite_none_right_eq_some, Option.map_eq_some_iff] at h
        obtain ⟨ha, j, hj, hk⟩ := h
        obtain ⟨x, y, ht, hlen, hx, hfin⟩ := hstep ps j hj hk
        exact ⟨a :: x, y, ht, hlen, Spells.one_iff.mpr ⟨a, x, rfl, ha, hx⟩, hfin⟩
      | many c n =>
        simp only [matchLen, matchCons, Option.orElse_eq_orElse, Option.orElse_eq_or,
          Option.or_eq_some_iff, Option.ite_none_right_eq_some, Option.map_eq_some_iff] at h
        obtain ⟨ha, j, hj, hk⟩ | ⟨-, hn, h⟩ := h
        · obtain ⟨x, y, ht, hlen, hx, hfin⟩ := hstep _ j hj hk
          exact ⟨a :: x, y, ht, hlen, Spells.many_iff.mpr (.inr ⟨a, x, rfl, ha, hx⟩), hfin⟩
        · obtain ⟨x, y, ht, hlen, hx, hfin⟩ := ih h
          exact ⟨x, y, ht, hlen, Spells.many_iff.mpr (.inl ⟨hn, hx⟩), hfin⟩

/-- What the parts spell is matched, unless something else is that comes first. -/
theorem isSome_matchLen (h : Spells ps x) (hfin : fin (x.getLast?.or prev) y.head?) :
    (matchLen fin (x ++ y) prev ps).isSome := by
  generalize ht : x ++ y = t
  induction t generalizing prev ps x with
  | nil =>
    obtain ⟨rfl, rfl⟩ := List.append_eq_nil_iff.mp ht
    induction ps with
    | nil => simpa [matchLen, matchEnd] using hfin
    | cons p ps ih =>
      cases p with
      | one c => simp [Spells.one_iff] at h
      | many c n =>
        obtain ⟨rfl, hps⟩ | ⟨a, y, hy, -⟩ := Spells.many_iff.mp h
        · exact ih hps
        · cases hy
  | cons a t iht =>
    induction ps with
    | nil =>
      obtain rfl : x = [] := h
      obtain rfl : y = a :: t := ht
      simpa [matchLen, matchCons] using hfin
    | cons p ps ih =>
      cases p with
      | one c =>
        obtain ⟨b, x, rfl, hb, hx⟩ := Spells.one_iff.mp h
        obtain ⟨rfl, rfl⟩ := List.cons.inj ht
        simpa [matchLen, matchCons, hb] using iht hx (getLast?_cons_or b x prev ▸ hfin) rfl
      | many c n =>
        simp only [matchLen, matchCons, Option.orElse_eq_orElse, Option.orElse_eq_or,
          Option.isSome_or, Bool.or_eq_true]
        obtain ⟨rfl, hps⟩ | ⟨b, x, rfl, hb, hx⟩ := Spells.many_iff.mp h
        · exact .inr (by simpa [matchLen] using ih hps)
        · obtain ⟨rfl, rfl⟩ := List.cons.inj ht
          exact .inl (by simpa [hb] using iht hx (getLast?_cons_or b x prev ▸ hfin) rfl)

/-- A run that has what it needs goes on as far as it can. -/
theorem run_over_cons {a : α} (hfin : ∀ a b, fin a b)
    (h : matchLen fin (a :: t) prev [.many c n] = some k) :
    (∃ j, matchLen fin t (some a) [.many c (n - 1)] = some j ∧ k = j + 1) ∨
      c a = false ∧ k = 0 := by
  simp only [matchLen, matchCons, Option.orElse_eq_orElse, Option.orElse_eq_or] at h
  cases hc : c a with
  | false => simp_all
  | true =>
    refine .inl ?_
    cases hrest : matchLen fin t (some a) [.many c (n - 1)] with
    | some j => exact ⟨j, rfl, by simpa [hc, hrest] using h.symm⟩
    | none =>
      obtain rfl : n = 0 := by
        by_contra hn
        simp [hc, hrest, hn] at h
      have hnone : matchLen fin ([] ++ t) (some a) [.many c 0] = none := hrest
      have hsome : (matchLen fin ([] ++ t) (some a) [.many c 0]).isSome = true :=
        isSome_matchLen (Spells.many_iff.mpr (.inl ⟨rfl, rfl⟩)) (hfin ..)
      exact absurd hsome (by simpa using hnone)

/-- **A run at the end takes all it can**, if nothing is asked of what follows. -/
theorem run_over (hfin : ∀ a b, fin a b)
    (h : matchLen fin t prev (ps ++ [.many c n]) = some k) :
    ∀ b ∈ (t.drop k).head?, c b = false := by
  induction t generalizing prev ps k n with
  | nil => simp
  | cons a t iht =>
    induction ps with
    | nil =>
      obtain ⟨j, hj, rfl⟩ | ⟨hc, rfl⟩ := run_over_cons hfin h
      · exact iht (show matchLen fin t (some a) ([] ++ [.many c (n - 1)]) = some j from hj)
      · simpa using hc
    | cons p ps ih =>
      cases p with
      | one d =>
        simp only [List.cons_append, matchLen, matchCons, Option.ite_none_right_eq_some,
          Option.map_eq_some_iff] at h
        obtain ⟨-, j, hj, rfl⟩ := h
        exact iht hj
      | many d m =>
        simp only [List.cons_append, matchLen, matchCons, Option.orElse_eq_orElse,
          Option.orElse_eq_or, Option.or_eq_some_iff, Option.ite_none_right_eq_some,
          Option.map_eq_some_iff] at h
        obtain ⟨-, j, hj, rfl⟩ | ⟨-, -, h⟩ := h
        · exact iht (show matchLen fin t (some a) ((.many d (m - 1) :: ps) ++ [.many c n]) = some j
            from hj)
        · exact ih h

end Matching

/-! ### Searching -/

/-- A pattern: its parts, and whether there are to be word boundaries around it. -/
structure Pattern (α : Type) where
  opens : Bool := false
  parts : List (Piece α)
  closes : Bool := false

namespace Pattern

variable (word : α → Bool) (p : Pattern α)

/-- What has to stand on both sides of its end. -/
def fin (a b : Option α) : Bool := !p.closes || decide (Edge word a b)

/-- The length of its match at this place, behind `prev`. -/
def find (prev : Option α) (t : List α) : Option ℕ :=
  if p.opens = true → Edge word prev t.head? then matchLen (p.fin word) t prev p.parts else none

/-- `x`, between `l` and `y`, is a match. -/
def Occ (l x y : List α) : Prop :=
  Spells p.parts x ∧ (p.opens = true → Edge word l.getLast? (x ++ y).head?) ∧
    (p.closes = true → Edge word (l ++ x).getLast? y.head?)

/-- It has a match in a text. -/
def Found (t : List α) : Prop := ∃ l x y, t = l ++ (x ++ y) ∧ p.Occ word l x y

/-- `re.search`, from this place on. -/
def search (prev : Option α) : List α → Bool
  | [] => (p.find word prev []).isSome
  | a :: t => (p.find word prev (a :: t)).isSome || search (some a) t

/-- `re.sub`, for a pattern that matches no empty text: this many characters belong to the last
match. -/
def sub (mark : List α) : Option α → ℕ → List α → List α
  | _, _, [] => []
  | _, n + 1, a :: t => sub mark (some a) n t
  | prev, 0, a :: t => match p.find word prev (a :: t) with
    | some (n + 1) => mark ++ sub mark (some a) n t
    | _ => a :: sub mark (some a) 0 t

/-- How long its matches are at least. -/
def least : ℕ := (p.parts.map Piece.least).sum

variable {word p} {q : Pattern α} {mark l x y t z : List α} {prev : Option α} {k n : ℕ}

theorem fin_iff {a b : Option α} : p.fin word a b ↔ (p.closes → Edge word a b) := by
  cases h : p.closes <;> simp [fin, h]

theorem find_eq_some (h : p.find word l.getLast? t = some k) :
    ∃ x y, t = x ++ y ∧ x.length = k ∧ p.Occ word l x y := by
  unfold find at h
  obtain ⟨hopens, hlen⟩ := Option.ite_none_right_eq_some.mp h
  obtain ⟨x, y, rfl, hk, hx, hfin⟩ := matchLen_sound hlen
  exact ⟨x, y, rfl, hk, hx, hopens, by rw [List.getLast?_append]; exact (fin_iff).mp hfin⟩

theorem isSome_find_iff :
    (p.find word l.getLast? t).isSome ↔ ∃ x y, t = x ++ y ∧ p.Occ word l x y := by
  constructor
  · intro h
    obtain ⟨k, hk⟩ := Option.isSome_iff_exists.mp h
    obtain ⟨x, y, ht, -, hocc⟩ := find_eq_some hk
    exact ⟨x, y, ht, hocc⟩
  · rintro ⟨x, y, rfl, hx, hopens, hcloses⟩
    unfold find
    rw [if_pos hopens]
    exact isSome_matchLen hx ((fin_iff).mpr (by rwa [List.getLast?_append] at hcloses))

theorem search_iff : p.search word l.getLast? t ↔
    ∃ l' x y, t = l' ++ (x ++ y) ∧ p.Occ word (l ++ l') x y := by
  induction t generalizing l with
  | nil =>
    rw [search, isSome_find_iff]
    constructor
    · rintro ⟨x, y, ht, hocc⟩
      exact ⟨[], x, y, ht, by rwa [List.append_nil]⟩
    · rintro ⟨l', x, y, ht, hocc⟩
      obtain ⟨rfl, hxy⟩ := List.append_eq_nil_iff.mp ht.symm
      exact ⟨x, y, hxy.symm, by rwa [List.append_nil] at hocc⟩
  | cons a t ih =>
    have hrest := ih (l := l ++ [a])
    rw [List.getLast?_concat] at hrest
    rw [search, Bool.or_eq_true, isSome_find_iff, hrest]
    constructor
    · rintro (⟨x, y, ht, hocc⟩ | ⟨l', x, y, rfl, hocc⟩)
      · exact ⟨[], x, y, ht, by rwa [List.append_nil]⟩
      · exact ⟨a :: l', x, y, rfl, by rwa [List.append_cons]⟩
    · rintro ⟨_ | ⟨b, l'⟩, x, y, ht, hocc⟩
      · exact .inl ⟨x, y, ht, by rwa [List.append_nil] at hocc⟩
      · obtain ⟨rfl, rfl⟩ := List.cons.inj ht
        exact .inr ⟨l', x, y, rfl, by rwa [List.append_cons] at hocc⟩

/-- **A search finds what there is.** -/
theorem search_eq_true_iff : p.search word none t ↔ p.Found word t := by
  simpa [Found] using search_iff (l := [])

theorem length_of_find (h : p.find word l.getLast? t = some k) : p.least ≤ k ∧ k ≤ t.length := by
  obtain ⟨x, y, rfl, rfl, hx, -⟩ := find_eq_some h
  exact ⟨hx.least_le, by simp⟩

/-! ### Replacing -/

theorem sub_skip :
    p.sub word mark prev n t = p.sub word mark ((t.take n).getLast?.or prev) 0 (t.drop n) := by
  induction n generalizing t prev with
  | zero => rfl
  | succ n ih =>
    cases t with
    | nil => cases n <;> rfl
    | cons a t =>
      rw [sub, ih, List.take_succ_cons, List.drop_succ_cons, getLast?_cons_or]

theorem sub_of_find (hp : 0 < p.least) (h : p.find word l.getLast? (x ++ y) = some x.length) :
    p.sub word mark l.getLast? 0 (x ++ y) = mark ++ p.sub word mark (l ++ x).getLast? 0 y := by
  have hpos := (length_of_find h).1
  rcases x with _ | ⟨a, x⟩
  · simp at hpos
    omega
  · rw [List.cons_append] at h ⊢
    rw [sub, h]
    simp [sub_skip (n := x.length), List.getLast?_append, getLast?_cons_or]

theorem sub_of_not_find {a : α} (h : p.find word l.getLast? (a :: t) = none) :
    p.sub word mark l.getLast? 0 (a :: t) = a :: p.sub word mark (l ++ [a]).getLast? 0 t := by
  rw [sub, h, List.getLast?_concat]

/-- A text is at its end, or a match is replaced here, or its first character is kept. -/
theorem sub_cases (word : α → Bool) (mark : List α) (hp : 0 < p.least) (l t : List α) :
    t = [] ∨
    (∃ x y, t = x ++ y ∧ x ≠ [] ∧ p.find word l.getLast? (x ++ y) = some x.length ∧
      p.sub word mark l.getLast? 0 t = mark ++ p.sub word mark (l ++ x).getLast? 0 y) ∨
    ∃ a y, t = a :: y ∧ p.find word l.getLast? t = none ∧
      p.sub word mark l.getLast? 0 t = a :: p.sub word mark (l ++ [a]).getLast? 0 y := by
  cases h : p.find word l.getLast? t with
  | none =>
    cases t with
    | nil => exact .inl rfl
    | cons a t => exact .inr (.inr ⟨a, t, rfl, rfl, sub_of_not_find h⟩)
  | some k =>
    obtain ⟨x, y, rfl, rfl, hx, -⟩ := find_eq_some h
    refine .inr (.inl ⟨x, y, rfl, ?_, h, sub_of_find hp h⟩)
    rintro rfl
    exact absurd hx.least_le (Nat.not_le.mpr hp)

/-- A scan for replacements: it has read `l` and written `k`, and `t` is left to be read. -/
inductive Scan (word : α → Bool) (p : Pattern α) (mark : List α) :
    List α → List α → List α → Prop
  | start (t : List α) : Scan word p mark [] [] t
  | keep {l k t : List α} {a : α} (h : Scan word p mark l k (a :: t))
      (hfind : p.find word l.getLast? (a :: t) = none) :
      Scan word p mark (l ++ [a]) (k ++ [a]) t
  | replace {l k w t : List α} (h : Scan word p mark l k (w ++ t)) (hne : w ≠ [])
      (hfind : p.find word l.getLast? (w ++ t) = some w.length) :
      Scan word p mark (l ++ w) (k ++ mark) t

/-- **What a scan has written** is how the result begins. -/
theorem Scan.sub_eq (hp : 0 < p.least) {k : List α} (h : Scan word p mark l k t) :
    p.sub word mark none 0 (l ++ t) = k ++ p.sub word mark l.getLast? 0 t := by
  induction h with
  | start => rfl
  | keep _ hfind ih =>
    rw [List.append_assoc, List.singleton_append, ih, sub_of_not_find hfind, List.append_assoc,
      List.singleton_append]
  | replace _ _ hfind ih => rw [List.append_assoc, ih, sub_of_find hp hfind, List.append_assoc]

/-- What has been written ends as what has been read, or a match has just been replaced. -/
theorem Scan.getLast? {k : List α} (h : Scan word p mark l k t) : k.getLast? = l.getLast? ∨
    ∃ m w, l = m ++ w ∧ w ≠ [] ∧ p.find word m.getLast? (w ++ t) = some w.length := by
  cases h with
  | start => exact .inl rfl
  | keep => exact .inl (by simp)
  | replace _ hne hfind => exact .inr ⟨_, _, rfl, hne, hfind⟩

/-- **What is kept stands as it was**, up to the next replacement. -/
theorem sub_eq_append (hp : 0 < p.least) (hmark : mark ≠ []) (hx : ∀ a ∈ mark.head?, a ∉ x)
    {k : List α} (hk : Scan word p mark l k t) (h : p.sub word mark l.getLast? 0 t = x ++ z) :
    ∃ y, t = x ++ y ∧ z = p.sub word mark (l ++ x).getLast? 0 y ∧
      Scan word p mark (l ++ x) (k ++ x) y ∧
      (x ≠ [] → p.find word l.getLast? (x ++ y) = none) := by
  induction x generalizing l k t with
  | nil =>
    refine ⟨t, rfl, ?_, ?_, by simp⟩
    · rw [List.append_nil]
      exact h.symm
    · rwa [List.append_nil, List.append_nil]
  | cons a x ih =>
    obtain rfl | ⟨m, y, rfl, -, -, hsub⟩ | ⟨b, y, rfl, hfind, hsub⟩ := sub_cases word mark hp l t
    · simp [sub] at h
    · obtain ⟨b, mark, rfl⟩ := List.exists_cons_of_ne_nil hmark
      rw [hsub] at h
      obtain ⟨rfl, -⟩ := List.cons.inj h
      exact absurd List.mem_cons_self (hx b rfl)
    · rw [hsub] at h
      obtain ⟨rfl, hrest⟩ := List.cons.inj h
      obtain ⟨w, rfl, rfl, hscan, -⟩ :=
        ih (fun c hc hmem => hx c hc (List.mem_cons_of_mem _ hmem)) (hk.keep hfind) hrest
      exact ⟨w, rfl, by rw [List.append_cons l b x],
        by rwa [List.append_cons l b x, List.append_cons k b x], fun _ => hfind⟩

/-- A text that is not shorter than the mark and without its last character begins behind it. -/
theorem exists_of_mark_append {l' : List α} (hx : ∀ a ∈ mark.getLast?, a ∉ x)
    (hlen : mark.length ≤ x.length) (h : mark ++ y = l' ++ (x ++ z)) :
    ∃ l'', l' = mark ++ l'' ∧ y = l'' ++ (x ++ z) := by
  obtain ⟨l'', rfl, hy⟩ | ⟨m, hm, hxz⟩ := List.append_eq_append_iff.mp h
  · exact ⟨l'', rfl, hy⟩
  · obtain rfl | hne := eq_or_ne m []
    · exact ⟨[], by simpa using hm.symm, by simpa using hxz.symm⟩
    · -- The end of the mark would lie in the text.
      have hlast : mark.getLast? = m.getLast? := by
        rw [hm, List.getLast?_append, List.getLast?_eq_some_getLast hne, Option.some_or]
      have hle : m.length ≤ x.length := by
        have := congrArg List.length hm
        simp at this
        omega
      have hpre : m <+: x :=
        List.prefix_of_prefix_length_le (hxz ▸ List.prefix_append m y) (List.prefix_append x z) hle
      exact absurd (hpre.subset (List.getLast_mem hne))
        (hx _ (hlast.trans (List.getLast?_eq_some_getLast hne)))

/-- **Where a kept text begins**, the scan has come to it. -/
theorem sub_eq_append_append (hp : 0 < p.least) (hmark : mark ≠ [])
    (hx : ∀ a ∈ mark.getLast?, a ∉ x) (hlen : mark.length ≤ x.length) {k k' : List α}
    (hk : Scan word p mark l k t) (h : p.sub word mark l.getLast? 0 t = k' ++ (x ++ z)) :
    ∃ m t', t = m ++ t' ∧ p.sub word mark (l ++ m).getLast? 0 t' = x ++ z ∧
      Scan word p mark (l ++ m) (k ++ k') t' := by
  induction hn : t.length using Nat.strongRecOn generalizing l k k' t with
  | ind n ih =>
    obtain rfl | ⟨m, y, rfl, hne, hfind, hsub⟩ | ⟨b, y, rfl, hfind, hsub⟩ :=
      sub_cases word mark hp l t
    · have hnil := congrArg List.length h
      have hpos := List.length_pos_iff.mpr hmark
      simp only [sub, List.length_nil, List.length_append] at hnil
      omega
    · rw [hsub] at h
      obtain ⟨k'', rfl, hy⟩ := exists_of_mark_append hx hlen h
      have hlt : y.length < n := by
        have := List.length_pos_iff.mpr hne
        rw [← hn, List.length_append]
        omega
      obtain ⟨m', t', rfl, hsub', hscan⟩ := ih _ hlt (hk.replace hne hfind) hy rfl
      exact ⟨m ++ m', t', by rw [List.append_assoc], by rwa [← List.append_assoc],
        by rwa [← List.append_assoc, ← List.append_assoc]⟩
    · rcases k' with _ | ⟨c, k'⟩
      · exact ⟨[], b :: y, rfl, by rwa [List.append_nil], by rwa [List.append_nil, List.append_nil]⟩
      · rw [hsub] at h
        obtain ⟨rfl, hy⟩ := List.cons.inj h
        obtain ⟨m', t', rfl, hsub', hscan⟩ :=
          ih _ (by rw [← hn]; exact Nat.lt_succ_self _) (hk.keep hfind) hy rfl
        exact ⟨b :: m', t', rfl, by rwa [List.append_cons],
          by rwa [List.append_cons l, List.append_cons k]⟩

/-- Replacements, one after the other, leave `x` alone, between `l` and `y`, and what they make of
`l` puts it within the first `n` characters. -/
def Stays (word : α → Bool) (mark : List α) (n : ℕ) :
    List (Pattern α) → List α → List α → List α → Prop
  | [], l, x, _ => (l ++ x).length ≤ n
  | p :: ps, l, x, y => ∃ k, Scan word p mark l k (x ++ y) ∧
      Scan word p mark (l ++ x) (k ++ x) y ∧
      Stays word mark n ps k x (p.sub word mark (l ++ x).getLast? 0 y)

/-- **What stands in the result has been left alone**, if it cannot be mistaken for the mark. -/
theorem stays_iff {ps : List (Pattern α)} (hps : ∀ p ∈ ps, 0 < p.least) (hmark : mark ≠ [])
    (hfirst : ∀ a ∈ mark.head?, a ∉ x) (hlast : ∀ a ∈ mark.getLast?, a ∉ x)
    (hlen : mark.length ≤ x.length) :
    (∃ k z, ps.foldl (fun t p => p.sub word mark none 0 t) t = k ++ (x ++ z) ∧
      (k ++ x).length ≤ n) ↔ ∃ l y, t = l ++ (x ++ y) ∧ Stays word mark n ps l x y := by
  induction ps generalizing t with
  | nil => exact Iff.rfl
  | cons p ps ih =>
    obtain ⟨hp, hps⟩ := List.forall_mem_cons.mp hps
    rw [List.foldl_cons, ih hps]
    constructor
    · rintro ⟨k, z, ht, hstays⟩
      obtain ⟨l, t', rfl, hsub, hscan⟩ :=
        sub_eq_append_append hp hmark hlast hlen (.start t) ht
      obtain ⟨y, rfl, rfl, hscan', -⟩ := sub_eq_append hp hmark hfirst hscan hsub
      exact ⟨l, y, rfl, k, hscan, hscan', hstays⟩
    · rintro ⟨l, y, rfl, k, -, hscan, hstays⟩
      refine ⟨k, _, ?_, hstays⟩
      rw [← List.append_assoc, hscan.sub_eq hp, List.append_assoc]

/-- What is replaced leaves no word behind where one of these characters follows. -/
def Leaves (word starts : α → Bool) (p : Pattern α) : Prop :=
  ∀ l x y : List α, p.find word l.getLast? (x ++ y) = some x.length → x ≠ [] →
    y.head?.any starts = true → (l ++ x).getLast?.any word = false

/-- Where a match follows a word, it does not go on with it. -/
def Enters (word : α → Bool) (p : Pattern α) : Prop :=
  ∀ l t : List α, (p.find word l.getLast? t).isSome = true → l.getLast?.any word = true →
    t.head?.any word = false

section Kinds

variable {starts : α → Bool} {ps : List (Piece α)} {c : α → Bool}

theorem leaves_of_closes (hcloses : p.closes)
    (hstarts : ∀ a, starts a → word a) : p.Leaves word starts := by
  intro l x y hfind _ hy
  obtain ⟨x', y', heq, hlen, -, -, hedge⟩ := find_eq_some hfind
  obtain ⟨rfl, rfl⟩ := List.append_inj heq hlen.symm
  obtain ⟨a, ha, hstart⟩ := Option.any_eq_true _ _ |>.mp hy
  have hedge := hedge hcloses
  rw [Edge, ha, Option.any_some, hstarts a hstart] at hedge
  exact Bool.eq_false_iff.mpr fun h => hedge h

theorem leaves_of_run (hcloses : p.closes = false) (hparts : p.parts = ps ++ [.many c n])
    (hstarts : ∀ a, starts a → c a) : p.Leaves word starts := by
  intro l x y hfind _ hy
  obtain ⟨a, ha, hstart⟩ := Option.any_eq_true _ _ |>.mp hy
  have hlen := (Option.ite_none_right_eq_some.mp hfind).2
  rw [hparts] at hlen
  have hover := run_over (fun _ _ => by simp [fin, hcloses]) hlen a (by simpa using ha)
  simp [hstarts a hstart] at hover

theorem leaves_of_last (hparts : p.parts = ps ++ [.one c])
    (hc : ∀ a, c a → word a = false) : p.Leaves word starts := by
  intro l x y hfind hne _
  obtain ⟨x', y', heq, hlen, hspells, -⟩ := find_eq_some hfind
  obtain ⟨rfl, rfl⟩ := List.append_inj heq hlen.symm
  have hany := Spells.getLast?_any (p := .one c) (hparts ▸ hspells) Nat.zero_lt_one
  obtain ⟨a, ha, hlast⟩ := Option.any_eq_true _ _ |>.mp hany
  rw [List.getLast?_append, ha]
  exact hc a hlast

theorem enters_of_opens (hopens : p.opens) : p.Enters word := by
  intro l t hfind hword
  unfold find at hfind
  split at hfind
  · next hedge => exact Bool.eq_false_iff.mpr (hword ▸ (hedge hopens).symm)
  · cases hfind

theorem enters_of_head (hparts : p.parts = .one c :: ps)
    (hc : ∀ a, c a → word a = false) : p.Enters word := by
  intro l t hfind _
  obtain ⟨x, y, rfl, hx, -⟩ := isSome_find_iff.mp hfind
  obtain ⟨a, x, rfl, ha, -⟩ := Spells.one_iff.mp (hparts ▸ hx)
  exact hc a ha

end Kinds

/-- Texts between which and the mark nothing can be mistaken. -/
structure Clear (word : α → Bool) (mark x : List α) : Prop where
  ne : mark ≠ []
  first : ∀ a ∈ mark.head?, a ∉ x ∧ word a = false
  last : ∀ a ∈ mark.getLast?, a ∉ x ∧ word a = false
  length : mark.length ≤ x.length

theorem Clear.ne_nil (h : Clear word mark x) : x ≠ [] := by
  rintro rfl
  exact h.ne (List.length_eq_zero_iff.mp (Nat.le_zero.mp h.length))

/-- **What an occurrence in the result was before.** It was one then, but for the boundary at its
end, where something that follows it may have been replaced. -/
theorem Occ.of_sub {starts : α → Bool} (hp : 0 < p.least) (hleaves : p.Leaves word starts)
    (hclear : Clear word mark x) (hstart : q.opens → x.head?.any starts ∧
      x.head?.any word) (h : q.Occ word l x z)
    (ht : p.sub word mark none 0 t = l ++ (x ++ z)) :
    ∃ m y, t = m ++ (x ++ y) ∧ p.find word m.getLast? (x ++ y) = none ∧
      (q.opens → Edge word m.getLast? (x ++ y).head?) ∧
      (y.head? = z.head? ∨
        z.head? = mark.head? ∧ (p.find word (m ++ x).getLast? y).isSome) := by
  have hne := hclear.ne_nil
  obtain ⟨m, t', rfl, hsub, hscan⟩ := sub_eq_append_append hp hclear.ne
    (fun a ha => (hclear.last a ha).1) hclear.length (.start t) ht
  simp only [List.nil_append] at hsub hscan
  obtain ⟨y, rfl, rfl, -, hfind⟩ :=
    sub_eq_append hp hclear.ne (fun a ha => (hclear.first a ha).1) hscan hsub
  have hhead : ∀ y : List α, (x ++ y).head? = x.head? := fun y => by
    obtain ⟨a, x, rfl⟩ := List.exists_cons_of_ne_nil hne
    rfl
  refine ⟨m, y, rfl, hfind hne, fun hopens => ?_, ?_⟩
  · -- Before the occurrence there is no more of a word than there was.
    have hedge := h.2.1 hopens
    rw [Edge, hhead] at hedge ⊢
    obtain hlast | ⟨m₀, w, rfl, hw, hfound⟩ := hscan.getLast?
    · rwa [← hlast]
    · rw [hleaves m₀ w _ hfound hw (hhead y ▸ (hstart hopens).1), (hstart hopens).2]
      exact Bool.false_ne_true
  · obtain rfl | ⟨w, y, rfl, -, hfound, hcase⟩ | ⟨a, y, rfl, -, hcase⟩ :=
      sub_cases word mark hp (m ++ x) y
    · exact .inl rfl
    · rw [hcase]
      obtain ⟨a, mark, rfl⟩ := List.exists_cons_of_ne_nil hclear.ne
      exact .inr ⟨rfl, Option.isSome_of_eq_some hfound⟩
    · exact .inl (by rw [hcase]; rfl)

/-- **An occurrence that was one before**: after what is replaced no word breaks off, or the
occurrence may end anywhere. -/
theorem Occ.of_sub_of_enters {starts : α → Bool} (hp : 0 < p.least)
    (hleaves : p.Leaves word starts) (henters : p.Enters word ∨ q.closes = false)
    (hclear : Clear word mark x) (hstart : q.opens → x.head?.any starts ∧
      x.head?.any word) (h : q.Occ word l x z)
    (ht : p.sub word mark none 0 t = l ++ (x ++ z)) :
    ∃ m y, t = m ++ (x ++ y) ∧ q.Occ word m x y ∧ p.find word m.getLast? (x ++ y) = none := by
  obtain ⟨m, y, rfl, hfind, hopens, hnext⟩ := h.of_sub hp hleaves hclear hstart ht
  refine ⟨m, y, rfl, ⟨h.1, hopens, fun hcloses => ?_⟩, hfind⟩
  have hedge := h.2.2 hcloses
  have hlast : ∀ l : List α, (l ++ x).getLast? = x.getLast? := fun l => by
    rw [List.getLast?_append, List.getLast?_eq_some_getLast hclear.ne_nil, Option.some_or]
  rw [Edge, hlast] at hedge ⊢
  obtain hnext | ⟨hnext, hfound⟩ := hnext
  · rwa [hnext]
  · have hmark : mark.head?.any word = false := by
      obtain ⟨a, mark, rfl⟩ := List.exists_cons_of_ne_nil hclear.ne
      exact (hclear.first a rfl).2
    rw [hnext, hmark] at hedge
    obtain henters | hnot := henters
    · have hword : (m ++ x).getLast?.any word = true := by
        rw [hlast]
        exact (Bool.not_eq_false _).mp hedge
      rwa [henters _ _ hfound hword]
    · rw [hnot] at hcloses
      cases hcloses

/-- Its matches are clear of the mark, and where it asks for a boundary before them, a word of a
certain kind begins. -/
structure Searched (word starts : α → Bool) (mark : List α) (q : Pattern α) : Prop where
  clear : ∀ x, Spells q.parts x → Clear word mark x
  start : q.opens = true → ∀ x, Spells q.parts x →
    x.head?.any starts = true ∧ x.head?.any word = true

section Sub

variable {starts : α → Bool}

/-- **Where a replacement brings no match about.** -/
theorem found_of_sub (hp : 0 < p.least) (hleaves : p.Leaves word starts)
    (henters : p.Enters word ∨ q.closes = false) (hq : q.Searched word starts mark)
    (h : q.Found word (p.sub word mark none 0 t)) : q.Found word t := by
  obtain ⟨l, x, z, ht, hocc⟩ := h
  obtain ⟨m, y, rfl, hocc', -⟩ := hocc.of_sub_of_enters hp hleaves henters
    (hq.clear x hocc.1) (fun hopens => hq.start hopens x hocc.1) ht
  exact ⟨m, x, y, rfl, hocc'⟩

/-- **What is replaced is gone.** -/
theorem not_found_sub (hp : 0 < p.least) (hleaves : p.Leaves word starts)
    (henters : p.Enters word ∨ p.closes = false) (hself : p.Searched word starts mark) :
    ¬p.Found word (p.sub word mark none 0 t) := by
  rintro ⟨l, x, z, ht, hocc⟩
  obtain ⟨m, y, rfl, hocc', hfind⟩ := hocc.of_sub_of_enters hp hleaves henters
    (hself.clear x hocc.1) (fun hopens => hself.start hopens x hocc.1) ht
  have hsome := isSome_find_iff.mpr ⟨x, y, rfl, hocc'⟩
  rw [hfind] at hsome
  cases hsome

end Sub

theorem sub_of_search (h : p.search word prev t = false) : p.sub word mark prev 0 t = t := by
  induction t generalizing prev with
  | nil => rfl
  | cons a t ih =>
    rw [search, Bool.or_eq_false_iff] at h
    have hnone : p.find word prev (a :: t) = none := by simpa using h.1
    rw [sub, hnone]
    exact congrArg _ (ih h.2)

theorem sub_of_not_found (h : ¬p.Found word t) : p.sub word mark none 0 t = t :=
  sub_of_search (Bool.eq_false_iff.mpr fun hsearch => h (search_eq_true_iff.mp hsearch))

theorem mem_sub {a : α} (h : a ∈ p.sub word mark prev n t) : a ∈ t ∨ a ∈ mark := by
  induction t generalizing prev n with
  | nil => cases n <;> simp [sub] at h
  | cons b t ih =>
    have hrest : ∀ {prev n}, a ∈ p.sub word mark prev n t → a ∈ b :: t ∨ a ∈ mark := fun h =>
      (ih h).imp_left (List.mem_cons_of_mem _)
    cases n with
    | succ n => exact hrest h
    | zero =>
      rw [sub] at h
      split at h
      · exact (List.mem_append.mp h).elim .inr hrest
      · exact (List.mem_cons.mp h).elim (fun h => .inl (h ▸ List.mem_cons_self)) hrest

/-! ### Cutting -/

/-- The text is cut behind what it spells, in the middle of a word. -/
def Split (word : α → Bool) (q : Pattern α) (t : List α) (n : ℕ) : Prop :=
  q.closes = true ∧ ∃ l x y, t = l ++ (x ++ y) ∧ (l ++ x).length = n ∧ Spells q.parts x ∧
    (q.opens = true → Edge word l.getLast? (x ++ y).head?) ∧ y.head?.any word = true

/-- **What is found in the beginning of a text**: what stood there, and what a cut has made. -/
theorem found_take_iff (hpos : 0 < q.least)
    (hends : q.closes → ∀ x, Spells q.parts x → x.getLast?.any word) :
    q.Found word (t.take n) ↔ q.Split word t n ∨
      ∃ l x y, t = l ++ (x ++ y) ∧ (l ++ x).length ≤ n ∧ q.Occ word l x y := by
  have hne : ∀ {x : List α}, Spells q.parts x → x ≠ [] := by
    rintro x hx rfl
    exact absurd hx.least_le (Nat.not_le.mpr hpos)
  have hlast : ∀ {l x : List α}, Spells q.parts x → q.closes = true →
      (l ++ x).getLast?.any word = true := fun hx hcloses => by
    rw [List.getLast?_append, List.getLast?_eq_some_getLast (hne hx), Option.some_or,
      ← List.getLast?_eq_some_getLast (hne hx)]
    exact hends hcloses _ hx
  have hhead : ∀ {x : List α} (y z : List α), Spells q.parts x →
      (x ++ y).head? = (x ++ z).head? := fun y z hx => by
    obtain ⟨a, x, rfl⟩ := List.exists_cons_of_ne_nil (hne hx)
    rfl
  constructor
  · rintro ⟨l, x, y, ht, hx, hopens, hcloses⟩
    have hsplit : t = l ++ (x ++ (y ++ t.drop n)) := by
      rw [← List.append_assoc x, ← List.append_assoc l, ← ht, List.take_append_drop]
    have hle : (l ++ x).length ≤ n := by
      have := congrArg List.length ht
      simp at this ⊢
      omega
    have hedge := fun h => hhead y (y ++ t.drop n) hx ▸ hopens h
    by_cases hcut : q.closes = true ∧ y = [] ∧ (t.drop n).head?.any word = true
    · obtain ⟨hc, rfl, hword⟩ := hcut
      refine .inl ⟨hc, l, x, t.drop n, hsplit, ?_, hx, hedge, hword⟩
      have hlt : n < t.length := by
        by_contra hge
        simp [List.drop_eq_nil_of_le (Nat.not_lt.mp hge)] at hword
      have hlen := congrArg List.length ht
      simp only [List.length_take, List.append_nil, List.length_append] at hlen ⊢
      omega
    · refine .inr ⟨l, x, y ++ t.drop n, hsplit, hle, hx, hedge, fun hc => ?_⟩
      rcases y with _ | ⟨a, y⟩
      · rw [Edge, hlast hx hc]
        exact fun hword => hcut ⟨hc, rfl, hword.symm⟩
      · exact hcloses hc
  · rintro (⟨hc, l, x, y, rfl, rfl, hx, hopens, -⟩ | ⟨l, x, y, rfl, hle, hx, hopens, hcloses⟩)
    · refine ⟨l, x, [], by rw [← List.append_assoc, List.take_left, List.append_nil], hx,
        fun h => hhead y [] hx ▸ hopens h, fun h => ?_⟩
      rw [Edge, hlast hx h]
      exact Bool.false_ne_true.symm
    · obtain ⟨k, rfl⟩ := Nat.exists_eq_add_of_le hle
      refine ⟨l, x, y.take k,
        by rw [← List.append_assoc, List.take_length_add_append, List.append_assoc], hx,
        fun h => hhead y _ hx ▸ hopens h, fun h => ?_⟩
      rcases k with _ | k
      · rw [Edge, hlast hx h]
        exact Bool.false_ne_true.symm
      · rw [List.head?_take, if_neg (Nat.succ_ne_zero k)]
        exact hcloses h

end Pattern
