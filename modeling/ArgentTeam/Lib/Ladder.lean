import Mathlib.Data.List.Sort

/-!
# Ladders

Reports are filed under names, several of them under one name, and a reader looks at the
first report of each name only. The *level* of a name is the rank of that report, or a
fixed rank if there is none; the *top* of a list of names is the worst level among them.

What a reader finds depends on the order of the reports. `Ladder.top_perm_iff` says when
the top does not: some name has reports of one rank only, and none of the reports under
the names is ranked higher.
-/

namespace Ladder

variable {α κ : Type} [DecidableEq κ] (name : α → κ) (rank : α → ℕ) (absent : ℕ)

/-- The ranks a name is reported with; the rank of its absence, if it is not reported. -/
def ranksOf (l : List α) (k : κ) : List ℕ :=
  let rs := (l.filter fun a => name a = k).map rank
  if rs = [] then [absent] else rs

/-- The rank of the first report of a name. -/
def level (l : List α) (k : κ) : ℕ := (l.find? fun a => name a = k).elim absent rank

/-- The worst level of the names. -/
def top (l : List α) (names : List κ) : ℕ := (names.map (level name rank absent l)).foldr max 0

variable {name rank absent} {l l' : List α} {k : κ} {names : List κ} {h : ℕ} {r : ℕ}

theorem level_mem_ranksOf : level name rank absent l k ∈ ranksOf name rank absent l k := by
  unfold level ranksOf
  cases h : l.find? fun a => name a = k with
  | none =>
    have hnone : l.filter (fun a => name a = k) = [] :=
      List.filter_eq_nil_iff.mpr (List.find?_eq_none.mp h)
    simp [hnone]
  | some a =>
    have ha : a ∈ l.filter fun a => name a = k :=
      List.mem_filter.mpr ⟨List.mem_of_find?_eq_some h, by simpa using List.find?_some h⟩
    have hmem : rank a ∈ (l.filter fun a => name a = k).map rank := List.mem_map_of_mem ha
    dsimp only [Option.elim]
    rw [if_neg (List.ne_nil_of_mem hmem)]
    exact hmem

theorem mem_ranksOf : r ∈ ranksOf name rank absent l k ↔
    (∃ a ∈ l, name a = k ∧ rank a = r) ∨ ((∀ a ∈ l, name a ≠ k) ∧ r = absent) := by
  have hnil : (l.filter fun a => name a = k).map rank = [] ↔ ∀ a ∈ l, name a ≠ k := by
    simp [List.filter_eq_nil_iff]
  unfold ranksOf
  dsimp only
  by_cases h : (l.filter fun a => name a = k).map rank = []
  · rw [if_pos h, List.mem_singleton]
    refine ⟨fun hr => .inr ⟨hnil.mp h, hr⟩, ?_⟩
    rintro (⟨a, ha, hk, -⟩ | ⟨-, hr⟩)
    · exact absurd hk (hnil.mp h a ha)
    · exact hr
  · rw [if_neg h]
    simp only [List.mem_map, List.mem_filter, decide_eq_true_eq, and_assoc]
    exact ⟨.inl, fun hr => hr.resolve_right fun hout => h (hnil.mpr hout.1)⟩

theorem ranksOf_perm (h : l.Perm l') :
    r ∈ ranksOf name rank absent l' k ↔ r ∈ ranksOf name rank absent l k := by
  have hperm := (h.filter fun a => name a = k).map rank
  unfold ranksOf
  dsimp only
  by_cases hnil : (l.filter fun a => name a = k).map rank = []
  · have hnil' : (l'.filter fun a => name a = k).map rank = [] := by
      rw [hnil] at hperm
      exact hperm.symm.eq_nil
    rw [if_pos hnil, if_pos hnil']
  · have hnil' : (l'.filter fun a => name a = k).map rank ≠ [] := by
      intro h'
      rw [h'] at hperm
      exact hnil hperm.eq_nil
    rw [if_neg hnil, if_neg hnil']
    exact hperm.mem_iff.symm

/-- In a list sorted by rank, either way, the first report of a name bounds its ranks. -/
theorem level_of_sorted {R : ℕ → ℕ → Prop} (hrefl : ∀ r, R r r)
    (hl : l.Pairwise fun a b => R (rank a) (rank b))
    (hr : r ∈ ranksOf name rank absent l k) : R (level name rank absent l k) r := by
  induction l with
  | nil => simp_all [ranksOf, level]
  | cons a l ih =>
    by_cases ha : name a = k
    · have hlevel : level name rank absent (a :: l) k = rank a := by simp [level, ha]
      rw [hlevel]
      simp only [ranksOf, List.filter_cons, ha, decide_true, if_true, List.map_cons, reduceCtorEq,
        if_false, List.mem_cons, List.mem_map, List.mem_filter] at hr
      rcases hr with rfl | ⟨b, ⟨hb, -⟩, rfl⟩
      · exact hrefl _
      · exact List.rel_of_pairwise_cons hl hb
    · have hlevel : level name rank absent (a :: l) k = level name rank absent l k := by
        simp [level, ha]
      rw [hlevel]
      exact ih hl.of_cons (by simpa [ranksOf, List.filter_cons, ha] using hr)

theorem exists_sorted (rank : α → ℕ) (l : List α) :
    ∃ up, l.Perm up ∧ up.Pairwise fun a b => rank a ≤ rank b := by
  have htotal : Std.Total fun a b : α => rank a ≤ rank b := ⟨fun a b => le_total _ _⟩
  have htrans : IsTrans α fun a b => rank a ≤ rank b := ⟨fun _ _ _ => le_trans⟩
  exact ⟨_, (List.perm_insertionSort _ l).symm, List.pairwise_insertionSort _ l⟩

theorem exists_sorted_desc (rank : α → ℕ) (l : List α) :
    ∃ down, l.Perm down ∧ down.Pairwise fun a b => rank b ≤ rank a := by
  have htotal : Std.Total fun a b : α => rank b ≤ rank a := ⟨fun a b => le_total _ _⟩
  have htrans : IsTrans α fun a b => rank b ≤ rank a := ⟨fun _ _ _ h h' => h'.trans h⟩
  exact ⟨_, (List.perm_insertionSort _ l).symm, List.pairwise_insertionSort _ l⟩

/-! ### The top -/

theorem foldr_max_le_iff {rs : List ℕ} : rs.foldr max 0 ≤ h ↔ ∀ r ∈ rs, r ≤ h := by
  induction rs with
  | nil => simp
  | cons r rs ih => simp [ih]

theorem top_le_iff :
    top name rank absent l names ≤ h ↔ ∀ k ∈ names, level name rank absent l k ≤ h := by
  simp [top, foldr_max_le_iff]

theorem level_le_top (hk : k ∈ names) :
    level name rank absent l k ≤ top name rank absent l names := (top_le_iff).mp (le_refl _) k hk

theorem top_le (habsent : absent ≤ h) (hrank : ∀ a, rank a ≤ h) :
    top name rank absent l names ≤ h := by
  refine (top_le_iff).mpr fun k _ => ?_
  unfold level
  cases l.find? fun a => name a = k with
  | none => exact habsent
  | some a => exact hrank a

theorem any_level_of_top_lt {i : ℕ} (h : top name rank absent l names < i) :
    (names.any fun k => level name rank absent l k = i) = false := by
  rw [List.any_eq_false]
  intro k hk heq
  have hle : level name rank absent l k ≤ top name rank absent l names := level_le_top hk
  simp only [decide_eq_true_eq] at heq
  omega

theorem top_congr {names' : List κ} (h : ∀ k, k ∈ names ↔ k ∈ names') :
    top name rank absent l names = top name rank absent l names' :=
  le_antisymm ((top_le_iff).mpr fun k hk => level_le_top ((h k).mp hk))
    ((top_le_iff).mpr fun k hk => level_le_top ((h k).mpr hk))

theorem exists_level_eq_top (hne : names ≠ []) :
    ∃ k ∈ names, level name rank absent l k = top name rank absent l names := by
  by_contra hcon
  have hlt : ∀ k ∈ names, level name rank absent l k < top name rank absent l names :=
    fun k hk => lt_of_le_of_ne (level_le_top hk) fun heq => hcon ⟨k, hk, heq⟩
  obtain ⟨k, hk⟩ := List.exists_mem_of_ne_nil names hne
  have hpos : 0 < top name rank absent l names := Nat.zero_lt_of_lt (hlt k hk)
  have hle : top name rank absent l names ≤ top name rank absent l names - 1 :=
    (top_le_iff).mpr fun k hk => Nat.le_sub_one_of_lt (hlt k hk)
  omega

theorem any_level_top (hne : names ≠ []) :
    (names.any fun k => level name rank absent l k = top name rank absent l names) = true := by
  obtain ⟨k, hk, hlevel⟩ := @exists_level_eq_top _ _ _ name rank absent l names hne
  exact List.any_eq_true.mpr ⟨k, hk, by simpa using hlevel⟩

/-- If no report ranks below the absence of one, nor does the top. -/
theorem top_max (hne : names ≠ []) :
    top name (fun a => max absent (rank a)) absent l names =
      max absent (top name rank absent l names) := by
  have hlevel : ∀ k, level name (fun a => max absent (rank a)) absent l k =
      max absent (level name rank absent l k) := by
    intro k
    unfold level
    cases l.find? fun a => name a = k with
    | none => exact (max_self absent).symm
    | some a => rfl
  obtain ⟨k, hk⟩ := List.exists_mem_of_ne_nil names hne
  refine le_antisymm ((top_le_iff).mpr fun k hk => ?_) (max_le ?_ ((top_le_iff).mpr fun k hk => ?_))
  · rw [hlevel]
    exact max_le (le_max_left _ _) ((level_le_top hk).trans (le_max_right _ _))
  · exact (le_max_left _ _).trans ((hlevel k).symm.le.trans (level_le_top hk))
  · exact (le_max_right _ _).trans ((hlevel k).symm.le.trans (level_le_top hk))

/-- A name is reported with one rank only, and no name with a higher one. -/
def Settled (name : α → κ) (rank : α → ℕ) (absent : ℕ) (l : List α) (names : List κ) (k : κ)
    (h : ℕ) : Prop :=
  (∀ r ∈ ranksOf name rank absent l k, r = h) ∧
    ∀ k' ∈ names, ∀ r ∈ ranksOf name rank absent l k', r ≤ h

theorem Settled.perm (hs : Settled name rank absent l names k h) (hp : l.Perm l') :
    Settled name rank absent l' names k h :=
  ⟨fun r hr => hs.1 r ((ranksOf_perm hp).mp hr),
    fun k' hk' r hr => hs.2 k' hk' r ((ranksOf_perm hp).mp hr)⟩

theorem Settled.top_eq (hs : Settled name rank absent l names k h) (hk : k ∈ names) :
    top name rank absent l names = h := by
  refine le_antisymm ((top_le_iff).mpr fun k' hk' => hs.2 k' hk' _ level_mem_ranksOf) ?_
  rw [← hs.1 _ level_mem_ranksOf]
  exact level_le_top hk

/-- **When the order of the reports does not matter**: exactly if a name is settled at the
highest rank there is. -/
theorem top_perm_iff (hne : names ≠ []) :
    (∀ l', l.Perm l' → top name rank absent l' names = top name rank absent l names) ↔
      ∃ k ∈ names, ∃ h, Settled name rank absent l names k h := by
  constructor
  · intro hall
    -- a name at the top of the best order has nothing below the worst order's top
    obtain ⟨up, hup, hsorted⟩ := exists_sorted rank l
    obtain ⟨down, hdown, hsorted'⟩ := exists_sorted_desc rank l
    obtain ⟨k, hk, hlevel⟩ := @exists_level_eq_top _ _ _ name rank absent up names hne
    have hworst : ∀ k' ∈ names, ∀ r ∈ ranksOf name rank absent l k',
        r ≤ top name rank absent up names := by
      intro k' hk' r hr
      have hle := level_of_sorted (R := (· ≥ ·)) le_refl hsorted' ((ranksOf_perm hdown).mpr hr)
      rw [hall up hup, ← hall down hdown]
      exact hle.trans (level_le_top hk')
    refine ⟨k, hk, top name rank absent up names, fun r hr => ?_, hworst⟩
    have hge := level_of_sorted le_refl hsorted ((ranksOf_perm hup).mpr hr)
    rw [hlevel] at hge
    exact le_antisymm (hworst k hk r hr) hge
  · rintro ⟨k, hk, h, hs⟩ l' hp
    rw [hs.top_eq hk, (hs.perm hp).top_eq hk]

end Ladder
