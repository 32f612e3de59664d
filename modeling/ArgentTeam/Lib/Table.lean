import ArgentTeam.Lib.Prog
import Mathlib.Data.List.Pairwise
import Mathlib.Data.List.Perm.Basic
import Mathlib.Data.List.Nodup

/-!
# Tables with uniqueness constraints

A table is its rows, in the order of their insertion, together with the proof that
no two of them *clash*. The clash relation is the table's schema: it says which two
rows a primary key or a (partial) unique index forbids to stand side by side, so a
table that violates a constraint cannot be built.

The two mutators are the ones a relational store has. `Table.insert?` appends a row
and `Table.update?` rewrites the rows a condition selects; both give `none` where the
outcome would violate a constraint, which is where the store raises its integrity
error. A `Relvar` is the place of a table inside a program's state, and turns the
mutators into programs.
-/

/-- A table: rows no two of which clash. -/
@[ext]
structure Table (ρ : Type) (clash : ρ → ρ → Bool) where
  rows : List ρ
  unique : rows.Pairwise fun a b => clash a b = false

namespace Table

variable {ρ κ : Type} {clash : ρ → ρ → Bool}

/-- The table without rows. -/
def empty : Table ρ clash := ⟨[], List.Pairwise.nil⟩

@[simp]
theorem rows_empty : (empty : Table ρ clash).rows = [] := rfl

/-- Rewrite a row where a condition selects it. -/
def patch (p : ρ → Bool) (f : ρ → ρ) (r : ρ) : ρ := if p r then f r else r

/-- Append a row, unless it clashes with one already there. -/
def insert? (t : Table ρ clash) (r : ρ) : Option (Table ρ clash) :=
  if h : ∀ x ∈ t.rows, clash x r = false then
    some ⟨t.rows ++ [r], List.pairwise_append.mpr ⟨t.unique, List.pairwise_singleton _ _,
      fun x hx y hy => by rw [List.mem_singleton.mp hy]; exact h x hx⟩⟩
  else none

/-- Rewrite the selected rows, unless two of the outcomes clash. -/
def update? (t : Table ρ clash) (p : ρ → Bool) (f : ρ → ρ) : Option (Table ρ clash) :=
  if h : (t.rows.map (patch p f)).Pairwise fun a b => clash a b = false then
    some ⟨t.rows.map (patch p f), h⟩
  else none

/-- The first row with a given key. -/
def lookup [DecidableEq κ] (t : Table ρ clash) (key : ρ → κ) (k : κ) : Option ρ :=
  t.rows.find? fun r => key r = k

variable {t t' : Table ρ clash} {r s : ρ} {p : ρ → Bool} {f : ρ → ρ} {key : ρ → κ} {k : κ}

theorem insert?_eq_some :
    t.insert? r = some t' ↔ (∀ x ∈ t.rows, clash x r = false) ∧ t'.rows = t.rows ++ [r] := by
  unfold insert?
  split
  · rename_i h
    simp only [Option.some.injEq]
    exact ⟨fun he => by rw [← he]; exact ⟨h, rfl⟩, fun he => Table.ext he.2.symm⟩
  · rename_i h
    simp only [reduceCtorEq, false_iff, not_and]
    exact fun hc => absurd hc h

theorem update?_eq_some :
    t.update? p f = some t' ↔ (t.rows.map (patch p f)).Pairwise (fun a b => clash a b = false) ∧
      t'.rows = t.rows.map (patch p f) := by
  unfold update?
  split
  · rename_i h
    simp only [Option.some.injEq]
    exact ⟨fun he => by rw [← he]; exact ⟨h, rfl⟩, fun he => Table.ext he.2.symm⟩
  · rename_i h
    simp only [reduceCtorEq, false_iff, not_and]
    exact fun hc => absurd hc h

theorem exists_insert? (h : ∀ x ∈ t.rows, clash x r = false) : ∃ t', t.insert? r = some t' :=
  ⟨_, dif_pos h⟩

theorem mem_of_insert? (h : t.insert? r = some t') : s ∈ t'.rows ↔ s ∈ t.rows ∨ s = r := by
  rw [(insert?_eq_some.mp h).2, List.mem_append, List.mem_singleton]

theorem mem_of_update? (h : t.update? p f = some t') :
    s ∈ t'.rows ↔ ∃ r ∈ t.rows, patch p f r = s := by
  rw [(update?_eq_some.mp h).2, List.mem_map]

theorem patch_pos (h : p r) : patch p f r = f r := if_pos h

theorem patch_neg (h : p r = false) : patch p f r = r := if_neg (by simp [h])

theorem eq_of_update? (h : t.update? p f = some t') (hp : ∀ r ∈ t.rows, p r = false) : t' = t := by
  refine Table.ext ?_
  calc
    t'.rows = t.rows.map (patch p f) := (update?_eq_some.mp h).2
    _ = t.rows.map id := List.map_congr_left fun r hr => patch_neg (hp r hr)
    _ = t.rows := List.map_id _

/-- **An update that creates no clash goes through.** -/
theorem exists_update? (t : Table ρ clash) (hf : ∀ a ∈ t.rows, ∀ b ∈ t.rows,
      clash (patch p f a) (patch p f b) → clash a b) :
    ∃ t', t.update? p f = some t' := by
  have hpairs : (t.rows.map (patch p f)).Pairwise fun a b => clash a b = false := by
    refine List.pairwise_map.mpr (t.unique.imp_of_mem fun {a b} ha hb hab => ?_)
    by_contra hc
    rw [Bool.not_eq_false] at hc
    rw [hf a ha b hb hc] at hab
    exact Bool.noConfusion hab
  exact ⟨⟨t.rows.map (patch p f), hpairs⟩, update?_eq_some.mpr ⟨hpairs, rfl⟩⟩

theorem eq_of_clash (hsymm : ∀ a b, clash a b = clash b a) (hr : r ∈ t.rows) (hs : s ∈ t.rows)
    (h : clash r s) : r = s := by
  have : Std.Symm fun a b => clash a b = false := ⟨fun a b hab => by rw [hsymm]; exact hab⟩
  by_contra hne
  have hfalse : clash r s = false := t.unique.forall hr hs hne
  rw [hfalse] at h
  exact Bool.noConfusion h

theorem countP_eq_one (hself : ∀ a, clash a a) (hr : r ∈ t.rows) (hpr : p r)
    (hp : ∀ s ∈ t.rows, p s → s = r) : t.rows.countP p = 1 := by
  have hnodup : t.rows.Nodup := t.unique.imp fun {a b} hab heq => by
    rw [heq, hself] at hab
    exact Bool.noConfusion hab
  have hfilter : t.rows.filter p = [r] := by
    refine (List.perm_singleton.mp <| (List.perm_ext_iff_of_nodup (hnodup.filter p)
      (List.nodup_singleton r)).mpr fun s => ?_)
    rw [List.mem_filter, List.mem_singleton]
    exact ⟨fun hs => hp s hs.1 hs.2, fun hs => hs ▸ ⟨hr, hpr⟩⟩
  rw [List.countP_eq_length_filter, hfilter, List.length_singleton]

theorem mem_of_lookup [DecidableEq κ] (h : t.lookup key k = some r) :
    r ∈ t.rows ∧ key r = k :=
  ⟨List.mem_of_find?_eq_some h, by simpa using List.find?_some h⟩

/-- **Lookup by a primary key** finds the row with that key. -/
theorem lookup_eq_some_iff [DecidableEq κ]
    (hsymm : ∀ a b, clash a b = clash b a) (hkey : ∀ a b, key a = key b → clash a b) :
    t.lookup key k = some r ↔ r ∈ t.rows ∧ key r = k := by
  refine ⟨mem_of_lookup, fun ⟨hr, hk⟩ => ?_⟩
  rcases hl : t.lookup key k with _ | s
  · have hno := List.find?_eq_none.mp hl r hr
    simp [hk] at hno
  · obtain ⟨hs, hks⟩ := mem_of_lookup hl
    rw [eq_of_clash hsymm hs hr (hkey s r (hks.trans hk.symm))]

theorem lookup_eq_none_iff [DecidableEq κ] :
    t.lookup key k = none ↔ ∀ r ∈ t.rows, key r ≠ k := by
  simp [lookup]

/-- A row that has just been inserted is found. -/
theorem lookup_of_insert? [DecidableEq κ]
    (hkey : ∀ a, key a = key r → clash a r) (h : t.insert? r = some t') :
    t'.lookup key (key r) = some r := by
  obtain ⟨hclash, hrows⟩ := insert?_eq_some.mp h
  have hold : t.rows.find? (fun a => decide (key a = key r)) = none := by
    refine List.find?_eq_none.mpr fun a ha hk => ?_
    have hfalse := hclash a ha
    rw [hkey a (of_decide_eq_true hk)] at hfalse
    cases hfalse
  rw [lookup, hrows, List.find?_append, hold]
  simp

/-! What is kept of the rows, a trait of each, is only ever appended to where no update
touches it. -/

section Traits

variable {trait : ρ → κ}

theorem prefix_of_insert? (h : t.insert? r = some t') :
    t.rows.map trait <+: t'.rows.map trait := by
  rw [(insert?_eq_some.mp h).2, List.map_append]
  exact List.prefix_append _ _

theorem prefix_of_update? (hf : ∀ r, trait (f r) = trait r) (h : t.update? p f = some t') :
    t.rows.map trait <+: t'.rows.map trait := by
  have hsame : t'.rows.map trait = t.rows.map trait := by
    rw [(update?_eq_some.mp h).2, List.map_map]
    refine List.map_congr_left fun r _ => ?_
    cases hp : p r
    · rw [Function.comp_apply, patch_neg hp]
    · rw [Function.comp_apply, patch_pos hp, hf]
  exact ⟨[], by rw [List.append_nil, hsame]⟩

/-- **A row that is found stays found**, with the same trait. -/
theorem lookup_of_prefix {ν : Type} [DecidableEq ν] (name : κ → ν) {k : ν}
    (hpre : t.rows.map trait <+: t'.rows.map trait)
    (h : t.lookup (fun r => name (trait r)) k = some r) :
    ∃ r', t'.lookup (fun r => name (trait r)) k = some r' ∧ trait r' = trait r := by
  have hfind : ∀ t : Table ρ clash, (t.rows.map trait).find? (fun x => decide (name x = k)) =
      (t.lookup (fun r => name (trait r)) k).map trait := fun t => List.find?_map ..
  have hfirst : (t.rows.map trait).find? (fun x => decide (name x = k)) = some (trait r) := by
    rw [hfind, h, Option.map_some]
  have hthen := hpre.find?_eq_some hfirst
  rw [hfind] at hthen
  exact Option.map_eq_some_iff.mp hthen

end Traits

end Table

/-! ### Tables inside a program's state -/

/-- The place of a table inside a state. -/
structure Relvar (σ ρ : Type) (clash : ρ → ρ → Bool) where
  get : σ → Table ρ clash
  set : Table ρ clash → σ → σ

namespace Relvar

open Prog

variable {σ τ ε ρ : Type} {clash : ρ → ρ → Bool}

/-- `INSERT`: append a row, raising the given exception on a violated constraint. -/
def insert (R : Relvar σ ρ clash) (e : ε) (r : ρ) : Prog σ ε Unit := do
  let t ← read R.get
  let t' ← orRaise (t.insert? r) e
  change (R.set t')

/-- `INSERT OR IGNORE`: append a row unless it violates a constraint. -/
def insertOrIgnore (R : Relvar σ ρ clash) (r : ρ) : Prog σ ε Unit :=
  change fun s => R.set (((R.get s).insert? r).getD (R.get s)) s

/-- `UPDATE … WHERE`: rewrite the selected rows and return how many there were. -/
def update (R : Relvar σ ρ clash) (e : ε) (p : ρ → Bool) (f : ρ → ρ) : Prog σ ε ℕ := do
  let t ← read R.get
  let t' ← orRaise (t.update? p f) e
  change (R.set t')
  pure (t.rows.countP p)

variable {R : Relvar σ ρ clash} {e e' : ε} {r : ρ} {p : ρ → Bool} {f : ρ → ρ} {s s' : σ}

@[simp]
theorem returns_insert {u : Unit} :
    (R.insert e r).Returns s u s' ↔ ∃ t', (R.get s).insert? r = some t' ∧ R.set t' s = s' := by
  simp [insert, and_assoc]

@[simp]
theorem returns_insertOrIgnore {u : Unit} :
    (R.insertOrIgnore r : Prog σ ε Unit).Returns s u s' ↔
      R.set (((R.get s).insert? r).getD (R.get s)) s = s' := by
  simp [insertOrIgnore]

@[simp]
theorem returns_update {n : ℕ} :
    (R.update e p f).Returns s n s' ↔ ∃ t', (R.get s).update? p f = some t' ∧
      (R.get s).rows.countP p = n ∧ R.set t' s = s' := by
  simp only [update, returns_bind, returns_read, returns_orRaise, returns_change, returns_pure]
  constructor
  · rintro ⟨t, s₁, ⟨rfl, rfl⟩, t', s₂, ⟨ht, rfl⟩, -, s₃, rfl, hn, rfl⟩
    exact ⟨t', ht, hn, rfl⟩
  · rintro ⟨t', ht, hn, rfl⟩
    exact ⟨_, _, ⟨rfl, rfl⟩, t', _, ⟨ht, rfl⟩, (), _, rfl, hn, rfl⟩

@[simp]
theorem raises_insert :
    (R.insert e r).Raises s e' s' ↔ (R.get s).insert? r = none ∧ e = e' ∧ s = s' := by
  simp [insert, and_assoc]

@[simp]
theorem not_raises_insertOrIgnore :
    ¬(R.insertOrIgnore r : Prog σ ε Unit).Raises s e' s' := by
  simp [insertOrIgnore]

@[simp]
theorem raises_update :
    (R.update e p f).Raises s e' s' ↔ (R.get s).update? p f = none ∧ e = e' ∧ s = s' := by
  simp [update, and_assoc]

/-! ### What the mutators move -/

section Moves

variable {π : σ → τ} {Q : τ → τ → Prop}

theorem moves_insert [Std.Refl Q]
    (h : ∀ s t', (R.get s).insert? r = some t' → Q (π s) (π (R.set t' s))) :
    Moves π Q (R.insert e r) := by
  refine ⟨fun s => ?_⟩
  rcases ht : (R.get s).insert? r with _ | t'
  · have hr : (R.insert e r).Raises s e s := (raises_insert).mpr ⟨ht, rfl, rfl⟩
    rw [show R.insert e r s = _ from hr]
    exact Std.Refl.refl _
  · have hr : (R.insert e r).Returns s () (R.set t' s) := (returns_insert).mpr ⟨t', ht, rfl⟩
    rw [show R.insert e r s = _ from hr]
    exact h s t' ht

theorem moves_update [Std.Refl Q]
    (h : ∀ s t', (R.get s).update? p f = some t' → Q (π s) (π (R.set t' s))) :
    Moves π Q (R.update e p f) := by
  refine ⟨fun s => ?_⟩
  rcases ht : (R.get s).update? p f with _ | t'
  · have hr : (R.update e p f).Raises s e s := (raises_update).mpr ⟨ht, rfl, rfl⟩
    rw [show R.update e p f s = _ from hr]
    exact Std.Refl.refl _
  · have hr : (R.update e p f).Returns s _ (R.set t' s) := (returns_update).mpr ⟨t', ht, rfl, rfl⟩
    rw [show R.update e p f s = _ from hr]
    exact h s t' ht

/-- The table lies apart from a component of the state: writing it leaves the
component alone. -/
class Apart (R : Relvar σ ρ clash) (π : σ → τ) : Prop where
  apart : ∀ t s, π (R.set t s) = π s

variable [Std.Refl Q] [hR : R.Apart π]

instance : Moves π Q (R.insert e r) :=
  moves_insert fun s t' _ => by rw [hR.apart]; exact Std.Refl.refl _

instance : Moves π Q (R.update e p f) :=
  moves_update fun s t' _ => by rw [hR.apart]; exact Std.Refl.refl _

instance : Moves π Q (R.insertOrIgnore r : Prog σ ε Unit) :=
  ⟨fun s => by rw [insertOrIgnore, change, hR.apart]; exact Std.Refl.refl _⟩

end Moves

end Relvar
