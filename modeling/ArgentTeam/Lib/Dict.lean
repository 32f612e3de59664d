import Mathlib.Data.List.Sort

/-!
# Dictionaries that change

A dictionary is a list of entries, no two of them under one key. Changes say for a key which value
is under it from now on, or that there is none. The last change for a key decides
(`Dict.get?_changeAll`).

Two sorted lists are the same if the same things are on both and the orders agree on them
(`eq_iff_of_pairwise`).
-/

variable {κ β : Type} [DecidableEq κ]

/-! ### The last of several -/

/-- What comes last under a key. -/
def lastFor (k : κ) : List (κ × β) → Option β
  | [] => none
  | e :: l => (lastFor k l).or (if e.1 = k then some e.2 else none)

section LastFor

variable {l l' : List (κ × β)} {k : κ} {b : β} {e : κ × β}

@[simp]
theorem lastFor_nil : lastFor k ([] : List (κ × β)) = none := rfl

theorem lastFor_cons :
    lastFor k (e :: l) = (lastFor k l).or (if e.1 = k then some e.2 else none) := rfl

theorem lastFor_append : lastFor k (l ++ l') = (lastFor k l').or (lastFor k l) := by
  induction l with
  | nil => simp
  | cons e l ih => rw [List.cons_append, lastFor_cons, ih, lastFor_cons, Option.or_assoc]

theorem lastFor_map {γ : Type} (f : β → γ) :
    lastFor k (l.map fun e => (e.1, f e.2)) = (lastFor k l).map f := by
  induction l with
  | nil => rfl
  | cons e l ih =>
    rw [List.map_cons, lastFor_cons, ih, lastFor_cons, Option.map_or]
    congr 1
    split <;> rfl

theorem mem_of_lastFor {b : β} (h : lastFor k l = some b) : (k, b) ∈ l := by
  induction l with
  | nil => cases h
  | cons e l ih =>
    rw [lastFor_cons, Option.or_eq_some_iff] at h
    rcases h with h | ⟨-, h⟩
    · exact List.mem_cons_of_mem _ (ih h)
    · split at h
      next hk =>
        cases h
        exact hk ▸ List.mem_cons_self
      · cases h

/-- Where no key comes twice, each entry is the last one under its key. -/
theorem lastFor_eq_some_iff (h : (l.map Prod.fst).Nodup) : lastFor k l = some b ↔ (k, b) ∈ l := by
  refine ⟨fun h => mem_of_lastFor h, fun hmem => ?_⟩
  induction l with
  | nil => cases hmem
  | cons e l ih =>
    rw [List.map_cons, List.nodup_cons] at h
    rw [lastFor_cons, Option.or_eq_some_iff]
    rcases List.mem_cons.mp hmem with rfl | hmem
    · refine .inr ⟨?_, if_pos rfl⟩
      rw [Option.eq_none_iff_forall_ne_some]
      exact fun b' hb' => h.1 (List.mem_map.mpr ⟨_, mem_of_lastFor hb', rfl⟩)
    · exact .inl (ih h.2 hmem)

end LastFor

/-! ### Dictionaries -/

structure Dict (κ β : Type) where
  entries : List (κ × β) := []
  nodup : (entries.map Prod.fst).Nodup := by simp

namespace Dict

variable {d : Dict κ β} {k k' : κ} {b : β} {l : List (κ × Option β)}

/-- The value under a key. -/
def get? (d : Dict κ β) (k : κ) : Option β := lastFor k d.entries

/-- The dictionary without a key. -/
def pop (d : Dict κ β) (k : κ) : Dict κ β where
  entries := d.entries.filter fun e => e.1 ≠ k
  nodup := d.nodup.sublist (List.filter_sublist.map Prod.fst)

theorem not_mem_pop : k ∉ (d.pop k).entries.map Prod.fst := by
  simp [pop]

/-- The dictionary with a value under a key, which is put last. -/
def set (d : Dict κ β) (k : κ) (b : β) : Dict κ β where
  entries := (d.pop k).entries ++ [(k, b)]
  nodup := by
    rw [List.map_append, List.nodup_append]
    refine ⟨(d.pop k).nodup, List.nodup_singleton _, ?_⟩
    rintro x hx y hy rfl
    rw [List.map_singleton, List.mem_singleton] at hy
    exact not_mem_pop (hy ▸ hx)

def change (d : Dict κ β) (e : κ × Option β) : Dict κ β :=
  match e.2 with
  | some b => d.set e.1 b
  | none => d.pop e.1

/-- A list of changes, one after the other. -/
def changeAll (d : Dict κ β) (l : List (κ × Option β)) : Dict κ β := l.foldl change d

theorem mem_entries_iff : (k, b) ∈ d.entries ↔ d.get? k = some b :=
  (lastFor_eq_some_iff d.nodup).symm

theorem get?_pop : (d.pop k).get? k' = if k = k' then none else d.get? k' := by
  ext b
  rw [← mem_entries_iff, pop, List.mem_filter, mem_entries_iff]
  split
  next hk => simp [hk]
  next hk => simp [Ne.symm hk]

theorem get?_set : (d.set k b).get? k' = if k = k' then some b else d.get? k' := by
  rw [get?, set, lastFor_append, lastFor_cons, lastFor_nil, Option.none_or]
  split
  · rfl
  next hk => rw [Option.none_or, ← get?, get?_pop, if_neg hk]

theorem get?_change {e : κ × Option β} :
    (d.change e).get? k = if e.1 = k then e.2 else d.get? k := by
  unfold change
  split
  next b hb => rw [get?_set, hb]
  next hb => rw [get?_pop, hb]

/-- **The last change decides.** -/
theorem get?_changeAll : (d.changeAll l).get? k = (lastFor k l).getD (d.get? k) := by
  induction l generalizing d with
  | nil => rfl
  | cons e l ih =>
    rw [changeAll, List.foldl_cons, ← changeAll, ih, get?_change, lastFor_cons]
    cases lastFor k l with
    | some o => rfl
    | none => split <;> rfl

omit [DecidableEq κ] in
theorem nodup_entries : d.entries.Nodup := d.nodup.of_map Prod.fst

end Dict

/-! ### Sorted lists -/

/-- **Two sorted lists** are the same exactly if the same is on both and the orders agree on it. -/
theorem eq_iff_of_pairwise {α : Type} {r s : α → α → Prop} {l l' : List α} (hl : l.Pairwise r)
    (hl' : l'.Pairwise s) (hnodup : l.Nodup) (hnodup' : l'.Nodup)
    (hr : ∀ a ∈ l, ∀ b ∈ l, r a b → r b a → a = b)
    (hs : ∀ a ∈ l, ∀ b ∈ l, s a b → s b a → a = b) (hrefl : ∀ a, s a a) :
    l = l' ↔ (∀ a, a ∈ l ↔ a ∈ l') ∧ ∀ a ∈ l, ∀ b ∈ l, r a b → s a b := by
  constructor
  · rintro rfl
    refine ⟨fun _ => Iff.rfl, fun a ha b hb hab => ?_⟩
    -- what is behind in the one order is not in front in the other
    have hbehind : l.Pairwise (flip fun a b => r a b → s a b) := by
      refine hl.imp_of_mem fun hx hy hxy hyx => ?_
      rw [hr _ hx _ hy hxy hyx]
      exact hrefl _
    have hagree : l.Pairwise fun a b => r a b → s a b := hl'.imp fun hs => fun _ => hs
    exact hagree.forall_of_forall_of_flip (fun c _ _ => hrefl c) hbehind ha hb hab
  · rintro ⟨hmem, hagree⟩
    have hperm : l.Perm l' := (List.perm_ext_iff_of_nodup hnodup hnodup').mpr hmem
    refine hperm.eq_of_pairwise (fun a b ha hb => hs a ha b ((hmem b).mpr hb)) ?_ hl'
    exact hl.imp_of_mem fun ha hb hab => hagree _ ha _ hb hab
