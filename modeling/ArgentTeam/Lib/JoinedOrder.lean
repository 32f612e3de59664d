import ArgentTeam.Lib.TextOrder

/-!
# The order of joined texts

Tuples of texts are compared text by text, and so may be the texts that they are joined to with a
separator. The second order is that of the first but for one case: a text that others follow in its
tuple is the beginning of its counterpart, which goes on with a character in front of the separator
(`PyStr.le_joined_iff`).
-/

namespace PyStr

/-- The texts with a separator between them. -/
def joined (sep : PyChar) (ss : List PyStr) : PyStr := [sep].intercalate ss

/-- A text of the first tuple, with others after it, is the beginning of the one in its place, which
goes on with a character in front of the separator. -/
def Overtakes (sep : PyChar) (ss ts : List PyStr) : Prop :=
  ∃ pre s rest c u rest', ss = pre ++ s :: rest ∧ rest ≠ [] ∧
    ts = pre ++ (s ++ c :: u) :: rest' ∧ code c < code sep

section Joined

variable {sep : PyChar} {s t u : PyStr} {ss ts : List PyStr}

@[simp]
theorem joined_nil : joined sep [] = [] := rfl

@[simp]
theorem joined_singleton : joined sep [s] = s := List.intercalate_singleton

theorem joined_cons (h : ss ≠ []) : joined sep (s :: ss) = s ++ sep :: joined sep ss := by
  rw [joined, List.intercalate_cons_of_ne_nil h, List.append_assoc]
  rfl

theorem joined_injective (hss : ∀ s ∈ ss, sep ∉ s) (hts : ∀ t ∈ ts, sep ∉ t) (hne : ss ≠ [])
    (hne' : ts ≠ []) (h : joined sep ss = joined sep ts) : ss = ts := by
  rw [← List.splitOn_intercalate sep hss hne, ← List.splitOn_intercalate sep hts hne']
  exact congrArg (List.splitOn sep) h

theorem le_append_left : le (u ++ s) (u ++ t) = le s t := by
  induction u with
  | nil => rfl
  | cons c u ih => simp [le, ih]

theorem le_append_self : le s (s ++ t) := by
  induction s with
  | nil => rfl
  | cons c s ih => simp [le, ih]

/-- A text in front of another one is its beginning, or there is a first difference. -/
theorem beginning_or_differs (h : le s t) :
    (∃ u, t = s ++ u) ∨ ∃ u c s' d t', s = u ++ c :: s' ∧ t = u ++ d :: t' ∧ code c < code d := by
  induction s generalizing t with
  | nil => exact .inl ⟨t, rfl⟩
  | cons c s ih =>
    cases t with
    | nil => cases h
    | cons d t =>
      simp only [le, Bool.or_eq_true, Bool.and_eq_true, decide_eq_true_eq] at h
      rcases h with hlt | ⟨hcode, hle⟩
      · exact .inr ⟨[], c, s, d, t, rfl, rfl, hlt⟩
      · obtain rfl := code_injective hcode
        rcases ih hle with ⟨u, rfl⟩ | ⟨u, c', s', d', t', rfl, rfl, hlt⟩
        · exact .inl ⟨u, rfl⟩
        · exact .inr ⟨c :: u, c', s', d', t', rfl, rfl, hlt⟩

theorem not_overtakes_nil : ¬Overtakes sep [] ts := by
  rintro ⟨pre, s, rest, c, u, rest', hss, -, -, -⟩
  exact absurd hss.symm (by simp)

theorem not_overtakes_singleton : ¬Overtakes sep [s] ts := by
  rintro ⟨pre, s', rest, c, u, rest', hss, hrest, -, -⟩
  rcases pre with _ | ⟨x, pre⟩
  · exact hrest (List.cons.inj hss).2.symm
  · exact absurd (List.cons.inj hss).2.symm (by simp)

/-- Behind the same text. -/
theorem overtakes_cons_self (h : ss ≠ []) :
    Overtakes sep (s :: ss) (s :: ts) ↔ Overtakes sep ss ts := by
  constructor
  · rintro ⟨pre, s', rest, c, u, rest', hss, hrest, hts, hc⟩
    rcases pre with _ | ⟨x, pre⟩
    · -- a text is not longer than itself
      have hs := (List.cons.inj hss).1
      have ht := (List.cons.inj hts).1
      rw [← hs] at ht
      exact absurd (congrArg List.length ht) (by simp)
    · exact ⟨pre, s', rest, c, u, rest', (List.cons.inj hss).2, hrest, (List.cons.inj hts).2, hc⟩
  · rintro ⟨pre, s', rest, c, u, rest', rfl, hrest, rfl, hc⟩
    exact ⟨s :: pre, s', rest, c, u, rest', rfl, hrest, rfl, hc⟩

theorem overtakes_cons_of_ne (h : ss ≠ []) (hne : s ≠ t) :
    Overtakes sep (s :: ss) (t :: ts) ↔ ∃ c u, t = s ++ c :: u ∧ code c < code sep := by
  constructor
  · rintro ⟨pre, s', rest, c, u, rest', hss, -, hts, hc⟩
    rcases pre with _ | ⟨x, pre⟩
    · rw [(List.cons.inj hss).1]
      exact ⟨c, u, (List.cons.inj hts).1, hc⟩
    · exact absurd ((List.cons.inj hss).1.trans (List.cons.inj hts).1.symm) hne
  · rintro ⟨c, u, rfl, hc⟩
    exact ⟨[], s, ss, c, u, ts, rfl, h, rfl, hc⟩

theorem le_append_iff {x y : PyStr} (hne : s ≠ t) (hsep : sep ∉ t) (h : le s t) :
    le (s ++ sep :: x) (t ++ y) ↔ ¬∃ c u, t = s ++ c :: u ∧ code c < code sep := by
  rcases beginning_or_differs h with ⟨u, rfl⟩ | ⟨u, c, s', d, t', rfl, rfl, hlt⟩
  · rcases u with _ | ⟨c, u⟩
    · exact absurd (List.append_nil s).symm hne
    · have hcode : code sep ≠ code c := by
        intro hcode
        exact hsep (code_injective hcode ▸ by simp)
      rw [List.append_assoc, le_append_left]
      simp only [List.cons_append, le, hcode, decide_false, Bool.false_and, Bool.or_false,
        decide_eq_true_eq, List.append_cancel_left_eq, List.cons.injEq]
      constructor
      · rintro hlt ⟨c', u', ⟨rfl, rfl⟩, hc⟩
        omega
      · intro hnot
        have hle : ¬code c < code sep := fun hc => hnot ⟨c, u, ⟨rfl, rfl⟩, hc⟩
        omega
  · refine iff_of_true ?_ ?_
    · rw [List.append_assoc, List.append_assoc, le_append_left]
      simp [le, hlt]
    · rintro ⟨c', u', heq, -⟩
      rw [List.append_assoc] at heq
      have hcons := List.append_cancel_left heq
      rw [List.cons_append, List.cons.injEq] at hcons
      rw [hcons.1] at hlt
      exact lt_irrefl _ hlt

/-- **Where the orders differ.** -/
theorem le_joined_iff (hts : ∀ t ∈ ts, sep ∉ t) (h : textsLe ss ts) :
    le (joined sep ss) (joined sep ts) ↔ ¬Overtakes sep ss ts := by
  induction ss generalizing ts with
  | nil => exact iff_of_true rfl not_overtakes_nil
  | cons s ss ih =>
    cases ts with
    | nil => cases h
    | cons t ts =>
      have ht := hts t List.mem_cons_self
      have hts' := fun t' ht' => hts t' (List.mem_cons_of_mem t ht')
      have hjoined : ∃ y, joined sep (t :: ts) = t ++ y := by
        rcases eq_or_ne ts [] with rfl | hne
        · exact ⟨[], by simp⟩
        · exact ⟨_, joined_cons hne⟩
      rcases eq_or_ne ss [] with rfl | hss
      · refine iff_of_true ?_ not_overtakes_singleton
        obtain ⟨y, hy⟩ := hjoined
        rw [joined_singleton, hy]
        rcases eq_or_ne s t with rfl | hne
        · exact le_append_self
        · rw [textsLe, if_neg hne] at h
          exact le_trans h le_append_self
      · rcases eq_or_ne s t with rfl | hne
        · rw [textsLe, if_pos rfl] at h
          have hts'' : ts ≠ [] := by
            rintro rfl
            obtain ⟨x, xs, rfl⟩ := List.exists_cons_of_ne_nil hss
            cases h
          rw [joined_cons hss, joined_cons hts'', le_append_left, overtakes_cons_self hss,
            ← ih hts' h]
          simp [le]
        · rw [textsLe, if_neg hne] at h
          obtain ⟨y, hy⟩ := hjoined
          rw [joined_cons hss, hy, overtakes_cons_of_ne hss hne, le_append_iff hne ht h]

theorem textsLe_of_overtakes (h : Overtakes sep ss ts) : textsLe ss ts := by
  obtain ⟨pre, s, rest, c, u, rest', rfl, -, rfl, -⟩ := h
  induction pre with
  | nil =>
    have hne : s ≠ s ++ c :: u := fun heq => absurd (congrArg List.length heq) (by simp)
    rw [List.nil_append, List.nil_append, textsLe, if_neg hne]
    exact le_append_self
  | cons x pre ih => rwa [List.cons_append, List.cons_append, textsLe, if_pos rfl]

end Joined

end PyStr
