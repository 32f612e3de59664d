import ArgentTeam.Broker.Publication

/-!
# When what is published stays as it is

A title, a body or a detail that has been sanitised is to pass a second time as it is, and to have
no secret and no marker in it. Of the redacted text this nearly holds (`not_found_redactDetail`,
`barred_redactSecrets`). It fails where the cut falls into a word, right behind what looks like a
token; in a body, also where a GitHub token runs into a fine-grained one, which is replaced later,
and where the control characters stood in a marker that no secret overlaps and that the cut leaves.
In no other case (`sanitised_iff`): neither the replacements nor the cut make a marker
(`hasInjectionMarker_take_iff`).
-/

namespace ArgentTeam

namespace Broker

namespace Publication

variable {W : Words} {p q : Pattern PyChar} {ps : List (Pattern PyChar)} {s t u : PyStr} {n : ℕ}

/-! ### Replacements, one after the other -/

/-- A replacement that brings no match of this pattern about. -/
def Spares (W : Words) (q p : Pattern PyChar) : Prop := p.Enters W.isWord ∨ q.closes = false

theorem found_of_subAll (hps : ∀ p ∈ ps, Tame W p) (hq : Tame W q)
    (hspares : ∀ p ∈ ps, Spares W q p) (h : q.Found W.isWord (subAll W ps t)) :
    q.Found W.isWord t := by
  induction ps generalizing t with
  | nil => exact h
  | cons p ps ih =>
    have hp := hps p List.mem_cons_self
    refine Pattern.found_of_sub (Nat.zero_lt_of_lt hp.long) hp.leaves
      (hspares p List.mem_cons_self) hq.searched ?_
    exact ih (fun p hp => hps p (List.mem_cons_of_mem _ hp))
      (fun p hp => hspares p (List.mem_cons_of_mem _ hp)) h

/-- **None of the patterns is found after the replacements**, if each spares those before it. -/
theorem not_found_subAll (hps : ∀ p ∈ ps, Tame W p) (hspares : ps.Pairwise (Spares W))
    (hself : ∀ p ∈ ps, Spares W p p) : ∀ p ∈ ps, ¬p.Found W.isWord (subAll W ps t) := by
  induction ps generalizing t with
  | nil => simp
  | cons p ps ih =>
    obtain ⟨hp, hps⟩ := List.forall_mem_cons.mp hps
    obtain ⟨hselfp, hself⟩ := List.forall_mem_cons.mp hself
    obtain ⟨hlater, hspares⟩ := List.pairwise_cons.mp hspares
    refine List.forall_mem_cons.mpr ⟨fun hfound => ?_, ih hps hspares hself⟩
    exact Pattern.not_found_sub (Nat.zero_lt_of_lt hp.long) hp.leaves hselfp hp.searched
      (found_of_subAll hps hp hlater hfound)

theorem mem_subAll {c : PyChar} (h : c ∈ subAll W ps t) : c ∈ t ∨ c ∈ redacted := by
  induction ps generalizing t with
  | nil => exact .inl h
  | cons p ps ih => exact (ih h).elim Pattern.mem_sub .inr

theorem subAll_of_not_found (h : ∀ p ∈ ps, ¬p.Found W.isWord t) : subAll W ps t = t := by
  induction ps with
  | nil => rfl
  | cons p ps ih =>
    rw [subAll, List.foldl_cons, Pattern.sub_of_not_found (h p List.mem_cons_self)]
    exact ih fun p hp => h p (List.mem_cons_of_mem _ hp)

/-! ### What is left in a redacted text -/

theorem spares_self (h : p ∈ secretPatterns ++ tokenMarkers) : Spares W p p := by
  by_cases hpat : p = githubPat
  · exact .inr (hpat ▸ rfl)
  · refine .inl (enters_of_mem ?_)
    simpa [secretPatterns, hpat] using h

theorem pairwise_spares :
    (githubPat :: accessKey :: privateKey :: secretKey :: tokenMarkers).Pairwise (Spares W) :=
  List.pairwise_cons.mpr ⟨fun _ hp => .inl (enters_of_mem (List.mem_cons_of_mem _ hp)),
    List.pairwise_of_forall_mem_list fun _ _ _ hp =>
      .inl (enters_of_mem (List.mem_cons_of_mem _ hp))⟩

theorem redactDetail_eq : redactDetail W u = subAll W (secretPatterns ++ tokenMarkers) u := by
  rw [redactDetail, redactSecrets, subAll, subAll, subAll, List.foldl_append]

/-- **A redacted detail has no secret and no token marker in it**: what the fine-grained tokens
bring about is replaced with the markers. -/
theorem not_found_redactDetail :
    ∀ p ∈ secretPatterns ++ tokenMarkers, ¬p.Found W.isWord (redactDetail W u) := by
  have hlater : ∀ p ∈ githubPat :: accessKey :: privateKey :: secretKey :: tokenMarkers,
      ¬p.Found W.isWord (redactDetail W u) := by
    rw [redactDetail_eq]
    refine not_found_subAll (t := (ghToken 20).sub W.isWord redacted none 0 u)
      (fun p hp => tame_of_mem (List.mem_cons_of_mem _ hp)) pairwise_spares
      (fun p hp => spares_self (List.mem_cons_of_mem _ hp))
  refine List.forall_mem_cons.mpr ⟨?_, hlater⟩
  rintro ⟨l, x, y, ht, hx, hedges⟩
  refine hlater (ghToken 16) (by simp [tokenMarkers]) ⟨l, x, y, ht, ?_, hedges⟩
  exact Spells.weaken (by decide) hx

/-- The GitHub tokens that are left in a text all run into a replacement. -/
def Barred (W : Words) (t : PyStr) : Prop :=
  ∀ l x y, t = l ++ (x ++ y) → (ghToken 20).Occ W.isWord l x y → y.head? = some (.scalar '[')

theorem Barred.sub (hp : Tame W p) (h : Barred W t) :
    Barred W (p.sub W.isWord redacted none 0 t) := by
  intro l x z ht hocc
  have hgh := tame_ghToken (W := W) (n := 20) (by decide)
  obtain ⟨m, y, rfl, -, hopens, hnext | ⟨hnext, -⟩⟩ :=
    hocc.of_sub (Nat.zero_lt_of_lt hp.long) hp.leaves (hgh.searched.clear x hocc.1)
      (fun hopens => hgh.searched.start hopens x hocc.1) ht
  · rw [← hnext]
    refine h m x y rfl ⟨hocc.1, hopens, fun hcloses => ?_⟩
    have hedge := hocc.2.2 hcloses
    have hne := (hgh.searched.clear x hocc.1).ne_nil
    rw [List.getLast?_append_of_ne_nil _ hne] at hedge ⊢
    rwa [hnext]
  · exact hnext

theorem barred_redactSecrets : Barred W (redactSecrets W u) := by
  have hrun : ∀ ps : List (Pattern PyChar), (∀ p ∈ ps, Tame W p) → ∀ t, Barred W t →
      Barred W (subAll W ps t) := by
    intro ps
    induction ps with
    | nil => exact fun _ _ h => h
    | cons p ps ih =>
      intro hps t h
      obtain ⟨hp, hps⟩ := List.forall_mem_cons.mp hps
      exact ih hps _ (h.sub hp)
  refine hrun [githubPat, accessKey, privateKey, secretKey]
    (fun p hp => tame_of_mem (List.mem_append_left _ (List.mem_cons_of_mem _ hp))) _ ?_
  intro l x y ht hocc
  have hgh := tame_ghToken (W := W) (n := 20) (by decide)
  exact absurd ⟨l, x, y, ht, hocc⟩ (Pattern.not_found_sub (Nat.zero_lt_of_lt hgh.long) hgh.leaves
    (.inl (Pattern.enters_of_opens rfl)) hgh.searched)

/-- The other secrets are gone from a redacted text. -/
theorem not_found_redactSecrets : ∀ p ∈ [githubPat, accessKey, privateKey, secretKey],
    ¬p.Found W.isWord (redactSecrets W u) := by
  have hmem : ∀ p ∈ [githubPat, accessKey, privateKey, secretKey],
      p ∈ secretPatterns ++ tokenMarkers := fun p hp =>
    List.mem_append_left _ (List.mem_cons_of_mem _ hp)
  exact not_found_subAll (t := (ghToken 20).sub W.isWord redacted none 0 u)
    (fun p hp => tame_of_mem (hmem p hp))
    (pairwise_spares.sublist (List.sublist_append_left _ tokenMarkers))
    (fun p hp => spares_self (hmem p hp))

/-! ### What a cut leaves -/

theorem found_take_iff (hp : p ∈ secretPatterns ++ tokenMarkers) :
    p.Found W.isWord (t.take n) ↔ p.Split W.isWord t n ∨
      ∃ l x y, t = l ++ (x ++ y) ∧ (l ++ x).length ≤ n ∧ p.Occ W.isWord l x y :=
  Pattern.found_take_iff (Nat.zero_lt_of_lt (tame_of_mem (W := W) hp).long)
    fun hcloses _ => getLast?_isWord hp hcloses

/-- **In a text without a match only the cut makes one.** -/
theorem found_take_iff_split (hp : p ∈ secretPatterns ++ tokenMarkers)
    (h : ¬p.Found W.isWord t) : p.Found W.isWord (t.take n) ↔ p.Split W.isWord t n := by
  rw [found_take_iff hp]
  refine or_iff_left ?_
  rintro ⟨l, x, y, ht, -, hocc⟩
  exact h ⟨l, x, y, ht, hocc⟩

/-- A GitHub token runs into a replacement, before the cut. -/
def Bared (W : Words) (t : PyStr) (n : ℕ) : Prop :=
  ∃ l x y, t = l ++ (x ++ .scalar '[' :: y) ∧ (l ++ x).length ≤ n ∧
    Spells (ghToken 20).parts x ∧ Edge W.isWord l.getLast? (x ++ .scalar '[' :: y).head?

/-- In a text whose GitHub tokens run into replacements, such a token makes a match, too. -/
theorem found_take_iff_bared (h : Barred W t) : (ghToken 20).Found W.isWord (t.take n) ↔
    (ghToken 20).Split W.isWord t n ∨ Bared W t n := by
  have hmem : ghToken 20 ∈ secretPatterns ++ tokenMarkers := List.mem_cons_self
  rw [found_take_iff hmem]
  refine or_congr_right ⟨?_, ?_⟩
  · rintro ⟨l, x, y, ht, hle, hocc⟩
    obtain ⟨y, rfl⟩ := List.head?_eq_some_iff.mp (h l x y ht hocc)
    exact ⟨l, x, y, ht, hle, hocc.1, hocc.2.1 rfl⟩
  · rintro ⟨l, x, y, ht, hle, hx, hedge⟩
    refine ⟨l, x, _, ht, hle, hx, fun _ => hedge, fun hcloses => ?_⟩
    have hne := ((tame_ghToken (W := W) (by decide)).searched.clear x hx).ne_nil
    rw [Edge, List.getLast?_append_of_ne_nil _ hne, getLast?_isWord hmem hcloses hx]
    show true ≠ W.isWord (.scalar '[')
    rw [W.ascii _ (by decide)]
    decide

theorem stripControl_take (u : PyStr) :
    stripControl ((subAll W ps (stripControl u)).take n) =
      (subAll W ps (stripControl u)).take n := by
  refine List.filter_eq_self.mpr fun c hc => ?_
  obtain hc | hc := mem_subAll (List.mem_of_mem_take hc)
  · exact (List.mem_filter.mp hc).2
  · exact List.all_eq_true.mp (by decide : redacted.all (fun c => !isControl c) = true) c hc

theorem hasSecretLike_eq_false_iff :
    hasSecretLike W t = false ↔ ∀ p ∈ secretPatterns, ¬p.Found W.isWord t := by
  simp [hasSecretLike, ← Pattern.search_eq_true_iff]

theorem redactSecrets_of_clean (h : ∀ p ∈ secretPatterns, ¬p.Found W.isWord t) :
    redactSecrets W t = t :=
  subAll_of_not_found h

/-! ### Titles -/

/-- What becomes of a title passes again as it is, and has no secret in it. -/
def TitleSettled (W : Words) (s : PyStr) : Prop :=
  ∀ t, validatePrTitle W s = .ok t → validatePrTitle W t = .ok t ∧
    ∀ p ∈ secretPatterns, ¬p.Found W.isWord t

theorem validatePrTitle_eq_ok_iff : validatePrTitle W s = .ok t ↔ s.strip ≠ [] ∧
    (∀ p ∈ secretPatterns, ¬p.Found W.isWord (stripControl s)) ∧
    t = (stripControl s).take maxTitleLen ∧ t.strip ≠ [] := by
  rw [← hasSecretLike_eq_false_iff, validatePrTitle]
  by_cases hstrip : s.strip = []
  · simp [hstrip]
  rw [if_neg hstrip, sanitizePublicationText, Bool.true_and]
  cases hsecret : hasSecretLike W (stripControl s) with
  | true => simp [Except.bind]
  | false =>
    have hclean := redactSecrets_of_clean ((hasSecretLike_eq_false_iff).mp hsecret)
    rw [if_neg Bool.false_ne_true, hclean, Except.bind]
    by_cases hne : PyStr.strip ((stripControl s).take maxTitleLen) = []
    · rw [if_pos hne]
      constructor
      · rintro ⟨⟩
      · rintro ⟨-, -, rfl, hne'⟩
        exact absurd hne hne'
    · rw [if_neg hne]
      constructor
      · rintro ⟨⟩
        exact ⟨hstrip, rfl, rfl, hne⟩
      · rintro ⟨-, -, rfl, -⟩
        rfl

theorem titleSettled_iff : TitleSettled W s ↔ ((∃ t, validatePrTitle W s = .ok t) →
    ∀ p ∈ secretPatterns, ¬p.Split W.isWord (stripControl s) maxTitleLen) := by
  have hcut : (∀ p ∈ secretPatterns, ¬p.Found W.isWord (stripControl s)) → ∀ p ∈ secretPatterns,
      (p.Found W.isWord ((stripControl s).take maxTitleLen) ↔
        p.Split W.isWord (stripControl s) maxTitleLen) := fun h p hp =>
    found_take_iff_split (List.mem_append_left _ hp) (h p hp)
  constructor
  · rintro h ⟨t, ht⟩ p hp hsplit
    obtain ⟨-, hclean, rfl, -⟩ := (validatePrTitle_eq_ok_iff).mp ht
    exact (h _ ht).2 p hp ((hcut hclean p hp).mpr hsplit)
  · intro h t ht
    obtain ⟨-, hclean, rfl, hne⟩ := (validatePrTitle_eq_ok_iff).mp ht
    have hclear : ∀ p ∈ secretPatterns,
        ¬p.Found W.isWord ((stripControl s).take maxTitleLen) := fun p hp hfound =>
      h ⟨_, ht⟩ p hp ((hcut hclean p hp).mp hfound)
    have hstrip : stripControl ((stripControl s).take maxTitleLen) =
        (stripControl s).take maxTitleLen := @stripControl_take W [] maxTitleLen s
    refine ⟨(validatePrTitle_eq_ok_iff).mpr ⟨hne, hstrip.symm ▸ hclear, ?_, hne⟩, hclear⟩
    rw [hstrip, List.take_take, Nat.min_self]

/-! ### Markers -/

theorem lowerChar_cases (c : PyChar) : (∃ a, PyStr.lowerChar c = [a]) ∨
    PyStr.lowerChar c = [.scalar 'i', .scalar (Char.ofNat 0x307)] := by
  cases c with
  | surrogate n => exact .inl ⟨_, rfl⟩
  | scalar c =>
    simp only [PyStr.lowerChar]
    split_ifs
    · exact .inr rfl
    · exact .inl ⟨_, rfl⟩
    · exact .inl ⟨_, rfl⟩

/-- A text that is not lowered to by half a dotted capital I. -/
structure Lowered (m : PyStr) : Prop where
  dot : .scalar (Char.ofNat 0x307) ∉ m
  last : ∀ c ∈ m.getLast?, c ≠ .scalar 'i'

theorem Lowered.tail {a : PyChar} {m : PyStr} (h : Lowered (a :: m)) : Lowered m where
  dot hmem := h.dot (List.mem_cons_of_mem a hmem)
  last c hc := h.last c (by
    rw [List.getLast?_cons, Option.mem_def.mp hc]
    rfl)

theorem exists_of_prefix_lower {m : PyStr} (hm : Lowered m) (h : m <+: t.lower) :
    ∃ x y, t = x ++ y ∧ x.lower = m := by
  induction t generalizing m with
  | nil => exact ⟨[], [], rfl, (List.prefix_nil.mp h).symm⟩
  | cons c t ih =>
    rcases m with _ | ⟨a, m⟩
    · exact ⟨[], c :: t, rfl, rfl⟩
    · rw [PyStr.lower, List.flatMap_cons] at h
      obtain ⟨b, hb⟩ | hi := lowerChar_cases c
      · rw [hb, List.singleton_append, List.cons_prefix_cons] at h
        obtain ⟨rfl, hrest⟩ := h
        obtain ⟨x, y, rfl, hx⟩ := ih hm.tail hrest
        refine ⟨c :: x, y, rfl, ?_⟩
        rw [PyStr.lower, List.flatMap_cons, hb, List.singleton_append]
        exact congrArg _ hx
      · -- the mark above the dotted capital I would have to follow
        rw [hi, List.cons_append, List.cons_prefix_cons] at h
        obtain ⟨rfl, hrest⟩ := h
        rcases m with _ | ⟨b, m⟩
        · exact absurd rfl (hm.last _ rfl)
        · rw [List.cons_append, List.cons_prefix_cons] at hrest
          exact absurd (by simp [hrest.1]) hm.dot

/-- **What is found in lower case** is the lower case of a part of the text. -/
theorem contains_lower_iff {m : PyStr} (hm : Lowered m) :
    PyStr.contains m t.lower ↔ ∃ l x y, t = l ++ (x ++ y) ∧ x.lower = m := by
  rw [PyStr.contains_iff]
  constructor
  · intro h
    induction t with
    | nil => exact ⟨[], [], [], rfl, (List.infix_nil.mp h).symm⟩
    | cons c t ih =>
      by_cases hpre : m <+: PyStr.lower (c :: t)
      · obtain ⟨x, y, ht, hx⟩ := exists_of_prefix_lower hm hpre
        exact ⟨[], x, y, ht, hx⟩
      · have hrest : m <:+: PyStr.lower t := by
          rw [PyStr.lower, List.flatMap_cons] at h hpre
          obtain ⟨b, hb⟩ | hi := lowerChar_cases c
          · rw [hb, List.singleton_append] at h hpre
            exact (List.infix_cons_iff.mp h).resolve_left hpre
          · rw [hi, List.cons_append] at h hpre
            have h := (List.infix_cons_iff.mp h).resolve_left hpre
            rw [List.singleton_append] at h
            refine (List.infix_cons_iff.mp h).resolve_left fun hdot => ?_
            rcases m with _ | ⟨a, m⟩
            · exact hpre List.nil_prefix
            · exact hm.dot (by simp [(List.cons_prefix_cons.mp hdot).1])
        obtain ⟨l, x, y, rfl, hx⟩ := ih hrest
        exact ⟨c :: l, x, y, rfl, hx⟩
  · rintro ⟨l, x, y, rfl, rfl⟩
    exact ⟨PyStr.lower l, PyStr.lower y, by simp [PyStr.lower]⟩

theorem hasInjectionMarker_iff : hasInjectionMarker t ↔
    ∃ l x y, t = l ++ (x ++ y) ∧ PyStr.lower x ∈ promptInjectionMarkers := by
  have hlowered : ∀ m ∈ promptInjectionMarkers, Lowered m := by
    have hcheck : ∀ m ∈ promptInjectionMarkers, .scalar (Char.ofNat 0x307) ∉ m ∧
        ∀ c ∈ m.getLast?, c ≠ .scalar 'i' := by decide
    exact fun m hm => ⟨(hcheck m hm).1, (hcheck m hm).2⟩
  rw [hasInjectionMarker, List.any_eq_true]
  constructor
  · rintro ⟨m, hm, hcontains⟩
    obtain ⟨l, x, y, ht, rfl⟩ := (contains_lower_iff (hlowered m hm)).mp hcontains
    exact ⟨l, x, y, ht, hm⟩
  · rintro ⟨l, x, y, ht, hm⟩
    exact ⟨_, hm, (contains_lower_iff (hlowered _ hm)).mpr ⟨l, x, y, ht, rfl⟩⟩

/-- A text has a marker that the replacements leave alone, and that is within the first `n`
characters of what they make of the text. -/
def MarkerStays (W : Words) (u : PyStr) (n : ℕ) : Prop :=
  ∃ l x y, u = l ++ (x ++ y) ∧ PyStr.lower x ∈ promptInjectionMarkers ∧
    Pattern.Stays W.isWord redacted n secretPatterns l x y

/-- What is lowered to a marker cannot be mistaken for what a secret is replaced by. -/
theorem clear_of_marker {x : PyStr} (hx : PyStr.lower x ∈ promptInjectionMarkers) :
    (∀ a ∈ redacted.head?, a ∉ x) ∧ (∀ a ∈ redacted.getLast?, a ∉ x) ∧
      redacted.length ≤ x.length := by
  have hmem : ∀ a ∈ x, ∀ b ∈ PyStr.lowerChar a, b ∈ PyStr.lower x := fun a ha b hb =>
    List.mem_flatMap.mpr ⟨a, ha, hb⟩
  have hcheck : ∀ m ∈ promptInjectionMarkers, .scalar '[' ∉ m ∧ .scalar ']' ∉ m ∧
      .scalar (Char.ofNat 0x307) ∉ m ∧ redacted.length ≤ m.length := by decide
  obtain ⟨hopen, hclose, hdot, hlen⟩ := hcheck _ hx
  refine ⟨?_, ?_, ?_⟩
  · rintro a ⟨⟩ ha
    exact hopen (hmem _ ha _ (by decide))
  · rintro a ⟨⟩ ha
    exact hclose (hmem _ ha _ (by decide))
  · have hone : ∀ a ∈ x, (PyStr.lowerChar a).length = 1 := fun a ha => by
      obtain ⟨b, hb⟩ | hi := lowerChar_cases a
      · rw [hb, List.length_singleton]
      · exact absurd (hmem a ha _ (by rw [hi]; simp)) hdot
    rw [PyStr.lower, List.length_flatMap, List.map_congr_left hone] at hlen
    simpa using hlen

/-- **Replacements and the cut make no marker**: what is found after them has been there. -/
theorem hasInjectionMarker_take_iff :
    hasInjectionMarker ((redactSecrets W u).take n) ↔ MarkerStays W u n := by
  have hstays : ∀ {x : PyStr}, PyStr.lower x ∈ promptInjectionMarkers →
      ((∃ k z, redactSecrets W u = k ++ (x ++ z) ∧ (k ++ x).length ≤ n) ↔
        ∃ l y, u = l ++ (x ++ y) ∧ Pattern.Stays W.isWord redacted n secretPatterns l x y) := by
    intro x hx
    obtain ⟨hfirst, hlast, hlen⟩ := clear_of_marker hx
    exact Pattern.stays_iff (fun p hp => Nat.zero_lt_of_lt
      (tame_of_mem (W := W) (List.mem_append_left _ hp)).long) (by decide) hfirst hlast hlen
  rw [hasInjectionMarker_iff]
  constructor
  · rintro ⟨k, x, z, ht, hx⟩
    have hlen : (k ++ x).length ≤ n := by
      have := congrArg List.length ht
      simp at this ⊢
      omega
    have hsplit : redactSecrets W u = k ++ (x ++ (z ++ (redactSecrets W u).drop n)) := by
      rw [← List.append_assoc x, ← List.append_assoc k, ← ht, List.take_append_drop]
    obtain ⟨l, y, hu, hstay⟩ := (hstays hx).mp ⟨k, _, hsplit, hlen⟩
    exact ⟨l, x, y, hu, hx, hstay⟩
  · rintro ⟨l, x, y, hu, hx, hstay⟩
    obtain ⟨k, z, ht, hlen⟩ := (hstays hx).mpr ⟨l, y, hu, hstay⟩
    obtain ⟨m, hm⟩ := Nat.exists_eq_add_of_le hlen
    refine ⟨k, x, z.take m, ?_, hx⟩
    rw [ht, hm, ← List.append_assoc, List.take_length_add_append, List.append_assoc]

/-- A body that has no control characters in it is freed of markers. -/
theorem not_markerStays (hcontrol : stripControl s = s) (h : hasInjectionMarker s = false) :
    ¬MarkerStays W (stripControl s) n := by
  rintro ⟨l, x, y, hs, hx, -⟩
  rw [hcontrol] at hs
  exact absurd (hasInjectionMarker_iff.mpr ⟨l, x, y, hs, hx⟩) (by simp [h])

/-! ### Bodies -/

/-- What becomes of a body passes again as it is, and has no secret and no marker in it. -/
def BodySettled (W : Words) (s : PyStr) : Prop :=
  ∀ b, validatePrBody W s = .ok b → validatePrBody W b = .ok b ∧
    (∀ p ∈ secretPatterns, ¬p.Found W.isWord b) ∧ hasInjectionMarker b = false

theorem validatePrBody_eq_ok_iff {b : PyStr} : validatePrBody W s = .ok b ↔
    hasInjectionMarker s = false ∧ b = (redactSecrets W (stripControl s)).take maxBodyLen := by
  cases h : hasInjectionMarker s <;>
    simp [validatePrBody, sanitizePublicationText, h, eq_comm]

theorem clean_take_redactSecrets_iff :
    (∀ p ∈ secretPatterns, ¬p.Found W.isWord ((redactSecrets W u).take n)) ↔
      ¬Bared W (redactSecrets W u) n ∧
        ∀ p ∈ secretPatterns, ¬p.Split W.isWord (redactSecrets W u) n := by
  have hlater : ∀ p ∈ [githubPat, accessKey, privateKey, secretKey],
      (p.Found W.isWord ((redactSecrets W u).take n) ↔ p.Split W.isWord (redactSecrets W u) n) :=
    fun p hp => found_take_iff_split (List.mem_append_left _ (List.mem_cons_of_mem _ hp))
      (not_found_redactSecrets p hp)
  have hcons : ∀ P : Pattern PyChar → Prop, (∀ p ∈ secretPatterns, P p) ↔
      P (ghToken 20) ∧ ∀ p ∈ [githubPat, accessKey, privateKey, secretKey], P p :=
    fun _ => List.forall_mem_cons
  rw [hcons, hcons, found_take_iff_bared barred_redactSecrets, not_or, and_right_comm, and_comm]
  exact and_congr_right fun _ => and_congr_right fun _ =>
    forall₂_congr fun p hp => not_congr (hlater p hp)

theorem bodySettled_iff : BodySettled W s ↔ (hasInjectionMarker s = false →
    ¬MarkerStays W (stripControl s) maxBodyLen ∧
    ¬Bared W (redactSecrets W (stripControl s)) maxBodyLen ∧
    ∀ p ∈ secretPatterns, ¬p.Split W.isWord (redactSecrets W (stripControl s)) maxBodyLen) := by
  rw [← clean_take_redactSecrets_iff, ← hasInjectionMarker_take_iff, Bool.not_eq_true]
  constructor
  · intro h hmarker
    obtain ⟨-, hclean, hnone⟩ := h _ ((validatePrBody_eq_ok_iff).mpr ⟨hmarker, rfl⟩)
    exact ⟨hnone, hclean⟩
  · intro h b hb
    obtain ⟨hmarker, rfl⟩ := (validatePrBody_eq_ok_iff).mp hb
    obtain ⟨hnone, hclean⟩ := h hmarker
    have hstrip : stripControl ((redactSecrets W (stripControl s)).take maxBodyLen) =
        (redactSecrets W (stripControl s)).take maxBodyLen := stripControl_take s
    refine ⟨(validatePrBody_eq_ok_iff).mpr ⟨hnone, ?_⟩, hclean, hnone⟩
    rw [hstrip, redactSecrets_of_clean hclean, List.take_take, Nat.min_self]

/-! ### Details -/

/-- A detail does not change when it is sanitised again, and has no secret and no token marker in
it. -/
def DetailSettled (W : Words) (s : PyStr) : Prop :=
  sanitizeDetail W (sanitizeDetail W s) = sanitizeDetail W s ∧
    ∀ p ∈ secretPatterns ++ tokenMarkers, ¬p.Found W.isWord (sanitizeDetail W s)

theorem detailSettled_iff : DetailSettled W s ↔ ∀ p ∈ secretPatterns ++ tokenMarkers,
    ¬p.Split W.isWord (redactDetail W (stripControl s)) 512 := by
  have hcut : ∀ p ∈ secretPatterns ++ tokenMarkers, (p.Found W.isWord (sanitizeDetail W s) ↔
      p.Split W.isWord (redactDetail W (stripControl s)) 512) := fun p hp =>
    found_take_iff_split hp (not_found_redactDetail p hp)
  constructor
  · exact fun h p hp hsplit => h.2 p hp ((hcut p hp).mpr hsplit)
  · intro h
    have hclean : ∀ p ∈ secretPatterns ++ tokenMarkers,
        ¬p.Found W.isWord (sanitizeDetail W s) := fun p hp hfound => h p hp ((hcut p hp).mp hfound)
    refine ⟨?_, hclean⟩
    have hstrip : stripControl (sanitizeDetail W s) = sanitizeDetail W s := by
      rw [sanitizeDetail, redactDetail_eq]
      exact stripControl_take s
    rw [sanitizeDetail, hstrip, redactDetail_eq, subAll_of_not_found hclean, sanitizeDetail,
      List.take_take, Nat.min_self]

/-! ### The three functions -/

/-- **When what is published stays as it is.** A title does, unless it is cut right behind a token
that goes on as a word. A body does, unless it is so cut, or a GitHub token runs into a text that is
replaced, or a marker stands in what is kept of it. A detail does, unless it is so cut. -/
theorem sanitised_iff (W : Words) (s : PyStr) :
    (TitleSettled W s ↔ ((∃ t, validatePrTitle W s = .ok t) →
      ∀ p ∈ secretPatterns, ¬p.Split W.isWord (stripControl s) maxTitleLen)) ∧
    (BodySettled W s ↔ (hasInjectionMarker s = false →
      ¬MarkerStays W (stripControl s) maxBodyLen ∧
      ¬Bared W (redactSecrets W (stripControl s)) maxBodyLen ∧
      ∀ p ∈ secretPatterns, ¬p.Split W.isWord (redactSecrets W (stripControl s)) maxBodyLen)) ∧
    (DetailSettled W s ↔ ∀ p ∈ secretPatterns ++ tokenMarkers,
      ¬p.Split W.isWord (redactDetail W (stripControl s)) 512) :=
  ⟨titleSettled_iff, bodySettled_iff, detailSettled_iff⟩

/-! ### A marker with a control character in it -/

/-- The words of ASCII alone. -/
def Words.plain : Words where
  isWord c := alnum c || oneOf "_" c
  ascii _ _ := rfl

/-- A body without a marker, as long as the null character is there. -/
def hiddenMarker : PyStr := PyStr.ofString "system\x00 prompt"

theorem not_sanitised : ¬∀ s, TitleSettled Words.plain s ∧ BodySettled Words.plain s ∧
    DetailSettled Words.plain s := by
  intro h
  have hbody := (h hiddenMarker).2.1 (PyStr.ofString "system prompt") (by decide)
  exact absurd hbody.2.2 (by decide)

end Publication

end Broker

end ArgentTeam
