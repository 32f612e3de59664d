import Mathlib.Init

/-!
# Programs of atomic actions

A program that acts on a state, one atomic action after the other, and goes on by what each has
answered; what it makes a note of is kept. Alone, it has the state to itself (`Actions.alone`).
Among others it has not: anything may happen to the state before each of its actions
(`Actions.taken`), and it may stop at any of them.

Two kinds of facts are shown by looking at each action once. What every action does to the state it
finds, given the notes that were made before, it does in every run among others (`Actions.Obeys`).
And what relates two states, and is kept by every action, which answers the same in both, relates
the ends of the two runs alone (`Actions.Couples`).
-/

/-- A program of atomic actions. -/
inductive Actions (σ ν ρ : Type) : Type 1
  | done (r : ρ)
  /-- An action, what is noted of its answer, and how the program goes on. -/
  | act {β : Type} (f : σ → β × σ) (note : β → List ν) (next : β → Actions σ ν ρ)

namespace Actions

variable {σ ν ρ τ : Type}

/-- One program after the other. -/
def andThen : Actions σ ν ρ → (ρ → Actions σ ν τ) → Actions σ ν τ
  | done r, k => k r
  | act f note next, k => act f note fun b => (next b).andThen k

instance : Monad (Actions σ ν) where
  pure := done
  bind := andThen

/-- An action that only looks, and makes a note of what it sees. -/
def scan (f : σ → ρ) (note : ρ → List ν) : Actions σ ν ρ := act (fun s => (f s, s)) note done

/-- An action that only looks. -/
def read (f : σ → ρ) : Actions σ ν ρ := scan f fun _ => []

/-- An action. -/
def perform (f : σ → ρ × σ) : Actions σ ν ρ := act f (fun _ => []) done

variable {c : Actions σ ν ρ} {k : ρ → Actions σ ν τ} {s t : σ}

/-! ### Alone -/

/-- The program alone: its answer, and the state it leaves. -/
def alone : Actions σ ν ρ → σ → ρ × σ
  | done r, s => (r, s)
  | act f _ next, s => alone (next (f s).1) (f s).2

@[simp]
theorem alone_pure (r : ρ) : alone (pure r : Actions σ ν ρ) s = (r, s) := rfl

@[simp]
theorem alone_scan (f : σ → ρ) (note : ρ → List ν) : alone (scan f note) s = (f s, s) := rfl

@[simp]
theorem alone_read (f : σ → ρ) : alone (read f : Actions σ ν ρ) s = (f s, s) := rfl

@[simp]
theorem alone_perform (f : σ → ρ × σ) : alone (perform f : Actions σ ν ρ) s = f s := rfl

@[simp]
theorem alone_bind : alone (c >>= k) s = alone (k (alone c s).1) (alone c s).2 := by
  induction c generalizing s with
  | done r => rfl
  | act f note next ih => exact ih _

/-! ### Among others -/

/-- The actions that a program takes while others act in between: each with the notes that were
made before, the latest first, the state it finds and the state it leaves. -/
def taken : Actions σ ν ρ → List ν → List (σ → σ) → σ → List (List ν × σ × σ)
  | done _, _, _, _ | act .., _, [], _ => []
  | act f note next, seen, o :: os, s =>
    (seen, o s, (f (o s)).2) ::
      taken (next (f (o s)).1) (note (f (o s)).1 ++ seen) os (f (o s)).2

/-- What every action does: a relation between the notes that were made before, the state it finds
and the state it leaves. -/
def Obeys (P : List ν → σ → σ → Prop) : List ν → Actions σ ν ρ → Prop
  | _, done _ => True
  | seen, act f note next =>
    ∀ s, P seen s (f s).2 ∧ Obeys P (note (f s).1 ++ seen) (next (f s).1)

variable {P : List ν → σ → σ → Prop} {seen : List ν} {os : List (σ → σ)} {f : σ → ρ × σ}

/-- **What every action does, it does among others.** -/
theorem Obeys.taken (h : Obeys P seen c) : ∀ x ∈ taken c seen os s, P x.1 x.2.1 x.2.2 := by
  induction c generalizing seen os s with
  | done r =>
    intro x hx
    cases hx
  | act f note next ih =>
    cases os with
    | nil =>
      intro x hx
      cases hx
    | cons o os =>
      intro x hx
      rcases List.mem_cons.mp hx with rfl | hx
      · exact (h (o s)).1
      · exact ih _ (h (o s)).2 x hx

theorem obeys_pure (r : ρ) : Obeys P seen (pure r : Actions σ ν ρ) := trivial

theorem obeys_perform (h : ∀ s, P seen s (f s).2) : Obeys P seen (perform f) :=
  fun s => ⟨h s, trivial⟩

theorem Obeys.scan_bind {f : σ → ρ} {note : ρ → List ν} (h : ∀ s, P seen s s)
    (hk : ∀ s, Obeys P (note (f s) ++ seen) (k (f s))) : Obeys P seen (scan f note >>= k) :=
  fun s => ⟨h s, hk s⟩

theorem Obeys.bind (h : Obeys P seen c)
    (hk : ∀ r more, Obeys P (more ++ seen) (k r)) : Obeys P seen (c >>= k) := by
  induction c generalizing seen with
  | done r => exact hk r []
  | act f note next ih =>
    intro s
    refine ⟨(h s).1, ih _ (h s).2 fun r more => ?_⟩
    have hmore := hk r (more ++ note (f s).1)
    rwa [List.append_assoc] at hmore

theorem Obeys.imp {P' : List ν → σ → σ → Prop} (h : Obeys P seen c)
    (himp : ∀ seen s t, P seen s t → P' seen s t) : Obeys P' seen c := by
  induction c generalizing seen with
  | done r => trivial
  | act f note next ih => exact fun s => ⟨himp _ _ _ (h s).1, ih _ (h s).2⟩

/-- **What every action keeps, the program keeps.** -/
theorem Obeys.alone {R : σ → σ → Prop} (hrefl : ∀ s, R s s)
    (htrans : ∀ s t u, R s t → R t u → R s u) (h : Obeys (fun _ => R) seen c) :
    R s (alone c s).2 := by
  induction c generalizing seen s with
  | done r => exact hrefl s
  | act f note next ih => exact htrans _ _ _ (h s).1 (ih _ (h s).2)

/-! ### Programs that only look -/

/-- No action changes anything. -/
def Quiet : Actions σ ν ρ → Prop
  | done _ => True
  | act f _ next => (∀ s, (f s).2 = s) ∧ ∀ b, Quiet (next b)

theorem quiet_pure (r : ρ) : Quiet (pure r : Actions σ ν ρ) := trivial

theorem quiet_scan (f : σ → ρ) (note : ρ → List ν) : Quiet (scan f note) :=
  ⟨fun _ => rfl, fun _ => trivial⟩

theorem quiet_read (f : σ → ρ) : Quiet (read f : Actions σ ν ρ) := quiet_scan f _

theorem Quiet.bind (h : Quiet c) (hk : ∀ r, Quiet (k r)) : Quiet (c >>= k) := by
  induction c with
  | done r => exact hk r
  | act f note next ih => exact ⟨h.1, fun b => ih b (h.2 b)⟩

theorem Quiet.obeys (h : Quiet c) (hP : ∀ seen s, P seen s s) : Obeys P seen c := by
  induction c generalizing seen with
  | done r => trivial
  | act f note next ih =>
    intro s
    refine ⟨?_, ih _ (h.2 _)⟩
    rw [h.1 s]
    exact hP seen s

/-! ### Programs that end with a change -/

/-- Once an action has changed the state, the program is over, with an answer of this kind. -/
def Closing (Q : ρ → Prop) : Actions σ ν ρ → Prop
  | done _ => True
  | act f _ next =>
    ∀ s, (f s).2 = s ∧ Closing Q (next (f s).1) ∨ ∃ r, next (f s).1 = done r ∧ Q r

variable {Q : ρ → Prop} {Q' : τ → Prop}

/-- **The program has changed nothing, or answers so.** -/
theorem Closing.alone (h : Closing Q c) : (alone c s).2 = s ∨ Q (alone c s).1 := by
  induction c generalizing s with
  | done r => exact .inl rfl
  | act f note next ih =>
    rcases h s with ⟨hsame, hnext⟩ | ⟨r, hdone, hr⟩
    · rcases ih _ hnext (s := (f s).2) with hleft | hright
      · exact .inl (hleft.trans hsame)
      · exact .inr hright
    · refine .inr ?_
      rw [Actions.alone, hdone]
      exact hr

theorem closing_pure (r : ρ) : Closing Q (pure r : Actions σ ν ρ) := trivial

theorem closing_perform (h : ∀ s, (f s).2 = s ∨ Q (f s).1) :
    Closing Q (perform f : Actions σ ν ρ) := by
  intro s
  rcases h s with hsame | hQ
  · exact .inl ⟨hsame, trivial⟩
  · exact .inr ⟨_, rfl, hQ⟩

theorem Quiet.closing (h : Quiet c) : Closing Q c := by
  induction c with
  | done r => trivial
  | act f note next ih => exact fun s => .inl ⟨h.1 s, ih _ (h.2 _)⟩

theorem Closing.bind (h : Closing Q c) (hover : ∀ r, Q r → ∃ r', k r = done r' ∧ Q' r')
    (hk : ∀ r, Closing Q' (k r)) : Closing Q' (c >>= k) := by
  induction c with
  | done r => exact hk r
  | act f note next ih =>
    intro s
    rcases h s with ⟨hsame, hnext⟩ | ⟨r, hdone, hr⟩
    · exact .inl ⟨hsame, ih _ hnext⟩
    · obtain ⟨r', hr', hQ'⟩ := hover r hr
      refine .inr ⟨r', ?_, hQ'⟩
      change (next (f s).1).andThen k = _
      rw [hdone]
      exact hr'

theorem Quiet.closing_bind (h : Quiet c) (hk : ∀ r, Closing Q' (k r)) : Closing Q' (c >>= k) :=
  Closing.bind (Q := fun _ => False) h.closing (fun _ hr => hr.elim) hk

/-! ### Two runs -/

/-- Every action answers the same in two states that are related, and keeps them related. -/
def Couples (R : σ → σ → Prop) : Actions σ ν ρ → Prop
  | done _ => True
  | act f _ next =>
    ∀ s t, R s t → (f s).1 = (f t).1 ∧ R (f s).2 (f t).2 ∧ Couples R (next (f s).1)

variable {R : σ → σ → Prop}

/-- **Two runs answer the same**, and end in states that are related. -/
theorem Couples.alone (h : Couples R c) (hst : R s t) :
    (alone c s).1 = (alone c t).1 ∧ R (alone c s).2 (alone c t).2 := by
  induction c generalizing s t with
  | done r => exact ⟨rfl, hst⟩
  | act f note next ih =>
    obtain ⟨hanswer, hstate, hnext⟩ := h s t hst
    rw [Actions.alone, Actions.alone, ← hanswer]
    exact ih _ hnext hstate

theorem couples_pure (r : ρ) : Couples R (pure r : Actions σ ν ρ) := trivial

theorem couples_read {f : σ → ρ} (h : ∀ s t, R s t → f s = f t) :
    Couples R (read f : Actions σ ν ρ) :=
  fun s t hst => ⟨h s t hst, hst, trivial⟩

theorem couples_scan_bind {f : σ → ρ} {note : ρ → List ν} (h : ∀ s t, R s t → f s = f t)
    (hk : ∀ s, Couples R (k (f s))) : Couples R (scan f note >>= k) :=
  fun s t hst => ⟨h s t hst, hst, hk s⟩

theorem couples_perform
    (h : ∀ s t, R s t → (f s).1 = (f t).1 ∧ R (f s).2 (f t).2) :
    Couples R (perform f : Actions σ ν ρ) :=
  fun s t hst => ⟨(h s t hst).1, (h s t hst).2, trivial⟩

theorem Couples.bind (h : Couples R c) (hk : ∀ r, Couples R (k r)) : Couples R (c >>= k) := by
  induction c with
  | done r => exact hk r
  | act f note next ih =>
    intro s t hst
    obtain ⟨hanswer, hstate, hnext⟩ := h s t hst
    exact ⟨hanswer, hstate, ih _ hnext⟩

end Actions
