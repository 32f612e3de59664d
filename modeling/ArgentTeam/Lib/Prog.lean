import Mathlib.Order.Defs.Unbundled
import Mathlib.Data.Nat.Notation

/-!
# Programs with a state and exceptions

A program over a state `σ` ends with a value or with an exception, and with a
state *either way*: an exception does not undo what the program has already done.
Undoing is a combinator of its own, `Prog.atomically`, which puts one component of
the state back when its body raises – the discipline of a database transaction,
whose rollback restores the tables but not the clock.

Programs are read through two relations, `Prog.Returns` and `Prog.Raises`. Each
combinator has one inversion lemma per relation, tagged `simp`, so that unfolding
a program inside a hypothesis leaves the list of facts its run went through.
-/

/-- A program over a state `σ`: it ends with a value or an exception, and with a
state either way. -/
def Prog (σ ε α : Type) : Type := σ → Except ε α × σ

namespace Prog

variable {σ τ ε α β : Type}

/-! ### Combinators -/

instance : Monad (Prog σ ε) where
  pure a := fun s => (.ok a, s)
  bind m f := fun s => match m s with
    | (.ok a, s') => f a s'
    | (.error e, s') => (.error e, s')

def raise (e : ε) : Prog σ ε α := fun s => (.error e, s)

def read (f : σ → α) : Prog σ ε α := fun s => (.ok (f s), s)

def change (f : σ → σ) : Prog σ ε Unit := fun s => (.ok (), f s)

/-- Go on only if the condition holds. -/
def require (c : Prop) [Decidable c] (e : ε) : Prog σ ε Unit :=
  fun s => if c then (.ok (), s) else (.error e, s)

/-- Run a program only if the condition holds. -/
def onlyIf (c : Prop) [Decidable c] (m : Prog σ ε Unit) : Prog σ ε Unit :=
  if c then m else pure ()

/-- Run a program on the value of an option, if it has one. -/
def whenSome (o : Option α) (f : α → Prog σ ε Unit) : Prog σ ε Unit := match o with
  | some a => f a
  | none => pure ()

/-- Run one program on the value of an option, another one if it has none. -/
def caseSome (o : Option α) (f : α → Prog σ ε β) (m : Prog σ ε β) : Prog σ ε β := match o with
  | some a => f a
  | none => m

/-- The value of an option, or an exception where there is none. -/
def orRaise (o : Option α) (e : ε) : Prog σ ε α := fun s => match o with
  | some a => (.ok a, s)
  | none => (.error e, s)

/-- Run a program on every element of a list, in order. -/
def forEach (f : α → Prog σ ε Unit) : List α → Prog σ ε Unit
  | [] => pure ()
  | a :: as => do
    f a
    forEach f as

/-- **Rollback**: where the body raises, the component `π` of the state is put back
to what it was. -/
def atomically (π : σ → τ) (put : τ → σ → σ) (m : Prog σ ε α) : Prog σ ε α :=
  fun s => match m s with
    | (.ok a, s') => (.ok a, s')
    | (.error e, s') => (.error e, put (π s) s')

/-- Run the handler on the exceptions of a body. -/
def rescue (m : Prog σ ε α) (h : ε → Prog σ ε α) : Prog σ ε α :=
  fun s => match m s with
    | (.ok a, s') => (.ok a, s')
    | (.error e, s') => h e s'

/-! ### Returning -/

/-- The program, started in `s`, returns `a` and ends in `s'`. -/
def Returns (m : Prog σ ε α) (s : σ) (a : α) (s' : σ) : Prop := m s = (.ok a, s')

/-- The program, started in `s`, raises `e` and ends in `s'`. -/
def Raises (m : Prog σ ε α) (s : σ) (e : ε) (s' : σ) : Prop := m s = (.error e, s')

variable {m : Prog σ ε α} {f : α → Prog σ ε β} {s s' : σ} {a a' : α} {b : β}
  {e e' : ε} {c : Prop} {o : Option α} {u : Unit} {g : α → Prog σ ε Unit} {as : List α}
  {h : ε → Prog σ ε α} {m' : Prog σ ε α}

theorem returns_or_raises (m : Prog σ ε α) (s : σ) :
    (∃ a s', m.Returns s a s') ∨ ∃ e s', m.Raises s e s' := by
  rcases h : m s with ⟨_ | _, s'⟩
  · exact Or.inr ⟨_, s', h⟩
  · exact Or.inl ⟨_, s', h⟩

theorem returns_of_fst (h : (m s).1 = .ok a) : m.Returns s a (m s).2 := Prod.ext h rfl

theorem Returns.snd_eq (h : m.Returns s a s') : (m s).2 = s' := by
  rw [show m s = _ from h]

theorem Raises.snd_eq (h : m.Raises s e s') : (m s).2 = s' := by
  rw [show m s = _ from h]

@[simp]
theorem returns_pure : (pure a : Prog σ ε α).Returns s a' s' ↔ a = a' ∧ s = s' := by
  simp [Returns, pure]

@[simp]
theorem returns_bind :
    (m >>= f).Returns s b s' ↔ ∃ a s₁, m.Returns s a s₁ ∧ (f a).Returns s₁ b s' := by
  constructor
  · intro h
    rcases hm : m s with ⟨_ | a, s₁⟩
    · simp [Returns, bind, hm] at h
    · exact ⟨a, s₁, hm, by simpa [Returns, bind, hm] using h⟩
  · rintro ⟨a, s₁, hm, hf⟩
    simpa [Returns, bind, show m s = _ from hm] using hf

@[simp]
theorem not_returns_raise : ¬(raise e : Prog σ ε α).Returns s a s' := by
  simp [Returns, raise]

@[simp]
theorem returns_read {g : σ → α} :
    (read g : Prog σ ε α).Returns s a s' ↔ g s = a ∧ s = s' := by
  simp [Returns, read]

@[simp]
theorem returns_change {g : σ → σ} :
    (change g : Prog σ ε Unit).Returns s u s' ↔ g s = s' := by
  simp [Returns, change]

@[simp]
theorem returns_require [Decidable c] :
    (require c e : Prog σ ε Unit).Returns s u s' ↔ c ∧ s = s' := by
  by_cases hc : c <;> simp [Returns, require, hc]

@[simp]
theorem returns_orRaise :
    (orRaise o e : Prog σ ε α).Returns s a s' ↔ o = some a ∧ s = s' := by
  cases o <;> simp [Returns, orRaise]

@[simp]
theorem returns_ite [Decidable c] :
    (if c then m else m').Returns s a s' ↔
      (c ∧ m.Returns s a s') ∨ (¬c ∧ m'.Returns s a s') := by
  by_cases hc : c <;> simp [hc]

@[simp]
theorem returns_onlyIf [Decidable c] {m : Prog σ ε Unit} :
    (onlyIf c m).Returns s u s' ↔ (c ∧ m.Returns s u s') ∨ (¬c ∧ s = s') := by
  simp [onlyIf]

@[simp]
theorem returns_whenSome {f : α → Prog σ ε Unit} :
    (whenSome o f).Returns s u s' ↔
      (∃ a, o = some a ∧ (f a).Returns s u s') ∨ (o = none ∧ s = s') := by
  cases o <;> simp [whenSome]

@[simp]
theorem returns_caseSome {m : Prog σ ε β} :
    (caseSome o f m).Returns s b s' ↔
      (∃ a, o = some a ∧ (f a).Returns s b s') ∨ (o = none ∧ m.Returns s b s') := by
  cases o <;> simp [caseSome]

@[simp]
theorem returns_atomically {π : σ → τ} {put : τ → σ → σ} :
    (atomically π put m).Returns s a s' ↔ m.Returns s a s' := by
  rcases h : m s with ⟨_ | _, s₁⟩ <;> simp [Returns, atomically, h]

theorem returns_rescue :
    (rescue m h).Returns s a s' ↔
      m.Returns s a s' ∨ ∃ e s₁, m.Raises s e s₁ ∧ (h e).Returns s₁ a s' := by
  rcases hm : m s with ⟨_ | _, s₁⟩ <;> simp [Returns, Raises, rescue, hm, and_assoc]

/-! ### Raising -/

@[simp]
theorem not_raises_pure : ¬(pure a : Prog σ ε α).Raises s e s' := by
  simp [Raises, pure]

@[simp]
theorem raises_bind :
    (m >>= f).Raises s e s' ↔
      m.Raises s e s' ∨ ∃ a s₁, m.Returns s a s₁ ∧ (f a).Raises s₁ e s' := by
  rcases hm : m s with ⟨_ | a, s₁⟩ <;> simp [Raises, Returns, bind, hm, and_assoc]

@[simp]
theorem raises_raise : (raise e : Prog σ ε α).Raises s e' s' ↔ e = e' ∧ s = s' := by
  simp [Raises, raise]

@[simp]
theorem not_raises_read {g : σ → α} : ¬(read g : Prog σ ε α).Raises s e s' := by
  simp [Raises, read]

@[simp]
theorem not_raises_change {g : σ → σ} : ¬(change g : Prog σ ε Unit).Raises s e s' := by
  simp [Raises, change]

@[simp]
theorem raises_require [Decidable c] :
    (require c e : Prog σ ε Unit).Raises s e' s' ↔ ¬c ∧ e = e' ∧ s = s' := by
  by_cases hc : c <;> simp [Raises, require, hc]

@[simp]
theorem raises_orRaise :
    (orRaise o e : Prog σ ε α).Raises s e' s' ↔ o = none ∧ e = e' ∧ s = s' := by
  cases o <;> simp [Raises, orRaise]

@[simp]
theorem raises_ite [Decidable c] :
    (if c then m else m').Raises s e s' ↔
      (c ∧ m.Raises s e s') ∨ (¬c ∧ m'.Raises s e s') := by
  by_cases hc : c <;> simp [hc]

@[simp]
theorem raises_onlyIf [Decidable c] {m : Prog σ ε Unit} :
    (onlyIf c m).Raises s e s' ↔ c ∧ m.Raises s e s' := by
  simp [onlyIf]

@[simp]
theorem raises_whenSome {f : α → Prog σ ε Unit} :
    (whenSome o f).Raises s e s' ↔ ∃ a, o = some a ∧ (f a).Raises s e s' := by
  cases o <;> simp [whenSome]

@[simp]
theorem raises_caseSome {m : Prog σ ε β} :
    (caseSome o f m).Raises s e s' ↔
      (∃ a, o = some a ∧ (f a).Raises s e s') ∨ (o = none ∧ m.Raises s e s') := by
  cases o <;> simp [caseSome]

@[simp]
theorem raises_atomically {π : σ → τ} {put : τ → σ → σ} :
    (atomically π put m).Raises s e s' ↔ ∃ s₁, m.Raises s e s₁ ∧ put (π s) s₁ = s' := by
  rcases h : m s with ⟨_ | _, s₁⟩ <;> simp [Raises, atomically, h, and_assoc]

theorem raises_rescue :
    (rescue m h).Raises s e s' ↔ ∃ e₁ s₁, m.Raises s e₁ s₁ ∧ (h e₁).Raises s₁ e s' := by
  rcases hm : m s with ⟨_ | _, s₁⟩ <;> simp [Raises, rescue, hm, and_assoc]

/-! ### The state a program leaves -/

theorem bind_raise_snd {e : α → ε} :
    ((m >>= fun a => (raise (e a) : Prog σ ε β)) s).2 = (m s).2 := by
  rcases hm : m s with ⟨_ | _, s₁⟩ <;> simp [bind, hm, raise]

theorem bind_snd_cases :
    (∃ e s', m.Raises s e s' ∧ ((m >>= f) s).2 = s') ∨
      ∃ a s', m.Returns s a s' ∧ ((m >>= f) s).2 = (f a s').2 := by
  rcases hm : m s with ⟨e | a, s₁⟩
  · exact Or.inl ⟨e, s₁, hm, by simp [bind, hm]⟩
  · exact Or.inr ⟨a, s₁, hm, by simp [bind, hm]⟩

theorem rescue_snd_of_returns (hm : m.Returns s a s') :
    (rescue m h s).2 = s' := by
  simp [rescue, show m s = _ from hm]

theorem rescue_snd_of_raises (hm : m.Raises s e s') :
    (rescue m h s).2 = (h e s').2 := by
  simp [rescue, show m s = _ from hm]

/-- What would follow a raise is never run. -/
theorem raise_bind : (raise e : Prog σ ε α) >>= f = raise e := rfl

theorem bind_assoc {γ : Type} {g : β → Prog σ ε γ} : m >>= f >>= g = m >>= fun a => f a >>= g := by
  funext s
  rcases hm : m s with ⟨_ | _, s₁⟩ <;> simp [bind, hm]

theorem pure_bind : (pure a : Prog σ ε α) >>= f = f a := rfl

/-! ### Moving along a relation

What a program does to one component of its state, whichever way it ends: it moves
it along a relation. The combinators move the component along a preorder as soon as
their parts do, and being a class lets instance search put the parts together, one
program after the other. A frame condition – the component does not change at all –
is the case where the preorder is equality. -/

/-- However it ends, the program moves the component `π` of the state along `R`. -/
class Moves (π : σ → τ) (R : τ → τ → Prop) (m : Prog σ ε α) : Prop where
  moves : ∀ s, R (π s) (π (m s).2)

section Moves

variable {π : σ → τ} {R : τ → τ → Prop}

theorem Moves.of_returns [h : Moves π R m] (hr : m.Returns s a s') : R (π s) (π s') := by
  have := h.moves s
  rwa [show m s = _ from hr] at this

/-- **The frame**: a component a program leaves alone is the same after it. -/
theorem Moves.frame (π : σ → τ) [h : Moves π Eq m] (hr : m.Returns s a s') : π s' = π s :=
  (Moves.of_returns (h := h) hr).symm

theorem Moves.frame_snd (π : σ → τ) [h : Moves π Eq m] : π (m s).2 = π s := (h.moves s).symm

theorem Moves.of_raises [h : Moves π R m] (hr : m.Raises s e s') : R (π s) (π s') := by
  have := h.moves s
  rwa [show m s = _ from hr] at this

section Refl

variable [Std.Refl R]

instance : Moves π R (pure a : Prog σ ε α) := ⟨fun s => Std.Refl.refl (π s)⟩

instance : Moves π R (raise e : Prog σ ε α) := ⟨fun s => Std.Refl.refl (π s)⟩

instance {g : σ → α} : Moves π R (read g : Prog σ ε α) := ⟨fun s => Std.Refl.refl (π s)⟩

instance [Decidable c] : Moves π R (require c e : Prog σ ε Unit) := by
  refine ⟨fun s => ?_⟩
  by_cases hc : c <;> simpa [require, hc] using Std.Refl.refl (π s)

instance : Moves π R (orRaise o e : Prog σ ε α) := by
  refine ⟨fun s => ?_⟩
  cases o <;> exact Std.Refl.refl (π s)

end Refl

section Trans

variable [IsTrans τ R]

theorem moves_bind (hm : Moves π R m) (hf : ∀ a, Moves π R (f a)) : Moves π R (m >>= f) := by
  refine ⟨fun s => ?_⟩
  have h := hm.moves s
  rcases hms : m s with ⟨_ | a, s₁⟩
  · simpa [bind, hms] using h
  · rw [hms] at h
    have h' := (hf a).moves s₁
    simpa [bind, hms] using IsTrans.trans _ _ _ h h'

/-- A program moves as its steps do; a local instance where programs are walked through. -/
theorem moves_steps [hm : Moves π R m] [hf : ∀ a, Moves π R (f a)] : Moves π R (m >>= f) :=
  moves_bind hm hf

theorem moves_rescue (hm : Moves π R m) (hh : ∀ e, Moves π R (h e)) :
    Moves π R (rescue m h) := by
  refine ⟨fun s => ?_⟩
  have hs := hm.moves s
  rcases hms : m s with ⟨e | a, s₁⟩
  · rw [hms] at hs
    simpa [rescue, hms] using IsTrans.trans _ _ _ hs ((hh e).moves s₁)
  · simpa [rescue, hms] using hs

theorem moves_forEach [Std.Refl R]
    (hg : ∀ a, Moves π R (g a)) : Moves π R (forEach g as) := by
  induction as with
  | nil => exact inferInstanceAs (Moves π R (pure () : Prog σ ε Unit))
  | cons a as ih => exact moves_bind (hg a) fun _ => ih

instance [Std.Refl R] [hg : ∀ a, Moves π R (g a)] :
    Moves π R (forEach g as) :=
  moves_forEach hg

end Trans

instance [Decidable c] [h : Moves π R m] [h' : Moves π R m'] :
    Moves π R (if c then m else m') := by
  by_cases hc : c <;> simpa [hc]

theorem moves_onlyIf [Std.Refl R] [Decidable c] {m : Prog σ ε Unit}
    (hm : Moves π R m) : Moves π R (onlyIf c m) :=
  inferInstanceAs (Moves π R (if c then m else pure ()))

instance [Std.Refl R] [Decidable c] {m : Prog σ ε Unit} [hm : Moves π R m] :
    Moves π R (onlyIf c m) :=
  moves_onlyIf hm

theorem moves_whenSome [Std.Refl R] {f : α → Prog σ ε Unit}
    (hf : ∀ a, Moves π R (f a)) : Moves π R (whenSome o f) := by
  cases o with
  | none => exact inferInstanceAs (Moves π R (pure () : Prog σ ε Unit))
  | some a => exact hf a

instance [Std.Refl R] {f : α → Prog σ ε Unit} [hf : ∀ a, Moves π R (f a)] :
    Moves π R (whenSome o f) :=
  moves_whenSome hf

theorem moves_caseSome {m : Prog σ ε β} (hf : ∀ a, Moves π R (f a))
    (hm : Moves π R m) : Moves π R (caseSome o f m) := by
  cases o with
  | none => exact hm
  | some a => exact hf a

instance {m : Prog σ ε β} [hf : ∀ a, Moves π R (f a)] [hm : Moves π R m] :
    Moves π R (caseSome o f m) :=
  moves_caseSome hf hm

end Moves

/-! ### Loops and preservation -/

/-- A relation between the states before and after that a loop body respects, and
that composes, is respected by the loop. -/
theorem returns_forEach {R : σ → σ → Prop} (hrefl : ∀ s, R s s)
    (htrans : ∀ s₁ s₂ s₃, R s₁ s₂ → R s₂ s₃ → R s₁ s₃) :
    ∀ {as : List α} {s s' : σ} {u : Unit},
      (∀ a ∈ as, ∀ s u s', (g a).Returns s u s' → R s s') → (forEach g as).Returns s u s' →
        R s s'
  | [], s, s', _, _, h => by
    obtain ⟨-, rfl⟩ := returns_pure.mp h
    exact hrefl s
  | a :: as, s, s', _, hg, h => by
    obtain ⟨u, s₁, h₁, h₂⟩ := returns_bind.mp h
    exact htrans s s₁ s' (hg a (by simp) s u s₁ h₁)
      (returns_forEach hrefl htrans (fun b hb => hg b (by simp [hb])) h₂)

/-- **A loop whose body never raises does not raise**, the invariant carrying what
the body needs from one element to the next. -/
theorem forEach_total {I : σ → Prop} :
    ∀ {as : List α} {s : σ}, I s →
      (∀ a ∈ as, ∀ s, I s → ∃ s', (g a).Returns s () s' ∧ I s') →
        ∃ s', (forEach g as).Returns s () s' ∧ I s'
  | [], s, hs, _ => ⟨s, returns_pure.mpr ⟨rfl, rfl⟩, hs⟩
  | a :: as, s, hs, hg => by
    obtain ⟨s₁, h₁, hs₁⟩ := hg a (by simp) s hs
    obtain ⟨s', h', hs'⟩ := forEach_total hs₁ fun b (hb : b ∈ as) => hg b (by simp [hb])
    exact ⟨s', returns_bind.mpr ⟨(), s₁, h₁, h'⟩, hs'⟩

/-- **A loop that returns has run its body on every element**, each time in a state that
agrees with the first one wherever the body changes nothing. -/
theorem body_of_returns_forEach (π : σ → τ) {s s' : σ}
    (hg : ∀ a, Moves π Eq (g a)) (h : (forEach g as).Returns s u s') :
    ∀ a ∈ as, ∃ s₁ s₂, π s₁ = π s ∧ (g a).Returns s₁ () s₂ := by
  induction as generalizing s with
  | nil => simp
  | cons b as ih =>
    obtain ⟨_, s₁, hb, has⟩ := returns_bind.mp h
    intro a ha
    rcases List.mem_cons.mp ha with rfl | ha
    · exact ⟨s, s₁, rfl, hb⟩
    · obtain ⟨s₂, s₃, hs, hbody⟩ := ih has a ha
      exact ⟨s₂, s₃, hs.trans (Moves.frame π (h := hg b) hb), hbody⟩

/-- **What a loop establishes, it establishes for every element**, if each body establishes its
own and keeps that of the others. -/
theorem establish_forEach {T : α → σ → Prop} {s s' : σ}
    (hown : ∀ a ∈ as, ∀ s u s', (g a).Returns s u s' → T a s')
    (hkeep : ∀ a ∈ as, ∀ b s u s', T b s → (g a).Returns s u s' → T b s')
    (h : (forEach g as).Returns s u s') : ∀ a ∈ as, T a s' := by
  induction as generalizing s u with
  | nil => simp
  | cons b as ih =>
    obtain ⟨_, s₁, hb, has⟩ := returns_bind.mp h
    intro a ha
    rcases List.mem_cons.mp ha with rfl | ha
    · refine returns_forEach (R := fun s s' => T a s → T a s') (fun _ => id)
        (fun _ _ _ h h' => h' ∘ h) (fun c hc s u s' hr hs => ?_) has (hown a ha s _ s₁ hb)
      exact hkeep c (List.mem_cons_of_mem a hc) a s u s' hs hr
    · exact ih (fun c hc => hown c (List.mem_cons_of_mem b hc))
        (fun c hc => hkeep c (List.mem_cons_of_mem b hc)) has a ha

theorem frame_forEach (π : σ → τ) {s s' : σ}
    (hg : ∀ a ∈ as, ∀ s₁ u s₂, π s₁ = π s → (g a).Returns s₁ u s₂ → π s₂ = π s₁)
    (h : (forEach g as).Returns s u s') : π s' = π s :=
  returns_forEach (R := fun s₁ s₂ => π s₁ = π s → π s₂ = π s) (fun _ => id)
    (fun _ _ _ h h' => h' ∘ h) (fun a ha s₁ u s₂ hr h₁ => (hg a ha s₁ u s₂ h₁ hr).trans h₁) h rfl

/-! ### Total correctness -/

/-- **Total correctness**: started where `P` holds, the program returns, and `Q` holds of
what it returns and of where it ends. -/
def Total (P : σ → Prop) (m : Prog σ ε α) (Q : α → σ → Prop) : Prop :=
  ∀ s, P s → ∃ a s', m.Returns s a s' ∧ Q a s'

section Total

variable {P I : σ → Prop} {Q : α → σ → Prop} {T : β → σ → Prop}

theorem Total.bind (hm : Total P m Q) (hf : ∀ a, Total (Q a) (f a) T) : Total P (m >>= f) T := by
  intro s hs
  obtain ⟨a, s₁, h₁, hQ⟩ := hm s hs
  obtain ⟨b, s₂, h₂, hT⟩ := hf a s₁ hQ
  exact ⟨b, s₂, returns_bind.mpr ⟨a, s₁, h₁, h₂⟩, hT⟩

theorem Total.of_returns (hm : Total P m Q) (hs : P s) (h : m.Returns s a s') : Q a s' := by
  obtain ⟨b, t, ht, hQ⟩ := hm s hs
  obtain ⟨hab, rfl⟩ := Prod.mk.inj (ht.symm.trans h)
  rwa [← Except.ok.inj hab]

theorem Total.of_imp (hm : Total I m Q) (h : ∀ s, P s → I s) : Total P m Q :=
  fun s hs => hm s (h s hs)

theorem total_pure {u : α} : Total (Q u) (pure u : Prog σ ε α) Q :=
  fun s hs => ⟨u, s, returns_pure.mpr ⟨rfl, rfl⟩, hs⟩

theorem total_require [Decidable c] (hc : c) :
    Total P (require c e : Prog σ ε Unit) fun _ => P :=
  fun s hs => ⟨(), s, returns_require.mpr ⟨hc, rfl⟩, hs⟩

theorem total_orRaise_bind (ho : o = some a) (hf : Total P (f a) T) :
    Total P (orRaise o e >>= f) T := by
  intro s hs
  obtain ⟨b, s', h, hT⟩ := hf s hs
  exact ⟨b, s', returns_bind.mpr ⟨a, s, returns_orRaise.mpr ⟨ho, rfl⟩, h⟩, hT⟩

theorem total_read_bind {g : σ → α} (hf : ∀ s, P s → ∃ b s', (f (g s)).Returns s b s' ∧ T b s') :
    Total P (read g >>= f) T := by
  intro s hs
  obtain ⟨b, s', h, hT⟩ := hf s hs
  exact ⟨b, s', returns_bind.mpr ⟨g s, s, returns_read.mpr ⟨rfl, rfl⟩, h⟩, hT⟩

theorem total_onlyIf [Decidable c] {m : Prog σ ε Unit}
    (hm : c → Total I m fun _ => I) : Total I (onlyIf c m) fun _ => I := by
  intro s hs
  by_cases hc : c
  · rw [onlyIf, if_pos hc]
    exact hm hc s hs
  · rw [onlyIf, if_neg hc]
    exact total_pure s hs

theorem total_whenSome {f : α → Prog σ ε Unit}
    (hf : ∀ a, o = some a → Total I (f a) fun _ => I) :
    Total I (whenSome o f) fun _ => I := by
  cases o with
  | none => exact total_pure (Q := fun _ => I)
  | some a => exact hf a rfl

theorem total_forEach
    (hg : ∀ a ∈ as, Total I (g a) fun _ => I) : Total I (forEach g as) fun _ => I := by
  intro s hs
  obtain ⟨s', h, hs'⟩ := forEach_total hs fun a ha s hs => by
    obtain ⟨_, s', h, hs'⟩ := hg a ha s hs
    exact ⟨s', h, hs'⟩
  exact ⟨(), s', h, hs'⟩

end Total

end Prog
