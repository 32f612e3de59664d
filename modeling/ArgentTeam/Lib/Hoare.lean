import ArgentTeam.Lib.Prog

/-!
# Triples with two postconditions

What a program with exceptions does from the states where a precondition holds: `Q` holds of
where it returns, and `E` of where it raises. Unlike `Prog.Total`, a triple does not say which
of the two happens, and so it has a rule for every combinator, with no case left open. The rule
for a loop carries an invariant over the part of the list that has been gone through.
-/

namespace Prog

variable {σ ε α β : Type}

/-- Started where `P` holds, the program returns where `Q` holds or raises where `E` does. -/
def Triple (P : σ → Prop) (m : Prog σ ε α) (Q : α → σ → Prop) (E : ε → σ → Prop) : Prop :=
  ∀ s, P s → (∀ a s', m.Returns s a s' → Q a s') ∧ ∀ e s', m.Raises s e s' → E e s'

variable {P P' : σ → Prop} {m : Prog σ ε α} {f : α → Prog σ ε β} {Q Q' : α → σ → Prop}
  {T : β → σ → Prop} {E E' : ε → σ → Prop} {c : Prop} {e : ε}

theorem Triple.of_returns {s s' : σ} {a : α} (h : Triple P m Q E) (hs : P s)
    (hm : m.Returns s a s') : Q a s' :=
  (h s hs).1 a s' hm

theorem Triple.of_raises {s s' : σ} (h : Triple P m Q E) (hs : P s)
    (hm : m.Raises s e s') : E e s' :=
  (h s hs).2 e s' hm

theorem Triple.conseq (h : Triple P m Q E) (hP : ∀ s, P' s → P s) (hQ : ∀ a s, Q a s → Q' a s)
    (hE : ∀ e s, E e s → E' e s) : Triple P' m Q' E' := fun s hs =>
  ⟨fun a s' hm => hQ a s' ((h s (hP s hs)).1 a s' hm),
    fun e s' hm => hE e s' ((h s (hP s hs)).2 e s' hm)⟩

theorem Triple.pre (h : Triple P m Q E) (hP : ∀ s, P' s → P s) : Triple P' m Q E :=
  h.conseq hP (fun _ _ => id) fun _ _ => id

theorem Triple.post (h : Triple P m Q E) (hQ : ∀ a s, Q a s → Q' a s) : Triple P m Q' E :=
  h.conseq (fun _ => id) hQ fun _ _ => id

theorem triple_of_fact (h : c → Triple P m Q E) : Triple (fun s => P s ∧ c) m Q E :=
  fun s hs => h hs.2 s hs.1

/-- **The rule of sequence.** -/
theorem Triple.bind (hm : Triple P m Q E) (hf : ∀ a, Triple (Q a) (f a) T E) :
    Triple P (m >>= f) T E := fun s hs => by
  refine ⟨fun b s' h => ?_, fun e s' h => ?_⟩
  · obtain ⟨a, s₁, h₁, h₂⟩ := returns_bind.mp h
    exact (hf a).of_returns (hm.of_returns hs h₁) h₂
  · rcases raises_bind.mp h with h₁ | ⟨a, s₁, h₁, h₂⟩
    · exact hm.of_raises hs h₁
    · exact (hf a).of_raises (hm.of_returns hs h₁) h₂

theorem triple_pure {a : α} (h : ∀ s, P s → Q a s) : Triple P (pure a : Prog σ ε α) Q E :=
  fun s hs => ⟨fun b s' hr => by
    obtain ⟨rfl, rfl⟩ := returns_pure.mp hr
    exact h s hs, fun e s' hr => absurd hr not_raises_pure⟩

theorem triple_raise (h : ∀ s, P s → E e s) : Triple P (raise e : Prog σ ε α) Q E :=
  fun s hs => ⟨fun a s' hr => absurd hr not_returns_raise, fun e' s' hr => by
    obtain ⟨rfl, rfl⟩ := raises_raise.mp hr
    exact h s hs⟩

theorem triple_change {g : σ → σ} {Q : Unit → σ → Prop} (h : ∀ s, P s → Q () (g s)) :
    Triple P (change g : Prog σ ε Unit) Q E :=
  fun s hs => ⟨fun u s' hr => by
    cases returns_change.mp hr
    exact h s hs, fun e s' hr => absurd hr not_raises_change⟩

theorem triple_read_bind {g : σ → α} (hf : ∀ a, Triple (fun s => P s ∧ g s = a) (f a) T E) :
    Triple P (read g >>= f) T E := by
  refine Triple.bind (Q := fun a s => P s ∧ g s = a) (fun s hs => ?_) hf
  refine ⟨fun a s' hr => ?_, fun e s' hr => absurd hr not_raises_read⟩
  obtain ⟨rfl, rfl⟩ := returns_read.mp hr
  exact ⟨hs, rfl⟩

theorem triple_require [Decidable c] {Q : Unit → σ → Prop}
    (hQ : ∀ s, P s → c → Q () s) (hE : ∀ s, P s → ¬c → E e s) :
    Triple P (require c e : Prog σ ε Unit) Q E := fun s hs => by
  refine ⟨fun u s' hr => ?_, fun e' s' hr => ?_⟩
  · obtain ⟨hc, rfl⟩ := returns_require.mp hr
    exact hQ s hs hc
  · obtain ⟨hc, rfl, rfl⟩ := raises_require.mp hr
    exact hE s hs hc

theorem triple_orRaise {o : Option α} (hQ : ∀ s a, P s → o = some a → Q a s)
    (hE : ∀ s, P s → o = none → E e s) : Triple P (orRaise o e : Prog σ ε α) Q E := fun s hs => by
  refine ⟨fun a s' hr => ?_, fun e' s' hr => ?_⟩
  · obtain ⟨ho, rfl⟩ := returns_orRaise.mp hr
    exact hQ s a hs ho
  · obtain ⟨ho, rfl, rfl⟩ := raises_orRaise.mp hr
    exact hE s hs ho

theorem triple_ite [Decidable c] {m' : Prog σ ε α} (hm : c → Triple P m Q E)
    (hm' : ¬c → Triple P m' Q E) : Triple P (if c then m else m') Q E := by
  split
  next hc => exact hm hc
  next hc => exact hm' hc

theorem triple_onlyIf [Decidable c] {m : Prog σ ε Unit} {Q : Unit → σ → Prop}
    (hm : c → Triple P m Q E) (hQ : ¬c → ∀ s, P s → Q () s) : Triple P (onlyIf c m) Q E :=
  triple_ite hm fun hc => triple_pure (hQ hc)

theorem triple_caseSome {γ : Type} {o : Option γ} {g : γ → Prog σ ε α}
    (hg : ∀ c, o = some c → Triple P (g c) Q E) (hm : o = none → Triple P m Q E) :
    Triple P (caseSome o g m) Q E := by
  cases o with
  | none => exact hm rfl
  | some c => exact hg c rfl

theorem triple_whenSome {γ : Type} {o : Option γ} {g : γ → Prog σ ε Unit} {Q : Unit → σ → Prop}
    (hg : ∀ c, o = some c → Triple P (g c) Q E) (hQ : o = none → ∀ s, P s → Q () s) :
    Triple P (whenSome o g) Q E := by
  cases o with
  | none => exact triple_pure (hQ rfl)
  | some c => exact hg c rfl

theorem triple_rescue {h : ε → Prog σ ε α} (hm : Triple P m Q E')
    (hh : ∀ e, Triple (E' e) (h e) Q E) : Triple P (rescue m h) Q E := fun s hs => by
  refine ⟨fun a s' hr => ?_, fun e s' hr => ?_⟩
  · rcases returns_rescue.mp hr with h₁ | ⟨e, s₁, h₁, h₂⟩
    · exact hm.of_returns hs h₁
    · exact (hh e).of_returns (hm.of_raises hs h₁) h₂
  · obtain ⟨e', s₁, h₁, h₂⟩ := raises_rescue.mp hr
    exact (hh e').of_raises (hm.of_raises hs h₁) h₂

/-- **The rule of the loop**: an invariant of the part of the list that is done. -/
theorem triple_forEach {I : List α → σ → Prop} {g : α → Prog σ ε Unit} {as : List α}
    (h : ∀ done a todo, as = done ++ a :: todo →
      Triple (I done) (g a) (fun _ => I (done ++ [a])) E) :
    Triple (I []) (forEach g as) (fun _ => I as) E := by
  suffices hrest : ∀ todo done, as = done ++ todo →
      Triple (I done) (forEach g todo) (fun _ => I as) E from hrest as [] rfl
  intro todo
  induction todo with
  | nil =>
    intro done hsplit
    rw [List.append_nil] at hsplit
    exact triple_pure fun s hs => hsplit ▸ hs
  | cons a todo ih =>
    intro done hsplit
    exact (h done a todo hsplit).bind fun _ => ih (done ++ [a]) (by simpa using hsplit)

end Prog
