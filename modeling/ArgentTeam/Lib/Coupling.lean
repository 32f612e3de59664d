import ArgentTeam.Lib.Prog

/-!
# Programs run side by side

Two programs are coupled where the second can follow the first: started in related states,
wherever the first returns so does the second, with related results. The relation carries what
the two states agree on, and the rules go through the two programs step by step, as those for one
program do (`Prog.Triple`).
-/

namespace Prog

variable {σ τ ε δ α β γ ρ : Type}

/-- Wherever the first program returns, the second does, with related results. -/
def Coupled (P : σ → τ → Prop) (m : Prog σ ε α) (n : Prog τ δ β) (Q : α → β → σ → τ → Prop) :
    Prop :=
  ∀ s t, P s t → ∀ a s', m.Returns s a s' → ∃ b t', n.Returns t b t' ∧ Q a b s' t'

variable {P P' : σ → τ → Prop} {m : Prog σ ε α} {n : Prog τ δ β} {Q Q' : α → β → σ → τ → Prop}
  {o : Option γ} {f : γ → Prog σ ε Unit} {c : Prop} {a : α} {e : ε}

/-- **The rule of sequence.** -/
theorem Coupled.bind {f : α → Prog σ ε γ} {g : β → Prog τ δ ρ} {T : γ → ρ → σ → τ → Prop}
    (h : Coupled P m n Q) (hf : ∀ a b, Coupled (Q a b) (f a) (g b) T) :
    Coupled P (m >>= f) (n >>= g) T := by
  intro s t hst c s' hm
  obtain ⟨a, s₁, hfirst, hrest⟩ := returns_bind.mp hm
  obtain ⟨b, t₁, hn, hq⟩ := h s t hst a s₁ hfirst
  obtain ⟨d, t', hg, hT⟩ := hf a b s₁ t₁ hq c s' hrest
  exact ⟨d, t', returns_bind.mpr ⟨b, t₁, hn, hg⟩, hT⟩

theorem coupled_pure {b : β} (h : ∀ s t, P s t → Q a b s t) :
    Coupled P (pure a : Prog σ ε α) (pure b : Prog τ δ β) Q := by
  intro s t hst a' s' hm
  obtain ⟨rfl, rfl⟩ := returns_pure.mp hm
  exact ⟨b, t, returns_pure.mpr ⟨rfl, rfl⟩, h s t hst⟩

theorem coupled_read {g : σ → α} {k : τ → β} (h : ∀ s t, P s t → Q (g s) (k t) s t) :
    Coupled P (read g : Prog σ ε α) (read k : Prog τ δ β) Q := by
  intro s t hst a s' hm
  obtain ⟨rfl, rfl⟩ := returns_read.mp hm
  exact ⟨k t, t, returns_read.mpr ⟨rfl, rfl⟩, h s t hst⟩

theorem coupled_require [Decidable c] {d : Prop} [Decidable d] {e' : δ}
    {Q : Unit → Unit → σ → τ → Prop} (himp : c → d) (h : ∀ s t, P s t → c → Q () () s t) :
    Coupled P (require c e : Prog σ ε Unit) (require d e' : Prog τ δ Unit) Q := by
  intro s t hst a s' hm
  obtain ⟨hc, rfl⟩ := returns_require.mp hm
  exact ⟨(), t, returns_require.mpr ⟨himp hc, rfl⟩, h s t hst hc⟩

/-- Two options that are present together. -/
theorem coupled_whenSome_of_isSome {o' : Option ρ}
    {g : ρ → Prog τ δ Unit} {Q : Unit → Unit → σ → τ → Prop} (h : o.isSome = o'.isSome)
    (hsome : ∀ c c', o = some c → o' = some c' → Coupled P (f c) (g c') Q)
    (hnone : ∀ s t, P s t → Q () () s t) : Coupled P (whenSome o f) (whenSome o' g) Q := by
  cases o with
  | none =>
    obtain rfl : o' = none := by simpa using h.symm
    exact coupled_pure hnone
  | some c =>
    obtain ⟨c', rfl⟩ := Option.isSome_iff_exists.mp h.symm
    exact hsome c c' rfl rfl

theorem coupled_whenSome {g : γ → Prog τ δ Unit}
    {Q : Unit → Unit → σ → τ → Prop} (hsome : ∀ c, o = some c → Coupled P (f c) (g c) Q)
    (hnone : ∀ s t, P s t → Q () () s t) : Coupled P (whenSome o f) (whenSome o g) Q := by
  refine coupled_whenSome_of_isSome rfl (fun c c' hc hc' => ?_) hnone
  obtain rfl := Option.mem_unique hc hc'
  exact hsome c hc

theorem coupled_caseSome {f : γ → Prog σ ε α} {g : γ → Prog τ δ β}
    (hsome : ∀ c, o = some c → Coupled P (f c) (g c) Q) (hnone : Coupled P m n Q) :
    Coupled P (caseSome o f m) (caseSome o g n) Q := by
  cases o with
  | none => exact hnone
  | some c => exact hsome c rfl

theorem coupled_onlyIf [Decidable c] {m : Prog σ ε Unit} {n : Prog τ δ Unit}
    {Q : Unit → Unit → σ → τ → Prop} (h : c → Coupled P m n Q)
    (hnot : ∀ s t, P s t → Q () () s t) : Coupled P (onlyIf c m) (onlyIf c n) Q := by
  unfold onlyIf
  split
  next hc => exact h hc
  next => exact coupled_pure hnot

/-! ### Lockstep -/

/-- Started in related states, the two programs end the same way, in related states. -/
def Lockstep (R : σ → τ → Prop) (m : Prog σ ε α) (n : Prog τ ε α) : Prop :=
  ∀ s t, R s t → (m s).1 = (n t).1 ∧ R (m s).2 (n t).2

section Lockstep

variable {R : σ → τ → Prop} {m : Prog σ ε α} {n : Prog τ ε α}

/-- The two ways two programs in lockstep end. -/
theorem Lockstep.ends {s : σ} {t : τ} (h : Lockstep R m n) (hst : R s t) :
    (∃ a s' t', m.Returns s a s' ∧ n.Returns t a t' ∧ R s' t') ∨
      ∃ e s' t', m.Raises s e s' ∧ n.Raises t e t' ∧ R s' t' := by
  obtain ⟨hsame, hrel⟩ := h s t hst
  rcases returns_or_raises m s with ⟨a, s', hm⟩ | ⟨e, s', hm⟩
  · rw [show m s = _ from hm] at hsame hrel
    exact .inl ⟨a, s', (n t).2, hm, Prod.ext hsame.symm rfl, hrel⟩
  · rw [show m s = _ from hm] at hsame hrel
    exact .inr ⟨e, s', (n t).2, hm, Prod.ext hsame.symm rfl, hrel⟩

theorem same_of_returns {s s' : σ} {t t' : τ} (hm : m.Returns s a s')
    (hn : n.Returns t a t') (h : R s' t') : (m s).1 = (n t).1 ∧ R (m s).2 (n t).2 := by
  rw [show m s = _ from hm, show n t = _ from hn]
  exact ⟨rfl, h⟩

theorem same_of_raises {s s' : σ} {t t' : τ} (hm : m.Raises s e s')
    (hn : n.Raises t e t') (h : R s' t') : (m s).1 = (n t).1 ∧ R (m s).2 (n t).2 := by
  rw [show m s = _ from hm, show n t = _ from hn]
  exact ⟨rfl, h⟩

/-- **The rule of sequence.** -/
theorem Lockstep.bind {f : α → Prog σ ε β} {g : α → Prog τ ε β} (h : Lockstep R m n)
    (hf : ∀ a, Lockstep R (f a) (g a)) : Lockstep R (m >>= f) (n >>= g) := by
  intro s t hst
  rcases h.ends hst with ⟨a, s₁, t₁, hm, hn, hrel⟩ | ⟨e, s₁, t₁, hm, hn, hrel⟩
  · rcases (hf a).ends hrel with ⟨b, s', t', hm', hn', hrel'⟩ | ⟨e, s', t', hm', hn', hrel'⟩
    · exact same_of_returns (returns_bind.mpr ⟨a, s₁, hm, hm'⟩) (returns_bind.mpr ⟨a, t₁, hn, hn'⟩)
        hrel'
    · exact same_of_raises (raises_bind.mpr (.inr ⟨a, s₁, hm, hm'⟩))
        (raises_bind.mpr (.inr ⟨a, t₁, hn, hn'⟩)) hrel'
  · exact same_of_raises (raises_bind.mpr (.inl hm)) (raises_bind.mpr (.inl hn)) hrel

theorem lockstep_pure : Lockstep R (pure a : Prog σ ε α) (pure a : Prog τ ε α) :=
  fun _ _ hst => ⟨rfl, hst⟩

theorem lockstep_raise : Lockstep R (raise e : Prog σ ε α) (raise e : Prog τ ε α) :=
  fun _ _ hst => ⟨rfl, hst⟩

theorem lockstep_change {g : σ → σ} {k : τ → τ} (h : ∀ s t, R s t → R (g s) (k t)) :
    Lockstep R (change g : Prog σ ε Unit) (change k : Prog τ ε Unit) :=
  fun s t hst => ⟨rfl, h s t hst⟩

theorem lockstep_read_bind {g : σ → β} {k : τ → γ} {f : β → Prog σ ε α} {f' : γ → Prog τ ε α}
    (h : ∀ s t, R s t → (f (g s) s).1 = (f' (k t) t).1 ∧ R (f (g s) s).2 (f' (k t) t).2) :
    Lockstep R (read g >>= f) (read k >>= f') := h

theorem lockstep_ite [Decidable c] {m' : Prog σ ε α} {n' : Prog τ ε α}
    (h : c → Lockstep R m n) (h' : ¬c → Lockstep R m' n') :
    Lockstep R (if c then m else m') (if c then n else n') := by
  split
  next hc => exact h hc
  next hc => exact h' hc

theorem lockstep_caseSome {f : γ → Prog σ ε α} {g : γ → Prog τ ε α}
    (hsome : ∀ c, o = some c → Lockstep R (f c) (g c)) (hnone : o = none → Lockstep R m n) :
    Lockstep R (caseSome o f m) (caseSome o g n) := by
  cases o with
  | none => exact hnone rfl
  | some c => exact hsome c rfl

theorem lockstep_whenSome {g : γ → Prog τ ε Unit}
    (hsome : ∀ c, o = some c → Lockstep R (f c) (g c)) :
    Lockstep R (whenSome o f) (whenSome o g) := by
  cases o with
  | none => exact lockstep_pure
  | some c => exact hsome c rfl

theorem lockstep_rescue {f : ε → Prog σ ε α} {g : ε → Prog τ ε α} (h : Lockstep R m n)
    (hf : ∀ e, Lockstep R (f e) (g e)) : Lockstep R (rescue m f) (rescue n g) := by
  intro s t hst
  rcases h.ends hst with ⟨a, s₁, t₁, hm, hn, hrel⟩ | ⟨e, s₁, t₁, hm, hn, hrel⟩
  · exact same_of_returns (returns_rescue.mpr (.inl hm)) (returns_rescue.mpr (.inl hn)) hrel
  · rcases (hf e).ends hrel with ⟨b, s', t', hm', hn', hrel'⟩ | ⟨e', s', t', hm', hn', hrel'⟩
    · exact same_of_returns (returns_rescue.mpr (.inr ⟨e, s₁, hm, hm'⟩))
        (returns_rescue.mpr (.inr ⟨e, t₁, hn, hn'⟩)) hrel'
    · exact same_of_raises (raises_rescue.mpr ⟨e, s₁, hm, hm'⟩) (raises_rescue.mpr ⟨e, t₁, hn, hn'⟩)
        hrel'

/-- What is put back is related to what is put back. -/
theorem lockstep_atomically {π : σ → γ} {put : γ → σ → σ} {π' : τ → δ} {put' : δ → τ → τ}
    (h : Lockstep R m n)
    (hput : ∀ s t s' t', R s t → R s' t' → R (put (π s) s') (put' (π' t) t')) :
    Lockstep R (atomically π put m) (atomically π' put' n) := by
  intro s t hst
  rcases h.ends hst with ⟨a, s₁, t₁, hm, hn, hrel⟩ | ⟨e, s₁, t₁, hm, hn, hrel⟩
  · exact same_of_returns (returns_atomically.mpr hm) (returns_atomically.mpr hn) hrel
  · exact same_of_raises (raises_atomically.mpr ⟨s₁, hm, rfl⟩)
      (raises_atomically.mpr ⟨t₁, hn, rfl⟩) (hput s t s₁ t₁ hst hrel)

end Lockstep

end Prog
