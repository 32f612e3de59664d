import ArgentTeam.Lib.Runs

/-!
# Programs that are not alone

A program that asks questions and makes writes, one after the other, while others act on the
same state between any two of its steps. A write may be refused, and the program goes on
another way if it is; a question is answered by the state where the state decides it, and by
whatever else the program looks at where it does not.

The others and those answers are given to the program turn by turn (`Interleave.Turn`), and a
program that runs out of turns has crashed. What it leaves behind are its `commits`, each with
the state it found. If every write of some kind is guarded, so that it is only accepted where a
property holds, then the property holds at every commit exactly if the writes of the other kind
are made where it holds (`Interleave.forall_commits_iff`).
-/

namespace Interleave

/-- A program: what it asks, what it writes, and how it goes on after either. -/
inductive Code (Q W : Type)
  | done
  | ask (q : Q) (yes no : Code Q W)
  | write (w : W) (committed refused : Code Q W)

/-- What happens around one step of the program. -/
structure Turn (α : Type) where
  others : List α
  answer : Bool

/-- What the program and the others can do to a state. -/
structure System (σ α Q W : Type) where
  act : σ → α → σ
  decides : σ → Q → Option Bool
  /-- A write; `none` if it is refused. -/
  attempt : σ → W → Option σ

namespace Code

variable {Q W : Type}

/-- The program makes no write of a kind. -/
def avoids (kind : W → Bool) : Code Q W → Bool
  | .done => true
  | .ask _ yes no => yes.avoids kind && no.avoids kind
  | .write w committed refused => !kind w && committed.avoids kind && refused.avoids kind

end Code

variable {σ α Q W : Type} (S : System σ α Q W)

/-- The state a step finds. -/
def System.found (s : σ) (t : Turn α) : σ := Runs.run S.act s t.others

/-- The writes of a program that are accepted, each with the state it finds. -/
def commits : Code Q W → List (Turn α) → σ → List (σ × W)
  | .done, _, _ | .ask .., [], _ | .write .., [], _ => []
  | .ask q yes no, t :: ts, s =>
    if (S.decides (S.found s t) q).getD t.answer then commits yes ts (S.found s t)
    else commits no ts (S.found s t)
  | .write w committed refused, t :: ts, s =>
    match S.attempt (S.found s t) w with
    | some s' => (S.found s t, w) :: commits committed ts s'
    | none => commits refused ts (S.found s t)

/-- Every write that the program comes to, and that is not refused, meets a condition on the
state it finds. -/
def Meets (ok : σ → W → Prop) : Code Q W → List (Turn α) → σ → Prop
  | .done, _, _ | .ask .., [], _ | .write .., [], _ => True
  | .ask q yes no, t :: ts, s =>
    if (S.decides (S.found s t) q).getD t.answer then Meets ok yes ts (S.found s t)
    else Meets ok no ts (S.found s t)
  | .write w committed refused, t :: ts, s =>
    match S.attempt (S.found s t) w with
    | some s' => ok (S.found s t) w ∧ Meets ok committed ts s'
    | none => Meets ok refused ts (S.found s t)

variable {S} {ok good : σ → W → Prop} {kind : W → Bool} {c : Code Q W} {ts : List (Turn α)} {s : σ}

theorem meets_iff : Meets S ok c ts s ↔ ∀ p ∈ commits S c ts s, ok p.1 p.2 := by
  fun_induction commits S c ts s with
  | case1 | case2 | case3 => simp [Meets]
  | case4 q yes no t ts s hyes ih => simpa [Meets, hyes] using ih
  | case5 q yes no t ts s hno ih => simpa [Meets, hno] using ih
  | case6 w committed refused t ts s s' hs' ih => simp [Meets, hs', ih]
  | case7 w committed refused t ts s hs' ih => simpa [Meets, hs'] using ih

theorem meets_of_accepted (h : ∀ s w s', S.attempt s w = some s' → ok s w) : Meets S ok c ts s := by
  fun_induction Meets S ok c ts s with
  | case1 | case2 | case3 => trivial
  | case4 | case5 => assumption
  | case6 w committed refused t ts s s' hs' ih => exact ⟨h _ _ _ hs', ih⟩
  | case7 => assumption

/-- **The fence rule**: if a write of some kind is only accepted where a property holds, the
property holds at every commit exactly if the writes of the other kind are made where it
does. -/
theorem forall_commits_iff
    (hkind : ∀ s w s', kind w → S.attempt s w = some s' → good s w) :
    (∀ p ∈ commits S c ts s, good p.1 p.2) ↔
      Meets S (fun s w => kind w = false → good s w) c ts s := by
  rw [meets_iff]
  have hguarded : Meets S (fun s w => kind w = true → good s w) c ts s :=
    meets_of_accepted fun s w s' h hw => hkind s w s' hw h
  refine forall₂_congr fun p hp => ⟨fun h _ => h, fun h => ?_⟩
  cases hw : kind p.2 with
  | true => exact (meets_iff).mp hguarded p hp hw
  | false => exact h hw

/-- A program that avoids a kind of writes commits none of it. -/
theorem kind_eq_false_of_avoids (h : c.avoids kind) :
    ∀ p ∈ commits S c ts s, kind p.2 = false := by
  fun_induction commits S c ts s with
  | case1 | case2 | case3 => simp
  | case4 q yes no t ts s hyes ih => exact ih (by simp_all [Code.avoids])
  | case5 q yes no t ts s hno ih => exact ih (by simp_all [Code.avoids])
  | case6 w committed refused t ts s s' hs' ih =>
    simp only [Code.avoids, Bool.and_eq_true, Bool.not_eq_true'] at h
    rintro p (_ | ⟨_, hp⟩)
    · exact h.1.1
    · exact ih h.1.2 p hp
  | case7 w committed refused t ts s hs' ih => exact ih (by simp_all [Code.avoids])

end Interleave
