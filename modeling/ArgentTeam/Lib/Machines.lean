import Mathlib.Order.Basic
import Mathlib.Data.Nat.Basic

/-!
# Processes on hosts

Hosts boot, and processes start, end and are lost on them when they are booted anew. A host gives
a process identifier to one living process at a time, and may give it again when that one has
ended. Each process has a name of its own, which no other one has before or after it.

What an observer on a host can find out is what holds there at that moment, or nothing.
-/

namespace Machines

structure Process where
  name : ℕ
  host : ℕ
  boot : ℕ
  pid : ℕ
  startTicks : ℕ
  deriving DecidableEq

/-- What runs where. -/
structure Fleet where
  boots : ℕ → ℕ
  living : List Process
  started : ℕ

/-- What happens to hosts and processes. -/
inductive Event
  | start (host pid startTicks : ℕ)
  | exit (name : ℕ)
  | reboot (host : ℕ)

namespace Fleet

variable {m m' m'' : Fleet} {p q : Process} {host pid n : ℕ}

/-- A living process has this identifier on the host. -/
def pidAlive (m : Fleet) (host pid : ℕ) : Bool := m.living.any fun p => p.host = host ∧ p.pid = pid

/-- When the process with this identifier was started. -/
def startTicks (m : Fleet) (host pid : ℕ) : Option ℕ :=
  (m.living.find? fun p => p.host = host ∧ p.pid = pid).map Process.startTicks

def lives (m : Fleet) (name : ℕ) : Bool := m.living.any fun p => p.name = name

/-- A step. A host starts no process under an identifier that is in use, or is none. -/
def step (m : Fleet) : Event → Fleet
  | .start host pid startTicks =>
    if pid = 0 ∨ m.pidAlive host pid then m
    else
      { m with living := ⟨m.started, host, m.boots host, pid, startTicks⟩ :: m.living
               started := m.started + 1 }
  | .exit name => { m with living := m.living.filter fun p => p.name ≠ name }
  | .reboot host =>
    { m with boots := fun h => if h = host then m.boots h + 1 else m.boots h
             living := m.living.filter fun p => p.host ≠ host }

/-- Nothing was started. -/
def initial : Fleet where
  boots _ := 0
  living := []
  started := 0

/-- What holds of the processes that live. -/
structure Sound (m : Fleet) : Prop where
  started : ∀ p ∈ m.living, p.name < m.started
  boot : ∀ p ∈ m.living, p.boot = m.boots p.host
  name : ∀ p ∈ m.living, ∀ q ∈ m.living, p.name = q.name → p = q
  pid : ∀ p ∈ m.living, ∀ q ∈ m.living, p.host = q.host → p.pid = q.pid → p = q

theorem pidAlive_eq_true :
    m.pidAlive host pid ↔ ∃ p ∈ m.living, p.host = host ∧ p.pid = pid := by
  simp [pidAlive]

theorem lives_eq_true : m.lives n ↔ ∃ p ∈ m.living, p.name = n := by
  simp [lives]

theorem Sound.startTicks_eq (h : m.Sound) (hp : p ∈ m.living) :
    m.startTicks p.host p.pid = some p.startTicks := by
  unfold startTicks
  cases hfind : m.living.find? fun q => q.host = p.host ∧ q.pid = p.pid with
  | none => exact absurd (List.find?_eq_none.mp hfind p hp) (by simp)
  | some q =>
    have hq : q.host = p.host ∧ q.pid = p.pid := by
      simpa using List.find?_some hfind
    obtain rfl := h.pid q (List.mem_of_find?_eq_some hfind) p hp hq.1 hq.2
    rfl

/-- A later state: what lives there lived before, or was started since. -/
structure Later (m m' : Fleet) : Prop where
  started : m.started ≤ m'.started
  living : ∀ p ∈ m'.living, p ∈ m.living ∨ m.started ≤ p.name

theorem Later.refl (m : Fleet) : m.Later m := ⟨le_rfl, fun _ h => .inl h⟩

theorem later_step (m : Fleet) (e : Event) : m.Later (m.step e) := by
  cases e with
  | start host pid startTicks =>
    rw [step]
    split
    · exact Later.refl m
    · refine ⟨Nat.le_succ _, fun p hp => ?_⟩
      rcases List.mem_cons.mp hp with rfl | hp
      · exact .inr le_rfl
      · exact .inl hp
  | exit | reboot => exact ⟨le_rfl, fun p hp => .inl (List.mem_filter.mp hp).1⟩

theorem Later.lived (h : m.Later m') (hp : p ∈ m'.living) (hname : p.name < m.started) :
    p ∈ m.living :=
  (h.living p hp).resolve_right (not_le.mpr hname)

theorem Sound.filter (h : m.Sound) (keep : Process → Bool) (boots : ℕ → ℕ)
    (hboots : ∀ p ∈ m.living, keep p → boots p.host = m.boots p.host) :
    Sound { m with boots := boots, living := m.living.filter keep } where
  started p hp := h.started p (List.mem_filter.mp hp).1
  boot p hp := by
    obtain ⟨hp, hkeep⟩ := List.mem_filter.mp hp
    exact (h.boot p hp).trans (hboots p hp hkeep).symm
  name p hp q hq := h.name p (List.mem_filter.mp hp).1 q (List.mem_filter.mp hq).1
  pid p hp q hq := h.pid p (List.mem_filter.mp hp).1 q (List.mem_filter.mp hq).1

theorem Sound.step (h : m.Sound) (e : Event) : (m.step e).Sound := by
  cases e with
  | start host pid startTicks =>
    rw [Fleet.step]
    split
    · exact h
    · rename_i hfree
      have hnew : ∀ p ∈ m.living, ¬(p.host = host ∧ p.pid = pid) := fun p hp hsame =>
        hfree (.inr ((pidAlive_eq_true).mpr ⟨p, hp, hsame⟩))
      refine ⟨fun p hp => ?_, fun p hp => ?_, fun p hp q hq hname => ?_,
        fun p hp q hq hhost hpid => ?_⟩
      · rcases List.mem_cons.mp hp with rfl | hp
        · exact Nat.lt_succ_self _
        · exact Nat.lt_succ_of_lt (h.started p hp)
      · rcases List.mem_cons.mp hp with rfl | hp
        · rfl
        · exact h.boot p hp
      · rcases List.mem_cons.mp hp with rfl | hp <;> rcases List.mem_cons.mp hq with rfl | hq
        · rfl
        · exact absurd hname.symm (h.started q hq).ne
        · exact absurd hname (h.started p hp).ne
        · exact h.name p hp q hq hname
      · rcases List.mem_cons.mp hp with rfl | hp <;> rcases List.mem_cons.mp hq with rfl | hq
        · rfl
        · exact absurd ⟨hhost.symm, hpid.symm⟩ (hnew q hq)
        · exact absurd ⟨hhost, hpid⟩ (hnew p hp)
        · exact h.pid p hp q hq hhost hpid
  | exit name => exact h.filter _ m.boots fun _ _ _ => rfl
  | reboot host =>
    refine h.filter _ _ fun p _ hkeep => if_neg ?_
    simpa using hkeep

theorem sound_initial : initial.Sound where
  started _ hp := by cases hp
  boot _ hp := by cases hp
  name _ hp := by cases hp
  pid _ hp := by cases hp

end Fleet

/-- What an observer finds out: what there is, or nothing. -/
def observed {α : Type} (answers : Bool) (a : Option α) : Option α := if answers then a else none

theorem observed_cases {α : Type} (answers : Bool) (a : Option α) :
    observed answers a = none ∨ observed answers a = a := by
  cases answers
  · exact .inl rfl
  · exact .inr rfl

end Machines
