import Mathlib.Tactic.Common

/-!
# The start barrier

`ExecutionEnforcer` creates a scope around a placeholder process, verifies it, starts the
agent in it and verifies the binding; after every failure it takes the scope down and asks
systemd whether it is gone. What each command of the backend does is a `Behaviour`. Two paths
of the source leave a process behind: a scope whose control group does not appear in time is
given up as it is, and a state that cannot be read counts as inactive. `enforcement_iff` says
exactly when neither happens.
-/

namespace ArgentTeam

namespace External

/-- `EnforcementStatus`, what the enforcer returns of it. -/
inductive EnforcementStatus
  | scopeOk
  | scopeCreationFailed
  | scopeVerificationFailed
  | enforcementUnavailable
  | scopeCleanupUnverified
  deriving DecidableEq

/-- The `ActiveState` of a unit, where `systemctl show` prints one. -/
inductive ActiveState
  | inactive
  | failed
  | dead
  | active

def ActiveState.over : ActiveState → Bool
  | inactive | failed | dead => true
  | active => false

/-- The processes of one call that are alive. -/
structure Procs where
  placeholder : Bool
  inside : Bool
  outside : Bool
  deriving DecidableEq

def Procs.none : Procs := ⟨false, false, false⟩

def Procs.inScope (p : Procs) : Bool := p.placeholder || p.inside

/-- How `create_scope` goes. -/
inductive Create
  /-- `systemd-run` does not start. -/
  | popenFails
  /-- It starts, and the control group does not appear in time, or reading it raises; whether
  the placeholder is still alive then. -/
  | unresolved (alive : Bool)
  /-- The placeholder runs in the scope. -/
  | created

/-- How `start_in_scope` or `run_in_scope` goes. -/
inductive Start
  | refused
  /-- The agent starts, and its process id cannot be told. -/
  | noPid
  /-- It starts, and cannot be moved into the scope; whether it survives being killed. -/
  | notMoved (alive : Bool)
  /-- It is moved into the scope, and waiting for it raises. -/
  | raised
  /-- It is moved into the scope, and runs there, or has run to its end. -/
  | moved

/-- What the commands of the backend do in one call. A command that fails, times out or raises
is one that does not work. -/
structure Behaviour where
  prepared : Bool
  create : Create
  verified : Bool
  start : Start
  bound : Bool
  placeholderKilled : Bool
  /-- `systemctl kill` ends the processes of the scope. -/
  killWorks : Bool
  /-- `systemctl stop` does. -/
  stopWorks : Bool
  /-- What `systemctl show` prints, if anything, with and without a live process in the
  scope. -/
  shown : Bool → Option ActiveState
  cgroupExists : Bool → Bool
  truthful : ∀ s, shown true = some s → s.over = false
  kept : cgroupExists true = true

namespace Behaviour

variable (b : Behaviour)

def cleanupScope (p : Procs) : Procs :=
  if b.stopWorks then { p with placeholder := false, inside := false } else p

def terminateScope (p : Procs) : Procs :=
  if b.killWorks then { p with placeholder := false, inside := false } else p

end Behaviour

/-- `prove_inactive`, of a valid name and a scope that was created. -/
def proveInactive (shown : Option ActiveState) (cgroupExists : Bool) : Bool :=
  match shown with
  -- what is not printed is an empty string, and that is one of the states listed
  | none | some .inactive | some .failed | some .dead => true
  | some .active => !cgroupExists

namespace Behaviour

variable (b : Behaviour)

/-- `prove_inactive`, with what this backend shows of these processes. -/
def proves (p : Procs) : Bool := proveInactive (b.shown p.inScope) (b.cgroupExists p.inScope)

/-- What `_terminate_and_prove`, or `_cleanup_and_prove`, leaves of the processes. -/
def left (started : Bool) (p : Procs) : Procs :=
  b.cleanupScope (if started then b.terminateScope p else p)

def barrierResult (status : EnforcementStatus) (started : Bool) (p : Procs) :
    EnforcementStatus × Procs :=
  (if b.proves (b.left started p) then status else .scopeCleanupUnverified, b.left started p)

/-- The part that `enforce_and_spawn` and `enforce_and_run` have in common; what is done once
the agent has been moved into the scope is given. -/
def enforce (rest : EnforcementStatus × Procs) : EnforcementStatus × Procs :=
  if !b.prepared then (.enforcementUnavailable, .none)
  else
    match b.create with
    | .popenFails => (.scopeCreationFailed, .none)
    | .unresolved alive => (.scopeCreationFailed, ⟨alive, false, false⟩)
    | .created =>
      if !b.verified then b.barrierResult .scopeVerificationFailed false ⟨true, false, false⟩
      else
        match b.start with
        | .refused => b.barrierResult .scopeCreationFailed true ⟨true, false, false⟩
        | .noPid => b.barrierResult .scopeCreationFailed true ⟨true, false, true⟩
        | .notMoved alive => b.barrierResult .scopeCreationFailed true ⟨true, false, alive⟩
        | .raised => b.barrierResult .scopeCreationFailed true ⟨true, true, false⟩
        | .moved => rest

def enforceAndSpawn : EnforcementStatus × Procs :=
  b.enforce <|
    if !b.bound then b.barrierResult .scopeVerificationFailed true ⟨true, true, false⟩
    -- the placeholder is killed; the agent keeps the scope
    else (.scopeOk, ⟨!b.placeholderKilled, true, false⟩)

/-- `enforce_and_run`: the command has run to its end, and the scope is taken down. -/
def enforceAndRun : EnforcementStatus × Procs :=
  b.enforce <|
    let left := b.cleanupScope ⟨!b.placeholderKilled, false, false⟩
    (if b.proves left then .scopeOk else .scopeCleanupUnverified, left)

end Behaviour

/-! ### What is to hold -/

/-- A call that has failed, and does not say that its cleanup is unproven, has left no process
alive. -/
def LeavesNothing (r : EnforcementStatus × Procs) : Prop :=
  r.1 ≠ .scopeOk → r.1 ≠ .scopeCleanupUnverified → r.2 = .none

/-- Only a unit that systemd has reported as not active is taken to be so. -/
def ProofSound (b : Behaviour) : Prop :=
  ∀ live, proveInactive (b.shown live) (b.cgroupExists live) = true →
    ∃ s, b.shown live = some s ∧ s.over = true

/-- Taking the scope down works, or what is left of it can be seen. -/
def TakenDown (b : Behaviour) (started : Bool) : Prop :=
  b.stopWorks = true ∨ (started = true ∧ b.killWorks = true) ∨ b.shown true ≠ none

/-- The scope is seen to be active, with or without a live process in it. -/
def SeenActive (b : Behaviour) (live : Bool) : Prop :=
  b.shown live = some .active ∧ b.cgroupExists live = true

/-- Where the agent is alive outside the scope, the scope itself is still seen to be active
after it was taken down. -/
def SeenAlive (b : Behaviour) : Prop := SeenActive b (!(b.stopWorks || b.killWorks))

/-- How the backend must behave where the agent is not moved, for a given way to go on. -/
def CleansUp (b : Behaviour) (rest : Prop) : Prop :=
  b.prepared = true →
    match b.create with
    | .popenFails => True
    | .unresolved alive => alive = false
    | .created =>
      if b.verified then
        match b.start with
        | .refused | .raised => TakenDown b true
        | .noPid => SeenAlive b
        | .notMoved alive => if alive then SeenAlive b else TakenDown b true
        | .moved => rest
      else TakenDown b false

variable {b : Behaviour}

theorem proveInactive_eq_false_iff {live : Bool} :
    proveInactive (b.shown live) (b.cgroupExists live) = false ↔ SeenActive b live := by
  unfold SeenActive
  rcases b.shown live with _ | _ | _ | _ | _ <;> simp [proveInactive]

theorem seenActive_live_iff : SeenActive b true ↔ b.shown true ≠ none := by
  constructor
  · rintro ⟨hs, -⟩
    rw [hs]
    exact fun h => by cases h
  · intro hne
    obtain ⟨s, hs⟩ := Option.ne_none_iff_exists'.mp hne
    have hover := b.truthful s hs
    refine ⟨?_, b.kept⟩
    rw [hs]
    cases s <;> simp_all [ActiveState.over]

/-- **After a failure** either what is left is nothing, or it is proven inactive wrongly, or
the caller is told. -/
theorem leavesNothing_barrierResult_iff {status : EnforcementStatus} {started : Bool} {p : Procs}
    (hok : status ≠ .scopeOk) (hun : status ≠ .scopeCleanupUnverified) :
    LeavesNothing (b.barrierResult status started p) ↔
      b.left started p = .none ∨ SeenActive b (b.left started p).inScope := by
  rw [← proveInactive_eq_false_iff]
  unfold LeavesNothing Behaviour.barrierResult Behaviour.proves
  cases hp : proveInactive (b.shown (b.left started p).inScope)
      (b.cgroupExists (b.left started p).inScope) with
  | true => simp [hok, hun]
  | false => simp

theorem left_inside_iff {started inside : Bool} :
    (b.left started ⟨true, inside, false⟩ = .none ∨
      SeenActive b (b.left started ⟨true, inside, false⟩).inScope) ↔ TakenDown b started := by
  unfold TakenDown
  rw [← seenActive_live_iff]
  unfold Behaviour.left Behaviour.cleanupScope Behaviour.terminateScope
  cases b.stopWorks <;> cases b.killWorks <;> cases started <;>
    simp [Procs.none, Procs.inScope]

theorem left_outside_iff :
    (b.left true ⟨true, false, true⟩ = .none ∨
      SeenActive b (b.left true ⟨true, false, true⟩).inScope) ↔ SeenAlive b := by
  unfold SeenAlive Behaviour.left Behaviour.cleanupScope Behaviour.terminateScope
  cases b.stopWorks <;> cases b.killWorks <;> simp [Procs.none, Procs.inScope]

theorem LeavesNothing.of_none {status : EnforcementStatus} : LeavesNothing (status, .none) :=
  fun _ _ => rfl

theorem leavesNothing_enforce_iff {rest : EnforcementStatus × Procs} :
    LeavesNothing (b.enforce rest) ↔ CleansUp b (LeavesNothing rest) := by
  unfold Behaviour.enforce CleansUp
  cases b.prepared with
  | false => exact iff_of_true LeavesNothing.of_none fun h => by cases h
  | true =>
    simp only [Bool.not_true, Bool.false_eq_true, if_false, true_imp_iff]
    rcases b.create with _ | alive | _
    · exact iff_of_true LeavesNothing.of_none trivial
    · cases alive <;> simp [LeavesNothing, Procs.none]
    · cases b.verified with
      | false =>
        simp only [Bool.not_false, if_true, Bool.false_eq_true, if_false]
        rw [leavesNothing_barrierResult_iff (by decide) (by decide), left_inside_iff]
      | true =>
        simp only [Bool.not_true, Bool.false_eq_true, if_false, if_true]
        rcases b.start with _ | _ | alive | _ | _
        · rw [leavesNothing_barrierResult_iff (by decide) (by decide), left_inside_iff]
        · rw [leavesNothing_barrierResult_iff (by decide) (by decide), left_outside_iff]
        · cases alive with
          | false =>
            rw [leavesNothing_barrierResult_iff (by decide) (by decide), left_inside_iff]
            rfl
          | true =>
            rw [leavesNothing_barrierResult_iff (by decide) (by decide), left_outside_iff]
            rfl
        · rw [leavesNothing_barrierResult_iff (by decide) (by decide), left_inside_iff]
        · rfl

/-- What the backend shows is a state, and a unit it shows to be active has its control
group. -/
def ReadsState (b : Behaviour) : Prop :=
  ∀ live, b.shown live ≠ none ∧ (b.shown live = some .active → b.cgroupExists live = true)

theorem proofSound_iff : ProofSound b ↔ ReadsState b := by
  refine forall_congr' fun live => ?_
  rcases b.shown live with _ | _ | _ | _ | _ <;>
    cases b.cgroupExists live <;> simp [proveInactive, ActiveState.over]

/-- **When a failed enforcement leaves nothing running**, for the spawn and for the synchronous
run, and when an inactive unit is one that was reported so. -/
theorem enforcement_iff (b : Behaviour) :
    (LeavesNothing b.enforceAndSpawn ↔ CleansUp b (b.bound = true ∨ TakenDown b true)) ∧
      (LeavesNothing b.enforceAndRun ↔ CleansUp b True) ∧ (ProofSound b ↔ ReadsState b) := by
  refine ⟨?_, ?_, proofSound_iff⟩
  · rw [Behaviour.enforceAndSpawn, leavesNothing_enforce_iff]
    have hrest : LeavesNothing (if !b.bound then
        b.barrierResult .scopeVerificationFailed true ⟨true, true, false⟩
        else (.scopeOk, ⟨!b.placeholderKilled, true, false⟩)) ↔
        (b.bound = true ∨ TakenDown b true) := by
      cases b.bound with
      | false =>
        simp only [Bool.not_false, if_true, Bool.false_eq_true, false_or]
        rw [leavesNothing_barrierResult_iff (by decide) (by decide), left_inside_iff]
      | true => exact iff_of_true (fun h => absurd rfl h) (.inl rfl)
    rw [hrest]
  · rw [Behaviour.enforceAndRun, leavesNothing_enforce_iff]
    have hrest : LeavesNothing (let left := b.cleanupScope ⟨!b.placeholderKilled, false, false⟩
        (if b.proves left then .scopeOk else .scopeCleanupUnverified, left)) ↔ True := by
      refine iff_of_true ?_ trivial
      simp only [LeavesNothing]
      split
      · exact fun h => absurd rfl h
      · exact fun _ h => absurd rfl h
    rw [hrest]

/-- `systemd-run` starts the placeholder, and no control group appears in time. -/
def unresolvedScope : Behaviour where
  prepared := true
  create := .unresolved true
  verified := true
  start := .moved
  bound := true
  placeholderKilled := true
  killWorks := true
  stopWorks := true
  shown := fun live => some (if live then .active else .inactive)
  cgroupExists := fun live => live
  truthful := by decide
  kept := rfl

/-- The call fails, and its placeholder lives on. -/
theorem unresolved_leaves_placeholder :
    ¬(LeavesNothing unresolvedScope.enforceAndSpawn ∧ LeavesNothing unresolvedScope.enforceAndRun ∧
      ProofSound unresolvedScope) := by
  rintro ⟨hspawn, -⟩
  exact absurd (hspawn (by decide) (by decide)) (by decide)

end External

end ArgentTeam
