import ArgentTeam.Models

/-!
# The task state machine

The transition relation of a task, after `state_machine.py`, with the recovery target
of `recovery.py`. The relation has a static part – the main path and the rework
loop –, an escape to `BLOCKED` and `CANCELLED` from every state that is neither
terminal nor a pause, the entry of the owner gate, and a dynamic part: a pause is left
for the state the task remembers in `resume_state`.
-/

namespace ArgentTeam

namespace TaskState

/-- Terminal states have no way out. -/
def isTerminal : TaskState → Bool
  | done | cancelled => true
  | _ => false

/-- Pause states carry a resume point while they are active. -/
def isPause : TaskState → Bool
  | ownerApprovalRequired | paused | recovering => true
  | _ => false

def staticTargets : TaskState → List TaskState
  | new => [planning]
  | planning => [analyzing, rework]
  | analyzing => [leadDecision]
  | leadDecision => [implementing, rework]
  | implementing => [testing]
  | testing => [reviewing, rework]
  | reviewing => [finalDecision, rework]
  | finalDecision => [done, rework]
  | rework => [planning, implementing]
  | blocked => [recovering]
  | failed => [recovering, cancelled]
  | _ => []

/-- The static ways out of a pause. -/
def pauseExits : TaskState → List TaskState
  | ownerApprovalRequired => [blocked, cancelled]
  | paused => [cancelled]
  | recovering => [blocked]
  | _ => []

/-- The states in which a gated action may be requested: the main path up to the
final decision, and rework. -/
def isActionable : TaskState → Bool
  | new | planning | analyzing | leadDecision | implementing | testing | reviewing
  | finalDecision | rework => true
  | _ => false

/-- A dynamic resume target is neither terminal nor a pause. -/
def isValidResumeTarget (s : TaskState) : Bool := !s.isTerminal && !s.isPause

/-- `is_valid_resume_target` on the optional column. -/
def isValidResume : Option TaskState → Bool
  | some s => s.isValidResumeTarget
  | none => false

/-- Whether `src → dst` is permitted. -/
def isAllowed (src dst : TaskState) (resume : Option TaskState) : Bool :=
  if src = dst then false
  else if src.isTerminal then false
  else if src.isPause then
    if resume = some dst ∧ dst.isValidResumeTarget ∧ dst ≠ src then true
    else dst ∈ src.pauseExits
  else
    dst ∈ src.staticTargets || dst = ownerApprovalRequired || dst = blocked || dst = cancelled

def invalidTransition (src dst : TaskState) : Error :=
  .error .invalidTransition "invalid transition: %s -> %s" [src.value, dst.value]

theorem isAllowed_of_isTerminal {src : TaskState} (h : src.isTerminal) (dst : TaskState)
    (resume : Option TaskState) : isAllowed src dst resume = false := by
  simp [isAllowed, h]

theorem ne_of_isAllowed {src dst : TaskState} {resume : Option TaskState}
    (h : isAllowed src dst resume) : src ≠ dst := by
  rintro rfl
  simp [isAllowed] at h

/-- **The gate is open to every actionable state.** -/
theorem isAllowed_gate {s : TaskState} (h : s.isActionable) (resume : Option TaskState) :
    isAllowed s ownerApprovalRequired resume := by
  cases s <;> first | rfl | exact Bool.noConfusion h

theorem isValidResumeTarget_of_isActionable {s : TaskState} (h : s.isActionable) :
    s.isValidResumeTarget := by
  cases s <;> first | rfl | exact Bool.noConfusion h

theorem isAllowed_resume {s t : TaskState} (hs : s.isPause) (ht : t.isValidResumeTarget) :
    isAllowed s t (some t) := by
  cases s with
  | ownerApprovalRequired | paused | recovering =>
    cases t <;> first | rfl | exact Bool.noConfusion ht
  | _ => exact Bool.noConfusion hs

end TaskState

/-- The recovery target of a task: only a task in `RECOVERING` moves, to its resume
state where that is a valid target and to `BLOCKED` otherwise. -/
def recoveryTarget (state : TaskState) (resume : Option TaskState) : TaskState :=
  if state ≠ .recovering then state
  else match resume with
    | some rs => if rs.isValidResumeTarget then rs else .blocked
    | none => .blocked

end ArgentTeam
