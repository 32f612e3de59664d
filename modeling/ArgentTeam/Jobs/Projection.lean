import ArgentTeam.Jobs.Terminal

/-!
# Two ways of keeping four columns in step

The primary state of a job, its V2C status, its terminal marker and its kind of wait say the
same thing in different words. The queue primitives write primary state and status together,
checked against a table; `_update_supervisor_job` derives the primary state from the other
three. A row whose columns agree is `Consistent`. `projection_consistent_iff` says exactly
which calls take a row out of step: the derivation falls back to `BLOCKED` without setting the
marker, and a requeue may leave a kind of wait on a job that does not wait.
-/

namespace ArgentTeam

namespace Jobs

open Supervisor

def primaryStateStatuses : PrimaryState → List SupervisorJobStatus
  | .queued => [.waitingRun, .backoff]
  | .running => [.active]
  | .waitingExternal => [.waitingRun]
  | .ownerGate => [.waitingGate]
  | .lost => [.recovering]
  | .blocked | .failed | .done => [.terminal]

/-- The columns of a row agree. -/
structure Consistent (j : JobRow) : Prop where
  terminal : ∀ t, j.terminal = some t ↔ j.primaryState = terminalToPrimary t
  status : j.status ∈ primaryStateStatuses j.primaryState
  waiting : j.primaryState = .waitingExternal ↔ j.status = .waitingRun ∧ j.waiting = true

/-- What a requeue leaves behind: a kind of wait only where the status is `BACKOFF`. -/
def Requeue.plain (r : Requeue) : Prop := r.waiting = false ∨ r.queueReason = .retryBackoff

/-- What a call that its guards admit must be like to keep the columns in step. -/
def KeepsProjection (j : JobRow) (c : Call) : Prop :=
  c.admitted j = true →
    match c.op with
    | .update u =>
      (u.status.getD j.status ≠ .error ∧
        (u.status.getD j.status = .terminal ↔ u.terminal.getD j.terminal ≠ none)) ∧
        ∀ p, u.primaryState = some p → p = u.derived j
    | .queue (.requeue _ r) | .queue (.enqueue r) | .queue (.reopen _ r) | .requeueByOwner _ r =>
      Requeue.plain r
    | .queue (.release _) => j.waiting = false
    | .commitRecovery _ _ decision _ _ _ _ => decision = .deferResource → j.waiting = false
    | _ => True

variable {j j' : JobRow} {c : Call} {cs : List Call}

/-- **The columns agree exactly if the primary state is the derived one**, and the status says
whether the job has ended. -/
theorem consistent_iff : Consistent j ↔
    j.primaryState = derivePrimaryState j.status j.terminal j.waiting ∧ j.status ≠ .error ∧
      (j.status = .terminal ↔ j.terminal ≠ none) := by
  constructor
  · rintro ⟨hterm, hstatus, hwait⟩
    rcases ht : j.terminal with _ | t
    · have hopen : ∀ t, j.primaryState ≠ terminalToPrimary t := by
        intro t h
        rw [(hterm t).mpr h] at ht
        cases ht
      -- the state of an open job leaves one status, but for `QUEUED`, where the wait decides
      cases hp : j.primaryState <;> rw [hp] at hstatus hopen hwait
      case blocked => exact absurd rfl (hopen .blocked)
      case failed => exact absurd rfl (hopen .failed)
      case done => exact absurd rfl (hopen .done)
      case queued =>
        simp only [primaryStateStatuses, List.mem_cons, List.not_mem_nil, or_false] at hstatus
        rcases hstatus with hs | hs <;> simp_all [derivePrimaryState]
      case waitingExternal =>
        obtain ⟨hs, hw⟩ := hwait.mp rfl
        simp [hs, hw, derivePrimaryState]
      case running | ownerGate | lost =>
        simp only [primaryStateStatuses, List.mem_singleton] at hstatus
        simp [hstatus, derivePrimaryState]
    · have hp := (hterm t).mp ht
      have hs : j.status = .terminal := by
        rw [hp] at hstatus
        cases t <;> simpa [primaryStateStatuses, terminalToPrimary] using hstatus
      rw [hp, derivePrimaryState_some, hs]
      simp
  · rintro ⟨hp, herror, hend⟩
    rcases ht : j.terminal with _ | t
    · have hs : j.status ≠ .terminal := fun h => hend.mp h ht
      rw [ht] at hp
      refine ⟨fun t => ?_, ?_, ?_⟩ <;> rw [hp] <;> rcases hs' : j.status <;>
        rcases hw : j.waiting <;> try cases t
      all_goals simp_all [derivePrimaryState, terminalToPrimary, primaryStateStatuses]
    · have hs : j.status = .terminal := hend.mpr (by simp [ht])
      rw [ht, derivePrimaryState_some] at hp
      refine ⟨fun t' => ?_, ?_, ?_⟩
      · rw [hp, ht]
        cases t <;> cases t' <;> simp [terminalToPrimary]
      · rw [hp, hs]
        cases t <;> simp [terminalToPrimary, primaryStateStatuses]
      · rw [hp, hs]
        cases t <;> simp [terminalToPrimary]

theorem consistent_queued {r : Requeue} (hend : j.terminal = none) :
    Consistent (j.queued r) ↔ Requeue.plain r := by
  rw [consistent_iff]
  simp only [JobRow.queued, JobRow.transition, JobRow.unleased, Requeue.plain, hend]
  cases r.queueReason <;> cases r.waiting <;> decide

/-- An update leaves the columns in step exactly if the status it leaves says whether the job
has ended, and the primary state it names, if any, is the derived one. -/
theorem consistent_write {u : JobUpdate} (hj : Consistent j) :
    Consistent (u.write j) ↔ (u.status.getD j.status ≠ .error ∧
      (u.status.getD j.status = .terminal ↔ u.terminal.getD j.terminal ≠ none)) ∧
        ∀ p, u.primaryState = some p → p = u.derived j := by
  have hprimary : u.newPrimaryState j = u.derived j ↔
      ∀ p, u.primaryState = some p → p = u.derived j := by
    unfold JobUpdate.newPrimaryState
    cases hp : u.primaryState with
    | some p => simp
    | none =>
      refine iff_of_true ?_ (fun p h => by cases h)
      rw [Option.getD_none]
      by_cases hproj : u.projects = true
      · rw [if_pos hproj]
      · -- where nothing is derived, what there is was derived already
        have hnone : u.status = none ∧ u.terminal = none ∧ u.waiting = none := by
          simp only [JobUpdate.projects, Bool.or_eq_true, not_or, Bool.not_eq_true,
            Option.isSome_eq_false_iff, Option.isNone_iff_eq_none] at hproj
          exact ⟨hproj.1.1.1.1, hproj.1.1.1.2, hproj.1.2⟩
        rw [if_neg hproj, JobUpdate.derived, hnone.1, hnone.2.1, hnone.2.2]
        exact ((consistent_iff).mp hj).1
  rw [consistent_iff, ← hprimary]
  exact and_comm

theorem consistent_of_open (s : SupervisorJobStatus) (hs : j.status = s) (herror : s ≠ .error)
    (hnot : s ≠ .terminal) (hend : j.terminal = none)
    (hp : j.primaryState = derivePrimaryState s none j.waiting) : Consistent j := by
  subst hs
  exact (consistent_iff).mpr ⟨hend ▸ hp, herror, iff_of_false hnot (fun h => h hend)⟩

theorem consistent_of_blocked (hs : j.status = .terminal) (hend : j.terminal = some .blocked)
    (hp : j.primaryState = .blocked) : Consistent j := by
  refine (consistent_iff).mpr ⟨?_, ?_, ?_⟩
  · rw [hp, hs, hend]
    rfl
  · rw [hs]
    decide
  · rw [hs, hend]
    decide

/-- **What a call does to columns that agree.** -/
theorem consistent_step_iff (hj : Consistent j) : Consistent (step j c) ↔ KeepsProjection j c := by
  refine iff_admitted_imp (fun hsame => hsame.symm ▸ hj) fun heff => ?_
  generalize c.op = p at heff ⊢
  generalize step j c = j' at heff ⊢
  -- what writes status and primary state together is in step, but for the kind of wait
  cases heff with
  | claim _ ht | claimNext _ ht =>
    have hend : j.terminal = none := terminal_eq_none_of_transitionable ht
    exact iff_of_true (consistent_of_open .active rfl (by decide) (by decide) hend rfl) trivial
  | takeover _ hend =>
    exact iff_of_true (consistent_of_open .active rfl (by decide) (by decide) hend rfl) trivial
  | quarantineLost _ ht =>
    have hend : j.terminal = none := terminal_eq_none_of_transitionable ht
    exact iff_of_true (consistent_of_open .recovering rfl (by decide) (by decide) hend rfl)
      trivial
  | takeoverLost _ hend =>
    exact iff_of_true (consistent_of_open .recovering rfl (by decide) (by decide) hend rfl)
      trivial
  | missing | takeoverBlocked | quarantineBlocked =>
    exact iff_of_true (consistent_of_blocked rfl rfl rfl) trivial
  | waitExternal _ _ ht | completeWait _ ht =>
    have hend : j.terminal = none := terminal_eq_none_of_transitionable ht
    exact iff_of_true (consistent_of_open .waitingRun rfl (by decide) (by decide) hend rfl)
      trivial
  | renew | clear =>
    exact iff_of_true ⟨hj.terminal, hj.status, hj.waiting⟩ trivial
  | requeue ht | requeueByOwner _ ht | enqueue _ _ ht =>
    exact consistent_queued (terminal_eq_none_of_transitionable ht)
  | reopen => exact consistent_queued rfl
  | release ht =>
    rw [consistent_iff]
    simp only [JobRow.transition, JobRow.unleased, terminal_eq_none_of_transitionable ht]
    cases j.waiting <;> decide
  | recovery hend _ _ hrec =>
    rcases recovered_cases hrec with ⟨rfl, rfl⟩ | ⟨rfl, rfl⟩ | rfl | rfl
    · exact iff_of_true (consistent_of_open .backoff rfl (by decide) (by decide) hend rfl)
        (fun h => by cases h)
    · rw [consistent_iff]
      simp only [requeuedByRecovery, JobRow.transition, JobRow.unleased, hend]
      cases j.waiting <;> decide
    · exact iff_of_true (consistent_of_blocked rfl rfl rfl) (fun h => by subst h; cases hrec)
    · exact iff_of_true (consistent_of_open .recovering rfl (by decide) (by decide) hend rfl)
        (fun h => by subst h; cases hrec)
  | update => exact consistent_write hj

/-- What the requeue that an owner authorises asks of the state of a blocked job. -/
def Reopenable (j : JobRow) : Prop := j.primaryState = .blocked → j.terminal = some .blocked

theorem Consistent.reopenable (h : Consistent j) : Reopenable j := fun hp =>
    (h.terminal .blocked).mpr hp

/-- **The columns agree in every row of a run exactly if every call keeps them in step.** -/
theorem projection_consistent_iff (hj : Consistent j) :
    (∀ bs ds, cs = bs ++ ds → Consistent (run j bs) ∧ Reopenable (run j bs)) ↔
      Runs.Along step KeepsProjection j cs := by
  rw [← Runs.forall_split_iff_along (fun _ _ => consistent_step_iff) hj]
  exact forall₃_congr fun _ _ _ => ⟨And.left, fun h => ⟨h, h.reopenable⟩⟩

theorem consistent_createSupervisorJob (id taskId : String) :
    Consistent (createSupervisorJob id taskId) :=
  consistent_of_open .waitingRun rfl (by decide) (by decide) rfl rfl

/-- A job whose status is set to `ERROR` is blocked without a terminal marker, and no requeue
reopens it. -/
theorem error_not_consistent :
    ¬∀ bs ds, [(Primitive.update { status := some .error }).at 0] = bs ++ ds →
      Consistent (run (createSupervisorJob "job" "task") bs) ∧
        Reopenable (run (createSupervisorJob "job" "task") bs) := by
  intro h
  have hblocked := (h [(Primitive.update { status := some .error }).at 0] [] rfl).2
  exact absurd (hblocked (by decide +kernel)) (by decide)

/-- A claim, a back-off and a wait that is over leave the columns in step. -/
theorem projection_consistent_wait :
    Consistent (createSupervisorJob "job" "task") ∧
    ∀ bs ds, [(Primitive.queue (.claim "a" 60)).at 0, (Primitive.waitExternal ⟨"a", 1⟩ 5).at 1,
        (Primitive.completeWait .waitEvent).at 2] = bs ++ ds →
      Consistent (run (createSupervisorJob "job" "task") bs) ∧
        Reopenable (run (createSupervisorJob "job" "task") bs) :=
  ⟨consistent_createSupervisorJob "job" "task",
    (projection_consistent_iff (consistent_createSupervisorJob "job" "task")).mpr
      ⟨fun _ => trivial, fun _ => trivial, fun _ => trivial, trivial⟩⟩

end Jobs

end ArgentTeam
