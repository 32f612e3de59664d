import ArgentTeam.Jobs.Waits
import ArgentTeam.Supervisor.Sandbox

/-!
# Jobs that cannot go on

Each primary state has its own way out. A queued job is claimed, a running one is released by
its holder, or taken over or quarantined once its lease has run out, a waiting one is woken by
the wait manager. Which of these is open depends on the lease, on the journal, on what is
registered about the process and on the waits.

A job that waits for the owner has none: nothing puts a job from `OWNER_GATE` back into the
queue after the gate is decided, although the table of transitions names that step and
`QueueReason` has a word for it. And a takeover is refused as long as an `APPLY_PATCH_SET` row
is in flight, while only the holder of the lease can settle that row. `goes_on_iff` says exactly
which jobs can go on.
-/

namespace ArgentTeam

namespace Jobs

open Supervisor

/-- What there is about a job while nothing is at work on it. -/
structure Stand where
  job : JobRow
  now : Time
  journal : Journal
  registration : Option ProcessRegistration
  /-- What `_worktree_recovery_verdict` makes of its worktree. -/
  worktree : Option WorktreeVerdict
  waits : List ExternalWait
  core : ArgentTeam.World

/-- What the rest of a pass leaves behind. A pass may crash anywhere. -/
structure Rest where
  calls : List Primitive
  rows : List SupervisorAction
  registration : Option ProcessRegistration

/-- What `classify_and_recover` commits: the resource failure of the process of the job. -/
structure Recovery where
  cas : LeaseCas
  failure : FailureClass
  decision : RecoveryDecision
  reasonCode : String
  nextEligibleAt : Option Time
  consumed : Bool

/-- The call behind it. -/
def Recovery.primitive (r : Recovery) : Primitive :=
  .commitRecovery r.cas r.failure r.decision r.reasonCode r.nextEligibleAt none r.consumed

/-- What may go on around a job whose owners and processes are dead or between two passes. -/
inductive Op
  | waits (seconds : ℕ)
  /-- A command of the core, of a gate or otherwise. -/
  | core (cfg : Config) (command : Core.Command)
  | lease (p : Primitive)
  /-- A pass of a scheduler for the job; whether it can read the identity of the registered
  process, which is dead. -/
  | pass (owner : String) (ttl : ℕ) (readable : Bool) (rest : Rest)
  /-- `reconcile_after_restart`, and the resource failure it finds. -/
  | restart (readable : Bool) (recovery : Option Recovery)
  /-- The wait manager comes to a wait of the job. -/
  | check (w : ExternalWait) (asked : Asked) (nextCheckAt : Time)

/-- The lease operations: claims, what names the lease of a holder, and the first queueing. -/
def Primitive.isLeaseOp : Primitive → Bool
  | .queue (.claim ..) | .queue (.requeue ..) | .queue (.enqueue ..) | .queue (.renew ..)
  | .queue (.release ..) | .queue (.clear ..) | .requeueByOwner .. | .claimNext .. => true
  | _ => false

namespace Stand

variable (s : Stand)

def setNow (t : Time) : Stand := { s with now := t }

def call (p : Primitive) : Stand := { s with job := Jobs.step s.job ⟨s.now, s.journal, p⟩ }

/-- `_process_identity_verdict` is `terminal` rather than `unknown`: the registration says that
the process has ended, or another identity is read for it. -/
def provenDead (readable : Bool) : Bool :=
  s.registration.any fun r => (r.status = .terminal && r.terminalAt.isSome) || readable

def tryRecoverTakeover (owner : String) (ttl : ℕ) (readable : Bool) : Stand :=
  if s.provenDead readable then s.call (.queue (.takeover s.job owner ttl false s.worktree))
  else s.call (.queue (.quarantineLost "AMBIGUOUS_WRITER" (some s.job)))

/-- `_resolve_target`: what it does to the job, and whether the pass goes on with it. -/
def resolveTarget (owner : String) (ttl : ℕ) (readable : Bool) : Stand × Bool :=
  if s.job.primaryState = .running &&
      s.job.leaseIsCurrent ⟨owner, s.job.leaseEpoch⟩ s.now then
    (s, s.job.nextEligibleAt.all fun t => t ≤ s.now)
  else
    let s' :=
      if s.job.primaryState = .running && s.job.leaseExpiresAt.any fun t => t ≤ s.now then
        s.tryRecoverTakeover owner ttl readable
      else s.call (.queue (.claim owner ttl))
    (s', s'.job.primaryState = .running &&
      s'.job.leaseIsCurrent ⟨owner, s.job.leaseEpoch + 1⟩ s.now)

/-- `run_pass` of a scheduler, whose name is not blank. -/
def runPass (owner : String) (ttl : ℕ) (readable : Bool) (rest : Rest) : Stand :=
  if notBlank owner then
    let target := s.resolveTarget owner ttl readable
    if target.2 then
      { rest.calls.foldl call target.1 with
        journal := s.journal ++ rest.rows
        registration := rest.registration.or s.registration }
    else target.1
  else s

/-- `_classify_running`, where nothing is recovered. -/
def classifyLease (readable : Bool) : Stand :=
  if s.job.ownerInstanceId = none || s.job.ownerInstanceId = some "" || s.job.leaseEpoch < 1 ||
      s.job.leaseExpiresAt = none then
    s.call (.queue (.quarantineLost "AMBIGUOUS_WRITER" (some s.job)))
  else if s.job.leaseHeld s.now then s
  else if s.provenDead readable then
    match s.worktree with
    | some .blockedDiverged =>
      s.call (.queue (.quarantineBlocked "WORKTREE_DIVERGED" (some s.job)))
    | some .other => s.call (.queue (.quarantineLost "AMBIGUOUS_WRITER" (some s.job)))
    | some .cleanupPending | none => s
  else s.call (.queue (.quarantineLost "AMBIGUOUS_WRITER" (some s.job)))

/-- `_classify_running`: a resource failure is recovered, if the lease allows it. -/
def classifyRunning (readable : Bool) (recovery : Option Recovery) : Stand :=
  match recovery with
  | some r =>
    if r.primitive.admits s.now s.journal s.job then s.call r.primitive
    else s.classifyLease readable
  | none => s.classifyLease readable

def reconcileAfterRestart (readable : Bool) (recovery : Option Recovery) : Stand :=
  if s.job.terminal = none && s.job.primaryState = .running then
    s.classifyRunning readable recovery
  else s

/-- The waits after a change of one of them. -/
def updateWait (w : ExternalWait) (f : ExternalWait → ExternalWait) : List ExternalWait :=
  s.waits.map fun w' => if w'.waitId = w.waitId then f w' else w'

/-- A wait that `list_due_external_waits` finds. -/
def due (w : ExternalWait) : Bool :=
  w ∈ s.waits && w.isOpen && (w.nextCheckAt ≤ s.now || w.deadlineAt.any fun t => t ≤ s.now)

/-- `_process_wait`, of a wait that is due. -/
def processWait (w : ExternalWait) (asked : Asked) (nextCheckAt : Time) : Stand :=
  if s.due w then
    match Jobs.processWait w s.now asked with
    | .wake queueReason observed eventVersion =>
      match (Primitive.completeWait queueReason).attempt s.now s.journal s.job with
      | some j =>
        { s with
          job := j
          waits := s.updateWait w (WaitStore.closed observed (some eventVersion) s.now) }
      | none => s
    | .backoff observed =>
      { s with waits := s.updateWait w (WaitStore.putOff w observed nextCheckAt) }
  else s

/-- One operation. -/
def step : Op → Stand
  | .waits seconds => s.setNow (later s.now seconds)
  | .core cfg command => { s with core := Core.step cfg s.core command }
  | .lease p => if p.isLeaseOp then s.call p else s
  | .pass owner ttl readable rest => s.runPass owner ttl readable rest
  | .restart readable recovery => s.reconcileAfterRestart readable recovery
  | .check w asked nextCheckAt => s.processWait w asked nextCheckAt

/-- Some operations, one after the other. -/
abbrev run (ops : List Op) : Stand := Runs.run step s ops

/-! ### Going on -/

/-- The job runs under a lease that is newer than what it had, or is in quarantine, or has
ended. -/
def GoesOn (s' : Stand) : Prop :=
  (s'.job.primaryState = .running ∧ s'.job.leaseHeld s'.now = true ∧
    s.job.leaseEpoch < s'.job.leaseEpoch) ∨
  s'.job.primaryState = .lost ∨ s'.job.primaryState = .blocked ∨ s'.job.terminal ≠ none

/-- Some operations make the job go on. -/
def CanGoOn : Prop := ∃ ops, s.GoesOn (s.run ops)

/-- The lease is held, by somebody who can say so. -/
def held : Bool := s.job.ownerInstanceId.any notBlank && s.job.leaseHeld s.now

/-- Nothing but a takeover can help the job, and a takeover is refused. -/
def applyBlocked : Bool :=
  s.job.ownerInstanceId ≠ none && s.job.ownerInstanceId ≠ some "" && 1 ≤ s.job.leaseEpoch &&
    s.job.leaseExpiresAt.isSome && s.provenDead false &&
      (s.worktree = none || s.worktree = some .cleanupPending) && s.journal.applyInFlight s.job.id

end Stand

/-- Some event would end the wait. -/
def ExternalWait.answerable (w : ExternalWait) : Bool :=
  w.provider ≠ "" && w.provider.length ≤ maxProviderLen && w.ref ≠ "" &&
    w.ref.length ≤ maxRefLen && (w.expectedSubject.all fun s => s.length ≤ maxSubjectLen) &&
      (w.eventVersion : ℤ) < maxEventVersion

/-- The wait is open, and will be over at its deadline or may be over with an event. -/
def ExternalWait.wakeable (w : ExternalWait) : Bool :=
  w.isOpen && (w.deadlineAt.isSome || w.answerable)

namespace Stand

variable (s : Stand)

/-- The way out of each primary state. -/
def hasExit : Bool :=
  match s.job.primaryState with
  | .queued | .lost | .blocked => true
  | .running => s.held || !s.applyBlocked
  | .waitingExternal => s.held || s.waits.any ExternalWait.wakeable
  | .ownerGate | .failed | .done => s.held

variable {s : Stand} {s' : Stand} {p : Primitive} {op : Op} {w : ExternalWait} {readable : Bool}
  {observed : Option ObsState} {owner : String} {asked : Asked} {now : Time} {j : JobRow}

@[simp]
theorem setNow_job (t : Time) : (s.setNow t).job = s.job := rfl

@[simp]
theorem setNow_waits (t : Time) : (s.setNow t).waits = s.waits := rfl

@[simp]
theorem setNow_applyBlocked (t : Time) : (s.setNow t).applyBlocked = s.applyBlocked := rfl

@[simp]
theorem setNow_now (t : Time) : (s.setNow t).now = t := rfl

/-! ### What cannot be moved -/

theorem now_le_later {now seconds : ℕ} : now ≤ later now seconds := by
  unfold later
  omega


/-- Nothing has changed that a way out depends on. -/
structure Stays (s s' : Stand) : Prop where
  job : s'.job = s.job
  now : s.now ≤ s'.now
  journal : s'.journal = s.journal
  registration : s'.registration = s.registration
  worktree : s'.worktree = s.worktree
  waits : s'.waits.any ExternalWait.wakeable = true → s.waits.any ExternalWait.wakeable = true

theorem Stays.refl (s : Stand) : Stays s s := ⟨rfl, le_rfl, rfl, rfl, rfl, id⟩

theorem Stays.held (h : Stays s s') (hheld : s'.held) : s.held := by
  simp only [Stand.held, h.job, JobRow.leaseHeld, Bool.and_eq_true, Option.any_eq_true,
    decide_eq_true_eq] at hheld ⊢
  obtain ⟨howner, t, ht, hnow⟩ := hheld
  exact ⟨howner, t, ht, h.now.trans_lt hnow⟩

theorem Stays.hasExit (h : Stays s s') (hexit : s'.hasExit) : s.hasExit := by
  have hblocked : s'.applyBlocked = s.applyBlocked := by
    simp only [applyBlocked, provenDead, h.job, h.journal, h.registration, h.worktree]
  simp only [Stand.hasExit, h.job, hblocked] at hexit ⊢
  cases hp : s.job.primaryState <;> simp only [hp, Bool.or_eq_true] at hexit ⊢
  · exact hexit.imp_left h.held
  · exact hexit.imp h.held h.waits
  all_goals exact h.held hexit

theorem call_of_not_admitted (h : p.admits s.now s.journal s.job = false) : s.call p = s := by
  have hrefused : Call.refused s.job ⟨s.now, s.journal, p⟩ = true := by
    rw [refused_eq_not_admitted, Call.admitted, h]
    rfl
  rw [call, step_of_refused hrefused]

theorem held_of_current {cas : LeaseCas} (hblank : notBlank cas.owner)
    (h : s.job.leaseIsCurrent cas s.now) : s.held := by
  simp only [JobRow.leaseIsCurrent, Bool.and_eq_true, decide_eq_true_eq] at h
  simp [held, h.1.1, h.2, hblank]

/-- The lease operations are refused if the job is neither queued nor held. -/
theorem lease_not_admitted (hq : s.job.primaryState ≠ .queued) (hh : s.held = false)
    (hp : p.isLeaseOp) : p.admits s.now s.journal s.job = false := by
  have hcur : ∀ cas : LeaseCas, notBlank cas.owner = true →
      s.job.leaseIsCurrent cas s.now = false := fun cas hblank =>
    Bool.eq_false_iff.mpr fun h => by simp [held_of_current hblank h] at hh
  have hclaim : s.job.claimable s.now = false := by simp [JobRow.claimable, hq]
  cases p with
  | queue op =>
    cases op with
    | claim owner ttl => simp [Primitive.admits, hclaim]
    | requeue cas r | release cas | renew cas ttl | clear cas =>
      cases hblank : notBlank cas.owner <;> simp [Primitive.admits, hblank, hcur]
    | enqueue r => simp [Primitive.admits, hq]
    | reopen | quarantineLost | quarantineBlocked | takeover => cases hp
  | claimNext owner ttl dependsOn => simp [Primitive.admits, hclaim]
  | requeueByOwner owner r =>
    rw [Primitive.admits]
    by_contra h
    simp only [Bool.not_eq_false, Bool.and_eq_true, decide_eq_true_eq] at h
    simp [held, h.1.2, h.2, h.1.1.1] at hh
  | waitExternal | completeWait | commitRecovery | update => cases hp

theorem provenDead_of_applyBlocked (hb : s.applyBlocked) :
    s.provenDead readable := by
  simp only [applyBlocked, Bool.and_eq_true] at hb
  obtain ⟨⟨⟨-, hdead⟩, -⟩, -⟩ := hb
  simp only [provenDead, Option.any_eq_true, Bool.or_false, Bool.or_eq_true] at hdead ⊢
  obtain ⟨r, hr, hdead⟩ := hdead
  exact ⟨r, hr, .inl hdead⟩

/-- The restart leaves a job alone that is blocked by an apply row. -/
theorem stays_classifyLease (hb : s.applyBlocked) :
    s.classifyLease readable = s := by
  have hproven : s.provenDead readable = true := provenDead_of_applyBlocked hb
  simp only [applyBlocked, Bool.and_eq_true, decide_eq_true_eq, Bool.or_eq_true] at hb
  obtain ⟨⟨⟨⟨⟨⟨hn, he⟩, hepoch⟩, hexp⟩, -⟩, htree⟩, -⟩ := hb
  have hlease : (s.job.ownerInstanceId = none || s.job.ownerInstanceId = some "" ||
      s.job.leaseEpoch < 1 || s.job.leaseExpiresAt = none) = false := by
    simp only [Bool.or_eq_false_iff, decide_eq_false_iff_not, not_lt]
    exact ⟨⟨⟨hn, he⟩, hepoch⟩, Option.isSome_iff_ne_none.mp hexp⟩
  simp only [classifyLease, hlease, hproven, Bool.false_eq_true, if_false, if_true]
  rcases htree with htree | htree <;> rw [htree] <;> exact ite_self s

theorem running_of_not_hasExit (h : s.hasExit = false) (hr : s.job.primaryState = .running) :
    s.held = false ∧ s.applyBlocked := by
  simpa [hasExit, hr] using h

theorem ne_queued_of_not_hasExit (h : s.hasExit = false) : s.job.primaryState ≠ .queued := by
  intro hq
  simp [hasExit, hq] at h

theorem held_of_not_hasExit (h : s.hasExit = false) : s.held = false := by
  cases hp : s.job.primaryState <;> simp_all [hasExit]

theorem stays_call_lease (h : s.hasExit = false) (hp : p.isLeaseOp) : s.call p = s :=
  call_of_not_admitted (lease_not_admitted (ne_queued_of_not_hasExit h) (held_of_not_hasExit h) hp)

theorem stays_tryRecoverTakeover (h : s.hasExit = false) (hr : s.job.primaryState = .running)
    {ttl : ℕ} :
    s.tryRecoverTakeover owner ttl readable = s := by
  have hb := (running_of_not_hasExit h hr).2
  rw [tryRecoverTakeover, if_pos (provenDead_of_applyBlocked hb)]
  simp only [applyBlocked, Bool.and_eq_true] at hb
  exact call_of_not_admitted (by simp [Primitive.admits, hb.2])

theorem stays_runPass (h : s.hasExit = false) {ttl : ℕ}
    {rest : Rest} : s.runPass owner ttl readable rest = s := by
  rw [runPass]
  split
  case isFalse => rfl
  case isTrue hblank =>
    -- nobody holds the lease, so that there is nothing for the pass to go on with
    have hcur : ∀ epoch, s.job.leaseIsCurrent ⟨owner, epoch⟩ s.now = false := by
      intro epoch
      rw [Bool.eq_false_iff]
      intro hcur
      have hheld := @held_of_current s ⟨owner, epoch⟩ hblank hcur
      rw [held_of_not_hasExit h] at hheld
      cases hheld
    have htarget : s.resolveTarget owner ttl readable = (s, false) := by
      simp only [resolveTarget, hcur, Bool.and_false, Bool.false_eq_true, if_false]
      split
      case isTrue hrun =>
        simp only [Bool.and_eq_true, decide_eq_true_eq] at hrun
        simp [stays_tryRecoverTakeover h hrun.1, hcur]
      case isFalse => simp [stays_call_lease (p := .queue (.claim owner ttl)) h rfl, hcur]
    simp [htarget]

theorem stays_restart (h : s.hasExit = false) {recovery : Option Recovery} :
    s.reconcileAfterRestart readable recovery = s := by
  rw [reconcileAfterRestart]
  split
  case isFalse => rfl
  case isTrue hrun =>
    simp only [Bool.and_eq_true, decide_eq_true_eq] at hrun
    obtain ⟨hh, hb⟩ := running_of_not_hasExit h hrun.2
    cases recovery with
    | none => exact stays_classifyLease hb
    | some r =>
      have hrefused : r.primitive.admits s.now s.journal s.job = false := by
        rw [Bool.eq_false_iff]
        intro hadm
        simp only [Recovery.primitive, Primitive.admits, Bool.and_eq_true] at hadm
        have hheld := @held_of_current s r.cas hadm.1.1.1.1.1.1.1.2 hadm.1.1.1.2
        rw [hh] at hheld
        cases hheld
      simp only [classifyRunning, hrefused, Bool.false_eq_true, if_false]
      exact stays_classifyLease hb

/-- What the manager wakes a job for is the end of a wait that may be over. -/
theorem wakeable_of_wake {queueReason : QueueReason}
    {eventVersion : ℕ} (hopen : w.isOpen)
    (h : Jobs.processWait w now asked = .wake queueReason observed eventVersion) :
    w.wakeable := by
  unfold Jobs.processWait at h
  rw [ExternalWait.wakeable, hopen, Bool.true_and, Bool.or_eq_true]
  split at h
  case isTrue hdead =>
    simp only [Option.any_eq_true] at hdead
    obtain ⟨t, ht, -⟩ := hdead
    exact .inl (by rw [ht]; rfl)
  case isFalse =>
    cases asked with
    | noAdapter | adapterError => cases h
    | observed o =>
      refine .inr ?_
      simp only at h
      split at h <;> [cases h; skip]
      split at h <;> [cases h; skip]
      split at h <;> [cases h; skip]
      split at h <;> [cases h; skip]
      next hvalid _ hsubject hversion =>
        simp only [validObservation, Bool.not_eq_true', Bool.not_eq_false, Bool.and_eq_true,
          decide_eq_true_eq] at hvalid
        obtain ⟨⟨⟨⟨⟨⟨⟨⟨⟨hp, hpl⟩, hpw⟩, hr⟩, hrl⟩, hrw⟩, -⟩, -⟩, hmax⟩, hsub⟩ := hvalid
        have hwsub : (w.expectedSubject.all fun s => s.length ≤ maxSubjectLen) = true := by
          cases hw : w.expectedSubject with
          | none => rfl
          | some subject =>
            have hsame : o.subject = some subject := by simpa [hw] using hsubject
            rw [← hsame]
            exact hsub
        rw [hpw] at hp hpl
        rw [hrw] at hr hrl
        simp only [ExternalWait.answerable, Bool.and_eq_true, decide_eq_true_eq]
        exact ⟨⟨⟨⟨⟨hp, hpl⟩, hr⟩, hrl⟩, hwsub⟩, (not_le.mp hversion).trans_le hmax⟩

theorem any_wakeable_putOff {nextCheckAt : Time} :
    (s.updateWait w (WaitStore.putOff w observed nextCheckAt)).any ExternalWait.wakeable =
      s.waits.any ExternalWait.wakeable := by
  rw [updateWait, List.any_map]
  congr 1
  funext w'
  simp only [Function.comp]
  split <;> rfl

theorem stays_processWait (h : s.hasExit = false) {nextCheckAt : Time} :
    Stays s (s.processWait w asked nextCheckAt) := by
  unfold processWait
  split
  case isFalse => exact .refl s
  case isTrue hdue =>
    simp only [due, Bool.and_eq_true, decide_eq_true_eq] at hdue
    split
    case h_1 queueReason observed eventVersion hwake =>
      have hnone : (Primitive.completeWait queueReason).attempt s.now s.journal s.job = none := by
        rw [← Option.not_isSome_iff_eq_none, isSome_attempt]
        intro hadm
        simp only [Primitive.admits, Bool.and_eq_true, decide_eq_true_eq] at hadm
        have hany : s.waits.any ExternalWait.wakeable = true :=
          List.any_eq_true.mpr ⟨w, hdue.1.1, wakeable_of_wake hdue.1.2 hwake⟩
        simp [hasExit, hadm.1, hany] at h
      rw [hnone]
      exact .refl s
    case h_2 observed _ =>
      exact ⟨rfl, le_rfl, rfl, rfl, rfl, fun hany => any_wakeable_putOff ▸ hany⟩

theorem stays_setNow {t : Time} (h : s.now ≤ t) : Stays s (s.setNow t) :=
  ⟨rfl, h, rfl, rfl, rfl, id⟩

/-- No operation moves a job that has no way out. -/
theorem stays_step (h : s.hasExit = false) : Stays s (s.step op) := by
  cases op with
  | waits seconds => exact stays_setNow now_le_later
  | core cfg command => exact ⟨rfl, le_rfl, rfl, rfl, rfl, id⟩
  | lease p =>
    rw [step]
    split
    case isTrue hp =>
      rw [stays_call_lease h hp]
      exact .refl s
    case isFalse => exact .refl s
  | pass owner ttl readable rest =>
    rw [step, stays_runPass h]
    exact .refl s
  | restart readable recovery =>
    rw [step, stays_restart h]
    exact .refl s
  | check w asked nextCheckAt => exact stays_processWait h

theorem run_of_not_hasExit (h : s.hasExit = false) (ops : List Op) :
    (s.run ops).job = s.job ∧ (s.run ops).hasExit = false := by
  refine Runs.run_always (I := fun s' : Stand => s'.job = s.job ∧ s'.hasExit = false) ?_ ⟨rfl, h⟩
  rintro s' op ⟨hjob, hexit⟩
  have hstays : Stays s' (s'.step op) := stays_step hexit
  refine ⟨hstays.job.trans hjob, Bool.eq_false_iff.mpr fun hnow => ?_⟩
  rw [hstays.hasExit hnow] at hexit
  cases hexit

theorem hasExit_of_canGoOn (hend : s.job.terminal = none) (h : s.CanGoOn) : s.hasExit := by
  obtain ⟨ops, h⟩ := h
  by_contra hexit
  rw [Bool.not_eq_true] at hexit
  obtain ⟨hjob, -⟩ := run_of_not_hasExit hexit ops
  rw [GoesOn, hjob] at h
  rcases h with ⟨-, -, hlt⟩ | hlost | hblocked | hended
  · exact hlt.false
  · simp [hasExit, hlost] at hexit
  · simp [hasExit, hblocked] at hexit
  · exact hended hend

/-! ### The ways out -/

theorem call_of_attempt (h : p.attempt s.now s.journal s.job = some j) :
    s.call p = { s with job := j } := by
  rw [call, step_of_attempt (c := ⟨s.now, s.journal, p⟩) h]

theorem CanGoOn.after {ops : List Op} (hepoch : s.job.leaseEpoch ≤ (s.run ops).job.leaseEpoch)
    (h : (s.run ops).CanGoOn) : s.CanGoOn := by
  obtain ⟨more, h⟩ := h
  refine ⟨ops ++ more, ?_⟩
  rw [run, Runs.run_append]
  exact h.imp_left fun ⟨hrun, hheld, hlt⟩ => ⟨hrun, hheld, hepoch.trans_lt hlt⟩

theorem CanGoOn.waits (n : ℕ) (h : (s.setNow (later s.now n)).CanGoOn) : s.CanGoOn := by
  refine @CanGoOn.after s [.waits n] ?_ h
  rw [run, Runs.run, Runs.run, step, setNow_job]

theorem le_later (now seconds : ℕ) : seconds ≤ later now seconds := by
  unfold later
  omega

theorem lt_later {now seconds : ℕ} (h : 0 < seconds) : now < later now seconds := by
  unfold later
  omega

attribute [local irreducible] later

theorem transitionable_of_open (hend : s.job.terminal = none)
    (hb : s.job.primaryState ≠ .blocked) : s.job.transitionable false := by
  simp [JobRow.transitionable, hend, hb]

theorem any_lt_later {now n : ℕ} {t : Option Time} (h : t.getD 0 ≤ n) :
    (t.any fun t => later now n < t) = false := by
  cases t with
  | none => rfl
  | some t =>
    have hle : t ≤ later now n := le_trans h (le_later now n)
    rw [Option.any_some]
    exact decide_eq_false (not_lt.mpr hle)

theorem leaseHeld_leasedTo {ttl now : ℕ} (h : 0 < ttl) :
    (j.leasedTo owner ttl now).leaseHeld now := by
  have hlt : now < later now ttl := lt_later h
  rw [JobRow.leaseHeld, JobRow.leasedTo, JobRow.transition, Option.any_some]
  exact decide_eq_true hlt

theorem canGoOn_of_claimable (hend : s.job.terminal = none)
    (hc : s.job.claimable s.now) : s.CanGoOn := by
  have hvalid : (notBlank "argent" && validTtl 60) = true := by decide
  have htrans : s.job.transitionable false = true :=
    transitionable_of_open hend (by rw [queued_of_claimable hc]; decide)
  have hclaim : (Primitive.queue (.claim "argent" 60)).attempt s.now s.journal s.job =
      some (s.job.leasedTo "argent" 60 s.now) := by
    simp only [Primitive.attempt, QueueOp.attempt, hvalid, hc, htrans, Bool.and_true, if_true]
  refine ⟨[.lease (.queue (.claim "argent" 60))], .inl ?_⟩
  simp only [run, Runs.run, step, Primitive.isLeaseOp, if_true, call_of_attempt hclaim]
  exact ⟨rfl, leaseHeld_leasedTo (by decide), Nat.lt_succ_self _⟩

theorem claimable_of_queued (hq : j.primaryState = .queued)
    (heligible : (j.nextEligibleAt.any fun t => now < t) = false)
    (hfree : (j.leaseExpiresAt.any fun t => now < t) = false) : j.claimable now = true := by
  simp [JobRow.claimable, JobRow.leaseHeld, hq, heligible, hfree]

theorem canGoOn_of_queued (hend : s.job.terminal = none) (hq : s.job.primaryState = .queued) :
    s.CanGoOn := by
  obtain ⟨n, hn, hn'⟩ : ∃ n, s.job.nextEligibleAt.getD 0 ≤ n ∧ s.job.leaseExpiresAt.getD 0 ≤ n :=
    ⟨_, le_max_left _ _, le_max_right _ _⟩
  have hclaimable : s.job.claimable (later s.now n) = true :=
    claimable_of_queued hq (any_lt_later hn) (any_lt_later hn')
  refine CanGoOn.waits n (canGoOn_of_claimable ?_ ?_)
  · rwa [setNow_job]
  · rwa [setNow_job, setNow_now]

/-- The holder of a lease gives a job back that is not blocked. -/
theorem canGoOn_of_held (hend : s.job.terminal = none) (hb : s.job.primaryState ≠ .blocked)
    (hh : s.held) : s.CanGoOn := by
  simp only [held, Bool.and_eq_true, Option.any_eq_true] at hh
  obtain ⟨⟨owner, howner, hblank⟩, hheld⟩ := hh
  have hrelease : (Primitive.queue (.release ⟨owner, s.job.leaseEpoch⟩)).attempt s.now s.journal
      s.job = some (s.job.unleased.transition .queued .waitingRun) := by
    simp [Primitive.attempt, QueueOp.attempt, hblank, transitionable_of_open hend hb,
      JobRow.leaseIsCurrent, howner, hheld]
  have hrun : s.run [.lease (.queue (.release ⟨owner, s.job.leaseEpoch⟩))] =
      { s with job := s.job.unleased.transition .queued .waitingRun } :=
    call_of_attempt hrelease
  refine @CanGoOn.after s [.lease (.queue (.release ⟨owner, s.job.leaseEpoch⟩))] ?_ ?_
  · rw [hrun]
    exact le_rfl
  · rw [hrun]
    exact canGoOn_of_queued hend rfl

theorem wake_of_deadline {now t : Time} (ht : w.deadlineAt = some t) (h : t ≤ now) :
    Jobs.processWait w now .noAdapter = .wake .waitDeadline none w.eventVersion := by
  simp [Jobs.processWait, ht, h]

/-- A wait without a deadline may be over with an event. -/
theorem wake_of_answerable (ht : w.deadlineAt = none) (h : w.answerable) :
    ∃ asked, Jobs.processWait w now asked = .wake .waitEvent (some .ready)
      (w.eventVersion + 1) := by
  simp only [ExternalWait.answerable, Bool.and_eq_true, decide_eq_true_eq] at h
  obtain ⟨⟨⟨⟨⟨hp, hpl⟩, hr⟩, hrl⟩, hsub⟩, hversion⟩ := h
  have hmax : (w.eventVersion : ℤ) + 1 ≤ maxEventVersion := Int.add_one_le_of_lt hversion
  have hzero : (0 : ℤ) ≤ (w.eventVersion : ℤ) + 1 := by omega
  have hle : ¬(w.eventVersion : ℤ) + 1 ≤ w.eventVersion := by omega
  have hnat : ((w.eventVersion : ℤ) + 1).toNat = w.eventVersion + 1 := rfl
  refine ⟨.observed ⟨w.provider, w.ref, some .ready, w.expectedSubject, w.eventVersion + 1⟩, ?_⟩
  simp [Jobs.processWait, validObservation, ht, hp, hpl, hr, hrl, hsub, hmax, hzero, hle, hnat]

/-- A wait that may be over is over at its deadline, or with the next event. -/
theorem exists_wake (hw : w.wakeable = true) : ∃ n asked queueReason observed eventVersion,
    (w.nextCheckAt ≤ later s.now n ∨ w.deadlineAt.any (fun t => t ≤ later s.now n) = true) ∧
    Jobs.processWait w (later s.now n) asked = .wake queueReason observed eventVersion := by
  simp only [ExternalWait.wakeable, Bool.and_eq_true, Bool.or_eq_true] at hw
  obtain ⟨-, hw⟩ := hw
  have hnext : w.nextCheckAt ≤ later s.now w.nextCheckAt := le_later s.now w.nextCheckAt
  cases ht : w.deadlineAt with
  | some t =>
    have hle : t ≤ later s.now (max w.nextCheckAt t) :=
      (le_max_right w.nextCheckAt t).trans (le_later s.now _)
    have hcheck : w.nextCheckAt ≤ later s.now (max w.nextCheckAt t) :=
      (le_max_left w.nextCheckAt t).trans (le_later s.now _)
    exact ⟨_, _, _, _, _, .inl hcheck, wake_of_deadline ht hle⟩
  | none =>
    have hanswer : w.answerable = true := by simpa [ht] using hw
    obtain ⟨asked, hwake⟩ := @wake_of_answerable w (later s.now w.nextCheckAt) ht hanswer
    exact ⟨_, _, _, _, _, .inl hnext, hwake⟩

/-- The manager wakes a job for a wait that is due and over. -/
theorem canGoOn_of_wake (hend : s.job.terminal = none)
    (hwait : s.job.primaryState = .waitingExternal) {queueReason : QueueReason}
    {eventVersion : ℕ} (hdue : s.due w)
    (hwake : Jobs.processWait w s.now asked = .wake queueReason observed eventVersion) :
    s.CanGoOn := by
  let woken : JobRow := ({ s.job.unleased with
    queueReason := queueReason
    waiting := false
    nextEligibleAt := some s.now
    nextWakeAt := none
    nextAction := .none } : JobRow).transition .queued .waitingRun
  have hcomplete : (Primitive.completeWait queueReason).attempt s.now s.journal s.job =
      some woken := by
    simp [Primitive.attempt, hwait, transitionable_of_open hend (by rw [hwait]; decide), woken]
  have hjob : (s.run [.check w asked 0]).job = woken := by
    simp only [run, Runs.run, step, processWait, hdue, if_true, hwake, hcomplete]
  refine @CanGoOn.after s [.check w asked 0] ?_ ?_
  · rw [hjob]
    exact le_rfl
  · exact canGoOn_of_queued (by rw [hjob]; exact hend) (by rw [hjob]; rfl)

/-- The manager wakes a job for a wait that may be over. -/
theorem canGoOn_of_wakeable (hend : s.job.terminal = none)
    (hwait : s.job.primaryState = .waitingExternal) (hmem : w ∈ s.waits)
    (hw : w.wakeable) : s.CanGoOn := by
  obtain ⟨n, asked, queueReason, observed, eventVersion, hdue, hwake⟩ := exists_wake (s := s) hw
  refine CanGoOn.waits n (canGoOn_of_wake (w := w) ?_ ?_ ?_ hwake)
  · rwa [setNow_job]
  · rwa [setNow_job]
  · have hopen : w.isOpen = true := (Bool.and_eq_true_iff.mp hw).1
    rw [due, setNow_now, setNow_waits, hopen, Bool.and_true, Bool.and_eq_true, Bool.or_eq_true,
      decide_eq_true_eq, decide_eq_true_eq]
    exact ⟨hmem, hdue⟩

theorem lost_of_quarantine (hend : s.job.terminal = none) (hr : s.job.primaryState = .running) :
    (s.call (.queue (.quarantineLost "AMBIGUOUS_WRITER"
    (some s.job)))).job.primaryState = .lost := by
  rw [call_of_attempt (p := .queue (.quarantineLost "AMBIGUOUS_WRITER" (some s.job)))
    (j := s.job.quarantined .lost .recovering s.job.terminal "AMBIGUOUS_WRITER")]
  · rfl
  · simp [Primitive.attempt, QueueOp.attempt, JobRow.transitionable, hend, hr]

theorem blocked_of_quarantine (hend : s.job.terminal = none) (hr : s.job.primaryState = .running) :
    (s.call (.queue (.quarantineBlocked "WORKTREE_DIVERGED" (some s.job)))).job.primaryState =
      .blocked := by
  rw [call_of_attempt (p := .queue (.quarantineBlocked "WORKTREE_DIVERGED" (some s.job)))
    (j := s.job.quarantined .blocked .terminal (some .blocked) "WORKTREE_DIVERGED")]
  · rfl
  · simp [Primitive.attempt, QueueOp.attempt, JobRow.transitionable, hend, hr]

/-- A takeover that nothing speaks against. -/
theorem canGoOn_of_takeover (hend : s.job.terminal = none) (hr : s.job.primaryState = .running)
    {t : Time} (ht : s.job.leaseExpiresAt = some t) (hnow : t ≤ s.now)
    (hdead : s.provenDead false)
    (htree : s.worktree = none ∨ s.worktree = some .cleanupPending)
    (hfree : s.journal.applyInFlight s.job.id = false) : s.CanGoOn := by
  obtain ⟨ttl, httl, hpos⟩ : ∃ ttl, validTtl ttl = true ∧ 0 < ttl := ⟨60, by decide, by decide⟩
  obtain ⟨owner, hblank⟩ : ∃ owner, notBlank owner = true := ⟨"argent", by decide⟩
  have hcur : s.job.leaseIsCurrent ⟨owner, s.job.leaseEpoch⟩ s.now = false := by
    simp [JobRow.leaseIsCurrent, JobRow.leaseHeld, ht, hnow]
  have htake : s.tryRecoverTakeover owner ttl false =
      { s with job := s.job.leasedTo owner ttl s.now } := by
    rw [tryRecoverTakeover, if_pos hdead]
    refine call_of_attempt ?_
    rcases htree with htree | htree <;>
      simp [Primitive.attempt, QueueOp.attempt, hblank, httl, hr, hend, ht, hnow, hfree, htree]
  have hrun : (s.run [.pass owner ttl false ⟨[], [], none⟩]).job = s.job.leasedTo owner ttl s.now ∧
      (s.run [.pass owner ttl false ⟨[], [], none⟩]).now = s.now := by
    simp only [run, Runs.run, step, runPass, hblank, resolveTarget, hr, hcur, ht, htake,
      Option.any_some, hnow, decide_true, Bool.and_false, Bool.true_and, Bool.false_eq_true,
      if_false, if_true, List.foldl_nil]
    split <;> exact ⟨rfl, rfl⟩
  refine ⟨[.pass owner ttl false ⟨[], [], none⟩], .inl ?_⟩
  rw [hrun.1, hrun.2]
  exact ⟨rfl, leaseHeld_leasedTo hpos, Nat.lt_succ_self _⟩

/-- Where the restart finds a candidate for a takeover, the takeover succeeds unless an apply row
blocks it. -/
theorem canGoOn_of_clean (hend : s.job.terminal = none) (hr : s.job.primaryState = .running)
    (hfree : s.job.leaseHeld s.now = false) (hb : s.applyBlocked = false)
    (hlease : ¬(s.job.ownerInstanceId = none || s.job.ownerInstanceId = some "" ||
      s.job.leaseEpoch < 1 || s.job.leaseExpiresAt = none) = true)
    (hdead : s.provenDead false)
    (htree : s.worktree = none ∨ s.worktree = some .cleanupPending) : s.CanGoOn := by
  simp only [Bool.or_eq_true, decide_eq_true_eq, not_or, not_lt] at hlease
  obtain ⟨⟨⟨hn, he⟩, hepoch⟩, hexp⟩ := hlease
  obtain ⟨t, ht⟩ := Option.ne_none_iff_exists'.mp hexp
  have hnow : t ≤ s.now := by simpa [JobRow.leaseHeld, ht] using hfree
  have hin : s.journal.applyInFlight s.job.id = false := by
    rcases htree with htree | htree <;>
      simpa [applyBlocked, hn, he, hepoch, ht, hdead, htree] using hb
  exact canGoOn_of_takeover hend hr ht hnow hdead htree hin

/-- A running job whose lease has run out is taken over or quarantined, unless it is blocked by
an apply row. -/
theorem canGoOn_of_expired (hend : s.job.terminal = none) (hr : s.job.primaryState = .running)
    (hfree : s.job.leaseHeld s.now = false) (hb : s.applyBlocked = false) : s.CanGoOn := by
  have hrestart : s.run [.restart false none] = s.classifyLease false := by
    simp only [run, Runs.run, step, reconcileAfterRestart, hend, hr, decide_true, Bool.and_true,
      if_true, classifyRunning]
  have hlost : s.classifyLease false =
      s.call (.queue (.quarantineLost "AMBIGUOUS_WRITER" (some s.job))) → s.CanGoOn := fun heq =>
    ⟨[.restart false none], .inr (.inl (by rw [hrestart, heq]; exact lost_of_quarantine hend hr))⟩
  rw [classifyLease, hfree] at hlost
  split at hlost
  case isTrue => exact hlost rfl
  case isFalse hlease =>
    cases hdead : s.provenDead false with
    | false => exact hlost (by simp [hdead])
    | true =>
      simp only [hdead, Bool.false_eq_true, if_false, if_true] at hlost
      cases htree : s.worktree with
      | some v =>
        cases v with
        | other => exact hlost (by rw [htree])
        | blockedDiverged =>
          refine ⟨[.restart false none], .inr (.inr (.inl ?_))⟩
          rw [hrestart, classifyLease, if_neg hlease, hfree]
          simp only [hdead, htree, Bool.false_eq_true, if_false, if_true]
          exact blocked_of_quarantine hend hr
        | cleanupPending => exact canGoOn_of_clean hend hr hfree hb hlease hdead (.inr htree)
      | none => exact canGoOn_of_clean hend hr hfree hb hlease hdead (.inl htree)

/-- **A job can go on exactly if its primary state has a way out**: an open job that is queued,
or in quarantine already; one whose lease is held; a running one, unless its process is known to
have ended, its worktree is in order and an `APPLY_PATCH_SET` row is in flight; or a waiting one
with an open wait. -/
theorem goes_on_iff (hend : s.job.terminal = none) : s.CanGoOn ↔ s.hasExit = true := by
  refine ⟨hasExit_of_canGoOn hend, fun h => ?_⟩
  cases hp : s.job.primaryState with
  | queued => exact canGoOn_of_queued hend hp
  | lost => exact ⟨[], .inr (.inl hp)⟩
  | blocked => exact ⟨[], .inr (.inr (.inl hp))⟩
  | running =>
    rw [hasExit, hp, Bool.or_eq_true, Bool.not_eq_true'] at h
    rcases h with hh | hb
    · exact canGoOn_of_held hend (by rw [hp]; decide) hh
    · -- the lease runs out first
      have hfree : s.job.leaseHeld (later s.now (s.job.leaseExpiresAt.getD 0)) = false :=
        any_lt_later le_rfl
      refine CanGoOn.waits (s.job.leaseExpiresAt.getD 0) (canGoOn_of_expired ?_ ?_ ?_ ?_)
      · rwa [setNow_job]
      · rwa [setNow_job]
      · rwa [setNow_job, setNow_now]
      · rwa [setNow_applyBlocked]
  | waitingExternal =>
    rw [hasExit, hp, Bool.or_eq_true, List.any_eq_true] at h
    rcases h with hh | ⟨w, hmem, hw⟩
    · exact canGoOn_of_held hend (by rw [hp]; decide) hh
    · exact canGoOn_of_wakeable hend hp hmem hw
  | ownerGate | failed | done =>
    rw [hasExit, hp] at h
    exact canGoOn_of_held hend (by rw [hp]; decide) h

end Stand

/-! ### A decided gate -/

open Stand

/-- A job, before anything has happened to it. -/
def created : Stand where
  job := createSupervisorJob "job" (Core.num 1)
  now := 0
  journal := []
  registration := none
  worktree := none
  waits := []
  core := Core.ticking

/-- The pass that presents a gate: the plan is committed with the status `WAITING_GATE`, the
owner is prompted, and the lease is cleared as the job has left `RUNNING`. -/
def presentsGate : Rest where
  calls :=
    [.update { status := some .waitingGate
               nextAction := some .presentOwnerGate
               factsVersion := some 2 },
      .update { ownerPromptedAt := some (some 0), ownerPromptedGateId := some (some (Core.num 5)) },
      .queue (.clear ⟨"argent", 1⟩)]
  rows := []
  registration := none

/-- The lead asks for a deployment, the gate is presented, and the owner approves and has it
executed. -/
def gateDecided : List Op :=
  (Core.leadAtWork ++ [Core.askForDeploy]).map (.core .lenient) ++
    [.pass "argent" 60 false presentsGate] ++
      [Core.forDeploy .approve 5, Core.forDeploy .executeApproved 5].map (.core .lenient)

-- the approval is used up and the task has left the gate, but the job has not
example : (created.run gateDecided).job.primaryState = .ownerGate ∧
    ((created.run gateDecided).core.db.core.ownerApprovals.rows.all fun a =>
      a.status = .consumed) = true ∧
    ((created.run gateDecided).core.db.core.tasks.rows.all fun t =>
      t.state ≠ .ownerApprovalRequired) = true := by decide +kernel

/-- **A job may be stranded** although nobody holds it and its gate is decided. -/
theorem decided_gate_strands :
    ¬∀ ops, (created.run ops).job.terminal = none → (created.run ops).CanGoOn := by
  intro h
  have hend : (created.run gateDecided).job.terminal = none := by decide
  have hexit : (created.run gateDecided).hasExit = true :=
    hasExit_of_canGoOn hend (h gateDecided hend)
  exact absurd hexit (by decide)

/-- Before anything has happened, the job can be claimed. -/
theorem goes_on_created : created.CanGoOn := (goes_on_iff rfl).mpr rfl

end Jobs

end ArgentTeam
