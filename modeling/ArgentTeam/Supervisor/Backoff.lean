import ArgentTeam.Supervisor.Spawn

/-!
# Backing off

A job whose runtime cannot be used backs off: it is queued, may be claimed again after a
delay that doubles, and is in a sticky error after `maxRuntimeUnknown` such outcomes. Six
routines count on one column, `retry_count`: three of the decision table, and the three
of this file, which handlers call.

The count is lost on one path. Without an active dispatch the decision is to create one,
and that plan sets the count to zero before the handler finds that no provider can be
routed to and adds one (`Supervisor.unavailability_exhausts`).
-/

namespace ArgentTeam

namespace Supervisor

/-! ### The routines of the handlers -/

namespace JobRow

variable (j : JobRow)

/-- The sticky error every bounded backoff ends in. -/
def giveUp (errorCode : String) : JobRow :=
  JobRow.project
    { j with
      status := .error
      recoveryState := .persistentError
      lastErrorCode := some errorCode
      nextAction := .none
      nextWakeAt := none
      retryCount := j.retryCount + 1
      factsVersion := j.factsVersion + 1 }

def backedOff (now : Time) (errorCode : String) : JobRow :=
  let wake := some (later now (backoffSeconds (j.retryCount + 1)))
  { j with
    queueReason := .retryBackoff
    nextEligibleAt := wake
    lastErrorCode := some errorCode
    nextAction := .wait
    nextWakeAt := wake
    retryCount := j.retryCount + 1
    factsVersion := j.factsVersion + 1 }

/-- The backoff of `adapter_exception_decision` and `_apply_job_backoff`. -/
def unavailable (now : Time) (errorCode : String) : JobRow :=
  if maxRuntimeUnknown ≤ j.retryCount + 1 then j.giveUp errorCode
  else
    JobRow.project
      { (j.backedOff now errorCode).unleased with
        status := .backoff, recoveryState := .runtimeUnknown }

/-- The write of `_provider_unavailable_backoff`, through `_transition_job`. -/
def unroutable (now : Time) : JobRow :=
  if maxRuntimeUnknown ≤ j.retryCount + 1 then j.giveUp "NO_VALID_FALLBACK"
  else if j.transitionable false then
    let released := if j.ownerInstanceId = none then j else j.unleased
    { released.backedOff now "NO_VALID_FALLBACK" with primaryState := .queued, status := .backoff }
  else j

end JobRow

namespace SupervisorDb

variable (w : SupervisorDb) (holder : Option LeaseCas) (now : Time)

def adapterExceptionDecision (typeName : String) : SupervisorDb :=
  if w.job.leaseFence holder now then
    { w with job := w.job.unavailable now ("adapter_exception:" ++ typeName) }
  else w

def applyJobBackoff (errorCode : String) : SupervisorDb :=
  if w.job.leaseFence holder now then { w with job := w.job.unavailable now errorCode } else w

def providerUnavailableBackoff : SupervisorDb :=
  if w.job.terminal = none ∧ w.job.leaseFence holder now then
    { w with job := w.job.unroutable now }
  else w

end SupervisorDb

/-! ### Passes that may be in trouble -/

/-- What a handler may run into. -/
inductive Trouble
  | noValidFallback
  /-- The run-status provider fails structurally. -/
  | adapterException (typeName : String)
  /-- The dispatch lock is not to be had, or the workspace is not the one of the intent. -/
  | applyFence (errorCode : String)
  | none

/-- The handlers that observe the run once more, and report a structural failure. -/
def ReconcileAction.reobserves : ReconcileAction → Bool
  | bindRun | applyPatchSet | runSandboxTests | recordTestResult | consumeResult => true
  | _ => false

namespace SupervisorDb

/-- `perform_next_safe_action_if_required`, with what its handler runs into. -/
def performTroubled (others : Handlers) (holder : Option LeaseCas) (now : Time) (trouble : Trouble)
    (d : ReconcileDecision) (w : SupervisorDb) : SupervisorDb :=
  match d.action, trouble with
  | .none, _ | .wait, _ => w
  | .persistentError, _ => w.performPersistentError d.reason
  | .createDispatch, .noValidFallback => w.providerUnavailableBackoff holder now
  | .applyPatchSet, .applyFence errorCode => w.applyJobBackoff holder now errorCode
  | action, .adapterException typeName =>
    if action.reobserves then w.adapterExceptionDecision holder now typeName else others d now w
  | _, _ => others d now w

end SupervisorDb

/-- What may happen to a job that is being backed off. -/
inductive BackoffEvent
  | queue (now : Time) (op : QueueOp)
  /-- Whatever happens to the rest of the database. -/
  | elsewhere (db : Db) (actions : Journal) (intents : List WriteIntent)
  | pass (holder : Option LeaseCas) (now : Time) (obs : Option RunObservation) (trouble : Trouble)
  /-- A pass whose decision itself fails structurally. -/
  | raised (holder : Option LeaseCas) (now : Time) (typeName : String)

/-- A job with the delays of the backoffs so far. -/
structure Delayed where
  desk : SupervisorDb
  delays : List ℕ

/-- The delay a backoff ends with. -/
def delay (now : Time) (j : JobRow) : List ℕ :=
  if j.status = .backoff then (j.nextWakeAt.map fun wake => wake - now).toList else []

/-- The database after a pass. -/
def SupervisorDb.pass (w : SupervisorDb) (others : Handlers) (holder : Option LeaseCas) (now : Time)
    (obs : Option RunObservation) (trouble : Trouble) : SupervisorDb :=
  match w.reconcile holder now obs with
  | (some d, w') => w'.performTroubled others holder now trouble d
  | (none, w') => w'

/-- One event. -/
def Delayed.step (others : SupervisorDb.Handlers) (t : Delayed) : BackoffEvent → Delayed
  | .queue now op => { t with desk.job := op.apply now t.desk.actions t.desk.job }
  | .elsewhere db actions intents => { t with desk := { t.desk with db, actions, intents } }
  | .pass holder now obs trouble =>
    let desk := t.desk.pass others holder now obs trouble
    ⟨desk, t.delays ++ delay now desk.job⟩
  | .raised holder now typeName =>
    let desk := t.desk.adapterExceptionDecision holder now typeName
    ⟨desk, t.delays ++ delay now desk.job⟩

/-! ### Unavailability -/

/-- The reasons of the plans that back off. -/
def unavailableReasons : List String :=
  ["adapter_unknown", "adapter_conflict", "write_result_hash_mismatch", "workspace_diverged"]

/-- A pass has an unavailability outcome: by the plan itself, or by what the handler of
the planned action runs into. -/
def Unavailable (w : SupervisorDb) : BackoffEvent → Bool
  | .pass holder now obs trouble => w.job.leaseFence holder now && w.snapshot.any fun s =>
    let plan := decide now s obs
    match plan.action, trouble with
    | .wait, _ | .persistentError, _ => plan.reason ∈ unavailableReasons
    | .createDispatch, .noValidFallback => w.job.transitionable false
    | .applyPatchSet, .applyFence _ => true
    | action, .adapterException _ => action.reobserves
    | _, _ => false
  | .raised holder now _ =>
    w.job.leaseFence holder now && w.job.terminal = none && w.job.status ≠ .error
  | .queue .. | .elsewhere .. => false

def SupervisorDb.hasActiveDispatch (w : SupervisorDb) : Bool :=
  w.snapshot.any fun s => s.activeDispatch.isSome

/-- A step of a run of unavailability outcomes, none of which loses the count: no pass of
a job without an active dispatch comes after another outcome. -/
def CountsOn (w : SupervisorDb) : BackoffEvent → Bool
  | .pass holder now obs trouble => w.job.status = .error ||
    (Unavailable w (.pass holder now obs trouble) && (w.hasActiveDispatch || w.job.retryCount = 0))
  | .raised holder now typeName => w.job.status = .error ||
    Unavailable w (.raised holder now typeName)
  | .queue .. | .elsewhere .. => true

/-! ### What an unavailability outcome leaves behind -/

/-- The job after an unavailability outcome, when there had been `r` of them: it backs
off, longer than before, or is in the sticky error. -/
structure Settled (r : ℕ) (now : Time) (j : JobRow) : Prop where
  nonterminal : j.terminal = none
  counted : j.retryCount = r + 1
  state : (maxRuntimeUnknown ≤ r + 1 ∧ j.status = .error ∧ j.primaryState = .blocked) ∨
    (r + 1 < maxRuntimeUnknown ∧ j.status = .backoff ∧
      j.nextWakeAt = some (later now (backoffSeconds (r + 1))))

section Settled

variable {j : JobRow} {now : Time} {code : String} {r : ℕ} {w : SupervisorDb}
  {holder : Option LeaseCas} {s : Snapshot}

theorem settled_giveUp (h : j.terminal = none) (hr : maxRuntimeUnknown ≤ j.retryCount + 1) :
    Settled j.retryCount now (j.giveUp code) :=
  ⟨h, rfl, .inl ⟨hr, rfl, by simp [JobRow.giveUp, JobRow.project, derivePrimaryState, h]⟩⟩

theorem settled_unavailable (h : j.terminal = none) :
    Settled j.retryCount now (j.unavailable now code) := by
  unfold JobRow.unavailable
  split
  · rename_i hr
    exact settled_giveUp h hr
  · rename_i hr
    exact ⟨h, rfl, .inr ⟨by omega, rfl, rfl⟩⟩

theorem settled_unroutable (h : j.terminal = none) (ht : j.transitionable false) :
    Settled j.retryCount now (j.unroutable now) := by
  unfold JobRow.unroutable
  split
  · rename_i hr
    exact settled_giveUp h hr
  · rename_i hr
    dsimp only
    by_cases howner : j.ownerInstanceId = none
    · rw [if_pos howner]
      exact ⟨h, rfl, .inr ⟨by omega, rfl, rfl⟩⟩
    · rw [if_neg howner]
      exact ⟨h, rfl, .inr ⟨by omega, rfl, rfl⟩⟩

/-- Committing the plan of a backoff, and carrying it out. -/
theorem settled_unavailablePlan (h : s.job.terminal = none) {reason d : String} :
    Settled s.job.retryCount now (s.job.commit (unavailablePlan now s reason d)) := by
  simp only [unavailablePlan]
  by_cases hr : maxRuntimeUnknown ≤ s.job.retryCount + 1
  · rw [if_pos hr]
    refine ⟨by simpa using h, by simp, .inl ⟨hr, by simp [Plan.error], ?_⟩⟩
    rw [JobRow.commit_primaryState (show (Plan.status _) = some .error from rfl), h]
    rfl
  · rw [if_neg hr]
    exact ⟨by simpa using h, by simp, .inr ⟨by omega, by simp, by simp⟩⟩

theorem Settled.performPersistentError (h : Settled r now w.job) (hr : maxRuntimeUnknown ≤ r + 1)
    {reason : String} : Settled r now (w.performPersistentError reason).job :=
  ⟨h.nonterminal, h.counted, .inl ⟨hr, rfl, by
    simp [SupervisorDb.performPersistentError, JobRow.project, derivePrimaryState, h.nonterminal]⟩⟩

theorem leaseFence_commit {plan : Plan} (h : plan.status ≠ some .backoff) :
    (s.job.commit plan).leaseFence holder now = s.job.leaseFence holder now := by
  obtain ⟨howner, hexpires⟩ := JobRow.commit_lease (j := s.job) h
  simp [JobRow.leaseFence, JobRow.leaseIsCurrent, JobRow.leaseHeld, howner, hexpires]

end Settled

/-! ### Which decisions can be in trouble -/

section Decide

variable {now : Time} {s : Snapshot} {obs : Option RunObservation} {role : Role}
  {ad : AgentDispatch}

/-- A decision at the frontier is about the active dispatch, or about there being none. -/
theorem decideAtFrontier_cases :
    (s.activeDispatch = none ∧ decideAtFrontier now s role obs = decideNoActive s role) ∨
    (∃ ad, s.activeDispatch = some ad ∧
      (decideAtFrontier now s role obs =
          Plan.error "ledger_conflict_active_dispatch" (some ad.id.text) ∨
        decideAtFrontier now s role obs = decideUnbound now s role ad obs ∨
        decideAtFrontier now s role obs = decideBound now s role ad obs)) := by
  unfold decideAtFrontier
  cases s.activeDispatch with
  | none => exact .inl ⟨rfl, rfl⟩
  | some ad =>
    refine .inr ⟨ad, rfl, ?_⟩
    simp only
    split
    · exact .inl rfl
    split
    · exact .inr (.inl rfl)
    · exact .inr (.inr rfl)

/-- The plans for an active dispatch: a backoff, for one of its reasons; a plan for
another reason; an action that leaves the count and the status alone. -/
def AboutDispatch (now : Time) (s : Snapshot) (plan : Plan) : Prop :=
  (∃ reason d, plan = unavailablePlan now s reason d) ∨
  ((plan.action = .wait ∨ plan.action = .persistentError) ∧ plan.reason ∉ unavailableReasons) ∨
  (plan.action.reobserves = true ∧ plan.retryCount = none ∧ plan.status = none) ∨
  plan.action ∈ [.spawnRun, .markRunFailed, .closeBlocked]

theorem aboutDispatch_unbound : AboutDispatch now s (decideUnbound now s role ad obs) := by
  unfold decideUnbound
  split
  · exact .inr (.inl ⟨.inl rfl, by simp [poll]; decide⟩)
  split
  case h_5 =>
    unfold decideNotSpawned
    simp only
    split
    · exact .inr (.inl ⟨.inr rfl, by simp [Plan.error]; decide⟩)
    split
    · exact .inr (.inl ⟨.inl rfl, by simp [waitMissing]; decide⟩)
    split
    · exact .inr (.inr (.inr (by simp)))
    split
    · exact .inr (.inr (.inr (by simp)))
    · exact .inr (.inl ⟨.inl rfl, by simp [waitMissing]; decide⟩)
  case h_6 => exact .inl ⟨_, _, rfl⟩
  case h_7 => exact .inl ⟨_, _, rfl⟩
  all_goals
    split
    · exact .inr (.inl ⟨.inl rfl, by simp [poll]; decide⟩)
    · exact .inr (.inr (.inl ⟨rfl, rfl, rfl⟩))

theorem aboutDispatch_write {o : RunObservation} :
    AboutDispatch now s (decideWritePreconditions now s ad o) := by
  unfold decideWritePreconditions
  split
  · rename_i code hcode
    refine .inr (.inl ⟨.inr rfl, ?_⟩)
    unfold exhaustedStep at hcode
    repeat' split at hcode
    all_goals cases hcode
    all_goals simp [Plan.error]
    all_goals decide
  split
  · exact .inl ⟨_, _, rfl⟩
  split
  · exact .inr (.inr (.inl ⟨rfl, rfl, rfl⟩))
  split
  · exact .inl ⟨_, _, rfl⟩
  repeat' split
  all_goals exact .inr (.inr (.inl ⟨rfl, rfl, rfl⟩))

theorem aboutDispatch_bound : AboutDispatch now s (decideBound now s role ad obs) := by
  unfold decideBound
  split
  · exact .inr (.inl ⟨.inl rfl, by simp [poll]; decide⟩)
  split
  case h_1 => exact .inr (.inl ⟨.inl rfl, by simp [poll]; decide⟩)
  case h_2 =>
    split
    · exact aboutDispatch_write
    split
    · exact .inr (.inr (.inr (by simp)))
    · exact .inr (.inr (.inl ⟨rfl, rfl, rfl⟩))
  case h_5 =>
    split
    · split
      · exact .inr (.inr (.inr (by simp)))
      · exact .inr (.inr (.inr (by simp)))
    · exact .inr (.inl ⟨.inl rfl, by simp [waitMissing]; decide⟩)
  case h_6 => exact .inl ⟨_, _, rfl⟩
  case h_7 => exact .inl ⟨_, _, rfl⟩
  all_goals exact .inr (.inr (.inr (by simp)))

/-- A plan that is no trouble: it neither backs off, nor creates a dispatch, nor
observes again. -/
def NoTrouble (plan : Plan) : Prop :=
  ((plan.action = .wait ∨ plan.action = .persistentError) → plan.reason ∉ unavailableReasons) ∧
    plan.action ≠ .createDispatch ∧ plan.action.reobserves = false

theorem decideGate_noTrouble {plan : Plan} (h : decideGate now s = some plan) : NoTrouble plan := by
  simp only [decideGate] at h
  repeat' split at h
  all_goals first
    | (cases h; done)
    | (cases h; exact ⟨fun _ => by simp [Plan.error, poll]; decide, by simp [Plan.error, poll],
        rfl⟩)

/-- **Where trouble comes from**: from the active dispatch, or from creating one. -/
theorem decide_trouble :
    NoTrouble (decide now s obs) ∨
    (s.job.terminal = none ∧ s.activeDispatch = none ∧ ∃ role,
      decide now s obs = decideNoActive s role) ∨
    (s.job.terminal = none ∧ s.activeDispatch.isSome ∧ AboutDispatch now s (decide now s obs)) := by
  rcases @decide_cases now s obs with ⟨-, hn, -⟩ | ⟨hclose, -⟩ | hgate |
    hexh | ⟨hterm, -, -, role, -, hfront⟩
  · exact .inl ⟨by simp [hn], by simp [hn], by rw [hn]; rfl⟩
  · rcases hclose with hc | hc | hc
    iterate 3 · exact .inl ⟨by simp [hc], by simp [hc], by rw [hc]; rfl⟩
  · exact .inl (decideGate_noTrouble hgate)
  · exact .inl ⟨fun _ => by rw [hexh]; simp [Plan.error]; decide, by simp [hexh, Plan.error],
      by rw [hexh]; rfl⟩
  · rcases @decideAtFrontier_cases now s obs role with
      ⟨hnone, heq⟩ | ⟨ad, hsome, heq⟩
    · exact .inr (.inl ⟨hterm, hnone, role, hfront.trans heq⟩)
    · rw [hfront]
      rcases heq with heq | heq | heq <;> rw [heq]
      · exact .inl ⟨fun _ => by simp [Plan.error]; decide, by simp [Plan.error], rfl⟩
      · exact .inr (.inr ⟨hterm, by simp [hsome], aboutDispatch_unbound⟩)
      · exact .inr (.inr ⟨hterm, by simp [hsome], aboutDispatch_bound⟩)

end Decide

/-! ### One outcome -/

/-- How many outcomes count when the next one is added: none, if a dispatch has to be
created first. -/
def counted (w : SupervisorDb) : ℕ := if w.hasActiveDispatch then w.job.retryCount else 0

section Step

variable {w : SupervisorDb} {others : SupervisorDb.Handlers} {holder : Option LeaseCas} {now : Time}
  {obs : Option RunObservation} {trouble : Trouble}

theorem decideNoActive_createDispatch {s : Snapshot} {role : Role}
    (h : (decideNoActive s role).action = .createDispatch) :
    (decideNoActive s role).retryCount = some 0 ∧ (decideNoActive s role).status = none ∧
      (decideNoActive s role).recoveryState = none := by
  unfold decideNoActive at h ⊢
  simp only at h ⊢
  split at h
  · cases h
  rename_i hfew
  rw [if_neg hfew]
  split at h
  · cases h
  rename_i hrole
  rw [if_neg hrole]
  exact ⟨rfl, rfl, rfl⟩

/-- What the handler of an action that observes again does when the observation fails. -/
theorem settled_reobserves {w' : SupervisorDb} {d : ReconcileDecision} {r : ℕ}
    (hterm : w'.job.terminal = none) (hfence : w'.job.leaseFence holder now)
    (hr : w'.job.retryCount = r) (haction : d.action.reobserves)
    (htrouble : (∃ e, trouble = .adapterException e) ∨
      (d.action = .applyPatchSet ∧ ∃ e, trouble = .applyFence e)) :
    Settled r now (w'.performTroubled others holder now trouble d).job := by
  subst hr
  rcases htrouble with ⟨e, rfl⟩ | ⟨happly, e, rfl⟩
  · have hperform : w'.performTroubled others holder now (.adapterException e) d =
        w'.adapterExceptionDecision holder now e := by
      unfold SupervisorDb.performTroubled
      cases ha : d.action <;> simp_all [ReconcileAction.reobserves]
    rw [hperform]
    simp only [SupervisorDb.adapterExceptionDecision, hfence, if_true]
    exact settled_unavailable hterm
  · have hperform : w'.performTroubled others holder now (.applyFence e) d =
        w'.applyJobBackoff holder now e := by
      simp [SupervisorDb.performTroubled, happly]
    rw [hperform]
    simp only [SupervisorDb.applyJobBackoff, hfence, if_true]
    exact settled_unavailable hterm

/-- **One outcome.** A pass with an unavailability outcome adds one to the count, or to
zero if there is no active dispatch, and backs off accordingly. -/
theorem settled_pass (h : Unavailable w (.pass holder now obs trouble)) :
    Settled (counted w) now (w.pass others holder now obs trouble).job := by
  simp only [Unavailable, Bool.and_eq_true, Option.any_eq_true] at h
  obtain ⟨hfence, s, hs, hplan⟩ := h
  obtain ⟨hjob, -, -⟩ := SupervisorDb.of_snapshot hs
  have hactive : w.hasActiveDispatch = s.activeDispatch.isSome := by
    simp [SupervisorDb.hasActiveDispatch, hs]
  have hpass : w.pass others holder now obs trouble =
      ({ w with job := w.job.commit (decide now s obs) } : SupervisorDb).performTroubled
        others holder now trouble (w.author (decide now s obs)) := by
    simp only [SupervisorDb.pass, SupervisorDb.reconcile_of_snapshot hs hfence]
  have hfence' : ∀ plan : Plan, plan.status ≠ some .backoff →
      (w.job.commit plan).leaseFence holder now = true := by
    intro plan hstatus
    rw [← hjob] at hfence ⊢
    rwa [leaseFence_commit hstatus]
  rw [hpass]
  rcases @decide_trouble now s obs with ⟨hreason, hcreate, hobserve⟩ |
    ⟨hterm, hnone, role, heq⟩ | ⟨hterm, hsome, habout⟩
  · -- No trouble, so no outcome.
    exfalso
    revert hplan hreason hcreate hobserve
    generalize decide now s obs = plan
    intro hplan hreason hcreate hobserve
    cases ha : plan.action <;> cases trouble <;> simp_all [ReconcileAction.reobserves]
  · -- The dispatch has to be created: the count starts anew.
    have hcreate : (decideNoActive s role).action = .createDispatch ∧ trouble = .noValidFallback ∧
        w.job.transitionable false = true := by
      rw [heq] at hplan
      rcases @decideNoActive_action s role with ha | ha | ha <;>
        cases trouble <;> simp_all [ReconcileAction.reobserves]
    obtain ⟨haction, rfl, htrans⟩ := hcreate
    obtain ⟨hretry, hstatus, hrecovery⟩ := decideNoActive_createDispatch haction
    have hcounted : counted w = 0 := by simp [counted, hactive, hnone]
    rw [heq, hcounted]
    rw [hjob] at hterm
    have hterm' : (w.job.commit (decideNoActive s role)).terminal = none := by simpa using hterm
    have hperform : ({ w with job := w.job.commit (decideNoActive s role) } :
        SupervisorDb).performTroubled others holder now .noValidFallback
          (w.author (decideNoActive s role)) =
        { w with job := (w.job.commit (decideNoActive s role)).unroutable now } := by
      simp [SupervisorDb.performTroubled, SupervisorDb.author, haction,
        SupervisorDb.providerUnavailableBackoff, hterm,
        hfence' (decideNoActive s role) (by simp [hstatus])]
    rw [hperform]
    have htrans' : (w.job.commit (decideNoActive s role)).transitionable false = true := by
      have hps := JobRow.commit_primaryState_of_none (j := w.job) hstatus hrecovery
      simpa [JobRow.transitionable, hps] using htrans
    have hset := @settled_unroutable _ now hterm' htrans'
    rwa [JobRow.commit_retryCount, hretry] at hset
  · -- The dispatch is active: the count goes on.
    have hcounted : counted w = w.job.retryCount := by simp [counted, hactive, hsome]
    rw [hcounted]
    rw [hjob] at hterm
    rcases habout with ⟨reason, d, hplan'⟩ | ⟨hwait, hreason⟩ | ⟨haction, hretry, hstatus⟩ | hother
    · rw [hplan']
      have hset := @settled_unavailablePlan now s (by rwa [hjob]) reason d
      rw [hjob] at hset
      rcases @unavailablePlan_action now s reason d with ha | ha
      · simpa [SupervisorDb.performTroubled, SupervisorDb.author, ha] using hset
      · have hmany : maxRuntimeUnknown ≤ w.job.retryCount + 1 := by
          by_contra hfew
          simp [unavailablePlan, hjob, hfew] at ha
        simpa [SupervisorDb.performTroubled, SupervisorDb.author, ha] using
          Settled.performPersistentError (w := { w with job := w.job.commit _ }) hset hmany
    · exfalso
      rcases hwait with ha | ha <;> simp [ha, hreason] at hplan
    · have htrouble : (∃ e, trouble = .adapterException e) ∨
          ((decide now s obs).action = .applyPatchSet ∧ ∃ e, trouble = .applyFence e) := by
        revert hplan haction
        generalize decide now s obs = plan
        intro hplan haction
        cases ha : plan.action <;> cases trouble <;> simp_all [ReconcileAction.reobserves]
      refine settled_reobserves ?_ (hfence' _ (by simp [hstatus])) ?_ haction htrouble
      · simpa using hterm
      · simp [hretry]
    · exfalso
      simp only [List.mem_cons, List.not_mem_nil, or_false] at hother
      rcases hother with ha | ha | ha <;> cases trouble <;>
        simp [ha, ReconcileAction.reobserves] at hplan

end Step

/-! ### Runs of outcomes -/

/-- How many outcomes a run has. -/
def outcomes (events : List BackoffEvent) : ℕ := events.countP fun e => match e with
  | .pass .. | .raised .. => true
  | .queue .. | .elsewhere .. => false

structure InError (j : JobRow) : Prop where
  status : j.status = .error
  primary : j.primaryState = .blocked
  nonterminal : j.terminal = none
  budget : maxRuntimeUnknown ≤ j.retryCount

/-- A run of outcomes that started with a count of `start`: the job is in error, or the
count is that of the outcomes; the delays grow, and none exceeds what the count allows. -/
structure Backing (start n : ℕ) (t : Delayed) : Prop where
  fate : InError t.desk.job ∨ (t.desk.job.status ≠ .error ∧ t.desk.job.retryCount = start + n ∧
    (n = 0 ∨ start + n < maxRuntimeUnknown))
  sorted : t.delays.Pairwise (· ≤ ·)
  bounded : ∀ x ∈ t.delays, x ≤ backoffSeconds t.desk.job.retryCount * 1000000

section Runs

variable {others : SupervisorDb.Handlers} {t : Delayed} {start n : ℕ} {now : Time} {j : JobRow}

theorem InError.queue (h : InError j) {js : Journal} {op : QueueOp} :
    InError (op.apply now js j) := by
  obtain ⟨hstatus, hprimary, hterm⟩ := @QueueOp.apply_blocked now js _ op
    h.primary h.nonterminal
  have hsame : j.SameWork (op.apply now js j) := QueueOp.sameWork
  exact ⟨hstatus.trans h.status, hprimary, hterm, hsame.retryCount ▸ h.budget⟩

/-- A pass over a job in error decides nothing. -/
theorem InError.pass {w : SupervisorDb} (h : InError w.job) {holder : Option LeaseCas}
    {obs : Option RunObservation} {trouble : Trouble} :
    InError (w.pass others holder now obs trouble).job ∧
      (w.pass others holder now obs trouble).job.retryCount = w.job.retryCount := by
  unfold SupervisorDb.pass
  cases hrec : w.reconcile holder now obs with
  | mk d w' =>
    cases d with
    | none =>
      have hw' : w' = w := by
        unfold SupervisorDb.reconcile at hrec
        split at hrec
        · exact (Prod.mk.inj hrec).2.symm
        · split at hrec
          · cases hrec
          · exact (Prod.mk.inj hrec).2.symm
      simpa [hw'] using h
    | some d =>
      obtain ⟨s, hs, -, rfl, rfl⟩ := SupervisorDb.eq_of_reconcile hrec
      have hjob : s.job = w.job := (SupervisorDb.of_snapshot hs).1
      have hplan : decide now s obs = { action := .none, reason := "error_state" } := by
        unfold decide
        rw [if_neg (by simp [hjob, h.nonterminal]), if_pos (by rw [hjob]; exact h.status)]
      simp only [hplan, SupervisorDb.performTroubled, SupervisorDb.author]
      exact ⟨⟨by simpa using h.status,
        (JobRow.commit_primaryState_of_none rfl rfl).trans h.primary, by simpa using h.nonterminal,
        by simpa using h.budget⟩, by simp⟩

theorem InError.raised {w : SupervisorDb} (h : InError w.job) {holder : Option LeaseCas}
    {typeName : String} : InError (w.adapterExceptionDecision holder now typeName).job ∧
      w.job.retryCount ≤ (w.adapterExceptionDecision holder now typeName).job.retryCount := by
  unfold SupervisorDb.adapterExceptionDecision
  split
  · have hmany : maxRuntimeUnknown ≤ w.job.retryCount + 1 := h.budget.trans (Nat.le_succ _)
    simp only [JobRow.unavailable, if_pos hmany]
    exact ⟨⟨rfl, by simp [JobRow.giveUp, JobRow.project, derivePrimaryState, h.nonterminal],
      h.nonterminal, hmany⟩, Nat.le_succ _⟩
  · exact ⟨h, le_rfl⟩

theorem InError.delay (h : InError j) : delay now j = [] := by
  simp [Supervisor.delay, h.status]

theorem Settled.delay {r : ℕ} (h : Settled r now j) :
    delay now j = [] ∨ delay now j = [backoffSeconds (r + 1) * 1000000] := by
  rcases h.state with ⟨-, hs, -⟩ | ⟨-, hs, hw⟩
  · exact .inl (by simp [Supervisor.delay, hs])
  · exact .inr (by simp [Supervisor.delay, hs, hw, later])

/-- One more outcome, after which the count has grown. -/
theorem Backing.settled (h : Backing start n t) (hopen : t.desk.job.status ≠ .error)
    {desk : SupervisorDb} (hset : Settled t.desk.job.retryCount now desk.job) :
    Backing start (n + 1) ⟨desk, t.delays ++ delay now desk.job⟩ := by
  obtain ⟨-, hcount, -⟩ : t.desk.job.status ≠ .error ∧ t.desk.job.retryCount = start + n ∧
      (n = 0 ∨ start + n < maxRuntimeUnknown) := by
    rcases h.fate with herr | hfate
    · exact absurd herr.status hopen
    · exact hfate
  have hgrows : backoffSeconds t.desk.job.retryCount ≤ backoffSeconds (t.desk.job.retryCount + 1) :=
    backoffSeconds_mono (Nat.le_succ _)
  have hold : ∀ x ∈ t.delays, x ≤ backoffSeconds (t.desk.job.retryCount + 1) * 1000000 :=
    fun x hx => (h.bounded x hx).trans (Nat.mul_le_mul_right _ hgrows)
  refine ⟨?_, ?_, ?_⟩
  · rcases hset.state with ⟨hmany, hstatus, hprimary⟩ | ⟨hfew, hstatus, -⟩
    · exact .inl ⟨hstatus, hprimary, hset.nonterminal, hset.counted ▸ hmany⟩
    · refine .inr ⟨?_, ?_, ?_⟩
      · rw [hstatus]
        decide
      · rw [hset.counted, hcount, Nat.add_assoc]
      · right
        omega
  · rcases hset.delay with hd | hd
    · simpa [hd] using h.sorted
    · rw [hd, List.pairwise_append]
      refine ⟨h.sorted, List.pairwise_singleton _ _, fun x hx y hy => ?_⟩
      rw [List.mem_singleton.mp hy]
      exact hold x hx
  · intro x hx
    show x ≤ backoffSeconds desk.job.retryCount * 1000000
    rw [hset.counted]
    rcases hset.delay with hd | hd
    · rw [hd, List.append_nil] at hx
      exact hold x hx
    · rcases List.mem_append.mp (hd ▸ hx) with hx | hx
      · exact hold x hx
      · rw [List.mem_singleton.mp hx]

theorem Backing.error (h : Backing start n t) {desk : SupervisorDb} {m : ℕ}
    (herr : InError desk.job)
    (hretry : t.desk.job.retryCount ≤ desk.job.retryCount) :
    Backing start m ⟨desk, t.delays ++ delay now desk.job⟩ := by
  rw [herr.delay, List.append_nil]
  exact ⟨.inl herr, h.sorted, fun x hx =>
    (h.bounded x hx).trans (Nat.mul_le_mul_right _ (backoffSeconds_mono hretry))⟩

/-- One event. -/
theorem Backing.step (h : Backing start n t) {e : BackoffEvent} (he : CountsOn t.desk e) :
    Backing start (n + outcomes [e]) (t.step others e) := by
  have herror : t.desk.job.status = .error → InError t.desk.job := by
    intro hs
    rcases h.fate with herr | ⟨hopen, -⟩
    · exact herr
    · exact absurd hs hopen
  cases e with
  | queue now op =>
    have hsame : t.desk.job.SameWork (op.apply now t.desk.actions t.desk.job) := QueueOp.sameWork
    refine ⟨?_, h.sorted, fun x hx => ?_⟩
    · rcases h.fate with herr | ⟨hopen, hcount, hfew⟩
      · exact .inl herr.queue
      · exact .inr ⟨QueueOp.apply_status hopen, hsame.retryCount.trans hcount, hfew⟩
    · have hretry : (t.step others (.queue now op)).desk.job.retryCount =
        t.desk.job.retryCount := hsame.retryCount
      rw [hretry]
      exact h.bounded x hx
  | elsewhere db actions intents => exact ⟨h.fate, h.sorted, h.bounded⟩
  | pass holder now obs trouble =>
    by_cases hs : t.desk.job.status = .error
    · obtain ⟨herr, hretry⟩ := @InError.pass others now _ (herror hs) holder obs trouble
      exact h.error herr hretry.ge
    · simp only [CountsOn, hs, decide_false, Bool.false_or, Bool.and_eq_true, Bool.or_eq_true,
        decide_eq_true_eq] at he
      have hset := @settled_pass _ others _ _ _ _ he.1
      have hcounted : counted t.desk = t.desk.job.retryCount := by
        unfold counted
        split
        · rfl
        · rename_i hnone
          exact (he.2.resolve_left hnone).symm
      rw [hcounted] at hset
      exact h.settled hs hset
  | raised holder now typeName =>
    by_cases hs : t.desk.job.status = .error
    · obtain ⟨herr, hretry⟩ := @InError.raised now _ (herror hs) holder typeName
      exact h.error herr hretry
    · simp only [CountsOn, hs, decide_false, Bool.false_or, Unavailable, Bool.and_eq_true,
        decide_eq_true_eq] at he
      have hset : Settled t.desk.job.retryCount now
          (t.desk.adapterExceptionDecision holder now typeName).job := by
        simp only [SupervisorDb.adapterExceptionDecision, he.1.1, if_true]
        exact settled_unavailable he.1.2
      exact h.settled hs hset

theorem Backing.run (h : Backing start n t) {events : List BackoffEvent}
    (hrun : Runs.Along (Delayed.step others) (fun t e => CountsOn t.desk e = true) t events) :
    Backing start (n + outcomes events) (Runs.run (Delayed.step others) t events) := by
  induction events generalizing t n with
  | nil => exact h
  | cons e events ih =>
    have hsplit : n + outcomes (e :: events) = n + outcomes [e] + outcomes events := by
      simp only [outcomes, List.countP_cons, List.countP_nil]
      omega
    rw [hsplit]
    exact ih (h.step hrun.1) hrun.2

end Runs

/-- **When the budget is used up.** In a run of unavailability outcomes, in any mixture
and whatever else happens in between, the job is in the sticky error once there have been
`maxRuntimeUnknown` of them, and the delays never decrease, provided that no pass finds
the job with a count but without an active dispatch. Such a pass throws the count away:
whatever it was, it is one afterwards, and the job is not in error. -/
theorem unavailability_exhausts (others : SupervisorDb.Handlers) :
    (∀ (w : SupervisorDb) (events : List BackoffEvent), w.job.status ≠ .error →
      Runs.Along (Delayed.step others) (fun t e => CountsOn t.desk e = true) ⟨w, []⟩ events →
      let t := Runs.run (Delayed.step others) ⟨w, []⟩ events
      (maxRuntimeUnknown ≤ outcomes events → t.desk.job.status = .error) ∧
        t.delays.Pairwise (· ≤ ·)) ∧
    (∀ (w : SupervisorDb) (holder : Option LeaseCas) (now : Time) (obs : Option RunObservation)
      (trouble : Trouble), Unavailable w (.pass holder now obs trouble) →
      w.hasActiveDispatch = false →
      (w.pass others holder now obs trouble).job.retryCount = 1 ∧
        (w.pass others holder now obs trouble).job.status = .backoff) := by
  constructor
  · intro w events hopen hrun
    have hstart : Backing w.job.retryCount 0 ⟨w, []⟩ :=
      ⟨.inr ⟨hopen, by simp, .inl rfl⟩, List.Pairwise.nil, by simp⟩
    have hend := hstart.run hrun
    refine ⟨fun hmany => ?_, hend.sorted⟩
    rcases hend.fate with herr | ⟨-, -, hfew⟩
    · exact herr.status
    · have hpos : 0 < maxRuntimeUnknown := by decide
      omega
  · intro w holder now obs trouble hun hnone
    have hset := @settled_pass _ others _ _ _ _ hun
    have hcounted : counted w = 0 := by simp [counted, hnone]
    rw [hcounted] at hset
    refine ⟨hset.counted, ?_⟩
    rcases hset.state with ⟨hmany, -⟩ | ⟨-, hs, -⟩
    · exact absurd hmany (by decide)
    · exact hs

/-! ### Two runs -/

/-- A pass, forty seconds after the one before, and a claim for the next one. -/
def passAndClaim (obs : Option RunObservation) (trouble : Trouble) (n : ℕ) : List BackoffEvent :=
  [.pass (some (heldAt (n + 1))) (later 0 (40 * n)) obs trouble,
    .queue (later 0 (40 * n + 39)) (.claim "supervisor" maxLeaseTtlSeconds)]

/-- A job whose lead has a role run but no dispatch. -/
def leadUndispatched : SupervisorDb :=
  .claimed (Core.run .lenient Core.ticking
    (Core.begun ++ (Core.dispatchTo .lead 0 1 .standard 6).take 1)).db (Core.num 1)

/-- Six passes that find no provider to route to. -/
def unroutablePasses : List BackoffEvent :=
  (List.range 6).flatMap (passAndClaim none .noValidFallback)

/-- Six outcomes in a row, and the job is not in error: every pass sets the count to zero
before it adds one, and backs off for the same two seconds. -/
theorem unroutable_never_exhausts :
    let t := Runs.run (Delayed.step fun _ _ w => w) ⟨leadUndispatched, []⟩ unroutablePasses
    Runs.Along (Delayed.step fun _ _ w => w)
      (fun t e => (outcomes [e] = 0 ∨ Unavailable t.desk e = true)) ⟨leadUndispatched, []⟩
      unroutablePasses ∧
    outcomes unroutablePasses = 6 ∧ t.desk.job.status = .active ∧ t.desk.job.retryCount = 1 ∧
      t.delays = List.replicate 6 2000000 := by
  decide +kernel

/-- A provider that can say nothing about the run. -/
def RunObservation.unknown : RunObservation := { RunObservation.missing with
  status := .unknown, authoritativeNotFound := false }

/-- Five passes of a dispatched lead that learn nothing. -/
def unknownPasses : List BackoffEvent :=
  (List.range 5).flatMap (passAndClaim (some .unknown) .none)

/-- With an active dispatch the budget is used up; without one the count is thrown away. -/
theorem unavailability_exhausts_unknown :
    (Runs.run (Delayed.step fun _ _ w => w) ⟨leadPending, []⟩ unknownPasses).desk.job.status =
        .error ∧
      (leadUndispatched.pass (fun _ _ w => w) (some (heldAt 1)) 0 none
        .noValidFallback).job.status = .backoff :=
  ⟨((unavailability_exhausts fun _ _ w => w).1 leadPending unknownPasses (by decide)
      (by decide)).1 (by decide),
    ((unavailability_exhausts fun _ _ w => w).2 leadUndispatched (some (heldAt 1)) 0 none
      .noValidFallback (by decide) (by decide)).2⟩

end Supervisor

end ArgentTeam
