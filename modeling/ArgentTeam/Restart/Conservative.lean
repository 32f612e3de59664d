import ArgentTeam.Restart.Reconcile

/-!
# Reconciliation is conservative

Whatever other writers do between its actions, the reconciliation after a restart moves only jobs
that run and have not ended, and only as they were scanned: a quarantine finds the job as it was
read, and a recovery finds it under the lease that was read, held by this instance. A lease that is
complete and held by another instance has expired by the clock that was read. And a reconciliation
that has the store to itself leaves nothing to do for a second one that finds the same evidence.
-/

namespace ArgentTeam

open Supervisor Jobs Actions

namespace Restart

variable {policy : RecoveryPolicy} {own : String} {now : Time} {seen : List Scanned}
  {s s' t : Store} {j k : Job} {id jobId : String} {again : Job → Pass (Option (Kind × Detail))}
  {markers : List (String × String)} {q : Quarantine} {detail : String} {kind : Kind}

/-! ### What is asked of an action -/

structure Moved (own : String) (seen : List Scanned) (s : Store) (j j' : Job) : Prop where
  running : j.primaryState = .running
  opened : j.terminal = none
  foreign : ∀ owner expires, completeLease j.toJobRow = some (owner, expires) → owner ≠ own →
    ∃ now, Scanned.clock now ∈ seen ∧ expires ≤ now
  outcome : j'.primaryState = .lost ∨ j'.primaryState = .blocked ∨
    ∃ reasonCode nextEligibleAt decision,
      recovered j.toJobRow reasonCode nextEligibleAt decision = some j'.toJobRow
  /-- It was as it had been scanned: its fence is the same, or it is held by this instance under the
  lease that was scanned. -/
  scanned : ∃ k, Scanned.row k ∈ seen ∧ k.id = j.id ∧ k.primaryState = .running ∧
    k.leaseEpoch = j.leaseEpoch ∧
    (k.fence = j.fence ∨ j.leaseIsCurrent ⟨own, k.leaseEpoch⟩ s.surroundings.now = true)

/-- A job is moved, and nothing else is changed. -/
structure Moves (own jobId : String) (seen : List Scanned) (s s' : Store) : Prop where
  job : ∃ j j', s.jobs jobId = some j ∧ s'.jobs jobId = some j' ∧ Moved own seen s j j'
  others : ∀ id, id ≠ jobId → s'.jobs id = s.jobs id
  order : s'.order = s.order
  registry : s'.registry = s.registry
  surroundings : s'.surroundings = s.surroundings
  markers : s'.markers = s.markers ∨ ∃ processId, s'.markers = s.markers ++ [(jobId, processId)]

/-- What is asked of an action: it changes nothing, or moves this job. -/
def Lawful (own jobId : String) (seen : List Scanned) (s s' : Store) : Prop :=
  s' = s ∨ Moves own jobId seen s s'

theorem Lawful.refl : Lawful own jobId seen s s := .inl rfl

/-! ### The transactions -/

theorem put_self : (s.put j markers).jobs j.id = some j :=
  Function.update_self ..

theorem put_of_ne (h : id ≠ j.id) :
    (s.put j markers).jobs id = s.jobs id :=
  Function.update_of_ne h ..

theorem opened_of_transitionable {r : JobRow} (h : r.transitionable false) :
    r.terminal = none := by
  simp only [JobRow.transitionable, Bool.and_eq_true, decide_eq_true_eq, Bool.false_or] at h
  cases hend : r.terminal with
  | none => rfl
  | some e => cases e <;> simp_all

/-- What a quarantine that is not refused does to a row. -/
theorem quarantine_attempt {e r row : JobRow} {js : Journal}
    (h : (q.op e).attempt now js r = some row) : r.terminal = none ∧ row.id = r.id ∧
      (row.primaryState = .lost ∨ row.primaryState = .blocked) := by
  cases q with
  | lost =>
    simp only [Quarantine.op, QueueOp.attempt, Option.ite_none_right_eq_some,
      Bool.and_eq_true] at h
    obtain ⟨⟨-, htransition⟩, hrow⟩ := h
    obtain rfl := Option.some.inj hrow
    exact ⟨opened_of_transitionable htransition, rfl, .inl rfl⟩
  | blocked =>
    simp only [Quarantine.op, QueueOp.attempt, Option.ite_none_right_eq_some,
      Bool.and_eq_true] at h
    obtain ⟨⟨-, htransition⟩, hrow⟩ := h
    obtain rfl := Option.some.inj hrow
    exact ⟨opened_of_transitionable htransition, rfl, .inr rfl⟩

/-- A quarantine changes nothing, or puts a job out of service that is as it was expected. -/
theorem quarantine_cases (q : Quarantine) (k : Job) (s : Store) :
    (quarantine q k s).2 = s ∧ (quarantine q k s).1 ≠ .moved ∨
      ∃ j row, s.jobs k.id = some j ∧ k.fence = j.fence ∧ j.terminal = none ∧ row.id = j.id ∧
        (row.primaryState = .lost ∨ row.primaryState = .blocked) ∧
        quarantine q k s = (.moved, s.put { j with toJobRow := row } s.markers) := by
  unfold quarantine
  split
  · exact .inl ⟨rfl, by simp⟩
  · rename_i j hj
    split
    · exact .inl ⟨rfl, by simp⟩
    · rename_i hfence
      split
      · exact .inl ⟨rfl, by simp⟩
      · rename_i row hrow
        obtain ⟨hopen, hid, hout⟩ := quarantine_attempt hrow
        exact .inr ⟨j, row, hj, not_not.mp hfence, hopen, hid, hout, rfl⟩

/-- A recovery was committed. -/
def Recovery.done : Recovery → Prop
  | committed _ => True
  | _ => False

theorem commit_attempt {cas : LeaseCas} {failure : Jobs.FailureClass} {decision : RecoveryDecision}
    {reasonCode : String} {nextEligibleAt : Option Time} {expected : Option JobRow}
    {consumed : Bool} {r row : JobRow} {js : Journal}
    (h : (Primitive.commitRecovery cas failure decision reasonCode nextEligibleAt expected
      consumed).attempt now js r = some row) :
    r.primaryState = .running ∧ r.terminal = none ∧ r.leaseIsCurrent cas now ∧
      row.id = r.id ∧ recovered r reasonCode nextEligibleAt decision = some row := by
  simp only [Primitive.attempt, Option.ite_none_right_eq_some, Bool.and_eq_true,
    decide_eq_true_eq] at h
  obtain ⟨⟨⟨⟨⟨-, hopen⟩, hrunning⟩, hcurrent⟩, -⟩, hrow⟩ := h
  refine ⟨hrunning, hopen, hcurrent, ?_, hrow⟩
  rcases recovered_cases hrow with ⟨-, rfl⟩ | ⟨-, rfl⟩ | rfl | rfl <;> rfl

/-- A commit changes nothing, or recovers a job that this instance holds. -/
theorem commit_cases (own : String) (epoch : ℕ) (jobId : String) (d : Decided) (s : Store) :
    (commitRecoveryDecision own epoch jobId d s).2 = s ∧
        ¬(commitRecoveryDecision own epoch jobId d s).1.done ∨
      ∃ j row attemptNo, s.jobs jobId = some j ∧ j.primaryState = .running ∧ j.terminal = none ∧
        j.leaseIsCurrent ⟨own, epoch⟩ s.surroundings.now = true ∧ row.id = j.id ∧
        recovered j.toJobRow (reasonCodeForFailure d.failure) d.nextEligibleAt d.decision =
          some row ∧
        commitRecoveryDecision own epoch jobId d s = (.committed d.decision,
          s.put { j with toJobRow := row, attemptNo := attemptNo }
            (s.markers ++ [(jobId, d.processId)])) := by
  unfold commitRecoveryDecision
  split
  · exact .inl ⟨rfl, fun h => h⟩
  · split
    · exact .inl ⟨rfl, fun h => h⟩
    · rename_i j hj
      simp only
      split
      · exact .inl ⟨rfl, fun h => h⟩
      · rename_i row hrow
        obtain ⟨hrunning, hopen, hcurrent, hid, hrec⟩ := commit_attempt hrow
        exact .inr ⟨j, row, _, hj, hrunning, hopen, hcurrent, hid, hrec, rfl⟩

theorem Moved.stopped {j' : Job} (h : Moved own seen s j j') : j'.primaryState ≠ .running := by
  rcases h.outcome with hlost | hblocked | ⟨_, _, _, hrec⟩
  · rw [hlost]
    decide
  · rw [hblocked]
    decide
  · rcases recovered_cases hrec with ⟨-, h⟩ | ⟨-, h⟩ | h | h <;> rw [h] <;>
      exact fun hstate => by cases hstate

theorem completeLease_congr {a b : JobRow} (h : a.fence = b.fence) :
    completeLease a = completeLease b := by
  simp only [JobRow.fence, Prod.mk.injEq] at h
  obtain ⟨-, howner, hepoch, hexpires, -⟩ := h
  simp only [completeLease, howner, hepoch, hexpires]

/-- The row that is written has the key of the one it replaces. -/
theorem moves_put {row : JobRow} (attemptNo : ℕ)
    (hj : s.jobs jobId = some j) (hid : row.id = j.id)
    (hmoved : Moved own seen s j { j with toJobRow := row, attemptNo := attemptNo })
    (hmarkers : markers = s.markers ∨ ∃ processId, markers = s.markers ++ [(jobId, processId)]) :
    Moves own jobId seen s
      (s.put { j with toJobRow := row, attemptNo := attemptNo } markers) where
  job := by
    refine ⟨j, _, hj, ?_, hmoved⟩
    have hkey := s.keyed jobId j hj
    rw [← hkey, ← hid]
    exact put_self
  others id hne := put_of_ne fun h => hne (h.trans (hid.trans (s.keyed jobId j hj)))
  order := rfl
  registry := rfl
  surroundings := rfl
  markers := hmarkers

/-- **A quarantine of a job that was scanned is lawful**, if its lease had expired where it was
complete. -/
theorem lawful_quarantine (q : Quarantine) (hk : Scanned.row k ∈ seen)
    (hrunning : k.primaryState = .running)
    (hexpired : ∀ owner expires, completeLease k.toJobRow = some (owner, expires) →
      ∃ now, Scanned.clock now ∈ seen ∧ expires ≤ now) :
    Lawful own k.id seen s (quarantine q k s).2 := by
  rcases quarantine_cases q k s with ⟨hsame, -⟩ | ⟨j, row, hj, hfence, hopen, hid, hout, heq⟩
  · exact .inl hsame
  · rw [heq]
    have hstate : k.primaryState = j.primaryState := congrArg Prod.fst hfence
    have hepoch : k.leaseEpoch = j.leaseEpoch := congrArg (fun f => f.2.2.1) hfence
    refine .inr (moves_put j.attemptNo hj hid ⟨hstate.symm.trans hrunning, hopen,
      fun owner expires hlease _ => hexpired owner expires ?_, hout.imp_right .inl,
      k, hk, (s.keyed _ j hj).symm, hrunning, hepoch, .inl hfence⟩ (.inl rfl))
    rw [completeLease_congr hfence]
    exact hlease

/-- **A commit under the lease that was scanned is lawful.** -/
theorem lawful_commit {d : Decided} (hk : Scanned.row k ∈ seen)
    (hrunning : k.primaryState = .running) :
    Lawful own k.id seen s (commitRecoveryDecision own k.leaseEpoch k.id d s).2 := by
  rcases commit_cases own k.leaseEpoch k.id d s with ⟨hsame, -⟩ |
    ⟨j, row, attemptNo, hj, hrun, hopen, hcurrent, hid, hrec, heq⟩
  · exact .inl hsame
  · rw [heq]
    have hlease := hcurrent
    simp only [JobRow.leaseIsCurrent, Bool.and_eq_true, decide_eq_true_eq] at hlease
    refine .inr (moves_put _ hj hid ⟨hrun, hopen, fun owner expires hcomplete hne => ?_,
      .inr (.inr ⟨_, _, _, hrec⟩), k, hk, (s.keyed _ j hj).symm, hrunning, hlease.1.2.symm,
      .inr hcurrent⟩ (.inr ⟨_, rfl⟩))
    -- the lease is this instance's own
    rw [completeLease, hlease.1.1] at hcomplete
    split at hcomplete
    · rename_i o _ ho _
      split at hcomplete
      · have howner := congrArg Prod.fst (Option.some.inj hcomplete)
        exact absurd (howner.symm.trans (Option.some.inj ho).symm) hne
      · cases hcomplete
    · cases hcomplete

/-! ### The looks -/

theorem quiet_processVerdict : Quiet (processVerdict jobId) :=
  (quiet_read _).bind fun _ => (quiet_read _).bind fun _ => quiet_pure _

theorem quiet_boundTerminalEvidence : Quiet (boundTerminalEvidence jobId) := by
  refine (quiet_read _).bind fun row => ?_
  cases row with
  | none => exact quiet_pure _
  | some row =>
    simp only
    split
    · exact quiet_pure _
    · exact (quiet_read _).bind fun _ => (quiet_read _).bind fun _ => quiet_pure _

theorem quiet_worktreeRecoveryVerdict : Quiet (worktreeRecoveryVerdict jobId) := by
  refine (quiet_read _).bind fun ev => ?_
  cases ev with
  | none => exact quiet_pure _
  | some ev =>
    simp only
    split
    · exact quiet_pure _
    · cases ev.canonicalWorktreePath with
      | none => exact quiet_pure _
      | some path =>
        simp only
        split
        · exact quiet_pure _
        · exact (quiet_read _).bind fun _ => (quiet_read _).bind fun _ =>
            (quiet_read _).bind fun _ => quiet_pure _

/-! ### What the programs obey -/

/-- A row that runs was scanned, and so was the clock. -/
structure Ready (now : Time) (seen : List Scanned) (k : Job) : Prop where
  row : Scanned.row k ∈ seen
  clock : Scanned.clock now ∈ seen
  running : k.primaryState = .running

theorem Ready.more (h : Ready now seen k) (more : List Scanned) : Ready now (more ++ seen) k :=
  ⟨List.mem_append_right _ h.row, List.mem_append_right _ h.clock, h.running⟩

theorem obeys_quiet {ρ : Type} {c : Pass ρ} (h : Quiet c) : Obeys (Lawful own jobId) seen c :=
  h.obeys fun _ _ => Lawful.refl

theorem obeys_classifyAndRecover (h : Ready now seen k) :
    Obeys (Lawful own k.id) seen (classifyAndRecover policy own k.id k.leaseEpoch) := by
  refine Obeys.bind (obeys_quiet (quiet_read _)) fun row more => ?_
  cases row with
  | none => exact obeys_pure _
  | some row =>
    simp only
    split
    · exact obeys_pure _
    · refine Obeys.bind (obeys_quiet quiet_boundTerminalEvidence) fun reg more' => ?_
      cases reg with
      | none => exact obeys_pure _
      | some reg =>
        refine Obeys.bind (obeys_quiet (quiet_read _)) fun consumed more'' => ?_
        split
        · exact obeys_pure _
        · split
          · refine Obeys.bind (obeys_quiet (quiet_read _)) fun clock last => ?_
            have hready := (((h.more more).more more').more more'').more last
            exact obeys_perform fun s => lawful_commit hready.row hready.running
          · exact obeys_pure _

/-- How a row is classified that is found to have changed, as long as it is the same job. -/
def Again (own : String) (now : Time) (jobId : String)
    (again : Job → Pass (Option (Kind × Detail))) : Prop :=
  ∀ j seen, j.id = jobId → Ready now seen j → Obeys (Lawful own jobId) seen (again j)

theorem obeys_reread (hclock : Scanned.clock now ∈ seen) (hagain : Again own now jobId again) :
    Obeys (Lawful own jobId) seen (reread again jobId) := by
  refine Obeys.scan_bind (fun s => Lawful.refl) fun s => ?_
  cases hj : s.jobs jobId with
  | none => exact obeys_pure _
  | some j =>
    simp only
    split
    · exact obeys_pure _
    · split
      · exact obeys_pure _
      · rename_i hrunning
        exact hagain j _ (s.keyed jobId j hj) ⟨List.mem_cons_self, List.mem_append_right _ hclock,
          not_not.mp hrunning⟩

theorem obeys_quarantineOr
    (h : Ready now seen k) (hagain : Again own now k.id again)
    (hexpired : ∀ owner expires, completeLease k.toJobRow = some (owner, expires) →
      expires ≤ now) :
    Obeys (Lawful own k.id) seen (quarantineOr again q k kind detail) := by
  refine Obeys.bind (obeys_perform fun s => lawful_quarantine q h.row h.running
    fun owner expires hlease => ⟨now, h.clock, hexpired owner expires hlease⟩) fun r more => ?_
  cases r with
  | moved | raised => exact obeys_pure _
  | stale => exact obeys_reread (List.mem_append_right _ h.clock) hagain

theorem obeys_classifyLease (h : Ready now seen k) (hagain : Again own now k.id again) :
    Obeys (Lawful own k.id) seen (classifyLease own now again k) := by
  unfold classifyLease
  cases hlease : completeLease k.toJobRow with
  | none =>
    exact obeys_quarantineOr h hagain fun owner expires hsome => by
      rw [hlease] at hsome
      cases hsome
  | some lease =>
    obtain ⟨owner, expires⟩ := lease
    simp only
    split
    · split <;> exact obeys_pure _
    · rename_i hpast
      have hexpired : ∀ owner expires, completeLease k.toJobRow = some (owner, expires) →
          expires ≤ now := by
        intro o t hsome
        obtain ⟨rfl, rfl⟩ := Prod.mk.inj (Option.mem_unique hlease hsome)
        exact not_lt.mp hpast
      refine Obeys.bind (obeys_quiet quiet_processVerdict) fun verdict more => ?_
      cases verdict with
      | alive => exact obeys_pure _
      | unknown => exact obeys_quarantineOr (h.more more) hagain hexpired
      | terminal =>
        refine Obeys.bind (obeys_quiet quiet_worktreeRecoveryVerdict) fun worktree more' => ?_
        have hready := (h.more more).more more'
        rcases worktree with _ | _ | _ | _ | _ | _
        · exact obeys_pure _
        · exact obeys_quarantineOr hready hagain hexpired
        · exact obeys_pure _
        iterate 3 · exact obeys_quarantineOr hready hagain hexpired

/-- **The classification of a row that was scanned moves its job only as is lawful.** -/
theorem obeys_classifyRunning (left : ℕ) :
    Again own now jobId (classifyRunning policy own now left) := by
  induction left with
  | zero => exact fun _ _ _ _ => obeys_pure _
  | succ left ih =>
    rintro k seen rfl h
    refine Obeys.bind (obeys_quiet quiet_boundTerminalEvidence) fun reg more => ?_
    cases reg with
    | none => exact obeys_classifyLease (h.more more) ih
    | some _ =>
      refine Obeys.bind (obeys_classifyAndRecover (h.more more)) fun r more' => ?_
      cases r with
      | committed _ | raised => exact obeys_pure _
      | none => exact obeys_classifyLease ((h.more more).more more') ih

theorem obeys_reconcileRow (hk : Scanned.row k ∈ seen) (hclock : Scanned.clock now ∈ seen) :
    Obeys (Lawful own k.id) seen (reconcileRow policy own now k) := by
  unfold reconcileRow
  split
  · exact obeys_pure _
  · split
    · exact obeys_pure _
    · rename_i hrunning
      exact obeys_classifyRunning 3 k seen rfl ⟨hk, hclock, not_not.mp hrunning⟩

/-- What is asked of an action of the whole pass. -/
def Conservative (own : String) (seen : List Scanned) (s s' : Store) : Prop :=
  ∃ jobId, Lawful own jobId seen s s'

theorem obeys_reconcileRows (rows : List Job) (seen : List Scanned)
    (hrows : ∀ k ∈ rows, Scanned.row k ∈ seen) (hclock : Scanned.clock now ∈ seen) :
    Obeys (Conservative own) seen (reconcileRows policy own now rows) := by
  induction rows generalizing seen with
  | nil => exact obeys_pure _
  | cons k rows ih =>
    refine Obeys.bind ((obeys_reconcileRow (hrows k List.mem_cons_self) hclock).imp
      fun _ _ _ h => ⟨k.id, h⟩) fun r more => ?_
    cases r with
    | none => exact obeys_pure _
    | some detail =>
      refine Obeys.bind (ih (more ++ seen) (fun j hj => ?_) (List.mem_append_right _ hclock))
        fun _ _ => obeys_pure _
      exact List.mem_append_right _ (hrows j (List.mem_cons_of_mem k hj))

/-- **Every action of the reconciliation is conservative.** -/
theorem obeys_reconcileAfterRestart :
    Obeys (Conservative own) [] (reconcileAfterRestart policy own) := by
  refine Obeys.scan_bind (fun s => ⟨"", Lawful.refl⟩) fun s => ?_
  refine Obeys.scan_bind (fun s => ⟨"", Lawful.refl⟩) fun s' => ?_
  refine obeys_reconcileRows _ _ (fun k hk => ?_) List.mem_cons_self
  exact List.mem_append_right _ (List.mem_append_left _ (List.mem_map_of_mem hk))

/-! ### The same evidence -/

structure SameView (jobId : String) (s t : Store) : Prop where
  jobs : s.jobs jobId = t.jobs jobId
  registry : s.registry = t.registry
  markers : ∀ processId, (jobId, processId) ∈ s.markers ↔ (jobId, processId) ∈ t.markers
  surroundings : s.surroundings = t.surroundings

theorem SameView.refl (jobId : String) (s : Store) : SameView jobId s s :=
  ⟨rfl, rfl, fun _ => Iff.rfl, rfl⟩

theorem SameView.trans (h : SameView jobId s t) {u : Store} (h' : SameView jobId t u) :
    SameView jobId s u :=
  ⟨h.jobs.trans h'.jobs, h.registry.trans h'.registry,
    fun p => (h.markers p).trans (h'.markers p), h.surroundings.trans h'.surroundings⟩

theorem SameView.put (h : SameView jobId s t) (hid : j.id = jobId)
    {m m' : List (String × String)}
    (hmarkers : ∀ processId, (jobId, processId) ∈ m ↔ (jobId, processId) ∈ m') :
    SameView jobId (s.put j m) (t.put j m') := by
  subst hid
  exact ⟨put_self.trans put_self.symm, h.registry, hmarkers, h.surroundings⟩

theorem Moves.sameView (h : Moves own jobId seen s s') (hne : id ≠ jobId) : SameView id s s' where
  jobs := (h.others id hne).symm
  registry := h.registry.symm
  markers processId := by
    rcases h.markers with heq | ⟨p, heq⟩ <;> rw [heq]
    rw [List.mem_append, List.mem_singleton]
    refine ⟨.inl, fun hmem => hmem.resolve_right fun hpair => hne (Prod.mk.inj hpair).1⟩
  surroundings := h.surroundings.symm

theorem couples_processVerdict : Couples (SameView jobId) (processVerdict jobId) := by
  refine Couples.bind (couples_read fun s t h => ?_) fun _ =>
    Couples.bind (couples_read fun s t h => ?_) fun _ => couples_pure _
  · rw [Store.registrations, Store.registrations, h.registry]
  · rw [h.surroundings]

theorem couples_boundTerminalEvidence :
    Couples (SameView jobId) (boundTerminalEvidence jobId) := by
  refine Couples.bind (couples_read fun s t h => h.jobs) fun row => ?_
  cases row with
  | none => exact couples_pure _
  | some row =>
    simp only
    split
    · exact couples_pure _
    · refine Couples.bind (couples_read fun s t h => ?_) fun _ =>
        Couples.bind (couples_read fun s t h => ?_) fun _ => couples_pure _
      · rw [h.surroundings]
      · rw [Store.registrations, Store.registrations, h.registry]

theorem couples_worktreeRecoveryVerdict :
    Couples (SameView jobId) (worktreeRecoveryVerdict jobId) := by
  have hout : ∀ {β : Type} (f : Surroundings → β),
      Couples (SameView jobId) (read fun s => f s.surroundings : Pass β) := fun f =>
    couples_read fun s t h => congrArg f h.surroundings
  refine Couples.bind (couples_read fun s t h => h.jobs) fun ev => ?_
  cases ev with
  | none => exact couples_pure _
  | some ev =>
    simp only
    split
    · exact couples_pure _
    · cases ev.canonicalWorktreePath with
      | none => exact couples_pure _
      | some path =>
        simp only
        split
        · exact couples_pure _
        · exact (hout fun e => e.repoIdentity path).bind fun _ =>
            (hout fun e => e.head path).bind fun _ => (hout fun e => e.dirty path).bind fun _ =>
              couples_pure _

theorem couples_quarantine (q : Quarantine) (h : SameView k.id s t) :
    (quarantine q k s).1 = (quarantine q k t).1 ∧
      SameView k.id (quarantine q k s).2 (quarantine q k t).2 := by
  unfold quarantine
  rw [h.jobs, h.surroundings]
  cases hj : t.jobs k.id with
  | none => exact ⟨rfl, h⟩
  | some j =>
    simp only
    split
    · exact ⟨rfl, h⟩
    · cases hrow : (q.op k.toJobRow).attempt t.surroundings.now [] j.toJobRow with
      | none => exact ⟨rfl, h⟩
      | some row =>
        exact ⟨rfl, h.put ((quarantine_attempt hrow).2.1.trans (t.keyed _ j hj)) h.markers⟩

theorem couples_commit (epoch : ℕ) (d : Decided) (h : SameView jobId s t) :
    (commitRecoveryDecision own epoch jobId d s).1 =
        (commitRecoveryDecision own epoch jobId d t).1 ∧
      SameView jobId (commitRecoveryDecision own epoch jobId d s).2
        (commitRecoveryDecision own epoch jobId d t).2 := by
  have hconsumed : decide ((jobId, d.processId) ∈ s.markers) =
      decide ((jobId, d.processId) ∈ t.markers) := decide_eq_decide.mpr (h.markers _)
  unfold commitRecoveryDecision
  split
  · exact ⟨rfl, h⟩
  · rw [h.jobs, h.surroundings]
    cases hj : t.jobs jobId with
    | none => exact ⟨rfl, h⟩
    | some j =>
      simp only [hconsumed]
      cases hrow : (Primitive.commitRecovery ⟨own, epoch⟩ d.failure d.decision
        (reasonCodeForFailure d.failure) d.nextEligibleAt none
        (decide ((jobId, d.processId) ∈ t.markers))).attempt t.surroundings.now [] j.toJobRow with
      | none => exact ⟨rfl, h⟩
      | some row =>
        refine ⟨rfl, h.put ((commit_attempt hrow).2.2.2.1.trans (t.keyed _ j hj)) fun p => ?_⟩
        rw [List.mem_append, List.mem_append, h.markers]

theorem couples_classifyAndRecover (epoch : ℕ) :
    Couples (SameView jobId) (classifyAndRecover policy own jobId epoch) := by
  refine Couples.bind (couples_read fun s t h => h.jobs) fun row => ?_
  cases row with
  | none => exact couples_pure _
  | some row =>
    simp only
    split
    · exact couples_pure _
    · refine couples_boundTerminalEvidence.bind fun reg => ?_
      cases reg with
      | none => exact couples_pure _
      | some reg =>
        refine Couples.bind (couples_read fun s t h => decide_eq_decide.mpr (h.markers _))
          fun consumed => ?_
        split
        · exact couples_pure _
        · split
          · refine Couples.bind (couples_read fun s t h => congrArg _ h.surroundings)
              fun clock => ?_
            exact couples_perform fun s t h => couples_commit _ _ h
          · exact couples_pure _

/-- The same of a row that is classified again. -/
def AgainCouples (jobId : String) (again : Job → Pass (Option (Kind × Detail))) : Prop :=
  ∀ j, j.id = jobId → Couples (SameView jobId) (again j)

theorem couples_quarantineOr
    (hagain : AgainCouples k.id again) :
    Couples (SameView k.id) (quarantineOr again q k kind detail) := by
  refine Couples.bind (couples_perform fun s t h => couples_quarantine q h) fun r => ?_
  cases r with
  | moved | raised => exact couples_pure _
  | stale =>
    refine couples_scan_bind (fun s t h => h.jobs) fun s => ?_
    cases hj : s.jobs k.id with
    | none => exact couples_pure _
    | some j =>
      simp only
      split
      · exact couples_pure _
      · split
        · exact couples_pure _
        · exact hagain j (s.keyed k.id j hj)

theorem couples_classifyLease (hagain : AgainCouples k.id again) :
    Couples (SameView k.id) (classifyLease own now again k) := by
  unfold classifyLease
  split
  · exact couples_quarantineOr hagain
  · simp only
    split
    · split <;> exact couples_pure _
    · refine couples_processVerdict.bind fun verdict => ?_
      cases verdict with
      | alive => exact couples_pure _
      | unknown => exact couples_quarantineOr hagain
      | terminal =>
        refine couples_worktreeRecoveryVerdict.bind fun worktree => ?_
        rcases worktree with _ | _ | _ | _ | _ | _ <;>
          first | exact couples_pure _ | exact couples_quarantineOr hagain

/-- **The classification of a job goes by what is seen of it.** -/
theorem couples_classifyRunning (left : ℕ) :
    AgainCouples jobId (classifyRunning policy own now left) := by
  induction left with
  | zero => exact fun _ _ => couples_pure _
  | succ left ih =>
    rintro k rfl
    refine couples_boundTerminalEvidence.bind fun reg => ?_
    cases reg with
    | none => exact couples_classifyLease ih
    | some _ =>
      refine (couples_classifyAndRecover _).bind fun r => ?_
      cases r with
      | committed _ | raised => exact couples_pure _
      | none => exact couples_classifyLease ih

/-! ### The end of a change -/

/-- Nothing has been raised. -/
def Answered (r : Option (Kind × Detail)) : Prop := r.isSome = true

theorem closing_classifyAndRecover (epoch : ℕ) :
    Closing Recovery.done (classifyAndRecover policy own jobId epoch) := by
  refine (quiet_read _).closing_bind fun row => ?_
  cases row with
  | none => exact closing_pure _
  | some row =>
    simp only
    split
    · exact closing_pure _
    · refine quiet_boundTerminalEvidence.closing_bind fun reg => ?_
      cases reg with
      | none => exact closing_pure _
      | some reg =>
        refine (quiet_read _).closing_bind fun consumed => ?_
        split
        · exact closing_pure _
        · split
          · refine (quiet_read _).closing_bind fun clock => closing_perform fun s => ?_
            rcases commit_cases own epoch jobId _ s with ⟨hsame, -⟩ |
              ⟨_, _, _, -, -, -, -, -, -, heq⟩
            · exact .inl hsame
            · rw [heq]
              exact .inr trivial
          · exact closing_pure _

theorem closing_quarantineOr
    (hagain : ∀ j, Closing Answered (again j)) :
    Closing Answered (quarantineOr again q k kind detail) := by
  refine Closing.bind (Q := fun r => r = .moved) (closing_perform fun s => ?_)
    (fun r hr => ?_) fun r => ?_
  · rcases quarantine_cases q k s with ⟨hsame, -⟩ | ⟨_, _, -, -, -, -, -, heq⟩
    · exact .inl hsame
    · rw [heq]
      exact .inr rfl
  · rw [hr]
    exact ⟨_, rfl, rfl⟩
  · cases r with
    | moved | raised => exact closing_pure _
    | stale =>
      refine (quiet_scan _ _).closing_bind fun j => ?_
      cases j with
      | none => exact closing_pure _
      | some j =>
        simp only
        split
        · exact closing_pure _
        · split
          · exact closing_pure _
          · exact hagain j

theorem closing_classifyLease (hagain : ∀ j, Closing Answered (again j)) :
    Closing Answered (classifyLease own now again k) := by
  unfold classifyLease
  split
  · exact closing_quarantineOr hagain
  · simp only
    split
    · split <;> exact closing_pure _
    · refine quiet_processVerdict.closing_bind fun verdict => ?_
      cases verdict with
      | alive => exact closing_pure _
      | unknown => exact closing_quarantineOr hagain
      | terminal =>
        refine quiet_worktreeRecoveryVerdict.closing_bind fun worktree => ?_
        rcases worktree with _ | _ | _ | _ | _ | _ <;>
          first | exact closing_pure _ | exact closing_quarantineOr hagain

/-- A job that is moved is the last thing its classification does, and nothing is raised then. -/
theorem closing_classifyRunning (left : ℕ) (k : Job) :
    Closing Answered (classifyRunning policy own now left k) := by
  induction left generalizing k with
  | zero => exact closing_pure _
  | succ left ih =>
    refine quiet_boundTerminalEvidence.closing_bind fun reg => ?_
    cases reg with
    | none => exact closing_classifyLease ih
    | some _ =>
      refine Closing.bind (closing_classifyAndRecover _) (fun r hr => ?_) fun r => ?_
      · cases r with
        | committed decision => exact ⟨_, rfl, rfl⟩
        | raised | none => cases hr
      · cases r with
        | committed _ | raised => exact closing_pure _
        | none => exact closing_classifyLease ih

/-! ### Alone -/

/-- What the classification of a job does to the store: nothing, or the job has run and does no
longer, and the others are as they were. -/
def Settles (jobId : String) (s s' : Store) : Prop :=
  s' = s ∨ (∃ j, s.jobs jobId = some j ∧ j.primaryState = .running) ∧
    (∃ j, s'.jobs jobId = some j ∧ j.primaryState ≠ .running) ∧ ∀ id, id ≠ jobId → SameView id s s'

theorem Lawful.settles (h : Lawful own jobId seen s s') : Settles jobId s s' := by
  rcases h with hsame | hmoves
  · exact .inl hsame
  · obtain ⟨j, j', hj, hj', hmoved⟩ := hmoves.job
    exact .inr ⟨⟨j, hj, hmoved.running⟩, ⟨j', hj', hmoved.stopped⟩,
      fun _ hne => hmoves.sameView hne⟩

theorem Settles.trans {u : Store} (h : Settles jobId s t) (h' : Settles jobId t u) :
    Settles jobId s u := by
  rcases h with rfl | ⟨hran, ⟨j, hj, hstopped⟩, hothers⟩
  · exact h'
  · rcases h' with rfl | ⟨⟨j', hj', hruns⟩, -, -⟩
    · exact .inr ⟨hran, ⟨j, hj, hstopped⟩, hothers⟩
    · obtain rfl := Option.mem_unique hj hj'
      exact absurd hruns hstopped

variable (policy own now s) in
theorem settles_reconcileRow (k : Job) : Settles k.id s
    (reconcileRow policy own now k |>.alone s).2 := by
  have hobeys : Obeys (Lawful own k.id) [.row k, .clock now] (reconcileRow policy own now k) :=
    obeys_reconcileRow List.mem_cons_self (by simp)
  exact Obeys.alone (fun _ => .inl rfl) (fun _ _ _ => Settles.trans)
    (hobeys.imp fun _ _ _ => Lawful.settles)

variable (policy own now) in
theorem reconcileRow_of_not_running (h : k.primaryState ≠ .running) :
    ∃ detail, reconcileRow policy own now k = pure (some detail) := by
  unfold reconcileRow
  split
  · exact ⟨_, rfl⟩
  · exact ⟨_, if_pos h⟩

variable (policy own now) in
theorem couples_reconcileRow (k : Job) : Couples (SameView k.id)
    (reconcileRow policy own now k) := by
  unfold reconcileRow
  split
  · exact couples_pure _
  · split
    · exact couples_pure _
    · exact couples_classifyRunning 3 k rfl

variable (policy own now) in
theorem closing_reconcileRow (k : Job) : Closing Answered (reconcileRow policy own now k) := by
  unfold reconcileRow
  split
  · exact closing_pure _
  · split
    · exact closing_pure _
    · exact closing_classifyRunning 3 k

/-- **What has been reconciled is settled**: where the same is seen of the job, it is left as it is,
and what has raised raises again. -/
theorem settled {k' : Job} (hk : s.jobs k.id = some k)
    (hview : SameView k.id (reconcileRow policy own now k |>.alone s).2 t)
    (hk' : t.jobs k.id = some k') :
    (reconcileRow policy own now k' |>.alone t).2 = t ∧
      ((reconcileRow policy own now k |>.alone s).1 = none →
        (reconcileRow policy own now k' |>.alone t).1 = none) := by
  rcases settles_reconcileRow policy own now s k with
    hsame | ⟨⟨j, hj, hruns⟩, ⟨j', hj', hstopped⟩, -⟩
  · rw [hsame] at hview
    obtain rfl := Option.some.inj (hk.symm.trans (hview.jobs.trans hk'))
    obtain ⟨hanswer, hafter⟩ := (couples_reconcileRow policy own now k).alone hview
    refine ⟨?_, fun hnone => hanswer ▸ hnone⟩
    rcases settles_reconcileRow policy own now t k with
      hsame' | ⟨⟨i, hi, hruns⟩, ⟨i', hi', hstopped⟩, -⟩
    · exact hsame'
    · -- the row is the same before and after, so that it runs in both
      rw [hsame] at hafter
      have hrow := hk.symm.trans (hafter.jobs.trans hi')
      rw [← Option.some.inj hrow, Option.mem_unique hk' hi] at hstopped
      exact absurd hruns hstopped
  · obtain rfl := Option.some.inj (hj'.symm.trans (hview.jobs.trans hk'))
    obtain ⟨detail, hrow⟩ := reconcileRow_of_not_running policy own now hstopped
    refine ⟨by rw [hrow]; rfl, fun hnone => ?_⟩
    rcases (closing_reconcileRow policy own now k).alone (s := s) with
      hsame | hsome
    · rw [hsame, hj] at hj'
      exact absurd hruns (Option.some.inj hj' ▸ hstopped)
    · rw [Answered, hnone] at hsome
      cases hsome

/-- The pass over some rows, the first of which has come to this. -/
theorem alone_reconcileRows_cons {rows : List Job} :
    ((reconcileRows policy own now (k :: rows)).alone s).2 =
      if (reconcileRow policy own now k |>.alone s).1 = none then
        (reconcileRow policy own now k |>.alone s).2
      else ((reconcileRows policy own now rows).alone
        (reconcileRow policy own now k |>.alone s).2).2 := by
  rw [reconcileRows, alone_bind]
  cases (reconcileRow policy own now k |>.alone s).1 with
  | none => rfl
  | some detail =>
    simp only [alone_bind, reduceCtorEq, if_false]
    rfl

/-- The pass over some rows leaves the other jobs as they were. -/
theorem sameView_reconcileRows (rows : List Job) (h : ∀ k ∈ rows, id ≠ k.id) :
    SameView id s ((reconcileRows policy own now rows).alone s).2 := by
  induction rows generalizing s with
  | nil => exact SameView.refl id s
  | cons k rows ih =>
    have hrow : SameView id s (reconcileRow policy own now k |>.alone s).2 := by
      rcases settles_reconcileRow policy own now s k with
        hsame | ⟨-, -, hothers⟩
      · rw [hsame]
        exact SameView.refl id s
      · exact hothers id (h k List.mem_cons_self)
    rw [alone_reconcileRows_cons]
    split
    · exact hrow
    · exact hrow.trans (ih fun j hj => h j (List.mem_cons_of_mem k hj))

/-- **A pass over rows that have been reconciled changes nothing.** -/
theorem settled_rows (rows rows' : List Job) (hrows : ∀ k ∈ rows, s.jobs k.id = some k)
    (hnodup : (rows.map fun k => k.id).Nodup)
    (hview : ∀ k ∈ rows, SameView k.id ((reconcileRows policy own now rows).alone s).2 t)
    (hrows' : List.Forall₂ (fun k k' => t.jobs k.id = some k') rows rows') :
    ((reconcileRows policy own now rows').alone t).2 = t := by
  induction hrows' generalizing s with
  | nil => rfl
  | @cons k k' rows rows' hk' hrest ih =>
    obtain ⟨hfirst, hnodup⟩ := List.nodup_cons.mp hnodup
    have hne : ∀ j ∈ rows, j.id ≠ k.id := fun j hj heq =>
      hfirst (List.mem_map.mpr ⟨j, hj, heq⟩)
    have hk := hrows k List.mem_cons_self
    rw [alone_reconcileRows_cons] at hview
    have hseen : SameView k.id (reconcileRow policy own now k |>.alone s).2 t := by
      have hview := hview k List.mem_cons_self
      split at hview
      · exact hview
      · exact (sameView_reconcileRows rows fun j hj => (hne j hj).symm).trans hview
    obtain ⟨hsame, hraised⟩ := settled hk hseen hk'
    rw [alone_reconcileRows_cons, hsame]
    split
    · rfl
    · rename_i hanswered
      refine ih (s := (reconcileRow policy own now k |>.alone s).2) (fun j hj => ?_) hnodup
        fun j hj => ?_
      · rcases settles_reconcileRow policy own now s k with
          hsame | ⟨-, -, hothers⟩
        · rw [hsame]
          exact hrows j (List.mem_cons_of_mem k hj)
        · exact (hothers j.id (hne j hj)).jobs.symm.trans (hrows j (List.mem_cons_of_mem k hj))
      · have hview := hview j (List.mem_cons_of_mem k hj)
        rwa [if_neg fun hnone => hanswered (hraised hnone)] at hview

/-! ### The pass -/

/-- The same jobs are there, in the same order, and outside of the tables all is the same. -/
structure SameJobs (s s' : Store) : Prop where
  order : s'.order = s.order
  surroundings : s'.surroundings = s.surroundings
  there : ∀ id, (s'.jobs id).isSome = (s.jobs id).isSome

theorem Conservative.sameJobs (h : Conservative own seen s s') : SameJobs s s' := by
  obtain ⟨jobId, rfl | hmoves⟩ := h
  · exact ⟨rfl, rfl, fun _ => rfl⟩
  · refine ⟨hmoves.order, hmoves.surroundings, fun id => ?_⟩
    by_cases hid : id = jobId
    · obtain ⟨j, j', hj, hj', -⟩ := hmoves.job
      rw [hid, hj, hj']
      rfl
    · rw [hmoves.others id hid]

theorem sameJobs_reconcileAfterRestart :
    SameJobs s ((reconcileAfterRestart policy own).alone s).2 :=
  Obeys.alone (fun _ => ⟨rfl, rfl, fun _ => rfl⟩)
    (fun _ _ _ h h' => ⟨h'.order.trans h.order, h'.surroundings.trans h.surroundings,
      fun id => (h'.there id).trans (h.there id)⟩)
    (obeys_reconcileAfterRestart.imp fun _ _ _ => Conservative.sameJobs)

theorem keys_sublist (s : Store) (ids : List String) :
    ((ids.filterMap s.jobs).map fun k => k.id).Sublist ids := by
  induction ids with
  | nil => exact .slnil
  | cons id ids ih =>
    cases hj : s.jobs id with
    | none =>
      rw [List.filterMap_cons_none hj]
      exact ih.cons id
    | some j =>
      rw [List.filterMap_cons_some hj, List.map_cons, s.keyed id j hj]
      exact ih.cons_cons id

/-- The rows of the same jobs, one beside the other. -/
theorem forall₂_rows (h : ∀ id, (t.jobs id).isSome = (s.jobs id).isSome) (ids : List String) :
    List.Forall₂ (fun k k' => t.jobs k.id = some k') (ids.filterMap s.jobs)
      (ids.filterMap t.jobs) := by
  induction ids with
  | nil => exact .nil
  | cons id ids ih =>
    have hid := h id
    cases hj : s.jobs id with
    | none =>
      rw [hj] at hid
      rw [List.filterMap_cons_none hj, List.filterMap_cons_none (Option.isNone_iff_eq_none.mp
        (by simpa using hid))]
      exact ih
    | some j =>
      rw [hj] at hid
      obtain ⟨j', hj'⟩ := Option.isSome_iff_exists.mp hid
      rw [List.filterMap_cons_some hj, List.filterMap_cons_some hj']
      refine .cons ?_ ih
      rw [s.keyed id j hj]
      exact hj'

/-- **A second pass over the same evidence changes nothing.** -/
theorem reconcile_twice (policy : RecoveryPolicy) (own : String) (s : Store) :
    ((reconcileAfterRestart policy own).alone ((reconcileAfterRestart policy own).alone s).2).2 =
      ((reconcileAfterRestart policy own).alone s).2 := by
  have hpass : ∀ s, ((reconcileAfterRestart policy own).alone s).2 =
      ((reconcileRows policy own s.surroundings.now s.list).alone s).2 := fun s => by
    simp only [reconcileAfterRestart, alone_bind, alone_scan]
  have hjobs : SameJobs s ((reconcileAfterRestart policy own).alone s).2 :=
    sameJobs_reconcileAfterRestart
  set s' := ((reconcileAfterRestart policy own).alone s).2 with hs'
  rw [hpass s', hjobs.surroundings]
  refine settled_rows (s := s) s.list s'.list (fun k hk => ?_)
    (s.nodup.sublist (keys_sublist s s.order)) (fun k _ => ?_) ?_
  · obtain ⟨id, -, hid⟩ := List.mem_filterMap.mp hk
    rw [s.keyed id k hid]
    exact hid
  · rw [← hpass s]
    exact SameView.refl k.id s'
  · rw [Store.list, Store.list, hjobs.order]
    exact forall₂_rows hjobs.there s.order

/-- **Reconciliation after a restart is conservative and idempotent.** Whatever others do to the
store between its actions, each action changes nothing or moves one job as is lawful; and alone, a
second pass with the same evidence changes nothing. -/
theorem reconcile_conservative (policy : RecoveryPolicy) (own : String) :
    (∀ (os : List (Store → Store)) (s : Store),
      ∀ x ∈ taken (reconcileAfterRestart policy own) [] os s, Conservative own x.1 x.2.1 x.2.2) ∧
    ∀ s, ((reconcileAfterRestart policy own).alone
        ((reconcileAfterRestart policy own).alone s).2).2 =
      ((reconcileAfterRestart policy own).alone s).2 :=
  ⟨fun _ _ => Obeys.taken obeys_reconcileAfterRestart, reconcile_twice policy own⟩

end Restart

end ArgentTeam
