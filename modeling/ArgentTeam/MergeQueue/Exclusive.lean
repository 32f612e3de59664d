import ArgentTeam.Broker.Lifecycle

/-!
# Action locks are exclusive

Any number of jobs acquire, release and reclaim locks, and make authoritative transitions of
candidates and requests, while the rows of the jobs are written: leases are claimed, renewed and
taken over, and jobs end. Every operation is a transaction and reads the clock once, on its own;
nothing is assumed about how the readings of two operations compare.
-/

namespace ArgentTeam

open Broker (BrokerDb Columns transitionRowAuthoritative transitionRowAuthoritative_eq_ok)
open MergeQueue (Holder jobHoldsCurrentLease tryAcquireActionLock releaseActionLock
  reclaimStaleActionLock transitionAuthoritative)

namespace ActionLocks

/-! ### Operations -/

/-- An operation on the store. -/
inductive Op
  /-- `try_acquire_action_lock`. -/
  | acquire (name : String) (h : Holder)
  /-- `release_action_lock`. -/
  | release (name : String) (h : Holder)
  /-- `reclaim_stale_action_lock`. -/
  | reclaim (name : String)
  /-- A job row is written: its lease is claimed, renewed, released or taken over, it ends. -/
  | writeJob (id : String) (row : Option SupervisorJob)
  /-- `transition_integration_candidate_authoritative`. -/
  | moveCandidate (name : String) (h : Holder) (id : String) (fromState : CandidateState)
    (revision : ℕ) (write : IntegrationCandidate → IntegrationCandidate)
  /-- `transition_external_action_request_authoritative`. -/
  | moveRequest (name : String) (h : Holder) (id : String) (src dst : RequestState)
    (revision : ℕ) (cols : Columns)
  /-- The candidates, the requests and the approvals are written in another way. -/
  | other (candidates : List IntegrationCandidate) (requests : String → Option RequestRow)
    (approvals : String → Option ApprovalRow)

/-- The tables after an operation, where it goes through. -/
def Op.after? (db : BrokerDb) : Op → Option BrokerDb
  | acquire name h => (tryAcquireActionLock db.toDb name h).map fun r => { db with toDb := r.2 }
  | release name h => some { db with toDb := releaseActionLock db.toDb name h }
  | reclaim name => some { db with toDb := reclaimStaleActionLock db.toDb name }
  | writeJob id row => some { db with jobs := Function.update db.jobs id row }
  | moveCandidate name h id fromState revision write =>
    (transitionAuthoritative db.toDb name h id fromState revision write).map fun queue =>
      { db with toDb := queue }
  | moveRequest name h id src dst revision cols =>
    (transitionRowAuthoritative db name h id src dst revision cols).toOption
  | other candidates requests approvals =>
    some { db with candidates := candidates, requests := requests, approvals := approvals }

/-- An operation, with the reading of the clock that it makes. -/
structure Act where
  reading : Time
  op : Op

/-- The tables as an operation sees them. -/
def seen (db : BrokerDb) (t : Time) : BrokerDb := { db with now := t }

/-- One operation; where it raises, nothing is written. -/
def step (db : BrokerDb) (a : Act) : BrokerDb :=
  (a.op.after? (seen db a.reading)).getD (seen db a.reading)

/-- An operation is an authoritative transition, by a holder under a lock, that goes through. -/
def Commits (db : BrokerDb) (a : Act) (name : String) (h : Holder) : Prop :=
  (∃ id fromState revision write, a.op = .moveCandidate name h id fromState revision write ∧
      (a.op.after? (seen db a.reading)).isSome = true) ∨
    ∃ id src dst revision cols, a.op = .moveRequest name h id src dst revision cols ∧
      (a.op.after? (seen db a.reading)).isSome = true

/-- An operation takes a lock from its holder, as it may: the holder releases it, or has no current
lease at the time the operation has read. -/
def MayLose (db : BrokerDb) (a : Act) (name : String) (h : Holder) : Prop :=
  a.op = .release name h ∨
    (a.op = .reclaim name ∨ ∃ h', h' ≠ h ∧ a.op = .acquire name h') ∧
      jobHoldsCurrentLease (seen db a.reading).toDb h = false

variable {db : BrokerDb} {a : Act} {name : String} {h h' : Holder} {as : List Act}

/-! ### What an operation does to a lock -/

section

variable {q q' : MergeQueue.Db} {lock : String}

theorem current_of_tryAcquire {r : Bool × MergeQueue.Db}
    (hacq : tryAcquireActionLock q name h = some r) : jobHoldsCurrentLease q h := by
  unfold tryAcquireActionLock at hacq
  split at hacq
  next hcur => exact hcur
  · cases hacq

theorem locks_tryAcquire_of_ne {b : Bool} (hacq : tryAcquireActionLock q name h = some (b, q'))
    (hne : lock ≠ name) : q'.locks lock = q.locks lock := by
  unfold tryAcquireActionLock at hacq
  split at hacq
  · split at hacq
    · cases hacq
      exact Function.update_of_ne hne ..
    · split at hacq
      · cases hacq
        rfl
      · split at hacq
        · cases hacq
          rfl
        · cases hacq
          exact Function.update_of_ne hne ..
  · cases hacq

theorem locks_reclaim_of_ne (hne : lock ≠ name) :
    (reclaimStaleActionLock q name).locks lock = q.locks lock := by
  unfold reclaimStaleActionLock
  split
  · rfl
  · split
    · rfl
    · exact Function.update_of_ne hne ..

end

theorem locks_moveRequest {db' : BrokerDb} {id : String} {src dst : RequestState} {revision : ℕ}
    {cols : Columns}
    (hok : transitionRowAuthoritative db name h id src dst revision cols = .ok db') :
    db'.locks = db.locks := by
  obtain ⟨-, -, hok⟩ := transitionRowAuthoritative_eq_ok hok
  obtain ⟨r, -, -, -, -, rfl⟩ := Broker.transitionRow_eq_ok hok
  rfl

theorem locks_moveCandidate {q q' : MergeQueue.Db} {id : String} {fromState : CandidateState}
    {revision : ℕ} {write : IntegrationCandidate → IntegrationCandidate}
    (hok : transitionAuthoritative q name h id fromState revision write = some q') :
    q'.locks = q.locks := by
  unfold transitionAuthoritative at hok
  split at hok
  · exact MergeQueue.locks_transition hok
  · cases hok

/-- **A lock is lost by its own holder's release, or when its holder has no current lease.** -/
theorem mayLose_of_ne (hlock : db.locks name = some h) (hlost : (step db a).locks name ≠ some h) :
    MayLose db a name h := by
  obtain ⟨t, op⟩ := a
  have hseen : (seen db t).locks name = some h := hlock
  cases op with
  | acquire name' h' =>
    cases hacq : tryAcquireActionLock (seen db t).toDb name' h' with
    | none =>
      rw [step, Op.after?, hacq] at hlost
      exact absurd hseen hlost
    | some r =>
      rw [step, Op.after?, hacq] at hlost
      have hstale : jobHoldsCurrentLease (seen db t).toDb h = false := by
        by_contra hcur
        rw [Bool.not_eq_false] at hcur
        exact hlost (MergeQueue.locks_tryAcquire hcur hseen hacq)
      have hname : name = name' := by
        by_contra hne
        exact hlost ((locks_tryAcquire_of_ne hacq hne).trans hseen)
      subst hname
      refine .inr ⟨.inr ⟨h', ?_, rfl⟩, hstale⟩
      rintro rfl
      rw [current_of_tryAcquire hacq] at hstale
      cases hstale
  | release name' h' =>
    by_cases hown : h' = h ∧ name' = name
    · obtain ⟨rfl, rfl⟩ := hown
      exact .inl rfl
    · refine absurd (MergeQueue.locks_release hseen ?_) hlost
      rcases not_and_or.mp hown with hne | hne
      · exact .inl hne
      · exact .inr hne
  | reclaim name' =>
    have hstale : jobHoldsCurrentLease (seen db t).toDb h = false := by
      by_contra hcur
      rw [Bool.not_eq_false] at hcur
      exact hlost (MergeQueue.locks_reclaim hcur hseen)
    have hname : name = name' := by
      by_contra hne
      exact hlost ((locks_reclaim_of_ne hne).trans hseen)
    subst hname
    exact .inr ⟨.inl rfl, hstale⟩
  | moveCandidate name' h' id fromState revision write =>
    cases hmove : transitionAuthoritative (seen db t).toDb name' h' id fromState revision write with
    | none =>
      rw [step, Op.after?, hmove] at hlost
      exact absurd hseen hlost
    | some q =>
      rw [step, Op.after?, hmove] at hlost
      exact absurd ((congrFun (locks_moveCandidate hmove) name).trans hseen) hlost
  | moveRequest name' h' id src dst revision cols =>
    cases hmove : transitionRowAuthoritative (seen db t) name' h' id src dst revision cols with
    | error e =>
      rw [step, Op.after?, hmove] at hlost
      exact absurd hseen hlost
    | ok db' =>
      rw [step, Op.after?, hmove] at hlost
      exact absurd ((congrFun (locks_moveRequest hmove) name).trans hseen) hlost
  | writeJob | other => exact absurd hseen hlost

/-- **An authoritative transition is by the holder of a current lease and the lock.** -/
theorem current_of_commits (hcommits : Commits db a name h) :
    jobHoldsCurrentLease (seen db a.reading).toDb h = true ∧ db.locks name = some h := by
  rcases hcommits with ⟨id, fromState, revision, write, hop, hok⟩ |
    ⟨id, src, dst, revision, cols, hop, hok⟩
  · rw [hop, Op.after?, Option.isSome_map, transitionAuthoritative] at hok
    split at hok
    next hcur => exact hcur
    · cases hok
  · rw [hop, Op.after?] at hok
    cases hmove : transitionRowAuthoritative (seen db a.reading)
      name h id src dst revision cols with
    | error e =>
      rw [hmove] at hok
      cases hok
    | ok db' =>
      obtain ⟨hlease, hlock, -⟩ := transitionRowAuthoritative_eq_ok hmove
      exact ⟨hlease, hlock⟩

theorem locks_of_commits (hcommits : Commits db a name h) : (step db a).locks name = some h := by
  obtain ⟨-, hlock⟩ := current_of_commits hcommits
  by_contra hlost
  have hop : a.op = .release name h ∨ a.op = .reclaim name ∨ ∃ h', a.op = .acquire name h' := by
    rcases mayLose_of_ne hlock hlost with hop | ⟨hop | ⟨h', -, hop⟩, -⟩
    · exact .inl hop
    · exact .inr (.inl hop)
    · exact .inr (.inr ⟨h', hop⟩)
  rcases hcommits with ⟨_, _, _, _, hmove, -⟩ | ⟨_, _, _, _, _, hmove, -⟩ <;> rw [hmove] at hop <;>
    rcases hop with hop | hop | ⟨_, hop⟩ <;> cases hop

/-- A lock that has changed hands was lost in between. -/
theorem exists_loss (hlock : db.locks name = some h)
    (hlost : (Runs.run step db as).locks name ≠ some h) :
    ∃ bs a cs, as = bs ++ a :: cs ∧ (Runs.run step db bs).locks name = some h ∧
      (step (Runs.run step db bs) a).locks name ≠ some h ∧
        MayLose (Runs.run step db bs) a name h := by
  induction as generalizing db with
  | nil => exact absurd hlock hlost
  | cons a as ih =>
    by_cases hkept : (step db a).locks name = some h
    · obtain ⟨bs, a', cs, rfl, hbefore, hafter, hmay⟩ := ih hkept hlost
      exact ⟨a :: bs, a', cs, rfl, hbefore, hafter, hmay⟩
    · exact ⟨[], a, as, rfl, hlock, hkept, mayLose_of_ne hlock hkept⟩

/-- **Action locks are exclusive and authoritative.** After every run from every state, and for
every operation that comes next: a lock is taken from its holder only by its own release, or when
it has no current lease; an authoritative transition is by one who has a current lease and the
lock; and between it and a later one under the same lock by a different holder, however the run
goes on, the first has lost the lock. -/
theorem action_locks_exclusive (db : BrokerDb) (bs : List Act) (a : Act) (name : String)
    (h : Holder) : let s := Runs.run step db bs
      (s.locks name = some h → (step s a).locks name ≠ some h → MayLose s a name h) ∧
        (Commits s a name h →
          jobHoldsCurrentLease (seen s a.reading).toDb h = true ∧ s.locks name = some h ∧
            ∀ ds a' h', h' ≠ h → Commits (Runs.run step (step s a) ds) a' name h' →
              ∃ fs a'' gs, ds = fs ++ a'' :: gs ∧
                (Runs.run step (step s a) fs).locks name = some h ∧
                (step (Runs.run step (step s a) fs) a'').locks name ≠ some h ∧
                MayLose (Runs.run step (step s a) fs) a'' name h) := by
  refine ⟨mayLose_of_ne, fun hcommits => ?_⟩
  obtain ⟨hlease, hlock⟩ := current_of_commits hcommits
  refine ⟨hlease, hlock, ?_⟩
  intro ds a' h' hne hcommits'
  obtain ⟨-, hlock'⟩ := current_of_commits hcommits'
  have hstill : (step (Runs.run step db bs) a).locks name = some h := locks_of_commits hcommits
  refine exists_loss hstill ?_
  rw [hlock']
  exact fun heq => hne (Option.some.inj heq)

end ActionLocks

end ArgentTeam
