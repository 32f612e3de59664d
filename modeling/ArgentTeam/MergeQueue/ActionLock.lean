import ArgentTeam.JobModels
import ArgentTeam.Lib.Runs

/-!
# The lock of a target queue

`process_target` works through the candidates of a target under the action lock of that
target, and hands each of them to `integrate_candidate`, which acquires the lock for itself.
The lock is re-entrant for its holder, but nothing counts how often it was acquired: the
first release gives it up.

A call is followed from one of its transactions to the next, while others acquire, release
and reclaim locks, move candidates, and write job rows. `lock_kept_iff` says that the call has
the lock all the time exactly if no call of `integrate_candidate` that it makes comes to its
end.
-/

namespace ArgentTeam

namespace MergeQueue

/-- Who holds a lock: a job and the epoch of its lease. -/
abbrev Holder := String × ℕ

/-- What the queue depends on besides the database. -/
structure Config where
  integrationLockName : String → String → String
  candidateIdFor : String → String → String → String

/-- The tables of the queue. -/
structure Db where
  now : Time
  jobs : String → Option SupervisorJob
  locks : String → Option Holder
  candidates : List IntegrationCandidate

/-! ### Locks -/

def jobHoldsCurrentLease (db : Db) (h : Holder) : Bool :=
  match db.jobs h.1 with
  | none => false
  | some j =>
    j.terminal.isNone && j.ownerInstanceId.isSome && j.leaseEpoch = h.2 &&
      j.leaseExpiresAt.any (db.now < ·)

/-- `try_acquire_action_lock`: nothing if the caller has no current lease. -/
def tryAcquireActionLock (db : Db) (name : String) (h : Holder) : Option (Bool × Db) :=
  if jobHoldsCurrentLease db h then
    match db.locks name with
    | none => some (true, { db with locks := Function.update db.locks name (some h) })
    | some h' =>
      if h' = h then some (true, db)
      else if jobHoldsCurrentLease db h' then some (false, db)
      else some (true, { db with locks := Function.update db.locks name (some h) })
  else none

def releaseActionLock (db : Db) (name : String) (h : Holder) : Db :=
  if db.locks name = some h then { db with locks := Function.update db.locks name none } else db

def reclaimStaleActionLock (db : Db) (name : String) : Db :=
  match db.locks name with
  | none => db
  | some h =>
    if jobHoldsCurrentLease db h then db
    else { db with locks := Function.update db.locks name none }

/-! ### Candidates -/

def getIntegrationCandidate (db : Db) (id : String) : Option IntegrationCandidate :=
  db.candidates.find? (·.id = id)

/-- The order of the queue: position, then priority, then id. -/
def precedes (a b : IntegrationCandidate) : Prop :=
  a.queuePosition < b.queuePosition ∨ a.queuePosition = b.queuePosition ∧
    (b.priority < a.priority ∨ a.priority = b.priority ∧ a.id ≤ b.id)

instance : DecidableRel precedes := fun _ _ => inferInstanceAs (Decidable (_ ∨ _ ∧ (_ ∨ _ ∧ _)))

def listIntegrationCandidates (db : Db) (repository target : String) :
    List IntegrationCandidate :=
  (db.candidates.filter fun c => c.repository = repository ∧ c.integrationTarget = target)
    |>.insertionSort precedes

/-- `_transition_candidate_locked`: nothing if the state or the revision is another. -/
def transitionIntegrationCandidate (db : Db) (id : String) (fromState : CandidateState)
    (revision : ℕ) (write : IntegrationCandidate → IntegrationCandidate) : Option Db :=
  match getIntegrationCandidate db id with
  | none => none
  | some row =>
    if row.state = fromState ∧ row.revision = revision then
      some { db with candidates := db.candidates.map fun c =>
        if c.id = id then { write c with id := c.id, revision := c.revision + 1 } else c }
    else none

/-- `transition_integration_candidate_authoritative`: refused without the lease and the lock. -/
def transitionAuthoritative (db : Db) (name : String) (h : Holder) (id : String)
    (fromState : CandidateState) (revision : ℕ)
    (write : IntegrationCandidate → IntegrationCandidate) : Option Db :=
  if jobHoldsCurrentLease db h ∧ db.locks name = some h then
    transitionIntegrationCandidate db id fromState revision write
  else none

def dependencySatisfied (cfg : Config) (db : Db) (c : IntegrationCandidate) : Bool :=
  match c.dependsOn with
  | none => true
  | some dep =>
    dep = "" ||
      match getIntegrationCandidate db dep with
      | some d => d.state = .integrated
      | none =>
        match getIntegrationCandidate db
            (cfg.candidateIdFor c.repository c.integrationTarget dep) with
        | some d => d.state = .integrated
        | none => false

/-! ### The order of the queue -/

/-- A candidate that may be integrated next: it depends on nothing, or on something that is
integrated. -/
def free (candidates : List IntegrationCandidate) (c : IntegrationCandidate) : Bool :=
  c.dependsOn.all fun dep => candidates.any fun d => d.id = dep && d.state = .integrated

/-- The loop over the heap: the first in the order comes out, and what depends on it goes in. -/
def takeInOrder (waiting : List IntegrationCandidate) :
    ℕ → List IntegrationCandidate → List IntegrationCandidate
  | 0, _ => []
  | n + 1, heap =>
    match heap.insertionSort precedes with
    | [] => []
    | c :: rest => c :: takeInOrder waiting n (rest ++ waiting.filter (·.dependsOn = some c.id))

def ready (candidates : List IntegrationCandidate) : List IntegrationCandidate :=
  candidates.filter (·.state = .ready)

/-- `deterministic_order`: what is integrated, in this order. -/
def ordered (candidates : List IntegrationCandidate) : List IntegrationCandidate :=
  takeInOrder ((ready candidates).filter (!free candidates ·)) (ready candidates).length
    ((ready candidates).filter (free candidates ·))

/-- `deterministic_order`: the members of a cycle. -/
def blocked (candidates : List IntegrationCandidate) : List IntegrationCandidate :=
  ((ready candidates).filter fun c => c ∉ ordered candidates ∧
    c.dependsOn.any fun dep => (ready candidates).any (·.id = dep))
    |>.insertionSort (·.queuePosition ≤ ·.queuePosition)

/-! ### A call of `process_target` -/

/-- Where a call stands between two of its transactions. -/
inductive Point
  /-- It is about to acquire the lock. -/
  | entry
  /-- It is about to list the candidates for the first time. -/
  | listing
  | evaluating (ids : List String)
  /-- `evaluate_candidate` is about to move a candidate. -/
  | promoting (id : String) (fromState : CandidateState) (revision : ℕ) (toState : CandidateState)
    (error : Option String) (ids : List String)
  /-- It is about to list the candidates again, and to order them. -/
  | ordering
  | blocking (members queue : List IntegrationCandidate)
  /-- It is about to call `integrate_candidate` with the first of these. -/
  | queue (rest : List IntegrationCandidate)
  /-- It is in `_integrate_locked`. -/
  | integrating (c : IntegrationCandidate) (rest : List IntegrationCandidate)
  /-- It is about to release the lock and to return. -/
  | releasing
  | returned

/-- Whether a call has acquired the lock and not come to its last release. -/
def Point.inside : Point → Bool
  | entry | returned => false
  | listing | evaluating _ | promoting .. | ordering | blocking .. | queue _ | integrating ..
  | releasing => true

/-- What `_integrate_locked` does next, as git and the tests have it. -/
inductive Body
  | transition (toState : CandidateState)
  /-- It is over: the state of the outcome, or nothing if it raises. -/
  | ends (outcome : Option CandidateState)

inductive Other (me : Holder)
  /-- `try_acquire_action_lock`. -/
  | acquire (name : String) (h : Holder) (hne : h ≠ me)
  /-- `release_action_lock`. -/
  | release (name : String) (h : Holder) (hne : h ≠ me)
  /-- `reclaim_stale_action_lock`. -/
  | reclaim (name : String)
  | transition (id : String) (toState : CandidateState)
  | writeJob (id : String) (row : Option SupervisorJob)
  | waits (n : ℕ)

/-- Something that happens: the call takes its next step, or others do something. -/
inductive Act (me : Holder)
  /-- The call, with what the review policy says and what `_integrate_locked` does. -/
  | own (reviewError : Option String) (body : Body)
  | other (o : Other me)

/-- A call and the database it runs on. -/
structure Call where
  db : Db
  point : Point

/-- How the loop of `process_target` goes on after an outcome. -/
def afterOutcome (outcome : CandidateState) (locked : Bool)
    (rest : List IntegrationCandidate) : Point :=
  match outcome with
  | .integrated | .stale => .queue rest
  | .conflicted | .failed => .releasing
  | .pending | .ready | .integrating | .blocked => if locked then .releasing else .queue rest

variable (cfg : Config) (repository target : String) (me : Holder)

def lockName : String := cfg.integrationLockName repository target

/-- `evaluate_candidate` up to the transition it makes. -/
def evaluateCandidate (db : Db) (reviewError : Option String) (id : String)
    (ids : List String) : Point :=
  match getIntegrationCandidate db id with
  | none => .releasing
  | some c =>
    if c.state = .pending ∨ c.state = .stale then
      if dependencySatisfied cfg db c then
        match reviewError with
        | some e => .promoting id c.state c.revision .pending (some e) ids
        | none => .promoting id c.state c.revision .ready none ids
      else .promoting id c.state c.revision .pending (some "DEPENDENCY_NOT_INTEGRATED") ids
    else .evaluating ids

/-- `integrate_candidate` up to its lock. -/
def integrateCandidate (db : Db) (id : String) (rest : List IntegrationCandidate) : Call :=
  match getIntegrationCandidate db id with
  | none => ⟨db, .releasing⟩
  | some c =>
    match tryAcquireActionLock db (lockName cfg c.repository c.integrationTarget) me with
    | none => ⟨db, .releasing⟩
    | some (false, db) => ⟨db, afterOutcome c.state true rest⟩
    | some (true, db) => ⟨db, .integrating c rest⟩

/-- `_integrate_locked`: a transition, or the end of `integrate_candidate` with its release. -/
def integrateLocked (db : Db) (c : IntegrationCandidate) (rest : List IntegrationCandidate) :
    Body → Call
  | .transition toState =>
    match transitionAuthoritative db (lockName cfg c.repository c.integrationTarget) me c.id
        c.state c.revision fun row => { row with
          state := toState, holderOwnerInstanceId := some me.1, holderLeaseEpoch := me.2 } with
    | none => ⟨db, .integrating c rest⟩
    | some db => ⟨db, .integrating ((getIntegrationCandidate db c.id).getD c) rest⟩
  | .ends outcome =>
    ⟨releaseActionLock db (lockName cfg c.repository c.integrationTarget) me,
      outcome.elim .releasing (afterOutcome · false rest)⟩

/-- The next transaction of a call. -/
def ownStep (db : Db) (reviewError : Option String) (body : Body) : Point → Call
  | .entry =>
    match tryAcquireActionLock db (lockName cfg repository target) me with
    | none | some (false, _) => ⟨db, .returned⟩
    | some (true, db) => ⟨db, .listing⟩
  | .listing =>
    ⟨db, .evaluating (((listIntegrationCandidates db repository target).filter fun c =>
      c.state = .pending ∨ c.state = .stale).map (·.id))⟩
  | .evaluating [] => ⟨db, .ordering⟩
  | .evaluating (id :: ids) => ⟨db, evaluateCandidate cfg db reviewError id ids⟩
  | .promoting id fromState revision toState error ids =>
    match transitionIntegrationCandidate db id fromState revision fun row =>
        { row with state := toState, lastErrorCode := error } with
    | none => ⟨db, .releasing⟩
    | some db => ⟨db, .evaluating ids⟩
  | .ordering =>
    ⟨db, .blocking (blocked (listIntegrationCandidates db repository target))
      (ordered (listIntegrationCandidates db repository target))⟩
  | .blocking [] queue => ⟨db, .queue queue⟩
  | .blocking (c :: members) queue =>
    ⟨(transitionIntegrationCandidate db c.id c.state c.revision fun row =>
      { row with state := .blocked, lastErrorCode := some "dependency_cycle" }).getD db,
      .blocking members queue⟩
  | .queue [] => ⟨db, .releasing⟩
  | .queue (c :: rest) => integrateCandidate cfg me db c.id rest
  | .integrating c rest => integrateLocked cfg me db c rest body
  | .releasing => ⟨releaseActionLock db (lockName cfg repository target) me, .returned⟩
  | .returned => ⟨db, .returned⟩

/-- What others do to the database. -/
def otherStep {me : Holder} (db : Db) : Other me → Db
  | .acquire name h _ => ((tryAcquireActionLock db name h).map (·.2)).getD db
  | .release name h _ => releaseActionLock db name h
  | .reclaim name => reclaimStaleActionLock db name
  | .transition id toState =>
    { db with candidates := db.candidates.map fun c =>
      if c.id = id then { c with state := toState, revision := c.revision + 1 } else c }
  | .writeJob id row => { db with jobs := Function.update db.jobs id row }
  | .waits n => { db with now := db.now + n }

def step (p : Call) : Act me → Call
  | .own reviewError body => ownStep cfg repository target me p.db reviewError body p.point
  | .other o => ⟨otherStep p.db o, p.point⟩

/-! ### Who has the lock -/

section

variable {cfg : Config} {repository target name lock : String} {me h : Holder} {db db' : Db}
  {b : Bool}

theorem locks_of_tryAcquire (hacq : tryAcquireActionLock db name h = some (true, db')) :
    db'.locks name = some h := by
  unfold tryAcquireActionLock at hacq
  split at hacq
  · cases hl : db.locks name with
    | none =>
      simp only [hl, Option.some.injEq, Prod.mk.injEq, true_and] at hacq
      rw [← hacq]
      exact Function.update_self ..
    | some h' =>
      simp only [hl] at hacq
      split at hacq
      · rename_i heq
        simp only [Option.some.injEq, Prod.mk.injEq, true_and] at hacq
        rw [← hacq, hl, heq]
      · split at hacq
        · simp at hacq
        · simp only [Option.some.injEq, Prod.mk.injEq, true_and] at hacq
          rw [← hacq]
          exact Function.update_self ..
  · cases hacq

/-- A lock that someone with a current lease has stays theirs, whoever acquires a lock. -/
theorem locks_tryAcquire (hcur : jobHoldsCurrentLease db me)
    (hl : db.locks lock = some me) (hacq : tryAcquireActionLock db name h = some (b, db')) :
    db'.locks lock = some me := by
  have hother : name ≠ lock → Function.update db.locks name (some h) lock = some me := by
    intro hne
    rw [Function.update_of_ne hne.symm, hl]
  unfold tryAcquireActionLock at hacq
  split at hacq
  · rcases eq_or_ne name lock with rfl | hne
    · simp only [hl, hcur, if_true] at hacq
      split at hacq <;> (cases hacq; exact hl)
    · split at hacq
      · cases hacq
        exact hother hne
      · split at hacq
        · cases hacq
          exact hl
        · split at hacq
          · cases hacq
            exact hl
          · cases hacq
            exact hother hne
  · cases hacq

theorem locks_release (hl : db.locks lock = some me) (hne : h ≠ me ∨ name ≠ lock) :
    (releaseActionLock db name h).locks lock = some me := by
  unfold releaseActionLock
  split
  · rename_i heq
    have hname : name ≠ lock := by
      intro hname
      rw [hname, hl, Option.some.injEq] at heq
      exact hne.elim (· heq.symm) (· hname)
    exact (Function.update_of_ne hname.symm _ _).trans hl
  · exact hl

theorem locks_reclaim (hcur : jobHoldsCurrentLease db me) (hl : db.locks lock = some me) :
    (reclaimStaleActionLock db name).locks lock = some me := by
  unfold reclaimStaleActionLock
  split
  · exact hl
  · rename_i h' hh'
    split
    · exact hl
    · rename_i hstale
      have hname : name ≠ lock := fun hname => by
        rw [hname, hl, Option.some.injEq] at hh'
        exact hstale (hh' ▸ hcur)
      exact (Function.update_of_ne hname.symm _ _).trans hl

theorem locks_transition {id : String} {fromState : CandidateState} {revision : ℕ}
    {write : IntegrationCandidate → IntegrationCandidate}
    (h : transitionIntegrationCandidate db id fromState revision write = some db') :
    db'.locks = db.locks := by
  unfold transitionIntegrationCandidate at h
  split at h
  · cases h
  · split at h
    · cases h
      rfl
    · cases h

/-- Whatever others do, a lock that someone with a current lease has stays theirs. -/
theorem locks_otherStep (hcur : jobHoldsCurrentLease db me)
    (hl : db.locks lock = some me) (o : Other me) : (otherStep db o).locks lock = some me := by
  cases o with
  | acquire name h hne =>
    cases hacq : tryAcquireActionLock db name h with
    | none => simpa [otherStep, hacq] using hl
    | some r => simpa [otherStep, hacq] using locks_tryAcquire hcur hl hacq
  | release name h hne => exact locks_release hl (.inl hne)
  | reclaim name => exact locks_reclaim hcur hl
  | transition | writeJob | waits => exact hl

end

/-! ### The call -/

variable {cfg repository target me} {p : Call} {as : List (Act me)}

/-- Between the acquisition and the last release, the call has the lock. -/
def Call.LockKept (cfg : Config) (repository target : String) (me : Holder) (p : Call) : Prop :=
  p.point.inside = true → p.db.locks (lockName cfg repository target) = some me

/-- With this step a call of `integrate_candidate` comes to its end. -/
def integrationEnds (cfg : Config) (repository target : String) (p : Call) : Act me → Bool
  | .own _ (.ends _) =>
    match p.point with
    | .integrating c _ =>
      lockName cfg c.repository c.integrationTarget = lockName cfg repository target
    | _ => false
  | _ => false

/-- The lease of the caller is current before and after a step. -/
def LeaseCurrent (cfg : Config) (repository target : String) (p : Call) (a : Act me) : Prop :=
  jobHoldsCurrentLease p.db me = true ∧
    jobHoldsCurrentLease (step cfg repository target me p a).db me = true

theorem inside_afterOutcome {outcome : CandidateState} {locked : Bool}
    {rest : List IntegrationCandidate} : (afterOutcome outcome locked rest).inside := by
  cases outcome <;> cases locked <;> rfl

/-- The end of `integrate_candidate` gives the lock up. -/
theorem not_lockKept_of_integrationEnds {a : Act me}
    (hkept : p.LockKept cfg repository target me)
    (h : integrationEnds cfg repository target p a) :
    ¬(step cfg repository target me p a).LockKept cfg repository target me := by
  obtain ⟨db, point⟩ := p
  obtain ⟨e, body⟩ | o := a
  swap
  · cases h
  obtain _ | outcome := body
  · cases h
  cases point with
  | integrating c rest =>
    have hname : lockName cfg c.repository c.integrationTarget =
        lockName cfg repository target := of_decide_eq_true h
    have hl : db.locks (lockName cfg repository target) = some me := hkept rfl
    intro hstep
    have hin : (step cfg repository target me ⟨db, .integrating c rest⟩
        (.own e (.ends outcome))).point.inside = true := by
      cases outcome with
      | none => rfl
      | some outcome => exact inside_afterOutcome
    -- the row of the lock has been deleted, but the call is still inside
    have := hstep hin
    simp [step, ownStep, integrateLocked, releaseActionLock, hname, hl] at this
  | _ => cases h

/-- Every other step leaves it to the call. -/
theorem lockKept_step {a : Act me} (hlease : LeaseCurrent cfg repository target p a)
    (hkept : p.LockKept cfg repository target me)
    (h : integrationEnds cfg repository target p a = false) :
    (step cfg repository target me p a).LockKept cfg repository target me := by
  obtain ⟨db, point⟩ := p
  obtain ⟨e, body⟩ | o := a
  swap
  · exact fun hin => locks_otherStep hlease.1 (hkept hin) o
  intro hin
  -- the lock is written at the entry, where `integrate_candidate` begins, and where it ends
  cases point with
  | entry =>
    rw [step, ownStep] at hin ⊢
    split at hin <;> simp_all [Point.inside]
    rename_i hacq
    exact locks_of_tryAcquire hacq
  | listing | ordering => exact hkept rfl
  | evaluating ids => cases ids <;> exact hkept rfl
  | promoting id fromState revision toState error ids =>
    rw [step, ownStep]
    split
    · exact hkept rfl
    · rename_i db' hdb'
      exact (congrFun (locks_transition hdb') _).trans (hkept rfl)
  | blocking members queue =>
    cases members with
    | nil => exact hkept rfl
    | cons c members =>
      cases htr : transitionIntegrationCandidate db c.id c.state c.revision fun row =>
          { row with state := .blocked, lastErrorCode := some "dependency_cycle" } with
      | none => simpa [step, ownStep, htr] using hkept rfl
      | some db' =>
        simpa [step, ownStep, htr] using (congrFun (locks_transition htr) _).trans (hkept rfl)
  | queue rest =>
    cases rest with
    | nil => exact hkept rfl
    | cons c rest =>
      rw [step, ownStep, integrateCandidate]
      split
      · exact hkept rfl
      · split
        · exact hkept rfl
        · rename_i hacq
          exact locks_tryAcquire hlease.1 (hkept rfl) hacq
        · rename_i hacq
          exact locks_tryAcquire hlease.1 (hkept rfl) hacq
  | integrating c rest =>
    cases body with
    | transition toState =>
      rw [step, ownStep, integrateLocked]
      split
      · exact hkept rfl
      · rename_i db' hdb'
        rw [transitionAuthoritative] at hdb'
        split at hdb'
        · exact (congrFun (locks_transition hdb') _).trans (hkept rfl)
        · cases hdb'
    | ends outcome => exact locks_release (hkept rfl) (.inr (of_decide_eq_false h))
  | releasing | returned => cases hin

/-- **A call keeps its lock exactly if it never comes back from `integrate_candidate`**: while
the lease of the caller is current, the lock is theirs between all the steps from the
acquisition to the last release exactly if none of the steps ends an integration. -/
theorem lock_kept_iff {db : Db}
    (hlease : Runs.Along (step cfg repository target me) (LeaseCurrent cfg repository target)
      ⟨db, .entry⟩ as) :
    (∀ bs cs, as = bs ++ cs →
      (Runs.run (step cfg repository target me) ⟨db, .entry⟩ bs).LockKept cfg repository target
        me) ↔
      Runs.Along (step cfg repository target me)
        (fun p a => integrationEnds cfg repository target p a = false) ⟨db, .entry⟩ as := by
  refine Runs.forall_split_iff_along_of (fun p a hl hkept => ?_) (fun hin => by cases hin) hlease
  refine ⟨fun h => ?_, lockKept_step hl hkept⟩
  cases hends : integrationEnds cfg repository target p a with
  | false => rfl
  | true => exact absurd h (not_lockKept_of_integrationEnds hkept hends)

/-! ### Two candidates -/

def leased (id : String) : SupervisorJob where
  id := id
  taskId := id
  ownerInstanceId := some "argent"
  leaseEpoch := 1
  leaseExpiresAt := some 100
  terminal := none
  repoIdentity := some "repo"
  baseCommit := none
  branchIdentity := none
  canonicalWorktreePath := none
  expectedHead := none
  currentHead := none
  openFindingsCount := 0
  dependsOn := none

def candidate (id : String) (queuePosition : ℕ) : IntegrationCandidate where
  id := id
  repository := "repo"
  integrationTarget := "main"
  sourceJobId := id
  state := .ready
  queuePosition := queuePosition
  priority := 0
  dependsOn := none
  baseCommit := none
  sourceHead := some "abcdef1"
  sourceBranch := none
  integrationWorktreePath := none
  integrationBranch := none
  integratedHead := none
  mergeClassification := none
  conflictDetail := none
  revision := 0
  holderOwnerInstanceId := none
  holderLeaseEpoch := 0
  resultJson := none
  lastErrorCode := none

/-- Two jobs that may hold the lock, and two candidates. -/
def twoReady : Db where
  now := 0
  jobs id := if id = "a" ∨ id = "b" then some (leased id) else none
  locks _ := none
  candidates := [candidate "ic1" 0, candidate "ic2" 1]

/-- Locks and candidates under readable names. -/
def readable : Config where
  integrationLockName repository target := repository ++ ":integrate:" ++ target
  candidateIdFor _ _ job := job

/-- Job `a` integrates the first candidate, and before it comes to the second, job `b` acquires
the lock. -/
def firstThenOther : List (Act ("a", 1)) :=
  List.replicate 6 (.own none (.ends none)) ++ [.own none (.transition .integrating),
    .own none (.transition .integrated), .own none (.ends (some .integrated)),
    .other (.acquire "repo:integrate:main" ("b", 1) (by decide))]

instance (p : Call) (a : Act me) : Decidable (LeaseCurrent cfg repository target p a) :=
  inferInstanceAs (Decidable (_ ∧ _))

/-- The lock is then held by `b`, although the lease of `a` is current all the time and the call
has not returned. -/
theorem lock_lost_between_candidates :
    Runs.Along (step readable "repo" "main" ("a", 1)) (LeaseCurrent readable "repo" "main")
        ⟨twoReady, .entry⟩ firstThenOther ∧
      ¬∀ bs cs, firstThenOther = bs ++ cs →
        (Runs.run (step readable "repo" "main" ("a", 1)) ⟨twoReady, .entry⟩ bs).LockKept readable
          "repo" "main" ("a", 1) := by
  refine ⟨by decide, fun h => ?_⟩
  have hkept := h firstThenOther [] (List.append_nil _).symm
  exact absurd (hkept (by decide)) (by decide +kernel)

/-- A candidate that waits for another, which is not in the queue. -/
def oneWaiting : Db :=
  { twoReady with candidates := [{ candidate "ic1" 0 with
    state := .pending, dependsOn := some "ic0" }] }

/-- A call that only finds such a candidate evaluates it, and keeps the lock. -/
theorem lock_kept_while_waiting :
    jobHoldsCurrentLease oneWaiting ("a", 1) = true ∧
    ∀ bs cs, List.replicate 9 (Act.own none (.ends none)) = bs ++ cs →
      (Runs.run (step readable "repo" "main" ("a", 1)) ⟨oneWaiting, .entry⟩ bs).LockKept readable
        "repo" "main" ("a", 1) :=
  ⟨by decide, (lock_kept_iff (by decide)).mpr (by decide)⟩

end MergeQueue

end ArgentTeam
