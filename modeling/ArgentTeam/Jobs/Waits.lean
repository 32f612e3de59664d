import ArgentTeam.Jobs.Primitives

/-!
# External waits

A job enters `WAITING_EXTERNAL` together with a row of `external_waits`, in one transaction,
and the two are changed together again when the wait is over. A manager looks at the waits
that are due, on rows it has read some time before: it puts them off, or wakes the job. What
else moves a job does not look at its waits. `waits_iff` says exactly when every waiting job
has one open wait, the latest it has entered, and every other job none.
-/

namespace ArgentTeam

namespace Jobs

open Supervisor

/-! ### The rows -/

/-- What a provider may say of an event. -/
inductive ObsState
  | pending
  | ready
  | failed
  | unknown
  deriving DecidableEq

/-- A row of `external_waits`. -/
structure ExternalWait where
  waitId : String
  jobId : String
  provider : String
  ref : String
  expectedSubject : Option String
  lastObservedState : Option ObsState
  nextCheckAt : Time
  deadlineAt : Option Time
  checkAttempt : ℕ
  eventVersion : ℕ
  terminalObservedAt : Option Time
  deriving DecidableEq

def ExternalWait.isOpen (w : ExternalWait) : Bool := w.terminalObservedAt.isNone

/-- `WaitSpec`, as the manager has accepted it. -/
structure WaitSpec where
  provider : String
  ref : String
  expectedSubject : Option String
  nextCheckAt : Time
  deadlineAt : Option Time

def buildWaitRow (waitId jobId : String) (spec : WaitSpec) : ExternalWait where
  waitId := waitId
  jobId := jobId
  provider := spec.provider
  ref := spec.ref
  expectedSubject := spec.expectedSubject
  lastObservedState := none
  nextCheckAt := spec.nextCheckAt
  deadlineAt := spec.deadlineAt
  checkAttempt := 0
  eventVersion := 0
  terminalObservedAt := none

/-! ### The manager -/

def maxProviderLen : ℕ := 64

def maxRefLen : ℕ := 256

def maxSubjectLen : ℕ := 128

def maxEventVersion : ℤ := 2 ^ 31 - 1

/-- What an adapter returns, not trusted; a state outside the allowlist is `none`. -/
structure WaitObservation where
  provider : String
  ref : String
  state : Option ObsState
  subject : Option String
  eventVersion : ℤ

/-- What comes of asking: there is no adapter, the adapter raises or returns something else,
or it returns an observation. -/
inductive Asked
  | noAdapter
  | adapterError
  | observed (o : WaitObservation)

/-- What the manager does about a wait. -/
inductive Verdict
  | wake (queueReason : QueueReason) (observed : Option ObsState) (eventVersion : ℕ)
  /-- The wait is put off. -/
  | backoff (observed : Option ObsState)

/-- `_validate_observation` has nothing against it. -/
def validObservation (w : ExternalWait) (o : WaitObservation) : Bool :=
  o.provider ≠ "" && o.provider.length ≤ maxProviderLen && o.provider = w.provider &&
    o.ref ≠ "" && o.ref.length ≤ maxRefLen && o.ref = w.ref && o.state.isSome &&
      0 ≤ o.eventVersion && o.eventVersion ≤ maxEventVersion &&
        o.subject.all fun s => s.length ≤ maxSubjectLen

/-- `_process_wait`, of the row the manager has read. -/
def processWait (w : ExternalWait) (now : Time) (asked : Asked) : Verdict :=
  -- the deadline is a local fact, and wins over any observation
  if w.deadlineAt.any fun t => t ≤ now then .wake .waitDeadline none w.eventVersion
  else
    match asked with
    | .noAdapter | .adapterError => .backoff none
    | .observed o =>
      if !validObservation w o then .backoff o.state
      else if o.state = some .pending || o.state = some .unknown then .backoff o.state
      else if w.expectedSubject.isSome && o.subject ≠ w.expectedSubject then .backoff o.state
      else if o.eventVersion ≤ w.eventVersion then .backoff o.state
      else .wake .waitEvent o.state o.eventVersion.toNat

/-! ### The store -/

/-- The jobs by their ids, and the waits in the order in which they were inserted. -/
structure WaitStore where
  jobs : String → Option JobRow
  waits : List ExternalWait
  primaryKey : (waits.map ExternalWait.waitId).Nodup

/-- What happens to the jobs and their waits. -/
inductive WaitAction
  | call (jobId : String) (c : Call)
  /-- `enter_waiting_external`. -/
  | enter (jobId waitId : String) (spec : WaitSpec) (cas : LeaseCas) (now : Time)
  /-- `complete_wait_and_requeue`; whether the fence of the instance holds. -/
  | complete (waitId : String) (queueReason : QueueReason) (observed : Option ObsState)
    (eventVersion : Option ℕ) (fenced : Bool) (now : Time)
  /-- A manager processes a row it has read, and puts it off until the given time if it does
  not wake the job. -/
  | check (read : ExternalWait) (asked : Asked) (nextCheckAt : Time) (now : Time)

namespace WaitStore

variable (t : WaitStore)

def setJob (jobId : String) (j : JobRow) : WaitStore :=
  { t with jobs := fun id => if id = jobId then some j else t.jobs id }

/-- Write the waits with an id. -/
def updateWait (waitId : String) (f : ExternalWait → ExternalWait)
    (hf : ∀ w, (f w).waitId = w.waitId) : WaitStore :=
  { t with
    waits := t.waits.map fun w => if w.waitId = waitId then f w else w
    primaryKey := by
      rw [List.map_map]
      have hsame : (ExternalWait.waitId ∘ fun w => if w.waitId = waitId then f w else w) =
          ExternalWait.waitId := by
        funext w
        simp only [Function.comp]
        split
        · exact hf w
        · rfl
      rw [hsame]
      exact t.primaryKey }

/-- `transition_to_waiting_external`, of a row the manager has built. -/
def enter (jobId waitId : String) (spec : WaitSpec) (cas : LeaseCas) (now : Time) : WaitStore :=
  match t.jobs jobId with
  | none => t
  | some j =>
    match (Primitive.waitExternal cas spec.nextCheckAt).attempt now [] j with
    | none => t
    | some j' =>
      if h : waitId ∈ t.waits.map ExternalWait.waitId then t
      else
        { jobs := (t.setJob jobId j').jobs
          waits := t.waits ++ [buildWaitRow waitId jobId spec]
          primaryKey := by
            rw [List.map_append]
            exact t.primaryKey.append (List.nodup_singleton _)
              (List.disjoint_singleton.mpr h) }

/-- The row of a wait that is over. -/
def closed (observed : Option ObsState) (eventVersion : Option ℕ) (now : Time)
    (w : ExternalWait) : ExternalWait :=
  { w with
    terminalObservedAt := some now
    lastObservedState := observed.or w.lastObservedState
    eventVersion := eventVersion.getD w.eventVersion }

theorem closed_waitId (observed : Option ObsState) (eventVersion : Option ℕ) (now : Time)
    (w : ExternalWait) : (closed observed eventVersion now w).waitId = w.waitId := rfl

theorem closed_jobId (observed : Option ObsState) (eventVersion : Option ℕ) (now : Time)
    (w : ExternalWait) : (closed observed eventVersion now w).jobId = w.jobId := rfl

/-- `complete_wait_and_requeue`. -/
def complete (waitId : String) (queueReason : QueueReason) (observed : Option ObsState)
    (eventVersion : Option ℕ) (fenced : Bool) (now : Time) : WaitStore :=
  if !fenced then t
  else
    match t.waits.find? fun w => w.waitId = waitId with
    | none => t
    | some w =>
      if !w.isOpen then t
      else
        match t.jobs w.jobId with
        | none => t
        | some j =>
          match (Primitive.completeWait queueReason).attempt now [] j with
          | none => t
          | some j' =>
            (t.updateWait waitId (closed observed eventVersion now)
              (closed_waitId observed eventVersion now)).setJob w.jobId j'

/-- The row of a wait that is put off, after the row the manager has read. -/
def putOff (read : ExternalWait) (observed : Option ObsState) (nextCheckAt : Time)
    (w : ExternalWait) : ExternalWait :=
  { w with
    checkAttempt := read.checkAttempt + 1
    nextCheckAt := nextCheckAt
    lastObservedState := observed.or w.lastObservedState }

theorem putOff_waitId (read : ExternalWait) (observed : Option ObsState) (nextCheckAt : Time)
    (w : ExternalWait) : (putOff read observed nextCheckAt w).waitId = w.waitId := rfl

theorem putOff_jobId (read : ExternalWait) (observed : Option ObsState) (nextCheckAt : Time)
    (w : ExternalWait) : (putOff read observed nextCheckAt w).jobId = w.jobId := rfl

/-- `_process_wait`, with what it writes. -/
def check (read : ExternalWait) (asked : Asked) (nextCheckAt now : Time) : WaitStore :=
  match processWait read now asked with
  | .wake queueReason observed eventVersion =>
    t.complete read.waitId queueReason observed (some eventVersion) true now
  | .backoff observed =>
    t.updateWait read.waitId (putOff read observed nextCheckAt)
      (putOff_waitId read observed nextCheckAt)

def withoutWait : Primitive → Bool
  | .waitExternal .. | .completeWait .. => false
  | _ => true

def step : WaitAction → WaitStore
  | .call jobId c =>
    match t.jobs jobId with
    | none => t
    | some j => if withoutWait c.op then t.setJob jobId (Jobs.step j c) else t
  | .enter jobId waitId spec cas now => t.enter jobId waitId spec cas now
  | .complete waitId queueReason observed eventVersion fenced now =>
    t.complete waitId queueReason observed eventVersion fenced now
  | .check read asked nextCheckAt now => t.check read asked nextCheckAt now

/-- The waits of a job, in the order in which it has entered them. -/
def rowsOf (jobId : String) : List ExternalWait := t.waits.filter fun w => w.jobId = jobId

end WaitStore

/-! ### What is to hold -/

/-- A job and its waits go together: one that waits has a single open wait, the last it has
entered, and any other has none. -/
def Coupled (rows : List ExternalWait) (j : JobRow) : Prop :=
  if j.primaryState = .waitingExternal then
    ∃ ws w, rows = ws ++ [w] ∧ w.isOpen = true ∧ ∀ w' ∈ ws, w'.isOpen = false
  else ∀ w ∈ rows, w.isOpen = false

/-- Every job goes together with its waits. -/
def OneOpenWait (t : WaitStore) : Prop :=
  ∀ id j, t.jobs id = some j → Coupled (t.rowsOf id) j

/-- A wait whose end would wake its job is the last that the job has entered. -/
def WakesLatest (t : WaitStore) : Prop :=
  ∀ w ∈ t.waits, w.isOpen = true → ∀ j, t.jobs w.jobId = some j →
    j.primaryState = .waitingExternal → (t.rowsOf w.jobId).getLast? = some w

/-- A call that its guards admit does not take a waiting job away from its wait, nor make a
job wait without one. -/
def LeavesWaits (j : JobRow) (c : Call) : Prop :=
  WaitStore.withoutWait c.op = true → c.admitted j = true →
    match c.op with
    | .queue (.quarantineLost ..) | .queue (.quarantineBlocked ..) | .queue (.release ..)
    | .queue (.requeue ..) | .requeueByOwner .. => j.primaryState ≠ .waitingExternal
    | .update u => u.newPrimaryState j = .waitingExternal ↔ j.primaryState = .waitingExternal
    | _ => True

/-- A step leaves the waiting jobs to their waits. -/
def KeepsWaits (t : WaitStore) : WaitAction → Prop
  | .call jobId c => ∀ j, t.jobs jobId = some j → LeavesWaits j c
  | _ => True

variable {t : WaitStore} {j j' : JobRow} {c : Call} {rows : List ExternalWait} {id : String}

/-! ### One job and its waits -/

theorem coupled_of_waiting (h : Coupled rows j) (hw : j.primaryState = .waitingExternal) :
    ∃ ws w, rows = ws ++ [w] ∧ w.isOpen ∧ ∀ w' ∈ ws, w'.isOpen = false := by
  rwa [Coupled, if_pos hw] at h

theorem coupled_of_not_waiting (h : Coupled rows j) (hw : j.primaryState ≠ .waitingExternal) :
    ∀ w ∈ rows, w.isOpen = false := by
  rwa [Coupled, if_neg hw] at h

theorem eq_last_of_open {ws : List ExternalWait} {w w' : ExternalWait}
    (hws : ∀ w' ∈ ws, w'.isOpen = false) (h : w' ∈ ws ++ [w]) (hopen : w'.isOpen) :
    w' = w := by
  rcases List.mem_append.mp h with hmem | hmem
  · rw [hws w' hmem] at hopen
    cases hopen
  · exact List.mem_singleton.mp hmem

/-- What does not open or close a wait keeps a job and its waits together. -/
theorem Coupled.map {f : ExternalWait → ExternalWait} (h : Coupled rows j)
    (hf : ∀ w ∈ rows, (f w).isOpen = w.isOpen) : Coupled (rows.map f) j := by
  by_cases hw : j.primaryState = .waitingExternal
  · obtain ⟨ws, w, rfl, hopen, hws⟩ := coupled_of_waiting h hw
    rw [Coupled, if_pos hw]
    refine ⟨ws.map f, f w, by simp, ?_, ?_⟩
    · rw [hf w (by simp), hopen]
    · intro w' hw'
      obtain ⟨w'', hmem, rfl⟩ := List.mem_map.mp hw'
      rw [hf w'' (by simp [hmem]), hws w'' hmem]
  · rw [Coupled, if_neg hw]
    intro w' hw'
    obtain ⟨w'', hmem, rfl⟩ := List.mem_map.mp hw'
    rw [hf w'' hmem]
    exact coupled_of_not_waiting h hw w'' hmem

theorem Coupled.length_open (h : Coupled rows j) (hw : j.primaryState = .waitingExternal) :
    (rows.filter ExternalWait.isOpen).length = 1 := by
  obtain ⟨ws, w, rfl, hopen, hws⟩ := coupled_of_waiting h hw
  rw [List.filter_append, List.filter_eq_nil_iff.mpr fun w' hw' => by simp [hws w' hw']]
  simp [hopen]

/-- A row of a job that waits exactly if another does goes together with the same waits. -/
theorem coupled_congr (h : Coupled rows j) :
    Coupled rows j' ↔ (j'.primaryState = .waitingExternal ↔ j.primaryState = .waitingExternal) := by
  by_cases hw : j.primaryState = .waitingExternal
  · obtain ⟨ws, w, hrows, hopen, hws⟩ := coupled_of_waiting h hw
    by_cases hw' : j'.primaryState = .waitingExternal
    · refine iff_of_true ?_ (iff_of_true hw' hw)
      rw [Coupled, if_pos hw']
      exact ⟨ws, w, hrows, hopen, hws⟩
    · refine iff_of_false (fun hcon => ?_) fun hiff => hw' (hiff.mpr hw)
      have hclosed := coupled_of_not_waiting hcon hw' w (by simp [hrows])
      rw [hopen] at hclosed
      cases hclosed
  · have hclosed := coupled_of_not_waiting h hw
    by_cases hw' : j'.primaryState = .waitingExternal
    · refine iff_of_false (fun hcon => ?_) fun hiff => hw (hiff.mp hw')
      obtain ⟨ws, w, hrows, hopen, -⟩ := coupled_of_waiting hcon hw'
      rw [hclosed w (by simp [hrows])] at hopen
      cases hopen
    · refine iff_of_true ?_ (iff_of_false hw' hw)
      rw [Coupled, if_neg hw']
      exact hclosed

/-- **What a call does to a job that waits.** -/
theorem leavesWaits_iff (hop : WaitStore.withoutWait c.op) :
    ((step j c).primaryState = .waitingExternal ↔ j.primaryState = .waitingExternal) ↔
      LeavesWaits j c := by
  unfold LeavesWaits
  rw [forall_prop_of_true hop]
  refine iff_admitted_imp (fun hsame => by rw [hsame]) fun heff => ?_
  -- a call that does not end in `WAITING_EXTERNAL` must not have started there
  have haway : (step j c).primaryState ≠ .waitingExternal →
      (((step j c).primaryState = .waitingExternal ↔ j.primaryState = .waitingExternal) ↔
        j.primaryState ≠ .waitingExternal) :=
    fun hne => ⟨fun h hw => hne (h.mpr hw), fun h => iff_of_false hne h⟩
  generalize c.op = p at heff hop ⊢
  generalize step j c = j' at heff haway ⊢
  cases heff with
  | claim h | claimNext h | missing h | enqueue _ h | takeover h | takeoverBlocked h
  | takeoverLost h | reopen _ _ h =>
    refine iff_of_true (iff_of_false ?_ ?_) trivial
    · intro hw
      cases hw
    · rw [h]
      decide
  | recovery _ h _ hrec =>
    refine iff_of_true (iff_of_false ?_ ?_) trivial
    · rcases recovered_cases hrec with ⟨-, rfl⟩ | ⟨-, rfl⟩ | rfl | rfl <;> intro hw <;> cases hw
    · rw [h]
      decide
  | requeue | requeueByOwner | release | quarantineLost | quarantineBlocked =>
    exact haway fun hw => by cases hw
  | renew | clear => exact iff_of_true Iff.rfl trivial
  | update => exact Iff.rfl
  | waitExternal | completeWait => cases hop

/-! ### The writes of the store -/

namespace WaitStore

variable {waitId : String} {f : ExternalWait → ExternalWait}
  {hf : ∀ w, (f w).waitId = w.waitId}

@[simp]
theorem setJob_jobs_self {jobId : String} : (t.setJob jobId j).jobs jobId = some j := by
  simp [setJob]

theorem setJob_jobs_of_ne {jobId : String} (h : id ≠ jobId) :
    (t.setJob jobId j).jobs id = t.jobs id := by
  simp [setJob, h]

@[simp]
theorem rowsOf_setJob {jobId : String} : (t.setJob jobId j).rowsOf id = t.rowsOf id := rfl

theorem rowsOf_updateWait (hjob : ∀ w, (f w).jobId = w.jobId) :
    (t.updateWait waitId f hf).rowsOf id =
      (t.rowsOf id).map fun w => if w.waitId = waitId then f w else w := by
  unfold rowsOf updateWait
  rw [List.filter_map]
  congr 1
  refine List.filter_congr fun w _ => ?_
  simp only [Function.comp]
  split
  · rw [hjob]
  · rfl

theorem mem_rowsOf {w : ExternalWait} : w ∈ t.rowsOf id ↔ w ∈ t.waits ∧ w.jobId = id := by
  simp [rowsOf]

theorem eq_of_waitId {w w' : ExternalWait} (hw : w ∈ t.waits) (hw' : w' ∈ t.waits)
    (h : w.waitId = w'.waitId) : w = w' :=
  List.inj_on_of_nodup_map t.primaryKey hw hw' h

/-- What `enter` does, if it is not refused. -/
theorem enter_cases {jobId : String} {spec : WaitSpec} {cas : LeaseCas} {now : Time} :
    t.enter jobId waitId spec cas now = t ∨
      ∃ j j', t.jobs jobId = some j ∧ j.primaryState = .running ∧
        j'.primaryState = .waitingExternal ∧
        (t.enter jobId waitId spec cas now).jobs = (t.setJob jobId j').jobs ∧
        (t.enter jobId waitId spec cas now).waits =
          t.waits ++ [buildWaitRow waitId jobId spec] := by
  unfold enter
  split
  · exact .inl rfl
  next j hj =>
    split
    · exact .inl rfl
    next j' hj' =>
      split
      · exact .inl rfl
      · obtain @⟨⟩ := effect_of_attempt hj'
        exact .inr ⟨j, _, hj, by assumption, rfl, rfl, rfl⟩

/-- What `complete` does, if it is not refused. -/
theorem complete_cases {queueReason : QueueReason} {observed : Option ObsState}
    {eventVersion : Option ℕ} {fenced : Bool} {now : Time} :
    t.complete waitId queueReason observed eventVersion fenced now = t ∨
      ∃ w j j', w ∈ t.waits ∧ w.waitId = waitId ∧ w.isOpen ∧ t.jobs w.jobId = some j ∧
        j.primaryState = .waitingExternal ∧ j'.primaryState = .queued ∧
        t.complete waitId queueReason observed eventVersion fenced now =
          (t.updateWait waitId (closed observed eventVersion now)
              (closed_waitId observed eventVersion now)).setJob w.jobId j' := by
  unfold complete
  split
  · exact .inl rfl
  split
  · exact .inl rfl
  next w hw =>
    split
    · exact .inl rfl
    next hopen =>
      split
      · exact .inl rfl
      next j hj =>
        split
        · exact .inl rfl
        next j' hj' =>
          obtain @⟨⟩ := effect_of_attempt hj'
          exact .inr ⟨w, j, _, List.mem_of_find?_eq_some hw, by simpa using List.find?_some hw,
            by simpa using hopen, hj, by assumption, rfl, rfl⟩

end WaitStore

/-! ### The steps -/

open WaitStore

theorem oneOpenWait_enter (h : OneOpenWait t) {jobId waitId : String} {spec : WaitSpec}
    {cas : LeaseCas} {now : Time} : OneOpenWait (t.enter jobId waitId spec cas now) := by
  rcases @WaitStore.enter_cases t waitId jobId spec cas now
    with hsame | ⟨j, j', hj, hrun, hwait, hjobs, hwaits⟩
  · rwa [hsame]
  · intro id i hi
    rw [hjobs] at hi
    have hrows : (t.enter jobId waitId spec cas now).rowsOf id =
        t.rowsOf id ++ if jobId = id then [buildWaitRow waitId jobId spec] else [] := by
      rw [rowsOf, rowsOf, hwaits, List.filter_append]
      congr 1
      by_cases hid : jobId = id <;> simp [buildWaitRow, hid]
    rw [hrows]
    by_cases hid : jobId = id
    · subst hid
      rw [setJob_jobs_self] at hi
      cases hi
      rw [if_pos rfl, Coupled, if_pos hwait]
      -- the job was running, so that all its waits were over
      exact ⟨_, _, rfl, rfl, coupled_of_not_waiting (h jobId j hj) (by rw [hrun]; decide)⟩
    · rw [setJob_jobs_of_ne (Ne.symm hid)] at hi
      rw [if_neg hid, List.append_nil]
      exact h id i hi

theorem oneOpenWait_complete (h : OneOpenWait t) {waitId : String} {queueReason : QueueReason}
    {observed : Option ObsState} {eventVersion : Option ℕ} {fenced : Bool} {now : Time} :
    OneOpenWait (t.complete waitId queueReason observed eventVersion fenced now) := by
  rcases @WaitStore.complete_cases t waitId queueReason observed eventVersion fenced now
    with hsame | ⟨w, j, j', hw, hid, hopen, hj, hwait, hqueued, heq⟩
  · rwa [hsame]
  · rw [heq]
    intro id i hi
    rw [rowsOf_setJob, rowsOf_updateWait (closed_jobId observed eventVersion now)]
    by_cases hjob : id = w.jobId
    · subst hjob
      rw [setJob_jobs_self] at hi
      cases hi
      obtain ⟨ws, w₀, hrows, -, hws⟩ := coupled_of_waiting (h w.jobId j hj) hwait
      have hlast : w = w₀ := by
        refine eq_last_of_open hws ?_ hopen
        rw [← hrows]
        exact (mem_rowsOf).mpr ⟨hw, rfl⟩
      subst hlast
      -- the wait that is over was the open one
      rw [Coupled, if_neg (by rw [hqueued]; decide), hrows]
      intro w' hw'
      obtain ⟨w'', hmem, rfl⟩ := List.mem_map.mp hw'
      by_cases heq' : w''.waitId = waitId
      · rw [if_pos heq']
        rfl
      · rw [if_neg heq']
        rcases List.mem_append.mp hmem with hmem | hmem
        · exact hws w'' hmem
        · rw [List.mem_singleton.mp hmem] at heq'
          exact absurd hid heq'
    · rw [setJob_jobs_of_ne hjob] at hi
      refine (h id i hi).map fun w' hw' => ?_
      obtain ⟨hmem, hjob'⟩ := (mem_rowsOf).mp hw'
      have hne : w'.waitId ≠ waitId := by
        intro heq'
        rw [eq_of_waitId hmem hw (heq'.trans hid.symm)] at hjob'
        exact hjob hjob'.symm
      rw [if_neg hne]

theorem oneOpenWait_putOff (h : OneOpenWait t) {read : ExternalWait} {observed : Option ObsState}
    {nextCheckAt : Time} :
    OneOpenWait (t.updateWait read.waitId (putOff read observed nextCheckAt)
      (putOff_waitId read observed nextCheckAt)) := by
  intro id i hi
  rw [rowsOf_updateWait (putOff_jobId read observed nextCheckAt)]
  refine (h id i hi).map fun w _ => ?_
  split <;> rfl

/-- **A step keeps every job together with its waits exactly if it leaves the waiting jobs to
them.** -/
theorem oneOpenWait_step_iff (h : OneOpenWait t) (a : WaitAction) :
    OneOpenWait (t.step a) ↔ KeepsWaits t a := by
  cases a with
  | enter => exact iff_of_true (oneOpenWait_enter h) trivial
  | complete => exact iff_of_true (oneOpenWait_complete h) trivial
  | check read asked nextCheckAt now =>
    refine iff_of_true ?_ trivial
    change OneOpenWait (t.check read asked nextCheckAt now)
    unfold WaitStore.check
    split
    · exact oneOpenWait_complete h
    · exact oneOpenWait_putOff h
  | call jobId c =>
    simp only [WaitStore.step, KeepsWaits]
    cases hj : t.jobs jobId with
    | none => exact iff_of_true h fun j hj' => by cases hj'
    | some j =>
      simp only [Option.some.injEq, forall_eq']
      cases hop : withoutWait c.op with
      | false =>
        refine iff_of_true h fun hop' => ?_
        rw [hop] at hop'
        cases hop'
      | true =>
        -- the call touches no wait, so the job has to stay where its waits have it
        rw [if_pos rfl, ← leavesWaits_iff hop, ← coupled_congr (h jobId j hj)]
        constructor
        · intro hstep
          exact hstep jobId _ setJob_jobs_self
        · intro hc id i hi
          by_cases hid : id = jobId
          · subst hid
            rw [setJob_jobs_self] at hi
            cases hi
            exact hc
          · rw [setJob_jobs_of_ne hid] at hi
            exact h id i hi

theorem OneOpenWait.wakesLatest (h : OneOpenWait t) : WakesLatest t := by
  intro w hw hopen j hj hwait
  obtain ⟨ws, w₀, hrows, -, hws⟩ := coupled_of_waiting (h w.jobId j hj) hwait
  have hmem : w ∈ ws ++ [w₀] := by
    rw [← hrows]
    exact (mem_rowsOf).mpr ⟨hw, rfl⟩
  rw [hrows, eq_last_of_open hws hmem hopen]
  exact List.getLast?_concat

/-- **One open wait for each waiting job, all along a run, exactly if no step takes a waiting
job away from its wait.** -/
theorem waits_iff {as : List WaitAction} (h : OneOpenWait t) :
    (∀ bs ds, as = bs ++ ds → OneOpenWait (Runs.run WaitStore.step t bs) ∧
      WakesLatest (Runs.run WaitStore.step t bs)) ↔ Runs.Along WaitStore.step KeepsWaits t as := by
  rw [← Runs.forall_split_iff_along (I := OneOpenWait) (fun _ a ht => oneOpenWait_step_iff ht a) h]
  exact forall₃_congr fun _ _ _ => ⟨And.left, fun hone => ⟨hone, hone.wakesLatest⟩⟩

/-! ### A job that is reopened and waits again -/

/-- One job, as it is created, and no waits. -/
def oneJob : WaitStore where
  jobs := fun id => if id = "job" then some (createSupervisorJob "job" "task") else none
  waits := []
  primaryKey := List.nodup_nil

theorem oneOpenWait_oneJob : OneOpenWait oneJob := by
  intro id j hj
  simp only [oneJob] at hj
  split at hj
  · cases hj
    intro w hw
    cases hw
  · cases hj

/-- What the job is to wait for. -/
def ciSpec : WaitSpec := ⟨"github", "owner/repo#1", some "abc", 60, none⟩

/-- The job waits; it is blocked, reopened by its owner, claimed again, and waits again. -/
def waitsTwice : List WaitAction :=
  [.call "job" ((Primitive.queue (.claim "a" 60)).at 0),
    .enter "job" "wait:1" ciSpec ⟨"a", 1⟩ 1,
    .call "job" ((Primitive.queue (.quarantineBlocked "CONCURRENCY" none)).at 2),
    .call "job" ((Primitive.queue (.reopen "approval" ⟨.new, none, false, none⟩)).at 3),
    .call "job" ((Primitive.queue (.claim "a" 60)).at 4),
    .enter "job" "wait:2" ciSpec ⟨"a", 2⟩ 5]

/-- Its first wait is still open then, and its event would wake the second. -/
theorem waits_twice :
    ¬∀ bs ds, waitsTwice = bs ++ ds → OneOpenWait (Runs.run WaitStore.step oneJob bs) ∧
      WakesLatest (Runs.run WaitStore.step oneJob bs) := by
  intro h
  have hone := (h waitsTwice [] (List.append_nil _).symm).1
  cases hj : (Runs.run WaitStore.step oneJob waitsTwice).jobs "job" with
  | none =>
    have hsome : ((Runs.run WaitStore.step oneJob waitsTwice).jobs "job").isSome = true := by
      decide
    rw [hj] at hsome
    cases hsome
  | some j =>
    have hwait : ((Runs.run WaitStore.step oneJob waitsTwice).jobs "job").map
        JobRow.primaryState = some .waitingExternal := by decide
    rw [hj] at hwait
    have hlen := (hone "job" j hj).length_open (Option.some.inj hwait)
    exact absurd hlen (by decide)

/-- A job waits, is woken, and waits again. -/
theorem waits_in_turn :
    OneOpenWait oneJob ∧ ∀ bs ds, [.call "job" ((Primitive.queue (.claim "a" 60)).at 0),
        .enter "job" "wait:1" ciSpec ⟨"a", 1⟩ 1,
        .check (buildWaitRow "wait:1" "job" ciSpec)
          (.observed ⟨"github", "owner/repo#1", some .ready, some "abc", 7⟩) 120 60,
        .call "job" ((Primitive.queue (.claim "a" 60)).at 61),
        .enter "job" "wait:2" ciSpec ⟨"a", 2⟩ 62] = bs ++ ds →
      OneOpenWait (Runs.run WaitStore.step oneJob bs) ∧
        WakesLatest (Runs.run WaitStore.step oneJob bs) :=
  ⟨oneOpenWait_oneJob, (waits_iff oneOpenWait_oneJob).mpr
    ⟨fun _ _ _ _ => trivial, trivial, trivial, fun _ _ _ _ => trivial, trivial, trivial⟩⟩

end Jobs

end ArgentTeam
