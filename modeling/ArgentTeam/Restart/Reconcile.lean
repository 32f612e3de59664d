import ArgentTeam.Lib.Actions
import ArgentTeam.Restart.Liveness

/-!
# Reconciliation after a restart

What `Scheduler.reconcile_after_restart` does: it reads the jobs and the clock, and classifies each
running job by the row it has read, by what the registry says of its processes and by its worktree.
Every look at the tables, at the processes, at the worktree or at the clock, and every transaction
is an action of its own, and other writers act in between. A quarantine is written only where the
job still is as it was read (`store.py`); where it is not, the row is read again and classified
anew, three times at most. A recovery is committed under the lease that was read.
-/

namespace ArgentTeam

open Supervisor Jobs

namespace Restart

/-! ### The tables -/

/-- A row of `supervisor_jobs`, with the columns that only recovery reads. -/
structure Job extends JobRow where
  attemptNo : ℕ
  expectedDispatchId : Option String
  canonicalWorktreePath : Option String
  repoIdentity : Option String
  baseCommit : Option String
  writerDispatchId : Option String
  writerOwnerInstanceId : Option String
  writerLeaseEpoch : Option ℕ
  expectedHead : Option String
  writerBindingMode : Option String

/-- What is found outside of the tables. -/
structure Surroundings where
  now : Time
  bootId : Option String
  current : ℕ → Option ProcessIdentity
  repoIdentity : String → Option String
  head : String → Option String
  dirty : String → Bool

/-- The tables, and what is found outside of them. -/
structure Store where
  jobs : String → Option Job
  order : List String
  keyed : ∀ id j, jobs id = some j → j.id = id
  nodup : order.Nodup
  registry : List RegistryRow
  markers : List (String × String)
  surroundings : Surroundings

namespace Store

/-- `list_supervisor_jobs`. -/
def list (s : Store) : List Job := s.order.filterMap s.jobs

/-- `list_process_registrations`. -/
def registrations (s : Store) (jobId : String) : List RegistryRow :=
  s.registry.filter fun r => r.jobId = jobId

/-- A job is written, with the markers. -/
def put (s : Store) (j : Job) (markers : List (String × String)) : Store :=
  { s with
    jobs := Function.update s.jobs j.id (some j)
    keyed := fun id k h => by
      by_cases hid : id = j.id
      · subst hid
        rw [Function.update_self] at h
        rw [← Option.some.inj h]
      · rw [Function.update_of_ne hid] at h
        exact s.keyed id k h
    markers := markers }

end Store

/-- What a pass makes a note of: a row it is to classify, and the clock. -/
inductive Scanned
  | row (j : Job)
  | clock (now : Time)

/-- A program that reads and writes the store, with what it has scanned. -/
abbrev Pass := Actions Store Scanned

/-! ### The worktree -/

/-- The verdicts of `classify_worktree_recovery`. -/
inductive WorktreeRecovery
  | keepDirty
  | cleanupPending
  | blockedDiverged
  | lost
  | ambiguousWriter

/-- `classify_worktree_recovery`, with `writer_terminal=True`. -/
def classifyWorktreeRecovery (binding : Job) (repoIdentity head : Option String) (dirty : Bool) :
    WorktreeRecovery :=
  if binding.repoIdentity = none ∨ repoIdentity = none then .lost
  else if repoIdentity ≠ binding.repoIdentity then .lost
  else if dirty then
    if binding.writerDispatchId.isSome ∧ binding.writerOwnerInstanceId.isSome ∧
      1 ≤ binding.writerLeaseEpoch.getD 0 then .keepDirty
    else .ambiguousWriter
  else if binding.expectedHead = none then .ambiguousWriter
  else if head = none then .ambiguousWriter
  else if head ≠ binding.expectedHead then .blockedDiverged
  else if binding.baseCommit = none then .ambiguousWriter
  else .cleanupPending

def worktreeRecoveryVerdict (jobId : String) : Pass (Option WorktreeRecovery) := do
  match ← Actions.read fun s => s.jobs jobId with
  | none => pure none
  | some ev =>
    if ev.writerBindingMode ≠ some "BOUND" then pure none
    else
      match ev.canonicalWorktreePath with
      | none => pure (some .ambiguousWriter)
      | some path =>
        if path = "" ∨ ev.repoIdentity = none then pure (some .ambiguousWriter)
        else
          let repo ← Actions.read fun s => s.surroundings.repoIdentity path
          let head ← Actions.read fun s => s.surroundings.head path
          let dirty ← Actions.read fun s => s.surroundings.dirty path
          pure (some (classifyWorktreeRecovery ev repo head dirty))

/-! ### Processes -/

/-- `_process_identity_verdict`: the registry, and then the process. -/
def processVerdict (jobId : String) : Pass ProcessVerdict := do
  let registry ← Actions.read fun s => s.registrations jobId
  let current ← Actions.read fun s => s.surroundings.current
  pure (processIdentityVerdict registry jobId current)

def boundTerminalEvidence (jobId : String) : Pass (Option RegistryRow) := do
  match ← Actions.read fun s => s.jobs jobId with
  | none => pure none
  | some row =>
    if row.primaryState ≠ .running ∨ row.terminal ≠ none then pure none
    else
      let bootId ← Actions.read fun s => s.surroundings.bootId
      let registry ← Actions.read fun s => s.registrations jobId
      pure (registry.reverse.find? fun reg => reg.isTerminallyDead &&
        reg.dispatchId = row.expectedDispatchId && (bootId = none || reg.bootId = bootId))

/-! ### Recovery -/

/-- What came of an attempt to recover a job. -/
inductive Recovery
  | none
  | committed (decision : RecoveryDecision)
  | raised

/-- `commit_recovery_decision`, for an instance that holds the job under this epoch. -/
def commitRecoveryDecision (self : String) (epoch : ℕ) (jobId : String) (d : Decided)
    (s : Store) : Recovery × Store :=
  if notBlank self = false then (.raised, s)
  else
    match s.jobs jobId with
    | .none => (.raised, s)
    | some j =>
      let consumed : Bool := (jobId, d.processId) ∈ s.markers
      match (Primitive.commitRecovery ⟨self, epoch⟩ d.failure d.decision
          (reasonCodeForFailure d.failure) d.nextEligibleAt .none consumed).attempt
          s.surroundings.now [] j.toJobRow with
      | .none => (.none, s)
      | some row =>
        (.committed d.decision,
          s.put { j with
            toJobRow := row
            attemptNo := if d.decision.requeues then j.attemptNo + 1 else j.attemptNo }
            (s.markers ++ [(jobId, d.processId)]))

def classifyAndRecover (policy : RecoveryPolicy) (self : String) (jobId : String) (epoch : ℕ) :
    Pass Recovery := do
  match ← Actions.read fun s => s.jobs jobId with
  | .none => pure .none
  | some row =>
    if row.primaryState ≠ .running ∨ row.terminal ≠ .none then pure .none
    else
      match ← boundTerminalEvidence jobId with
      | .none => pure .none
      | some reg =>
        let consumed ← Actions.read fun s => decide ((jobId, reg.processId) ∈ s.markers)
        if reg.processId ≠ "" ∧ consumed then pure .none
        else if isResourceFailure reg.verdict then
          let now ← Actions.read fun s => s.surroundings.now
          let failure := FailureClass.ofVerdict reg.verdict
          let decision := decideRecovery policy failure row.attemptNo false false
          Actions.perform (commitRecoveryDecision self epoch jobId
            { processId := reg.processId
              failure := failure
              decision := decision
              nextEligibleAt := some (later now (policy.backoff decision)) })
        else pure .none

/-! ### Quarantine -/

inductive Quarantined
  | moved
  | stale
  | raised

/-- Where a job is put out of service. -/
inductive Quarantine
  | lost
  | blocked

/-- The primitive of the queue. -/
def Quarantine.op (expected : JobRow) : Quarantine → QueueOp
  | lost => .quarantineLost "AMBIGUOUS_WRITER" (some expected)
  | blocked => .quarantineBlocked "WORKTREE_DIVERGED" (some expected)

/-- `quarantine_lost` and `quarantine_blocked`, of a job that is as it was read. -/
def quarantine (q : Quarantine) (expected : Job) (s : Store) : Quarantined × Store :=
  match s.jobs expected.id with
  | none => (.raised, s)
  | some j =>
    if expected.fence ≠ j.fence then (.stale, s)
    else
      match (q.op expected.toJobRow).attempt s.surroundings.now [] j.toJobRow with
      | none => (.raised, s)
      | some row => (.moved, s.put { j with toJobRow := row } s.markers)

/-! ### Classification -/

/-- What a job is classified as. -/
inductive Kind
  | rebound
  | foreignLeaseKept
  | takeoverCandidate
  | blockedWorktree
  | quarantinedLost
  | processAlive
  | resourceRecovered
  | skipTerminal
  | left

/-- Why. -/
inductive Detail
  | text (s : String)
  | owner (id : String)
  | terminal (t : Terminal)
  | state (p : PrimaryState)
  | decision (d : RecoveryDecision)

def completeLease (j : JobRow) : Option (String × Time) :=
  match j.ownerInstanceId, j.leaseExpiresAt with
  | some owner, some expires => if owner ≠ "" ∧ 1 ≤ j.leaseEpoch then
      some (owner, expires) else none
  | _, _ => none

/-- What becomes of a job that has changed since it was read: it is classified again if it still
runs. -/
def reread (again : Job → Pass (Option (Kind × Detail))) (jobId : String) :
    Pass (Option (Kind × Detail)) := do
  match ← Actions.scan (fun s => s.jobs jobId) fun j => j.toList.map .row with
  | none => pure (some (.left, .text "gone"))
  | some j =>
    match j.terminal with
    | some t => pure (some (.skipTerminal, .terminal t))
    | none =>
      if j.primaryState ≠ .running then pure (some (.left, .state j.primaryState))
      else again j

/-- A quarantine, and what follows it. -/
def quarantineOr (again : Job → Pass (Option (Kind × Detail))) (q : Quarantine)
    (current : Job) (kind : Kind) (detail : String) : Pass (Option (Kind × Detail)) := do
  match ← Actions.perform (quarantine q current) with
  | .moved => pure (some (kind, .text detail))
  | .raised => pure none
  | .stale => reread again current.id

/-- The part of `_classify_running` that comes after resource recovery. -/
def classifyLease (self : String) (now : Time)
    (again : Job → Pass (Option (Kind × Detail))) (current : Job) :
    Pass (Option (Kind × Detail)) := do
  match completeLease current.toJobRow with
  | none =>
    quarantineOr again .lost current .quarantinedLost
      (if current.leaseExpiresAt.isSome then "incomplete_lease" else "running_no_lease")
  | some (owner, expires) =>
    let detail := "epoch=" ++ toString current.leaseEpoch
    if now < expires then
      if owner = self then pure (some (.rebound, .text detail))
      else pure (some (.foreignLeaseKept, .owner owner))
    else
      match ← processVerdict current.id with
      | .alive => pure (some (.processAlive, .text (detail ++ ":live_process")))
      | .terminal =>
        match ← worktreeRecoveryVerdict current.id with
        | some .blockedDiverged =>
          quarantineOr again .blocked current .blockedWorktree (detail ++ ":worktree_diverged")
        | some .cleanupPending | none =>
          pure (some (.takeoverCandidate, .text (detail ++ ":process_terminal")))
        | _ => quarantineOr again .lost current .quarantinedLost (detail ++ ":worktree_ambiguous")
      | .unknown => quarantineOr again .lost current .quarantinedLost (detail ++ ":unknown_process")

/-- `_classify_running`, so many attempts being left; nothing where something raises. -/
def classifyRunning (policy : RecoveryPolicy) (self : String) (now : Time) :
    ℕ → Job → Pass (Option (Kind × Detail))
  | 0, current => pure (some (.left, .state current.primaryState))
  | left + 1, current => do
    match ← boundTerminalEvidence current.id with
    | none => classifyLease self now (classifyRunning policy self now left) current
    | some _ =>
      match ← classifyAndRecover policy self current.id current.leaseEpoch with
      | .committed decision => pure (some (.resourceRecovered, .decision decision))
      | .raised => pure none
      | .none => classifyLease self now (classifyRunning policy self now left) current

/-! ### The pass -/

/-- What the pass does with a row it has read. -/
def reconcileRow (policy : RecoveryPolicy) (self : String) (now : Time) (row : Job) :
    Pass (Option (Kind × Detail)) :=
  match row.terminal with
  | some t => pure (some (.skipTerminal, .terminal t))
  | none =>
    if row.primaryState ≠ .running then pure (some (.left, .state row.primaryState))
    else classifyRunning policy self now 3 row

/-- The rows one after the other; nothing where something raises. -/
def reconcileRows (policy : RecoveryPolicy) (self : String) (now : Time) :
    List Job → Pass (Option (List (String × Kind × Detail)))
  | [] => pure (some [])
  | row :: rows => do
    match ← reconcileRow policy self now row with
    | none => pure none
    | some detail =>
      let rest ← reconcileRows policy self now rows
      pure (rest.map fun details => (row.id, detail) :: details)

/-- `reconcile_after_restart`, of an instance, with what became of each job. -/
def reconcileAfterRestart (policy : RecoveryPolicy) (self : String) :
    Pass (Option (List (String × Kind × Detail))) := do
  let rows ← Actions.scan Store.list fun rows => rows.map .row
  let now ← Actions.scan (fun s => s.surroundings.now) fun now => [.clock now]
  reconcileRows policy self now rows

end Restart

end ArgentTeam
