import ArgentTeam.Jobs.Lease
import ArgentTeam.Supervisor.Sandbox

/-!
# Bounded resource recovery

When the process of a running job has ended, an instance that holds the job reads the row,
looks for the evidence of the termination in the registry, decides and commits. Between
these, anything may happen to the row and to the registry, and what was read is not read
again: a decision is fenced by the lease and by a marker for the process only.

The budget of a job is the column `attempt_no`, which a committed retry or defer raises by
one. The fence makes the number that was read as good as the current one: under one lease at
most one decision is committed, as a commit takes the job away from its holder
(`Budgeted.fresh`). But a reconcile pass writes the same column, with the number of the attempt
of the dispatch it has in hand, so that the budget is spent again at the next dispatch
(`refunded_not_bounded`). `bounded_recovery` says that nothing else is wrong.
-/

namespace ArgentTeam

namespace Jobs

open Supervisor

/-! ### What is decided -/

def FailureClass.ofVerdict : Supervisor.FailureClass → FailureClass
  | .normalExit => .normalExit
  | .codeOrProcessFailure => .codeOrProcessFailure
  | .resourceOom => .resourceOom
  | .resourceMemoryLimit => .resourceMemoryLimit
  | .resourceTimeout => .resourceTimeout
  | .resourceEnforcementFailure => .resourceEnforcementFailure
  | .resourceCapacityFailure => .resourceCapacityFailure
  | .scopeCleanupUnverified => .scopeCleanupUnverified
  | .unknownTermination => .unknownTermination

def FailureClass.neverRetried : FailureClass → Bool
  | .resourceOom | .scopeCleanupUnverified | .unknownTermination => true
  | _ => false

/-- A decision that puts the job back into the queue. -/
def RecoveryDecision.requeues : RecoveryDecision → Bool
  | .retryBounded | .deferResource => true
  | _ => false

def reasonCodeForFailure : FailureClass → String
  | .resourceOom => "RESOURCE_OOM"
  | .resourceMemoryLimit => "RESOURCE_MEMORY_LIMIT"
  | .resourceTimeout => "RESOURCE_TIMEOUT"
  | .resourceEnforcementFailure => "RESOURCE_ENFORCEMENT_UNAVAILABLE"
  | .resourceCapacityFailure => "RESOURCE_CAPACITY_INSUFFICIENT"
  | .scopeCleanupUnverified => "SCOPE_CLEANUP_UNVERIFIED"
  | .unknownTermination | .normalExit | .codeOrProcessFailure => "RESOURCE_EVIDENCE_UNKNOWN"

/-- `RecoveryPolicy`, with what `__post_init__` checks. -/
structure RecoveryPolicy where
  maxResourceRetries : ℕ := 2
  maxResourceDefers : ℕ := 2
  retryBackoffSeconds : ℕ := 300
  deferBackoffSeconds : ℕ := 300
  retryableFailureClasses : List FailureClass := [.resourceCapacityFailure, .resourceTimeout]
  allowMemoryLimitDefer : Bool := false
  allowEnforcementDefer : Bool := true
  retry_pos : 0 < retryBackoffSeconds := by decide
  defer_pos : 0 < deferBackoffSeconds := by decide
  retryable : ∀ failure ∈ retryableFailureClasses, failure.neverRetried = false := by decide

namespace RecoveryPolicy

variable (policy : RecoveryPolicy)

/-- The larger of the two limits. -/
def budget : ℕ := max policy.maxResourceRetries policy.maxResourceDefers

/-- How long the job waits after a decision. -/
def backoff : RecoveryDecision → ℕ
  | .retryBounded => policy.retryBackoffSeconds
  | _ => policy.deferBackoffSeconds

end RecoveryPolicy

def decideRecovery (policy : RecoveryPolicy) (failure : FailureClass) (attemptNo : ℕ)
    (hasEvidenceUnknown preferExternalAvailable : Bool) : RecoveryDecision :=
  match failure with
  | .normalExit => .complete
  | .codeOrProcessFailure => .failNonresource
  | .resourceOom => if preferExternalAvailable then .preferExternal else .blockResource
  | .resourceMemoryLimit =>
    if policy.allowMemoryLimitDefer && attemptNo < policy.maxResourceDefers then .deferResource
    else .blockResource
  | .resourceTimeout =>
    if attemptNo < policy.maxResourceRetries &&
        FailureClass.resourceTimeout ∈ policy.retryableFailureClasses then .retryBounded
    else if attemptNo < policy.maxResourceDefers then .deferResource
    else .blockResource
  | .resourceEnforcementFailure =>
    if hasEvidenceUnknown then .quarantineLost
    else if policy.allowEnforcementDefer && attemptNo < policy.maxResourceDefers then
      .deferResource
    else .quarantineLost
  | .resourceCapacityFailure =>
    if attemptNo < policy.maxResourceDefers then .deferResource else .blockResource
  | .scopeCleanupUnverified => .quarantineLost
  | .unknownTermination => .quarantineLost

section Decide

variable (policy : RecoveryPolicy) (failure : FailureClass) (attemptNo : ℕ)
  (hasEvidenceUnknown preferExternalAvailable : Bool)

theorem isValidRecoveryPair_decideRecovery :
    isValidRecoveryPair failure (decideRecovery policy failure attemptNo hasEvidenceUnknown
      preferExternalAvailable) := by
  cases failure with
  | normalExit | codeOrProcessFailure | scopeCleanupUnverified | unknownTermination => rfl
  | resourceOom | resourceMemoryLimit | resourceCapacityFailure =>
    simp only [decideRecovery]
    split <;> rfl
  | resourceTimeout | resourceEnforcementFailure =>
    simp only [decideRecovery]
    split
    · rfl
    · split <;> rfl

variable {policy failure attemptNo hasEvidenceUnknown preferExternalAvailable}

/-- A job is queued again only while the number of its attempts is below one of the limits. -/
theorem lt_budget_of_requeues
    (h : (decideRecovery policy failure attemptNo hasEvidenceUnknown
      preferExternalAvailable).requeues) : attemptNo < policy.budget := by
  have hretries : attemptNo < policy.maxResourceRetries → attemptNo < policy.budget :=
    fun hlt => hlt.trans_le (le_max_left _ _)
  have hdefers : attemptNo < policy.maxResourceDefers → attemptNo < policy.budget :=
    fun hlt => hlt.trans_le (le_max_right _ _)
  cases failure with
  | normalExit | codeOrProcessFailure | scopeCleanupUnverified | unknownTermination => cases h
  | resourceOom =>
    simp only [decideRecovery] at h
    split at h <;> cases h
  | resourceMemoryLimit =>
    simp only [decideRecovery, Bool.and_eq_true, decide_eq_true_eq] at h
    split at h
    next hlt => exact hdefers hlt.2
    next => cases h
  | resourceTimeout =>
    simp only [decideRecovery, Bool.and_eq_true, decide_eq_true_eq] at h
    split at h
    next hlt => exact hretries hlt.1
    next =>
      split at h
      next hlt => exact hdefers hlt
      next => cases h
  | resourceEnforcementFailure =>
    simp only [decideRecovery, Bool.and_eq_true, decide_eq_true_eq] at h
    split at h
    next => cases h
    next =>
      split at h
      next hlt => exact hdefers hlt.2
      next => cases h
  | resourceCapacityFailure =>
    simp only [decideRecovery] at h
    split at h
    next hlt => exact hdefers hlt
    next => cases h

variable {decision : RecoveryDecision}

theorem requeues_eq_false_of_pair
    (hnever : failure.neverRetried) (hpair : isValidRecoveryPair failure decision) :
    decision.requeues = false := by
  cases failure with
  | resourceOom | scopeCleanupUnverified | unknownTermination =>
    cases decision <;> first | rfl | cases hpair
  | _ => cases hnever

end Decide

/-! ### A job and those who recover it -/

/-- The registration of a process, with the boot it belongs to. -/
structure Registration extends ProcessRegistration where
  bootId : Option String

namespace Registration

variable (reg : Registration)

def isTerminallyDead : Bool := reg.status = .terminal && reg.terminalAt.isSome

/-- The class of the failure that the registration is the evidence of. -/
def verdict : Supervisor.FailureClass :=
  classifyFailure reg.terminationClass reg.exitCode reg.timedOut reg.scopeEvents

end Registration

/-- What one run of `classify_and_recover` has decided. -/
structure Decided where
  processId : String
  failure : FailureClass
  decision : RecoveryDecision
  nextEligibleAt : Option Time

/-- A run of `classify_and_recover`: the lease it was called with, the number of attempts in the
row it has read, and what it has decided if it has come to that. -/
structure Recovering where
  cas : LeaseCas
  attemptNo : ℕ
  decided : Option Decided := none

/-- A decision that was committed, and the row it has left. -/
structure Committed extends Decided where
  after : JobRow

/-- A job, the columns of its row that only recovery reads, and what recovers it. -/
structure JobRecovery where
  job : JobRow
  attemptNo : ℕ := 0
  expectedDispatchId : Option String := none
  registry : List Registration := []
  /-- The processes of the job in `resource_recovery_markers`. -/
  markers : List String := []
  /-- The runs of `classify_and_recover` that have started. -/
  recovering : List Recovering := []
  committed : List Committed := []

/-- What recoveries are interleaved with: no decision made elsewhere, no requeue by the owner, and
no update that hands out a lease. -/
def Primitive.ordinary : Primitive → Bool
  | .commitRecovery .. | .queue (.reopen ..) => false
  | .update u => u.leaseEpoch = none && u.ownerInstanceId.getD none = none
  | _ => true

/-- Such a call, with the columns it writes beside those of the row. -/
structure OrdinaryCall extends Call where
  ordinary : op.ordinary = true
  /-- `bump_attempt`, where a job is queued. -/
  bumpAttempt : Bool := false
  /-- `attempt_no`, where an update writes it. -/
  attemptNo : Option ℕ := none
  /-- `expected_dispatch_id`, where an update writes it. -/
  expectedDispatchId : Option (Option String) := none

namespace OrdinaryCall

variable (c : OrdinaryCall)

/-- What an update writes to `attempt_no`. -/
def written : Option ℕ :=
  match c.op with
  | .update _ => c.attemptNo
  | _ => none

/-- `attempt_no` after the call. -/
def attemptAfter (attemptNo : ℕ) : ℕ :=
  match c.op with
  | .queue (.requeue ..) | .queue (.enqueue ..) | .requeueByOwner .. =>
    if c.bumpAttempt then attemptNo + 1 else attemptNo
  | _ => c.written.getD attemptNo

/-- `expected_dispatch_id` after the call. -/
def dispatchAfter (expected : Option String) : Option String :=
  match c.op with
  | .update _ => c.expectedDispatchId.getD expected
  | _ => expected

end OrdinaryCall

/-- What happens to a job. -/
inductive RecoveryEvent
  /-- Processes are registered, or end. -/
  | register (registry : List Registration)
  /-- Something else writes the row. -/
  | call (c : OrdinaryCall)
  /-- `classify_and_recover` is called, with a lease that was handed out, and reads the row. -/
  | enter (cas : LeaseCas)
  /-- A run of it looks for the evidence, and decides. -/
  | decide (n : ℕ) (now : Time) (bootId : Option String)
    (hasEvidenceUnknown preferExternalAvailable : Bool)
  | commit (n : ℕ) (now : Time)

namespace JobRecovery

variable (policy : RecoveryPolicy) (s : JobRecovery)

def boundTerminalEvidence (bootId : Option String) : Option Registration :=
  if s.job.primaryState = .running ∧ s.job.terminal = none then
    s.registry.reverse.find? fun reg => reg.jobId = s.job.id && reg.isTerminallyDead &&
      reg.dispatchId = s.expectedDispatchId && (bootId = none || reg.bootId = bootId)
  else none

/-- What a run of `classify_and_recover` decides; `none` where there is nothing to recover. -/
def decideFor (r : Recovering) (now : Time) (bootId : Option String)
    (hasEvidenceUnknown preferExternalAvailable : Bool) : Option Decided :=
  match s.boundTerminalEvidence bootId with
  | none => none
  | some reg =>
    if reg.processId ≠ "" ∧ reg.processId ∈ s.markers then none
    else if isResourceFailure reg.verdict then
      let failure := FailureClass.ofVerdict reg.verdict
      let decision := decideRecovery policy failure r.attemptNo hasEvidenceUnknown
        preferExternalAvailable
      some
        { processId := reg.processId
          failure := failure
          decision := decision
          nextEligibleAt := some (later now (policy.backoff decision)) }
    else none

/-- The call of `commit_recovery_decision`. -/
def commitCall (cas : LeaseCas) (d : Decided) (now : Time) : Call :=
  (Primitive.commitRecovery cas d.failure d.decision (reasonCodeForFailure d.failure)
    d.nextEligibleAt none (d.processId ∈ s.markers)).at now

/-- `commit_recovery_decision`. -/
def commitDecision (cas : LeaseCas) (d : Decided) (now : Time) : JobRecovery :=
  if (s.commitCall cas d now).refused s.job then s
  else
    { s with
      job := Jobs.step s.job (s.commitCall cas d now)
      attemptNo := if d.decision.requeues then s.attemptNo + 1 else s.attemptNo
      markers := s.markers ++ [d.processId]
      committed := s.committed ++ [⟨d, Jobs.step s.job (s.commitCall cas d now)⟩] }

/-- What an event does. -/
def step : RecoveryEvent → JobRecovery
  | .register registry => { s with registry := registry }
  | .call c =>
    if c.refused s.job then s
    else
      { s with
        job := Jobs.step s.job c.toCall
        attemptNo := c.attemptAfter s.attemptNo
        expectedDispatchId := c.dispatchAfter s.expectedDispatchId }
  | .enter cas =>
    if s.job.primaryState = .running ∧ s.job.terminal = none ∧ cas.epoch ≤ s.job.leaseEpoch then
      { s with recovering := s.recovering ++ [{ cas := cas, attemptNo := s.attemptNo }] }
    else s
  | .decide n now bootId hasEvidenceUnknown preferExternalAvailable =>
    { s with
      recovering := s.recovering.modify n fun r =>
        { r with
          decided := s.decideFor policy r now bootId hasEvidenceUnknown preferExternalAvailable } }
  | .commit n now =>
    match s.recovering[n]? with
    | some ⟨cas, _, some d⟩ => s.commitDecision cas d now
    | _ => s

/-- The retries and defers that have been committed. -/
def spent : ℕ := s.committed.countP fun c => c.decision.requeues

end JobRecovery

/-- What an update writes to `attempt_no` is not below what has been spent. -/
def KeepsBudget (s : JobRecovery) : RecoveryEvent → Prop
  | .call c => ∀ n ∈ c.written, s.spent ≤ n
  | _ => True

instance : ∀ s e, Decidable (KeepsBudget s e)
  | s, .call c => inferInstanceAs (Decidable (∀ n ∈ c.written, s.spent ≤ n))
  | _, .register _ => isTrue trivial
  | _, .enter _ => isTrue trivial
  | _, .decide .. => isTrue trivial
  | _, .commit .. => isTrue trivial

/-- Recovery of the job is bounded so far, under a policy. -/
structure BoundedRecovery (policy : RecoveryPolicy) (s : JobRecovery) : Prop where
  within : s.spent ≤ max policy.maxResourceRetries policy.maxResourceDefers
  once : (s.committed.map fun c => c.processId).Nodup
  never : ∀ c ∈ s.committed, c.failure.neverRetried = true →
    c.decision.requeues = false ∧ (c.after.primaryState = .blocked ∨ c.after.primaryState = .lost)
  paired : ∀ failure attemptNo hasEvidenceUnknown preferExternalAvailable,
    isValidRecoveryPair failure (decideRecovery policy failure attemptNo hasEvidenceUnknown
      preferExternalAvailable) = true

/-! ### What a lease is worth -/

section Lease

variable {j j' : JobRow} {now : Time} {p : Primitive}

/-- What is not a claim leaves the lease as it is, or takes it away. -/
theorem Effect.lease (h : Effect now j p j') (hp : p.ordinary) :
    j.leaseEpoch < j'.leaseEpoch ∨ j'.leaseEpoch = j.leaseEpoch ∧
      (j'.ownerInstanceId = none ∨ j'.ownerInstanceId = j.ownerInstanceId) := by
  cases h with
  | claim | claimNext | takeover => exact .inl (Nat.lt_succ_self _)
  | renew => exact .inr ⟨rfl, .inr rfl⟩
  | reopen | recovery => cases hp
  | @update u =>
    simp only [Primitive.ordinary, Bool.and_eq_true, decide_eq_true_eq] at hp
    refine .inr ⟨by simp [JobUpdate.write, hp.1], ?_⟩
    cases howner : u.ownerInstanceId with
    | none => exact .inr (by simp [JobUpdate.write, howner])
    | some owner =>
      rw [howner] at hp
      exact .inl (by simpa [JobUpdate.write, howner] using hp.2)
  | _ => exact .inr ⟨rfl, .inl rfl⟩

theorem recovered_lease {reasonCode : String} {nextEligibleAt : Option Time}
    (h : recovered j reasonCode nextEligibleAt decision = some j') :
    j'.leaseEpoch = j.leaseEpoch ∧ j'.ownerInstanceId = none := by
  rcases recovered_cases h with ⟨-, rfl⟩ | ⟨-, rfl⟩ | rfl | rfl <;> exact ⟨rfl, rfl⟩

theorem recovered_out_of_service {reasonCode : String} {nextEligibleAt : Option Time}
    (h : recovered j reasonCode nextEligibleAt decision = some j')
    (hd : decision.requeues = false) :
    j'.primaryState = .blocked ∨ j'.primaryState = .lost := by
  rcases recovered_cases h with ⟨rfl, -⟩ | ⟨rfl, -⟩ | rfl | rfl
  · cases hd
  · cases hd
  · exact .inl rfl
  · exact .inr rfl

end Lease

namespace JobRecovery

/-- A commit is refused, or the lease it names is current, the process has no marker yet, the pair
is in the table and the row is as the decision leaves it. -/
theorem commit_cases (s : JobRecovery) (cas : LeaseCas) (d : Decided) (now : Time) :
    s.commitDecision cas d now = s ∨
      ∃ j', s.job.leaseIsCurrent cas now ∧ d.processId ∉ s.markers ∧
        isValidRecoveryPair d.failure d.decision ∧
        recovered s.job (reasonCodeForFailure d.failure) d.nextEligibleAt d.decision = some j' ∧
        s.commitDecision cas d now =
          { s with
            job := j'
            attemptNo := if d.decision.requeues then s.attemptNo + 1 else s.attemptNo
            markers := s.markers ++ [d.processId]
            committed := s.committed ++ [⟨d, j'⟩] } := by
  cases href : (s.commitCall cas d now).refused s.job with
  | true => exact .inl (by rw [commitDecision, if_pos href])
  | false =>
    obtain ⟨j', hj'⟩ := not_refused_iff.mp href
    have hstep := step_of_attempt hj'
    simp only [commitCall, Primitive.at, Primitive.attempt, Option.ite_none_right_eq_some,
      Bool.and_eq_true, Bool.not_eq_true', decide_eq_false_iff_not, decide_eq_true_eq] at hj'
    obtain ⟨⟨⟨⟨⟨⟨⟨hpair, -⟩, -⟩, -⟩, -⟩, hcur⟩, hmark⟩, hrec⟩ := hj'
    refine .inr ⟨j', hcur, hmark, hpair, hrec, ?_⟩
    rw [commitDecision, href, hstep]
    rfl

/-- What an event can do, as far as the budget goes. -/
inductive Next (policy : RecoveryPolicy) (s : JobRecovery) : RecoveryEvent → JobRecovery → Prop
  | same {e : RecoveryEvent} : Next policy s e s
  | register {registry} : Next policy s (.register registry) { s with registry := registry }
  | call {c : OrdinaryCall} {j'} (heff : Effect c.now s.job c.op j') :
    Next policy s (.call c)
      { s with
        job := j'
        attemptNo := c.attemptAfter s.attemptNo
        expectedDispatchId := c.dispatchAfter s.expectedDispatchId }
  | enter {cas} (hep : cas.epoch ≤ s.job.leaseEpoch) :
    Next policy s (.enter cas)
      { s with recovering := s.recovering ++ [{ cas := cas, attemptNo := s.attemptNo }] }
  | decide {n now bootId hasEvidenceUnknown preferExternalAvailable} :
    Next policy s (.decide n now bootId hasEvidenceUnknown preferExternalAvailable)
      { s with
        recovering := s.recovering.modify n fun r =>
          { r with
            decided :=
              s.decideFor policy r now bootId hasEvidenceUnknown preferExternalAvailable } }
  | commit {n now cas attemptNo d j'} (hr : ⟨cas, attemptNo, some d⟩ ∈ s.recovering)
    (hcur : s.job.leaseIsCurrent cas now = true) (hmark : d.processId ∉ s.markers)
    (hpair : isValidRecoveryPair d.failure d.decision = true)
    (hrec :
      recovered s.job (reasonCodeForFailure d.failure) d.nextEligibleAt d.decision = some j') :
    Next policy s (.commit n now)
      { s with
        job := j'
        attemptNo := if d.decision.requeues then s.attemptNo + 1 else s.attemptNo
        markers := s.markers ++ [d.processId]
        committed := s.committed ++ [⟨d, j'⟩] }

/-- **What an event does.** -/
theorem next (policy : RecoveryPolicy) (s : JobRecovery) (e : RecoveryEvent) :
    Next policy s e (s.step policy e) := by
  cases e with
  | register registry => exact .register
  | call c =>
    simp only [step]
    rcases step_cases s.job c.toCall with ⟨href, -⟩ | ⟨hnot, heff⟩
    · rw [if_pos href]
      exact .same
    · rw [hnot]
      exact .call heff
  | enter cas =>
    simp only [step]
    split
    next h => exact .enter h.2.2
    next => exact .same
  | decide n now bootId hasEvidenceUnknown preferExternalAvailable => exact .decide
  | commit n now =>
    simp only [step]
    split
    next cas attemptNo d hn =>
      rcases commit_cases s cas d now with hsame | ⟨j', hcur, hmark, hpair, hrec, hnext⟩
      · rw [hsame]
        exact .same
      · rw [hnext]
        exact .commit (List.mem_of_getElem? hn) hcur hmark hpair hrec
    next => exact .same

variable {policy : RecoveryPolicy} {s s' : JobRecovery} {e : RecoveryEvent}

theorem spent_append (s : JobRecovery) (c : Committed) :
    (s.committed ++ [c]).countP (fun c => c.decision.requeues) =
      if c.decision.requeues then s.spent + 1 else s.spent := by
  rw [List.countP_append, List.countP_singleton]
  split <;> rfl

/-! ### What every run keeps -/

/-- Each process commits once, and what is never retried is taken out of service. -/
structure Recorded (s : JobRecovery) : Prop where
  marked : s.committed.map (fun c => c.processId) = s.markers
  nodup : s.markers.Nodup
  never : ∀ c ∈ s.committed, c.failure.neverRetried = true →
    c.decision.requeues = false ∧ (c.after.primaryState = .blocked ∨ c.after.primaryState = .lost)

theorem Next.recorded (h : Next policy s e s') (hs : Recorded s) : Recorded s' := by
  cases h with
  | @commit n now cas attemptNo d j' hr hcur hmark hpair hrec =>
    refine ⟨by simp [hs.marked], ?_, ?_⟩
    · rw [List.nodup_append]
      exact ⟨hs.nodup, List.nodup_singleton _, fun a ha b hb hab => by
        rw [List.mem_singleton.mp hb] at hab
        exact hmark (hab ▸ ha)⟩
    · intro c hc hnever
      rcases List.mem_append.mp hc with hc | hc
      · exact hs.never c hc hnever
      · rw [List.mem_singleton.mp hc] at hnever ⊢
        have hd := requeues_eq_false_of_pair hnever hpair
        exact ⟨hd, recovered_out_of_service hrec hd⟩
  | _ => exact ⟨hs.marked, hs.nodup, hs.never⟩

/-! ### The budget -/

/-- The budget is kept, and what has been read under the lease that is current is not below what has
been spent. -/
structure Budgeted (policy : RecoveryPolicy) (s : JobRecovery) : Prop where
  within : s.spent ≤ policy.budget
  counted : s.spent ≤ s.attemptNo
  named : ∀ r ∈ s.recovering, r.cas.epoch ≤ s.job.leaseEpoch
  fresh : ∀ r ∈ s.recovering, r.cas.epoch = s.job.leaseEpoch →
    s.job.ownerInstanceId = some r.cas.owner → s.spent ≤ r.attemptNo
  limited : ∀ r ∈ s.recovering, ∀ d ∈ r.decided, d.decision.requeues = true →
    r.attemptNo < policy.budget

theorem counted_call {c : OrdinaryCall} (hs : s.spent ≤ s.attemptNo)
    (hc : KeepsBudget s (.call c)) : s.spent ≤ c.attemptAfter s.attemptNo := by
  have hkeep : s.spent ≤ c.written.getD s.attemptNo := by
    cases hw : c.written with
    | none => exact hs
    | some n => exact hc n hw
  unfold OrdinaryCall.attemptAfter
  split <;> first | exact hkeep | (split <;> omega)

/-- A run of `classify_and_recover` that has looked for the evidence is one that has started, with
what it has read. -/
theorem mem_of_mem_modify {l : List Recovering} {f : Recovering → Option Decided} {n : ℕ}
    {r : Recovering} (h : r ∈ l.modify n fun r => { r with decided := f r }) :
    r ∈ l ∨ ∃ r₀ ∈ l, r = { r₀ with decided := f r₀ } := by
  obtain ⟨m, hm⟩ := List.mem_iff_getElem?.mp h
  rw [List.getElem?_modify] at hm
  obtain ⟨r₀, hr₀, rfl⟩ := Option.map_eq_some_iff.mp hm
  have hmem := List.mem_of_getElem? hr₀
  by_cases hnm : n = m
  · exact .inr ⟨r₀, hmem, by simp [hnm]⟩
  · exact .inl (by simpa [hnm] using hmem)

theorem requeues_of_decideFor {r : Recovering} {now : Time} {bootId : Option String}
    {hasEvidenceUnknown preferExternalAvailable : Bool} {d : Decided}
    (h : s.decideFor policy r now bootId hasEvidenceUnknown preferExternalAvailable = some d)
    (hd : d.decision.requeues) : r.attemptNo < policy.budget := by
  unfold decideFor at h
  split at h
  · cases h
  · split at h
    · cases h
    · split at h
      · cases h
        exact lt_budget_of_requeues hd
      · cases h

theorem Next.budgeted (h : Next policy s e s') (hs : Budgeted policy s) (he : KeepsBudget s e) :
    Budgeted policy s' := by
  cases h with
  | same | register => exact ⟨hs.within, hs.counted, hs.named, hs.fresh, hs.limited⟩
  | @call c j' heff =>
    refine ⟨hs.within, counted_call hs.counted he, ?_, ?_, hs.limited⟩
    · intro r hr
      have hr' := hs.named r hr
      rcases heff.lease c.ordinary with hlt | ⟨heq, -⟩
      · exact hr'.trans hlt.le
      · exact hr'.trans heq.ge
    · intro r hr hep howner
      -- a lease that was handed out before is not that of a new claim
      rcases heff.lease c.ordinary with hlt | ⟨heq, hnone | hsame⟩
      · have hnamed := hs.named r hr
        have hep' : r.cas.epoch = j'.leaseEpoch := hep
        omega
      · rw [hnone] at howner
        cases howner
      · exact hs.fresh r hr (hep.trans heq) (hsame ▸ howner)
  | @enter cas hep =>
    refine ⟨hs.within, hs.counted, ?_, ?_, ?_⟩ <;> intro r hr <;>
      rcases List.mem_append.mp hr with hr | hr
    · exact hs.named r hr
    · rw [List.mem_singleton.mp hr]
      exact hep
    · exact hs.fresh r hr
    · rw [List.mem_singleton.mp hr]
      exact fun _ _ => hs.counted
    · exact hs.limited r hr
    · rw [List.mem_singleton.mp hr]
      intro d hd
      cases hd
  | @decide n now bootId unknown external =>
    refine ⟨hs.within, hs.counted, ?_, ?_, ?_⟩ <;> intro r hr <;>
      obtain hr | ⟨r₀, hr₀, rfl⟩ := mem_of_mem_modify hr
    · exact hs.named r hr
    · exact hs.named r₀ hr₀
    · exact hs.fresh r hr
    · exact hs.fresh r₀ hr₀
    · exact hs.limited r hr
    · intro d hd
      exact requeues_of_decideFor hd
  | @commit n now cas attemptNo d j' hr hcur hmark hpair hrec =>
    simp only [JobRow.leaseIsCurrent, Bool.and_eq_true, decide_eq_true_eq] at hcur
    obtain ⟨⟨howner, hep⟩, -⟩ := hcur
    have hread := hs.fresh _ hr hep.symm howner
    obtain ⟨hepoch, hnone⟩ := recovered_lease hrec
    refine ⟨?_, ?_, ?_, ?_, hs.limited⟩
    · rw [spent, spent_append]
      split
      next hd => exact hread.trans_lt (hs.limited _ hr d rfl hd)
      next => exact hs.within
    · have hcounted := hs.counted
      simp only [spent, spent_append]
      split <;> simp_all [spent]
    · intro r hr
      exact (hs.named r hr).trans hepoch.ge
    · intro r _ _ howner'
      simp only [hnone] at howner'
      cases howner'

end JobRecovery

/-- A job that nothing has recovered yet. -/
def JobRecovery.start (job : JobRow) : JobRecovery where
  job := job

theorem recorded_start (job : JobRow) : JobRecovery.Recorded (.start job) :=
  ⟨rfl, List.nodup_nil, fun _ hc => absurd hc List.not_mem_nil⟩

theorem budgeted_start (policy : RecoveryPolicy) (job : JobRow) :
    JobRecovery.Budgeted policy (.start job) :=
  ⟨Nat.zero_le _, Nat.zero_le _, fun _ hr => absurd hr List.not_mem_nil,
    fun _ hr => absurd hr List.not_mem_nil, fun _ hr => absurd hr List.not_mem_nil⟩

theorem run_recorded (policy : RecoveryPolicy) (job : JobRow) (es : List RecoveryEvent) :
    JobRecovery.Recorded (Runs.run (JobRecovery.step policy) (.start job) es) := by
  have hall : Runs.Along (JobRecovery.step policy) (fun _ _ => True) (.start job) es :=
    Runs.along_of_forall fun _ _ => trivial
  exact Runs.run_inv (fun s e hs _ => (s.next policy e).recorded hs) (recorded_start job) hall

/-- **Recovery is bounded in every run in which no update writes less to `attempt_no` than has been
spent.** -/
theorem bounded_recovery (policy : RecoveryPolicy) (job : JobRow) (es : List RecoveryEvent)
    (hes : Runs.Along (JobRecovery.step policy) KeepsBudget (.start job) es) :
    ∀ before after, es = before ++ after →
      BoundedRecovery policy (Runs.run (JobRecovery.step policy) (.start job) before) := by
  rintro before after rfl
  have hbudget : JobRecovery.Budgeted policy
      (Runs.run (JobRecovery.step policy) (.start job) before) :=
    Runs.run_inv (fun s e hs he => (s.next policy e).budgeted hs he) (budgeted_start policy job)
      (Runs.along_append.mp hes).1
  have hrecorded := run_recorded policy job before
  exact
    { within := hbudget.within
      once := hrecorded.marked ▸ hrecorded.nodup
      never := hrecorded.never
      paired := isValidRecoveryPair_decideRecovery policy }

/-! ### The budget spent twice -/

/-- The registration of a process of a dispatch that has run out of time. -/
def timedOut (processId dispatchId : String) : Registration where
  processId := processId
  jobId := "job"
  dispatchId := some dispatchId
  pid := 7
  terminationClass := some .timeout
  timedOut := true
  scopeEvents := none
  status := .terminal
  exitCode := none
  terminalAt := some 0
  bootId := some "boot"

/-- What one dispatch does: an instance claims the job, a reconcile pass writes the dispatch and the
number of its attempt to the row, its process runs out of time, and the instance recovers the
job. -/
def dispatched (n : ℕ) (now : Time) (dispatchId : String) (attemptNo : ℕ)
    (registry : List Registration) : List RecoveryEvent :=
  [.call { (Primitive.queue (.claim "a" 60)).at now with ordinary := rfl },
    .call { (Primitive.update {}).at now with
      ordinary := rfl
      attemptNo := some attemptNo
      expectedDispatchId := some (some dispatchId) },
    .register registry,
    .enter ⟨"a", n + 1⟩,
    .decide n now (some "boot") false false,
    .commit n now]

/-- The steps of three dispatches, each in its first attempt. -/
def refunded : List RecoveryEvent :=
  dispatched 0 0 "d1" 1 [timedOut "p1" "d1"] ++
    dispatched 1 1000000000 "d2" 1 [timedOut "p1" "d1", timedOut "p2" "d2"] ++
    dispatched 2 2000000000 "d3" 1
      [timedOut "p1" "d1", timedOut "p2" "d2", timedOut "p3" "d3"]

theorem refunded_not_bounded :
    ¬BoundedRecovery {} (Runs.run (JobRecovery.step {})
      (.start (createSupervisorJob "job" "task")) refunded) := by
  intro h
  have hthree : (Runs.run (JobRecovery.step {}) (.start (createSupervisorJob "job" "task"))
      refunded).spent = 3 := by
    decide
  have hwithin := h.within
  rw [hthree] at hwithin
  exact absurd hwithin (by decide)

/-- Two attempts of one dispatch, which the row counts on: one retry, and the job is blocked. -/
theorem bounded_recovery_blocked :
    BoundedRecovery {} (Runs.run (JobRecovery.step {}) (.start (createSupervisorJob "job" "task"))
      (dispatched 0 0 "d1" 1 [timedOut "p1" "d1"] ++
        dispatched 1 1000000000 "d2" 2 [timedOut "p1" "d1", timedOut "p2" "d2"])) :=
  bounded_recovery {} _ _
    (by decide) _ [] (List.append_nil _).symm

end Jobs

end ArgentTeam
