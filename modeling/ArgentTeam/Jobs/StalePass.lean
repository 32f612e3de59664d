import ArgentTeam.Jobs.Lease
import ArgentTeam.Jobs.Terminal

/-!
# What a stale pass still writes

A pass of the scheduler claims a job, lets gate after gate look at it, and writes what they
decide. Its lease may run out on the way, and another instance may take the job. What the pass
writes from then on names its own lease, and is refused; but three of its writes are
quarantines that name nothing. `stale_pass_iff` says that a stale pass leaves the job to its
new holder exactly if it comes to none of the three.
-/

namespace ArgentTeam

namespace Jobs

open Supervisor

/-- What the rest of a pass writes to the row of its job. -/
inductive PassWrite
  /-- `_concurrency_defer_job`. -/
  | concurrencyDefer (nextEligibleAt : Option Time) (reasonCode : String)
  /-- `_concurrency_block_job`. -/
  | concurrencyBlock (reasonCode : String)
  /-- `_defer_resource_job`. -/
  | deferResource (nextEligibleAt : Option Time) (reasonCode : String)
  /-- `_deny_resource_job`. -/
  | denyResource (far : Option Time)
  /-- `_persist_resource_hint`. -/
  | resourceHint
  /-- `_enforcement_failed_job`. -/
  | enforcementFailed (nextEligibleAt : Option Time) (reasonCode : String)
  /-- `_enforcement_lost_job`. -/
  | enforcementLost (reasonCode : Option String)
  /-- `_context_failed_job`. -/
  | contextFailed (nextEligibleAt : Option Time) (reasonCode : Option String)
  /-- `_context_blocked_job`. -/
  | contextBlocked (reasonCode : Option String)
  /-- `classify_and_recover`. -/
  | recover (failure : FailureClass) (decision : RecoveryDecision) (reasonCode : String)
    (nextEligibleAt : Option Time) (consumed : Bool)
  /-- The renewal at the end of a pass, with the epoch of the row it has read. -/
  | renew (epoch ttl : ℕ)
  | clearLease (epoch : ℕ)

/-- The call of the store behind a write, for the owner and the epoch of the pass. A hint is
written to columns of its own. -/
def PassWrite.primitive (owner : String) (epoch : ℕ) : PassWrite → Option Primitive
  | .concurrencyDefer nextEligibleAt reasonCode =>
    some (.queue (.requeue ⟨owner, epoch⟩
      ⟨.concurrencySerialized, nextEligibleAt, false, some reasonCode⟩))
  | .concurrencyBlock reasonCode => some (.queue (.quarantineBlocked reasonCode none))
  | .deferResource nextEligibleAt reasonCode | .enforcementFailed nextEligibleAt reasonCode =>
    some (.queue (.requeue ⟨owner, epoch⟩
      ⟨.resourceDeferred, nextEligibleAt, false, some reasonCode⟩))
  | .denyResource far =>
    some (.queue (.requeue ⟨owner, epoch⟩
      ⟨.resourceDenied, far, false, some "LOCAL_CAPACITY_INSUFFICIENT"⟩))
  | .resourceHint => none
  | .enforcementLost reasonCode =>
    some (.queue (.quarantineLost (reasonCode.getD "SCOPE_CLEANUP_UNVERIFIED") none))
  | .contextFailed nextEligibleAt reasonCode =>
    some (.queue (.requeue ⟨owner, epoch⟩
      ⟨.retryBackoff, nextEligibleAt, false, some (reasonCode.getD "CONTEXT_BUDGET_EXCEEDED")⟩))
  | .contextBlocked reasonCode =>
    some (.queue (.quarantineBlocked (reasonCode.getD "CONTEXT_BUDGET_EXCEEDED") none))
  | .recover failure decision reasonCode nextEligibleAt consumed =>
    some (.commitRecovery ⟨owner, epoch⟩ failure decision reasonCode nextEligibleAt none consumed)
  | .renew epochRead ttl => some (.queue (.renew ⟨owner, epochRead⟩ ttl))
  | .clearLease epochRead => some (.queue (.clear ⟨owner, epochRead⟩))

/-- What happens to the row while the pass goes on. -/
inductive Turn
  | other (c : Call)
  | late (w : PassWrite) (now : Time)

/-- One turn, for the owner and the epoch of the pass. -/
def turn (owner : String) (epoch : ℕ) (j : JobRow) : Turn → JobRow
  | .other c => step j c
  | .late w now =>
    match w.primitive owner epoch with
    | none => j
    | some p => step j (p.at now)

def Primitive.claimant : Primitive → Option String
  | .queue (.claim owner _) | .queue (.takeover _ owner _ _ _) | .claimNext owner _ _ => some owner
  | _ => none

/-- What does not write another owner or epoch directly. An update may clear the lease, as the
commit of a backoff does. -/
def Primitive.keepsLease : Primitive → Bool
  | .update u => u.leaseEpoch = none && (u.ownerInstanceId = none || u.ownerInstanceId = some none)
  | _ => true

/-- While its pass goes on, an instance claims nothing else. -/
def Turn.byOthers (owner : String) : Turn → Prop
  | .other c => c.op.keepsLease = true ∧ c.op.claimant ≠ some owner
  | .late .. => True

/-- The columns that say where a job stands and who holds it. -/
structure SameHolder (j j' : JobRow) : Prop where
  primaryState : j'.primaryState = j.primaryState
  status : j'.status = j.status
  terminal : j'.terminal = j.terminal
  ownerInstanceId : j'.ownerInstanceId = j.ownerInstanceId
  leaseEpoch : j'.leaseEpoch = j.leaseEpoch
  leaseExpiresAt : j'.leaseExpiresAt = j.leaseExpiresAt

/-- A write of the pass after a later claim leaves the job to its holder. -/
def Harmless (owner : String) (epoch : ℕ) (j : JobRow) : Turn → Prop
  | .other _ => True
  | .late w now => epoch < j.leaseEpoch → SameHolder j (turn owner epoch j (.late w now))

/-- A job that is lost, and that nobody holds. -/
def LostAtRest (j : JobRow) : Prop :=
  j.primaryState = .lost ∧ j.status = .recovering ∧ j.ownerInstanceId = none ∧
    j.leaseExpiresAt = none

/-- After a later claim, the pass comes to none of the quarantines that name no lease, unless
the job has ended by then, or is where the quarantine would put it. -/
def NamesItsLease (epoch : ℕ) (j : JobRow) : Turn → Prop
  | .late (.concurrencyBlock _) _ | .late (.contextBlocked _) _ =>
    epoch < j.leaseEpoch → j.transitionable false = false
  | .late (.enforcementLost _) _ =>
    epoch < j.leaseEpoch → j.transitionable false = true → LostAtRest j
  | _ => True

variable {owner : String} {epoch : ℕ} {j j' : JobRow} {now : Time} {w : PassWrite} {ts : List Turn}

/-- The owner after a call: the one before, nobody, or the one a claim is for, under the next
epoch. -/
theorem Effect.lease_owner {p : Primitive} (h : Effect now j p j') (hk : p.keepsLease) :
    (j'.leaseEpoch = j.leaseEpoch ∧
      (j'.ownerInstanceId = j.ownerInstanceId ∨ j'.ownerInstanceId = none)) ∨
      (j'.leaseEpoch = j.leaseEpoch + 1 ∧ j'.ownerInstanceId = p.claimant) := by
  cases h with
  | claim | claimNext | takeover => exact .inr ⟨rfl, rfl⟩
  | renew => exact .inl ⟨rfl, .inl rfl⟩
  | recovery _ _ _ hrec =>
    rcases recovered_cases hrec with ⟨-, rfl⟩ | ⟨-, rfl⟩ | rfl | rfl <;> exact .inl ⟨rfl, .inr rfl⟩
  | @update u =>
    simp only [Primitive.keepsLease, Bool.and_eq_true, Bool.or_eq_true, decide_eq_true_eq] at hk
    obtain ⟨he, ho | ho⟩ := hk
    · exact .inl ⟨by simp [JobUpdate.write, he], .inl (by simp [JobUpdate.write, ho])⟩
    · exact .inl ⟨by simp [JobUpdate.write, he], .inr (by simp [JobUpdate.write, ho])⟩
  | missing | takeoverBlocked | takeoverLost | requeue | requeueByOwner | enqueue | reopen
  | release | clear | quarantineLost | quarantineBlocked | waitExternal | completeWait =>
    exact .inl ⟨rfl, .inr rfl⟩

/-- Once there was a later claim, the instance of the pass does not hold the job. -/
def Outlived (owner : String) (epoch : ℕ) (j : JobRow) : Prop :=
  epoch ≤ j.leaseEpoch ∧ (epoch < j.leaseEpoch → j.ownerInstanceId ≠ some owner)

theorem Outlived.step {c : Call} (h : Outlived owner epoch j) (hk : c.op.keepsLease)
    (hc : c.op.claimant ≠ some owner) : Outlived owner epoch (step j c) := by
  rcases step_cases j c with ⟨-, hsame⟩ | ⟨-, heff⟩
  · rwa [hsame]
  · rcases heff.lease_owner hk with ⟨hepoch, howner⟩ | ⟨hepoch, howner⟩
    · refine ⟨hepoch ▸ h.1, fun hlt => ?_⟩
      rw [hepoch] at hlt
      rcases howner with howner | howner
      · rw [howner]
        exact h.2 hlt
      · rw [howner]
        exact fun hcon => by cases hcon
    · refine ⟨by have := h.1; omega, fun _ => ?_⟩
      rw [howner]
      exact hc

theorem PassWrite.claimant_eq_none {p : Primitive} (h : w.primitive owner epoch = some p) :
    p.keepsLease ∧ p.claimant = none := by
  cases w <;> cases h <;> exact ⟨rfl, rfl⟩

theorem Outlived.turn {t : Turn} (ht : t.byOthers owner) (h : Outlived owner epoch j) :
    Outlived owner epoch (turn owner epoch j t) := by
  cases t with
  | other c => exact h.step ht.1 ht.2
  | late w now =>
    simp only [Jobs.turn]
    cases hp : w.primitive owner epoch with
    | none => exact h
    | some p =>
      obtain ⟨hk, hc⟩ := PassWrite.claimant_eq_none hp
      exact Outlived.step h hk (by rw [Primitive.at, hc]; exact fun hcon => by cases hcon)

theorem SameHolder.refl (j : JobRow) : SameHolder j j := ⟨rfl, rfl, rfl, rfl, rfl, rfl⟩

theorem step_of_not_current {c : Call} {cas : LeaseCas} (hn : c.op.names = some cas)
    (hc : j.ownerInstanceId ≠ some cas.owner) : step j c = j := by
  rcases step_cases j c with ⟨-, hsame⟩ | ⟨hnot, -⟩
  · exact hsame
  · have hcurrent := current_of_names hn hnot
    simp only [JobRow.leaseIsCurrent, Bool.and_eq_true, decide_eq_true_eq] at hcurrent
    exact absurd hcurrent.1.1 hc

/-- A quarantine that names no snapshot blocks any job that has not ended. -/
theorem sameHolder_quarantineBlocked_iff {errorCode : String} :
    SameHolder j (step j ((Primitive.queue (.quarantineBlocked errorCode none)).at now)) ↔
      j.transitionable false = false := by
  cases ht : j.transitionable false with
  | false =>
    have hsame : step j ((Primitive.queue (.quarantineBlocked errorCode none)).at now) = j := by
      simp [step, Primitive.at, Primitive.attempt, QueueOp.attempt, ht]
    rw [hsame]
    exact iff_of_true (SameHolder.refl j) rfl
  | true =>
    have hstep : step j ((Primitive.queue (.quarantineBlocked errorCode none)).at now) =
        j.quarantined .blocked .terminal (some .blocked) errorCode := by
      simp [step, Primitive.at, Primitive.attempt, QueueOp.attempt, ht]
    rw [hstep]
    refine iff_of_false (fun h => ?_) (by decide)
    have hend : some Terminal.blocked = j.terminal := h.terminal
    rw [terminal_eq_none_of_transitionable ht] at hend
    cases hend

/-- One that takes a job for lost does so with any that has not ended. -/
theorem sameHolder_quarantineLost_iff {errorCode : String} :
    SameHolder j (step j ((Primitive.queue (.quarantineLost errorCode none)).at now)) ↔
      (j.transitionable false → LostAtRest j) := by
  cases ht : j.transitionable false with
  | false =>
    have hsame : step j ((Primitive.queue (.quarantineLost errorCode none)).at now) = j := by
      simp [step, Primitive.at, Primitive.attempt, QueueOp.attempt, ht]
    rw [hsame]
    exact iff_of_true (SameHolder.refl j) fun h => by cases h
  | true =>
    have hstep : step j ((Primitive.queue (.quarantineLost errorCode none)).at now) =
        j.quarantined .lost .recovering j.terminal errorCode := by
      simp [step, Primitive.at, Primitive.attempt, QueueOp.attempt, ht]
    rw [hstep]
    constructor
    · intro h _
      exact ⟨h.primaryState.symm, h.status.symm, h.ownerInstanceId.symm, h.leaseExpiresAt.symm⟩
    · intro h
      obtain ⟨hp, hs, ho, hl⟩ := h rfl
      exact ⟨hp.symm, hs.symm, rfl, ho.symm, rfl, hl.symm⟩

/-- **A write of a pass leaves the job to a later holder exactly if it names its lease.** -/
theorem harmless_iff {t : Turn} (h : Outlived owner epoch j) :
    Harmless owner epoch j t ↔ NamesItsLease epoch j t := by
  cases t with
  | other c => exact Iff.rfl
  | late w now =>
    have hnamed : ∀ p cas, w.primitive owner epoch = some p → p.names = some cas →
        cas.owner = owner → Harmless owner epoch j (.late w now) := by
      rintro p cas hp hn rfl hlt
      have hsame : turn cas.owner epoch j (.late w now) = j := by
        simp only [turn, hp]
        exact step_of_not_current (c := p.at now) hn (h.2 hlt)
      rw [hsame]
      exact SameHolder.refl j
    cases w with
    | concurrencyBlock | contextBlocked =>
      exact forall_congr' fun _ => sameHolder_quarantineBlocked_iff
    | enforcementLost reasonCode => exact forall_congr' fun _ => sameHolder_quarantineLost_iff
    | resourceHint => exact iff_of_true (fun _ => SameHolder.refl j) trivial
    | concurrencyDefer | deferResource | denyResource | enforcementFailed | contextFailed | recover
    | renew | clearLease => exact iff_of_true (hnamed _ _ rfl rfl rfl) trivial

/-- **A stale pass changes nothing exactly if it comes to none of the quarantines that name no
lease.** -/
theorem stale_pass_iff (j : JobRow) (ht : ∀ t ∈ ts, t.byOthers owner) :
    Runs.Along (turn owner j.leaseEpoch) (Harmless owner j.leaseEpoch) j ts ↔
      Runs.Along (turn owner j.leaseEpoch) (NamesItsLease j.leaseEpoch) j ts := by
  have hstart : Outlived owner j.leaseEpoch j := ⟨le_refl _, fun h => absurd h (lt_irrefl _)⟩
  exact Runs.along_congr_of_inv (I := Outlived owner j.leaseEpoch) (D := Turn.byOthers owner)
    (fun _ _ hd hi => hi.turn hd) (fun _ _ _ hi => harmless_iff hi) hstart ht

/-- A job that the first instance has claimed for a minute. -/
def claimedByFirst : JobRow := (createSupervisorJob "job" "task").leasedTo "first" 60 0

/-- The minute is over, and the second instance takes the job over. -/
def takenOver : Turn :=
  .other ((Primitive.queue
    (.takeover claimedByFirst "second" 60 false none)).at (later 0 61))

/-- The gate of the first pass then finds that a prerequisite is missing, and blocks the job
that the second instance runs. -/
theorem stale_gate_blocks :
    ¬Runs.Along (turn "first" claimedByFirst.leaseEpoch)
      (Harmless "first" claimedByFirst.leaseEpoch)
      claimedByFirst [takenOver, .late (.concurrencyBlock "DEPENDENCY_UNKNOWN") (later 0 62)] := by
  rintro ⟨-, hlate, -⟩
  exact absurd (hlate (by decide)).ownerInstanceId (by decide)

/-- What a gate of the first pass defers stays with the second instance. -/
theorem stale_gate_defers :
    Runs.Along (turn "first" claimedByFirst.leaseEpoch) (Harmless "first" claimedByFirst.leaseEpoch)
      claimedByFirst [takenOver, .late (.concurrencyDefer none "WORKTREE") (later 0 62)] := by
  refine (stale_pass_iff _ ?_).mpr ⟨trivial, trivial, trivial⟩
  intro t ht
  rcases List.mem_cons.mp ht with rfl | ht
  · exact ⟨rfl, by decide⟩
  · rw [List.mem_singleton.mp ht]
    trivial

end Jobs

end ArgentTeam
