import ArgentTeam.Jobs.Primitives

/-!
# The doors out of the parked states

A job that waits for its owner, is lost, or waits for something external is parked: nothing
that claims, leases or queues jobs is to bring it back, the end of a wait is the only way out
of `WAITING_EXTERNAL`, and the authorisation of the owner the only way out of `BLOCKED`.

The claims look at the primary state. What a holder may do looks at the lease only, and an
update that parks a job leaves its lease where it was; `own_doors_iff` says which calls go
through another job's door.
-/

namespace ArgentTeam

namespace Jobs

open Supervisor

def parked : PrimaryState → Bool
  | .ownerGate | .lost | .waitingExternal => true
  | _ => false

/-- The claims, the lease primitives and every kind of `enqueue_job`. -/
def Primitive.leasesOrEnqueues : Primitive → Bool
  | .queue (.claim ..) | .claimNext .. | .queue (.renew ..) | .queue (.clear ..)
  | .queue (.release ..) | .queue (.requeue ..) | .queue (.enqueue ..) | .queue (.reopen ..)
  | .requeueByOwner .. => true
  | _ => false

/-- A call opens no door but its own. -/
structure OwnDoor (j : JobRow) (c : Call) : Prop where
  parked : parked j.primaryState = true → c.op.leasesOrEnqueues = true →
    (step j c).primaryState ≠ .queued ∧ (step j c).primaryState ≠ .running
  waiting : j.primaryState = .waitingExternal → (step j c).primaryState = .queued →
    ∃ queueReason, c.op = .completeWait queueReason
  blocked : j.primaryState = .blocked → (step j c).primaryState = .queued →
    ∃ policyRef r, c.op = .queue (.reopen policyRef r)

/-- A call that its guards admit does not queue a parked job on the strength of a lease that
was left on it, nor write a waiting or blocked one back into the queue. -/
def LeavesParked (j : JobRow) (c : Call) : Prop :=
  c.admitted j = true →
    match c.op with
    | .queue (.release _) | .queue (.requeue ..) | .requeueByOwner .. =>
      Jobs.parked j.primaryState = false
    | .update u => j.primaryState = .waitingExternal ∨ j.primaryState = .blocked →
        u.newPrimaryState j ≠ .queued
    | _ => True

variable {j j' : JobRow} {c : Call} {cs : List Call}

theorem ne_blocked_of_transitionable (h : j.transitionable false) :
    j.primaryState ≠ .blocked := by
  intro hb
  simp [JobRow.transitionable, hb] at h

theorem OwnDoor.of_not_parked (hp : Jobs.parked j.primaryState = false)
    (hb : j.primaryState ≠ .blocked) : OwnDoor j c := by
  refine ⟨fun h => ?_, fun h => ?_, fun h => absurd h hb⟩
  · rw [hp] at h
    cases h
  · rw [h] at hp
    cases hp

theorem OwnDoor.of_same (h : (step j c).primaryState = j.primaryState) : OwnDoor j c := by
  refine ⟨fun hp _ => ?_, fun hw hq => ?_, fun hb hq => ?_⟩
  · rw [h]
    constructor <;> intro heq <;> rw [heq] at hp <;> cases hp
  · rw [h, hw] at hq
    cases hq
  · rw [h, hb] at hq
    cases hq

theorem OwnDoor.of_not_queued (hq : (step j c).primaryState ≠ .queued)
    (hr : c.op.leasesOrEnqueues → (step j c).primaryState ≠ .running) : OwnDoor j c :=
  ⟨fun _ hop => ⟨hq, hr hop⟩, fun _ h => absurd h hq, fun _ h => absurd h hq⟩

theorem ownDoor_queued_iff (hop : c.op.leasesOrEnqueues)
    (hq : (step j c).primaryState = .queued) (hb : j.primaryState ≠ .blocked) :
    OwnDoor j c ↔ Jobs.parked j.primaryState = false := by
  constructor
  · intro h
    cases hp : Jobs.parked j.primaryState with
    | false => rfl
    | true => exact absurd hq (h.parked hp hop).1
  · exact fun hp => OwnDoor.of_not_parked hp hb

theorem ownDoor_iff (j : JobRow) (c : Call) : OwnDoor j c ↔ LeavesParked j c := by
  refine iff_admitted_imp (fun hsame => OwnDoor.of_same (by rw [hsame])) fun heff => ?_
  obtain ⟨now, journal, p⟩ := c
  generalize hj' : step j ⟨now, journal, p⟩ = j' at heff
  have hqueued : parked .queued = false := rfl
  have hrunning : parked .running = false := rfl
  -- a claim starts from a state that is not parked, and a quarantine does not end in `QUEUED`
  cases heff with
  | claim hq | claimNext hq | missing hq | enqueue _ hq =>
    exact iff_of_true (OwnDoor.of_not_parked (hq ▸ hqueued) (by rw [hq]; decide)) trivial
  | takeover hr | takeoverBlocked hr | takeoverLost hr | waitExternal hr | recovery _ hr =>
    exact iff_of_true (OwnDoor.of_not_parked (hr ▸ hrunning) (by rw [hr]; decide)) trivial
  | requeue ht | requeueByOwner _ ht | release ht =>
    exact ownDoor_queued_iff rfl (by rw [hj']; rfl) (ne_blocked_of_transitionable ht)
  | reopen _ _ hb =>
    refine iff_of_true ⟨fun hp => ?_, fun hw => ?_, fun _ _ => ⟨_, _, rfl⟩⟩ trivial
    · rw [hb] at hp
      cases hp
    · rw [hb] at hw
      cases hw
  | quarantineLost | quarantineBlocked =>
    refine iff_of_true (OwnDoor.of_not_queued ?_ fun h => by cases h) trivial
    rw [hj']
    intro h
    cases h
  | completeWait hw =>
    refine iff_of_true ⟨fun _ h => ?_, fun _ _ => ⟨_, rfl⟩, fun hb => ?_⟩ trivial
    · cases h
    · rw [hw] at hb
      cases hb
  | renew => exact iff_of_true (OwnDoor.of_same (by rw [hj'])) trivial
  | clear =>
    refine iff_of_true (OwnDoor.of_same ?_) trivial
    rw [hj']
    rfl
  | @update u =>
    have hstep : (step j ⟨now, journal, .update u⟩).primaryState = u.newPrimaryState j := by
      rw [hj']
      rfl
    constructor
    · rintro h (hw | hb) hq
      · obtain ⟨_, hop⟩ := h.waiting hw (hstep.trans hq)
        cases hop
      · obtain ⟨_, _, hop⟩ := h.blocked hb (hstep.trans hq)
        cases hop
    · intro h
      refine ⟨fun _ hop => ?_, fun hw hq => ?_, fun hb hq => ?_⟩
      · cases hop
      · exact absurd (hstep.symm.trans hq) (h (.inl hw))
      · exact absurd (hstep.symm.trans hq) (h (.inr hb))

/-- **Every call of a run opens its own door exactly if none brings a parked job back.** -/
theorem own_doors_iff (j : JobRow) (cs : List Call) :
    Runs.Along step OwnDoor j cs ↔ Runs.Along step LeavesParked j cs :=
  Runs.along_congr ownDoor_iff

/-- The owner is asked while the lease of the job has not run out, and its holder gives the
lease back: the job is queued, and nobody has answered. -/
theorem release_opens_gate :
    ¬Runs.Along step OwnDoor (createSupervisorJob "job" "task")
      [(Primitive.queue (.claim "a" 60)).at 0,
        (Primitive.update { status := some .waitingGate }).at 1,
        (Primitive.queue (.release ⟨"a", 1⟩)).at 2] := by
  rintro ⟨-, -, hrelease, -⟩
  exact (hrelease.parked (by decide) rfl).1 (by decide)

end Jobs

end ArgentTeam
