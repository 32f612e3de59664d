import ArgentTeam.Jobs.Primitives

/-!
# The fence of a lease

A lease is known by its owner and its epoch. The epoch of a job only grows, and every claim
and every takeover begins a new one (`epoch_le`, `Claims.epoch_eq`); what a holder asks for
is refused unless it names the lease that is current (`current_of_names`). A requeue that
names no epoch is not: it is let through on the owner alone. `lease_fenced_iff` says that
this is all that is wrong.
-/

namespace ArgentTeam

namespace Jobs

open Supervisor

def Primitive.claiming : Primitive → Bool
  | .queue (.claim ..) | .queue (.takeover ..) | .claimNext .. => true
  | _ => false

/-- What only the holder of the lease may do. -/
def Primitive.holders : Primitive → Bool
  | .queue (.requeue ..) | .queue (.renew ..) | .queue (.release ..) | .queue (.clear ..)
  | .requeueByOwner .. | .waitExternal .. | .commitRecovery .. => true
  | _ => false

def Primitive.names : Primitive → Option LeaseCas
  | .queue (.requeue cas _) | .queue (.renew cas _) | .queue (.release cas) | .queue (.clear cas)
  | .waitExternal cas _ | .commitRecovery cas _ _ _ _ _ _ => some cas
  | _ => none

/-- What does not write the column of the epoch directly. -/
def Primitive.keepsEpoch : Primitive → Bool
  | .update u => u.leaseEpoch = none
  | _ => true

/-- A claim or a takeover that has succeeded. -/
def Claims (j : JobRow) (c : Call) : Prop :=
  c.op.claiming = true ∧ c.refused j = false ∧ (step j c).primaryState = .running

/-- A holder's call that succeeds names the lease that is current. -/
def HolderCurrent (j : JobRow) (c : Call) : Prop :=
  c.op.holders = true → c.refused j = false →
    ∃ cas, c.op.names = some cas ∧ j.leaseIsCurrent cas c.now = true

/-- A call that names another epoch than the current one changes nothing. -/
def StaleRefused (j : JobRow) (c : Call) : Prop :=
  ∀ cas, c.op.names = some cas → cas.epoch ≠ j.leaseEpoch → step j c = j

/-- The fence holds along some calls. -/
structure Fenced (j : JobRow) (cs : List Call) : Prop where
  mono : ∀ as bs ds, cs = as ++ bs ++ ds → (run j as).leaseEpoch ≤ (run j (as ++ bs)).leaseEpoch
  fresh : ∀ as c ds, cs = as ++ c :: ds → Claims (run j as) c →
    ∀ as₁ as₂, as = as₁ ++ as₂ → (run j as₁).leaseEpoch < (step (run j as) c).leaseEpoch
  holder : Runs.Along step HolderCurrent j cs
  stale : Runs.Along step StaleRefused j cs

/-- A requeue that names an owner and no epoch does not find that owner holding the job. -/
def NamesEpoch (j : JobRow) (c : Call) : Prop :=
  match c.op with
  | .requeueByOwner owner _ =>
    ¬(notBlank owner = true ∧ j.transitionable false = true ∧ j.ownerInstanceId = some owner ∧
      j.leaseHeld c.now = true)
  | _ => True

variable {j j' : JobRow} {c : Call} {cs : List Call}

/-- The epoch of a row after a call: as before, or, after a claim, the next one. -/
theorem Effect.epoch {now : Time} {p : Primitive} (h : Effect now j p j')
    (hk : p.keepsEpoch) :
    j'.leaseEpoch = j.leaseEpoch ∨
      (p.claiming ∧ j'.primaryState = .running ∧ j'.leaseEpoch = j.leaseEpoch + 1) := by
  cases h with
  | claim | claimNext | takeover => exact .inr ⟨rfl, rfl, rfl⟩
  | recovery _ _ _ hrec =>
    rcases recovered_cases hrec with ⟨-, rfl⟩ | ⟨-, rfl⟩ | rfl | rfl <;> exact .inl rfl
  | @update u =>
    have hu : u.leaseEpoch = none := by simpa [Primitive.keepsEpoch] using hk
    exact .inl (by simp [JobUpdate.write, hu])
  | _ => exact .inl rfl

theorem Claims.epoch_eq (h : Claims j c) : (step j c).leaseEpoch = j.leaseEpoch + 1 := by
  obtain ⟨hclaim, hnot, hrun⟩ := h
  rcases step_cases j c with ⟨href, -⟩ | ⟨-, heff⟩
  · rw [href] at hnot
    cases hnot
  · generalize c.op = p at hclaim heff
    generalize step j c = j' at heff hrun ⊢
    cases heff with
    | claim | claimNext | takeover => rfl
    | missing | takeoverBlocked | takeoverLost => cases hrun
    | _ => cases hclaim

theorem epoch_le (hk : c.op.keepsEpoch) : j.leaseEpoch ≤ (step j c).leaseEpoch := by
  rcases step_cases j c with ⟨-, hsame⟩ | ⟨-, heff⟩
  · rw [hsame]
  · rcases heff.epoch hk with hsame | ⟨-, -, hnext⟩ <;> omega

theorem current_of_names {cas : LeaseCas} (hn : c.op.names = some cas)
    (h : c.refused j = false) : j.leaseIsCurrent cas c.now := by
  rcases step_cases j c with ⟨href, -⟩ | ⟨-, heff⟩
  · rw [href] at h
    cases h
  · generalize c.op = p at hn heff
    generalize step j c = j' at heff
    cases heff with
    | requeue _ hc | renew hc | release _ hc | clear hc | waitExternal _ hc _ | recovery _ _ hc _ =>
      cases hn
      exact hc
    | _ => cases hn

theorem staleRefused (j : JobRow) (c : Call) : StaleRefused j c := by
  intro cas hn hne
  rcases step_cases j c with ⟨-, hsame⟩ | ⟨hnot, -⟩
  · exact hsame
  · have hc := current_of_names hn hnot
    simp only [JobRow.leaseIsCurrent, Bool.and_eq_true, decide_eq_true_eq] at hc
    exact absurd hc.1.2.symm hne

/-- What a holder asks for is granted under the current lease only, exactly if it names an
epoch. -/
theorem holderCurrent_iff (j : JobRow) (c : Call) : HolderCurrent j c ↔ NamesEpoch j c := by
  have hopen : ∀ owner r, c.op = .requeueByOwner owner r →
      (c.refused j = false ↔ notBlank owner = true ∧ j.transitionable false = true ∧
        j.ownerInstanceId = some owner ∧ j.leaseHeld c.now = true) := by
    intro owner r hop
    rw [Call.refused, hop]
    simp only [Primitive.attempt, Option.isNone_eq_false_iff, Option.isSome_ite, Bool.and_eq_true,
      decide_eq_true_eq, and_assoc]
  unfold NamesEpoch
  split
  next owner r hop =>
    rw [← hopen owner r hop]
    constructor
    · intro h hnot
      obtain ⟨cas, hn, -⟩ := h (by rw [hop]; rfl) hnot
      rw [hop] at hn
      cases hn
    · intro h _ hnot
      exact absurd hnot h
  next hop =>
    refine iff_of_true (fun hh hnot => ?_) trivial
    cases hn : c.op.names with
    | some cas => exact ⟨cas, rfl, current_of_names hn hnot⟩
    | none =>
      -- of what only a holder may do, a requeue without an epoch alone names no lease
      exfalso
      generalize c.op = p at hh hn hop
      cases p with
      | requeueByOwner owner r => exact hop owner r rfl
      | queue op => cases op <;> simp [Primitive.holders, Primitive.names] at hh hn
      | _ => simp [Primitive.holders, Primitive.names] at hh hn

theorem run_epoch_le (hk : ∀ c ∈ cs, c.op.keepsEpoch) :
    j.leaseEpoch ≤ (run j cs).leaseEpoch := by
  induction cs generalizing j with
  | nil => exact le_refl _
  | cons c cs ih =>
    have hc := epoch_le (j := j) (hk c List.mem_cons_self)
    exact hc.trans (ih fun d hd => hk d (List.mem_cons_of_mem c hd))

/-- **The fence of a lease holds exactly if every requeue by a holder names an epoch.** -/
theorem lease_fenced_iff (j : JobRow) (cs : List Call) (hk : ∀ c ∈ cs, c.op.keepsEpoch = true) :
    Fenced j cs ↔ Runs.Along step NamesEpoch j cs := by
  rw [← Runs.along_congr holderCurrent_iff]
  refine ⟨Fenced.holder, fun hholder => ⟨?_, ?_, hholder, Runs.along_of_forall staleRefused⟩⟩
  · rintro as bs ds rfl
    rw [run, run, Runs.run_append]
    refine run_epoch_le fun c hc => hk c ?_
    simp [hc]
  · rintro as c ds rfl hclaim as₁ as₂ rfl
    rw [hclaim.epoch_eq, run, run, Runs.run_append]
    have hle : (run j as₁).leaseEpoch ≤ (Runs.run step (run j as₁) as₂).leaseEpoch :=
      run_epoch_le fun d hd => hk d (by simp [hd])
    exact Nat.lt_succ_of_le hle

/-- An instance claims a job, gives it back and claims it again; a requeue that it asked for
under its first lease, and that names no epoch, then takes the job from it. -/
def lateRequeue : List Call :=
  [(Primitive.queue (.claim "a" 60)).at 0,
    (Primitive.queue (.release ⟨"a", 1⟩)).at 1,
    (Primitive.queue (.claim "a" 60)).at 2,
    (Primitive.requeueByOwner "a" ⟨.new, none, false, none⟩).at 3]

theorem late_requeue_not_fenced :
    ¬Fenced (createSupervisorJob "job" "task") lateRequeue := by
  intro h
  have hlast := Runs.along_iff_split.mp h.holder
    [(Primitive.queue (.claim "a" 60)).at 0, (Primitive.queue (.release ⟨"a", 1⟩)).at 1,
      (Primitive.queue (.claim "a" 60)).at 2] _ [] rfl
  obtain ⟨cas, hn, -⟩ := hlast (by decide) (by decide)
  cases hn

/-- With the epoch named, the late requeue is refused. -/
theorem lease_fenced_late :
    Fenced (createSupervisorJob "job" "task")
      [(Primitive.queue (.claim "a" 60)).at 0, (Primitive.queue (.release ⟨"a", 1⟩)).at 1,
        (Primitive.queue (.claim "a" 60)).at 2,
        (Primitive.queue (.requeue ⟨"a", 1⟩ ⟨.new, none, false, none⟩)).at 3] :=
  (lease_fenced_iff _ _ (by simp [Primitive.at, Primitive.keepsEpoch])).mpr
    ⟨trivial, trivial, trivial, trivial, trivial⟩

end Jobs

end ArgentTeam
