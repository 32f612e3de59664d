import ArgentTeam.Jobs.Primitives

/-!
# Jobs that have ended

A job that is done or has failed stays so, and a blocked one is reopened by its owner only:
every primitive refuses a row that has ended, and `_update_supervisor_job` lets through what
writes the same end again. That guard looks at the row before the write. An update that ends
a job may name any primary state with it, and then a later update, whose primary state is
derived, changes it once more. `Ended.sticky` is about the runs without such an update.
-/

namespace ArgentTeam

namespace Jobs

open Supervisor

def terminalToPrimary : Terminal → PrimaryState
  | .done => .done
  | .failed => .failed
  | .blocked => .blocked

/-- The primary state of a job that has ended says how, and its status that it has. The table
checks the status, not the primary state. -/
def Anchored (j : JobRow) : Prop :=
  ∀ t, j.terminal = some t → j.primaryState = terminalToPrimary t ∧ j.status = .terminal

/-- Something that ends a job names no primary state but the one that says so. -/
def EndsPlainly (j : JobRow) (c : Call) : Prop :=
  match c.op with
  | .update u => j.terminal = none → ∀ t, u.terminal = some (some t) →
      ∀ p, u.primaryState = some p → p = terminalToPrimary t
  | _ => True

/-- The row of a job that has ended shows the same end in another. -/
structure SameEnd (j j' : JobRow) : Prop where
  terminal : j'.terminal = j.terminal
  primaryState : j'.primaryState = j.primaryState
  status : j'.status = j.status

/-- A call that changes the state of a blocked job is the requeue that its owner has
authorised, of a job that nobody holds. -/
def BlockedDoor (j : JobRow) (c : Call) : Prop :=
  j.terminal = some .blocked → SameEnd j (step j c) ∨
    ∃ policyRef r, c.op = .queue (.reopen policyRef r) ∧ notBlank policyRef = true ∧
      policyRef.length ≤ maxPolicyRefLen ∧ j.ownerInstanceId = none ∧ j.leaseExpiresAt = none

/-- What ends along some calls stays as it is. -/
structure Sticky (j : JobRow) (cs : List Call) : Prop where
  ended : ∀ as bs ds, cs = as ++ bs ++ ds →
    (run j as).terminal = some .done ∨ (run j as).terminal = some .failed →
      SameEnd (run j as) (run j (as ++ bs))
  blocked : Runs.Along step BlockedDoor j cs

variable {j j' : JobRow} {c : Call} {cs : List Call} {t : Terminal}

theorem SameEnd.refl (j : JobRow) : SameEnd j j := ⟨rfl, rfl, rfl⟩

theorem SameEnd.trans {j'' : JobRow} (h : SameEnd j j') (h' : SameEnd j' j'') : SameEnd j j'' :=
  ⟨h'.terminal.trans h.terminal, h'.primaryState.trans h.primaryState,
    h'.status.trans h.status⟩

theorem terminal_eq_none_of_transitionable (h : j.transitionable false) :
    j.terminal = none := by
  cases ht : j.terminal with
  | none => rfl
  | some t => cases t <;> simp [JobRow.transitionable, ht] at h

theorem derivePrimaryState_some {status : SupervisorJobStatus} {waiting : Bool} :
    derivePrimaryState status (some t) waiting = terminalToPrimary t := by
  cases t <;> rfl

theorem status_of_rowCheck (h : rowCheck j) (ht : j.terminal = some t) :
    j.status = .terminal := by
  simp only [rowCheck, ht, Bool.or_eq_true, Bool.and_eq_true, decide_eq_true_eq, reduceCtorEq,
    false_or] at h
  exact h.1

/-- **What a call does to a job that has ended**: nothing to its end, unless its owner
reopens it. -/
theorem Effect.sameEnd {now : Time} {p : Primitive} (h : Effect now j p j') (ha : Anchored j)
    (hend : j.terminal = some t) :
    SameEnd j j' ∨ (t = .blocked ∧ ∃ policyRef r, p = .queue (.reopen policyRef r) ∧
      notBlank policyRef ∧ policyRef.length ≤ maxPolicyRefLen ∧
      j.ownerInstanceId = none ∧ j.leaseExpiresAt = none) := by
  have hopen : j.transitionable false = true → False := by
    intro ht
    rw [terminal_eq_none_of_transitionable ht] at hend
    cases hend
  have hnone : j.terminal = none → False := by
    intro hn
    rw [hn] at hend
    cases hend
  cases h with
  | renew | clear => exact .inl ⟨rfl, rfl, rfl⟩
  | reopen href hlen _ hb ho hl =>
    rw [hend] at hb
    cases hb
    exact .inr ⟨rfl, _, _, rfl, href, hlen, ho, hl⟩
  | @update u hu hcheck =>
    -- the guard asks for the end there is, and for the primary state that goes with it
    have hsame : (u.write j).terminal = some t := by
      cases t <;> simp_all [JobUpdate.allowed, JobUpdate.write]
    refine .inl ⟨hsame.trans hend.symm, ?_, ?_⟩
    · rw [(ha t hend).1]
      cases t <;> simp_all [JobUpdate.allowed, JobUpdate.write, terminalToPrimary]
    · rw [(ha t hend).2]
      exact status_of_rowCheck hcheck hsame
  | claim _ ht | claimNext _ ht | requeue ht | requeueByOwner _ ht | enqueue _ _ ht | release ht
  | quarantineLost _ ht | quarantineBlocked _ ht | waitExternal _ _ ht | completeWait _ ht =>
    exact (hopen ht).elim
  | missing _ hn | takeover _ hn | takeoverBlocked _ hn | takeoverLost _ hn | recovery hn =>
    exact (hnone hn).elim

/-- **What a call does to a job that has not ended**: if it ends it, plainly, then the
primary state says how. -/
theorem Effect.anchored {now : Time} {js : Journal} {p : Primitive} (h : Effect now j p j')
    (hc : EndsPlainly j ⟨now, js, p⟩) (hnone : j.terminal = none) : Anchored j' := by
  -- what leaves the end open
  have hopen : j'.terminal = none → Anchored j' := by
    intro hn t ht
    rw [hn] at ht
    cases ht
  have hblocked : j'.terminal = some .blocked → j'.primaryState = .blocked →
      j'.status = .terminal → Anchored j' := by
    intro hb hp hs t ht
    rw [hb] at ht
    cases ht
    exact ⟨hp, hs⟩
  cases h with
  | missing | takeoverBlocked | quarantineBlocked => exact hblocked rfl rfl rfl
  | recovery _ _ _ hrec =>
    rcases recovered_cases hrec with ⟨-, rfl⟩ | ⟨-, rfl⟩ | rfl | rfl
    · exact hopen hnone
    · exact hopen hnone
    · exact hblocked rfl rfl rfl
    · exact hopen hnone
  | reopen => exact hopen rfl
  | @update u _ hcheck =>
    rcases ht : u.terminal with _ | _ | t
    · exact hopen (by simp [JobUpdate.write, ht, hnone])
    · exact hopen (by simp [JobUpdate.write, ht])
    · intro t' ht'
      have heq : t = t' := by simpa [JobUpdate.write, ht] using ht'
      subst heq
      refine ⟨?_, status_of_rowCheck hcheck ht'⟩
      change u.newPrimaryState j = _
      cases hp : u.primaryState with
      | some p =>
        simp only [JobUpdate.newPrimaryState, hp, Option.getD_some]
        exact hc hnone t ht p hp
      | none => simp [JobUpdate.newPrimaryState, hp, JobUpdate.projects, JobUpdate.derived, ht,
          derivePrimaryState_some]
  | claim | claimNext | takeover | takeoverLost | requeue | requeueByOwner | enqueue | renew
  | release | clear | quarantineLost | waitExternal | completeWait => exact hopen hnone

/-- As long as jobs end plainly, their primary states say how. -/
theorem anchored_step (ha : Anchored j) (hc : EndsPlainly j c) : Anchored (step j c) := by
  rcases step_cases j c with ⟨-, hsame⟩ | ⟨-, heff⟩
  · rwa [hsame]
  · cases hend : j.terminal with
    | none => exact heff.anchored hc hend
    | some t =>
      rcases heff.sameEnd ha hend with hsame | ⟨-, policyRef, r, hop, -⟩
      · intro t' ht'
        rw [hsame.terminal] at ht'
        rw [hsame.primaryState, hsame.status]
        exact ha t' ht'
      · generalize step j c = j' at heff ⊢
        rw [hop] at heff
        cases heff
        intro t' ht'
        cases ht'

theorem anchored_run (ha : Anchored j) (h : Runs.Along step EndsPlainly j cs) :
    Anchored (run j cs) :=
  Runs.run_inv (fun _ _ => anchored_step) ha h

theorem blockedDoor_of_anchored (ha : Anchored j) (c : Call) : BlockedDoor j c := by
  intro hend
  rcases step_cases j c with ⟨-, hsame⟩ | ⟨-, heff⟩
  · rw [hsame]
    exact .inl (SameEnd.refl j)
  · exact (heff.sameEnd ha hend).imp_right And.right

theorem sameEnd_step (ha : Anchored j)
    (hend : j.terminal = some .done ∨ j.terminal = some .failed) : SameEnd j (step j c) := by
  rcases step_cases j c with ⟨-, hsame⟩ | ⟨-, heff⟩
  · rw [hsame]
    exact SameEnd.refl j
  · rcases hend with hend | hend
    · exact (heff.sameEnd ha hend).resolve_right fun h => by cases h.1
    · exact (heff.sameEnd ha hend).resolve_right fun h => by cases h.1

theorem sameEnd_run (ha : Anchored j) (hend : j.terminal = some .done ∨ j.terminal = some .failed)
    (h : Runs.Along step EndsPlainly j cs) : SameEnd j (run j cs) := by
  induction cs generalizing j with
  | nil => exact SameEnd.refl j
  | cons c cs ih =>
    have hc : SameEnd j (step j c) := sameEnd_step ha hend
    exact hc.trans (ih (anchored_step ha h.1) (by rwa [hc.terminal]) h.2)

/-- **What has ended stays so**, along every run in which jobs end plainly. -/
theorem terminal_sticky (ha : Anchored j) (h : Runs.Along step EndsPlainly j cs) :
    Sticky j cs := by
  refine ⟨?_, Runs.along_iff_split.mpr ?_⟩
  · rintro as bs ds rfl hend
    obtain ⟨hab, -⟩ := Runs.along_append.mp h
    obtain ⟨ha', hb⟩ := Runs.along_append.mp hab
    rw [run, run, Runs.run_append]
    exact sameEnd_run (anchored_run ha ha') hend hb
  · rintro bs c ds rfl
    exact blockedDoor_of_anchored (anchored_run ha (Runs.along_append.mp h).1) c

/-- An update ends a job and names another primary state; the next one derives it. -/
def endedTwice : List Call :=
  [(Primitive.update
      { status := some .terminal, terminal := some (some .done),
        primaryState := some .running }).at 0,
    (Primitive.update { recoveryState := some .none }).at 1]

theorem ended_twice_not_sticky : ¬Sticky (createSupervisorJob "job" "task") endedTwice := by
  intro h
  have hend := h.ended (endedTwice.take 1) (endedTwice.drop 1) [] rfl (.inl (by decide))
  exact absurd hend.primaryState (by decide)

/-- A job that is closed stays closed when it is written to once more. -/
theorem terminal_sticky_closed :
    Sticky (createSupervisorJob "job" "task")
      [(Primitive.update { status := some .terminal, terminal := some (some .done) }).at 0,
        (Primitive.update { recoveryState := some .none }).at 1,
        (Primitive.queue (.quarantineLost "AMBIGUOUS_WRITER" none)).at 2] := by
  refine terminal_sticky ?_ ⟨?_, ?_, trivial, trivial⟩
  · intro t ht
    cases ht
  · intro _ t _ p hp
    cases hp
  · intro _ t ht
    cases ht

end Jobs

end ArgentTeam
