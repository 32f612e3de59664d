import ArgentTeam.Core.Exec
import ArgentTeam.Core.GateSteps
import ArgentTeam.Core.ReceiveSteps

/-!
# The states of tasks

More than ten places write the state of a task, and each of them looks after `resume_state` by
hand. Every one of these writes is a `TaskMove`: the task is created, or it follows an edge of
the state machine, or a recovery parks it. `task_states_sound` is what follows for whole runs:
a state that is terminal is never left, and a task remembers a state to go back to exactly
while it is at the gate or in recovery.
-/

namespace ArgentTeam

open Prog Store

namespace Core

def taskRows (w : World) : Table Task Task.clash := w.db.core.tasks

instance : OfCore taskRows := ⟨fun w w' h => by rw [taskRows, h, taskRows]⟩

instance : Tables.findings.Apart taskRows := ⟨fun _ _ => rfl⟩
instance : Tables.decisions.Apart taskRows := ⟨fun _ _ => rfl⟩
instance : Tables.ownerApprovals.Apart taskRows := ⟨fun _ _ => rfl⟩
instance : Tables.actionExecutions.Apart taskRows := ⟨fun _ _ => rfl⟩
instance : Tables.agentDispatches.Apart taskRows := ⟨fun _ _ => rfl⟩

/-- The tasks before and after the state of one of them was written. -/
def WritesState (T T' : Table Task Task.clash) (id : Uuid) (s : TaskState)
    (r : Option TaskState) : Prop :=
  T.update? (fun t => t.id = id) (fun t => { t with state := s, resumeState := r }) = some T'

/-- One write of the tasks; whether it is a recovery that writes. -/
inductive TaskMove (recovery : Bool) (T T' : Table Task Task.clash) : Prop
  | create {t : Task} (hstate : t.state = .new) (hresume : t.resumeState = none)
    (h : T.insert? t = some T')
  /-- A task follows an edge to a state that is no pause, and forgets what it remembered. -/
  | follow {t : Task} {s : TaskState} (ht : t ∈ T.rows)
    (hallowed : TaskState.isAllowed t.state s t.resumeState = true) (hpause : s.isPause = false)
    (h : WritesState T T' t.id s none)
  /-- A task follows the edge to the gate, and remembers where it was. -/
  | gate {t : Task} (ht : t ∈ T.rows)
    (hallowed : TaskState.isAllowed t.state .ownerApprovalRequired t.resumeState = true)
    (hvalid : t.state.isValidResumeTarget = true)
    (h : WritesState T T' t.id .ownerApprovalRequired (some t.state))
  /-- A recovery parks a task that has not ended and is not paused. -/
  | park {t : Task} (hrecovery : recovery = true) (ht : t ∈ T.rows)
    (hvalid : t.state.isValidResumeTarget = true)
    (h : WritesState T T' t.id .recovering (some t.state))

/-- Some writes of the tasks, one after another. -/
def TaskPath (recovery : Bool) : Table Task Task.clash → Table Task Task.clash → Prop :=
  Relation.ReflTransGen (TaskMove recovery)

variable {T T' : Table Task Task.clash} {recovery : Bool} {t : Task} {s : TaskState}
  {r : Option TaskState} {id : Uuid}

theorem SetState.writesState {c c' : CoreDb} (h : SetState c c' id s r) :
    WritesState c.tasks c'.tasks id s r := by
  obtain ⟨tasks, ht, rfl⟩ := h
  exact ht

theorem mem_of_writesState (h : WritesState T T' id s r) {t' : Task} :
    t' ∈ T'.rows ↔ ∃ t ∈ T.rows,
      (t.id = id ∧ t' = { t with state := s, resumeState := r }) ∨ (t.id ≠ id ∧ t' = t) := by
  rw [Table.mem_of_update? h]
  refine exists_congr fun t => and_congr_right fun _ => ?_
  by_cases hid : t.id = id <;> simp [Table.patch, hid, eq_comm]

/-! ### What one write preserves -/

/-- A task remembers a state exactly while it is at the gate or in recovery, and then one it
may be resumed into. -/
structure ResumeSound (t : Task) : Prop where
  iff : t.resumeState ≠ none ↔ t.state = .ownerApprovalRequired ∨ t.state = .recovering
  resumable : ∀ s ∈ t.resumeState, s.isValidResumeTarget = true ∧
    TaskState.isAllowed t.state s t.resumeState = true

theorem resumeSound_paused {p : TaskState} (hp : p = .ownerApprovalRequired ∨ p = .recovering)
    (hvalid : t.state.isValidResumeTarget) :
    ResumeSound { t with state := p, resumeState := some t.state } := by
  refine ⟨iff_of_true (fun h => by cases h) hp, ?_⟩
  rintro s hs
  cases hs
  refine ⟨hvalid, TaskState.isAllowed_resume ?_ hvalid⟩
  rcases hp with rfl | rfl <;> rfl

theorem resumeSound_of_not_pause (hs : s.isPause = false) :
    ResumeSound { t with state := s, resumeState := none } := by
  refine ⟨iff_of_false (fun h => h rfl) ?_, fun s hs => by cases hs⟩
  rintro (h | h) <;>
    · change s = _ at h
      rw [h] at hs
      cases hs

def AllResumeSound (T : Table Task Task.clash) : Prop := ∀ t ∈ T.rows, ResumeSound t

theorem AllResumeSound.writes (h : AllResumeSound T) (hwrite : WritesState T T' id s r)
    (hnew : ∀ t : Task, ResumeSound { t with state := s, resumeState := r }) :
    AllResumeSound T' := by
  intro t' ht'
  obtain ⟨t, ht, ⟨-, rfl⟩ | ⟨-, rfl⟩⟩ := (mem_of_writesState hwrite).mp ht'
  · exact hnew t
  · exact h t' ht

/-- **One write keeps all tasks sound.** -/
theorem AllResumeSound.move (h : AllResumeSound T) (hmove : TaskMove recovery T T') :
    AllResumeSound T' := by
  cases hmove with
  | @create t hstate hresume hins =>
    intro t' ht'
    rcases (Table.mem_of_insert? hins).mp ht' with ht' | rfl
    · exact h t' ht'
    · refine ⟨iff_of_false (fun hne => hne hresume) (by rw [hstate]; decide), fun s hs => ?_⟩
      rw [hresume] at hs
      cases hs
  | follow ht hallowed hpause hwrite =>
    exact h.writes hwrite fun _ => resumeSound_of_not_pause hpause
  | @gate t ht hallowed hvalid hwrite =>
    exact h.writes hwrite fun x =>
      resumeSound_paused (t := { x with state := t.state }) (.inl rfl) hvalid
  | @park t hrecovery ht hvalid hwrite =>
    exact h.writes hwrite fun x =>
      resumeSound_paused (t := { x with state := t.state }) (.inr rfl) hvalid

/-- **One write leaves a task that has ended as it is.** -/
theorem TaskMove.keeps_ended (hmove : TaskMove recovery T T') (ht : t ∈ T.rows)
    (hended : t.state.isTerminal) : t ∈ T'.rows := by
  -- the task that is written is another one
  have hother : ∀ {t₀ : Task} {s r}, t₀ ∈ T.rows → t₀.state.isTerminal = false →
      WritesState T T' t₀.id s r → t ∈ T'.rows := by
    intro t₀ s r ht₀ hopen hwrite
    refine (mem_of_writesState hwrite).mpr ⟨t, ht, .inr ⟨fun hid => ?_, rfl⟩⟩
    rw [Task.eq_of_id ht ht₀ hid, hopen] at hended
    cases hended
  cases hmove with
  | create hstate hresume hins => exact (Table.mem_of_insert? hins).mpr (.inl ht)
  | @follow t₀ _ ht₀ hallowed hpause hwrite =>
    refine hother ht₀ ?_ hwrite
    by_contra hterminal
    rw [TaskState.isAllowed_of_isTerminal (by simpa using hterminal)] at hallowed
    cases hallowed
  | @gate t₀ ht₀ hallowed hvalid hwrite | @park t₀ _ ht₀ hvalid hwrite =>
    refine hother ht₀ ?_ hwrite
    rw [TaskState.isValidResumeTarget, Bool.and_eq_true] at hvalid
    simpa using hvalid.1

theorem AllResumeSound.path (h : AllResumeSound T) (hpath : TaskPath recovery T T') :
    AllResumeSound T' := by
  induction hpath with
  | refl => exact h
  | tail _ hmove ih => exact ih.move hmove

theorem TaskPath.keeps_ended (hpath : TaskPath recovery T T') (ht : t ∈ T.rows)
    (hended : t.state.isTerminal) : t ∈ T'.rows := by
  induction hpath with
  | refl => exact ht
  | tail _ hmove ih => exact hmove.keeps_ended ih hended

/-! ### The writes of the commands -/

section Commands

variable {w w' : World} {u : Unit} {ap : OwnerApproval} {c : CoreDb}

theorem taskPath_of_eq (h : taskRows w' = taskRows w) :
    TaskPath recovery (taskRows w) (taskRows w') := by
  rw [h]
  exact Relation.ReflTransGen.refl

theorem isPause_of_isAllowed {src dst : TaskState} (hsrc : src.isPause)
    (h : TaskState.isAllowed src dst r) : dst.isPause = false := by
  simp only [TaskState.isAllowed, hsrc, if_true] at h
  split_ifs at h with h₁ h₂ h₃
  · have hvalid := h₃.2.1
    rw [TaskState.isValidResumeTarget, Bool.and_eq_true] at hvalid
    simpa using hvalid.2
  · revert h
    cases src <;> cases dst <;> decide

theorem taskPath_follow (ht : t ∈ w.db.core.tasks.rows)
    (hallowed : TaskState.isAllowed t.state s t.resumeState) (hpause : s.isPause = false)
    (h : SetState w.db.core c t.id s none) : TaskPath recovery (taskRows w) c.tasks :=
  Relation.ReflTransGen.single (.follow ht hallowed hpause h.writesState)

theorem taskPath_blockTask (ht : gatedTask w.db ap = some t) (h : (blockTask t).Returns w u w') :
    TaskPath recovery (taskRows w) (taskRows w') := by
  simp only [blockTask, returns_bind, returns_validateTransition] at h
  obtain ⟨-, _, ⟨hallowed, rfl⟩, happly⟩ := h
  exact taskPath_follow (gatedTask_eq_some.mp ht).1 hallowed rfl
    (setState_of_applyTransition happly)

theorem taskPath_resumeTask (ht : gatedTask w.db ap = some t)
    (h : (resumeTask t s).Returns w u w') : TaskPath recovery (taskRows w) (taskRows w') := by
  simp only [resumeTask, returns_bind, returns_validateTransition] at h
  obtain ⟨-, _, ⟨hallowed, rfl⟩, happly⟩ := h
  obtain ⟨hmem, -, hgate⟩ := gatedTask_eq_some.mp ht
  exact taskPath_follow hmem hallowed (isPause_of_isAllowed (by rw [hgate]; rfl) hallowed)
    (setState_of_applyTransition happly)

/-- An approval expires. -/
theorem taskPath_expireAndRelease (h : (expireAndRelease id).Returns w u w') :
    TaskPath recovery (taskRows w) (taskRows w') := by
  simp only [expireAndRelease, returns_bind, returns_nowIso, returns_read, returns_whenSome,
    returns_caseSome] at h
  obtain ⟨_, _, ⟨-, rfl⟩, _, w₁, hmark, ap', _, ⟨-, rfl⟩, h⟩ := h
  have hsame := Moves.frame taskRows hmark
  change taskRows w₁ = taskRows w at hsame
  rw [← hsame]
  rcases h with ⟨ap', -, task, _, ⟨htask, rfl⟩, ⟨t, rfl, ⟨dst, -, hresume⟩ | ⟨-, hblock⟩⟩ |
    ⟨-, rfl⟩⟩ | ⟨-, rfl⟩
  · exact taskPath_resumeTask htask hresume
  · exact taskPath_blockTask htask hblock
  · exact Relation.ReflTransGen.refl
  · exact Relation.ReflTransGen.refl

variable {taskId action scope source approvalId : String} {key : Option String}
  {o : Option OwnerApproval}

theorem taskPath_rejectWork (h : (rejectWork ap taskId action scope).Returns w o w') :
    TaskPath recovery (taskRows w) (taskRows w') := by
  simp only [rejectWork, returns_bind, returns_checkFullBinding, returns_nowIso, returns_require,
    returns_read, returns_whenSome] at h
  obtain ⟨-, _, ⟨-, -, rfl⟩, _, _, ⟨-, rfl⟩, -, _, ⟨-, rfl⟩, _, w₁, hmark, -, _, ⟨-, rfl⟩, task, _,
    ⟨htask, rfl⟩, _, w₂, hrelease, _, w₃, hemit, -, rfl⟩ := h
  have hsame := Moves.frame taskRows hmark
  change taskRows w₁ = taskRows w at hsame
  rw [show taskRows w₃ = taskRows w₂ from Moves.frame taskRows hemit, ← hsame]
  rcases hrelease with ⟨t, rfl, hblock⟩ | ⟨-, rfl⟩
  · exact taskPath_blockTask htask hblock
  · exact Relation.ReflTransGen.refl

theorem taskPath_executeWork (h : (executeWork ap taskId action scope).Returns w o w') :
    TaskPath recovery (taskRows w) (taskRows w') := by
  simp only [executeWork, returns_bind, returns_checkFullBinding, returns_nowIso, returns_require,
    returns_uuid4, returns_read, returns_whenSome] at h
  obtain ⟨-, _, ⟨-, -, rfl⟩, _, _, ⟨-, rfl⟩, -, _, ⟨-, rfl⟩, -, _, ⟨-, rfl⟩, -, _, ⟨-, rfl⟩, _, _,
    ⟨-, rfl⟩, _, _, ⟨-, rfl⟩, _, w₁, hinsert, _, w₂, hconsume, -, _, ⟨-, rfl⟩, task, _,
    ⟨htask, rfl⟩, _, w₃, hrelease, -, rfl⟩ := h
  have h₁ := Moves.frame taskRows hinsert
  change taskRows w₁ = taskRows w at h₁
  have h₂ : taskRows w₂ = taskRows w₁ := Moves.frame taskRows hconsume
  rw [← h₁, ← h₂]
  rcases hrelease with ⟨t, rfl, ⟨dst, -, hresume⟩ | ⟨-, rfl⟩⟩ | ⟨-, rfl⟩
  · exact taskPath_resumeTask htask hresume
  · exact Relation.ReflTransGen.refl
  · exact Relation.ReflTransGen.refl

/-- A gate command writes tasks as its work does, or as an expiry does. -/
theorem taskPath_gateCommand {command : String}
    {work : OwnerApproval → String → String → String → Cmd (Option OwnerApproval)}
    (hwork : ∀ {ap o w w'}, (work ap taskId action scope).Returns w o w' →
      TaskPath recovery (taskRows w) (taskRows w'))
    (h : (gateCommand command work approvalId source taskId action scope key w).2.db.core = c) :
    TaskPath recovery (taskRows w) c.tasks := by
  rcases gateCommand_core h with rfl | ⟨-, -, ap, -, ⟨r, w₁, hr, rfl⟩ |
    ⟨id, w₁, u, w₂, -, hrelease, rfl⟩⟩
  · exact Relation.ReflTransGen.refl
  · exact hwork hr
  · have hpath := @taskPath_expireAndRelease recovery _ _ _ _ hrelease
    exact hpath

/-- No step of a plan ends at a pause. -/
theorem stateSyncPlan_not_pause {d : AgentDispatch} {decision : Option String}
    {step : TaskState × TaskState} (h : step ∈ stateSyncPlan d decision s) :
    step.2.isPause = false := by
  have hstandard : ∀ n, ∀ step ∈ standardStep n, step.2.isPause = false := by
    intro n step hstep
    unfold standardStep at hstep
    split at hstep <;> simp_all [TaskState.isPause]
  have hrework : ∀ step ∈ reworkStep d.role d.position s, step.2.isPause = false := by
    intro step hstep
    cases hrole : d.role <;> rw [hrole] at hstep <;> unfold reworkStep at hstep <;>
      grind [TaskState.isPause]
  have hlead : ∀ step ∈ leadStep d.sequenceKind d.position decision,
      step.2.isPause = false := by
    intro step hstep
    unfold leadStep finalStep at hstep
    grind [TaskState.isPause]
  unfold stateSyncPlan at h
  rcases List.mem_append.mp h with h | h
  · split at h
    · exact hstandard _ step h
    · exact hrework step h
  · split at h
    · exact hlead step h
    · cases h

theorem taskPath_applyStateSync {d : AgentDispatch} {decision : Option String}
    (h : (applyStateSync d decision).Returns w u w') :
    TaskPath recovery (taskRows w) (taskRows w') := by
  obtain ⟨t, ht, -, w₁, hleave, t₁, -, -, hsteps⟩ := applyStateSync_core h
  have h₁ : TaskPath recovery (taskRows w) (taskRows w₁) := by
    rcases leaveRecovery_core hleave with ⟨-, hcore⟩ | ⟨hrec, rs, hrs, hallowed, hset⟩
    · exact taskPath_of_eq (congrArg CoreDb.tasks hcore)
    · refine taskPath_follow ht ?_ (isPause_of_isAllowed rfl hallowed) hset
      rw [hrec, Option.mem_def.mp hrs]
      exact hallowed
  refine h₁.trans ?_
  refine returns_forEach (R := fun w w' : World => TaskPath recovery (taskRows w) (taskRows w'))
    (fun _ => Relation.ReflTransGen.refl) (fun _ _ _ h h' => h.trans h')
    (fun step hstep w u w' h => ?_) hsteps
  obtain ⟨x, hx, hid, -, hallowed, hset⟩ := syncStep_core h
  rw [← hid] at hset
  exact taskPath_follow hx hallowed (stateSyncPlan_not_pause hstep) hset

theorem rollbackTarget_recovering (h : s ∈ rollbackTarget t) : t.state = .recovering := by
  by_contra hrec
  simp [rollbackTarget, recoveryTarget, hrec] at h

/-- A task leaves `RECOVERING` along an edge, and for no pause. -/
theorem rollbackTarget_allowed (h : s ∈ rollbackTarget t) :
    TaskState.isAllowed t.state s t.resumeState ∧ s.isPause = false := by
  have hrec := rollbackTarget_recovering h
  have hallowed : TaskState.isAllowed t.state s t.resumeState = true := by
    simp only [rollbackTarget, Option.mem_def] at h
    split_ifs at h with h₁ h₂
    · cases h
      rw [hrec] at h₂ ⊢
      exact h₂
    · cases h
      rw [hrec]
      simp [TaskState.isAllowed, TaskState.isTerminal, TaskState.isPause, TaskState.pauseExits]
  exact ⟨hallowed, isPause_of_isAllowed (by rw [hrec]; rfl) hallowed⟩

/-- A recovery parks tasks and takes tasks back. -/
theorem taskPath_recovers (h : Recovers w c) : TaskPath true (taskRows w) c.tasks := by
  obtain ⟨w₁, w₂, w₃, w₄, w₅, h₁, hdispatches, hpark, h₄, hroll, rfl⟩ := h
  have h₂ : taskRows w₂ = taskRows w :=
    (Moves.frame taskRows hdispatches).trans (congrArg CoreDb.tasks h₁)
  have h₃ : TaskPath true (taskRows w) (taskRows w₃) := by
    rw [← h₂]
    refine returns_forEach (R := fun w w' : World => TaskPath true (taskRows w) (taskRows w'))
      (fun _ => Relation.ReflTransGen.refl) (fun _ _ _ h h' => h.trans h')
      (fun id _ w u w' h => ?_) hpark
    rcases parkTask_core h with hcore | ⟨t, ht, rfl, hopen, hpause, hset⟩
    · exact taskPath_of_eq (congrArg CoreDb.tasks hcore)
    · refine Relation.ReflTransGen.single (.park rfl ht ?_ hset.writesState)
      rw [TaskState.isValidResumeTarget, hopen, hpause]
      rfl
  refine rollBack_rule (I := fun c => TaskPath true (taskRows w) c.tasks)
    (fun c c' t s hI ht hs hset => ?_) (nodup_task_ids _ _) (fun t ht => (List.mem_filter.mp ht).1)
    (h₄ ▸ h₃) hroll
  obtain ⟨hallowed, hpause⟩ := rollbackTarget_allowed hs
  exact hI.tail (.follow ht hallowed hpause hset.writesState)

def Command.isRecover : Command → Bool
  | .recover .. => true
  | _ => false

/-- **One step**: whatever a command does to the tasks, it does by some writes. -/
theorem taskPath_step (cfg : Config) (w : World) (x : Command) :
    TaskPath x.isRecover (taskRows w) (taskRows (step cfg w x)) := by
  generalize hc : (Core.step cfg w x).db.core = c
  rw [show taskRows (Core.step cfg w x) = c.tasks from congrArg CoreDb.tasks hc]
  cases x with
  | createTask projectId title source key description risk policy =>
    rcases createTask_core hc with rfl | ⟨t, tasks, hnew, hresume, hins, rfl⟩
    · exact Relation.ReflTransGen.refl
    · exact Relation.ReflTransGen.single (.create hnew hresume hins)
  | transition taskId toState source key =>
    rcases transition_core hc with rfl | ⟨t, ht, -, hdst, hallowed, hset⟩
    · exact Relation.ReflTransGen.refl
    · exact taskPath_follow (Db.getTask_eq_some.mp ht).1 hallowed hdst hset
  | resume taskId source key =>
    rcases resume_core hc with rfl | ⟨t, ht, hpaused, rs, hrs, hallowed, hset⟩
    · exact Relation.ReflTransGen.refl
    · refine taskPath_follow (Db.getTask_eq_some.mp ht).1 ?_ (isPause_of_isAllowed rfl hallowed)
        hset
      rw [hpaused, Option.mem_def.mp hrs]
      exact hallowed
  | requestAction taskId action scope actorRole source key =>
    rcases requestAction_core hc with rfl | ⟨_, executions, -, -, rfl⟩ |
      ⟨t, ht, hact, id, action, scope, role, created, expires, approvals, -, hset⟩
    · exact Relation.ReflTransGen.refl
    · exact Relation.ReflTransGen.refl
    · exact Relation.ReflTransGen.single (.gate ht (TaskState.isAllowed_gate hact _)
        (TaskState.isValidResumeTarget_of_isActionable hact) hset.writesState)
  | approve approvalId source taskId action scope key =>
    exact taskPath_gateCommand
      (fun h => taskPath_of_eq (Moves.frame taskRows h)) hc
  | reject approvalId source taskId action scope key =>
    exact taskPath_gateCommand taskPath_rejectWork hc
  | executeApproved approvalId source taskId action scope key =>
    exact taskPath_gateCommand taskPath_executeWork hc
  | receiveAgentResult dispatchId eventMeta result source key =>
    rcases receiveAgentResult_core hc with rfl | ⟨d, -, -, ⟨dispatches, -, rfl⟩ |
      ⟨out, -, w₁, w₂, w₃, ⟨dispatches, -, h₁⟩, heffects, hsync, rfl⟩⟩
    · exact Relation.ReflTransGen.refl
    · exact Relation.ReflTransGen.refl
    · have h₂ : taskRows w₂ = taskRows w :=
        (Moves.frame taskRows heffects).trans (by rw [taskRows, h₁, taskRows])
      rw [← h₂]
      exact taskPath_applyStateSync hsync
  | recover source key =>
    rcases recover_core hc with rfl | h
    · exact Relation.ReflTransGen.refl
    · exact taskPath_recovers h
  | _ =>
    rw [← hc]
    exact taskPath_of_eq (Moves.moves (R := Eq) w).symm

end Commands

/-! ### Whole runs -/

section WholeRuns

variable {w : World}

theorem allResumeSound_run (cfg : Config) (hw : Fresh w) (cs : List Command) :
    AllResumeSound (taskRows (run cfg w cs)) := by
  refine Runs.run_always (I := fun w => AllResumeSound (taskRows w))
    (fun w x h => h.path (taskPath_step cfg w x)) ?_
  intro t ht
  rw [taskRows, hw] at ht
  cases ht

theorem keeps_ended_run (cfg : Config) (cs : List Command) (ht : t ∈ (taskRows w).rows)
    (hended : t.state.isTerminal) : t ∈ (taskRows (run cfg w cs)).rows :=
  Runs.run_always (I := fun w => t ∈ (taskRows w).rows)
    (fun w x h => (taskPath_step cfg w x).keeps_ended h hended) ht

/-- **The states of tasks are sound** in every run of the core from an empty store. A task that
is done or cancelled stays as it is, whatever follows; a task remembers a state to go back to if
and only if it is at the gate or in recovery, and it may be resumed into that state; and a
command changes states along edges of the state machine only, but for a recovery, which may
park a task that has not ended and is not paused. -/
theorem task_states_sound (cfg : Config) (hw : Fresh w) (cs : List Command) :
    (∀ t ∈ (taskRows (run cfg w cs)).rows, (t.state = .done ∨ t.state = .cancelled) →
      ∀ rest, t ∈ (taskRows (run cfg w (cs ++ rest))).rows) ∧
    (∀ t ∈ (taskRows (run cfg w cs)).rows, ResumeSound t) ∧
    ∀ x, TaskPath x.isRecover (taskRows (run cfg w cs)) (taskRows (run cfg w (cs ++ [x]))) := by
  refine ⟨fun t ht hended rest => ?_, allResumeSound_run cfg hw cs, fun x => ?_⟩
  · rw [run, Runs.run_append]
    refine keeps_ended_run cfg rest ht ?_
    rcases hended with h | h <;> rw [h] <;> rfl
  · rw [run, Runs.run_append]
    exact taskPath_step cfg _ x

/-- The task is at the gate, and the recovery that follows leaves it there. -/
theorem task_states_sound_at_gate :
    (∃ t ∈ (taskRows (run .lenient ticking (leadAtWork ++ [askForDeploy]))).rows,
      t.state = .ownerApprovalRequired ∧ ResumeSound t) ∧
    TaskPath true (taskRows (run .lenient ticking (leadAtWork ++ [askForDeploy])))
      (taskRows (run .lenient ticking
        (leadAtWork ++ [askForDeploy] ++ [.recover ownerSource none]))) := by
  have hsound := @task_states_sound ticking .lenient rfl (leadAtWork ++ [askForDeploy])
  refine ⟨?_, hsound.2.2 (.recover ownerSource none)⟩
  have hgate : ((taskRows (run .lenient ticking (leadAtWork ++ [askForDeploy]))).rows.any
      fun t => t.state = .ownerApprovalRequired) = true := by decide +kernel
  obtain ⟨t, ht, hstate⟩ := List.any_eq_true.mp hgate
  exact ⟨t, ht, of_decide_eq_true hstate, hsound.2.1 t ht⟩

end WholeRuns

end Core

end ArgentTeam
