import ArgentTeam.Core.ExactlyOnce
import ArgentTeam.Core.TaskStates

/-!
# Recovering twice

A recovery repairs dispatches, role runs, task runs and tasks, and what it leaves behind is input
to the next one. `recover_twice` says that there is nothing left to repair: the second of two
recoveries leaves every table as it is, but for the event log and the idempotency keys.
-/

namespace ArgentTeam

open Prog Store

namespace Core

/-- The database but for its event log and its idempotency keys. -/
def lasting (w : World) : Db :=
  { w.db with log := { w.db.log with events := Table.empty, commandIdempotency := Table.empty } }

instance : OfDb lasting := ⟨fun w w' h => by rw [lasting, h, lasting]⟩

instance : Tables.events.Apart lasting := ⟨fun _ _ => rfl⟩
instance : Tables.commandIdempotency.Apart lasting := ⟨fun _ _ => rfl⟩

theorem core_of_lasting {w w' : World} (h : lasting w' = lasting w) : w'.db.core = w.db.core := by
  have := congrArg Db.core h
  exact this

theorem roleRuns_of_lasting {w w' : World} (h : lasting w' = lasting w) :
    w'.db.log.roleRuns = w.db.log.roleRuns := by
  have := congrArg (fun db : Db => db.log.roleRuns) h
  exact this

theorem taskRuns_of_lasting {w w' : World} (h : lasting w' = lasting w) :
    w'.db.log.taskRuns = w.db.log.taskRuns := by
  have := congrArg (fun db : Db => db.log.taskRuns) h
  exact this

def roleRunRows (w : World) : Table RoleRun RoleRun.clash := w.db.log.roleRuns

def taskRunRows (w : World) : Table TaskRun TaskRun.clash := w.db.log.taskRuns

instance : OffBooks roleRunRows := ⟨fun _ _ _ _ h _ _ => h⟩

instance : OfDb taskRunRows := ⟨fun w w' h => by rw [taskRunRows, h, taskRunRows]⟩

instance : Tables.tasks.Apart roleRunRows := ⟨fun _ _ => rfl⟩
instance : Tables.tasks.Apart taskRunRows := ⟨fun _ _ => rfl⟩
instance : Tables.events.Apart taskRunRows := ⟨fun _ _ => rfl⟩

instance {t : Task} : Moves taskRunRows Eq (rollBack t) := by
  unfold rollBack updateTaskState
  exact moves_whenSome fun _ => moves_bind inferInstance fun _ => inferInstance

/-- Some open dispatch whose result may still arrive. -/
def Awaited (db : Db) (p : AgentDispatch → Prop) : Prop :=
  ∃ d ∈ db.core.agentDispatches.rows, d.status = .recoveryPending ∧ p d

/-- **There is nothing to repair.** -/
structure Repaired (db : Db) : Prop where
  dispatches : ∀ d ∈ db.core.agentDispatches.rows, d.status ≠ .pending ∧ d.status ≠ .running
  parked : ∀ t ∈ db.core.tasks.rows, Awaited db (fun d => d.taskId = t.id) →
    t.state.isTerminal = true ∨ t.state.isPause = true
  roleRuns : ∀ r ∈ db.log.roleRuns.rows, r.status = .started →
    Awaited db fun d => d.taskId = r.taskId ∧ d.role = r.role
  taskRuns : ∀ r ∈ db.log.taskRuns.rows, r.status = .started →
    Awaited db fun d => d.taskRunId = r.id
  tasks : ∀ t ∈ db.core.tasks.rows, t.state = .recovering → Awaited db fun d => d.taskId = t.id

section Repaired

variable {w w' : World} {r : RecoveryReport} {d : AgentDispatch} {u : Unit}

theorem Repaired.interrupted (h : Repaired w.db) : interrupted w.db = [] := by
  refine List.filter_eq_nil_iff.mpr fun d hd => ?_
  obtain ⟨hpending, hrunning⟩ := h.dispatches d (Db.mem_listAllDispatches.mp hd)
  simp [hpending, hrunning]

theorem mem_unresolved {db : Db} : d ∈ unresolved db ↔ d ∈ db.core.agentDispatches.rows ∧
    (d.status = .recoveryPending ∨
      (d.status = .pending ∨ d.status = .running) ∧ mayStillArrive d) := by
  simp only [unresolved, Core.interrupted, List.mem_append, List.mem_filter,
    Db.mem_listAllDispatches, decide_eq_true_eq, Bool.or_eq_true]
  tauto

theorem mem_tasksOf {ds : List AgentDispatch} {id : Uuid} :
    id ∈ tasksOf ds ↔ ∃ d ∈ ds, d.taskId = id := by
  simp [tasksOf]

theorem Repaired.awaited (h : Repaired w.db) {p : AgentDispatch → Prop} :
    Awaited w.db p ↔ ∃ d ∈ unresolved w.db, p d := by
  constructor
  · rintro ⟨d, hd, hs, hp⟩
    exact ⟨d, (mem_unresolved).mpr ⟨hd, .inl hs⟩, hp⟩
  · rintro ⟨d, hd, hp⟩
    obtain ⟨hmem, hs | ⟨hs, -⟩⟩ := (mem_unresolved).mp hd
    · exact ⟨d, hmem, hs, hp⟩
    · obtain ⟨hpending, hrunning⟩ := h.dispatches d hmem
      exact (hs.elim hpending hrunning).elim

/-! ### The second recovery -/

/-- Parking leaves a task alone that has ended or is paused. -/
theorem eq_of_parkTask {id : Uuid} (h : ∀ t ∈ w.db.core.tasks.rows, t.id = id →
      t.state.isTerminal ∨ t.state.isPause)
    (hr : (parkTask id).Returns w u w') : w' = w := by
  simp only [parkTask, returns_bind, returns_read, returns_whenSome] at hr
  obtain ⟨_, _, ⟨rfl, rfl⟩, ⟨t, ht, -⟩ | ⟨-, rfl⟩⟩ := hr
  · rw [Option.filter_eq_some_iff, Db.getTask_eq_some, Uuid.text_inj] at ht
    obtain ⟨⟨hmem, hid⟩, hstate⟩ := ht
    rcases h t hmem hid with h | h <;> simp [h] at hstate
  · rfl

theorem eq_of_rollBack {t : Task} (h : t.state ≠ .recovering) (hr : (rollBack t).Returns w u w') :
    w' = w := by
  simp only [rollBack, returns_whenSome] at hr
  obtain ⟨s, hs, -⟩ | ⟨-, rfl⟩ := hr
  · exact absurd (rollbackTarget_recovering hs) h
  · rfl

/-- **A recovery with nothing to repair** leaves everything as it is, but for its events. -/
theorem Repaired.recoverWork (h : Repaired w.db) (hr : recoverWork.Returns w r w') :
    lasting w' = lasting w := by
  simp only [Core.recoverWork, returns_bind, returns_nowIso, returns_read, returns_pure] at hr
  obtain ⟨_, _, ⟨-, rfl⟩, _, w₂, hstarted, _, _, ⟨rfl, rfl⟩, _, w₃, hdispatches, _, w₄, hpark,
    _, _, ⟨rfl, rfl⟩, _, w₅, hroles, _, _, ⟨rfl, rfl⟩, _, w₆, hruns, _, _, ⟨rfl, rfl⟩, _, w₇,
    hroll, _, w₈, hcompleted, -, rfl⟩ := hr
  have h₂ := Moves.frame lasting hstarted
  change lasting w₂ = lasting w at h₂
  have hcore₂ : w₂.db.core = w.db.core := core_of_lasting h₂
  have hunresolved : unresolved w₂.db = unresolved w.db := by
    rw [unresolved, Core.interrupted, Db.listAllDispatches, hcore₂]
    rfl
  have hinterrupted : Core.interrupted w₂.db = [] := by
    rw [← h.interrupted, Core.interrupted, Db.listAllDispatches, hcore₂]
    rfl
  obtain rfl : w₂ = w₃ := by
    change (forEach recoverDispatch (Core.interrupted w₂.db)).Returns _ _ _ at hdispatches
    rw [hinterrupted] at hdispatches
    exact (returns_pure.mp hdispatches).2
  have h₄ : lasting w₄ = lasting w₂ := by
    refine frame_forEach lasting (fun id hid s₁ u s₂ hs hr => ?_) hpark
    rw [eq_of_parkTask (fun t ht htid => ?_) hr]
    rw [show s₁.db.core = w.db.core from (core_of_lasting hs).trans hcore₂] at ht
    obtain ⟨d, hd, hdid⟩ := (mem_tasksOf).mp hid
    refine h.parked t ht (h.awaited.mpr ⟨d, ?_, hdid.trans htid.symm⟩)
    exact hunresolved ▸ hd
  have h₅ : lasting w₅ = lasting w₄ := by
    refine frame_forEach lasting (fun rr hrr s₁ u s₂ hs hr => ?_) hroles
    simp only [List.mem_filter, decide_eq_true_eq, Bool.not_eq_true', List.any_eq_false,
      Bool.and_eq_true] at hrr
    obtain ⟨⟨hmem, hstarted⟩, hnone⟩ := hrr
    have hlog : w₄.db.log.roleRuns = w.db.log.roleRuns := roleRuns_of_lasting (h₄.trans h₂)
    rw [hlog] at hmem
    obtain ⟨d, hd, hp⟩ := h.awaited.mp (h.roleRuns rr hmem hstarted)
    exact absurd hp (hnone d (show d ∈ unresolved w₂.db from hunresolved ▸ hd))
  have h₆ : lasting w₆ = lasting w₅ := by
    refine frame_forEach lasting (fun tr htr s₁ u s₂ hs hr => ?_) hruns
    simp only [List.mem_filter, decide_eq_true_eq, Bool.not_eq_true', List.any_eq_false] at htr
    obtain ⟨⟨hmem, hstarted⟩, hnone⟩ := htr
    have hlog : w₅.db.log.taskRuns = w.db.log.taskRuns :=
      taskRuns_of_lasting (h₅.trans (h₄.trans h₂))
    rw [hlog] at hmem
    obtain ⟨d, hd, hp⟩ := h.awaited.mp (h.taskRuns tr hmem hstarted)
    exact absurd hp (hnone d (show d ∈ unresolved w₂.db from hunresolved ▸ hd))
  have h₇ : lasting w₇ = lasting w₆ := by
    refine frame_forEach lasting (fun t ht s₁ u s₂ hs hr => ?_) hroll
    rw [List.mem_filter, decide_eq_true_eq] at ht
    have hcore₆ : w₆.db.core = w.db.core :=
      core_of_lasting (h₆.trans (h₅.trans (h₄.trans h₂)))
    rw [hcore₆] at ht
    rw [eq_of_rollBack (fun hrec => ht.2 ((mem_tasksOf).mpr ?_)) hr]
    obtain ⟨d, hd, hp⟩ := h.awaited.mp (h.tasks t ht.1 hrec)
    exact ⟨d, show d ∈ unresolved w₂.db from hunresolved ▸ hd, hp⟩
  rw [Moves.frame lasting hcompleted, h₇, h₆, h₅, h₄, h₂]

end Repaired

/-! ### The first recovery -/

section Repairs

variable {w w' : World} {r : RecoveryReport} {d : AgentDispatch} {u : Unit}

/-- What a recovery makes of an interrupted dispatch. -/
def settle (d : AgentDispatch) : AgentDispatch :=
  { d with status := if mayStillArrive d then .recoveryPending else .failed }

/-- One interrupted dispatch. -/
theorem rows_recoverDispatch (hd : d ∈ (dispatchTable w).rows)
    (h : (recoverDispatch d).Returns w u w') :
    (dispatchTable w').rows =
      (dispatchTable w).rows.map fun x => if x.id = d.id then settle x else x := by
  have hwrite : ∃ t', (dispatchTable w).update? (fun x => x.id = d.id)
      (fun x => { x with status := (settle d).status }) = some t' ∧ dispatchTable w' = t' := by
    simp only [recoverDispatch, returns_ite, returns_bind, updateDispatchStatus,
      Relvar.returns_update, returns_pure] at h
    rcases h with ⟨hmay, _, _, ⟨t', ht, -, rfl⟩, hemit⟩ | ⟨hmay, _, _, ⟨t', ht, -, rfl⟩, -, rfl⟩
    · refine ⟨t', ?_, Moves.frame dispatchTable hemit⟩
      rw [show (settle d).status = .recoveryPending from if_pos hmay]
      exact ht
    · refine ⟨t', ?_, rfl⟩
      rw [show (settle d).status = .failed from if_neg hmay]
      exact ht
  obtain ⟨t', ht, hw'⟩ := hwrite
  rw [hw', (Table.update?_eq_some.mp ht).2]
  refine List.map_congr_left fun x hx => ?_
  by_cases hid : x.id = d.id
  · rw [Table.patch_pos (by simpa using hid), if_pos hid, AgentDispatch.eq_of_id hx hd hid]
    rfl
  · rw [Table.patch_neg (by simpa using hid), if_neg hid]

/-- All interrupted dispatches: each is written once, so that it is still there when its turn
comes. -/
theorem rows_recoverDispatches {ds : List AgentDispatch} (hnodup : (ds.map (·.id)).Nodup)
    (hds : ∀ d ∈ ds, d ∈ (dispatchTable w).rows)
    (h : (forEach recoverDispatch ds).Returns w u w') :
    (dispatchTable w').rows =
      (dispatchTable w).rows.map fun x => if x.id ∈ ds.map (·.id) then settle x else x := by
  induction ds generalizing w u with
  | nil =>
    obtain ⟨-, rfl⟩ := returns_pure.mp h
    simp
  | cons d ds ih =>
    obtain ⟨_, w₁, hd, hrest⟩ := returns_bind.mp h
    have hrows := rows_recoverDispatch (hds d List.mem_cons_self) hd
    rw [List.map_cons, List.nodup_cons] at hnodup
    have hother : ∀ x ∈ ds, x.id ≠ d.id := fun x hx hid =>
      hnodup.1 (List.mem_map.mpr ⟨x, hx, hid⟩)
    rw [ih hnodup.2 (fun x hx => ?_) hrest, hrows, List.map_map]
    · refine List.map_congr_left fun x _ => ?_
      by_cases hid : x.id = d.id
      · have hsettle : (settle x).id = d.id := hid
        simp only [Function.comp_apply, hsettle, if_neg hnodup.1, List.map_cons, List.mem_cons, hid,
          true_or, if_true]
      · simp only [Function.comp_apply, List.map_cons, List.mem_cons, hid, false_or, if_false]
    · rw [hrows]
      exact List.mem_map.mpr ⟨x, hds x (List.mem_cons_of_mem d hx), if_neg (hother x hx)⟩

/-- **The loop over the dispatches** settles what was interrupted, and awaits what was
unresolved. -/
theorem recoverDispatches_settles
    (h : (forEach recoverDispatch (interrupted w.db)).Returns w u w') :
    (∀ d ∈ (dispatchTable w').rows, d.status ≠ .pending ∧ d.status ≠ .running) ∧
    (∀ d ∈ unresolved w.db, ∃ d' ∈ (dispatchTable w').rows, d'.status = .recoveryPending ∧
      d'.taskId = d.taskId ∧ d'.role = d.role ∧ d'.taskRunId = d.taskRunId) ∧
    ∀ d' ∈ (dispatchTable w').rows, d'.status = .recoveryPending →
      ∃ d ∈ unresolved w.db, d.taskId = d'.taskId := by
  have hids : ((dispatchTable w).rows.map (·.id)).Nodup := by
    refine List.pairwise_map.mpr ((dispatchTable w).unique.imp fun hab hid => ?_)
    simp [AgentDispatch.clash, hid] at hab
  have hperm : w.db.listAllDispatches.Perm (dispatchTable w).rows := List.perm_insertionSort _ _
  have hmem : ∀ d ∈ interrupted w.db, d ∈ (dispatchTable w).rows := fun d hd =>
    Db.mem_listAllDispatches.mp (List.mem_filter.mp hd).1
  have hrows : (dispatchTable w').rows = (dispatchTable w).rows.map fun x =>
      if x.id ∈ (interrupted w.db).map (·.id) then settle x else x :=
    rows_recoverDispatches
      ((((hperm.map _).nodup_iff).mpr hids).sublist (List.filter_sublist.map _)) hmem h
  have hin : ∀ x ∈ (dispatchTable w).rows, x.id ∈ (interrupted w.db).map (·.id) ↔
      x.status = .pending ∨ x.status = .running := by
    intro x hx
    rw [List.mem_map]
    constructor
    · rintro ⟨d, hd, hid⟩
      rw [AgentDispatch.eq_of_id hx (hmem d hd) hid.symm]
      simpa using (List.mem_filter.mp hd).2
    · intro hs
      exact ⟨x, List.mem_filter.mpr ⟨Db.mem_listAllDispatches.mpr hx, by simpa using hs⟩, rfl⟩
  refine ⟨?_, ?_, ?_⟩
  · intro d' hd'
    rw [hrows] at hd'
    obtain ⟨x, hx, rfl⟩ := List.mem_map.mp hd'
    split_ifs with hid
    · rw [settle]
      split <;> exact ⟨by simp, by simp⟩
    · exact not_or.mp fun hs => hid ((hin x hx).mpr hs)
  · intro d hd
    obtain ⟨hd, hs | ⟨hs, hmay⟩⟩ := (mem_unresolved).mp hd
    · refine ⟨d, hrows ▸ List.mem_map.mpr ⟨d, hd, if_neg fun hid => ?_⟩, hs, rfl, rfl, rfl⟩
      rcases (hin d hd).mp hid with h | h <;> rw [h] at hs <;> cases hs
    · refine ⟨settle d, hrows ▸ List.mem_map.mpr ⟨d, hd, if_pos ((hin d hd).mpr hs)⟩, ?_, rfl, rfl,
        rfl⟩
      rw [settle, if_pos hmay]
  · intro d' hd' hs
    rw [hrows] at hd'
    obtain ⟨x, hx, rfl⟩ := List.mem_map.mp hd'
    by_cases hid : x.id ∈ (interrupted w.db).map (·.id)
    · rw [if_pos hid] at hs ⊢
      refine ⟨x, (mem_unresolved).mpr ⟨hx, .inr ⟨(hin x hx).mp hid, ?_⟩⟩, rfl⟩
      by_contra hmay
      rw [settle, if_neg hmay] at hs
      cases hs
    · rw [if_neg hid] at hs ⊢
      exact ⟨x, (mem_unresolved).mpr ⟨hx, .inl hs⟩, rfl⟩

/-- A task with this identifier has ended or is paused. -/
def Rests (id : Uuid) (w : World) : Prop :=
  ∀ t ∈ w.db.core.tasks.rows, t.id = id → t.state.isTerminal = true ∨ t.state.isPause = true

theorem rests_parkTask {id : Uuid} (h : (parkTask id).Returns w u w') : Rests id w' := by
  simp only [parkTask, returns_bind, returns_read, returns_whenSome] at h
  obtain ⟨_, _, ⟨rfl, rfl⟩, ⟨t, ht, _, w₁, hset, hemit⟩ | ⟨hnone, rfl⟩⟩ := h
  · have hcore : w'.db.core = w₁.db.core := Moves.frame core hemit
    rw [Option.filter_eq_some_iff, Db.getTask_eq_some, Uuid.text_inj] at ht
    intro x hx hid
    rw [hcore] at hx
    obtain ⟨y, -, ⟨-, rfl⟩ | ⟨hne, rfl⟩⟩ := (mem_of_setState
      (setState_of_updateTaskState hset)).mp hx
    · exact .inr rfl
    · exact absurd (hid.trans ht.1.2.symm) hne
  · intro t ht hid
    by_contra hno
    rw [not_or, Bool.not_eq_true, Bool.not_eq_true] at hno
    have hfound : w.db.getTask id.text = some t :=
      Db.getTask_eq_some.mpr ⟨ht, by rw [hid]⟩
    rw [hfound] at hnone
    simp [Option.filter, hno] at hnone

theorem Rests.parkTask {id id' : Uuid} (h : Rests id w) (hr : (parkTask id').Returns w u w') :
    Rests id w' := by
  rcases parkTask_core hr with hcore | ⟨t, -, -, -, -, hset⟩
  · intro x hx
    rw [hcore] at hx
    exact h x hx
  · intro x hx hid
    obtain ⟨y, hy, ⟨-, rfl⟩ | ⟨-, rfl⟩⟩ := (mem_of_setState hset).mp hx
    · exact .inr rfl
    · exact h x hy hid

theorem Rests.rollBack {id : Uuid} {t : Task} (h : Rests id w) (hne : t.id ≠ id)
    (hr : (rollBack t).Returns w u w') : Rests id w' := by
  rcases rollBack_core hr with hcore | ⟨s, -, hset⟩
  · intro x hx
    rw [hcore] at hx
    exact h x hx
  · intro x hx hid
    obtain ⟨y, hy, ⟨hyt, rfl⟩ | ⟨-, rfl⟩⟩ := (mem_of_setState hset).mp hx
    · exact absurd (hyt.symm.trans hid) hne
    · exact h x hy hid

theorem rollbackTarget_ne_none {t : Task} (h : t.state = .recovering) :
    rollbackTarget t ≠ none := by
  have hne : recoveryTarget t.state t.resumeState ≠ t.state := by
    unfold recoveryTarget
    rw [h, if_neg (not_not.mpr rfl)]
    cases t.resumeState with
    | none => decide
    | some rs =>
      dsimp only
      split_ifs with hvalid
      · rintro rfl
        cases hvalid
      · decide
  rw [rollbackTarget, if_neg hne]
  exact Option.some_ne_none _

/-- The loop over tasks: what is in recovery after it was in recovery before it, and is none of
its tasks. -/
theorem rollBacks_leave {ts : List Task} (h : (forEach rollBack ts).Returns w u w') :
    ∀ x ∈ w'.db.core.tasks.rows, x.state = .recovering → x ∈ w.db.core.tasks.rows ∧ x ∉ ts := by
  have hold : ∀ x ∈ w'.db.core.tasks.rows, x.state = .recovering → x ∈ w.db.core.tasks.rows := by
    refine returns_forEach
      (R := fun w w' : World => ∀ x ∈ w'.db.core.tasks.rows, x.state = .recovering →
        x ∈ w.db.core.tasks.rows) (fun _ _ h _ => h)
      (fun _ _ _ h h' x hx hs => h x (h' x hx hs) hs) (fun t _ w u w' hr x hx hs => ?_) h
    rcases rollBack_core hr with hcore | ⟨s, hmem, hset⟩
    · rwa [hcore] at hx
    · obtain ⟨y, hy, ⟨-, rfl⟩ | ⟨-, rfl⟩⟩ := (mem_of_setState hset).mp hx
      · have hpause := (rollbackTarget_allowed hmem).2
        change s = _ at hs
        rw [hs] at hpause
        cases hpause
      · exact hy
  -- a task of the list has left `RECOVERING` when its turn is over
  have hleft : ∀ t ∈ ts, t.state = .recovering → ∀ y ∈ w'.db.core.tasks.rows, y.id = t.id →
      y.state ≠ .recovering := by
    refine establish_forEach (T := fun (t : Task) (w : World) => t.state = .recovering →
      ∀ y ∈ w.db.core.tasks.rows, y.id = t.id → y.state ≠ .recovering)
      (fun t _ w u w' hr hrec y hy hid => ?_) (fun t _ b w u w' hT hr hrec y hy hid => ?_) h
    · obtain ⟨s, hs⟩ := Option.ne_none_iff_exists'.mp (rollbackTarget_ne_none hrec)
      simp only [rollBack, returns_whenSome, hs, returns_bind] at hr
      rcases hr with ⟨s', hs', _, w₁, hset, hemit⟩ | ⟨hnone, -⟩
      · cases hs'
        rw [show w'.db.core = w₁.db.core from Moves.frame core hemit] at hy
        obtain ⟨z, -, ⟨-, rfl⟩ | ⟨hne, rfl⟩⟩ :=
          (mem_of_setState (setState_of_updateTaskState hset)).mp hy
        · rintro (rfl : s = _)
          have hpause := (rollbackTarget_allowed hs).2
          cases hpause
        · exact absurd hid hne
      · cases hnone
    · rcases rollBack_core hr with hcore | ⟨s, hmem, hset⟩
      · rw [hcore] at hy
        exact hT hrec y hy hid
      · obtain ⟨z, hz, ⟨-, rfl⟩ | ⟨-, rfl⟩⟩ := (mem_of_setState hset).mp hy
        · rintro (rfl : s = _)
          have hpause := (rollbackTarget_allowed hmem).2
          cases hpause
        · exact hT hrec y hz hid
  exact fun x hx hs => ⟨hold x hx hs, fun hin => hleft x hin hs x hx rfl hs⟩

/-- A loop whose steps leave a row of some kind only if it is not the one they are about leaves
none of those it goes over. -/
theorem leaves_of_forEach {α : Type} (rows : World → List α) (id : α → Uuid) {p : α → Prop}
    {f : α → Cmd Unit} {rs : List α}
    (hstep : ∀ {a w u w'}, (f a).Returns w u w' →
      ∀ x ∈ rows w', p x → x ∈ rows w ∧ id x ≠ id a)
    (h : (forEach f rs).Returns w u w') : ∀ x ∈ rows w', p x → x ∈ rows w ∧ x ∉ rs := by
  refine fun x hx hp => ⟨?_, fun hin => ?_⟩
  · exact returns_forEach (R := fun w w' : World => ∀ x ∈ rows w', p x → x ∈ rows w)
      (fun _ _ h _ => h) (fun _ _ _ h h' x hx hp => h x (h' x hx hp) hp)
      (fun a _ w u w' ha x hx hp => (hstep ha x hx hp).1) h x hx hp
  · exact establish_forEach (T := fun (a : α) (w : World) => ∀ y ∈ rows w, p y → id y ≠ id a)
      (fun a _ w u w' ha y hy hp => (hstep ha y hy hp).2)
      (fun a _ b w u w' hT ha y hy hp => hT y (hstep ha y hy hp).1 hp) h x hin x hx hp rfl

theorem failRoleRuns_leave {rs : List RoleRun} (h : (forEach failRoleRun rs).Returns w u w') :
    ∀ x ∈ w'.db.log.roleRuns.rows, x.status = .started →
      x ∈ w.db.log.roleRuns.rows ∧ x ∉ rs := by
  refine leaves_of_forEach (fun w : World => w.db.log.roleRuns.rows) RoleRun.id
    (fun {rr w u w'} hr x hx hs => ?_) h
  simp only [failRoleRun, returns_bind, updateRoleRunStatus, Relvar.returns_update] at hr
  obtain ⟨_, _, ⟨t', ht, -, rfl⟩, hemit⟩ := hr
  have hlog := roleRuns_of_lasting (Moves.frame lasting hemit)
  change w'.db.log.roleRuns = t' at hlog
  rw [hlog] at hx
  obtain ⟨y, hy, rfl⟩ := (Table.mem_of_update? ht).mp hx
  by_cases hid : y.id = rr.id
  · simp [Table.patch, hid] at hs
  · rw [Table.patch_neg (by simpa using hid)]
    exact ⟨hy, hid⟩

theorem failTaskRuns_leave {rs : List TaskRun} (h : (forEach failTaskRunRow rs).Returns w u w') :
    ∀ x ∈ w'.db.log.taskRuns.rows, x.status = .started →
      x ∈ w.db.log.taskRuns.rows ∧ x ∉ rs := by
  refine leaves_of_forEach (fun w : World => w.db.log.taskRuns.rows) TaskRun.id
    (fun {tr w u w'} hr x hx hs => ?_) h
  simp only [failTaskRunRow, returns_bind, updateTaskRunStatus, Relvar.returns_update,
    returns_pure] at hr
  obtain ⟨_, _, ⟨t', ht, -, rfl⟩, -, rfl⟩ := hr
  obtain ⟨y, hy, rfl⟩ := (Table.mem_of_update? ht).mp hx
  by_cases hid : y.id = tr.id
  · simp [Table.patch, hid] at hs
  · rw [Table.patch_neg (by simpa using hid)]
    exact ⟨hy, hid⟩

/-- **A recovery leaves nothing to repair.** -/
theorem repaired_recoverWork (hr : recoverWork.Returns w r w') : Repaired w'.db := by
  simp only [recoverWork, returns_bind, returns_nowIso, returns_read, returns_pure] at hr
  obtain ⟨_, _, ⟨-, rfl⟩, _, w₂, hstarted, _, _, ⟨rfl, rfl⟩, _, w₃, hdispatches, _, w₄, hpark,
    _, _, ⟨rfl, rfl⟩, _, w₅, hroles, _, _, ⟨rfl, rfl⟩, _, w₆, hruns, _, _, ⟨rfl, rfl⟩, _, w₇,
    hroll, _, w₈, hcompleted, -, rfl⟩ := hr
  change (forEach recoverDispatch (interrupted w₂.db)).Returns _ _ _ at hdispatches
  change (forEach parkTask (tasksOf (unresolved w₂.db))).Returns _ _ _ at hpark
  obtain ⟨hsettled, hawaited, hold⟩ := recoverDispatches_settles hdispatches
  -- after the loop over them, dispatches stay as they are
  have htable : dispatchTable w₈ = dispatchTable w₃ := by
    rw [Moves.frame dispatchTable hcompleted, Moves.frame dispatchTable hroll,
      Moves.frame dispatchTable hruns, Moves.frame dispatchTable hroles,
      Moves.frame dispatchTable hpark]
  have hcovered : ∀ {p : AgentDispatch → Prop} (d : AgentDispatch), d ∈ unresolved w₂.db →
      (∀ d', d'.taskId = d.taskId → d'.role = d.role → d'.taskRunId = d.taskRunId → p d') →
      Awaited w₈.db p := by
    intro p d hd hp
    obtain ⟨d', hd', hs, htask, hrole, hrun⟩ := hawaited d hd
    rw [← htable] at hd'
    exact ⟨d', hd', hs, hp d' htask hrole hrun⟩
  have hend := Moves.frame lasting hcompleted
  have hcore : w₈.db.core = w₇.db.core := core_of_lasting hend
  have htasks : taskRows w₆ = taskRows w₄ := by
    rw [Moves.frame taskRows hruns, Moves.frame taskRows hroles]
  constructor
  · intro d hd
    exact hsettled d (htable ▸ hd)
  · rintro t ht ⟨d, hd, hs, hid⟩
    -- a dispatch that is awaited was unresolved, so that its task has been put to rest
    obtain ⟨d₀, hd₀, htask⟩ := hold d (htable ▸ hd) hs
    have hmem : t.id ∈ tasksOf (unresolved w₂.db) :=
      mem_tasksOf.mpr ⟨d₀, hd₀, htask.trans hid⟩
    have hrest₄ : Rests t.id w₄ :=
      establish_forEach (T := Rests) (fun id _ s u s' h => rests_parkTask h)
        (fun id _ b s u s' hT h => hT.parkTask h) hpark t.id hmem
    have hrest₆ : Rests t.id w₆ := by
      intro x hx
      change x ∈ (taskRows w₆).rows at hx
      rw [htasks] at hx
      exact hrest₄ x hx
    have hrest₇ : Rests t.id w₇ := by
      refine returns_forEach (R := fun w w' : World => Rests t.id w → Rests t.id w') (fun _ => id)
        (fun _ _ _ h h' => h' ∘ h) (fun x hx s u s' hr hrests => ?_) hroll hrest₆
      refine hrests.rollBack (fun hne => ?_) hr
      exact (of_decide_eq_true (List.mem_filter.mp hx).2) (hne ▸ hmem)
    rw [hcore] at ht
    exact hrest₇ t ht rfl
  · intro rr hrr hs
    have hlog : w₈.db.log.roleRuns = w₅.db.log.roleRuns := by
      have h₇ : roleRunRows w₇ = roleRunRows w₆ := Moves.frame roleRunRows hroll
      have h₆ : roleRunRows w₆ = roleRunRows w₅ := Moves.frame roleRunRows hruns
      exact (roleRuns_of_lasting hend).trans (h₇.trans h₆)
    rw [hlog] at hrr
    obtain ⟨hmem, hnot⟩ := failRoleRuns_leave hroles rr hrr hs
    by_contra hno
    refine hnot (List.mem_filter.mpr ⟨List.mem_filter.mpr ⟨hmem, by simpa using hs⟩, ?_⟩)
    rw [Bool.not_eq_true', List.any_eq_false]
    intro d hd hp
    rw [Bool.and_eq_true, decide_eq_true_eq, decide_eq_true_eq] at hp
    exact hno (hcovered d hd fun d' htask hrole _ => ⟨htask.trans hp.1, hrole.trans hp.2⟩)
  · intro tr htr hs
    have hlog : w₈.db.log.taskRuns = w₆.db.log.taskRuns := by
      have h₇ : taskRunRows w₇ = taskRunRows w₆ := Moves.frame taskRunRows hroll
      exact (taskRuns_of_lasting hend).trans h₇
    rw [hlog] at htr
    obtain ⟨hmem, hnot⟩ := failTaskRuns_leave hruns tr htr hs
    by_contra hno
    refine hnot (List.mem_filter.mpr ⟨List.mem_filter.mpr ⟨hmem, by simpa using hs⟩, ?_⟩)
    rw [Bool.not_eq_true', List.any_eq_false]
    intro d hd hp
    rw [decide_eq_true_eq] at hp
    exact hno (hcovered d hd fun d' _ _ hrun => hrun.trans hp)
  · intro t ht hs
    rw [hcore] at ht
    obtain ⟨hmem, hnot⟩ := rollBacks_leave hroll t ht hs
    by_contra hno
    refine hnot (List.mem_filter.mpr ⟨hmem, decide_eq_true fun hin => hno ?_⟩)
    obtain ⟨d, hd, htask⟩ := mem_tasksOf.mp hin
    exact hcovered d hd fun d' h _ _ => h.trans htask

end Repairs

/-! ### Two recoveries -/

section Twice

variable {w w' : World} {source source' : String} {key key' : Option String}
  {report : RecoveryReport}

/-- Whether there is something to repair does not depend on the event log and the keys. -/
theorem Repaired.congr (h : Repaired w.db) (hl : lasting w' = lasting w) : Repaired w'.db := by
  have hcore : w'.db.core = w.db.core := core_of_lasting hl
  have hroles := roleRuns_of_lasting hl
  have hruns := taskRuns_of_lasting hl
  have hawaited : ∀ p, Awaited w'.db p ↔ Awaited w.db p := fun p => by rw [Awaited, hcore, Awaited]
  constructor
  · rw [hcore]
    exact h.dispatches
  · simpa only [hcore, hawaited] using h.parked
  · simpa only [hroles, hawaited] using h.roleRuns
  · simpa only [hruns, hawaited] using h.taskRuns
  · simpa only [hcore, hawaited] using h.tasks

/-- A call that finds nothing to repair leaves everything as it is that lasts. -/
theorem Repaired.recover (h : Repaired w.db) (source : String) (key : Option String) :
    lasting (recover source key w).2 = lasting w := by
  unfold Core.recover
  rcases checked_snd (requireOwner_snd source) with hw | ⟨_, -, hw⟩ <;> rw [hw]
  refine idempotent_rule lasting (P := fun w' => lasting w' = lasting w)
    (fun w₁ w₂ h₂ h₁ => h₂.trans h₁) (fun _ => inferInstance) rfl fun r w₁ _ hr => ?_
  simp only [returns_bind, returns_pure] at hr
  obtain ⟨_, _, hr, -, rfl⟩ := hr
  exact h.recoverWork hr

/-- **Recovery is idempotent**: once a call of `recover` has run, another one leaves every table
but the event log and the idempotency keys as it is, whoever makes it and under whatever key. A
call has run if it returns and is no replay; where it is a replay, which runs nothing, the same
holds of the same call. -/
theorem recover_twice (hrun : (recover source key w).1 = .ok report)
    (hkey : recorded w.db key "recover" = none ∨ key' = key ∧ source' = source) :
    lasting (recover source' key' (recover source key w).2).2 =
      lasting (recover source key w).2 := by
  have hreturns := returns_of_fst hrun
  generalize hw₁ : (recover source key w).2 = w₁ at hreturns ⊢
  have hsplit := hreturns
  simp only [recover, returns_bind, returns_requireOwner, returns_idempotent,
    returns_pure] at hsplit
  obtain ⟨-, _, ⟨-, rfl⟩, ⟨rec, hrec, -, -, rfl⟩ | ⟨-, _, w₂, ⟨_, _, hwork, -, rfl⟩, rfl⟩⟩ := hsplit
  · -- the first call is a replay, and so is the second
    rcases hkey with hnone | ⟨rfl, rfl⟩
    · rw [hrec] at hnone
      cases hnone
    · rw [hw₁]
  · refine Repaired.recover ((repaired_recoverWork hwork).congr ?_) source' key'
    cases key <;> rfl

/-- The core restarts twice while a lead is at work. -/
theorem recover_twice_bound :
    lasting (recover ownerSource (some "again")
        (recover ownerSource none (run .lenient ticking boundOnce)).2).2 =
      lasting (recover ownerSource none (run .lenient ticking boundOnce)).2 :=
  @recover_twice (run .lenient ticking boundOnce) ownerSource ownerSource none (some "again")
    ⟨1, 1, [], 1⟩ (by decide +kernel) (.inl rfl)

end Twice

end Core

end ArgentTeam
