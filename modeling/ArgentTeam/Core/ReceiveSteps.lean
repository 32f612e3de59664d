import ArgentTeam.Core.Receive
import ArgentTeam.Core.Recover

/-!
# What a result and a recovery do

`receive_agent_result` read as a relation between the core tables before and after it:
it leaves them alone, it rejects a dispatch whose result is malformed, or it consumes
one – and then the effects of the result and the steps of the task's state follow. What
`recover` does to dispatches and tasks is read off the same way.
-/

namespace ArgentTeam

open Prog Store

namespace Core

section Received

variable {w w' : World} {cfg : Config} {dispatchId source : String} {eventMeta result : Json}
  {key : Option String} {c : CoreDb} {d : AgentDispatch}

/-- The core tables before and after the row of one dispatch was rewritten. -/
def SetDispatch (c c' : CoreDb) (d : AgentDispatch) (f : AgentDispatch → AgentDispatch) : Prop :=
  ∃ dispatches, dispatches.rows =
      c.agentDispatches.rows.map (Table.patch (fun x => x.id = d.id) f) ∧
    c' = { c with agentDispatches := dispatches }

def rejected (d : AgentDispatch) : AgentDispatch := { d with status := .rejected }

def consumed (result : Json) (d : AgentDispatch) : AgentDispatch :=
  { d with status := .consumed, result := some result }

/-- The result passes every check, and the validator accepts it. -/
structure Fits (db : Db) (d : AgentDispatch) (eventMeta result : Json) (out : RoleOutput d.role) :
    Prop where
  mem : d ∈ db.core.agentDispatches.rows
  status : d.status = .running ∨ d.status = .recoveryPending
  refusal : refusal db d eventMeta result = none
  accept : Outputs.accept d.role result = .ok out

/-- The dispatch is consumed, and the effects of its result and the state of its task
follow. -/
def Consumes (cfg : Config) (w : World) (c : CoreDb) (d : AgentDispatch)
    (fields : List (PyStr × Json)) : Prop :=
  ∃ w₁ w₂ w₃, SetDispatch w.db.core w₁.db.core d (consumed (Json.obj fields).sorted) ∧
    (consumeEffects cfg d fields).Returns w₁ () w₂ ∧
    (applyStateSync d (resultDecision fields)).Returns w₂ () w₃ ∧ c = w₃.db.core

theorem status_of_refusal (hstatus : d.status ≠ .consumed)
    (h : refusal w.db d eventMeta result = none) :
    d.status = .running ∨ d.status = .recoveryPending := by
  unfold refusal at h
  cases hs : d.status <;> simp_all

theorem consumeDispatch_core {rc : ℕ} {r : Json} (hd : d ∈ w.db.core.agentDispatches.rows)
    (hstatus : d.status = .running ∨ d.status = .recoveryPending)
    (h : (consumeDispatch d.id r).Returns w rc w') :
    rc = 1 ∧ SetDispatch w.db.core w'.db.core d (consumed r) := by
  simp only [consumeDispatch, Relvar.returns_update] at h
  obtain ⟨dispatches, ht, hrc, rfl⟩ := h
  have hp : ∀ x ∈ w.db.core.agentDispatches.rows,
      (x.id = d.id && (x.status = .running || x.status = .recoveryPending)) =
        decide (x.id = d.id) := by
    intro x hx
    by_cases hid : x.id = d.id
    · rw [AgentDispatch.eq_of_id hx hd hid]
      simpa using hstatus
    · simp [hid]
  constructor
  · rw [← hrc]
    refine Table.countP_eq_one (fun a => by simp [AgentDispatch.clash]) hd
      (by simpa using hstatus) fun x hx hpx => ?_
    rw [hp x hx] at hpx
    exact AgentDispatch.eq_of_id hx hd (by simpa using hpx)
  · refine ⟨dispatches, ?_, rfl⟩
    rw [(Table.update?_eq_some.mp ht).2]
    refine List.map_congr_left fun x hx => ?_
    rw [Table.patch, Table.patch, hp x hx]
    rfl

theorem consumeWork_core {out : RoleOutput d.role} {r : ReceiveResult}
    (hd : d ∈ w.db.core.agentDispatches.rows)
    (hstatus : d.status = .running ∨ d.status = .recoveryPending)
    (h : (consumeWork cfg d dispatchId out).Returns w r w') :
    Consumes cfg w w'.db.core d out.fields := by
  simp only [consumeWork, returns_bind, returns_nowIso, returns_ite] at h
  obtain ⟨_, w₁, hbindings, _, _, ⟨-, rfl⟩, rc, w₂, hconsume, h⟩ := h
  have hcore : w₁.db.core = w.db.core :=
    Moves.frame core hbindings
  obtain ⟨rfl, hset⟩ := consumeDispatch_core (by rw [hcore]; exact hd) hstatus hconsume
  rcases h with ⟨hrc, -⟩ | ⟨-, _, w₃, hreceived, _, w₄, heffects, _, w₅, hsync, _, w₆, haccepted, _,
    w₇, hcompleted, -, rfl⟩
  · exact absurd rfl hrc
  · have h₃ : w₂.db.core = w₃.db.core := (Moves.frame core hreceived).symm
    have h₆ : w₅.db.core = w₆.db.core := (Moves.frame core haccepted).symm
    have h₇ : w₆.db.core = w'.db.core := (Moves.frame core hcompleted).symm
    refine ⟨w₃, w₄, w₅, ?_, heffects, hsync, (h₆.trans h₇).symm⟩
    rw [← h₃, ← hcore]
    exact hset

theorem receiveOpen_core {r : ReceiveResult} (hd : d ∈ w.db.core.agentDispatches.rows)
    (hstatus : d.status ≠ .consumed)
    (h : (receiveOpen cfg d dispatchId eventMeta result).Returns w r w') :
    w'.db.core = w.db.core ∨ (d.status = .running ∨ d.status = .recoveryPending) ∧
      (SetDispatch w.db.core w'.db.core d rejected ∨
        ∃ out, Fits w.db d eventMeta result out ∧ Consumes cfg w w'.db.core d out.fields) := by
  simp only [receiveOpen, returns_bind, returns_read, returns_caseSome] at h
  obtain ⟨_, _, ⟨rfl, rfl⟩, ⟨reason, -, hrefuse⟩ | ⟨hnone, h⟩⟩ := h
  · exact Or.inl (Moves.frame core hrefuse)
  have hopen := status_of_refusal hstatus hnone
  refine Or.inr ⟨hopen, ?_⟩
  split at h
  · rename_i out hout
    exact Or.inr ⟨out, ⟨hd, hopen, hnone, hout⟩, consumeWork_core hd hopen h⟩
  · simp only [returns_bind, returns_nowIso, updateDispatchStatus, Relvar.returns_update] at h
    obtain ⟨_, _, ⟨-, rfl⟩, _, _, ⟨dispatches, ht, -, rfl⟩, hrefuse⟩ := h
    refine Or.inl ⟨dispatches, (Table.update?_eq_some.mp ht).2, ?_⟩
    exact Moves.frame core hrefuse
  · exact absurd h not_returns_raise

/-- **What `receive_agent_result` does**: nothing, or it rejects an open dispatch, or it
consumes one. -/
theorem receiveAgentResult_core
    (h : (receiveAgentResult cfg dispatchId eventMeta result source key w).2.db.core = c) :
    c = w.db.core ∨ ∃ d ∈ w.db.getDispatch dispatchId,
      (d.status = .running ∨ d.status = .recoveryPending) ∧
        (SetDispatch w.db.core c d rejected ∨
          ∃ out, Fits w.db d eventMeta result out ∧ Consumes cfg w c d out.fields) := by
  rcases command_core (requireController_snd source) (fun _ => inferInstance) h with
    h | ⟨-, -, r, w₁, hr, rfl⟩
  · exact Or.inl h
  simp only [receiveWork, returns_bind, returns_read, returns_caseSome, returns_ite,
    returns_pure] at hr
  obtain ⟨_, _, ⟨_, _, ⟨rfl, rfl⟩, hr⟩, -, rfl⟩ := hr
  rcases hr with ⟨d, hd, ⟨-, hdup⟩ | ⟨hstatus, hopen⟩⟩ | ⟨-, hunknown⟩
  · exact Or.inl (Moves.frame core hdup)
  · exact (receiveOpen_core (Db.getDispatch_eq_some.mp hd).1 hstatus hopen).imp_right
      fun h => ⟨d, hd, h⟩
  · exact Or.inl (Moves.frame core hunknown)

/-- A step of the plan finds the state it starts from, and writes the one it leads to. -/
theorem syncStep_core {id : Uuid} {step : TaskState × TaskState} {u : Unit}
    (h : (syncStep id step).Returns w u w') :
    ∃ t ∈ w.db.core.tasks.rows, t.id = id ∧ t.state = step.1 ∧
      TaskState.isAllowed t.state step.2 t.resumeState ∧
      SetState w.db.core w'.db.core id step.2 none := by
  simp only [syncStep, returns_bind, returns_theTask, returns_require,
    returns_validateTransition] at h
  obtain ⟨t, _, ⟨ht, rfl⟩, -, _, ⟨hstate, rfl⟩, -, _, ⟨hallowed, rfl⟩, happly⟩ := h
  obtain ⟨hmem, hid⟩ := Db.getTask_eq_some.mp ht
  obtain rfl := Uuid.text_injective hid
  exact ⟨t, hmem, rfl, hstate, hallowed, setState_of_applyTransition happly⟩

/-- A task that is in `RECOVERING` goes back to the state it remembers; any other stays. -/
theorem leaveRecovery_core {t : Task} {u : Unit} (h : (leaveRecovery t).Returns w u w') :
    (t.state ≠ .recovering ∧ w'.db.core = w.db.core) ∨ (t.state = .recovering ∧
      ∃ rs ∈ t.resumeState, TaskState.isAllowed .recovering rs (some rs) = true ∧
        SetState w.db.core w'.db.core t.id rs none) := by
  simp only [leaveRecovery, returns_onlyIf, returns_bind, returns_orRaise,
    returns_validateTransition] at h
  rcases h with ⟨hrec, rs, _, ⟨hrs, rfl⟩, -, _, ⟨hallowed, rfl⟩, happly⟩ | ⟨hrec, rfl⟩
  · rw [hrec] at hallowed
    exact Or.inr ⟨hrec, rs, hrs, hallowed, setState_of_applyTransition happly⟩
  · exact Or.inl ⟨hrec, rfl⟩

/-- The state of the task follows its dispatch: out of `RECOVERING`, and along the plan. -/
theorem applyStateSync_core {decision : Option String} {u : Unit}
    (h : (applyStateSync d decision).Returns w u w') :
    ∃ t ∈ w.db.core.tasks.rows, t.id = d.taskId ∧ ∃ w₁, (leaveRecovery t).Returns w () w₁ ∧
      ∃ t₁ ∈ w₁.db.core.tasks.rows, t₁.id = d.taskId ∧
        (forEach (syncStep d.taskId) (stateSyncPlan d decision t₁.state)).Returns w₁ () w' := by
  simp only [applyStateSync, returns_bind, returns_theTask] at h
  obtain ⟨t, _, ⟨ht, rfl⟩, _, w₁, hleave, t₁, _, ⟨ht₁, rfl⟩, hsteps⟩ := h
  rw [Db.getTask_eq_some, Uuid.text_inj] at ht ht₁
  exact ⟨t, ht.1, ht.2, w₁, hleave, t₁, ht₁.1, ht₁.2, hsteps⟩

end Received

/-! ### What a recovery does -/

section Recovered

variable {w w' : World} {source : String} {key : Option String} {c : CoreDb}

def interrupted (db : Db) : List AgentDispatch :=
  db.listAllDispatches.filter fun d => d.status = .pending || d.status = .running

/-- The dispatches whose results may still arrive after a recovery. -/
def unresolved (db : Db) : List AgentDispatch :=
  (db.listAllDispatches.filter fun d => d.status = .recoveryPending) ++
    (interrupted db).filter mayStillArrive

/-- The steps of a recovery on the core tables: the dispatches, the tasks that are parked,
and the tasks that go back. -/
def Recovers (w : World) (c : CoreDb) : Prop :=
  ∃ w₁ w₂ w₃ w₄ w₅, w₁.db.core = w.db.core ∧
    (forEach recoverDispatch (interrupted w₁.db)).Returns w₁ () w₂ ∧
    (forEach parkTask (tasksOf (unresolved w₁.db))).Returns w₂ () w₃ ∧
    w₄.db.core = w₃.db.core ∧
    (forEach rollBack
      (w₄.db.core.tasks.rows.filter fun t => t.id ∉ tasksOf (unresolved w₁.db))).Returns w₄ () w₅ ∧
    c = w₅.db.core

/-- **What `recover` does**: nothing, or the steps of a recovery. -/
theorem recover_core (h : (recover source key w).2.db.core = c) :
    c = w.db.core ∨ Recovers w c := by
  refine (command_core (requireOwner_snd source) (fun _ => inferInstance) h).imp_right ?_
  rintro ⟨-, -, r, w₁, hr, rfl⟩
  simp only [recoverWork, returns_bind, returns_nowIso, returns_read, returns_pure] at hr
  obtain ⟨_, _, ⟨_, _, ⟨-, rfl⟩, _, w₂, hstarted, _, _, ⟨rfl, rfl⟩, _, w₃, hdispatches, _, w₄,
    hpark, _, _, ⟨rfl, rfl⟩, _, w₅, hroles, _, _, ⟨rfl, rfl⟩, _, w₆, hruns, _, _, ⟨rfl, rfl⟩, _, w₇,
    hroll, _, w₈, hcompleted, -, rfl⟩, -, rfl⟩ := hr
  have h₂ : core { w with reads := w.reads + 1 } = core w₂ := Moves.of_returns (R := Eq) hstarted
  have h₅ : core w₄ = core w₅ := Moves.of_returns (R := Eq) hroles
  have h₆ : core w₅ = core w₆ := Moves.of_returns (R := Eq) hruns
  have h₈ : core w₇ = core w₈ := Moves.of_returns (R := Eq) hcompleted
  exact ⟨w₂, w₃, w₄, w₆, w₇, h₂.symm, hdispatches, hpark, (h₅.trans h₆).symm, hroll, h₈.symm⟩

/-- Parking does nothing, or it sends a task that neither has ended nor is paused to
`RECOVERING`. -/
theorem parkTask_core {id : Uuid} {u : Unit} (h : (parkTask id).Returns w u w') :
    w'.db.core = w.db.core ∨ ∃ t ∈ w.db.core.tasks.rows, t.id = id ∧
      t.state.isTerminal = false ∧ t.state.isPause = false ∧
      SetState w.db.core w'.db.core id .recovering (some t.state) := by
  simp only [parkTask, returns_bind, returns_read, returns_whenSome] at h
  obtain ⟨_, _, ⟨rfl, rfl⟩, ⟨t, ht, _, w₁, hset, hemit⟩ | ⟨-, rfl⟩⟩ := h
  · have hcore : core w₁ = core w' := Moves.of_returns (R := Eq) hemit
    rw [Option.filter_eq_some_iff, Db.getTask_eq_some, Uuid.text_inj] at ht
    obtain ⟨⟨hmem, rfl⟩, hstate⟩ := ht
    simp only [Bool.and_eq_true, Bool.not_eq_true'] at hstate
    refine Or.inr ⟨t, hmem, rfl, hstate.1, hstate.2, ?_⟩
    rw [show w'.db.core = w₁.db.core from hcore.symm]
    exact setState_of_updateTaskState hset
  · exact Or.inl rfl

/-- Rolling back does nothing, or it sends a task to its target. -/
theorem rollBack_core {t : Task} {u : Unit} (h : (rollBack t).Returns w u w') :
    w'.db.core = w.db.core ∨
      ∃ s ∈ rollbackTarget t, SetState w.db.core w'.db.core t.id s none := by
  simp only [rollBack, returns_whenSome, returns_bind] at h
  obtain ⟨s, hs, _, w₁, hset, hemit⟩ | ⟨-, rfl⟩ := h
  · have hcore : core w₁ = core w' := Moves.of_returns (R := Eq) hemit
    refine Or.inr ⟨s, hs, ?_⟩
    rw [show w'.db.core = w₁.db.core from hcore.symm]
    exact setState_of_updateTaskState hset
  · exact Or.inl rfl

/-- **The rule of the last loop of a recovery.** Its tasks were read before it, but as each
is written once only, the row a step finds is the one that was read. -/
theorem rollBack_rule {I : CoreDb → Prop}
    (hstep : ∀ c c' t s, I c → t ∈ c.tasks.rows → s ∈ rollbackTarget t →
      SetState c c' t.id s none → I c') :
    ∀ {ts : List Task} {w w' : World} {u : Unit}, (ts.map Task.id).Nodup →
      (∀ t ∈ ts, t ∈ w.db.core.tasks.rows) → I w.db.core →
      (forEach rollBack ts).Returns w u w' → I w'.db.core
  | [], w, w', _, _, _, hI, h => by
    obtain ⟨-, rfl⟩ := returns_pure.mp h
    exact hI
  | t :: ts, w, w', _, hnodup, hmem, hI, h => by
    obtain ⟨_, w₁, hroll, hrest⟩ := returns_bind.mp h
    rw [List.map_cons, List.nodup_cons] at hnodup
    have ht := hmem t (by simp)
    rcases rollBack_core hroll with hcore | ⟨s, hs, hset⟩
    · exact rollBack_rule hstep hnodup.2 (fun x hx => hcore ▸ hmem x (by simp [hx]))
        (hcore ▸ hI) hrest
    · refine rollBack_rule hstep hnodup.2 (fun x hx => ?_) (hstep _ _ t s hI ht hs hset) hrest
      refine (mem_of_setState hset).mpr ⟨x, hmem x (by simp [hx]), Or.inr ⟨?_, rfl⟩⟩
      exact fun hid => hnodup.1 (hid ▸ List.mem_map_of_mem hx)

theorem nodup_task_ids (c : CoreDb) (p : Task → Bool) :
    ((c.tasks.rows.filter p).map Task.id).Nodup := by
  refine List.pairwise_map.mpr ((c.tasks.unique.filter p).imp fun {a b} hab hid => ?_)
  simp [Task.clash, hid] at hab

end Recovered

end Core

end ArgentTeam
