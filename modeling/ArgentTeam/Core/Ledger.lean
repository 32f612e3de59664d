import ArgentTeam.Core.Calls

/-!
# What no command takes back

No command of the core deletes a row of a table it answers from, nor changes what identifies
it, the risk class and the policy of a task, what an approval is bound to, or the record of a
key. The `ledger` of a world is that part of it; whatever a command does, and however it ends,
the ledger only `Grows`, and so it does along every run.
-/

namespace ArgentTeam

open Prog Store

namespace Core

/-- What no command takes back. -/
structure Ledger where
  tasks : List (Uuid × RiskClass × ExternalActionsPolicy)
  findings : List Uuid
  decisions : List Uuid
  approvals : List (Uuid × Uuid × String × String × Binding)
  executions : List Uuid
  dispatches : List Uuid
  projects : List Uuid
  taskRuns : List Uuid
  roleRuns : List Uuid
  testRuns : List Uuid
  reviews : List Uuid
  commands : List CommandIdempotency

def ledger (w : World) : Ledger where
  tasks := w.db.core.tasks.rows.map fun t => (t.id, t.riskClass, t.externalActionsPolicy)
  findings := w.db.core.findings.rows.map Finding.id
  decisions := w.db.core.decisions.rows.map Decision.id
  approvals := w.db.core.ownerApprovals.rows.map fun a =>
    (a.id, a.taskId, a.action, a.scope, a.bindingHash)
  executions := w.db.core.actionExecutions.rows.map ActionExecution.id
  dispatches := w.db.core.agentDispatches.rows.map AgentDispatch.id
  projects := w.db.log.projects.rows.map Project.id
  taskRuns := w.db.log.taskRuns.rows.map TaskRun.id
  roleRuns := w.db.log.roleRuns.rows.map RoleRun.id
  testRuns := w.db.log.testRuns.rows.map TestRun.id
  reviews := w.db.log.reviews.rows.map Review.id
  commands := w.db.log.commandIdempotency.rows.map id

/-- Nothing is taken back. -/
structure Grows (l l' : Ledger) : Prop where
  tasks : l.tasks <+: l'.tasks
  findings : l.findings <+: l'.findings
  decisions : l.decisions <+: l'.decisions
  approvals : l.approvals <+: l'.approvals
  executions : l.executions <+: l'.executions
  dispatches : l.dispatches <+: l'.dispatches
  projects : l.projects <+: l'.projects
  taskRuns : l.taskRuns <+: l'.taskRuns
  roleRuns : l.roleRuns <+: l'.roleRuns
  testRuns : l.testRuns <+: l'.testRuns
  reviews : l.reviews <+: l'.reviews
  commands : l.commands <+: l'.commands

theorem Grows.refl (l : Ledger) : Grows l l := by
  constructor <;> exact List.prefix_rfl

instance : Std.Refl Grows := ⟨Grows.refl⟩

instance : IsTrans Ledger Grows := by
  refine ⟨fun l l' l'' h h' => ?_⟩
  constructor
  · exact h.tasks.trans h'.tasks
  · exact h.findings.trans h'.findings
  · exact h.decisions.trans h'.decisions
  · exact h.approvals.trans h'.approvals
  · exact h.executions.trans h'.executions
  · exact h.dispatches.trans h'.dispatches
  · exact h.projects.trans h'.projects
  · exact h.taskRuns.trans h'.taskRuns
  · exact h.roleRuns.trans h'.roleRuns
  · exact h.testRuns.trans h'.testRuns
  · exact h.reviews.trans h'.reviews
  · exact h.commands.trans h'.commands

instance : OffReports ledger := by
  refine ⟨fun w w' hcore _ hprojects htaskRuns hroleRuns htestRuns hreviews hcommands => ?_⟩
  simp only [ledger, hcore, hprojects, htaskRuns, hroleRuns, htestRuns, hreviews, hcommands]

/-! ### The mutators -/

section Mutators

variable {id id' : Uuid} {now : Time} {error : Error} {session run : String}
  {provider model tier : Option String}

instance {t : Task} : Moves ledger Grows (insertTask t) :=
  Relvar.moves_insert fun w _ h =>
    { Grows.refl (ledger w) with tasks := Table.prefix_of_insert? h }

instance {state : TaskState} {resume : Option TaskState} :
    Moves ledger Grows (updateTaskState id state resume) :=
  Relvar.moves_update fun w _ h =>
    { Grows.refl (ledger w) with tasks := Table.prefix_of_update? (fun _ => by rfl) h }

instance {f : Finding} : Moves ledger Grows (insertFinding f) :=
  Relvar.moves_insert fun w _ h =>
    { Grows.refl (ledger w) with findings := Table.prefix_of_insert? h }

instance {status : FindingStatus} : Moves ledger Grows (updateFindingStatus id status) :=
  Relvar.moves_update fun w _ h =>
    { Grows.refl (ledger w) with findings := Table.prefix_of_update? (fun _ => by rfl) h }

instance {d : Decision} : Moves ledger Grows (insertDecision d) :=
  Relvar.moves_insert fun w _ h =>
    { Grows.refl (ledger w) with decisions := Table.prefix_of_insert? h }

instance {a : OwnerApproval} : Moves ledger Grows (insertApproval a) :=
  Relvar.moves_insert fun w _ h =>
    { Grows.refl (ledger w) with approvals := Table.prefix_of_insert? h }

theorem grows_updateApproval {p : OwnerApproval → Bool} {f : OwnerApproval → OwnerApproval}
    (hf : ∀ a, ((f a).id, (f a).taskId, (f a).action, (f a).scope, (f a).bindingHash) =
      (a.id, a.taskId, a.action, a.scope, a.bindingHash)) :
    Moves ledger Grows (Tables.ownerApprovals.update integrityError p f) :=
  Relvar.moves_update fun w _ h =>
    { Grows.refl (ledger w) with approvals := Table.prefix_of_update? hf h }

instance : Moves ledger Grows (markApproved id now) := grows_updateApproval fun _ => rfl

instance : Moves ledger Grows (markRejected id now) := grows_updateApproval fun _ => rfl

instance : Moves ledger Grows (consumeApprovalWithExecution id now id') :=
  grows_updateApproval fun _ => rfl

instance : Moves ledger Grows (markExpired id now) := grows_updateApproval fun _ => rfl

instance {x : ActionExecution} : Moves ledger Grows (insertActionExecution x) :=
  Relvar.moves_insert fun w _ h =>
    { Grows.refl (ledger w) with executions := Table.prefix_of_insert? h }

instance {d : AgentDispatch} : Moves ledger Grows (insertDispatch d) :=
  Relvar.moves_insert fun w _ h =>
    { Grows.refl (ledger w) with dispatches := Table.prefix_of_insert? h }

theorem grows_updateDispatch {p : AgentDispatch → Bool} {f : AgentDispatch → AgentDispatch}
    (hf : ∀ d, (f d).id = d.id) :
    Moves ledger Grows (Tables.agentDispatches.update error p f) :=
  Relvar.moves_update fun w _ h =>
    { Grows.refl (ledger w) with dispatches := Table.prefix_of_update? hf h }

instance : Moves ledger Grows (updateDispatchBind error id session run provider model tier) :=
  grows_updateDispatch fun _ => rfl

instance : Moves ledger Grows (rejectDispatchCas id) := grows_updateDispatch fun _ => rfl

instance {status : DispatchStatus} : Moves ledger Grows (updateDispatchStatus id status) :=
  grows_updateDispatch fun _ => rfl

instance {result : Json} : Moves ledger Grows (consumeDispatch id result) :=
  grows_updateDispatch fun _ => rfl

instance : OfRecords ledger Grows where
  project _ := Relvar.moves_insert fun w _ h =>
    { Grows.refl (ledger w) with projects := Table.prefix_of_insert? h }
  taskRun _ := Relvar.moves_insert fun w _ h =>
    { Grows.refl (ledger w) with taskRuns := Table.prefix_of_insert? h }
  taskRunStatus _ _ := Relvar.moves_update fun w _ h =>
    { Grows.refl (ledger w) with taskRuns := Table.prefix_of_update? (fun _ => by rfl) h }
  roleRun _ := Relvar.moves_insert fun w _ h =>
    { Grows.refl (ledger w) with roleRuns := Table.prefix_of_insert? h }
  roleRunStatus _ _ := Relvar.moves_update fun w _ h =>
    { Grows.refl (ledger w) with roleRuns := Table.prefix_of_update? (fun _ => by rfl) h }
  testRun _ := Relvar.moves_insert fun w _ h =>
    { Grows.refl (ledger w) with testRuns := Table.prefix_of_insert? h }
  review _ := Relvar.moves_insert fun w _ h =>
    { Grows.refl (ledger w) with reviews := Table.prefix_of_insert? h }

instance {r : CommandIdempotency} : Moves ledger Grows (setCommandIdempotency r) := by
  refine ⟨fun w => ?_⟩
  refine { Grows.refl (ledger w) with commands := ?_ }
  rcases h : (Tables.commandIdempotency.get w).insert? r with _ | t'
  · rw [show (setCommandIdempotency r w).2 = Tables.commandIdempotency.set
      (((Tables.commandIdempotency.get w).insert? r).getD _) w from rfl, h]
    exact List.prefix_rfl
  · rw [show (setCommandIdempotency r w).2 = Tables.commandIdempotency.set
      (((Tables.commandIdempotency.get w).insert? r).getD _) w from rfl, h]
    exact Table.prefix_of_insert? h

end Mutators

/-! ### The commands -/

/-- **No command takes anything back**, however it ends. -/
theorem grows_call (cfg : Config) (c : Command) : Moves ledger Grows (call cfg c) := by
  cases c <;> dsimp only [call, Command.Result] <;> infer_instance

theorem grows_run (cfg : Config) (w : World) (cs : List Command) :
    Grows (ledger w) (ledger (run cfg w cs)) := by
  induction cs generalizing w with
  | nil => exact Grows.refl _
  | cons c cs ih =>
    have hstep : Grows (ledger w) (ledger (step cfg w c)) := by
      rw [step_eq_call]
      exact (grows_call cfg c).moves w
    exact IsTrans.trans _ _ _ hstep (ih _)

/-! ### Looking up again -/

section Lookup

variable {w w' : World} {id key command : String} (hgrows : Grows (ledger w) (ledger w'))

include hgrows

theorem Grows.getTask {t : Task} (h : w.db.getTask id = some t) :
    ∃ t', w'.db.getTask id = some t' ∧ t'.riskClass = t.riskClass ∧
      t'.externalActionsPolicy = t.externalActionsPolicy := by
  obtain ⟨t', ht', htrait⟩ := Table.lookup_of_prefix
    (fun x : Uuid × RiskClass × ExternalActionsPolicy => x.1.text) hgrows.tasks h
  simp only [Prod.mk.injEq] at htrait
  exact ⟨t', ht', htrait.2.1, htrait.2.2⟩

theorem Grows.getApproval {a : OwnerApproval} (h : w.db.getApproval id = some a) :
    ∃ a', w'.db.getApproval id = some a' ∧ a'.taskId = a.taskId ∧ a'.action = a.action ∧
      a'.scope = a.scope ∧ a'.bindingHash = a.bindingHash := by
  obtain ⟨a', ha', htrait⟩ := Table.lookup_of_prefix
    (fun x : Uuid × Uuid × String × String × Binding => x.1.text) hgrows.approvals h
  simp only [Prod.mk.injEq] at htrait
  exact ⟨a', ha', htrait.2⟩

theorem Grows.getCommandIdempotency {r : CommandIdempotency}
    (h : w.db.getCommandIdempotency key command = some r) :
    w'.db.getCommandIdempotency key command = some r := by
  obtain ⟨r', hr', rfl⟩ :=
    Table.lookup_of_prefix (fun r : CommandIdempotency => (r.key, r.command)) hgrows.commands h
  exact hr'

omit hgrows in
theorem isSome_of_prefix {ρ : Type} {clash : ρ → ρ → Bool} {t t' : Table ρ clash} {key : ρ → Uuid}
    (hpre : t.rows.map key <+: t'.rows.map key)
    (h : (t.lookup (fun r => (key r).text) id).isSome = true) :
    (t'.lookup (fun r => (key r).text) id).isSome = true := by
  obtain ⟨r, hr⟩ := Option.isSome_iff_exists.mp h
  obtain ⟨r', hr', -⟩ := Table.lookup_of_prefix Uuid.text hpre hr
  rw [hr', Option.isSome_some]

end Lookup

/-- **What is recorded is recorded for good**, whatever commands follow and however they end: the
record of a key, what an approval is bound to, and the risk class and the policy of a task. -/
theorem recorded_for_good (cfg : Config) (w : World) (cs : List Command) :
    (∀ key command r, w.db.getCommandIdempotency key command = some r →
      (run cfg w cs).db.getCommandIdempotency key command = some r) ∧
    (∀ id a, w.db.getApproval id = some a → ∃ a', (run cfg w cs).db.getApproval id = some a' ∧
      a'.taskId = a.taskId ∧ a'.action = a.action ∧ a'.scope = a.scope ∧
      a'.bindingHash = a.bindingHash) ∧
    ∀ id t, w.db.getTask id = some t → ∃ t', (run cfg w cs).db.getTask id = some t' ∧
      t'.riskClass = t.riskClass ∧ t'.externalActionsPolicy = t.externalActionsPolicy := by
  have hgrows := grows_run cfg w cs
  exact ⟨fun _ _ _ h => hgrows.getCommandIdempotency h, fun _ _ h => hgrows.getApproval h,
    fun _ _ h => hgrows.getTask h⟩

end Core

end ArgentTeam
