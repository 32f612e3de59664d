import ArgentTeam.Core.Keyed

/-!
# The commands under a key

Command by command: the work leaves the row that its result names, the refetch finds it, and
the records of the keys are left alone. The decisions of the owner are answered by the
approval, which stays bound as it was; a receipt and a recovery are answered afresh.
-/

namespace ArgentTeam

open Prog Store

namespace Core

set_option synthInstance.maxSize 10000

attribute [local instance] moves_steps

/-! ### The commands -/

def forbiddenError (action : String) : Error :=
  .error .forbiddenAction "action %r is forbidden" [action]

/-- The errors a command raises although its work has been recorded: a forbidden request,
and a spawn that is rejected. -/
def Command.Late : Command → Error → Prop
  | .requestAction _ action .. => fun e => e = forbiddenError action
  | .bindSpawnResult .. => fun e => ∃ d s, e = modelMismatchError d s
  | _ => fun _ => False

def LawfulCall (cfg : Config) (c : Command) : Prop :=
  Lawful c.key c.name c.args (c.checks cfg) c.answer c.Echoes c.Late (call cfg c)

section Plain

variable {cfg : Config} {name source projectId title taskId roleRunId taskRunId severity
  description findingId verdict decision reason dispatchId : String}
  {key text detail errorClass errorCode : Option String} {risk : RiskClass}
  {policy : ExternalActionsPolicy} {toState : TaskState} {role : Role} {result : TestResult}
  {note : Option (String × JsonText)} {id : String}

theorem lawful_createProject : LawfulCall cfg (.createProject name source key) := by
  refine lawful_of_fixed (grows_call cfg _) rfl fixed_requireOwner
    (Keyed.obeys (keyed_refetch ?_ ?_))
  · refine LeavesRow.bind fun pid => LeavesRow.bind fun _ => leavesRow_of_insert
      (found_of_insert Project.id (fun _ _ _ => rfl) fun a ha => by simp [Project.clash, ha]) ?_ ?_
    · infer_instance
    · exact ends_pure
  · infer_instance

instance : Tables.events.Apart fun w => w.db.getTask id := ⟨fun _ _ => rfl⟩

instance {α : Type} {find : Db → String → Option α} : OfDb fun w => find w.db id :=
  ⟨fun w w' h => by simp only [h]⟩

theorem lawful_createTask :
    LawfulCall cfg (.createTask projectId title source key text risk policy) := by
  refine lawful_of_fixed (grows_call cfg _) rfl fixed_requireOwner
    (Keyed.obeys (keyed_refetch ?_ ?_))
  · refine LeavesRow.bind fun _ => LeavesRow.bind fun project => LeavesRow.bind fun tid =>
      LeavesRow.bind fun _ => leavesRow_of_insert
        (found_of_insert Task.id (fun _ _ _ => rfl) fun a ha => by simp [Task.clash, ha]) ?_ ?_
    · infer_instance
    · exact Ends.bind fun _ => ends_pure
  · infer_instance

theorem lawful_transition : LawfulCall cfg (.transition taskId toState source key) := by
  refine lawful_of_fixed (grows_call cfg _) rfl fixed_checkSource
    (Keyed.obeys (keyed_refetch ?_ ?_))
  · refine leavesRow_of_reread isSome_of_theTask (fun task => ?_) fun task => ?_
    · infer_instance
    · repeat' first | exact rereads_last | refine Rereads.bind fun _ => ?_
  · infer_instance

theorem lawful_resume : LawfulCall cfg (.resume taskId source key) := by
  refine lawful_of_fixed (grows_call cfg _) rfl fixed_checkSource
    (Keyed.obeys (keyed_refetch ?_ ?_))
  · refine leavesRow_of_reread isSome_of_theTask (fun task => ?_) fun task => ?_
    · infer_instance
    · repeat' first | exact rereads_last | refine Rereads.bind fun _ => ?_
  · infer_instance

instance : Tables.events.Apart fun w => w.db.getRoleRun id := ⟨fun _ _ => rfl⟩

theorem lawful_startRole : LawfulCall cfg (.startRole taskId role source key) := by
  refine lawful_of_fixed (grows_call cfg _) rfl fixed_checkSource
    (Keyed.obeys (keyed_refetch ?_ ?_))
  · iterate 9 refine LeavesRow.bind fun _ => ?_
    refine leavesRow_of_insert (found_of_insert RoleRun.id (fun _ _ _ => rfl) fun a ha => by
      simp [RoleRun.clash, ha]) ?_ ?_
    · infer_instance
    · exact Ends.bind fun _ => ends_pure
  · infer_instance

theorem leavesRow_endRole {status : RunStatus} {type : String} {payload : List (String × Json)} :
    LeavesRow Db.getRoleRun (endRole roleRunId source status type payload) := by
  refine leavesRow_of_reread isSome_of_theRoleRun (fun rr => ?_) fun rr => ?_
  · infer_instance
  · repeat' first | exact rereads_last | refine Rereads.bind fun _ => ?_

theorem lawful_completeRole : LawfulCall cfg (.completeRole roleRunId source key) :=
  lawful_of_fixed (grows_call cfg _) rfl fixed_checkSource
    (Keyed.obeys (keyed_refetch leavesRow_endRole inferInstance))

theorem lawful_failRole : LawfulCall cfg (.failRole roleRunId source detail key) :=
  lawful_of_fixed (grows_call cfg _) rfl fixed_checkSource
    (Keyed.obeys (keyed_refetch leavesRow_endRole inferInstance))

theorem lawful_startTaskRun : LawfulCall cfg (.startTaskRun taskId source key) := by
  refine lawful_of_fixed (grows_call cfg _) rfl fixed_checkSource
    (Keyed.obeys (keyed_refetch ?_ ?_))
  · iterate 3 refine LeavesRow.bind fun _ => ?_
    refine leavesRow_of_insert (found_of_insert TaskRun.id (fun _ _ _ => rfl) fun a ha => by
      simp [TaskRun.clash, ha]) ?_ ends_pure
    infer_instance
  · infer_instance

theorem leavesRow_endTaskRun {status : RunStatus} :
    LeavesRow Db.getTaskRun (endTaskRun taskRunId status) := by
  refine leavesRow_of_reread isSome_of_theTaskRun (fun tr => ?_) fun tr => ?_
  · infer_instance
  · repeat' first | exact rereads_last | refine Rereads.bind fun _ => ?_

theorem lawful_completeTaskRun : LawfulCall cfg (.completeTaskRun taskRunId source key) :=
  lawful_of_fixed (grows_call cfg _) rfl fixed_checkSource
    (Keyed.obeys (keyed_refetch leavesRow_endTaskRun inferInstance))

theorem lawful_failTaskRun : LawfulCall cfg (.failTaskRun taskRunId source key) :=
  lawful_of_fixed (grows_call cfg _) rfl fixed_checkSource
    (Keyed.obeys (keyed_refetch leavesRow_endTaskRun inferInstance))

instance : Tables.events.Apart fun w => w.db.getFinding id := ⟨fun _ _ => rfl⟩
instance : Tables.events.Apart fun w => w.db.getTestRun id := ⟨fun _ _ => rfl⟩
instance : Tables.events.Apart fun w => w.db.getReview id := ⟨fun _ _ => rfl⟩
instance : Tables.events.Apart fun w => w.db.getDecision id := ⟨fun _ _ => rfl⟩

theorem lawful_addFinding :
    LawfulCall cfg (.addFinding taskId severity description source key) := by
  refine lawful_of_fixed (grows_call cfg _) rfl fixed_checkSource
    (Keyed.obeys (keyed_refetch ?_ ?_))
  · iterate 4 refine LeavesRow.bind fun _ => ?_
    refine leavesRow_of_insert (found_of_insert Finding.id (fun _ _ _ => rfl) fun a ha => by
      simp [Finding.clash, ha]) ?_ ?_
    · infer_instance
    · exact Ends.bind fun _ => ends_pure
  · infer_instance

theorem lawful_resolveFinding : LawfulCall cfg (.resolveFinding findingId source key) := by
  refine lawful_of_fixed (grows_call cfg _) rfl fixed_checkSource
    (Keyed.obeys (keyed_refetch ?_ ?_))
  · -- the finding that is named is there
    intro w x w' hr
    obtain ⟨o, w₁, ho, hr⟩ := returns_bind.mp hr
    obtain ⟨rfl, rfl⟩ := returns_read.mp ho
    obtain ⟨f, w₁, hf, hr⟩ := returns_bind.mp hr
    obtain ⟨hfound, rfl⟩ := returns_orRaise.mp hf
    refine Rereads.leaves ?_ ?_ (Option.isSome_of_eq_some hfound) hr
    · repeat' first | exact rereads_last | refine Rereads.bind fun _ => ?_
    · infer_instance
  · infer_instance

theorem lawful_recordTestRun :
    LawfulCall cfg (.recordTestRun taskId result source detail key) := by
  refine lawful_of_fixed (grows_call cfg _) rfl fixed_checkSource
    (Keyed.obeys (keyed_refetch ?_ ?_))
  · iterate 4 refine LeavesRow.bind fun _ => ?_
    refine leavesRow_of_insert (found_of_insert TestRun.id (fun _ _ _ => rfl) fun a ha => by
      simp [TestRun.clash, ha]) ?_ ?_
    · infer_instance
    · exact Ends.bind fun _ => Ends.bind fun _ => ends_pure
  · infer_instance

theorem lawful_recordReview : LawfulCall cfg (.recordReview taskId verdict source note key) := by
  refine lawful_of_fixed (grows_call cfg _) rfl fixed_checkSource
    (Keyed.obeys (keyed_refetch ?_ ?_))
  · iterate 4 refine LeavesRow.bind fun _ => ?_
    refine leavesRow_of_insert (found_of_insert Review.id (fun _ _ _ => rfl) fun a ha => by
      simp [Review.clash, ha]) ?_ ?_
    · infer_instance
    · exact Ends.bind fun _ => Ends.bind fun _ => ends_pure
  · infer_instance

theorem lawful_recordDecision :
    LawfulCall cfg (.recordDecision taskId decision source note key) := by
  refine lawful_of_fixed (grows_call cfg _) rfl fixed_checkSource
    (Keyed.obeys (keyed_refetch ?_ ?_))
  · iterate 4 refine LeavesRow.bind fun _ => ?_
    refine leavesRow_of_insert (found_of_insert Decision.id (fun _ _ _ => rfl) fun a ha => by
      simp [Decision.clash, ha]) ?_ ?_
    · infer_instance
    · exact Ends.bind fun _ => ends_pure
  · infer_instance

theorem lawful_markAgentFailed :
    LawfulCall cfg (.markAgentFailed dispatchId reason source key errorClass errorCode) := by
  refine lawful_of_fixed (grows_call cfg _) Prog.bind_assoc.symm
    (fixed_requireController.bind fun _ => fixed_require) (Keyed.obeys (keyed_refetch ?_ ?_))
  · refine leavesRow_of_reread isSome_of_theDispatch (fun d => ?_) fun d => ?_
    · infer_instance
    · repeat' first | exact rereads_last | refine Rereads.bind fun _ => ?_
  · infer_instance

end Plain

section Fresh

variable {cfg : Config} {dispatchId source : String} {eventMeta result : Json}
  {key : Option String}

/-- A receipt is answered by the status of its dispatch. -/
theorem keyed_receive : Keyed
    (do
      let r ← receiveWork cfg dispatchId eventMeta result
      pure (r, dispatchId))
    (fun _ => receiveAgain dispatchId) (receiveAnswer dispatchId) fun a a' => False → a' = a where
  refetches id w a w' := by
    simp only [receiveAgain, receiveAnswer, returns_bind, returns_read, returns_pure,
      Option.some.injEq]
    constructor
    · rintro ⟨_, _, ⟨rfl, rfl⟩, ha, rfl⟩
      exact ⟨ha, rfl⟩
    · rintro ⟨ha, rfl⟩
      exact ⟨_, w, ⟨rfl, rfl⟩, ha, rfl⟩
  apart _ := ⟨fun _ _ => rfl⟩
  lasts _ _ := rfl
  sound _ := ⟨_, rfl, False.elim⟩
  frame := moves_bind (moves_receiveWork fun _ => moves_receiveOpen fun _ =>
    moves_consumeWork (fun _ => inferInstance) (fun _ => inferInstance) fun _ => inferInstance)
    fun _ => inferInstance

theorem lawful_receiveAgentResult :
    LawfulCall cfg (.receiveAgentResult dispatchId eventMeta result source key) :=
  lawful_of_fixed (grows_call cfg _) rfl fixed_requireController (Keyed.obeys keyed_receive)

theorem keyed_recover : Keyed
    (do
      let report ← recoverWork
      pure (report, "recovered"))
    (fun _ => pure ⟨0, 0, [], 0⟩) (fun _ _ => some ⟨0, 0, [], 0⟩) fun a a' => False → a' = a where
  refetches id w a w' := by simp only [returns_pure, Option.some.injEq]
  apart _ := ⟨fun _ _ => rfl⟩
  lasts _ _ := rfl
  sound _ := ⟨_, rfl, False.elim⟩
  frame := moves_bind inferInstance fun _ => inferInstance

theorem lawful_recover : LawfulCall cfg (.recover source key) :=
  lawful_of_fixed (grows_call cfg _) rfl fixed_requireOwner (Keyed.obeys keyed_recover)

end Fresh

/-! ### The decisions of the owner -/

section Gate

variable {cfg : Config} {approvalId source taskId action scope command id : String}
  {key : Option String} {args : Json} {w w' : World} {ap : OwnerApproval} {e : Error}
  {o : Option OwnerApproval}

/-- An approval is bound to a task, an action and a scope. -/
def BoundTo (taskId action scope : String) (ap : OwnerApproval) : Prop :=
  ap.taskId.text = taskId ∧ ap.action = action ∧ ap.scope = scope ∧
    ap.bindingHash = ⟨taskId, action, scope⟩

theorem gateAnswer_eq_some {db : Db} :
    gateAnswer taskId action scope db id = some o ↔
      ∃ ap, db.getApproval id = some ap ∧ BoundTo taskId action scope ap ∧ some ap = o := by
  simp only [gateAnswer, named, Option.map_eq_some_iff, Option.filter_eq_some_iff,
    decide_eq_true_eq, BoundTo, and_assoc]

/-- The work of a gate command, which checks what the approval is bound to and reads it
again in the end. -/
structure GateWork (work : Cmd (Option OwnerApproval)) (ap : OwnerApproval)
    (taskId action scope : String) : Prop where
  bound : ∀ {w o w'}, work.Returns w o w' → BoundTo taskId action scope ap
  rereads : ∀ {w o w'}, work.Returns w o w' → o = w'.db.getApproval ap.id.text

/-- A program that ends with reading the approval. -/
def ReadsApproval (id : String) (m : Cmd (Option OwnerApproval)) : Prop :=
  ∀ {w o w'}, m.Returns w o w' → o = w'.db.getApproval id

theorem readsApproval_read : ReadsApproval id (read fun w => w.db.getApproval id) := by
  intro w o w' hr
  obtain ⟨rfl, rfl⟩ := returns_read.mp hr
  rfl

theorem ReadsApproval.bind {β : Type} {m : Cmd β} {f : β → Cmd (Option OwnerApproval)}
    (h : ∀ b, ReadsApproval id (f b)) : ReadsApproval id (m >>= f) := by
  intro w o w' hr
  obtain ⟨b, w₁, -, hf⟩ := returns_bind.mp hr
  exact h b hf

theorem gateWork_of {rest : Unit → Cmd (Option OwnerApproval)}
    (h : ∀ u, ReadsApproval ap.id.text (rest u)) :
    GateWork (checkFullBinding ap taskId action scope >>= rest) ap taskId action scope where
  bound hr := by
    obtain ⟨u, w₁, hcheck, -⟩ := returns_bind.mp hr
    obtain ⟨⟨htask, haction, hscope⟩, hhash, -⟩ := returns_checkFullBinding.mp hcheck
    exact ⟨htask, haction, hscope, hhash⟩
  rereads hr := by
    obtain ⟨u, w₁, -, hrest⟩ := returns_bind.mp hr
    exact h u hrest

theorem gateWork_approve : GateWork (approveWork ap taskId action scope) ap taskId action scope :=
  gateWork_of fun _ => by
    repeat' first | exact readsApproval_read | refine ReadsApproval.bind fun _ => ?_

theorem gateWork_reject : GateWork (rejectWork ap taskId action scope) ap taskId action scope :=
  gateWork_of fun _ => by
    repeat' first | exact readsApproval_read | refine ReadsApproval.bind fun _ => ?_

theorem gateWork_execute : GateWork (executeWork ap taskId action scope) ap taskId action scope :=
  gateWork_of fun _ => by
    repeat' first | exact readsApproval_read | refine ReadsApproval.bind fun _ => ?_

/-- **A gate command answers with the approval**, which stays bound as it was. -/
theorem keyed_gate {work : OwnerApproval → String → String → String → Cmd (Option OwnerApproval)}
    (hwork : ∀ ap, GateWork (work ap taskId action scope) ap taskId action scope)
    (hgrows : ∀ ap, Moves ledger Grows (work ap taskId action scope))
    (hkeys : ∀ ap, Moves keys Eq (work ap taskId action scope)) : Keyed
      (do
        let ap ← theApproval approvalId
        let ap ← work ap taskId action scope
        pure (ap, approvalId))
      (approvalBindingRefetch taskId action scope) (gateAnswer taskId action scope)
      fun a a' => True → a' = a where
  refetches id w a w' := by
    simp only [approvalBindingRefetch, returns_bind, returns_read, returns_orRaise,
      returns_checkFullBinding, returns_pure, gateAnswer_eq_some, BoundTo]
    constructor
    · rintro ⟨_, _, ⟨rfl, rfl⟩, ap, _, ⟨hap, rfl⟩, _, _, ⟨⟨ht, ha, hs⟩, hb, rfl⟩, rfl, rfl⟩
      exact ⟨⟨ap, hap, ⟨ht, ha, hs, hb⟩, rfl⟩, rfl⟩
    · rintro ⟨⟨ap, hap, ⟨ht, ha, hs, hb⟩, rfl⟩, rfl⟩
      exact ⟨_, w, ⟨rfl, rfl⟩, ap, w, ⟨hap, rfl⟩, (), w, ⟨⟨ht, ha, hs⟩, hb, rfl⟩, rfl, rfl⟩
  apart _ := ⟨fun _ _ => rfl⟩
  lasts hgrows h := by
    obtain ⟨o, ho⟩ := Option.isSome_iff_exists.mp h
    obtain ⟨ap, hap, hbound, -⟩ := (gateAnswer_eq_some).mp ho
    obtain ⟨ap', hap', ht, ha, hs, hb⟩ := hgrows.getApproval hap
    have hbound' : BoundTo taskId action scope ap' := by
      rw [BoundTo, ht, ha, hs, hb]
      exact hbound
    exact Option.isSome_of_eq_some ((gateAnswer_eq_some).mpr ⟨ap', hap', hbound', rfl⟩)
  sound {w o id w'} hr := by
    simp only [returns_bind, returns_theApproval, returns_pure, Prod.mk.injEq] at hr
    obtain ⟨ap, _, ⟨hap, rfl⟩, _, w₁, hw, ⟨rfl, rfl⟩, rfl⟩ := hr
    obtain ⟨ap', hap', ht, ha, hs, hb⟩ :=
      Grows.getApproval (Moves.of_returns (h := hgrows ap) hw) hap
    have hbound' : BoundTo taskId action scope ap' := by
      rw [BoundTo, ht, ha, hs, hb]
      exact (hwork ap).bound hw
    have hread := (hwork ap).rereads hw
    rw [(Db.getApproval_eq_some.mp hap).2, hap'] at hread
    exact ⟨_, (gateAnswer_eq_some).mpr ⟨ap', hap', hbound', rfl⟩, fun _ => hread.symm⟩
  frame := moves_bind inferInstance fun ap => moves_bind (hkeys ap) fun _ => inferInstance

theorem not_returns_onExpired : ¬(onExpired e).Returns w o w' := by
  cases e <;> simp [onExpired]

/-- **A gate command keeps its promise**: what it raises is not about its key, and the expiry
it carries out does not touch the records of the keys. -/
theorem Keyed.obeys_gate {late : Error → Prop} {work : Cmd (Option OwnerApproval × String)}
    {again : String → Cmd (Option OwnerApproval)}
    {answer : Db → String → Option (Option OwnerApproval)}
    (h : Keyed work again answer fun a a' => True → a' = a) :
    Obeys key command args answer True late
      (rescue (idempotent key command args work again) onExpired) where
  again {k w o w'} hkey hr := by
    have hobeys : Obeys key command args answer True late _ := h.obeys
    rcases returns_rescue.mp hr with hr | ⟨e, w₁, -, hr⟩
    · obtain ⟨r, hrec, hargs, hecho, hlater⟩ := hobeys.again hkey hr
      refine ⟨r, hrec, hargs, hecho, fun w₂ hgrows => ?_⟩
      obtain ⟨o₂, ho₂, hr₂⟩ := hlater w₂ hgrows
      exact ⟨o₂, ho₂, returns_rescue.mpr (Or.inl hr₂)⟩
    · exact absurd hr not_returns_onExpired
  conflicts {k w r} hkey hrec hargs := by
    subst hkey
    exact raises_rescue.mpr ⟨_, w, raises_keyReused hrec hargs, raises_raise.mpr ⟨rfl, rfl⟩⟩
  raised {w e w'} hr := by
    obtain ⟨e₁, w₁, hr, hthen⟩ := raises_rescue.mp hr
    have hdb := (raises_idempotent hr).1
    have hkeys : keys w₁ = keys w := OfDb.congr _ _ hdb
    have hsame : unreported w₁ = unreported w := OfDb.congr _ _ hdb
    refine Or.inr ?_
    cases e₁ with
    | error cls text values =>
      obtain ⟨-, rfl⟩ := raises_raise.mp hthen
      exact ⟨hkeys, Or.inl hsame⟩
    | approvalExpired id =>
      rcases raises_bind.mp hthen with hrelease | ⟨u, w₂, hrelease, hraise⟩
      · obtain ⟨w₂, -, rfl⟩ := raises_transaction.mp hrelease
        exact ⟨hkeys, Or.inl hsame⟩
      · obtain ⟨rfl, rfl⟩ := raises_raise.mp hraise
        refine ⟨?_, Or.inr ⟨id.text, rfl⟩⟩
        exact (Moves.frame keys (returns_transaction.mp hrelease)).trans hkeys

theorem lawful_approve : LawfulCall cfg (.approve approvalId source taskId action scope key) :=
  lawful_of_fixed (grows_call cfg _) rfl fixed_requireOwner (Keyed.obeys_gate
    (keyed_gate (fun _ => gateWork_approve) (fun _ => inferInstance) fun _ => inferInstance))

theorem lawful_reject : LawfulCall cfg (.reject approvalId source taskId action scope key) :=
  lawful_of_fixed (grows_call cfg _) rfl fixed_requireOwner (Keyed.obeys_gate
    (keyed_gate (fun _ => gateWork_reject) (fun _ => inferInstance) fun _ => inferInstance))

theorem lawful_executeApproved :
    LawfulCall cfg (.executeApproved approvalId source taskId action scope key) :=
  lawful_of_fixed (grows_call cfg _) rfl fixed_requireOwner (Keyed.obeys_gate
    (keyed_gate (fun _ => gateWork_execute) (fun _ => inferInstance) fun _ => inferInstance))

end Gate

/-! ### The spawns -/

section Spawn

variable {cfg : Config} {dispatchId source : String} {spawn : SpawnResult} {key : Option String}

/-- **A spawn is answered with its dispatch**, which is what it has returned if it has been
bound. -/
theorem keyed_bindSpawnResult : Keyed (bindSpawnResultWork dispatchId spawn)
    (fun id => do
      let d ← refetch Db.getDispatch id
      pure (none, d))
    (fun db id => (named Db.getDispatch db id).map fun d => (none, d))
    fun a a' => a.1 = none → a' = a where
  refetches id w a w' := by
    simp only [refetch, named, returns_bind, returns_read, returns_require, returns_pure,
      Option.map_eq_some_iff, Option.isSome_iff_exists]
    constructor
    · rintro ⟨_, _, ⟨_, _, ⟨rfl, rfl⟩, _, _, ⟨⟨d, hd⟩, rfl⟩, rfl, rfl⟩, rfl, rfl⟩
      exact ⟨⟨some d, ⟨d, hd, rfl⟩, by rw [hd]⟩, rfl⟩
    · rintro ⟨⟨_, ⟨d, hd, rfl⟩, rfl⟩, rfl⟩
      exact ⟨some d, w, ⟨_, w, ⟨rfl, rfl⟩, (), w, ⟨⟨d, hd⟩, rfl⟩, hd, rfl⟩, rfl, rfl⟩
  apart _ := ⟨fun _ _ => rfl⟩
  lasts hgrows h := by
    simp only [named, Option.isSome_map] at h ⊢
    exact Lasting.lasts hgrows h
  sound {w a id w'} hr := by
    simp only [bindSpawnResultWork, returns_bind, returns_theDispatch, returns_require,
      returns_theTask, returns_ite, returns_read, returns_pure, Prod.mk.injEq] at hr
    obtain ⟨d, _, ⟨hd, rfl⟩, _, _, ⟨-, rfl⟩, task, _, ⟨-, rfl⟩,
      ⟨-, _, w₁, hreject, ⟨rfl, rfl⟩, rfl⟩ |
        ⟨-, _, w₁, hbind, _, _, ⟨rfl, rfl⟩, ⟨rfl, rfl⟩, rfl⟩⟩ := hr
    · have hsome : (w₁.db.getDispatch dispatchId).isSome = true :=
        Lasting.lasts (Moves.of_returns hreject) (Option.isSome_of_eq_some hd)
      obtain ⟨d', hd'⟩ := Option.isSome_iff_exists.mp hsome
      exact ⟨_, by rw [named, hd']; rfl, fun h => absurd h (by simp)⟩
    · have hsome : (w₁.db.getDispatch dispatchId).isSome = true :=
        Lasting.lasts (Moves.of_returns hbind) (Option.isSome_of_eq_some hd)
      obtain ⟨d', hd'⟩ := Option.isSome_iff_exists.mp hsome
      exact ⟨_, by rw [named, hd']; rfl, fun _ => by rw [hd']⟩
  frame := inferInstance

/-- What follows the transaction of a spawn. -/
def afterSpawn (r : Option Error × Option AgentDispatch) : Cmd (Option AgentDispatch) := do
  whenSome r.1 raise
  pure r.2

/-- **A spawn keeps its promise**, but that the error of one that is rejected comes late. -/
theorem obeys_bindSpawnResult {args : Json} : Obeys key "bind_spawn_result" args
    (named Db.getDispatch) True (fun e => ∃ d s, e = modelMismatchError d s)
    (idempotent key "bind_spawn_result" args (bindSpawnResultWork dispatchId spawn) (fun id => do
      let d ← refetch Db.getDispatch id
      pure (none, d)) >>= afterSpawn) where
  again := by
    rintro k w o w' rfl hr
    simp only [afterSpawn, returns_bind, returns_whenSome, returns_pure] at hr
    obtain ⟨⟨e, d⟩, w₁, honce, _, w₂, ⟨e', -, hraise⟩ | ⟨hnone, rfl⟩, rfl, rfl⟩ := hr
    · exact absurd hraise not_returns_raise
    · have hkeyed : Keyed (bindSpawnResultWork dispatchId spawn) _ _ _ := keyed_bindSpawnResult
      obtain ⟨r, hrec, hargs, a', ha', hecho⟩ := hkeyed.stored honce
      obtain rfl : a' = (e, d) := hecho.elim (fun h => h hnone) id
      have hnamed : named Db.getDispatch w₁.db r.resultId = some d := by
        obtain ⟨o, ho, heq⟩ := Option.map_eq_some_iff.mp ha'
        rw [ho, (Prod.mk.inj heq).2]
      refine ⟨r, hrec, hargs, fun _ => hnamed, fun w₂ hgrows => ?_⟩
      have hsome := hkeyed.lasts hgrows (Option.isSome_of_eq_some ha')
      rw [Option.isSome_map] at hsome
      obtain ⟨o₂, ho₂⟩ := Option.isSome_iff_exists.mp hsome
      have hreplay := hkeyed.replay (hgrows.getCommandIdempotency hrec) hargs (a := (none, o₂))
        (by rw [ho₂, Option.map_some])
      refine ⟨o₂, ho₂, returns_bind.mpr ⟨_, w₂, hreplay, returns_bind.mpr ⟨(), w₂, ?_, ?_⟩⟩⟩
      · exact returns_whenSome.mpr (Or.inr ⟨rfl, rfl⟩)
      · exact returns_pure.mpr ⟨rfl, rfl⟩
  conflicts := by
    rintro k w r rfl hrec hargs
    exact raises_bind.mpr (Or.inl (raises_keyReused hrec hargs))
  raised {w e w'} hr := by
    rcases raises_bind.mp hr with hr | ⟨⟨e₁, d₁⟩, w₁, honce, hafter⟩
    · have hdb := (raises_idempotent hr).1
      exact Or.inr ⟨OfDb.congr _ _ hdb, Or.inl (OfDb.congr _ _ hdb)⟩
    · simp only [afterSpawn, raises_bind, raises_whenSome, raises_raise, not_raises_pure, and_false,
        exists_false, or_false] at hafter
      obtain ⟨_, rfl, rfl, rfl⟩ := hafter
      rcases returns_idempotent.mp honce with ⟨r, -, -, hagain⟩ | ⟨-, id, w₂, hwork, -⟩
      · obtain ⟨d, _, -, hpure⟩ := returns_bind.mp hagain
        simp only [returns_pure, Prod.mk.injEq, reduceCtorEq, false_and] at hpure
      · simp only [bindSpawnResultWork, returns_bind, returns_ite, returns_pure, Prod.mk.injEq,
          Option.some.injEq, reduceCtorEq, false_and, and_false, exists_false, or_false] at hwork
        obtain ⟨d, _, -, _, _, -, task, _, -, -, _, _, -, ⟨⟨rfl, -⟩, -⟩, -⟩ := hwork
        exact Or.inl ⟨d, spawn, rfl⟩

theorem lawful_bindSpawnResult : LawfulCall cfg (.bindSpawnResult dispatchId spawn source key) :=
  lawful_of_fixed (grows_call cfg _) rfl fixed_requireController obeys_bindSpawnResult

end Spawn

end Core

end ArgentTeam
