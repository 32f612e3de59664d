import ArgentTeam.Core.Digest
import ArgentTeam.Core.KeyedCommands

/-!
# The law of the idempotency keys

A command that is given a key is run once under it. `KeyLaw` says what that means for a
call: once it has returned, its key is recorded, and from then on the same call changes
nothing and answers with what the recorded result names; with other arguments it raises, and
no table changes but the events; and where it raises, its key is as unused as before.
-/

namespace ArgentTeam

open Prog Store

namespace Core

/-! ### The dispatches -/

section Dispatch

variable {cfg : Config} {taskId taskRunId source : String} {role : Role} {position cycleNo : ℕ}
  {kind : SequenceKind} {choice : Option ModelChoice} {parent key : Option String}
  {routing : Option RoutingRecord} {identity : ModelChoice} {w w' : World} {e : Error}
  {reason text : String} {values : List String}

instance {id : String} : Tables.events.Apart fun w => w.db.getDispatch id := ⟨fun _ _ => rfl⟩

theorem keyed_createDispatch : Keyed
    (createDispatchWork cfg taskId taskRunId role position cycleNo kind parent routing identity)
    (refetch Db.getDispatch) (named Db.getDispatch) fun a a' => True → a' = a := by
  refine keyed_refetch ?_ inferInstance
  iterate 22 refine LeavesRow.bind fun _ => ?_
  refine leavesRow_of_insert (found_of_insert AgentDispatch.id (fun _ _ _ => rfl) fun a ha => by
      simp [AgentDispatch.clash, ha]) ?_ ?_
  · repeat' first | infer_instance | refine moves_bind ?_ fun _ => ?_
  · exact Ends.bind fun _ => Ends.bind fun _ => ends_pure

instance : Moves unreported Eq (violation taskId role reason text values) :=
  moves_bind inferInstance fun _ => inferInstance

instance {task : Task} : Moves unreported Eq (checkIdentity taskId task role routing identity) :=
  moves_caseSome (fun _ => inferInstance) inferInstance

def checkRouting (cfg : Config) (taskId : String) (role : Role) (choice : Option ModelChoice)
    (routing : Option RoutingRecord) : Cmd Unit :=
  whenSome routing fun r => do
    onlyIf (choice.isSome = true)
      (violation taskId role "model_choice_and_decision"
        "model_choice and routing_decision are mutually exclusive" [])
    whenSome (cfg.validateRouting r taskId role) raise

variable {u : Unit}

theorem returns_checkRouting :
    (checkRouting cfg taskId role choice routing).Returns w u w' ↔
      (∀ r ∈ routing, choice = none ∧ cfg.validateRouting r taskId role = none) ∧ w = w' := by
  cases routing with
  | none => simp [checkRouting, whenSome]
  | some r =>
    cases choice <;> cases hr : cfg.validateRouting r taskId role <;>
      simp [checkRouting, whenSome, onlyIf, violation, hr, emit]

theorem dispatchIdentity_congr {task task' : Task} (h : task'.riskClass = task.riskClass) :
    dispatchIdentity task' role choice routing = dispatchIdentity task role choice routing := by
  cases choice <;> cases routing <;> simp [dispatchIdentity, h]

theorem checkIdentity_congr {task task' : Task} (h : task'.riskClass = task.riskClass) :
    checkIdentity taskId task' role routing identity =
      checkIdentity taskId task role routing identity := by
  unfold checkIdentity
  rw [h]

theorem returns_checkIdentity {task : Task}
    (h : (checkIdentity taskId task role routing identity).Returns w u w') :
    w' = w ∧ ∀ w₂, (checkIdentity taskId task role routing identity).Returns w₂ () w₂ := by
  cases routing <;> simp_all [checkIdentity, caseSome, violation, emit]

theorem lawful_createDispatch : LawfulCall cfg (.createDispatch taskId taskRunId role position
    cycleNo kind choice source parent key routing) := by
  have hrest : ∀ task, Obeys key "create_dispatch" (Command.args (.createDispatch taskId taskRunId
        role position cycleNo kind choice source parent key routing)) (named Db.getDispatch) True
      (fun _ => False) (idempotent key "create_dispatch" _
        (createDispatchWork cfg taskId taskRunId role position cycleNo kind parent routing
          (dispatchIdentity task role choice routing)) (refetch Db.getDispatch)) :=
    fun _ => keyed_createDispatch.obeys
  refine lawful_of_found (p := do
      requireController source
      checkRouting cfg taskId role choice routing
      theTask taskId)
    (q := fun task => checkIdentity taskId task role routing
      (dispatchIdentity task role choice routing)) (grows_call cfg _) ?_ ?_ ?_ ?_ hrest ?_
  · simp only [Prog.bind_assoc]
    rfl
  · simp only [Prog.bind_assoc]
    rfl
  · exact moves_bind inferInstance fun _ => moves_bind (moves_whenSome fun _ =>
      moves_bind inferInstance fun _ => inferInstance) fun _ =>
        moves_bind inferInstance fun _ => inferInstance
  · exact moves_bind inferInstance fun _ => moves_bind (moves_whenSome fun _ =>
      moves_bind inferInstance fun _ => inferInstance) fun _ =>
        moves_bind inferInstance fun _ => inferInstance
  · intro w task w₁ u w' hp hq w₂ hgrows
    simp only [returns_bind, returns_requireController, returns_checkRouting,
      returns_theTask] at hp
    obtain ⟨-, _, ⟨hsource, rfl⟩, -, _, ⟨hrouting, rfl⟩, htask, rfl⟩ := hp
    obtain ⟨task₂, htask₂, hrisk, -⟩ := hgrows.getTask htask
    refine ⟨task₂, ?_, ?_, ?_⟩
    · exact returns_bind.mpr ⟨(), w₂, returns_requireController.mpr ⟨hsource, rfl⟩,
        returns_bind.mpr ⟨(), w₂, (returns_checkRouting).mpr ⟨hrouting, rfl⟩,
          returns_theTask.mpr ⟨htask₂, rfl⟩⟩⟩
    · rw [dispatchIdentity_congr hrisk, checkIdentity_congr hrisk]
      exact (returns_checkIdentity hq).2 w₂
    · rw [dispatchIdentity_congr hrisk]

end Dispatch

/-! ### The requests -/

section Request

variable {cfg : Config} {taskId action scope source id resultId : String} {actorRole : Role}
  {key : Option String} {args : Json} {policy : ExternalActionsPolicy} {w w' : World} {e : Error}
  {task : Task} {cls : ActionClass}

theorem stripTag_append (tag s : String) : stripTag tag (tag ++ s) = some s := by
  have hpre : tag.toList.isPrefixOf (tag ++ s).toList = true := by
    rw [String.toList_append, List.isPrefixOf_iff_prefix]
    exact List.prefix_append _ _
  rw [stripTag, if_pos hpre, String.toList_append, List.drop_left, String.ofList_toList]

theorem stripTag_approval_execution (s : String) :
    stripTag "approval:" ("execution:" ++ s) = none := by
  rw [stripTag, if_neg]
  rw [String.toList_append]
  exact Bool.false_ne_true

theorem classifyAction_autonomous (h : classifyAction action policy = .autonomous) :
    classifyAction action .allowedWithGate = .autonomous := by
  unfold classifyAction at h ⊢
  grind

/-- The answer of a recorded request stays an answer. -/
theorem isSome_requestAnswer (hgrows : Grows (ledger w) (ledger w'))
    (h : (requestAnswer w.db resultId).isSome) :
    (requestAnswer w'.db resultId).isSome := by
  unfold requestAnswer at h ⊢
  rcases happroval : stripTag "approval:" resultId with _ | id <;>
    simp only [happroval, Option.isSome_map] at h ⊢
  · rcases hexecution : stripTag "execution:" resultId with _ | id <;>
      simp only [hexecution, Option.isSome_map] at h ⊢
    · exact h
    · exact Lasting.lasts hgrows h
  · obtain ⟨ap, hap⟩ := Option.isSome_iff_exists.mp h
    obtain ⟨ap', hap', -⟩ := hgrows.getApproval hap
    exact Option.isSome_of_eq_some hap'

theorem returns_requestActionRefetch {o : Option ActionRequestResult} :
    (requestActionRefetch resultId).Returns w o w' ↔
      requestAnswer w.db resultId = some o ∧ w = w' := by
  unfold requestActionRefetch requestAnswer
  rcases stripTag "approval:" resultId with _ | id
  · rcases stripTag "execution:" resultId with _ | id
    · cases stripTag "blocked:" resultId <;> simp [caseSome]
    · simp only [caseSome, returns_bind, returns_read, returns_orRaise, returns_pure,
        Option.map_eq_some_iff]
      constructor
      · rintro ⟨_, _, ⟨rfl, rfl⟩, ex, _, ⟨hex, rfl⟩, rfl, rfl⟩
        exact ⟨⟨ex, hex, rfl⟩, rfl⟩
      · rintro ⟨⟨ex, hex, rfl⟩, rfl⟩
        exact ⟨_, w, ⟨rfl, rfl⟩, ex, w, ⟨hex, rfl⟩, rfl, rfl⟩
  · simp only [caseSome, returns_bind, returns_read, returns_orRaise, returns_pure,
      Option.map_eq_some_iff]
    constructor
    · rintro ⟨_, _, ⟨rfl, rfl⟩, ap, _, ⟨hap, rfl⟩, rfl, rfl⟩
      exact ⟨⟨ap, hap, rfl⟩, rfl⟩
    · rintro ⟨⟨ap, hap, rfl⟩, rfl⟩
      exact ⟨_, w, ⟨rfl, rfl⟩, ap, w, ⟨hap, rfl⟩, rfl, rfl⟩

theorem keyed_request {work : Cmd (Option ActionRequestResult × String)}
    (hwork : ∀ {w o id w'}, work.Returns w (o, id) w' → requestAnswer w'.db id = some o)
    (hkeys : Moves keys Eq work) :
    Keyed work requestActionRefetch requestAnswer fun a a' => True → a' = a where
  refetches _ _ _ _ := returns_requestActionRefetch
  apart _ := ⟨fun _ _ => rfl⟩
  lasts := isSome_requestAnswer
  sound hr := ⟨_, hwork hr, fun _ => rfl⟩
  frame := hkeys

instance : Tables.events.Apart fun w => w.db.getApproval id := ⟨fun _ _ => rfl⟩
instance : Tables.tasks.Apart fun w => w.db.getApproval id := ⟨fun _ _ => rfl⟩

instance {dst : TaskState} {resume : Option TaskState} :
    Moves (fun w => w.db.getApproval id) Eq (updateTaskState task.id dst resume) := by
  unfold updateTaskState
  infer_instance

theorem keyed_requestApproval : Keyed (requestApproval taskId action scope actorRole source)
    requestActionRefetch requestAnswer fun a a' => True → a' = a := by
  refine keyed_request (fun {w o id w'} hr => ?_) inferInstance
  simp only [requestApproval, returns_bind, returns_pure, Prod.mk.injEq] at hr
  obtain ⟨task, _, -, _, _, -, _, _, -, _, _, -, _, _, -, aid, _, -, now, _, -, expires, w₁, -, _,
    w₂, hinsert, task', w₃, htask, _, w₄, hvalid, _, w₅, happly, _, w₆, hemit, ⟨rfl, rfl⟩,
    rfl⟩ := hr
  obtain rfl := (returns_theTask.mp htask).2
  obtain rfl := (returns_validateTransition.mp hvalid).2
  have hfound : w₂.db.getApproval aid.text = some _ :=
    found_of_insert OwnerApproval.id (fun _ _ _ => rfl)
      (fun a ha => by simp [OwnerApproval.clash, ha]) hinsert
  have hkeep : w₆.db.getApproval aid.text = w₂.db.getApproval aid.text :=
    calc w₆.db.getApproval aid.text
      _ = w₅.db.getApproval aid.text := Moves.frame (fun w => w.db.getApproval aid.text) hemit
      _ = w₂.db.getApproval aid.text := Moves.frame (fun w => w.db.getApproval aid.text) happly
  rw [requestAnswer, stripTag_append]
  simp only
  rw [hkeep, hfound, Option.map_some]
  rfl

theorem keyed_requestAutonomous (hclass : classifyAction action policy = .autonomous) :
    Keyed (requestAutonomous taskId action scope actorRole source) requestActionRefetch
      requestAnswer fun a a' => True → a' = a := by
  refine keyed_request (fun {w o id w'} hr => ?_) inferInstance
  simp only [requestAutonomous, returns_bind, returns_pure, Prod.mk.injEq] at hr
  obtain ⟨task, _, -, _, _, -, _, _, -, _, _, -, eid, _, -, now, w₁, -, _, w₂, hinsert,
    ⟨rfl, rfl⟩, rfl⟩ := hr
  have hfound : w₂.db.getActionExecution eid.text = some _ :=
    found_of_insert ActionExecution.id (fun _ _ _ => rfl)
      (fun a ha => by simp [ActionExecution.clash, ha]) hinsert
  rw [requestAnswer, stripTag_approval_execution]
  simp only [stripTag_append]
  rw [hfound, Option.map_some, classifyAction_autonomous hclass]
  rfl

/-- A request, past the checks that come before its key. -/
def requestOnce (taskId action scope : String) (actorRole : Role) (source : String)
    (key : Option String) : ActionClass → Cmd (Option ActionRequestResult)
  | .forbidden => do
    idempotent key "request_action" (requestArgs taskId action scope actorRole source)
      (requestForbidden taskId action scope actorRole source) fun _ => pure ()
    raise (.error .forbiddenAction "action %r is forbidden" [action])
  | .ownerApprovalRequired =>
    idempotent key "request_action" (requestArgs taskId action scope actorRole source)
      (requestApproval taskId action scope actorRole source) requestActionRefetch
  | .autonomous =>
    idempotent key "request_action" (requestArgs taskId action scope actorRole source)
      (requestAutonomous taskId action scope actorRole source) requestActionRefetch

/-- The check of a role that asks to act on its own. -/
def checkRole (taskId action : String) (actorRole : Role) (cls : ActionClass) : Cmd Unit :=
  onlyIf (cls = .autonomous) <|
    onlyIf (hasPermission actorRole (permissionFor action).1 (permissionFor action).2 = false)
      (denyRole taskId action actorRole)

theorem requestClassified_eq :
    requestClassified taskId action scope actorRole source key cls =
      checkRole taskId action actorRole cls >>= fun _ =>
        requestOnce taskId action scope actorRole source key cls := by
  cases cls with
  | forbidden => simp [requestClassified, checkRole, requestOnce, onlyIf, pure_bind]
  | ownerApprovalRequired => simp [requestClassified, checkRole, requestOnce, onlyIf, pure_bind]
  | autonomous => simp [requestClassified, checkRole, requestOnce, onlyIf]

/-- **A request keeps its promise**, but that a forbidden one raises once it is recorded. -/
theorem obeys_requestOnce
    (hclass : cls = .autonomous → classifyAction action policy = .autonomous) :
    Obeys key "request_action" (requestArgs taskId action scope actorRole source) requestAnswer True
      (fun e => e = forbiddenError action)
      (requestOnce taskId action scope actorRole source key cls) := by
  cases cls with
  | autonomous => exact (keyed_requestAutonomous (hclass rfl)).obeys
  | ownerApprovalRequired => exact keyed_requestApproval.obeys
  | forbidden =>
    refine ⟨fun {k w a w'} _ hr => ?_, ?_, fun {w e w'} hr => ?_⟩
    · obtain ⟨u, w₁, -, hraise⟩ := returns_bind.mp hr
      exact absurd hraise not_returns_raise
    · rintro k w r rfl hrec hargs
      exact raises_bind.mpr (Or.inl (raises_keyReused hrec hargs))
    · rcases raises_bind.mp hr with hr | ⟨u, w₁, -, hraise⟩
      · have hdb := (raises_idempotent hr).1
        exact Or.inr ⟨OfDb.congr _ _ hdb, Or.inl (OfDb.congr _ _ hdb)⟩
      · exact Or.inl (raises_raise.mp hraise).1.symm

instance : Moves unreported Eq (denyRole taskId action actorRole) :=
  moves_bind inferInstance fun _ => inferInstance

theorem returns_checkRole
    (h : (checkRole taskId action actorRole cls).Returns w u w') (w₂ : World) :
    (checkRole taskId action actorRole cls).Returns w₂ () w₂ := by
  simp only [checkRole, denyRole, returns_onlyIf, returns_bind, not_returns_raise, and_false,
    exists_false, false_or, and_true] at h ⊢
  tauto

theorem lawful_requestAction :
    LawfulCall cfg (.requestAction taskId action scope actorRole source key) := by
  have hrest : ∀ task : Task, Obeys key "request_action"
      (requestArgs taskId action scope actorRole source) requestAnswer True
      (fun e => e = forbiddenError action)
      (requestOnce taskId action scope actorRole source key
        (classifyAction action task.externalActionsPolicy)) := fun _ => obeys_requestOnce id
  refine lawful_of_found (p := do
      checkSource source
      theTask taskId)
    (q := fun task => checkRole taskId action actorRole
      (classifyAction action task.externalActionsPolicy)) (grows_call cfg _) ?_ ?_ ?_ ?_ hrest ?_
  · change requestAction taskId action scope actorRole source key = _
    simp only [requestAction, requestClassified_eq, Prog.bind_assoc]
    rfl
  · exact Prog.bind_assoc.symm
  · exact moves_bind inferInstance fun _ => moves_bind inferInstance fun _ => inferInstance
  · exact moves_bind inferInstance fun _ => moves_bind inferInstance fun _ => inferInstance
  · intro w task w₁ u w' hp hq w₂ hgrows
    simp only [returns_bind, returns_checkSource, returns_theTask] at hp
    obtain ⟨-, _, ⟨hsource, rfl⟩, htask, rfl⟩ := hp
    obtain ⟨task₂, htask₂, -, hpolicy⟩ := hgrows.getTask htask
    refine ⟨task₂, ?_, ?_, by rw [hpolicy]⟩
    · exact returns_bind.mpr ⟨(), w₂, returns_checkSource.mpr ⟨hsource, rfl⟩,
        returns_theTask.mpr ⟨htask₂, rfl⟩⟩
    · rw [hpolicy]
      exact returns_checkRole hq w₂

section NotForbidden

variable {text : String} {values : List String} {type : String} {claimed payload : Json}
  {r state : Option String} {fields : List (String × Json)} {dst src : TaskState}
  {resume : Option TaskState} {p : Uuid}

@[simp]
theorem emit_not_forbidden :
    ¬(emit type claimed r state payload).Raises w (.error .forbiddenAction text values) w' := by
  simp [emit]

@[simp]
theorem applyTransition_not_forbidden :
    ¬(applyTransition task dst resume).Raises w (.error .forbiddenAction text values) w' := by
  simp [applyTransition, updateTaskState, integrityError, emitTransition]

@[simp]
theorem theTask_not_forbidden :
    ¬(theTask id).Raises w (.error .forbiddenAction text values) w' := by
  simp [theTask]

@[simp]
theorem requireRoleActor_not_forbidden :
    ¬(requireRoleActor task actorRole source).Raises w (.error .forbiddenAction text values)
      w' := by
  simp [requireRoleActor, wrongSource]

@[simp]
theorem requireActionableState_not_forbidden :
    ¬(requireActionableState task).Raises w (.error .forbiddenAction text values) w' := by
  simp [requireActionableState]

@[simp]
theorem validateTransition_not_forbidden :
    ¬(validateTransition src dst resume).Raises w (.error .forbiddenAction text values) w' := by
  simp [validateTransition, TaskState.invalidTransition]

@[simp]
theorem insert_not_forbidden {ρ : Type} {clash : ρ → ρ → Bool} {R : Relvar World ρ clash} {x : ρ} :
    ¬(R.insert integrityError x).Raises w (.error .forbiddenAction text values) w' := by
  simp [integrityError]

theorem requestForbidden_not_forbidden : ¬(requestForbidden taskId action scope actorRole
    source).Raises w (.error .forbiddenAction text values) w' := by
  simp only [requestForbidden, raises_bind, theTask_not_forbidden, requireRoleActor_not_forbidden,
    requireActionableState_not_forbidden, not_raises_uuid4, not_raises_nowIso,
    insertActionExecution, insert_not_forbidden, emitTask, emit_not_forbidden, not_raises_pure,
    and_false, exists_false, or_self, not_false_eq_true]

theorem requestApproval_not_forbidden : ¬(requestApproval taskId action scope actorRole
    source).Raises w (.error .forbiddenAction text values) w' := by
  simp only [requestApproval, raises_bind, theTask_not_forbidden, requireRoleActor_not_forbidden,
    requireActionableState_not_forbidden, not_raises_read, raises_require, Error.error.injEq,
    reduceCtorEq, false_and, not_raises_uuid4, not_raises_nowIso, expiryIso, insertApproval,
    insert_not_forbidden, validateTransition_not_forbidden, applyTransition_not_forbidden, emitTask,
    emit_not_forbidden, not_raises_pure, and_false, exists_false, or_self, not_false_eq_true]

theorem requestAutonomous_not_forbidden : ¬(requestAutonomous taskId action scope actorRole
    source).Raises w (.error .forbiddenAction text values) w' := by
  have hdenied : permissionDenied actorRole (permissionFor action).1 (permissionFor action).2 ≠
      .error .forbiddenAction text values := by
    unfold permissionDenied
    split <;> simp
  simp only [requestAutonomous, raises_bind, theTask_not_forbidden,
    requireRoleActor_not_forbidden, requireActionableState_not_forbidden, raises_require, hdenied,
    false_and, not_raises_uuid4, not_raises_nowIso, insertActionExecution, insert_not_forbidden,
    not_raises_pure, and_false, exists_false, or_self, not_false_eq_true]

theorem requestActionRefetch_not_forbidden :
    ¬(requestActionRefetch resultId).Raises w (.error .forbiddenAction text values) w' := by
  unfold requestActionRefetch
  rcases stripTag "approval:" resultId with _ | _ <;>
    rcases stripTag "execution:" resultId with _ | _ <;> simp [caseSome]

/-- The transaction of a request raises the error of a forbidden one for no other reason. -/
theorem idempotent_not_forbidden {α : Type} {k name : String} {work : Cmd (α × String)}
    {again : String → Cmd α}
    (hwork : ∀ w w', ¬work.Raises w (.error .forbiddenAction text values) w')
    (hagain : ∀ id w w', ¬(again id).Raises w (.error .forbiddenAction text values) w') :
    ¬(idempotent (some k) name args work again).Raises w (.error .forbiddenAction text values)
      w' := by
  intro h
  obtain ⟨-, ⟨r, -, ⟨k', hreused⟩ | ⟨w₁, h⟩⟩ | ⟨-, w₁, h, -⟩⟩ := raises_idempotent h
  · cases hreused
  · exact hagain _ _ _ h
  · exact hwork _ _ h

theorem denyRole_not_forbidden :
    ¬(denyRole taskId action actorRole).Raises w (.error .forbiddenAction text values) w' := by
  have hdenied : permissionDenied actorRole (permissionFor action).1 (permissionFor action).2 ≠
      .error .forbiddenAction text values := by
    unfold permissionDenied
    split <;> simp
  simp only [denyRole, raises_bind, emit_not_forbidden, raises_raise, hdenied, false_and, and_false,
    exists_false, or_self, not_false_eq_true]

end NotForbidden

theorem keyed_requestForbidden : Keyed (requestForbidden taskId action scope actorRole source)
    (fun _ => pure ()) (fun _ _ => some ()) fun a a' => True → a' = a where
  refetches id w a w' := by simp only [returns_pure]
  apart _ := ⟨fun _ _ => rfl⟩
  lasts _ _ := rfl
  sound _ := ⟨(), rfl, fun _ => rfl⟩
  frame := inferInstance

/-- **A forbidden request is refused each time**, and nothing changes any more. -/
theorem refused_requestAction {k : String}
    (hr : (requestAction taskId action scope actorRole source (some k)).Raises w
      (forbiddenError action) w') :
    ∃ r, w'.db.getCommandIdempotency k "request_action" = some r ∧
      r.args = (requestArgs taskId action scope actorRole source).sorted ∧
      ∀ w₂, Grows (ledger w') (ledger w₂) →
        (requestAction taskId action scope actorRole source (some k)).Raises w₂
          (forbiddenError action) w₂ := by
  have hgrows : Grows (ledger w) (ledger w') := Moves.of_raises hr
  simp only [requestAction, requestClassified_eq, forbiddenError, raises_bind, raises_checkSource,
    returns_checkSource, theTask_not_forbidden, returns_theTask, Error.error.injEq, reduceCtorEq,
    false_and, and_false, false_or] at hr
  obtain ⟨-, _, ⟨hsource, rfl⟩, task, _, ⟨htask, rfl⟩, hr⟩ := hr
  rcases hr with hcheck | ⟨u, w₁, hcheck, honce⟩
  · obtain ⟨-, -, hdeny⟩ := by simpa only [checkRole, raises_onlyIf] using hcheck
    exact absurd hdeny denyRole_not_forbidden
  cases hclass : classifyAction action task.externalActionsPolicy with
  | ownerApprovalRequired =>
    rw [hclass] at honce
    exact absurd honce (idempotent_not_forbidden (fun _ _ => requestApproval_not_forbidden)
      fun _ _ _ => requestActionRefetch_not_forbidden)
  | autonomous =>
    rw [hclass] at honce
    exact absurd honce (idempotent_not_forbidden (fun _ _ => requestAutonomous_not_forbidden)
      fun _ _ _ => requestActionRefetch_not_forbidden)
  | forbidden =>
    rw [hclass] at honce
    rcases raises_bind.mp honce with h | ⟨u, w₂, hstored, hraise⟩
    · exact absurd h (idempotent_not_forbidden (fun _ _ => requestForbidden_not_forbidden)
        fun _ _ _ => not_raises_pure)
    obtain ⟨-, rfl⟩ := raises_raise.mp hraise
    obtain ⟨r, hrec, hargs, -⟩ := keyed_requestForbidden.stored hstored
    refine ⟨r, hrec, hargs, fun w₃ hlater => ?_⟩
    obtain ⟨task₃, htask₃, -, hpolicy⟩ :=
      (IsTrans.trans _ _ _ hgrows hlater : Grows (ledger w) (ledger w₃)).getTask htask
    have hkeyed : Keyed (requestForbidden taskId action scope actorRole source) _ _ _ :=
      keyed_requestForbidden
    have hreplay := hkeyed.replay (hlater.getCommandIdempotency hrec) hargs (a := ()) rfl
    refine raises_bind.mpr (Or.inr ⟨(), w₃, returns_checkSource.mpr ⟨hsource, rfl⟩,
      raises_bind.mpr (Or.inr ⟨task₃, w₃, returns_theTask.mpr ⟨htask₃, rfl⟩, ?_⟩)⟩)
    rw [hpolicy, hclass]
    exact raises_bind.mpr (Or.inr ⟨(), w₃, hreplay, raises_raise.mpr ⟨rfl, rfl⟩⟩)

end Request

/-! ### The law -/

/-- **Every command is lawful.** -/
theorem lawful_call (cfg : Config) (c : Command) : LawfulCall cfg c := by
  cases c with
  | createProject => exact lawful_createProject
  | createTask => exact lawful_createTask
  | transition => exact lawful_transition
  | resume => exact lawful_resume
  | startRole => exact lawful_startRole
  | completeRole => exact lawful_completeRole
  | failRole => exact lawful_failRole
  | startTaskRun => exact lawful_startTaskRun
  | completeTaskRun => exact lawful_completeTaskRun
  | failTaskRun => exact lawful_failTaskRun
  | requestAction => exact lawful_requestAction
  | approve => exact lawful_approve
  | reject => exact lawful_reject
  | executeApproved => exact lawful_executeApproved
  | addFinding => exact lawful_addFinding
  | resolveFinding => exact lawful_resolveFinding
  | recordTestRun => exact lawful_recordTestRun
  | recordReview => exact lawful_recordReview
  | recordDecision => exact lawful_recordDecision
  | createDispatch => exact lawful_createDispatch
  | bindSpawnResult => exact lawful_bindSpawnResult
  | receiveAgentResult => exact lawful_receiveAgentResult
  | markAgentFailed => exact lawful_markAgentFailed
  | recover => exact lawful_recover

/-! ### The law -/

/-- **The law of the idempotency keys**, for one command. -/
structure KeyLaw (cfg : Config) (c : Command) : Prop where
  /-- Once it has returned, its key is recorded with its arguments. From then on, whatever the
  other commands do, the same call changes nothing and answers with what the recorded result
  names by then; at first that is what the call has returned. -/
  again : ∀ {k w a w'}, c.key = some k → (call cfg c).Returns w a w' →
    ∃ r, w'.db.getCommandIdempotency k c.name = some r ∧ r.args = c.args.sorted ∧
      (c.Echoes → c.answer w'.db r.resultId = some a) ∧
      ∀ cs, (run cfg w' cs).db.getCommandIdempotency k c.name = some r ∧
        ∃ a₂, c.answer (run cfg w' cs).db r.resultId = some a₂ ∧
          (call cfg c).Returns (run cfg w' cs) a₂ (run cfg w' cs)
  refused : ∀ {taskId action scope actorRole source k w w'},
    c = .requestAction taskId action scope actorRole source (some k) →
    (call cfg c).Raises w (forbiddenError action) w' →
    ∃ r, w'.db.getCommandIdempotency k c.name = some r ∧ r.args = c.args.sorted ∧
      ∀ cs, (run cfg w' cs).db.getCommandIdempotency k c.name = some r ∧
        (call cfg c).Raises (run cfg w' cs) (forbiddenError action) (run cfg w' cs)
  /-- Where its key is recorded for another call of the same command, it raises: that the key
  is used with other arguments, and the world stays as it is, or what a check raises that
  comes before the key, and no table changes but the events. -/
  conflicts : ∀ {c' : Command} {k w r}, c.key = some k → c'.name = c.name → c'.plain ≠ c.plain →
    w.db.getCommandIdempotency k c.name = some r → r.args = c'.args.sorted →
    (call cfg c).Raises w (keyReused k c.name) w ∨
      ∃ e w', (c.checks cfg).Raises w e w' ∧ (call cfg c).Raises w e w' ∧
        unreported w' = unreported w
  /-- Where it raises, no key is recorded, and no table changes but the events, unless it is an
  expiry that is carried out. -/
  raised : ∀ {w e w'}, (call cfg c).Raises w e w' →
    c.Late e ∨ keys w' = keys w ∧ (unreported w' = unreported w ∨ Expired e)

/-- **Every command follows the law of the idempotency keys.** -/
theorem key_law (cfg : Config) (c : Command) : KeyLaw cfg c where
  again {k w a w'} hkey hr := by
    obtain ⟨r, hrec, hargs, hecho, hlater⟩ := (lawful_call cfg c).again hkey hr
    refine ⟨r, hrec, hargs, hecho, fun cs => ?_⟩
    have hgrows := grows_run cfg w' cs
    exact ⟨hgrows.getCommandIdempotency hrec, hlater _ hgrows⟩
  refused := by
    rintro taskId action scope actorRole source k w w' rfl hr
    obtain ⟨r, hrec, hargs, hlater⟩ := refused_requestAction hr
    refine ⟨r, hrec, hargs, fun cs => ?_⟩
    have hgrows := grows_run cfg w' cs
    exact ⟨hgrows.getCommandIdempotency hrec, hlater _ hgrows⟩
  conflicts {c' k w r} hkey hname hother hrec hargs := by
    refine (lawful_call cfg c).conflicts hkey hrec fun hsame => hother ?_
    exact plain_of_digest hname (hargs.symm.trans hsame)
  raised := (lawful_call cfg c).raised

/-- A recovery reports what it has done when it is called, and nothing when it is called again
under the same key; and a source that is not trusted is told so before its key is looked at. -/
theorem answered_afresh :
    let w := run .lenient ticking begun
    let recovered := run .lenient w [.recover ownerSource (some "k")]
    (recover ownerSource (some "k") w).1 = .ok ⟨0, 1, [], 0⟩ ∧
      (recover ownerSource (some "k") recovered).1 = .ok ⟨0, 0, [], 0⟩ ∧
      (recover "nobody" (some "k") recovered).1 ≠ .error (keyReused "k" "recover") := by
  decide +kernel

end Core

end ArgentTeam
