import ArgentTeam.Supervisor.Backoff

/-!
# What the handlers begin

Every handler of the supervisor computes a key and arguments before it touches anything,
begins its row of the journal with them, and finishes the row when it is done. A crash
leaves the row as it was begun; the next pass computes key and arguments again, from what
it sees then.

Where the arguments depend on more than the key does, a later pass can fail to resume its
own row: the key comes back with other arguments, and the job is put into a sticky error.
`Supervisor.resumes_iff` says exactly when.
-/

namespace ArgentTeam

namespace Supervisor

/-! ### Write results -/

/-- The field of a result that carries the patch set of a write role. -/
def patchField (role : Role) : String :=
  if role = .implementer then "patch_set" else "test_patch_set"

/-- The fields a role may add to its envelope. -/
def writeExtensions : Role → List String
  | .implementer => ["patch_set"]
  | .qa => ["test_patch_set"]
  | _ => []

def writeEnvelope (role : Role) (result : List (PyStr × Json)) : List (PyStr × Json) :=
  result.filter fun f => !((writeExtensions role).any fun ext => f.1 = PyStr.ofString ext)

/-- Why a result is not applied. -/
inductive ApplyRejection
  | resultHashMismatch | invalidEnvelope | taskMismatch | dispatchMismatch | invalidPatchSetType
  | invalidPatchEntryType | invalidPatchKey | invalidPatchOp | invalidPatchPath
  | invalidPatchContent

/-- The reason the journal is given. -/
def ApplyRejection.text : ApplyRejection → String
  | resultHashMismatch => "result_hash_mismatch"
  | invalidEnvelope => "invalid_envelope:OutputValidationError"
  | taskMismatch => "task_mismatch"
  | dispatchMismatch => "dispatch_mismatch"
  | invalidPatchSetType => "invalid_patch_set_type"
  | invalidPatchEntryType => "invalid_patch_entry_type"
  | invalidPatchKey => "invalid_patch_key"
  | invalidPatchOp => "invalid_patch_op"
  | invalidPatchPath => "invalid_patch_path"
  | invalidPatchContent => "invalid_patch_content"

theorem ApplyRejection.text_injective : Function.Injective ApplyRejection.text := by
  intro a b h
  cases a <;> cases b <;> first | rfl | exact absurd h (by decide)

/-- One entry of a patch set. -/
def validatePatch : Json → Option ApplyRejection
  | .obj fields =>
    if fields.any fun f => !(["op", "path", "content"].any fun k => f.1 = PyStr.ofString k) then
      some .invalidPatchKey
    else
      let op := Json.getD fields "op" .null
      let path := Json.getD fields "path" .null
      let content := Json.getD fields "content" .null
      let text (v : Json) : Bool := match v with
        | .str s => !s.isEmpty
        | _ => false
      if op ≠ .text "write" ∧ op ≠ .text "delete" then some .invalidPatchOp
      else if !text path then some .invalidPatchPath
      else if op = .text "write" ∧ !text content then some .invalidPatchContent
      else none
  | _ => some .invalidPatchEntryType

/-- `_validate_patch_set`: the first malformed entry. -/
def validatePatchSet (patchSet : List Json) : Option ApplyRejection :=
  patchSet.findSome? validatePatch

/-- What comes of a result that is to be applied. -/
inductive ApplyVerdict
  | rejected (reason : ApplyRejection)
  | nothing
  | patches (patchSet : List Json)
  /-- It cannot even be examined; no row is begun. -/
  | raises

/-- The checks of `_perform_apply_patch_set` on a result and on the digest the adapter
gave for it, in their order. -/
def applyVerdict (d : AgentDispatch) (result : List (PyStr × Json)) (adapterHash : Option Json) :
    ApplyVerdict :=
  let envelope := writeEnvelope d.role result
  if adapterHash.any fun h => h ≠ (Json.obj result).sorted then .rejected .resultHashMismatch
  else match Outputs.validateRoleOutput d.role (.obj envelope) with
    | .error (.error .outputValidationError _ _) => .rejected .invalidEnvelope
    | .error _ => .raises
    | .ok () =>
      if Json.get? envelope "task_id" ≠ some (.text d.taskId.text) then .rejected .taskMismatch
      else if Json.get? envelope "dispatch_id" ≠ some (.text d.id.text) then
        .rejected .dispatchMismatch
      else match Json.get? result (patchField d.role) with
        | none => .nothing
        | some (.arr patchSet) => match validatePatchSet patchSet with
          | some reason => .rejected reason
          | none => if patchSet = [] then .nothing else .patches patchSet
        | some _ => .rejected .invalidPatchSetType

/-! ### Requests -/

/-- What a handler has computed when it begins its row. -/
inductive Request
  /-- `_perform_start_role`. -/
  | startRole (jobId taskId : String) (cycle pos attempt : ℕ) (role : Role) (source : String)
  /-- `_perform_create_dispatch`. -/
  | createDispatch (jobId taskId taskRunId : String) (cycle pos attempt : ℕ) (role : Role)
    (kind : SequenceKind) (routing source : String)
  /-- `_perform_spawn_run`. -/
  | spawnRun (jobId dispatchId : String)
  /-- `_perform_bind_run`. -/
  | bindRun (jobId dispatchId sessionId runId : String)
    (provider model thinkingTier : Option String)
    (source : String)
  /-- `_perform_apply_patch_set`, with the workspace before and after. -/
  | applyPatchSet (jobId : String) (d : AgentDispatch) (result : List (PyStr × Json))
    (adapterHash : Option Json) (workspaceRoot precondition effect : String)
  /-- `_perform_run_sandbox_tests`. -/
  | runSandboxTests (jobId dispatchId workspaceRoot : String) (frozen : Json)
  /-- `_perform_record_test_result`. -/
  | recordTestResult (jobId dispatchId taskId : String) (role : Role) (frozen : Json)
    (passed : Bool)
  /-- `_perform_consume_result`, and `_fail_consume`, by which a result is rejected. -/
  | consumeResult (jobId dispatchId runId : String) (canonical : Json) (rejected : Bool)
  /-- `_perform_mark_run_failed`. -/
  | markRunFailed (jobId dispatchId runId : String) (errorCode : Option String) (source : String)
  /-- `_perform_core_recover`. -/
  | coreRecover (jobId source : String)
  /-- `_perform_present_owner_gate`. -/
  | presentOwnerGate (jobId : String) (gateId : Option String)
  /-- `_close_job`, which begins and finishes its row in one transaction. -/
  | closeJob (jobId : String) (terminal : Terminal)
  deriving DecidableEq

/-- The arguments of an apply: which patch set goes to which workspace. -/
def applyArgs (dispatchId : String) (patchSet : List Json) (workspaceRoot : String) : Json :=
  .dict [("dispatch_id", .text dispatchId), ("patch_set", (Json.arr patchSet).sorted),
    ("workspace_root", .text workspaceRoot)]

/-- The row an apply is begun with: the patch set with its workspace, the empty one, or
the reason for which the result is rejected. -/
def applyOpening (jobId : String) (d : AgentDispatch) (result : List (PyStr × Json))
    (workspaceRoot precondition effect : String) : ApplyVerdict → Option Opening
  | .raises => none
  | .rejected reason => some
      { actionKey := .apply d.id.text (Json.obj result).sorted
        actionType := .applyPatchSet
        jobId := jobId
        dispatchId := some d.id.text
        argsHash := .dict [("invalid", .text reason.text)]
        inputHash := some (Json.obj result).sorted }
  | .nothing => some
      { actionKey := .apply d.id.text (Json.obj result).sorted
        actionType := .applyPatchSet
        jobId := jobId
        dispatchId := some d.id.text
        argsHash := .text "empty"
        inputHash := some (Json.obj result).sorted }
  | .patches patchSet => some
      { actionKey := .apply d.id.text (Json.obj result).sorted
        actionType := .applyPatchSet
        jobId := jobId
        dispatchId := some d.id.text
        argsHash := applyArgs d.id.text patchSet workspaceRoot
        inputHash := some (Json.obj result).sorted
        preconditionHash := some precondition
        effectHash := some effect
        patchSetJson := some (Json.arr patchSet).sorted }

/-- The row a request begins; `none` if it begins none. -/
def Request.opening : Request → Option Opening
  | .startRole jobId taskId cycle pos attempt role source => some
      { actionKey := .startRole jobId cycle pos attempt
        actionType := .startRole
        jobId := jobId
        dispatchId := none
        argsHash := .dict [("task_id", .text taskId), ("role", .text role.value),
          ("source", .text source)] }
  | .createDispatch jobId taskId taskRunId cycle pos attempt role kind routing source => some
      { actionKey := .createDispatch jobId cycle pos attempt
        actionType := .createDispatch
        jobId := jobId
        dispatchId := none
        argsHash := .dict [("task_id", .text taskId), ("task_run_id", .text taskRunId),
          ("role", .text role.value), ("position", .int pos), ("cycle_no", .int cycle),
          ("sequence_kind", .text kind.value), ("model_choice", .null), ("source", .text source),
          ("parent_dispatch_id", .null), ("routing_decision", .text routing)] }
  | .spawnRun jobId dispatchId => some
      { actionKey := .spawn dispatchId
        actionType := .spawnRun
        jobId := jobId
        dispatchId := some dispatchId
        argsHash := .dict [("dispatch_id", .text dispatchId)] }
  | .bindRun jobId dispatchId sessionId runId provider model thinkingTier source => some
      { actionKey := .bind dispatchId runId
        actionType := .bindRun
        jobId := jobId
        dispatchId := some dispatchId
        argsHash := .dict [("dispatch_id", .text dispatchId), ("child_session_id", .text sessionId),
          ("openclaw_run_id", .text runId), ("actual_provider", .optText provider),
          ("actual_model", .optText model), ("thinking_tier", .optText thinkingTier),
          ("source", .text source)] }
  | .applyPatchSet jobId d result adapterHash workspaceRoot precondition effect =>
      applyOpening jobId d result workspaceRoot precondition effect
        (applyVerdict d result adapterHash)
  | .runSandboxTests jobId dispatchId workspaceRoot frozen => some
      { actionKey := .tests dispatchId frozen
        actionType := .runSandboxTests
        jobId := jobId
        dispatchId := some dispatchId
        argsHash := .dict [("workspace", .text workspaceRoot), ("result_hash", frozen)] }
  | .recordTestResult jobId dispatchId taskId role frozen passed => some
      { actionKey := .recordTest dispatchId frozen
        actionType := .recordTestResult
        jobId := jobId
        dispatchId := some dispatchId
        argsHash := .dict [("task_id", .text taskId),
          ("result", .text (if passed then "passed" else "failed")),
          ("source", .text ("role:" ++ role.value)), ("result_hash", frozen)] }
  | .consumeResult jobId dispatchId runId canonical _ => some
      { actionKey := .consume dispatchId runId canonical
        actionType := .consumeResult
        jobId := jobId
        dispatchId := some dispatchId
        argsHash := canonical }
  | .markRunFailed jobId dispatchId runId errorCode source => some
      { actionKey := .fail dispatchId runId
        actionType := .markRunFailed
        jobId := jobId
        dispatchId := some dispatchId
        argsHash := .dict [("dispatch_id", .text dispatchId), ("reason", .text "run_failed"),
          ("source", .text source), ("error_code", .optText errorCode)] }
  | .coreRecover jobId source => some
      { actionKey := .coreRecover jobId
        actionType := .coreRecover
        jobId := jobId
        dispatchId := none
        argsHash := .dict [("source", .text source)] }
  | .presentOwnerGate jobId gateId => some
      { actionKey := .presentGate jobId gateId
        actionType := .presentOwnerGate
        jobId := jobId
        dispatchId := none
        argsHash := .dict [("gate_id", .optText gateId)] }
  | .closeJob jobId terminal => some
      { actionKey := .close jobId terminal
        actionType := .closeJob
        jobId := jobId
        dispatchId := none
        argsHash := .dict [("terminal", .text terminal.value)] }

/-! ### Agreeing with an earlier pass -/

/-- Two verdicts on one result, in two workspaces, come to the same arguments. -/
def ApplyVerdict.Agrees (root root' : String) : ApplyVerdict → ApplyVerdict → Prop
  | .raises, _ => True
  | _, .raises => True
  | .rejected reason, .rejected reason' => reason = reason'
  | .nothing, .nothing => True
  | .patches patchSet, .patches patchSet' =>
    (Json.arr patchSet).sorted = (Json.arr patchSet').sorted ∧ root = root'
  | _, _ => False

/-- **What a later pass has to see again.** Two requests that are about the same thing
agree on what their key does not say: the routing decision of an attempt, the values a run
is bound to, the error code of a failed run, the verdict on a result. -/
def Request.Agrees : Request → Request → Prop
  | .startRole jobId taskId cycle pos attempt role source,
      .startRole jobId' taskId' cycle' pos' attempt' role' source' =>
    jobId = jobId' → cycle = cycle' → pos = pos' → attempt = attempt' →
      taskId = taskId' ∧ role = role' ∧ source = source'
  | .createDispatch jobId taskId taskRunId cycle pos attempt role kind routing source,
      .createDispatch jobId' taskId' taskRunId' cycle' pos' attempt' role' kind' routing' source' =>
    jobId = jobId' → cycle = cycle' → pos = pos' → attempt = attempt' →
      taskId = taskId' ∧ taskRunId = taskRunId' ∧ role = role' ∧ kind = kind' ∧
        routing = routing' ∧ source = source'
  | .bindRun _ dispatchId sessionId runId provider model thinkingTier source,
      .bindRun _ dispatchId' sessionId' runId' provider' model' thinkingTier' source' =>
    dispatchId = dispatchId' → runId = runId' →
      sessionId = sessionId' ∧ provider = provider' ∧ model = model' ∧
        thinkingTier = thinkingTier' ∧ source = source'
  | .applyPatchSet _ d result adapterHash root _ _,
      .applyPatchSet _ d' result' adapterHash' root' _ _ =>
    d.id = d'.id → (Json.obj result).sorted = (Json.obj result').sorted →
      (applyVerdict d result adapterHash).Agrees root root' (applyVerdict d' result' adapterHash')
  | .runSandboxTests _ dispatchId root frozen, .runSandboxTests _ dispatchId' root' frozen' =>
    dispatchId = dispatchId' → frozen = frozen' → root = root'
  | .recordTestResult _ dispatchId taskId role frozen passed,
      .recordTestResult _ dispatchId' taskId' role' frozen' passed' =>
    dispatchId = dispatchId' → frozen = frozen' →
      taskId = taskId' ∧ role = role' ∧ passed = passed'
  | .markRunFailed _ dispatchId runId errorCode source,
      .markRunFailed _ dispatchId' runId' errorCode' source' =>
    dispatchId = dispatchId' → runId = runId' → errorCode = errorCode' ∧ source = source'
  | .coreRecover jobId source, .coreRecover jobId' source' => jobId = jobId' → source = source'
  | _, _ => True

theorem key_of_applyOpening {jobId : String} {d : AgentDispatch} {result : List (PyStr × Json)}
    {root before after : String} {v : ApplyVerdict} {o : Opening}
    (h : applyOpening jobId d result root before after v = some o) :
    o.actionKey = .apply d.id.text (Json.obj result).sorted := by
  cases v with
  | raises => cases h
  | rejected | nothing | patches =>
    cases h
    rfl

/-- Only an apply whose result cannot be examined begins no row. -/
theorem Request.eq_applyPatchSet_of_opening {r : Request} (h : r.opening = none) :
    ∃ jobId d result adapterHash root before after,
      r = .applyPatchSet jobId d result adapterHash root before after ∧
        applyVerdict d result adapterHash = .raises := by
  cases r with
  | applyPatchSet jobId d result adapterHash root before after =>
    refine ⟨jobId, d, result, adapterHash, root, before, after, rfl, ?_⟩
    cases hv : applyVerdict d result adapterHash with
    | raises => rfl
    | _ => simp [Request.opening, applyOpening, hv] at h
  | _ => cases h

/-- Two openings of one dispatch carry the same arguments exactly if their verdicts agree. -/
theorem argsHash_of_applyOpening {jobId jobId' : String} {d d' : AgentDispatch}
    {result result' : List (PyStr × Json)} {root root' before before' after after' : String}
    {v v' : ApplyVerdict} {o o' : Opening} (hid : d.id = d'.id)
    (h : applyOpening jobId d result root before after v = some o)
    (h' : applyOpening jobId' d' result' root' before' after' v' = some o') :
    o.argsHash = o'.argsHash ↔ v.Agrees root root' v' := by
  cases v with
  | raises => cases h
  | rejected reason =>
    cases h
    cases v' with
    | raises => cases h'
    | rejected reason' =>
      cases h'
      simp [Json.dict, ApplyVerdict.Agrees, ApplyRejection.text_injective.eq_iff]
    | nothing =>
      cases h'
      simp [Json.dict, Json.text, ApplyVerdict.Agrees]
    | patches patchSet' =>
      cases h'
      simp [applyArgs, Json.dict, ApplyVerdict.Agrees]
  | nothing =>
    cases h
    cases v' with
    | raises => cases h'
    | rejected reason' =>
      cases h'
      simp [Json.dict, Json.text, ApplyVerdict.Agrees]
    | nothing =>
      cases h'
      simp [ApplyVerdict.Agrees]
    | patches patchSet' =>
      cases h'
      simp [applyArgs, Json.dict, Json.text, ApplyVerdict.Agrees]
  | patches patchSet =>
    cases h
    cases v' with
    | raises => cases h'
    | rejected reason' =>
      cases h'
      simp [applyArgs, Json.dict, ApplyVerdict.Agrees]
    | nothing =>
      cases h'
      simp [applyArgs, Json.dict, Json.text, ApplyVerdict.Agrees]
    | patches patchSet' =>
      cases h'
      simp [applyArgs, Json.dict, ApplyVerdict.Agrees, hid]

/-- A request that begins no row disagrees with none. -/
theorem Request.agrees_of_opening {r r' : Request} (h : r.opening = none) : r.Agrees r' := by
  obtain ⟨jobId, d, result, adapterHash, root, before, after, rfl, hv⟩ :=
    eq_applyPatchSet_of_opening h
  cases r' with
  | applyPatchSet => simp [Request.Agrees, hv, ApplyVerdict.Agrees]
  | _ => trivial

/-- **The key and the arguments.** Where two requests have one key, they carry the same
arguments exactly if they agree. -/
theorem Request.agrees_iff {r r' : Request} {o o' : Opening} (h : r.opening = some o)
    (h' : r'.opening = some o') :
    r.Agrees r' ↔ (o.actionKey = o'.actionKey → o.argsHash = o'.argsHash) := by
  cases r with
  | applyPatchSet jobId d result adapterHash root before after =>
    have hkey := key_of_applyOpening h
    cases r' with
    | applyPatchSet jobId' d' result' adapterHash' root' before' after' =>
      have hkey' := key_of_applyOpening h'
      simp only [hkey, hkey', ActionKey.apply.injEq, Uuid.text_inj, Request.Agrees]
      constructor
      · rintro hag ⟨hid, hres⟩
        exact (argsHash_of_applyOpening hid h h').mpr (hag hid hres)
      · intro hargs hid hres
        exact (argsHash_of_applyOpening hid h h').mp (hargs ⟨hid, hres⟩)
    | _ =>
      cases h'
      simp [Request.Agrees, hkey]
  | startRole jobId taskId cycle pos attempt role source =>
    cases h
    cases r' with
    | applyPatchSet => simp [Request.Agrees, key_of_applyOpening h']
    | _ =>
      cases h'
      simp [Request.Agrees, Json.dict, Role.value_injective.eq_iff]
  | createDispatch jobId taskId taskRunId cycle pos attempt role kind routing source =>
    cases h
    cases r' with
    | applyPatchSet => simp [Request.Agrees, key_of_applyOpening h']
    | createDispatch =>
      cases h'
      simp only [Request.Agrees, Json.dict, ActionKey.createDispatch.injEq]
      simp [Role.value_injective.eq_iff, SequenceKind.value_injective.eq_iff]
      grind
    | _ =>
      cases h'
      simp [Request.Agrees]
  | spawnRun jobId dispatchId =>
    cases h
    cases r' with
    | applyPatchSet => simp [Request.Agrees, key_of_applyOpening h']
    | _ =>
      cases h'
      simp [Request.Agrees, Json.dict]
  | bindRun jobId dispatchId sessionId runId provider model thinkingTier source =>
    cases h
    cases r' with
    | applyPatchSet => simp [Request.Agrees, key_of_applyOpening h']
    | bindRun =>
      cases h'
      simp only [Request.Agrees, Json.dict, ActionKey.bind.injEq]
      simp [Json.optText_injective.eq_iff]
      grind
    | _ =>
      cases h'
      simp [Request.Agrees]
  | runSandboxTests jobId dispatchId root frozen =>
    cases h
    cases r' with
    | applyPatchSet => simp [Request.Agrees, key_of_applyOpening h']
    | runSandboxTests =>
      cases h'
      simp only [Request.Agrees, Json.dict, ActionKey.tests.injEq]
      simp
      grind
    | _ =>
      cases h'
      simp [Request.Agrees]
  | recordTestResult jobId dispatchId taskId role frozen passed =>
    cases h
    cases r' with
    | applyPatchSet => simp [Request.Agrees, key_of_applyOpening h']
    | recordTestResult =>
      cases h'
      have hresult : ∀ p q : Bool,
          (if p then "passed" else "failed") = (if q then "passed" else "failed") →
            p = q := by decide
      simp only [Request.Agrees, Json.dict, ActionKey.recordTest.injEq]
      simp [Role.value_injective.eq_iff]
      grind
    | _ =>
      cases h'
      simp [Request.Agrees]
  | consumeResult jobId dispatchId runId canonical rejected =>
    cases h
    cases r' with
    | applyPatchSet => simp [Request.Agrees, key_of_applyOpening h']
    | _ =>
      cases h'
      simp [Request.Agrees]
  | markRunFailed jobId dispatchId runId errorCode source =>
    cases h
    cases r' with
    | applyPatchSet => simp [Request.Agrees, key_of_applyOpening h']
    | markRunFailed =>
      cases h'
      simp only [Request.Agrees, Json.dict, ActionKey.fail.injEq]
      simp [Json.optText_injective.eq_iff]
      grind
    | _ =>
      cases h'
      simp [Request.Agrees]
  | coreRecover jobId source =>
    cases h
    cases r' with
    | applyPatchSet => simp [Request.Agrees, key_of_applyOpening h']
    | _ =>
      cases h'
      simp [Request.Agrees, Json.dict]
  | presentOwnerGate jobId gateId =>
    cases h
    cases r' with
    | applyPatchSet => simp [Request.Agrees, key_of_applyOpening h']
    | _ =>
      cases h'
      simp +contextual [Request.Agrees]
  | closeJob jobId terminal =>
    cases h
    cases r' with
    | applyPatchSet => simp [Request.Agrees, key_of_applyOpening h']
    | _ =>
      cases h'
      simp +contextual [Request.Agrees]

/-! ### What stands before a row -/

/-- The rows of a type that a dispatch has. -/
def Journal.actionsOf (js : Journal) (dispatchId : String) (type : ActionType) :
    List SupervisorAction :=
  js.filter fun a => a.dispatchId = some dispatchId && a.actionType = type

/-- `_committed_apply_intents`: the rows by which patches were, or may have been, applied. -/
def Journal.committedApplyIntents (js : Journal) (dispatchId : String) : List SupervisorAction :=
  (js.actionsOf dispatchId .applyPatchSet).filter fun a =>
    a.status = .running || a.status = .uncertain || a.status = .succeeded

/-- The write intent that is claimed together with the row of a request. -/
def Request.intent : Request → Option WriteIntent
  | .applyPatchSet _ d result adapterHash _ _ _ => match applyVerdict d result adapterHash with
    | .nothing | .patches _ => some
        { dispatchId := d.id.text
          canonicalInputHash := (Json.obj result).sorted
          intentActionId := .apply d.id.text (Json.obj result).sorted }
    | .rejected _ | .raises => none
  | _ => none

/-- The row that stands before the one a request would begin. What was begun to be applied
to a dispatch comes before whatever is seen of its run now; and where nothing is under way,
the dispatch still belongs to the result of its write intent. -/
def SupervisorDb.standing (w : SupervisorDb) : Request → Option ActionKey
  | .applyPatchSet jobId d result adapterHash root before after =>
    match (Journal.committedApplyIntents w.actions d.id.text).head?,
      (Request.applyPatchSet jobId d result adapterHash root before after).intent,
      w.intents.find? fun i => i.dispatchId = d.id.text with
    | some a, _, _ => some a.actionKey
    | none, some own, some winner =>
      if winner.canonicalInputHash = own.canonicalInputHash then none
      else some winner.intentActionId
    | none, _, _ => none
  | _ => none

/-- `_begin_apply_action`: a dispatch without a write intent gets that of the request. -/
def SupervisorDb.claim (w : SupervisorDb) (r : Request) : List WriteIntent :=
  match r.intent with
  | none => w.intents
  | some own =>
    if w.intents.any fun i => i.dispatchId = own.dispatchId then w.intents else w.intents ++ [own]

/-- How a pass goes on. -/
inductive Course
  | begins (o : Opening)
  /-- It takes up the row of another key, and begins none. -/
  | reconciles (key : ActionKey)
  | rests

/-- The course of a pass; for a job that is over nothing is decided any more. -/
def Request.course (w : SupervisorDb) (r : Request) : Course :=
  if w.job.terminal.isSome then .rests
  else match w.standing r with
    | some key => .reconciles key
    | none => r.opening.elim .rests .begins

theorem Request.opening_of_course {w : SupervisorDb} {r : Request} {o : Opening}
    (h : r.course w = .begins o) : r.opening = some o := by
  unfold course at h
  split at h
  · cases h
  split at h
  · cases h
  cases ho : r.opening with
  | none => simp [ho] at h
  | some o' => simpa [ho] using h

/-! ### Passes -/

/-- A pass that comes as far as its row: what it has computed, when, and what it finishes
the row with; `none` if it crashes before, or leaves the row as it is. -/
structure Visit where
  request : Request
  now : Time
  ended : Option (ActionStatus × Option String)

/-- What a row is finished with: what the pass says, where its request does not say more. -/
def Request.ending (ended : Option (ActionStatus × Option String)) :
    Request → Option (ActionStatus × Option String)
  | .applyPatchSet _ d result adapterHash _ _ _ => match applyVerdict d result adapterHash with
    | .rejected reason => ended.map fun _ => (.failed, some reason.text)
    | .nothing => ended.map fun _ => (.succeeded, none)
    | .patches _ | .raises => ended
  | .consumeResult _ _ _ _ true =>
    ended.map fun _ => (.failed, some ApplyRejection.invalidEnvelope.text)
  -- in the transaction that begins it
  | .closeJob _ _ => some (.succeeded, none)
  | _ => ended

/-- Whether a handler reports a row with no attempt left. What rejects a result, or has
nothing to apply, answers as if there were one. -/
def Request.reportsExhausted : Request → Bool
  | .applyPatchSet _ d result adapterHash _ _ _ => match applyVerdict d result adapterHash with
    | .patches _ => true
    | .rejected _ | .nothing | .raises => false
  | .consumeResult _ _ _ _ rejected => !rejected
  | .closeJob _ _ => false
  | _ => true

/-- A job, and the requests that were begun for it so far. Of the job itself there is what
becomes of it through its rows: not what a decision writes, and not the backoff of a patch
set that could not be applied. -/
structure Resuming where
  desk : SupervisorDb
  asked : List Request

/-- `_reconcile_existing_apply`: a row that is over, or whose workspace is known to have
diverged, is left alone; one that had nothing to apply is over; one that is being worked
on ends as the pass says. -/
def Journal.reconcileApply (js : Journal) (key : ActionKey)
    (ended : Option (ActionStatus × Option String)) : Journal :=
  match js.find key, ended with
  | some a, some (status, error) =>
    if a.status = .succeeded ∨
        a.status = .uncertain ∧ a.lastErrorCode = some "workspace_diverged" then js
    else if a.preconditionHash = none ∧ a.effectHash = none then
      js.finishAction key .succeeded none
    else if a.status = .running then js.finishAction key status error
    else js
  | _, _ => js

namespace Resuming

variable {t : Resuming} {v : Visit} {r : Request} {o : Opening} {now : Time} {desk : SupervisorDb}
  {begun : Begun}

/-- What a pass has done when its row was begun; closing a job ends it then and there. -/
def opened (desk : SupervisorDb) (v : Visit) (js : Journal) : SupervisorDb :=
  { desk with
    actions := js
    intents := desk.claim v.request
    job := match v.request with
      | .closeJob _ terminal => (desk.closeJob terminal v.now).job
      | _ => desk.job }

/-- The end of a pass, after its row was begun: a row that is over, or exhausted, is left
alone, and an exhausted one puts the job into an error if the handler reports it. -/
def settle (desk : SupervisorDb) (v : Visit) (o : Opening) (begun : Begun) (js : Journal) :
    SupervisorDb :=
  let desk := opened desk v js
  match begun, v.request.ending v.ended with
  | .succeeded, _ | _, none => desk
  | .exhausted, _ =>
    if v.request.reportsExhausted then desk.persistError (o.actionType.value ++ "_exhausted")
    else desk
  | _, some (status, error) => { desk with actions := js.finishAction o.actionKey status error }

/-- One pass. A key that comes back with other arguments puts the job into an error. -/
def step (t : Resuming) (v : Visit) : Resuming :=
  match v.request.course t.desk with
  | .rests => t
  | .reconciles key =>
    { t with desk.actions := Journal.reconcileApply t.desk.actions key v.ended }
  | .begins o => match Journal.beginAction t.desk.actions o v.now with
    | none => { t with desk := t.desk.persistError (o.actionType.value ++ "_args_hash_mismatch") }
    | some (begun, _, js) => ⟨settle t.desk v o begun js, t.asked ++ [v.request]⟩

/-- The pass begins its row, if it comes to that. -/
def Resumes (t : Resuming) (v : Visit) : Prop :=
  ∀ o, v.request.course t.desk = .begins o →
    (Journal.beginAction t.desk.actions o v.now).isSome

/-- The pass agrees with every earlier one, if it is to begin its row. -/
def Recurs (t : Resuming) (v : Visit) : Prop :=
  ∀ o, v.request.course t.desk = .begins o → ∀ r ∈ t.asked, r.Agrees v.request

/-- The journal of a run is what was asked of it: each request has its row, with its
arguments, and each row was asked for. -/
structure Journaled (t : Resuming) : Prop where
  there : ∀ r ∈ t.asked, ∀ o, r.opening = some o →
    (Journal.find t.desk.actions o.actionKey).map (·.argsHash) = some o.argsHash
  asked : ∀ key, (Journal.find t.desk.actions key).isSome →
    ∃ r ∈ t.asked, ∃ o, r.opening = some o ∧ o.actionKey = key

theorem actions_persistError {w : SupervisorDb} {e : String} :
    (w.persistError e).actions = w.actions := by
  simp only [SupervisorDb.persistError]
  split <;> rfl

/-- The end of a pass finishes its row or leaves it alone, and one that is over or exhausted it
leaves alone. -/
theorem actions_settle {js : Journal} : (settle desk v o begun js).actions = js ∨
    begun ≠ .succeeded ∧ begun ≠ .exhausted ∧ ∃ status e,
      (settle desk v o begun js).actions = js.finishAction o.actionKey status e := by
  unfold settle
  cases begun <;> rcases v.request.ending v.ended with _ | ⟨status, e⟩ <;> dsimp only
  case exhausted.some =>
    left
    split
    · exact actions_persistError
    · rfl
  case new.some | retry.some | running.some =>
    exact .inr ⟨by simp, by simp, status, e, rfl⟩
  all_goals exact .inl rfl

/-- **What reconciling does**: nothing, or it finishes a row that has not succeeded. -/
theorem reconcileApply_cases (js : Journal) (key : ActionKey)
    (ended : Option (ActionStatus × Option String)) : js.reconcileApply key ended = js ∨
      ∃ a status e, js.find key = some a ∧ a.status ≠ .succeeded ∧
        js.reconcileApply key ended = js.finishAction key status e := by
  unfold Journal.reconcileApply
  cases hfind : js.find key with
  | none => exact .inl rfl
  | some a =>
    rcases ended with _ | ⟨status, e⟩
    · exact .inl rfl
    · dsimp only
      split
      · exact .inl rfl
      rename_i hopen
      have hne : a.status ≠ .succeeded := fun h => hopen (.inl h)
      split
      · exact .inr ⟨a, _, _, rfl, hne, rfl⟩
      · split
        · exact .inr ⟨a, _, _, rfl, hne, rfl⟩
        · exact .inl rfl

/-- Finishing an action keeps the arguments of every row. -/
theorem argsHash_of_finishAction {js : Journal} {key key' : ActionKey} {status : ActionStatus}
    {e : Option String} : ((js.finishAction key status e).find key').map (·.argsHash) =
      (js.find key').map (·.argsHash) := by
  rw [Journal.find_finishAction]
  split
  · cases js.find key' <;> rfl
  · rfl

/-- The journal a pass leaves: what was begun, perhaps finished. -/
theorem find_settle {js : Journal} {key : ActionKey} :
    (Journal.find (settle desk v o begun js).actions key).map (·.argsHash) =
      (js.find key).map (·.argsHash) := by
  rcases actions_settle with hjs | ⟨-, -, status, e, hjs⟩ <;> rw [hjs]
  exact argsHash_of_finishAction

/-- Beginning an action keeps the arguments of every row there is. -/
theorem argsHash_of_beginAction {js js' : Journal} {a : SupervisorAction}
    (h : js.beginAction o now = some (begun, a, js')) {key : ActionKey} :
    (js'.find key).map (·.argsHash) =
      if key = o.actionKey then some o.argsHash else (js.find key).map (·.argsHash) := by
  by_cases hk : key = o.actionKey
  · subst hk
    rw [Journal.find_of_beginAction_self h, if_pos rfl]
    rcases Journal.beginAction_cases h with ⟨-, -, rfl, -⟩ | ⟨b, -, hargs, hrest⟩
    · rfl
    · rcases hrest with ⟨-, -, rfl, -⟩ | ⟨-, -, rfl, -⟩ | ⟨-, -, -, rfl, -⟩ | ⟨-, -, -, rfl, -⟩
      iterate 4 · exact congrArg some hargs
  · rw [Journal.find_of_beginAction h hk, if_neg hk]

/-- **What a pass does**: nothing; or it reconciles the row of another; or it is refused its
own, which is an error; or it begins it. -/
theorem step_cases : t.step v = t ∨
    (∃ key, v.request.course t.desk = .reconciles key ∧ t.step v =
      { t with desk.actions := Journal.reconcileApply t.desk.actions key v.ended }) ∨
    (∃ o, v.request.course t.desk = .begins o ∧
      Journal.beginAction t.desk.actions o v.now = none ∧ t.step v =
        { t with desk := t.desk.persistError (o.actionType.value ++ "_args_hash_mismatch") }) ∨
    (∃ o begun a js, v.request.course t.desk = .begins o ∧
      Journal.beginAction t.desk.actions o v.now = some (begun, a, js) ∧
      t.step v = ⟨settle t.desk v o begun js, t.asked ++ [v.request]⟩) := by
  cases hc : v.request.course t.desk with
  | rests => exact .inl (by simp only [step, hc])
  | reconciles key => exact .inr (.inl ⟨key, rfl, by simp only [step, hc]⟩)
  | begins o =>
    cases hb : Journal.beginAction t.desk.actions o v.now with
    | none => exact .inr (.inr (.inl ⟨o, rfl, hb, by simp only [step, hc, hb]⟩))
    | some b =>
      exact .inr (.inr (.inr ⟨o, b.1, b.2.1, b.2.2, rfl, hb, by simp only [step, hc, hb]⟩))

/-- What keeps the arguments of every row keeps the journal to what was asked. -/
theorem Journaled.of_find {desk' : SupervisorDb} (h : Journaled t)
    (hargs : ∀ key, (Journal.find desk'.actions key).map (·.argsHash) =
      (Journal.find t.desk.actions key).map (·.argsHash)) : Journaled { t with desk := desk' } where
  there r hr o ho := by rw [hargs, h.there r hr o ho]
  asked key hsome := h.asked key (by rw [← Option.isSome_map, ← hargs, Option.isSome_map, hsome])

/-- **One pass** keeps the journal to what was asked. -/
theorem Journaled.step (h : Journaled t) : Journaled (t.step v) := by
  rcases step_cases (t := t) (v := v) with heq | ⟨key, -, heq⟩ | ⟨o, -, -, heq⟩ |
    ⟨o, begun, a, js, hc, hb, heq⟩
  · rw [heq]
    exact h
  · rw [heq]
    refine h.of_find fun key' => ?_
    rcases reconcileApply_cases t.desk.actions key v.ended with hjs | ⟨-, status, e, -, -, hjs⟩
    · rw [hjs]
    · rw [hjs, argsHash_of_finishAction]
  · rw [heq]
    exact h.of_find fun key => by rw [actions_persistError]
  · rw [heq]
    have ho := Request.opening_of_course hc
    have hargs (key : ActionKey) :
        (Journal.find (settle t.desk v o begun js).actions key).map (·.argsHash) =
          if key = o.actionKey then some o.argsHash
          else (Journal.find t.desk.actions key).map (·.argsHash) :=
      (find_settle).trans (argsHash_of_beginAction hb)
    constructor
    · intro r hr o' ho'
      rw [hargs]
      split
      · -- Under the key of this pass, an earlier request had the same arguments.
        rename_i hkey
        rcases List.mem_append.mp hr with hr | hr
        · have hthere := h.there r hr o' ho'
          rw [hkey] at hthere
          obtain ⟨b, hfind, hb'⟩ := Option.map_eq_some_iff.mp hthere
          by_contra hne
          have hnone : Journal.beginAction t.desk.actions o v.now = none :=
            Journal.beginAction_eq_none.mpr ⟨b, hfind, fun hab => hne (by rw [← hab, hb'])⟩
          rw [hnone] at hb
          cases hb
        · obtain rfl := List.mem_singleton.mp hr
          rw [ho] at ho'
          obtain rfl := Option.some.inj ho'
          rfl
      · rename_i hkey
        rcases List.mem_append.mp hr with hr | hr
        · exact h.there r hr o' ho'
        · obtain rfl := List.mem_singleton.mp hr
          rw [ho] at ho'
          obtain rfl := Option.some.inj ho'
          exact absurd rfl hkey
    · intro key hsome
      by_cases hkey : key = o.actionKey
      · exact ⟨v.request, by simp, o, ho, hkey.symm⟩
      · have hkept := hargs key
        rw [if_neg hkey] at hkept
        have hbefore : (Journal.find t.desk.actions key).isSome := by
          rw [← Option.isSome_map, ← hkept, Option.isSome_map]
          exact hsome
        obtain ⟨r, hr, o', ho', hkey'⟩ := h.asked key hbefore
        exact ⟨r, List.mem_append_left _ hr, o', ho', hkey'⟩

/-- A pass resumes exactly if it agrees with the earlier ones. -/
theorem Journaled.resumes (h : Journaled t) : t.Resumes v ↔ t.Recurs v := by
  constructor
  · intro hres o' hc r hr
    have ho' := Request.opening_of_course hc
    cases ho : r.opening with
    | none => exact Request.agrees_of_opening ho
    | some o =>
      obtain ⟨a, hfind, hargs⟩ := Option.map_eq_some_iff.mp (h.there r hr o ho)
      rw [Request.agrees_iff ho ho']
      intro hkey
      by_contra hne
      have hnone : Journal.beginAction t.desk.actions o' v.now = none :=
        Journal.beginAction_eq_none.mpr ⟨a, hkey ▸ hfind, hargs ▸ hne⟩
      have hbegun := hres o' hc
      rw [hnone] at hbegun
      cases hbegun
  · intro hrec o' hc
    have ho' := Request.opening_of_course hc
    rw [Option.isSome_iff_ne_none]
    intro hnone
    obtain ⟨a, hfind, hne⟩ := Journal.beginAction_eq_none.mp hnone
    obtain ⟨r, hr, o, ho, hkey⟩ := h.asked _ (Option.isSome_of_eq_some hfind)
    have hargs := h.there r hr o ho
    rw [hkey, hfind] at hargs
    exact hne ((Option.some.inj hargs).trans
      ((Request.agrees_iff ho ho').mp (hrec o' hc r hr) hkey))

/-! ### What becomes of a row -/

/-- **What a pass does to a row**: nothing, or it inserts the row, or it goes on with a row that
has not succeeded. -/
theorem find_step (key : ActionKey) :
    (t.step v).desk.actions.find key = t.desk.actions.find key ∨
      ∃ b, (t.step v).desk.actions.find key = some b ∧
        (t.desk.actions.find key = none ∧ b.attemptCount = 1 ∨
          ∃ a, t.desk.actions.find key = some a ∧ a.status ≠ .succeeded ∧
            b.argsHash = a.argsHash ∧ (b.attemptCount = a.attemptCount ∨
              a.attemptCount < maxActionRetries ∧ b.attemptCount = a.attemptCount + 1)) := by
  rcases step_cases (t := t) (v := v) with heq | ⟨key', -, heq⟩ | ⟨o, -, -, heq⟩ |
    ⟨o, begun, a, js, -, hb, heq⟩
  · exact .inl (by rw [heq])
  · rw [heq]
    rcases reconcileApply_cases t.desk.actions key' v.ended with hjs | ⟨a, _, _, ha, hopen, hjs⟩
    · exact .inl (by rw [hjs])
    rw [hjs, Journal.find_finishAction]
    split
    · rename_i hk
      rw [hk, ha]
      exact .inr ⟨_, rfl, .inr ⟨a, rfl, hopen, rfl, .inl rfl⟩⟩
    · exact .inl rfl
  · exact .inl (by rw [heq, actions_persistError])
  rw [heq]
  by_cases hk : key = o.actionKey
  · subst hk
    -- the row that was begun, finished or not
    have hself : ∃ b, (settle t.desk v o begun js).actions.find o.actionKey = some b ∧
        b.attemptCount = a.attemptCount ∧ b.argsHash = a.argsHash := by
      have hfind := Journal.find_of_beginAction_self hb
      rcases actions_settle with hjs | ⟨-, -, status, e, hjs⟩ <;> rw [hjs]
      · exact ⟨a, hfind, rfl, rfl⟩
      · rw [Journal.find_finishAction, if_pos rfl, hfind]
        exact ⟨_, rfl, rfl, rfl⟩
    obtain ⟨b, hb', hcount, hargs⟩ := hself
    rcases Journal.beginAction_cases hb with ⟨hn, -, rfl, -⟩ |
      ⟨c, hfind, -, ⟨-, rfl, -, rfl⟩ | ⟨hopen, -, rfl, -⟩ | ⟨-, -, rfl, -, rfl⟩ |
        ⟨hopen, hleft, -, rfl, -⟩⟩
    · exact .inr ⟨b, hb', .inl ⟨hn, hcount⟩⟩
    · exact .inl (by rw [actions_settle.resolve_right (by simp)])
    · refine .inr ⟨b, hb', .inr ⟨a, hfind, ?_, hargs, .inl hcount⟩⟩
      rcases hopen with h | h <;> simp [h]
    · exact .inl (by rw [actions_settle.resolve_right (by simp)])
    · refine .inr ⟨b, hb', .inr ⟨c, hfind, ?_, hargs, .inr ⟨hleft, hcount⟩⟩⟩
      rcases hopen with h | h <;> simp [h]
  · left
    rw [← Journal.find_of_beginAction hb hk]
    rcases actions_settle with hjs | ⟨-, -, status, e, hjs⟩ <;> rw [hjs]
    rw [Journal.find_finishAction, if_neg hk]

/-- No row counts more attempts than may be made. -/
def Counted (t : Resuming) : Prop :=
  ∀ key a, t.desk.actions.find key = some a → 1 ≤ a.attemptCount ∧ a.attemptCount ≤ maxActionRetries

theorem Counted.step (h : Counted t) : Counted (t.step v) := by
  intro key b hb
  rcases find_step (t := t) (v := v) key with heq | ⟨b', hb', hrow⟩
  · exact h key b (heq ▸ hb)
  obtain rfl := Option.mem_unique hb hb'
  rcases hrow with ⟨-, hone⟩ | ⟨a, ha, -, -, hcount⟩
  · rw [hone]
    decide
  · have := h key a ha
    omega

/-- What a row is later: the same action, with no smaller count; and what has succeeded is
as it was. -/
structure Later (a b : SupervisorAction) : Prop where
  argsHash : b.argsHash = a.argsHash
  attemptCount : a.attemptCount ≤ b.attemptCount
  succeeded : a.status = .succeeded → b = a

theorem Later.step {a b : SupervisorAction} {key : ActionKey} (h : Later a b)
    (hb : t.desk.actions.find key = some b) :
    ∃ c, (t.step v).desk.actions.find key = some c ∧ Later a c := by
  rcases find_step (t := t) (v := v) key with heq |
    ⟨c, hc, ⟨hn, -⟩ | ⟨b', hb', hopen, hargs, hcount⟩⟩
  · exact ⟨b, by rw [heq, hb], h⟩
  · rw [hb] at hn
    cases hn
  · obtain rfl := Option.mem_unique hb hb'
    refine ⟨c, hc, hargs.trans h.argsHash, ?_, fun hs => absurd ?_ hopen⟩
    · have := h.attemptCount
      omega
    · rw [h.succeeded hs, hs]

/-! ### Every run -/

/-- A new job, for which nothing was begun. -/
def begins (desk : SupervisorDb) : Resuming where
  desk := { desk with actions := [], intents := [] }
  asked := []

theorem journaled_begins : Journaled (begins desk) where
  there r hr := by
    simp [begins] at hr
  asked key hsome := by
    simp [begins, Journal.find] at hsome

theorem journaled_run {visits : List Visit} :
    Journaled (Runs.run step (begins desk) visits) :=
  Runs.run_always (fun _ _ h => h.step) journaled_begins

theorem Journaled.along_iff {visits : List Visit} (h : Journaled t) :
    Runs.Along Resuming.step Resumes t visits ↔ Runs.Along Resuming.step Recurs t visits := by
  induction visits generalizing t with
  | nil => exact Iff.rfl
  | cons v visits ih => exact and_congr h.resumes (ih h.step)

/-- The error of a pass that is refused its row. -/
def mismatches (v : Visit) : Option String :=
  v.request.opening.map fun o => o.actionType.value ++ "_args_hash_mismatch"

theorem status_opened {js : Journal} (hopen : desk.job.terminal = none)
    (hok : desk.job.status ≠ .error) : (opened desk v js).job.status ≠ .error := by
  unfold opened
  dsimp only
  split
  · simp [SupervisorDb.closeJob, hopen, JobRow.project]
  · exact hok

/-- The end of a pass that has begun its row leaves the job as it is, or reports the row. -/
theorem job_settle {js : Journal} : (settle desk v o begun js).job = (opened desk v js).job ∨
    (settle desk v o begun js).job.lastErrorCode = some (o.actionType.value ++ "_exhausted") := by
  unfold settle
  cases begun <;> rcases v.request.ending v.ended with _ | ⟨status, e⟩ <;> dsimp only
  case exhausted.some =>
    split
    · unfold SupervisorDb.persistError
      split
      · exact .inr rfl
      · exact .inl rfl
    · exact .inl rfl
  all_goals exact .inl rfl

/-- A healthy job is put into the error of a mismatch by exactly the passes that do not
resume. -/
theorem error_iff {e : String} (hopen : t.desk.job.terminal = none)
    (hok : t.desk.job.status ≠ .error) (he : mismatches v = some e) :
    ((t.step v).desk.job.status = .error ∧ (t.step v).desk.job.lastErrorCode = some e) ↔
      ¬t.Resumes v := by
  obtain ⟨o, ho, rfl⟩ := Option.map_eq_some_iff.mp he
  cases hc : v.request.course t.desk with
  | rests =>
    have hstep : t.step v = t := by simp only [step, hc]
    exact iff_of_false (fun h => hok (hstep ▸ h.1)) (not_not.mpr (by simp [Resumes, hc]))
  | reconciles key =>
    have hjob : (t.step v).desk.job = t.desk.job := by simp only [step, hc]
    exact iff_of_false (fun h => hok (hjob ▸ h.1)) (not_not.mpr (by simp [Resumes, hc]))
  | begins o' =>
    obtain rfl : o = o' := Option.some.inj (ho.symm.trans (Request.opening_of_course hc))
    cases hb : Journal.beginAction t.desk.actions o v.now with
    | none =>
      have hstep : t.step v = { t with
          desk := t.desk.persistError (o.actionType.value ++ "_args_hash_mismatch") } := by
        simp only [step, hc, hb]
      refine iff_of_true ?_ fun hres => ?_
      · rw [hstep]
        simp [SupervisorDb.persistError, hopen, JobRow.project]
      · simpa [hb] using hres o hc
    | some b =>
      obtain ⟨begun, a, js⟩ := b
      have hstep : t.step v = ⟨settle t.desk v o begun js, t.asked ++ [v.request]⟩ := by
        simp only [step, hc, hb]
      refine iff_of_false ?_ (not_not.mpr fun o' hc' => ?_)
      · rw [hstep]
        rintro ⟨hstatus, hcode⟩
        have hjob : (settle t.desk v o begun js).job = (opened t.desk v js).job ∨
            (settle t.desk v o begun js).job.lastErrorCode =
              some (o.actionType.value ++ "_exhausted") := job_settle
        rcases hjob with h | h
        · exact status_opened hopen hok (h ▸ hstatus)
        · simp [h] at hcode
      · rw [hc] at hc'
        cases hc'
        simp [hb]

end Resuming

/-- **When the journal is resumable**: along a run of passes, each of which may crash
after it began its row or end in any way, every pass that is to begin its row does so exactly
if every such pass agrees with those before it; and a job is put into the error of a mismatch
by just those passes that do not. -/
theorem resumes_iff (desk : SupervisorDb) (visits : List Visit) :
    (Runs.Along Resuming.step Resuming.Resumes (Resuming.begins desk) visits ↔
      Runs.Along Resuming.step Resuming.Recurs (Resuming.begins desk) visits) ∧
    ∀ v e, let t := Runs.run Resuming.step (Resuming.begins desk) visits
      t.desk.job.terminal = none → t.desk.job.status ≠ .error →
      Resuming.mismatches v = some e →
      ((t.step v).desk.job.status = .error ∧ (t.step v).desk.job.lastErrorCode = some e ↔
        ¬t.Recurs v) := by
  refine ⟨Resuming.journaled_begins.along_iff, ?_⟩
  intro v e t hopen hok he
  rw [Resuming.error_iff hopen hok he, Resuming.journaled_run.resumes]

/-- **What becomes of a row**, along every run of passes, each of which may crash after it
began its row: its `attemptCount` is from one to `maxActionRetries` and never falls, it is
always about the same, and once it has succeeded it stays as it is. -/
theorem over_for_good (desk : SupervisorDb) (visits later : List Visit) (key : ActionKey) :
    ∀ a, (Runs.run Resuming.step (Resuming.begins desk) visits).desk.actions.find key = some a →
      (1 ≤ a.attemptCount ∧ a.attemptCount ≤ maxActionRetries) ∧
      ∃ b, (Runs.run Resuming.step (Resuming.begins desk) (visits ++ later)).desk.actions.find key =
        some b ∧ Resuming.Later a b := by
  intro a ha
  constructor
  · refine Runs.run_always (I := Resuming.Counted) (fun _ _ h => h.step) ?_ key a ha
    intro key a ha
    simp [Resuming.begins, Journal.find] at ha
  · rw [Runs.run_append]
    refine Runs.run_always (I := fun t : Resuming => ∃ b, t.desk.actions.find key = some b ∧
      Resuming.Later a b) ?_ ⟨a, ha, rfl, le_rfl, fun _ => rfl⟩
    rintro t v ⟨b, hb, hlater⟩
    exact hlater.step hb

/-- A pass that creates the first dispatch of the lead, by a routing decision. -/
def createsLead (routing : String) (now : Time) (ended : Option (ActionStatus × Option String)) :
    Visit where
  request := .createDispatch leadUndispatched.job.id leadUndispatched.job.taskId (Core.num 3) 1 0 1
    .lead .standard routing "role:lead"
  now := now
  ended := ended

/-- Once the dispatch is created, a pass that is routed otherwise leaves the row as it is. -/
theorem over_for_good_created :
    let t := Runs.run Resuming.step (Resuming.begins leadUndispatched)
    let created := [createsLead "first" 0 (some (.succeeded, none))]
    let key := ActionKey.createDispatch leadUndispatched.job.id 1 0 1
    ∃ a, (t created).desk.actions.find key = some a ∧
      (t (created ++ [createsLead "second" (later 0 1) none])).desk.actions.find key = some a := by
  intro t created key
  have hsome : ((t created).desk.actions.find key).isSome = true := by decide
  have hall : ((t created).desk.actions.find key).all (·.status = .succeeded) = true := by decide
  obtain ⟨a, ha⟩ := Option.isSome_iff_exists.mp hsome
  rw [ha, Option.all_some, decide_eq_true_eq] at hall
  obtain ⟨-, b, hb, hlater⟩ := over_for_good leadUndispatched created
    [createsLead "second" (later 0 1) none] key a ha
  rw [hlater.succeeded hall] at hb
  exact ⟨a, ha, hb⟩

/-- A pass begins to create a dispatch and crashes. A second later a provider is no longer
to be had, the next pass routes the attempt to another one, and the job is in an error. -/
theorem rerouted_dispatch_never_resumes :
    let t := Resuming.begins leadUndispatched
    let t' := t.step (createsLead "first" 0 none)
    let t'' := t'.step (createsLead "second" (later 0 1) none)
    ((t.desk.reconcile (some (heldAt 1)) 0 none).1.map ReconcileDecision.action =
        some .createDispatch ∧
      (t'.desk.reconcile (some (heldAt 1)) (later 0 1) none).1.map ReconcileDecision.action =
        some .createDispatch) ∧
    t'.desk.job.status = .active ∧ t'.desk.job.terminal = none ∧
    t''.desk.job.status = .error ∧
    t''.desk.job.lastErrorCode = some "CREATE_DISPATCH_args_hash_mismatch" := by
  decide

/-- Had it been routed as before, the row would have been resumed. -/
theorem resumes_iff_rerouted :
    Runs.Along Resuming.step Resuming.Resumes (Resuming.begins leadUndispatched)
        [createsLead "first" 0 none, createsLead "first" (later 0 1) none] ∧
      ¬Runs.Along Resuming.step Resuming.Resumes (Resuming.begins leadUndispatched)
        [createsLead "first" 0 none, createsLead "second" (later 0 1) none] := by
  have hasked : ((Resuming.begins leadUndispatched).step (createsLead "first" 0 none)).asked =
      [(createsLead "first" 0 none).request] := by decide
  constructor
  · rw [(resumes_iff _ _).1]
    refine ⟨fun _ _ r hr => absurd hr (by simp [Resuming.begins]), fun _ _ r hr => ?_, trivial⟩
    rw [hasked] at hr
    obtain rfl := List.mem_singleton.mp hr
    simp [createsLead, Request.Agrees]
  · rw [(resumes_iff _ _).1]
    rintro ⟨-, hsecond, -⟩
    have hagrees := hsecond _ rfl (createsLead "first" 0 none).request (by simp [hasked])
    simp [createsLead, Request.Agrees] at hagrees

end Supervisor

end ArgentTeam
