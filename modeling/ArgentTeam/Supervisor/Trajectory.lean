import ArgentTeam.Supervisor.Handlers

/-!
# Observing a trajectory

The run of a dispatch writes a trajectory, row by row, and the supervisor reads whatever
is there: once when it decides, and once more when it acts. `observe` refuses what does
not belong to the run, and is careful to take a missing row for no answer.

One missing row is taken for an answer further on. Without a row of metadata the thinking
tier is not known; the observation says so, the binding is carried out with no tier, and
the core, which compares the tier for equality, rejects the dispatch for good
(`Supervisor.trajectory_keeps_dispatch`).
-/

namespace ArgentTeam

namespace Supervisor

/-! ### Looking up a run -/

structure RunLookup where
  dispatchId : String
  agentId : String
  expectedSessionLabel : String
  boundSessionId : Option String
  boundRunId : Option String
  expectedProvider : String
  expectedModel : String
  expectedThinkingTier : String

def agentIds : Role → String
  | .lead => "argent-lead"
  | .analyst => "argent-analyst"
  | .implementer => "argent-implementer"
  | .qa => "argent-qa"
  | .reviewer => "argent-reviewer"

def sessionKeyFor (agentId dispatchId : String) : String :=
  "agent:" ++ agentId ++ ":explicit:dispatch-" ++ dispatchId

/-- `_build_lookup`: what the dispatch is bound to, or else what it expects. -/
def buildLookup (d : AgentDispatch) : RunLookup where
  dispatchId := d.id.text
  agentId := agentIds d.role
  expectedSessionLabel := "dispatch-" ++ d.id.text
  boundSessionId := d.childSessionId
  boundRunId := d.openclawRunId
  expectedProvider := d.actualProvider.getD d.expectedAgentClass
  expectedModel := d.actualModel.getD d.expectedModelClass
  expectedThinkingTier := d.thinkingTier.getD d.expectedThinkingTier

def RunLookup.sessionKey (l : RunLookup) : String := sessionKeyFor l.agentId l.dispatchId

/-! ### Rows -/

abbrev Row : Type := List (PyStr × Json)

namespace Row

def hasType (type : String) (row : Row) : Bool := Json.getD row "type" .null = .text type

/-- The run a row names, if it names one by a text. -/
def runId (row : Row) : Option PyStr :=
  match Json.getD row "runId" .null with
  | .str s => some s
  | _ => none

def startConflict (l : RunLookup) (row : Row) : Option String :=
  if Json.getD row "sessionId" .null ≠ .text l.expectedSessionLabel then
    some "start_session_label_mismatch"
  else if !(Json.getD row "runId" .null).truthy then some "start_missing_run_id"
  else if row.runId = none then some "start_run_id_not_string"
  else if Json.getD row "sessionKey" .null ≠ .text l.sessionKey then
    some "start_session_key_mismatch"
  else match Json.get? row "data" with
    | none => some "start_missing_agent_id"
    | some (.obj data) =>
      if !Json.has data "agentId" then some "start_missing_agent_id"
      else if Json.getD data "agentId" .null ≠ .text l.agentId then some "start_agent_id_mismatch"
      else if Json.getD row "provider" .null ≠ .text l.expectedProvider then
        some "start_provider_binding_mismatch"
      else if Json.getD row "modelId" .null ≠ .text l.expectedModel then
        some "start_model_binding_mismatch"
      else none
    | some _ => some "start_malformed_data"

def terminalConflict (l : RunLookup) (run : PyStr) (row : Row) : Option String :=
  if row.runId.all (·.isEmpty) then some "terminal_run_id_not_string"
  else if row.runId ≠ some run then some "terminal_run_id_mismatch"
  else if Json.getD row "sessionId" .null ≠ .text l.expectedSessionLabel then
    some "terminal_session_label_mismatch"
  else if Json.getD row "sessionKey" .null ≠ .text l.sessionKey then
    some "terminal_session_key_mismatch"
  else match Json.get? row "data" with
    | none => some "terminal_missing_agent_id"
    | some (.obj data) =>
      if !Json.has data "agentId" then some "terminal_missing_agent_id"
      else if Json.getD data "agentId" .null ≠ .text l.agentId then
        some "terminal_agent_id_mismatch"
      else if Json.getD row "provider" .null ≠ .text l.expectedProvider then
        some "terminal_provider_mismatch"
      else if Json.getD row "modelId" .null ≠ .text l.expectedModel then
        some "terminal_model_mismatch"
      else none
    | some _ => some "terminal_malformed_data"

def metadataMalformed (row : Row) : Bool :=
  match Json.get? row "data" with
  | none => false
  | some (.obj data) => match Json.get? data "model" with
    | none | some (.obj _) => false
    | some _ => true
  | some _ => true

/-- The thinking level a row of metadata shows for a run. -/
def thinkLevel (run : PyStr) (row : Row) : Option Json :=
  if row.runId ≠ some run then none
  else match Json.get? row "data" with
    | some (.obj data) => match Json.get? data "model" with
      | some (.obj model) => (Json.get? model "thinkLevel").filter Json.truthy
      | _ => none
    | _ => none

def terminalStatus (row : Row) : RunStatus :=
  match Json.get? row "data" with
  | some (.obj data) =>
    let status := Json.getD data "status" .null
    if status = .text "success" then .succeeded
    else if (Json.getD data "aborted" .null).truthy ||
      (Json.getD data "externalAbort" .null).truthy then
      .cancelled
    else if (Json.getD data "timedOut" .null).truthy then .failed
    else if status = .text "cancel" then .cancelled
    else if status = .text "failed" ∨ status = .text "error" ∨ status = .text "timeout" then .failed
    else .unknown
  | _ => .unknown

def terminalErrorCode (row : Row) : Option String :=
  match Json.get? row "data" with
  | some (.obj data) => match Json.get? data "errorCode" with
    | some (.str code) => if code.strip.isEmpty then none else code.strip.encode?
    | _ => none
  | _ => none

end Row

def thinkingTier (l : RunLookup) (run : PyStr) (metadata : List Row) : Option Json :=
  (metadata.findSome? (Row.thinkLevel run)).or
    (if l.expectedProvider = "openai" ∧ l.expectedModel = "gpt-5.6-sol" then some (.text "high")
    else none)

/-! ### Observing -/

/-- What there is to read. -/
inductive FileView
  | noSessionDir
  /-- Neither a trajectory nor a session. -/
  | missing
  | session
  /-- A trajectory that cannot be read. -/
  | ioError
  /-- A trajectory with a line that is no JSON, such as one half written. -/
  | torn
  /-- A trajectory of whole lines, and the result its session file yields. -/
  | rows (rows : List Json) (result resultHash : Option Json)

/-- An observation that knows nothing, `_unknown` or `_conflict`. -/
def RunObservation.refused (status : RunStatus) (code : String) : RunObservation :=
  { RunObservation.missing with
    status := status, authoritativeNotFound := false, errorCode := some code }

/-- The observation of a run with this status. -/
def RunLookup.seen (l : RunLookup) (run : PyStr) (tier : Option Json)
    (result resultHash : Option Json)
    (status : RunStatus) (errorCode : Option String) : RunObservation where
  status := status
  sessionId := some l.sessionKey
  runId := run.encode?
  provider := some l.expectedProvider
  model := some l.expectedModel
  thinkingTier := tier.map fun _ => l.expectedThinkingTier
  result := result
  resultHash := resultHash
  authoritativeNotFound := false
  errorCode := errorCode
  adapterExceptionType := none

/-- What the terminal rows say: nothing yet, one thing, or different things. -/
def terminalVerdict (ended : List Row) : Option RunStatus × Option String :=
  match ended.map Row.terminalStatus with
  | [] => (some .running, none)
  | status :: rest =>
    if rest.all (· = status) then (some status, ended.getLast?.bind Row.terminalErrorCode)
    else (none, none)

/-- `observe`, on the rows of a trajectory. A row that passes agrees with the provider and
the model that are expected, so that these are those observed. -/
def observeRows (l : RunLookup) (rows : List Row) (result resultHash : Option Json) :
    RunObservation :=
  let started := rows.filter (Row.hasType "session.started")
  let ended := rows.filter (Row.hasType "session.ended")
  let metadata := rows.filter (Row.hasType "trace.metadata")
  match started, started.findSome? (Row.startConflict l) with
  | [], _ => .refused .unknown "no_session_started"
  | _, some code => .refused .conflict code
  | first :: _, none =>
    let run := first.runId.getD []
    if started.any fun row => row.runId ≠ some run then .refused .conflict "multiple_run_ids"
    else if l.boundRunId.any fun bound => PyStr.ofString bound ≠ run then
      .refused .conflict "foreign_run_id"
    else if l.boundSessionId.any fun bound => l.sessionKey ≠ bound then
      .refused .conflict "foreign_bound_session_id"
    else if metadata.any Row.metadataMalformed then .refused .conflict "metadata_malformed"
    else
      let tier := thinkingTier l run metadata
      if tier.any fun t => t ≠ .text l.expectedThinkingTier then
        .refused .conflict "thinking_tier_binding_mismatch"
      else match ended.findSome? (Row.terminalConflict l run) with
        | some code => .refused .conflict code
        | none => match terminalVerdict ended with
          | (some status, errorCode) => l.seen run tier result resultHash status errorCode
          | (none, _) => .refused .conflict "conflicting_terminal"

def observe (l : RunLookup) : FileView → RunObservation
  | .noSessionDir => .refused .unknown "session_dir_missing"
  | .missing => .missing
  | .session => { RunObservation.refused .running "" with
      sessionId := some l.sessionKey, errorCode := none }
  | .ioError => .refused .unknown "trajectory_io_error"
  | .torn => .refused .unknown "malformed_jsonl"
  | .rows rows result resultHash =>
    match rows.mapM (fun row => match row with | .obj fields => some fields | _ => none) with
    | none => .refused .unknown "malformed_row"
    | some rows => observeRows l rows result resultHash

/-! ### A trajectory of one's own -/

/-- A row that belongs to the run and agrees with everything that is expected of it. -/
def Row.Own (l : RunLookup) (run : PyStr) (row : Row) : Prop :=
  (row.hasType "session.started" = true → row.startConflict l = none ∧ row.runId = some run) ∧
  (row.hasType "session.ended" = true → row.terminalConflict l run = none) ∧
  (row.hasType "trace.metadata" = true → row.metadataMalformed = false ∧
    ∀ level ∈ row.thinkLevel run, level = .text l.expectedThinkingTier)

instance (l : RunLookup) (run : PyStr) (row : Row) : Decidable (row.Own l run) := by
  unfold Row.Own
  infer_instance

/-- The terminal rows, if there are any, say that the run has succeeded. -/
def Calm (rows : List Row) : Prop :=
  ∀ row ∈ rows, row.hasType "session.ended" = true → row.terminalStatus = .succeeded

instance (rows : List Row) : Decidable (Calm rows) := by
  unfold Calm
  infer_instance

/-- The rows show the tier, or the model implies it. -/
def TierShown (l : RunLookup) (run : PyStr) (rows : List Row) : Prop :=
  (∃ row ∈ rows, row.hasType "trace.metadata" = true ∧ (row.thinkLevel run).isSome = true) ∨
    (l.expectedProvider = "openai" ∧ l.expectedModel = "gpt-5.6-sol")

instance (l : RunLookup) (run : PyStr) (rows : List Row) : Decidable (TierShown l run rows) := by
  unfold TierShown
  infer_instance

/-- What is made of a run that is its own: nothing is known of it, or it is running, or it
has succeeded; and its tier is known exactly if it was shown. -/
inductive OwnSight (l : RunLookup) (run : PyStr) (rows : List Row) : RunObservation → Prop
  /-- Nothing is known: it has not started, or the tier its model implies is another. -/
  | unknown {o : RunObservation} (h : o.status = .unknown ∨ o.status = .conflict)
    (hidden : (∀ row ∈ rows, row.hasType "session.started" = false) ∨ TierShown l run rows) :
    OwnSight l run rows o
  | seen {o : RunObservation} (started : ∃ row ∈ rows, row.hasType "session.started" = true)
    (status : o.status = .running ∨ o.status = .succeeded)
    (session : o.sessionId = some l.sessionKey)
    (runId : o.runId = run.encode?) (provider : o.provider = some l.expectedProvider)
    (model : o.model = some l.expectedModel)
    (tier : o.thinkingTier = if TierShown l run rows then some l.expectedThinkingTier else none) :
    OwnSight l run rows o

section Own

variable {l : RunLookup} {run : PyStr} {rows : List Row} {result resultHash : Option Json}

theorem terminalVerdict_of_calm {ended : List Row}
    (h : ∀ row ∈ ended, row.terminalStatus = .succeeded) :
    ∃ status code, terminalVerdict ended = (some status, code) ∧
      (status = .running ∨ status = .succeeded) := by
  cases ended with
  | nil => exact ⟨.running, none, rfl, .inl rfl⟩
  | cons row rest =>
    have hrow := h row List.mem_cons_self
    have hrest : (rest.map Row.terminalStatus).all (· = .succeeded) = true := by
      simpa using fun r hr => h r (List.mem_cons_of_mem _ hr)
    refine ⟨.succeeded, (row :: rest).getLast?.bind Row.terminalErrorCode, ?_, .inr rfl⟩
    simp only [terminalVerdict, List.map_cons, hrow, hrest, if_true]

theorem isSome_thinkingTier : (thinkingTier l run
    (rows.filter (Row.hasType "trace.metadata"))).isSome = true ↔ TierShown l run rows := by
  simp only [thinkingTier, Option.isSome_or, Bool.or_eq_true, List.findSome?_isSome_iff,
    List.mem_filter, TierShown]
  refine or_congr ⟨?_, ?_⟩ ?_
  · rintro ⟨row, ⟨hrow, htype⟩, hlevel⟩
    exact ⟨row, hrow, htype, hlevel⟩
  · rintro ⟨row, hrow, htype, hlevel⟩
    exact ⟨row, ⟨hrow, htype⟩, hlevel⟩
  · split <;> simp_all

/-- **Observing a prefix** of a trajectory of one's own. -/
theorem ownSight_observeRows (hown : ∀ row ∈ rows, row.Own l run) (hcalm : Calm rows)
    (hbound : l.boundRunId.all (fun b => PyStr.ofString b = run) = true)
    (hsession : l.boundSessionId.all (· = l.sessionKey) = true) :
    OwnSight l run rows (observeRows l rows result resultHash) := by
  have hconflict : (rows.filter (Row.hasType "session.started")).findSome? (Row.startConflict l) =
      none := by
    rw [List.findSome?_eq_none_iff]
    intro row hrow
    obtain ⟨hrow, htype⟩ := List.mem_filter.mp hrow
    exact ((hown row hrow).1 htype).1
  have hruns : ∀ row ∈ rows.filter (Row.hasType "session.started"), row.runId = some run := by
    intro row hrow
    obtain ⟨hrow, htype⟩ := List.mem_filter.mp hrow
    exact ((hown row hrow).1 htype).2
  have hended : (rows.filter (Row.hasType "session.ended")).findSome? (Row.terminalConflict l run) =
      none := by
    rw [List.findSome?_eq_none_iff]
    intro row hrow
    obtain ⟨hrow, htype⟩ := List.mem_filter.mp hrow
    exact (hown row hrow).2.1 htype
  obtain ⟨status, code, hverdict, hstatus⟩ :=
    @terminalVerdict_of_calm (rows.filter (Row.hasType "session.ended")) fun row hrow =>
      hcalm row (List.mem_filter.mp hrow).1 (List.mem_filter.mp hrow).2
  unfold observeRows
  cases hstarted : rows.filter (Row.hasType "session.started") with
  | nil =>
    refine .unknown (.inl rfl) (.inl fun row hrow => ?_)
    by_contra htype
    have hmem : row ∈ rows.filter (Row.hasType "session.started") :=
      List.mem_filter.mpr ⟨hrow, by simpa using htype⟩
    simp [hstarted] at hmem
  | cons first rest =>
    rw [hstarted] at hconflict hruns
    have hfirst : first.runId = some run := hruns first List.mem_cons_self
    have hsame : (first :: rest).any (fun row => row.runId ≠ some run) = false := by
      simpa using hruns
    have hrun : l.boundRunId.any (fun bound => PyStr.ofString bound ≠ run) = false := by
      cases hb : l.boundRunId with
      | none => rfl
      | some b => simpa [hb] using hbound
    have hsess : l.boundSessionId.any (fun bound => l.sessionKey ≠ bound) = false := by
      cases hb : l.boundSessionId with
      | none => rfl
      | some b =>
        rw [hb] at hsession
        have heq : b = l.sessionKey := by simpa using hsession
        simp [heq]
    have hmeta : (rows.filter (Row.hasType "trace.metadata")).any
        Row.metadataMalformed = false := by
      rw [List.any_eq_false]
      intro row hrow
      obtain ⟨hrow, htype⟩ := List.mem_filter.mp hrow
      simp [((hown row hrow).2.2 htype).1]
    simp only [hconflict, hfirst, Option.getD_some, hsame, hrun, hsess, hmeta, Bool.false_eq_true,
      if_false, hended, hverdict]
    split
    · rename_i hother
      refine .unknown (.inr rfl) (.inr ((isSome_thinkingTier).mp ?_))
      obtain ⟨tier, htier, -⟩ := Option.any_eq_true .. |>.mp hother
      exact Option.isSome_of_eq_some htier
    · refine .seen ?_ ?_ rfl rfl rfl rfl ?_
      · have hmem : first ∈ rows.filter (Row.hasType "session.started") := by simp [hstarted]
        exact ⟨first, (List.mem_filter.mp hmem).1, (List.mem_filter.mp hmem).2⟩
      · exact hstatus
      · have hiff := @isSome_thinkingTier l run rows
        simp only [RunLookup.seen]
        split
        · rename_i hshown
          obtain ⟨tier, htier⟩ := Option.isSome_iff_exists.mp (hiff.mpr hshown)
          rw [htier, Option.map_some]
        · rename_i hshown
          have hnone : thinkingTier l run (rows.filter (Row.hasType "trace.metadata")) = none := by
            by_contra hsome
            exact hshown (hiff.mp (Option.isSome_iff_ne_none.mpr hsome))
          rw [hnone, Option.map_none]

end Own

/-! ### Passes over one dispatch -/

/-- What a pass sees of a growing trajectory. -/
inductive Glimpse
  | session
  /-- A line half written. -/
  | torn
  /-- So many rows, and the result the session file yields. -/
  | rows (count : ℕ) (result resultHash : Option Json)

def Glimpse.seenRows (file : List Row) : Glimpse → List Row
  | rows count _ _ => file.take count
  | session | torn => []

/-- What there is to read. -/
def Glimpse.view (file : List Row) : Glimpse → FileView
  | session => .session
  | torn => .torn
  | rows count result resultHash => .rows ((file.take count).map Json.obj) result resultHash

/-- How the core receives a result that is well formed. -/
inductive Reception
  | consumed | duplicate | rejected | raises

/-- A pass: what it sees when it decides and when it acts, and how it fares. -/
structure TrackPass where
  now : Time
  decision : Glimpse
  action : Glimpse
  crash : Option Bool
  taken : Bool
  reception : Reception

/-- What may happen to a dispatch that is followed. -/
inductive TrackEvent
  | pass (p : TrackPass)
  /-- Anything that does not touch the dispatch: the queue, the owner, other handlers. -/
  | elsewhere (facts : Snapshot)

/-- A dispatch that is followed, with everything a decision about it is based on, and the
decisions so far. -/
structure Tracked where
  facts : Snapshot
  dispatch : AgentDispatch
  decisions : List ReconcileAction

/-- What is done to a dispatch, and how the row of the journal is finished. -/
abbrev Work : Type := AgentDispatch × ActionStatus × Option String

/-- The work of `bind_spawn_result`. -/
def bindWork (d : AgentDispatch) (task : Task) (s : Core.SpawnResult) (taken : Bool) : Work :=
  if d.status ≠ .pending ∧ d.status ≠ .recoveryPending then (d, .failed, some "DispatchError")
  else if Core.spawnAllowed d task s = false then
    ({ d with status := .rejected }, .failed, some "RolePolicyViolation")
  else if taken then (d, .failed, some "DispatchError")
  else
    ({ d with
        status := .running
        childSessionId := some s.childSessionId
        openclawRunId := some s.openclawRunId
        actualProvider := s.actualProvider
        actualModel := s.actualModel
        thinkingTier := s.thinkingTier }, .succeeded, none)

/-- The work of `mark_agent_failed`. -/
def failWork (d : AgentDispatch) : Work :=
  if d.status = .running ∨ d.status = .recoveryPending then
    ({ d with status := .failed }, .succeeded, none)
  else (d, .failed, some "DispatchError")

/-- The work of `receive_agent_result` on an envelope: what is malformed rejects the
dispatch. -/
def receiveWork (d : AgentDispatch) (envelope : Row) (reception : Reception) : Work :=
  match Outputs.validateRoleOutput d.role (.obj envelope), reception with
  | .error (.error .outputValidationError _ _), _ =>
    ({ d with status := .rejected }, .failed, some "consume_rejected")
  | .error _, _ => (d, .running, none)
  | .ok (), .consumed => ({ d with status := .consumed }, .succeeded, none)
  | .ok (), .duplicate => (d, .succeeded, none)
  | .ok (), .rejected => (d, .failed, some "consume_rejected")
  | .ok (), .raises => (d, .failed, some "ArgentError")

/-- `obs.result or {}`. -/
def RunObservation.resultFields (o : RunObservation) : Row :=
  match o.result with
  | some (.obj fields) => fields
  | _ => []

/-- What the consumption of a result is keyed by: all of it for a write role, the envelope
for the others. -/
def canonicalResult (role : Role) (result : Row) : Json :=
  (Json.obj (if isWriteRole role then result else writeEnvelope role result)).sorted

namespace Tracked

variable (t : Tracked)

/-- The facts, with the dispatch as the active one. -/
def snapshot : Snapshot :=
  { t.facts with activeDispatch := if t.dispatch.status.active then some t.dispatch else none }

/-- The error a pass persists. -/
def stuck (errorCode : String) : Tracked :=
  { t with
    facts.job := JobRow.project
      { t.facts.job with
        status := .error, recoveryState := .persistentError, lastErrorCode := some errorCode } }

/-- Begin the row of a request, do the work, finish the row. -/
def journaled (p : TrackPass) (r : Request) (o : Opening) (work : Work) : Tracked :=
  match Journal.beginAction t.facts.actions o p.now with
  | none => t.stuck (o.actionType.value ++ "_args_hash_mismatch")
  | some (.succeeded, _, _) => t
  | some (.exhausted, _, _) =>
    if r.reportsExhausted then t.stuck (o.actionType.value ++ "_exhausted") else t
  | some (_, _, actions) => match p.crash with
    | some false => { t with facts.actions := actions }
    | some true => { t with facts.actions := actions, dispatch := work.1 }
    | none =>
      { t with
        facts.actions := Journal.finishAction actions o.actionKey work.2.1 work.2.2
        dispatch := work.1 }

/-- Begin the row of a request, if it has one. -/
def requested (p : TrackPass) (r : Request) (work : Work) : Tracked :=
  match r.opening with
  | none => t
  | some o => t.journaled p r o work

def performBindRun (p : TrackPass) (obs : RunObservation) : Tracked :=
  let d := t.dispatch
  match obs.status, obs.sessionId, obs.runId with
  | .running, some session, some run | .succeeded, some session, some run
  | .failed, some session, some run | .cancelled, some session, some run =>
    t.requested p (.bindRun t.facts.job.id d.id.text session run obs.provider obs.model
        obs.thinkingTier (roleSource .lead))
      (bindWork d t.facts.task ⟨session, run, obs.provider, obs.model, obs.thinkingTier⟩ p.taken)
  | _, _, _ => t

/-- `_perform_mark_run_failed`, which looks at the run for its error code only. -/
def performMarkRunFailed (p : TrackPass) (obs : RunObservation) : Tracked :=
  let d := t.dispatch
  t.requested p (.markRunFailed t.facts.job.id d.id.text (d.openclawRunId.getD "unknown")
    obs.errorCode (roleSource .lead)) (failWork d)

def performConsumeResult (p : TrackPass) (obs : RunObservation) : Tracked :=
  let d := t.dispatch
  if obs.status ≠ .succeeded then t
  else
    let result := obs.resultFields
    let envelope := writeEnvelope d.role result
    match Outputs.validateRoleOutput d.role (.obj envelope) with
    | .error (.error .outputValidationError _ _) =>
      t.requested p (.consumeResult t.facts.job.id d.id.text (d.openclawRunId.getD "unknown")
        (Json.obj envelope).sorted true)
        (d, .failed, some ApplyRejection.invalidEnvelope.text)
    | .error _ => t
    | .ok () =>
      let canonical := canonicalResult d.role result
      if isWriteRole d.role ∧ t.snapshot.frozenWriteResultHash d.id.text ≠ some canonical then t
      else
        t.requested p (.consumeResult t.facts.job.id d.id.text
          ((obs.runId.or d.openclawRunId).getD "") canonical false)
          (receiveWork d envelope p.reception)

def seen (file : List Row) (g : Glimpse) : RunObservation :=
  observe (buildLookup t.dispatch) (g.view file)

/-- What is decided. -/
def plan (file : List Row) (p : TrackPass) : Plan :=
  decide p.now t.snapshot (some (t.seen file p.decision))

def committed (plan : Plan) : Tracked :=
  { t with facts.job := t.facts.job.commit plan, decisions := t.decisions ++ [plan.action] }

/-- The decision is carried out. The handlers that do not write to the dispatch are given
as one function. -/
def perform (others : ReconcileAction → TrackPass → Snapshot → Snapshot) (p : TrackPass)
    (obs : RunObservation) : ReconcileAction → Tracked
  | .none | .wait => t
  | .bindRun => t.performBindRun p obs
  | .markRunFailed => t.performMarkRunFailed p obs
  | .consumeResult => t.performConsumeResult p obs
  | action => { t with facts := others action p t.facts }

/-- One pass, as long as the dispatch is active. -/
def pass (others : ReconcileAction → TrackPass → Snapshot → Snapshot) (file : List Row)
    (p : TrackPass) : Tracked :=
  if t.dispatch.status.active then
    (t.committed (t.plan file p)).perform others p (t.seen file p.action) (t.plan file p).action
  else t

/-- One event. -/
def step (others : ReconcileAction → TrackPass → Snapshot → Snapshot) (file : List Row)
    (t : Tracked) : TrackEvent → Tracked
  | .pass p => t.pass others file p
  | .elsewhere facts => { t with facts := facts }

end Tracked

/-! ### What a decision about an active dispatch can be -/

section Active

variable {now : Time} {s : Snapshot} {o : RunObservation} {ad : AgentDispatch}

/-- A decision about a dispatch that is active is idle, or that of the frontier. -/
theorem decide_of_active (hactive : s.activeDispatch = some ad) :
    (decide now s (some o)).action ∈ [.none, .wait, .closeDone, .closeFailed, .closeBlocked,
      .presentOwnerGate, .persistentError] ∨
    ∃ role, ad.role = role ∧
      ((unbound ad ∧ decide now s (some o) = decideUnbound now s role ad (some o)) ∨
        (unbound ad = false ∧ decide now s (some o) = decideBound now s role ad (some o))) := by
  rcases @decide_cases now s (some o) with ⟨-, hn, -⟩ | ⟨hclose, -⟩ | hgate |
    hexh | ⟨-, -, -, role, -, hfront⟩
  · simp [hn]
  · rcases hclose with hc | hc | hc <;> simp [hc]
  · rcases (decideGate_action hgate).1 with hg | hg | hg <;> simp [hg]
  · simp [hexh, Plan.error]
  · rw [hfront]
    simp only [decideAtFrontier, hactive]
    split
    · simp [Plan.error]
    · rename_i hfit
      have hrole : ad.role = role := by
        by_contra hne
        exact hfit (.inr (.inr hne))
      refine .inr ⟨role, hrole, ?_⟩
      cases hun : unbound ad with
      | true => exact .inl ⟨rfl, by simp⟩
      | false => exact .inr ⟨rfl, by simp⟩

theorem decide_ne_createDispatch (hactive : s.activeDispatch = some ad) :
    (decide now s (some o)).action ≠ .createDispatch := by
  rcases @decide_of_active now _ o _ hactive with h | ⟨role, -, ⟨-, h⟩ | ⟨-, h⟩⟩
  · intro hc
    simp [hc] at h
  · rw [h]
    rcases @decideUnbound_action now s (some o) role ad with
      hu | hu | hu | hu | ⟨hu, -⟩ <;> simp [hu]
  · rw [h]
    intro hc
    have hb := @decideBound_action now s (some o) role ad
    simp [hc] at hb

theorem bound_of_consumeResult (hactive : s.activeDispatch = some ad)
    (h : (decide now s (some o)).action = .consumeResult) : unbound ad = false := by
  rcases @decide_of_active now _ o _ hactive with hi | ⟨role, -, ⟨-, hd⟩ | ⟨hb, -⟩⟩
  · simp [h] at hi
  · rw [hd] at h
    rcases @decideUnbound_action now s (some o) role ad with
      hu | hu | hu | hu | ⟨hu, -⟩ <;> simp [hu] at h
  · exact hb

/-- A run that is running, or has succeeded, or of which nothing is known, is marked as
failed only if its result could not be consumed. -/
theorem exhausted_of_markRunFailed (hactive : s.activeDispatch = some ad)
    (ho : o.status = .running ∨ o.status = .succeeded ∨ o.status = .unknown ∨ o.status = .conflict)
    (h : (decide now s (some o)).action = .markRunFailed) :
    isWriteRole ad.role = false ∧ s.exhausted ad.id.text .consumeResult = true := by
  rcases @decide_of_active now _ o _ hactive with hi | ⟨role, rfl, ⟨-, hd⟩ | ⟨-, hd⟩⟩
  · simp [h] at hi
  · rw [hd] at h
    rcases @decideUnbound_action now s (some o) ad.role ad with hu | hu | hu | hu |
      ⟨hu, -⟩ <;> simp [hu] at h
  · rw [hd] at h
    have hunusable : (adapterBackoff now s ad o).action = .wait ∨
      (adapterBackoff now s ad o).action = .persistentError := unavailablePlan_action
    rcases ho with ho | ho | ho | ho
    · simp [decideBound, ho, poll] at h
    · cases hw : isWriteRole ad.role with
      | true =>
        have hwrite := @decideWritePreconditions_action now s o ad
        simp only [decideBound, ho, hw, if_true] at h
        simp [h] at hwrite
      | false =>
        refine ⟨rfl, ?_⟩
        by_contra hne
        simp [decideBound, ho, hw, hne, Plan.consuming] at h
    · simp only [decideBound, ho] at h
      rcases hunusable with hu | hu <;> simp [hu] at h
    · simp only [decideBound, ho] at h
      rcases hunusable with hu | hu <;> simp [hu] at h

end Active

/-! ### Following a dispatch -/

structure Waits (d : AgentDispatch) : Prop where
  status : d.status = .pending
  session : d.childSessionId = none
  run : d.openclawRunId = none
  identity : d.actualProvider = none ∧ d.actualModel = none ∧ d.thinkingTier = none

/-- The dispatch, bound to its run with the identity it expects. -/
def AgentDispatch.boundTo (d : AgentDispatch) (run : String) : AgentDispatch :=
  { d with
    status := .running
    childSessionId := some (buildLookup d).sessionKey
    openclawRunId := some run
    actualProvider := some d.expectedAgentClass
    actualModel := some d.expectedModelClass
    thinkingTier := some d.expectedThinkingTier }

/-- **What a dispatch may become**: it waits, or it is bound to its own run, or it has
been consumed as that; and no other was created meanwhile. -/
structure Follows (d : AgentDispatch) (run : String) (t : Tracked) : Prop where
  fate : t.dispatch = d ∨ t.dispatch = AgentDispatch.boundTo d run ∨
    t.dispatch = { AgentDispatch.boundTo d run with status := .consumed }
  single : ReconcileAction.createDispatch ∉ t.decisions

/-- The pass sees no run that has ended otherwise than well. -/
def EventCalm (file : List Row) (_ : Tracked) : TrackEvent → Prop
  | .pass p => Calm (p.decision.seenRows file) ∧ Calm (p.action.seenRows file)
  | .elsewhere _ => True

/-- The role policy allows the identity a dispatch expects, or a routing decision has
authorised it. -/
def Authorised (d : AgentDispatch) (task : Task) : Prop :=
  d.routingDecisionId.isSome = true ∨ validateModelChoice d.role (some d.expectedAgentClass)
    (some d.expectedModelClass) (some d.expectedThinkingTier) task.riskClass = true

/-- **When a pass is safe**: if it binds a dispatch that waits, and sees its run then, what it
sees shows the thinking tier; and the consumption of a result has not used up its attempts. -/
def EventShown (file : List Row) (run : String) (t : Tracked) : TrackEvent → Prop
  | .pass p =>
    ((t.plan file p).action = .bindRun → t.dispatch.status = .pending →
      Authorised t.dispatch t.facts.task →
      (∃ row ∈ p.action.seenRows file, row.hasType "session.started" = true) →
      TierShown (buildLookup t.dispatch) (PyStr.ofString run) (p.action.seenRows file)) ∧
    (t.dispatch.status = .pending → Authorised t.dispatch t.facts.task) ∧
    (isWriteRole t.dispatch.role = false →
      t.snapshot.exhausted t.dispatch.id.text .consumeResult = false)
  | .elsewhere _ => True

section Following

variable {file : List Row} {run : String} {t : Tracked} {d : AgentDispatch} {p : TrackPass}
  {others : ReconcileAction → TrackPass → Snapshot → Snapshot} {o : RunObservation} {work : Work}

/-- What is seen of the trajectory of one's own. -/
theorem ownSight_observe {g : Glimpse} {l : RunLookup}
    (hown : ∀ row ∈ file, row.Own l (PyStr.ofString run)) (hcalm : Calm (g.seenRows file))
    (hrun : l.boundRunId.all (· = run) = true) (hsession : l.boundSessionId.all
    (· = l.sessionKey) = true) :
    (g.seenRows file = [] ∧ (observe l (g.view file)).runId = none ∧
      ((observe l (g.view file)).status = .running ∨
        (observe l (g.view file)).status = .unknown)) ∨
    OwnSight l (PyStr.ofString run) (g.seenRows file) (observe l (g.view file)) := by
  cases g with
  | session => exact .inl ⟨rfl, rfl, .inl rfl⟩
  | torn => exact .inl ⟨rfl, rfl, .inr rfl⟩
  | rows count result resultHash =>
    right
    have hrows : ((file.take count).map Json.obj).mapM
        (fun row => match row with | .obj fields => some fields | _ => none) =
        some (file.take count) := by
      induction file.take count with
      | nil => rfl
      | cons row rows ih => simp [ih]
    have hprefix : (Glimpse.rows count result resultHash).seenRows file = file.take count := rfl
    simp only [Glimpse.view, observe, hrows, hprefix] at hcalm ⊢
    refine ownSight_observeRows (fun row hrow => hown row (List.mem_of_mem_take hrow)) hcalm ?_
      hsession
    cases hb : l.boundRunId with
    | none => rfl
    | some b =>
      rw [hb] at hrun
      have heq : b = run := by simpa using hrun
      simp [heq]

/-- A pass that begins a row leaves the dispatch as it is, or does its work on it. -/
theorem Tracked.dispatch_requested {r : Request} :
    ((t.requested p r work).dispatch = t.dispatch ∨ (t.requested p r work).dispatch = work.1) ∧
      (t.requested p r work).decisions = t.decisions := by
  unfold requested
  cases r.opening with
  | none => exact ⟨.inl rfl, rfl⟩
  | some o =>
    simp only [journaled]
    split
    · exact ⟨.inl rfl, rfl⟩
    · exact ⟨.inl rfl, rfl⟩
    · split
      · exact ⟨.inl rfl, rfl⟩
      · exact ⟨.inl rfl, rfl⟩
    · split
      · exact ⟨.inl rfl, rfl⟩
      · exact ⟨.inr rfl, rfl⟩
      · exact ⟨.inr rfl, rfl⟩

/-- Binding a dispatch to its own run, with the identity it expects. -/
theorem bindWork_own (hw : Waits d) {task : Task} (hauth : Authorised d task) {taken : Bool} :
    (bindWork d task ⟨(buildLookup d).sessionKey, run, some d.expectedAgentClass,
      some d.expectedModelClass, some d.expectedThinkingTier⟩ taken).1 = d ∨
    (bindWork d task ⟨(buildLookup d).sessionKey, run, some d.expectedAgentClass,
      some d.expectedModelClass, some d.expectedThinkingTier⟩ taken).1 =
        AgentDispatch.boundTo d run := by
  have hallowed : Core.spawnAllowed d task ⟨(buildLookup d).sessionKey, run,
      some d.expectedAgentClass, some d.expectedModelClass,
        some d.expectedThinkingTier⟩ = true := by
    rcases hauth with h | h <;> simp [Core.spawnAllowed, h]
  simp only [bindWork, hw.status, hallowed]
  cases taken with
  | true => exact .inl rfl
  | false => exact .inr rfl

theorem bindWork_of_running (h : d.status = .running) {task : Task} {s : Core.SpawnResult}
    {taken : Bool} : (bindWork d task s taken).1 = d := by
  simp [bindWork, h]

theorem receiveWork_of_valid {envelope : Row} {reception : Reception}
    (h : Outputs.validateRoleOutput d.role (.obj envelope) = .ok ()) :
    (receiveWork d envelope reception).1 = d ∨
      (receiveWork d envelope reception).1 = { d with status := .consumed } := by
  cases reception <;> simp [receiveWork, h]

/-- Consuming a result leaves the dispatch as it is, or consumed. -/
theorem Tracked.dispatch_consume :
    ((t.performConsumeResult p o).dispatch = t.dispatch ∨
      (t.performConsumeResult p o).dispatch = { t.dispatch with status := .consumed }) ∧
      (t.performConsumeResult p o).decisions = t.decisions := by
  simp only [performConsumeResult]
  split
  · exact ⟨.inl rfl, rfl⟩
  split
  · obtain ⟨hd, hdec⟩ := @dispatch_requested t p
      (t.dispatch, .failed, some ApplyRejection.invalidEnvelope.text)
      (.consumeResult t.facts.job.id t.dispatch.id.text (t.dispatch.openclawRunId.getD "unknown")
        (Json.obj (writeEnvelope t.dispatch.role o.resultFields)).sorted true)
    exact ⟨.inl (hd.elim id id), hdec⟩
  · exact ⟨.inl rfl, rfl⟩
  · rename_i hvalid
    split
    · exact ⟨.inl rfl, rfl⟩
    · obtain ⟨hd, hdec⟩ := @dispatch_requested t p
        (receiveWork t.dispatch (writeEnvelope t.dispatch.role o.resultFields) p.reception)
        (.consumeResult t.facts.job.id t.dispatch.id.text
          ((o.runId.or t.dispatch.openclawRunId).getD "")
          (canonicalResult t.dispatch.role o.resultFields) false)
      refine ⟨?_, hdec⟩
      rcases hd with hd | hd
      · exact .inl hd
      · rw [hd]
        exact receiveWork_of_valid hvalid

theorem buildLookup_boundTo (hw : Waits d) : buildLookup (AgentDispatch.boundTo d run) =
    { buildLookup d with
      boundSessionId := some (buildLookup d).sessionKey, boundRunId := some run } := by
  obtain ⟨hprov, hmodel, htier⟩ := hw.identity
  simp [buildLookup, AgentDispatch.boundTo, hprov, hmodel, htier]

theorem Row.own_boundTo (hw : Waits d) {row : Row} :
    row.Own (buildLookup (AgentDispatch.boundTo d run)) (PyStr.ofString run) ↔
      row.Own (buildLookup d) (PyStr.ofString run) := by
  rw [buildLookup_boundTo hw]
  exact Iff.rfl

/-- What a pass sees of a dispatch that waits, or is bound. -/
theorem ownSight_seen (hw : Waits d) (hown : ∀ row ∈ file,
    row.Own (buildLookup d) (PyStr.ofString run))
    (hstate : t.dispatch = d ∨ t.dispatch = AgentDispatch.boundTo d run) {g : Glimpse}
    (hcalm : Calm (g.seenRows file)) :
    (g.seenRows file = [] ∧ (t.seen file g).runId = none ∧ ((t.seen file g).status = .running ∨
      (t.seen file g).status = .unknown)) ∨
    OwnSight (buildLookup t.dispatch) (PyStr.ofString run) (g.seenRows file) (t.seen file g) := by
  rcases hstate with hd | hd
  · rw [Tracked.seen, hd]
    exact ownSight_observe hown hcalm (by simp [buildLookup, hw.run])
      (by simp [buildLookup, hw.session])
  · rw [Tracked.seen, hd]
    exact ownSight_observe (fun row hrow => (Row.own_boundTo hw).mpr (hown row hrow)) hcalm
      (by simp [buildLookup_boundTo hw]) (by simp [buildLookup_boundTo hw, RunLookup.sessionKey])

/-- Binding a dispatch that waits, from what was seen of its own run. -/
theorem Tracked.dispatch_bind (hw : Waits d) (ht : t.dispatch = d)
    (hauth : Authorised d t.facts.task) {rows : List Row}
    (hsight : OwnSight (buildLookup d) (PyStr.ofString run) rows o)
    (hshown : (∃ row ∈ rows, row.hasType "session.started" = true) →
      TierShown (buildLookup d) (PyStr.ofString run) rows) :
    ((t.performBindRun p o).dispatch = d ∨
      (t.performBindRun p o).dispatch = AgentDispatch.boundTo d run) ∧
      (t.performBindRun p o).decisions = t.decisions := by
  obtain ⟨hprov, hmodel, htier⟩ := hw.identity
  cases hsight with
  | unknown hs =>
    rcases hs with hs | hs <;>
      exact ⟨.inl (by simp [performBindRun, hs, ht]), by simp [performBindRun, hs]⟩
  | seen hstarted hs hsession hrunId hprovider hmodel' htier' =>
    rw [if_pos (hshown hstarted)] at htier'
    rw [PyStr.encode?_ofString] at hrunId
    have hperform : t.performBindRun p o = t.requested p
        (.bindRun t.facts.job.id d.id.text (buildLookup d).sessionKey run o.provider o.model
          o.thinkingTier (roleSource .lead))
        (bindWork d t.facts.task ⟨(buildLookup d).sessionKey, run, some d.expectedAgentClass,
          some d.expectedModelClass, some d.expectedThinkingTier⟩ p.taken) := by
      rcases hs with hs | hs <;>
        simp [performBindRun, hs, hsession, hrunId, ht, hprovider, hmodel', htier', buildLookup,
          hprov, hmodel, htier]
    obtain ⟨hd, hdec⟩ := @dispatch_requested t p
      (bindWork d t.facts.task ⟨(buildLookup d).sessionKey, run, some d.expectedAgentClass,
        some d.expectedModelClass, some d.expectedThinkingTier⟩ p.taken)
      (.bindRun t.facts.job.id d.id.text (buildLookup d).sessionKey run o.provider o.model
        o.thinkingTier (roleSource .lead))
    rw [hperform]
    refine ⟨?_, hdec⟩
    rcases hd with hd | hd
    · exact .inl (hd.trans ht)
    · rw [hd]
      exact bindWork_own hw hauth

theorem Tracked.dispatch_bind_of_running (h : t.dispatch.status = .running) :
    (t.performBindRun p o).dispatch = t.dispatch ∧
    (t.performBindRun p o).decisions = t.decisions := by
  simp only [performBindRun]
  split
  case h_5 => exact ⟨rfl, rfl⟩
  all_goals
    refine ⟨?_, dispatch_requested.2⟩
    rcases dispatch_requested.1 with hd | hd
    · exact hd
    · exact hd.trans (bindWork_of_running h)

/-- **One pass** over a dispatch that follows its run. -/
theorem Follows.pass (hw : Waits d) (hown : ∀ row ∈ file,
    row.Own (buildLookup d) (PyStr.ofString run))
    (h : Follows d run t) (hcalm : EventCalm file t (.pass p))
    (hshown : EventShown file run t (.pass p)) : Follows d run (t.pass others file p) := by
  unfold Tracked.pass
  split
  swap
  · exact h
  rename_i hactive
  -- A consumed dispatch is no longer active: it waits, or is bound.
  have hstate : t.dispatch = d ∨ t.dispatch = AgentDispatch.boundTo d run := by
    rcases h.fate with hf | hf | hf
    · exact .inl hf
    · exact .inr hf
    · rw [hf] at hactive
      cases hactive
  have hactive' : t.snapshot.activeDispatch = some t.dispatch := by simp [Tracked.snapshot, hactive]
  obtain ⟨hcalm₁, hcalm₂⟩ := hcalm
  obtain ⟨htier, hauth, hleft⟩ := hshown
  have hfirst := ownSight_seen hw hown hstate hcalm₁
  have hsecond := ownSight_seen hw hown hstate hcalm₂
  -- What the decision adds is never another attempt.
  have hsingle : ReconcileAction.createDispatch ∉ (t.committed (t.plan file p)).decisions := by
    simp only [Tracked.committed, List.mem_append, List.mem_singleton, not_or]
    exact ⟨h.single, fun hc => decide_ne_createDispatch hactive' hc.symm⟩
  cases haction : (t.plan file p).action with
  | bindRun =>
    rcases hstate with hd | hd
    · have hpending : t.dispatch.status = .pending := hd ▸ hw.status
      have hwork : ((t.committed (t.plan file p)).performBindRun p
          (t.seen file p.action)).dispatch = d ∨
          ((t.committed (t.plan file p)).performBindRun p (t.seen file p.action)).dispatch =
            AgentDispatch.boundTo d run := by
        rcases hsecond with ⟨-, hnone, -⟩ | hsight
        · left
          simp [Tracked.performBindRun, hnone, Tracked.committed, hd]
        · rw [hd] at hsight hauth htier
          exact (Tracked.dispatch_bind (t := t.committed (t.plan file p)) hw hd
            (hauth (hd ▸ hpending)) hsight
            (htier haction (hd ▸ hpending) (hauth (hd ▸ hpending)))).1
      have hdec : ((t.committed (t.plan file p)).performBindRun p
          (t.seen file p.action)).decisions =
          (t.committed (t.plan file p)).decisions := by
        simp only [Tracked.performBindRun]
        split <;> first | exact (Tracked.dispatch_requested).2 | rfl
      refine ⟨hwork.imp_right .inl, ?_⟩
      rw [Tracked.perform, hdec]
      exact hsingle
    · have hrunning : (t.committed (t.plan file p)).dispatch.status = .running := by
        rw [show (t.committed (t.plan file p)).dispatch = t.dispatch from rfl, hd]
        rfl
      obtain ⟨hsame, hdec⟩ := Tracked.dispatch_bind_of_running (p := p)
        (o := t.seen file p.action) hrunning
      refine ⟨?_, ?_⟩
      · rw [Tracked.perform, hsame]
        exact h.fate
      · rw [Tracked.perform, hdec]
        exact hsingle
  | markRunFailed =>
    -- Only a result that could not be consumed would lead here.
    have hstatus : (t.seen file p.decision).status = .running ∨
        (t.seen file p.decision).status = .succeeded ∨
        (t.seen file p.decision).status = .unknown ∨
        (t.seen file p.decision).status = .conflict := by
      rcases hfirst with ⟨-, -, hs | hs⟩ | hs
      · exact .inl hs
      · exact .inr (.inr (.inl hs))
      · cases hs with
        | unknown hs => exact .inr (.inr hs)
        | seen _ hs => exact hs.imp_right .inl
    obtain ⟨hrole, hexh⟩ := exhausted_of_markRunFailed hactive' hstatus haction
    rw [hleft hrole] at hexh
    cases hexh
  | consumeResult =>
    have hbound := bound_of_consumeResult hactive' haction
    obtain ⟨hd, hdec⟩ := Tracked.dispatch_consume (p := p) (o := t.seen file p.action)
      (t := t.committed (t.plan file p))
    refine ⟨?_, ?_⟩
    · rcases hd with hd | hd
      · rw [Tracked.perform, hd]
        exact h.fate
      · rcases hstate with hs | hs
        · rw [hs] at hbound
          simp [unbound, hw.status] at hbound
        · refine .inr (.inr ?_)
          rw [Tracked.perform, hd]
          exact congrArg (fun d : AgentDispatch => { d with status := .consumed }) hs
    · rw [Tracked.perform, hdec]
      exact hsingle
  | _ => exact ⟨h.fate, hsingle⟩

end Following

/-- Binding from a prefix that does not show the tier: the dispatch is rejected. -/
theorem dispatch_bind_unshown {d : AgentDispatch} {run : String} {t : Tracked} {p : TrackPass}
    {o : RunObservation} {rows : List Row} (hw : Waits d) (ht : t.dispatch = d)
    (hsight : OwnSight (buildLookup d) (PyStr.ofString run) rows o)
    (hstarted : ∃ row ∈ rows, row.hasType "session.started" = true)
    (hshown : ¬TierShown (buildLookup d) (PyStr.ofString run) rows)
    (hrow : Journal.find t.facts.actions (.bind d.id.text run) = none)
    (hcrash : p.crash ≠ some false) :
    (t.performBindRun p o).dispatch.status = .rejected := by
  cases hsight with
  | unknown _ hidden =>
    obtain ⟨row, hrow, htype⟩ := hstarted
    rcases hidden with hidden | hidden
    · rw [hidden row hrow] at htype
      cases htype
    · exact absurd hidden hshown
  | seen _ hs hsession hrunId hprovider hmodel htier =>
    rw [if_neg hshown] at htier
    rw [PyStr.encode?_ofString] at hrunId
    have hperform : t.performBindRun p o = t.requested p
        (.bindRun t.facts.job.id d.id.text (buildLookup d).sessionKey run o.provider o.model none
          (roleSource .lead))
        (bindWork d t.facts.task ⟨(buildLookup d).sessionKey, run, o.provider, o.model, none⟩
          p.taken) := by
      rcases hs with hs | hs <;>
        simp [Tracked.performBindRun, hs, hsession, hrunId, ht, htier]
    have hwork : (bindWork d t.facts.task
        ⟨(buildLookup d).sessionKey, run, o.provider, o.model, none⟩ p.taken).1.status =
          .rejected := by
      simp [bindWork, hw.status, Core.spawnAllowed]
    rw [hperform]
    have hbegin : ∃ a js, Journal.beginAction t.facts.actions
        { actionKey := .bind d.id.text run, actionType := .bindRun, jobId := t.facts.job.id,
          dispatchId := some d.id.text, argsHash := .dict [("dispatch_id", .text d.id.text),
            ("child_session_id", .text (buildLookup d).sessionKey), ("openclaw_run_id", .text run),
            ("actual_provider", .optText o.provider), ("actual_model", .optText o.model),
            ("thinking_tier", .optText none), ("source", .text (roleSource .lead))] } p.now =
        some (.new, a, js) := by
      simp [Journal.beginAction, hrow]
    obtain ⟨a, js, hbegin⟩ := hbegin
    simp only [Tracked.requested, Request.opening, Tracked.journaled, hbegin]
    cases hc : p.crash with
    | none => exact hwork
    | some late =>
      cases late with
      | false => exact absurd hc hcrash
      | true => exact hwork

/-- **A growing trajectory and its dispatch.** Of a trajectory whose rows are all those of
the run a dispatch expects, passes see prefixes, one when they decide and one when they
act, before the run has ended otherwise than well. In every run in which each of them is
safe, the dispatch waits, or is bound to its own session and run, and no other attempt is
created. A pass that binds the dispatch from a prefix that does not show its thinking
tier, on the other hand, has it rejected. -/
theorem trajectory_keeps_dispatch
    (others : ReconcileAction → TrackPass → Snapshot → Snapshot) (file : List Row)
    (facts : Snapshot)
    (d : AgentDispatch) (run : String) (hw : Waits d)
    (hown : ∀ row ∈ file, row.Own (buildLookup d) (PyStr.ofString run)) :
    (∀ events, Runs.Along (Tracked.step others file) (EventCalm file) ⟨facts, d, []⟩ events →
      Runs.Along (Tracked.step others file) (EventShown file run) ⟨facts, d, []⟩ events →
      Follows d run (Runs.run (Tracked.step others file) ⟨facts, d, []⟩ events)) ∧
    ∀ (t : Tracked) (p : TrackPass), t.dispatch = d → Calm (p.action.seenRows file) →
      (t.plan file p).action = .bindRun →
      (∃ row ∈ p.action.seenRows file, row.hasType "session.started" = true) →
      ¬TierShown (buildLookup d) (PyStr.ofString run) (p.action.seenRows file) →
      Journal.find t.facts.actions (.bind d.id.text run) = none → p.crash ≠ some false →
      (t.step others file (.pass p)).dispatch.status = .rejected := by
  constructor
  · intro events hcalm hshown
    have hboth : Runs.Along (Tracked.step others file)
        (fun t e => EventCalm file t e ∧ EventShown file run t e) ⟨facts, d, []⟩ events := by
      clear hw hown
      generalize (⟨facts, d, []⟩ : Tracked) = t at hcalm hshown
      induction events generalizing t with
      | nil => trivial
      | cons e events ih => exact ⟨⟨hcalm.1, hshown.1⟩, ih _ hcalm.2 hshown.2⟩
    refine Runs.run_inv (fun t e ht he => ?_) (I := Follows d run) ⟨.inl rfl, by simp⟩ hboth
    cases e with
    | pass p => exact ht.pass hw hown he.1 he.2
    | elsewhere facts => exact ⟨ht.fate, ht.single⟩
  · intro t p ht hcalm haction hstarted hshown hrow hcrash
    have hactive : t.dispatch.status.active = true := by rw [ht, hw.status]; rfl
    have hpass : t.step others file (.pass p) =
        (t.committed (t.plan file p)).performBindRun p (t.seen file p.action) := by
      simp only [Tracked.step, Tracked.pass, hactive, if_true, haction, Tracked.perform]
    rw [hpass]
    rcases ownSight_seen hw hown (.inl ht) hcalm with ⟨hnil, -⟩ | hsight
    · rw [hnil] at hstarted
      simp at hstarted
    · rw [ht] at hsight
      exact dispatch_bind_unshown hw ht hsight hstarted hshown hrow hcrash

/-! ### A run -/

/-- An analyst (dispatch 22) waits to be bound; its task is in progress. -/
def analystDesk : SupervisorDb :=
  .claimed (Core.run .lenient Core.ticking
    (Core.begun ++ Core.dispatchTo .lead 0 1 .standard 6 ++
      [Core.handIn .lead 6 (Core.decided "accept")] ++
      (Core.dispatchTo .analyst 1 1 .standard 22).take 2)).db (Core.num 1)

/-- The run of its dispatch, before anything was observed. -/
def analystTracked : Option Tracked := do
  let facts ← analystDesk.snapshot
  let dispatch ← facts.activeDispatch
  some ⟨facts, dispatch, []⟩

/-- The rows of a run: the start, the metadata and the end. -/
def wholeFile (l : RunLookup) : List Row :=
  let row (type : String) (data : List (String × Json)) : Row :=
    match Json.dict [("type", .text type), ("runId", .text "run-1"),
      ("sessionId", .text l.expectedSessionLabel), ("sessionKey", .text l.sessionKey),
      ("provider", .text l.expectedProvider), ("modelId", .text l.expectedModel),
      ("data", .dict (("agentId", .text l.agentId) :: data))] with
    | .obj fields => fields
    | _ => []
  [row "session.started" [],
    row "trace.metadata" [("model", .dict [("thinkLevel", .text l.expectedThinkingTier)])],
    row "session.ended" [("status", .text "success")]]

/-- A pass that sees so many rows, both times. -/
def seesRows (count : ℕ) : TrackPass where
  now := 0
  decision := .rows count none none
  action := .rows count none none
  crash := none
  taken := false
  reception := .consumed

/-- The first pass sees the start of the run and nothing more. The dispatch is rejected,
the agent goes on, and the next decision is to create another attempt. -/
theorem first_row_rejects : analystTracked.any (fun t =>
    let file := wholeFile (buildLookup t.dispatch)
    let t' := t.step (fun _ _ s => s) file (.pass (seesRows 1))
    (∀ row ∈ file, row.Own (buildLookup t.dispatch) (PyStr.ofString "run-1")) ∧
    Calm ((seesRows 1).action.seenRows file) ∧ t'.decisions = [.bindRun] ∧
    t'.dispatch.status = .rejected ∧
    (decide 0 { t'.snapshot with dispatchAtFrontier := some t'.dispatch } none).action =
      .createDispatch) = true := by
  decide +kernel

/-- With the second row in sight, it is bound to its run. -/
theorem trajectory_keeps_dispatch_analyst : ∃ t ∈ analystTracked,
    Follows t.dispatch "run-1" (Runs.run
        (Tracked.step (fun _ _ s => s) (wholeFile (buildLookup t.dispatch)))
          t [.pass (seesRows 2)]) ∧
      (t.step (fun _ _ s => s) (wholeFile (buildLookup t.dispatch))
        (.pass (seesRows 1))).dispatch.status = .rejected := by
  have hfacts : analystTracked.any (fun t =>
      let d := t.dispatch
      let l := buildLookup d
      let file := wholeFile l
      let run := PyStr.ofString "run-1"
      (t.decisions = [] ∧ d.status = .pending ∧ d.childSessionId = none ∧ d.openclawRunId = none ∧
        d.actualProvider = none ∧ d.actualModel = none ∧ d.thinkingTier = none) ∧
      (∀ row ∈ file, row.Own l run) ∧ Calm ((seesRows 2).action.seenRows file) ∧
      Calm ((seesRows 1).action.seenRows file) ∧ TierShown l run
        ((seesRows 2).action.seenRows file) ∧
      ¬TierShown l run ((seesRows 1).action.seenRows file) ∧
      (∃ row ∈ (seesRows 1).action.seenRows file, row.hasType "session.started" = true) ∧
      validateModelChoice d.role (some d.expectedAgentClass) (some d.expectedModelClass)
        (some d.expectedThinkingTier) t.facts.task.riskClass = true ∧
      t.snapshot.exhausted d.id.text .consumeResult = false ∧
      (t.plan file (seesRows 1)).action = .bindRun ∧
      Journal.find t.facts.actions (.bind d.id.text "run-1") = none) = true := by
    decide +kernel
  obtain ⟨⟨facts, d, decisions⟩, ht, hall⟩ := Option.any_eq_true .. |>.mp hfacts
  obtain ⟨⟨hnil, hpending, hsession, hrun, hidentity⟩, hown, hcalm₂, hcalm₁, htier, hhidden,
    hstarted, hauth, hleft, hplan, hrow⟩ := of_decide_eq_true hall
  obtain rfl : decisions = [] := hnil
  have hboth := trajectory_keeps_dispatch (fun _ _ s => s) (wholeFile (buildLookup d))
    facts d "run-1"
    ⟨hpending, hsession, hrun, hidentity⟩ hown
  have hevent : EventShown (wholeFile (buildLookup d)) "run-1" ⟨facts, d,
      []⟩ (.pass (seesRows 2)) :=
    ⟨fun _ _ _ _ => htier, fun _ => .inr hauth, fun _ => hleft⟩
  exact ⟨⟨facts, d, []⟩, ht, hboth.1 [.pass (seesRows 2)] ⟨⟨hcalm₂, hcalm₂⟩, trivial⟩
    ⟨hevent, trivial⟩, hboth.2 ⟨facts, d, []⟩ (seesRows 1) rfl hcalm₁ hplan hstarted hhidden hrow
      nofun⟩

end Supervisor

end ArgentTeam
