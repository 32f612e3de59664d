import ArgentTeam.Lib.Runs
import ArgentTeam.Core.Gate
import ArgentTeam.Core.Receive
import ArgentTeam.Core.Recover

/-!
# Runs of the core

The commands of the core as a datatype, and the world a command leaves behind, however
it ends. A run of the core is a list of commands with arbitrary arguments, started on
an empty database; the clock it reads and the identifiers it draws are whatever the
world brings along.
-/

namespace ArgentTeam

open Prog Store

namespace Core

/-- The commands of the core, with their arguments. -/
inductive Command
  | createProject (name source : String) (key : Option String)
  | createTask (projectId title source : String) (key description : Option String)
    (risk : RiskClass) (policy : ExternalActionsPolicy)
  | transition (taskId : String) (toState : TaskState) (source : String) (key : Option String)
  | resume (taskId source : String) (key : Option String)
  | startRole (taskId : String) (role : Role) (source : String) (key : Option String)
  | completeRole (roleRunId source : String) (key : Option String)
  | failRole (roleRunId source : String) (detail key : Option String)
  | startTaskRun (taskId source : String) (key : Option String)
  | completeTaskRun (taskRunId source : String) (key : Option String)
  | failTaskRun (taskRunId source : String) (key : Option String)
  | requestAction (taskId action scope : String) (actorRole : Role) (source : String)
    (key : Option String)
  | approve (approvalId source taskId action scope : String) (key : Option String)
  | reject (approvalId source taskId action scope : String) (key : Option String)
  | executeApproved (approvalId source taskId action scope : String) (key : Option String)
  | addFinding (taskId severity description source : String) (key : Option String)
  | resolveFinding (findingId source : String) (key : Option String)
  | recordTestRun (taskId : String) (result : TestResult) (source : String)
    (detail key : Option String)
  | recordReview (taskId verdict source : String) (detail : Option (String × JsonText))
    (key : Option String)
  | recordDecision (taskId decision source : String) (detail : Option (String × JsonText))
    (key : Option String)
  | createDispatch (taskId taskRunId : String) (role : Role) (position cycleNo : ℕ)
    (kind : SequenceKind) (choice : Option ModelChoice) (source : String)
    (parent key : Option String) (routing : Option RoutingRecord)
  | bindSpawnResult (dispatchId : String) (spawn : SpawnResult) (source : String)
    (key : Option String)
  | receiveAgentResult (dispatchId : String) (eventMeta result : Json) (source : String)
    (key : Option String)
  | markAgentFailed (dispatchId reason source : String) (key errorClass errorCode : Option String)
  | recover (source : String) (key : Option String)

/-- The world a command leaves behind. -/
def step (cfg : Config) (w : World) : Command → World
  | .createProject name source key => (createProject name source key w).2
  | .createTask projectId title source key description risk policy =>
    (createTask projectId title source key description risk policy w).2
  | .transition taskId toState source key => (transition taskId toState source key w).2
  | .resume taskId source key => (resume taskId source key w).2
  | .startRole taskId role source key => (startRole taskId role source key w).2
  | .completeRole roleRunId source key => (completeRole roleRunId source key w).2
  | .failRole roleRunId source detail key => (failRole roleRunId source detail key w).2
  | .startTaskRun taskId source key => (startTaskRun taskId source key w).2
  | .completeTaskRun taskRunId source key => (completeTaskRun taskRunId source key w).2
  | .failTaskRun taskRunId source key => (failTaskRun taskRunId source key w).2
  | .requestAction taskId action scope actorRole source key =>
    (requestAction taskId action scope actorRole source key w).2
  | .approve approvalId source taskId action scope key =>
    (approve approvalId source taskId action scope key w).2
  | .reject approvalId source taskId action scope key =>
    (reject approvalId source taskId action scope key w).2
  | .executeApproved approvalId source taskId action scope key =>
    (executeApproved approvalId source taskId action scope key w).2
  | .addFinding taskId severity description source key =>
    (addFinding taskId severity description source key w).2
  | .resolveFinding findingId source key => (resolveFinding findingId source key w).2
  | .recordTestRun taskId result source detail key =>
    (recordTestRun taskId result source detail key w).2
  | .recordReview taskId verdict source detail key =>
    (recordReview taskId verdict source detail key w).2
  | .recordDecision taskId decision source detail key =>
    (recordDecision taskId decision source detail key w).2
  | .createDispatch taskId taskRunId role position cycleNo kind choice source parent key routing =>
    (createDispatch cfg taskId taskRunId role position cycleNo kind choice source parent key
      routing w).2
  | .bindSpawnResult dispatchId spawn source key =>
    (bindSpawnResult dispatchId spawn source key w).2
  | .receiveAgentResult dispatchId eventMeta result source key =>
    (receiveAgentResult cfg dispatchId eventMeta result source key w).2
  | .markAgentFailed dispatchId reason source key errorClass errorCode =>
    (markAgentFailed dispatchId reason source key errorClass errorCode w).2
  | .recover source key => (recover source key w).2

def run (cfg : Config) : World → List Command → World := Runs.run (step cfg)

/-- A world whose database is empty. -/
def Fresh (w : World) : Prop := w.db = Db.empty

/-- A run whose steps all meet a condition. -/
def Along (cfg : Config) (ok : World → Command → Prop) : World → List Command → Prop :=
  Runs.Along (step cfg) ok

instance (cfg : Config) (ok : World → Command → Prop) [∀ w c, Decidable (ok w c)] (w : World)
    (cs : List Command) : Decidable (Along cfg ok w cs) :=
  inferInstanceAs (Decidable (Runs.Along (step cfg) ok w cs))

/-! ### How concrete runs begin -/

/-- The text of a numbered identifier. -/
def num (n : ℕ) : String := (Uuid.numbered n).text

/-- A project (0), a task (1), a task run (3) and a run of the lead (4). -/
def opening : List Command :=
  [.createProject "project" ownerSource none,
    .createTask (num 0) "task" ownerSource none none .normal .allowedWithGate,
    .startTaskRun (num 1) (roleSource .lead) none,
    .startRole (num 1) .lead (roleSource .lead) none]

/-- What the lead's model reports when it is spawned. -/
def leadSpawn (session run : String) : SpawnResult :=
  ⟨session, run, some "openai", some "gpt-5.6-sol", some "high"⟩

/-- A project (0), a task (1) and a task run (3). -/
def begun : List Command :=
  [.createProject "project" ownerSource none,
    .createTask (num 0) "task" ownerSource none none .normal .allowedWithGate,
    .startTaskRun (num 1) (roleSource .lead) none]

/-- What the model of a role reports when it is spawned. -/
def spawnFor (role : Role) (name : String) : SpawnResult :=
  let (provider, model, thinking) := resolveModel role .normal
  ⟨name, name, some provider, some model, some thinking⟩

/-- Start a role and dispatch it; the session is named after the dispatch. -/
def dispatchTo (role : Role) (position cycle : ℕ) (kind : SequenceKind) (dispatch : ℕ) :
    List Command :=
  [.startRole (num 1) role (roleSource .lead) none,
    .createDispatch (num 1) (num 3) role position cycle kind none (roleSource .lead) none none
      none,
    .bindSpawnResult (num dispatch) (spawnFor role (num dispatch)) (roleSource .lead) none]

/-- The event of a session that has completed. -/
def completed (dispatch : ℕ) : Json :=
  .dict [("task_id", .text (num 1)), ("child_session_id", .text (num dispatch)),
    ("run_id", .text (num dispatch)), ("parent_dispatch_id", .null), ("event_type", .text "end"),
    ("status", .text "completed")]

/-- The fields of a result with nothing to say but what the role has to. -/
def outputFields (role : Role) (dispatch : ℕ) (fields : List (String × Json)) :
    List (String × Json) :=
  [("role", .text role.value), ("task_id", .text (num 1)),
    ("dispatch_id", .text (num dispatch)), ("status", .text "ok"), ("findings", .arr []),
    ("own_assessment", .text ""), ("concerns", .arr []), ("proposal", .text ""),
    ("alternatives", .arr []), ("confidence", .int 1), ("blockers", .arr []),
    ("requested_next_state", .text "")] ++ fields

/-- Such a result. -/
def outputOf (role : Role) (dispatch : ℕ) (fields : List (String × Json)) : Json :=
  .dict (outputFields role dispatch fields)

/-- The fields of a lead's decision. -/
def decided (decision : String) : List (String × Json) :=
  [("decision", .text decision), ("accepted_findings", .arr []), ("rejected_findings", .arr []),
    ("rationale", .text "")]

def analysed : List (String × Json) :=
  [("reproduction", .text ""), ("root_cause", .text ""), ("evidence_refs", .arr [])]

def implemented : List (String × Json) :=
  [("changed_files", .arr []), ("implementation_summary", .text ""), ("tests_run", .arr [])]

/-- The fields of a report on one test. -/
def tested (test : String) : List (String × Json) :=
  [("tests", .arr [.text test]), ("failures", .arr []), ("regressions", .arr []),
    ("coverage_concerns", .arr [])]

def handIn (role : Role) (dispatch : ℕ) (fields : List (String × Json)) : Command :=
  .receiveAgentResult (num dispatch) (completed dispatch) (outputOf role dispatch fields)
    (roleSource .lead) none

/-- The standard sequence up to QA, who is at work on its dispatch (66). -/
def qaAtWork : List Command :=
  begun ++ dispatchTo .lead 0 1 .standard 6 ++ [handIn .lead 6 (decided "accept")] ++
    dispatchTo .analyst 1 1 .standard 22 ++ [handIn .analyst 22 analysed] ++
    dispatchTo .lead 2 1 .standard 36 ++ [handIn .lead 36 (decided "accept")] ++
    dispatchTo .implementer 3 1 .standard 52 ++ [handIn .implementer 52 implemented] ++
    dispatchTo .qa 4 1 .standard 66

/-- A project (0), a task (1) and a run of the lead (3), but no task run. -/
def leadAtWork : List Command :=
  [.createProject "project" ownerSource none,
    .createTask (num 0) "task" ownerSource none none .normal .allowedWithGate,
    .startRole (num 1) .lead (roleSource .lead) none]

def askForDeploy : Command :=
  .requestAction (num 1) "deploy_production" "prod" .lead (roleSource .lead) none

/-- An owner's decision about an approval of that deployment. -/
def forDeploy (decision : String → String → String → String → String → Option String → Command)
    (approval : ℕ) : Command :=
  decision (num approval) ownerSource (num 1) "deploy_production" "prod" none

/-- A world whose clock advances with every reading. -/
def ticking : World := World.initial OrderHom.id

/-- A world whose clock stands still for some readings and is an hour ahead ever after. -/
def idle (readings : ℕ) : World :=
  World.initial ⟨fun n => if readings ≤ n then 3600000000 else 0, fun a b h => by
    by_cases ha : readings ≤ a
    · simp [ha, ha.trans h]
    · simp [ha]⟩

end Core

end ArgentTeam
