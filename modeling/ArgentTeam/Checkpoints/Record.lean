import ArgentTeam.Context.Pack
import ArgentTeam.Lib.Except
import ArgentTeam.Lib.JsonSize

/-!
# Checkpoint records

What a checkpoint records of a job, the hash that is taken of it, the checks it has to pass, and
how a record is rebuilt with the number it is given by the store. A record that cannot be stored is
refused before anything is written; the errors are those of `checkpoint.py` and of the gate in
front of the table.
-/

namespace ArgentTeam

namespace Checkpoints

open Context (Sha256 validHex validId)

/-! ### Limits -/

def checkpointVersion : PyStr := PyStr.ofString "1"

def maxCheckpointIdLen : ℕ := 128

def maxStateLen : ℕ := 64

def maxStepLen : ℕ := 128

def maxQueueMeta : ℕ := 16

def maxSourceRefs : ℕ := 128

def maxRefLen : ℕ := 512

def maxMilestones : ℕ := 128

def maxMilestoneLen : ℕ := 512

def maxQuestions : ℕ := 64

def maxQuestionLen : ℕ := 1024

def maxCodePathLen : ℕ := 1024

def maxCommitLen : ℕ := 64

def maxJsonColumnBytes : ℕ := 64 * 1024

/-! ### Errors -/

/-- What the creation of a checkpoint raises. -/
inductive Failure
  /-- `CheckpointError`, with its code and its detail. -/
  | checkpoint (code detail : String)
  /-- `LeaseFencedError`. -/
  | leaseFenced (text : String)
  | notFound
  /-- `ValueError`, of the gate in front of the table. -/
  | value (text : String)
  /-- `UnicodeEncodeError`: a text with a lone surrogate. -/
  | unicodeEncode
  /-- `sqlite3.IntegrityError`. -/
  | integrity
  deriving DecidableEq

/-- A check of `validate_checkpoint_integrity`. -/
def check (b : Bool) (detail : String) : Except Failure Unit :=
  if b then .ok () else .error (.checkpoint "CONTEXT_CHECKPOINT_INVALID" detail)

/-- A check of `_validate_checkpoint_insert`. -/
def checkValue (b : Bool) (text : String) : Except Failure Unit :=
  if b then .ok () else .error (.value text)

/-! ### Records -/

structure CheckpointIdentity where
  checkpointId : PyStr
  jobId : PyStr
  checkpointNo : ℕ
  createdAt : PyStr

structure CheckpointWorkflow where
  primaryState : PyStr := []
  logicalStep : PyStr := []
  attemptNo : ℤ := 0
  queueMeta : List (PyStr × PyStr) := []

structure CheckpointContext where
  lastContextPackId : PyStr := []
  lastContextPackHash : PyStr := []
  requiredTrustedSourceRefs : List PyStr := []
  /-- `selected_artifact_refs`, with their hashes. -/
  selectedArtifactRefs : List (PyStr × PyStr) := []
  latestHandoffRefs : List PyStr := []

structure CheckpointCode where
  worktreePath : PyStr := []
  repoIdentity : PyStr := []
  baseCommit : PyStr := []
  headCommit : PyStr := []

structure CheckpointProgress where
  completedMilestones : List PyStr := []
  remainingMilestones : List PyStr := []
  unresolvedQuestions : List PyStr := []

structure CheckpointRecord where
  checkpointVersion : PyStr
  identity : CheckpointIdentity
  workflow : CheckpointWorkflow
  context : CheckpointContext
  code : CheckpointCode
  progress : CheckpointProgress
  contentHash : PyStr

/-! ### As JSON -/

def textsJson (texts : List PyStr) : Json := .arr (texts.map .str)

def pairsJson (pairs : List (PyStr × PyStr)) : Json :=
  .arr (pairs.map fun p => .arr [.str p.1, .str p.2])

def workflowJson (rec : CheckpointRecord) : Json :=
  .dict [("primary_state", .str rec.workflow.primaryState),
    ("logical_step", .str rec.workflow.logicalStep), ("attempt_no", .int rec.workflow.attemptNo),
    ("queue_meta", pairsJson rec.workflow.queueMeta)]

def contextJson (rec : CheckpointRecord) : Json :=
  .dict [("last_context_pack_id", .str rec.context.lastContextPackId),
    ("last_context_pack_hash", .str rec.context.lastContextPackHash),
    ("required_trusted_source_refs", textsJson rec.context.requiredTrustedSourceRefs),
    ("selected_artifact_refs", pairsJson rec.context.selectedArtifactRefs),
    ("latest_handoff_refs", textsJson rec.context.latestHandoffRefs)]

def codeJson (rec : CheckpointRecord) : Json :=
  .dict [("worktree_path", .str rec.code.worktreePath),
    ("repo_identity", .str rec.code.repoIdentity), ("base_commit", .str rec.code.baseCommit),
    ("head_commit", .str rec.code.headCommit)]

def progressJson (rec : CheckpointRecord) : Json :=
  .dict [("completed_milestones", textsJson rec.progress.completedMilestones),
    ("remaining_milestones", textsJson rec.progress.remainingMilestones),
    ("unresolved_questions", textsJson rec.progress.unresolvedQuestions)]

/-- `_canonical_doc`: what is hashed of a record. -/
def canonicalDoc (rec : CheckpointRecord) : Json :=
  .dict [("checkpoint_version", .str rec.checkpointVersion), ("job_id", .str rec.identity.jobId),
    ("checkpoint_no", .int rec.identity.checkpointNo), ("workflow", workflowJson rec),
    ("context", contextJson rec), ("code", codeJson rec), ("progress", progressJson rec)]

/-- How many bytes a text takes in UTF-8, as a JSON string that escapes nothing but what has to be:
a lone surrogate has no encoding. -/
def charBytes : PyChar → ℕ
  | .surrogate _ => 3
  | .scalar c =>
    if c = '"' ∨ c = '\\' ∨ c = '\n' ∨ c = '\r' ∨ c = '\t' ∨ c.toNat = 8 ∨ c.toNat = 12 then 2
    else if c.toNat < 32 then 6
    else c.utf8Size

def textBytes (s : PyStr) : ℕ := 2 + (s.map charBytes).sum

mutual

/-- The bytes of the text that `_stable_json` makes of a value. -/
def jsonBytes : Json → ℕ
  | .str s => textBytes s
  | .arr xs => 2 + Json.itemsSize (jsonBytesList xs)
  | .obj fields => 2 + Json.itemsSize (jsonBytesFields fields)
  | v => v.textSize

def jsonBytesList : List Json → List ℕ
  | [] => []
  | x :: xs => jsonBytes x :: jsonBytesList xs

def jsonBytesFields : List (PyStr × Json) → List ℕ
  | [] => []
  | (k, x) :: xs => (textBytes k + 1 + jsonBytes x) :: jsonBytesFields xs

end

/-! ### Hashes -/

section Hashes

variable (sha : Sha256)

def checkpointContentHash (rec : CheckpointRecord) : Except Failure PyStr :=
  if ((canonicalDoc rec).scan Sha256.unencodable).isNone then .ok (sha.ofJson (canonicalDoc rec))
  else .error .unicodeEncode

/-- `make_checkpoint_id`, of a job, a number and a hash. -/
def makeCheckpointId (jobId : PyStr) (checkpointNo : ℕ) (contentHash : PyStr) :
    Except Failure PyStr :=
  if jobId.encode?.isSome then
    .ok (PyStr.ofString "ck_" ++ (sha.ofText (jobId ++ .scalar (Char.ofNat 0) ::
      PyStr.ofString (toString checkpointNo) ++ .scalar (Char.ofNat 0) :: contentHash)).take 24)
  else .error .unicodeEncode

/-! ### Checks -/

/-- The bounds of `workflow`. -/
def checkWorkflow (wf : CheckpointWorkflow) : Except Failure Unit := do
  check (wf.primaryState.length ≤ maxStateLen) "primary_state too long"
  check (wf.logicalStep.length ≤ maxStepLen) "logical_step too long"
  check (0 ≤ wf.attemptNo) "attempt_no < 0"
  check (wf.queueMeta.length ≤ maxQueueMeta) "queue_meta too many entries"
  wf.queueMeta.forM fun entry =>
    check (entry.1.length ≤ maxRefLen && entry.2.length ≤ maxRefLen) "queue_meta entry too long"

/-- The bounds of `context`. -/
def checkContext (ctx : CheckpointContext) : Except Failure Unit := do
  check (ctx.requiredTrustedSourceRefs.length ≤ maxSourceRefs) "too many source refs"
  ctx.requiredTrustedSourceRefs.forM fun ref =>
    check (ref.length ≤ maxRefLen) "source ref too long"
  check (ctx.selectedArtifactRefs.length ≤ maxSourceRefs) "too many artifact refs"
  ctx.selectedArtifactRefs.forM fun ref => do
    check (ref.1.length ≤ maxRefLen) "artifact ref too long"
    check (ref.2.isEmpty || validHex ref.2 64) "artifact hash must be sha256 hex"
  check (ctx.latestHandoffRefs.length ≤ maxSourceRefs) "too many handoff refs"
  ctx.latestHandoffRefs.forM fun ref => check (ref.length ≤ maxRefLen) "handoff ref too long"
  check (ctx.lastContextPackId.length ≤ maxRefLen && ctx.lastContextPackHash.length ≤ maxRefLen)
    "pack id/hash too long"

/-- The bounds of `code`. -/
def checkCode (code : CheckpointCode) : Except Failure Unit := do
  check (code.worktreePath.length ≤ maxCodePathLen) "worktree_path too long"
  check (code.repoIdentity.length ≤ maxCodePathLen) "repo_identity too long"
  check (code.baseCommit.length ≤ maxCommitLen) "base_commit too long"
  check (code.headCommit.length ≤ maxCommitLen) "head_commit too long"

/-- The bounds of `progress`. -/
def checkProgress (prog : CheckpointProgress) : Except Failure Unit := do
  check (prog.completedMilestones.length ≤ maxMilestones &&
    prog.remainingMilestones.length ≤ maxMilestones) "too many milestones"
  (prog.completedMilestones ++ prog.remainingMilestones).forM fun m =>
    check (m.length ≤ maxMilestoneLen) "milestone too long"
  check (prog.unresolvedQuestions.length ≤ maxQuestions) "too many questions"
  prog.unresolvedQuestions.forM fun q => check (q.length ≤ maxQuestionLen) "question too long"

def validateCheckpointIntegrity (rec : CheckpointRecord) : Except Failure Unit := do
  check (rec.checkpointVersion = checkpointVersion) "checkpoint_version"
  check (!rec.identity.jobId.isEmpty) "empty job_id"
  check (rec.identity.jobId.length ≤ maxCheckpointIdLen) "job_id too long"
  check (1 ≤ rec.identity.checkpointNo) "checkpoint_no < 1"
  check (validId rec.identity.checkpointId "ck_" 24) "malformed checkpoint_id"
  check (validHex rec.contentHash 64) "content_hash must be sha256 hex"
  checkWorkflow rec.workflow
  checkContext rec.context
  checkCode rec.code
  checkProgress rec.progress
  let contentHash ← checkpointContentHash sha rec
  check (contentHash = rec.contentHash) "checkpoint content_hash does not match semantic content"

/-- `_with_checkpoint_no`, by way of `build_checkpoint_record`: the record with a number, and with
the hash and the identifier that belong to it. -/
def withCheckpointNo (rec : CheckpointRecord) (checkpointNo : ℕ) :
    Except Failure CheckpointRecord := do
  let bare : CheckpointRecord := { rec with
    checkpointVersion := checkpointVersion
    identity := { rec.identity with checkpointId := [], checkpointNo := checkpointNo }
    contentHash := [] }
  let contentHash ← checkpointContentHash sha bare
  let checkpointId ← makeCheckpointId sha rec.identity.jobId checkpointNo contentHash
  let rebuilt : CheckpointRecord := { bare with
    identity := { bare.identity with checkpointId := checkpointId }
    contentHash := contentHash }
  validateCheckpointIntegrity sha rebuilt
  pure rebuilt

/-- `_validate_checkpoint_insert`, of a record about to be stored. -/
def validateCheckpointInsert (rec : CheckpointRecord) : Except Failure Unit := do
  checkValue (rec.checkpointVersion = checkpointVersion) "checkpoint record_version"
  checkValue (validId rec.identity.checkpointId "ck_" 24) "malformed checkpoint_id"
  checkValue (1 ≤ rec.identity.checkpointNo) "checkpoint_no < 1"
  checkValue (validHex rec.contentHash 64) "checkpoint content_hash must be sha256 hex"
  [("workflow_json", workflowJson rec), ("context_json", contextJson rec),
    ("code_json", codeJson rec), ("progress_json", progressJson rec)].forM fun column =>
      checkValue (jsonBytes column.2 ≤ maxJsonColumnBytes) (column.1 ++ " exceeds 65536 bytes")

variable {sha} {rec rec' : CheckpointRecord} {no : ℕ}

theorem identity_of_withCheckpointNo (h : withCheckpointNo sha rec no = .ok rec') :
    rec'.identity.checkpointNo = no ∧ rec'.identity.jobId = rec.identity.jobId := by
  simp only [withCheckpointNo, Except.bind_eq_ok, Except.pure_eq_ok] at h
  obtain ⟨contentHash, -, checkpointId, -, _, -, rfl⟩ := h
  exact ⟨rfl, rfl⟩

end Hashes

end Checkpoints

end ArgentTeam
