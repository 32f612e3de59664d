import ArgentTeam.Supervisor.Handlers

/-!
# The writer of a worktree

Before the broker writes to the worktree of a leased job, the supervisor binds the job to
the dispatch, the holder and the epoch it writes for, and installs a guard that compares
that binding with a token, once before the patch set and again around every effect.

The binding is written once: `_invoke_broker_locked` binds a job that is not bound, and
nothing ever unbinds it. The guard of a later dispatch, or of a later epoch, then compares
its own token with the binding of the first (`Supervisor.writer_accepted_iff`).
-/

namespace ArgentTeam

namespace Supervisor

/-! ### The binding -/

/-- The columns of a job row that bind its writer. -/
structure WriterBinding where
  /-- Whether the binding mode is `BOUND`. -/
  bound : Bool
  dispatchId : Option String
  ownerInstanceId : Option String
  leaseEpoch : ℕ
  canonicalPath : Option String

structure WriterJob where
  row : JobRow
  writer : WriterBinding

namespace WriterJob

/-- The job is `RUNNING` and `ACTIVE`, and the lease is the holder's and has not expired. -/
def heldBy (j : WriterJob) (holder : LeaseCas) (now : Time) : Bool :=
  j.row.leaseIsCurrent holder now && j.row.primaryState = .running && j.row.status = .active

/-- A path, without the blanks around it. -/
def strip (path : String) : String :=
  (PyStr.strip (PyStr.ofString path)).encode?.getD path

/-- `bind_writer_worktree`, for the job as it was just read; `none` if it is refused. What
the real path of a path is, is a matter of the file system; its links stay as they are all the
while. -/
def bindWriterWorktree (real : String → String) (j : WriterJob) (taken : Bool)
    (dispatchId owner root : String) (now : Time) : Option WriterJob :=
  if notBlank root && notBlank owner && 1 ≤ j.row.leaseEpoch && notBlank dispatchId &&
      j.row.leaseIsCurrent ⟨owner, j.row.leaseEpoch⟩ now && !taken then
    some { j with
      writer :=
        { bound := true
          dispatchId := some dispatchId
          ownerInstanceId := some owner
          leaseEpoch := j.row.leaseEpoch
          canonicalPath := some (real (strip root)) } }
  else none

end WriterJob

/-! ### The guard -/

/-- The token a guard is installed with. -/
structure WriterToken where
  jobId : String
  dispatchId : String
  ownerInstanceId : Option String
  leaseEpoch : ℕ
  factsVersion : ℕ

inductive GuardRefusal
  | jobNotRunningActive | bindingIncomplete | jobIdMismatch | ownerMismatch | epochMismatch
  | factsVersionMismatch | leaseExpired | writerOwnerMismatch | writerEpochMismatch
  | notWriterDispatch | worktreePathMismatch
  deriving DecidableEq

/-- `_writer_guard_for`: the token is that of the job as it is now. -/
def WriterJob.token (j : WriterJob) (dispatchId : String) : WriterToken where
  jobId := j.row.id
  dispatchId := dispatchId
  ownerInstanceId := j.row.ownerInstanceId
  leaseEpoch := j.row.leaseEpoch
  factsVersion := j.row.factsVersion

/-- `writer_guard_for`, called for a root; `none` if it raises nothing. -/
def WriterToken.guard (token : WriterToken) (real : String → String) (root : String) (now : Time)
    (j : WriterJob) : Option GuardRefusal :=
  let w := j.writer
  if !w.bound && w.canonicalPath = none && w.dispatchId = none then none
  else if w.bound && !(j.row.primaryState = .running && j.row.status = .active) then
    some .jobNotRunningActive
  else if w.bound && (w.canonicalPath = none || w.dispatchId = none ||
    w.ownerInstanceId = none) then
    some .bindingIncomplete
  else if j.row.id ≠ token.jobId then some .jobIdMismatch
  else if token.ownerInstanceId ≠ none ∧ j.row.ownerInstanceId ≠ token.ownerInstanceId then
    some .ownerMismatch
  else if j.row.leaseEpoch ≠ token.leaseEpoch then some .epochMismatch
  else if j.row.factsVersion ≠ token.factsVersion then some .factsVersionMismatch
  else if w.bound && !j.row.leaseHeld now then some .leaseExpired
  else if w.bound ∧ w.ownerInstanceId ≠ token.ownerInstanceId then some .writerOwnerMismatch
  else if w.bound ∧ w.leaseEpoch ≠ token.leaseEpoch then some .writerEpochMismatch
  else if w.dispatchId ≠ some token.dispatchId then some .notWriterDispatch
  else if !(w.canonicalPath.any fun p => real p = real root) then some .worktreePathMismatch
  else none

/-! ### What is written meanwhile -/

/-- A write to the row of the job by anybody else. -/
inductive RowWrite
  | queue (now : Time) (actions : Journal) (op : QueueOp)
  | commit (plan : Plan)
  /-- Whatever else the supervisor makes of the row; it stays the row of the job, and no
  write of a supervisor makes the version of the facts fall. -/
  | supervise (row : JobRow)
  /-- `set_job_metadata` by a holder of the lease, perhaps with a worktree. -/
  | metadata (holder : LeaseCas) (now : Time) (path : Option String)

def WriterJob.write (j : WriterJob) : RowWrite → WriterJob
  | .queue now actions op => { j with row := op.apply now actions j.row }
  | .commit plan => { j with row := j.row.commit plan }
  | .supervise row =>
    if row.id = j.row.id ∧ j.row.factsVersion ≤ row.factsVersion then { j with row := row } else j
  | .metadata holder now path =>
    if notBlank holder.owner && 1 ≤ holder.epoch && (path.all notBlank) &&
        j.row.leaseIsCurrent holder now then
      { row := { j.row with factsVersion := j.row.factsVersion + 1 }
        writer := { j.writer with canonicalPath := (path.map strip).or j.writer.canonicalPath } }
    else j

/-- The job at each of the moments at which the guard is asked again. -/
def WriterJob.moments (j : WriterJob) : List (List RowWrite × Time) → List (WriterJob × Time)
  | [] => []
  | (writes, now) :: rest =>
    let j' := writes.foldl write j
    (j', now) :: j'.moments rest

/-! ### The call of the broker -/

/-- A call of `_apply_patch_set_locked`: by whom, for which row of the journal, and what
it finds. -/
structure BrokerCall where
  holder : LeaseCas
  fence : Option (LeaseCas × ℕ)
  intent : SupervisorAction
  dispatchId : String
  workspaceRoot : Option String
  workspaceHash : String
  provenanceValid : Bool
  taken : Bool
  now : Time
  checks : List (List RowWrite × Time)

/-- How such a call goes. -/
inductive BrokerExit
  | failed (reason : String)
  | alreadySucceeded
  | noWorkspaceRoot
  /-- The workspace is as it is to be; the row succeeds. -/
  | reconciled
  /-- The workspace is neither as it was nor as it is to be; the row is `UNCERTAIN`. -/
  | diverged
  /-- The row is about another workspace; the job backs off. -/
  | identityMismatch
  /-- No writer could be bound. -/
  | bindingRefused
  | fenced
  /-- The broker is called, under a guard. -/
  | invoked (token : WriterToken) (job : WriterJob)

/-- `_fence_action`. -/
def JobRow.actionFence (j : JobRow) (fence : Option (LeaseCas × ℕ)) (now : Time) : Bool :=
  fence.all fun f => j.leaseIsCurrent f.1 now && j.factsVersion = f.2

namespace WriterJob

variable (real : String → String) (c : BrokerCall) (root : String) (j : WriterJob)

/-- The job with its writer established; a job that is bound, or not leased, stays as it
is. -/
def established : Option WriterJob :=
  match j.row.ownerInstanceId with
  | none => some j
  | some owner =>
    if j.writer.bound then some j
    else if j.row.actionFence c.fence c.now && c.provenanceValid then
      j.bindWriterWorktree real c.taken c.dispatchId owner root c.now
    else none

/-- `_invoke_broker_locked`, up to the call of the broker. -/
def invokeBrokerLocked : BrokerExit :=
  match c.intent.patchSetJson with
  | some (.arr patchSet) =>
    if c.intent.argsHash ≠ applyArgs c.dispatchId patchSet root then .identityMismatch
    else match j.established real c root with
      | none => .bindingRefused
      | some j' =>
        if j'.row.leaseFence (some c.holder) c.now then .invoked (j'.token c.dispatchId) j'
        else .fenced
  | _ => .diverged

def applyPatchSetLocked : BrokerExit :=
  match c.intent.status with
  | .succeeded => .alreadySucceeded
  | .uncertain => .failed "workspace_diverged"
  | .planned | .failed => .failed ((c.intent.lastErrorCode.filter fun e =>
    e ≠ "").getD "broker_failed")
  | .running => match c.workspaceRoot with
    | none => .noWorkspaceRoot
    | some root =>
      if c.intent.effectHash = some c.workspaceHash then .reconciled
      else if c.intent.preconditionHash = some c.workspaceHash then
        j.invokeBrokerLocked real c root
      else .diverged

end WriterJob

/-! ### Runs -/

/-- What may happen to a job with a writer. -/
inductive WriterEvent
  | write (w : RowWrite)
  | apply (c : BrokerCall)

/-- One event. -/
def WriterJob.step (real : String → String) (j : WriterJob) : WriterEvent → WriterJob
  | .write w => j.write w
  | .apply c => match j.applyPatchSetLocked real c with
    | .invoked _ j' => (c.checks.flatMap Prod.fst).foldl write j'
    | _ => j

/-- The guard accepts, before the patch set and during all of it, as long as the job is
the caller's. -/
def Accepts (real : String → String) (j : WriterJob) (c : BrokerCall) : Prop :=
  ∀ root token j', c.workspaceRoot = some root → j.applyPatchSetLocked real c = .invoked token j' →
    j.heldBy c.holder c.now = true →
    ∀ m ∈ (j', c.now) :: j'.moments c.checks, m.1.heldBy c.holder m.2 = true →
      token.guard real root m.2 m.1 = none

/-- **When a patch set may be written**: the job has no writer yet, or its writer is this
dispatch, for this holder, under this epoch, in this worktree; and as long as the job is
the caller's, nothing bumps the version of the facts. -/
def MayWrite (real : String → String) (j : WriterJob) (c : BrokerCall) (root : String) : Prop :=
  (if j.writer.bound then
    j.writer.dispatchId = some c.dispatchId ∧ j.writer.ownerInstanceId = some c.holder.owner ∧
      j.writer.leaseEpoch = c.holder.epoch ∧
      (j.writer.canonicalPath.any fun p => real p = real root) = true
  else real (real (WriterJob.strip root)) = real root) ∧
  ∀ m ∈ j.moments c.checks, m.1.heldBy c.holder m.2 = true →
    m.1.row.factsVersion = j.row.factsVersion

section Writing

variable {real : String → String} {j j' j₁ j₂ : WriterJob} {c c' : BrokerCall} {root : String}
  {token : WriterToken} {now : Time}

/-! ### What a write leaves -/

/-- What the job has become after any writes: it is the same job, a new worktree shows in
the version of the facts, and a writer is never replaced. -/
structure WriterJob.Later (j j' : WriterJob) : Prop where
  id : j'.row.id = j.row.id
  version : j.row.factsVersion ≤ j'.row.factsVersion
  fresh : j'.row.factsVersion = j.row.factsVersion → j'.writer = j.writer
  bound : j.writer.bound = true → j'.writer.bound = true ∧
    j'.writer.dispatchId = j.writer.dispatchId ∧
    j'.writer.ownerInstanceId = j.writer.ownerInstanceId ∧
    j'.writer.leaseEpoch = j.writer.leaseEpoch

theorem WriterJob.Later.refl : j.Later j :=
  ⟨rfl, le_rfl, fun _ => rfl, fun h => ⟨h, rfl, rfl, rfl⟩⟩

theorem WriterJob.Later.trans (h : j.Later j₁) (h' : j₁.Later j₂) : j.Later j₂ where
  id := h'.id.trans h.id
  version := h.version.trans h'.version
  fresh heq := by
    have hle := h.version
    have hle' := h'.version
    rw [h'.fresh (by omega), h.fresh (by omega)]
  bound hb := by
    obtain ⟨hb₁, hd₁, ho₁, he₁⟩ := h.bound hb
    obtain ⟨hb₂, hd₂, ho₂, he₂⟩ := h'.bound hb₁
    exact ⟨hb₂, hd₂.trans hd₁, ho₂.trans ho₁, he₂.trans he₁⟩

theorem QueueOp.factsVersion_le {js : Journal} {row : JobRow} {op : QueueOp} :
    row.factsVersion ≤ (op.apply now js row).factsVersion := by
  cases op <;> simp only [apply, attempt] <;> split <;> try split
  all_goals simp [JobRow.leasedTo, JobRow.queued, JobRow.quarantined, JobRow.transition,
    JobRow.unleased]

theorem WriterJob.later_of_row {row : JobRow} (hid : row.id = j.row.id)
    (hversion : j.row.factsVersion ≤ row.factsVersion) : j.Later { j with row := row } :=
  ⟨hid, hversion, fun _ => rfl, fun h => ⟨h, rfl, rfl, rfl⟩⟩

theorem WriterJob.later_write {w : RowWrite} : j.Later (j.write w) := by
  cases w with
  | queue now actions op => exact later_of_row QueueOp.sameWork.id QueueOp.factsVersion_le
  | commit plan =>
    refine later_of_row ?_ ?_
    · simp only [JobRow.commit]
      split <;> rfl
    · simp only [JobRow.commit]
      split <;> simp [JobRow.project]
  | supervise row =>
    simp only [write]
    split
    · rename_i h
      exact later_of_row h.1 h.2
    · exact .refl
  | metadata holder now path =>
    simp only [write]
    split
    · exact ⟨rfl, Nat.le_succ _, fun h => absurd h (by simp), fun h => ⟨h, rfl, rfl, rfl⟩⟩
    · exact .refl

theorem WriterJob.later_foldl {ws : List RowWrite} : j.Later (ws.foldl write j) := by
  induction ws generalizing j with
  | nil => exact .refl
  | cons w ws ih => exact later_write.trans ih

theorem WriterJob.later_moments {checks : List (List RowWrite × Time)} {m : WriterJob × Time}
    (hm : m ∈ j.moments checks) : j.Later m.1 := by
  induction checks generalizing j with
  | nil => cases hm
  | cons check checks ih =>
    rcases List.mem_cons.mp hm with rfl | hm
    · exact later_foldl
    · exact later_foldl.trans (ih hm)

theorem WriterJob.row_write {w : RowWrite} (h : j.row = j'.row) :
    (j.write w).row = (j'.write w).row := by
  cases w with
  | queue | commit => simp only [write, h]
  | supervise | metadata =>
    simp only [write, h]
    split
    · rfl
    · exact h

theorem WriterJob.row_foldl {ws : List RowWrite} (h : j.row = j'.row) :
    (ws.foldl write j).row = (ws.foldl write j').row := by
  induction ws generalizing j j' with
  | nil => exact h
  | cons w ws ih => exact ih (row_write h)

theorem WriterJob.moments_row {checks : List (List RowWrite × Time)} {P : JobRow → Time → Prop}
    (h : j.row = j'.row) :
    (∀ m ∈ j.moments checks, P m.1.row m.2) ↔ ∀ m ∈ j'.moments checks, P m.1.row m.2 := by
  induction checks generalizing j j' with
  | nil => simp [moments]
  | cons check checks ih =>
    have hrow := @row_foldl j j' check.1 h
    simp only [moments, List.forall_mem_cons, hrow]
    exact and_congr Iff.rfl (ih hrow)

/-! ### The guard and the call -/

theorem WriterJob.heldBy_iff {holder : LeaseCas} : j.heldBy holder now ↔
    j.row.ownerInstanceId = some holder.owner ∧ j.row.leaseEpoch = holder.epoch ∧
      j.row.leaseHeld now ∧ j.row.primaryState = .running ∧ j.row.status = .active := by
  simp [heldBy, JobRow.leaseIsCurrent, and_assoc]

/-- **When the guard accepts** a job that is the caller's and has a writer: the version is
that of the token, the writer is the dispatch of the token, its owner and its epoch, and
the root is its worktree. -/
theorem guard_eq_none_iff {holder : LeaseCas} (hheld : j'.heldBy holder now = true)
    (hlater : j.row.id = j'.row.id) (howner : j.row.ownerInstanceId = some holder.owner)
    (hepoch : j.row.leaseEpoch = holder.epoch) (hbound : j'.writer.bound = true)
    {dispatchId : String} :
    (j.token dispatchId).guard real root now j' = none ↔
      j'.row.factsVersion = j.row.factsVersion ∧ j'.writer.ownerInstanceId = some holder.owner ∧
        j'.writer.leaseEpoch = holder.epoch ∧ j'.writer.dispatchId = some dispatchId ∧
        (j'.writer.canonicalPath.any fun p => real p = real root) = true := by
  obtain ⟨howner', hepoch', hlease, hprimary, hstatus⟩ := (WriterJob.heldBy_iff).mp hheld
  cases hpath : j'.writer.canonicalPath with
  | none => simp [WriterToken.guard, hbound, hpath, hprimary, hstatus]
  | some path =>
    cases hdispatch : j'.writer.dispatchId with
    | none => simp [WriterToken.guard, hbound, hpath, hdispatch, hprimary, hstatus]
    | some d =>
      cases hwriter : j'.writer.ownerInstanceId with
      | none => simp [WriterToken.guard, hbound, hpath, hdispatch, hwriter, hprimary, hstatus]
      | some o =>
        simp [WriterToken.guard, WriterJob.token, hbound, hpath, hdispatch, hwriter, hprimary,
          hstatus, hlater, howner, hepoch, howner', hepoch', hlease]
        grind

/-- A writer is established in one of two ways, if the job is the caller's. -/
theorem WriterJob.established_cases (h : j.established real c root = some j')
    (hheld : j.heldBy c.holder c.now) :
    (j.writer.bound ∧ j' = j) ∨
    (j.writer.bound = false ∧ j' = { j with
      writer :=
        { bound := true
          dispatchId := some c.dispatchId
          ownerInstanceId := some c.holder.owner
          leaseEpoch := c.holder.epoch
          canonicalPath := some (real (strip root)) } }) := by
  obtain ⟨howner, hepoch, -, -, -⟩ := heldBy_iff.mp hheld
  simp only [established, howner] at h
  cases hb : j.writer.bound with
  | true => exact .inl ⟨rfl, by simpa [hb, eq_comm] using h⟩
  | false =>
    simp only [hb, Bool.false_eq_true, if_false] at h
    split at h
    · simp only [bindWriterWorktree] at h
      split at h
      · exact .inr ⟨rfl, by rw [← Option.some.inj h, hepoch]⟩
      · cases h
    · cases h

/-- **When the broker is called**: a writer was established, and the token is that of the
job. -/
theorem WriterJob.of_invoked (h : j.applyPatchSetLocked real c = .invoked token j') :
    ∃ root, c.workspaceRoot = some root ∧ j.established real c root = some j' ∧
      token = j'.token c.dispatchId := by
  simp only [applyPatchSetLocked] at h
  split at h
  · cases h
  · cases h
  · cases h
  · cases h
  · split at h
    · cases h
    · rename_i root hroot
      refine ⟨root, hroot, ?_⟩
      split at h
      · cases h
      split at h
      · simp only [invokeBrokerLocked] at h
        split at h
        · split at h
          · cases h
          split at h
          · cases h
          rename_i j₁ hj
          split at h
          · cases h
            exact ⟨hj, rfl⟩
          · cases h
        · cases h
      · cases h

/-- **One call.** When the broker is called for a job that is the caller's, the guard
accepts exactly if the patch set may be written. -/
theorem accepts_iff (hroot : c.workspaceRoot = some root)
    (hcall : j.applyPatchSetLocked real c = .invoked token j')
    (hheld : j.heldBy c.holder c.now) : Accepts real j c ↔ MayWrite real j c root := by
  obtain ⟨howner, hepoch, -, -, -⟩ := (WriterJob.heldBy_iff).mp hheld
  obtain ⟨root', hroot', hest, rfl⟩ := WriterJob.of_invoked hcall
  obtain rfl := Option.mem_unique hroot' hroot
  have hrow : j'.row = j.row := by
    rcases WriterJob.established_cases hest hheld with ⟨-, rfl⟩ | ⟨-, rfl⟩ <;> rfl
  have hbound : j'.writer.bound = true := by
    rcases WriterJob.established_cases hest hheld with ⟨hb, rfl⟩ | ⟨-, rfl⟩
    · exact hb
    · rfl
  have hheld' : j'.heldBy c.holder c.now = true := by
    simpa only [WriterJob.heldBy, hrow] using hheld
  have hmeets : Accepts real j c ↔ ∀ m ∈ (j', c.now) :: j'.moments c.checks,
      m.1.heldBy c.holder m.2 = true →
        (j'.token c.dispatchId).guard real root' m.2 m.1 = none := by
    constructor
    · intro h
      exact h root' _ j' hroot' hcall hheld
    · rintro h root token j'' hr hc -
      obtain rfl := Option.mem_unique hroot' hr
      obtain ⟨rfl, rfl⟩ := BrokerExit.invoked.inj (hcall.symm.trans hc)
      exact h
  -- At the moment of the call, only the writer matters.
  have hfirst : (j'.token c.dispatchId).guard real root' c.now j' = none ↔
      (if j.writer.bound then
        j.writer.dispatchId = some c.dispatchId ∧ j.writer.ownerInstanceId = some c.holder.owner ∧
          j.writer.leaseEpoch = c.holder.epoch ∧
          (j.writer.canonicalPath.any fun p => real p = real root') = true
      else real (real (WriterJob.strip root')) = real root') := by
    rw [guard_eq_none_iff hheld' rfl (hrow ▸ howner) (hrow ▸ hepoch) hbound]
    rcases WriterJob.established_cases hest hheld with ⟨hb, rfl⟩ | ⟨hb, rfl⟩
    · simp only [hb, if_true]
      tauto
    · simp [hb]
  rw [hmeets, List.forall_mem_cons, MayWrite]
  simp only [hheld', true_imp_iff]
  rw [hfirst]
  refine and_congr_right fun hwriter => ?_
  have hkept := @guard_eq_none_iff real _ _ root' _ _ hheld' rfl (hrow ▸ howner)
    (hrow ▸ hepoch) hbound |>.mp (hfirst.mpr hwriter)
  obtain ⟨-, hwowner, hwepoch, hwdispatch, hwpath⟩ := hkept
  -- Later, the writer is still the same unless the version shows it.
  have hlater : (∀ m ∈ j'.moments c.checks, m.1.heldBy c.holder m.2 = true →
      (j'.token c.dispatchId).guard real root' m.2 m.1 = none) ↔
      ∀ m ∈ j'.moments c.checks, m.1.heldBy c.holder m.2 = true →
        m.1.row.factsVersion = j'.row.factsVersion := by
    refine forall₂_congr fun m hm => imp_congr_right fun hm' => ?_
    have hl := WriterJob.later_moments hm
    rw [guard_eq_none_iff hm' hl.id.symm (hrow ▸ howner) (hrow ▸ hepoch) (hl.bound hbound).1]
    constructor
    · exact And.left
    · intro hv
      rw [hl.fresh hv]
      exact ⟨hv, hwowner, hwepoch, hwdispatch, hwpath⟩
  rw [hlater, hrow]
  exact WriterJob.moments_row (P := fun row now => ((row.leaseIsCurrent c.holder now &&
    row.primaryState = .running && row.status = .active) = true →
      row.factsVersion = j.row.factsVersion)) hrow

/-! ### Every run -/

/-- The writer is this dispatch, for good. -/
def BoundTo (dispatchId : String) (holder : LeaseCas) (j : WriterJob) : Prop :=
  j.writer.bound = true ∧ j.writer.dispatchId = some dispatchId ∧
    j.writer.ownerInstanceId = some holder.owner ∧ j.writer.leaseEpoch = holder.epoch

theorem BoundTo.later {dispatchId : String} {holder : LeaseCas} (h : BoundTo dispatchId holder j)
    (hl : j.Later j') : BoundTo dispatchId holder j' := by
  obtain ⟨hb, hd, ho, he⟩ := h
  obtain ⟨hb', hd', ho', he'⟩ := hl.bound hb
  exact ⟨hb', hd'.trans hd, ho'.trans ho, he'.trans he⟩

/-- A job that has a writer has it after every event. -/
theorem WriterJob.later_step (hb : j.writer.bound) {e : WriterEvent} :
    j.Later (j.step real e) := by
  cases e with
  | write w => exact later_write
  | apply c =>
    simp only [step]
    split
    · rename_i token j' hcall
      obtain ⟨root, -, hest, -⟩ := of_invoked hcall
      have hsame : j' = j := by
        simp only [established] at hest
        split at hest
        · exact (Option.some.inj hest).symm
        · simpa [hb, eq_comm] using hest
      rw [hsame]
      exact later_foldl
    · exact .refl

theorem BoundTo.run {dispatchId : String} {holder : LeaseCas} (h : BoundTo dispatchId holder j)
    {events : List WriterEvent} : BoundTo dispatchId holder
    (Runs.run (WriterJob.step real) j events) :=
  Runs.run_always (fun _ _ hs => hs.later (WriterJob.later_step hs.1)) h

end Writing

/-- What a run asks of its calls: that each is accepted. -/
def EventAccepted (real : String → String) (j : WriterJob) : WriterEvent → Prop
  | .write _ => True
  | .apply c => Accepts real j c

/-- What a run may ask for: that each call whose broker is called, for a job that is the
caller's, may be written. -/
def EventMayWrite (real : String → String) (j : WriterJob) : WriterEvent → Prop
  | .write _ => True
  | .apply c => ∀ root token j', c.workspaceRoot = some root →
    j.applyPatchSetLocked real c = .invoked token j' → j.heldBy c.holder c.now = true →
    MayWrite real j c root

theorem eventAccepted_iff {real : String → String} {j : WriterJob} {e : WriterEvent} :
    EventAccepted real j e ↔ EventMayWrite real j e := by
  cases e with
  | write w => exact Iff.rfl
  | apply c =>
    constructor
    · intro h root token j' hroot hcall hheld
      exact (accepts_iff hroot hcall hheld).mp h
    · intro h root token j' hroot hcall hheld
      exact (accepts_iff hroot hcall hheld).mpr (h root token j' hroot hcall hheld) root token j'
        hroot hcall hheld

/-- After an accepted call, the job is bound to its dispatch. -/
theorem boundTo_of_accepts {real : String → String} {j j' : WriterJob} {c : BrokerCall}
    {root : String}
    {token : WriterToken} (hroot : c.workspaceRoot = some root)
    (hcall : j.applyPatchSetLocked real c = .invoked token j')
    (hheld : j.heldBy c.holder c.now) (h : Accepts real j c) :
    BoundTo c.dispatchId c.holder (j.step real (.apply c)) := by
  have hmay := ((accepts_iff hroot hcall hheld).mp h).1
  obtain ⟨_, -, hest, -⟩ := WriterJob.of_invoked hcall
  have hbound : BoundTo c.dispatchId c.holder j' := by
    rcases WriterJob.established_cases hest hheld with ⟨hb, rfl⟩ | ⟨-, rfl⟩
    · rw [if_pos hb] at hmay
      exact ⟨hb, hmay.1, hmay.2.1, hmay.2.2.1⟩
    · exact ⟨rfl, rfl, rfl, rfl⟩
  simp only [WriterJob.step, hcall]
  exact hbound.later WriterJob.later_foldl

/-- **When every write dispatch can write**: along a run, every call of the broker is
accepted exactly if every patch set may be written, that is if the job has no writer yet
or has this one. And an accepted call is the last word: whatever happens afterwards, a
call for another dispatch, by another holder or under another epoch is refused. -/
theorem writer_accepted_iff (real : String → String) (j : WriterJob) :
    (∀ events, Runs.Along (WriterJob.step real) (EventAccepted real) j events ↔
      Runs.Along (WriterJob.step real) (EventMayWrite real) j events) ∧
    ∀ c root token j₁, c.workspaceRoot = some root →
      j.applyPatchSetLocked real c = .invoked token j₁ → j.heldBy c.holder c.now = true →
      Accepts real j c →
      ∀ events c' root' token' j₃,
        let j₂ := Runs.run (WriterJob.step real) (j.step real (.apply c)) events
        c'.workspaceRoot = some root' → j₂.applyPatchSetLocked real c' = .invoked token' j₃ →
        j₂.heldBy c'.holder c'.now = true →
        c'.dispatchId ≠ c.dispatchId ∨ c'.holder ≠ c.holder → ¬Accepts real j₂ c' := by
  constructor
  · intro events
    have hiff : ∀ s e, EventAccepted real s e ↔ EventMayWrite real s e := fun _ _ =>
      eventAccepted_iff
    exact ⟨Runs.Along.imp fun s e => (hiff s e).mp, Runs.Along.imp fun s e => (hiff s e).mpr⟩
  · intro c root token j₁ hroot hcall hheld hacc events c' root' token' j₃ j₂ hroot' hcall' hheld'
      hother hacc'
    obtain ⟨hb, hd, ho, he⟩ : BoundTo c.dispatchId c.holder j₂ :=
      (boundTo_of_accepts hroot hcall hheld hacc).run
    have hmay := ((accepts_iff hroot' hcall' hheld').mp hacc').1
    rw [if_pos hb] at hmay
    obtain ⟨hd', ho', he', -⟩ := hmay
    rcases hother with hother | hother
    · exact hother (Option.mem_unique hd' hd)
    · refine hother ?_
      have howner : c'.holder.owner = c.holder.owner := Option.mem_unique ho' ho
      have hepoch : c'.holder.epoch = c.holder.epoch := he'.symm.trans he
      calc c'.holder = ⟨c'.holder.owner, c'.holder.epoch⟩ := rfl
        _ = ⟨c.holder.owner, c.holder.epoch⟩ := by rw [howner, hepoch]
        _ = c.holder := rfl

/-! ### A run -/

/-- A job that was just claimed, without a writer. -/
def unwritten : WriterJob where
  row := (SupervisorDb.claimed ((Core.run .lenient Core.ticking []).db) "task").job
  writer :=
    { bound := false
      dispatchId := none
      ownerInstanceId := none
      leaseEpoch := 0
      canonicalPath := none }

/-- The call for a dispatch at an epoch, in the worktree `/repo`, at a moment and with
nothing written meanwhile. -/
def writes (dispatchId : String) (epoch : ℕ) (version : ℕ) : BrokerCall where
  holder := heldAt epoch
  fence := some (heldAt epoch, version)
  intent :=
    { jobId := unwritten.row.id
      dispatchId := some dispatchId
      actionType := .applyPatchSet
      actionKey := .apply dispatchId .null
      argsHash := applyArgs dispatchId [] "/repo"
      inputHash := none
      preconditionHash := some "before"
      effectHash := some "after"
      patchSetJson := some (.arr [])
      status := .running
      attemptCount := 1
      lastErrorCode := none
      createdAt := 0 }
  dispatchId := dispatchId
  workspaceRoot := some "/repo"
  workspaceHash := "before"
  provenanceValid := true
  taken := false
  now := 0
  checks := [([], 0), ([], 0)]

/-- The refusal of a call, at its first moment. -/
def refusal (j : WriterJob) (c : BrokerCall) : Option GuardRefusal :=
  match j.applyPatchSetLocked id c with
  | .invoked token j' => token.guard id "/repo" c.now j'
  | _ => none

/-- The implementer has written. The QA that comes next, for the same holder and epoch, is
refused; and so is the implementer itself, once its job was queued and claimed again. -/
theorem second_writer_refused :
    let implementer := writes "implementer" 1 1
    let qa := writes "qa" 1 1
    let again := writes "implementer" 2 3
    let written := unwritten.step id (.apply implementer)
    let reclaimed := (written.write (.queue 0 [] (.requeue (heldAt 1)
      ⟨.retryBackoff, none, false, none⟩))).write (.queue 0 [] (.claim "supervisor" 60))
    (unwritten.heldBy implementer.holder 0 = true ∧ refusal unwritten implementer = none) ∧
    (written.heldBy qa.holder 0 = true ∧ refusal written qa = some .notWriterDispatch) ∧
    (reclaimed.heldBy again.holder 0 = true ∧
      refusal reclaimed again = some .writerEpochMismatch) := by
  decide

/-- The implementer's call of that run is accepted, and the call of the QA after it is not. -/
theorem writer_accepted_iff_qa :
    Runs.Along (WriterJob.step id) (EventAccepted id)
      unwritten [.apply (writes "implementer" 1 1)] ∧
      ¬Accepts id (unwritten.step id (.apply (writes "implementer" 1 1))) (writes "qa" 1 1) := by
  have hfirst : MayWrite id unwritten (writes "implementer" 1 1) "/repo" := by
    refine ⟨by decide, fun m hm _ => ?_⟩
    have hsame : unwritten.moments (writes "implementer" 1 1).checks =
        [(unwritten, 0), (unwritten, 0)] := rfl
    rw [hsame] at hm
    rcases List.mem_cons.mp hm with rfl | hm
    · rfl
    · obtain rfl := List.mem_singleton.mp hm
      rfl
  have hinvoked : ∃ token j', unwritten.applyPatchSetLocked id (writes "implementer" 1 1) =
      .invoked token j' := ⟨_, _, rfl⟩
  have hinvoked' : ∃ token j', (unwritten.step id (.apply
      (writes "implementer" 1 1))).applyPatchSetLocked
      id (writes "qa" 1 1) = .invoked token j' := ⟨_, _, rfl⟩
  obtain ⟨token, j', hcall⟩ := hinvoked
  obtain ⟨token', j'', hcall'⟩ := hinvoked'
  have halong : Runs.Along (WriterJob.step id) (EventAccepted id) unwritten
      [.apply (writes "implementer" 1 1)] := by
    refine ((writer_accepted_iff id unwritten).1 _).mpr ⟨?_, trivial⟩
    intro root _ _ hroot _ _
    obtain rfl : "/repo" = root := Option.some.inj hroot
    exact hfirst
  refine ⟨halong, ?_⟩
  exact (writer_accepted_iff id unwritten).2 _ "/repo" token j' rfl hcall (by decide) halong.1
    [] (writes "qa" 1 1) "/repo" token' j'' rfl hcall' (by decide) (by decide)

end Supervisor

end ArgentTeam
