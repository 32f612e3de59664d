import ArgentTeam.Checkpoints.Record
import ArgentTeam.Context.Budget
import ArgentTeam.Jobs.Primitives

/-!
# The chain of checkpoints of a job

A checkpoint is written in one transaction: the caller is fenced, the number is derived from the
rows that are there, the record is rebuilt with it, the flag of the last row is taken down, and the
new row is put there. Between two calls the jobs are claimed, renewed, given up, taken over, and
written in any other way.

The fence compares the owner and the epoch of the caller with those of the job, and the expiry of
the lease with the clock: but a lease without an expiry it lets through, which every other fence
of the store refuses. `chain_kept_iff` says that this is all that is wrong.
-/

namespace ArgentTeam

namespace Checkpoints

open Prog Supervisor

open Context (Sha256)

/-! ### The store -/

/-- A row of the table `checkpoints`. -/
structure CheckpointRow where
  /-- `checkpoint_id`, the primary key. -/
  checkpointId : PyStr
  recordVersion : PyStr
  jobId : PyStr
  checkpointNo : ℕ
  workflowJson : Json
  contextJson : Json
  codeJson : Json
  progressJson : Json
  contentHash : PyStr
  createdAt : PyStr
  latest : Bool

/-- The constraints of the table: the primary key, one row for each number of a job, and one row
of a job that is the latest. -/
def CheckpointRow.clash (a b : CheckpointRow) : Bool :=
  a.checkpointId = b.checkpointId || (a.jobId = b.jobId && a.checkpointNo = b.checkpointNo) ||
    (a.jobId = b.jobId && a.latest && b.latest)

/-- The jobs, by their primary key, and the checkpoints. -/
structure Db where
  jobs : String → Option JobRow
  checkpoints : Table CheckpointRow CheckpointRow.clash

namespace Db

variable (db : Db)

def checkpointsOf (jobId : PyStr) : List CheckpointRow :=
  db.checkpoints.rows.filter fun r => r.jobId = jobId

def nextCheckpointNo (jobId : PyStr) : ℕ :=
  ((db.checkpointsOf jobId).map CheckpointRow.checkpointNo).foldr max 0 + 1

end Db

def checkpoints : Relvar Db CheckpointRow CheckpointRow.clash where
  get := Db.checkpoints
  set t db := { db with checkpoints := t }

/-! ### Writing a checkpoint -/

/-- The token a store is armed with while a decision is carried out. -/
structure ActionFence where
  jobId : String
  ownerInstanceId : Option String
  leaseEpoch : ℕ
  factsVersion : ℕ

/-- The token is that of the current lease of a job (`_fence_action`). -/
def ActionFence.stands (f : ActionFence) (now : Time) (db : Db) : Bool :=
  match f.ownerInstanceId with
  | none => true
  | some owner =>
    (db.jobs f.jobId).any fun j =>
      j.ownerInstanceId = some owner && j.leaseEpoch = f.leaseEpoch &&
        (j.leaseExpiresAt.any fun t => now < t) && j.factsVersion = f.factsVersion

/-- A call of `create_checkpoint`. -/
structure CreateCall where
  record : CheckpointRecord
  ownerInstanceId : String
  leaseEpoch : ℕ
  now : Time
  armed : Option ActionFence
  storeNow : Time

/-- `get_supervisor_job`; an identifier without an encoding cannot be looked up. -/
def getSupervisorJob (jobId : PyStr) : Prog Db Failure (Option JobRow) := do
  let id ← orRaise jobId.encode? .unicodeEncode
  read fun db => db.jobs id

def fence (c : CreateCall) : Prog Db Failure Unit := do
  let o ← getSupervisorJob c.record.identity.jobId
  let job ← orRaise o .notFound
  require (job.ownerInstanceId ≠ none) (.leaseFenced "job is unleased")
  require (job.ownerInstanceId = some c.ownerInstanceId ∧ job.leaseEpoch = c.leaseEpoch)
    (.leaseFenced "holder and epoch vs caller")
  -- a lease without an expiry counts as one that has not expired
  require (¬(job.leaseExpiresAt.any fun t => t ≤ c.now) = true) (.leaseFenced "lease expired")

def clearLatestCheckpoint (jobId : PyStr) : Prog Db Failure ℕ :=
  checkpoints.update .integrity (fun r => r.jobId = jobId && r.latest)
    fun r => { r with latest := false }

def rowOf (rec : CheckpointRecord) (latest : Bool) : CheckpointRow where
  checkpointId := rec.identity.checkpointId
  recordVersion := rec.checkpointVersion
  jobId := rec.identity.jobId
  checkpointNo := rec.identity.checkpointNo
  workflowJson := workflowJson rec
  contextJson := contextJson rec
  codeJson := codeJson rec
  progressJson := progressJson rec
  contentHash := rec.contentHash
  createdAt := rec.identity.createdAt
  latest := latest

/-- What is checked of a record before its row is there: the gate in front of the table, and, as
the row is written, the one text that was not taken a hash of. -/
def checkInsert (rec : CheckpointRecord) : Except Failure Unit := do
  validateCheckpointInsert rec
  if rec.identity.createdAt.encode?.isSome then .ok () else .error .unicodeEncode

def insertCheckpoint (rec : CheckpointRecord) : Prog Db Failure Unit := do
  lift (checkInsert rec)
  checkpoints.insert .integrity (rowOf rec true)

variable (sha : Sha256)

def createCheckpoint (c : CreateCall) : Prog Db Failure CheckpointRecord :=
  atomically id (fun db _ => db) do
    let stands ← read fun db => c.armed.all fun f => f.stands c.storeNow db
    require (stands = true) (.leaseFenced "lease fence")
    fence c
    let no ← read fun db => db.nextCheckpointNo c.record.identity.jobId
    let rec ← lift (withCheckpointNo sha c.record no)
    lift (validateCheckpointIntegrity sha rec)
    let _ ← clearLatestCheckpoint rec.identity.jobId
    insertCheckpoint rec
    pure rec

/-! ### Runs -/

/-- What happens to the store. -/
inductive Event
  | create (c : CreateCall)
  /-- A job row is written: a claim, a renewal, a release, a takeover, or any other call. -/
  | onJob (id : String) (c : Jobs.Call)
  /-- `create_supervisor_job`. -/
  | createJob (id taskId : String)

/-- The store after an event. -/
def step (db : Db) : Event → Db
  | .create c => (createCheckpoint sha c db).2
  | .onJob id c => { db with
      jobs := fun i => if i = id then (db.jobs i).map fun j => Jobs.step j c else db.jobs i }
  | .createJob id taskId => { db with
      jobs := fun i =>
        if i = id then (db.jobs i).or (some (Jobs.createSupervisorJob id taskId)) else db.jobs i }

/-- The store after some events. -/
abbrev run (db : Db) (es : List Event) : Db := Runs.run (step sha) db es

/-! ### What is promised -/

/-- The numbers of a job are 1, 2, and so on, and the highest of them is the latest. -/
structure Numbered (db : Db) : Prop where
  numbers : ∀ jobId, (db.checkpointsOf jobId).map CheckpointRow.checkpointNo =
    List.range' 1 (db.checkpointsOf jobId).length
  latest : ∀ jobId, ∀ r ∈ db.checkpointsOf jobId,
    r.latest = true ↔ r.checkpointNo = (db.checkpointsOf jobId).length

def CheckpointRow.body (r : CheckpointRow) : CheckpointRow := { r with latest := false }

/-- No row changes but for its flag, and none goes. -/
def Immutable (db db' : Db) : Prop :=
  db.checkpoints.rows.map CheckpointRow.body <+: db'.checkpoints.rows.map CheckpointRow.body

/-- The caller holds the lease of the job: it is the owner, the epoch is current, and there is an
expiry, which has not passed. -/
def Held (db : Db) (c : CreateCall) : Prop :=
  ∃ id j t, c.record.identity.jobId.encode? = some id ∧ db.jobs id = some j ∧
    j.ownerInstanceId = some c.ownerInstanceId ∧ j.leaseEpoch = c.leaseEpoch ∧
    j.leaseExpiresAt = some t ∧ c.now < t

/-- What is promised of a call: where it fails, nothing changes; what it writes, a holder does. -/
structure CallKept (db : Db) (c : CreateCall) : Prop where
  refused : ∀ e db', (createCheckpoint sha c).Raises db e db' → db' = db
  held : ∀ rec db', (createCheckpoint sha c).Returns db rec db' → Held db c

/-- What is promised of a run. -/
structure ChainKept (db : Db) (es : List Event) : Prop where
  numbered : ∀ as bs, es = as ++ bs → Numbered (run sha db as)
  immutable : ∀ as a bs, es = as ++ a :: bs →
    Immutable (run sha db as) (step sha (run sha db as) a)
  calls : ∀ as c bs, es = as ++ .create c :: bs → CallKept sha (run sha db as) c
  origin : ∀ r ∈ (run sha db es).checkpoints.rows, ∃ as c bs rec,
    es = as ++ .create c :: bs ∧
      (createCheckpoint sha c).Returns (run sha db as) rec (step sha (run sha db as) (.create c)) ∧
      r.body = rowOf rec false

/-! ### When it is kept -/

/-- The record of a call can be stored, under the next number of its job. -/
def Storable (db : Db) (c : CreateCall) : Prop :=
  ∃ rec, withCheckpointNo sha c.record (db.nextCheckpointNo c.record.identity.jobId) = .ok rec ∧
    checkInsert rec = .ok () ∧
    ∀ r ∈ db.checkpoints.rows, r.checkpointId ≠ rec.identity.checkpointId

/-- The owner and the epoch of a call are those of a job, the lease of which has no expiry. -/
def Undated (db : Db) (c : CreateCall) : Prop :=
  ∃ id j, c.record.identity.jobId.encode? = some id ∧ db.jobs id = some j ∧
    j.ownerInstanceId = some c.ownerInstanceId ∧ j.leaseEpoch = c.leaseEpoch ∧
    j.leaseExpiresAt = none

/-- No storable record is handed in for a job whose owner is left without an expiry. -/
def Dated (db : Db) : Event → Prop
  | .create c => ¬(Undated db c ∧ (c.armed.all fun f => f.stands c.storeNow db) = true ∧
      Storable sha db c)
  | _ => True

/-! ### What a call does -/

section Call

variable {sha} {db db' : Db} {c : CreateCall} {rec : CheckpointRecord} {e : Failure}
  {jobId : PyStr} {r : CheckpointRow}

theorem validate_of_withCheckpointNo {old : CheckpointRecord} {no : ℕ}
    (h : withCheckpointNo sha old no = .ok rec) : validateCheckpointIntegrity sha rec = .ok () := by
  simp only [withCheckpointNo, Except.bind_eq_ok, Except.pure_eq_ok] at h
  obtain ⟨_, -, _, -, _, hvalid, rfl⟩ := h
  exact hvalid

/-- What `_fence` asks of the job. -/
theorem returns_fence {u : Unit} : (fence c).Returns db u db' ↔ db = db' ∧
    ∃ id j, c.record.identity.jobId.encode? = some id ∧ db.jobs id = some j ∧
      j.ownerInstanceId = some c.ownerInstanceId ∧ j.leaseEpoch = c.leaseEpoch ∧
      ∀ t, j.leaseExpiresAt = some t → c.now < t := by
  have hlater : ∀ j : JobRow, ¬(j.leaseExpiresAt.any fun t => t ≤ c.now) = true ↔
      ∀ t, j.leaseExpiresAt = some t → c.now < t := by
    intro j
    cases j.leaseExpiresAt <;> simp
  simp only [fence, getSupervisorJob, returns_bind, returns_orRaise, returns_read, returns_require,
    hlater]
  constructor
  · rintro ⟨o, _, ⟨id, _, ⟨hid, rfl⟩, hjob, rfl⟩, j, _, ⟨hj, rfl⟩, _, _, ⟨-, rfl⟩, _, _,
      ⟨⟨howner, hepoch⟩, rfl⟩, hexpiry, rfl⟩
    exact ⟨rfl, id, j, hid, hjob.trans hj, howner, hepoch, hexpiry⟩
  · rintro ⟨rfl, id, j, hid, hj, howner, hepoch, hexpiry⟩
    exact ⟨_, _, ⟨id, _, ⟨hid, rfl⟩, rfl, rfl⟩, j, _, ⟨hj, rfl⟩, (), _, ⟨by simp [howner], rfl⟩,
      (), _, ⟨⟨howner, hepoch⟩, rfl⟩, hexpiry, rfl⟩

theorem clear_eq (db : Db) (jobId : PyStr) : ∃ t,
    db.checkpoints.update? (fun r => r.jobId = jobId && r.latest)
      (fun r => { r with latest := false }) = some t := by
  refine Table.exists_update? _ fun a _ b _ => ?_
  simp only [CheckpointRow.clash, Table.patch]
  grind

/-- **What a successful call does**: it has passed the fence, its record is stored under the next
number, and every other row of the job has its flag down. -/
theorem returns_createCheckpoint : (createCheckpoint sha c).Returns db rec db' ↔
    (c.armed.all fun f => f.stands c.storeNow db) = true ∧ (fence c).Returns db () db ∧
    withCheckpointNo sha c.record (db.nextCheckpointNo c.record.identity.jobId) = .ok rec ∧
    checkInsert rec = .ok () ∧
    ∃ t t', db.checkpoints.update? (fun r => r.jobId = c.record.identity.jobId && r.latest)
        (fun r => { r with latest := false }) = some t ∧
      t.insert? (rowOf rec true) = some t' ∧ db' = { db with checkpoints := t' } := by
  obtain ⟨fenced, hfence⟩ : ∃ fenced : Prop, ∀ u db',
      (fence c).Returns db u db' ↔ db = db' ∧ fenced := ⟨_, fun _ _ => returns_fence⟩
  simp only [createCheckpoint, returns_atomically, returns_bind, returns_read, returns_require,
    returns_lift, clearLatestCheckpoint, insertCheckpoint, Relvar.returns_update,
    Relvar.returns_insert, returns_pure, hfence, and_assoc, exists_and_left, exists_eq_left',
    exists_const, true_and]
  constructor
  · rintro ⟨hstands, hfenced, _, hrec, _, -, _, _, ⟨t, hupdate, -, rfl⟩, _, ⟨_, hinsert, t', ht',
      rfl⟩, rfl, rfl⟩
    rw [(identity_of_withCheckpointNo hrec).2] at hupdate
    exact ⟨hstands, hfenced, hrec, hinsert, t, hupdate, t', ht', rfl⟩
  · rintro ⟨hstands, hfenced, hrec, hinsert, t, hupdate, t', ht', rfl⟩
    rw [← (identity_of_withCheckpointNo hrec).2] at hupdate
    exact ⟨hstands, hfenced, rec, hrec, (), validate_of_withCheckpointNo hrec, _, _,
      ⟨t, hupdate, rfl, rfl⟩, _, ⟨(), hinsert, t', ht', rfl⟩, rfl, rfl⟩

theorem eq_of_raises (h : (createCheckpoint sha c).Raises db e db') : db' = db := by
  rw [createCheckpoint, raises_atomically] at h
  obtain ⟨_, -, rfl⟩ := h
  rfl

/-- The rows after a successful call. -/
theorem rows_of_returns (h : (createCheckpoint sha c).Returns db rec db') :
    db'.jobs = db.jobs ∧ db'.checkpoints.rows = db.checkpoints.rows.map
        (fun r => if r.jobId = c.record.identity.jobId then r.body else r) ++ [rowOf rec true] := by
  obtain ⟨-, -, -, -, t, t', hupdate, hinsert, rfl⟩ := (returns_createCheckpoint).mp h
  obtain ⟨-, hrows⟩ := Table.update?_eq_some.mp hupdate
  obtain ⟨-, hrows'⟩ := Table.insert?_eq_some.mp hinsert
  refine ⟨rfl, ?_⟩
  rw [hrows', hrows]
  refine congrArg (· ++ _) (List.map_congr_left fun r _ => ?_)
  by_cases hjob : r.jobId = c.record.identity.jobId
  · cases hlatest : r.latest with
    | true => simp [Table.patch, CheckpointRow.body, hjob, hlatest]
    | false =>
      -- a flag that is down stays down
      have hbody : r.body = r := by rw [CheckpointRow.body, ← hlatest]
      simp [Table.patch, hjob, hlatest, hbody]
  · simp [Table.patch, hjob]

/-- The checkpoints of a job after a successful call. -/
theorem checkpointsOf_of_returns (h : (createCheckpoint sha c).Returns db rec db') :
    db'.checkpointsOf jobId = if jobId = c.record.identity.jobId then
        (db.checkpointsOf jobId).map CheckpointRow.body ++ [rowOf rec true]
      else db.checkpointsOf jobId := by
  obtain ⟨-, -, hrec, -⟩ := (returns_createCheckpoint).mp h
  have hjob : (rowOf rec true).jobId = c.record.identity.jobId :=
    (identity_of_withCheckpointNo hrec).2
  have hkept : ((fun r => decide (r.jobId = jobId)) ∘ fun r : CheckpointRow =>
      if r.jobId = c.record.identity.jobId then r.body else r) =
        fun r => decide (r.jobId = jobId) := by
    funext r
    simp only [Function.comp_apply]
    split <;> rfl
  rw [Db.checkpointsOf, (rows_of_returns h).2, List.filter_append, List.filter_map, hkept]
  by_cases heq : jobId = c.record.identity.jobId
  · rw [if_pos heq, List.filter_singleton, hjob, heq]
    simp only [decide_true, cond_true]
    refine congrArg (· ++ _) (List.map_congr_left fun r hr => ?_)
    simpa using fun hne => absurd (by simpa using (List.mem_filter.mp hr).2) hne
  · rw [if_neg heq, List.filter_singleton, hjob]
    simp only [Ne.symm heq, decide_false, cond_false, List.append_nil]
    refine (List.map_congr_left fun r hr => ?_).trans (List.map_id _)
    have hr : r.jobId = jobId := by simpa using (List.mem_filter.mp hr).2
    rw [if_neg (by rw [hr]; exact heq), id_eq]

theorem le_foldr_max {n : ℕ} {ns : List ℕ} (h : n ∈ ns) : n ≤ ns.foldr max 0 := by
  induction ns with
  | nil => cases h
  | cons m ns ih =>
    rcases List.mem_cons.mp h with rfl | h
    · exact le_max_left _ _
    · exact (ih h).trans (le_max_right _ _)

theorem foldr_max_range' (m n : ℕ) : (List.range' 1 n).foldr max m = max m n := by
  induction n generalizing m with
  | zero => simp
  | succ n ih =>
    rw [List.range'_1_concat, List.foldr_append, List.foldr_cons, List.foldr_nil, ih]
    omega

theorem Numbered.next (h : Numbered db) :
    db.nextCheckpointNo jobId = (db.checkpointsOf jobId).length + 1 := by
  rw [Db.nextCheckpointNo, h.numbers, foldr_max_range', Nat.zero_max]

/-- **A successful call extends the chain by one.** -/
theorem Numbered.of_returns (hn : Numbered db) (h : (createCheckpoint sha c).Returns db rec db') :
    Numbered db' := by
  obtain ⟨-, -, hrec, -⟩ := (returns_createCheckpoint).mp h
  have hno : rec.identity.checkpointNo = (db.checkpointsOf c.record.identity.jobId).length + 1 :=
    (identity_of_withCheckpointNo hrec).1.trans hn.next
  refine ⟨fun jobId => ?_, fun jobId r hr => ?_⟩
  · rw [checkpointsOf_of_returns h]
    split_ifs with hjob
    · subst hjob
      have hbody : (CheckpointRow.checkpointNo ∘ CheckpointRow.body) = CheckpointRow.checkpointNo :=
        rfl
      rw [List.map_append, List.map_map, hbody, hn.numbers, List.length_append, List.length_map,
        List.map_singleton, List.length_singleton, List.range'_1_concat, Nat.add_comm 1]
      exact congrArg (fun n => _ ++ [n]) hno
    · exact hn.numbers jobId
  · rw [checkpointsOf_of_returns h] at hr ⊢
    split_ifs at hr ⊢ with hjob
    · subst hjob
      rw [List.length_append, List.length_map, List.length_singleton]
      rcases List.mem_append.mp hr with hold | hnew
      · -- the earlier ones have a lower number, and their flag is down
        obtain ⟨r', hr', rfl⟩ := List.mem_map.mp hold
        have hle : r'.checkpointNo ∈
            List.range' 1 (db.checkpointsOf c.record.identity.jobId).length :=
          hn.numbers _ ▸ List.mem_map_of_mem hr'
        rw [List.mem_range'_1] at hle
        have hlt : r'.body.checkpointNo <
            (db.checkpointsOf c.record.identity.jobId).length + 1 :=
          Nat.add_comm 1 _ ▸ hle.2
        exact iff_of_false (fun hflag => Bool.noConfusion hflag) hlt.ne
      · rw [List.mem_singleton.mp hnew]
        exact iff_of_true rfl hno
    · exact hn.latest jobId r hr

theorem immutable_of_returns (h : (createCheckpoint sha c).Returns db rec db') :
    Immutable db db' := by
  refine ⟨[(rowOf rec true).body], ?_⟩
  rw [(rows_of_returns h).2, List.map_append, List.map_singleton, List.map_map]
  refine congrArg (· ++ _) (List.map_congr_left fun r _ => ?_)
  simp only [Function.comp_apply]
  split <;> rfl

/-- **A call goes through** exactly if it passes the fence, and the record can be stored. -/
theorem exists_returns_iff : (∃ rec db', (createCheckpoint sha c).Returns db rec db') ↔
    (c.armed.all fun f => f.stands c.storeNow db) = true ∧ (fence c).Returns db () db ∧
      Storable sha db c := by
  constructor
  · rintro ⟨rec, db', h⟩
    obtain ⟨hstands, hfence, hrec, hinsert, t, t', hupdate, ht', -⟩ :=
      (returns_createCheckpoint).mp h
    refine ⟨hstands, hfence, rec, hrec, hinsert, fun r hr heq => ?_⟩
    have hclash := (Table.insert?_eq_some.mp ht').1 _ ((Table.mem_of_update? hupdate).mpr
      ⟨r, hr, rfl⟩)
    have hid : ∀ p : CheckpointRow → Bool, (Table.patch p
        (fun r => { r with latest := false }) r).checkpointId = r.checkpointId := by
      intro p
      rw [Table.patch]
      split <;> rfl
    rw [CheckpointRow.clash, hid, heq] at hclash
    simp [rowOf] at hclash
  · rintro ⟨hstands, hfence, rec, hrec, hinsert, hnew⟩
    obtain ⟨t, hupdate⟩ := clear_eq db c.record.identity.jobId
    obtain ⟨hno, hjob⟩ := identity_of_withCheckpointNo hrec
    obtain ⟨t', ht'⟩ := Table.exists_insert? (t := t) (r := rowOf rec true) fun x hx => by
      obtain ⟨r, hr, rfl⟩ := (Table.mem_of_update? hupdate).mp hx
      have hlt : r.jobId = c.record.identity.jobId →
          r.checkpointNo < rec.identity.checkpointNo := by
        intro hjob
        rw [hno, Db.nextCheckpointNo, Nat.lt_succ_iff]
        exact le_foldr_max (List.mem_map_of_mem (List.mem_filter.mpr ⟨hr, by simp [hjob]⟩))
      have hfresh := hnew r hr
      simp only [CheckpointRow.clash, rowOf, Table.patch, hjob]
      grind
    exact ⟨rec, _, (returns_createCheckpoint).mpr
      ⟨hstands, hfence, hrec, hinsert, t, t', hupdate, ht', rfl⟩⟩

/-- **A call keeps its promise** exactly if it does not bring a storable record to a job whose
owner is left without an expiry. -/
theorem callKept_iff : CallKept sha db c ↔ Dated sha db (.create c) := by
  constructor
  · rintro ⟨-, hheld⟩ ⟨⟨id, j, hid, hj, howner, hepoch, hnone⟩, hstands, hstorable⟩
    have hfence : (fence c).Returns db () db :=
      (returns_fence).mpr ⟨rfl, id, j, hid, hj, howner, hepoch, fun t ht => by simp [hnone] at ht⟩
    obtain ⟨rec, db', h⟩ := (exists_returns_iff).mpr ⟨hstands, hfence, hstorable⟩
    obtain ⟨id', j', t, hid', hj', -, -, ht, -⟩ := hheld rec db' h
    obtain rfl := Option.mem_unique hid hid'
    obtain rfl := Option.mem_unique hj hj'
    rw [hnone] at ht
    cases ht
  · intro hdated
    refine ⟨fun e db' h => eq_of_raises h, fun rec db' h => ?_⟩
    obtain ⟨hstands, hfence, hstorable⟩ := (exists_returns_iff).mp ⟨rec, db', h⟩
    obtain ⟨-, id, j, hid, hj, howner, hepoch, hexpiry⟩ := (returns_fence).mp hfence
    cases ht : j.leaseExpiresAt with
    | none => exact absurd ⟨⟨id, j, hid, hj, howner, hepoch, ht⟩, hstands, hstorable⟩ hdated
    | some t => exact ⟨id, j, t, hid, hj, howner, hepoch, ht, hexpiry t ht⟩

end Call

/-! ### Whole runs -/

section Runs

variable {sha} {db : Db} {e : Event} {es : List Event} {r : CheckpointRow}

theorem step_cases (db : Db) (e : Event) :
    (step sha db e).checkpoints = db.checkpoints ∨
      ∃ c rec, e = .create c ∧ (createCheckpoint sha c).Returns db rec (step sha db e) := by
  cases e with
  | create c =>
    rcases returns_or_raises (createCheckpoint sha c) db with ⟨rec, db', h⟩ | ⟨e, db', h⟩
    · refine .inr ⟨c, rec, rfl, ?_⟩
      rw [step, h.snd_eq]
      exact h
    · rw [step, h.snd_eq, eq_of_raises h]
      exact .inl rfl
  | onJob | createJob => exact .inl rfl

theorem Numbered.step (hn : Numbered db) : Numbered (step sha db e) := by
  rcases @step_cases sha db e with hsame | ⟨c, rec, -, h⟩
  · constructor
    · simpa only [Db.checkpointsOf, hsame] using hn.numbers
    · simpa only [Db.checkpointsOf, hsame] using hn.latest
  · exact hn.of_returns h

theorem immutable_step (db : Db) (e : Event) : Immutable db (step sha db e) := by
  rcases @step_cases sha db e with hsame | ⟨c, rec, -, h⟩
  · simp only [Immutable, hsame, List.prefix_rfl]
  · exact immutable_of_returns h

theorem Numbered.run (hn : Numbered db) : Numbered (run sha db es) :=
  @Runs.run_inv _ _ _ (fun _ _ => True) _ _ _ (fun _ _ hn _ => hn.step) hn
    (Runs.along_of_forall fun _ _ => trivial)

/-- A checkpoint was there, or it was written by a call on the way. -/
theorem origin_run (h : r ∈ (run sha db es).checkpoints.rows) :
    (∃ r₀ ∈ db.checkpoints.rows, r.body = r₀.body) ∨ ∃ as c bs rec, es = as ++ .create c :: bs ∧
      (createCheckpoint sha c).Returns (run sha db as) rec
        (Checkpoints.step sha (run sha db as) (.create c)) ∧ r.body = rowOf rec false := by
  induction es using List.reverseRecOn generalizing r with
  | nil => exact .inl ⟨r, h, rfl⟩
  | append_singleton es e ih =>
    -- a row that was there before the last step comes from where it came from then
    have hbefore : ∀ r₀ ∈ (run sha db es).checkpoints.rows, r.body = r₀.body →
        (∃ r₀ ∈ db.checkpoints.rows, r.body = r₀.body) ∨ ∃ as c bs rec,
          es ++ [e] = as ++ .create c :: bs ∧ (createCheckpoint sha c).Returns (run sha db as) rec
            (Checkpoints.step sha (run sha db as) (.create c)) ∧ r.body = rowOf rec false := by
      intro r₀ hr₀ hbody
      rw [hbody]
      rcases ih hr₀ with hthere | ⟨as, c, bs, rec, rfl, hreturns, hrow⟩
      · exact .inl hthere
      · exact .inr ⟨as, c, bs ++ [e], rec, by simp, hreturns, hrow⟩
    rw [run, Runs.run_append] at h
    rcases @step_cases sha (run sha db es) e with hsame | ⟨c, rec, rfl, hreturns⟩
    · exact hbefore r (by rw [← hsame]; exact h) rfl
    · have hrows : r ∈ (Checkpoints.step sha (run sha db es) (.create c)).checkpoints.rows := h
      rw [(rows_of_returns hreturns).2, List.mem_append, List.mem_singleton] at hrows
      rcases hrows with hold | rfl
      · obtain ⟨r₀, hr₀, rfl⟩ := List.mem_map.mp hold
        refine hbefore r₀ hr₀ ?_
        split <;> rfl
      · exact .inr ⟨es, c, [], rec, rfl, hreturns, rfl⟩

/-- **The chain of checkpoints** is kept, whatever jobs there are and however the calls come,
exactly if no storable record is ever handed in for a job whose owner is left without an expiry.
All but the fence holds of every run. -/
theorem chain_kept_iff (sha : Sha256) (jobs : String → Option JobRow) (es : List Event) :
    ChainKept sha ⟨jobs, .empty⟩ es ↔ Runs.Along (step sha) (Dated sha) ⟨jobs, .empty⟩ es := by
  rw [Runs.along_iff_split]
  constructor
  · intro h as e bs hsplit
    cases e with
    | create c => exact (callKept_iff).mp (h.calls as c bs hsplit)
    | onJob | createJob => trivial
  · intro hdated
    have hnone : Numbered ⟨jobs, .empty⟩ := ⟨fun _ => rfl, fun _ r hr => absurd hr (by
      simp [Db.checkpointsOf])⟩
    refine ⟨fun as bs _ => hnone.run, fun as e bs _ => immutable_step _ e, fun as c bs hsplit =>
      (callKept_iff).mpr (hdated as (.create c) bs hsplit), fun r hr => ?_⟩
    exact (origin_run hr).resolve_left fun ⟨r₀, hr₀, _⟩ => by simp at hr₀

end Runs

/-! ### A holder without an expiry -/

/-- What an instance hands in for a job. -/
def firstCheckpoint : CreateCall where
  record := ⟨checkpointVersion, ⟨[], PyStr.ofString "job", 0, []⟩, {}, {}, {}, {}, []⟩
  ownerInstanceId := "first"
  leaseEpoch := 1
  now := 1000000000000
  armed := none
  storeNow := 1000000000000

/-- A job is claimed for a minute, its expiry is lost, and eleven days later a checkpoint comes. -/
def lostExpiry : List Event :=
  [.createJob "job" "task", .onJob "job" ((Jobs.Primitive.queue (.claim "first" 60)).at 0),
    .onJob "job" ((Jobs.Primitive.update { leaseExpiresAt := some none }).at 1),
    .create firstCheckpoint]

/-- **A lease without an expiry is let through**: the checkpoint is written, though nobody is known
to hold the job. -/
theorem undated_holder_writes :
    ¬ChainKept Context.plainSha ⟨fun _ => none, .empty⟩ lostExpiry := by
  rw [chain_kept_iff, Runs.along_iff_split]
  intro h
  refine h [_, _, _] (.create firstCheckpoint) [] rfl ⟨⟨"job", _, rfl, rfl, rfl, rfl, rfl⟩, rfl, ?_⟩
  have hstored : (withCheckpointNo Context.plainSha firstCheckpoint.record 1 >>=
      checkInsert) = .ok () := by
    decide +kernel
  obtain ⟨rec, hrec, hinsert⟩ := Except.bind_eq_ok.mp hstored
  exact ⟨rec, hrec, hinsert, fun r hr => by cases hr⟩

end Checkpoints

end ArgentTeam
