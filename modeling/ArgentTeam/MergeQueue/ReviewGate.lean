import ArgentTeam.Core.Exec
import ArgentTeam.MergeQueue.Calls

/-!
# The review gate of the merge queue

Reviews are written by `record_review`, as controller evidence, and by the results of reviewers,
as evidence of an agent; both write one of two verdicts, `approve` and `reject`. The default review
policy of the merge queue looks for other words: none of those it takes for an approval is ever
written. So it objects to each HIGH task whatever its reviews say, and agrees with them only as
long as nobody has approved the task.
-/

namespace ArgentTeam

open Prog ArgentTeam.Store ArgentTeam.Core

namespace ReviewGate

/-! ### The policy -/

def approvingReviewVerdicts : List String := ["approved", "passed", "accept", "accepted"]

def listReviews (db : ArgentTeam.Db) (taskId : String) : List Review :=
  db.log.reviews.rows.filter fun r => r.taskId.text = taskId

/-- `_default_review_policy`, of a source job of this task. -/
def defaultReviewPolicy (db : ArgentTeam.Db) (taskId : String) : Option String :=
  match db.getTask taskId with
  | none => none
  | some task =>
    if task.riskClass ≠ .high then none
    else if ∃ r ∈ listReviews db taskId, r.sourceClass = .controller ∧
        r.verdict ∈ approvingReviewVerdicts then none
    else some "REVIEW_REQUIRED"

/-- The review approves, and counts as controller evidence. -/
def Approves (r : Review) : Prop := r.verdict = "approve" ∧ r.sourceClass = .controller

/-- The policy agrees with the reviews of a task. -/
structure GateAgrees (db : ArgentTeam.Db) (taskId : String) : Prop where
  agrees : defaultReviewPolicy db taskId = none ↔ ∃ r ∈ listReviews db taskId, Approves r
  promoted : (∃ r ∈ listReviews db taskId, Approves r) →
    ∀ (q : MergeQueue.Calls.Queue) (mdb : MergeQueue.Db) (told : MergeQueue.Calls.Told)
      (c : IntegrationCandidate) (frame : MergeQueue.Calls.Frame),
      told.reviewError = defaultReviewPolicy db taskId →
      MergeQueue.dependencySatisfied q.config mdb c = true →
      (MergeQueue.Calls.weighingTurn q mdb told c frame).point ≠
        .promoting c .pending (some "REVIEW_REQUIRED") frame
  rejected : (∀ r ∈ listReviews db taskId, r.sourceClass = .controller → r.verdict = "reject") →
    defaultReviewPolicy db taskId ≠ none

/-! ### What is written to the reviews -/

/-- The verdicts that are written. -/
def Canonical (verdict : String) : Prop := verdict = "approve" ∨ verdict = "reject"

theorem canonical_canonicalReviewVerdict (recommendation : PyStr) :
    Canonical (canonicalReviewVerdict recommendation) := by
  unfold canonicalReviewVerdict
  split
  · exact Or.inl rfl
  · exact Or.inr rfl

theorem Canonical.not_mem {verdict : String} (h : Canonical verdict) :
    verdict ∉ approvingReviewVerdicts := by
  rcases h with rfl | rfl <;> decide

def reviewTable (w : World) : Table Review Review.clash := w.db.log.reviews

/-- What is written between two tables of reviews is what agents write. -/
structure Agents (t t' : Table Review Review.clash) : Prop where
  kept : ∀ r ∈ t.rows, r ∈ t'.rows
  added : ∀ r ∈ t'.rows, r ∈ t.rows ∨ r.sourceClass = .agent ∧ Canonical r.verdict

instance : Std.Refl Agents := ⟨fun _ => ⟨fun _ h => h, fun _ h => .inl h⟩⟩

instance : IsTrans _ Agents where
  trans _ _ _ h h' := ⟨fun r hr => h'.kept r (h.kept r hr),
    fun r hr => (h'.added r hr).elim (h.added r) .inr⟩

instance : OffBooks reviewTable := ⟨fun _ _ _ _ _ _ hreviews => hreviews⟩

instance : Tables.tasks.Apart reviewTable := ⟨fun _ _ => rfl⟩

instance : Tables.findings.Apart reviewTable := ⟨fun _ _ => rfl⟩

instance : Tables.decisions.Apart reviewTable := ⟨fun _ _ => rfl⟩

instance : Tables.ownerApprovals.Apart reviewTable := ⟨fun _ _ => rfl⟩

instance : Tables.actionExecutions.Apart reviewTable := ⟨fun _ _ => rfl⟩

instance : Tables.agentDispatches.Apart reviewTable := ⟨fun _ _ => rfl⟩

instance : Tables.roleRuns.Apart reviewTable := ⟨fun _ _ => rfl⟩

instance : Tables.testRuns.Apart reviewTable := ⟨fun _ _ => rfl⟩

instance : Tables.projects.Apart reviewTable := ⟨fun _ _ => rfl⟩

instance : Tables.taskRuns.Apart reviewTable := ⟨fun _ _ => rfl⟩

instance : Tables.commandIdempotency.Apart reviewTable := ⟨fun _ _ => rfl⟩

instance : OfRuns reviewTable Agents where
  project _ := inferInstance
  taskRun _ := inferInstance
  taskRunStatus _ _ := inferInstance
  roleRun _ := inferInstance
  roleRunStatus _ _ := inferInstance
  testRun _ := inferInstance

section Agent

variable {cfg : Config} {d : AgentDispatch} {fields : List (PyStr × Json)} {r : Review}

theorem agents_insertReview (hclass : r.sourceClass = .agent) (hverdict : Canonical r.verdict) :
    Moves reviewTable Agents (insertReview r) := by
  refine Relvar.moves_insert fun w t' ht => ⟨fun x hx => (Table.mem_of_insert? ht).mpr (.inl hx),
    fun x hx => ?_⟩
  rcases (Table.mem_of_insert? ht).mp hx with hx | rfl
  · exact Or.inl hx
  · exact Or.inr ⟨hclass, hverdict⟩

instance : Moves reviewTable Agents (reviewEffects cfg d fields) := by
  unfold reviewEffects
  refine moves_bind inferInstance fun _ => ?_
  refine moves_bind (agents_insertReview rfl (canonical_canonicalReviewVerdict _)) fun _ => ?_
  exact moves_bind inferInstance fun _ => inferInstance

instance : Moves reviewTable Agents (sectionEffects cfg d fields) := by
  unfold sectionEffects
  split <;> infer_instance

instance : Moves reviewTable Agents (applyRoleEffects cfg d fields) := by
  unfold applyRoleEffects
  exact moves_bind inferInstance fun _ => moves_bind inferInstance fun _ => inferInstance

/-- What a result does to the reviews. -/
instance {dispatchId source : String} {eventMeta result : Json} {key : Option String} :
    Moves reviewTable Agents
      (receiveAgentResult cfg dispatchId eventMeta result source key) := by
  refine moves_receiveAgentResult <| moves_receiveWork fun _ => moves_receiveOpen fun _ =>
    moves_consumeWork (fun _ => inferInstance) (fun fields => ?_) fun _ => inferInstance
  exact moves_bind inferInstance fun _ => moves_bind inferInstance fun _ => inferInstance

end Agent

/-! ### Approvals that are recorded -/

/-- The command is a `record_review` of the task that approves it, and it is carried out: it
returns, and its key has not been recorded before. -/
def approvesTask (taskId : String) (w : World) : Command → Prop
  | .recordReview t verdict source detail key =>
    t = taskId ∧ canonicalReviewVerdict (PyStr.ofString verdict) = "approve" ∧
      recorded w.db key "record_review" = none ∧
      ∃ rv w', (recordReview t verdict source detail key).Returns w rv w'
  | _ => False

section Step

variable {cfg : Config} {w w' : World} {t verdict source taskId : String} {x : Command}
  {detail : Option (String × JsonText)} {key : Option String} {rv : Option Review}
  {cs : List Command}

theorem reviewTable_recordCommand {command resultId : String} {args : Json} :
    reviewTable (recordCommand key command resultId args w) = reviewTable w := by
  cases key <;> rfl

/-- A `record_review` that is carried out writes one review. -/
theorem rows_of_recordReview (hrec : recorded w.db key "record_review" = none)
    (h : (recordReview t verdict source detail key).Returns w rv w') :
    ∃ r, r.taskId.text = t ∧ r.verdict = canonicalReviewVerdict (PyStr.ofString verdict) ∧
      r.sourceClass = .controller ∧
      ∀ x, x ∈ (reviewTable w').rows ↔ x ∈ (reviewTable w).rows ∨ x = r := by
  obtain ⟨_, w₀, hcheck, hcall⟩ := returns_bind.mp h
  obtain rfl : w₀ = w := by
    rw [← hcheck.snd_eq, checkSource_snd]
  rcases returns_idempotent.mp hcall with ⟨r, hr, -⟩ | ⟨-, resultId, w₁, hwork, rfl⟩
  · rw [hrec] at hr
    cases hr
  simp only [returns_bind, returns_theTask, returns_uuid4, returns_nowIso, insertReview,
    Relvar.returns_insert, returns_pure] at hwork
  obtain ⟨task, _, ⟨htask, rfl⟩, _, w₂, hactive, rid, _, ⟨-, rfl⟩, _, _, ⟨-, rfl⟩, _, w₃,
    ⟨rows, hrows, rfl⟩, _, w₄, hstarted, _, w₅, hcompleted, -, rfl⟩ := hwork
  have hbefore : reviewTable w₂ = reviewTable w₀ := Moves.frame reviewTable hactive
  refine ⟨⟨rid, task.id, canonicalReviewVerdict (PyStr.ofString verdict), detail.map Prod.snd,
    .controller⟩, (Table.mem_of_lookup htask).2, rfl, rfl, fun x => ?_⟩
  rw [reviewTable_recordCommand, Moves.frame reviewTable hcompleted,
    Moves.frame reviewTable hstarted, ← hbefore]
  exact Table.mem_of_insert? hrows

/-- A `record_review` that is not carried out leaves the reviews alone. -/
theorem reviewTable_recordReview (w : World) :
    reviewTable (recordReview t verdict source detail key w).2 = reviewTable w ∨
      recorded w.db key "record_review" = none ∧
        ∃ rv w', (recordReview t verdict source detail key).Returns w rv w' := by
  rcases checked_snd (checkSource_snd source) with hs | ⟨_, hcheck, hs⟩
  · exact Or.inl (congrArg reviewTable hs)
  have hagain : ∀ id, Moves reviewTable Eq (refetch Db.getReview id) := fun _ => inferInstance
  rcases idempotent_view reviewTable hagain with hv | ⟨hrec, r, w₁, hwork, -⟩
  · exact Or.inl ((congrArg reviewTable hs).trans hv)
  · exact Or.inr ⟨hrec, r.1, _, returns_bind.mpr ⟨_, w, hcheck,
      returns_idempotent.mpr (.inr ⟨hrec, r.2, w₁, hwork, rfl⟩)⟩⟩

/-- **What a step does to the reviews**: what agents write, or it is a `record_review` that is
carried out. -/
theorem step_reviews (cfg : Config) (w : World) (x : Command) :
    Agents (reviewTable w) (reviewTable (step cfg w x)) ∧ (∀ t, ¬approvesTask t w x) ∨
      ∃ r, (∀ t, approvesTask t w x ↔ r.taskId.text = t ∧ r.verdict = "approve") ∧
        Canonical r.verdict ∧ r.sourceClass = .controller ∧
        ∀ y, y ∈ (reviewTable (step cfg w x)).rows ↔ y ∈ (reviewTable w).rows ∨ y = r := by
  cases x with
  | recordReview t verdict source detail key =>
    by_cases hdone : recorded w.db key "record_review" = none ∧
        ∃ rv w', (recordReview t verdict source detail key).Returns w rv w'
    · obtain ⟨hrec, rv, w', h⟩ := hdone
      obtain ⟨r, ht, hverdict, hclass, hrows⟩ := rows_of_recordReview hrec h
      refine Or.inr ⟨r, fun t' => ?_, ?_, hclass, ?_⟩
      · rw [approvesTask, ht, hverdict]
        exact ⟨fun h => ⟨h.1, h.2.1⟩, fun h' => ⟨h'.1, h'.2, hrec, rv, w', h⟩⟩
      · rw [hverdict]
        exact canonical_canonicalReviewVerdict _
      · rwa [show step cfg w (.recordReview t verdict source detail key) = w' from h.snd_eq]
    · refine Or.inl ⟨?_, fun t' h => hdone h.2.2⟩
      rw [show reviewTable (step cfg w (.recordReview t verdict source detail key)) =
        reviewTable w from (reviewTable_recordReview w).resolve_right hdone]
      exact Std.Refl.refl _
  | _ => exact Or.inl ⟨Moves.moves w, fun _ => id⟩

theorem canonical_run (h : ∀ r ∈ (reviewTable w).rows, Canonical r.verdict) :
    ∀ r ∈ (reviewTable (run cfg w cs)).rows, Canonical r.verdict := by
  refine Runs.run_always (I := fun w => ∀ r ∈ (reviewTable w).rows, Canonical r.verdict)
    (fun w x hw r hr => ?_) h
  rcases step_reviews cfg w x with ⟨hagents, -⟩ | ⟨r', -, hcanonical, -, hrows⟩
  · rcases hagents.added r hr with hr | ⟨-, hr⟩
    · exact hw r hr
    · exact hr
  · rcases (hrows r).mp hr with hr | rfl
    · exact hw r hr
    · exact hcanonical

theorem mem_listReviews {r : Review} :
    r ∈ listReviews w.db taskId ↔ r ∈ (reviewTable w).rows ∧ r.taskId.text = taskId := by
  simp [listReviews, reviewTable]

/-- A review approves the task after a step if one does before it, or if the step is a
`record_review` that approves the task and is carried out. -/
theorem approved_step : (∃ r ∈ listReviews (step cfg w x).db taskId, Approves r) ↔
    (∃ r ∈ listReviews w.db taskId, Approves r) ∨ approvesTask taskId w x := by
  simp only [mem_listReviews]
  rcases step_reviews cfg w x with ⟨hagents, hnot⟩ | ⟨r', happroves, -, hclass, hrows⟩
  · constructor
    · rintro ⟨r, ⟨hr, htask⟩, happroved⟩
      rcases hagents.added r hr with hr | ⟨hagent, -⟩
      · exact Or.inl ⟨r, ⟨hr, htask⟩, happroved⟩
      · rw [happroved.2] at hagent
        cases hagent
    · rintro (⟨r, ⟨hr, htask⟩, happroved⟩ | h)
      · exact ⟨r, ⟨hagents.kept r hr, htask⟩, happroved⟩
      · exact absurd h (hnot taskId)
  · constructor
    · rintro ⟨r, ⟨hr, htask⟩, happroved⟩
      rcases (hrows r).mp hr with hr | rfl
      · exact Or.inl ⟨r, ⟨hr, htask⟩, happroved⟩
      · exact Or.inr ((happroves taskId).mpr ⟨htask, happroved.1⟩)
    · rintro (⟨r, ⟨hr, htask⟩, happroved⟩ | h)
      · exact ⟨r, ⟨(hrows r).mpr (.inl hr), htask⟩, happroved⟩
      · obtain ⟨htask, hverdict⟩ := (happroves taskId).mp h
        exact ⟨r', ⟨(hrows r').mpr (.inr rfl), htask⟩, hverdict, hclass⟩

theorem not_approved_run : (¬∃ r ∈ listReviews (run cfg w cs).db taskId, Approves r) ↔
    (¬∃ r ∈ listReviews w.db taskId, Approves r) ∧
      Along cfg (fun w x => ¬approvesTask taskId w x) w cs := by
  induction cs generalizing w with
  | nil => exact (and_iff_left trivial).symm
  | cons x cs ih =>
    rw [show run cfg w (x :: cs) = run cfg (step cfg w x) cs from rfl, ih, approved_step, not_or,
      and_assoc]
    rfl

end Step

/-! ### The gate -/

section Gate

variable {db : ArgentTeam.Db} {taskId : String} {task : Task}

theorem defaultReviewPolicy_of_canonical (htask : db.getTask taskId = some task)
    (hhigh : task.riskClass = .high) (h : ∀ r ∈ listReviews db taskId, Canonical r.verdict) :
    defaultReviewPolicy db taskId = some "REVIEW_REQUIRED" := by
  have hnone : ¬∃ r ∈ listReviews db taskId, r.sourceClass = .controller ∧
      r.verdict ∈ approvingReviewVerdicts := by
    rintro ⟨r, hr, -, hverdict⟩
    exact (h r hr).not_mem hverdict
  rw [defaultReviewPolicy, htask]
  simp [hhigh, hnone]

/-- So it agrees with them exactly if none of them approves. -/
theorem gateAgrees_iff (htask : db.getTask taskId = some task) (hhigh : task.riskClass = .high)
    (h : ∀ r ∈ listReviews db taskId, Canonical r.verdict) :
    GateAgrees db taskId ↔ ¬∃ r ∈ listReviews db taskId, Approves r := by
  have hpolicy := defaultReviewPolicy_of_canonical htask hhigh h
  have hobjects : defaultReviewPolicy db taskId ≠ none := by
    rw [hpolicy]
    simp
  constructor
  · rintro ⟨hagrees, -, -⟩ happroved
    exact hobjects (hagrees.mpr happroved)
  · intro hnone
    exact ⟨iff_of_false hobjects hnone, fun happroved => absurd happroved hnone,
      fun _ => hobjects⟩

/-- **The review gate agrees with the reviews of a HIGH task**, at the end of a run from an empty
database, exactly if no `record_review` of the run that approves the task is carried out. -/
theorem gate_agrees_iff (cfg : Config) (w : World) (hw : Fresh w) (cs : List Command)
    (taskId : String) (task : Task) (htask : (run cfg w cs).db.getTask taskId = some task)
    (hhigh : task.riskClass = .high) :
    GateAgrees (run cfg w cs).db taskId ↔
      Along cfg (fun w x => ¬approvesTask taskId w x) w cs := by
  have hrows : (reviewTable w).rows = [] := by
    rw [reviewTable, hw]
    rfl
  have hcanonical : ∀ r ∈ listReviews (run cfg w cs).db taskId, Canonical r.verdict := by
    intro r hr
    refine canonical_run (fun x hx => ?_) r ((mem_listReviews).mp hr).1
    rw [hrows] at hx
    cases hx
  rw [gateAgrees_iff htask hhigh hcanonical, not_approved_run]
  refine and_iff_right ?_
  rintro ⟨r, hr, -⟩
  rw [mem_listReviews, hrows] at hr
  cases hr.1

/-- A run of a role that is started and completed. -/
def played (role : Role) (roleRun : ℕ) : List Command :=
  [.startRole (num 1) role (roleSource .lead) none,
    .completeRole (num roleRun) (roleSource role) none]

/-- A HIGH task, which goes from role to role until its reviewer approves it. -/
def approval : List Command :=
  [.createProject "project" ownerSource none,
    .createTask (num 0) "task" ownerSource none none .high .allowedWithGate] ++
  played .lead 3 ++ played .analyst 8 ++ played .implementer 13 ++ played .qa 18 ++
  [.startRole (num 1) .reviewer (roleSource .lead) none,
    .recordReview (num 1) "approved" (roleSource .reviewer) none none]

theorem end_of_approval :
    ((run .lenient ticking approval).db.getTask (num 1)).map (·.riskClass) = some .high ∧
    (listReviews (run .lenient ticking approval).db (num 1)).map
      (fun r => (r.verdict, r.sourceClass)) = [("approve", .controller)] ∧
    defaultReviewPolicy (run .lenient ticking approval).db (num 1) = some "REVIEW_REQUIRED" := by
  decide +kernel

theorem gate_agrees_iff_approval :
    ∃ task : Task, (run .lenient ticking approval).db.getTask (num 1) = some task ∧
      (GateAgrees (run .lenient ticking approval).db (num 1) ↔
        Along .lenient (fun w x => ¬approvesTask (num 1) w x) ticking approval) := by
  obtain ⟨task, htask, hhigh⟩ := Option.map_eq_some_iff.mp (end_of_approval).1
  exact ⟨task, htask, gate_agrees_iff .lenient ticking rfl approval (num 1) task htask hhigh⟩

/-- The policy does not agree with the review that approves the task. -/
theorem approved_but_not_admitted :
    (∃ task : Task, (run .lenient ticking approval).db.getTask (num 1) = some task ∧
      task.riskClass = .high) ∧ ¬GateAgrees (run .lenient ticking approval).db (num 1) := by
  obtain ⟨htask, hreviews, hpolicy⟩ := end_of_approval
  refine ⟨Option.map_eq_some_iff.mp htask, fun h => ?_⟩
  have hmem : ("approve", EvidenceClass.controller) ∈
      (listReviews (run .lenient ticking approval).db (num 1)).map
        fun r => (r.verdict, r.sourceClass) := by
    rw [hreviews]
    exact List.mem_singleton_self _
  obtain ⟨r, hr, heq⟩ := List.mem_map.mp hmem
  rw [Prod.mk.injEq] at heq
  rw [h.agrees.mpr ⟨r, hr, heq⟩] at hpolicy
  cases hpolicy

end Gate

end ReviewGate

end ArgentTeam
