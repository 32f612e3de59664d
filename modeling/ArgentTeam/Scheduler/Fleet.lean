import ArgentTeam.Scheduler.Concurrency
import ArgentTeam.Supervisor.Backoff

/-!
# Writers that live side by side

Any number of schedulers drive the jobs of one store. An agent is a detached process: it
lives on whatever becomes of the row of its job. The gate in front of a spawn compares its
candidate with the jobs that `Store.list_active_job_facts` lists, and these are the rows in
`RUNNING`; a job that backs off is queued while its agent still works. Two writers whose
footprints overlap never live side by side as long as no gate admits a candidate past such
a job (`no_overlapping_writers`).
-/

namespace ArgentTeam

namespace Scheduler

open Supervisor

/-- A row of `supervisor_jobs`, with the columns the policy reads. -/
structure FleetJob where
  row : JobRow
  expectedRole : Option Role
  resourceClass : ResourceClass
  footprint : MutationFootprint
  dependsOn : Option String
  actionScope : Option ActionScope

/-- `_facts_from_row`. -/
def FleetJob.facts (j : FleetJob) : JobFacts where
  jobId := j.row.id
  role := j.expectedRole
  resourceClass := j.resourceClass
  footprint := j.footprint
  dependsOn := j.dependsOn
  actionClass := j.actionScope

/-- What `list_active_job_facts` lists. -/
def FleetJob.active (j : FleetJob) : Bool := j.row.terminal = none && j.row.primaryState = .running

def getDependencyTerminal (jobs : List FleetJob) (jobId : String) : DependencyTerminal :=
  match jobs.find? fun j => j.row.id = jobId with
  | none => .missing
  | some j => .terminal j.row.terminal

def listActiveJobFacts (jobs : List FleetJob) (excludeJobId : String) : List JobFacts :=
  (jobs.filter fun j => j.active && j.row.id ≠ excludeJobId).map FleetJob.facts

/-- What `set_job_metadata` is asked to write, its values validated; what is not given is
left as it is. -/
structure JobMetadata where
  mutationPathRoots : Option (List PyStr) := none
  integrationTarget : Option String := none
  actionScope : Option ActionScope := none
  dependsOn : Option String := none
  repoIdentity : Option String := none
  canonicalWorktreePath : Option String := none
  branchIdentity : Option String := none

/-- The row with new metadata. -/
def FleetJob.declare (m : JobMetadata) (j : FleetJob) : FleetJob :=
  { j with
    row := { j.row with factsVersion := j.row.factsVersion + 1 }
    footprint :=
      { repoIdentity := m.repoIdentity.or j.footprint.repoIdentity
        canonicalWorktreePath := m.canonicalWorktreePath.or j.footprint.canonicalWorktreePath
        branchIdentity := m.branchIdentity.or j.footprint.branchIdentity
        pathRoots := m.mutationPathRoots.getD j.footprint.pathRoots
        integrationTarget := m.integrationTarget.or j.footprint.integrationTarget }
    dependsOn := m.dependsOn.or j.dependsOn
    actionScope := m.actionScope.or j.actionScope }

/-- The row after `_commit`: the plan, and the role the snapshot shows at the frontier. -/
def FleetJob.commit (now : Time) (s : Snapshot) (obs : Option RunObservation) (j : FleetJob) :
    FleetJob :=
  { j with
    row := j.row.commit (decide now { s with job := j.row } obs)
    expectedRole := s.frontier.expectedRole }

/-- The row after a primitive of the queue. -/
def FleetJob.queue (now : Time) (js : Journal) (op : QueueOp) (j : FleetJob) : FleetJob :=
  { j with row := op.apply now js j.row }

/-- The store, and what is not in it: what the passes of the schedulers have read, and the
processes they have started. -/
structure Fleet where
  jobs : List FleetJob
  reading : List JobFacts
  cleared : List String
  agents : List String

namespace Fleet

variable (t : Fleet)

/-- Write the row of a job. -/
def edit (jobId : String) (f : FleetJob → FleetJob) : Fleet :=
  { t with jobs := t.jobs.map fun j => if j.row.id = jobId then f j else j }

/-- The horizon of a job that has to wait: `defer_retry_seconds`. -/
def deferRetrySeconds : ℕ := 300

/-- What `_concurrency_preflight` decides, once it has read its candidate. -/
def preflight (candidate : JobFacts) : ConcurrencyDecision :=
  decideConcurrency
    { candidate with
      dependencyTerminal := candidate.dependsOn.map (getDependencyTerminal t.jobs) }
    (listActiveJobFacts t.jobs candidate.jobId)

/-- `_concurrency_gate`: a candidate that is not admitted is queued again, or taken out of
service. -/
def concurrencyGate (candidate : JobFacts) (cas : LeaseCas) (now : Time) : Fleet :=
  let d := t.preflight candidate
  match d.verdict with
  | .allowParallel => t
  | .block =>
    t.edit candidate.jobId (.queue now [] (.quarantineBlocked d.reasonCode.text none))
  | .serialize | .defer =>
    t.edit candidate.jobId (.queue now [] (.requeue cas
      { queueReason := .concurrencySerialized
        nextEligibleAt := some (later now deferRetrySeconds)
        errorCode := some d.reasonCode.text }))

/-- The job has an agent, or a pass that is about to launch one. -/
def armed (jobId : String) : Bool := t.agents.contains jobId || t.cleared.contains jobId

end Fleet

inductive FleetStep
  | submit (job : FleetJob)
  /-- A primitive of the queue, as the journal then stands. -/
  | queue (jobId : String) (now : Time) (journal : Journal) (op : QueueOp)
  /-- `_commit`, on the snapshot a pass has read. -/
  | commit (jobId : String) (holder : Option LeaseCas) (now : Time) (s : Option Snapshot)
    (obs : Option RunObservation)
  /-- `set_job_metadata`, `bind_writer_worktree`. -/
  | setJobMetadata (jobId : String) (cas : LeaseCas) (now : Time) (m : JobMetadata)
  | readCandidate (jobId : String)
  | entryGate (candidate : JobFacts) (cas : LeaseCas) (now : Time)
  | spawnGate (candidate : JobFacts) (cas : LeaseCas) (now : Time)
  /-- A pass that was let through ends without a launch. -/
  | abandon (jobId : String)
  /-- A pass that was let through launches its agent. -/
  | launch (jobId : String)
  | exit (jobId : String)

/-- One step of a fleet; a step that cannot be taken changes nothing. -/
def Fleet.step (t : Fleet) : FleetStep → Fleet
  | .submit job =>
    if t.jobs.any fun j => j.row.id = job.row.id then t else { t with jobs := t.jobs ++ [job] }
  | .queue jobId now journal op => t.edit jobId (.queue now journal op)
  | .commit jobId holder now s obs =>
    match s with
    | none => t
    | some s => t.edit jobId fun j =>
      if j.row.leaseFence holder now then j.commit now s obs else j
  | .setJobMetadata jobId cas now m =>
    t.edit jobId fun j => if j.row.leaseIsCurrent cas now then j.declare m else j
  | .readCandidate jobId =>
    match t.jobs.find? fun j => j.row.id = jobId with
    | none => t
    | some j => { t with reading := t.reading ++ [j.facts] }
  | .entryGate candidate cas now =>
    if candidate ∈ t.reading then
      { t.concurrencyGate candidate cas now with reading := t.reading.erase candidate }
    else t
  | .spawnGate candidate cas now =>
    if candidate ∈ t.reading then
      { t.concurrencyGate candidate cas now with
        reading := t.reading.erase candidate
        cleared :=
          if (t.preflight candidate).verdict = .allowParallel then t.cleared ++ [candidate.jobId]
          else t.cleared }
    else t
  | .abandon jobId => { t with cleared := t.cleared.erase jobId }
  | .launch jobId =>
    if jobId ∈ t.cleared then
      { t with cleared := t.cleared.erase jobId, agents := t.agents ++ [jobId] }
    else t
  | .exit jobId => { t with agents := t.agents.erase jobId }

/-! ### The condition -/

/-- The facts a job is about to get agree with those of every other job that has an agent
or is about to have one. -/
def Fleet.Fits (t : Fleet) (facts : JobFacts) : Prop :=
  ∀ b ∈ t.jobs, t.armed b.row.id = true → b.row.id ≠ facts.jobId → Compatible facts b.facts

/-- A candidate was read as it is. -/
def Fleet.Fresh (t : Fleet) (candidate : JobFacts) : Prop :=
  ∀ a ∈ t.jobs, a.row.id = candidate.jobId → a.facts = candidate

/-- A gate that admits a candidate sees every job it would get in the way of: one that has
an agent, or is about to have one, and is not compatible with the candidate is active. -/
def Fleet.Sees (t : Fleet) (candidate : JobFacts) : Prop :=
  ∀ b ∈ t.jobs, t.armed b.row.id = true → b.row.id ≠ candidate.jobId → b.active = false →
    Compatible candidate b.facts

/-- What a step must not do for writers to keep apart: admit a candidate past a job that is
not listed, or on facts that have changed since; and give a job with an agent facts that
are at odds with those of another one. -/
def FleetStep.Sound (t : Fleet) : FleetStep → Prop
  | .spawnGate candidate _ _ =>
    candidate ∈ t.reading → (t.preflight candidate).verdict = .allowParallel →
      t.Fresh candidate ∧ t.Sees candidate
  | .commit jobId holder now s obs =>
    ∀ snap ∈ s, ∀ a ∈ t.jobs, a.row.id = jobId → a.row.leaseFence holder now = true →
      t.armed jobId = true → t.Fits (a.commit now snap obs).facts
  | .setJobMetadata jobId cas now m =>
    ∀ a ∈ t.jobs, a.row.id = jobId → a.row.leaseIsCurrent cas now = true →
      t.armed jobId = true → t.Fits (a.declare m).facts
  | _ => True

section

variable {t : Fleet} {facts : JobFacts}

instance : Decidable (t.Fits facts) :=
  inferInstanceAs (Decidable (∀ b ∈ t.jobs, _ → _ → _))

instance : Decidable (t.Fresh facts) :=
  inferInstanceAs (Decidable (∀ a ∈ t.jobs, _ → _))

instance : Decidable (t.Sees facts) :=
  inferInstanceAs (Decidable (∀ b ∈ t.jobs, _ → _ → _ → _))

instance : (e : FleetStep) → Decidable (e.Sound t)
  | .spawnGate .. => inferInstanceAs (Decidable (_ → _ → _ ∧ _))
  | .commit _ _ _ s _ => inferInstanceAs (Decidable (∀ snap ∈ s, ∀ a ∈ t.jobs, _ → _ → _ → _))
  | .setJobMetadata .. => inferInstanceAs (Decidable (∀ a ∈ t.jobs, _ → _ → _ → _))
  | .submit _ | .queue .. | .readCandidate _ | .entryGate .. | .abandon _ | .launch _
  | .exit _ => isTrue trivial

end

/-! ### Compatible side by side -/

/-- What holds of a fleet: who is armed or was read has a row, and jobs that are armed may
run side by side. -/
structure Fleet.Apart (t : Fleet) : Prop where
  known : ∀ f ∈ t.reading, ∃ a ∈ t.jobs, a.row.id = f.jobId
  armed : ∀ id, t.armed id = true → ∃ a ∈ t.jobs, a.row.id = id
  compatible : ∀ a ∈ t.jobs, ∀ b ∈ t.jobs, t.armed a.row.id = true → t.armed b.row.id = true →
    a.row.id ≠ b.row.id → Compatible a.facts b.facts

namespace Fleet

variable {t t' : Fleet} {jobId : String} {f : FleetJob → FleetJob} {candidate : JobFacts}

theorem mem_edit (hid : ∀ j, (f j).row.id = j.row.id) {b : FleetJob}
    (hb : b ∈ (t.edit jobId f).jobs) :
    ∃ a ∈ t.jobs, a.row.id = b.row.id ∧ b = if a.row.id = jobId then f a else a := by
  obtain ⟨a, ha, rfl⟩ := List.mem_map.mp hb
  refine ⟨a, ha, ?_, rfl⟩
  split
  · exact (hid a).symm
  · rfl

theorem known_edit (hid : ∀ j, (f j).row.id = j.row.id) {id : String}
    (h : ∃ a ∈ t.jobs, a.row.id = id) : ∃ a ∈ (t.edit jobId f).jobs, a.row.id = id := by
  obtain ⟨a, ha, rfl⟩ := h
  refine ⟨if a.row.id = jobId then f a else a, List.mem_map.mpr ⟨a, ha, rfl⟩, ?_⟩
  split
  · exact hid a
  · rfl

/-- **An edit**: jobs keep apart if the new facts of the job, where it is armed, fit. -/
theorem Apart.edit (h : t.Apart) (hid : ∀ j, (f j).row.id = j.row.id)
    (hfits : ∀ a ∈ t.jobs, a.row.id = jobId → t.armed jobId →
      ∀ b ∈ t.jobs, t.armed b.row.id → b.row.id ≠ jobId → Compatible (f a).facts b.facts) :
    (t.edit jobId f).Apart where
  known g hg := known_edit hid (h.known g hg)
  armed id hid' := known_edit hid (h.armed id hid')
  compatible := by
    intro a' ha' b' hb' harmed harmed' hne
    obtain ⟨a, ha, haid, rfl⟩ := mem_edit hid ha'
    obtain ⟨b, hb, hbid, rfl⟩ := mem_edit hid hb'
    rw [← haid] at harmed hne
    rw [← hbid] at harmed' hne
    by_cases ha₁ : a.row.id = jobId
    · have hb₁ : b.row.id ≠ jobId := fun heq => hne (ha₁.trans heq.symm)
      rw [if_pos ha₁, if_neg hb₁]
      exact hfits a ha ha₁ (ha₁ ▸ harmed) b hb harmed' hb₁
    · by_cases hb₁ : b.row.id = jobId
      · rw [if_neg ha₁, if_pos hb₁]
        exact (hfits b hb hb₁ (hb₁ ▸ harmed') a ha harmed ha₁).symm
      · rw [if_neg ha₁, if_neg hb₁]
        exact h.compatible a ha b hb harmed harmed' hne

theorem Apart.edit_of_facts (h : t.Apart) (hfacts : ∀ j, (f j).facts = j.facts) :
    (t.edit jobId f).Apart := by
  refine h.edit (fun j => congrArg JobFacts.jobId (hfacts j)) ?_
  intro a ha haid harmed b hb hb' hne
  rw [hfacts]
  exact h.compatible a ha b hb (haid ▸ harmed) hb' (fun heq => hne (heq.symm.trans haid))

theorem Apart.mono (h : t.Apart) (hjobs : t'.jobs = t.jobs)
    (hread : ∀ g ∈ t'.reading, g ∈ t.reading)
    (harmed : ∀ id, t'.armed id → t.armed id) : t'.Apart where
  known g hg := hjobs ▸ h.known g (hread g hg)
  armed id hid := hjobs ▸ h.armed id (harmed id hid)
  compatible a ha b hb ha' hb' :=
    h.compatible a (hjobs ▸ ha) b (hjobs ▸ hb) (harmed _ ha') (harmed _ hb')

theorem queue_facts (now : Time) (js : Journal) (op : QueueOp) (j : FleetJob) :
    (j.queue now js op).facts = j.facts := by
  simp only [FleetJob.queue, FleetJob.facts, (QueueOp.sameWork (j := j.row)).id]

theorem Apart.concurrencyGate (h : t.Apart) (cas : LeaseCas) (now : Time) :
    (t.concurrencyGate candidate cas now).Apart := by
  unfold Fleet.concurrencyGate
  dsimp only
  split
  · exact h
  all_goals exact h.edit_of_facts (queue_facts _ _ _)

theorem concurrencyGate_armed (cas : LeaseCas) (now : Time) :
    (t.concurrencyGate candidate cas now).reading = t.reading ∧
      (t.concurrencyGate candidate cas now).cleared = t.cleared ∧
        (t.concurrencyGate candidate cas now).agents = t.agents := by
  unfold Fleet.concurrencyGate
  dsimp only
  split <;> exact ⟨rfl, rfl, rfl⟩

theorem mem_listActiveJobFacts {b : FleetJob} (hb : b ∈ t.jobs) (hactive : b.active)
    (hne : b.row.id ≠ jobId) : b.facts ∈ listActiveJobFacts t.jobs jobId :=
  List.mem_map.mpr ⟨b, List.mem_filter.mpr ⟨hb, by simp [hactive, hne]⟩, rfl⟩

/-- **An admission**: a candidate whose gate sees everyone it would get in the way of fits. -/
theorem fits_of_allowParallel (hallow : (t.preflight candidate).verdict = .allowParallel)
    (hsees : t.Sees candidate) : t.Fits candidate := by
  intro b hb harmed hne
  cases hactive : b.active with
  | false => exact hsees b hb harmed hne hactive
  | true =>
    have hshown := compatible_of_allowParallel hallow (mem_listActiveJobFacts hb hactive hne)
    exact ⟨hshown.left, hshown.right, hshown.disjoint⟩

theorem Apart.arm (h : t.Apart) (hknown : ∃ a ∈ t.jobs, a.row.id = candidate.jobId)
    (hfresh : t.Fresh candidate) (hfits : t.Fits candidate) (hjobs : t'.jobs = t.jobs)
    (hread : ∀ g ∈ t'.reading, g ∈ t.reading)
    (harmed : ∀ id, t'.armed id → t.armed id ∨ id = candidate.jobId) :
    t'.Apart where
  known g hg := hjobs ▸ h.known g (hread g hg)
  armed id hid := by
    rw [hjobs]
    rcases harmed id hid with hid | rfl
    · exact h.armed id hid
    · exact hknown
  compatible a ha b hb ha' hb' hne := by
    rw [hjobs] at ha hb
    rcases harmed _ ha' with ha' | ha' <;> rcases harmed _ hb' with hb' | hb'
    · exact h.compatible a ha b hb ha' hb' hne
    · have hcand := hfits a ha ha' (fun heq => hne (heq.trans hb'.symm))
      rw [hfresh b hb hb']
      exact hcand.symm
    · rw [hfresh a ha ha']
      exact hfits b hb hb' (fun heq => hne (ha'.trans heq.symm))
    · exact absurd (ha'.trans hb'.symm) hne

/-- **A sound step keeps armed jobs apart.** -/
theorem Apart.step {e : FleetStep} (h : t.Apart) (hsound : e.Sound t) : (t.step e).Apart := by
  cases e with
  | submit job =>
    simp only [Fleet.step]
    split
    · exact h
    · rename_i hnew
      -- the key is new, so that nobody is armed under it
      have hfree : t.armed job.row.id = false := by
        rw [Bool.eq_false_iff]
        intro harmed
        obtain ⟨a, ha, haid⟩ := h.armed _ harmed
        exact hnew (List.any_eq_true.mpr ⟨a, ha, by simpa using haid⟩)
      have hold : ∀ a ∈ t.jobs ++ [job], t.armed a.row.id = true → a ∈ t.jobs := by
        intro a ha harmed
        rcases List.mem_append.mp ha with ha | ha
        · exact ha
        · rw [List.mem_singleton.mp ha, hfree] at harmed
          cases harmed
      refine ⟨fun g hg => ?_, fun id hid => ?_, fun a ha b hb ha' hb' hne => ?_⟩
      · obtain ⟨a, ha, haid⟩ := h.known g hg
        exact ⟨a, List.mem_append_left _ ha, haid⟩
      · obtain ⟨a, ha, haid⟩ := h.armed id hid
        exact ⟨a, List.mem_append_left _ ha, haid⟩
      · exact h.compatible a (hold a ha ha') b (hold b hb hb') ha' hb' hne
  | queue jobId now journal op => exact h.edit_of_facts (queue_facts _ _ _)
  | commit jobId holder now s obs =>
    cases s with
    | none => exact h
    | some snap =>
      refine h.edit (fun j => ?_) fun a ha haid harmed b hb hb' hne => ?_
      · split
        · simp only [FleetJob.commit, JobRow.commit_id]
        · rfl
      · split
        · rename_i hfence
          refine hsound snap rfl a ha haid hfence harmed b hb hb' ?_
          simpa only [FleetJob.facts, FleetJob.commit, JobRow.commit_id, haid, ne_eq] using hne
        · exact h.compatible a ha b hb (haid ▸ harmed) hb' fun heq => hne (heq.symm.trans haid)
  | setJobMetadata jobId cas now m =>
    refine h.edit (fun j => ?_) fun a ha haid harmed b hb hb' hne => ?_
    · split <;> rfl
    · split
      · rename_i hlease
        exact hsound a ha haid hlease harmed b hb hb' fun heq => hne (heq.trans haid)
      · exact h.compatible a ha b hb (haid ▸ harmed) hb' fun heq => hne (heq.symm.trans haid)
  | readCandidate jobId =>
    simp only [Fleet.step]
    split
    · exact h
    · rename_i j hj
      refine ⟨fun g hg => ?_, h.armed, h.compatible⟩
      rcases List.mem_append.mp hg with hg | hg
      · exact h.known g hg
      · exact ⟨j, List.mem_of_find?_eq_some hj, by rw [List.mem_singleton.mp hg]; rfl⟩
  | entryGate candidate cas now =>
    simp only [Fleet.step]
    split
    · obtain ⟨hread, hcleared, hagents⟩ := @concurrencyGate_armed t candidate cas now
      refine (h.concurrencyGate cas now).mono rfl (fun g hg => ?_) fun id hid => ?_
      · rw [hread]
        exact List.mem_of_mem_erase hg
      · simpa only [Fleet.armed] using hid
    · exact h
  | spawnGate candidate cas now =>
    simp only [Fleet.step]
    split
    · rename_i hreading
      obtain ⟨hread, hcleared, hagents⟩ := @concurrencyGate_armed t candidate cas now
      by_cases hallow : (t.preflight candidate).verdict = .allowParallel
      · obtain ⟨hfresh, hsees⟩ := hsound hreading hallow
        have hsame : t.concurrencyGate candidate cas now = t := by
          simp only [Fleet.concurrencyGate, hallow]
        rw [hsame, if_pos hallow]
        refine h.arm (h.known candidate hreading) hfresh (fits_of_allowParallel hallow hsees) rfl
          (fun g hg => List.mem_of_mem_erase hg) fun id hid => ?_
        simp only [Fleet.armed, Bool.or_eq_true, List.contains_iff_mem, List.mem_append,
          List.mem_singleton] at hid ⊢
        tauto
      · rw [if_neg hallow]
        refine (h.concurrencyGate cas now).mono rfl (fun g hg => ?_) fun id hid => ?_
        · rw [hread]
          exact List.mem_of_mem_erase hg
        · simpa only [Fleet.armed, hcleared] using hid
    · exact h
  | abandon jobId =>
    refine h.mono rfl (fun g hg => hg) fun id hid => ?_
    simp only [Fleet.step, Fleet.armed, Bool.or_eq_true, List.contains_iff_mem] at hid ⊢
    exact hid.imp_right List.mem_of_mem_erase
  | launch jobId =>
    simp only [Fleet.step]
    split
    · rename_i hcleared
      refine h.mono rfl (fun g hg => hg) fun id hid => ?_
      simp only [Fleet.armed, Bool.or_eq_true, List.contains_iff_mem, List.mem_append,
        List.mem_singleton] at hid ⊢
      rcases hid with (hid | rfl) | hid
      · exact .inl hid
      · exact .inr hcleared
      · exact .inr (List.mem_of_mem_erase hid)
    · exact h
  | exit jobId =>
    refine h.mono rfl (fun g hg => hg) fun id hid => ?_
    simp only [Fleet.step, Fleet.armed, Bool.or_eq_true, List.contains_iff_mem] at hid ⊢
    exact hid.imp_left List.mem_of_mem_erase

/-- A store before any scheduler has run. -/
def atRest (jobs : List FleetJob) : Fleet := ⟨jobs, [], [], []⟩

theorem apart_atRest (jobs : List FleetJob) : (atRest jobs).Apart where
  known _ h := absurd h List.not_mem_nil
  armed _ h := by simp [Fleet.armed, atRest] at h
  compatible _ _ _ _ h := by simp [Fleet.armed, atRest] at h

end Fleet

/-- **No two live overlapping writers**, in every run whose steps are sound: of any two
different jobs with a live agent, neither must run alone, and if both write, their
footprints are provably disjoint. -/
theorem no_overlapping_writers (jobs : List FleetJob) (es : List FleetStep)
    (hsound : Runs.Along Fleet.step FleetStep.Sound (.atRest jobs) es) :
    let t := Runs.run Fleet.step (.atRest jobs) es
    ∀ a ∈ t.jobs, ∀ b ∈ t.jobs, a.row.id ∈ t.agents → b.row.id ∈ t.agents →
      a.row.id ≠ b.row.id →
        a.actionScope ≠ some .global ∧ b.actionScope ≠ some .global ∧
          (a.facts.isWriter = true → b.facts.isWriter = true →
            footprintOverlap a.footprint b.footprint = .disjoint) := by
  intro t a ha b hb hlive hlive' hne
  have hapart : t.Apart :=
    Runs.run_inv (fun _ _ h hstep => h.step hstep) (Fleet.apart_atRest jobs) hsound
  have harmed : ∀ {id}, id ∈ t.agents → t.armed id = true := fun h => by simp [Fleet.armed, h]
  have h := hapart.compatible a ha b hb (harmed hlive) (harmed hlive') hne
  exact ⟨h.left, h.right, h.disjoint⟩

/-! ### Two runs -/

/-- Two tasks (1 and 9), each with a lead (6 and 14) that waits for its run. -/
def twoLeads : List Core.Command :=
  Core.begun ++ (Core.dispatchTo .lead 0 1 .standard 6).take 2 ++
    [.createTask (Core.num 0) "task" ownerSource none none .normal .allowedWithGate,
      .startTaskRun (Core.num 9) (roleSource .lead) none,
      .startRole (Core.num 9) .lead (roleSource .lead) none,
      .createDispatch (Core.num 9) (Core.num 11) .lead 0 1 .standard none (roleSource .lead) none
        none none]

/-- The lead of the first task has its run. -/
def firstAtWork : List Core.Command :=
  twoLeads ++ [.bindSpawnResult (Core.num 6) (Core.spawnFor .lead (Core.num 6))
    (roleSource .lead) none]

/-- The row of a job nobody has claimed yet. -/
def unclaimed (task : ℕ) : JobRow :=
  { (SupervisorDb.claimed .empty (Core.num task)).job with
    status := .waitingRun
    primaryState := .queued
    ownerInstanceId := none
    leaseEpoch := 0
    leaseExpiresAt := none }

/-- A job that writes: its resource class is MEDIUM, its branch is `main`. -/
def writerOf (repo : String) (task : ℕ) : FleetJob where
  row := unclaimed task
  expectedRole := none
  resourceClass := .medium
  footprint := { repoIdentity := some repo, branchIdentity := some "main" }
  dependsOn := none
  actionScope := none

/-- What a pass sees of a task. -/
def shown (commands : List Core.Command) (task : ℕ) : Option Snapshot :=
  readSnapshot (Core.run .lenient Core.ticking commands).db (unclaimed task) [] []

/-- A job is claimed, let in, and its agent is launched. -/
def spawnPass (job : FleetJob) (task : ℕ) : List FleetStep :=
  [.queue job.row.id 0 [] (.claim "supervisor" maxLeaseTtlSeconds),
    .readCandidate job.row.id, .entryGate job.facts (heldAt 1) 0,
    .commit job.row.id (some (heldAt 1)) 0 (shown twoLeads task) (some .missing),
    .readCandidate job.row.id,
    .spawnGate { job.facts with role := some .lead } (heldAt 1) 0, .launch job.row.id]

/-- The first job spawns, its provider can say nothing about the run, and the second job
spawns. -/
def spawnBehindBackoff (first second : FleetJob) : List FleetStep :=
  spawnPass first 1 ++
    [.commit first.row.id (some (heldAt 1)) 0 (shown firstAtWork 1) (some .unknown)] ++
      spawnPass second 9
/-- Two writers of one branch, each with a live agent: the first has backed off, and the gate
of the second does not see it. -/
theorem overlapping_writers_behind_backoff :
    let t := Runs.run Fleet.step (.atRest [writerOf "repo" 1, writerOf "repo" 9])
      (spawnBehindBackoff (writerOf "repo" 1) (writerOf "repo" 9))
    t.agents = [(unclaimed 1).id, (unclaimed 9).id] ∧
      (t.jobs.all fun j => j.facts.isWriter) = true ∧
      (t.jobs.any fun a => t.jobs.any fun b => a.row.id ≠ b.row.id &&
        t.agents.contains a.row.id && t.agents.contains b.row.id &&
          footprintOverlap a.footprint b.footprint = .overlap) = true := by
  decide +kernel

/-- Two writers of two repositories run side by side. -/
theorem no_overlapping_writers_repos :
    let t := Runs.run Fleet.step (.atRest [writerOf "left" 1, writerOf "right" 9])
      (spawnBehindBackoff (writerOf "left" 1) (writerOf "right" 9))
    t.agents = [(unclaimed 1).id, (unclaimed 9).id] ∧
      ∀ a ∈ t.jobs, ∀ b ∈ t.jobs, a.row.id ∈ t.agents → b.row.id ∈ t.agents →
        a.row.id ≠ b.row.id →
          a.actionScope ≠ some .global ∧ b.actionScope ≠ some .global ∧
            (a.facts.isWriter = true → b.facts.isWriter = true →
              footprintOverlap a.footprint b.footprint = .disjoint) :=
  ⟨by decide,
    no_overlapping_writers [writerOf "left" 1, writerOf "right" 9]
      (spawnBehindBackoff (writerOf "left" 1) (writerOf "right" 9)) (by decide +kernel)⟩

end Scheduler

end ArgentTeam
