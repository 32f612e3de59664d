import ArgentTeam.Core.Exec
import ArgentTeam.Core.GateSteps
import ArgentTeam.Core.ReceiveSteps

/-!
# The gate invariant

A task is at the owner gate exactly as long as one live approval – pending or approved –
holds it there. The two tables are linked by convention only: five different paths close
an approval and release its task, and each has to release the task of *that* approval.

One path does not. `reject` looks at the expiry of an approval before its status, so that
rejecting an old approval that has long been closed releases the task all the same, and
the task may be at the gate on behalf of another approval by then
(`Core.RejectsClosed`). Every run without such a step keeps the invariant.
-/

namespace ArgentTeam

open Prog Store

namespace Core

structure Holds (c : CoreDb) (taskId : Uuid) (a : OwnerApproval) : Prop where
  mem : a ∈ c.ownerApprovals.rows
  task : a.taskId = taskId
  live : a.status.live = true

/-- **The gate invariant**, with what makes it inductive: an approval belongs to a task,
and a task at the gate remembers a state to go back to. -/
structure GateInv (c : CoreDb) : Prop where
  owned : ∀ a ∈ c.ownerApprovals.rows, ∃ t ∈ c.tasks.rows, t.id = a.taskId
  closed : ∀ t ∈ c.tasks.rows, t.state ≠ .ownerApprovalRequired → ∀ a, ¬Holds c t.id a
  opened : ∀ t ∈ c.tasks.rows, t.state = .ownerApprovalRequired → ∃ a, Holds c t.id a
  unique : ∀ id a b, Holds c id a → Holds c id b → a = b
  resumable : ∀ t ∈ c.tasks.rows, t.state = .ownerApprovalRequired →
    ∃ s ∈ t.resumeState, s.isValidResumeTarget = true

def liveApprovals (c : CoreDb) (taskId : Uuid) : List OwnerApproval :=
  c.ownerApprovals.rows.filter fun a => a.taskId = taskId && a.status.live

variable {id : Uuid} {w : World}

theorem mem_liveApprovals {c : CoreDb} {a : OwnerApproval} :
    a ∈ liveApprovals c id ↔ Holds c id a := by
  simp only [liveApprovals, List.mem_filter, Bool.and_eq_true, decide_eq_true_eq]
  exact ⟨fun ⟨hm, ht, hl⟩ => ⟨hm, ht, hl⟩, fun ⟨hm, ht, hl⟩ => ⟨hm, ht, hl⟩⟩

/-- Under the invariant a task is at the gate if and only if it has exactly one live
approval. -/
theorem GateInv.gate {c : CoreDb} (h : GateInv c) {t : Task} (ht : t ∈ c.tasks.rows) :
    t.state = .ownerApprovalRequired ↔ (liveApprovals c t.id).length = 1 := by
  constructor
  · intro hgate
    obtain ⟨a, ha⟩ := h.opened t ht hgate
    have hcount := Table.countP_eq_one (t := c.ownerApprovals)
      (p := fun a => a.taskId = t.id && a.status.live) (fun a => by simp [OwnerApproval.clash])
      ha.mem (by simp [ha.task, ha.live]) fun b hb hpb => by
        rw [Bool.and_eq_true, decide_eq_true_eq] at hpb
        exact h.unique t.id b a ⟨hb, hpb.1, hpb.2⟩ ha
    rwa [List.countP_eq_length_filter] at hcount
  · intro hone
    obtain ⟨a, ha⟩ := List.length_eq_one_iff.mp hone
    by_contra hgate
    exact h.closed t ht hgate a (mem_liveApprovals.mp (by rw [ha]; exact List.mem_singleton_self a))

/-! ### What keeps the invariant -/

section Keeps

variable {c c' : CoreDb} {ap : OwnerApproval} {t : Task} {f : OwnerApproval → OwnerApproval}

/-- The invariant speaks of tasks and approvals only. -/
theorem GateInv.congr (h : GateInv c) (htasks : c'.tasks = c.tasks)
    (happrovals : c'.ownerApprovals = c.ownerApprovals) : GateInv c' := by
  have hholds : ∀ id a, Holds c' id a ↔ Holds c id a := fun id a =>
    ⟨fun ha => ⟨happrovals ▸ ha.mem, ha.task, ha.live⟩,
      fun ha => ⟨happrovals ▸ ha.mem, ha.task, ha.live⟩⟩
  constructor
  · rw [htasks, happrovals]
    exact h.owned
  · simpa only [htasks, hholds] using h.closed
  · simpa only [htasks, hholds] using h.opened
  · simpa only [hholds] using h.unique
  · rw [htasks]
    exact h.resumable

variable {s : TaskState}

/-- A task that moves from one state to another, neither of them the gate, keeps the
invariant. -/
theorem GateInv.setState (h : GateInv c) {r : Option TaskState}
    (hset : SetState c c' id s r) (hs : s ≠ .ownerApprovalRequired)
    (hid : ∀ t ∈ c.tasks.rows, t.id = id → t.state ≠ .ownerApprovalRequired) : GateInv c' := by
  have happrovals : c'.ownerApprovals = c.ownerApprovals := by
    obtain ⟨tasks, -, rfl⟩ := hset
    rfl
  have hholds : ∀ id a, Holds c' id a ↔ Holds c id a := fun id a =>
    ⟨fun ha => ⟨happrovals ▸ ha.mem, ha.task, ha.live⟩,
      fun ha => ⟨happrovals ▸ ha.mem, ha.task, ha.live⟩⟩
  constructor
  · intro a ha
    rw [happrovals] at ha
    obtain ⟨t, ht, hta⟩ := h.owned a ha
    by_cases htid : t.id = id
    · exact ⟨_, (mem_of_setState hset).mpr ⟨t, ht, Or.inl ⟨htid, rfl⟩⟩, hta⟩
    · exact ⟨t, (mem_of_setState hset).mpr ⟨t, ht, Or.inr ⟨htid, rfl⟩⟩, hta⟩
  · intro t' ht' hstate a ha
    obtain ⟨t, ht, ⟨htid, rfl⟩ | ⟨-, rfl⟩⟩ := (mem_of_setState hset).mp ht'
    · exact h.closed t ht (hid t ht htid) a ((hholds _ _).mp ha)
    · exact h.closed t' ht hstate a ((hholds _ _).mp ha)
  · intro t' ht' hstate
    obtain ⟨t, ht, ⟨htid, rfl⟩ | ⟨-, rfl⟩⟩ := (mem_of_setState hset).mp ht'
    · exact absurd hstate hs
    · exact (h.opened t' ht hstate).imp fun a ha => (hholds _ _).mpr ha
  · simpa only [hholds] using h.unique
  · intro t' ht' hstate
    obtain ⟨t, ht, ⟨htid, rfl⟩ | ⟨-, rfl⟩⟩ := (mem_of_setState hset).mp ht'
    · exact absurd hstate hs
    · exact h.resumable t' ht hstate

/-- A live approval that stays live keeps the invariant. -/
theorem GateInv.setApproval (h : GateInv c)
    (hset : SetApproval c c' ap f) (hap : ap ∈ c.ownerApprovals.rows)
    (htask : (f ap).taskId = ap.taskId) (hlive : ap.status.live)
    (hlive' : (f ap).status.live) : GateInv c' := by
  have htasks : c'.tasks = c.tasks := by
    obtain ⟨approvals, -, rfl⟩ := hset
    rfl
  have hold : ∀ id, Holds c id ap → Holds c' id (f ap) := fun id ha =>
    ⟨(mem_of_setApproval hset hap).mpr (Or.inl rfl), htask.trans ha.task, hlive'⟩
  have hcases : ∀ id a, Holds c' id a → (a = f ap ∧ Holds c id ap) ∨
      (a.id ≠ ap.id ∧ Holds c id a) :=
    fun id a ha => ((mem_of_setApproval hset hap).mp ha.mem).imp
      (fun he => ⟨he, hap, htask.symm.trans (he ▸ ha.task), hlive⟩)
      fun ⟨hm, hid⟩ => ⟨hid, hm, ha.task, ha.live⟩
  constructor
  · intro a ha
    rw [htasks]
    rcases (mem_of_setApproval hset hap).mp ha with rfl | ⟨ha, -⟩
    · rw [htask]
      exact h.owned ap hap
    · exact h.owned a ha
  · intro t ht hstate a ha
    rw [htasks] at ht
    rcases hcases t.id a ha with ⟨-, ha⟩ | ⟨-, ha⟩ <;> exact h.closed t ht hstate _ ha
  · intro t ht hstate
    rw [htasks] at ht
    obtain ⟨a, ha⟩ := h.opened t ht hstate
    by_cases hid : a.id = ap.id
    · obtain rfl := OwnerApproval.eq_of_id ha.mem hap hid
      exact ⟨f a, hold t.id ha⟩
    · exact ⟨a, (mem_of_setApproval hset hap).mpr (Or.inr ⟨ha.mem, hid⟩), ha.task, ha.live⟩
  · intro id a b ha hb
    rcases hcases id a ha with ⟨rfl, ha'⟩ | ⟨hida, ha'⟩ <;>
      rcases hcases id b hb with ⟨rfl, hb'⟩ | ⟨hidb, hb'⟩
    · rfl
    · exact absurd (congrArg OwnerApproval.id (h.unique id b ap hb' ha')) hidb
    · exact absurd (congrArg OwnerApproval.id (h.unique id a ap ha' hb')) hida
    · exact h.unique id a b ha' hb'
  · rw [htasks]
    exact h.resumable

/-- Who holds a task once an approval has been closed. -/
theorem holds_of_close (hset : SetApproval c c' ap f)
    (hap : ap ∈ c.ownerApprovals.rows) (hdead : (f ap).status.live = false)
    {a : OwnerApproval} : Holds c' id a ↔ Holds c id a ∧ a.id ≠ ap.id := by
  constructor
  · intro ha
    rcases (mem_of_setApproval hset hap).mp ha.mem with rfl | ⟨hm, hid⟩
    · exact absurd ha.live (by simp [hdead])
    · exact ⟨⟨hm, ha.task, ha.live⟩, hid⟩
  · rintro ⟨ha, hid⟩
    exact ⟨(mem_of_setApproval hset hap).mpr (Or.inr ⟨ha.mem, hid⟩), ha.task, ha.live⟩

/-- **Closing the approval that holds a task and releasing that task** keeps the
invariant. -/
theorem GateInv.release (h : GateInv c) {c₁ : CoreDb}
    (hset : SetApproval c c₁ ap f) (hrelease : Releases c₁ c' ap.taskId)
    (hap : ap ∈ c.ownerApprovals.rows) (htask : (f ap).taskId = ap.taskId)
    (hlive : ap.status.live) (hdead : (f ap).status.live = false) : GateInv c' := by
  have htasks : c₁.tasks = c.tasks := by
    obtain ⟨approvals, -, rfl⟩ := hset
    rfl
  obtain ⟨t, ht, hta⟩ := h.owned ap hap
  have hgate : t.state = .ownerApprovalRequired := by
    by_contra hstate
    exact h.closed t ht hstate ap ⟨hap, hta.symm, hlive⟩
  rcases hrelease with ⟨-, hstays⟩ | ⟨s, hs, hset'⟩
  · obtain ⟨rs, hrs, -⟩ := h.resumable t ht hgate
    rw [hstays t (htasks ▸ ht) hta hgate] at hrs
    exact absurd hrs (by simp)
  have happrovals : c'.ownerApprovals = c₁.ownerApprovals := by
    obtain ⟨tasks, -, rfl⟩ := hset'
    rfl
  have hholds : ∀ {id a}, Holds c' id a ↔ Holds c id a ∧ a.id ≠ ap.id := fun {id a} =>
    Iff.trans ⟨fun ha => ⟨happrovals ▸ ha.mem, ha.task, ha.live⟩,
      fun ha => ⟨happrovals ▸ ha.mem, ha.task, ha.live⟩⟩ (holds_of_close hset hap hdead)
  constructor
  · intro a ha
    rw [happrovals] at ha
    have howned : ∃ t ∈ c₁.tasks.rows, t.id = a.taskId := by
      rw [htasks]
      rcases (mem_of_setApproval hset hap).mp ha with rfl | ⟨ha, -⟩
      · exact ⟨t, ht, hta.trans htask.symm⟩
      · exact h.owned a ha
    obtain ⟨t', ht', hta'⟩ := howned
    by_cases htid : t'.id = ap.taskId
    · exact ⟨_, (mem_of_setState hset').mpr ⟨t', ht', Or.inl ⟨htid, rfl⟩⟩, hta'⟩
    · exact ⟨t', (mem_of_setState hset').mpr ⟨t', ht', Or.inr ⟨htid, rfl⟩⟩, hta'⟩
  · intro t' ht' hstate a ha
    obtain ⟨ha, hid⟩ := hholds.mp ha
    obtain ⟨t₀, ht₀, ⟨htid, rfl⟩ | ⟨-, rfl⟩⟩ := (mem_of_setState hset').mp ht' <;>
      rw [htasks] at ht₀
    · exact hid (congrArg OwnerApproval.id (h.unique _ a ap ha ⟨hap, htid.symm, hlive⟩))
    · exact h.closed t' ht₀ hstate a ha
  · intro t' ht' hstate
    obtain ⟨t₀, ht₀, ⟨-, rfl⟩ | ⟨htid, rfl⟩⟩ := (mem_of_setState hset').mp ht' <;>
      rw [htasks] at ht₀
    · exact absurd hstate hs
    · obtain ⟨a, ha⟩ := h.opened t' ht₀ hstate
      refine ⟨a, hholds.mpr ⟨ha, fun hid => htid ?_⟩⟩
      rw [← ha.task, OwnerApproval.eq_of_id ha.mem hap hid]
  · exact fun id a b ha hb => h.unique id a b (hholds.mp ha).1 (hholds.mp hb).1
  · intro t' ht' hstate
    obtain ⟨t₀, ht₀, ⟨-, rfl⟩ | ⟨-, rfl⟩⟩ := (mem_of_setState hset').mp ht' <;>
      rw [htasks] at ht₀
    · exact absurd hstate hs
    · exact h.resumable t' ht₀ hstate

/-- **Parking a task behind a new approval** keeps the invariant. -/
theorem GateInv.park (h : GateInv c) (hpark : ParksTask c c') : GateInv c' := by
  obtain ⟨t, ht, hact, id, action, scope, role, created, expires, approvals, hins, hset⟩ := hpark
  set ap := newApproval id t.id action scope role created expires with hap
  have hnot : t.state ≠ .ownerApprovalRequired := by
    rintro hgate
    rw [hgate] at hact
    exact Bool.noConfusion hact
  have happrovals : c'.ownerApprovals = approvals := by
    obtain ⟨tasks, -, rfl⟩ := hset
    rfl
  have hcases : ∀ {id a}, Holds c' id a ↔ Holds c id a ∨ (a = ap ∧ id = t.id) := by
    intro id a
    constructor
    · intro ha
      rcases (Table.mem_of_insert? hins).mp (happrovals ▸ ha.mem) with hm | rfl
      · exact Or.inl ⟨hm, ha.task, ha.live⟩
      · exact Or.inr ⟨rfl, ha.task.symm⟩
    · rintro (ha | ⟨rfl, rfl⟩)
      · exact ⟨happrovals ▸ (Table.mem_of_insert? hins).mpr (Or.inl ha.mem), ha.task, ha.live⟩
      · exact ⟨happrovals ▸ (Table.mem_of_insert? hins).mpr (Or.inr rfl), rfl, rfl⟩
  constructor
  · intro a ha
    have howned : ∃ t ∈ c.tasks.rows, t.id = a.taskId := by
      rcases (Table.mem_of_insert? hins).mp (happrovals ▸ ha) with hm | rfl
      · exact h.owned a hm
      · exact ⟨t, ht, rfl⟩
    obtain ⟨t', ht', hta'⟩ := howned
    by_cases htid : t'.id = t.id
    · exact ⟨_, (mem_of_setState hset).mpr ⟨t', ht', Or.inl ⟨htid, rfl⟩⟩, hta'⟩
    · exact ⟨t', (mem_of_setState hset).mpr ⟨t', ht', Or.inr ⟨htid, rfl⟩⟩, hta'⟩
  · intro t' ht' hstate a ha
    obtain ⟨t₀, ht₀, ⟨-, rfl⟩ | ⟨htid, rfl⟩⟩ := (mem_of_setState hset).mp ht'
    · exact hstate rfl
    · rcases hcases.mp ha with ha | ⟨-, hid⟩
      · exact h.closed t' ht₀ hstate a ha
      · exact htid hid
  · intro t' ht' hstate
    obtain ⟨t₀, ht₀, ⟨htid, rfl⟩ | ⟨-, rfl⟩⟩ := (mem_of_setState hset).mp ht'
    · exact ⟨ap, hcases.mpr (Or.inr ⟨rfl, htid⟩)⟩
    · exact (h.opened t' ht₀ hstate).imp fun a ha => hcases.mpr (Or.inl ha)
  · intro id a b ha hb
    rcases hcases.mp ha with ha | ⟨rfl, rfl⟩ <;> rcases hcases.mp hb with hb | ⟨rfl, hid⟩
    · exact h.unique id a b ha hb
    · exact absurd (hid ▸ ha) (h.closed t ht hnot a)
    · exact absurd hb (h.closed t ht hnot b)
    · rfl
  · intro t' ht' hstate
    obtain ⟨t₀, ht₀, ⟨htid, rfl⟩ | ⟨-, rfl⟩⟩ := (mem_of_setState hset).mp ht'
    · exact ⟨t.state, rfl, TaskState.isValidResumeTarget_of_isActionable hact⟩
    · exact h.resumable t' ht₀ hstate

/-- A new task keeps the invariant. -/
theorem GateInv.insertTask (h : GateInv c) {tasks : Table Task Task.clash}
    (hins : c.tasks.insert? t = some tasks) (hnew : t.state ≠ .ownerApprovalRequired) :
    GateInv { c with tasks := tasks } := by
  have hfresh : ∀ a ∈ c.ownerApprovals.rows, a.taskId ≠ t.id := by
    intro a ha hid
    obtain ⟨t₀, ht₀, hta⟩ := h.owned a ha
    have := (Table.insert?_eq_some.mp hins).1 t₀ ht₀
    simp [Task.clash, hta.trans hid] at this
  have hholds : ∀ id a, Holds { c with tasks := tasks } id a ↔ Holds c id a := fun id a =>
    ⟨fun ha => ⟨ha.mem, ha.task, ha.live⟩, fun ha => ⟨ha.mem, ha.task, ha.live⟩⟩
  constructor
  · intro a ha
    obtain ⟨t₀, ht₀, hta⟩ := h.owned a ha
    exact ⟨t₀, (Table.mem_of_insert? hins).mpr (Or.inl ht₀), hta⟩
  · intro t' ht' hstate a ha
    have ha := (hholds _ _).mp ha
    rcases (Table.mem_of_insert? hins).mp ht' with ht' | rfl
    · exact h.closed t' ht' hstate a ha
    · exact hfresh a ha.mem ha.task
  · intro t' ht' hstate
    rcases (Table.mem_of_insert? hins).mp ht' with ht' | rfl
    · exact (h.opened t' ht' hstate).imp fun a ha => (hholds _ _).mpr ha
    · exact absurd hstate hnew
  · simpa only [hholds] using h.unique
  · intro t' ht' hstate
    rcases (Table.mem_of_insert? hins).mp ht' with ht' | rfl
    · exact h.resumable t' ht' hstate
    · exact absurd hstate hnew

end Keeps

/-! ### The steps of a run -/

/-- The tables the invariant speaks of. -/
def gateTables (w : World) : Table Task Task.clash × Table OwnerApproval OwnerApproval.clash :=
  (w.db.core.tasks, w.db.core.ownerApprovals)

instance : OfCore gateTables := ⟨fun w w' h => by rw [gateTables, h, gateTables]⟩

instance : Tables.findings.Apart gateTables := ⟨fun _ _ => rfl⟩
instance : Tables.decisions.Apart gateTables := ⟨fun _ _ => rfl⟩
instance : Tables.actionExecutions.Apart gateTables := ⟨fun _ _ => rfl⟩
instance : Tables.agentDispatches.Apart gateTables := ⟨fun _ _ => rfl⟩

theorem GateInv.of_gateTables {w w' : World} (h : GateInv w.db.core)
    (heq : gateTables w = gateTables w') : GateInv w'.db.core :=
  h.congr (congrArg Prod.fst heq).symm (congrArg Prod.snd heq).symm

/-- No step of a plan starts or ends at the gate. -/
theorem stateSyncPlan_ne_gate {d : AgentDispatch} {decision : Option String}
    {step : TaskState × TaskState} (h : step ∈ stateSyncPlan d decision s) :
    step.1 ≠ .ownerApprovalRequired ∧ step.2 ≠ .ownerApprovalRequired := by
  have hstandard : ∀ n, ∀ step ∈ standardStep n,
      step.1 ≠ TaskState.ownerApprovalRequired ∧ step.2 ≠ .ownerApprovalRequired := by
    intro n step hstep
    unfold standardStep at hstep
    split at hstep <;> simp_all
  have hrework : ∀ step ∈ reworkStep d.role d.position s,
      step.1 ≠ TaskState.ownerApprovalRequired ∧ step.2 ≠ .ownerApprovalRequired := by
    intro step hstep
    cases hrole : d.role <;> rw [hrole] at hstep <;> unfold reworkStep at hstep <;> grind
  have hlead : ∀ step ∈ leadStep d.sequenceKind d.position decision,
      step.1 ≠ TaskState.ownerApprovalRequired ∧ step.2 ≠ .ownerApprovalRequired := by
    intro step hstep
    unfold leadStep finalStep at hstep
    grind
  unfold stateSyncPlan at h
  rcases List.mem_append.mp h with h | h
  · split at h
    · exact hstandard _ step h
    · exact hrework step h
  · split at h
    · exact hlead step h
    · simp at h

theorem isAllowed_recovering_gate (r : Option TaskState) :
    TaskState.isAllowed .recovering .ownerApprovalRequired r = false := by
  simp [TaskState.isAllowed, TaskState.isTerminal, TaskState.isPause, TaskState.pauseExits,
    TaskState.isValidResumeTarget]

theorem rollbackTarget_ne_gate {t : Task} (h : s ∈ rollbackTarget t) :
    t.state = .recovering ∧ s ≠ .ownerApprovalRequired := by
  simp only [rollbackTarget, recoveryTarget, Option.mem_def] at h
  grind [TaskState.isValidResumeTarget, TaskState.isPause]

/-- The state of a task that follows its dispatch never enters or leaves the gate. -/
theorem GateInv.applyStateSync {w w' : World} {d : AgentDispatch} {decision : Option String}
    {u : Unit} (hI : GateInv w.db.core) (h : (applyStateSync d decision).Returns w u w') :
    GateInv w'.db.core := by
  obtain ⟨t, ht, -, w₁, hleave, t₁, -, -, hsteps⟩ := applyStateSync_core h
  have hI₁ : GateInv w₁.db.core := by
    rcases leaveRecovery_core hleave with ⟨-, hcore⟩ | ⟨hrec, rs, -, hallowed, hset⟩
    · rwa [hcore]
    · refine hI.setState hset (fun hgate => ?_) fun x hx hid => ?_
      · rw [hgate, isAllowed_recovering_gate] at hallowed
        exact Bool.noConfusion hallowed
      · rw [Task.eq_of_id hx ht hid, hrec]
        decide
  refine returns_forEach (R := fun w w' : World => GateInv w.db.core → GateInv w'.db.core)
    (fun _ => id) (fun _ _ _ h h' => h' ∘ h) (fun step hstep w u w' h hI => ?_) hsteps hI₁
  obtain ⟨x, hx, hid, hstate, -, hset⟩ := syncStep_core h
  obtain ⟨hfrom, hto⟩ := stateSyncPlan_ne_gate hstep
  refine hI.setState hset hto fun y hy hid' => ?_
  rw [Task.eq_of_id hy hx (hid'.trans hid.symm), hstate]
  exact hfrom

/-- Neither does a recovery move a task into the gate or out of it. -/
theorem GateInv.recovers {c : CoreDb} (hI : GateInv w.db.core) (h : Recovers w c) :
    GateInv c := by
  obtain ⟨w₁, w₂, w₃, w₄, w₅, h₁, hdispatches, hpark, h₄, hroll, rfl⟩ := h
  have hI₁ : GateInv w₁.db.core := h₁ ▸ hI
  have hI₂ : GateInv w₂.db.core := hI₁.of_gateTables (Moves.of_returns (R := Eq) hdispatches)
  have hI₃ : GateInv w₃.db.core := by
    refine returns_forEach (R := fun w w' : World => GateInv w.db.core → GateInv w'.db.core)
      (fun _ => id) (fun _ _ _ h h' => h' ∘ h) (fun id _ w u w' h hI => ?_) hpark hI₂
    rcases parkTask_core h with hcore | ⟨t, ht, hid, -, hpause, hset⟩
    · rwa [hcore]
    · refine hI.setState hset (by decide) fun x hx hid' hgate => ?_
      rw [← Task.eq_of_id hx ht (hid'.trans hid.symm), hgate] at hpause
      exact Bool.noConfusion hpause
  refine rollBack_rule (I := GateInv) (fun c c' t s hI ht hs hset => ?_) (nodup_task_ids _ _)
    (fun t ht => (List.mem_filter.mp ht).1) (h₄ ▸ hI₃) hroll
  obtain ⟨hrec, hs⟩ := rollbackTarget_ne_gate hs
  refine hI.setState hset hs fun x hx hid => ?_
  rw [Task.eq_of_id hx ht hid, hrec]
  decide

/-- The call names an approval that is closed already, after its expiry, while its task is
at the gate: it comes from the owner, is no replay, and the binding matches. -/
def RejectsClosed (w : World) (approvalId source taskId action scope : String)
    (key : Option String) : Prop :=
  source = ownerSource ∧ recorded w.db key "reject" = none ∧
  ∃ ap ∈ w.db.getApproval approvalId, ap.status.live = false ∧
    ap.expiresAt ≤ w.clock w.reads ∧ Names ap taskId action scope ∧
    ∃ t ∈ w.db.core.tasks.rows, t.id = ap.taskId ∧ t.state = .ownerApprovalRequired

instance (w : World) (approvalId source taskId action scope : String) (key : Option String) :
    Decidable (RejectsClosed w approvalId source taskId action scope key) := by
  unfold RejectsClosed
  infer_instance

/-- The command does not reject a closed approval of a task at the gate. -/
def ReleasesOwn (w : World) : Command → Prop
  | .reject approvalId source taskId action scope key =>
    ¬RejectsClosed w approvalId source taskId action scope key
  | _ => True

instance (w : World) : (c : Command) → Decidable (ReleasesOwn w c)
  | .reject .. => inferInstanceAs (Decidable (¬_))
  | .createProject .. | .createTask .. | .transition .. | .resume .. | .startRole ..
  | .completeRole .. | .failRole .. | .startTaskRun .. | .completeTaskRun .. | .failTaskRun ..
  | .requestAction .. | .approve .. | .executeApproved .. | .addFinding .. | .resolveFinding ..
  | .recordTestRun .. | .recordReview .. | .recordDecision .. | .createDispatch ..
  | .bindSpawnResult .. | .receiveAgentResult .. | .markAgentFailed .. | .recover .. =>
    instDecidableTrue

theorem GateInv.expires {c c' : CoreDb} {ap : OwnerApproval} (h : GateInv c)
    (hap : ap ∈ c.ownerApprovals.rows) (hlive : ap.status.live) (hexp : Expires c c' ap) :
    GateInv c' := by
  obtain ⟨c₁, hset, hrelease⟩ := hexp
  exact h.release hset hrelease hap rfl hlive rfl

/-- A rejection keeps the invariant, unless it names a closed approval. -/
theorem GateInv.reject {c : CoreDb} {approvalId source taskId action scope : String}
    {key : Option String} (hI : GateInv w.db.core)
    (hok : ¬RejectsClosed w approvalId source taskId action scope key)
    (h : (reject approvalId source taskId action scope key w).2.db.core = c) : GateInv c := by
  rcases reject_core h with rfl | ⟨hsource, hrec, ap, hfound, hcases⟩
  · exact hI
  have hap := (Db.getApproval_eq_some.mp hfound).1
  rcases hcases with ⟨hstatus, c₁, hset, hrelease⟩ |
    ⟨hexp, hnames, ⟨hlive, hexpires⟩ | ⟨hdead, hrelease⟩⟩
  · exact hI.release hset hrelease hap rfl (by rw [hstatus]; rfl) rfl
  · exact hI.expires hap hlive hexpires
  · have hgone : ∀ t ∈ w.db.core.tasks.rows, t.id = ap.taskId →
        t.state ≠ .ownerApprovalRequired := fun t ht hid hgate =>
      hok ⟨hsource, hrec, ap, hfound, hdead, hexp, hnames, t, ht, hid, hgate⟩
    rcases hrelease with ⟨rfl, -⟩ | ⟨s, hs, hset⟩
    · exact hI
    · exact hI.setState hset hs hgone

/-- **One step**: a command keeps the invariant, unless it rejects a closed approval. -/
theorem GateInv.step (cfg : Config) {c : Command} (hI : GateInv w.db.core)
    (hok : ReleasesOwn w c) : GateInv (step cfg w c).db.core := by
  generalize hc : (Core.step cfg w c).db.core = c'
  cases c with
  | createTask projectId title source key description risk policy =>
    rcases createTask_core hc with rfl | ⟨t, tasks, hnew, -, hins, rfl⟩
    · exact hI
    · exact hI.insertTask hins (by rw [hnew]; decide)
  | transition taskId toState source key =>
    rcases transition_core hc with rfl | ⟨t, ht, hsrc, hdst, -, hset⟩
    · exact hI
    · refine hI.setState hset (fun hgate => by simp [hgate, TaskState.isPause] at hdst) ?_
      intro x hx hid hgate
      rw [← Task.eq_of_id hx (Db.getTask_eq_some.mp ht).1 hid, hgate] at hsrc
      exact Bool.noConfusion hsrc
  | resume taskId source key =>
    rcases resume_core hc with rfl | ⟨t, ht, hpaused, rs, -, hallowed, hset⟩
    · exact hI
    · refine hI.setState hset (fun hgate => ?_) fun x hx hid => ?_
      · rw [hgate] at hallowed
        exact absurd hallowed (by decide)
      · rw [Task.eq_of_id hx (Db.getTask_eq_some.mp ht).1 hid, hpaused]
        decide
  | requestAction taskId action scope actorRole source key =>
    rcases requestAction_core hc with rfl | ⟨x, executions, -, -, rfl⟩ | h
    · exact hI
    · exact hI.congr rfl rfl
    · exact hI.park h
  | approve approvalId source taskId action scope key =>
    rcases approve_core hc with rfl | ⟨ap, hap, hstatus, hset | hexp⟩
    · exact hI
    · exact hI.setApproval hset hap rfl (by rw [hstatus]; rfl) rfl
    · exact hI.expires hap (by rw [hstatus]; rfl) hexp
  | reject approvalId source taskId action scope key => exact hI.reject hok hc
  | executeApproved approvalId source taskId action scope key =>
    rcases executeApproved_core hc with rfl | ⟨-, -, ap, hfound, hstatus, -, hcases⟩
    · exact hI
    have hap := (Db.getApproval_eq_some.mp hfound).1
    rcases hcases with ⟨-, x, c₁, c₂, ⟨-, -, executions, -, rfl⟩, hset, hrelease⟩ | ⟨-, hexp⟩
    · have hI₁ : GateInv { w.db.core with actionExecutions := executions } := hI.congr rfl rfl
      exact hI₁.release hset hrelease hap rfl (by rw [hstatus]; rfl) rfl
    · exact hI.expires hap (by rw [hstatus]; rfl) hexp
  | receiveAgentResult dispatchId eventMeta result source key =>
    rcases receiveAgentResult_core hc with rfl | ⟨d, -, -, ⟨dispatches, -, rfl⟩ |
      ⟨out, -, w₁, w₂, w₃, ⟨dispatches, -, h₁⟩, heffects, hsync, rfl⟩⟩
    · exact hI
    · exact hI.congr rfl rfl
    · have hI₁ : GateInv w₁.db.core := hI.congr (by rw [h₁]) (by rw [h₁])
      have hI₂ : GateInv w₂.db.core := hI₁.of_gateTables (Moves.of_returns (R := Eq) heffects)
      exact hI₂.applyStateSync hsync
  | recover source key =>
    rcases recover_core hc with rfl | h
    · exact hI
    · exact hI.recovers h
  | _ => exact hc ▸ hI.of_gateTables (Moves.moves (R := Eq) w)

theorem GateInv.empty : GateInv Db.empty.core := by
  refine ⟨?_, ?_, ?_, fun id a b ha => ?_, ?_⟩
  · simp [Db.empty]
  · simp [Db.empty]
  · simp [Db.empty]
  · exact absurd ha.mem (by simp [Db.empty])
  · simp [Db.empty]

/-- **The owner gate holds a task exactly as long as one live approval does**, as long as
no call rejects a closed approval of a task at the gate: whatever run of the core leads
from an empty database to a state, a task is at the gate in that state if and only if
exactly one of its approvals is pending or approved. -/
theorem gate_iff_one_live (cfg : Config) {w : World} {cs : List Command} (hw : Fresh w)
    (hok : Along cfg ReleasesOwn w cs) :
    ∀ t ∈ (run cfg w cs).db.core.tasks.rows, t.state = .ownerApprovalRequired ↔
      (liveApprovals (run cfg w cs).db.core t.id).length = 1 := by
  have hinv : GateInv (run cfg w cs).db.core := by
    refine Runs.run_inv (I := fun w => GateInv w.db.core)
      (fun w c hI hc => GateInv.step cfg hI hc) ?_ hok
    show GateInv w.db.core
    rw [hw]
    exact GateInv.empty
  exact fun t ht => hinv.gate ht

/-! ### A run that opens the gate behind an approval -/

def usedApproval : List Command := leadAtWork ++
  [askForDeploy, forDeploy .approve 5, forDeploy .executeApproved 5]

/-- The owner rejects the old approval again while another one is pending. -/
def rejectUsed : List Command := [askForDeploy, forDeploy .reject 5]

/-- **A task may leave the gate with a live approval** without the condition on the steps:
the old approval has expired since it was used, and rejecting it releases the task from
the gate it is kept at by another one. -/
theorem gate_opens_behind_live :
    ¬∀ (cfg : Config) (w : World) (cs : List Command), Fresh w →
      ∀ t ∈ (run cfg w cs).db.core.tasks.rows, t.state = .ownerApprovalRequired ↔
        (liveApprovals (run cfg w cs).db.core t.id).length = 1 :=
  fun h => absurd (h .lenient (idle 16) (usedApproval ++ rejectUsed) rfl) (by decide +kernel)

/-- The same run without the rejection. -/
theorem gate_iff_one_live_used :
    ∃ t ∈ (run .lenient (idle 16) (usedApproval ++ [askForDeploy])).db.core.tasks.rows,
      t.state = .ownerApprovalRequired ∧
        (liveApprovals (run .lenient (idle 16) (usedApproval ++ [askForDeploy])).db.core
          t.id).length = 1 := by
  have hopen : ((run .lenient (idle 16) (usedApproval ++ [askForDeploy])).db.core.tasks.rows.any
      fun t => t.state = .ownerApprovalRequired) = true := by decide +kernel
  obtain ⟨t, ht, hstate⟩ := List.any_eq_true.mp hopen
  have hstate := of_decide_eq_true hstate
  exact ⟨t, ht, hstate, (@gate_iff_one_live .lenient (idle 16) (usedApproval ++ [askForDeploy])
    rfl (by decide) t ht).mp hstate⟩

end Core

end ArgentTeam
