import ArgentTeam.Core.Gate

/-!
# What the gate commands do

Every command around the owner gate, read as a relation between the core tables before
and after it. A request leaves the tables alone, records an execution without approval,
or parks a task behind a new approval. A gate command leaves the tables alone, or it
rewrites one approval – `SetApproval` – and, where that closes the approval, releases
the task – `Releases`.
-/

namespace ArgentTeam

open Prog Store

namespace Core

/-! ### What a request does -/

section Requesting

variable {w w' : World} {taskId action scope source : String} {actorRole : Role}
  {key : Option String} {c : CoreDb}

/-- The core tables before and after an execution without approval was recorded. -/
def RecordsExecution (c c' : CoreDb) : Prop :=
  ∃ x executions, x.approvalId = none ∧ c.actionExecutions.insert? x = some executions ∧
    c' = { c with actionExecutions := executions }

/-- The core tables before and after an actionable task was parked at the gate, behind a
new approval. -/
def ParksTask (c c' : CoreDb) : Prop :=
  ∃ task ∈ c.tasks.rows, task.state.isActionable = true ∧
    ∃ id action scope role created expires approvals,
      c.ownerApprovals.insert? (newApproval id task.id action scope role created expires) =
        some approvals ∧
      SetState { c with ownerApprovals := approvals } c' task.id .ownerApprovalRequired
        (some task.state)

theorem requestForbidden_core {r : Unit × String}
    (h : (requestForbidden taskId action scope actorRole source).Returns w r w') :
    RecordsExecution w.db.core w'.db.core := by
  simp only [requestForbidden, returns_bind, returns_theTask, returns_requireRoleActor,
    returns_requireActionableState, returns_uuid4, returns_nowIso, insertActionExecution,
    Relvar.returns_insert, returns_pure] at h
  obtain ⟨task, _, ⟨htask, rfl⟩, -, _, ⟨-, -, rfl⟩, -, _, ⟨hact, rfl⟩, _, _, ⟨rfl, rfl⟩, _, _,
    ⟨rfl, rfl⟩, -, _, ⟨t', ht, rfl⟩, _, _, hemit, -, rfl⟩ := h
  exact ⟨_, t', rfl, ht, Moves.frame core hemit⟩

theorem requestAutonomous_core {r : Option ActionRequestResult × String}
    (h : (requestAutonomous taskId action scope actorRole source).Returns w r w') :
    RecordsExecution w.db.core w'.db.core := by
  simp only [requestAutonomous, returns_bind, returns_theTask, returns_requireRoleActor,
    returns_requireActionableState, returns_require, returns_uuid4, returns_nowIso,
    insertActionExecution, Relvar.returns_insert, returns_pure] at h
  obtain ⟨task, _, ⟨htask, rfl⟩, -, _, ⟨-, -, rfl⟩, -, _, ⟨hact, rfl⟩, -, _, ⟨-, rfl⟩, _, _,
    ⟨rfl, rfl⟩, _, _, ⟨rfl, rfl⟩, -, _, ⟨t', ht, rfl⟩, -, rfl⟩ := h
  exact ⟨_, t', rfl, ht, rfl⟩

theorem requestApproval_core {r : Option ActionRequestResult × String}
    (h : (requestApproval taskId action scope actorRole source).Returns w r w') :
    ParksTask w.db.core w'.db.core := by
  simp only [requestApproval, returns_bind, returns_theTask, returns_requireRoleActor,
    returns_requireActionableState, returns_read, returns_require, returns_uuid4, expiryIso,
    returns_nowIso, insertApproval, Relvar.returns_insert, returns_validateTransition,
    returns_pure, and_assoc, exists_and_left, exists_eq_left', exists_const] at h
  obtain ⟨task, htask, -, -, hact, -, _, ⟨approvals, ht, rfl⟩, task', htask', -, _, w₂, happly, _,
    w₃, hemit, -, rfl⟩ := h
  obtain rfl : task' = task :=
    Option.some.inj (Eq.trans (show w.db.getTask taskId = some task' from htask').symm htask)
  have hcore := (Moves.frame core hemit).symm
  refine ⟨task', (Db.getTask_eq_some.mp htask).1, hact, w.uuids w.draws, action, scope, actorRole,
    w.clock w.reads, _, approvals, ht, ?_⟩
  rw [show w₃.db.core = w₂.db.core from hcore.symm]
  exact setState_of_applyTransition happly

theorem requestClassified_core {cls : ActionClass}
    (h : (requestClassified taskId action scope actorRole source key cls w).2.db.core = c) :
    c = w.db.core ∨ RecordsExecution w.db.core c ∨ ParksTask w.db.core c := by
  cases cls with
  | forbidden =>
    rw [requestClassified, bind_raise_snd] at h
    refine (idempotent_core (fun _ => inferInstance) h).imp_right ?_
    rintro ⟨-, r, w₁, hr, rfl⟩
    exact Or.inl (requestForbidden_core hr)
  | ownerApprovalRequired =>
    refine (idempotent_core (fun _ => inferInstance) h).imp_right ?_
    rintro ⟨-, r, w₁, hr, rfl⟩
    exact Or.inr (requestApproval_core hr)
  | autonomous =>
    by_cases hperm : hasPermission actorRole (permissionFor action).1 (permissionFor action).2 =
      false
    · subst h
      rw [requestClassified, onlyIf, if_pos hperm, denyRole, Prog.bind_assoc]
      simp only [raise_bind]
      rw [bind_raise_snd]
      exact Or.inl (Moves.frame_snd core)
    · rw [requestClassified, onlyIf, if_neg hperm, Prog.pure_bind] at h
      refine (idempotent_core (fun _ => inferInstance) h).imp_right ?_
      rintro ⟨-, r, w₁, hr, rfl⟩
      exact Or.inl (requestAutonomous_core hr)

/-- **What `request_action` does**: nothing, or it records an execution without approval,
or it parks the task at the gate. -/
theorem requestAction_core
    (h : (requestAction taskId action scope actorRole source key w).2.db.core = c) :
    c = w.db.core ∨ RecordsExecution w.db.core c ∨ ParksTask w.db.core c := by
  subst h
  unfold requestAction
  rcases checked_snd (checkSource_snd source) with h | ⟨_, -, h⟩ <;> rw [h]
  · exact Or.inl rfl
  rcases checked_snd (theTask_snd taskId) with h | ⟨task, -, h⟩ <;> rw [h]
  · exact Or.inl rfl
  · exact requestClassified_core rfl

end Requesting

/-! ### What a decision does -/

section Deciding

variable {w w' : World} {approvalId source taskId action scope : String} {key : Option String}
  {ap : OwnerApproval} {r : Option OwnerApproval} {c c' : CoreDb} {u : Unit} {now : Time} {t : Task}

/-- The core tables before and after the row of one approval was rewritten. -/
def SetApproval (c c' : CoreDb) (ap : OwnerApproval) (f : OwnerApproval → OwnerApproval) : Prop :=
  ∃ approvals, approvals.rows = c.ownerApprovals.rows.map (Table.patch (fun a => a.id = ap.id) f) ∧
    c' = { c with ownerApprovals := approvals }

/-- What a rewritten approval does to the rows of the approvals. -/
theorem mem_of_setApproval {f : OwnerApproval → OwnerApproval} (h : SetApproval c c' ap f)
    (hap : ap ∈ c.ownerApprovals.rows) {a' : OwnerApproval} :
    a' ∈ c'.ownerApprovals.rows ↔
      a' = f ap ∨ a' ∈ c.ownerApprovals.rows ∧ a'.id ≠ ap.id := by
  obtain ⟨approvals, hrows, rfl⟩ := h
  simp only [hrows, List.mem_map]
  constructor
  · rintro ⟨a, ha, rfl⟩
    by_cases hid : a.id = ap.id
    · obtain rfl := OwnerApproval.eq_of_id ha hap hid
      exact Or.inl (Table.patch_pos (by simp))
    · rw [Table.patch_neg (by simp [hid])]
      exact Or.inr ⟨ha, hid⟩
  · rintro (rfl | ⟨ha, hid⟩)
    · exact ⟨ap, hap, Table.patch_pos (by simp)⟩
    · exact ⟨a', ha, Table.patch_neg (by simp [hid])⟩

/-- The core tables before and after a task left the gate. It stays only where it is not
there, or where it remembers no state to resume. -/
def Releases (c c' : CoreDb) (taskId : Uuid) : Prop :=
  (c' = c ∧ ∀ t ∈ c.tasks.rows, t.id = taskId → t.state = .ownerApprovalRequired →
    t.resumeState = none) ∨
  ∃ s, s ≠ .ownerApprovalRequired ∧ SetState c c' taskId s none

/-- A call names the binding of the approval, as it was requested and as it was hashed. -/
def Names (ap : OwnerApproval) (taskId action scope : String) : Prop :=
  (ap.taskId.text = taskId ∧ ap.action = action ∧ ap.scope = scope) ∧
    ap.bindingHash = ⟨taskId, action, scope⟩

instance (ap : OwnerApproval) (taskId action scope : String) :
    Decidable (Names ap taskId action scope) := inferInstanceAs (Decidable (_ ∧ _))

/-- An update of an approval by its identifier and a condition it meets rewrites it; if it
rewrites any row, the condition is met. -/
theorem setApproval_of_update {p : OwnerApproval → Bool} {f : OwnerApproval → OwnerApproval}
    {approvals : Table OwnerApproval OwnerApproval.clash} (hap : ap ∈ c.ownerApprovals.rows)
    (hp : p ap)
    (h : c.ownerApprovals.update? (fun a => a.id = ap.id && p a) f = some approvals) :
    SetApproval c { c with ownerApprovals := approvals } ap f := by
  refine ⟨approvals, ?_, rfl⟩
  rw [(Table.update?_eq_some.mp h).2]
  refine List.map_congr_left fun a ha => ?_
  by_cases hid : a.id = ap.id
  · obtain rfl := OwnerApproval.eq_of_id ha hap hid
    simp [Table.patch, hp]
  · simp [Table.patch, hid]

theorem condition_of_count {p : OwnerApproval → Bool} (hap : ap ∈ c.ownerApprovals.rows)
    (h : c.ownerApprovals.rows.countP (fun a => a.id = ap.id && p a) ≠ 0) : p ap = true := by
  obtain ⟨a, ha, hp⟩ := List.countP_pos_iff.mp (Nat.pos_of_ne_zero h)
  simp only [Bool.and_eq_true, decide_eq_true_eq] at hp
  obtain rfl := OwnerApproval.eq_of_id ha hap hp.1
  exact hp.2

theorem gatedTask_eq_some {db : Db} :
    gatedTask db ap = some t ↔ t ∈ db.core.tasks.rows ∧ t.id = ap.taskId ∧
      t.state = .ownerApprovalRequired := by
  simp only [gatedTask, Option.filter_eq_some_iff, Db.getTask_eq_some, Uuid.text_inj,
    decide_eq_true_eq, and_assoc]

theorem releases_of_applyTransition {dst : TaskState}
    (ht : gatedTask w.db ap = some t) (hdst : dst ≠ .ownerApprovalRequired)
    (h : (applyTransition t dst none).Returns w u w') :
    Releases w.db.core w'.db.core ap.taskId := by
  rw [← ((gatedTask_eq_some).mp ht).2.1]
  exact Or.inr ⟨dst, hdst, setState_of_applyTransition h⟩

theorem Releases.keeps {taskId : Uuid} (h : Releases c c' taskId) :
    c'.ownerApprovals = c.ownerApprovals ∧ c'.actionExecutions = c.actionExecutions := by
  rcases h with ⟨rfl, -⟩ | ⟨s, -, tasks, -, rfl⟩ <;> exact ⟨rfl, rfl⟩

theorem releases_of_none (h : gatedTask w.db ap = none) :
    Releases w.db.core w.db.core ap.taskId := by
  refine Or.inl ⟨rfl, fun t ht hid hstate => ?_⟩
  rw [(gatedTask_eq_some).mpr ⟨ht, hid, hstate⟩] at h
  exact absurd h (by simp)

/-- The work of `approve` approves. -/
theorem approveWork_core (hap : ap ∈ w.db.core.ownerApprovals.rows)
    (h : (approveWork ap taskId action scope).Returns w r w') :
    ap.status = .pending ∧ SetApproval w.db.core w'.db.core ap (.approve (w.clock w.reads)) := by
  simp only [approveWork, returns_bind, returns_checkFullBinding, returns_nowIso, returns_require,
    markApproved, Relvar.returns_update, returns_read] at h
  obtain ⟨-, _, ⟨-, -, rfl⟩, _, _, ⟨rfl, rfl⟩, -, _, ⟨hstatus, rfl⟩, -, _, ⟨hexp, rfl⟩, rc, _,
    ⟨approvals, ht, -, rfl⟩, -, _, ⟨-, rfl⟩, _, w₂, hemit, -, rfl⟩ := h
  refine ⟨hstatus, ?_⟩
  rw [show w₂.db.core = _ from Moves.frame core hemit]
  exact setApproval_of_update hap (by simp [hstatus, hexp]) ht

/-- The work of `reject` rejects a pending approval and blocks its task. -/
theorem rejectWork_core (hap : ap ∈ w.db.core.ownerApprovals.rows)
    (h : (rejectWork ap taskId action scope).Returns w r w') :
    ap.status = .pending ∧ ∃ c, SetApproval w.db.core c ap (.reject (w.clock w.reads)) ∧
      Releases c w'.db.core ap.taskId := by
  simp only [rejectWork, returns_bind, returns_checkFullBinding, returns_nowIso, returns_require,
    markRejected, Relvar.returns_update, returns_read, returns_whenSome] at h
  obtain ⟨-, _, ⟨-, -, rfl⟩, _, _, ⟨rfl, rfl⟩, -, _, ⟨-, rfl⟩, rc, _, ⟨approvals, ht, rfl, rfl⟩, -,
    _, ⟨hrc, rfl⟩, task, _, ⟨htask, rfl⟩, _, w₂, hrelease, _, w₃, hemit, -, rfl⟩ := h
  have hstatus : ap.status = .pending := by
    simpa using condition_of_count (p := fun a => a.status = .pending) hap hrc
  refine ⟨hstatus, _, setApproval_of_update hap (by simp [hstatus]) ht, ?_⟩
  rw [show w₃.db.core = w₂.db.core from Moves.frame core hemit]
  rcases hrelease with ⟨t, rfl, hblock⟩ | ⟨rfl, rfl⟩
  · simp only [blockTask, returns_bind, returns_validateTransition] at hblock
    obtain ⟨-, _, ⟨-, rfl⟩, happly⟩ := hblock
    exact releases_of_applyTransition htask (by decide) happly
  · exact releases_of_none htask

theorem releases_of_resumeTask {dst : TaskState} (ht : gatedTask w.db ap = some t)
    (h : (resumeTask t dst).Returns w u w') : Releases w.db.core w'.db.core ap.taskId := by
  simp only [resumeTask, returns_bind, returns_validateTransition] at h
  obtain ⟨-, _, ⟨hallowed, rfl⟩, happly⟩ := h
  refine releases_of_applyTransition ht (fun hdst => ?_) happly
  exact TaskState.ne_of_isAllowed hallowed (((gatedTask_eq_some).mp ht).2.2.trans hdst.symm)

/-- The core tables before and after the execution of an approval was recorded, the second
reading of the clock being its time. -/
def RecordsApproved (c c' : CoreDb) (ap : OwnerApproval) (x : ActionExecution) (now : Time) :
    Prop :=
  x.approvalId = some ap.id ∧ x.createdAt = now ∧
    ∃ executions, c.actionExecutions.insert? x = some executions ∧
      c' = { c with actionExecutions := executions }

/-- The work of `execute_approved` records an execution, consumes the approval with it and
releases its task. -/
theorem executeWork_core (hap : ap ∈ w.db.core.ownerApprovals.rows)
    (h : (executeWork ap taskId action scope).Returns w r w') :
    ap.status = .approved ∧ w.clock w.reads < ap.expiresAt ∧ ∃ x c₁ c₂,
      RecordsApproved w.db.core c₁ ap x (w.clock (w.reads + 1)) ∧
      SetApproval c₁ c₂ ap (.consumeWith (w.clock w.reads) x.id) ∧
      Releases c₂ w'.db.core ap.taskId := by
  simp only [executeWork, returns_bind, returns_checkFullBinding, returns_nowIso, returns_require,
    returns_uuid4, insertActionExecution, Relvar.returns_insert, consumeApprovalWithExecution,
    Relvar.returns_update, returns_read, returns_whenSome, and_assoc, exists_and_left,
    exists_eq_left', exists_const] at h
  obtain ⟨-, -, -, -, hstatus, hexp, -, _, ⟨executions, hx, rfl⟩, rc, _, ⟨approvals, ht, -, rfl⟩, -,
    _, w₂, hrelease, -, rfl⟩ := h
  refine ⟨hstatus, hexp, _, { w.db.core with actionExecutions := executions }, _,
    ⟨rfl, rfl, executions, hx, rfl⟩, setApproval_of_update hap (by simp [hstatus, hexp]) ht, ?_⟩
  rcases hrelease with ⟨t, htask, ⟨dst, -, hresume⟩ | ⟨hnone, rfl⟩⟩ | ⟨htask, rfl⟩
  · exact releases_of_resumeTask htask hresume
  · refine Or.inl ⟨rfl, fun t' ht' hid hstate => ?_⟩
    have hsame := ((gatedTask_eq_some).mpr ⟨ht', hid, hstate⟩).symm.trans htask
    rw [Option.some.inj hsame, hnone]
  · exact releases_of_none htask

/-- Marking an approval expired closes it if it is live, and does nothing otherwise. -/
theorem setApproval_of_expiry {approvals : Table OwnerApproval OwnerApproval.clash}
    (hap : ap ∈ c.ownerApprovals.rows) (hexp : ap.expiresAt ≤ now)
    (h : c.ownerApprovals.update? (fun a => a.id = ap.id && (a.status.live && a.expiresAt ≤ now))
      .expire = some approvals) :
    if ap.status.live then SetApproval c { c with ownerApprovals := approvals } ap .expire
    else { c with ownerApprovals := approvals } = c := by
  split
  · rename_i hlive
    exact setApproval_of_update hap (by simp [hlive, hexp]) h
  · rename_i hlive
    rw [Table.eq_of_update? h fun a ha => ?_]
    by_cases hid : a.id = ap.id
    · simp [OwnerApproval.eq_of_id ha hap hid, hlive]
    · simp [hid]

/-- An approval that has expired is closed if it is live, and its task is released either
way. -/
theorem expireAndRelease_core (hap : ap ∈ w.db.core.ownerApprovals.rows)
    (hexp : ap.expiresAt ≤ w.clock w.reads) (h : (expireAndRelease ap.id).Returns w u w') :
    ∃ c, (if ap.status.live then SetApproval w.db.core c ap .expire else c = w.db.core) ∧
      Releases c w'.db.core ap.taskId := by
  simp only [expireAndRelease, returns_bind, returns_nowIso, markExpired, Relvar.returns_update,
    returns_read, returns_whenSome, returns_caseSome] at h
  obtain ⟨_, _, ⟨rfl, rfl⟩, -, _, ⟨approvals, ht, -, rfl⟩, ap', _, ⟨hap', rfl⟩, h⟩ := h
  refine ⟨_, setApproval_of_expiry hap hexp ht, ?_⟩
  have hid : ∀ p, (Table.patch p OwnerApproval.expire ap).id = ap.id := fun p => by
    unfold Table.patch
    split <;> rfl
  have htaskId : ∀ p, (Table.patch p OwnerApproval.expire ap).taskId = ap.taskId := fun p => by
    unfold Table.patch
    split <;> rfl
  have hfound := Eq.trans hap'.symm <| Db.getApproval_eq_some.mpr
    ⟨(Table.mem_of_update? ht).mpr ⟨ap, hap, rfl⟩, by rw [hid]⟩
  rcases h with ⟨ap₁, rfl, task, _, ⟨htask, rfl⟩, hrelease⟩ | ⟨rfl, -⟩
  · have hsame : ap₁.taskId = ap.taskId := by rw [Option.some.inj hfound, htaskId]
    rw [← hsame]
    rcases hrelease with ⟨t, rfl, ⟨dst, -, hresume⟩ | ⟨-, hblock⟩⟩ | ⟨rfl, rfl⟩
    · exact releases_of_resumeTask htask hresume
    · simp only [blockTask, returns_bind, returns_validateTransition] at hblock
      obtain ⟨-, _, ⟨-, rfl⟩, happly⟩ := hblock
      exact releases_of_applyTransition htask (by decide) happly
    · exact releases_of_none htask
  · exact absurd hfound (by simp)

theorem eq_of_returns_approvalBindingRefetch {resultId : String}
    (h : (approvalBindingRefetch taskId action scope resultId).Returns w r w') : w = w' := by
  simp only [approvalBindingRefetch, returns_bind, returns_read, returns_orRaise,
    returns_checkFullBinding, returns_pure] at h
  obtain ⟨_, _, ⟨rfl, rfl⟩, _, _, ⟨-, rfl⟩, -, _, ⟨-, -, rfl⟩, -, rfl⟩ := h
  rfl

/-- What follows an expiry: its approval is released, or nothing happens. -/
theorem onExpired_core {e : Error} :
    (onExpired e w).2.db.core = w.db.core ∨ ∃ id u w₁, e = .approvalExpired id ∧
      (expireAndRelease id).Returns w u w₁ ∧ (onExpired e w).2.db.core = w₁.db.core := by
  cases e with
  | approvalExpired id =>
    rw [onExpired, bind_raise_snd]
    rcases returns_or_raises (transaction (expireAndRelease id)) w with ⟨u, w₁, h⟩ | ⟨e, w₁, h⟩
    · exact Or.inr ⟨id, u, w₁, rfl, returns_transaction.mp h, by rw [h.snd_eq]⟩
    · obtain ⟨w₂, -, rfl⟩ := raises_transaction.mp h
      exact Or.inl (by rw [h.snd_eq])
  | error cls text values => exact Or.inl rfl

/-- **What a gate command does**: nothing, or what its work makes of the approval it names,
or, where the work finds the approval expired, the release that follows. -/
theorem gateCommand_core {command : String}
    {work : OwnerApproval → String → String → String → Cmd (Option OwnerApproval)}
    (h : (gateCommand command work approvalId source taskId action scope key w).2.db.core = c) :
    c = w.db.core ∨ (source = ownerSource ∧ recorded w.db key command = none ∧
      ∃ ap ∈ w.db.getApproval approvalId,
        ((∃ r w₁, (work ap taskId action scope).Returns w r w₁ ∧ c = w₁.db.core) ∨
        ∃ id w₁ u w₂, (work ap taskId action scope).Raises w (.approvalExpired id) w₁ ∧
          (expireAndRelease id).Returns { w₁ with db := w.db } u w₂ ∧ c = w₂.db.core)) := by
  subst h
  unfold gateCommand
  rcases checked_snd (requireOwner_snd source) with h | ⟨_, hsource, h⟩ <;> rw [h]
  · exact Or.inl rfl
  have hsource := (returns_requireOwner.mp hsource).1
  rcases returns_or_raises (idempotent key command (gateArgs approvalId source taskId action scope)
    (do
      let ap ← theApproval approvalId
      let ap ← work ap taskId action scope
      pure (ap, approvalId))
    (approvalBindingRefetch taskId action scope)) w with ⟨r, w', h⟩ | ⟨e, w', h⟩
  · rw [rescue_snd_of_returns h]
    rcases returns_idempotent.mp h with ⟨rec, -, -, hagain⟩ | ⟨hrec, id, w₁, hwork, rfl⟩
    · exact Or.inl (by rw [eq_of_returns_approvalBindingRefetch hagain])
    · simp only [returns_bind, returns_theApproval, returns_pure] at hwork
      obtain ⟨ap, _, ⟨hap, rfl⟩, r', w₂, hwork, -, rfl⟩ := hwork
      exact Or.inr ⟨hsource, hrec, ap, hap, Or.inl ⟨r', w₂, hwork, recordCommand_core⟩⟩
  · rw [rescue_snd_of_raises h]
    obtain ⟨hdb, hcause⟩ := raises_idempotent h
    rcases onExpired_core (e := e) (w := w') with hsame | ⟨id, u, w₂, rfl, hrelease, hcore⟩
    · exact Or.inl (hsame.trans (by rw [hdb]))
    · rcases hcause with ⟨rec, -, ⟨k, hk⟩ | ⟨w₁, hagain⟩⟩ | ⟨hrec, w₁, hwork, rfl⟩
      · exact absurd hk (by simp [keyReused])
      · simp [approvalBindingRefetch] at hagain
      · simp only [raises_bind, theApproval_not_expired, returns_theApproval, not_raises_pure,
          and_false, exists_false, or_false, false_or] at hwork
        obtain ⟨ap, _, ⟨hap, rfl⟩, hwork⟩ := hwork
        exact Or.inr ⟨hsource, hrec, ap, hap, Or.inr ⟨id, w₁, u, w₂, hwork, hrelease, hcore⟩⟩

/-! ### The three decisions -/

/-- The core tables before and after an expired approval was closed and its task
released. -/
def Expires (c c' : CoreDb) (ap : OwnerApproval) : Prop :=
  ∃ c₁, SetApproval c c₁ ap .expire ∧ Releases c₁ c' ap.taskId

/-- **What `approve` does**: nothing, or it approves a pending approval, or it closes a
pending one that has expired. -/
theorem approve_core
    (h : (approve approvalId source taskId action scope key w).2.db.core = c) :
    c = w.db.core ∨ ∃ ap ∈ w.db.core.ownerApprovals.rows, ap.status = .pending ∧
      (SetApproval w.db.core c ap (.approve (w.clock w.reads)) ∨ Expires w.db.core c ap) := by
  refine (gateCommand_core h).imp_right ?_
  rintro ⟨-, -, ap, hap, ⟨r, w₁, hwork, rfl⟩ | ⟨id, w₁, u, w₂, hwork, hrelease, rfl⟩⟩
  all_goals have hap := (Db.getApproval_eq_some.mp hap).1
  · obtain ⟨hstatus, hset⟩ := approveWork_core hap hwork
    exact ⟨ap, hap, hstatus, Or.inl hset⟩
  · simp only [approveWork, markApproved, raises_bind, checkFullBinding_not_expired,
      returns_checkFullBinding, not_raises_nowIso, returns_nowIso, raises_require,
      returns_require, Relvar.raises_update, integrityError, emitTask_not_expired,
      not_raises_read, reduceCtorEq, false_and, and_false, exists_false, or_false, false_or,
      Error.approvalExpired.injEq] at hwork
    obtain ⟨-, _, ⟨-, -, rfl⟩, _, _, ⟨rfl, rfl⟩, -, _, ⟨hstatus, rfl⟩, hexp, rfl, rfl⟩ := hwork
    obtain ⟨c₁, hset, hrel⟩ := expireAndRelease_core (w := { w with reads := w.reads + 1 }) hap
      ((not_lt.mp hexp).trans (w.clock.monotone (Nat.le_succ _))) hrelease
    rw [if_pos (by rw [hstatus]; rfl)] at hset
    exact ⟨ap, hap, hstatus, Or.inr ⟨c₁, hset, hrel⟩⟩

/-- **What `reject` does**: nothing, or it rejects a pending approval and blocks its task,
or, for an approval that has expired, it closes it where it is live – and releases its task
where it is not. -/
theorem reject_core (h : (reject approvalId source taskId action scope key w).2.db.core = c) :
    c = w.db.core ∨ (source = ownerSource ∧ recorded w.db key "reject" = none ∧
      ∃ ap ∈ w.db.getApproval approvalId,
        ((ap.status = .pending ∧ ∃ c₁, SetApproval w.db.core c₁ ap (.reject (w.clock w.reads)) ∧
          Releases c₁ c ap.taskId) ∨
        (ap.expiresAt ≤ w.clock w.reads ∧ Names ap taskId action scope ∧
          (ap.status.live ∧ Expires w.db.core c ap ∨
            ap.status.live = false ∧ Releases w.db.core c ap.taskId)))) := by
  refine (gateCommand_core h).imp_right ?_
  rintro ⟨hsource, hrec, ap, hfound, ⟨r, w₁, hwork, rfl⟩ | ⟨id, w₁, u, w₂, hwork, hrelease, rfl⟩⟩
  all_goals
    have hap := (Db.getApproval_eq_some.mp hfound).1
    refine ⟨hsource, hrec, ap, hfound, ?_⟩
  · exact Or.inl (rejectWork_core hap hwork)
  · simp only [rejectWork, blockTask, markRejected, raises_bind, checkFullBinding_not_expired,
      returns_checkFullBinding, not_raises_nowIso, returns_nowIso, raises_require,
      raises_whenSome, validateTransition_not_expired, applyTransition_not_expired,
      Relvar.raises_update, integrityError, emitTask_not_expired, not_raises_read,
      reduceCtorEq, false_and, and_false, exists_false, or_false, false_or,
      Error.approvalExpired.injEq] at hwork
    obtain ⟨-, _, ⟨hbinding, hhash, rfl⟩, _, _, ⟨rfl, rfl⟩, hexp, rfl, rfl⟩ := hwork
    have hexp := not_lt.mp hexp
    obtain ⟨c₁, hset, hrel⟩ := expireAndRelease_core (w := { w with reads := w.reads + 1 }) hap
      (hexp.trans (w.clock.monotone (Nat.le_succ _))) hrelease
    split at hset
    · rename_i hlive
      exact Or.inr ⟨hexp, ⟨hbinding, hhash⟩, Or.inl ⟨hlive, c₁, hset, hrel⟩⟩
    · rename_i hlive
      rw [hset] at hrel
      exact Or.inr ⟨hexp, ⟨hbinding, hhash⟩, Or.inr ⟨by simpa using hlive, hrel⟩⟩

/-- **What `execute_approved` does**: nothing, or it consumes an approved approval with a
recorded execution and releases its task, or it closes an approved one that has expired. -/
theorem executeApproved_core
    (h : (executeApproved approvalId source taskId action scope key w).2.db.core = c) :
    c = w.db.core ∨ (source = ownerSource ∧ recorded w.db key "execute_approved" = none ∧
      ∃ ap ∈ w.db.getApproval approvalId, ap.status = .approved ∧
        Names ap taskId action scope ∧
        ((w.clock w.reads < ap.expiresAt ∧ ∃ x c₁ c₂,
          RecordsApproved w.db.core c₁ ap x (w.clock (w.reads + 1)) ∧
          SetApproval c₁ c₂ ap (.consumeWith (w.clock w.reads) x.id) ∧ Releases c₂ c ap.taskId) ∨
        (ap.expiresAt ≤ w.clock w.reads ∧ Expires w.db.core c ap))) := by
  refine (gateCommand_core h).imp_right ?_
  rintro ⟨hsource, hrec, ap, hfound, ⟨r, w₁, hwork, rfl⟩ | ⟨id, w₁, u, w₂, hwork, hrelease, rfl⟩⟩
  all_goals
    have hap := (Db.getApproval_eq_some.mp hfound).1
    refine ⟨hsource, hrec, ap, hfound, ?_⟩
  · have hnames : Names ap taskId action scope := by
      simp only [executeWork, returns_bind, returns_checkFullBinding] at hwork
      obtain ⟨-, _, ⟨hb, hh, -⟩, -⟩ := hwork
      exact ⟨hb, hh⟩
    obtain ⟨hstatus, hexp, hrest⟩ := executeWork_core hap hwork
    exact ⟨hstatus, hnames, Or.inl ⟨hexp, hrest⟩⟩
  · simp only [executeWork, resumeTask, insertActionExecution, consumeApprovalWithExecution,
      raises_bind, checkFullBinding_not_expired, returns_checkFullBinding, not_raises_nowIso,
      returns_nowIso, raises_require, returns_require, not_raises_uuid4, raises_whenSome,
      validateTransition_not_expired, applyTransition_not_expired, Relvar.raises_insert,
      Relvar.raises_update, integrityError, not_raises_read, reduceCtorEq, false_and, and_false,
      exists_false, or_false, false_or, Error.approvalExpired.injEq] at hwork
    obtain ⟨-, _, ⟨hbinding, hhash, rfl⟩, _, _, ⟨rfl, rfl⟩, -, _, ⟨hstatus, rfl⟩, hexp, rfl, rfl⟩ :=
      hwork
    have hexp := not_lt.mp hexp
    obtain ⟨c₁, hset, hrel⟩ := expireAndRelease_core (w := { w with reads := w.reads + 1 }) hap
      (hexp.trans (w.clock.monotone (Nat.le_succ _))) hrelease
    rw [if_pos (by rw [hstatus]; rfl)] at hset
    exact ⟨hstatus, ⟨hbinding, hhash⟩, Or.inr ⟨hexp, c₁, hset, hrel⟩⟩

end Deciding

end Core

end ArgentTeam
