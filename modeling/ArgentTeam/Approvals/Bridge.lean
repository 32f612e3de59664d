import ArgentTeam.Lib.Coupling
import ArgentTeam.Approvals.Effects

/-!
# The decisions of a callback are those of the core

The bodies of `approve`, `reject` and of the release of an expired approval are written twice.
Here the two are run side by side (`Prog.Coupled`), on worlds that agree on what a decision
touches and draw the same identifiers, but whose clocks may differ (`Alike`): what a callback
does to the approvals, the tasks and the events is what the command of the core does, up to the
times that are written.
-/

namespace ArgentTeam

open Prog Store

namespace Approvals

/-! ### The helpers, written twice -/

theorem require_bindable {x : String} {e : Error} :
    (require ((Json.text x).bindable) e : Cmd Unit) = pure () := by
  funext w
  rw [require, Json.bindable_text]
  rfl

theorem emitEvent_eq {type : String} {taskId : Uuid} {state : Option String}
    {payload : List (String × Json)} :
    emitEvent type taskId state payload =
      Core.emit type (.text taskId.text) none state (.dict payload) := by
  simp only [emitEvent, Core.emit, require_bindable, pure_bind]

theorem applyTransitionOn_eq {task : Task} {toState : TaskState} {newResume : Option TaskState} :
    applyTransitionOn task toState newResume = Core.applyTransition task toState newResume := by
  simp only [applyTransitionOn, Core.applyTransition, Core.emitTransition, emitEvent_eq]

theorem expireAndReleaseOn_eq {approvalId : Uuid} :
    expireAndReleaseOn approvalId = Core.expireAndRelease approvalId := by
  simp only [expireAndReleaseOn, Core.expireAndRelease, Core.blockTask,
    applyTransitionOn_eq]
  rfl

/-! ### Worlds that differ in their clocks -/

/-- An approval, but for the times it carries. -/
def timeless (ap : OwnerApproval) : OwnerApproval :=
  { ap with decidedAt := ap.decidedAt.map fun _ => 0, approvedAt := ap.approvedAt.map fun _ => 0,
            closedAt := ap.closedAt.map fun _ => 0 }

/-- Two databases agree on the tasks, the events, and but for their times on the approvals. -/
structure SameGate (db db' : Db) : Prop where
  tasks : db.core.tasks = db'.core.tasks
  events : db.log.events = db'.log.events
  approvals : db.core.ownerApprovals.rows.map timeless = db'.core.ownerApprovals.rows.map timeless

/-- Two worlds agree on what a decision touches, and draw the same identifiers. -/
structure Alike (w w' : World) : Prop where
  gate : SameGate w.db w'.db
  uuids : w.uuids = w'.uuids
  draws : w.draws = w'.draws

/-- The commands keep the worlds alike. -/
abbrev Couples (m n : Cmd Unit) : Prop := Coupled Alike m n fun _ _ => Alike

theorem coupled_nowIso : Coupled Alike nowIso nowIso fun _ _ => Alike := by
  intro w w' h t w₁ hread
  obtain ⟨rfl, rfl⟩ := returns_nowIso.mp hread
  exact ⟨_, _, returns_nowIso.mpr ⟨rfl, rfl⟩, ⟨h.gate.tasks, h.gate.events, h.gate.approvals⟩,
    h.uuids, h.draws⟩

theorem coupled_uuid4 : Coupled Alike uuid4 uuid4 fun a b w w' => a = b ∧ Alike w w' := by
  intro w w' h id w₁ hdraw
  obtain ⟨rfl, rfl⟩ := returns_uuid4.mp hdraw
  refine ⟨_, _, returns_uuid4.mpr ⟨rfl, rfl⟩, ?_, ⟨h.gate.tasks, h.gate.events, h.gate.approvals⟩,
    h.uuids, ?_⟩
  · rw [h.uuids, h.draws]
  · exact congrArg (· + 1) h.draws

theorem alike_insertOrIgnore {x : Event} {w₁ w₂ : World} {w w' : World} (h : Alike w w')
    (hw : (Tables.events.insertOrIgnore x : Cmd Unit).Returns w () w₁)
    (hw' : (Tables.events.insertOrIgnore x : Cmd Unit).Returns w' () w₂) : Alike w₁ w₂ := by
  rw [Relvar.returns_insertOrIgnore] at hw hw'
  subst hw hw'
  refine ⟨⟨h.gate.tasks, ?_, h.gate.approvals⟩, h.uuids, h.draws⟩
  exact congrArg (fun t : Table Event Event.clash => (t.insert? x).getD t) h.gate.events

/-- An event is emitted in both. -/
theorem couples_emit {type : String} {taskId payload : Json} {role state : Option String} :
    Couples (Core.emit type taskId role state payload)
      (Core.emit type taskId role state payload) := by
  refine coupled_uuid4.bind fun u u' => ?_
  rintro w w' ⟨rfl, h⟩
  revert w w'
  refine coupled_nowIso.bind fun _ _ => ?_
  refine (coupled_require (Q := fun _ _ => Alike) id fun w w' h _ => h).bind fun _ _ => ?_
  refine (coupled_require (Q := fun _ _ => Alike) id fun w w' h _ => h).bind fun _ _ => ?_
  intro w w' h _ w₁ hw
  exact ⟨(), _, Relvar.returns_insertOrIgnore.mpr rfl,
    alike_insertOrIgnore h hw (Relvar.returns_insertOrIgnore.mpr rfl)⟩

/-- A task changes its state in both. -/
theorem couples_applyTransition {task : Task} {dst : TaskState} {newResume : Option TaskState} :
    Couples (Core.applyTransition task dst newResume)
      (Core.applyTransition task dst newResume) := by
  refine coupled_nowIso.bind fun _ _ => ?_
  refine Coupled.bind (Q := fun _ _ => Alike) ?_ fun _ _ => ?_
  · intro w w' h n w₁ hw
    obtain ⟨t, ht, hn, rfl⟩ := Relvar.returns_update.mp hw
    refine ⟨n, _, Relvar.returns_update.mpr ⟨t, ?_, ?_, rfl⟩,
      ⟨rfl, h.gate.events, h.gate.approvals⟩, h.uuids, h.draws⟩
    · exact (congrArg (fun t : Table Task Task.clash => t.update? _ _) h.gate.tasks).symm.trans ht
    · exact (congrArg (fun t : Table Task Task.clash => t.rows.countP _) h.gate.tasks).symm.trans hn
  · exact couples_emit.bind fun _ _ => coupled_onlyIf (fun _ => couples_emit) fun _ _ h => h

theorem couples_moveTask (task : Task) {dst : TaskState} {resume : Option TaskState} :
    Couples
      (do
        Core.validateTransition task.state dst resume
        Core.applyTransition task dst none)
      (do
        Core.validateTransition task.state dst resume
        Core.applyTransition task dst none) :=
  (coupled_require (Q := fun _ _ => Alike) id fun _ _ h _ => h).bind fun _ _ =>
    couples_applyTransition

theorem gatedTask_congr {w w' : World} {ap : OwnerApproval} (h : Alike w w') :
    Core.gatedTask w.db ap = Core.gatedTask w'.db ap := by
  simp only [Core.gatedTask, Db.getTask, h.gate.tasks]

theorem couples_release {ap ap' : OwnerApproval} (htask : ap.taskId = ap'.taskId) :
    Couples
      (do
        let task ← read fun w => Core.gatedTask w.db ap
        whenSome task fun task =>
          caseSome (task.resumeState.filter TaskState.isValidResumeTarget) (Core.resumeTask task)
            (Core.blockTask task))
      (do
        let task ← read fun w => Core.gatedTask w.db ap'
        whenSome task fun task =>
          caseSome (task.resumeState.filter TaskState.isValidResumeTarget) (Core.resumeTask task)
            (Core.blockTask task)) := by
  refine Coupled.bind (Q := fun a b w w' => a = b ∧ Alike w w') (coupled_read fun w w' h => ?_)
    fun task task' => ?_
  · refine ⟨?_, h⟩
    rw [gatedTask_congr h, Core.gatedTask, Core.gatedTask, htask]
  · rintro w w' ⟨rfl, h⟩
    revert w w'
    refine coupled_whenSome (fun t _ => ?_) fun _ _ h => h
    exact coupled_caseSome (fun _ _ => couples_moveTask t) (couples_moveTask t)

theorem getApproval_congr {w w' : World} {id : String} (h : Alike w w') :
    (w.db.getApproval id).map timeless = (w'.db.getApproval id).map timeless := by
  have hfind : ∀ db : Db, (db.getApproval id).map timeless =
      (db.core.ownerApprovals.rows.map timeless).find? fun a => a.id.text = id := by
    intro db
    rw [List.find?_map]
    rfl
  rw [hfind, hfind, h.gate.approvals]

/-! ### Marking one approval -/

section Mark

variable {w w' w₁ : World} {ap : OwnerApproval} {n : ℕ}

/-- Two updates of one approval, by conditions that it meets, that differ in the times they
write: from the same approvals, where one succeeds so does the other, and finds one row. -/
theorem alike_update (p p' : OwnerApproval → Bool) (f f' : OwnerApproval → OwnerApproval)
    (h : Alike w w')
    (hsame : w.db.core.ownerApprovals = w'.db.core.ownerApprovals)
    (hap : ap ∈ w.db.core.ownerApprovals.rows) (hp : p ap) (hp' : p' ap)
    (hf : timeless (f ap) = timeless (f' ap))
    (hw : (Tables.ownerApprovals.update integrityError (fun a => a.id = ap.id && p a) f :
      Cmd ℕ).Returns w n w₁) :
    ∃ w₁', (Tables.ownerApprovals.update integrityError (fun a => a.id = ap.id && p' a) f' :
      Cmd ℕ).Returns w' 1 w₁' ∧ Alike w₁ w₁' := by
  obtain ⟨t, ht, -, rfl⟩ := Relvar.returns_update.mp hw
  have hap' : ap ∈ w'.db.core.ownerApprovals.rows := hsame ▸ hap
  have hrows : t.rows.map timeless = (w'.db.core.ownerApprovals.rows.map
      (Table.patch (fun a => a.id = ap.id && p' a) f')).map timeless := by
    rw [(Table.update?_eq_some.mp ht).2, ← hsame, List.map_map, List.map_map]
    refine List.map_congr_left fun a ha => ?_
    by_cases hid : a.id = ap.id
    · obtain rfl := OwnerApproval.eq_of_id ha hap hid
      simpa [Table.patch, hp, hp'] using hf
    · simp [Table.patch, hid]
  have hpairs : (t.rows.map timeless).Pairwise fun a b => a.clash b = false :=
    List.pairwise_map.mpr t.unique
  rw [hrows, List.pairwise_map] at hpairs
  have ht' : w'.db.core.ownerApprovals.update? (fun a => a.id = ap.id && p' a) f' =
    some ⟨_, hpairs⟩ := Table.update?_eq_some.mpr ⟨hpairs, rfl⟩
  refine ⟨_, Relvar.returns_update.mpr ⟨_, ht', ?_, rfl⟩, ⟨h.gate.tasks, h.gate.events, hrows⟩,
    h.uuids, h.draws⟩
  refine Table.countP_eq_one (fun a => by simp [OwnerApproval.clash]) hap' (by simp [hp'])
    fun a ha hsel => ?_
  simp only [Bool.and_eq_true, decide_eq_true_eq] at hsel
  exact OwnerApproval.eq_of_id ha hap' hsel.1

end Mark

/-! ### Deciding in both -/

/-- Where the core is called from: the same database, the same identifiers to be drawn, and any
clock. -/
structure SameState (w w' : World) : Prop where
  db : w'.db = w.db
  uuids : w'.uuids = w.uuids
  draws : w'.draws = w.draws

theorem SameState.alike {w w' : World} (h : SameState w w') : Alike w w' :=
  ⟨⟨by rw [h.db], by rw [h.db], by rw [h.db]⟩, h.uuids.symm, h.draws.symm⟩

/-- The binding of an approval is intact: it is the one of its task, action and scope. -/
def Intact (ap : OwnerApproval) : Prop := ap.bindingHash = ⟨ap.taskId.text, ap.action, ap.scope⟩

/-- The command of the core that takes a decision of the owner. -/
def Decision.command : Decision → (approvalId source taskId action scope : String) →
    (key : Option String) → Cmd (Option OwnerApproval)
  | approve => Core.approve
  | reject => Core.reject

def Decision.work : Decision → OwnerApproval → String → String → String →
    Cmd (Option OwnerApproval)
  | approve => Core.approveWork
  | reject => Core.rejectWork

section Deciding

variable {w w' w₁ : World} {ap : OwnerApproval} {d : Decision}

/-- The core approves where a callback does. -/
theorem approveWork_of_bridge (hsame : SameState w w')
    (hap : ap ∈ w.db.core.ownerApprovals.rows) (hintact : Intact ap)
    (hpending : ap.status = .pending) (hlive : w'.clock w'.reads < ap.expiresAt)
    (h : (approveDecisionOn ap).Returns w () w₁) :
    ∃ r w₁', (Core.approveWork ap ap.taskId.text ap.action ap.scope).Returns w' r w₁' ∧
      Alike w₁ w₁' := by
  simp only [approveDecisionOn, returns_bind, returns_nowIso, returns_require, emitEvent_eq] at h
  obtain ⟨now, _, ⟨hnow, rfl⟩, rc, w₂, hmark, -, _, ⟨hrc, rfl⟩, hemit⟩ := h
  have hlive' : now < ap.expiresAt := by
    obtain ⟨-, -, hcount, -⟩ := Relvar.returns_update.mp hmark
    rw [← hcount] at hrc
    have hboth := Core.condition_of_count
      (p := fun a => a.status = .pending && now < a.expiresAt) hap hrc
    simp only [Bool.and_eq_true, decide_eq_true_eq] at hboth
    exact hboth.2
  have halike : Alike { w with reads := w.reads + 1 } { w' with reads := w'.reads + 1 } :=
    ⟨hsame.alike.gate, hsame.uuids.symm, hsame.draws.symm⟩
  obtain ⟨w₂', hmark', halike⟩ := alike_update
    (fun a => a.status = .pending && now < a.expiresAt)
    (fun a => a.status = .pending && w'.clock w'.reads < a.expiresAt)
    (OwnerApproval.approve now) (OwnerApproval.approve (w'.clock w'.reads)) halike
    (by rw [hsame.db]) hap
    (by simp [hpending, hlive']) (by simp [hpending, hlive]) rfl hmark
  obtain ⟨_, w₃', hemit', halike⟩ := couples_emit _ _ halike _ _ hemit
  refine ⟨w₃'.db.getApproval ap.id.text, w₃', ?_, halike⟩
  simp only [Core.approveWork, returns_bind, Core.returns_checkFullBinding, returns_nowIso,
    returns_require, returns_read]
  exact ⟨(), _, ⟨⟨trivial, trivial, trivial⟩, hintact, rfl⟩, _, _, ⟨rfl, rfl⟩, (), _,
    ⟨hpending, rfl⟩, (), _, ⟨hlive, rfl⟩, 1, w₂', hmark', (), _, ⟨Nat.one_ne_zero, rfl⟩, (), w₃',
    hemit', rfl, rfl⟩

/-- The core rejects where a callback does. -/
theorem rejectWork_of_bridge (hsame : SameState w w')
    (hap : ap ∈ w.db.core.ownerApprovals.rows) (hintact : Intact ap)
    (hpending : ap.status = .pending) (hlive : w'.clock w'.reads < ap.expiresAt)
    (h : (rejectDecisionOn ap).Returns w () w₁) :
    ∃ r w₁', (Core.rejectWork ap ap.taskId.text ap.action ap.scope).Returns w' r w₁' ∧
      Alike w₁ w₁' := by
  simp only [rejectDecisionOn, returns_bind, returns_nowIso, returns_require, returns_read,
    emitEvent_eq, applyTransitionOn_eq] at h
  obtain ⟨now, _, ⟨hnow, rfl⟩, rc, w₂, hmark, -, _, ⟨hrc, rfl⟩, task, _, ⟨htask, rfl⟩, _, w₃,
    hblock, hemit⟩ := h
  have halike : Alike { w with reads := w.reads + 1 } { w' with reads := w'.reads + 1 } :=
    ⟨hsame.alike.gate, hsame.uuids.symm, hsame.draws.symm⟩
  obtain ⟨w₂', hmark', halike⟩ := alike_update (fun a => a.status = .pending)
    (fun a => a.status = .pending) (OwnerApproval.reject now)
    (OwnerApproval.reject (w'.clock w'.reads)) halike (by rw [hsame.db]) hap
    (by simp [hpending]) (by simp [hpending]) rfl hmark
  have htask' : Core.gatedTask w₂'.db ap = task := (gatedTask_congr halike).symm.trans htask
  obtain ⟨_, w₃', hblock', halike⟩ := coupled_whenSome
    (fun t _ => couples_moveTask t) (fun _ _ h => h) _ _ halike _ _ hblock
  obtain ⟨_, w₄', hemit', halike⟩ := couples_emit _ _ halike _ _ hemit
  refine ⟨w₄'.db.getApproval ap.id.text, w₄', ?_, halike⟩
  simp only [Core.rejectWork, returns_bind, Core.returns_checkFullBinding, returns_nowIso,
    returns_require, returns_read]
  exact ⟨(), _, ⟨⟨trivial, trivial, trivial⟩, hintact, rfl⟩, _, _, ⟨rfl, rfl⟩, (), _, ⟨hlive, rfl⟩,
    1, w₂', hmark', (), _, ⟨Nat.one_ne_zero, rfl⟩, task, _, ⟨htask', rfl⟩, (), w₃', hblock',
    (), w₄', hemit', rfl, rfl⟩

/-- The core releases an expired approval where a callback does. -/
theorem expireAndRelease_of_bridge (halike : Alike w w')
    (hsame : w.db.core.ownerApprovals = w'.db.core.ownerApprovals)
    (hap : ap ∈ w.db.core.ownerApprovals.rows) (hlive : ap.status.live)
    (hexpired : ap.expiresAt ≤ w.clock w.reads) (hexpired' : ap.expiresAt ≤ w'.clock w'.reads)
    (h : (expireAndReleaseOn ap.id).Returns w () w₁) :
    ∃ w₁', (Core.expireAndRelease ap.id).Returns w' () w₁' ∧ Alike w₁ w₁' := by
  simp only [expireAndReleaseOn_eq, Core.expireAndRelease, returns_bind, returns_nowIso,
    returns_read] at h
  obtain ⟨now, _, ⟨rfl, rfl⟩, n, w₂, hmark, a, _, ⟨ha, rfl⟩, hrelease⟩ := h
  have hread : Alike { w with reads := w.reads + 1 } { w' with reads := w'.reads + 1 } :=
    ⟨halike.gate, halike.uuids, halike.draws⟩
  obtain ⟨w₂', hmark', halike⟩ := alike_update
    (fun a => a.status.live && a.expiresAt ≤ w.clock w.reads)
    (fun a => a.status.live && a.expiresAt ≤ w'.clock w'.reads)
    OwnerApproval.expire OwnerApproval.expire hread hsame hap
    (by simp [hlive, hexpired]) (by simp [hlive, hexpired']) rfl hmark
  have hfound := (congrArg (Option.map timeless) ha).symm.trans (getApproval_congr halike)
  have hsome : a.isSome = (w₂'.db.getApproval ap.id.text).isSome := by
    simpa using congrArg Option.isSome hfound
  obtain ⟨_, w₃', hrelease', halike⟩ := coupled_whenSome_of_isSome (P := Alike)
    (Q := fun _ _ => Alike) hsome (fun b b' hb hb' => by
      simp only [hb, hb', Option.map_some] at hfound
      have htimeless : timeless b = timeless b' := Option.some.inj hfound
      have htask : b.taskId = b'.taskId := (congrArg OwnerApproval.taskId htimeless :)
      exact couples_release htask)
    (fun _ _ h => h) _ _ halike _ _ hrelease
  refine ⟨w₃', ?_, halike⟩
  simp only [Core.expireAndRelease, returns_bind, returns_nowIso, returns_read]
  exact ⟨_, _, ⟨rfl, rfl⟩, 1, w₂', hmark', _, _, ⟨rfl, rfl⟩, hrelease'⟩

theorem work_of_bridge (hsame : SameState w w') (hap : ap ∈ w.db.core.ownerApprovals.rows)
    (hintact : Intact ap) (hpending : ap.status = .pending)
    (hlive : w'.clock w'.reads < ap.expiresAt) (h : (d.body ap).Returns w () w₁) :
    ∃ r w₁', (d.work ap ap.taskId.text ap.action ap.scope).Returns w' r w₁' ∧ Alike w₁ w₁' := by
  cases d with
  | approve => exact approveWork_of_bridge hsame hap hintact hpending hlive h
  | reject => exact rejectWork_of_bridge hsame hap hintact hpending hlive h

theorem command_eq : d.command = Core.gateCommand (match d with
    | .approve => "approve"
    | .reject => "reject") d.work := by
  cases d <;> rfl

/-- **Where a callback decides, the core decides the same.** -/
theorem command_of_bridge (hsame : SameState w w') (hap : ap ∈ w.db.core.ownerApprovals.rows)
    (hintact : Intact ap) (hpending : ap.status = .pending)
    (hlive : w'.clock w'.reads < ap.expiresAt) (h : (d.body ap).Returns w () w₁) :
    ∃ r w₁', (d.command ap.id.text ownerSource ap.taskId.text ap.action ap.scope
      none).Returns w' r w₁' ∧ Alike w₁ w₁' := by
  obtain ⟨r, w₁', hwork, halike⟩ := work_of_bridge hsame hap hintact hpending hlive h
  refine ⟨r, w₁', ?_, halike⟩
  have hfound : w'.db.getApproval ap.id.text = some ap :=
    Db.getApproval_eq_some.mpr ⟨hsame.db ▸ hap, rfl⟩
  rw [command_eq, Core.gateCommand, returns_bind]
  refine ⟨(), w', Core.returns_requireOwner.mpr ⟨rfl, rfl⟩, returns_rescue.mpr (.inl ?_)⟩
  refine Core.returns_idempotent.mpr (.inr ⟨rfl, ap.id.text, w₁', ?_, rfl⟩)
  simp only [returns_bind, Core.returns_theApproval, returns_pure]
  exact ⟨ap, w', ⟨hfound, rfl⟩, r, w₁', hwork, rfl, rfl⟩

/-- **Where a callback releases an expired approval, so does the core**, which raises. -/
theorem approve_of_bridge (hsame : SameState w w') (hap : ap ∈ w.db.core.ownerApprovals.rows)
    (hintact : Intact ap) (hpending : ap.status = .pending)
    (hexpired : ap.expiresAt ≤ w.clock w.reads) (hexpired' : ap.expiresAt ≤ w'.clock w'.reads)
    (h : (expireAndReleaseOn ap.id).Returns w () w₁) :
    ∃ w₁', (Core.approve ap.id.text ownerSource ap.taskId.text ap.action ap.scope none).Raises w'
      (.error .approvalError "approval %r expired" [ap.id.text]) w₁' ∧ Alike w₁ w₁' := by
  have hread : Alike w { w' with reads := w'.reads + 1 } :=
    ⟨hsame.alike.gate, hsame.uuids.symm, hsame.draws.symm⟩
  obtain ⟨w₁', hrelease, halike⟩ := expireAndRelease_of_bridge hread (by rw [hsame.db]) hap
    (by rw [hpending]; rfl) hexpired
    (hexpired'.trans (w'.clock.monotone (Nat.le_succ w'.reads))) h
  refine ⟨w₁', ?_, halike⟩
  have hfound : w'.db.getApproval ap.id.text = some ap :=
    Db.getApproval_eq_some.mpr ⟨hsame.db ▸ hap, rfl⟩
  have hwork : (Core.approveWork ap ap.taskId.text ap.action ap.scope).Raises w'
      (.approvalExpired ap.id) { w' with reads := w'.reads + 1 } := by
    simp only [Core.approveWork, raises_bind, Core.returns_checkFullBinding, returns_nowIso,
      returns_require, raises_require]
    exact .inr ⟨(), w', ⟨⟨trivial, trivial, trivial⟩, hintact, rfl⟩, .inr ⟨_, _, ⟨rfl, rfl⟩, .inr
      ⟨(), _, ⟨hpending, rfl⟩, .inl ⟨not_lt.mpr hexpired', trivial, rfl⟩⟩⟩⟩
  rw [Core.approve, Core.gateCommand, raises_bind]
  refine .inr ⟨(), w', Core.returns_requireOwner.mpr ⟨rfl, rfl⟩, raises_rescue.mpr
    ⟨.approvalExpired ap.id, { w' with reads := w'.reads + 1 }, ?_, ?_⟩⟩
  · refine raises_transaction.mpr ⟨{ w' with reads := w'.reads + 1 }, ?_, rfl⟩
    simp only [caseSome, raises_bind, Core.returns_theApproval]
    exact .inl (.inr ⟨ap, w', ⟨hfound, rfl⟩, .inl hwork⟩)
  · exact raises_bind.mpr
      (.inr ⟨(), w₁', returns_transaction.mpr hrelease, raises_raise.mpr ⟨rfl, rfl⟩⟩)

end Deciding

/-! ### The callback -/

/-- A callback changes the approvals, the tasks and the events as the core does. -/
structure Refines (p : Processor) (c : Callback) (s : Inbound) (o : CallbackOutcome)
    (s' : Inbound) : Prop where
  /-- A decision is one that the core takes, called on the same state at a time when the approval
  has not expired. -/
  decision : ∀ d : Decision, o = d.outcome → ∃ token ch ap,
    parseActionChallenge c = some (d.action, token) ∧
    Presents s.toLedger (p.tokenHash token) s.time ch ap ∧ s.time < ap.expiresAt ∧
    ∀ w, SameState s.world w → w.clock w.reads < ap.expiresAt → ∃ r w',
      (d.command ap.id.text ownerSource ap.taskId.text ap.action ap.scope none).Returns w r w' ∧
      SameGate s'.world.db w'.db
  /-- Where the log says that an expired approval was released, `approve`, called on the same
  state at a time when it has expired, releases it too, and raises. -/
  release : ∀ row ∈ s'.updateLog.rows, row ∉ s.updateLog.rows → row.outcome = .expiredApproval →
    o = .expired ∧ ∃ token ch ap, Presents s.toLedger (p.tokenHash token) s.time ch ap ∧
    ap.expiresAt ≤ s.time ∧ ∀ w, SameState s.world w → ap.expiresAt ≤ w.clock w.reads → ∃ e w',
      (Core.approve ap.id.text ownerSource ap.taskId.text ap.action ap.scope none).Raises w e w' ∧
      SameGate s'.world.db w'.db
  /-- Where the core, called on the same state at the same time, would raise, nothing is
  decided. -/
  refusal : ∀ d token ch ap w e w', parseActionChallenge c = some (d.action, token) →
    s.getChallengeByTokenHash (p.tokenHash token) = some ch →
    s.world.db.getApproval ch.approvalId = some ap → SameState s.world w →
    w.clock w.reads = s.time →
    (Decision.command d ap.id.text ownerSource ap.taskId.text ap.action ap.scope none).Raises w e
      w' → o.isDecision = false

section Refines

variable {p : Processor} {c : Callback} {s s' : Inbound} {o : CallbackOutcome}
  {fails : Option Failure} {ch : Challenge}

theorem Decision.isDecision_outcome (d : Decision) : d.outcome.isDecision := by
  cases d <;> rfl

theorem Decision.action_injective {d d' : Decision} (h : d.action = d'.action) : d = d' := by
  cases d <;> cases d' <;> first | rfl | cases h

theorem Decision.outcome_injective {d d' : Decision} (h : d.outcome = d'.outcome) : d = d' := by
  cases d <;> cases d' <;> first | rfl | cases h

theorem Presents.intact {l : Ledger} {token : String} {now : Time}
    {ap : OwnerApproval} (h : Presents l token now ch ap) :
    ap ∈ l.world.db.core.ownerApprovals.rows ∧ Intact ap := by
  refine ⟨(Db.getApproval_eq_some.mp h.approval).1, ?_⟩
  have hunchanged := h.unchanged
  unfold Approvals.unchanged at hunchanged
  simp only [Bool.and_eq_true, decide_eq_true_eq] at hunchanged
  exact hunchanged.1.1.1

theorem sameGate_of_record {w w' : World} {r : CommandIdempotency}
    (h : (setCommandIdempotency r).Returns w () w') {db : Db} (hgate : SameGate w.db db) :
    SameGate w'.db db := by
  rw [setCommandIdempotency, Relvar.returns_insertOrIgnore] at h
  subst h
  exact ⟨hgate.tasks, hgate.events, hgate.approvals⟩

theorem refines_of_kept (ho : o.isDecision = false)
    (hrow : ∀ row ∈ s'.updateLog.rows, row ∉ s.updateLog.rows → row.outcome.isRelease = false) :
    Refines p c s o s' where
  decision d hd := by
    rw [hd, d.isDecision_outcome] at ho
    cases ho
  release row hrow' hnew hrelease := by
    have := hrow row hrow' hnew
    rw [hrelease] at this
    cases this
  refusal _ _ _ _ _ _ _ _ _ _ _ _ _ := ho

theorem Presents.of_read {token : String} {now : Time} {ap : OwnerApproval}
    (h : Presents s.read token now ch ap) : Presents s.toLedger token now ch ap :=
  ⟨h.found, h.issued, h.live, h.approval, h.unchanged, h.pending⟩

/-- A decision is one that the core takes. -/
theorem refines_of_decides {d : Decision} {token : PyStr} {updateId : ℤ}
    {ap : OwnerApproval} {w₁ : World} {row : UpdateLog}
    (hparsed : parseActionChallenge c = some (d.action, token))
    (hp : Presents s.read (p.tokenHash token) s.time ch ap) (hlive : s.time < ap.expiresAt)
    (ho : o = d.outcome) (hbody : (d.body ap).Returns s.read.world () w₁)
    (hrecord : (setCommandIdempotency (d.record ch ap updateId)).Returns w₁ () s'.world)
    (hlog : Logs s s' row) (hrow : row.outcome.isRelease = false) : Refines p c s o s' := by
  obtain ⟨hap, hintact⟩ := hp.intact
  have hcore : ∀ w, SameState s.world w → w.clock w.reads < ap.expiresAt → ∃ r w',
      (d.command ap.id.text ownerSource ap.taskId.text ap.action ap.scope none).Returns w r w' ∧
      SameGate s'.world.db w'.db := by
    intro w hsame hclock
    obtain ⟨r, w', hcommand, halike⟩ := command_of_bridge (w := s.read.world)
      ⟨hsame.db, hsame.uuids, hsame.draws⟩ hap hintact hp.pending hclock hbody
    exact ⟨r, w', hcommand, sameGate_of_record hrecord halike.gate⟩
  refine ⟨?_, ?_, ?_⟩
  · intro d' hd'
    obtain rfl : d = d' := Decision.outcome_injective (ho.symm.trans hd')
    exact ⟨token, ch, ap, hparsed, hp.of_read, hlive, hcore⟩
  · intro row' hrow' hnew hrelease
    rw [hlog.rows] at hrow'
    obtain hold | hsame := List.mem_append.mp hrow'
    · exact absurd hold hnew
    · rw [List.mem_singleton.mp hsame] at hrelease
      rw [hrelease] at hrow
      cases hrow
  · intro d' token' ch' ap' w e w' hparsed' hfound happroval hsame hclock hraise
    obtain ⟨haction, rfl⟩ := Prod.mk.inj (Option.mem_unique hparsed hparsed')
    obtain rfl := Decision.action_injective haction
    obtain rfl := Option.mem_unique hp.found hfound
    obtain rfl := Option.mem_unique hp.approval happroval
    obtain ⟨r, w₂, hcommand, -⟩ := hcore w hsame (hclock ▸ hlive)
    cases (show _ = _ from hcommand).symm.trans hraise

/-- **What a callback does, the core does.** -/
theorem refines_of_handled (h : Handled p c s o s') : Refines p c s o s' := by
  cases h with
  | kept _ _ ho hrows =>
    refine refines_of_kept ho fun row hrow hnew => ?_
    rw [(eq_of_rows hrows).2.2.1] at hrow
    exact absurd hrow hnew
  | logged _ _ row ho hfailure hdb hchallenges hlog hrow hid hcursor =>
    refine refines_of_kept ho fun row' hrow' hnew => ?_
    rw [hlog.rows] at hrow'
    obtain hold | hsame := List.mem_append.mp hrow'
    · exact absurd hold hnew
    · exact List.mem_singleton.mp hsame ▸ hrow
  | judged d token updateId v _ row howner hid hparsed hjudged hlog hrow hcursor =>
    have hnew : ∀ row' ∈ s'.updateLog.rows, row' ∉ s.updateLog.rows → row' = row := by
      intro row' hrow' hnew
      rw [hlog.rows] at hrow'
      exact List.mem_singleton.mp ((List.mem_append.mp hrow').resolve_left hnew)
    generalize hl : s'.toLedger = l' at hjudged
    cases hjudged with
    | idle _ hdecision hfailure hlogged =>
      exact refines_of_kept hdecision fun row' hrow' hold => by
        rw [hnew row' hrow' hold, hrow, hlogged]
    | closes _ ch status n _ hdecision hfailure hlogged hstatus hclose =>
      exact refines_of_kept hdecision fun row' hrow' hold => by
        rw [hnew row' hrow' hold, hrow, hlogged]
    | releases ch ap w hp hexpired hrelease =>
      obtain ⟨hap, hintact⟩ := hp.intact
      refine ⟨fun d' hd' => ?_, fun _ _ _ _ => ⟨rfl, token, ch, ap, hp.of_read, hexpired,
        fun w' hsame hclock => ?_⟩, fun _ _ _ _ _ _ _ _ _ _ _ _ _ => rfl⟩
      · cases d' <;> cases hd'
      · obtain ⟨w₁', hraise, halike⟩ := approve_of_bridge (w := s.read.world)
          ⟨hsame.db, hsame.uuids, hsame.draws⟩ hap hintact hp.pending
          (hexpired.trans (s.world.clock.monotone (Nat.le_succ _))) hclock hrelease
        have hworld : s'.world = w := congrArg Ledger.world hl
        exact ⟨_, w₁', hraise, hworld ▸ halike.gate⟩
    | decides _ ch ap l₁ w₁ w₂ hp hlive hv hlogged hconsume hbody hrecord =>
      have hworld : s'.world = w₂ := congrArg Ledger.world hl
      exact refines_of_decides hparsed hp hlive hv hbody (hworld ▸ hrecord) hlog
        (hrow ▸ hlogged)

end Refines

/-- **The callbacks refine the core**: from any state, with any answer from the outside, a callback
comes to an outcome, and what it has done to the approvals, the tasks and the events the core
does. -/
theorem callback_refines_core (p : Processor) (fails : Option Failure) (c : Callback)
    (s : Inbound) : ∃ o s', (processCallback p fails c).Returns s o s' ∧ Refines p c s o s' := by
  obtain ⟨o, s', h⟩ := exists_returns_processCallback p fails c s
  exact ⟨o, s', h, refines_of_handled (handled_processCallback h)⟩

end Approvals

end ArgentTeam
