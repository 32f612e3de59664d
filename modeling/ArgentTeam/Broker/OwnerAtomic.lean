import ArgentTeam.Broker.Audit
import Mathlib.Data.List.Induction

/-!
# An approval and what it is spent on

`authorize_owner` consumes the approval, moves the request and appends its row in three
transactions. A call that has come to its end has done all three or none of them as long as no
such call stops for good after the approval is consumed and before the row is appended, and the
request is still PENDING, as it was read, when the approval has been consumed
(`owner_authorization_atomic_iff`); otherwise the approval is spent, and the request is not
authorized, or nothing says so.
-/

namespace ArgentTeam

namespace Broker

namespace Calls

/-! ### What a call has done -/

def Event.consumes (approvalId : String) : Event → Bool
  | .consumed _ id .. => id = approvalId
  | _ => false

/-- The request goes from PENDING to AUTHORIZED. -/
def Move.authorizes (requestId : String) (m : Move) : Bool :=
  m.requestId = requestId && m.src = .pending && m.dst = .authorized

def AuditRow.authorizes (requestId : String) (row : AuditRow) : Bool :=
  row.requestId = requestId && row.event = .authorized

/-- How often a call has done each of the three. -/
structure Tally where
  consumed : ℕ
  authorized : ℕ
  appended : ℕ
  deriving DecidableEq

/-- What a call has done with an approval and a request. -/
def Trace.tally (t : Trace) (approvalId requestId : String) : Tally where
  consumed := t.notes.countP (Event.consumes approvalId)
  authorized := t.moves.countP (Move.authorizes requestId)
  appended := t.rows.countP (AuditRow.authorizes requestId)

/-- An `authorize_owner` call that has come to its end has done all three once, or none. -/
def Trace.AllOrNone (t : Trace) : Prop :=
  ∀ approvalId requestId, t.call = some ⟨.authorizeOwner approvalId, requestId, .returned⟩ →
    t.due = none → t.tally approvalId requestId = ⟨1, 1, 1⟩ ∨
      t.tally approvalId requestId = ⟨0, 0, 0⟩

/-- Each `authorize_owner` call that has come to its end has done all three once, or none. -/
def AllOrNone (s : Audited) : Prop := ∀ c, (s.trace c).AllOrNone

/-- The approval of a call is consumed, and the request not yet authorized. -/
def Point.between : Point → Bool
  | .authorizing .. => true
  | _ => false

/-- The request is PENDING, as it was when the call read it. -/
def Point.StillPending (db : BrokerDb) (requestId : String) : Point → Prop
  | .authorizing row _ =>
    ∃ r ∈ db.requests requestId, r.state = .pending ∧ r.revision = row.revision
  | _ => True

/-- No `authorize_owner` call is broken off in this step after it has consumed the approval: none
stops for good before its row is appended, and none finds its request moved. -/
def Unbroken (s : Audited) : Act → Prop
  | .next c _ _ => s.due c = none → ∀ call ∈ s.calls c, call.op.approvalId?.isSome = true →
    call.point.StillPending s.toBrokerDb call.requestId
  | .crash c => ∀ call ∈ s.calls c, call.op.approvalId?.isSome = true →
    (s.due c = none → call.point.between = false) ∧ ∀ row ∈ s.due c, row.event ≠ .authorized
  | _ => True

/-! ### How far a call has come -/

/-- What an `authorize_owner` call has done that has not come to its end. -/
def Trace.Stage (t : Trace) (approvalId requestId : String) (p : Point) : Prop :=
  match t.due with
  | some row => p = .returned ∧ row.requestId = requestId ∧
      t.tally approvalId requestId = if row.event = .authorized then ⟨1, 1, 0⟩ else ⟨0, 0, 0⟩
  | none =>
    p ≠ .returned →
      t.tally approvalId requestId = if p.between = true then ⟨1, 0, 0⟩ else ⟨0, 0, 0⟩

/-- How far the call has come, if it has begun. -/
structure Trace.Staged (t : Trace) : Prop where
  fresh : t.call = none → t.due = none ∧ t.rows = [] ∧ t.moves = [] ∧ t.notes = []
  /-- An `authorize_owner` call. -/
  stage : ∀ approvalId requestId p, t.call = some ⟨.authorizeOwner approvalId, requestId, p⟩ →
    t.Stage approvalId requestId p

variable {d : Driver} {db : BrokerDb} {s : Audited} {c : ℕ} {call : Call} {answer : Answer}
  {seen : Observed} {p : Point} {a : Act} {t : Trace} {approvalId requestId : String}
  {row : RequestRow}

theorem Trace.stage_none (hdue : t.due = none) : t.Stage approvalId requestId p ↔
    (p ≠ .returned →
      t.tally approvalId requestId = if p.between = true then ⟨1, 0, 0⟩ else ⟨0, 0, 0⟩) := by
  rw [Trace.Stage, hdue]

theorem Trace.stage_some {row : AuditRow} (hdue : t.due = some row) :
    t.Stage approvalId requestId p ↔ p = .returned ∧ row.requestId = requestId ∧
      t.tally approvalId requestId =
        if row.event = .authorized then ⟨1, 1, 0⟩ else ⟨0, 0, 0⟩ := by
  rw [Trace.Stage, hdue]

/-! ### The steps of a call -/

/-- What a step does that neither consumes the approval nor authorizes the request. -/
structure Idle (d : Driver) (db : BrokerDb) (c : ℕ) (call : Call) (answer : Answer)
    (seen : Observed) (approvalId requestId : String) (p : Point) : Prop where
  consumed : (turn d db c call answer seen p).notes.countP (Event.consumes approvalId) = 0
  authorized : (moved db (turn d db c call answer seen p).db call.requestId).toList.countP
    (Move.authorizes requestId) = 0
  due : ∀ row, dueAfter d db call p = some row →
    row.event ≠ .authorized ∧ (turn d db c call answer seen p).point = .returned
  between : (turn d db c call answer seen p).point.between = false

/-- A step that does not come from consuming notes no consumption, and an `authorize_owner` call
comes between the two by consuming alone. -/
theorem turn_of_ne_consuming (hp : ∀ row ap job now, p ≠ .consuming row ap job now) :
    (turn d db c call answer seen p).notes.countP (Event.consumes approvalId) = 0 ∧
      (call.op = .authorizeOwner approvalId →
        (turn d db c call answer seen p).point.between = false) := by
  have hleads : Leads d db (turn d db c call answer seen p).db c call p
      (turn d db c call answer seen p).point (turn d db c call answer seen p).notes :=
    leads_turn ..
  generalize turn d db c call answer seen p = t at hleads
  obtain ⟨db', q, es⟩ := t
  cases hleads with
  | consumed row ap job now => exact absurd rfl (hp row ap job now)
  | unexpired row q hlive hq =>
    refine ⟨rfl, fun _ => ?_⟩
    rcases hq with rfl | ⟨-, rfl⟩ <;> rfl
  | policy row =>
    refine ⟨rfl, fun hop => ?_⟩
    simp only [hop]
    split <;> rfl
  | _ => exact ⟨rfl, fun _ => rfl⟩

/-- A transition to another state authorizes nothing. -/
theorem countP_authorizes {id : String} {src dst : RequestState} {revision : ℕ} {cols : Columns}
    (hdst : dst ≠ .authorized) :
    ((transitionRow db id src dst revision cols).toOption.bind (moved db · id)).toList.countP
      (Move.authorizes requestId) = 0 := by
  cases heq : transitionRow db id src dst revision cols with
  | error e => rfl
  | ok db' =>
    obtain ⟨r, -, -, hmoved⟩ := moved_of_transitionRow heq
    rw [Except.toOption, Option.bind_some, hmoved, Option.toList_some,
      List.countP_eq_zero]
    rintro m hm
    obtain rfl := List.mem_singleton.mp hm
    simp [Move.authorizes, hdst]

theorem idle_turn (hop : call.op = .authorizeOwner approvalId)
    (hp : ∀ row ap job now, p ≠ .consuming row ap job now)
    (hp' : ∀ row decision, p ≠ .authorizing row decision) :
    Idle d db c call answer seen approvalId requestId p where
  consumed := (turn_of_ne_consuming hp).1
  between := (turn_of_ne_consuming hp).2 hop
  authorized := by
    have hholder : call.op.holder? = none := by rw [hop]; rfl
    by_cases hopening : ∃ row, p = .opening row
    · obtain ⟨row, rfl⟩ := hopening
      rw [turn, hholder, Option.elim_none, moved_self]
      rfl
    · rw [moved_turn fun row hrow => hopening ⟨row, hrow⟩]
      cases p with
      | expiring | denying => exact countP_authorizes (by decide)
      | authorizing row decision => exact absurd rfl (hp' row decision)
      | settling | recording =>
        rw [attempted, hholder]
        rfl
      | _ => rfl
  due row hrow := by
    have hholder : call.op.holder? = none := by rw [hop]; rfl
    cases p with
    | expiring | denying =>
      obtain rfl := eq_of_regardless hrow
      exact ⟨by rintro ⟨⟩, rfl⟩
    | authorizing row decision => exact absurd rfl (hp' row decision)
    | settling =>
      rw [dueAfter, settledRow, hholder] at hrow
      cases hrow
    | recording row' o =>
      rw [dueAfter, attempted, hholder] at hrow
      split at hrow
      · cases hrow
      · cases hrow
        refine ⟨by rintro ⟨⟩, ?_⟩
        rw [turn, hholder]
        rfl
    | _ => cases hrow

/-- What there is of a call after a step of its own. -/
def Trace.after (t : Trace) (d : Driver) (db : BrokerDb) (c : ℕ) (call : Call) (answer : Answer)
    (seen : Observed) : Trace where
  call := some { call with point := (turn d db c call answer seen call.point).point }
  due := dueAfter d db call call.point
  rows := t.rows
  moves := t.moves ++
    (moved db (turn d db c call answer seen call.point).db call.requestId).toList
  notes := t.notes ++ (turn d db c call answer seen call.point).notes

theorem Trace.tally_after : (t.after d db c call answer seen).tally approvalId requestId =
    { consumed := (t.tally approvalId requestId).consumed +
        (turn d db c call answer seen call.point).notes.countP (Event.consumes approvalId)
      authorized := (t.tally approvalId requestId).authorized +
        (moved db (turn d db c call answer seen call.point).db call.requestId).toList.countP
          (Move.authorizes requestId)
      appended := (t.tally approvalId requestId).appended } := by
  rw [Trace.tally, Trace.after, List.countP_append, List.countP_append]
  rfl

theorem Trace.tally_append {row : AuditRow} :
    ({ t with due := none, rows := t.rows ++ [row] } : Trace).tally approvalId requestId =
      { t.tally approvalId requestId with
        appended := (t.tally approvalId requestId).appended +
          if row.authorizes requestId = true then 1 else 0 } := by
  simp [Trace.tally, List.countP_append, List.countP_singleton]

theorem Idle.tally (h : Idle d db c call answer seen approvalId requestId call.point) :
    (t.after d db c call answer seen).tally approvalId requestId =
      t.tally approvalId requestId := by
  rw [Trace.tally_after, h.consumed, h.authorized]
  rfl

/-- Where the transition to AUTHORIZED goes through. -/
theorem authorize_ok_iff {decision : PolicyDecision} :
    (∃ db', attempted d db call (.authorizing row decision) = .ok db') ↔
      (Point.authorizing row decision).StillPending db call.requestId := by
  constructor
  · rintro ⟨db', heq⟩
    obtain ⟨r, hr, hstate, hrevision, -, -⟩ := transitionRow_eq_ok heq
    exact ⟨r, hr, hstate, hrevision⟩
  · rintro ⟨r, hr, hstate, hrevision⟩
    rw [attempted, transitionRow, Option.mem_def.mp hr]
    dsimp only
    rw [if_neg (by simp [hstate, hrevision]), if_neg (by rw [hstate]; decide),
      if_neg (by simp [Columns.bindable])]
    exact ⟨_, rfl⟩

variable (d c answer seen) in
/-- The step that authorizes the request, or finds it moved. -/
theorem authorizing_turn {decision : PolicyDecision}
    (hid : call.requestId = requestId)
    (htally : t.tally approvalId requestId = ⟨1, 0, 0⟩)
    (hpoint : call.point = .authorizing row decision) :
    (turn d db c call answer seen call.point).point = .returned ∧
      ((∃ row', dueAfter d db call call.point = some row' ∧ row'.requestId = requestId ∧
          row'.event = .authorized ∧
          (t.after d db c call answer seen).tally approvalId requestId = ⟨1, 1, 0⟩ ∧
          call.point.StillPending db requestId) ∨
        (dueAfter d db call call.point = none ∧
          (t.after d db c call answer seen).tally approvalId requestId = ⟨1, 0, 0⟩ ∧
          ¬call.point.StillPending db requestId)) := by
  subst hid
  rw [Trace.tally_after, htally, hpoint, (turn_of_ne_consuming (by rintro _ _ _ _ ⟨⟩)).1,
    moved_turn (by rintro _ ⟨⟩), ← authorize_ok_iff (d := d)]
  constructor
  · rw [turn, authorizingTurn]
    split <;> rfl
  · rw [dueAfter]
    cases heq : attempted d db call (.authorizing row decision) with
    | ok db' =>
      obtain ⟨r, -, -, hmoved⟩ := moved_of_transitionRow heq
      refine .inl ⟨_, rfl, rfl, rfl, ?_, db', rfl⟩
      rw [Except.toOption, Option.bind_some, hmoved]
      simp [Move.authorizes]
    | error e =>
      refine .inr ⟨rfl, rfl, ?_⟩
      rintro ⟨db', ⟨⟩⟩

variable (d db c answer seen) in
/-- The step that consumes the approval, or cannot. -/
theorem consuming_turn {ap : ApprovalRow} {job : Option SupervisorJob}
    {now : Time} (hop : call.op = .authorizeOwner approvalId)
    (htally : t.tally approvalId requestId = ⟨0, 0, 0⟩)
    (hpoint : call.point = .consuming row ap job now) :
    dueAfter d db call call.point = none ∧
      (((turn d db c call answer seen call.point).point = .authorizing row .ownerGateRequired ∧
          (t.after d db c call answer seen).tally approvalId requestId = ⟨1, 0, 0⟩) ∨
        ((turn d db c call answer seen call.point).point = .returned ∧
          (t.after d db c call answer seen).tally approvalId requestId = ⟨0, 0, 0⟩)) := by
  have happroval : call.op.approvalId? = some approvalId := by rw [hop]; rfl
  rw [Trace.tally_after, htally, hpoint, moved_turn (by rintro _ ⟨⟩)]
  refine ⟨rfl, ?_⟩
  rw [turn, happroval, Option.elim_some, consumingTurn]
  split
  · exact .inr ⟨rfl, rfl⟩
  · refine .inl ⟨rfl, ?_⟩
    simp [Event.consumes, attempted, Except.toOption]

variable (d db c answer seen) in
/-- What there is of an `authorize_owner` call after a step of its own, and whether it is broken
off there. -/
theorem Trace.Stage.after (h : t.Stage approvalId requestId call.point) (hdue : t.due = none)
    (hop : call.op = .authorizeOwner approvalId) (hid : call.requestId = requestId)
    (hdone : call.point = .returned → t.tally approvalId requestId = ⟨1, 1, 1⟩ ∨
      t.tally approvalId requestId = ⟨0, 0, 0⟩) :
    (t.after d db c call answer seen).Stage approvalId requestId
        (turn d db c call answer seen call.point).point ∧
      (((turn d db c call answer seen call.point).point = .returned →
          dueAfter d db call call.point = none →
          (t.after d db c call answer seen).tally approvalId requestId = ⟨1, 1, 1⟩ ∨
            (t.after d db c call answer seen).tally approvalId requestId = ⟨0, 0, 0⟩) ↔
        call.point.StillPending db requestId) := by
  rw [Trace.stage_none hdue] at h
  by_cases hauthorizing : ∃ row decision, call.point = .authorizing row decision
  · obtain ⟨row, decision, hpoint⟩ := hauthorizing
    have htally : t.tally approvalId requestId = ⟨1, 0, 0⟩ := by
      have := h (by rw [hpoint]; rintro ⟨⟩)
      rwa [hpoint] at this
    obtain ⟨hreturned, ⟨row', hrow', hrid, hevent, hafter, hstill⟩ | ⟨hnone, hafter, hnot⟩⟩ :=
      authorizing_turn d c answer seen hid htally hpoint
    · refine ⟨?_, iff_of_true (fun _ hnone => ?_) hstill⟩
      · exact (Trace.stage_some hrow').mpr ⟨hreturned, hrid, by rw [hafter, if_pos hevent]⟩
      · cases hrow'.symm.trans hnone
    · refine ⟨?_, iff_of_false (fun hboth => ?_) hnot⟩
      · exact (Trace.stage_none hnone).mpr fun hne => absurd hreturned hne
      · rw [hafter] at hboth
        rcases hboth hreturned hnone with ⟨⟨⟩⟩ | ⟨⟨⟩⟩
  · have hstill : call.point.StillPending db requestId := by
      cases hpoint : call.point with
      | authorizing row decision => exact absurd ⟨row, decision, hpoint⟩ hauthorizing
      | _ => trivial
    have hzero : call.point ≠ .returned → t.tally approvalId requestId = ⟨0, 0, 0⟩ := by
      intro hne
      have hbetween : call.point.between = false := by
        cases hpoint : call.point with
        | authorizing row decision => exact absurd ⟨row, decision, hpoint⟩ hauthorizing
        | _ => rfl
      have htally := h hne
      rwa [hbetween, if_neg Bool.false_ne_true] at htally
    rw [iff_true_right hstill]
    by_cases hconsuming : ∃ row ap job now, call.point = .consuming row ap job now
    · obtain ⟨row, ap, job, now, hpoint⟩ := hconsuming
      obtain ⟨hnone, hcases⟩ := consuming_turn d db c answer seen hop
        (hzero (by rw [hpoint]; rintro ⟨⟩)) hpoint
      rw [Trace.stage_none hnone]
      rcases hcases with ⟨hgoes, hafter⟩ | ⟨hreturned, hafter⟩
      · rw [hgoes, hafter]
        exact ⟨fun _ => rfl, by rintro ⟨⟩⟩
      · exact ⟨fun hne => absurd hreturned hne, fun _ _ => .inr hafter⟩
    · have hidle : Idle d db c call answer seen approvalId requestId call.point :=
        idle_turn hop (fun row ap job now hpoint => hconsuming ⟨row, ap, job, now, hpoint⟩)
          fun row decision hpoint => hauthorizing ⟨row, decision, hpoint⟩
      have hreturned : call.point = .returned →
          (turn d db c call answer seen call.point).point = .returned := by
        intro hpoint
        rw [hpoint]
        rfl
      rw [hidle.tally]
      refine ⟨?_, fun _ _ => ?_⟩
      · cases hrow : dueAfter d db call call.point with
        | some row =>
          obtain ⟨hevent, hpoint⟩ := hidle.due row hrow
          obtain ⟨hrid, row', hrow'⟩ := dueAfter_eq_some hrow
          have hne : call.point ≠ .returned := by
            intro heq
            rw [heq] at hrow'
            cases hrow'
          exact (Trace.stage_some hrow).mpr
            ⟨hpoint, hrid.trans hid, by rw [hidle.tally, if_neg hevent, hzero hne]⟩
        | none =>
          refine (Trace.stage_none hrow).mpr fun hne => ?_
          rw [hidle.tally, hidle.between, if_neg Bool.false_ne_true]
          exact hzero fun heq => hne (hreturned heq)
      · by_cases heq : call.point = .returned
        · exact hdone heq
        · exact .inr (hzero heq)

/-! ### Every run -/

/-- A call is not broken off in a step. -/
structure Unbroken.Goes (s : Audited) (a : Act) (c : ℕ) (call : Call) : Prop where
  next : ∀ answer seen, a = .next c answer seen → s.due c = none →
    call.point.StillPending s.toBrokerDb call.requestId
  crash : a = .crash c →
    (s.due c = none → call.point.between = false) ∧ ∀ row ∈ s.due c, row.event ≠ .authorized

/-- What a step of the system does to how far a call has come, and whether the call is broken off
there. -/
theorem Trace.Step.staged (h : (s.trace c).Staged) (hall : (s.trace c).AllOrNone)
    (hstep : Trace.Step d s a c t) :
    t.Staged ∧ (t.AllOrNone ↔
      ∀ call ∈ s.calls c, call.op.approvalId?.isSome → Unbroken.Goes s a c call) := by
  cases hstep with
  | stays hother =>
    refine ⟨h, iff_of_true hall fun call hcall _ => ⟨fun answer seen ha => ?_, fun ha => ?_⟩⟩
    · exact absurd ha ((hother call hcall).2 answer seen)
    · exact absurd ha (hother call hcall).1
  | begins op requestId hnone ha =>
    obtain ⟨hdue, hrows, hmoves, hnotes⟩ := h.fresh hnone
    refine ⟨⟨by rintro ⟨⟩, ?_⟩, iff_of_true ?_ fun call hcall => ?_⟩
    · rintro approvalId requestId' p hcall
      obtain ⟨-, -, rfl⟩ := Call.mk.inj (Option.some.inj hcall)
      refine (Trace.stage_none hdue).mpr fun _ => ?_
      rw [Trace.tally]
      rw [hrows, hmoves, hnotes]
      rfl
    · rintro approvalId requestId' ⟨⟩
    · cases hnone.symm.trans hcall
  | appends answer seen row hrow ha =>
    refine ⟨⟨fun hnone => ?_, fun approvalId requestId p hcall => ?_⟩,
      iff_of_true (fun approvalId requestId hcall _ => ?_) fun call hcall _ => ⟨?_, ?_⟩⟩
    · obtain ⟨hdue, -⟩ := h.fresh hnone
      cases hrow.symm.trans hdue
    · have hstage := (Trace.stage_some hrow).mp (h.stage approvalId requestId p hcall)
      exact (Trace.stage_none rfl).mpr fun hne => absurd hstage.1 hne
    · obtain ⟨-, hrid, htally⟩ :=
        (Trace.stage_some hrow).mp (h.stage approvalId requestId .returned hcall)
      rw [Trace.tally_append]
      by_cases hevent : row.event = .authorized
      · rw [if_pos hevent] at htally
        left
        rw [htally, AuditRow.authorizes, hrid, hevent]
        simp
      · rw [if_neg hevent] at htally
        right
        rw [htally, AuditRow.authorizes]
        simp [hevent]
    · intro _ _ _ hdue
      cases hrow.symm.trans hdue
    · intro ha'
      cases ha.symm.trans ha'
  | turns answer seen call hdue hcall ha =>
    have hgoes : Unbroken.Goes s a c call ↔
        call.point.StillPending s.toBrokerDb call.requestId := by
      refine ⟨fun h => h.next answer seen ha hdue, fun h => ⟨fun _ _ _ _ => h, fun ha' => ?_⟩⟩
      cases ha.symm.trans ha'
    have hafter : ∀ approvalId requestId, call.op = .authorizeOwner approvalId →
        call.requestId = requestId → _ := fun approvalId requestId hop hid =>
      have hcall' : (s.trace c).call =
          some ⟨.authorizeOwner approvalId, requestId, call.point⟩ := by
        rw [← hop, ← hid]
        exact hcall
      (h.stage approvalId requestId call.point hcall').after d s.toBrokerDb c answer
        seen hdue hop hid
        fun hpoint => hall approvalId requestId (hpoint ▸ hcall') hdue
    refine ⟨⟨by rintro ⟨⟩, fun approvalId requestId p hcall' => ?_⟩, ?_⟩
    · obtain ⟨hop, hid, rfl⟩ := Call.mk.inj (Option.some.inj hcall')
      exact (hafter approvalId requestId hop hid).1
    · constructor
      · intro hatomic call' hcall' happroval
        obtain rfl := Option.mem_unique hcall hcall'
        obtain ⟨approvalId, hid⟩ := Option.isSome_iff_exists.mp happroval
        have hop := eq_of_approvalId? hid
        refine hgoes.mpr ((hafter approvalId call.requestId hop rfl).2.mp fun hpoint hnone => ?_)
        refine hatomic approvalId call.requestId ?_ hnone
        rw [← hop, ← hpoint]
      · intro hunbroken approvalId requestId hcall' hnone
        obtain ⟨hop, hid, hpoint⟩ := Call.mk.inj (Option.some.inj hcall')
        have hstill := hgoes.mp (hunbroken call hcall (by rw [hop]; rfl))
        exact (hafter approvalId requestId hop hid).2.mpr (hid ▸ hstill) hpoint hnone
  | crashes call hcall ha =>
    have hgoes : Unbroken.Goes s a c call ↔
        (s.due c = none → call.point.between = false) ∧
          ∀ row ∈ s.due c, row.event ≠ .authorized := by
      refine ⟨fun h => h.crash ha, fun h => ⟨fun _ _ ha' => ?_, fun _ => h⟩⟩
      cases ha.symm.trans ha'
    have hstops : ∀ approvalId requestId, call.op = .authorizeOwner approvalId →
        call.requestId = requestId →
        (((s.trace c).tally approvalId requestId = ⟨1, 1, 1⟩ ∨
          (s.trace c).tally approvalId requestId = ⟨0, 0, 0⟩) ↔ Unbroken.Goes s a c call) := by
      intro approvalId requestId hop hid
      have hcall' : (s.trace c).call =
          some ⟨.authorizeOwner approvalId, requestId, call.point⟩ := by
        rw [← hop, ← hid]
        exact hcall
      have hstage := h.stage approvalId requestId call.point hcall'
      rw [hgoes]
      cases hdue : s.due c with
      | some row =>
        obtain ⟨-, -, htally⟩ := (Trace.stage_some hdue).mp hstage
        by_cases hevent : row.event = .authorized
        · rw [htally, if_pos hevent]
          exact iff_of_false (by decide) fun hboth => hboth.2 row rfl hevent
        · rw [htally, if_neg hevent]
          refine iff_of_true (.inr rfl) ⟨by rintro ⟨⟩, ?_⟩
          rintro _ ⟨⟩
          exact hevent
      | none =>
        by_cases hpoint : call.point = .returned
        · refine iff_of_true (hall approvalId requestId (hpoint ▸ hcall') hdue)
            ⟨fun _ => by rw [hpoint]; rfl, by rintro _ ⟨⟩⟩
        · have htally := (Trace.stage_none hdue).mp hstage hpoint
          cases hbetween : call.point.between with
          | true =>
            rw [htally, hbetween, if_pos rfl]
            refine iff_of_false (by decide) fun hboth => ?_
            cases hboth.1 rfl
          | false =>
            rw [htally, hbetween, if_neg Bool.false_ne_true]
            exact iff_of_true (.inr rfl) ⟨fun _ => rfl, by rintro _ ⟨⟩⟩
    refine ⟨⟨by rintro ⟨⟩, fun approvalId requestId p hcall' => ?_⟩, ?_⟩
    · obtain ⟨-, -, rfl⟩ := Call.mk.inj (Option.some.inj hcall')
      exact (Trace.stage_none rfl).mpr fun hne => absurd rfl hne
    · constructor
      · intro hatomic call' hcall' happroval
        obtain rfl := Option.mem_unique hcall hcall'
        obtain ⟨approvalId, hid⟩ := Option.isSome_iff_exists.mp happroval
        have hop := eq_of_approvalId? hid
        refine (hstops approvalId call.requestId hop rfl).mp ?_
        exact hatomic approvalId call.requestId (by rw [← hop]) rfl
      · intro hunbroken approvalId requestId hcall' _
        obtain ⟨hop, hid, -⟩ := Call.mk.inj (Option.some.inj hcall')
        exact (hstops approvalId requestId hop hid).mpr (hunbroken call hcall (by rw [hop]; rfl))

/-- No call is broken off in a step exactly if each of the calls is not. -/
theorem unbroken_iff : Unbroken s a ↔
    ∀ c, ∀ call ∈ s.calls c, call.op.approvalId?.isSome → Unbroken.Goes s a c call := by
  constructor
  · intro h c call hcall happroval
    refine ⟨fun answer seen ha hdue => ?_, fun ha => ?_⟩
    · subst ha
      exact h hdue call hcall happroval
    · subst ha
      exact h call hcall happroval
  · intro h
    cases a with
    | next c answer seen =>
      exact fun hdue call hcall happroval => (h c call hcall happroval).next answer seen rfl hdue
    | crash c => exact fun call hcall happroval => (h c call hcall happroval).crash rfl
    | _ => trivial

theorem allOrNone_step (hs : s.Sound) (h : ∀ c, (s.trace c).Staged) (hall : AllOrNone s) :
    (∀ c, ((Audited.step d s a).trace c).Staged) ∧
      (AllOrNone (Audited.step d s a) ↔ Unbroken s a) := by
  have hcall := fun c => (hs.trace_step (d := d) a c).staged (h c) (hall c)
  refine ⟨fun c => (hcall c).1, ?_⟩
  rw [unbroken_iff]
  exact forall_congr' fun c => (hcall c).2

/-- **Owner authorization is atomic** all along a run exactly as long as no `authorize_owner` call
stops for good between consuming the approval and appending its row, and none finds its request
moved after it has consumed the approval. -/
theorem owner_authorization_atomic_iff (d : Driver) (queue : MergeQueue.Db)
    (approvals : String → Option ApprovalRow) (as : List Act) :
    (∀ bs cs, as = bs ++ cs → AllOrNone (Audited.run d queue approvals bs)) ↔
      Runs.Along (Audited.step d) Unbroken (Audited.initial queue approvals) as := by
  have hinitial : ∀ c, ((Audited.initial queue approvals).trace c).Staged := fun c =>
    ⟨fun _ => ⟨rfl, rfl, rfl, rfl⟩, by rintro _ _ _ ⟨⟩⟩
  have hstaged : ∀ bs cs, as = bs ++ cs → (∀ bs' cs', as = bs' ++ cs' →
      AllOrNone (Audited.run d queue approvals bs')) →
        ∀ c, ((Audited.run d queue approvals bs).trace c).Staged := by
    intro bs
    induction bs using List.reverseRecOn with
    | nil => exact fun _ _ _ => hinitial
    | append_singleton bs a ih =>
      intro cs hsplit hall
      have hbefore : as = bs ++ a :: cs := by rw [hsplit, List.append_assoc]; rfl
      have hstep : Audited.run d queue approvals (bs ++ [a]) =
          Audited.step d (Audited.run d queue approvals bs) a := Runs.run_append
      rw [hstep]
      exact (allOrNone_step Audited.sound_run (ih (a :: cs) hbefore hall)
        (hall bs (a :: cs) hbefore)).1
  rw [← Runs.forall_split_iff_along (I := fun s => Audited.Sound s ∧ (∀ c, (s.trace c).Staged) ∧
    AllOrNone s) ?_ ?_]
  · refine ⟨fun hall bs cs hsplit => ?_, fun hall bs cs hsplit => (hall bs cs hsplit).2.2⟩
    exact ⟨Audited.sound_run, hstaged bs cs hsplit hall, hall bs cs hsplit⟩
  · rintro s a ⟨hs, h, hall⟩
    obtain ⟨hstaged, hiff⟩ := allOrNone_step (d := d) (a := a) hs h hall
    rw [and_iff_right (hs.step a), and_iff_right hstaged]
    exact hiff
  · exact ⟨(Audited.sound_run : (Audited.run d queue approvals []).Sound), hinitial,
      by rintro _ _ _ ⟨⟩⟩

/-! ### An approval that is spent in vain -/

def taskJobs : MergeQueue.Db :=
  { twoJobs with
    jobs := fun id =>
      if id = "job" then some { MergeQueue.leased "job" with
        terminal := some "DONE", taskId := "a" } else none }

def updateScope : String :=
  approvalScope fixture.toBroker (newRequest fixture.toBroker updateRequest
    ⟨.boundedWrite, .obj [], .obj []⟩ 50)

/-- An approval of the request. -/
def granted : ApprovalRow where
  id := ⟨"b", by decide⟩
  taskId := ⟨"a", by decide⟩
  action := "update_pull_request"
  scope := updateScope
  status := .approved
  requestedBy := .lead
  createdAt := 0
  decidedAt := some 0
  consumedAt := none
  expiresAt := 1000
  bindingHash := ⟨"a", "update_pull_request", updateScope⟩
  approvedAt := some 0
  executionId := none
  executedAt := none
  closedAt := none
  sourceClass := .trusted

/-- An `authorize_owner` call consumes the approval; then the request expires, and another call
blocks it. -/
def spentInVain : List Act :=
  .create updateRequest ⟨.boundedWrite, .obj [], .obj []⟩ 50 ::
    .start 0 (.authorizeOwner "b") updateId :: steps 0 7 ++
    .waits 100 :: .start 1 .authorizeAutonomous updateId :: steps 1 3 ++ steps 0 1

/-- Where that leads. -/
def afterSpent : Audited :=
  Audited.run fixture taskJobs (fun id => if id = "b" then some granted else none) spentInVain

/-- The approval is consumed, the request is BLOCKED, and nothing is in the log of the call. -/
theorem approval_spent_in_vain :
    (afterSpent.approvals "b").map (·.status) = some .consumed ∧
    (afterSpent.requests updateId).map (·.state) = some .blocked ∧
    (afterSpent.trace 0).tally "b" updateId = ⟨1, 0, 0⟩ ∧
    ¬∀ bs cs, spentInVain = bs ++ cs → AllOrNone (Audited.run fixture taskJobs
      (fun id => if id = "b" then some granted else none) bs) := by
  have hfacts : (afterSpent.approvals "b").map (·.status) = some .consumed ∧
      (afterSpent.requests updateId).map (·.state) = some .blocked ∧
      (afterSpent.trace 0).tally "b" updateId = ⟨1, 0, 0⟩ ∧
      (afterSpent.trace 0).call = some ⟨.authorizeOwner "b", updateId, .returned⟩ ∧
      (afterSpent.trace 0).due = none := by
    decide +kernel
  obtain ⟨hspent, hblocked, htally, hcall, hdue⟩ := hfacts
  refine ⟨hspent, hblocked, htally, fun h => ?_⟩
  have hall := h spentInVain [] (List.append_nil _).symm 0 "b" updateId hcall hdue
  rw [show (Audited.run fixture taskJobs _ spentInVain).trace 0 = afterSpent.trace 0 from rfl,
    htally] at hall
  revert hall
  decide

end Calls

end Broker

end ArgentTeam
