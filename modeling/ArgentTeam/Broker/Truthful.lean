import ArgentTeam.Broker.Audit
import ArgentTeam.Broker.Dispatches

/-!
# Whether the audit log tells the truth

The rows that a call has appended, with the one it has to append next, tell of the transitions that
it has made, one of each. That holds as long as no call denies a request, or blocks one that has
expired, whose row is no longer as it was read or has no edge to there: these two catch the refusal
of their transition, and append a row all the same (`audit_truthful_iff`).
-/

namespace ArgentTeam

open MergeQueue (Holder)

namespace Broker

namespace Calls

/-! ### Rows and transitions -/

/-- The row says that a request has moved. -/
def AuditRow.claims (row : AuditRow) : Bool :=
  row.event ≠ .reconciled || row.reasonCode = PyStr.ofString "RECONCILED_SUCCESS"

/-- The transition is one that a row has to tell of. -/
def Move.noted (m : Move) : Bool := (m.src = .pending && m.dst = .authorized) || m.dst.isTerminal

def Tells (row : AuditRow) (m : Move) : Prop :=
  row.requestId = m.requestId ∧
    match row.event with
    | .authorized => m.src = .pending ∧ m.dst = .authorized
    | .executed => m.dst.isTerminal = true ∧ row.failureClass = m.failureClass
    | .reconciled => m.dst = .succeeded

/-- The rows of a call tell of its transitions. -/
def Trace.Truthful (t : Trace) : Prop :=
  List.Forall₂ Tells ((t.rows ++ t.due.toList).filter AuditRow.claims) (t.moves.filter Move.noted)

/-- The audit log tells the truth. -/
structure Truthful (s : Audited) : Prop where
  tells : ∀ c, (s.trace c).Truthful
  refused : ∀ c, (∀ m, (c, m) ∈ s.moves → m.noted = false) →
    ∀ row, (c, row) ∈ s.audit → row.event ≠ .executed

/-- The request is as the call has read it, and the edge map has the edge. -/
def Stands (db : BrokerDb) (requestId : String) (row : RequestRow) (dst : RequestState) : Prop :=
  ∃ r ∈ db.requests requestId, r.state = row.state ∧ r.revision = row.revision ∧
    dst ∈ row.state.targets

/-- A call that denies a request, or blocks one that has expired, can do so. -/
def Point.Upheld (db : BrokerDb) (requestId : String) : Point → Prop
  | .expiring row => Stands db requestId row .blocked
  | .denying row _ => Stands db requestId row .denied
  | _ => True

/-- No refusal is caught in this step. -/
def Upheld (s : Audited) : Act → Prop
  | .next c _ _ => s.due c = none →
    ∀ call ∈ s.calls c, call.point.Upheld s.toBrokerDb call.requestId
  | _ => True

variable {d : Driver} {db db' : BrokerDb} {s : Audited} {c : ℕ} {call : Call} {answer : Answer}
  {seen : Observed} {p : Point} {row : RequestRow} {a : Act} {as : List Act} {cols : Columns}
  {requestId : String} {dst : RequestState}

/-! ### What a step notes -/

theorem forall₂_append_iff {α β : Type} {R : α → β → Prop} {xs xs' : List α} {ys ys' : List β}
    (h : List.Forall₂ R xs ys) :
    List.Forall₂ R (xs ++ xs') (ys ++ ys') ↔ List.Forall₂ R xs' ys' := by
  induction h with
  | nil => exact Iff.rfl
  | cons hxy _ ih => exact List.forall₂_cons.trans ((and_iff_right hxy).trans ih)

theorem tells_nothing : List.Forall₂ Tells
    ((none : Option AuditRow).toList.filter AuditRow.claims)
    ((none : Option Move).toList.filter Move.noted) := .nil

theorem tells_one {row : AuditRow} {m : Move} (hclaims : row.claims)
    (hnoted : m.noted) (h : Tells row m) :
    List.Forall₂ Tells ((some row).toList.filter AuditRow.claims)
      ((some m).toList.filter Move.noted) := by
  rw [Option.toList_some, Option.toList_some, List.filter_cons_of_pos hclaims,
    List.filter_cons_of_pos hnoted]
  exact .cons h .nil

/-- A transition goes through exactly if the request stands as it was read. -/
theorem transitionRow_ok_iff
    (hbind : cols.bindable) :
    (∃ db', transitionRow db requestId row.state dst row.revision cols = .ok db') ↔
      Stands db requestId row dst := by
  constructor
  · rintro ⟨db', heq⟩
    obtain ⟨r, hr, hstate, hrevision, hedge, -⟩ := transitionRow_eq_ok heq
    exact ⟨r, hr, hstate, hrevision, hedge⟩
  · rintro ⟨r, hr, hstate, hrevision, hedge⟩
    rw [transitionRow, Option.mem_def.mp hr]
    dsimp only
    rw [if_neg (by simp [hstate, hrevision]), if_neg (by rw [hstate]; exact not_not.mpr hedge),
      if_neg (by simp [hbind])]
    exact ⟨_, rfl⟩

theorem regardless_eq_some {src dst : RequestState} {revision : ℕ}
    (hbind : cols.bindable) (hsome : (db.requests requestId).isSome)
    (r : AuditRow) : regardless (transitionRow db requestId src dst revision cols) r = some r := by
  obtain ⟨r', hr'⟩ := Option.isSome_iff_exists.mp hsome
  rw [transitionRow, hr']
  dsimp only
  split
  · rfl
  · split
    · rfl
    · rw [if_neg (by simp [hbind])]
      rfl

/-- What `_expire` and `_deny` note: a row, and the transition if it goes through. -/
theorem tells_regardless
    {failureClass : String} {reason : PyStr} (hbind : cols.bindable)
    (hsome : (db.requests requestId).isSome) (hdst : dst.isTerminal)
    (hclass : cols.lastFailureClass = some (some failureClass)) :
    List.Forall₂ Tells
        ((regardless (transitionRow db requestId row.state dst row.revision cols)
          (auditRow requestId .executed (some failureClass) reason)).toList.filter
            AuditRow.claims)
        (((transitionRow db requestId row.state dst row.revision cols).toOption.bind
          (moved db · requestId)).toList.filter Move.noted) ↔
      Stands db requestId row dst := by
  rw [regardless_eq_some hbind hsome, ← transitionRow_ok_iff hbind]
  cases heq : transitionRow db requestId row.state dst row.revision cols with
  | ok db' =>
    obtain ⟨r, -, -, hmoved⟩ := moved_of_transitionRow heq
    refine iff_of_true ?_ ⟨db', rfl⟩
    rw [Except.toOption, Option.bind_some, hmoved, hclass]
    refine tells_one rfl ?_ ⟨rfl, hdst, rfl⟩
    rw [Move.noted, hdst, Bool.or_true]
  | error e =>
    refine iff_of_false ?_ ?_
    · intro hforall
      cases hforall
    · rintro ⟨db', ⟨⟩⟩

/-- A settlement that ends a request writes the class of the failure. -/
theorem exists_failureClass {now : Time} {h : Holder} {answer : Option Answer}
    (heq : settlement d now h row answer = some (dst, cols)) (hdst : dst.isTerminal) :
    ∃ failureClass, cols.lastFailureClass = some failureClass := by
  have hfinal : ∀ {dst' fc code oid st}, finalize d dst' fc code oid st = some (dst, cols) →
      ∃ failureClass, cols.lastFailureClass = some failureClass := by
    intro dst' fc code oid st hfin
    unfold finalize at hfin
    split at hfin
    · cases hfin
      exact ⟨fc, rfl⟩
    · cases hfin
  have hwait : ∀ {fc det}, boundedWait d now h row.attemptCount fc det = some (dst, cols) →
      ∃ failureClass, cols.lastFailureClass = some failureClass := by
    intro fc det hbounded
    unfold boundedWait at hbounded
    dsimp only at hbounded
    split at hbounded
    · exact hfinal hbounded
    · cases hbounded
      cases hdst
  have hresult : ∀ {r}, settleResult d now h row.attemptCount r = some (dst, cols) →
      ∃ failureClass, cols.lastFailureClass = some failureClass := by
    intro r hr
    unfold settleResult at hr
    split at hr
    all_goals first | exact hfinal hr | exact hwait hr
  unfold settlement at heq
  split at heq
  · unfold settle at heq
    split at heq
    · exact hresult heq
    · exact hfinal heq
    · exact hfinal heq
    · obtain ⟨r, -, hr⟩ := Option.bind_eq_some_iff.mp heq
      exact hresult hr
  · exact hfinal heq

/-- What `_finalize` notes: a row and a transition, or neither. -/
theorem tells_settled {h : Holder} {answer : Option Answer}
    (hset : settlement d db.now h row answer = some (dst, cols)) :
    List.Forall₂ Tells
      (((if dst.isTerminal = true then
          some (auditRow requestId .executed (cols.lastFailureClass.bind id)
            ((cols.lastErrorCode.bind id).getD []))
        else none).bind (afterwards (transitionRowAuthoritative db (lockName row) h requestId
          row.state dst row.revision cols))).toList.filter AuditRow.claims)
      (((transitionRowAuthoritative db (lockName row) h requestId row.state dst row.revision
          cols).toOption.bind (moved db · requestId)).toList.filter Move.noted) := by
  cases heq : transitionRowAuthoritative db (lockName row) h requestId row.state dst row.revision
      cols with
  | error e =>
    split
    · exact tells_nothing
    · exact tells_nothing
  | ok db' =>
    obtain ⟨-, -, hok⟩ := transitionRowAuthoritative_eq_ok heq
    obtain ⟨r, -, hedge, hmoved⟩ := moved_of_transitionRow hok
    rw [Except.toOption, Option.bind_some, hmoved]
    split
    next hdst =>
      obtain ⟨failureClass, hclass⟩ := exists_failureClass hset hdst
      rw [hclass]
      refine tells_one rfl ?_ ⟨rfl, hdst, rfl⟩
      rw [Move.noted, hdst, Bool.or_true]
    next hdst =>
      have hwaits : dst = .waitingExternal := by
        rcases settlement_eq_some hset with ⟨hend, -⟩ | ⟨hwaits, -⟩
        · exact absurd hend hdst
        · exact hwaits
      subst hwaits
      have hnot : ¬Move.noted ⟨requestId, row.state, .waitingExternal,
          cols.lastFailureClass.getD r.lastFailureClass⟩ = true := by
        simp [Move.noted, RequestState.isTerminal]
      rw [Option.bind_none, Option.toList_some, List.filter_cons_of_neg hnot]
      exact .nil

/-- **What a step notes**: rows that tell of the transitions it makes, unless a refusal is
caught. -/
theorem tells_turn (h : Informed db call) :
    List.Forall₂ Tells ((dueAfter d db call call.point).toList.filter AuditRow.claims)
        ((moved db (turn d db c call answer seen call.point).db call.requestId).toList.filter
          Move.noted) ↔
      call.point.Upheld db call.requestId := by
  have hsome : ∀ row, call.point.row? = some row → (db.requests call.requestId).isSome := by
    intro row hrow
    obtain ⟨r, hr, -⟩ := h.seen row hrow
    exact Option.isSome_iff_exists.mpr ⟨r, hr⟩
  generalize hp : call.point = p at hsome
  have hquiet : ∀ {m : Option Move}, dueAfter d db call p = none →
      (∀ x, m = some x → x.noted = false) → p.Upheld db call.requestId →
      (List.Forall₂ Tells ((dueAfter d db call p).toList.filter AuditRow.claims)
        (m.toList.filter Move.noted) ↔ p.Upheld db call.requestId) := by
    intro m hdue hm hupheld
    refine iff_of_true ?_ hupheld
    rw [hdue]
    cases m with
    | none => exact tells_nothing
    | some m =>
      rw [Option.toList_some, List.filter_cons_of_neg (by rw [hm m rfl]; decide)]
      exact .nil
  have hunmoved : ∀ x, (none : Option Move) = some x → x.noted = false := by rintro _ ⟨⟩
  cases p with
  | opening row =>
    refine hquiet rfl (fun m hm => ?_) trivial
    simp [Move.noted, moved_opening hm, RequestState.isTerminal]
  | expiring row =>
    rw [moved_turn (by rintro _ ⟨⟩)]
    exact tells_regardless (by decide) (hsome row rfl) rfl rfl
  | denying row reason =>
    rw [moved_turn (by rintro _ ⟨⟩)]
    refine tells_regardless ?_ (hsome row rfl) rfl rfl
    simp [Columns.bindable, fixedCode]
  | authorizing row decision =>
    rw [moved_turn (by rintro _ ⟨⟩), dueAfter]
    refine iff_of_true ?_ trivial
    cases heq : attempted d db call (.authorizing row decision) with
    | error e => exact tells_nothing
    | ok db' =>
      obtain ⟨r, -, -, hmoved⟩ := moved_of_transitionRow heq
      rw [Except.toOption, Option.bind_some, hmoved]
      exact tells_one rfl rfl ⟨rfl, rfl, rfl⟩
  | settling row answer =>
    rw [moved_turn (by rintro _ ⟨⟩)]
    refine iff_of_true ?_ trivial
    rw [dueAfter, attempted, settledRow]
    cases call.op.holder? with
    | none => exact tells_nothing
    | some h =>
      rw [Option.elim_some, Option.bind_some]
      cases hset : settlement d db.now h row answer with
      | none => exact tells_nothing
      | some r =>
        obtain ⟨dst, cols⟩ := r
        rw [Option.elim_some, Option.bind_some]
        exact tells_settled hset
  | recording row o =>
    rw [moved_turn (by rintro _ ⟨⟩)]
    refine iff_of_true ?_ trivial
    rw [dueAfter, attempted]
    cases call.op.holder? with
    | none =>
      split
      · exact tells_nothing
      · exact .nil
    | some h =>
      rw [Option.elim_some]
      by_cases hfound : o.found = true
      · rw [if_pos hfound, if_pos hfound]
        cases found o with
        | none => exact tells_nothing
        | some cols =>
          rw [Option.elim_some]
          cases heq : transitionRowAuthoritative db (lockName row) h call.requestId row.state
              .succeeded row.revision cols with
          | error e => exact tells_nothing
          | ok db' =>
            obtain ⟨-, -, hok⟩ := transitionRowAuthoritative_eq_ok heq
            obtain ⟨r, -, -, hmoved⟩ := moved_of_transitionRow hok
            rw [Except.toOption, Option.bind_some, hmoved]
            refine tells_one ?_ (Bool.or_true _) ⟨rfl, rfl⟩
            exact Bool.or_eq_true_iff.mpr (.inr (decide_eq_true (by rfl)))
      · rw [if_neg hfound, if_neg hfound]
        exact .nil
  | _ =>
    rw [moved_turn (by rintro _ ⟨⟩)]
    exact hquiet rfl hunmoved trivial

/-! ### Every run -/

theorem Trace.Truthful.refused {t : Trace} (h : t.Truthful)
    (hmoves : ∀ m ∈ t.moves, m.noted = false)
    {row : AuditRow} (hrow : row ∈ t.rows) : row.event ≠ .executed := by
  intro hexecuted
  have hnil : t.moves.filter Move.noted = [] :=
    List.filter_eq_nil_iff.mpr fun m hm => by rw [hmoves m hm]; decide
  rw [Trace.Truthful, hnil, List.forall₂_nil_right_iff, List.filter_eq_nil_iff] at h
  refine h row (List.mem_append_left _ hrow) ?_
  rw [AuditRow.claims, hexecuted]
  rfl

/-- What a step does to the truth about one call. -/
theorem Trace.Step.truthful (hs : s.Sound) (h : (s.trace c).Truthful) {t : Trace}
    (hstep : Trace.Step d s a c t) (hcrash : a ≠ .crash c) :
    t.Truthful ↔ ∀ answer seen, a = .next c answer seen → s.due c = none →
      ∀ call ∈ s.calls c, call.point.Upheld s.toBrokerDb call.requestId := by
  cases hstep with
  | stays hother =>
    refine iff_of_true h fun answer seen ha _ call hcall => ?_
    exact absurd ha ((hother call hcall).2 answer seen)
  | begins op requestId hnone ha =>
    refine iff_of_true h fun answer seen ha' => ?_
    cases ha.symm.trans ha'
  | appends answer seen row hrow ha =>
    refine iff_of_true ?_ fun answer' seen' _ hdue => ?_
    · rw [Trace.Truthful, show (s.trace c).due = some row from hrow] at h
      rw [Trace.Truthful, Option.toList_none, List.append_nil]
      exact h
    · cases hrow.symm.trans hdue
  | turns answer seen call hdue hcall ha =>
    have hbefore : List.Forall₂ Tells ((s.trace c).rows.filter AuditRow.claims)
        ((s.trace c).moves.filter Move.noted) := by
      rw [Trace.Truthful, show (s.trace c).due = none from hdue, Option.toList_none,
        List.append_nil] at h
      exact h
    rw [Trace.Truthful, List.filter_append, List.filter_append, forall₂_append_iff hbefore,
      tells_turn (hs.informed c call hcall)]
    constructor
    · rintro hupheld - - - - call' hcall'
      obtain rfl := Option.mem_unique hcall hcall'
      exact hupheld
    · intro hupheld
      exact hupheld answer seen ha hdue call hcall
  | crashes call hcall ha => exact absurd ha hcrash

/-- A step leaves the log truthful exactly if no refusal is caught in it. -/
theorem truthful_step (hs : s.Sound) (h : ∀ c, (s.trace c).Truthful)
    (hcrash : ∀ c, a ≠ .crash c) :
    (∀ c, ((Audited.step d s a).trace c).Truthful) ↔ Upheld s a := by
  have hcall : ∀ c, ((Audited.step d s a).trace c).Truthful ↔ _ := fun c =>
    (hs.trace_step a c).truthful hs (h c) (hcrash c)
  constructor
  · intro htruthful
    cases a with
    | next c answer seen => exact (hcall c).mp (htruthful c) answer seen rfl
    | _ => trivial
  · intro hupheld c
    refine (hcall c).mpr fun answer seen ha => ?_
    subst ha
    exact hupheld

theorem truthful_iff (s : Audited) : Truthful s ↔ ∀ c, (s.trace c).Truthful := by
  refine ⟨fun h => h.tells, fun h => ⟨h, fun c hmoves row hrow => ?_⟩⟩
  exact (h c).refused (fun m hm => hmoves m (mem_ofCall.mp hm)) (mem_ofCall.mpr hrow)

/-- **The audit log tells the truth** all along a run without crashes exactly as long as no call
denies a request, or blocks an expired one, whose row is not as it was read or has no edge to
there. -/
theorem audit_truthful_iff (d : Driver) (queue : MergeQueue.Db)
    (approvals : String → Option ApprovalRow) (as : List Act) (hcrash : ∀ c, .crash c ∉ as) :
    (∀ bs cs, as = bs ++ cs → Truthful (Audited.run d queue approvals bs)) ↔
      Runs.Along (Audited.step d) Upheld (Audited.initial queue approvals) as := by
  have hinvariant : ∀ bs cs, as = bs ++ cs →
      (Truthful (Audited.run d queue approvals bs) ↔
        (Audited.run d queue approvals bs).Sound ∧
          ∀ c, ((Audited.run d queue approvals bs).trace c).Truthful) := by
    intro bs cs _
    rw [truthful_iff]
    exact (and_iff_right Audited.sound_run).symm
  have hlive : Runs.Along (Audited.step d) (fun _ a => ∀ c, a ≠ .crash c)
      (Audited.initial queue approvals) as := by
    refine Runs.along_iff_split.mpr fun bs a cs hsplit c ha => hcrash c ?_
    rw [hsplit, ha]
    exact List.mem_append_right _ List.mem_cons_self
  rw [← Runs.forall_split_iff_along_of (I := fun s => Audited.Sound s ∧ ∀ c, (s.trace c).Truthful)
    ?_ ?_ hlive]
  · exact forall_congr' fun bs => forall_congr' fun cs => forall_congr' fun hsplit =>
      hinvariant bs cs hsplit
  · rintro s a hlive ⟨hs, h⟩
    rw [and_iff_right (hs.step a)]
    exact truthful_step hs h hlive
  · exact ⟨(Audited.sound_run : (Audited.run d queue approvals []).Sound), fun c => .nil⟩

theorem audit_truthful_dispatch :
    (∀ bs cs, untilDispatch = bs ++ cs →
        Truthful (Audited.run fixture twoJobs (fun _ => none) bs)) ↔
      Runs.Along (Audited.step fixture) Upheld (Audited.initial twoJobs fun _ => none)
        untilDispatch :=
  audit_truthful_iff fixture twoJobs (fun _ => none) untilDispatch
    (by simp [untilDispatch, steps])

/-! ### Two calls that find a request expired -/

/-- Two calls find the request expired; each asks to block it, and appends its row. -/
def bothExpire : List Act :=
  .create updateRequest ⟨.boundedWrite, .obj [], .obj []⟩ 50 ::
    .start 0 .authorizeAutonomous updateId :: .start 1 .authorizeAutonomous updateId ::
    .waits 100 :: steps 0 2 ++ steps 1 2 ++ steps 0 2 ++ steps 1 2

/-- Where that leads. -/
def afterBothExpire : Audited := Audited.run fixture twoJobs (fun _ => none) bothExpire

/-- The request has been blocked once, by the first call, and there are two rows that say so. -/
theorem audit_tells_twice :
    afterBothExpire.moves = [(0, ⟨updateId, .pending, .blocked, some "PRECONDITION_FAILED"⟩)] ∧
    afterBothExpire.audit.map (fun x => (x.1, x.2.event, x.2.failureClass)) =
      [(0, .executed, some "PRECONDITION_FAILED"), (1, .executed, some "PRECONDITION_FAILED")] ∧
    ¬∀ bs cs, bothExpire = bs ++ cs →
      Truthful (Audited.run fixture twoJobs (fun _ => none) bs) := by
  refine ⟨by decide, by decide, fun h => ?_⟩
  have htells : Trace.Truthful (afterBothExpire.trace 1) :=
    (h bothExpire [] (List.append_nil _).symm).tells 1
  have hlength := htells.length_eq
  revert hlength
  decide

end Calls

end Broker

end ArgentTeam
