import ArgentTeam.Broker.Snapshots

/-!
# The calls and the audit log

A call appends to the audit log in a transaction of its own, after the one that moves the request
(`append_external_action_audit`). The system of the calls is followed here together with that log:
the row that a call has to append is due from the step that asked for the transition, and other
calls take their steps before it is appended; a call that stops for good appends nothing. What the
calls have made of the requests is noted beside the log, as it is read off the tables.
-/

namespace ArgentTeam

namespace Broker

namespace Calls

/-! ### Rows of the log -/

/-- The events that the calls note in the audit log. -/
inductive AuditEvent
  | authorized | executed | reconciled
  deriving DecidableEq

/-- A row of `external_action_audit`. -/
structure AuditRow where
  requestId : String
  event : AuditEvent
  failureClass : Option String
  reasonCode : PyStr
  detail : PyStr

/-- The row that `append_external_action_audit` inserts. -/
def auditRow (requestId : String) (event : AuditEvent) (failureClass : Option String)
    (reasonCode : PyStr) (detail : String := "") : AuditRow where
  requestId := requestId
  event := event
  failureClass := failureClass
  reasonCode := reasonCode.take 64
  detail := (PyStr.ofString detail).take 512

def authorizedDetail (decision : PolicyDecision) : Op → String
  | .authorizeOwner approvalId =>
    "authorized owner-gate (" ++ PolicyDecision.ownerGateRequired.value ++ "): approval " ++
      approvalId
  | .authorizeAutonomous | .execute _ | .redriveWaiting _ | .reconcile _ =>
    "authorized autonomous: " ++ decision.value

/-! ### What is due -/

/-- What `_expire` and `_deny` append: they catch the refusal of a transition, and go on. -/
def regardless (attempted : Except Fault BrokerDb) (row : AuditRow) : Option AuditRow :=
  match attempted with
  | .ok _ | .error .requestRevision | .error .illegalTransition => some row
  | .error .notFound | .error .leaseFenced | .error .unencodable => none

/-- What the others append: only what has happened. -/
def afterwards (attempted : Except Fault BrokerDb) (row : AuditRow) : Option AuditRow :=
  match attempted with
  | .ok _ => some row
  | .error _ => none

section

variable (d : Driver) (db : BrokerDb) (call : Call)

/-- The transition that a call asks for which appends to the log. -/
def attempted : Point → Except Fault BrokerDb
  | .expiring row => transitionRow db call.requestId row.state .blocked row.revision
      { lastFailureClass := some (some "PRECONDITION_FAILED"),
        lastErrorCode := some (fixedCode "EXPIRED") }
  | .denying row reason => transitionRow db call.requestId row.state .denied row.revision
      { lastFailureClass := some (some "POLICY_DENIED"),
        lastErrorCode := some (fixedCode reason) }
  | .authorizing row decision => transitionRow db call.requestId .pending .authorized row.revision
      { authorizationState := some decision.value, lastErrorCode := some none }
  | .settling row answer =>
    call.op.holder?.elim (.error .notFound) fun h =>
      (settlement d db.now h row answer).elim (.error .notFound) fun r =>
        transitionRowAuthoritative db (lockName row) h call.requestId row.state r.1 row.revision
          r.2
  | .recording row o =>
    call.op.holder?.elim (.error .notFound) fun h =>
      (if o.found = true then found o else none).elim (.error .notFound) fun cols =>
        transitionRowAuthoritative db (lockName row) h call.requestId row.state .succeeded
          row.revision cols
  | _ => .error .notFound

/-- The row of `_finalize`; a request that is put off is not noted. -/
def settledRow (row : RequestRow) (answer : Option Answer) : Option AuditRow :=
  call.op.holder?.bind fun h =>
    (settlement d db.now h row answer).bind fun r =>
      if r.1.isTerminal = true then
        some (auditRow call.requestId .executed (r.2.lastFailureClass.bind id)
          ((r.2.lastErrorCode.bind id).getD []))
      else none

/-- What a call has to append after a step from a point. -/
def dueAfter (p : Point) : Option AuditRow :=
  match p with
  | .expiring _ => regardless (attempted d db call p)
      (auditRow call.requestId .executed (some "PRECONDITION_FAILED") (PyStr.ofString "EXPIRED"))
  | .denying _ reason => regardless (attempted d db call p)
      (auditRow call.requestId .executed (some "POLICY_DENIED") (PyStr.ofString reason))
  | .authorizing _ decision => afterwards (attempted d db call p)
      (auditRow call.requestId .authorized none (PyStr.ofString "ALLOWED")
        (authorizedDetail decision call.op))
  | .settling row answer =>
    (settledRow d db call row answer).bind (afterwards (attempted d db call p))
  | .recording _ o =>
    if o.found = true then
      afterwards (attempted d db call p)
        (auditRow call.requestId .reconciled none (PyStr.ofString "RECONCILED_SUCCESS"))
    else some (auditRow call.requestId .reconciled none (PyStr.ofString "RECONCILED_NOT_FOUND"))
  | _ => none

end

/-! ### The system -/

/-- A transition of a request, with the class of the failure that it leaves in the row. -/
structure Move where
  requestId : String
  src : RequestState
  dst : RequestState
  failureClass : Option String
  deriving DecidableEq

/-- The transition of a request between two moments, as its row shows it. -/
def moved (db db' : BrokerDb) (id : String) : Option Move :=
  match db.requests id, db'.requests id with
  | some r, some r' =>
    if r'.revision = r.revision then none else some ⟨id, r.state, r'.state, r'.lastFailureClass⟩
  | _, _ => none

structure Audited extends System where
  audit : List (ℕ × AuditRow)
  due : ℕ → Option AuditRow
  moves : List (ℕ × Move)

namespace Audited

/-- A call appends a row, of a request that exists. -/
def append (s : Audited) (c : ℕ) (row : AuditRow) : Audited :=
  { s with
    audit := if (s.requests row.requestId).isSome then s.audit ++ [(c, row)] else s.audit
    due := Function.update s.due c none }

/-- A call takes its step. -/
def advance (d : Driver) (s : Audited) (c : ℕ) (call : Call) (answer : Answer) (seen : Observed) :
    Audited where
  toSystem := s.take c call (turn d s.toBrokerDb c call answer seen call.point)
  audit := s.audit
  due := Function.update s.due c (dueAfter d s.toBrokerDb call call.point)
  moves := s.moves ++ ((moved s.toBrokerDb
    (turn d s.toBrokerDb c call answer seen call.point).db call.requestId).map (c, ·)).toList

/-- A call stops for good. -/
def crash (d : Driver) (s : Audited) (c : ℕ) : Audited :=
  { s with
    toSystem := Calls.step d s.toSystem (.crash c)
    due := Function.update s.due c none }

def step (d : Driver) (s : Audited) (a : Act) : Audited :=
  match a with
  | .next c answer seen =>
    match s.due c with
    | some row => s.append c row
    | none =>
      match s.calls c with
      | none => s
      | some call => s.advance d c call answer seen
  | .crash c => if (s.calls c).isSome then s.crash d c else s
  | .create .. | .start .. | .approval _ | .writeJob .. | .acquire .. | .release .. | .reclaim _
  | .waits _ => { s with toSystem := Calls.step d s.toSystem a }

/-- The system before the first request. -/
def initial (queue : MergeQueue.Db) (approvals : String → Option ApprovalRow) : Audited where
  toSystem := Calls.initial queue approvals
  audit := []
  due := fun _ => none
  moves := []

/-- The system after a run. -/
def run (d : Driver) (queue : MergeQueue.Db) (approvals : String → Option ApprovalRow)
    (as : List Act) : Audited := Runs.run (step d) (initial queue approvals) as

end Audited

variable {d : Driver} {db db' : BrokerDb} {s : Audited} {c c' : ℕ} {call : Call} {answer : Answer}
  {seen : Observed} {p : Point} {row : RequestRow} {row' : AuditRow} {id : String} {α : Type}

/-! ### What a step makes of a request -/

theorem moved_congr {db₁ db₂ : BrokerDb} (h : db₁.requests = db₂.requests) :
    moved db db₁ id = moved db db₂ id := by
  rw [moved, moved, h]

theorem moved_self : moved db db id = none := by
  rw [moved]
  split
  next r r' hr hr' =>
    obtain rfl := Option.mem_unique hr hr'
    exact if_pos rfl
  · rfl

/-- A transition is read off the row. -/
theorem moved_of_transitionRow {src dst : RequestState} {revision : ℕ} {cols : Columns}
    (heq : transitionRow db id src dst revision cols = .ok db') :
    ∃ r, db.requests id = some r ∧ dst ∈ src.targets ∧
      moved db db' id = some ⟨id, src, dst, cols.lastFailureClass.getD r.lastFailureClass⟩ := by
  obtain ⟨r, hr, rfl, -, hedge, rfl⟩ := transitionRow_eq_ok heq
  refine ⟨r, hr, hedge, ?_⟩
  have hr' : (Function.update db.requests id (some (movedRow dst cols r))) id =
      some (movedRow dst cols r) := Function.update_self ..
  simp only [moved, hr, hr']
  exact if_neg (Nat.succ_ne_self _)

/-- A step that does not open an execution moves the request by the transition that is attempted,
or not at all. -/
theorem requests_turn_attempted (hp : ∀ row, p ≠ .opening row) :
    (turn d db c call answer seen p).db.requests =
      ((attempted d db call p).toOption.getD db).requests := by
  cases p with
  | reading =>
    rw [turn, readingTurn]
    split
    · rfl
    · split <;> rfl
  | expiry row =>
    rw [turn, expiryTurn]
    split <;> rfl
  | expiring | denying | policy | dispatching | returned => rfl
  | approval row =>
    rw [turn]
    cases call.op.approvalId? with
    | none => rfl
    | some approvalId =>
      rw [Option.elim_some, approvalTurn]
      split <;> rfl
  | approvalExpiry row ap =>
    rw [turn]
    split <;> rfl
  | binding row ap now =>
    rw [turn]
    split <;> rfl
  | consuming row ap job now =>
    rw [turn]
    cases call.op.approvalId? with
    | none => rfl
    | some approvalId =>
      rw [Option.elim_some, consumingTurn]
      split <;> rfl
  | authorizing row decision =>
    rw [turn, authorizingTurn, attempted]
    split
    next heq => rw [heq]; rfl
    next heq => rw [heq]; rfl
  | locking row =>
    rw [turn]
    cases call.op.holder? with
    | none => rfl
    | some h =>
      rw [Option.elim_some, lockingTurn]
      split
      · rfl
      · rfl
      · split <;> rfl
  | opening row => exact absurd rfl (hp row)
  | preparing row =>
    rw [turn, preparingTurn]
    split
    · rfl
    · split
      · rfl
      · split <;> rfl
  | settling row a =>
    rw [turn, attempted]
    cases call.op.holder? with
    | none => rfl
    | some h =>
      rw [Option.elim_some, Option.elim_some, settlingTurn]
      cases settlement d db.now h row a with
      | none | some => rfl
  | observing row =>
    rw [turn]
    cases seen.observation? <;> rfl
  | recording row o =>
    rw [turn, attempted]
    cases call.op.holder? with
    | none => rfl
    | some h =>
      rw [Option.elim_some, Option.elim_some, recordingTurn]
      cases (if o.found = true then found o else none) with
      | none | some => rfl
  | releasing row =>
    rw [turn]
    cases call.op.holder? <;> rfl

theorem moved_turn (hp : ∀ row, p ≠ .opening row) :
    moved db (turn d db c call answer seen p).db call.requestId =
      (attempted d db call p).toOption.bind (moved db · call.requestId) := by
  rw [moved_congr (requests_turn_attempted hp)]
  cases attempted d db call p with
  | ok db' => rfl
  | error e => exact moved_self

/-- Opening an execution moves the request to EXECUTING, or not at all. -/
theorem moved_opening {m : Move}
    (hm : moved db (turn d db c call answer seen (.opening row)).db call.requestId = some m) :
    m.dst = .executing := by
  rw [turn] at hm
  cases hop : call.op.holder? with
  | none =>
    rw [hop, Option.elim_none, moved_self] at hm
    cases hm
  | some h =>
    rw [hop, Option.elim_some, openingTurn] at hm
    split at hm
    next db' heq =>
      obtain ⟨-, -, hok⟩ := transitionRowAuthoritative_eq_ok heq
      obtain ⟨r, -, -, hmoved⟩ := moved_of_transitionRow hok
      obtain rfl := Option.mem_unique hmoved hm
      rfl
    · rw [moved_self] at hm
      cases hm

theorem eq_of_regardless {x : Except Fault BrokerDb} {r : AuditRow}
    (heq : regardless x r = some row') : row' = r := by
  unfold regardless at heq
  split at heq
  all_goals first | exact (Option.some.inj heq).symm | cases heq

theorem eq_of_afterwards {x : Except Fault BrokerDb} {r : AuditRow}
    (heq : afterwards x r = some row') : row' = r := by
  unfold afterwards at heq
  split at heq
  · exact (Option.some.inj heq).symm
  · cases heq

/-- What is due is about the request of the call, whose row it has read. -/
theorem dueAfter_eq_some (h : dueAfter d db call p = some row') :
    row'.requestId = call.requestId ∧ ∃ row, p.row? = some row := by
  cases p with
  | expiring row =>
    obtain rfl := eq_of_regardless h
    exact ⟨rfl, row, rfl⟩
  | denying row reason =>
    obtain rfl := eq_of_regardless h
    exact ⟨rfl, row, rfl⟩
  | authorizing row decision =>
    obtain rfl := eq_of_afterwards h
    exact ⟨rfl, row, rfl⟩
  | settling row answer =>
    obtain ⟨r, hr, hrow⟩ := Option.bind_eq_some_iff.mp h
    obtain rfl := eq_of_afterwards hrow
    refine ⟨?_, row, rfl⟩
    obtain ⟨h', -, hr⟩ := Option.bind_eq_some_iff.mp hr
    obtain ⟨r', -, hr⟩ := Option.bind_eq_some_iff.mp hr
    split at hr
    · exact congrArg AuditRow.requestId (Option.some.inj hr).symm
    · cases hr
  | recording row o =>
    rw [dueAfter] at h
    split at h
    · obtain rfl := eq_of_afterwards h
      exact ⟨rfl, row, rfl⟩
    · obtain rfl := Option.some.inj h
      exact ⟨rfl, row, rfl⟩
  | _ => cases h

/-! ### The log and the tables -/

namespace Audited

/-- The calls have read what there is, and what is due is about a request that exists. -/
structure Sound (s : Audited) : Prop where
  informed : AllInformed s.toSystem
  due : ∀ c row, s.due c = some row → (s.requests row.requestId).isSome = true

theorem isSome_of_rowsLater (h : RowsLater db db') (hid : (db.requests id).isSome) :
    (db'.requests id).isSome := by
  obtain ⟨r, hr⟩ := Option.isSome_iff_exists.mp hid
  obtain ⟨r', hr', -⟩ := h id r hr
  exact Option.isSome_iff_exists.mpr ⟨r', hr'⟩

theorem isSome_of_dueAfter (h : Informed db call) (hdue : dueAfter d db call call.point = some row')
    (hlater : RowsLater db db') : (db'.requests row'.requestId).isSome := by
  obtain ⟨hid, row, hrow⟩ := dueAfter_eq_some hdue
  obtain ⟨r, hr, -⟩ := h.seen row hrow
  exact isSome_of_rowsLater hlater (hid ▸ Option.isSome_iff_exists.mpr ⟨r, hr⟩)

theorem Sound.other (h : Sound s) (a : Act) :
    Sound { s with toSystem := Calls.step d s.toSystem a } where
  informed := allInformed_step h.informed a
  due c row hrow := isSome_of_rowsLater (onward_step s.toSystem a).rows (h.due c row hrow)

theorem Sound.step (h : Sound s) (a : Act) : Sound (step d s a) := by
  cases a with
  | next c answer seen =>
    rw [Audited.step]
    split
    next row hrow =>
      refine ⟨h.informed, fun c' row' hrow' => ?_⟩
      by_cases hc : c' = c
      · subst hc
        have hdue : (s.append c' row).due c' = none := Function.update_self ..
        cases hdue.symm.trans hrow'
      · exact h.due c' row' ((Function.update_of_ne hc ..).symm.trans hrow')
    next hnone =>
      split
      · exact h
      next call hcall =>
        have hstep : Calls.step d s.toSystem (.next c answer seen) =
            s.take c call (turn d s.toBrokerDb c call answer seen call.point) := by
          rw [Calls.step, hcall]
        have hlater := (onward_step (d := d) s.toSystem (.next c answer seen)).rows
        have hinformed := allInformed_step (d := d) h.informed (.next c answer seen)
        rw [hstep] at hlater hinformed
        refine ⟨hinformed, fun c' row' hrow' => ?_⟩
        by_cases hc : c' = c
        · subst hc
          exact isSome_of_dueAfter (h.informed c' call hcall)
            ((Function.update_self c' _ s.due).symm.trans hrow') hlater
        · exact isSome_of_rowsLater hlater
            (h.due c' row' ((Function.update_of_ne hc ..).symm.trans hrow'))
  | crash c =>
    have hother := h.other (d := d) (.crash c)
    rw [Audited.step]
    split
    case isFalse => exact h
    refine ⟨hother.informed, fun c' row' hrow' => ?_⟩
    by_cases hc : c' = c
    · subst hc
      have hdue : (s.crash d c').due c' = none := Function.update_self ..
      cases hdue.symm.trans hrow'
    · exact hother.due c' row' ((Function.update_of_ne hc ..).symm.trans hrow')
  | _ => exact h.other _

variable {queue : MergeQueue.Db} {approvals : String → Option ApprovalRow} {as : List Act}

theorem sound_run : Sound (run d queue approvals as) :=
  Runs.run_always (fun s a h => h.step a)
    ⟨fun _ _ hcall => (by cases hcall), fun _ _ hrow => (by cases hrow)⟩

end Audited

/-! ### One call -/

def Event.caller : Event → ℕ
  | .unexpired c .. | .evaluated c .. | .consumed c .. | .authorized c _ | .dispatched c _
  | .answered c .. | .observed c _ => c

/-- What there is of one call. -/
@[ext]
structure Trace where
  call : Option Call
  due : Option AuditRow
  rows : List AuditRow
  moves : List Move
  notes : List Event

def ofCall {α : Type} (c : ℕ) (xs : List (ℕ × α)) : List α :=
  (xs.filter (·.1 = c)).map Prod.snd

theorem ofCall_append (xs ys : List (ℕ × α)) :
    ofCall c (xs ++ ys) = ofCall c xs ++ ofCall c ys := by
  rw [ofCall, List.filter_append, List.map_append]
  rfl

theorem ofCall_own (x : Option α) : ofCall c (x.map (c, ·)).toList = x.toList := by
  cases x <;> simp [ofCall]

theorem ofCall_other (hc : c' ≠ c) (x : Option α) :
    ofCall c (x.map (c', ·)).toList = [] := by
  cases x <;> simp [ofCall, hc]

theorem mem_ofCall {xs : List (ℕ × α)} {x : α} : x ∈ ofCall c xs ↔ (c, x) ∈ xs := by
  simp [ofCall]

/-- The notes of a step are of the call that takes it. -/
theorem caller_of_mem_notes {e : Event} (he : e ∈ (turn d db c call answer seen p).notes) :
    e.caller = c := by
  have hleads : Leads d db (turn d db c call answer seen p).db c call p
      (turn d db c call answer seen p).point (turn d db c call answer seen p).notes :=
    leads_turn ..
  generalize turn d db c call answer seen p = t at he hleads
  obtain ⟨db', q, es⟩ := t
  cases hleads with
  | unexpired | policy | consumed | authorized | observing | dispatched | answered =>
    obtain rfl := List.mem_singleton.mp he
    rfl
  | _ => cases he

namespace Audited

/-- What there is of a call. -/
def trace (s : Audited) (c : ℕ) : Trace where
  call := s.calls c
  due := s.due c
  rows := ofCall c s.audit
  moves := ofCall c s.moves
  notes := s.log.filter (·.caller = c)

end Audited

/-- What a step of the system makes of one call. -/
inductive Trace.Step (d : Driver) (s : Audited) (a : Act) (c : ℕ) : Trace → Prop
  | stays (h : ∀ call, s.calls c = some call →
      a ≠ .crash c ∧ ∀ answer seen, a ≠ .next c answer seen) : Step d s a c (s.trace c)
  | begins (op : Op) (requestId : String) (h : s.calls c = .none)
    (ha : a = .start c op requestId) :
    Step d s a c { s.trace c with call := some ⟨op, requestId, .reading⟩ }
  | appends (answer : Answer) (seen : Observed) (row : AuditRow) (h : s.due c = some row)
    (ha : a = .next c answer seen) :
    Step d s a c { s.trace c with due := .none, rows := (s.trace c).rows ++ [row] }
  | turns (answer : Answer) (seen : Observed) (call : Call) (h : s.due c = .none)
    (hcall : s.calls c = some call) (ha : a = .next c answer seen) :
    Step d s a c
      { call := some { call with
          point := (turn d s.toBrokerDb c call answer seen call.point).point }
        due := dueAfter d s.toBrokerDb call call.point
        rows := (s.trace c).rows
        moves := (s.trace c).moves ++ (moved s.toBrokerDb
          (turn d s.toBrokerDb c call answer seen call.point).db call.requestId).toList
        notes := (s.trace c).notes ++
          (turn d s.toBrokerDb c call answer seen call.point).notes }
  | crashes (call : Call) (hcall : s.calls c = some call) (ha : a = .crash c) :
    Step d s a c
      { s.trace c with call := some { call with point := .returned }, due := .none }

theorem filter_caller_turn (hc : c' ≠ c) (log : List Event) :
    (log ++ (turn d db c' call answer seen p).notes).filter (·.caller = c) =
      log.filter (·.caller = c) := by
  have hnil : (turn d db c' call answer seen p).notes.filter (·.caller = c) = [] := by
    refine List.filter_eq_nil_iff.mpr fun e he => ?_
    rw [caller_of_mem_notes he]
    simpa using hc
  rw [List.filter_append, hnil, List.append_nil]

theorem filter_caller_own (log : List Event) :
    (log ++ (turn d db c call answer seen p).notes).filter (·.caller = c) =
      log.filter (·.caller = c) ++ (turn d db c call answer seen p).notes := by
  rw [List.filter_append]
  congr 1
  exact List.filter_eq_self.mpr fun e he => decide_eq_true (caller_of_mem_notes he)

namespace Audited

theorem trace_append (hrow : (s.requests row'.requestId).isSome) :
    (s.append c row').trace c =
      { s.trace c with due := .none, rows := (s.trace c).rows ++ [row'] } := by
  refine Trace.ext rfl (Function.update_self ..) ?_ rfl rfl
  change ofCall c (if _ then _ else _) = _
  rw [if_pos hrow, ofCall_append]
  exact congrArg _ (ofCall_own (some row'))

theorem trace_append_of_ne (hc : c' ≠ c) : (s.append c' row').trace c = s.trace c := by
  refine Trace.ext rfl (Function.update_of_ne (Ne.symm hc) ..) ?_ rfl rfl
  change ofCall c (if _ then _ else _) = _
  split
  · rw [ofCall_append]
    exact (congrArg _ (ofCall_other hc (some row'))).trans (List.append_nil _)
  · rfl

theorem trace_advance : (s.advance d c call answer seen).trace c =
    { call := some { call with
        point := (turn d s.toBrokerDb c call answer seen call.point).point }
      due := dueAfter d s.toBrokerDb call call.point
      rows := (s.trace c).rows
      moves := (s.trace c).moves ++ (moved s.toBrokerDb
        (turn d s.toBrokerDb c call answer seen call.point).db call.requestId).toList
      notes := (s.trace c).notes ++
        (turn d s.toBrokerDb c call answer seen call.point).notes } :=
  Trace.ext (Function.update_self ..) (Function.update_self ..) rfl
    ((ofCall_append ..).trans (congrArg _ (ofCall_own _))) (filter_caller_own _)

theorem trace_advance_of_ne (hc : c' ≠ c) :
    (s.advance d c' call answer seen).trace c = s.trace c :=
  Trace.ext (Function.update_of_ne (Ne.symm hc) ..) (Function.update_of_ne (Ne.symm hc) ..) rfl
    ((ofCall_append ..).trans ((congrArg _ (ofCall_other hc _)).trans (List.append_nil _)))
    (filter_caller_turn hc _)

theorem trace_crash (hcall : s.calls c = some call) :
    (s.crash d c).trace c =
      { s.trace c with call := some { call with point := .returned }, due := .none } := by
  have hsys : Calls.step d s.toSystem (.crash c) = s.goTo c call .returned := by
    rw [Calls.step, hcall]
  refine Trace.ext ?_ (Function.update_self ..) rfl rfl ?_
  · change (Calls.step d s.toSystem (.crash c)).calls c = _
    rw [hsys]
    exact System.calls_goTo_self
  · change (Calls.step d s.toSystem (.crash c)).log.filter _ = _
    rw [hsys]
    rfl

theorem trace_crash_of_ne (hc : c' ≠ c) : (s.crash d c').trace c = s.trace c := by
  have hcalls : (Calls.step d s.toSystem (.crash c')).calls c = s.calls c := by
    rw [Calls.step]
    split
    · rfl
    · exact System.calls_goTo_of_ne (Ne.symm hc)
  have hlog : (Calls.step d s.toSystem (.crash c')).log = s.log := by
    rw [Calls.step]
    split <;> rfl
  refine Trace.ext hcalls (Function.update_of_ne (Ne.symm hc) ..) rfl rfl ?_
  change (Calls.step d s.toSystem (.crash c')).log.filter _ = _
  rw [hlog]
  rfl

variable {op : Op}

theorem trace_start :
    ({ s with toSystem := s.goTo c ⟨op, id, .reading⟩ .reading } : Audited).trace c =
    { s.trace c with call := some ⟨op, id, .reading⟩ } :=
  Trace.ext System.calls_goTo_self rfl rfl rfl rfl

theorem trace_start_of_ne (hc : c' ≠ c) :
    ({ s with toSystem := s.goTo c' ⟨op, id, .reading⟩ .reading } : Audited).trace c =
      s.trace c :=
  Trace.ext (System.calls_goTo_of_ne (Ne.symm hc)) rfl rfl rfl rfl

end Audited

/-- **What a step of the system makes of one call.** -/
theorem Audited.Sound.trace_step (h : s.Sound) (a : Act) (c : ℕ) :
    Trace.Step d s a c ((Audited.step d s a).trace c) := by
  cases a with
  | next c' answer seen =>
    rw [Audited.step]
    by_cases hc : c' = c
    · subst hc
      split
      next row hrow =>
        rw [trace_append (h.due c' row hrow)]
        exact .appends answer seen row hrow rfl
      next hnone =>
        split
        next hcall => exact .stays fun call hcall' => by cases hcall.symm.trans hcall'
        next call hcall =>
          rw [trace_advance]
          exact .turns answer seen call hnone hcall rfl
    · have hstays : Trace.Step d s (.next c' answer seen) c (s.trace c) := by
        refine .stays fun call _ => ⟨by rintro ⟨⟩, ?_⟩
        rintro _ _ ⟨⟩
        exact hc rfl
      split
      next row hrow =>
        rw [trace_append_of_ne hc]
        exact hstays
      · split
        · exact hstays
        next call hcall =>
          rw [trace_advance_of_ne hc]
          exact hstays
  | crash c' =>
    rw [Audited.step]
    by_cases hc : c' = c
    · subst hc
      cases hcall : s.calls c' with
      | none => exact .stays fun call hcall' => by cases hcall.symm.trans hcall'
      | some call =>
        rw [if_pos (by rfl), trace_crash hcall]
        exact .crashes call hcall rfl
    · have hstays : Trace.Step d s (.crash c') c (s.trace c) :=
        .stays fun call _ => ⟨fun heq => hc (Act.crash.inj heq), by rintro _ _ ⟨⟩⟩
      split
      · rw [trace_crash_of_ne hc]
        exact hstays
      · exact hstays
  | start c' op requestId =>
    rw [Audited.step, Calls.step]
    split
    next hnone =>
      by_cases hc : c' = c
      · subst hc
        rw [trace_start]
        exact .begins op requestId (Option.isNone_iff_eq_none.mp hnone) rfl
      · rw [trace_start_of_ne hc]
        exact .stays fun call _ => ⟨by rintro ⟨⟩, by rintro _ _ ⟨⟩⟩
    · exact .stays fun call _ => ⟨by rintro ⟨⟩, by rintro _ _ ⟨⟩⟩
  | create r v expiresAt =>
    have hstays : Trace.Step d s (.create r v expiresAt) c (s.trace c) :=
      .stays fun call _ => ⟨by rintro ⟨⟩, by rintro _ _ ⟨⟩⟩
    rw [Audited.step, Calls.step]
    split <;> exact hstays
  | _ => exact .stays fun call _ => ⟨by rintro ⟨⟩, by rintro _ _ ⟨⟩⟩

end Calls

end Broker

end ArgentTeam
