import ArgentTeam.Broker.Calls

/-!
# What the calls have read

Which transition a call asks for at which point (`Asks`), and that a step changes the requests
by such a transition or not at all (`requests_turn`). The row of a request only moves on, with a
revision that grows, and does not move any more once it is terminal (`Later`); so what a call has
read is the row itself or an earlier one (`allInformed_step`).
-/

namespace ArgentTeam

open MergeQueue (Holder jobHoldsCurrentLease)

namespace Broker

namespace Calls

variable {d : Driver} {db db' : BrokerDb} {s : System} {c : ℕ} {call : Call} {answer : Answer}
  {seen : Observed} {p : Point} {row : RequestRow} {id : String} {src dst : RequestState}
  {cols : Columns}

/-! ### The transitions the calls ask for -/

/-- A call at a point asks for a transition of the row it has read: from a state, to a state,
writing some columns, with a fence or without. -/
inductive Asks (d : Driver) (now : Time) (op : Op) :
    Point → RequestRow → RequestState → RequestState → Columns → Option Holder → Prop
  | expire (row : RequestRow) (cols : Columns) (h : cols.attemptCount = none) :
    Asks d now op (.expiring row) row row.state .blocked cols none
  | deny (row : RequestRow) (reason : String) (cols : Columns) (h : cols.attemptCount = none) :
    Asks d now op (.denying row reason) row row.state .denied cols none
  | authorize (row : RequestRow) (decision : PolicyDecision) (cols : Columns)
    (h : cols.attemptCount = none) :
    Asks d now op (.authorizing row decision) row .pending .authorized cols none
  | open (row : RequestRow) (h : Holder) (hop : op.holder? = some h) :
    Asks d now op (.opening row) row row.state .executing { holder := some (some h) } (some h)
  | settle (row : RequestRow) (a : Option Answer) (h : Holder) (dst : RequestState)
    (cols : Columns) (hop : op.holder? = some h)
    (hset : settlement d now h row a = some (dst, cols)) :
    Asks d now op (.settling row a) row row.state dst cols (some h)
  | record (row : RequestRow) (o : ProviderObservation) (h : Holder) (cols : Columns)
    (hop : op.holder? = some h) (hfound : o.found = true ∧ found o = some cols) :
    Asks d now op (.recording row o) row row.state .succeeded cols (some h)

/-- The one who asks for a fenced transition has the lease and the lock. -/
def Fenced (db : BrokerDb) (row : RequestRow) (fence : Option Holder) : Prop :=
  ∀ h ∈ fence, jobHoldsCurrentLease db.toDb h = true ∧ db.locks (lockName row) = some h

/-- A transition that a call at a point asks for goes through. -/
def Goes (d : Driver) (db : BrokerDb) (call : Call) (p : Point) (db' : BrokerDb) : Prop :=
  ∃ row src dst cols fence, Asks d db.now call.op p row src dst cols fence ∧
    Fenced db row fence ∧ transitionRow db call.requestId src dst row.revision cols = .ok db'

theorem attempt_cases {x : Except Fault BrokerDb} :
    (Turn.attempt db x p).db = db ∨ x = .ok (Turn.attempt db x p).db := by
  cases x with
  | error e => exact .inl rfl
  | ok db' => exact .inr rfl

variable (d db c call answer seen p) in
/-- A step of a call that makes a transition is the step of one that asks for it. -/
theorem requests_turn : (turn d db c call answer seen p).db.requests = db.requests ∨
    Goes d db call p (turn d db c call answer seen p).db := by
  have hauthoritative : ∀ {row src dst cols h q},
      Asks d db.now call.op p row src dst cols (some h) →
      let t := Turn.attempt db (transitionRowAuthoritative db (lockName row)
        h call.requestId src dst
        row.revision cols) q
      t.db.requests = db.requests ∨ Goes d db call p t.db := by
    intro row src dst cols h q hasks
    rcases attempt_cases with heq | heq
    · exact .inl (congrArg BrokerDb.requests heq)
    · obtain ⟨hlease, hlock, hok⟩ := transitionRowAuthoritative_eq_ok heq
      refine .inr ⟨row, src, dst, cols, some h, hasks, ?_, hok⟩
      rintro _ ⟨⟩
      exact ⟨hlease, hlock⟩
  have hplain : ∀ {row src dst cols q}, Asks d db.now call.op p row src dst cols none →
      let t := Turn.attempt db (transitionRow db call.requestId src dst row.revision cols) q
      t.db.requests = db.requests ∨ Goes d db call p t.db := by
    intro row src dst cols q hasks
    rcases attempt_cases with heq | heq
    · exact .inl (congrArg BrokerDb.requests heq)
    · refine .inr ⟨row, src, dst, cols, none, hasks, ?_, heq⟩
      rintro h ⟨⟩
  cases p with
  | reading =>
    left
    rw [turn, readingTurn]
    split
    · rfl
    · split <;> rfl
  | expiry row =>
    left
    rw [turn, expiryTurn]
    split <;> rfl
  | expiring row => exact hplain (.expire row _ rfl)
  | policy | dispatching | returned => exact .inl rfl
  | denying row reason => exact hplain (.deny row reason _ rfl)
  | approval row =>
    left
    rw [turn]
    cases call.op.approvalId? with
    | none => rfl
    | some approvalId =>
      rw [Option.elim_some, approvalTurn]
      split <;> rfl
  | approvalExpiry | binding =>
    left
    rw [turn]
    split <;> rfl
  | consuming row ap job now =>
    left
    rw [turn]
    cases call.op.approvalId? with
    | none => rfl
    | some approvalId =>
      rw [Option.elim_some, consumingTurn]
      split <;> rfl
  | authorizing row decision =>
    rw [turn, authorizingTurn]
    split
    next db' heq =>
      refine .inr ⟨row, _, _, _, none, .authorize row decision _ rfl, ?_, heq⟩
      rintro h ⟨⟩
    · exact .inl rfl
  | locking row =>
    left
    rw [turn]
    cases call.op.holder? with
    | none => rfl
    | some h =>
      rw [Option.elim_some, lockingTurn]
      split
      · rfl
      · rfl
      · split <;> rfl
  | opening row =>
    rw [turn]
    cases hop : call.op.holder? with
    | none => exact .inl rfl
    | some h =>
      rw [Option.elim_some, openingTurn]
      split
      next db' heq =>
        obtain ⟨hlease, hlock, hok⟩ := transitionRowAuthoritative_eq_ok heq
        refine .inr ⟨row, _, _, _, some h, .open row h hop, ?_, hok⟩
        rintro _ ⟨⟩
        exact ⟨hlease, hlock⟩
      · exact .inl rfl
  | preparing row =>
    left
    rw [turn, preparingTurn]
    split
    · rfl
    · split
      · rfl
      · split <;> rfl
  | settling row a =>
    rw [turn]
    cases hop : call.op.holder? with
    | none => exact .inl rfl
    | some h =>
      rw [Option.elim_some, settlingTurn]
      split
      · exact .inl rfl
      next dst cols hset => exact hauthoritative (.settle row a h dst cols hop hset)
  | observing row =>
    left
    rw [turn]
    cases seen.observation? <;> rfl
  | recording row o =>
    rw [turn]
    cases hop : call.op.holder? with
    | none => exact .inl rfl
    | some h =>
      rw [Option.elim_some, recordingTurn]
      split
      · exact .inl rfl
      next cols hfound =>
        refine hauthoritative (.record row o h cols hop ?_)
        split at hfound
        next hyes => exact ⟨hyes, hfound⟩
        · cases hfound
  | releasing row =>
    left
    rw [turn]
    cases call.op.holder? <;> rfl

/-! ### Rows move on -/

/-- A row is the other one, or comes after it: it is of the same request, and the other one was
not terminal. -/
def Later (r r' : RequestRow) : Prop :=
  asked r' = asked r ∧ (r' = r ∨ r.state.isTerminal = false ∧ r.revision < r'.revision)

theorem Later.refl (r : RequestRow) : Later r r := ⟨rfl, .inl rfl⟩

theorem Later.trans {r r' r'' : RequestRow} (h : Later r r') (h' : Later r' r'') :
    Later r r'' := by
  refine ⟨h'.1.trans h.1, ?_⟩
  rcases h.2 with rfl | ⟨hopen, hlt⟩
  · exact h'.2
  · rcases h'.2 with rfl | ⟨-, hlt'⟩
    · exact .inr ⟨hopen, hlt⟩
    · exact .inr ⟨hopen, hlt.trans hlt'⟩

theorem Later.eq_of_revision {r r' : RequestRow} (h : Later r r')
    (hrev : r.revision = r'.revision) : r' = r := by
  rcases h.2 with heq | ⟨-, hlt⟩
  · exact heq
  · omega

theorem Later.eq_of_isTerminal {r r' : RequestRow} (h : Later r r')
    (hterminal : r.state.isTerminal) : r' = r := by
  rcases h.2 with heq | ⟨hopen, -⟩
  · exact heq
  · rw [hterminal] at hopen
    cases hopen

/-- The requests of a system and of a later one. -/
def RowsLater (db db' : BrokerDb) : Prop :=
  ∀ id r, db.requests id = some r → ∃ r', db'.requests id = some r' ∧ Later r r'

theorem RowsLater.of_requests (h : db'.requests = db.requests) : RowsLater db db' :=
  fun _ r hr => ⟨r, h ▸ hr, .refl r⟩

theorem rowsLater_transitionRow {revision : ℕ}
    (h : transitionRow db id src dst revision cols = .ok db') :
    RowsLater db db' := by
  obtain ⟨r, hr, hsrc, -, hedge, rfl⟩ := transitionRow_eq_ok h
  intro id' r' hr'
  by_cases hid : id' = id
  · subst hid
    obtain rfl : r = r' := Option.mem_unique hr hr'
    refine ⟨_, Function.update_self .., rfl, .inr ⟨?_, Nat.lt_succ_self _⟩⟩
    rw [hsrc]
    cases hterminal : src.isTerminal with
    | false => rfl
    | true =>
      rw [RequestState.targets_of_isTerminal hterminal] at hedge
      exact absurd hedge List.not_mem_nil
  · exact ⟨r', (Function.update_of_ne hid ..).trans hr', .refl r'⟩

theorem rowsLater_turn : RowsLater db (turn d db c call answer seen p).db := by
  rcases requests_turn _ _ _ _ _ _ _ with h | ⟨row, src, dst, cols, fence, -, -, hok⟩
  · exact .of_requests h
  · exact rowsLater_transitionRow hok

@[simp]
theorem requests_writeApproval (op : ApprovalOp) :
    (writeApproval db op).requests = db.requests := by
  have hpatch : ∀ id p f, (patchApproval db id p f).requests = db.requests := by
    intro id p f
    unfold patchApproval
    split <;> rfl
  cases op with
  | insert ap =>
    rw [writeApproval]
    split <;> rfl
  | _ => exact hpatch ..

/-- The requests only move on. -/
theorem rowsLater_step (s : System) (a : Act) : RowsLater s.toBrokerDb (step d s a).toBrokerDb := by
  cases a with
  | create r v expiresAt =>
    rw [step]
    split
    next hnone =>
      intro id r' hr'
      have hid : id ≠ (newRow d r v expiresAt).requestId := by
        rintro rfl
        rw [hnone] at hr'
        cases hr'
      exact ⟨r', (Function.update_of_ne hid ..).trans hr', .refl r'⟩
    · exact .of_requests rfl
  | start | crash =>
    rw [step]
    split <;> exact .of_requests rfl
  | next c answer seen =>
    rw [step]
    split
    · exact .of_requests rfl
    · exact rowsLater_turn
  | approval op => exact .of_requests (requests_writeApproval op)
  | _ => exact .of_requests rfl

theorem RowsLater.trans {db₁ db₂ db₃ : BrokerDb} (h : RowsLater db₁ db₂) (h' : RowsLater db₂ db₃) :
    RowsLater db₁ db₃ := by
  intro id r hr
  obtain ⟨r', hr', hlater⟩ := h id r hr
  obtain ⟨r'', hr'', hlater'⟩ := h' id r' hr'
  exact ⟨r'', hr'', hlater.trans hlater'⟩

theorem rowsLater_run (as : List Act) :
    RowsLater s.toBrokerDb (Runs.run (step d) s as).toBrokerDb :=
  Runs.run_always (I := fun s' : System => RowsLater s.toBrokerDb s'.toBrokerDb)
    (fun s' a h => h.trans (rowsLater_step s' a)) (.of_requests rfl)

/-! ### Approvals move on -/

/-- What an approval was given for is not written again, and a consumed one stays consumed. -/
def ApprovalLater (a a' : ApprovalRow) : Prop :=
  (a'.taskId = a.taskId ∧ a'.action = a.action ∧ a'.scope = a.scope ∧
    a'.bindingHash = a.bindingHash ∧ a'.expiresAt = a.expiresAt ∧ a'.sourceClass = a.sourceClass) ∧
      (a.status = .consumed → a'.status = .consumed)

theorem ApprovalLater.refl (a : ApprovalRow) : ApprovalLater a a :=
  ⟨⟨rfl, rfl, rfl, rfl, rfl, rfl⟩, id⟩

theorem ApprovalLater.trans {a a' a'' : ApprovalRow} (h : ApprovalLater a a')
    (h' : ApprovalLater a' a'') : ApprovalLater a a'' := by
  obtain ⟨⟨h₁, h₂, h₃, h₄, h₅, h₆⟩, hconsumed⟩ := h
  obtain ⟨⟨h₁', h₂', h₃', h₄', h₅', h₆'⟩, hconsumed'⟩ := h'
  exact ⟨⟨h₁'.trans h₁, h₂'.trans h₂, h₃'.trans h₃, h₄'.trans h₄, h₅'.trans h₅, h₆'.trans h₆⟩,
    hconsumed' ∘ hconsumed⟩

def ApprovalsLater (db db' : BrokerDb) : Prop :=
  ∀ id a, db.approvals id = some a → ∃ a', db'.approvals id = some a' ∧ ApprovalLater a a'

theorem ApprovalsLater.of_approvals (h : db'.approvals = db.approvals) : ApprovalsLater db db' :=
  fun _ a ha => ⟨a, h ▸ ha, .refl a⟩

theorem approvalsLater_update {a a' : ApprovalRow}
    (ha : db.approvals id = some a) (hlater : ApprovalLater a a') :
    ApprovalsLater db { db with approvals := Function.update db.approvals id (some a') } := by
  intro id' b hb
  by_cases hid : id' = id
  · subst hid
    obtain rfl : a = b := Option.mem_unique ha hb
    exact ⟨a', Function.update_self .., hlater⟩
  · exact ⟨b, (Function.update_of_ne hid ..).trans hb, .refl b⟩

theorem approvalsLater_patch {when : OwnerApproval → Bool}
    {write : OwnerApproval → OwnerApproval}
    (hwrite : ∀ a : ApprovalRow, when a.toOwnerApproval →
      ApprovalLater a { a with toOwnerApproval := write a.toOwnerApproval }) :
    ApprovalsLater db (patchApproval db id when write) := by
  unfold patchApproval
  split
  · exact .of_approvals rfl
  next a ha =>
    obtain ⟨ha, hwhen⟩ := Option.filter_eq_some_iff.mp ha
    exact approvalsLater_update ha (hwrite a hwhen)

theorem approvalsLater_writeApproval (op : ApprovalOp) :
    ApprovalsLater db (writeApproval db op) := by
  have hkeeps : ∀ {a : ApprovalRow} {b : OwnerApproval}, b.taskId = a.taskId ∧
      b.action = a.action ∧ b.scope = a.scope ∧ b.bindingHash = a.bindingHash ∧
      b.expiresAt = a.expiresAt → (a.status = .consumed → False) →
        ApprovalLater a { a with toOwnerApproval := b } := by
    rintro a b ⟨htask, haction, hscope, hbinding, hexpires⟩ hstatus
    exact ⟨⟨htask, haction, hscope, hbinding, hexpires, rfl⟩, fun h => (hstatus h).elim⟩
  cases op with
  | insert ap =>
    rw [writeApproval]
    split
    next hnone =>
      intro id a ha
      have hid : id ≠ ap.id.text := by
        rintro rfl
        rw [hnone] at ha
        cases ha
      exact ⟨a, (Function.update_of_ne hid ..).trans ha, .refl a⟩
    · exact .of_approvals rfl
  | markApproved | markRejected | consumeWithExecution =>
    refine approvalsLater_patch fun a hwhen => hkeeps ⟨rfl, rfl, rfl, rfl, rfl⟩ fun hstatus => ?_
    simp [hstatus] at hwhen
  | markExpired id =>
    refine approvalsLater_patch fun a hwhen => hkeeps ⟨rfl, rfl, rfl, rfl, rfl⟩ fun hstatus => ?_
    simp [hstatus, ApprovalStatus.live] at hwhen

theorem consumable_eq_some {now : Time} {a : ApprovalRow}
    (h : consumable db id now = some a) :
    db.approvals id = some a ∧ a.status = .approved ∧ now < a.expiresAt := by
  obtain ⟨ha, hwhen⟩ := Option.filter_eq_some_iff.mp h
  exact ⟨ha, of_decide_eq_true hwhen⟩

theorem approvals_attempt {revision : ℕ}
    {x : Except Fault BrokerDb}
    (hx : ∀ db', x = .ok db' → transitionRow db id src dst revision cols = .ok db') :
    ApprovalsLater db (Turn.attempt db x p).db := by
  rcases attempt_cases (x := x) (p := p) with heq | heq
  · exact .of_approvals (congrArg BrokerDb.approvals heq)
  · exact .of_approvals (approvals_of_transitionRow (hx _ heq))

/-- The approvals a step writes are those it consumes. -/
theorem approvalsLater_turn : ApprovalsLater db (turn d db c call answer seen p).db := by
  cases p with
  | reading =>
    rw [turn, readingTurn]
    split
    · exact .of_approvals rfl
    · split <;> exact .of_approvals rfl
  | expiry row =>
    rw [turn, expiryTurn]
    split <;> exact .of_approvals rfl
  | expiring | denying => exact approvals_attempt fun _ heq => heq
  | approval row =>
    rw [turn]
    cases call.op.approvalId? with
    | none => exact .of_approvals rfl
    | some approvalId =>
      rw [Option.elim_some, approvalTurn]
      split <;> exact .of_approvals rfl
  | approvalExpiry | binding =>
    rw [turn]
    split <;> exact .of_approvals rfl
  | consuming row ap job now =>
    rw [turn]
    cases call.op.approvalId? with
    | none => exact .of_approvals rfl
    | some approvalId =>
      rw [Option.elim_some, consumingTurn]
      split
      · exact .of_approvals rfl
      next a ha =>
        exact approvalsLater_update (consumable_eq_some ha).1
          ⟨⟨rfl, rfl, rfl, rfl, rfl, rfl⟩, fun _ => rfl⟩
  | authorizing row decision =>
    rw [turn, authorizingTurn]
    split
    next db' heq => exact .of_approvals (approvals_of_transitionRow heq)
    · exact .of_approvals rfl
  | locking row =>
    rw [turn]
    cases call.op.holder? with
    | none => exact .of_approvals rfl
    | some h =>
      rw [Option.elim_some, lockingTurn]
      split
      · exact .of_approvals rfl
      · exact .of_approvals rfl
      · split <;> exact .of_approvals rfl
  | opening row =>
    rw [turn]
    cases call.op.holder? with
    | none => exact .of_approvals rfl
    | some h =>
      rw [Option.elim_some, openingTurn]
      split
      next db' heq =>
        obtain ⟨-, -, hok⟩ := transitionRowAuthoritative_eq_ok heq
        exact .of_approvals (approvals_of_transitionRow hok)
      · exact .of_approvals rfl
  | preparing row =>
    rw [turn, preparingTurn]
    split
    · exact .of_approvals rfl
    · split
      · exact .of_approvals rfl
      · split <;> exact .of_approvals rfl
  | settling row a =>
    rw [turn]
    cases call.op.holder? with
    | none => exact .of_approvals rfl
    | some h =>
      rw [Option.elim_some, settlingTurn]
      split
      · exact .of_approvals rfl
      · exact approvals_attempt fun _ heq => (transitionRowAuthoritative_eq_ok heq).2.2
  | observing row =>
    rw [turn]
    cases seen.observation? <;> exact .of_approvals rfl
  | recording row o =>
    rw [turn]
    cases call.op.holder? with
    | none => exact .of_approvals rfl
    | some h =>
      rw [Option.elim_some, recordingTurn]
      split
      · exact .of_approvals rfl
      · exact approvals_attempt fun _ heq => (transitionRowAuthoritative_eq_ok heq).2.2
  | releasing row =>
    rw [turn]
    cases call.op.holder? <;> exact .of_approvals rfl
  | _ => exact .of_approvals rfl

/-- The requests and the approvals move on. -/
structure Onward (db db' : BrokerDb) : Prop where
  rows : RowsLater db db'
  approvals : ApprovalsLater db db'

theorem onward_turn : Onward db (turn d db c call answer seen p).db :=
  ⟨rowsLater_turn, approvalsLater_turn⟩

theorem onward_step (s : System) (a : Act) : Onward s.toBrokerDb (step d s a).toBrokerDb := by
  refine ⟨rowsLater_step s a, ?_⟩
  cases a with
  | create | start | crash =>
    rw [step]
    split <;> exact .of_approvals rfl
  | next c answer seen =>
    rw [step]
    split
    · exact .of_approvals rfl
    · exact approvalsLater_turn
  | approval op => exact approvalsLater_writeApproval op
  | _ => exact .of_approvals rfl

/-! ### Where a step leads -/

/-- The row a call at a point has read. -/
def Point.row? : Point → Option RequestRow
  | reading | returned => none
  | expiry row | expiring row | policy row | denying row _ | approval row | approvalExpiry row _
  | binding row _ _ | consuming row _ _ _ | authorizing row _ | locking row | opening row
  | preparing row | dispatching row | settling row _ | observing row | recording row _
  | releasing row => some row

/-- A step from this point moves the request, or the call gives up. -/
def Point.isMove : Point → Bool
  | opening _ | authorizing .. => true
  | _ => false

/-- A step leads a call from a point to a point, and notes something; `db'` are the tables it
leaves. -/
inductive Leads (d : Driver) (db db' : BrokerDb) (c : ℕ) (call : Call) :
    Point → Point → List Event → Prop
  | stop (p : Point) (hkeep : p.isMove = true → db' = db) :
    Leads d db db' c call p .returned []
  /-- It gives up under the lock, or is done. -/
  | release (p : Point) (row : RequestRow) (hrow : p.row? = some row)
    (hkeep : p.isMove = true → db' = db) : Leads d db db' c call p (.releasing row) []
  | read (row : RequestRow) (hrow : db.requests call.requestId = some row)
    (haccepts : call.op.accepts row.state = true) : Leads d db db' c call .reading (.expiry row) []
  | expired (row : RequestRow) : Leads d db db' c call (.expiry row) (.expiring row) []
  | unexpired (row : RequestRow) (q : Point) (hlive : ∀ e ∈ row.expiresAt, db.now < e)
    (hq : q = .policy row ∨ (∃ h, call.op = .reconcile h) ∧ q = .locking row) :
    Leads d db db' c call (.expiry row) q [.unexpired c call.requestId row.expiresAt db.now]
  | policy (row : RequestRow) : Leads d db db' c call (.policy row)
      (afterPolicy row (policyOf d db row).1 (policyOf d db row).2 call.op)
      [.evaluated c call.op call.requestId (policyOf d db row).1]
  | approval (row : RequestRow) (approvalId : String) (ap : ApprovalRow)
    (hop : call.op = .authorizeOwner approvalId) (hap : db.approvals approvalId = some ap) :
    Leads d db db' c call (.approval row) (.approvalExpiry row ap) []
  | approvalLive (row : RequestRow) (ap : ApprovalRow) (htrusted : ap.sourceClass = .trusted) :
    Leads d db db' c call (.approvalExpiry row ap) (.binding row ap db.now) []
  | bound (row : RequestRow) (ap : ApprovalRow) (now : Time)
    (hbound : bindsApproval d.toBroker row.toExternalActionRequest (db.jobs row.sourceJobId)
      ap.toOwnerApproval = true) :
    Leads d db db' c call (.binding row ap now)
      (.consuming row ap (db.jobs row.sourceJobId) now) []
  | consumed (row : RequestRow) (ap : ApprovalRow) (job : Option SupervisorJob) (now : Time)
    (approvalId : String) (a : ApprovalRow) (hop : call.op = .authorizeOwner approvalId)
    (ha : consumable db approvalId now = some a) (hdb : db' = consume db approvalId a now) :
    Leads d db db' c call (.consuming row ap job now) (.authorizing row .ownerGateRequired)
      [.consumed c approvalId row job a now]
  | authorized (row : RequestRow) (decision : PolicyDecision) :
    Leads d db db' c call (.authorizing row decision) .returned [.authorized c call.requestId]
  | locked (row : RequestRow) (hop : ∀ h, call.op ≠ .reconcile h) :
    Leads d db db' c call (.locking row) (.opening row) []
  /-- The lock is acquired, and the provider asked. -/
  | observing (row : RequestRow) (h : Holder) (hop : call.op = .reconcile h) :
    Leads d db db' c call (.locking row) (.observing row) [.observed c call.requestId]
  | opened (row : RequestRow) (h : Holder) (hop : call.op.holder? = some h)
    (hok : transitionRowAuthoritative db (lockName row) h call.requestId row.state .executing
      row.revision { holder := some (some h) } = .ok db') :
    Leads d db db' c call (.opening row)
      (.preparing (movedRow .executing { holder := some (some h) } row)) []
  | refused (row : RequestRow) (a : Option Answer) : Leads d db db' c call (.preparing row)
      (.settling row a) []
  | dispatched (row : RequestRow) : Leads d db db' c call (.preparing row) (.dispatching row)
      [.dispatched c call.requestId]
  | answered (row : RequestRow) (answer : Answer) : Leads d db db' c call (.dispatching row)
      (.settling row (some answer)) [.answered c call.requestId answer]
  | seen (row : RequestRow) (o : ProviderObservation) :
    Leads d db db' c call (.observing row) (.recording row o) []

theorem eq_of_approvalId? {op : Op} {approvalId : String} (h : op.approvalId? = some approvalId) :
    op = .authorizeOwner approvalId := by
  cases op <;> cases h
  rfl

variable (d db c call answer seen p) in
/-- **Where a step leads**: there is nothing else a step can do. -/
theorem leads_turn : Leads d db (turn d db c call answer seen p).db c call p
    (turn d db c call answer seen p).point (turn d db c call answer seen p).notes := by
  cases p with
  | reading =>
    rw [turn, readingTurn]
    split
    · exact .stop _ (by rintro ⟨⟩)
    next row hrow =>
      split
      next haccepts => exact .read row hrow haccepts
      · exact .stop _ (by rintro ⟨⟩)
  | expiry row =>
    rw [turn, expiryTurn]
    split
    · exact .expired row
    next hlive =>
      refine .unexpired row _ (fun e he => ?_) ?_
      · by_contra hnot
        exact hlive (by rw [Option.mem_def.mp he]; simpa using hnot)
      · dsimp only
        split
        next h hop => exact .inr ⟨⟨h, hop⟩, rfl⟩
        all_goals exact .inl rfl
  | expiring | denying | returned => exact .stop _ (by rintro ⟨⟩)
  | policy row => exact .policy row
  | approval row =>
    rw [turn]
    cases hop : call.op.approvalId? with
    | none => exact .stop _ (by rintro ⟨⟩)
    | some approvalId =>
      rw [Option.elim_some, approvalTurn]
      split
      · exact .stop _ (by rintro ⟨⟩)
      next ap hap =>
        exact .approval row approvalId ap (eq_of_approvalId? hop)
          (Option.eq_some_of_filter_eq_some hap)
  | approvalExpiry row ap =>
    rw [turn]
    split
    next hlive => exact .approvalLive row ap hlive.2
    · exact .stop _ (by rintro ⟨⟩)
  | binding row ap now =>
    rw [turn]
    split
    next hbound => exact .bound row ap now hbound
    · exact .stop _ (by rintro ⟨⟩)
  | consuming row ap job now =>
    rw [turn]
    cases hop : call.op.approvalId? with
    | none => exact .stop _ (by rintro ⟨⟩)
    | some approvalId =>
      rw [Option.elim_some, consumingTurn]
      split
      · exact .stop _ (by rintro ⟨⟩)
      next a ha => exact .consumed row ap job now approvalId a (eq_of_approvalId? hop) ha rfl
  | authorizing row decision =>
    rw [turn, authorizingTurn]
    split
    · exact .authorized row decision
    · exact .stop _ fun _ => rfl
  | locking row =>
    rw [turn]
    cases call.op.holder? with
    | none => exact .stop _ (by rintro ⟨⟩)
    | some h =>
      rw [Option.elim_some, lockingTurn]
      split
      · exact .stop _ (by rintro ⟨⟩)
      · exact .stop _ (by rintro ⟨⟩)
      · split
        next h' hop => exact .observing row h' hop
        all_goals
          next hop => exact .locked row (by rw [hop]; rintro h ⟨⟩)
  | opening row =>
    rw [turn]
    cases hop : call.op.holder? with
    | none => exact .stop _ fun _ => rfl
    | some h =>
      rw [Option.elim_some, openingTurn]
      split
      next db' heq => exact .opened row h hop heq
      · exact .release _ row rfl fun _ => rfl
  | preparing row =>
    rw [turn, preparingTurn]
    split
    · exact .refused row _
    · split
      · exact .refused row _
      · split
        · exact .dispatched row
        · exact .refused row _
  | dispatching row => exact .answered row answer
  | settling row a =>
    rw [turn]
    cases call.op.holder? with
    | none => exact .stop _ (by rintro ⟨⟩)
    | some h =>
      rw [Option.elim_some, settlingTurn]
      split <;> exact .release _ row rfl (by rintro ⟨⟩)
  | observing row =>
    rw [turn]
    cases seen.observation? with
    | none => exact .release _ row rfl (by rintro ⟨⟩)
    | some o => exact .seen row o
  | recording row o =>
    rw [turn]
    cases call.op.holder? with
    | none => exact .stop _ (by rintro ⟨⟩)
    | some h =>
      rw [Option.elim_some, recordingTurn]
      split <;> exact .release _ row rfl (by rintro ⟨⟩)
  | releasing row =>
    rw [turn]
    cases call.op.holder? <;> exact .stop _ (by rintro ⟨⟩)

/-! ### What holds of every call -/

theorem log_step (s : System) (a : Act) : ∃ es, (step d s a).log = s.log ++ es := by
  have hsame : ∃ es, s.log = s.log ++ es := ⟨[], (List.append_nil _).symm⟩
  cases a with
  | create | start | crash =>
    rw [step]
    split <;> exact hsame
  | next c answer seen =>
    rw [step]
    split
    · exact hsame
    · exact ⟨_, rfl⟩
  | _ => exact hsame

/-- A call that stands elsewhere after a step begins, has stopped, or has taken a step. -/
theorem calls_cases {a : Act} (hcall : (step d s a).calls c = some call)
    (hmoved : s.calls c ≠ some call) :
    call.point = .reading ∨ call.point = .returned ∨
      ∃ answer seen call₀, a = .next c answer seen ∧ s.calls c = some call₀ ∧
        call = { call₀ with
          point := (turn d s.toBrokerDb c call₀ answer seen call₀.point).point } := by
  cases a with
  | create r v expiresAt =>
    rw [step] at hcall
    split at hcall <;> exact absurd hcall hmoved
  | start c' op requestId =>
    rw [step] at hcall
    split at hcall
    · by_cases hc : c = c'
      · subst hc
        obtain rfl := Option.mem_unique System.calls_goTo_self hcall
        exact .inl rfl
      · exact absurd ((System.calls_goTo_of_ne hc).symm.trans hcall) hmoved
    · exact absurd hcall hmoved
  | next c' answer seen =>
    rw [step] at hcall
    split at hcall
    · exact absurd hcall hmoved
    next call' hcall' =>
      by_cases hc : c = c'
      · subst hc
        obtain rfl := Option.mem_unique System.calls_take_self hcall
        exact .inr (.inr ⟨answer, seen, call', rfl, hcall', rfl⟩)
      · exact absurd ((System.calls_take_of_ne hc).symm.trans hcall) hmoved
  | crash c' =>
    rw [step] at hcall
    split at hcall
    · exact absurd hcall hmoved
    · by_cases hc : c = c'
      · subst hc
        obtain rfl := Option.mem_unique System.calls_goTo_self hcall
        exact .inr (.inl rfl)
      · exact absurd ((System.calls_goTo_of_ne hc).symm.trans hcall) hmoved
  | _ => exact absurd hcall hmoved

/-- **The rule for calls**: what holds of a call that begins, and of one that has returned, is not
lost in a step, and is kept by the call's own steps, holds of every call after the step. -/
theorem calls_step {J : BrokerDb → List Event → ℕ → Call → Prop}
    (hreading : ∀ db log c op id, J db log c ⟨op, id, .reading⟩)
    (hreturned : ∀ db log c op id, J db log c ⟨op, id, .returned⟩) (a : Act)
    (hlater : ∀ c call, J s.toBrokerDb s.log c call →
      J (step d s a).toBrokerDb (step d s a).log c call)
    (hturn : ∀ db' c call q es, J s.toBrokerDb s.log c call → Onward s.toBrokerDb db' →
      Leads d s.toBrokerDb db' c call call.point q es →
      J db' (s.log ++ es) c { call with point := q })
    (h : ∀ c call, s.calls c = some call → J s.toBrokerDb s.log c call) :
    ∀ c call, (step d s a).calls c = some call →
      J (step d s a).toBrokerDb (step d s a).log c call := by
  intro c call hcall
  by_cases hown : s.calls c = some call
  · exact hlater c call (h c call hown)
  · rcases calls_cases hcall hown with hpoint | hpoint | ⟨answer, seen, call₀, rfl, hcall₀, rfl⟩
    · obtain ⟨op, id, p⟩ := call
      obtain rfl : p = .reading := hpoint
      exact hreading ..
    · obtain ⟨op, id, p⟩ := call
      obtain rfl : p = .returned := hpoint
      exact hreturned ..
    · simp only [step, hcall₀]
      exact hturn _ _ _ _ _ (h c call₀ hcall₀) onward_turn (leads_turn ..)

/-! ### Snapshots -/

/-- What has been read of a request is its row, or an earlier one. -/
def Seen (db : BrokerDb) (id : String) (row : RequestRow) : Prop :=
  ∃ r, db.requests id = some r ∧ Later row r

theorem Seen.later (h : Seen db id row) (hlater : RowsLater db db') :
    Seen db' id row := by
  obtain ⟨r, hr, hrow⟩ := h
  obtain ⟨r', hr', hr'later⟩ := hlater id r hr
  exact ⟨r', hr', hrow.trans hr'later⟩

/-- The state of the row a call has read fits the point it stands at. -/
def Point.Fits (op : Op) : Point → Prop
  | reading | returned | releasing _ => True
  | preparing row | dispatching row | settling row _ => row.state = .executing
  | expiry row | expiring row | policy row | denying row _ | approval row | approvalExpiry row _
  | binding row _ _ | consuming row _ _ _ | authorizing row _ | locking row | opening row
  | observing row | recording row _ => op.accepts row.state = true

/-- What a call has read is the row of its request, or an earlier one, in a state that fits. -/
structure Informed (db : BrokerDb) (call : Call) : Prop where
  seen : ∀ row, call.point.row? = some row → Seen db call.requestId row
  fits : call.point.Fits call.op

/-- All calls have read what there is. -/
def AllInformed (s : System) : Prop := ∀ c call, s.calls c = some call → Informed s.toBrokerDb call

theorem Asks.row?_eq {now : Time} {op : Op}
    {fence : Option Holder} (h : Asks d now op p row src dst cols fence) : p.row? = some row := by
  cases h <;> rfl

/-- **How the row of a request moves**: it is the one the call has read. -/
theorem Goes.exists_row (h : Goes d db call call.point db') (hinformed : Informed db call) :
    ∃ row dst cols fence, db.requests call.requestId = some row ∧
      Asks d db.now call.op call.point row row.state dst cols fence ∧ Fenced db row fence ∧
      dst ∈ row.state.targets ∧
      db' = { db with
        requests :=
          Function.update db.requests call.requestId (some (movedRow dst cols row)) } := by
  obtain ⟨row, src, dst, cols, fence, hasks, hfenced, hok⟩ := h
  obtain ⟨r, hr, hsrc, hrev, hedge, rfl⟩ := transitionRow_eq_ok hok
  obtain ⟨r', hr', hlater⟩ := hinformed.seen row hasks.row?_eq
  obtain rfl : r = r' := Option.mem_unique hr hr'
  obtain rfl := hlater.eq_of_revision hrev.symm
  subst hsrc
  exact ⟨r, dst, cols, fence, hr, hasks, hfenced, hedge, rfl⟩

theorem requests_opened {row : RequestRow} {h : Holder} (hseen : Seen db call.requestId row)
    (hok : transitionRowAuthoritative db (lockName row) h call.requestId row.state .executing
      row.revision { holder := some (some h) } = .ok db') :
    db.requests call.requestId = some row ∧ RequestState.executing ∈ row.state.targets ∧
      db' = { db with
        requests := Function.update db.requests call.requestId
          (some (movedRow .executing { holder := some (some h) } row)) } := by
  obtain ⟨-, -, hok⟩ := transitionRowAuthoritative_eq_ok hok
  obtain ⟨r, hr, -, hrev, hedge, rfl⟩ := transitionRow_eq_ok hok
  obtain ⟨r', hr', hlater⟩ := hseen
  obtain rfl : r = r' := Option.mem_unique hr hr'
  obtain rfl := hlater.eq_of_revision hrev.symm
  exact ⟨hr, hedge, rfl⟩

theorem Informed.leads {q : Point} {es : List Event}
    (h : Informed db call) (hlater : RowsLater db db')
    (hleads : Leads d db db' c call call.point q es) : Informed db' { call with point := q } := by
  have hkeep : ∀ row, call.point.row? = some row → Seen db' call.requestId row :=
    fun row hrow => (h.seen row hrow).later hlater
  have hfits := h.fits
  generalize hp : call.point = p at hleads hkeep hfits
  cases hleads with
  | stop | authorized => exact ⟨fun _ hrow => (by cases hrow), trivial⟩
  | release _ row hrow hsame =>
    refine ⟨?_, trivial⟩
    rintro _ ⟨⟩
    exact hkeep row hrow
  | read row hrow haccepts =>
    refine ⟨?_, haccepts⟩
    rintro _ ⟨⟩
    exact Seen.later ⟨row, hrow, .refl row⟩ hlater
  | unexpired row _ hlive hq =>
    rcases hq with rfl | ⟨-, rfl⟩ <;> exact ⟨hkeep, hfits⟩
  | policy row =>
    have hcases : ∀ decision reason,
        (afterPolicy row decision reason call.op).row? = none ∧
            afterPolicy row decision reason call.op = .returned ∨
          (afterPolicy row decision reason call.op).row? = some row ∧
            (call.op.accepts row.state = true →
              (afterPolicy row decision reason call.op).Fits call.op) := by
      intro decision reason
      unfold afterPolicy
      split
      · split <;> exact .inr ⟨rfl, id⟩
      · split
        · exact .inl ⟨rfl, rfl⟩
        · exact .inr ⟨rfl, id⟩
      · split <;> exact .inr ⟨rfl, id⟩
      · split <;> exact .inr ⟨rfl, id⟩
      · exact .inl ⟨rfl, rfl⟩
    rcases hcases (policyOf d db row).1 (policyOf d db row).2 with ⟨hnone, heq⟩ | ⟨hsome, hfit⟩
    · rw [heq]
      exact ⟨fun _ hrow => (by cases hrow), trivial⟩
    · refine ⟨fun row' hrow' => ?_, hfit hfits⟩
      obtain rfl := Option.mem_unique hsome hrow'
      exact hkeep row rfl
  | opened row h' hop hok =>
    obtain ⟨-, -, rfl⟩ := requests_opened (h.seen row (by rw [hp]; rfl)) hok
    refine ⟨?_, rfl⟩
    rintro _ ⟨⟩
    exact ⟨_, Function.update_self .., .refl _⟩
  | _ => exact ⟨hkeep, hfits⟩

theorem allInformed_step (h : AllInformed s) (a : Act) : AllInformed (step d s a) := by
  refine calls_step (J := fun db _ _ call => Informed db call) (fun _ _ _ _ _ => ?_)
    (fun _ _ _ _ _ => ?_) a (fun _ call hcall => ?_)
    (fun _ _ _ _ _ hcall honward hleads => hcall.leads honward.rows hleads) h
  · exact ⟨fun _ hrow => (by cases hrow), trivial⟩
  · exact ⟨fun _ hrow => (by cases hrow), trivial⟩
  · exact ⟨fun row hrow => (hcall.seen row hrow).later (onward_step s a).rows, hcall.fits⟩

/-- **What is settled stays settled**, in every interleaving of calls, crashes, decisions of the
owner, and steps of the jobs and the locks: what a request asks for is never changed, its row goes
on by a new revision or not at all, and a terminal row stays as it is; an approval stays bound to
what it was given for, and one that is consumed stays consumed. -/
theorem settled_for_good (d : Driver) (s : System) (as : List Act) (id : String) :
    (∀ r, s.requests id = some r → ∃ r', (Runs.run (step d) s as).requests id = some r' ∧
      asked r' = asked r ∧ r.revision ≤ r'.revision ∧ (r'.revision = r.revision → r' = r) ∧
      (r.state.isTerminal → r' = r)) ∧
    ∀ a, s.approvals id = some a →
      ∃ a', (Runs.run (step d) s as).approvals id = some a' ∧ ApprovalLater a a' := by
  refine ⟨fun r hr => ?_, fun a ha => ?_⟩
  · obtain ⟨r', hr', hlater⟩ := rowsLater_run as id r hr
    refine ⟨r', hr', hlater.1, ?_, fun h => hlater.eq_of_revision h.symm, hlater.eq_of_isTerminal⟩
    rcases hlater.2 with rfl | ⟨-, hlt⟩
    · exact le_rfl
    · exact hlt.le
  · refine Runs.run_always
      (I := fun s' : System => ∃ a', s'.approvals id = some a' ∧ ApprovalLater a a')
      (fun s' act ⟨a', ha', hlater⟩ => ?_) ⟨a, ha, .refl a⟩
    obtain ⟨a'', ha'', hlater'⟩ := (onward_step s' act).approvals id a' ha'
    exact ⟨a'', ha'', hlater.trans hlater'⟩

end Calls

end Broker

end ArgentTeam
