import ArgentTeam.Core.Gate

/-!
# Owner callbacks

How a callback of an inline button becomes a decision of the owner (`approval_processor.py`, with
the challenges of `approval_core.py` and their tables). A callback carries an action, the token of
a challenge, an update identifier, a message date and two identities. Every callback that can be
written down takes one row of the update log and moves the cursor on; one of the owner looks up
the challenge of its token, and where that is open, timely and bound to a pending approval, it is
consumed and the approval decided, in the same transaction.

The bodies of `approve`, `reject` and of the release of an expired approval are written a second
time here, as in the source: they run on the connection of the callback.

The digest of a token and the reference to a scope are parameters of the model (`Processor`), and
so are the identities the owner is expected under. The calls that edit the message in the chat,
after a decision, read and write no table; they are left out.
-/

namespace ArgentTeam

open Prog Store

namespace Approvals

/-! ### Challenges -/

inductive ChallengeStatus
  | issued
  | consumedApproved
  | consumedRejected
  | expired
  | invalidated
  deriving DecidableEq

/-- A row of `approval_challenges`. -/
structure Challenge where
  id : String
  approvalId : String
  taskId : String
  supervisorJobId : String
  bindingHash : Binding
  notificationOutboxId : Option String
  tokenHash : String
  status : ChallengeStatus
  createdAt : Time
  expiresAt : Time
  consumedAt : Option Time
  consumedUpdateId : Option ℤ
  invalidatedAt : Option Time

/-- Primary key, token, the notification, the update, and one open challenge for an approval. -/
def Challenge.clash (a b : Challenge) : Bool :=
  a.id = b.id || a.tokenHash = b.tokenHash ||
    sameKey a.notificationOutboxId b.notificationOutboxId ||
    sameKey a.consumedUpdateId b.consumedUpdateId ||
    (a.status = .issued && b.status = .issued && a.approvalId = b.approvalId)

/-! ### Updates -/

/-- The button that was pressed. -/
inductive CallbackAction
  | approve
  | reject
  | details

/-- What a decision is called in the log. -/
inductive Decision
  | approve
  | reject

/-- The stored text of a decision. -/
def Decision.value : Decision → String
  | approve => "APPROVE"
  | reject => "REJECT"

/-- What the update log says of an update. -/
inductive LogOutcome
  | processing
  | approved
  | rejected
  | wrongChat
  | spoofedSender
  | malformed
  | unknownToken
  | usedToken
  | expiredToken
  | expiredApproval
  | approvalNotPending
  | staleMessage
  | staleUpdate
  | bindingMismatch

/-- A row of `telegram_update_log`. -/
structure UpdateLog where
  updateId : ℤ
  messageDate : Option ℤ
  chatAuthorized : Bool
  senderAuthorized : Bool
  decision : Option Decision
  challengeId : Option String
  approvalId : Option String
  outcome : LogOutcome
  receivedAt : Time
  processedAt : Time

def UpdateLog.clash (a b : UpdateLog) : Bool := a.updateId = b.updateId

/-- The row of `telegram_inbound_state`. -/
structure Cursor where
  nextUpdateId : ℤ
  updatedAt : Time

inductive CallbackOutcome
  | approved
  | rejected
  | details
  | duplicateUpdate
  | staleUpdate
  | staleMessage
  | usedToken
  | expired
  | unknownChallenge
  | wrongChat
  | spoofedSender
  | gateChanged
  | gateDecided
  | malformed
  | locked
  | error
  deriving DecidableEq

/-! ### The tables -/

/-- What a decision reads and writes: the database of the core, and the challenges. -/
structure Ledger where
  world : World
  challenges : Table Challenge Challenge.clash

/-- All that the processing of a callback reads and writes. -/
structure Inbound extends Ledger where
  updateLog : Table UpdateLog UpdateLog.clash
  cursor : Option Cursor

/-- Why a transaction is broken off. -/
inductive Failure
  | locked
  | other

/-- What a callback is given from the outside: the readings of the clock, the identifiers it
draws, and whether the database fails it. -/
structure Outside where
  clock : ℕ →o Time
  uuids : ℕ → Uuid
  fails : Option Failure

/-- A step on the database of the core. -/
def onWorld {α : Type} (m : Cmd α) : Prog Ledger Failure α := fun s =>
  match m s.world with
  | (.ok a, w) => (.ok a, { s with world := w })
  | (.error _, w) => (.error .other, { s with world := w })

/-- A step on the database of the core and the challenges. -/
def onLedger {α : Type} (m : Prog Ledger Failure α) : Prog Inbound Failure α := fun s =>
  match m s.toLedger with
  | (r, l) => (r, { s with toLedger := l })

def challengeTable : Relvar Ledger Challenge Challenge.clash :=
  ⟨Ledger.challenges, fun t s => { s with challenges := t }⟩

def updateLogTable : Relvar Inbound UpdateLog UpdateLog.clash :=
  ⟨Inbound.updateLog, fun t s => { s with updateLog := t }⟩

def Ledger.getChallengeByTokenHash (s : Ledger) (tokenHash : String) : Option Challenge :=
  s.challenges.lookup Challenge.tokenHash tokenHash

/-- `_consume_challenge`: only an open challenge. -/
def consumeChallenge (id : String) (status : ChallengeStatus) (now : Time) (updateId : ℤ) :
    Prog Ledger Failure ℕ :=
  challengeTable.update .other (fun c => c.id = id && c.status = .issued) fun c =>
    { c with status := status, consumedAt := some now, consumedUpdateId := some updateId }

/-- `_mark_challenge_expired` and `_mark_challenge_invalidated`: only an open challenge. -/
def closeChallenge (status : ChallengeStatus) (id : String) (now : Time) : Prog Ledger Failure ℕ :=
  challengeTable.update .other (fun c => c.id = id && c.status = .issued) fun c =>
    { c with status := status, invalidatedAt := some now }

def markChallengeExpired : String → Time → Prog Ledger Failure ℕ := closeChallenge .expired

def markChallengeInvalidated : String → Time → Prog Ledger Failure ℕ := closeChallenge .invalidated

def Ledger.getActiveChallengeForApproval (s : Ledger) (approvalId : String) : Option Challenge :=
  s.challenges.rows.find? fun c => c.approvalId = approvalId && c.status = .issued

/-- `CHALLENGE_TTL_SECONDS`, in microseconds. -/
def challengeTtl : Time := 3600 * 1000000

/-- `create_challenge`, with the approval its caller has read, the identifier it draws and the
digest of its token. Approval, task, job and notification have to be there; of the last two that
is `known`. -/
def createChallenge (ap : OwnerApproval) (supervisorJobId : String)
    (notificationOutboxId : Option String) (now : Time) (id tokenHash : String) (known : Bool) :
    Prog Ledger Failure Challenge := do
  require (ap.status = .pending) .other
  require (ap.bindingHash = ⟨ap.taskId.text, ap.action, ap.scope⟩) .other
  require (now < ap.expiresAt) .other
  let active ← read fun s => s.getActiveChallengeForApproval ap.id.text
  require (active = none) .other
  let stored ← read fun s => (s.world.db.getApproval ap.id.text).isSome &&
    (s.world.db.getTask ap.taskId.text).isSome
  require (stored = true ∧ known = true) .other
  let ch : Challenge :=
    { id := id
      approvalId := ap.id.text
      taskId := ap.taskId.text
      supervisorJobId := supervisorJobId
      bindingHash := ⟨ap.taskId.text, ap.action, ap.scope⟩
      notificationOutboxId := notificationOutboxId
      tokenHash := tokenHash
      status := .issued
      createdAt := now
      expiresAt := min (now + challengeTtl) ap.expiresAt
      consumedAt := none
      consumedUpdateId := none
      invalidatedAt := none }
  challengeTable.insert .other ch
  pure ch

/-- `next_update_id`, zero where there is no row. -/
def Inbound.nextUpdateId (s : Inbound) : ℤ := (s.cursor.map Cursor.nextUpdateId).getD 0

/-- `_insert_update_log`: whether the row was inserted. -/
def insertUpdateLog (row : UpdateLog) : Prog Inbound Failure Bool := do
  let t ← read Inbound.updateLog
  caseSome (t.insert? row)
    (fun t' => do
      change fun s => { s with updateLog := t' }
      pure true)
    (pure false)

def sqliteMaxInt : ℤ := 2 ^ 63 - 1

def advanceCursor (updateId : ℤ) (now : Time) : Prog Inbound Failure Unit :=
  change fun s =>
    { s with cursor := some ⟨max s.nextUpdateId (min (updateId + 1) sqliteMaxInt), now⟩ }

/-! ### Callbacks -/

structure Processor where
  /-- `expected_owner_user_id`; nothing where it raises. -/
  expectedOwnerUserId : Option PyStr
  /-- `expected_owner_chat_id`; nothing where it raises. -/
  expectedOwnerChatId : Option PyStr
  tokenHash : PyStr → String
  scopeRef : Binding → String

/-- The action of a callback: a member of the enumeration, or any value. -/
inductive ActionArg
  | member (action : CallbackAction)
  | value (v : Json)

/-- The arguments of `process_callback`. -/
structure Callback where
  action : ActionArg
  challenge : Json
  updateId : Json
  messageDate : Json
  privateChatIdentity : Json
  senderIdentity : Json

/-- `_valid_update_id`: the identifier, if it can be processed and stepped over. -/
def validUpdateId : Json → Option ℤ
  | .int n => if 0 ≤ n ∧ n < sqliteMaxInt then some n else none
  | _ => none

def representableUpdateId : Json → Option ℤ
  | .int n => if 0 ≤ n ∧ n ≤ sqliteMaxInt then some n else none
  | _ => none

def validMessageDate : Json → Option ℤ
  | .int n => if 0 ≤ n ∧ n ≤ sqliteMaxInt then some n else none
  | _ => none

/-- The one owner: the identity that is expected both of the sender and of the chat. -/
def Processor.owner (p : Processor) : Option PyStr :=
  match p.expectedOwnerUserId, p.expectedOwnerChatId with
  | some user, some chat => if user ≠ [] ∧ chat ≠ [] ∧ user = chat then some user else none
  | _, _ => none

/-- `_authorization_flags`: whether the chat is authorized, and the sender. -/
def authorizationFlags (p : Processor) (c : Callback) : Bool × Bool :=
  match p.owner, c.senderIdentity, c.privateChatIdentity with
  | some owner, .str sender, .str chat => (chat = owner, sender = owner && sender = chat)
  | _, _, _ => (false, false)

/-- `CallbackAction(value)`. -/
def parseAction : ActionArg → Option CallbackAction
  | .member a => some a
  | .value (.str s) =>
    if s = PyStr.ofString "A" then some .approve
    else if s = PyStr.ofString "R" then some .reject
    else if s = PyStr.ofString "D" then some .details
    else none
  | .value _ => none

/-- `_CHALLENGE_RE`: forty-three letters, digits, underscores and dashes. -/
def isToken (s : PyStr) : Bool :=
  s.length = 43 && s.all fun c => PyStr.contains [c] (PyStr.ofString
    "ABCDEFGHIJKLMNOPQRSTUVWXYZabcdefghijklmnopqrstuvwxyz0123456789_-")

def parseToken : Json → Option PyStr
  | .str s => if isToken s then some s else none
  | _ => none

def parseActionChallenge (c : Callback) : Option (CallbackAction × PyStr) :=
  (parseAction c.action).bind fun a => (parseToken c.challenge).map fun token => (a, token)

/-! ### The bodies of the core, on this connection -/

def emitEvent (type : String) (taskId : Uuid) (state : Option String)
    (payload : List (String × Json)) : Cmd Unit := do
  let id ← uuid4
  let _ ← nowIso
  require (checkEvent type (.text taskId.text) none state (.dict payload) = none)
    (.error .privacyViolation "event contains deny-listed term" [])
  Tables.events.insertOrIgnore ⟨id, type, .text taskId.text, none, state, .dict payload⟩

def applyTransitionOn (task : Task) (toState : TaskState) (newResume : Option TaskState) :
    Cmd Unit := do
  let _ ← nowIso
  let _ ← updateTaskState task.id toState newResume
  emitEvent "task.state_changed" task.id (some toState.value)
    [("from_state", .text task.state.value), ("to_state", .text toState.value)]
  onlyIf (toState = .done) (emitEvent "task.completed" task.id (some TaskState.done.value) [])

def approveDecisionOn (ap : OwnerApproval) : Cmd Unit := do
  let now ← nowIso
  let rc ← markApproved ap.id now
  require (rc ≠ 0) (.error .approvalError "approval %r could not be approved" [ap.id.text])
  emitEvent "gate.owner_approved" ap.taskId none [("approval_id", .text ap.id.text)]

/-- The task of an approval, if it is at the gate. -/
def parkedTask (db : Db) (ap : OwnerApproval) : Option Task :=
  (db.getTask ap.taskId.text).filter fun t => t.state = .ownerApprovalRequired

def rejectDecisionOn (ap : OwnerApproval) : Cmd Unit := do
  let now ← nowIso
  let rc ← markRejected ap.id now
  require (rc ≠ 0)
    (.error .approvalError "approval %r is not pending (%s)" [ap.id.text, ap.status.value])
  let task ← read fun w => parkedTask w.db ap
  whenSome task fun task => do
    Core.validateTransition task.state .blocked task.resumeState
    applyTransitionOn task .blocked none
  emitEvent "gate.owner_rejected" ap.taskId none [("approval_id", .text ap.id.text)]

def expireAndReleaseOn (approvalId : Uuid) : Cmd Unit := do
  let now ← nowIso
  let _ ← markExpired approvalId now
  let ap ← read fun w => w.db.getApproval approvalId.text
  whenSome ap fun ap => do
    let task ← read fun w => parkedTask w.db ap
    whenSome task fun task =>
      caseSome (task.resumeState.filter TaskState.isValidResumeTarget)
        (fun resume => do
          Core.validateTransition task.state resume task.resumeState
          applyTransitionOn task resume none)
        (do
          Core.validateTransition task.state .blocked task.resumeState
          applyTransitionOn task .blocked none)

/-! ### The decision -/

/-- What a callback of the owner comes to: its outcome, and what the log says of it. -/
structure Verdict where
  outcome : CallbackOutcome
  logged : LogOutcome
  decision : Option Decision := none
  challengeId : Option String := none
  approvalId : Option String := none

/-- `_iso_to_unix`: the whole seconds of a time. -/
def isoToUnix (t : Time) : ℤ := (t / 1000000 : ℕ)

/-- `FUTURE_SKEW_BOUND`, in seconds. -/
def futureSkewBound : ℤ := 300

/-- `_terminal_outcome`, of the challenge. -/
def terminalOutcome (ch : Challenge) : Verdict :=
  match ch.status with
  | .consumedApproved | .consumedRejected =>
    { outcome := .usedToken, logged := .usedToken, challengeId := some ch.id,
      approvalId := some ch.approvalId }
  | .expired =>
    { outcome := .expired, logged := .expiredToken, challengeId := some ch.id,
      approvalId := some ch.approvalId }
  | .invalidated | .issued =>
    { outcome := .unknownChallenge, logged := .unknownToken, challengeId := some ch.id,
      approvalId := some ch.approvalId }

/-- The gate content of the approval is the one that was presented. -/
def unchanged (ch : Challenge) (ap : OwnerApproval) : Bool :=
  let recomputed : Binding := ⟨ap.taskId.text, ap.action, ap.scope⟩
  ap.bindingHash = recomputed && ch.bindingHash = recomputed && ch.taskId = ap.taskId.text &&
    ch.approvalId = ap.id.text

/-- Steps 9 to 11 of `_decide_in_transaction`: the challenge is consumed, the approval decided,
and the decision recorded under its key. -/
def decideGate (decision : Decision) (ch : Challenge) (ap : OwnerApproval) (updateId : ℤ)
    (now : Time) : Prog Ledger Failure Verdict := do
  let target := match decision with
    | .approve => ChallengeStatus.consumedApproved
    | .reject => .consumedRejected
  let rc ← consumeChallenge ch.id target now updateId
  if rc ≠ 1 then
    pure { outcome := .usedToken, logged := .usedToken, challengeId := some ch.id,
           approvalId := some ap.id.text }
  else do
    onWorld <| match decision with
      | .approve => approveDecisionOn ap
      | .reject => rejectDecisionOn ap
    let key := "telegram-owner-approval:" ++ toString updateId ++ ":" ++ ch.id ++ ":" ++
      decision.value
    let args := Json.dict [("update_id", .int updateId), ("challenge_id", .text ch.id),
      ("decision", .text decision.value), ("approval_id", .text ap.id.text)]
    onWorld (setCommandIdempotency ⟨key, "telegram_owner_decision", ap.id.text, args.sorted⟩)
    pure { outcome := match decision with
             | .approve => .approved
             | .reject => .rejected
           logged := match decision with
             | .approve => .approved
             | .reject => .rejected
           decision := some decision
           challengeId := some ch.id
           approvalId := some ap.id.text }

/-- Steps 6 to 8: the approval is there, unchanged, pending, and has not expired. -/
def judgeApproval (decision : Decision) (ch : Challenge) (updateId : ℤ) (now : Time) :
    Prog Ledger Failure Verdict := do
  let ap ← read fun s => s.world.db.getApproval ch.approvalId
  caseSome ap
    (fun ap =>
      if unchanged ch ap = false then do
        let _ ← markChallengeInvalidated ch.id now
        pure { outcome := .gateChanged, logged := .bindingMismatch, challengeId := some ch.id,
               approvalId := some ap.id.text }
      else if ap.status ≠ .pending then
        pure { outcome := .gateDecided, logged := .approvalNotPending, challengeId := some ch.id,
               approvalId := some ap.id.text }
      else if ap.expiresAt ≤ now then do
        onWorld (expireAndReleaseOn ap.id)
        pure { outcome := .expired, logged := .expiredApproval, challengeId := some ch.id,
               approvalId := some ap.id.text }
      else decideGate decision ch ap updateId now)
    (do
      let _ ← markChallengeInvalidated ch.id now
      pure { outcome := .gateChanged, logged := .bindingMismatch, challengeId := some ch.id })

/-- Steps 2 to 8: the challenge is there, open, has not expired, and the message was sent while it
was open. -/
def judge (decision : Decision) (tokenHash : String) (updateId messageDate : ℤ) (now : Time) :
    Prog Ledger Failure Verdict := do
  let ch ← read fun s => s.getChallengeByTokenHash tokenHash
  caseSome ch
    (fun ch =>
      if ch.status ≠ .issued then pure (terminalOutcome ch)
      else if ch.expiresAt ≤ now then do
        let _ ← markChallengeExpired ch.id now
        pure { outcome := .expired, logged := .expiredToken, challengeId := some ch.id }
      else if messageDate < isoToUnix ch.createdAt then
        pure { outcome := .staleMessage, logged := .staleMessage, challengeId := some ch.id }
      else if isoToUnix ch.expiresAt ≤ messageDate then do
        let _ ← markChallengeExpired ch.id now
        pure { outcome := .expired, logged := .expiredToken, challengeId := some ch.id }
      else if isoToUnix now + futureSkewBound < messageDate then
        pure { outcome := .staleMessage, logged := .staleMessage, challengeId := some ch.id }
      else judgeApproval decision ch updateId now)
    (pure { outcome := .unknownChallenge, logged := .unknownToken })

def updateLogRow (updateId : ℤ) (messageDate : Option ℤ) (chat sender : Bool)
    (outcome : LogOutcome) (now : Time) : UpdateLog where
  updateId := updateId
  messageDate := messageDate
  chatAuthorized := chat
  senderAuthorized := sender
  decision := none
  challengeId := none
  approvalId := none
  outcome := outcome
  receivedAt := now
  processedAt := now

def finalizeUpdateLog (updateId : ℤ) (v : Verdict) (now : Time) : Prog Inbound Failure ℕ :=
  updateLogTable.update .other (fun r => r.updateId = updateId) fun r =>
    { r with decision := v.decision, challengeId := v.challengeId, approvalId := v.approvalId,
             outcome := v.logged, processedAt := now }

/-- An update below the cursor is logged as stale, where it has no row yet. -/
def staleUpdate (updateId : ℤ) (messageDate : Option ℤ) (chat sender : Bool) (now : Time) :
    Prog Inbound Failure CallbackOutcome := do
  let inserted ← insertUpdateLog (updateLogRow updateId messageDate chat sender .staleUpdate now)
  pure (if inserted then .staleUpdate else .duplicateUpdate)

/-- `_decide_in_transaction`. Every exit from the second step on closes the row of the update and
moves the cursor. -/
def decideInTransaction (decision : Decision) (tokenHash : String) (updateId messageDate : ℤ) :
    Prog Inbound Failure CallbackOutcome := do
  let now ← onLedger (onWorld nowIso)
  let next ← read Inbound.nextUpdateId
  if updateId < next then staleUpdate updateId (some messageDate) true true now
  else do
    let inserted ←
      insertUpdateLog (updateLogRow updateId (some messageDate) true true .processing now)
    if inserted = false then pure .duplicateUpdate
    else do
      let v ← onLedger (judge decision tokenHash updateId messageDate now)
      let _ ← finalizeUpdateLog updateId v now
      advanceCursor updateId now
      pure v.outcome

/-! ### Processing -/

/-- What a transaction of a callback writes. -/
abbrev Rows := Db × Table Challenge Challenge.clash × Table UpdateLog UpdateLog.clash ×
  Option Cursor

def Inbound.rows (s : Inbound) : Rows := (s.world.db, s.challenges, s.updateLog, s.cursor)

/-- The state with other rows. -/
def Inbound.setRows (r : Rows) (s : Inbound) : Inbound where
  world := { s.world with db := r.1 }
  challenges := r.2.1
  updateLog := r.2.2.1
  cursor := r.2.2.2

/-- `_inbound_transaction`: it may fail, and whatever raises rolls the rows back. -/
def inboundTransaction {α : Type} (fails : Option Failure) (m : Prog Inbound Failure α) :
    Prog Inbound Failure α :=
  atomically Inbound.rows Inbound.setRows do
    whenSome fails raise
    m

/-- What a failed transaction comes to. -/
def onFailure : Failure → Prog Inbound Failure CallbackOutcome
  | .locked => pure .locked
  | .other => pure .error

/-- What becomes of a callback that is not decided: what the log says, and the outcome. -/
inductive Terminal
  | malformed
  | wrongChat
  | spoofedSender

/-- What the log says. -/
def Terminal.logged : Terminal → LogOutcome
  | malformed => .malformed
  | wrongChat => .wrongChat
  | spoofedSender => .spoofedSender

def Terminal.outcome : Terminal → CallbackOutcome
  | malformed => .malformed
  | wrongChat => .wrongChat
  | spoofedSender => .spoofedSender

/-- The transaction of `_persist_terminal`. -/
def terminalInTransaction (updateId : ℤ) (t : Terminal) (chat sender : Bool) :
    Prog Inbound Failure CallbackOutcome := do
  let now ← onLedger (onWorld nowIso)
  let next ← read Inbound.nextUpdateId
  if updateId < next then staleUpdate updateId none chat sender now
  else do
    let inserted ← insertUpdateLog (updateLogRow updateId none chat sender t.logged now)
    if inserted = false then pure .duplicateUpdate
    else do
      advanceCursor updateId now
      pure t.outcome

def persistTerminal (fails : Option Failure) (updateId : ℤ) (t : Terminal) (chat sender : Bool) :
    Prog Inbound Failure CallbackOutcome :=
  rescue (inboundTransaction fails (terminalInTransaction updateId t chat sender)) onFailure

/-- `_decide`. -/
def decideCallback (fails : Option Failure) (decision : Decision) (tokenHash : String)
    (updateId messageDate : ℤ) : Prog Inbound Failure CallbackOutcome :=
  rescue (inboundTransaction fails
    (decideInTransaction decision tokenHash updateId messageDate)) onFailure

/-- The details of a gate that may be shown. -/
structure SafeDetails where
  jobId : String
  taskId : String
  gateId : String
  scopeRef : String
  validUntil : Time

/-- `safe_details`: nothing is written. -/
def safeDetails (p : Processor) (s : Ledger) (token : PyStr) (now : Time) : Option SafeDetails :=
  (s.getChallengeByTokenHash (p.tokenHash token)).bind fun ch =>
    if ch.status ≠ .issued ∨ ch.expiresAt ≤ now then none
    else
      (s.world.db.getApproval ch.approvalId).bind fun ap =>
        if unchanged ch ap = false then none
        else some ⟨ch.supervisorJobId, ch.taskId, ch.approvalId, p.scopeRef ch.bindingHash,
          ch.expiresAt⟩

/-- The button of the details: a failing read raises. -/
def showDetails (p : Processor) (fails : Option Failure) (token : PyStr) :
    Prog Inbound Failure CallbackOutcome := do
  whenSome fails raise
  let now ← onLedger (onWorld nowIso)
  let details ← read fun s => safeDetails p s.toLedger token now
  pure (if details.isSome then .details else .unknownChallenge)

/-- The body of `process_callback`. -/
def dispatchCallback (p : Processor) (fails : Option Failure) (c : Callback) :
    Prog Inbound Failure CallbackOutcome :=
  caseSome (validUpdateId c.updateId)
    (fun updateId =>
      caseSome (validMessageDate c.messageDate)
        (fun messageDate =>
          let flags := authorizationFlags p c
          if flags.1 = false then persistTerminal fails updateId .wrongChat false flags.2
          else if flags.2 = false then persistTerminal fails updateId .spoofedSender true false
          else
            caseSome (parseActionChallenge c)
              (fun parsed => match parsed.1 with
                | .details => showDetails p fails parsed.2
                | .approve =>
                  decideCallback fails .approve (p.tokenHash parsed.2) updateId messageDate
                | .reject =>
                  decideCallback fails .reject (p.tokenHash parsed.2) updateId messageDate)
              (persistTerminal fails updateId .malformed true true))
        (persistTerminal fails updateId .malformed false false))
    (caseSome (representableUpdateId c.updateId)
      (fun updateId => persistTerminal fails updateId .malformed false false)
      (pure .malformed))

/-- `process_callback`: whatever is raised comes to an error. -/
def processCallback (p : Processor) (fails : Option Failure) (c : Callback) :
    Prog Inbound Failure CallbackOutcome :=
  rescue (dispatchCallback p fails c) fun _ => pure .error

end Approvals

end ArgentTeam
