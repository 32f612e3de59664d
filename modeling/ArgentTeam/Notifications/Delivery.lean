import ArgentTeam.Store

/-!
# The delivery of notifications

The outbox of notifications and the passes of its delivery workers (`notifications.py`). A pass
claims the oldest row that is due, in one transaction, and draws a token for its claim; reads the
row back, on the same connection but after that transaction; verifies its payload, builds a
transport and sends it; and closes the row, where it is still being sent under the token that was
read back. Between any two of these steps other workers, of this process or of another, may take
theirs, and a worker may stop.

Each claim is counted, and so is each time a row is sent. Whether a payload decodes to what its
hash says, and the text a row is rendered to, are parameters (`Delivery`), and so are the tokens,
of which no two are the same.
-/

namespace ArgentTeam

open Store

namespace Notifications

/-! ### Rows -/

inductive NotificationStatus
  | pending
  | sending
  | sent
  | failed
  | discarded
  deriving DecidableEq

/-- A notification that is sent or discarded is settled. -/
def NotificationStatus.settled : NotificationStatus → Bool
  | sent | discarded => true
  | _ => false

inductive NotificationType
  | done
  | failed
  | blocked
  | ownerApprovalRequired

/-- A row of `notification_outbox`. -/
structure OutboxRow where
  id : String
  notificationType : NotificationType
  dedupKey : String
  payloadJson : String
  payloadHash : String
  status : NotificationStatus
  attemptCount : ℕ
  nextAttemptAt : Option Time
  claimedAt : Option Time
  claimToken : Option String
  lastAttemptAt : Option Time
  sentAt : Option Time
  lastErrorCode : Option String
  createdAt : Time
  updatedAt : Time

/-- Primary key, and one row for an event. -/
def OutboxRow.clash (a b : OutboxRow) : Bool := a.id = b.id || a.dedupKey = b.dedupKey

/-- `notification_outbox`. -/
abbrev Outbox := Table OutboxRow OutboxRow.clash

/-- `NOTIFICATION_MAX_ATTEMPTS`. -/
def maxAttempts : ℕ := 5

/-- `NOTIFICATION_CLAIM_LEASE_SECONDS`, in microseconds. -/
def claimLease : Time := 30 * 1000000

def newRow (id : String) (notificationType : NotificationType)
    (dedupKey payloadJson payloadHash : String) (now : Time) : OutboxRow where
  id := id
  notificationType := notificationType
  dedupKey := dedupKey
  payloadJson := payloadJson
  payloadHash := payloadHash
  status := .pending
  attemptCount := 0
  nextAttemptAt := none
  claimedAt := none
  claimToken := none
  lastAttemptAt := none
  sentAt := none
  lastErrorCode := none
  createdAt := now
  updatedAt := now

namespace OutboxRow

def claim (token : String) (now : Time) (r : OutboxRow) : OutboxRow :=
  { r with status := .sending, claimToken := some token, claimedAt := some now,
           lastAttemptAt := some now, attemptCount := r.attemptCount + 1, nextAttemptAt := none,
           updatedAt := now }

/-- Sent. -/
def complete (now : Time) (r : OutboxRow) : OutboxRow :=
  { r with status := .sent, sentAt := some now, claimToken := none, claimedAt := none,
           nextAttemptAt := none, lastErrorCode := none, lastAttemptAt := some now,
           updatedAt := now }

/-- Failed, to be tried again. -/
def fail (now nextAttemptAt : Time) (code : String) (r : OutboxRow) : OutboxRow :=
  { r with status := .failed, claimToken := none, claimedAt := none,
           nextAttemptAt := some nextAttemptAt, lastErrorCode := some code, updatedAt := now }

def discard (now : Time) (code : String) (r : OutboxRow) : OutboxRow :=
  { r with status := .discarded, claimToken := none, claimedAt := none, nextAttemptAt := none,
           lastErrorCode := some code, updatedAt := now }

/-- It is due: it waits, may be tried again, or the lease of its claim has expired. -/
def due (now later : Time) (r : OutboxRow) : Bool :=
  r.status = .pending || (r.status = .failed && r.nextAttemptAt.any fun t => t ≤ now) ||
    (r.status = .sending && r.claimedAt.any fun t => t + claimLease ≤ later)

/-- It is not settled. -/
def isOpen (r : OutboxRow) : Bool :=
  r.status = .pending || r.status = .failed || r.status = .sending

def heldUnder (id : String) (token : Option String) (r : OutboxRow) : Bool :=
  r.id = id && r.status = .sending && sameKey r.claimToken token

end OutboxRow

/-- The row that was created first, of these the one that was inserted first. -/
def oldest : List OutboxRow → Option OutboxRow
  | [] => none
  | r :: rs => match oldest rs with
    | none => some r
    | some r' => if r'.createdAt < r.createdAt then some r' else some r

/-- An update statement. -/
def rewrite (t : Outbox) (p : OutboxRow → Bool) (f : OutboxRow → OutboxRow) : Outbox :=
  (t.update? p f).getD t

/-! ### Transports -/

structure TransportReceipt where
  accepted : Bool
  retryable : Bool
  errorCode : Option String
  retryAfterSeconds : Option ℤ

/-- What becomes of building a transport and sending by it. -/
inductive Answer
  /-- There is no transport: the configuration is missing. -/
  | unconfigured
  /-- The transport could not be built. -/
  | unavailable
  /-- Sending has found that the configuration is missing. -/
  | misconfigured
  /-- Sending has raised, or returned no receipt. -/
  | broken
  | receipt (r : TransportReceipt)

/-- The transport was asked to send. -/
def Answer.sends : Answer → Bool
  | unconfigured | unavailable => false
  | _ => true

def allowedDeliveryErrorCodes : List String :=
  ["NETWORK_ERROR", "TIMEOUT", "RATE_LIMITED", "HTTP_5XX", "HTTP_4XX", "AUTH_ERROR",
    "POLICY_ERROR", "CONFIG_ERROR", "PAYLOAD_HASH_MISMATCH", "ATTEMPTS_EXHAUSTED",
    "TRANSPORT_ERROR"]

def normalizeErrorCode (code : Option String) : String :=
  match code with
  | some c => if c ∈ allowedDeliveryErrorCodes then c else "TRANSPORT_ERROR"
  | none => "TRANSPORT_ERROR"

def backoffSeconds (attemptCount : ℕ) (retryAfterSeconds : Option ℤ) : ℕ :=
  let base := min (5 * 2 ^ (attemptCount - 1)) 300
  match retryAfterSeconds with
  | some n => if 0 < n then max base (min (max n.toNat 5) 300) else base
  | none => base

/-! ### Passes -/

/-- What a worker is at. -/
inductive Pass
  | idle
  | claimed (claim : ℕ) (id : String) (now : Time)
  | holds (claim : ℕ) (row : OutboxRow) (now : Time)
  | discarding (claim : ℕ) (row : OutboxRow) (now : Time) (code : String)
  | finishing (claim : ℕ) (row : OutboxRow) (now : Time) (receipt : TransportReceipt)

structure Delivery where
  token : ℕ → String
  token_injective : Function.Injective token
  /-- `_decode_and_verify`: the payload decodes, and has its hash. -/
  verifies : OutboxRow → Bool
  /-- `_render`; nothing where it raises. -/
  render : OutboxRow → Option String

/-- The outbox, and those who work at it. -/
structure System where
  outbox : Outbox
  pass : ℕ → Pass
  claims : List String
  latest : String → Option ℕ
  sends : List ℕ

/-- What happens. -/
inductive Event
  | enqueue (id : String) (notificationType : NotificationType)
    (dedupKey payloadJson payloadHash : String) (now : Time)
  /-- A worker begins a pass, and claims; `later` is the reading of the clock for the lease. -/
  | claim (worker : ℕ) (now later : Time)
  /-- It reads the row back. -/
  | reread (worker : ℕ)
  /-- It verifies the row, builds a transport, and sends. -/
  | send (worker : ℕ) (answer : Answer)
  /-- It closes the row; `later` is the reading of the clock for the next attempt. -/
  | finish (worker : ℕ) (later : Time)
  /-- It stops: it dies, something raises, or the database is locked. -/
  | stop (worker : ℕ)

/-- `_claim`. -/
def claimStep (d : Delivery) (s : System) (worker : ℕ) (now later : Time) : System :=
  match oldest (s.outbox.rows.filter (OutboxRow.due now later)) with
  | none => s
  | some r =>
    if maxAttempts ≤ r.attemptCount then
      { s with outbox := rewrite s.outbox (fun a => a.id = r.id && a.isOpen)
                 (OutboxRow.discard now "ATTEMPTS_EXHAUSTED") }
    else
      { s with outbox := rewrite s.outbox
                 (fun a => a.id = r.id && a.isOpen && a.attemptCount < maxAttempts)
                 (OutboxRow.claim (d.token s.claims.length) now)
               pass := Function.update s.pass worker (.claimed s.claims.length r.id now)
               claims := s.claims ++ [r.id]
               latest := Function.update s.latest r.id (some s.claims.length) }

/-- The row is read back after the transaction of the claim. -/
def rereadStep (s : System) (worker : ℕ) : System :=
  match s.pass worker with
  | .claimed claim id now =>
    { s with pass := Function.update s.pass worker <|
        match s.outbox.lookup OutboxRow.id id with
        | some row => .holds claim row now
        | none => .idle }
  | _ => s

/-- What is to be done with a row that was sent, or could not be. -/
def Answer.next (claim : ℕ) (row : OutboxRow) (now : Time) : Answer → Pass
  | unconfigured | misconfigured => .discarding claim row now "CONFIG_ERROR"
  | unavailable | broken => .finishing claim row now ⟨false, true, some "TRANSPORT_ERROR", none⟩
  | receipt r => .finishing claim row now r

/-- The part of `_pass` from the verification of the payload to the answer of the transport. -/
def sendStep (d : Delivery) (s : System) (worker : ℕ) (answer : Answer) : System :=
  match s.pass worker with
  | .holds claim row now =>
    if d.verifies row = false then
      { s with pass := Function.update s.pass worker
                 (.discarding claim row now "PAYLOAD_HASH_MISMATCH") }
    else if d.render row = none then { s with pass := Function.update s.pass worker .idle }
    else
      { s with pass := Function.update s.pass worker (answer.next claim row now)
               sends := if answer.sends then s.sends ++ [claim] else s.sends }
  | _ => s

/-- The update that `_finalize` makes of a row. -/
def finalize (row : OutboxRow) (now later : Time) (receipt : TransportReceipt) :
    OutboxRow → OutboxRow :=
  if maxAttempts < row.attemptCount then OutboxRow.discard now "ATTEMPTS_EXHAUSTED"
  else if receipt.accepted then OutboxRow.complete now
  else if receipt.retryable then
    if maxAttempts ≤ row.attemptCount then OutboxRow.discard now "ATTEMPTS_EXHAUSTED"
    else OutboxRow.fail now
      (later + backoffSeconds row.attemptCount receipt.retryAfterSeconds * 1000000)
      (normalizeErrorCode receipt.errorCode)
  else OutboxRow.discard now (normalizeErrorCode receipt.errorCode)

/-- The last step of a pass: `_discard` and `_finalize`. -/
def finishStep (s : System) (worker : ℕ) (later : Time) : System :=
  match s.pass worker with
  | .discarding _ row now code =>
    { s with outbox := rewrite s.outbox (OutboxRow.heldUnder row.id row.claimToken)
               (OutboxRow.discard now code)
             pass := Function.update s.pass worker .idle }
  | .finishing _ row now receipt =>
    { s with outbox := rewrite s.outbox (OutboxRow.heldUnder row.id row.claimToken)
               (finalize row now later receipt)
             pass := Function.update s.pass worker .idle }
  | _ => s

def step (d : Delivery) (s : System) : Event → System
  | .enqueue id notificationType dedupKey payloadJson payloadHash now =>
    { s with outbox := (s.outbox.insert?
        (newRow id notificationType dedupKey payloadJson payloadHash now)).getD s.outbox }
  | .claim worker now later =>
    match s.pass worker with
    | .idle => claimStep d s worker now later
    | _ => s
  | .reread worker => rereadStep s worker
  | .send worker answer => sendStep d s worker answer
  | .finish worker later => finishStep s worker later
  | .stop worker => { s with pass := Function.update s.pass worker .idle }

/-- Nothing has been enqueued, and nobody works. -/
def initial : System where
  outbox := .empty
  pass _ := .idle
  claims := []
  latest _ := none
  sends := []

end Notifications

end ArgentTeam
