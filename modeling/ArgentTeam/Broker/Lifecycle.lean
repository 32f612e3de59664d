import ArgentTeam.Broker.Authorize
import ArgentTeam.MergeQueue.ActionLock

/-!
# The lifecycle of a request in the store

The columns of a request that its execution writes, and the two transitions of the store
(`store.py`): one is fenced by the state and the revision of the row alone, the other also by
the lease and the action lock of the one who asks for it. The rows of the queue (jobs, locks)
are those of `MergeQueue.Db`.
-/

namespace ArgentTeam

open MergeQueue (Holder jobHoldsCurrentLease)

/-- A row of `external_action_requests`, with what its execution writes. -/
structure RequestRow extends ExternalActionRequest where
  attemptCount : ℕ
  nextAttemptAt : Option Time
  providerObjectId : Option String
  providerState : Option Json
  holderOwnerInstanceId : Option String
  holderLeaseEpoch : ℕ
  deriving DecidableEq

inductive SourceClass
  | trusted | untrusted
  deriving DecidableEq

/-- A row of `owner_approvals`, with the class of its source. -/
structure ApprovalRow extends OwnerApproval where
  sourceClass : SourceClass
  deriving DecidableEq

namespace Broker

/-- The tables the broker works on. -/
structure BrokerDb extends MergeQueue.Db where
  requests : String → Option RequestRow
  approvals : String → Option ApprovalRow

/-! ### What a transition writes -/

/-- The columns a transition writes besides the state and the revision; a column that is not
given is kept. -/
structure Columns where
  authorizationState : Option String := none
  lastFailureClass : Option (Option String) := none
  lastErrorCode : Option (Option PyStr) := none
  attemptCount : Option ℕ := none
  nextAttemptAt : Option Time := none
  providerObjectId : Option PyStr := none
  providerState : Option Json := none
  holder : Option (Option Holder) := none

/-- The texts among the columns have an encoding. -/
def Columns.bindable (c : Columns) : Bool :=
  c.lastErrorCode.all (·.all (·.encode?.isSome)) && c.providerObjectId.all (·.encode?.isSome)

def Columns.write (c : Columns) (r : RequestRow) : RequestRow :=
  { r with
    authorizationState := c.authorizationState <|> r.authorizationState
    lastFailureClass := c.lastFailureClass.getD r.lastFailureClass
    lastErrorCode := (c.lastErrorCode.map (·.bind (·.encode?))).getD r.lastErrorCode
    attemptCount := c.attemptCount.getD r.attemptCount
    nextAttemptAt := c.nextAttemptAt <|> r.nextAttemptAt
    providerObjectId := (c.providerObjectId.bind (·.encode?)) <|> r.providerObjectId
    providerState := c.providerState <|> r.providerState
    holderOwnerInstanceId := (c.holder.map (·.map Prod.fst)).getD r.holderOwnerInstanceId
    holderLeaseEpoch := (c.holder.map (·.elim 0 Prod.snd)).getD r.holderLeaseEpoch }

/-! ### Transitions -/

/-- How a transition fails; nothing is written then. -/
inductive Fault
  | notFound
  /-- The holder has lost its lease or the lock. -/
  | leaseFenced
  | requestRevision
  /-- The edge map does not have the edge. -/
  | illegalTransition
  | unencodable

/-- The row after a transition. -/
def movedRow (dst : RequestState) (c : Columns) (r : RequestRow) : RequestRow :=
  { c.write r with state := dst, revision := r.revision + 1 }

/-- `_transition_request_locked`, and with it `transition_external_action_request`. -/
def transitionRow (db : BrokerDb) (id : String) (src dst : RequestState) (revision : ℕ)
    (c : Columns) : Except Fault BrokerDb :=
  match db.requests id with
  | none => .error .notFound
  | some r =>
    if r.state ≠ src ∨ r.revision ≠ revision then .error .requestRevision
    else if dst ∉ r.state.targets then .error .illegalTransition
    else if c.bindable = false then .error .unencodable
    else .ok { db with requests := Function.update db.requests id (some (movedRow dst c r)) }

/-- `transition_external_action_request_authoritative`. -/
def transitionRowAuthoritative (db : BrokerDb) (name : String) (h : Holder) (id : String)
    (src dst : RequestState) (revision : ℕ) (c : Columns) : Except Fault BrokerDb :=
  if jobHoldsCurrentLease db.toDb h = true ∧ db.locks name = some h then
    transitionRow db id src dst revision c
  else .error .leaseFenced

section

variable {db db' : BrokerDb} {id name : String} {src dst : RequestState} {revision : ℕ}
  {c : Columns} {h : Holder}

/-- **What a transition does**: the row was as the caller said, and nothing else is written. -/
theorem transitionRow_eq_ok (heq : transitionRow db id src dst revision c = .ok db') :
    ∃ r, db.requests id = some r ∧ r.state = src ∧ r.revision = revision ∧ dst ∈ src.targets ∧
      db' = { db with
        requests := Function.update db.requests id (some (movedRow dst c r)) } := by
  unfold transitionRow at heq
  split at heq
  · cases heq
  next r hr =>
    split at heq
    · cases heq
    next hcas =>
      rw [not_or, not_not, not_not] at hcas
      split at heq
      · cases heq
      next hedge =>
        split at heq
        · cases heq
        · cases heq
          rw [not_not, hcas.1] at hedge
          exact ⟨r, hr, hcas.1, hcas.2, hedge, rfl⟩

theorem approvals_of_transitionRow (heq : transitionRow db id src dst revision c = .ok db') :
    db'.approvals = db.approvals := by
  obtain ⟨r, -, -, -, -, rfl⟩ := transitionRow_eq_ok heq
  rfl

theorem transitionRowAuthoritative_eq_ok
    (heq : transitionRowAuthoritative db name h id src dst revision c = .ok db') :
    jobHoldsCurrentLease db.toDb h ∧ db.locks name = some h ∧
      transitionRow db id src dst revision c = .ok db' := by
  unfold transitionRowAuthoritative at heq
  split at heq
  next hcur => exact ⟨hcur.1, hcur.2, heq⟩
  · cases heq

end

/-! ### What a transition keeps -/

/-- What a request was created with, whatever has become of it. -/
def asked (r : RequestRow) : ExternalActionRequest :=
  { r.toExternalActionRequest with
    state := .pending, authorizationState := none, revision := 0, lastFailureClass := none,
    lastErrorCode := none }

variable {r : RequestRow}

@[simp]
theorem state_movedRow {dst : RequestState} {c : Columns} :
    (movedRow dst c r).state = dst := rfl

@[simp]
theorem revision_movedRow {dst : RequestState} {c : Columns} :
    (movedRow dst c r).revision = r.revision + 1 := rfl

/-- A transition does not go unnoticed. -/
theorem update_movedRow_ne {db : BrokerDb} {id : String} {dst : RequestState}
    {c : Columns} (hr : db.requests id = some r) :
    { db with requests := Function.update db.requests id (some (movedRow dst c r)) } ≠ db := by
  intro heq
  have hrow : some (movedRow dst c r) = some r := by
    rw [← hr, ← Function.update_self id (some (movedRow dst c r)) db.requests]
    exact congrFun (congrArg BrokerDb.requests heq) id
  have hrev := congrArg (·.revision) (Option.some.inj hrow)
  rw [revision_movedRow] at hrev
  omega

end Broker

end ArgentTeam
