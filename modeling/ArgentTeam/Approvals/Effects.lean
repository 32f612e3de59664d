import ArgentTeam.Approvals.Processor
import ArgentTeam.Core.GateSteps

/-!
# What a callback does

Every way a callback can end, with what it writes (`Handled`). A callback is not handled at all
where its update identifier cannot be written down; it is shown the details; its transaction
fails; its update is old, or a duplicate; it is logged and the cursor moved; or it is judged: then
the challenge is found to be nothing to decide with, is closed, its approval is released, or it is
consumed and the approval decided (`Judged`).
-/

namespace ArgentTeam

open Prog Store

namespace Approvals

variable {α : Type} {s s' : Inbound} {l l' : Ledger} {a : α} {f : Failure} {w w' : World}
  {s₁ : Inbound} {row : UpdateLog} {n : ℕ}

/-! ### Steps on a part of the state -/

@[simp]
theorem returns_onWorld {m : Cmd α} : (onWorld m).Returns l a l' ↔
    ∃ w, m.Returns l.world a w ∧ { l with world := w } = l' := by
  rcases h : m l.world with ⟨_ | b, w⟩ <;> simp [Returns, onWorld, h]

@[simp]
theorem returns_onLedger {m : Prog Ledger Failure α} : (onLedger m).Returns s a s' ↔
    ∃ l, m.Returns s.toLedger a l ∧ { s with toLedger := l } = s' := by
  rcases h : m s.toLedger with ⟨r, l⟩
  simp [Returns, onLedger, h]

@[simp]
theorem raises_onLedger {m : Prog Ledger Failure α} : (onLedger m).Raises s f s' ↔
    ∃ l, m.Raises s.toLedger f l ∧ { s with toLedger := l } = s' := by
  rcases h : m s.toLedger with ⟨r, l⟩
  simp [Raises, onLedger, h]

@[simp]
theorem raises_onWorld {m : Cmd α} : (onWorld m).Raises l f l' ↔
    ∃ e w, m.Raises l.world e w ∧ .other = f ∧ { l with world := w } = l' := by
  rcases h : m l.world with ⟨e | b, w⟩ <;> simp [Raises, onWorld, h]

@[simp]
theorem returns_insertUpdateLog {b : Bool} :
    (insertUpdateLog row).Returns s b s' ↔
      (∃ t, s.updateLog.insert? row = some t ∧ b ∧ { s with updateLog := t } = s') ∨
        (s.updateLog.insert? row = none ∧ b = false ∧ s = s') := by
  simp only [insertUpdateLog, returns_bind, returns_read, returns_caseSome, returns_change,
    returns_pure]
  constructor
  · rintro ⟨_, _, ⟨rfl, rfl⟩, ⟨t, ht, _, _, rfl, rfl, rfl⟩ | ⟨hnone, rfl, rfl⟩⟩
    · exact .inl ⟨t, ht, rfl, rfl⟩
    · exact .inr ⟨hnone, rfl, rfl⟩
  · rintro (⟨t, ht, rfl, rfl⟩ | ⟨hnone, rfl, rfl⟩)
    · exact ⟨_, _, ⟨rfl, rfl⟩, .inl ⟨t, ht, (), _, rfl, rfl, rfl⟩⟩
    · exact ⟨_, _, ⟨rfl, rfl⟩, .inr ⟨hnone, rfl, rfl⟩⟩

/-! ### Judgements -/

def CallbackOutcome.isDecision : CallbackOutcome → Bool
  | .approved | .rejected => true
  | _ => false

/-- The callback has come to nothing, for a failure. -/
def CallbackOutcome.isFailure : CallbackOutcome → Bool
  | .locked | .error => true
  | _ => false

/-- The log says that an expired approval was released. -/
def LogOutcome.isRelease : LogOutcome → Bool
  | .expiredApproval => true
  | _ => false

def Decision.outcome : Decision → CallbackOutcome
  | approve => .approved
  | reject => .rejected

/-- The status it leaves the challenge with. -/
def Decision.target : Decision → ChallengeStatus
  | approve => .consumedApproved
  | reject => .consumedRejected

def Decision.status : Decision → ApprovalStatus
  | approve => .approved
  | reject => .rejected

def Decision.body : Decision → OwnerApproval → Cmd Unit
  | approve => approveDecisionOn
  | reject => rejectDecisionOn

/-- The key it is recorded under. -/
def Decision.record (d : Decision) (ch : Challenge) (ap : OwnerApproval) (updateId : ℤ) :
    CommandIdempotency where
  key := "telegram-owner-approval:" ++ toString updateId ++ ":" ++ ch.id ++ ":" ++ d.value
  command := "telegram_owner_decision"
  resultId := ap.id.text
  args := (Json.dict [("update_id", .int updateId), ("challenge_id", .text ch.id),
    ("decision", .text d.value), ("approval_id", .text ap.id.text)]).sorted

/-- The challenge of a token is open, has not expired, and is bound to this approval, which is
pending. -/
structure Presents (l : Ledger) (token : String) (now : Time) (ch : Challenge)
    (ap : OwnerApproval) : Prop where
  found : l.getChallengeByTokenHash token = some ch
  issued : ch.status = .issued
  live : now < ch.expiresAt
  approval : l.world.db.getApproval ch.approvalId = some ap
  unchanged : unchanged ch ap = true
  pending : ap.status = .pending

/-- What the judgement of a callback of the owner comes to. -/
inductive Judged (d : Decision) (token : String) (updateId : ℤ) (now : Time) (l : Ledger) :
    Verdict → Ledger → Prop
  /-- There is nothing to decide, and nothing is written. -/
  | idle (v : Verdict) (hdecision : v.outcome.isDecision = false)
    (hfailure : v.outcome.isFailure = false) (hlogged : v.logged.isRelease = false) :
    Judged d token updateId now l v l
  /-- The challenge has expired, or its gate has changed: it is closed. -/
  | closes (v : Verdict) (ch : Challenge) (status : ChallengeStatus) (n : ℕ) (l' : Ledger)
    (hdecision : v.outcome.isDecision = false) (hfailure : v.outcome.isFailure = false)
    (hlogged : v.logged.isRelease = false) (hstatus : status ≠ .issued)
    (hclose : (closeChallenge status ch.id now).Returns l n l') :
    Judged d token updateId now l v l'
  | releases (ch : Challenge) (ap : OwnerApproval) (w : World) (h : Presents l token now ch ap)
    (hexpired : ap.expiresAt ≤ now) (hrelease : (expireAndReleaseOn ap.id).Returns l.world () w) :
    Judged d token updateId now l
      { outcome := .expired, logged := .expiredApproval, challengeId := some ch.id,
        approvalId := some ap.id.text }
      { l with world := w }
  /-- The challenge is consumed, and the approval decided. -/
  | decides (v : Verdict) (ch : Challenge) (ap : OwnerApproval) (l₁ : Ledger) (w₁ w₂ : World)
    (h : Presents l token now ch ap) (hlive : now < ap.expiresAt) (hv : v.outcome = d.outcome)
    (hlogged : v.logged.isRelease = false)
    (hconsume : (consumeChallenge ch.id d.target now updateId).Returns l 1 l₁)
    (hbody : (d.body ap).Returns l.world () w₁)
    (hrecord : (setCommandIdempotency (d.record ch ap updateId)).Returns w₁ () w₂) :
    Judged d token updateId now l v { l₁ with world := w₂ }

theorem terminalOutcome_outcome (ch : Challenge) :
    (terminalOutcome ch).outcome.isDecision = false ∧
      (terminalOutcome ch).outcome.isFailure = false ∧
      (terminalOutcome ch).logged.isRelease = false := by
  unfold terminalOutcome
  split <;> exact ⟨rfl, rfl, rfl⟩

theorem world_of_update {p : Challenge → Bool} {f : Challenge → Challenge}
    (h : (challengeTable.update Failure.other p f).Returns l n l') : l'.world = l.world := by
  obtain ⟨t, -, -, rfl⟩ := Relvar.returns_update.mp h
  rfl

theorem Challenge.clash_comm (a b : Challenge) : a.clash b = b.clash a := by
  simp only [Challenge.clash, sameKey]
  grind

theorem Challenge.eq_of_id {t : Table Challenge Challenge.clash} {a b : Challenge}
    (ha : a ∈ t.rows) (hb : b ∈ t.rows) (hid : a.id = b.id) : a = b :=
  Table.eq_of_clash Challenge.clash_comm ha hb (by simp [Challenge.clash, hid])

theorem count_of_consumeChallenge {ch : Challenge} {status : ChallengeStatus} {now : Time}
    {updateId : ℤ} (hch : ch ∈ l.challenges.rows) (hissued : ch.status = .issued)
    (h : (consumeChallenge ch.id status now updateId).Returns l n l') : n = 1 := by
  obtain ⟨t, -, hn, -⟩ := Relvar.returns_update.mp h
  rw [← hn]
  refine Table.countP_eq_one (fun a => by simp [Challenge.clash]) hch (by simp [hissued]) ?_
  intro c hc hsel
  simp only [Bool.and_eq_true, decide_eq_true_eq] at hsel
  exact Challenge.eq_of_id hc hch hsel.1

theorem mem_of_found {token : String} {ch : Challenge}
    (h : l.getChallengeByTokenHash token = some ch) : ch ∈ l.challenges.rows ∧
      ch.tokenHash = token := Table.mem_of_lookup h

section Judge

variable {d : Decision} {token : String} {updateId messageDate : ℤ} {now : Time} {ch : Challenge}
  {ap : OwnerApproval} {v : Verdict}

theorem judged_decideGate (hp : Presents l token now ch ap) (hlive : now < ap.expiresAt)
    (h : (decideGate d ch ap updateId now).Returns l v l') :
    Judged d token updateId now l v l' := by
  simp only [decideGate, returns_bind, returns_ite, returns_pure, returns_onWorld] at h
  obtain ⟨n, l₁, hconsume, ⟨hn, -, -⟩ | ⟨hn, _, l₂, ⟨w₁, hbody, rfl⟩, _, l₃, ⟨w₂, hrecord, rfl⟩,
    rfl, rfl⟩⟩ := h
  · exact absurd (count_of_consumeChallenge (mem_of_found hp.found).1 hp.issued hconsume) hn
  · obtain rfl : n = 1 := not_not.mp hn
    rw [world_of_update hconsume] at hbody
    refine .decides _ ch ap l₁ w₁ w₂ hp hlive ?_ ?_ ?_ ?_ hrecord
    · cases d <;> rfl
    · cases d <;> rfl
    · cases d <;> exact hconsume
    · cases d <;> exact hbody

theorem judged_judgeApproval (hfound : l.getChallengeByTokenHash token = some ch)
    (hissued : ch.status = .issued) (hlive : now < ch.expiresAt)
    (h : (judgeApproval d ch updateId now).Returns l v l') :
    Judged d token updateId now l v l' := by
  simp only [judgeApproval, returns_bind, returns_read, returns_caseSome, returns_ite,
    returns_pure, returns_onWorld] at h
  obtain ⟨_, _, ⟨rfl, rfl⟩, ⟨ap, hap, ⟨-, n, l₁, hclose, rfl, rfl⟩ | ⟨hsame, hrest⟩⟩ |
    ⟨-, n, l₁, hclose, rfl, rfl⟩⟩ := h
  · exact .closes _ ch .invalidated n _ rfl rfl rfl (by decide) hclose
  · have hsame : unchanged ch ap = true := by simpa using hsame
    rcases hrest with ⟨-, rfl, rfl⟩ | ⟨hpending, ⟨hexpired, _, l₁, ⟨w, hrelease, rfl⟩, rfl, rfl⟩ |
      ⟨hexpired, hdecide⟩⟩
    · exact .idle _ rfl rfl rfl
    · exact .releases ch ap w ⟨hfound, hissued, hlive, hap, hsame, not_not.mp hpending⟩ hexpired
        hrelease
    · exact judged_decideGate ⟨hfound, hissued, hlive, hap, hsame, not_not.mp hpending⟩
        (not_le.mp hexpired) hdecide
  · exact .closes _ ch .invalidated n _ rfl rfl rfl (by decide) hclose

/-- **What a judgement comes to.** -/
theorem judged_judge (h : (judge d token updateId messageDate now).Returns l v l') :
    Judged d token updateId now l v l' := by
  simp only [judge, returns_bind, returns_read, returns_caseSome, returns_ite, returns_pure] at h
  obtain ⟨_, _, ⟨rfl, rfl⟩, ⟨ch, hfound, hcases⟩ | ⟨-, rfl, rfl⟩⟩ := h
  · rcases hcases with ⟨-, rfl, rfl⟩ | ⟨hissued, ⟨-, n, l₁, hclose, rfl, rfl⟩ | ⟨hlive, hrest⟩⟩
    · exact .idle _ (terminalOutcome_outcome ch).1 (terminalOutcome_outcome ch).2.1
        (terminalOutcome_outcome ch).2.2
    · exact .closes _ ch .expired n _ rfl rfl rfl (by decide) hclose
    · rcases hrest with ⟨-, rfl, rfl⟩ | ⟨-, ⟨-, n, l₁, hclose, rfl, rfl⟩ | ⟨-, ⟨-, rfl, rfl⟩ |
        ⟨-, hjudge⟩⟩⟩
      · exact .idle _ rfl rfl rfl
      · exact .closes _ ch .expired n _ rfl rfl rfl (by decide) hclose
      · exact .idle _ rfl rfl rfl
      · exact judged_judgeApproval hfound (not_not.mp hissued) (not_le.mp hlive) hjudge
  · exact .idle _ rfl rfl rfl

end Judge

/-! ### The update log and the cursor -/

structure Logs (s s' : Inbound) (row : UpdateLog) : Prop where
  fresh : ∀ r ∈ s.updateLog.rows, r.updateId ≠ row.updateId
  rows : s'.updateLog.rows = s.updateLog.rows ++ [row]

theorem logs_of_insert {t : Table UpdateLog UpdateLog.clash}
    (h : s.updateLog.insert? row = some t) : Logs s { s with updateLog := t } row := by
  obtain ⟨hclash, hrows⟩ := Table.insert?_eq_some.mp h
  exact ⟨fun r hr => by simpa [UpdateLog.clash] using hclash r hr, hrows⟩

/-- The row of an update, once it is closed. -/
def UpdateLog.finalize (r : UpdateLog) (v : Verdict) (now : Time) : UpdateLog :=
  { r with decision := v.decision, challengeId := v.challengeId, approvalId := v.approvalId,
           outcome := v.logged, processedAt := now }

theorem Logs.finalize {v : Verdict} {now : Time}
    (hlog : Logs s s₁ row) (h : (finalizeUpdateLog row.updateId v now).Returns s₁ n s') :
    Logs s s' (row.finalize v now) := by
  obtain ⟨t, ht, -, rfl⟩ := Relvar.returns_update.mp h
  refine ⟨hlog.fresh, ?_⟩
  have hrows := (Table.update?_eq_some.mp ht).2
  rw [show (updateLogTable.get s₁).rows = s.updateLog.rows ++ [row] from hlog.rows,
    List.map_append] at hrows
  refine hrows.trans (congrArg₂ (· ++ ·) ?_ ?_)
  · refine (List.map_congr_left fun r hr => ?_).trans (List.map_id _)
    exact Table.patch_neg (by simpa using hlog.fresh r hr)
  · exact congrArg (fun r => [r]) (Table.patch_pos (by simp))

/-- A row can always be closed. -/
theorem not_raises_finalizeUpdateLog {updateId : ℤ} {v : Verdict} {now : Time} :
    ¬(finalizeUpdateLog updateId v now).Raises s f s' := by
  intro h
  obtain ⟨hnone, -, -⟩ := Relvar.raises_update.mp h
  obtain ⟨t, ht⟩ := Table.exists_update? (updateLogTable.get s)
    (p := fun r => r.updateId = updateId)
    (f := fun r => r.finalize v now) fun a _ b _ hab => by
      have hid : ∀ r, (Table.patch (fun r : UpdateLog => r.updateId = updateId)
          (fun r => r.finalize v now) r).updateId = r.updateId := by
        intro r
        unfold Table.patch
        split <;> rfl
      simpa only [UpdateLog.clash, hid] using hab
  cases hnone.symm.trans ht

/-- The cursor only moves on, and not beyond the update. -/
structure Advances (s s' : Inbound) (updateId : ℤ) : Prop where
  le : s.nextUpdateId ≤ s'.nextUpdateId
  later : ∀ x, updateId < x → x < s'.nextUpdateId → x < s.nextUpdateId

theorem advances_of_advance {updateId : ℤ} {now : Time} {u : Unit}
    (h : (advanceCursor updateId now).Returns s u s') : Advances s s' updateId := by
  obtain rfl := returns_change.mp h
  refine ⟨le_max_left .., fun x hlater hx => ?_⟩
  have hmax : x < max s.nextUpdateId (min (updateId + 1) sqliteMaxInt) := hx
  omega

/-! ### Transactions -/

@[simp]
theorem rows_setRows (r : Rows) (s : Inbound) : (s.setRows r).rows = r := rfl

theorem returns_inboundTransaction {fails : Option Failure} {m : Prog Inbound Failure α} :
    (inboundTransaction fails m).Returns s a s' ↔ fails = none ∧ m.Returns s a s' := by
  simp only [inboundTransaction, returns_atomically, returns_bind, returns_whenSome,
    not_returns_raise, and_false, exists_false, false_or]
  constructor
  · rintro ⟨_, _, ⟨rfl, rfl⟩, h⟩
    exact ⟨rfl, h⟩
  · rintro ⟨rfl, h⟩
    exact ⟨(), s, ⟨rfl, rfl⟩, h⟩

theorem rows_of_raises {fails : Option Failure} {m : Prog Inbound Failure α}
    (h : (inboundTransaction fails m).Raises s f s') : s'.rows = s.rows := by
  obtain ⟨s₁, -, rfl⟩ := raises_atomically.mp h
  exact rows_setRows ..

/-- A transaction and what its failure comes to: it has returned, or the rows are as they were. -/
theorem returns_rescue_onFailure {fails : Option Failure}
    {m : Prog Inbound Failure CallbackOutcome} {o : CallbackOutcome}
    (h : (rescue (inboundTransaction fails m) onFailure).Returns s o s') :
    (fails = none ∧ m.Returns s o s') ∨ (o.isFailure ∧ s'.rows = s.rows) := by
  rcases returns_rescue.mp h with h | ⟨f, s₁, hraise, hfail⟩
  · exact .inl ((returns_inboundTransaction).mp h)
  · refine .inr ?_
    have hrows := rows_of_raises hraise
    cases f with
    | locked | other =>
      obtain ⟨rfl, rfl⟩ := returns_pure.mp hfail
      exact ⟨rfl, hrows⟩

/-! ### Every way a callback can end -/

/-- A callback comes from the owner: sender and chat are the owner. -/
def Authorized (p : Processor) (c : Callback) : Prop :=
  ∃ owner, p.owner = some owner ∧ c.senderIdentity = .str owner ∧ c.privateChatIdentity = .str owner

theorem authorized_iff {p : Processor} {c : Callback} :
    Authorized p c ↔ authorizationFlags p c = (true, true) := by
  unfold Authorized authorizationFlags
  split
  next owner sender chat howner hsender hchat =>
    rw [howner, hsender, hchat]
    constructor
    · rintro ⟨owner', hsame, hs, hc⟩
      obtain rfl := Option.some.inj hsame
      obtain rfl := Json.str.inj hs
      obtain rfl := Json.str.inj hc
      simp
    · intro h
      simp only [Prod.mk.injEq, decide_eq_true_eq, Bool.and_eq_true] at h
      exact ⟨owner, rfl, congrArg Json.str h.2.1, congrArg Json.str h.1⟩
  next hno =>
    refine iff_of_false ?_ (by simp)
    rintro ⟨owner, howner, hsender, hchat⟩
    exact hno owner owner owner howner hsender hchat

def Decision.action : Decision → CallbackAction
  | approve => .approve
  | reject => .reject

/-- The ledger once the clock has been read. -/
def Inbound.read (s : Inbound) : Ledger :=
  { s.toLedger with world := { s.world with reads := s.world.reads + 1 } }

/-- The time a transaction goes by. -/
def Inbound.time (s : Inbound) : Time := s.world.clock s.world.reads

/-- Every way a callback can end. -/
inductive Handled (p : Processor) (c : Callback) (s : Inbound) : CallbackOutcome → Inbound → Prop
  | kept (o : CallbackOutcome) (s' : Inbound) (ho : o.isDecision = false)
    (hrows : s'.rows = s.rows) : Handled p c s o s'
  /-- It is logged, and nothing else but the cursor is written. -/
  | logged (o : CallbackOutcome) (s' : Inbound) (row : UpdateLog) (ho : o.isDecision = false)
    (hfailure : o.isFailure = false) (hdb : s'.world.db = s.world.db)
    (hchallenges : s'.challenges = s.challenges) (hlog : Logs s s' row)
    (hrow : row.outcome.isRelease = false)
    (hid : representableUpdateId c.updateId = some row.updateId)
    (hcursor : Advances s s' row.updateId) : Handled p c s o s'
  | judged (d : Decision) (token : PyStr) (updateId : ℤ) (v : Verdict) (s' : Inbound)
    (row : UpdateLog) (howner : Authorized p c) (hid : validUpdateId c.updateId = some updateId)
    (hparsed : parseActionChallenge c = some (d.action, token))
    (hjudged : Judged d (p.tokenHash token) updateId s.time s.read v s'.toLedger)
    (hlog : Logs s s' row) (hrow : row.outcome = v.logged)
    (hcursor : s.nextUpdateId ≤ s'.nextUpdateId) : Handled p c s v.outcome s'

section Handled

variable {p : Processor} {c : Callback} {o : CallbackOutcome} {fails : Option Failure}
  {updateId messageDate : ℤ} {date : Option ℤ} {chat sender : Bool} {now : Time} {token : PyStr}

theorem rows_of_read {l : Ledger} {w : World} (hw : { s.world with reads := s.world.reads + 1 } = w)
    (hl : { s.toLedger with world := w } = l) :
    ({ s with toLedger := l } : Inbound).rows = s.rows := by
  subst hw hl
  rfl

theorem eq_of_rows (h : s₁.rows = s.rows) : s₁.world.db = s.world.db ∧
    s₁.challenges = s.challenges ∧ s₁.updateLog = s.updateLog ∧ s₁.cursor = s.cursor := by
  simpa only [Inbound.rows, Prod.mk.injEq] using h

theorem Logs.of_rows (hrows : s₁.rows = s.rows)
    (h : Logs s₁ s' row) : Logs s s' row := by
  obtain ⟨-, -, hlog, -⟩ := eq_of_rows hrows
  exact ⟨hlog ▸ h.fresh, hlog ▸ h.rows⟩

theorem nextUpdateId_of_rows (hrows : s₁.rows = s.rows) :
    s₁.nextUpdateId = s.nextUpdateId := by
  obtain ⟨-, -, -, hcursor⟩ := eq_of_rows hrows
  rw [Inbound.nextUpdateId, hcursor, Inbound.nextUpdateId]

theorem Advances.of_rows {updateId : ℤ} (hrows : s₁.rows = s.rows)
    (h : Advances s₁ s' updateId) : Advances s s' updateId := by
  have hnext := nextUpdateId_of_rows hrows
  exact ⟨hnext ▸ h.le, hnext ▸ h.later⟩

/-- A row is inserted, and nothing else but the cursor written. -/
theorem handled_of_insert {t : Table UpdateLog UpdateLog.clash}
    (hrows : s₁.rows = s.rows) (hins : s₁.updateLog.insert? row = some t)
    (ho : o.isDecision = false) (hfailure : o.isFailure = false)
    (hrow : row.outcome.isRelease = false)
    (hid : representableUpdateId c.updateId = some row.updateId)
    (hs' : s'.toLedger = s₁.toLedger ∧ s'.updateLog = t)
    (hcursor : Advances s₁ s' row.updateId) : Handled p c s o s' := by
  obtain ⟨hledger, rfl⟩ := hs'
  obtain ⟨hdb, hchallenges, -, -⟩ := eq_of_rows hrows
  have hlog : Logs s₁ s' row := ⟨(logs_of_insert hins).fresh, (logs_of_insert hins).rows⟩
  refine .logged o s' row ho hfailure ?_ ?_ (hlog.of_rows hrows) hrow hid
    (hcursor.of_rows hrows)
  · exact (congrArg (fun l : Ledger => l.world.db) hledger).trans hdb
  · exact (congrArg Ledger.challenges hledger).trans hchallenges

theorem representable_of_valid {v : Json} (h : validUpdateId v = some updateId) :
    representableUpdateId v = some updateId := by
  cases v with
  | int n =>
    simp only [validUpdateId, representableUpdateId, Option.ite_none_right_eq_some] at h ⊢
    exact ⟨⟨h.1.1, h.1.2.le⟩, h.2⟩
  | _ => cases h

theorem handled_staleUpdate (hrows : s₁.rows = s.rows)
    (hid : representableUpdateId c.updateId = some updateId)
    (h : (staleUpdate updateId date chat sender now).Returns s₁ o s') : Handled p c s o s' := by
  simp only [staleUpdate, returns_bind, returns_insertUpdateLog, returns_pure] at h
  obtain ⟨b, s₂, ⟨t, ht, rfl, rfl⟩ | ⟨-, rfl, rfl⟩, rfl, rfl⟩ := h
  · exact handled_of_insert hrows ht rfl rfl rfl hid ⟨rfl, rfl⟩ ⟨le_rfl, fun _ _ h => h⟩
  · exact .kept _ _ rfl hrows

/-- A callback that is not decided is logged, or has been, or its transaction fails. -/
theorem handled_persistTerminal {t : Terminal}
    (hid : representableUpdateId c.updateId = some updateId)
    (h : (persistTerminal fails updateId t chat sender).Returns s o s') : Handled p c s o s' := by
  rcases returns_rescue_onFailure h with ⟨-, h⟩ | ⟨hfailure, hrows⟩
  · simp only [terminalInTransaction, returns_bind, returns_onLedger, returns_onWorld,
      returns_nowIso, returns_read, returns_ite, returns_insertUpdateLog, returns_pure] at h
    obtain ⟨now, s₁, ⟨l, ⟨w, ⟨hnow, hw⟩, hl⟩, rfl⟩, _, _, ⟨rfl, rfl⟩, ⟨-, hstale⟩ | ⟨-, h⟩⟩ := h
    · exact handled_staleUpdate (rows_of_read hw hl) hid hstale
    · obtain ⟨b, s₂, ⟨t', ht', rfl, rfl⟩ | ⟨-, rfl, rfl⟩, ⟨hb, h⟩ | ⟨hb, h⟩⟩ := h
      · cases hb
      · obtain ⟨_, s₃, hadvance, rfl, rfl⟩ := h
        have hcursor := advances_of_advance hadvance
        obtain rfl := returns_change.mp hadvance
        exact handled_of_insert (rows_of_read hw hl) ht' (by cases t <;> rfl) (by cases t <;> rfl)
          (by cases t <;> rfl) hid ⟨rfl, rfl⟩ ⟨hcursor.le, hcursor.later⟩
      · obtain ⟨rfl, rfl⟩ := h
        exact .kept _ _ rfl (rows_of_read hw hl)
      · exact absurd rfl hb
  · exact .kept o s' (by cases o <;> first | rfl | cases hfailure) hrows

theorem handled_showDetails
    (h : (showDetails p fails token).Returns s o s') : Handled p c s o s' := by
  simp only [showDetails, returns_bind, returns_whenSome, not_returns_raise, and_false,
    exists_false, false_or, returns_onLedger, returns_onWorld, returns_nowIso, returns_read,
    returns_pure] at h
  obtain ⟨-, _, ⟨-, rfl⟩, now, s₁, ⟨l, ⟨w, ⟨hnow, hw⟩, hl⟩, rfl⟩, _, _, ⟨rfl, rfl⟩, rfl, rfl⟩ := h
  refine .kept _ _ ?_ (rows_of_read hw hl)
  split <;> rfl

/-- A decision of the owner is judged, or its update has been logged, or its transaction fails. -/
theorem handled_decideCallback {d : Decision} (howner : Authorized p c)
    (hid : validUpdateId c.updateId = some updateId)
    (hparsed : parseActionChallenge c = some (d.action, token))
    (h : (decideCallback fails d (p.tokenHash token) updateId messageDate).Returns s o s') :
    Handled p c s o s' := by
  rcases returns_rescue_onFailure h with ⟨-, h⟩ | ⟨hfailure, hrows⟩
  · simp only [decideInTransaction, returns_bind, returns_onLedger, returns_onWorld,
      returns_nowIso, returns_read, returns_ite, returns_insertUpdateLog, returns_pure] at h
    obtain ⟨now, s₁, ⟨l, ⟨w, ⟨hnow, hw⟩, hl⟩, rfl⟩, _, _, ⟨rfl, rfl⟩, ⟨-, hstale⟩ | ⟨-, h⟩⟩ := h
    · exact handled_staleUpdate (rows_of_read hw hl) (representable_of_valid hid) hstale
    · obtain ⟨b, s₂, ⟨t', ht', rfl, rfl⟩ | ⟨-, rfl, rfl⟩, ⟨hb, h⟩ | ⟨hb, h⟩⟩ := h
      · cases hb
      · obtain ⟨v, s₃, ⟨l', hjudge, rfl⟩, n, s₄, hfinalize, _, s₅, hadvance, rfl, rfl⟩ := h
        subst hw hl
        have hopened : Logs s { s with toLedger := l', updateLog := t' } _ :=
          ⟨(logs_of_insert ht').fresh, (logs_of_insert ht').rows⟩
        have hlog := hopened.finalize hfinalize
        have hcursor := (advances_of_advance hadvance).le
        obtain ⟨t₄, -, -, rfl⟩ := Relvar.returns_update.mp hfinalize
        obtain rfl := returns_change.mp hadvance
        obtain rfl : s.time = now := hnow
        exact .judged d token updateId v _ _ howner hid hparsed (judged_judge hjudge)
          ⟨hlog.fresh, hlog.rows⟩ rfl hcursor
      · obtain ⟨rfl, rfl⟩ := h
        exact .kept _ _ rfl (rows_of_read hw hl)
      · exact absurd rfl hb
  · exact .kept o s' (by cases o <;> first | rfl | cases hfailure) hrows

theorem not_raises_rescue_onFailure {m : Prog Inbound Failure CallbackOutcome} :
    ¬(rescue m onFailure).Raises s f s' := by
  rw [raises_rescue]
  rintro ⟨e, s₁, -, hraise⟩
  cases e <;> exact not_raises_pure hraise

theorem rows_of_raises_showDetails
    (h : (showDetails p fails token).Raises s f s') : s'.rows = s.rows := by
  simp only [showDetails, raises_bind, raises_whenSome, raises_raise, raises_onLedger,
    raises_onWorld, not_raises_nowIso, not_raises_read, not_raises_pure, false_and, and_false,
    exists_false, or_false] at h
  obtain ⟨e, -, -, rfl⟩ := h
  rfl

/-- Only the details raise, and write nothing then. -/
theorem rows_of_raises_dispatchCallback (h : (dispatchCallback p fails c).Raises s f s') :
    s'.rows = s.rows := by
  simp only [dispatchCallback, raises_caseSome, raises_ite, persistTerminal,
    not_raises_rescue_onFailure, not_raises_pure, and_false, exists_false, or_false,
    false_or] at h
  obtain ⟨_, _, _, _, -, -, ⟨action, token⟩, -, h⟩ := h
  cases action with
  | details => exact rows_of_raises_showDetails h
  | approve | reject => exact absurd h not_raises_rescue_onFailure

/-- **Every way a callback can end.** -/
theorem handled_processCallback (h : (processCallback p fails c).Returns s o s') :
    Handled p c s o s' := by
  rcases returns_rescue.mp h with h | ⟨f, s₁, hraise, hpure⟩
  · simp only [dispatchCallback, returns_caseSome, returns_ite] at h
    rcases h with ⟨updateId, hid, ⟨messageDate, -, h⟩ | ⟨-, h⟩⟩ | ⟨-, ⟨updateId, hid, h⟩ | ⟨-, h⟩⟩
    · rcases h with ⟨-, h⟩ | ⟨hchat, ⟨-, h⟩ | ⟨hsender, ⟨⟨action, token⟩, hparsed, h⟩ | ⟨-, h⟩⟩⟩
      · exact handled_persistTerminal (representable_of_valid hid) h
      · exact handled_persistTerminal (representable_of_valid hid) h
      · have howner : Authorized p c := authorized_iff.mpr
          (Prod.ext (by simpa using hchat) (by simpa using hsender))
        cases action with
        | details => exact handled_showDetails h
        | approve => exact handled_decideCallback (d := .approve) howner hid hparsed h
        | reject => exact handled_decideCallback (d := .reject) howner hid hparsed h
      · exact handled_persistTerminal (representable_of_valid hid) h
    · exact handled_persistTerminal (representable_of_valid hid) h
    · exact handled_persistTerminal hid h
    · obtain ⟨rfl, rfl⟩ := returns_pure.mp h
      exact .kept _ _ rfl rfl
  · obtain ⟨rfl, rfl⟩ := returns_pure.mp hpure
    exact .kept _ _ rfl (rows_of_raises_dispatchCallback hraise)

/-- **A callback always comes to an outcome.** -/
theorem exists_returns_processCallback (p : Processor) (fails : Option Failure) (c : Callback)
    (s : Inbound) : ∃ o s', (processCallback p fails c).Returns s o s' := by
  rcases returns_or_raises (processCallback p fails c) s with h | ⟨f, s', hraise⟩
  · exact h
  · obtain ⟨_, s₁, -, hpure⟩ := raises_rescue.mp hraise
    exact absurd hpure not_raises_pure

end Handled

end Approvals

end ArgentTeam
