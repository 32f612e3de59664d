import ArgentTeam.Approvals.Decisions

/-!
# Strangers among the callbacks

Callbacks of strangers share the update log and the cursor with those of the owner. Two runs are
compared here, with and without the callbacks of strangers (`Twin`): they agree on all that a
decision reads, and on which of the later updates are old or have been logged. A callback of the
owner whose update comes after those of all the strangers before it is handled the same in both.
Where it does not, the cursor a stranger has moved makes it stale.
-/

namespace ArgentTeam

open Prog Store

namespace Approvals

def Inbound.Logged (s : Inbound) (x : ℤ) : Prop := ∃ r ∈ s.updateLog.rows, r.updateId = x

/-- Two states agree on which of some updates are old, or have been logged. -/
structure SameUpdates (A : ℤ → Prop) (s t : Inbound) : Prop where
  old : ∀ x, A x → (x < s.nextUpdateId ↔ x < t.nextUpdateId)
  logged : ∀ x, A x → (s.Logged x ↔ t.Logged x)

/-- Two states agree on all that a decision reads, and on some updates. -/
structure Twin (A : ℤ → Prop) (s t : Inbound) : Prop where
  ledger : s.toLedger = t.toLedger
  updates : SameUpdates A s t

variable {A : ℤ → Prop} {s t s' t' : Inbound} {updateId : ℤ} {now : Time} {row : UpdateLog}

/-! ### Steps in lockstep -/

theorem lockstep_onLedger {α : Type} {m : Prog Ledger Failure α} :
    Lockstep (Twin A) (onLedger m) (onLedger m) := by
  intro s t h
  have hleft : onLedger m s = ((m s.toLedger).1, { s with toLedger := (m s.toLedger).2 }) := rfl
  have hright : onLedger m t = ((m t.toLedger).1, { t with toLedger := (m t.toLedger).2 }) := rfl
  rw [hleft, hright, h.ledger]
  exact ⟨rfl, rfl, h.updates.old, h.updates.logged⟩

/-- A row is refused where its update has been logged. -/
theorem insert?_eq_none :
    s.updateLog.insert? row = none ↔ s.Logged row.updateId := by
  constructor
  · intro h
    by_contra hno
    obtain ⟨t, ht⟩ := Table.exists_insert? (t := s.updateLog) (r := row) fun r hr => by
      simpa [UpdateLog.clash] using fun hid => hno ⟨r, hr, hid⟩
    cases h.symm.trans ht
  · rintro ⟨r, hr, hid⟩
    rw [Option.eq_none_iff_forall_ne_some]
    intro t ht
    have hclash := (Table.insert?_eq_some.mp ht).1 r hr
    simp [UpdateLog.clash, hid] at hclash

theorem Logs.logged (h : Logs s s' row) {x : ℤ} :
    s'.Logged x ↔ s.Logged x ∨ x = row.updateId := by
  simp only [Inbound.Logged, h.rows, List.mem_append, List.mem_singleton, or_and_right, exists_or,
    exists_eq_left, eq_comm (a := x)]

/-- A row is inserted in both, or in neither. -/
theorem lockstep_insert (hrow : A row.updateId) :
    Lockstep (Twin A) (insertUpdateLog row) (insertUpdateLog row) := by
  intro s t h
  cases hs : s.updateLog.insert? row with
  | none =>
    have ht := insert?_eq_none.mpr ((h.updates.logged _ hrow).mp (insert?_eq_none.mp hs))
    exact same_of_returns (returns_insertUpdateLog.mpr (.inr ⟨hs, rfl, rfl⟩))
      (returns_insertUpdateLog.mpr (.inr ⟨ht, rfl, rfl⟩)) h
  | some log =>
    obtain ⟨log', ht⟩ : ∃ log', t.updateLog.insert? row = some log' := by
      rw [← Option.ne_none_iff_exists']
      intro hnone
      rw [insert?_eq_none.mpr ((h.updates.logged _ hrow).mpr (insert?_eq_none.mp hnone))] at hs
      cases hs
    refine same_of_returns (returns_insertUpdateLog.mpr (.inl ⟨log, hs, rfl, rfl⟩))
      (returns_insertUpdateLog.mpr (.inl ⟨log', ht, rfl, rfl⟩)) ⟨h.ledger, h.updates.old, ?_⟩
    intro x hx
    rw [(logs_of_insert hs).logged, (logs_of_insert ht).logged, h.updates.logged x hx]

theorem countP_eq (hu : A updateId) (h : Twin A s t) :
    s.updateLog.rows.countP (fun r => r.updateId = updateId) =
      t.updateLog.rows.countP fun r => r.updateId = updateId := by
  have hone : ∀ s : Inbound, s.Logged updateId →
      s.updateLog.rows.countP (fun r => r.updateId = updateId) = 1 := by
    rintro s ⟨r, hr, hid⟩
    refine Table.countP_eq_one (fun a => by simp [UpdateLog.clash]) hr (by simpa using hid) ?_
    intro r' hr' hid'
    refine Table.eq_of_clash (fun a b => by simp [UpdateLog.clash, eq_comm]) hr' hr ?_
    simpa [UpdateLog.clash, hid] using hid'
  have hzero : ∀ s : Inbound, ¬s.Logged updateId →
      s.updateLog.rows.countP (fun r => r.updateId = updateId) = 0 := by
    intro s hno
    rw [List.countP_eq_zero]
    exact fun r hr hid => hno ⟨r, hr, by simpa using hid⟩
  by_cases hs : s.Logged updateId
  · rw [hone s hs, hone t ((h.updates.logged _ hu).mp hs)]
  · rw [hzero s hs, hzero t fun ht => hs ((h.updates.logged _ hu).mpr ht)]

/-- Closing a row logs nothing. -/
theorem logged_of_finalize {v : Verdict} {n x : ℤ} {k : ℕ}
    (h : (finalizeUpdateLog n v now).Returns s k s') : s'.Logged x ↔ s.Logged x := by
  obtain ⟨table, htable, -, rfl⟩ := Relvar.returns_update.mp h
  have hid : ∀ r, (Table.patch (fun r : UpdateLog => r.updateId = n)
      (fun r => r.finalize v now) r).updateId = r.updateId := by
    intro r
    unfold Table.patch
    split <;> rfl
  constructor
  · rintro ⟨r, hr, rfl⟩
    obtain ⟨r₀, hr₀, rfl⟩ := (Table.mem_of_update? htable).mp hr
    exact ⟨r₀, hr₀, (hid r₀).symm⟩
  · rintro ⟨r, hr, rfl⟩
    exact ⟨_, (Table.mem_of_update? htable).mpr ⟨r, hr, rfl⟩, hid r⟩

/-- A row is closed in both. -/
theorem lockstep_finalize {v : Verdict} (hu : A updateId) :
    Lockstep (Twin A) (finalizeUpdateLog updateId v now) (finalizeUpdateLog updateId v now) := by
  have hreturns : ∀ s, ∃ s', (finalizeUpdateLog updateId v now).Returns s
      (s.updateLog.rows.countP fun r => r.updateId = updateId) s' ∧ s'.toLedger = s.toLedger ∧
      s'.cursor = s.cursor := by
    intro s
    rcases returns_or_raises (finalizeUpdateLog updateId v now) s with ⟨n, s', h⟩ | ⟨f, s', hraise⟩
    · obtain ⟨table, htable, rfl, rfl⟩ := Relvar.returns_update.mp h
      exact ⟨_, h, rfl, rfl⟩
    · exact absurd hraise not_raises_finalizeUpdateLog
  intro s t h
  obtain ⟨s', hs, hledger, hcursor⟩ := hreturns s
  obtain ⟨t', ht, hledger', hcursor'⟩ := hreturns t
  rw [countP_eq hu h] at hs
  refine same_of_returns hs ht ⟨?_, fun x hx => ?_, fun x hx => ?_⟩
  · rw [hledger, hledger', h.ledger]
  · rw [Inbound.nextUpdateId, Inbound.nextUpdateId, hcursor, hcursor']
    exact h.updates.old x hx
  · rw [logged_of_finalize hs, logged_of_finalize ht, h.updates.logged x hx]

theorem lockstep_advance : Lockstep (Twin A) (advanceCursor updateId now)
    (advanceCursor updateId now) := by
  refine lockstep_change fun s t h => ⟨h.ledger, fun x hx => ?_, h.updates.logged⟩
  have hold := h.updates.old x hx
  change x < max s.nextUpdateId _ ↔ x < max t.nextUpdateId _
  omega

/-! ### Callbacks in lockstep -/

variable {p : Processor} {c : Callback} {fails : Option Failure} {chat sender : Bool} {a : Act}

theorem lockstep_staleUpdate {date : Option ℤ} (hu : A updateId) :
    Lockstep (Twin A) (staleUpdate updateId date chat sender now)
      (staleUpdate updateId date chat sender now) :=
  (lockstep_insert hu).bind fun _ => lockstep_pure

/-- A choice by the cursor is the same in both. -/
theorem lockstep_next {m n : Prog Inbound Failure CallbackOutcome} (hu : A updateId)
    (hold : Lockstep (Twin A) m m) (hnew : Lockstep (Twin A) n n) :
    Lockstep (Twin A)
      (do
        let next ← read Inbound.nextUpdateId
        if updateId < next then m else n)
      (do
        let next ← read Inbound.nextUpdateId
        if updateId < next then m else n) := by
  refine lockstep_read_bind fun s t h => ?_
  by_cases hs : updateId < s.nextUpdateId
  · rw [if_pos hs, if_pos ((h.updates.old _ hu).mp hs)]
    exact hold s t h
  · rw [if_neg hs, if_neg fun ht => hs ((h.updates.old _ hu).mpr ht)]
    exact hnew s t h

/-- Whatever raises is rolled back in both. -/
theorem lockstep_inboundTransaction {m : Prog Inbound Failure CallbackOutcome}
    (h : Lockstep (Twin A) m m) :
    Lockstep (Twin A) (rescue (inboundTransaction fails m) onFailure)
      (rescue (inboundTransaction fails m) onFailure) := by
  refine lockstep_rescue (lockstep_atomically ?_ ?_) fun f => ?_
  · exact (lockstep_whenSome fun _ _ => lockstep_raise).bind fun _ => h
  · intro s t s' t' hst hst'
    refine ⟨?_, hst.updates.old, hst.updates.logged⟩
    have hdb := congrArg (fun l : Ledger => l.world.db) hst.ledger
    have hchallenges := congrArg Ledger.challenges hst.ledger
    have hworld := congrArg Ledger.world hst'.ledger
    simp only [Inbound.setRows, Inbound.rows, hdb, hchallenges, hworld]
  · cases f <;> exact lockstep_pure

theorem lockstep_persistTerminal {terminal : Terminal} (hu : A updateId) :
    Lockstep (Twin A) (persistTerminal fails updateId terminal chat sender)
      (persistTerminal fails updateId terminal chat sender) := by
  refine lockstep_inboundTransaction (lockstep_onLedger.bind fun now => ?_)
  refine lockstep_next hu (lockstep_staleUpdate hu) ((lockstep_insert hu).bind fun _ => ?_)
  exact lockstep_ite (fun _ => lockstep_pure) fun _ => lockstep_advance.bind fun _ => lockstep_pure

/-- A decision is the same in both. -/
theorem lockstep_decideCallback {d : Decision} {tokenHash : String} {messageDate : ℤ}
    (hu : A updateId) :
    Lockstep (Twin A) (decideCallback fails d tokenHash updateId messageDate)
      (decideCallback fails d tokenHash updateId messageDate) := by
  refine lockstep_inboundTransaction (lockstep_onLedger.bind fun now => ?_)
  refine lockstep_next hu (lockstep_staleUpdate hu) ((lockstep_insert hu).bind fun _ => ?_)
  refine lockstep_ite (fun _ => lockstep_pure) fun _ => lockstep_onLedger.bind fun v => ?_
  exact (lockstep_finalize hu).bind fun _ => lockstep_advance.bind fun _ => lockstep_pure

theorem lockstep_showDetails {token : PyStr} :
    Lockstep (Twin A) (showDetails p fails token) (showDetails p fails token) := by
  refine (lockstep_whenSome fun _ _ => lockstep_raise).bind fun _ => lockstep_onLedger.bind
    fun now => lockstep_read_bind fun s t h => ?_
  rw [h.ledger]
  exact ⟨rfl, h⟩

/-- **A callback whose update both agree on is handled the same in both.** -/
theorem lockstep_processCallback
    (hu : ∀ updateId, representableUpdateId c.updateId = some updateId → A updateId) :
    Lockstep (Twin A) (processCallback p fails c) (processCallback p fails c) := by
  refine lockstep_rescue ?_ fun _ => lockstep_pure
  refine lockstep_caseSome (fun updateId hid => ?_) fun _ => ?_
  · have hu := hu updateId (representable_of_valid hid)
    refine lockstep_caseSome (fun messageDate _ => ?_) fun _ => lockstep_persistTerminal hu
    refine lockstep_ite (fun _ => lockstep_persistTerminal hu) fun _ => ?_
    refine lockstep_ite (fun _ => lockstep_persistTerminal hu) fun _ => ?_
    refine lockstep_caseSome (fun parsed _ => ?_) fun _ => lockstep_persistTerminal hu
    obtain ⟨action, token⟩ := parsed
    cases action with
    | details => exact lockstep_showDetails
    | approve | reject => exact lockstep_decideCallback hu
  · exact lockstep_caseSome (fun updateId hid => lockstep_persistTerminal (hu updateId hid))
      fun _ => lockstep_pure

/-! ### Runs with and without strangers -/

/-- A callback of a stranger: its sender or its chat is not the owner. -/
def Act.stranger (p : Processor) : Act → Bool
  | .callback _ c => authorizationFlags p c ≠ (true, true)
  | _ => false

/-- The update a callback of a stranger is logged under. -/
def Act.strangerUpdate (p : Processor) : Act → Option ℤ
  | .callback _ c =>
    if authorizationFlags p c ≠ (true, true) then representableUpdateId c.updateId else none
  | _ => none

/-- The update of a genuine callback: it comes from the owner, with a valid action, challenge and
update identifier. -/
def Act.genuineUpdate (p : Processor) : Act → Option ℤ
  | .callback _ c =>
    if authorizationFlags p c = (true, true) ∧ (parseActionChallenge c).isSome then
      validUpdateId c.updateId
    else none
  | _ => none

/-- What a callback comes to. -/
def Act.outcome (p : Processor) (s : Inbound) : Act → Option CallbackOutcome
  | .callback e c => (processCallback p e.fails c (s.under e)).1.toOption
  | _ => none

def genuineOutcomes (p : Processor) : Inbound → List Act → List (Option CallbackOutcome)
  | _, [] => []
  | s, a :: as =>
    if (a.genuineUpdate p).isSome then a.outcome p s :: genuineOutcomes p (act p s a) as
    else genuineOutcomes p (act p s a) as

def withoutStrangers (p : Processor) (as : List Act) : List Act :=
  as.filter fun a => a.stranger p = false

/-- Before a genuine callback, the strangers had smaller updates. -/
def Ahead (p : Processor) (a b : Act) : Prop :=
  ∀ x ∈ a.strangerUpdate p, ∀ u ∈ b.genuineUpdate p, x < u

instance {a b : Act} : Decidable (Ahead p a b) :=
  inferInstanceAs (Decidable (∀ x ∈ a.strangerUpdate p, ∀ u ∈ b.genuineUpdate p, x < u))

/-- Before the genuine callbacks of a run, the strangers had smaller updates. -/
def InOrder (p : Processor) (as : List Act) : Prop := as.Pairwise (Ahead p)

/-- Two states agree on the rows of the core, on the challenges, and on some updates. -/
structure Agree (A : ℤ → Prop) (s t : Inbound) : Prop where
  db : s.world.db = t.world.db
  challenges : s.challenges = t.challenges
  updates : SameUpdates A s t

theorem Agree.twin (h : Agree A s t) (e : Outside) : Twin A (s.under e) (t.under e) := by
  refine ⟨?_, h.updates.old, h.updates.logged⟩
  simp only [Inbound.under, h.db, h.challenges]

theorem Twin.agree (h : Twin A s t) : Agree A s t :=
  ⟨congrArg (fun l : Ledger => l.world.db) h.ledger, congrArg Ledger.challenges h.ledger, h.updates⟩

theorem SameUpdates.mono {B : ℤ → Prop} (h : SameUpdates A s t) (hB : ∀ x, B x → A x) :
    SameUpdates B s t :=
  ⟨fun x hx => h.old x (hB x hx), fun x hx => h.logged x (hB x hx)⟩

theorem SameUpdates.trans {u : Inbound} (h : SameUpdates A s t) (h' : SameUpdates A t u) :
    SameUpdates A s u :=
  ⟨fun x hx => (h.old x hx).trans (h'.old x hx), fun x hx => (h.logged x hx).trans (h'.logged x hx)⟩

theorem SameUpdates.symm (h : SameUpdates A s t) : SameUpdates A t s :=
  ⟨fun x hx => (h.old x hx).symm, fun x hx => (h.logged x hx).symm⟩

/-- **A callback that is not genuine writes its own row**, and does not move the cursor beyond
it. -/
theorem agree_of_handled {o : CallbackOutcome} {e : Outside}
    (hc : (Act.callback e c).genuineUpdate p = none)
    (hA : ∀ u, representableUpdateId c.updateId = some u → ∀ x, A x → u < x)
    (h : Handled p c s o s') : Agree A s' s := by
  cases h with
  | kept _ _ ho hrows =>
    obtain ⟨hdb, hchallenges, hlog, hcursor⟩ := eq_of_rows hrows
    refine ⟨hdb, hchallenges, fun x _ => ?_, fun x _ => ?_⟩
    · rw [nextUpdateId_of_rows hrows]
    · rw [Inbound.Logged, hlog, Inbound.Logged]
  | logged _ _ row ho hfailure hdb hchallenges hlog hrow hid hcursor =>
    refine ⟨hdb, hchallenges, fun x hx => ?_, fun x hx => ?_⟩
    · exact ⟨hcursor.later x (hA _ hid x hx), fun h => h.trans_le hcursor.le⟩
    · rw [hlog.logged]
      exact or_iff_left (hA _ hid x hx).ne'
  | judged d token updateId v _ row howner hid hparsed hjudged hlog hrow hcursor =>
    simp [Act.genuineUpdate, authorized_iff.mp howner, hparsed, hid] at hc

theorem agree_of_callback {e : Outside} (hc : (Act.callback e c).genuineUpdate p = none)
    (hA : ∀ u, representableUpdateId c.updateId = some u → ∀ x, A x → u < x) :
    Agree A (act p s (.callback e c)) s := by
  obtain ⟨o, s', h⟩ := exists_returns_processCallback p e.fails c (s.under e)
  have hagree := agree_of_handled hc hA (handled_processCallback h)
  rw [act, h.snd_eq]
  exact ⟨hagree.db, hagree.challenges, hagree.updates.old, hagree.updates.logged⟩

/-- An act of the owner, or of the core, keeps the two runs in agreement. -/
theorem agree_act (hup : ∀ x y, A x → x ≤ y → A y) (ha : a.stranger p = false)
    (hgenuine : ∀ u ∈ a.genuineUpdate p, A u) (h : Agree A s t) :
    Agree A (act p s a) (act p t a) := by
  cases a with
  | callback e c =>
    by_cases hall : ∀ u, representableUpdateId c.updateId = some u → A u
    · exact (lockstep_processCallback hall _ _ (h.twin e)).2.agree
    · push Not at hall
      obtain ⟨u, hu, hnot⟩ := hall
      have hlater : ∀ u', representableUpdateId c.updateId = some u' → ∀ x, A x → u' < x := by
        intro u' hu' x hx
        obtain rfl := Option.mem_unique hu hu'
        exact not_le.mp fun hle => hnot (hup x u hx hle)
      have hnone : (Act.callback e c).genuineUpdate p = none := by
        rw [Option.eq_none_iff_forall_ne_some]
        intro u' hu'
        have hvalid : validUpdateId c.updateId = some u' := by
          simp only [Act.genuineUpdate, Option.ite_none_right_eq_some] at hu'
          exact hu'.2
        obtain rfl := Option.some.inj (hu.symm.trans (representable_of_valid hvalid))
        exact hnot (hgenuine u hu')
      have hleft := agree_of_callback (s := s) hnone hlater
      have hright := agree_of_callback (s := t) hnone hlater
      exact ⟨hleft.db.trans (h.db.trans hright.db.symm),
        hleft.challenges.trans (h.challenges.trans hright.challenges.symm),
        hleft.updates.trans (h.updates.trans hright.updates.symm)⟩
  | createChallenge e ap supervisorJobId notificationOutboxId now id tokenHash known =>
    exact (lockstep_onLedger _ _ (h.twin e)).2.agree
  | core e cfg command =>
    refine ⟨?_, h.challenges, h.updates.old, h.updates.logged⟩
    have hworld := congrArg Ledger.world (h.twin e).ledger
    exact congrArg (fun w => (Core.step cfg w command).db) hworld

/-- A genuine callback comes to the same in both. -/
theorem outcome_eq (h : Agree A s t) (hgenuine : ∀ u ∈ a.genuineUpdate p, A u)
    (hsome : (a.genuineUpdate p).isSome) : a.outcome p s = a.outcome p t := by
  cases a with
  | callback e c =>
    obtain ⟨u, hu⟩ := Option.isSome_iff_exists.mp hsome
    have hvalid : validUpdateId c.updateId = some u := by
      simp only [Act.genuineUpdate, Option.ite_none_right_eq_some] at hu
      exact hu.2
    have hall : ∀ u', representableUpdateId c.updateId = some u' → A u' := by
      intro u' hu'
      obtain rfl := Option.some.inj (hu'.symm.trans (representable_of_valid hvalid))
      exact hgenuine _ hu
    exact congrArg Except.toOption (lockstep_processCallback hall _ _ (h.twin e)).1
  | createChallenge | core => rfl

theorem genuineUpdate_of_stranger (ha : a.stranger p) :
    a.genuineUpdate p = none := by
  cases a with
  | callback e c =>
    have hflags : authorizationFlags p c ≠ (true, true) := by simpa [Act.stranger] using ha
    simp [Act.genuineUpdate, hflags]
  | createChallenge | core => rfl

theorem agree_stranger (ha : a.stranger p) :
    Agree (fun x => A x ∧ ∀ v ∈ a.strangerUpdate p, v < x) (act p s a) s := by
  cases a with
  | callback e c =>
    have hflags : authorizationFlags p c ≠ (true, true) := by simpa [Act.stranger] using ha
    refine agree_of_callback (genuineUpdate_of_stranger ha) fun u hu x hx => ?_
    exact hx.2 u (by simpa [Act.strangerUpdate, hflags] using hu)
  | createChallenge | core => cases ha

/-- **The two runs go on in agreement.** -/
theorem agree_run (as : List Act) (hup : ∀ x y, A x → x ≤ y → A y) (h : Agree A s t)
    (hgenuine : ∀ a ∈ as, ∀ u ∈ a.genuineUpdate p, A u) (horder : InOrder p as) :
    genuineOutcomes p s as = genuineOutcomes p t (withoutStrangers p as) ∧
      (run p s as).world.db = (run p t (withoutStrangers p as)).world.db ∧
      (run p s as).challenges = (run p t (withoutStrangers p as)).challenges := by
  induction as generalizing A s t with
  | nil => exact ⟨rfl, h.db, h.challenges⟩
  | cons a as ih =>
    obtain ⟨hahead, hrest⟩ := List.pairwise_cons.mp horder
    cases ha : a.stranger p with
    | true =>
      have hstranger := agree_stranger (A := A) (s := s) ha
      have hagree : Agree _ (act p s a) t := ⟨hstranger.db.trans h.db,
        hstranger.challenges.trans h.challenges,
        hstranger.updates.trans (h.updates.mono fun x hx => hx.1)⟩
      have hskip : genuineOutcomes p s (a :: as) = genuineOutcomes p (act p s a) as :=
        if_neg (by simp [genuineUpdate_of_stranger ha])
      rw [hskip, withoutStrangers, List.filter_cons_of_neg (by simp [ha])]
      refine ih (fun x y hx hle => ⟨hup x y hx.1 hle, fun v hv => (hx.2 v hv).trans_le hle⟩) hagree
        (fun b hb u hu => ⟨hgenuine b (List.mem_cons_of_mem a hb) u hu, fun v hv => ?_⟩) hrest
      exact hahead b hb v hv u hu
    | false =>
      have hsame := hgenuine a List.mem_cons_self
      have hagree := agree_act hup ha hsame h
      obtain ⟨houtcomes, hdb, hchallenges⟩ := ih hup hagree
        (fun b hb => hgenuine b (List.mem_cons_of_mem a hb)) hrest
      rw [withoutStrangers, List.filter_cons_of_pos (by simp [ha])]
      refine ⟨?_, hdb, hchallenges⟩
      simp only [genuineOutcomes]
      split
      next hsome => exact congrArg₂ List.cons (outcome_eq h hsame hsome) houtcomes
      next => exact houtcomes

/-- **Strangers do not disturb the owner where the updates come in order.** -/
theorem strangers_do_not_disturb (p : Processor) (s : Inbound) (as : List Act)
    (h : InOrder p as) :
    genuineOutcomes p s as = genuineOutcomes p s (withoutStrangers p as) ∧
      (run p s as).world.db = (run p s (withoutStrangers p as)).world.db ∧
      (run p s as).challenges = (run p s (withoutStrangers p as)).challenges :=
  agree_run (A := fun _ => True) as (fun _ _ _ _ => trivial)
    ⟨rfl, rfl, fun _ _ => Iff.rfl, fun _ _ => Iff.rfl⟩ (fun _ _ _ _ => trivial) h

/-! ### A stranger ahead of the owner -/

def pendingApproval : OwnerApproval where
  id := .numbered 1
  taskId := .numbered 2
  action := "merge"
  scope := "main"
  status := .pending
  requestedBy := .lead
  createdAt := 0
  decidedAt := none
  consumedAt := none
  expiresAt := 2000000
  bindingHash := ⟨(Uuid.numbered 2).text, "merge", "main"⟩
  approvedAt := none
  executionId := none
  executedAt := none
  closedAt := none

def openChallenge : Challenge where
  id := "challenge"
  approvalId := (Uuid.numbered 1).text
  taskId := (Uuid.numbered 2).text
  supervisorJobId := "job"
  bindingHash := ⟨(Uuid.numbered 2).text, "merge", "main"⟩
  notificationOutboxId := none
  tokenHash := "digest"
  status := .issued
  createdAt := 0
  expiresAt := 2000000
  consumedAt := none
  consumedUpdateId := none
  invalidatedAt := none

/-- An owner, and one digest for every token. -/
def oneOwner : Processor where
  expectedOwnerUserId := some (PyStr.ofString "owner")
  expectedOwnerChatId := some (PyStr.ofString "owner")
  tokenHash _ := "digest"
  scopeRef _ := "scope"

/-- The approval waits for its owner. -/
def waiting : Inbound where
  world :=
    { db := { Db.empty with core := { Db.empty.core with
        ownerApprovals := ⟨[pendingApproval], List.pairwise_singleton ..⟩ } }
      clock := ⟨fun _ => 1000000, monotone_const⟩
      reads := 0
      uuids := Uuid.numbered
      draws := 0 }
  challenges := ⟨[openChallenge], List.pairwise_singleton ..⟩
  updateLog := .empty
  cursor := none

def plainOutside : Outside where
  clock := ⟨fun _ => 1000000, monotone_const⟩
  uuids := Uuid.numbered
  fails := none

/-- A button to approve, pressed by someone. -/
def pressApprove (sender : String) (updateId : ℤ) : Act :=
  .callback plainOutside
    { action := .member .approve
      challenge := .str (PyStr.ofString "0123456789012345678901234567890123456789012")
      updateId := .int updateId
      messageDate := .int 1
      privateChatIdentity := .str (PyStr.ofString sender)
      senderIdentity := .str (PyStr.ofString sender) }

/-- A stranger with a smaller update does not disturb the owner. -/
theorem stranger_before_owner :
    genuineOutcomes oneOwner waiting [pressApprove "stranger" 1, pressApprove "owner" 5] =
      genuineOutcomes oneOwner waiting
        (withoutStrangers oneOwner [pressApprove "stranger" 1, pressApprove "owner" 5]) ∧
    (run oneOwner waiting [pressApprove "stranger" 1, pressApprove "owner" 5]).world.db =
      (run oneOwner waiting
        (withoutStrangers oneOwner [pressApprove "stranger" 1, pressApprove "owner" 5])).world.db ∧
    (run oneOwner waiting [pressApprove "stranger" 1, pressApprove "owner" 5]).challenges =
      (run oneOwner waiting
        (withoutStrangers oneOwner [pressApprove "stranger" 1,
          pressApprove "owner" 5])).challenges :=
  strangers_do_not_disturb oneOwner waiting _ (by
    refine List.pairwise_pair.mpr ?_
    decide +kernel)

/-- **The cursor a stranger has moved makes the decision of the owner stale.** -/
theorem stranger_makes_stale :
    genuineOutcomes oneOwner waiting [pressApprove "stranger" 10, pressApprove "owner" 5] =
      [some .staleUpdate] ∧
    genuineOutcomes oneOwner waiting
      (withoutStrangers oneOwner [pressApprove "stranger" 10, pressApprove "owner" 5]) =
      [some .approved] := by
  decide

end Approvals

end ArgentTeam
