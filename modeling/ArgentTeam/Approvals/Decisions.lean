import ArgentTeam.Core.Exec
import ArgentTeam.Approvals.Bridge

/-!
# Callbacks decide once

Callbacks, new challenges and the commands of the core in any order, each with its own clock and
its own identifiers (`Act`). A row of the update log is never rewritten, the cursor never goes
back, and a challenge that is no longer open is never touched again (`Evolves`); and what a
callback answers is what it has done (`Answers`).
-/

namespace ArgentTeam

open Prog Store

namespace Approvals

/-! ### Acts -/

/-- What may happen. -/
inductive Act
  | callback (e : Outside) (c : Callback)
  /-- A challenge is created, from an approval that was read before. -/
  | createChallenge (e : Outside) (ap : OwnerApproval) (supervisorJobId : String)
    (notificationOutboxId : Option String) (now : Time) (id tokenHash : String) (known : Bool)
  | core (e : Outside) (cfg : Config) (command : Core.Command)

/-- The state, with an outside of its own. -/
def Inbound.under (s : Inbound) (e : Outside) : Inbound :=
  { s with world := { s.world with clock := e.clock, reads := 0, uuids := e.uuids, draws := 0 } }

/-- What an act leaves behind. -/
def act (p : Processor) (s : Inbound) : Act → Inbound
  | .callback e c => (processCallback p e.fails c (s.under e)).2
  | .createChallenge e ap supervisorJobId notificationOutboxId now id tokenHash known =>
    (onLedger (createChallenge ap supervisorJobId notificationOutboxId now id tokenHash known)
      (s.under e)).2
  | .core e cfg command =>
    { s with world := Core.step cfg (s.under e).world command }

def run (p : Processor) : Inbound → List Act → Inbound := Runs.run (act p)

/-! ### What no act undoes -/

/-- A challenge stays, and once it is no longer open, it stays as it is. -/
def Keeps (t t' : Table Challenge Challenge.clash) : Prop :=
  ∀ ch ∈ t.rows, ∃ ch' ∈ t'.rows, ch'.id = ch.id ∧ (ch.status ≠ .issued → ch' = ch)

instance : Std.Refl Keeps where
  refl _ ch h := ⟨ch, h, rfl, fun _ => rfl⟩

instance : IsTrans (Table Challenge Challenge.clash) Keeps where
  trans t t₁ t₂ h h' ch hch := by
    obtain ⟨ch₁, hch₁, hid₁, hsame₁⟩ := h ch hch
    obtain ⟨ch₂, hch₂, hid₂, hsame₂⟩ := h' ch₁ hch₁
    refine ⟨ch₂, hch₂, hid₂.trans hid₁, fun hclosed => ?_⟩
    obtain rfl := hsame₁ hclosed
    exact hsame₂ hclosed

/-- What no act undoes. -/
structure Evolves (s s' : Inbound) : Prop where
  log : s.updateLog.rows <+: s'.updateLog.rows
  cursor : s.nextUpdateId ≤ s'.nextUpdateId
  challenges : Keeps s.challenges s'.challenges

instance : Std.Refl Evolves where
  refl _ := ⟨List.prefix_rfl, le_rfl, Std.Refl.refl _⟩

instance : IsTrans Inbound Evolves where
  trans _ _ _ h h' := ⟨h.log.trans h'.log, h.cursor.trans h'.cursor,
    IsTrans.trans _ _ _ h.challenges h'.challenges⟩

variable {p : Processor} {c : Callback} {s s' : Inbound} {o : CallbackOutcome} {l l' : Ledger}
  {now : Time} {n : ℕ}

/-- Only an open challenge is written to. -/
theorem keeps_of_update {q : Challenge → Bool} {f : Challenge → Challenge}
    (hq : ∀ ch, q ch → ch.status = .issued) (hid : ∀ ch, (f ch).id = ch.id)
    (h : (challengeTable.update Failure.other q f).Returns l n l') :
    Keeps l.challenges l'.challenges := by
  obtain ⟨t, ht, -, rfl⟩ := Relvar.returns_update.mp h
  intro ch hch
  refine ⟨Table.patch q f ch, (Table.mem_of_update? ht).mpr ⟨ch, hch, rfl⟩, ?_, fun hclosed => ?_⟩
  · unfold Table.patch
    split
    · exact hid ch
    · rfl
  · refine Table.patch_neg ?_
    rw [← Bool.not_eq_true]
    exact fun hopen => hclosed (hq ch hopen)

theorem keeps_of_closeChallenge {status : ChallengeStatus} {id : String}
    (h : (closeChallenge status id now).Returns l n l') : Keeps l.challenges l'.challenges := by
  refine keeps_of_update ?_ ?_ h
  · exact fun ch hch => by simpa using (Bool.and_eq_true_iff.mp hch).2
  · exact fun _ => rfl

theorem keeps_of_consumeChallenge {status : ChallengeStatus} {id : String}
    {updateId : ℤ} (h : (consumeChallenge id status now updateId).Returns l n l') :
    Keeps l.challenges l'.challenges := by
  refine keeps_of_update ?_ ?_ h
  · exact fun ch hch => by simpa using (Bool.and_eq_true_iff.mp hch).2
  · exact fun _ => rfl

/-- A new challenge leaves the others alone. -/
instance {ap : OwnerApproval} {supervisorJobId : String} {notificationOutboxId : Option String}
    {id tokenHash : String} {known : Bool} :
    Moves Ledger.challenges Keeps
      (createChallenge ap supervisorJobId notificationOutboxId now id tokenHash known) := by
  have hinsert : ∀ ch, Moves Ledger.challenges Keeps (challengeTable.insert Failure.other ch) :=
    fun ch => Relvar.moves_insert fun l t h ch' hch' =>
      ⟨ch', (Table.mem_of_insert? h).mpr (.inl hch'), rfl, fun _ => rfl⟩
  unfold createChallenge
  repeat' first
    | infer_instance
    | refine moves_bind ?_ fun _ => ?_

theorem keeps_of_judged {d : Decision} {token : String} {updateId : ℤ} {v : Verdict}
    (h : Judged d token updateId now l v l') : Keeps l.challenges l'.challenges := by
  cases h with
  | idle | releases => exact Std.Refl.refl _
  | closes _ ch status n _ hdecision hfailure hlogged hstatus hclose =>
    exact keeps_of_closeChallenge hclose
  | decides _ ch ap l₁ w₁ w₂ hp hlive hv hlogged hconsume hbody hrecord =>
    have hkeeps := keeps_of_consumeChallenge hconsume
    exact hkeeps

/-- A callback undoes nothing. -/
theorem evolves_of_handled (h : Handled p c s o s') : Evolves s s' := by
  cases h with
  | kept _ _ ho hrows =>
    obtain ⟨-, hchallenges, hlog, -⟩ := eq_of_rows hrows
    refine ⟨hlog ▸ List.prefix_rfl, (nextUpdateId_of_rows hrows).ge, ?_⟩
    rw [hchallenges]
    exact Std.Refl.refl _
  | logged _ _ row ho hfailure hdb hchallenges hlog hrow hid hcursor =>
    refine ⟨hlog.rows ▸ List.prefix_append .., hcursor.le, ?_⟩
    rw [hchallenges]
    exact Std.Refl.refl _
  | judged d token updateId v _ row howner hid hparsed hjudged hlog hrow hcursor =>
    exact ⟨hlog.rows ▸ List.prefix_append .., hcursor,
      keeps_of_judged (l := s.read) hjudged⟩

/-- **No act undoes anything.** -/
theorem evolves_act (a : Act) : Evolves s (act p s a) := by
  cases a with
  | callback e c =>
    obtain ⟨o, s', h⟩ := exists_returns_processCallback p e.fails c (s.under e)
    have hevolves := evolves_of_handled (handled_processCallback h)
    rw [act, h.snd_eq]
    exact ⟨hevolves.log, hevolves.cursor, hevolves.challenges⟩
  | createChallenge e ap supervisorJobId notificationOutboxId now id tokenHash known =>
    refine ⟨List.prefix_rfl, le_rfl, ?_⟩
    exact Moves.moves (π := Ledger.challenges) (R := Keeps)
      (m := createChallenge ap supervisorJobId notificationOutboxId now id tokenHash known)
      (s.under e).toLedger
  | core e cfg command => exact ⟨List.prefix_rfl, le_rfl, Std.Refl.refl _⟩

/-! ### What is done to the approvals -/

/-- The row of one approval is rewritten, and has this status then. -/
def Rewrites (db db' : Db) (ap : OwnerApproval) (status : ApprovalStatus) : Prop :=
  ∃ f c, (f ap).id = ap.id ∧ (f ap).status = status ∧ Core.SetApproval db.core c ap f ∧
    db'.core.ownerApprovals = c.ownerApprovals

section Rewrites

variable {db db' : Db} {ap a a' : OwnerApproval} {status : ApprovalStatus} {id : String}
  {w w' : World} {d : Decision}

theorem Rewrites.found (h : Rewrites db db' ap status)
    (hap : ap ∈ db.core.ownerApprovals.rows) :
    ∃ ap', db'.getApproval ap.id.text = some ap' ∧ ap'.status = status := by
  obtain ⟨f, c, hid, hstatus, hset, hsame⟩ := h
  refine ⟨f ap, Db.getApproval_eq_some.mpr ⟨?_, by rw [hid]⟩, hstatus⟩
  rw [hsame]
  exact (Core.mem_of_setApproval hset hap).mpr (.inl rfl)

/-- Where the status of a found approval has changed, it is the one that was rewritten. -/
theorem Rewrites.status_eq (h : Rewrites db db' ap status)
    (hap : ap ∈ db.core.ownerApprovals.rows) (ha : db.getApproval id = some a)
    (ha' : db'.getApproval id = some a') (hne : a'.status ≠ a.status) :
    a = ap ∧ a'.status = status := by
  by_cases hid : a.id = ap.id
  · obtain rfl := OwnerApproval.eq_of_id (Db.getApproval_eq_some.mp ha).1 hap hid
    obtain ⟨b, hb, hstatus⟩ := h.found hap
    rw [(Db.getApproval_eq_some.mp ha).2, ha'] at hb
    exact ⟨rfl, Option.some.inj hb ▸ hstatus⟩
  · obtain ⟨f, c, -, -, hset, hsame⟩ := h
    have hkept : db'.getApproval id = some a := by
      refine Db.getApproval_eq_some.mpr ⟨?_, (Db.getApproval_eq_some.mp ha).2⟩
      rw [hsame]
      exact (Core.mem_of_setApproval hset hap).mpr (.inr ⟨(Db.getApproval_eq_some.mp ha).1, hid⟩)
    exact absurd (congrArg OwnerApproval.status (Option.mem_unique ha' hkept)) hne

theorem rewrites_of_body (hap : ap ∈ w.db.core.ownerApprovals.rows)
    (hpending : ap.status = .pending) (h : (d.body ap).Returns w () w') :
    Rewrites w.db w'.db ap d.status := by
  cases d with
  | approve =>
    have h : (approveDecisionOn ap).Returns w () w' := h
    simp only [approveDecisionOn, returns_bind, returns_nowIso, returns_require, emitEvent_eq,
      markApproved, Relvar.returns_update] at h
    obtain ⟨now, _, ⟨-, rfl⟩, rc, _, ⟨t, ht, hcount, rfl⟩, -, _, ⟨hrc, rfl⟩, hemit⟩ := h
    rw [← hcount] at hrc
    have hcond := Core.condition_of_count
      (p := fun a => a.status = .pending && now < a.expiresAt) hap hrc
    refine ⟨_, _, rfl, rfl, Core.setApproval_of_update hap hcond ht, ?_⟩
    exact congrArg CoreDb.ownerApprovals (Moves.frame Core.core hemit)
  | reject =>
    have h : (rejectDecisionOn ap).Returns w () w' := h
    simp only [rejectDecisionOn, returns_bind, returns_nowIso, returns_require, returns_read,
      returns_whenSome, Core.returns_validateTransition, emitEvent_eq, applyTransitionOn_eq,
      markRejected, Relvar.returns_update] at h
    obtain ⟨now, _, ⟨-, rfl⟩, rc, _, ⟨t, ht, hcount, rfl⟩, -, _, ⟨hrc, rfl⟩, task, _,
      ⟨htask, rfl⟩, _, w₃, hblock, hemit⟩ := h
    refine ⟨_, _, rfl, rfl, Core.setApproval_of_update hap (by simp [hpending]) ht, ?_⟩
    refine (congrArg CoreDb.ownerApprovals (Moves.frame Core.core hemit)).trans ?_
    rcases hblock with ⟨t, rfl, -, _, ⟨-, rfl⟩, happly⟩ | ⟨rfl, hsame⟩
    · exact (Core.releases_of_applyTransition htask (by decide) happly).keeps.1
    · exact hsame ▸ rfl

theorem rewrites_of_release (hap : ap ∈ w.db.core.ownerApprovals.rows)
    (hpending : ap.status = .pending) (hexpired : ap.expiresAt ≤ w.clock w.reads)
    (h : (expireAndReleaseOn ap.id).Returns w () w') : Rewrites w.db w'.db ap .expired := by
  rw [expireAndReleaseOn_eq] at h
  obtain ⟨c, hset, hreleases⟩ := Core.expireAndRelease_core hap hexpired h
  rw [if_pos (by rw [hpending]; rfl)] at hset
  exact ⟨_, c, rfl, rfl, hset, hreleases.keeps.1⟩

end Rewrites

/-! ### What a callback answers -/

/-- In a callback the approval bound to its challenge went from pending to decided; the callback
came from the owner, and neither the challenge nor the approval had expired. -/
def Decides (p : Processor) (c : Callback) (d : Decision) (s s' : Inbound) : Prop :=
  ∃ token ch ap ap', parseToken c.challenge = some token ∧
    s.getChallengeByTokenHash (p.tokenHash token) = some ch ∧
    s.world.db.getApproval ch.approvalId = some ap ∧ ap.status = .pending ∧
    s'.world.db.getApproval ch.approvalId = some ap' ∧ ap'.status = d.status ∧
    Authorized p c ∧ s.time < ch.expiresAt ∧ s.time < ap.expiresAt

structure Answers (p : Processor) (c : Callback) (s : Inbound) (o : CallbackOutcome)
    (s' : Inbound) : Prop where
  decision : ∀ d : Decision, o = d.outcome ↔ Decides p c d s s'
  failure : o.isFailure = true → s'.rows = s.rows

theorem parseToken_of_parse {a : CallbackAction} {token : PyStr}
    (h : parseActionChallenge c = some (a, token)) : parseToken c.challenge = some token := by
  simp only [parseActionChallenge, Option.bind_eq_some_iff, Option.map_eq_some_iff] at h
  obtain ⟨_, -, _, htoken, hpair⟩ := h
  rw [htoken, (Prod.mk.inj hpair).2]

theorem not_decides_of_same {d : Decision}
    (h : s'.world.db.core.ownerApprovals = s.world.db.core.ownerApprovals) :
    ¬Decides p c d s s' := by
  rintro ⟨token, ch, ap, ap', -, -, hap, hpending, hap', hstatus, -⟩
  have hsame : s'.world.db.getApproval ch.approvalId = s.world.db.getApproval ch.approvalId := by
    rw [Db.getApproval, h, Db.getApproval]
  obtain rfl := Option.some.inj (hap'.symm.trans (hsame.trans hap))
  rw [hpending] at hstatus
  cases d <;> cases hstatus

theorem answers_of_same (ho : o.isDecision = false)
    (hfailure : o.isFailure → s'.rows = s.rows)
    (h : s'.world.db.core.ownerApprovals = s.world.db.core.ownerApprovals) :
    Answers p c s o s' := by
  refine ⟨fun d => iff_of_false ?_ (not_decides_of_same h), hfailure⟩
  rintro rfl
  rw [d.isDecision_outcome] at ho
  cases ho

theorem Decision.status_ne_pending (d : Decision) : d.status ≠ .pending := by
  cases d <;> decide

theorem Decision.status_injective {d d' : Decision} (h : d.status = d'.status) : d = d' := by
  cases d <;> cases d' <;> first | rfl | cases h

/-- **A callback answers what it has done.** -/
theorem answers_of_handled (h : Handled p c s o s') : Answers p c s o s' := by
  cases h with
  | kept _ _ ho hrows =>
    refine answers_of_same ho (fun _ => hrows) ?_
    rw [(eq_of_rows hrows).1]
  | logged _ _ row ho hfailure hdb hchallenges hlog hrow hid hcursor =>
    refine answers_of_same ho (fun hfailed => ?_) (by rw [hdb])
    rw [hfailure] at hfailed
    cases hfailed
  | judged d token updateId v _ row howner hid hparsed hjudged hlog hrow hcursor =>
    generalize hl : s'.toLedger = l' at hjudged
    have hworld : s'.world = l'.world := congrArg Ledger.world hl
    cases hjudged with
    | idle _ hdecision hfailure hlogged =>
      refine answers_of_same hdecision (fun hfailed => ?_) (by rw [hworld]; rfl)
      rw [hfailure] at hfailed
      cases hfailed
    | closes _ ch status n _ hdecision hfailure hlogged hstatus hclose =>
      refine answers_of_same hdecision (fun hfailed => ?_) ?_
      · rw [hfailure] at hfailed
        cases hfailed
      · rw [hworld, world_of_update hclose]
        rfl
    | releases ch ap w hp hexpired hrelease =>
      have hrewrites := rewrites_of_release hp.intact.1 hp.pending
        (hexpired.trans (s.world.clock.monotone (Nat.le_succ _))) hrelease
      refine ⟨fun d' => iff_of_false (fun hd' => ?_) ?_, fun hfailed => ?_⟩
      · cases d' <;> cases hd'
      · rintro ⟨-, ch', a, a', -, -, ha, hpending, ha', hstatus, -⟩
        obtain ⟨-, hexpired'⟩ := hrewrites.status_eq hp.intact.1 ha (hworld ▸ ha')
          (by rw [hpending, hstatus]; exact d'.status_ne_pending)
        rw [hstatus] at hexpired'
        cases d' <;> cases hexpired'
      · cases hfailed
    | decides _ ch ap l₁ w₁ w₂ hp hlive hv hlogged hconsume hbody hrecord =>
      have hrewrites := rewrites_of_body hp.intact.1 hp.pending hbody
      have hcore : s'.world.db.core.ownerApprovals = w₁.db.core.ownerApprovals := by
        rw [hworld]
        exact congrArg CoreDb.ownerApprovals (Moves.frame Core.core hrecord)
      have hget : ∀ id, s'.world.db.getApproval id = w₁.db.getApproval id := fun id => by
        rw [Db.getApproval, hcore, Db.getApproval]
      refine ⟨fun d' => ⟨fun hd' => ?_, ?_⟩, fun hfailed => ?_⟩
      · obtain rfl : d = d' := Decision.outcome_injective (hv.symm.trans hd')
        obtain ⟨ap', hap', hstatus⟩ := hrewrites.found hp.intact.1
        rw [(Db.getApproval_eq_some.mp hp.approval).2] at hap'
        exact ⟨token, ch, ap, ap', parseToken_of_parse hparsed, hp.found, hp.approval, hp.pending,
          (hget _).trans hap', hstatus, howner, hp.live, hlive⟩
      · rintro ⟨-, ch', a, a', -, -, ha, hpending, ha', hstatus, -⟩
        rw [hget] at ha'
        obtain ⟨-, hdecided⟩ := hrewrites.status_eq hp.intact.1 ha ha'
          (by rw [hpending, hstatus]; exact d'.status_ne_pending)
        rw [Decision.status_injective (hstatus.symm.trans hdecided)]
        exact hv
      · rw [hv] at hfailed
        cases d <;> cases hfailed

/-- **Callbacks decide once.** From any state, over callbacks, new challenges and commands of the
core in any order, each with any answer from the outside: the rows of the update log stay as they
are, one for an update; the cursor does not go back; a challenge that is no longer open stays as it
is; and after any such run, a callback comes to an outcome, and answers what it has done. -/
theorem callbacks_decide_once (p : Processor) (s : Inbound) (as : List Act) :
    Evolves s (run p s as) ∧
      (∀ r ∈ (run p s as).updateLog.rows, ∀ r' ∈ (run p s as).updateLog.rows,
        r.updateId = r'.updateId → r = r') ∧
      ∀ e c, ∃ o s', (processCallback p e.fails c).Returns ((run p s as).under e) o s' ∧
        Answers p c ((run p s as).under e) o s' := by
  refine ⟨?_, fun r hr r' hr' hid => ?_, fun e c => ?_⟩
  · have hany : Runs.Along (act p) (fun _ _ => True) s as := Runs.along_of_forall fun _ _ => trivial
    exact Runs.run_rel (fun s a _ => evolves_act a) hany
  · exact Table.eq_of_clash (fun a b => by simp [UpdateLog.clash, eq_comm]) hr hr'
      (by simp [UpdateLog.clash, hid])
  · obtain ⟨o, s', h⟩ := exists_returns_processCallback p e.fails c ((run p s as).under e)
    exact ⟨o, s', h, answers_of_handled (handled_processCallback h)⟩

end Approvals

end ArgentTeam
