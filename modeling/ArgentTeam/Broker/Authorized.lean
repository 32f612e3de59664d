import ArgentTeam.Broker.Snapshots
import Mathlib.Data.List.Induction

/-!
# No dispatch without authorization

What is noted in the history of the system is backed by what was noted before it: whenever an
operation of the adapter is called, the request was authorized by a call that had evaluated the
policy or consumed an approval for exactly this request, and the call that dispatches it had
checked its expiry and the policy (`dispatches_authorized`).
-/

namespace ArgentTeam

open MergeQueue (Holder)

namespace Broker

namespace Calls

/-! ### What is backed by what was noted before -/

/-- Everything that is noted is backed by what was noted before it. -/
def Backed (P : List Event → Event → Prop) (log : List Event) : Prop :=
  ∀ pre e post, log = pre ++ e :: post → P pre e

theorem Backed.mono {P Q : List Event → Event → Prop} {log : List Event}
    (himp : ∀ pre e, P pre e → Q pre e) (h : Backed P log) : Backed Q log :=
  fun pre e post heq => himp pre e (h pre e post heq)

theorem Backed.append {P : List Event → Event → Prop} {log es : List Event} (h : Backed P log)
    (hes : ∀ pre e post, es = pre ++ e :: post → P (log ++ pre) e) : Backed P (log ++ es) := by
  intro pre e post heq
  rcases List.append_eq_append_iff.mp heq with ⟨more, rfl, hpost⟩ | ⟨more, rfl, hpost⟩
  · exact hes more e post hpost
  · cases more with
    | nil =>
      have hnew := hes [] e post hpost.symm
      rwa [List.append_nil, List.append_nil] at hnew
    | cons e' more =>
      obtain ⟨rfl, -⟩ := List.cons.inj hpost
      exact h pre e more rfl

variable {e : Event}

theorem Backed.append_single {P : List Event → Event → Prop} {log : List Event}
    (h : Backed P log) (he : P log e) : Backed P (log ++ [e]) := by
  refine h.append fun pre e' post heq => ?_
  cases pre with
  | nil =>
    obtain ⟨rfl, -⟩ := List.cons.inj heq
    rwa [List.append_nil]
  | cons e'' pre =>
    obtain ⟨-, hnil⟩ := List.cons.inj heq
    cases pre <;> cases hnil

/-! ### Checks -/

section

variable (d : Driver) (db : BrokerDb) (log : List Event) (c : ℕ) (op : Op) (id : String)

/-- A call has found that the request has not expired. -/
def Unexpired (row : RequestRow) : Prop :=
  ∃ t, .unexpired c id row.expiresAt t ∈ log ∧ ∀ e ∈ row.expiresAt, t < e

/-- A call has found that the policy does not deny the request. -/
def Undenied : Prop :=
  ∃ op decision, .evaluated c op id decision ∈ log ∧ decision ≠ .deny

/-- An approval that can be consumed for a request: it is approved, has not expired, comes from a
trusted source, and is bound to the request of the job. -/
def Approves (r : RequestRow) (job : Option SupervisorJob) (a : ApprovalRow) (now : Time) : Prop :=
  a.status = .approved ∧ now < a.expiresAt ∧ a.sourceClass = .trusted ∧
    bindsApproval d.toBroker r.toExternalActionRequest job a.toOwnerApproval = true

/-- A call may authorize the request: the policy has allowed it, or an approval was consumed. -/
def Evidence (row : RequestRow) : Prop :=
  .evaluated c .authorizeAutonomous id .allowAutonomous ∈ log ∨
    ∃ approvalId job a now, .consumed c approvalId row job a now ∈ log

/-- An approval that was read is the approval of the identifier, or an earlier one. -/
def Current (approvalId : String) (ap : ApprovalRow) : Prop :=
  ∃ a, db.approvals approvalId = some a ∧ ApprovalLater ap a

/-- The request was authorized. -/
def Authorized : Prop := ∃ c', .authorized c' id ∈ log

/-- What is noted is backed by this. -/
def Backing (pre : List Event) : Event → Prop
  | .dispatched c id =>
    Authorized pre id ∧ ∃ row, Seen db id row ∧ Unexpired pre c id row ∧ Undenied pre c id
  | .observed c id => Authorized pre id ∧ ∃ row, Seen db id row ∧ Unexpired pre c id row
  | .authorized c id => ∃ row, Seen db id row ∧ Evidence pre c id row
  | .consumed _ approvalId row job a now => Approves d row job a now ∧
    ∀ c' row' job' a' now', .consumed c' approvalId row' job' a' now' ∉ pre
  | .unexpired .. | .evaluated .. | .answered .. => True

/-- What a call has checked where it stands. -/
def Point.Checked : Point → Prop
  | policy row => Unexpired log c id row
  | locking row => Unexpired log c id row ∧ ((∀ h, op ≠ .reconcile h) → Undenied log c id)
  | opening row | preparing row => Unexpired log c id row ∧ Undenied log c id
  | approvalExpiry _ ap => ∃ approvalId, op = .authorizeOwner approvalId ∧ Current db approvalId ap
  | binding _ ap _ => ∃ approvalId, op = .authorizeOwner approvalId ∧ Current db approvalId ap ∧
    ap.sourceClass = .trusted
  | consuming row ap job _ =>
    ∃ approvalId, op = .authorizeOwner approvalId ∧ Current db approvalId ap ∧
      ap.sourceClass = .trusted ∧
      bindsApproval d.toBroker row.toExternalActionRequest job ap.toOwnerApproval = true
  | authorizing row _ => Evidence log c id row
  | reading | expiry _ | expiring _ | denying .. | approval _ | dispatching _ | settling ..
  | observing _ | recording .. | releasing _ | returned => True

end

/-- The states of a request that was authorized, and may be dispatched yet. -/
def isAuthorized : RequestState → Bool
  | .authorized | .executing | .waitingExternal => true
  | .pending | .succeeded | .failed | .blocked | .denied => false

/-- A call has checked what it has to where it stands, and the row it has read was authorized if
it says so. -/
structure Ready (d : Driver) (db : BrokerDb) (log : List Event) (c : ℕ) (call : Call) : Prop where
  checked : call.point.Checked d db log c call.op call.requestId
  authorized : ∀ row, call.point.row? = some row → isAuthorized row.state = true →
    Authorized log call.requestId

/-- What holds of the history. -/
structure Sound (d : Driver) (s : System) : Prop where
  informed : AllInformed s
  ready : ∀ c call, s.calls c = some call → Ready d s.toBrokerDb s.log c call
  rows : ∀ id r, s.requests id = some r → isAuthorized r.state = true → Authorized s.log id
  filed : ∀ id r, s.requests id = some r → r.requestId = id
  consumed : ∀ c approvalId row job a now, .consumed c approvalId row job a now ∈ s.log →
    ∃ a', s.approvals approvalId = some a' ∧ a'.status = .consumed
  backed : Backed (Backing d s.toBrokerDb) s.log

variable {d : Driver} {db db' : BrokerDb} {s : System} {c : ℕ} {call : Call} {answer : Answer}
  {seen : Observed} {p q : Point} {row r : RequestRow} {id : String} {es log log' : List Event}
  {op : Op} {a ap : ApprovalRow} {job : Option SupervisorJob} {now : Time}

/-! ### What has been checked stays checked -/

theorem Unexpired.mono (h : Unexpired log c id row) (hsub : log ⊆ log') :
    Unexpired log' c id row := by
  obtain ⟨t, hmem, hlive⟩ := h
  exact ⟨t, hsub hmem, hlive⟩

theorem Undenied.mono (h : Undenied log c id) (hsub : log ⊆ log') : Undenied log' c id := by
  obtain ⟨op, decision, hmem, hallowed⟩ := h
  exact ⟨op, decision, hsub hmem, hallowed⟩

theorem Evidence.mono (h : Evidence log c id row) (hsub : log ⊆ log') :
    Evidence log' c id row := by
  rcases h with hmem | ⟨approvalId, job, a, now, hmem⟩
  · exact .inl (hsub hmem)
  · exact .inr ⟨approvalId, job, a, now, hsub hmem⟩

theorem Authorized.mono (h : Authorized log id) (hsub : log ⊆ log') : Authorized log' id := by
  obtain ⟨c', hmem⟩ := h
  exact ⟨c', hsub hmem⟩

theorem Current.later {approvalId : String} (h : Current db approvalId ap)
    (hlater : ApprovalsLater db db') : Current db' approvalId ap := by
  obtain ⟨a, ha, hap⟩ := h
  obtain ⟨a', ha', hlater'⟩ := hlater approvalId a ha
  exact ⟨a', ha', hap.trans hlater'⟩

theorem Point.Checked.later (h : p.Checked d db log c op id) (hlater : ApprovalsLater db db')
    (hsub : log ⊆ log') : p.Checked d db' log' c op id := by
  cases p with
  | policy row => exact Unexpired.mono h hsub
  | locking row => exact ⟨h.1.mono hsub, fun hop => (h.2 hop).mono hsub⟩
  | opening | preparing => exact ⟨h.1.mono hsub, h.2.mono hsub⟩
  | approvalExpiry row ap =>
    obtain ⟨approvalId, hop, hcurrent⟩ := h
    exact ⟨approvalId, hop, hcurrent.later hlater⟩
  | binding row ap now =>
    obtain ⟨approvalId, hop, hcurrent, htrusted⟩ := h
    exact ⟨approvalId, hop, hcurrent.later hlater, htrusted⟩
  | consuming row ap job now =>
    obtain ⟨approvalId, hop, hcurrent, htrusted, hbound⟩ := h
    exact ⟨approvalId, hop, hcurrent.later hlater, htrusted, hbound⟩
  | authorizing row decision => exact Evidence.mono h hsub
  | _ => trivial

theorem Ready.later (h : Ready d db log c call) (honward : Onward db db') (hsub : log ⊆ log') :
    Ready d db' log' c call :=
  ⟨h.checked.later honward.approvals hsub,
    fun row hrow hstate => (h.authorized row hrow hstate).mono hsub⟩

theorem Backing.later {pre : List Event} (h : Backing d db pre e)
    (hlater : RowsLater db db') : Backing d db' pre e := by
  cases e with
  | dispatched | observed =>
    obtain ⟨hauthorized, row, hseen, hchecked⟩ := h
    exact ⟨hauthorized, row, hseen.later hlater, hchecked⟩
  | authorized c id =>
    obtain ⟨row, hseen, hevidence⟩ := h
    exact ⟨row, hseen.later hlater, hevidence⟩
  | consumed c approvalId row job a now => exact h
  | _ => trivial

/-! ### What a step checks -/

theorem mem_append_single : e ∈ log ++ [e] :=
  List.mem_append_right log List.mem_cons_self

/-- A call stays ready as it goes on. -/
theorem Ready.leads (h : Ready d db log c call) (hinformed : Informed db call)
    (hrows : ∀ id r, db.requests id = some r → isAuthorized r.state → Authorized log id)
    (honward : Onward db db') (hleads : Leads d db db' c call call.point q es) :
    Ready d db' (log ++ es) c { call with point := q } := by
  have hsub : log ⊆ log ++ es := List.subset_append_left log es
  have hlater := h.later honward hsub
  obtain ⟨op, id, p⟩ := call
  obtain ⟨hchecked, hauthorized⟩ := hlater
  dsimp only at hleads hchecked hauthorized ⊢
  cases hleads with
  | stop | authorized => exact ⟨trivial, by rintro _ ⟨⟩⟩
  | release _ row hrow =>
    refine ⟨trivial, ?_⟩
    rintro _ ⟨⟩
    exact hauthorized row hrow
  | read row hrow haccepts =>
    refine ⟨trivial, ?_⟩
    rintro _ ⟨⟩ hstate
    exact (hrows id row hrow hstate).mono hsub
  | unexpired row _ hlive hq =>
    have hunexpired : Unexpired (log ++ [.unexpired c id row.expiresAt db.now]) c id row :=
      ⟨db.now, mem_append_single, hlive⟩
    rcases hq with rfl | ⟨⟨holder, rfl⟩, rfl⟩
    · exact ⟨hunexpired, hauthorized⟩
    · exact ⟨⟨hunexpired, fun hop => absurd rfl (hop holder)⟩, hauthorized⟩
  | policy row =>
    generalize (policyOf d db row).1 = decision at *
    generalize (policyOf d db row).2 = reason
    have hnote : Event.evaluated c op id decision ∈ log ++ [.evaluated c op id decision] :=
      mem_append_single
    cases op with
    | authorizeAutonomous =>
      simp only [afterPolicy]
      split
      next hallowed =>
        subst hallowed
        exact ⟨.inl hnote, hauthorized⟩
      · exact ⟨trivial, hauthorized⟩
    | authorizeOwner approvalId =>
      simp only [afterPolicy]
      split
      · exact ⟨trivial, by rintro _ ⟨⟩⟩
      · exact ⟨trivial, hauthorized⟩
    | execute holder | redriveWaiting holder =>
      simp only [afterPolicy]
      split
      · exact ⟨trivial, hauthorized⟩
      next hallowed =>
        exact ⟨⟨hchecked, fun _ => ⟨_, decision, hnote, hallowed⟩⟩, hauthorized⟩
    | reconcile holder => exact ⟨trivial, by rintro _ ⟨⟩⟩
  | approval row approvalId ap hop hap =>
    obtain ⟨a, ha, hlater⟩ := honward.approvals approvalId ap hap
    exact ⟨⟨approvalId, hop, a, ha, hlater⟩, hauthorized⟩
  | approvalLive row ap htrusted =>
    obtain ⟨approvalId, hop, hcurrent⟩ := hchecked
    exact ⟨⟨approvalId, hop, hcurrent, htrusted⟩, hauthorized⟩
  | bound row ap now hbound =>
    obtain ⟨approvalId, hop, hcurrent, htrusted⟩ := hchecked
    exact ⟨⟨approvalId, hop, hcurrent, htrusted, hbound⟩, hauthorized⟩
  | consumed row ap job now approvalId a hop ha hdb =>
    exact ⟨.inr ⟨approvalId, job, a, now, mem_append_single⟩, hauthorized⟩
  | locked row hop => exact ⟨⟨hchecked.1, hchecked.2 hop⟩, hauthorized⟩
  | opened row holder hop hok =>
    obtain ⟨-, hedge, -⟩ := requests_opened (hinformed.seen row rfl) hok
    refine ⟨hchecked, ?_⟩
    rintro _ ⟨⟩ -
    refine hauthorized row rfl ?_
    revert hedge
    generalize row.state = state
    cases state <;> decide
  | _ => exact ⟨trivial, hauthorized⟩

theorem bindsApproval_of_later {b : Broker} {r : ExternalActionRequest}
    (hlater : ApprovalLater ap a)
    (h : bindsApproval b r job ap.toOwnerApproval) :
    bindsApproval b r job a.toOwnerApproval := by
  obtain ⟨⟨htask, haction, hscope, hbinding, -, -⟩, -⟩ := hlater
  unfold bindsApproval at h ⊢
  rwa [htask, haction, hscope, hbinding]

/-- What is noted of a step is backed by what was noted before. -/
theorem Sound.backed_leads (h : Sound d s) (hcall : s.calls c = some call)
    (hleads : Leads d s.toBrokerDb db' c call call.point q es) :
    Backed (Backing d s.toBrokerDb) (s.log ++ es) := by
  have hready := h.ready c call hcall
  have hinformed := h.informed c call hcall
  have hbacked := h.backed
  obtain ⟨op, id, p⟩ := call
  obtain ⟨hchecked, hauthorized⟩ := hready
  obtain ⟨hseen, hfits⟩ := hinformed
  dsimp only at *
  cases hleads with
  | unexpired row | policy row | answered row => exact hbacked.append_single trivial
  | consumed row ap job now approvalId a hop ha =>
    refine hbacked.append_single ⟨?_, ?_⟩
    · obtain ⟨approvalId', hop', ⟨a', ha', hlater⟩, htrusted, hbound⟩ := hchecked
      obtain ⟨rfl⟩ : approvalId = approvalId' := Op.authorizeOwner.inj (hop.symm.trans hop')
      obtain ⟨hcurrent, hstatus, hlive⟩ := consumable_eq_some ha
      obtain rfl : a = a' := Option.mem_unique hcurrent ha'
      exact ⟨hstatus, hlive, hlater.1.2.2.2.2.2.trans htrusted,
        bindsApproval_of_later hlater hbound⟩
    · intro c' row' job' a' now' hmem
      obtain ⟨b, hb, hconsumed⟩ := h.consumed c' approvalId row' job' a' now' hmem
      obtain ⟨hcurrent, hstatus, -⟩ := consumable_eq_some ha
      obtain rfl : a = b := Option.mem_unique hcurrent hb
      rw [hstatus] at hconsumed
      cases hconsumed
  | authorized row decision => exact hbacked.append_single ⟨row, hseen row rfl, hchecked⟩
  | observing row holder hop =>
    refine hbacked.append_single ⟨hauthorized row rfl ?_, row, hseen row rfl, hchecked.1⟩
    subst hop
    have haccepts : (row.state = .executing || row.state = .waitingExternal) = true := hfits
    revert haccepts
    generalize row.state = state
    cases state <;> decide
  | dispatched row =>
    refine hbacked.append_single
      ⟨hauthorized row rfl ?_, row, hseen row rfl, hchecked.1, hchecked.2⟩
    rw [show row.state = .executing from hfits]
    rfl
  | _ =>
    rw [List.append_nil]
    exact hbacked

/-- An approval that was consumed in a step is consumed after it. -/
theorem Sound.consumed_leads (h : Sound d s) (honward : Onward s.toBrokerDb db')
    (hleads : Leads d s.toBrokerDb db' c call p q es) :
    ∀ c approvalId row job a now, .consumed c approvalId row job a now ∈ s.log ++ es →
      ∃ a', db'.approvals approvalId = some a' ∧ a'.status = .consumed := by
  intro c₁ approvalId row₁ job₁ a₁ now₁ hmem
  rcases List.mem_append.mp hmem with hold | hnew
  · obtain ⟨a, ha, hconsumed⟩ := h.consumed c₁ approvalId row₁ job₁ a₁ now₁ hold
    obtain ⟨a', ha', hlater⟩ := honward.approvals approvalId a ha
    exact ⟨a', ha', hlater.2 hconsumed⟩
  · cases hleads with
    | consumed row ap job now approvalId' a hop ha hdb =>
      obtain ⟨⟩ := List.mem_singleton.mp hnew
      rw [hdb]
      exact ⟨_, Function.update_self .., rfl⟩
    | _ => simp at hnew

/-- A request that may be dispatched after a step was authorized, in this step or before it. -/
theorem Sound.rows_turn (h : Sound d s) (hcall : s.calls c = some call) {t : Turn}
    (hleads : Leads d s.toBrokerDb t.db c call call.point t.point t.notes)
    (hrequests : t.db.requests = s.requests ∨ Goes d s.toBrokerDb call call.point t.db) :
    ∀ id r, t.db.requests id = some r → isAuthorized r.state →
      Authorized (s.log ++ t.notes) id := by
  intro id r hr hstate
  have hold : ∀ r, s.requests id = some r → isAuthorized r.state = true →
      Authorized (s.log ++ t.notes) id := fun r hr hstate =>
    (h.rows id r hr hstate).mono (List.subset_append_left ..)
  rcases hrequests with heq | hgoes
  · exact hold r (congrFun heq id ▸ hr) hstate
  · have hinformed := h.informed c call hcall
    obtain ⟨row, dst, cols, fence, hrow, hasks, -, hedge, hdb⟩ := hgoes.exists_row hinformed
    by_cases hid : id = call.requestId
    · subst hid
      have hr' : movedRow dst cols row = r := by
        simp only [hdb, Function.update_self] at hr
        exact Option.some.inj hr
      rw [← hr', state_movedRow] at hstate
      have hfits := hinformed.fits
      generalize call.point = p at hasks hleads hfits
      generalize hsrc : row.state = src at hasks hedge
      cases hasks with
      | expire | deny | record => cases hstate
      | authorize row decision cols hcols =>
        generalize t.point = q at hleads
        generalize t.notes = es at hleads
        cases hleads with
        | stop _ hkeep | release _ _ _ hkeep =>
          exact absurd (hdb.symm.trans (hkeep rfl)) (update_movedRow_ne hrow)
        | authorized => exact ⟨c, mem_append_single⟩
      | «open» row holder hop =>
        refine hold row hrow ?_
        revert hedge
        generalize row.state = state
        cases state <;> decide
      | settle row a holder dst cols hop hset =>
        refine hold row hrow ?_
        rw [show row.state = .executing from hfits]
        rfl
    · rw [hdb] at hr
      exact hold r ((Function.update_of_ne hid ..).symm.trans hr) hstate

/-! ### Steps and runs -/

/-- Where a row comes from. -/
theorem exists_row_of_step {act : Act} (hr : (step d s act).requests id = some r) :
    (∃ r', s.requests id = some r' ∧ Later r' r) ∨
      (∃ new v expiresAt, r = newRow d new v expiresAt) ∧ r.requestId = id := by
  cases hold : s.requests id with
  | some r' =>
    obtain ⟨r'', hr'', hlater⟩ := rowsLater_step (d := d) s act id r' hold
    obtain rfl : r'' = r := Option.mem_unique hr'' hr
    exact .inl ⟨r', rfl, hlater⟩
  | none =>
    have hsame : (step d s act).requests id ≠ s.requests id := by
      rw [hr, hold]
      rintro ⟨⟩
    cases act with
    | create new v expiresAt =>
      rw [step] at hr hsame
      split at hr
      next hnone =>
        rw [if_pos hnone] at hsame
        by_cases hid : id = (newRow d new v expiresAt).requestId
        · simp only [hid, Function.update_self, Option.some.injEq] at hr
          exact .inr ⟨⟨new, v, expiresAt, hr.symm⟩, by rw [← hr, hid]⟩
        · exact absurd (Function.update_of_ne hid ..) hsame
      next hsome =>
        rw [if_neg hsome] at hsame
        exact absurd rfl hsame
    | start | crash =>
      rw [step] at hsame
      split at hsame <;> exact absurd rfl hsame
    | next c answer seen =>
      rw [step] at hsame
      split at hsame
      · exact absurd rfl hsame
      next call hcall =>
        rcases requests_turn d s.toBrokerDb c call answer seen call.point with heq | hgoes
        · exact absurd (congrFun heq id) hsame
        · obtain ⟨row, src, dst, cols, fence, -, -, hok⟩ := hgoes
          obtain ⟨r', hr', -, -, -, hdb⟩ := transitionRow_eq_ok hok
          by_cases hid : id = call.requestId
          · rw [hid, hr'] at hold
            cases hold
          · refine absurd ?_ hsame
            exact (congrFun (congrArg BrokerDb.requests hdb) id).trans
              (Function.update_of_ne hid ..)
    | approval op => exact absurd (congrFun (requests_writeApproval op) id) hsame
    | _ => exact absurd rfl hsame

theorem subset_log_step (s : System) (act : Act) : s.log ⊆ (step d s act).log := by
  obtain ⟨es, heq⟩ := log_step (d := d) s act
  rw [heq]
  exact List.subset_append_left s.log es

/-- A step that is no call's, and notes nothing. -/
theorem Sound.of_log (h : Sound d s) (act : Act) (hlog : (step d s act).log = s.log)
    (hrows : ∀ id r, (step d s act).requests id = some r → isAuthorized r.state →
      s.requests id = some r) :
    (∀ id r, (step d s act).requests id = some r → isAuthorized r.state →
        Authorized (step d s act).log id) ∧
      (∀ c approvalId row job a now, .consumed c approvalId row job a now ∈ (step d s act).log →
        ∃ a', (step d s act).approvals approvalId = some a' ∧ a'.status = .consumed) ∧
      Backed (Backing d (step d s act).toBrokerDb) (step d s act).log := by
  have honward := onward_step (d := d) s act
  rw [hlog]
  refine ⟨fun id r hr hstate => h.rows id r (hrows id r hr hstate) hstate, ?_,
    h.backed.mono fun pre e hpre => hpre.later honward.rows⟩
  intro c approvalId row job a now hmem
  obtain ⟨a', ha', hconsumed⟩ := h.consumed c approvalId row job a now hmem
  obtain ⟨a'', ha'', hlater⟩ := honward.approvals approvalId a' ha'
  exact ⟨a'', ha'', hlater.2 hconsumed⟩

/-- **Every step keeps the history sound.** -/
theorem sound_step (h : Sound d s) (act : Act) : Sound d (step d s act) := by
  have hready : ∀ c call, (step d s act).calls c = some call →
      Ready d (step d s act).toBrokerDb (step d s act).log c call := by
    have hboth := calls_step (d := d) (s := s)
      (J := fun db log c call => Informed db call ∧ Ready d db log c call) ?_ ?_ act ?_ ?_
      fun c call hcall => ⟨h.informed c call hcall, h.ready c call hcall⟩
    · exact fun c call hcall => (hboth c call hcall).2
    · exact fun _ _ _ _ _ =>
        ⟨⟨fun _ hrow => (by cases hrow), trivial⟩, trivial, fun _ hrow => (by cases hrow)⟩
    · exact fun _ _ _ _ _ =>
        ⟨⟨fun _ hrow => (by cases hrow), trivial⟩, trivial, fun _ hrow => (by cases hrow)⟩
    · rintro c call ⟨hinformed, hready⟩
      exact ⟨⟨fun row hrow => (hinformed.seen row hrow).later (rowsLater_step s act),
        hinformed.fits⟩, hready.later (onward_step s act) (subset_log_step s act)⟩
    · rintro db' c call q es ⟨hinformed, hready⟩ honward hleads
      exact ⟨hinformed.leads honward.rows hleads,
        hready.leads hinformed h.rows honward hleads⟩
  have hfiled : ∀ id r, (step d s act).requests id = some r → r.requestId = id := by
    intro id r hr
    rcases exists_row_of_step hr with ⟨r', hr', hlater⟩ | ⟨-, hid⟩
    · exact (congrArg ExternalActionRequest.requestId hlater.1).trans (h.filed id r' hr')
    · exact hid
  have hhistory : (∀ id r, (step d s act).requests id = some r → isAuthorized r.state = true →
        Authorized (step d s act).log id) ∧
      (∀ c approvalId row job a now, .consumed c approvalId row job a now ∈ (step d s act).log →
        ∃ a', (step d s act).approvals approvalId = some a' ∧ a'.status = .consumed) ∧
      Backed (Backing d (step d s act).toBrokerDb) (step d s act).log := by
    cases act with
    | create new v expiresAt =>
      have hlog : (step d s (.create new v expiresAt)).log = s.log := by
        rw [step]
        split <;> rfl
      refine h.of_log _ hlog fun id r hr hstate => ?_
      rw [step] at hr
      split at hr
      · by_cases hid : id = (newRow d new v expiresAt).requestId
        · simp only [hid, Function.update_self, Option.some.injEq] at hr
          rw [← hr] at hstate
          cases hstate
        · exact (Function.update_of_ne hid ..).symm.trans hr
      · exact hr
    | next c answer seen =>
      cases hcall : s.calls c with
      | none =>
        have hsame : step d s (.next c answer seen) = s := by rw [step, hcall]
        rw [hsame]
        exact ⟨h.rows, h.consumed, h.backed⟩
      | some call =>
        have htaken : step d s (.next c answer seen) =
            s.take c call (turn d s.toBrokerDb c call answer seen call.point) := by
          rw [step, hcall]
        rw [htaken]
        exact ⟨h.rows_turn hcall (leads_turn ..) (requests_turn ..),
          h.consumed_leads onward_turn (leads_turn ..), (h.backed_leads hcall (leads_turn ..)).mono
            fun pre e hpre => hpre.later rowsLater_turn⟩
    | start c op requestId | crash c =>
      refine h.of_log _ ?_ fun id r hr _ => ?_
      · rw [step]
        split <;> rfl
      · rw [step] at hr
        split at hr <;> exact hr
    | approval op =>
      exact h.of_log _ rfl fun id r hr _ => (congrFun (requests_writeApproval op) id).symm.trans hr
    | _ => exact h.of_log _ rfl fun id r hr _ => hr
  exact ⟨allInformed_step h.informed act, hready, hhistory.1, hfiled, hhistory.2.1, hhistory.2.2⟩

theorem sound_initial {queue : MergeQueue.Db} {approvals : String → Option ApprovalRow} :
    Sound d (initial queue approvals) where
  informed := by rintro c call ⟨⟩
  ready := by rintro c call ⟨⟩
  rows := by rintro id r ⟨⟩
  filed := by rintro id r ⟨⟩
  consumed := by rintro c approvalId row job a now ⟨⟩
  backed := by
    intro pre e post heq
    cases pre <;> cases heq

variable {queue : MergeQueue.Db} {approvals : String → Option ApprovalRow} {as : List Act}

theorem sound_run : Sound d (run d queue approvals as) :=
  Runs.run_always (fun _ act h => sound_step h act) sound_initial

/-- The approval that a note says was consumed. -/
def consumedId? : Event → Option String
  | .consumed _ approvalId _ _ _ _ => some approvalId
  | _ => none

theorem consumedId?_eq_some {approvalId : String}
    (h : consumedId? e = some approvalId) :
    ∃ c row job a now, e = .consumed c approvalId row job a now := by
  cases e <;> cases h
  exact ⟨_, _, _, _, _, rfl⟩

theorem nodup_consumed (h : Backed (Backing d db) log) : (log.filterMap consumedId?).Nodup := by
  induction log using List.reverseRecOn with
  | nil => exact List.nodup_nil
  | append_singleton l e ih =>
    have hl : Backed (Backing d db) l := by
      intro pre e' post heq
      refine h pre e' (post ++ [e]) ?_
      rw [heq, List.append_assoc]
      rfl
    have he : Backing d db l e := h l e [] rfl
    rw [List.filterMap_append]
    cases hid : consumedId? e with
    | none =>
      rw [List.filterMap_cons_none hid, List.filterMap_nil, List.append_nil]
      exact ih hl
    | some approvalId =>
      rw [List.filterMap_cons_some hid, List.filterMap_nil]
      obtain ⟨c, row, job, a, now, rfl⟩ := consumedId?_eq_some hid
      refine (ih hl).append (List.nodup_singleton _) ?_
      rw [List.disjoint_singleton]
      intro hmem
      obtain ⟨e', he', hid'⟩ := List.mem_filterMap.mp hmem
      obtain ⟨c', row', job', a', now', rfl⟩ := consumedId?_eq_some hid'
      exact he.2 c' row' job' a' now' he'

theorem requests_run_append {bs : List Act} (hr : (run d queue approvals as).requests id = some r)
    (hterminal : r.state.isTerminal) :
    (run d queue approvals (as ++ bs)).requests id = some r := by
  obtain ⟨r', hr', hlater⟩ := rowsLater_run (d := d) bs id r hr
  rw [run, Runs.run_append]
  exact hr'.trans (congrArg some (hlater.eq_of_isTerminal hterminal))

theorem bindsApproval_of_asked {b : Broker} {a : OwnerApproval} (hasked : asked r = asked row)
    (h : bindsApproval b row.toExternalActionRequest job a) :
    bindsApproval b r.toExternalActionRequest job a := by
  have hread : ∀ r : RequestRow, bindsApproval b r.toExternalActionRequest job a =
      bindsApproval b (asked r) job a := fun _ => rfl
  rwa [hread, hasked, ← hread]

/-- A request was authorized by a call that had evaluated the policy, or consumed an approval for
exactly this request. -/
theorem Sound.evidence (h : Sound d s) {pre post : List Event} (hlog : s.log = pre ++ post)
    (hr : s.requests id = some r) (hauthorized : Authorized pre id) :
    ∃ c', .authorized c' id ∈ pre ∧
      (.evaluated c' .authorizeAutonomous id .allowAutonomous ∈ pre ∨
        ∃ approvalId row job a now, .consumed c' approvalId row job a now ∈ pre ∧
          row.requestId = id ∧ Approves d r job a now) := by
  obtain ⟨c', hmem⟩ := hauthorized
  refine ⟨c', hmem, ?_⟩
  obtain ⟨pre₁, post₁, rfl⟩ := List.append_of_mem hmem
  rw [List.append_assoc] at hlog
  obtain ⟨row, ⟨r', hr', hlater⟩, hevidence⟩ := h.backed pre₁ _ _ hlog
  obtain rfl : r = r' := Option.mem_unique hr hr'
  rcases hevidence with hpolicy | ⟨approvalId, job, a, now, hconsumed⟩
  · exact .inl (List.mem_append_left _ hpolicy)
  · refine .inr ⟨approvalId, row, job, a, now, List.mem_append_left _ hconsumed, ?_, ?_⟩
    · exact (congrArg ExternalActionRequest.requestId hlater.1).symm.trans (h.filed id r hr)
    · obtain ⟨pre₂, post₂, rfl⟩ := List.append_of_mem hconsumed
      rw [List.append_assoc] at hlog
      obtain ⟨⟨hstatus, hlive, htrusted, hbound⟩, -⟩ := h.backed pre₂ _ _ hlog
      exact ⟨hstatus, hlive, htrusted, bindsApproval_of_asked hlater.1 hbound⟩

theorem Unexpired.of_later {pre : List Event} (h : Unexpired pre c id row) (hlater : Later row r) :
    Unexpired pre c id r := by
  have hsame : (asked r).expiresAt = (asked row).expiresAt := by rw [hlater.1]
  change r.expiresAt = row.expiresAt at hsame
  rwa [Unexpired, hsame]

/-- **No dispatch without authorization.** In every run, whoever makes the calls and in whatever
order their steps come: before an operation of the adapter is called for a request, a call has
authorized it, which had either found that the policy allows it, or consumed an approval that was
approved, not expired, trusted, and bound to exactly this request; and the call that dispatches it
has found it not expired and not denied by the policy. No approval is consumed twice, and no
request leaves a state that is terminal. -/
theorem dispatches_authorized (d : Driver) (queue : MergeQueue.Db)
    (approvals : String → Option ApprovalRow) (as : List Act) :
    (∀ pre e post c id, (run d queue approvals as).log = pre ++ e :: post →
      e = .dispatched c id ∨ e = .observed c id →
        ∃ r, (run d queue approvals as).requests id = some r ∧ r.requestId = id ∧
          (∃ c', .authorized c' id ∈ pre ∧
            (.evaluated c' .authorizeAutonomous id .allowAutonomous ∈ pre ∨
              ∃ approvalId row job a now, .consumed c' approvalId row job a now ∈ pre ∧
                row.requestId = id ∧ Approves d r job a now)) ∧
          Unexpired pre c id r ∧ (e = .dispatched c id → Undenied pre c id)) ∧
      ((run d queue approvals as).log.filterMap consumedId?).Nodup ∧
      ∀ id r bs, (run d queue approvals as).requests id = some r → r.state.isTerminal = true →
        (run d queue approvals (as ++ bs)).requests id = some r := by
  have hsound : Sound d (run d queue approvals as) := sound_run
  refine ⟨?_, nodup_consumed hsound.backed, fun id r bs => requests_run_append⟩
  rintro pre e post c id hlog (rfl | rfl)
  · obtain ⟨hauthorized, row, ⟨r, hr, hlater⟩, hunexpired, hundenied⟩ :=
      hsound.backed pre _ post hlog
    exact ⟨r, hr, hsound.filed id r hr, hsound.evidence hlog hr hauthorized,
      hunexpired.of_later hlater, fun _ => hundenied⟩
  · obtain ⟨hauthorized, row, ⟨r, hr, hlater⟩, hunexpired⟩ := hsound.backed pre _ post hlog
    exact ⟨r, hr, hsound.filed id r hr, hsound.evidence hlog hr hauthorized,
      hunexpired.of_later hlater, by rintro ⟨⟩⟩

end Calls

end Broker

end ArgentTeam
