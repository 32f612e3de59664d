import ArgentTeam.Core.Reopen
import ArgentTeam.Broker.Exec

/-!
# Approvals the broker consumes

The store opens again only if every consumed approval is bound to exactly one execution.
The core consumes an approval together with the execution it records. The broker consumes
approvals too, and records none: after an authorization by the owner that goes through
(`Broker.Authorizes`), the store does not open any more. Every other run leaves a store
that opens.
-/

namespace ArgentTeam

open Prog ArgentTeam.Store ArgentTeam.Core

namespace Broker

section Authorizing

variable {b : Broker} {w w' : World} {requestId approvalId : String} {row : ExternalActionRequest}
  {ap : OwnerApproval} {now : Time}

/-- The reading of the clock an approval is consumed at: the expiry of the request, where it
has one, takes a reading before. -/
def consumedAt (w : World) (row : ExternalActionRequest) : Time :=
  w.clock (w.reads + row.expiresAt.elim 0 fun _ => 1)

/-- The call of `authorize_owner` gets to the consumption of the approval: the request is
pending and has not expired, the policy does not deny it, and the approval is approved, has
not expired and is bound to exactly this request. -/
def Authorizes (b : Broker) (w : World) (requestId approvalId : String) : Prop :=
  ∃ row ∈ getRequest w.db requestId, row.state = .pending ∧
    (∀ expires ∈ row.expiresAt, w.clock w.reads < expires) ∧
    (evaluatePolicy b w.db row).1 ≠ .deny ∧
    ∃ ap ∈ w.db.getApproval approvalId, ap.status = .approved ∧
      consumedAt w row < ap.expiresAt ∧
      bindsApproval b row (getJob w.db row.sourceJobId) ap = true

theorem returns_checkExpired {expired : Bool} :
    (checkExpired row).Returns w expired w' ↔
      row.expiresAt.any (fun e => e ≤ w.clock w.reads) = expired ∧
        { w with reads := w.reads + row.expiresAt.elim 0 fun _ => 1 } = w' := by
  rcases hexp : row.expiresAt with _ | e
  · simp [checkExpired, hexp]
  · simp [checkExpired, hexp, and_comm]

/-- The checks of `authorize_owner` pass only where the approval may be consumed. -/
theorem authorizes_of_returns
    (h : (ownerApproval b requestId approvalId).Returns w (row, ap, now) w') :
    Authorizes b w requestId approvalId := by
  simp only [ownerApproval, theRequest, returns_bind, returns_read, returns_orRaise,
    returns_require, returns_checkExpired, returns_onlyIf, not_returns_raise, returns_nowIso,
      returns_pure, and_false,
    exists_false, false_or, and_assoc, exists_and_left, exists_eq_left', exists_const,
    Prod.mk.injEq] at h
  obtain ⟨row', hrow, -, hpending, hexpired, hpolicy, ap', hap, hstatus, hnow, hbinds, -⟩ := h
  refine ⟨row', hrow, hpending, fun e he => ?_, hpolicy, ap', hap, hstatus, hnow, hbinds⟩
  rw [Option.mem_def] at he
  simpa [he] using hexpired

/-- **A call that does not get to the consumption leaves the approvals alone.** -/
theorem authorizeOwner_keeps (h : ¬Authorizes b w requestId approvalId) :
    approvalTables w = approvalTables (authorizeOwner b requestId approvalId w).2 := by
  unfold authorizeOwner
  rcases bind_snd_cases (m := ownerApproval b requestId approvalId) (s := w) with
    ⟨e, w', hr, hsnd⟩ | ⟨⟨row, ap, now⟩, w', hr, -⟩
  · rw [hsnd]
    exact Moves.of_raises (R := Eq) hr
  · exact absurd (authorizes_of_returns hr) h

/-- The step consumes no approval without an execution. -/
def ConsumesNone (b : Broker) (w : World) : Action → Prop
  | .authorizeOwner requestId approvalId => ¬Authorizes b w requestId approvalId
  | _ => True

/-- **A step that consumes no approval without an execution keeps the approvals and the
executions fitting together.** -/
theorem closed_step (cfg : Config) {a : Action} (hc : Closed w.db.core) (ha : ConsumesNone b w a) :
    Closed (step cfg b w a).db.core := by
  have hkeeps : ∀ {w'}, approvalTables w = approvalTables w' → Closed w'.db.core := fun h =>
    hc.congr (congrArg Prod.fst h).symm (congrArg Prod.snd h).symm
  cases a with
  | core c => exact (approvalStep_step cfg w c).closed hc
  | authorizeOwner requestId approvalId => exact hkeeps (authorizeOwner_keeps ha)
  | supervise s => exact hkeeps rfl
  | _ => exact hkeeps (Moves.moves (R := Eq) w)

/-- The commands of the core consume every approval together with its execution. -/
theorem consumesNone_core (cfg : Config) (cs : List Command) :
    Along cfg b (ConsumesNone b) w (cs.map .core) := by
  induction cs generalizing w with
  | nil => trivial
  | cons c cs ih => exact ⟨trivial, ih⟩

/-- **The store can be opened again**, as long as no owner authorization of the broker
consumes an approval: in every state a run of the core and the broker leads to from an empty
database, each consumed approval is bound to exactly one execution, and opening the store
succeeds. -/
theorem store_reopens (cfg : Config) {as : List Action} (hw : Fresh w)
    (hok : Along cfg b (ConsumesNone b) w as) :
    (∀ a ∈ (run cfg b w as).db.core.ownerApprovals.rows, a.status = .consumed →
      (executionsOf (run cfg b w as).db.core a.id).length = 1) ∧
    ∃ w', createSchema.Returns (run cfg b w as) () w' := by
  have hinv : Closed (run cfg b w as).db.core := by
    refine Runs.run_inv (I := fun w => Closed w.db.core) (fun w a hI ha => closed_step cfg hI ha)
      ?_ hok
    rw [show w.db = Db.empty from hw]
    exact Closed.empty
  refine ⟨fun a ha hstatus => ?_, createSchema_total hinv⟩
  obtain ⟨x, hx, -⟩ := hinv.consumed a ha hstatus
  rw [hx, List.length_singleton]

end Authorizing

/-! ### A run after which the store does not open -/

/-- The scope an approval of the deployment needs. -/
def deployScope : String :=
  approvalScope github (newRequest github (deployRequest "prod") ⟨.sensitive, .obj [], .obj []⟩ 0)

/-- The request is created, and an approval (6) is given for it. -/
def approvedRequest : List Action :=
  leadAtWork.map .core ++ [.supervise finished, .createRequest (deployRequest "prod"),
    .core (.requestAction (num 1) "deploy_production" deployScope .lead (roleSource .lead) none),
    .core (.approve (num 6) ownerSource (num 1) "deploy_production" deployScope none)]

/-- **The store may not open again** without the condition on the steps: the approval the
broker has consumed is bound to no execution. -/
theorem store_does_not_reopen :
    ¬∀ (cfg : Config) (b : Broker) (w : World) (as : List Action), Fresh w →
      (∀ a ∈ (run cfg b w as).db.core.ownerApprovals.rows, a.status = .consumed →
        (executionsOf (run cfg b w as).db.core a.id).length = 1) ∧
      ∃ w', createSchema.Returns (run cfg b w as) () w' :=
  fun h => absurd (h .lenient github ticking
    (approvedRequest ++ [.authorizeOwner (requestIdFor github deployText) (num 6)]) rfl).1
    (by decide +kernel)

/-- A run in which the core consumes the approval. -/
theorem store_reopens_executed :
    (∀ a ∈ (run .lenient github (idle 16) ((leadAtWork ++ [askForDeploy, forDeploy .approve 5,
        forDeploy .executeApproved 5]).map .core)).db.core.ownerApprovals.rows,
      a.status = .consumed → (executionsOf (run .lenient github (idle 16)
        ((leadAtWork ++ [askForDeploy, forDeploy .approve 5,
          forDeploy .executeApproved 5]).map .core)).db.core a.id).length = 1) ∧
    ∃ w', createSchema.Returns (run .lenient github (idle 16) ((leadAtWork ++ [askForDeploy,
      forDeploy .approve 5, forDeploy .executeApproved 5]).map .core)) () w' :=
  store_reopens .lenient (w := idle 16) rfl (consumesNone_core .lenient _)

end Broker

end ArgentTeam
