import ArgentTeam.Core.Binding
import ArgentTeam.Core.ReceiveSteps

/-!
# Exactly-once consumption

A result may be delivered again, late, to the wrong dispatch, under a key that has been used
before or across a restart. Several guards cooperate on what becomes of it: the unique index on
open dispatches, the compare-and-set of the consumption, the idempotency keys and the checks of
binding, run and handoff. `consumption_exactly_once` is what they amount to: a task has one open
dispatch at most, a dispatch is consumed once at most, and what its result writes is written by
the step that consumes it and by no other one.
-/

namespace ArgentTeam

open Prog Store

/-- A status that is never left. -/
def DispatchStatus.settled (s : DispatchStatus) : Bool := !s.active

namespace Core

/-! ### What results write -/

/-- The tables the result of a dispatch writes. -/
@[ext]
structure Results where
  findings : Table Finding Finding.clash
  decisions : Table Decision Decision.clash
  testRuns : Table TestRun TestRun.clash
  reviews : Table Review Review.clash
  roleRuns : Table RoleRun RoleRun.clash

/-- These tables of a world. -/
def results (w : World) : Results :=
  ⟨w.db.core.findings, w.db.core.decisions, w.db.log.testRuns, w.db.log.reviews, w.db.log.roleRuns⟩

/-- No result is written, and no run of a role is completed. -/
structure Results.Idle (r r' : Results) : Prop where
  findings : r'.findings = r.findings
  decisions : r'.decisions = r.decisions
  testRuns : r'.testRuns = r.testRuns
  reviews : r'.reviews = r.reviews
  roleRuns : ∀ rr ∈ r'.roleRuns.rows, rr.status = .completed → rr ∈ r.roleRuns.rows

instance : Std.Refl Results.Idle := ⟨fun _ => ⟨rfl, rfl, rfl, rfl, fun _ h _ => h⟩⟩

instance : IsTrans _ Results.Idle where
  trans _ _ _ h h' := ⟨h'.findings.trans h.findings, h'.decisions.trans h.decisions,
    h'.testRuns.trans h.testRuns, h'.reviews.trans h.reviews,
    fun rr hrr hs => h.roleRuns rr (h'.roleRuns rr hrr hs) hs⟩

instance : OffBooks results := ⟨fun w w' hcore _ hroles htests hreviews => by
  rw [results, hcore, hroles, htests, hreviews, results]⟩

instance : Tables.tasks.Apart results := ⟨fun _ _ => rfl⟩
instance : Tables.agentDispatches.Apart results := ⟨fun _ _ => rfl⟩

/-- A run of a role that fails is not completed. -/
instance {id : Uuid} : Moves results Results.Idle (updateRoleRunStatus id .failed) := by
  refine Relvar.moves_update fun w t' ht => ⟨rfl, rfl, rfl, rfl, fun rr hrr hs => ?_⟩
  obtain ⟨rr₀, hmem, rfl⟩ := (Table.mem_of_update? ht).mp hrr
  by_cases hid : rr₀.id = id
  · simp [Table.patch, hid] at hs
  · rw [Table.patch_neg (by simpa using hid)]
    exact hmem

/-! ### Dispatches that are settled -/

/-- The dispatches that are settled stay as they are, and none is consumed. -/
structure Unconsumed (t t' : Table AgentDispatch AgentDispatch.clash) : Prop where
  settled : ∀ d ∈ t.rows, d.status.settled = true → d ∈ t'.rows
  consumed : ∀ d ∈ t'.rows, d.status = .consumed → d ∈ t.rows

instance : Std.Refl Unconsumed := ⟨fun _ => ⟨fun _ h _ => h, fun _ h _ => h⟩⟩

instance : IsTrans _ Unconsumed where
  trans _ _ _ h h' := ⟨fun d hd hs => h'.settled d (h.settled d hd hs) hs,
    fun d hd hs => h.consumed d (h'.consumed d hd hs) hs⟩

/-- An update of dispatches that are open, which consumes none. -/
theorem unconsumed_update {t t' : Table AgentDispatch AgentDispatch.clash}
    {p : AgentDispatch → Bool} {f : AgentDispatch → AgentDispatch} (h : t.update? p f = some t')
    (hp : ∀ d ∈ t.rows, p d → d.status.settled = false)
    (hf : ∀ d, (f d).status ≠ .consumed) : Unconsumed t t' := by
  constructor
  · intro d hd hs
    refine (Table.mem_of_update? h).mpr ⟨d, hd, Table.patch_neg ?_⟩
    rw [Bool.eq_false_iff]
    intro hpd
    rw [hp d hd hpd] at hs
    cases hs
  · intro d' hd' hs
    obtain ⟨d, hd, rfl⟩ := (Table.mem_of_update? h).mp hd'
    rcases hpd : p d with _ | _
    · rwa [Table.patch_neg hpd]
    · rw [Table.patch_pos hpd] at hs
      exact absurd hs (hf d)

instance {id : Uuid} : Moves dispatchTable Unconsumed (rejectDispatchCas id) := by
  refine Relvar.moves_update fun _ _ ht => unconsumed_update ht (fun d _ hp => ?_) fun _ => by simp
  simp only [Bool.and_eq_true, Bool.or_eq_true, decide_eq_true_eq] at hp
  rcases hp.2 with h | h <;> rw [h] <;> rfl

instance {e : Error} {id : Uuid} {session run : String} {provider model thinking : Option String} :
    Moves dispatchTable Unconsumed
      (updateDispatchBind e id session run provider model thinking) := by
  refine Relvar.moves_update fun _ _ ht => unconsumed_update ht (fun d _ hp => ?_) fun _ => by simp
  simp only [Bool.and_eq_true, Bool.or_eq_true, decide_eq_true_eq] at hp
  rcases hp.2 with h | h <;> rw [h] <;> rfl

theorem moves_insertOpen {d : AgentDispatch} (hd : d.status = .pending) :
    Moves dispatchTable Unconsumed (insertDispatch d) := by
  refine Relvar.moves_insert fun w t' ht => ⟨fun x hx _ => (Table.mem_of_insert? ht).mpr (.inl hx),
    fun x hx hs => ?_⟩
  rcases (Table.mem_of_insert? ht).mp hx with hx | rfl
  · exact hx
  · rw [hd] at hs
    cases hs

instance {cfg : Config} {taskId taskRunId : String} {role : Role} {position cycleNo : ℕ}
    {kind : SequenceKind} {parent : Option String} {routing : Option RoutingRecord}
    {identity : ModelChoice} : Moves dispatchTable Unconsumed
      (createDispatchWork cfg taskId taskRunId role position cycleNo kind parent routing
        identity) := by
  unfold createDispatchWork
  repeat' first
    | infer_instance
    | exact moves_insertOpen rfl
    | refine moves_bind ?_ fun _ => ?_
    | refine moves_whenSome fun _ => ?_

section Writes

variable {w w' : World} {d : AgentDispatch} {u : Unit} {cfg : Config}

/-- The status of one open dispatch is written. -/
theorem unconsumed_status {status : DispatchStatus} {n : ℕ} (hd : d ∈ (dispatchTable w).rows)
    (hopen : d.status.settled = false) (hstatus : status ≠ .consumed)
    (h : (updateDispatchStatus d.id status).Returns w n w') :
    Unconsumed (dispatchTable w) (dispatchTable w') := by
  simp only [updateDispatchStatus, Relvar.returns_update] at h
  obtain ⟨t', ht, -, rfl⟩ := h
  refine unconsumed_update ht (fun x hx hid => ?_) fun _ => hstatus
  rwa [AgentDispatch.eq_of_id hx hd (of_decide_eq_true hid)]

theorem settled_of_open (h : d.status = .running ∨ d.status = .recoveryPending) :
    d.status.settled = false := by
  rcases h with h | h <;> rw [h] <;> rfl

theorem require_snd {c : Prop} {_ : Decidable c} {e : Error} (w : World) :
    (require c e w : Except Error Unit × World).2 = w := by
  unfold require
  split <;> rfl

theorem unconsumed_markAgentFailed (w : World) (dispatchId reason source : String)
    (key errorClass errorCode : Option String) :
    Unconsumed (dispatchTable w) (dispatchTable
      (markAgentFailed dispatchId reason source key errorClass errorCode w).2) := by
  unfold markAgentFailed
  rcases checked_snd (requireController_snd source) with h | ⟨_, -, h⟩ <;> rw [h]
  · exact Std.Refl.refl _
  rcases checked_snd require_snd with h | ⟨_, -, h⟩ <;> rw [h]
  · exact Std.Refl.refl _
  refine idempotent_rule dispatchTable
    (P := fun w' => Unconsumed (dispatchTable w) (dispatchTable w'))
    (fun w₁ w₂ h hw₁ => by rwa [h]) (fun _ => inferInstance) (Std.Refl.refl _)
    fun r w₁ _ hr => ?_
  simp only [markAgentFailedWork, returns_bind, returns_theDispatch, returns_require,
    returns_nowIso, returns_read, returns_pure] at hr
  obtain ⟨d, _, ⟨hd, rfl⟩, -, _, ⟨hopen, rfl⟩, _, _, ⟨-, rfl⟩, _, w₂, hstatus, _, w₃, hrole, _, w₄,
    hhandoff, _, w₅, hemit, _, w₆, hfailed, _, _, ⟨-, rfl⟩, -, rfl⟩ := hr
  rw [Moves.frame dispatchTable hfailed, Moves.frame dispatchTable hemit,
    Moves.frame dispatchTable hhandoff, Moves.frame dispatchTable hrole]
  exact unconsumed_status (w := { w with reads := w.reads + 1 }) (Db.getDispatch_eq_some.mp hd).1
    (settled_of_open hopen) (by simp) hstatus

theorem recoverDispatch_writes (h : (recoverDispatch d).Returns w u w') :
    ∃ status t', status ≠ .consumed ∧
      (dispatchTable w).update? (fun x => x.id = d.id) (fun x => { x with status := status }) =
        some t' ∧ dispatchTable w' = t' := by
  simp only [recoverDispatch, returns_ite, returns_bind, updateDispatchStatus,
    Relvar.returns_update, returns_pure] at h
  rcases h with ⟨-, _, _, ⟨t', ht, -, rfl⟩, hemit⟩ | ⟨-, _, _, ⟨t', ht, -, rfl⟩, -, rfl⟩
  · exact ⟨_, t', by simp, ht, Moves.frame dispatchTable hemit⟩
  · exact ⟨_, t', by simp, ht, rfl⟩

/-- The loop over the interrupted dispatches. Each is written once, so that it is still open
when its turn comes. -/
theorem unconsumed_recoverDispatches {ds : List AgentDispatch} (hnodup : (ds.map (·.id)).Nodup)
    (hopen : ∀ d ∈ ds, ∀ x ∈ (dispatchTable w).rows, x.id = d.id → x.status.settled = false)
    (h : (forEach recoverDispatch ds).Returns w u w') :
    Unconsumed (dispatchTable w) (dispatchTable w') := by
  induction ds generalizing w u with
  | nil =>
    obtain ⟨-, rfl⟩ := returns_pure.mp h
    exact Std.Refl.refl _
  | cons d ds ih =>
    obtain ⟨_, w₁, hd, hrest⟩ := returns_bind.mp h
    obtain ⟨status, t', hstatus, ht, hw₁⟩ := recoverDispatch_writes hd
    rw [List.map_cons, List.nodup_cons] at hnodup
    have hfirst : Unconsumed (dispatchTable w) (dispatchTable w₁) := by
      rw [hw₁]
      exact unconsumed_update ht
        (fun x hx hid => hopen d List.mem_cons_self x hx (of_decide_eq_true hid)) fun _ => hstatus
    refine IsTrans.trans _ _ _ hfirst (ih hnodup.2 (fun e he x' hx' hid => ?_) hrest)
    rw [hw₁] at hx'
    obtain ⟨x, hx, rfl⟩ := (Table.mem_of_update? ht).mp hx'
    have hother : x.id ≠ d.id := by
      intro hxd
      rw [Table.patch_pos (by simpa using hxd)] at hid
      exact hnodup.1 (List.mem_map.mpr ⟨e, he, (hxd.symm.trans hid).symm⟩)
    rw [Table.patch_neg (by simpa using hother)] at hid ⊢
    exact hopen e (List.mem_cons_of_mem d he) x hx hid

/-- What a recovery does to the dispatches. -/
theorem unconsumed_recover (w : World) (source : String) (key : Option String) :
    Unconsumed (dispatchTable w) (dispatchTable (recover source key w).2) := by
  generalize hc : (recover source key w).2.db.core = c
  rw [show dispatchTable (recover source key w).2 = c.agentDispatches from
    congrArg CoreDb.agentDispatches hc]
  rcases recover_core hc with rfl | ⟨w₁, w₂, w₃, w₄, w₅, h₁, hdispatches, hpark, h₄, hroll, rfl⟩
  · exact Std.Refl.refl _
  have h₃ : dispatchTable w₃ = dispatchTable w₂ := Moves.frame dispatchTable hpark
  have h₅ : dispatchTable w₅ = dispatchTable w₄ := Moves.frame dispatchTable hroll
  have hfirst : dispatchTable w₁ = dispatchTable w := congrArg CoreDb.agentDispatches h₁
  change Unconsumed (dispatchTable w) (dispatchTable w₅)
  rw [h₅, show dispatchTable w₄ = dispatchTable w₃ from congrArg CoreDb.agentDispatches h₄, h₃,
    ← hfirst]
  refine unconsumed_recoverDispatches ?_ (fun d hd x hx hid => ?_) hdispatches
  · have hperm : w₁.db.listAllDispatches.Perm (dispatchTable w₁).rows := List.perm_insertionSort _ _
    have hids : ((dispatchTable w₁).rows.map (·.id)).Nodup := by
      refine List.pairwise_map.mpr ((dispatchTable w₁).unique.imp fun hab hid => ?_)
      simp [AgentDispatch.clash, hid] at hab
    exact (((hperm.map _).nodup_iff).mpr hids).sublist (List.filter_sublist.map _)
  · obtain ⟨hmem, hstatus⟩ := List.mem_filter.mp hd
    rw [AgentDispatch.eq_of_id hx (Db.mem_listAllDispatches.mp hmem) hid]
    simp only [Bool.or_eq_true, decide_eq_true_eq] at hstatus
    rcases hstatus with h | h <;> rw [h] <;> rfl

end Writes

/-! ### Receiving a result -/

/-- The result of a dispatch takes effect: the dispatch is consumed, and what the result writes
is written. -/
def Contributes (cfg : Config) (w w' : World) (d : AgentDispatch) (fields : List (PyStr × Json)) :
    Prop :=
  ∃ w₁ w₂, SetDispatch w.db.core w₁.db.core d (consumed (Json.obj fields).sorted) ∧
    results w₁ = results w ∧ (consumeEffects cfg d fields).Returns w₁ () w₂ ∧
    results w' = results w₂ ∧ dispatchTable w' = dispatchTable w₁

/-- The dispatches, and what their results write. -/
def dispatching (w : World) : Table AgentDispatch AgentDispatch.clash × Results :=
  (dispatchTable w, results w)

instance : OffBooks dispatching := ⟨fun w w' hcore _ hroles htests hreviews => by
  rw [dispatching, dispatching, dispatchTable, results, hcore, hroles, htests, hreviews,
    dispatchTable, results]⟩

instance : Tables.tasks.Apart dispatching := ⟨fun _ _ => rfl⟩

/-- No dispatch is consumed, and no result is written. -/
structure Quiet (w w' : World) : Prop where
  dispatches : Unconsumed (dispatchTable w) (dispatchTable w')
  results : (results w).Idle (results w')

section Receiving

variable {w w' : World} {d : AgentDispatch} {cfg : Config} {dispatchId source : String}
  {eventMeta result : Json} {key : Option String}

theorem quiet_of_eq (h : dispatching w' = dispatching w) : Quiet w w' := by
  have h₁ : dispatchTable w' = dispatchTable w := congrArg Prod.fst h
  have h₂ : results w' = results w := congrArg Prod.snd h
  constructor
  · rw [h₁]
    exact Std.Refl.refl _
  · rw [h₂]
    exact Std.Refl.refl _

theorem contributes_consumeWork {out : RoleOutput d.role} {r : ReceiveResult}
    (hd : d ∈ w.db.core.agentDispatches.rows)
    (hopen : d.status = .running ∨ d.status = .recoveryPending)
    (h : (consumeWork cfg d dispatchId out).Returns w r w') :
    Contributes cfg w w' d out.fields := by
  simp only [consumeWork, returns_bind, returns_nowIso, returns_ite] at h
  obtain ⟨_, w₁, hbindings, _, _, ⟨-, rfl⟩, rc, w₂, hconsume, h⟩ := h
  have hcore : w₁.db.core = w.db.core := Moves.frame core hbindings
  have h₁ : results w₁ = results w := Moves.frame results hbindings
  obtain ⟨rfl, hset⟩ := consumeDispatch_core (by rw [hcore]; exact hd) hopen hconsume
  have h₂ : results w₂ = results { w₁ with reads := w₁.reads + 1 } :=
    Moves.frame results hconsume
  rcases h with ⟨hrc, -⟩ | ⟨-, _, w₃, hreceived, _, w₄, heffects, _, w₅, hsync, _, w₆, haccepted, _,
    w₇, hcompleted, -, rfl⟩
  · exact absurd rfl hrc
  · refine ⟨w₃, w₄, ?_, ?_, heffects, ?_, ?_⟩
    · rw [show w₃.db.core = w₂.db.core from Moves.frame core hreceived, ← hcore]
      exact hset
    · rw [Moves.frame results hreceived, h₂]
      exact h₁
    · rw [Moves.frame results hcompleted, Moves.frame results haccepted,
        Moves.frame results hsync]
    · rw [Moves.frame dispatchTable hcompleted, Moves.frame dispatchTable haccepted,
        Moves.frame dispatchTable hsync, Moves.frame dispatchTable heffects]

theorem receiveOpen_cases {r : ReceiveResult} (hd : d ∈ w.db.core.agentDispatches.rows)
    (hstatus : d.status ≠ .consumed)
    (h : (receiveOpen cfg d dispatchId eventMeta result).Returns w r w') :
    Quiet w w' ∨ ∃ out, Fits w.db d eventMeta result out ∧ Contributes cfg w w' d out.fields := by
  simp only [receiveOpen, returns_bind, returns_read, returns_caseSome] at h
  obtain ⟨_, _, ⟨rfl, rfl⟩, ⟨reason, -, hrefuse⟩ | ⟨hnone, h⟩⟩ := h
  · exact Or.inl (quiet_of_eq (Moves.frame dispatching hrefuse))
  have hopen := status_of_refusal hstatus hnone
  split at h
  · rename_i out hout
    exact Or.inr ⟨out, ⟨hd, hopen, hnone, hout⟩, contributes_consumeWork hd hopen h⟩
  · simp only [returns_bind, returns_nowIso] at h
    obtain ⟨_, _, ⟨-, rfl⟩, _, w₁, hreject, hrefuse⟩ := h
    refine Or.inl ⟨?_, ?_⟩
    · rw [Moves.frame dispatchTable hrefuse]
      exact unconsumed_status (w := { w with reads := w.reads + 1 }) hd (settled_of_open hopen)
        (by simp) hreject
    · rw [Moves.frame results hrefuse, Moves.frame results hreject]
      exact Std.Refl.refl _
  · exact absurd h not_returns_raise

/-- **What receiving a result does**: nothing that counts, or the result takes effect. -/
theorem receiveAgentResult_cases (w : World) :
    Quiet w (receiveAgentResult cfg dispatchId eventMeta result source key w).2 ∨
      ∃ d ∈ w.db.getDispatch dispatchId, ∃ out, Fits w.db d eventMeta result out ∧
        Contributes cfg w (receiveAgentResult cfg dispatchId eventMeta result source key w).2 d
          out.fields := by
  unfold receiveAgentResult
  rcases checked_snd (requireController_snd source) with h | ⟨_, -, h⟩ <;> rw [h]
  · exact Or.inl (quiet_of_eq rfl)
  refine idempotent_rule dispatching
    (P := fun w' => Quiet w w' ∨ ∃ d ∈ w.db.getDispatch dispatchId, ∃ out,
      Fits w.db d eventMeta result out ∧ Contributes cfg w w' d out.fields)
    (fun w₁ w₂ h hw₁ => ?_) (fun _ => inferInstance) (Or.inl (quiet_of_eq rfl)) fun r w₁ _ hr => ?_
  · have hdispatches : dispatchTable w₂ = dispatchTable w₁ := congrArg Prod.fst h
    have hresults : results w₂ = results w₁ := congrArg Prod.snd h
    rcases hw₁ with hq | ⟨d, hd, out, hfits, u₁, u₂, hset, hbefore, heffects, hafter, hkeep⟩
    · exact Or.inl ⟨hdispatches ▸ hq.dispatches, hresults ▸ hq.results⟩
    · exact Or.inr ⟨d, hd, out, hfits, u₁, u₂, hset, hbefore, heffects, hresults.trans hafter,
        hdispatches.trans hkeep⟩
  simp only [receiveWork, returns_bind, returns_read, returns_caseSome, returns_ite,
    returns_pure] at hr
  obtain ⟨_, _, ⟨_, _, ⟨rfl, rfl⟩, hr⟩, -, rfl⟩ := hr
  rcases hr with ⟨d, hd, ⟨-, hdup⟩ | ⟨hstatus, hopen⟩⟩ | ⟨-, hunknown⟩
  · exact Or.inl (quiet_of_eq (Moves.frame dispatching hdup))
  · exact (receiveOpen_cases (Db.getDispatch_eq_some.mp hd).1 hstatus hopen).imp_right
      fun h => ⟨d, hd, h⟩
  · exact Or.inl (quiet_of_eq (Moves.frame dispatching hunknown))

end Receiving

/-! ### Consuming once -/

def isConsumed (w : World) (id : Uuid) : Bool :=
  (dispatchTable w).rows.any fun d => d.id = id && d.status = .consumed

/-- A step consumes the dispatch. -/
def becomesConsumed (w w' : World) (id : Uuid) : Bool := !isConsumed w id && isConsumed w' id

/-- How many steps of a run consume the dispatch. -/
def consumptions (cfg : Config) : World → List Command → Uuid → ℕ
  | _, [], _ => 0
  | w, x :: cs, id =>
    (becomesConsumed w (step cfg w x) id).toNat + consumptions cfg (step cfg w x) cs id

def Command.onDispatch : Command → Bool
  | .createDispatch .. | .bindSpawnResult .. | .receiveAgentResult .. | .markAgentFailed ..
  | .recover .. => true
  | _ => false

/-- The dispatch belongs to an earlier run of its task, or to an earlier handoff. -/
def Stale (db : Db) (d : AgentDispatch) : Prop :=
  (db.getLatestTaskRun d.taskId).map TaskRun.id ≠ some d.taskRunId ∨
    d.handoffId ≠ (db.getLatestHandoff d.taskId).map Handoff.id

section Once

variable {w w' : World} {d : AgentDispatch} {cfg : Config} {id : Uuid} {eventMeta result : Json}
  {out : RoleOutput d.role} {fields : List (PyStr × Json)} {cs : List Command}

theorem isConsumed_eq_true :
    isConsumed w id ↔ ∃ d ∈ (dispatchTable w).rows, d.id = id ∧ d.status = .consumed := by
  simp [isConsumed]

theorem Fits.not_stale (h : Fits w.db d eventMeta result out) : ¬Stale w.db d := by
  have hnone := h.refusal
  unfold Core.refusal at hnone
  split_ifs at hnone with h₁ h₂ h₃ h₄ h₅ h₆ h₇ <;>
    simp only [Option.or_eq_none_iff, reduceCtorEq, and_false] at hnone
  rintro (hrun | hhandoff)
  · exact h₄ hrun
  · exact h₆ hhandoff

theorem Unconsumed.isConsumed (h : Unconsumed (dispatchTable w) (dispatchTable w')) :
    isConsumed w' id = isConsumed w id := by
  rw [Bool.eq_iff_iff, isConsumed_eq_true, isConsumed_eq_true]
  constructor
  · rintro ⟨d, hd, hid, hs⟩
    exact ⟨d, h.consumed d hd hs, hid, hs⟩
  · rintro ⟨d, hd, hid, hs⟩
    exact ⟨d, h.settled d hd (by rw [hs]; rfl), hid, hs⟩

/-- A result that takes effect consumes its dispatch and no other one, and leaves all dispatches
alone that are settled. -/
theorem Contributes.dispatches (hd : d ∈ (dispatchTable w).rows)
    (hopen : d.status.settled = false) (h : Contributes cfg w w' d fields) :
    (∀ x ∈ (dispatchTable w).rows, x.status.settled → x ∈ (dispatchTable w').rows) ∧
      ∀ id, isConsumed w' id = (isConsumed w id || decide (id = d.id)) := by
  obtain ⟨w₁, w₂, ⟨t, ht, hw₁⟩, -, -, -, hkeep⟩ := h
  have hrows : (dispatchTable w').rows =
      (dispatchTable w).rows.map (Table.patch (fun x => x.id = d.id)
        (consumed (Json.obj fields).sorted)) := by
    rw [hkeep, dispatchTable, hw₁]
    exact ht
  constructor
  · intro x hx hs
    rw [hrows]
    refine List.mem_map.mpr ⟨x, hx, Table.patch_neg ?_⟩
    simp only [decide_eq_false_iff_not]
    intro hid
    rw [AgentDispatch.eq_of_id hx hd hid, hopen] at hs
    cases hs
  · intro id
    rw [Bool.eq_iff_iff, isConsumed_eq_true, Bool.or_eq_true, isConsumed_eq_true, hrows,
      decide_eq_true_eq]
    constructor
    · rintro ⟨x', hx', rfl, hs⟩
      obtain ⟨x, hx, rfl⟩ := List.mem_map.mp hx'
      by_cases hid : x.id = d.id
      · rw [Table.patch_pos (by simpa using hid)]
        exact Or.inr hid
      · rw [Table.patch_neg (by simpa using hid)] at hs ⊢
        exact Or.inl ⟨x, hx, rfl, hs⟩
    · rintro (⟨x, hx, rfl, hs⟩ | rfl)
      · refine ⟨x, List.mem_map.mpr ⟨x, hx, Table.patch_neg ?_⟩, rfl, hs⟩
        simp only [decide_eq_false_iff_not]
        intro hid
        rw [AgentDispatch.eq_of_id hx hd hid] at hs
        rw [hs] at hopen
        cases hopen
      · exact ⟨_, List.mem_map.mpr ⟨d, hd, Table.patch_pos (by simp)⟩, rfl, rfl⟩

/-- **One step** either consumes nothing and, if it drives dispatches, writes no result, or it
receives a result that takes effect. -/
theorem step_consumes (cfg : Config) (w : World) (x : Command) :
    (Unconsumed (dispatchTable w) (dispatchTable (step cfg w x)) ∧
      (x.onDispatch → (results w).Idle (results (step cfg w x)))) ∨
    ∃ d ∈ (dispatchTable w).rows, ∃ eventMeta result, ∃ out : RoleOutput d.role,
      Fits w.db d eventMeta result out ∧ Contributes cfg w (step cfg w x) d out.fields := by
  cases x with
  | createDispatch =>
    exact Or.inl ⟨(moves_createDispatch fun _ => inferInstance).moves w, fun _ => Moves.moves w⟩
  | bindSpawnResult => exact Or.inl ⟨Moves.moves w, fun _ => Moves.moves w⟩
  | markAgentFailed dispatchId reason source key errorClass errorCode =>
    exact Or.inl ⟨unconsumed_markAgentFailed w dispatchId reason source key errorClass errorCode,
      fun _ => Moves.moves w⟩
  | recover source key => exact Or.inl ⟨unconsumed_recover w source key, fun _ => Moves.moves w⟩
  | receiveAgentResult dispatchId eventMeta result source key =>
    rcases receiveAgentResult_cases w with hq | ⟨d, hd, out, hfits, hcontributes⟩
    · exact Or.inl ⟨hq.dispatches, fun _ => hq.results⟩
    · exact Or.inr ⟨d, (Db.getDispatch_eq_some.mp hd).1, eventMeta, result, out, hfits,
        hcontributes⟩
  | _ => exact Or.inl ⟨Moves.moves w, fun h => by cases h⟩

/-- What is consumed stays consumed, and what is settled stays as it is. -/
theorem step_settled (cfg : Config) (w : World) (x : Command) :
    (∀ d ∈ (dispatchTable w).rows, d.status.settled →
      d ∈ (dispatchTable (step cfg w x)).rows) ∧
    ∀ id, isConsumed w id → isConsumed (step cfg w x) id := by
  rcases step_consumes cfg w x with ⟨h, -⟩ | ⟨d, hd, _, _, out, hfits, hcontributes⟩
  · exact ⟨h.settled, fun id hid => by rw [h.isConsumed, hid]⟩
  · obtain ⟨hsettled, hconsumed⟩ := hcontributes.dispatches hd (settled_of_open hfits.status)
    exact ⟨hsettled, fun id hid => by rw [hconsumed, hid, Bool.true_or]⟩

theorem consumptions_of_isConsumed (h : isConsumed w id) : consumptions cfg w cs id = 0 := by
  induction cs generalizing w with
  | nil => rfl
  | cons x cs ih =>
    rw [consumptions, ih ((step_settled cfg w x).2 id h), becomesConsumed, h]
    rfl

theorem consumptions_le_one : consumptions cfg w cs id ≤ 1 := by
  induction cs generalizing w with
  | nil => exact Nat.zero_le 1
  | cons x cs ih =>
    rw [consumptions]
    rcases hb : becomesConsumed w (step cfg w x) id with _ | _
    · rw [Bool.toNat_false, Nat.zero_add]
      exact ih
    · rw [consumptions_of_isConsumed (by
        rw [becomesConsumed, Bool.and_eq_true] at hb
        exact hb.2)]
      exact le_rfl

/-- A dispatch that has been settled otherwise stays as it is, and is never consumed. -/
theorem consumptions_of_settled (hd : d ∈ (dispatchTable w).rows)
    (hs : d.status.settled) (hne : d.status ≠ .consumed) :
    d ∈ (dispatchTable (run cfg w cs)).rows ∧ consumptions cfg w cs d.id = 0 := by
  induction cs generalizing w with
  | nil => exact ⟨hd, rfl⟩
  | cons x cs ih =>
    have hd' := (step_settled cfg w x).1 d hd hs
    have hnot : isConsumed (step cfg w x) d.id = false := by
      rw [Bool.eq_false_iff]
      intro h
      obtain ⟨e, he, hid, hes⟩ := (isConsumed_eq_true).mp h
      rw [AgentDispatch.eq_of_id he hd' hid] at hes
      exact hne hes
    obtain ⟨hrest, hzero⟩ := ih hd'
    refine ⟨hrest, ?_⟩
    rw [consumptions, hzero, becomesConsumed, hnot, Bool.and_false]
    rfl

/-- **Consumption is exactly-once**, in every run of the core and from every store.

* A task has one open dispatch at most.
* A dispatch is consumed by one step of the run at most.
* A dispatch that was rejected or has failed stays as it is, and is never consumed.
* A step either consumes no dispatch and then, if it drives dispatches, writes no result; or it
  consumes one dispatch, which was open and is not stale, and writes what its result says. -/
theorem consumption_exactly_once (cfg : Config) (w : World) (cs : List Command) :
    (∀ d ∈ (dispatchTable (run cfg w cs)).rows, ∀ d' ∈ (dispatchTable (run cfg w cs)).rows,
      d.taskId = d'.taskId → d.status.active = true → d'.status.active = true → d = d') ∧
    (∀ id, consumptions cfg w cs id ≤ 1) ∧
    (∀ d ∈ (dispatchTable (run cfg w cs)).rows, d.status.settled = true → d.status ≠ .consumed →
      ∀ rest, d ∈ (dispatchTable (run cfg w (cs ++ rest))).rows ∧
        consumptions cfg (run cfg w cs) rest d.id = 0) ∧
    ∀ x, ((∀ id, becomesConsumed (run cfg w cs) (run cfg w (cs ++ [x])) id = false) ∧
        (x.onDispatch = true →
          (results (run cfg w cs)).Idle (results (run cfg w (cs ++ [x]))))) ∨
      ∃ d ∈ (dispatchTable (run cfg w cs)).rows,
        (d.status = .running ∨ d.status = .recoveryPending) ∧ ¬Stale (run cfg w cs).db d ∧
        (∀ id, becomesConsumed (run cfg w cs) (run cfg w (cs ++ [x])) id = decide (id = d.id)) ∧
        ∃ out : RoleOutput d.role,
          Contributes cfg (run cfg w cs) (run cfg w (cs ++ [x])) d out.fields := by
  refine ⟨fun d hd d' hd' htask ha ha' => ?_, fun id => consumptions_le_one,
    fun d hd hs hne rest => ?_, fun x => ?_⟩
  · refine Table.eq_of_clash (fun a b => ?_) hd hd' ?_
    · simp only [AgentDispatch.clash, sameKey]
      grind
    · simp [AgentDispatch.clash, htask, ha, ha']
  · rw [run, Runs.run_append]
    exact consumptions_of_settled hd hs hne
  · rw [show run cfg w (cs ++ [x]) = step cfg (run cfg w cs) x from Runs.run_append]
    rcases step_consumes cfg (run cfg w cs) x with ⟨h, hidle⟩ |
      ⟨d, hd, _, _, out, hfits, hcontributes⟩
    · refine Or.inl ⟨fun id => ?_, hidle⟩
      rw [becomesConsumed, h.isConsumed, Bool.not_and_self]
    · obtain ⟨-, hconsumed⟩ := hcontributes.dispatches hd (settled_of_open hfits.status)
      refine Or.inr ⟨d, hd, hfits.status, hfits.not_stale, fun id => ?_, out, hcontributes⟩
      have hnot : isConsumed (run cfg w cs) d.id = false := by
        rw [Bool.eq_false_iff]
        intro h
        obtain ⟨e, he, hid, hes⟩ := (isConsumed_eq_true).mp h
        have hopen := settled_of_open hfits.status
        rw [← AgentDispatch.eq_of_id he hd hid, hes] at hopen
        cases hopen
      rw [becomesConsumed, hconsumed]
      by_cases hid : id = d.id
      · rw [hid, hnot]
        simp
      · simp [hid]

end Once

end Core

end ArgentTeam
