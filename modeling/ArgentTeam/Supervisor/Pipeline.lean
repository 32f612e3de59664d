import ArgentTeam.Supervisor.Handlers

/-!
# The write pipeline

What a write role hands in passes four steps: the patch set is applied, the sandbox tests
the workspace, the test result is recorded, the result is consumed. Nothing but the
journal says how far a dispatch has come, so a step of the pipeline is what its row does
to the rows of the dispatch, and the next decision is what these rows say then.
-/

namespace ArgentTeam

namespace Supervisor

/-! ### The rows of a dispatch -/

namespace Journal

variable (js : Journal) (dispatchId : String)

def actionSucceeded (type : ActionType) : Bool :=
  (js.actionsOf dispatchId type).any fun a => a.status = .succeeded

def frozenWriteResultHash (intents : List WriteIntent) : Option Json :=
  match intents.find? fun i => i.dispatchId = dispatchId with
  | some winner => some winner.canonicalInputHash
  | none => (js.committedApplyIntents dispatchId).head?.bind SupervisorAction.inputHash

/-- The rows that test a workspace are rows of the dispatch whose workspace it is. -/
def Keyed : Prop :=
  ∀ a ∈ js, ∀ d frozen, a.actionKey = .tests d frozen →
    a.dispatchId = some d ∧ a.actionType = .runSandboxTests

end Journal

section Reads

variable {s : Snapshot} {dispatchId : String} {type : ActionType}

theorem Snapshot.actionsOf_eq : s.actionsOf dispatchId type =
    Journal.actionsOf s.actions dispatchId type := rfl

theorem Snapshot.actionSucceeded_eq : s.actionSucceeded dispatchId type =
    Journal.actionSucceeded s.actions dispatchId type := rfl

end Reads

/-! ### What a step does to the rows -/

/-- A change of the rows of one key that leaves alone what a row is about. -/
structure Harmless (key : ActionKey) (g : SupervisorAction → SupervisorAction) : Prop where
  off : ∀ a, a.actionKey ≠ key → g a = a
  actionKey : ∀ a, (g a).actionKey = a.actionKey
  dispatchId : ∀ a, (g a).dispatchId = a.dispatchId
  actionType : ∀ a, (g a).actionType = a.actionType
  createdAt : ∀ a, (g a).createdAt = a.createdAt

/-- One journal comes from another by rows of one key, added or changed. -/
structure Touched (o : Opening) (js js' : Journal) (new : List SupervisorAction)
    (g : SupervisorAction → SupervisorAction) : Prop where
  added : ∀ b ∈ new, b.actionKey = o.actionKey ∧ b.dispatchId = o.dispatchId ∧
    b.actionType = o.actionType
  harmless : Harmless o.actionKey g
  rows : js' = (js ++ new).map g
  found : ∃ b ∈ js', b.actionKey = o.actionKey

section Touched

variable {o : Opening} {js js' : Journal} {new : List SupervisorAction} {key : ActionKey}
  {g : SupervisorAction → SupervisorAction} {now : Time} {r : Begun} {a : SupervisorAction}
  {l : List SupervisorAction}

theorem Harmless.id : Harmless key id :=
  ⟨fun _ _ => rfl, fun _ => rfl, fun _ => rfl, fun _ => rfl, fun _ => rfl⟩

/-- A change of the status, and of what a row was begun with, is harmless. -/
theorem Harmless.update {f : SupervisorAction → SupervisorAction}
    (hkey : ∀ a, (f a).actionKey = a.actionKey) (hdispatch : ∀ a, (f a).dispatchId = a.dispatchId)
    (htype : ∀ a, (f a).actionType = a.actionType) (hcreated : ∀ a, (f a).createdAt = a.createdAt) :
    Harmless key fun a => if a.actionKey = key then f a else a := by
  refine ⟨fun a ha => if_neg ha, fun a => ?_, fun a => ?_, fun a => ?_, fun a => ?_⟩
  · split
    · exact hkey a
    · rfl
  · split
    · exact hdispatch a
    · rfl
  · split
    · exact htype a
    · rfl
  · split
    · exact hcreated a
    · rfl

/-- One harmless change after another. -/
theorem Harmless.comp {f : SupervisorAction → SupervisorAction} (hf : Harmless key f)
    (hg : Harmless key g) : Harmless key (f ∘ g) := by
  refine ⟨fun a ha => ?_, fun a => ?_, fun a => ?_, fun a => ?_, fun a => ?_⟩
  · have hoff : g a = a := hg.off a ha
    rw [Function.comp_apply, hoff, hf.off a ha]
  · exact (hf.actionKey _).trans (hg.actionKey a)
  · exact (hf.dispatchId _).trans (hg.dispatchId a)
  · exact (hf.actionType _).trans (hg.actionType a)
  · exact (hf.createdAt _).trans (hg.createdAt a)

theorem touched_of_beginAction (h : js.beginAction o now = some (r, a, js')) :
    ∃ new g, Touched o js js' new g := by
  rcases Journal.beginAction_cases h with ⟨-, -, -, rfl⟩ | ⟨b, hb, -, hcase⟩
  · refine ⟨[o.row now], id, ⟨?_, .id, by simp, o.row now, by simp, rfl⟩⟩
    intro b hb
    obtain rfl := List.mem_singleton.mp hb
    exact ⟨rfl, rfl, rfl⟩
  · have hmem : b ∈ js ∧ b.actionKey = o.actionKey :=
      ⟨Journal.mem_of_find hb, Journal.key_of_find hb⟩
    have hsame : Touched o js js [] id := ⟨by simp, .id, by simp, b, hmem⟩
    rcases hcase with ⟨-, -, -, rfl⟩ | ⟨-, -, -, rfl⟩ | ⟨-, -, -, -, rfl⟩ | ⟨-, -, -, -, rfl⟩
    · exact ⟨[], id, hsame⟩
    · exact ⟨[], id, hsame⟩
    · exact ⟨[], id, hsame⟩
    · refine ⟨[], _, by simp, Harmless.update (f := o.resume) (fun _ => rfl) (fun _ => rfl)
        (fun _ => rfl) (fun _ => rfl), ?_, o.resume b, ?_, hmem.2⟩
      · rw [List.append_nil]
        rfl
      · refine List.mem_map.mpr ⟨b, hmem.1, ?_⟩
        rw [if_pos hmem.2]

/-- So does finishing it. -/
theorem Touched.finish (h : Touched o js js' new g) {status : ActionStatus} {e : Option String} :
    ∃ g', Touched o js (js'.finishAction o.actionKey status e) new g' ∧
      ∀ b ∈ js'.finishAction o.actionKey status e,
        b.actionKey = o.actionKey → b.status = status := by
  have hset : Harmless o.actionKey fun a => if a.actionKey = o.actionKey then
      { a with status := status, lastErrorCode := e } else a :=
    Harmless.update (f := fun a => { a with status := status, lastErrorCode := e })
      (fun _ => rfl) (fun _ => rfl) (fun _ => rfl) (fun _ => rfl)
  refine ⟨_, ⟨h.added, hset.comp h.harmless, ?_, ?_⟩, ?_⟩
  · rw [← List.map_map, ← h.rows]
    rfl
  · obtain ⟨b, hb, hkey⟩ := h.found
    exact ⟨_, List.mem_map.mpr ⟨b, hb, rfl⟩, (hset.actionKey b).trans hkey⟩
  · intro b hb hkey
    obtain ⟨c, -, rfl⟩ := List.mem_map.mp hb
    have hc : c.actionKey = o.actionKey := (hset.actionKey c).symm.trans hkey
    simp [hc]

/-- The rows of a dispatch and a type that the touched ones are not of are as before. -/
theorem Touched.actionsOf_of_ne (h : Touched o js js' new g) {d : String} {type : ActionType}
    (hjs : ∀ a ∈ js, a.actionKey = o.actionKey → a.actionType ≠ type) (ho : o.actionType ≠ type) :
    Journal.actionsOf js' d type = Journal.actionsOf js d type := by
  have hnew : new.filter (fun a => a.dispatchId = some d && a.actionType = type) = [] := by
    rw [List.filter_eq_nil_iff]
    intro b hb
    simp [(h.added b hb).2.2, ho]
  have hmap : ∀ l : List SupervisorAction, (∀ a ∈ l,
      a.actionKey = o.actionKey → a.actionType ≠ type) →
      (l.map g).filter (fun a => a.dispatchId = some d && a.actionType = type) =
        l.filter fun a => a.dispatchId = some d && a.actionType = type := by
    intro l hl
    induction l with
    | nil => rfl
    | cons a l ih =>
      have htail := ih fun b hb => hl b (List.mem_cons_of_mem a hb)
      have hd := h.harmless.dispatchId a
      have ht := h.harmless.actionType a
      by_cases hkey : a.actionKey = o.actionKey
      · have hne := hl a List.mem_cons_self hkey
        simp [ht, hne, htail]
      · simp [h.harmless.off a hkey, List.filter_cons, htail]
  have hnewtype : ∀ a ∈ js ++ new, a.actionKey = o.actionKey → a.actionType ≠ type := by
    intro a ha hkey
    rcases List.mem_append.mp ha with ha | ha
    · exact hjs a ha hkey
    · rw [(h.added a ha).2.2]
      exact ho
  unfold Journal.actionsOf
  rw [h.rows, hmap _ hnewtype, List.filter_append, hnew, List.append_nil]

theorem latest_map (hcreated : ∀ a, (g a).createdAt = a.createdAt) :
    Snapshot.latest (l.map g) = (Snapshot.latest l).map g := by
  induction l with
  | nil => rfl
  | cons a l ih =>
    simp only [List.map_cons, Snapshot.latest, ih]
    cases Snapshot.latest l with
    | none => rfl
    | some b =>
      simp only [Option.map_some, hcreated]
      split <;> rfl

/-- The latest of some rows is one of them. -/
theorem mem_of_latest (h : Snapshot.latest l = some a) : a ∈ l := by
  induction l generalizing a with
  | nil => cases h
  | cons b l ih =>
    simp only [Snapshot.latest] at h
    cases hl : Snapshot.latest l with
    | none =>
      simp only [hl, Option.some.injEq] at h
      rw [h]
      exact List.mem_cons_self
    | some c =>
      simp only [hl] at h
      split at h
      · obtain rfl := Option.some.inj h
        exact List.mem_cons_of_mem b (ih hl)
      · obtain rfl := Option.some.inj h
        exact List.mem_cons_self

/-- No row was inserted later than the latest. -/
theorem createdAt_le_latest (ha : a ∈ l) :
    ∃ b, Snapshot.latest l = some b ∧ a.createdAt ≤ b.createdAt := by
  induction l with
  | nil => cases ha
  | cons c l ih =>
    simp only [Snapshot.latest]
    rcases List.mem_cons.mp ha with rfl | ha
    · cases Snapshot.latest l with
      | none => exact ⟨a, rfl, le_rfl⟩
      | some b =>
        by_cases hlt : a.createdAt < b.createdAt
        · exact ⟨b, by simp [hlt], hlt.le⟩
        · exact ⟨a, by simp [hlt], le_rfl⟩
    · obtain ⟨b, hb, hle⟩ := ih ha
      rw [hb]
      by_cases hlt : c.createdAt < b.createdAt
      · exact ⟨b, by simp [hlt], hle⟩
      · exact ⟨c, by simp [hlt], hle.trans (not_lt.mp hlt)⟩

/-- A row that is added may be the latest; otherwise the latest is as before. -/
theorem latest_append {l l' : List SupervisorAction} (h : Snapshot.latest (l ++ l') = some a) :
    a ∈ l' ∨ Snapshot.latest l = some a := by
  induction l generalizing a with
  | nil => exact .inl (mem_of_latest h)
  | cons b l ih =>
    simp only [List.cons_append, Snapshot.latest] at h
    cases hl : Snapshot.latest (l ++ l') with
    | none =>
      have hnone : l = [] := by
        cases l with
        | nil => rfl
        | cons e m =>
          obtain ⟨c, hc, -⟩ := @createdAt_le_latest e (e :: m ++ l') List.mem_cons_self
          exact absurd (hl.symm.trans hc) (by simp)
      simp only [hl, Option.some.injEq] at h
      exact .inr (by simp [Snapshot.latest, hnone, h])
    | some c =>
      simp only [hl] at h
      rcases ih hl with hc | hc
      · by_cases hlt : b.createdAt < c.createdAt
        · rw [if_pos hlt] at h
          obtain rfl := Option.some.inj h
          exact .inl hc
        · rw [if_neg hlt] at h
          obtain rfl := Option.some.inj h
          cases hl' : Snapshot.latest l with
          | none => exact .inr (by simp [Snapshot.latest, hl'])
          | some e =>
            obtain ⟨c', hc', hle⟩ := createdAt_le_latest
              (List.mem_append_left l' (mem_of_latest hl'))
            obtain rfl := Option.mem_unique hl hc'
            have hnot : ¬b.createdAt < e.createdAt := fun hbe => hlt (hbe.trans_le hle)
            exact .inr (by simp [Snapshot.latest, hl', hnot])
      · exact .inr (by simpa [Snapshot.latest, hc] using h)

end Touched

/-! ### Rows that test -/

section Tests

variable {js js' : Journal} {new : List SupervisorAction} {o : Opening}
  {g : SupervisorAction → SupervisorAction} {status : ActionStatus} {dispatchId : String}
  {frozen : Json} {type : ActionType}

theorem Touched.map_actionsOf (h : Touched o js js' new g) : Journal.actionsOf js' dispatchId type =
    (Journal.actionsOf (js ++ new) dispatchId type).map g := by
  unfold Journal.actionsOf
  rw [h.rows, List.filter_map]
  refine congrArg (List.map g) (List.filter_congr fun a _ => ?_)
  simp only [Function.comp_apply, h.harmless.dispatchId a, h.harmless.actionType a]

/-- Once the row of a test has a status, the tests have succeeded if that is the status. -/
theorem Touched.actionSucceeded_tests (h : Touched o js js' new g) (hkeyed : Journal.Keyed js)
    (hkey : o.actionKey = .tests dispatchId frozen) (hdispatch : o.dispatchId = some dispatchId)
    (htype : o.actionType = .runSandboxTests)
    (hstatus : ∀ b ∈ js', b.actionKey = o.actionKey → b.status = status)
    (hbefore : Journal.actionSucceeded js dispatchId .runSandboxTests = false) :
    Journal.actionSucceeded js' dispatchId .runSandboxTests = true ↔ status = .succeeded := by
  have hmem : ∀ b, b ∈ Journal.actionsOf js' dispatchId .runSandboxTests ↔
      b ∈ js' ∧ b.dispatchId = some dispatchId ∧ b.actionType = .runSandboxTests := by
    intro b
    simp [Journal.actionsOf]
  unfold Journal.actionSucceeded
  simp only [List.any_eq_true, decide_eq_true_eq]
  constructor
  · rintro ⟨b, hb, hsucceeded⟩
    obtain ⟨hb, hd, ht⟩ := (hmem b).mp hb
    by_cases hbkey : b.actionKey = o.actionKey
    · rw [← hstatus b hb hbkey]
      exact hsucceeded
    · -- A row of another key is one that was there, and none of those had succeeded.
      exfalso
      rw [h.rows] at hb
      obtain ⟨c, hc, rfl⟩ := List.mem_map.mp hb
      have hckey : c.actionKey ≠ o.actionKey := fun hc' =>
        hbkey ((h.harmless.actionKey c).trans hc')
      have hc' : c ∈ js := by
        rcases List.mem_append.mp hc with hc | hc
        · exact hc
        · exact absurd (h.added c hc).1 hckey
      rw [h.harmless.off c hckey] at hd ht hsucceeded
      have hno : Journal.actionSucceeded js dispatchId .runSandboxTests = true := by
        unfold Journal.actionSucceeded Journal.actionsOf
        exact List.any_eq_true.mpr ⟨c, List.mem_filter.mpr ⟨hc', by simp [hd, ht]⟩, by simpa⟩
      rw [hno] at hbefore
      cases hbefore
  · intro hsucceeded
    obtain ⟨b, hb, hbkey⟩ := h.found
    refine ⟨b, (hmem b).mpr ⟨hb, ?_⟩, (hstatus b hb hbkey).trans hsucceeded⟩
    rw [h.rows] at hb
    obtain ⟨c, hc, rfl⟩ := List.mem_map.mp hb
    rw [h.harmless.dispatchId, h.harmless.actionType]
    rw [h.harmless.actionKey] at hbkey
    rcases List.mem_append.mp hc with hc | hc
    · exact hkeyed c hc dispatchId frozen (hbkey.trans hkey)
    · exact ⟨(h.added c hc).2.1.trans hdispatch, (h.added c hc).2.2.trans htype⟩

/-- A row that succeeds does not use up the attempts of its type. -/
theorem Touched.not_exhausted (h : Touched o js js' new g)
    (hstatus : ∀ b ∈ js', b.actionKey = o.actionKey → b.status = .succeeded)
    (hbefore : ∀ a, Snapshot.latest (Journal.actionsOf js dispatchId type) = some a →
      ¬(a.status = .failed ∧ maxActionRetries ≤ a.attemptCount)) {b : SupervisorAction}
    (hb : Snapshot.latest (Journal.actionsOf js' dispatchId type) = some b) :
    ¬(b.status = .failed ∧ maxActionRetries ≤ b.attemptCount) := by
  have hmem : b ∈ js' := (List.mem_filter.mp (mem_of_latest hb)).1
  by_cases hkey : b.actionKey = o.actionKey
  · rw [hstatus b hmem hkey]
    rintro ⟨hfailed, -⟩
    cases hfailed
  · rw [h.map_actionsOf, latest_map h.harmless.createdAt] at hb
    obtain ⟨c, hc, rfl⟩ := Option.map_eq_some_iff.mp hb
    have hckey : c.actionKey ≠ o.actionKey := fun hc' => hkey ((h.harmless.actionKey c).trans hc')
    rw [h.harmless.off c hckey]
    have hsplit : Journal.actionsOf (js ++ new) dispatchId type =
        Journal.actionsOf js dispatchId type ++ Journal.actionsOf new dispatchId type :=
      List.filter_append ..
    rw [hsplit] at hc
    rcases latest_append hc with hc | hc
    · exact absurd (h.added c (List.mem_filter.mp hc).1).1 hckey
    · exact hbefore c hc

end Tests

/-! ### Deciding in the pipeline -/

section Decide

variable {now now' : Time} {s : Snapshot} {o : RunObservation} {ad : AgentDispatch}
  {dispatchId : String} {s' : Snapshot}

/-- A gate that does not decide anything is not open, and the task is not at it. -/
theorem of_decideGate (h : decideGate now s = none) :
    s.task.state ≠ .ownerApprovalRequired ∧ s.openGatesCount ≤ 1 ∧
      ∀ g ∈ s.gate, g.status.live = false := by
  unfold decideGate at h
  split at h
  · cases h
  rename_i hcount
  have hopen : s.task.state ≠ .ownerApprovalRequired := by
    intro hstate
    rw [hstate] at h
    cases hgate : s.gate with
    | none => simp [hgate] at h
    | some g =>
      simp only [hgate] at h
      cases hstatus : g.status <;> simp only [hstatus] at h <;> (try split at h) <;> cases h
  refine ⟨hopen, by omega, fun g hg => ?_⟩
  · rw [Option.mem_def.mp hg] at h
    by_contra hlive
    rw [Bool.not_eq_false] at hlive
    have hgate := hopen
    cases hstate : s.task.state <;> simp [hstate, hlive] at h hgate

/-- A write role's dispatch that is bound, active and at the frontier, with nothing else for
its job to do. -/
structure InPipeline (s : Snapshot) (ad : AgentDispatch) : Prop where
  nonterminal : s.job.terminal = none
  healthy : s.job.status ≠ .error
  working : inProgress s.task.state = true
  gates : s.openGatesCount ≤ 1 ∧ ∀ g ∈ s.gate, g.status.live = false
  active : s.activeDispatch = some ad
  expected : atFrontier s.frontier ad = true
  bound : unbound ad = false
  writes : isWriteRole ad.role = true

/-- In the pipeline, with a run that has succeeded, the rows of the dispatch decide. -/
theorem InPipeline.decide (h : InPipeline s ad) (ho : o.status = .succeeded) :
    decide now s (some o) = decideWritePreconditions now s ad o := by
  have hrole : s.frontier.expectedRole = some ad.role := by
    have hfront := h.expected
    simp only [atFrontier, Bool.and_eq_true, decide_eq_true_eq] at hfront
    exact hfront.2
  rw [decide_eq_atFrontier h.nonterminal h.healthy h.working
    (decideGate_eq_none h.working h.gates.1 h.gates.2) hrole,
    decideAtFrontier_of_active h.active h.expected, h.bound]
  simp [decideBound, ho, h.writes]

/-- To give up on what is unavailable is no step of the pipeline. -/
theorem unavailablePlan_action_notMem {reason d : String} :
    (unavailablePlan now s reason d).action ∉
    [.applyPatchSet, .runSandboxTests, .recordTestResult] := by
  rcases @unavailablePlan_action now s reason d with hu | hu <;> simp [hu]

/-- Only for such a dispatch, and such a run, a step of the pipeline is planned. -/
theorem inPipeline_of_decide (h : (Supervisor.decide now s (some o)).action ∈
      [.applyPatchSet, .runSandboxTests, .recordTestResult]) :
    ∃ ad, InPipeline s ad ∧ o.status = .succeeded := by
  rcases @decide_cases now s (some o) with ⟨-, hn, -⟩ | ⟨hclose, -⟩ | hgate | hexh |
    ⟨hterm, hstatus, hgate, role, hrole, hfront⟩
  · rw [hn] at h
    simp at h
  · rcases hclose with hc | hc | hc <;> simp [hc] at h
  · rcases (decideGate_action hgate).1 with hg | hg | hg <;> simp [hg] at h
  · simp [hexh, Plan.error] at h
  · have hat : (decideAtFrontier now s role (some o)).action ∈
        [.applyPatchSet, .runSandboxTests, .recordTestResult] := by rwa [hfront] at h
    have hworking : inProgress s.task.state = true := by
      have hopen := (of_decideGate hgate).1
      by_contra hidle
      cases hstate : s.task.state <;> simp [hstate, inProgress] at hidle hopen
      all_goals
        unfold Supervisor.decide at h
        rw [if_neg (not_not.mpr hterm), if_neg hstatus, hstate] at h
        simp at h
    unfold decideAtFrontier at hat
    cases had : s.activeDispatch with
    | none =>
      rcases @decideNoActive_action s role with hn | hn | hn <;> simp [had, hn] at hat
    | some ad =>
      simp only [had] at hat
      by_cases hfit : ad.cycleNo ≠ s.frontier.cycleNo ∨ ad.position ≠ s.frontier.position ∨
          ad.role ≠ role
      · simp [hfit, Plan.error] at hat
      rw [if_neg hfit] at hat
      simp only [not_or, not_not] at hfit
      by_cases hun : unbound ad = true
      · rw [if_pos hun] at hat
        rcases @decideUnbound_action now s (some o) role ad with hu | hu | hu | hu | ⟨hu, -⟩ <;>
          simp [hu] at hat
      rw [if_neg hun] at hat
      have hsucceeded : o.status = .succeeded ∧ isWriteRole role = true := by
        unfold decideBound at hat
        cases hs : o.status <;> simp only [hs] at hat
        case succeeded =>
          by_cases hw : isWriteRole role = true
          · exact ⟨rfl, hw⟩
          · rw [if_neg hw] at hat
            split at hat <;> simp [Plan.consuming] at hat
        case notFound => split at hat <;> (try split at hat) <;> simp [waitMissing] at hat
        case unknown | conflict => exact absurd hat unavailablePlan_action_notMem
        all_goals simp [poll] at hat
      refine ⟨ad, ⟨hterm, hstatus, hworking, (of_decideGate hgate).2, had, ?_, by simpa using hun,
        hfit.2.2 ▸ hsucceeded.2⟩, hsucceeded.1⟩
      simp [atFrontier, hfit.1, hfit.2.1, hrole, hfit.2.2]

theorem InPipeline.reread (h : InPipeline s ad) {job : JobRow} {actions : Journal}
    (hterm : job.terminal = none) (hstatus : job.status ≠ .error) :
    InPipeline { s with job := job, actions := actions } ad :=
  ⟨hterm, hstatus, h.working, h.gates, h.active, h.expected, h.bound, h.writes⟩

theorem decideWritePreconditions_dispatchId :
    (decideWritePreconditions now s ad o).dispatchId = some ad.id.text := by
  have hunavailable : ∀ reason, (unavailablePlan now s reason ad.id.text).dispatchId =
      some ad.id.text := by
    intro reason
    unfold unavailablePlan
    simp only
    split <;> rfl
  unfold decideWritePreconditions
  split
  · rfl
  split
  · exact hunavailable _
  split
  · rfl
  split
  · exact hunavailable _
  split
  · rfl
  split <;> rfl

/-- A step of the pipeline is planned where no step is used up and no result is another one. -/
theorem decideWritePreconditions_of_step (h : (decideWritePreconditions now s ad o).action ∈
      [.applyPatchSet, .runSandboxTests, .recordTestResult]) :
    exhaustedStep s ad = none ∧ s.divergedApplyIntent ad.id.text = none ∧
      (s.actionSucceeded ad.id.text .applyPatchSet → ¬(s.frozenWriteResultHash ad.id.text).any
        fun frozen => canonicalFullResultHash o.result ≠ frozen) := by
  unfold decideWritePreconditions at h
  cases hleft : exhaustedStep s ad with
  | some code => simp [hleft, Plan.error] at h
  | none =>
    simp only [hleft] at h
    split at h
    · exact absurd h unavailablePlan_action_notMem
    rename_i hwhole
    refine ⟨rfl, by simpa using hwhole, fun happly hhash => ?_⟩
    rw [happly, if_neg (by simp), if_pos hhash] at h
    exact absurd h unavailablePlan_action_notMem

/-- A step of the pipeline leaves the status of the job. -/
theorem step_keeps_status (h : (decideWritePreconditions now s ad o).action ∈
      [.applyPatchSet, .runSandboxTests, .recordTestResult]) :
    (decideWritePreconditions now s ad o).status = none := by
  obtain ⟨hleft, hwhole, hhash⟩ := decideWritePreconditions_of_step h
  unfold decideWritePreconditions
  simp only [hleft, hwhole]
  cases happly : s.actionSucceeded ad.id.text .applyPatchSet
  · rfl
  rw [if_neg (by simp), if_neg (by simp), if_neg (hhash happly)]
  split
  · rfl
  split <;> rfl

/-- Which step is planned is no matter of the job. -/
theorem decideWritePreconditions_job {job : JobRow}
    (h : (decideWritePreconditions now s ad o).action ∈
      [.applyPatchSet, .runSandboxTests, .recordTestResult]) :
    decideWritePreconditions now { s with job := job } ad o =
      decideWritePreconditions now s ad o := by
  obtain ⟨hleft, hwhole, hhash⟩ := decideWritePreconditions_of_step h
  have hleft' : exhaustedStep { s with job := job } ad = none := hleft
  have hwhole' : Snapshot.divergedApplyIntent { s with job := job } ad.id.text = none := hwhole
  have hdone' : ∀ type, Snapshot.actionSucceeded { s with job := job } ad.id.text type =
    s.actionSucceeded ad.id.text type := fun _ => rfl
  have hhash' : Snapshot.frozenWriteResultHash { s with job := job } ad.id.text =
    s.frozenWriteResultHash ad.id.text := rfl
  unfold decideWritePreconditions
  simp only [hleft, hleft', hwhole, hwhole', hdone', hhash', Option.isSome_none, Bool.false_eq_true,
    ↓reduceIte]
  cases happly : s.actionSucceeded ad.id.text .applyPatchSet
  · simp only [Bool.not_false, ↓reduceIte]
  · rw [if_neg (hhash happly), if_neg (hhash happly)]

theorem exhausted_congr {type : ActionType}
    (h : s'.actionsOf dispatchId type = s.actionsOf dispatchId type) :
    s'.exhausted dispatchId type = s.exhausted dispatchId type := by
  unfold Snapshot.exhausted Snapshot.latestAction
  rw [h]

theorem actionSucceeded_congr {type : ActionType}
    (h : s'.actionsOf dispatchId type = s.actionsOf dispatchId type) :
    s'.actionSucceeded dispatchId type = s.actionSucceeded dispatchId type := by
  unfold Snapshot.actionSucceeded
  rw [h]

theorem diverged_congr
    (h : s'.actionsOf dispatchId .applyPatchSet = s.actionsOf dispatchId .applyPatchSet) :
    s'.divergedApplyIntent dispatchId = s.divergedApplyIntent dispatchId := by
  unfold Snapshot.divergedApplyIntent Snapshot.committedApplyIntents
  rw [h]

theorem frozen_congr
    (h : s'.actionsOf dispatchId .applyPatchSet = s.actionsOf dispatchId .applyPatchSet)
    (hintents : s'.intents = s.intents) :
    s'.frozenWriteResultHash dispatchId = s.frozenWriteResultHash dispatchId := by
  unfold Snapshot.frozenWriteResultHash Snapshot.committedApplyIntents
  rw [h, hintents]

theorem exhaustedStep_eq_none : exhaustedStep s ad = none ↔
    s.exhausted ad.id.text .applyPatchSet = false ∧
      s.exhausted ad.id.text .runSandboxTests = false ∧
      s.exhausted ad.id.text .recordTestResult = false ∧
      s.exhausted ad.id.text .consumeResult = false := by
  unfold exhaustedStep
  cases s.exhausted ad.id.text .applyPatchSet <;>
    cases s.exhausted ad.id.text .runSandboxTests <;>
    cases s.exhausted ad.id.text .recordTestResult <;>
    cases s.exhausted ad.id.text .consumeResult <;> simp

/-- What comes after the patch set: where no step is used up and the applied result is still the one
of the run, the first step that has not succeeded. -/
theorem decideWritePreconditions_next {a : ReconcileAction}
    (ha : a ∈ [.runSandboxTests, .recordTestResult]) :
    (decideWritePreconditions now s ad o).action = a ↔
      (exhaustedStep s ad = none ∧ s.divergedApplyIntent ad.id.text = none ∧
        s.actionSucceeded ad.id.text .applyPatchSet ∧
        (s.frozenWriteResultHash ad.id.text).all
          fun frozen => canonicalFullResultHash o.result = frozen) ∧
      (if !s.actionSucceeded ad.id.text .runSandboxTests then .runSandboxTests
        else if !s.actionSucceeded ad.id.text .recordTestResult then .recordTestResult
        else .consumeResult) = a := by
  have hunavailable : ∀ reason d, (unavailablePlan now s reason d).action ≠ a := by
    rintro reason d rfl
    exact unavailablePlan_action_notMem (List.mem_cons_of_mem _ ha)
  unfold decideWritePreconditions
  cases hexhausted : exhaustedStep s ad with
  | some code =>
    simp only [Plan.error]
    grind
  | none =>
    simp only [applyDivergedPlan, writeHashMismatchPlan, Plan.consuming]
    cases s.frozenWriteResultHash ad.id.text <;> split_ifs <;> simp_all <;> grind

/-- **When the sandbox tests.** -/
theorem decideWritePreconditions_runSandboxTests :
    (decideWritePreconditions now s ad o).action = .runSandboxTests ↔
      exhaustedStep s ad = none ∧ s.divergedApplyIntent ad.id.text = none ∧
      s.actionSucceeded ad.id.text .applyPatchSet = true ∧
      (s.frozenWriteResultHash ad.id.text).all
        (fun frozen => canonicalFullResultHash o.result = frozen) = true ∧
      s.actionSucceeded ad.id.text .runSandboxTests = false := by
  rw [decideWritePreconditions_next (by simp)]
  grind

/-- **When its result is recorded.** -/
theorem decideWritePreconditions_recordTestResult :
    (decideWritePreconditions now s ad o).action = .recordTestResult ↔
      exhaustedStep s ad = none ∧ s.divergedApplyIntent ad.id.text = none ∧
      s.actionSucceeded ad.id.text .applyPatchSet = true ∧
      (s.frozenWriteResultHash ad.id.text).all
        (fun frozen => canonicalFullResultHash o.result = frozen) = true ∧
      s.actionSucceeded ad.id.text .runSandboxTests = true ∧
      s.actionSucceeded ad.id.text .recordTestResult = false := by
  rw [decideWritePreconditions_next (by simp)]
  grind

end Decide

/-! ### Reading again -/

section Reread

variable {w w' : SupervisorDb} {s : Snapshot} {holder : Option LeaseCas} {now : Time}
  {obs : RunObservation} {d : ReconcileDecision}

/-- A job and a journal that have been written again are read again. -/
theorem snapshot_reread (h : w.snapshot = some s) {job : JobRow} {actions : Journal}
    (htask : job.taskId = w.job.taskId) :
    ({ w with job := job, actions := actions } : SupervisorDb).snapshot =
      some { s with job := job, actions := actions } := by
  unfold SupervisorDb.snapshot readSnapshot at h ⊢
  simp only [htask]
  cases ht : w.db.getTask w.job.taskId with
  | none => simp [ht] at h
  | some task =>
    simp only [ht, Option.bind_eq_bind, Option.bind_some, Option.some.injEq] at h ⊢
    rw [← h]

theorem snapshot_actions (h : w.snapshot = some s) {actions : Journal} :
    ({ w with actions := actions } : SupervisorDb).snapshot =
    some { s with actions := actions } := by
  obtain ⟨hjob, -, -⟩ := SupervisorDb.of_snapshot h
  have hsame : ({ s with job := w.job, actions := actions } : Snapshot) =
      { s with actions := actions } := by
    rw [← hjob]
  rw [← hsame]
  exact snapshot_reread h rfl

/-- **A step that was planned**: after the plan is committed, the dispatch is still in the
pipeline, and its rows still plan that step. -/
theorem planned_of_reconcile (h : w.reconcile holder now (some obs) = (some d, w'))
    (ha : d.action ∈ [.applyPatchSet, .runSandboxTests, .recordTestResult]) :
    ∃ s ad, w'.snapshot = some s ∧ s.actions = w'.actions ∧ InPipeline s ad ∧
      obs.status = .succeeded ∧ d.dispatchId = some ad.id.text ∧
      (decideWritePreconditions now s ad obs).action = d.action ∧
      w'.actions = w.actions ∧ w'.job.leaseFence holder now := by
  obtain ⟨s, hs, hfence, rfl, rfl⟩ := SupervisorDb.eq_of_reconcile h
  obtain ⟨hjob, hactions, -⟩ := SupervisorDb.of_snapshot hs
  obtain ⟨ad, hin, hobs⟩ := inPipeline_of_decide (show (decide now s (some obs)).action ∈ _ from ha)
  have hdecide : decide now s (some obs) = decideWritePreconditions now s ad obs := hin.decide hobs
  rw [SupervisorDb.author, hdecide] at ha
  have hkeeps : (decideWritePreconditions now s ad obs).status = none := step_keeps_status ha
  have hterm : (w.job.commit (decide now s (some obs))).terminal = none := by
    rw [JobRow.commit_terminal, ← hjob]
    exact hin.nonterminal
  have hstatus : (w.job.commit (decide now s (some obs))).status ≠ .error := by
    rw [JobRow.commit_status, hdecide, hkeeps, Option.getD_none, ← hjob]
    exact hin.healthy
  obtain ⟨howner, hexpires⟩ := @JobRow.commit_lease w.job (decide now s (some obs))
    (by rw [hdecide, hkeeps]; simp)
  refine ⟨{ s with job := w.job.commit (decide now s (some obs)), actions := w.actions }, ad,
    snapshot_reread hs (by simp), rfl, hin.reread hterm hstatus, hobs, ?_, ?_, rfl, ?_⟩
  · rw [SupervisorDb.author, hdecide]
    exact decideWritePreconditions_dispatchId
  · rw [SupervisorDb.author, hdecide, ← hactions]
    exact congrArg Plan.action (decideWritePreconditions_job ha)
  · simpa [JobRow.leaseFence, JobRow.leaseIsCurrent, JobRow.leaseHeld, howner,
      hexpires] using hfence

end Reread

end Supervisor

end ArgentTeam
