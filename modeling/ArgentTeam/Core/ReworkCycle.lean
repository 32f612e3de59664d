import ArgentTeam.Core.Binding

/-!
# The end of a rework cycle

The reviewer of a rework cycle is conditional, and without an explicit toggle the condition is
read off the open findings whenever the frontier is computed. A cycle whose reviewer has been
consumed at position 3 is exhausted at once if the last finding is resolved behind the reviewer:
the sequence without a reviewer ends at position 3 as well, with the lead it never had.
`rework_ends_at_lead_iff` says that this is the only way a cycle ends without its lead.
-/

namespace ArgentTeam

open Prog Store Workflow

/-! ### Dispatches stand where their sequence has them -/

/-- The first cycle is a standard one and every later one a rework cycle, and the dispatch
carries a role its sequence has at that position. -/
structure AgentDispatch.Placed (d : AgentDispatch) : Prop where
  one_le : 1 ≤ d.cycleNo
  rework_iff : d.sequenceKind = .rework ↔ d.cycleNo ≠ 1
  role : ∃ includeReviewer, nextRole d.sequenceKind d.position includeReviewer = some d.role

namespace Workflow

/-- A dispatch created at this frontier is placed. -/
def Frontier.Placing (f : Frontier) : Prop :=
  ∀ role, f.expectedRole = some role → 1 ≤ f.cycleNo ∧
    (f.sequenceKind = .rework ↔ f.cycleNo ≠ 1) ∧
    ∃ includeReviewer, nextRole f.sequenceKind f.position includeReviewer = some role

variable {dispatches : List AgentDispatch} {decisions : List Decision} {openFindings : Bool}

theorem foldl_max_eq_or_mem {l : List ℕ} {n : ℕ} : l.foldl max n = n ∨ l.foldl max n ∈ l := by
  induction l generalizing n with
  | nil => exact .inl rfl
  | cons m l ih =>
    rcases ih (n := max n m) with h | h
    · rw [List.foldl_cons, h]
      rcases le_total n m with hle | hle
      · exact .inr (by simp [max_eq_right hle])
      · exact .inl (max_eq_left hle)
    · exact .inr (List.mem_cons_of_mem _ h)

theorem le_foldl_max {l : List ℕ} {n : ℕ} : n ≤ l.foldl max n := by
  induction l generalizing n with
  | nil => exact le_rfl
  | cons m l ih => exact (le_max_left n m).trans ih

theorem exists_maxCycle (hne : dispatches ≠ []) (h : ∀ d ∈ dispatches, 1 ≤ d.cycleNo) :
    ∃ d ∈ dispatches, d.cycleNo = maxCycle dispatches := by
  rcases foldl_max_eq_or_mem (l := dispatches.map AgentDispatch.cycleNo) (n := 0) with h0 | hmem
  · obtain ⟨d, rest, rfl⟩ := List.exists_cons_of_ne_nil hne
    have hle : max 0 d.cycleNo ≤ maxCycle (d :: rest) := le_foldl_max
    have := h d List.mem_cons_self
    rw [maxCycle, h0] at hle
    omega
  · exact List.mem_map.mp hmem

theorem cycleKind_maxCycle (hne : dispatches ≠ []) (h : ∀ d ∈ dispatches, d.Placed) :
    1 ≤ maxCycle dispatches ∧
      (cycleKind dispatches (maxCycle dispatches) = .rework ↔ maxCycle dispatches ≠ 1) := by
  obtain ⟨d, hd, hcycle⟩ := exists_maxCycle hne fun d hd => (h d hd).one_le
  refine ⟨hcycle ▸ (h d hd).one_le, ?_⟩
  have hin : (dispatches.filter fun d => d.cycleNo = maxCycle dispatches) ≠ [] :=
    List.ne_nil_of_mem (List.mem_filter.mpr ⟨hd, by simpa using hcycle⟩)
  obtain ⟨hlast, heq⟩ := List.mem_filter.mp (List.getLast_mem hin)
  have hplaced := (h _ hlast).rework_iff
  rw [of_decide_eq_true heq] at hplaced
  rwa [cycleKind, List.getLast?_eq_some_getLast hin]

theorem placing_frontier (h : ∀ d ∈ dispatches, d.Placed) :
    (frontier dispatches decisions openFindings).Placing := by
  unfold frontier
  split
  · rintro role ⟨⟩
    exact ⟨le_rfl, by decide, true, rfl⟩
  · rename_i hne
    obtain ⟨hone, hkind⟩ := cycleKind_maxCycle hne h
    dsimp only
    split
    · rintro role ⟨⟩
      exact ⟨by simp, iff_of_true rfl (by dsimp only; omega), true, rfl⟩
    · split
      · intro role hrole
        exact ⟨hone, hkind, _, hrole⟩
      · rintro role ⟨⟩

/-- An exhausted cycle is the latest one, and all its positions have been consumed. -/
theorem frontier_exhausted (hend : (frontier dispatches decisions openFindings).expectedRole = none)
    (hkind : (frontier dispatches decisions openFindings).sequenceKind = .rework) :
    let f := frontier dispatches decisions openFindings
    dispatches ≠ [] ∧ f.cycleNo = maxCycle dispatches ∧ cycleKind dispatches f.cycleNo = .rework ∧
      ∀ pos < (reworkSequence (reworkIncludeForCycle f.cycleNo decisions openFindings)).length,
        ∃ d ∈ dispatches, d.cycleNo = f.cycleNo ∧ d.status = .consumed ∧ d.position = pos := by
  unfold frontier at hend hkind ⊢
  split at hend
  · cases hend
  · rename_i hne
    rw [if_neg hne] at hkind ⊢
    dsimp only at hend hkind ⊢
    split at hend
    · cases hend
    · rename_i hpending
      simp only [hpending] at hkind ⊢
      split at hend
      · rename_i pos hpos
        have hlt : pos < _ := List.mem_range.mp (List.mem_of_find?_eq_some hpos)
        rw [List.getElem?_eq_getElem hlt] at hend
        cases hend
      · -- no position of the sequence is open, so each of them is among the consumed ones
        rename_i hopen
        simp only [hopen] at hkind ⊢
        refine ⟨hne, trivial, hkind, fun pos hpos => ?_⟩
        rw [hkind] at hopen
        have hall := List.find?_eq_none.mp hopen pos (List.mem_range.mpr hpos)
        simpa [consumedPositions, and_assoc] using hall

/-- A rework cycle has five positions at most, and the last of them is the lead's. -/
theorem nextRole_rework {pos : ℕ} {includeReviewer : Bool} {role : Role}
    (h : nextRole .rework pos includeReviewer = some role) : pos ≤ 4 ∧
    (pos = 4 → role = .lead) := by
  have hlt : pos < (reworkSequence includeReviewer).length := by
    by_contra hge
    rw [nextRole, effectiveSequence, List.getElem?_eq_none (by omega)] at h
    cases h
  cases includeReviewer with
  | false =>
    have : pos < 4 := hlt
    omega
  | true =>
    have : pos < 5 := hlt
    refine ⟨by omega, ?_⟩
    rintro rfl
    cases h
    rfl

end Workflow

namespace Core

def AllPlaced (t : Table AgentDispatch AgentDispatch.clash) : Prop := ∀ d ∈ t.rows, d.Placed

def KeepsPlaces (t t' : Table AgentDispatch AgentDispatch.clash) : Prop :=
    AllPlaced t → AllPlaced t'

instance : Std.Refl KeepsPlaces := ⟨fun _ h => h⟩

instance : IsTrans _ KeepsPlaces := ⟨fun _ _ _ h h' ht => h' (h ht)⟩

theorem keepsPlaces_update {t t' : Table AgentDispatch AgentDispatch.clash}
    {p : AgentDispatch → Bool} {f : AgentDispatch → AgentDispatch} (h : t.update? p f = some t')
    (hf : ∀ d, d.Placed → (f d).Placed) : KeepsPlaces t t' := by
  intro ht d' hd'
  rw [(Table.update?_eq_some.mp h).2] at hd'
  obtain ⟨d, hd, rfl⟩ := List.mem_map.mp hd'
  rw [Table.patch]
  split
  · exact hf d (ht d hd)
  · exact ht d hd

variable {id : Uuid}

instance : Moves dispatchTable KeepsPlaces (rejectDispatchCas id) :=
  Relvar.moves_update fun _ _ ht => keepsPlaces_update ht fun _ h => ⟨h.1, h.2, h.3⟩

instance {status : DispatchStatus} :
    Moves dispatchTable KeepsPlaces (updateDispatchStatus id status) :=
  Relvar.moves_update fun _ _ ht => keepsPlaces_update ht fun _ h => ⟨h.1, h.2, h.3⟩

instance {result : Json} :
    Moves dispatchTable KeepsPlaces (consumeDispatch id result) :=
  Relvar.moves_update fun _ _ ht => keepsPlaces_update ht fun _ h => ⟨h.1, h.2, h.3⟩

instance {e : Error} {session run : String} {provider model thinking : Option String} :
    Moves dispatchTable KeepsPlaces
      (updateDispatchBind e id session run provider model thinking) :=
  Relvar.moves_update fun _ _ ht => keepsPlaces_update ht fun _ h => ⟨h.1, h.2, h.3⟩

theorem moves_insertDispatch {d : AgentDispatch} (hd : d.Placed) :
    Moves dispatchTable KeepsPlaces (insertDispatch d) := by
  refine Relvar.moves_insert fun w t' ht hplaced x hx => ?_
  have hrows := (Table.insert?_eq_some.mp ht).2
  simp only [dispatchTable, Tables.agentDispatches, hrows, List.mem_append, List.mem_cons,
    List.not_mem_nil, or_false] at hx
  exact hx.elim (hplaced x) fun hx => hx ▸ hd

theorem moves_require_bind {α : Type} {c : Prop} [Decidable c] {e : Error} {m : Unit → Cmd α}
    (h : c → Moves dispatchTable KeepsPlaces (m ())) :
    Moves dispatchTable KeepsPlaces (require c e >>= m) := by
  by_cases hc : c
  · refine moves_bind inferInstance fun _ => h hc
  · refine ⟨fun w => ?_⟩
    have hr : (require c e >>= m) w = (.error e, w) := by simp [require, hc, bind]
    rw [hr]
    exact Std.Refl.refl _

theorem moves_read_frontier {α : Type} {taskId : Uuid} {m : Frontier → Cmd α}
    (h : ∀ f : Frontier, f.Placing → Moves dispatchTable KeepsPlaces (m f)) :
    Moves dispatchTable KeepsPlaces (read (fun w => workflowFrontier w.db taskId) >>= m) := by
  refine ⟨fun w hplaced => ?_⟩
  have hf : (workflowFrontier w.db taskId).Placing :=
    placing_frontier fun d hd => hplaced d (Db.mem_listDispatches.mp hd).1
  exact (h _ hf).moves w hplaced

instance {cfg : Config} {taskId taskRunId : String} {role : Role} {position cycleNo : ℕ}
    {kind : SequenceKind} {parent : Option String} {routing : Option RoutingRecord}
    {identity : ModelChoice} : Moves dispatchTable KeepsPlaces
      (createDispatchWork cfg taskId taskRunId role position cycleNo kind parent routing
        identity) := by
  unfold createDispatchWork
  refine moves_bind inferInstance fun task => moves_bind inferInstance fun active =>
    moves_bind inferInstance fun _ => moves_bind inferInstance fun _ =>
      moves_read_frontier fun f hf => moves_require_bind fun hrole =>
        moves_require_bind fun hplace => ?_
  obtain ⟨rfl, rfl, rfl⟩ := hplace
  obtain ⟨hone, hkind, hnext⟩ := hf role hrole
  repeat' first
    | infer_instance
    | exact moves_insertDispatch ⟨hone, hkind, hnext⟩
    | refine moves_bind ?_ fun _ => ?_
    | refine moves_whenSome fun _ => ?_

theorem step_keepsPlaces (cfg : Config) (w : World) (c : Command) :
    KeepsPlaces (dispatchTable w) (dispatchTable (step cfg w c)) := by
  cases c with
  | createDispatch => exact (moves_createDispatch fun _ => inferInstance).moves w
  | _ => exact Moves.moves w

theorem allPlaced_run (cfg : Config) {w : World} (hw : Fresh w) (cs : List Command) :
    AllPlaced (dispatchTable (run cfg w cs)) := by
  refine Runs.run_always (I := fun w => AllPlaced (dispatchTable w))
    (fun w c h => step_keepsPlaces cfg w c h) ?_
  intro d hd
  rw [dispatchTable, hw] at hd
  cases hd

/-! ### The last dispatch of a cycle -/

def consumedIn (db : Db) (taskId : Uuid) (cycle : ℕ) : List AgentDispatch :=
  (db.listDispatches taskId).filter fun d => d.cycleNo = cycle && d.status = .consumed

/-- The last position consumed in a cycle is the lead's. -/
def EndsAtLead (db : Db) (taskId : Uuid) (cycle : ℕ) : Prop :=
  ∀ d ∈ consumedIn db taskId cycle,
    (∀ d' ∈ consumedIn db taskId cycle, d'.position ≤ d.position) → d.role = .lead

instance (db : Db) (taskId : Uuid) (cycle : ℕ) : Decidable (EndsAtLead db taskId cycle) :=
  inferInstanceAs (Decidable (∀ d ∈ _, (∀ d' ∈ _, _ ≤ _) → _ = _))

/-- The toggle of a rework cycle, as the decisions and the open findings have it. -/
def includesReviewer (db : Db) (taskId : Uuid) (cycle : ℕ) : Bool :=
  reworkIncludeForCycle cycle (db.listDecisions taskId)
    ((db.listFindings taskId).any fun f => f.status = .opened)

/-- **A rework cycle ends at the lead unless its reviewer was toggled off behind it**: when the
frontier reports a rework cycle exhausted, the last consumed position is the lead's exactly if
the toggle is on, or position 4 has been consumed, or position 3 was the lead's. -/
theorem rework_ends_at_lead_iff (cfg : Config) {w : World} (hw : Fresh w) (cs : List Command)
    (taskId : Uuid)
    (hkind : (workflowFrontier (run cfg w cs).db taskId).sequenceKind = .rework)
    (hend : (workflowFrontier (run cfg w cs).db taskId).expectedRole = none) :
    EndsAtLead (run cfg w cs).db taskId (workflowFrontier (run cfg w cs).db taskId).cycleNo ↔
      includesReviewer (run cfg w cs).db taskId
        (workflowFrontier (run cfg w cs).db taskId).cycleNo = true ∨
      (∃ d ∈ consumedIn (run cfg w cs).db taskId
        (workflowFrontier (run cfg w cs).db taskId).cycleNo, d.position = 4) ∨
      ∀ d ∈ consumedIn (run cfg w cs).db taskId
        (workflowFrontier (run cfg w cs).db taskId).cycleNo, d.position = 3 → d.role = .lead := by
  have hplaced : ∀ d ∈ (run cfg w cs).db.listDispatches taskId, d.Placed := fun d hd =>
    allPlaced_run cfg hw cs d (Db.mem_listDispatches.mp hd).1
  obtain ⟨hne, hcycle, hrework, hall⟩ := frontier_exhausted hend hkind
  generalize (run cfg w cs).db = db at *
  have hlatest := (cycleKind_maxCycle hne hplaced).2
  rw [← workflowFrontier] at hcycle hrework hall
  rw [← hcycle, hrework] at hlatest
  generalize (workflowFrontier db taskId).cycleNo = cycle at *
  -- every consumed position of the cycle is one of a rework sequence
  have hrole : ∀ d ∈ consumedIn db taskId cycle,
      d.position ≤ 4 ∧ (d.position = 4 → d.role = .lead) := by
    intro d hd
    obtain ⟨hmem, hin⟩ := List.mem_filter.mp hd
    obtain ⟨includeReviewer, hnext⟩ := (hplaced d hmem).role
    have hd1 : d.cycleNo = cycle := by simp_all
    rw [(hplaced d hmem).rework_iff.mpr (hd1 ▸ hlatest.mp rfl)] at hnext
    exact nextRole_rework hnext
  have hconsumed : ∀ pos < (reworkSequence (includesReviewer db taskId cycle)).length,
      ∃ d ∈ consumedIn db taskId cycle, d.position = pos := by
    intro pos hpos
    obtain ⟨d, hd, hd1, hd2, hd3⟩ := hall pos hpos
    exact ⟨d, List.mem_filter.mpr ⟨hd, by simp [hd1, hd2]⟩, hd3⟩
  have hlast : ∀ d ∈ consumedIn db taskId cycle, d.position = 4 → EndsAtLead db taskId cycle := by
    intro d hd hpos d' hd' hmax
    refine (hrole d' hd').2 (le_antisymm (hrole d' hd').1 ?_)
    exact hpos ▸ hmax d hd
  constructor
  · intro h
    by_cases h4 : ∃ d ∈ consumedIn db taskId cycle, d.position = 4
    · exact .inr (.inl h4)
    · refine .inr (.inr fun d hd hpos => h d hd fun d' hd' => ?_)
      have hle := (hrole d' hd').1
      have hne4 : d'.position ≠ 4 := fun heq => h4 ⟨d', hd', heq⟩
      omega
  · rintro (htoggle | ⟨d, hd, hpos⟩ | h3)
    · obtain ⟨d, hd, hpos⟩ := hconsumed 4 (by rw [htoggle]; decide)
      exact hlast d hd hpos
    · exact hlast d hd hpos
    · intro d hd hmax
      have hlen : 3 < (reworkSequence (includesReviewer db taskId cycle)).length := by
        cases includesReviewer db taskId cycle <;> decide
      obtain ⟨d₃, hd₃, hpos⟩ := hconsumed 3 hlen
      have hge := hmax d₃ hd₃
      have hle := (hrole d hd).1
      rcases (by omega : d.position = 3 ∨ d.position = 4) with h | h
      · exact h3 d hd h
      · exact (hrole d hd).2 h

/-! ### A cycle without its lead -/

/-- The lead sends the task back, and the rework cycle goes on to QA (52), who reports a finding
(56). -/
def findingInRework : List Command :=
  begun ++ dispatchTo .lead 0 1 .standard 6 ++ [handIn .lead 6 (decided "rework")] ++
    dispatchTo .lead 0 2 .rework 23 ++ [handIn .lead 23 (decided "accept")] ++
    dispatchTo .implementer 1 2 .rework 38 ++ [handIn .implementer 38 implemented] ++
    dispatchTo .qa 2 2 .rework 52 ++
    [.addFinding (num 1) "high" "" (roleSource .qa) none, handIn .qa 52 (tested "passed")]

def reviewed : List (String × Json) :=
  [("severity", .text "low"), ("security_findings", .arr []), ("architecture_findings", .arr []),
    ("recommendation", .text "approve")]

/-- The reviewer (71) resolves the finding, and hands in a review. -/
def resolvedByReviewer : List Command :=
  findingInRework ++ dispatchTo .reviewer 3 2 .rework 71 ++
    [.resolveFinding (num 56) (roleSource .reviewer) none, handIn .reviewer 71 reviewed]

/-- **A rework cycle may end at the reviewer**: the frontier then reports it exhausted. -/
theorem rework_ends_at_reviewer :
    ¬∀ (cfg : Config) (w : World) (cs : List Command) (taskId : Uuid), Fresh w →
      (workflowFrontier (run cfg w cs).db taskId).sequenceKind = .rework →
      (workflowFrontier (run cfg w cs).db taskId).expectedRole = none →
      EndsAtLead (run cfg w cs).db taskId (workflowFrontier (run cfg w cs).db taskId).cycleNo := by
  intro h
  have hfacts : ∃ f, workflowFrontier (run .lenient ticking resolvedByReviewer).db
        (.numbered 1) = f ∧ f.sequenceKind = .rework ∧ f.expectedRole = none ∧
      ¬EndsAtLead (run .lenient ticking resolvedByReviewer).db (.numbered 1) f.cycleNo :=
    ⟨⟨2, 4, .rework, false, none⟩, by decide +kernel⟩
  obtain ⟨f, rfl, hkind, hend, hlast⟩ := hfacts
  exact hlast (h _ _ _ _ rfl hkind hend)

/-- Without a finding, the cycle goes from QA to the lead (69). -/
def noFinding : List Command :=
  begun ++ dispatchTo .lead 0 1 .standard 6 ++ [handIn .lead 6 (decided "rework")] ++
    dispatchTo .lead 0 2 .rework 23 ++ [handIn .lead 23 (decided "accept")] ++
    dispatchTo .implementer 1 2 .rework 38 ++ [handIn .implementer 38 implemented] ++
    dispatchTo .qa 2 2 .rework 52 ++ [handIn .qa 52 (tested "passed")] ++
    dispatchTo .lead 3 2 .rework 69 ++ [handIn .lead 69 (decided "accept")]

/-- Then the cycle ends at the lead. -/
theorem rework_ends_at_lead_without_finding :
    EndsAtLead (run .lenient ticking noFinding).db (.numbered 1) 2 := by
  have hfacts : ∃ f, workflowFrontier (run .lenient ticking noFinding).db (.numbered 1) = f ∧
      f.sequenceKind = .rework ∧ f.expectedRole = none ∧ f.cycleNo = 2 ∧
      ∀ d ∈ consumedIn (run .lenient ticking noFinding).db (.numbered 1) 2,
        d.position = 3 → d.role = .lead :=
    ⟨⟨2, 4, .rework, false, none⟩, by decide +kernel⟩
  obtain ⟨f, rfl, hkind, hend, hcycle, hlead⟩ := hfacts
  have h := rework_ends_at_lead_iff .lenient (w := ticking) rfl noFinding (.numbered 1) hkind hend
  rw [hcycle] at h
  exact h.mpr (.inr (.inr hlead))

end Core

end ArgentTeam
