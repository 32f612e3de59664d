import ArgentTeam.Lib.Worklist
import ArgentTeam.MergeQueue.Attempt

/-!
# Dependencies, and the order of the queue

Whether the dependency of a candidate is satisfied is decided twice. An evaluation looks at the
candidate that `depends_on` names or, if it names a source job, at the candidate of that job;
the order of the queue knows only the ids of the candidates of the target. They agree exactly as
long as each dependency that counts as satisfied is given by the id of a candidate of the same
target. And since a candidate becomes READY only after what it depends on has been integrated,
no cycle of dependencies is ever found (`ordering_agrees_iff`).
-/

namespace ArgentTeam

namespace MergeQueue

/-! ### What is put in order -/

section Order

variable {candidates : List IntegrationCandidate} {c d : IntegrationCandidate}

theorem takeInOrder_eq_run {waiting heap : List IntegrationCandidate} {n : ℕ} :
    takeInOrder waiting n heap =
      Worklist.run (·.insertionSort precedes)
        (fun c => waiting.filter (·.dependsOn = some c.id)) n heap := by
  induction n generalizing heap with
  | zero => rfl
  | succ n ih =>
    rw [takeInOrder, Worklist.run]
    cases heap.insertionSort precedes with
    | nil => rfl
    | cons c rest => exact congrArg (c :: ·) ih

theorem mem_ready : c ∈ ready candidates ↔ c ∈ candidates ∧ c.state = .ready := by
  simp [ready]

/-- What is put in order is READY, and free or behind what it depends on. -/
theorem mem_ordered (hc : c ∈ ordered candidates) : c ∈ ready candidates ∧
    (free candidates c ∨ ∃ d ∈ ordered candidates, c.dependsOn = some d.id) := by
  rw [ordered, takeInOrder_eq_run] at hc ⊢
  rcases Worklist.mem_or_next_of_mem_run (fun l => List.perm_insertionSort _ l) hc with
    hheap | ⟨d, hd, hnext⟩
  · obtain ⟨hready, hfree⟩ := List.mem_filter.mp hheap
    exact ⟨hready, .inl hfree⟩
  · obtain ⟨hwaiting, hdep⟩ := List.mem_filter.mp hnext
    exact ⟨List.mem_of_mem_filter hwaiting, .inr ⟨d, hd, by simpa using hdep⟩⟩

theorem mem_ordered_of_free (hkeys : (candidates.map (·.id)).Nodup) (hc : c ∈ candidates)
    (hready : c.state = .ready) (hfree : free candidates c) : c ∈ ordered candidates := by
  have hnodup : (ready candidates).Nodup := hkeys.of_map.filter _
  have haccounted : Worklist.Accounted
      (fun d => ((ready candidates).filter (!free candidates ·)).filter (·.dependsOn = some d.id))
      (ready candidates) [] ((ready candidates).filter (free candidates ·)) := by
    refine ⟨hnodup.filter _, List.filter_subset_self _, fun e he d _ hnext => ?_⟩
    have hnot := (List.mem_filter.mp (List.mem_of_mem_filter hnext)).2
    rw [(List.mem_filter.mp he).2] at hnot
    cases hnot
  rw [ordered, takeInOrder_eq_run]
  refine Worklist.mem_run_of_mem (fun l => List.perm_insertionSort _ l)
    (fun d => (hnodup.filter _).filter _) (fun d => ?_) ?_ haccounted ?_ ?_
  · exact fun e he => List.mem_of_mem_filter (List.mem_of_mem_filter he)
  · intro e d hd d' hd' he he'
    have hdep : e.dependsOn = some d.id := by simpa using (List.mem_filter.mp he).2
    have hdep' : e.dependsOn = some d'.id := by simpa using (List.mem_filter.mp he').2
    have hid : d.id = d'.id := Option.mem_unique hdep hdep'
    exact List.inj_on_of_nodup_map hkeys ((mem_ready).mp hd).1 ((mem_ready).mp hd').1 hid
  · rw [List.length_nil, Nat.zero_add]
  · exact List.mem_filter.mpr ⟨(mem_ready).mpr ⟨hc, hready⟩, hfree⟩

end Order

/-! ### What a candidate depends on -/

/-- The candidate that `_dependency_satisfied` looks at. -/
def prerequisite (cfg : Config) (db : Db) (c : IntegrationCandidate) :
    Option IntegrationCandidate :=
  (c.dependsOn.filter (· ≠ "")).bind fun dep =>
    (getIntegrationCandidate db dep).or
      (getIntegrationCandidate db (cfg.candidateIdFor c.repository c.integrationTarget dep))

def DependsOn (cfg : Config) (db : Db) (a b : IntegrationCandidate) : Prop :=
  prerequisite cfg db a = some b

def OnCycle (cfg : Config) (db : Db) (c : IntegrationCandidate) : Prop :=
  Relation.TransGen (DependsOn cfg db) c c

section Prerequisite

variable {cfg : Config} {db : Db} {c d : IntegrationCandidate}

/-- A dependency is satisfied if there is none, or if it is integrated. -/
theorem dependencySatisfied_iff : dependencySatisfied cfg db c ↔
    (∀ dep ∈ c.dependsOn, dep = "") ∨ ∃ d ∈ prerequisite cfg db c, d.state = .integrated := by
  rw [dependencySatisfied, prerequisite]
  cases c.dependsOn with
  | none => simp
  | some dep =>
    by_cases hdep : dep = ""
    · simp [hdep]
    · have hfilter : (some dep).filter (· ≠ "") = some dep := Option.filter_eq_some_iff.mpr
        ⟨rfl, by simpa using hdep⟩
      rw [hfilter, Option.bind_some]
      cases hid : getIntegrationCandidate db dep with
      | some d => simp [hdep, hid]
      | none =>
        cases hjob : getIntegrationCandidate db
            (cfg.candidateIdFor c.repository c.integrationTarget dep) with
        | some d => simp [hdep, hid, hjob]
        | none => simp [hdep, hid, hjob]

theorem mem_of_prerequisite (h : prerequisite cfg db c = some d) : d ∈ db.candidates := by
  obtain ⟨dep, -, h⟩ := Option.bind_eq_some_iff.mp h
  rcases Option.or_eq_some_iff.mp h with h | ⟨-, h⟩
  · exact Calls.mem_of_getIntegrationCandidate h
  · exact Calls.mem_of_getIntegrationCandidate h

end Prerequisite

namespace Calls

variable {q : Queue} {db db' : Db} {told : Told} {op : Op} {p : Point} {r : Request}
  {c c' d row : IntegrationCandidate} {frame : Frame} {s : System} {k : ℕ}

/-- The two rows are of one candidate, up to what transitions write. -/
structure Same (c c' : IntegrationCandidate) : Prop where
  id : c'.id = c.id
  repository : c'.repository = c.repository
  target : c'.integrationTarget = c.integrationTarget
  dependsOn : c'.dependsOn = c.dependsOn

theorem same_moved : Same row (r.moved row) := by
  refine ⟨r.moved_id, r.moved_target.1, r.moved_target.2, ?_⟩
  rw [Request.moved]
  split
  · cases hholder : r.holder <;> simp [Request.write, Fields.write, HolderWrite.write, hholder]
  · rfl

/-- The second has been created after the first. -/
def Later (db : Db) (c d : IntegrationCandidate) : Prop :=
  (db.candidates.map (·.id)).idxOf c.id < (db.candidates.map (·.id)).idxOf d.id

/-- What the candidate depends on is integrated, or has been created after it. -/
def Backed (q : Queue) (db : Db) (c : IntegrationCandidate) : Prop :=
  ∀ d, prerequisite q.config db c = some d → d.state = .integrated ∨ Later db c d

theorem prerequisite_same (h : Same c c') :
    prerequisite q.config db c' = prerequisite q.config db c := by
  rw [prerequisite, prerequisite, h.dependsOn, h.repository, h.target]

theorem Backed.same (hsame : Same c c') (h : Backed q db c) : Backed q db c' := by
  intro d hd
  rw [prerequisite_same hsame] at hd
  rw [Later, hsame.id]
  exact h d hd

theorem prerequisite_keep (h : db'.candidates = db.candidates) :
    prerequisite q.config db' c = prerequisite q.config db c := by
  rw [prerequisite, prerequisite]
  congr 1
  funext dep
  rw [getIntegrationCandidate_congr h, getIntegrationCandidate_congr h]

theorem prerequisite_went (h : Went q db r db') :
    prerequisite q.config db' c = (prerequisite q.config db c).map r.moved := by
  rw [prerequisite, prerequisite, Option.map_bind]
  congr 1
  funext dep
  rw [h.get, h.get, Function.comp_apply]
  cases getIntegrationCandidate db dep <;> rfl

/-- A candidate that is created may become what another one depends on. -/
theorem prerequisite_creates (h : Creates q db db' row)
    (hd : prerequisite q.config db' c = some d) :
    d = row ∨ prerequisite q.config db c = some d := by
  have hget : ∀ {id}, getIntegrationCandidate db' id = some d →
      d = row ∨ getIntegrationCandidate db id = some d := by
    intro id hid
    rw [getIntegrationCandidate, h.tables, List.find?_append] at hid
    rcases Option.or_eq_some_iff.mp hid with hid | ⟨-, hid⟩
    · exact Or.inr hid
    · exact Or.inl (by simpa using List.mem_of_find?_eq_some hid)
  have hnone : ∀ {id}, getIntegrationCandidate db' id = none →
      getIntegrationCandidate db id = none := by
    intro id hid
    rw [getIntegrationCandidate, h.tables, List.find?_append, Option.or_eq_none_iff] at hid
    exact hid.1
  obtain ⟨dep, hdep, hor⟩ := Option.bind_eq_some_iff.mp hd
  rcases Option.or_eq_some_iff.mp hor with hid | ⟨hid, htranslated⟩
  · refine (hget hid).imp_right fun hid => ?_
    exact Option.bind_eq_some_iff.mpr ⟨dep, hdep, Option.or_eq_some_iff.mpr (.inl hid)⟩
  · refine (hget htranslated).imp_right fun htranslated => ?_
    exact Option.bind_eq_some_iff.mpr ⟨dep, hdep,
      Option.or_eq_some_iff.mpr (.inr ⟨hnone hid, htranslated⟩)⟩

/-- The candidate is in the table, up to what transitions write. -/
def Known (db : Db) (c : IntegrationCandidate) : Prop := ∃ row ∈ db.candidates, Same c row

theorem Known.id_mem (h : Known db c) : c.id ∈ db.candidates.map (·.id) := by
  obtain ⟨row, hrow, hsame⟩ := h
  rw [← hsame.id]
  exact List.mem_map_of_mem hrow

theorem ids_went (h : Went q db r db') :
    db'.candidates.map (·.id) = db.candidates.map (·.id) := by
  rw [h.tables, List.map_map]
  exact List.map_congr_left fun row _ => r.moved_id

theorem Known.moves (h : Known db c) (hmoves : Moves q db db' op p) : Known db' c := by
  obtain ⟨row, hrow, hsame⟩ := h
  cases hmoves with
  | keeps hkeep => exact ⟨row, hkeep ▸ hrow, hsame⟩
  | creates new hnew =>
    refine ⟨row, ?_, hsame⟩
    rw [hnew.tables]
    exact List.mem_append_left _ hrow
  | goes r _ hwent =>
    refine ⟨r.moved row, ?_, ?_⟩
    · rw [hwent.tables]
      exact List.mem_map_of_mem hrow
    · have hmoved : Same row (r.moved row) := same_moved
      exact ⟨hmoved.id.trans hsame.id, hmoved.repository.trans hsame.repository,
        hmoved.target.trans hsame.target, hmoved.dependsOn.trans hsame.dependsOn⟩

/-- A candidate that is INTEGRATED stays so in a transition of a call. -/
theorem integrated_moved (htabled : Tabled db) (hfits : p.Fits q db)
    (hasks : p.request q op.holder? = some r) (hwent : Went q db r db') (hd : d ∈ db.candidates)
    (hstate : d.state = .integrated) : (r.moved d).state = .integrated := by
  by_cases hid : d.id = r.row.id
  · obtain ⟨row, hrow, hsrc, -⟩ := hwent.found
    rw [← hid, htabled.get hd] at hrow
    obtain rfl := Option.some.inj hrow
    exact absurd (hsrc.symm.trans hstate) (hfits.src_ne hasks)
  · rw [r.moved_of_ne hid]
    exact hstate

/-- What a step leaves of it. -/
theorem Backed.moves (h : Backed q db c) (hknown : Known db c) (htabled : Tabled db)
    (hfits : p.Fits q db) (hmoves : Moves q db db' op p) : Backed q db' c := by
  intro d hd
  cases hmoves with
  | keeps hkeep =>
    rw [prerequisite_keep hkeep] at hd
    rw [Later, hkeep]
    exact h d hd
  | creates new hnew =>
    have hids : db'.candidates.map (·.id) = db.candidates.map (·.id) ++ [new.id] := by
      rw [hnew.tables, List.map_append, List.map_singleton]
    rcases prerequisite_creates hnew hd with rfl | hold
    · right
      have hfresh : d.id ∉ db.candidates.map (·.id) := by
        intro hmem
        obtain ⟨row, hrow, hid⟩ := List.mem_map.mp hmem
        exact getIntegrationCandidate_eq_none hnew.fresh hrow hid
      rw [Later, hids, List.idxOf_append_of_mem hknown.id_mem,
        List.idxOf_append_of_notMem hfresh]
      exact Nat.lt_add_right _ (List.idxOf_lt_length_of_mem hknown.id_mem)
    · refine (h d hold).imp_right fun hlater => ?_
      rw [Later, hids, List.idxOf_append_of_mem hknown.id_mem, List.idxOf_append_of_mem
        (List.mem_map_of_mem (mem_of_prerequisite hold))]
      exact hlater
  | goes r hasks hwent =>
    rw [prerequisite_went hwent] at hd
    obtain ⟨d₀, hd₀, rfl⟩ := Option.map_eq_some_iff.mp hd
    refine (h d₀ hd₀).imp (integrated_moved htabled hfits hasks hwent (mem_of_prerequisite hd₀)) ?_
    intro hlater
    rw [Later, ids_went hwent, r.moved_id]
    exact hlater

/-! ### What is READY has been weighed -/

/-- The candidate has been evaluated: its dependency was satisfied then. -/
def Cleared (c : IntegrationCandidate) : Prop := c.state ≠ .pending ∧ c.state ≠ .stale

/-- What a call that evaluates a candidate has seen of it. -/
def Point.Weighed (q : Queue) (db : Db) : Point → Prop
  | .weighing c _ => Known db c
  | .promoting c toState _ _ => Known db c ∧ (toState = .ready → Backed q db c)
  | _ => True

theorem Point.Weighed.moves {p' : Point} (h : p'.Weighed q db) (htabled : Tabled db)
    (hfits : p.Fits q db) (hmoves : Moves q db db' op p) : p'.Weighed q db' := by
  cases p' with
  | weighing => exact Known.moves h hmoves
  | promoting =>
    exact ⟨h.1.moves hmoves, fun hready => (h.2 hready).moves h.1 htabled hfits hmoves⟩
  | _ => trivial

theorem weighed_nextEvaluation {ids : List String} : (nextEvaluation ids).Weighed q db := by
  cases ids <;> trivial

theorem weighed_nextIntegration {done : List Outcome} {rest : List IntegrationCandidate} :
    (nextIntegration done rest).Weighed q db := by
  cases rest <;> trivial

theorem weighed_evaluated : (evaluated frame).Weighed q db := by
  cases frame <;> first | trivial | exact weighed_nextEvaluation

theorem weighed_raised {e : Fault} : (raised e frame).Weighed q db := by
  cases frame <;> trivial

theorem weighed_settled {result : Except Fault Outcome} : (settled frame result).Weighed q db := by
  cases result with
  | error e => exact weighed_raised
  | ok o =>
    cases frame with
    | alone | evaluation => trivial
    | queue done rest =>
      rw [settled, integrated_queue]
      split
      · trivial
      · exact weighed_nextIntegration

theorem weighed_of_idle (h : p.Idle) : p.Weighed q db := by
  cases p <;> first | exact h.elim | trivial

theorem weighed_of_at {id : String} (h : p.At id frame) : p.Weighed q db := by
  cases p <;> first | exact h.elim | trivial

/-- **What a call has seen of a candidate that it evaluates.** -/
theorem weighed_turn (h : p.Weighed q db) :
    (turn q db told op p).point.Weighed q (turn q db told op p).db := by
  have hat : ∀ id frame, p.At id frame →
      (turn q db told op p).point.Weighed q (turn q db told op p).db := by
    intro id frame hp
    have hleads : Leads id frame p.stage (turn q db told op p).point := leads_turn hp
    generalize (turn q db told op p).point = p' at hleads
    cases hleads with
    | goes hat _ => exact weighed_of_at hat
    | settled => exact weighed_settled
  cases p with
  | admitting | creating | entering | probing | checking =>
    exact weighed_of_idle (idle_turn rfl)
  | evaluating =>
    rw [turn, evaluatingTurn]
    split
    · exact weighed_raised
    next row hrow =>
      split
      · exact ⟨row, mem_of_getIntegrationCandidate hrow, rfl, rfl, rfl, rfl⟩
      · exact weighed_evaluated
  | weighing c =>
    rw [turn, weighingTurn]
    split
    next hsatisfied =>
      split
      · exact ⟨h, by rintro ⟨⟩⟩
      · refine ⟨h, fun _ d hd => .inl ?_⟩
        rcases dependencySatisfied_iff.mp hsatisfied with hempty | ⟨d', hd', hstate⟩
        · obtain ⟨dep, hdep, -⟩ := Option.bind_eq_some_iff.mp hd
          obtain ⟨hdep, hne⟩ := Option.filter_eq_some_iff.mp hdep
          exact absurd (hempty dep hdep) (by simpa using hne)
        · obtain rfl := Option.mem_unique hd hd'
          exact hstate
    · exact ⟨h, by rintro ⟨⟩⟩
  | promoting =>
    rw [turn]
    unfold promotingTurn
    split
    · exact weighed_evaluated
    all_goals exact weighed_raised
  | fetching id frame => exact hat id frame ⟨rfl, rfl⟩
  | acquiring c frame | claiming c frame | resolving c frame | rereading c frame
  | lost c frame => exact hat c.id frame ⟨rfl, rfl⟩
  | revalidating c _ frame | basing c _ frame | classifying c _ frame =>
    exact hat c.id frame ⟨rfl, rfl⟩
  | preparing c _ _ frame | placing c _ _ frame | merging c _ _ frame | heading c _ _ frame
  | marking c _ _ frame => exact hat c.id frame ⟨rfl, rfl⟩
  | recording c _ _ _ frame | testing c _ _ _ frame => exact hat c.id frame ⟨rfl, rfl⟩
  | evidencing c _ _ _ _ frame | closing c _ _ _ _ frame => exact hat c.id frame ⟨rfl, rfl⟩
  | releasing => exact weighed_settled
  | listing => exact weighed_nextEvaluation
  | blocking members queue =>
    cases members with
    | nil => exact weighed_nextIntegration
    | cons => trivial
  | ordering | leaving | scanning | resetting | reclaiming | returned | crashed => trivial

/-- Only an evaluation makes something of a candidate that is PENDING or STALE. -/
theorem promoting_of_request (hfits : p.Fits q db) (hasks : p.request q op.holder? = some r)
    (hsrc : r.src = .pending ∨ r.src = .stale) : ∃ c toState error frame,
      p = .promoting c toState error frame ∧ r.row = c ∧ r.dst = toState := by
  have hdriven : ∀ {f : Holder → Request}, op.holder?.map f = some r →
      (∀ h, (f h).src = .ready ∨ (f h).src = .integrating) → False := by
    intro f hmap hf
    obtain ⟨h, -, rfl⟩ := Option.map_eq_some_iff.mp hmap
    rcases hf h with hs | hs <;> rw [hs] at hsrc <;> rcases hsrc with hsrc | hsrc <;> cases hsrc
  cases p with
  | promoting c toState error frame =>
    obtain rfl := Option.some.inj hasks
    exact ⟨c, toState, error, frame, rfl, rfl, rfl⟩
  | claiming => exact (hdriven hasks fun _ => .inl rfl).elim
  | placing | recording | evidencing => exact (hdriven hasks fun _ => .inr rfl).elim
  | closing => exact (hdriven hasks fun _ => .inr hfits.1.state).elim
  | marking => exact (hdriven hasks fun _ => .inr hfits.1.state).elim
  | blocking members queue =>
    cases members with
    | nil => cases hasks
    | cons m members =>
      obtain rfl := Option.some.inj hasks
      have hready : m.state = .ready := hfits m List.mem_cons_self
      rcases hsrc with hsrc | hsrc <;> cases hready.symm.trans hsrc
  | resetting =>
    obtain rfl := Option.some.inj hasks
    rcases hsrc with hsrc | hsrc <;> cases hsrc
  | _ => cases hasks

/-- What holds of the candidates and of the calls at any time. -/
structure Rooted (q : Queue) (s : System) : Prop extends Sound q s where
  /-- Candidates have ids that `candidate_id_for` gives. -/
  named : ∀ c ∈ s.candidates, ∃ repository target job,
    c.id = q.config.candidateIdFor repository target job
  backed : ∀ c ∈ s.candidates, Cleared c → Backed q s.toDb c
  weighed : ∀ k call, s.calls k = some call → call.point.Weighed q s.toDb

/-- What a step of a call makes of the candidates. -/
theorem Rooted.candidates (h : Rooted q s) {call : Call} (hcall : s.calls k = some call)
    (hmoves : Moves q s.toDb db' call.op call.point) :
    (∀ c ∈ db'.candidates, ∃ repository target job,
      c.id = q.config.candidateIdFor repository target job) ∧
    ∀ c ∈ db'.candidates, Cleared c → Backed q db' c := by
  have hfits := h.fits k call hcall
  have hold : ∀ c ∈ s.candidates, Backed q s.toDb c → Backed q db' c := fun c hc hbacked =>
    hbacked.moves ⟨c, hc, rfl, rfl, rfl, rfl⟩ h.toTabled hfits hmoves
  cases hmoves with
  | keeps hkeep =>
    rw [hkeep]
    exact ⟨h.named, fun c hc hcleared => hold c hc (h.backed c hc hcleared)⟩
  | creates row hnew =>
    rw [hnew.tables]
    refine ⟨fun c hc => ?_, fun c hc hcleared => ?_⟩
    · rcases List.mem_append.mp hc with hc | hc
      · exact h.named c hc
      · obtain rfl := List.mem_singleton.mp hc
        exact ⟨_, _, _, hnew.named⟩
    · rcases List.mem_append.mp hc with hc | hc
      · exact hold c hc (h.backed c hc hcleared)
      · obtain rfl := List.mem_singleton.mp hc
        exact absurd hnew.pending hcleared.1
  | goes r hasks hwent =>
    rw [hwent.tables]
    refine ⟨?_, ?_⟩
    · simp only [List.forall_mem_map, r.moved_id]
      exact h.named
    · simp only [List.forall_mem_map]
      intro c hc hcleared
      have hmoved : Same c (r.moved c) := same_moved
      rw [← hwent.tables]
      by_cases hbefore : Cleared c
      · exact (hold c hc (h.backed c hc hbefore)).same hmoved
      -- it has been cleared by this transition, which is one of an evaluation
      · have hid : c.id = r.row.id := by
          by_contra hne
          rw [r.moved_of_ne hne] at hcleared
          exact hbefore hcleared
        obtain ⟨row, hrow, hsrc, -⟩ := hwent.found
        rw [← hid, h.toTabled.get hc] at hrow
        obtain rfl := Option.some.inj hrow
        rw [Cleared, r.moved_state hid] at hcleared
        have hstate : r.src = .pending ∨ r.src = .stale := by
          rw [← hsrc]
          by_contra hnot
          exact hbefore (not_or.mp hnot)
        obtain ⟨c₀, toState, error, frame, hp, hrow₀, hdst⟩ :=
          promoting_of_request hfits hasks hstate
        have hweighed := h.weighed k call hcall
        rw [hp] at hweighed hfits
        have hready : toState = .ready := by
          rw [hdst] at hcleared
          exact hfits.2.resolve_left hcleared.1
        obtain ⟨row₀, hmem, hsame⟩ := hweighed.1
        have heq : row₀ = c := List.inj_on_of_nodup_map h.toTabled.keys hmem hc
          (hsame.id.trans ((congrArg IntegrationCandidate.id hrow₀).symm.trans hid.symm))
        rw [heq] at hsame
        exact (hold c hc ((hweighed.2 hready).same hsame)).same hmoved

theorem Rooted.take (h : Rooted q s) {call : Call} (hcall : s.calls k = some call) :
    Rooted q (s.take k call.op (turn q s.toDb told call.op call.point)) where
  toSound := h.toSound.take hcall
  named := (h.candidates hcall moves_turn).1
  backed := (h.candidates hcall moves_turn).2
  weighed k' call' hcall' := by
    have hfits := h.fits k call hcall
    rcases System.calls_take hcall' with ⟨-, rfl⟩ | ⟨-, hcall'⟩
    · exact weighed_turn (h.weighed k call hcall)
    · exact (h.weighed k' call' hcall').moves h.toTabled hfits moves_turn

/-- What others do leaves the candidates alone, and the calls. -/
theorem Rooted.set (h : Rooted q s) (db : Db) (hkeep : db.candidates = s.candidates) :
    Rooted q (s.set db) := by
  have hmoves : Moves q s.toDb db (.evaluate "") .crashed := .keeps hkeep
  have hfits : Point.crashed.Fits q s.toDb := trivial
  refine ⟨h.toSound.set db hkeep, ?_, ?_, fun k call hcall => ?_⟩
  · rw [System.set, hkeep]
    exact h.named
  · rw [System.set, hkeep]
    intro c hc hcleared
    exact (h.backed c hc hcleared).moves ⟨c, hc, rfl, rfl, rfl, rfl⟩ h.toTabled hfits hmoves
  · exact (h.weighed k call hcall).moves h.toTabled hfits hmoves

theorem Rooted.goTo (h : Rooted q s) (hp : p.Fits q s.toDb) (hstory : p.story = [])
    (hweighed : p.Weighed q s.toDb) : Rooted q (s.goTo k op p) where
  toSound := h.toSound.goTo hp hstory
  named := h.named
  backed := h.backed
  weighed k' call hcall := by
    rcases System.calls_goTo hcall with ⟨-, rfl⟩ | ⟨-, hcall⟩
    · exact hweighed
    · exact h.weighed k' call hcall

theorem Rooted.step (h : Rooted q s) (a : Act) : Rooted q (step q s a) := by
  have hstepped : Stepped q s a (Calls.step q s a) := stepped_step s a
  generalize Calls.step q s a = s' at hstepped
  cases hstepped with
  | begins k op =>
    refine h.goTo ?_ ?_ ?_
    · cases op <;> trivial
    · cases op <;> rfl
    · cases op <;> trivial
  | takes k told call _ hcall => exact h.take hcall
  | stops => exact h.goTo trivial rfl trivial
  | writes db hkeep => exact h.set db hkeep

variable {now : Time} {jobs : String → Option SupervisorJob} {locks : String → Option Holder}
  {as : List Act}

theorem rooted_run : Rooted q (run q now jobs locks as) := by
  have hsound : Sound q (run q now jobs locks []) := sound_run
  refine Runs.run_always (fun s a h => h.step a) ⟨hsound, ?_, ?_, ?_⟩
  · rintro _ ⟨⟩
  · rintro _ ⟨⟩
  · rintro _ _ ⟨⟩

/-! ### Agreement -/

def candidateIdPrefix : String := "ic_"

/-- The queue with the ids that `candidate_id_for` makes of a digest. -/
def Queue.named (q : Queue) (digest : String → String → String → String) : Queue :=
  { q with
    config :=
      { q.config with
        candidateIdFor := fun repository target job =>
          candidateIdPrefix ++ digest repository target job } }

/-- The candidates of the target of a candidate. -/
def peers (db : Db) (c : IntegrationCandidate) : List IntegrationCandidate :=
  listIntegrationCandidates db c.repository c.integrationTarget

/-- The dependencies of the candidates, and the order in which a pass puts them, agree. -/
structure Agrees (q : Queue) (s : System) : Prop where
  ordered : ∀ c ∈ s.candidates, c.state = .ready →
    dependencySatisfied q.config s.toDb c = true → c ∈ ordered (peers s.toDb c)
  /-- A pass that puts the candidates in order now attempts it, unless an outcome before it stops
  the queue. -/
  attempted : ∀ k repository target h runTests,
    s.calls k = some ⟨.process repository target h runTests, .ordering⟩ →
    ∀ c ∈ s.candidates, c.repository = repository → c.integrationTarget = target →
      c.state = .ready → dependencySatisfied q.config s.toDb c = true →
      ∀ told as op done,
        (Runs.run (step q) s (.next k told :: as)).calls k = some ⟨op, .returned (.ok done)⟩ →
        (∃ o ∈ done, o.candidateId = c.id) ∨ ∃ o ∈ done, o.stops = true
  cycles : ∀ c ∈ s.candidates, OnCycle q.config s.toDb c →
    c.state = .blocked ∨ c ∈ blocked (peers s.toDb c)

/-- The dependencies that are satisfied are given by ids of candidates of the same target, and no
candidate lies on a cycle. -/
structure Plain (q : Queue) (s : System) : Prop where
  named : ∀ c ∈ s.candidates, c.state = .ready →
    dependencySatisfied q.config s.toDb c = true →
    ∀ dep ∈ c.dependsOn, ∃ d ∈ peers s.toDb c, d.id = dep
  acyclic : ∀ c ∈ s.candidates, ¬OnCycle q.config s.toDb c

theorem mem_peers : d ∈ peers db c ↔ d ∈ db.candidates ∧ d.repository = c.repository ∧
    d.integrationTarget = c.integrationTarget := by
  rw [peers, listIntegrationCandidates, List.mem_insertionSort, List.mem_filter, decide_eq_true_eq]

theorem keys_list (h : Tabled db) {repository target : String} :
    ((listIntegrationCandidates db repository target).map (·.id)).Nodup := by
  have hperm := List.perm_insertionSort precedes
    (db.candidates.filter fun c => c.repository = repository ∧ c.integrationTarget = target)
  rw [listIntegrationCandidates, (hperm.map _).nodup_iff]
  exact h.keys.sublist (List.filter_sublist.map _)

/-- A READY candidate whose dependency is satisfied and given by the id of a candidate of its
target is put in order. -/
theorem ordered_of_named (h : Rooted q s) (hids : ∀ c ∈ s.candidates, c.id ≠ "")
    (hc : c ∈ s.candidates) (hready : c.state = .ready)
    (hsatisfied : dependencySatisfied q.config s.toDb c)
    (hnamed : ∀ dep ∈ c.dependsOn, ∃ d ∈ peers s.toDb c, d.id = dep) :
    c ∈ ordered (peers s.toDb c) := by
  refine mem_ordered_of_free (keys_list h.toTabled) ((mem_peers).mpr ⟨hc, rfl, rfl⟩) hready ?_
  rw [free]
  cases hdep : c.dependsOn with
  | none => rfl
  | some dep =>
    obtain ⟨d, hd, rfl⟩ := hnamed dep hdep
    have hmem := ((mem_peers).mp hd).1
    have hne := hids d hmem
    rcases dependencySatisfied_iff.mp hsatisfied with hempty | ⟨d', hd', hstate⟩
    · exact absurd (hempty d.id hdep) hne
    · have hfilter : (some d.id).filter (· ≠ "") = some d.id := Option.filter_eq_some_iff.mpr
        ⟨rfl, by simpa using hne⟩
      have hprerequisite : prerequisite q.config s.toDb c = some d := by
        rw [prerequisite, hdep, hfilter, Option.bind_some, h.toTabled.get hmem, Option.some_or]
      obtain rfl := Option.mem_unique hprerequisite hd'
      rw [Option.all_some, List.any_eq_true]
      exact ⟨d, hd, by simp [hstate]⟩

/-- A pass attempts what it puts in order, unless it stops. -/
theorem attempted_of_ordered {repository target : String} {h : Holder} {runTests : Bool}
    {op : Op} {done : List Outcome}
    (hcall : s.calls k = some ⟨.process repository target h runTests, .ordering⟩)
    (hc : c ∈ ordered (listIntegrationCandidates s.toDb repository target))
    (hdone : (Runs.run (step q) s (.next k told :: as)).calls k =
      some ⟨op, .returned (.ok done)⟩) :
    (∃ o ∈ done, o.candidateId = c.id) ∨ ∃ o ∈ done, o.stops := by
  have hnext : (step q s (.next k told)).calls k =
      some ⟨.process repository target h runTests,
        .blocking (blocked (listIntegrationCandidates s.toDb repository target))
          (ordered (listIntegrationCandidates s.toDb repository target))⟩ := by
    rw [step, hcall]
    exact Function.update_self ..
  obtain ⟨p, hp, hworks⟩ : ∃ p, (Runs.run (step q) (step q s (.next k told)) as).calls k =
      some ⟨.process repository target h runTests, p⟩ ∧
      p.Works ((ordered (listIntegrationCandidates s.toDb repository target)).map (·.id)) :=
    works_run hnext rfl
  obtain ⟨-, rfl⟩ := Call.mk.inj (Option.mem_unique hp hdone)
  rcases hworks.ends with hall | hstops
  · left
    have hid : c.id ∈ done.map (·.candidateId) := by
      rw [hall]
      exact List.mem_map_of_mem hc
    obtain ⟨o, ho, hoid⟩ := List.mem_map.mp hid
    exact ⟨o, ho, hoid⟩
  · exact Or.inr hstops

/-- The candidates of a cycle are not all BLOCKED or on their way there: each would have been
created before the next one. -/
theorem not_all_blocked (h : Rooted q s) (hc : OnCycle q.config s.toDb c)
    (hall : ∀ d ∈ s.candidates, OnCycle q.config s.toDb d →
      d.state = .blocked ∨ d.state = .ready) : False := by
  have hstate : ∀ d, Relation.TransGen (DependsOn q.config s.toDb) c d →
      Relation.TransGen (DependsOn q.config s.toDb) d c →
      d ∈ s.candidates ∧ (d.state = .blocked ∨ d.state = .ready) := by
    intro d hcd hdc
    obtain ⟨e, -, hed⟩ := Relation.TransGen.tail'_iff.mp hcd
    have hmem : d ∈ s.candidates := mem_of_prerequisite hed
    exact ⟨hmem, hall d hmem (hdc.trans hcd)⟩
  have hlater : ∀ a b, Relation.TransGen (DependsOn q.config s.toDb) c a →
      DependsOn q.config s.toDb a b →
      Relation.ReflTransGen (DependsOn q.config s.toDb) b c →
      Later s.toDb a b := by
    intro a b hca hab hbc
    obtain ⟨ha, hstatea⟩ := hstate a hca (.head' hab hbc)
    have hbc' : Relation.TransGen (DependsOn q.config s.toDb) b c := by
      rcases Relation.reflTransGen_iff_eq_or_transGen.mp hbc with rfl | hbc
      · exact hc
      · exact hbc
    obtain ⟨-, hstateb⟩ := hstate b (hca.tail hab) hbc'
    have hcleared : Cleared a := by
      rcases hstatea with hs | hs <;> rw [Cleared, hs] <;> decide
    refine (h.backed a ha hcleared b hab).resolve_left fun hintegrated => ?_
    rw [hintegrated] at hstateb
    rcases hstateb with hs | hs <;> cases hs
  have hfirst : ∀ d, Relation.TransGen (DependsOn q.config s.toDb) c d →
      Relation.ReflTransGen (DependsOn q.config s.toDb) d c →
      Later s.toDb c d := by
    intro d hcd
    induction hcd with
    | single hd => exact hlater _ _ hc hd
    | tail hcb hbd ih =>
      intro hdc
      exact Nat.lt_trans (ih (.head hbd hdc)) (hlater _ _ hcb hbd hdc)
  exact Nat.lt_irrefl _ (hfirst c hc .refl)

/-- **The dependency check and the order agree** exactly as long as the dependencies that are
satisfied are given by ids of candidates of the same target, and nothing lies on a cycle. -/
theorem ordering_agrees_iff (q : Queue) (digest : String → String → String → String) (now : Time)
    (jobs : String → Option SupervisorJob) (locks : String → Option Holder) (as : List Act) :
    Agrees (q.named digest) (run (q.named digest) now jobs locks as) ↔
      Plain (q.named digest) (run (q.named digest) now jobs locks as) := by
  have h : Rooted (q.named digest) (run (q.named digest) now jobs locks as) := rooted_run
  generalize run (q.named digest) now jobs locks as = s at h
  have hids : ∀ c ∈ s.candidates, c.id ≠ "" := by
    intro c hc
    obtain ⟨repository, target, job, hid⟩ := h.named c hc
    rw [hid]
    exact fun hempty => by simp [Queue.named, candidateIdPrefix] at hempty
  constructor
  · intro hagrees
    refine ⟨fun c hc hready hsatisfied dep hdep => ?_, fun c hc hcycle => ?_⟩
    · obtain ⟨-, hfree | ⟨d, hd, hdepd⟩⟩ := mem_ordered (hagrees.ordered c hc hready hsatisfied)
      · rw [free, show c.dependsOn = some dep from hdep, Option.all_some, List.any_eq_true] at hfree
        obtain ⟨d, hd, hsame⟩ := hfree
        simp only [Bool.and_eq_true, decide_eq_true_eq] at hsame
        exact ⟨d, hd, hsame.1⟩
      · rw [hdepd] at hdep
        exact ⟨d, (mem_ready.mp (mem_ordered hd).1).1, Option.some.inj hdep⟩
    · refine not_all_blocked h hcycle fun d hd hond => ?_
      exact (hagrees.cycles d hd hond).imp_right state_of_mem_blocked
  · intro hplain
    have hordered : ∀ c ∈ s.candidates, c.state = .ready →
        dependencySatisfied (q.named digest).config s.toDb c = true →
        c ∈ ordered (peers s.toDb c) := fun c hc hready hsatisfied =>
      ordered_of_named h hids hc hready hsatisfied (hplain.named c hc hready hsatisfied)
    refine ⟨hordered, ?_, fun c hc hcycle => (hplain.acyclic c hc hcycle).elim⟩
    rintro k _ _ h' runTests hcall c hc rfl rfl hready hsatisfied told as op done hdone
    exact attempted_of_ordered hcall (hordered c hc hready hsatisfied) hdone

/-! ### Three candidates that are left out -/

/-- The queue, with the job in the id of its candidate. -/
def namedQueue : Queue := (readableQueue true).named fun _ _ job => job

/-- Job `a` is integrated. Then `b` is enqueued, which depends on it by the id of the job, and `x`
and `y`, which depend on each other; and a pass comes to the point where it puts them in order. -/
def leftOut : List Act :=
  enqueued 0 "a" none ++ passed 1 24 ++ enqueued 2 "b" (some "a") ++
    enqueued 3 "x" (some "ic_y") ++ enqueued 4 "y" (some "ic_x") ++ passed 5 11

def afterLeftOut : System :=
  run namedQueue 0 (doneJobs ["a", "b", "x", "y"]) (fun _ => none) leftOut

instance {cfg : Config} {db : Db} : DecidableRel (DependsOn cfg db) :=
  fun _ _ => inferInstanceAs (Decidable (_ = _))

/-- The pass leaves `b` out, which is READY after an evaluation of the same pass, and it does not
block `x` and `y`. -/
theorem order_disagrees :
    (afterLeftOut.calls 5).map (·.op) = some (.process "repo" "main" ("holder", 1) true) ∧
    (∃ c ∈ afterLeftOut.candidates, c.id = "ic_b" ∧ c.state = .ready ∧
      dependencySatisfied namedQueue.config afterLeftOut.toDb c = true ∧
      c ∉ ordered (peers afterLeftOut.toDb c)) ∧
    (∃ x ∈ afterLeftOut.candidates, ∃ y ∈ afterLeftOut.candidates,
      DependsOn namedQueue.config afterLeftOut.toDb x y ∧
      DependsOn namedQueue.config afterLeftOut.toDb y x ∧
      x.state = .pending ∧ x ∉ blocked (peers afterLeftOut.toDb x)) ∧
    ¬Agrees namedQueue afterLeftOut := by
  have hready : ∃ c ∈ afterLeftOut.candidates, c.id = "ic_b" ∧ c.state = .ready ∧
      dependencySatisfied namedQueue.config afterLeftOut.toDb c = true ∧
      c ∉ ordered (peers afterLeftOut.toDb c) := by
    decide +kernel
  refine ⟨by decide, hready, by decide +kernel, fun hagrees => ?_⟩
  obtain ⟨c, hc, -, hstate, hsatisfied, hnot⟩ := hready
  exact hnot (hagrees.ordered c hc hstate hsatisfied)

end Calls

end MergeQueue

end ArgentTeam
