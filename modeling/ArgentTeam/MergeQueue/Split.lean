import ArgentTeam.MergeQueue.Kahn

/-!
# A correct split

The candidates that are put in order are those whose chain of dependencies ends in one that is
satisfied; each comes after what it waits for, and none that could come first is before it in the
queue, where the priority decides between equal positions. What is on a cycle, or waits for one, is
blocked, and what waits for something that is not there is deferred (`splits_deterministicOrder`).
The order in which the candidates are given makes no difference to any of this
(`deterministicOrder_perm`).
-/

namespace ArgentTeam

namespace MergeQueue

variable (candidates : List IntegrationCandidate) (integratedIds : List String)

/-! ### Dependencies -/

/-- A dependency that need not be waited for: there is none, or it is integrated. -/
def Settled (c : IntegrationCandidate) : Prop :=
  ∀ dep ∈ c.dependsOn, dep ∈ integratedIds ∨ ∃ d ∈ candidates, d.id = dep ∧ d.state = .integrated

/-- A READY candidate waits for another. -/
structure Awaits (c d : IntegrationCandidate) : Prop where
  left : c ∈ ready candidates
  right : d ∈ ready candidates
  unsettled : ¬Settled candidates integratedIds c
  dependsOn : c.dependsOn = some d.id

/-- A READY candidate waits for something that is unknown, or is neither READY nor integrated. -/
structure Stuck (c : IntegrationCandidate) : Prop where
  ready : c ∈ ready candidates
  unsettled : ¬Settled candidates integratedIds c
  absent : ∀ d ∈ MergeQueue.ready candidates, c.dependsOn ≠ some d.id

/-- The chain of dependencies of a candidate comes to this one. -/
abbrev Leads : IntegrationCandidate → IntegrationCandidate → Prop :=
  Relation.ReflTransGen (Awaits candidates integratedIds)

/-- A candidate is on a cycle, or waits for one that is. -/
def Cyclic (c : IntegrationCandidate) : Prop :=
  ∃ d, Leads candidates integratedIds c d ∧
    Relation.TransGen (Awaits candidates integratedIds) d d

/-- What a candidate waits for is satisfied, or among these. -/
def Placed (pre : List IntegrationCandidate) (c : IntegrationCandidate) : Prop :=
  Settled candidates integratedIds c ∨ ∃ d ∈ pre, c.dependsOn = some d.id

/-- Each candidate comes after what it waits for. -/
def Behind (ordered : List IntegrationCandidate) : Prop :=
  ∀ pre c post, ordered = pre ++ c :: post → Placed candidates integratedIds pre c

/-- Among the READY candidates whose dependencies are placed, the first one comes first. -/
def FirstBy (r : IntegrationCandidate → IntegrationCandidate → Prop)
    (ordered : List IntegrationCandidate) : Prop :=
  ∀ pre c post, ordered = pre ++ c :: post → ∀ d ∈ ready candidates, d ∉ pre → d ≠ c →
    Placed candidates integratedIds pre d → r c d

/-- **A correct split** of the READY candidates. -/
structure Splits (out : OrderOutcome) : Prop where
  partition : (out.ordered ++ out.deferred ++ out.blocked).Perm (ready candidates)
  behind : Behind candidates integratedIds out.ordered
  first : FirstBy candidates integratedIds precedes out.ordered
  ordered : ∀ c, c ∈ out.ordered ↔
    ∃ d ∈ ready candidates, Leads candidates integratedIds c d ∧ Settled candidates integratedIds d
  cyclic : ∀ c, Cyclic candidates integratedIds c → c ∈ out.blocked
  stuck : ∀ c, Stuck candidates integratedIds c → c ∈ out.deferred
  deferred : ∀ c ∈ out.deferred,
    ∃ d, Leads candidates integratedIds c d ∧ Stuck candidates integratedIds d
  fifoDeferred : out.deferred.Pairwise (·.queuePosition ≤ ·.queuePosition)
  fifoBlocked : out.blocked.Pairwise (·.queuePosition ≤ ·.queuePosition)

/-! ### The order of the queue -/

section Precedes

variable {a b c : IntegrationCandidate}

instance : Std.Total precedes where
  total a b := by
    rcases lt_trichotomy a.queuePosition b.queuePosition with hpos | hpos | hpos
    · exact .inl (.inl hpos)
    · rcases lt_trichotomy b.priority a.priority with hprio | hprio | hprio
      · exact .inl (.inr ⟨hpos, .inl hprio⟩)
      · rcases String.le_total a.id b.id with hid | hid
        · exact .inl (.inr ⟨hpos, .inr ⟨hprio.symm, hid⟩⟩)
        · exact .inr (.inr ⟨hpos.symm, .inr ⟨hprio, hid⟩⟩)
      · exact .inr (.inr ⟨hpos.symm, .inl hprio⟩)
    · exact .inr (.inl hpos)

instance : IsTrans IntegrationCandidate precedes where
  trans a b c hab hbc := by
    unfold precedes at *
    rcases hab with hab | ⟨hab, hab' | ⟨hab', hida⟩⟩ <;>
      rcases hbc with hbc | ⟨hbc, hbc' | ⟨hbc', hidb⟩⟩ <;> try omega
    exact .inr ⟨hab.trans hbc, .inr ⟨hab'.trans hbc', String.le_trans hida hidb⟩⟩

theorem id_eq_of_precedes (hab : precedes a b) (hba : precedes b a) : a.id = b.id := by
  unfold precedes at hab hba
  rcases hab with hab | ⟨hab, hab' | ⟨hab', hida⟩⟩ <;>
    rcases hba with hba | ⟨hba, hba' | ⟨hba', hidb⟩⟩ <;> try omega
  exact String.le_antisymm hida hidb

end Precedes

/-! ### What comes out of the heap -/

section Order

variable {candidates integratedIds} {c d : IntegrationCandidate} {dep : String}
  (hids : (candidates.map (·.id)).Nodup)
include hids

theorem unmet_eq_none_iff :
    unmet candidates integratedIds c = none ↔ Settled candidates integratedIds c := by
  unfold unmet Settled
  cases c.dependsOn with
  | none => simp
  | some dep =>
    by_cases hmem : dep ∈ integratedIds
    · simp [hmem]
    · cases hfind : candidates.find? (·.id = dep) with
      | none =>
        have hnone := List.find?_eq_none.mp hfind
        simp only [decide_eq_true_eq] at hnone
        simp only [hmem, if_false, hfind, reduceCtorEq, Option.mem_def, Option.some.injEq,
          forall_eq', false_or, false_iff, not_exists, not_and]
        exact fun d hd hid => absurd hid (hnone d hd)
      | some d =>
        have hd := List.mem_of_find?_eq_some hfind
        have hid : d.id = dep := by simpa using List.find?_some hfind
        simp only [hmem, if_false, hfind, Option.mem_def, Option.some.injEq, forall_eq', false_or]
        constructor
        · intro h
          refine ⟨d, hd, hid, ?_⟩
          by_contra hstate
          rw [if_neg hstate] at h
          cases h
        · rintro ⟨d', hd', hid', hstate⟩
          rw [List.inj_on_of_nodup_map hids hd hd' (hid.trans hid'.symm), if_pos hstate]

theorem unmet_eq_some_iff : unmet candidates integratedIds c = some dep ↔
    c.dependsOn = some dep ∧ ¬Settled candidates integratedIds c := by
  rw [← unmet_eq_none_iff hids]
  refine ⟨fun h => ⟨dependsOn_of_unmet h, by rw [h]; exact Option.some_ne_none dep⟩, ?_⟩
  rintro ⟨hdep, hne⟩
  obtain ⟨dep', hunmet⟩ := Option.ne_none_iff_exists'.mp hne
  rw [hunmet, ← dependsOn_of_unmet hunmet, hdep]

theorem mem_waitingFor_iff (hd : d ∈ ready candidates) :
    c ∈ waitingFor candidates integratedIds d.id ↔ Awaits candidates integratedIds c d := by
  rw [mem_waitingFor, unmet_eq_some_iff hids]
  exact ⟨fun h => ⟨h.1, hd, h.2.2, h.2.1⟩, fun h => ⟨h.left, h.dependsOn, h.unsettled⟩⟩

theorem accounted_start : Worklist.Accounted (fun c => waitingFor candidates integratedIds c.id)
    (ready candidates) []
    ((ready candidates).filter fun c => unmet candidates integratedIds c = none) := by
  refine ⟨(ready_ids hids).of_map.filter _, List.filter_subset_self _, fun c hc d _ hnext => ?_⟩
  have hnone := (List.mem_filter.mp hc).2
  rw [decide_eq_true_eq] at hnone
  rw [(mem_waitingFor.mp hnext).2] at hnone
  cases hnone

/-- What is put in order is what comes out of the worklist. -/
theorem orderedBy_eq_run : orderedBy candidates integratedIds =
    Worklist.run (·.insertionSort precedes) (fun c => waitingFor candidates integratedIds c.id)
      (ready candidates).length
      ((ready candidates).filter fun c => unmet candidates integratedIds c = none) := by
  have hzero : (ready candidates).filter
      (fun c => (edges candidates integratedIds).indegree c.id = 0) =
      (ready candidates).filter fun c => unmet candidates integratedIds c = none := by
    refine List.filter_congr fun c hc => ?_
    rw [indegree_edges hids hc]
    split <;> simp_all
  rw [orderedBy, hzero]
  refine kahn_eq_run hids (accounted_start hids) (fun c hc => ?_) fun id => Iff.rfl
  rw [indegree_edges hids hc]
  cases unmet candidates integratedIds c <;> simp

/-- The chains of what comes out. -/
theorem leads_iff (hd : d ∈ ready candidates) :
    Relation.ReflTransGen (fun a b => b ∈ waitingFor candidates integratedIds a.id) d c ↔
      Leads candidates integratedIds c d := by
  constructor
  · intro h
    have hboth : c ∈ ready candidates ∧ Leads candidates integratedIds c d := by
      induction h with
      | refl => exact ⟨hd, .refl⟩
      | tail _ hnext ih =>
        have hawaits := (mem_waitingFor_iff hids ih.1).mp hnext
        exact ⟨hawaits.left, .head hawaits ih.2⟩
    exact hboth.2
  · intro h
    induction h using Relation.ReflTransGen.head_induction_on with
    | refl => exact .refl
    | head hawaits _ ih => exact ih.tail ((mem_waitingFor_iff hids hawaits.right).mpr hawaits)

/-- **What is put in order**: the candidates whose chain ends in one that is satisfied. -/
theorem mem_orderedBy_iff : c ∈ orderedBy candidates integratedIds ↔
    ∃ d ∈ ready candidates, Leads candidates integratedIds c d ∧
      Settled candidates integratedIds d := by
  rw [orderedBy_eq_run hids, Worklist.mem_run_iff (fun l => List.perm_insertionSort _ l)
    (fun _ => nodup_waitingFor hids) (fun _ => waitingFor_subset)
    (fun b => eq_of_mem_waitingFor hids) (accounted_start hids) le_rfl]
  refine exists_congr fun d => ?_
  rw [List.mem_filter, decide_eq_true_eq, unmet_eq_none_iff hids]
  constructor
  · rintro ⟨⟨hd, hsettled⟩, h⟩
    exact ⟨hd, (leads_iff hids hd).mp h, hsettled⟩
  · rintro ⟨hd, h, hsettled⟩
    exact ⟨⟨hd, hsettled⟩, (leads_iff hids hd).mpr h⟩

theorem nodup_orderedBy : (orderedBy candidates integratedIds).Nodup ∧
    orderedBy candidates integratedIds ⊆ ready candidates := by
  have h := @Worklist.Accounted.run _ _ _ (ready candidates).length _ _ _
    (fun l => List.perm_insertionSort precedes l)
    (fun _ => nodup_waitingFor hids) (fun _ => waitingFor_subset)
    (fun b => eq_of_mem_waitingFor hids) (@accounted_start candidates integratedIds hids)
  rw [List.nil_append, ← orderedBy_eq_run hids] at h
  exact h

/-- Whatever could come out comes out in the order of the queue, behind what it waits for. -/
theorem next_of_orderedBy {pre post : List IntegrationCandidate}
    (h : orderedBy candidates integratedIds = pre ++ c :: post) :
    Placed candidates integratedIds pre c ∧
      ∀ d ∈ ready candidates, d ∉ pre → d ≠ c → Placed candidates integratedIds pre d →
        precedes c d := by
  have hready : ∀ d ∈ pre, d ∈ ready candidates := fun d hd =>
    (nodup_orderedBy hids).2 (by rw [h]; exact List.mem_append_left _ hd)
  have hsource : ∀ d ∈ ready candidates,
      (d ∈ (ready candidates).filter (fun c => unmet candidates integratedIds c = none) ∨
        ∃ e ∈ pre, d ∈ waitingFor candidates integratedIds e.id) ↔
      Placed candidates integratedIds pre d := by
    intro d hd
    rw [List.mem_filter, decide_eq_true_eq, unmet_eq_none_iff hids, Placed]
    by_cases hsettled : Settled candidates integratedIds d
    · exact iff_of_true (.inl ⟨hd, hsettled⟩) (.inl hsettled)
    · refine or_congr (by simp [hsettled]) (exists_congr fun e => and_congr_right fun he => ?_)
      rw [mem_waitingFor_iff hids (hready e he)]
      exact ⟨Awaits.dependsOn, fun hdep => ⟨hd, hready e he, hsettled, hdep⟩⟩
  have hc : c ∈ ready candidates := (nodup_orderedBy hids).2 (by rw [h]; simp)
  rw [orderedBy_eq_run hids] at h
  obtain ⟨hplaced, hfirst⟩ := Worklist.first_of_run (fun l => List.perm_insertionSort precedes l)
    (fun l => List.pairwise_insertionSort precedes l) h
  exact ⟨(hsource c hc).mp hplaced, fun d hd hnot hne hplaced' =>
    hfirst d ((hsource d hd).mpr hplaced') hnot hne⟩

end Order

/-! ### Chains -/

section Chains

variable {candidates integratedIds} {c d e : IntegrationCandidate}

theorem Awaits.unique (hids : (candidates.map (·.id)).Nodup)
    (h : Awaits candidates integratedIds c d) (h' : Awaits candidates integratedIds c e) :
    d = e :=
  List.inj_on_of_nodup_map (ready_ids hids) h.right h'.right
    (Option.mem_unique h.dependsOn h'.dependsOn)

/-- A chain that comes to an end has no cycle. -/
theorem not_cyclic_of_leads (hids : (candidates.map (·.id)).Nodup)
    (hlead : Leads candidates integratedIds c e)
    (hend : ∀ d, ¬Awaits candidates integratedIds e d) : ¬Cyclic candidates integratedIds c := by
  have hunique : Relator.RightUnique (Awaits candidates integratedIds) :=
    fun _ _ _ => Awaits.unique hids
  rintro ⟨d, hcd, hcycle⟩
  have hstop : ∀ x, Leads candidates integratedIds e x → x = e := by
    intro x hx
    rcases Relation.ReflTransGen.cases_head hx with rfl | ⟨y, hy, -⟩
    · rfl
    · exact absurd hy (hend y)
  -- the cycle leads to the end, and cannot go on from there
  have hde : Leads candidates integratedIds d e := by
    rcases Relation.ReflTransGen.total_of_right_unique hunique hcd hlead with h | h
    · exact h
    · rw [hstop d h]
  have hnot : ∀ x, Leads candidates integratedIds x e →
      ¬Relation.TransGen (Awaits candidates integratedIds) x x := by
    intro x hx
    induction hx using Relation.ReflTransGen.head_induction_on with
    | refl =>
      intro hloop
      obtain ⟨y, hy, -⟩ := Relation.TransGen.head'_iff.mp hloop
      exact hend y hy
    | head hstep _ ih =>
      intro hloop
      obtain ⟨y, hy, hrest⟩ := Relation.TransGen.head'_iff.mp hloop
      obtain rfl := hstep.unique hids hy
      exact ih (.tail' hrest hstep)
  exact hnot d hde hcycle

theorem not_awaits_of_settled (h : Settled candidates integratedIds c) :
    ¬Awaits candidates integratedIds c d := fun hawaits => hawaits.unsettled h

theorem not_awaits_of_stuck (h : Stuck candidates integratedIds c) :
    ¬Awaits candidates integratedIds c d := fun hawaits =>
  h.absent d hawaits.right hawaits.dependsOn

theorem Cyclic.awaits (h : Cyclic candidates integratedIds c) :
    ∃ d, Awaits candidates integratedIds c d := by
  obtain ⟨d, hcd, hcycle⟩ := h
  rcases Relation.ReflTransGen.cases_head hcd with rfl | ⟨e, he, -⟩
  · obtain ⟨e, he, -⟩ := Relation.TransGen.head'_iff.mp hcycle
    exact ⟨e, he⟩
  · exact ⟨e, he⟩

end Chains

/-! ### The split -/

section Split

variable {candidates integratedIds} {c d : IntegrationCandidate}
  (hids : (candidates.map (·.id)).Nodup)
include hids

theorem any_byId_iff : (c.dependsOn.any fun dep => (byId candidates dep).isSome) = true ↔
    ∃ d ∈ ready candidates, c.dependsOn = some d.id := by
  rw [Option.any_eq_true]
  constructor
  · rintro ⟨dep, hdep, hsome⟩
    obtain ⟨d, hd⟩ := Option.isSome_iff_exists.mp hsome
    obtain ⟨hready, rfl⟩ := (byId_eq_some hids).mp hd
    exact ⟨d, hready, hdep⟩
  · rintro ⟨d, hd, hdep⟩
    exact ⟨d.id, hdep, by rw [(byId_eq_some hids).mpr ⟨hd, rfl⟩]; rfl⟩

theorem mem_left_iff : (c ∈ (ready candidates).filter fun c =>
      c.id ∉ (orderedBy candidates integratedIds).map (·.id)) ↔
    c ∈ ready candidates ∧ c ∉ orderedBy candidates integratedIds := by
  rw [List.mem_filter, decide_eq_true_eq]
  refine and_congr_right fun hc => not_congr ⟨fun hmem => ?_, List.mem_map_of_mem⟩
  obtain ⟨d, hd, hid⟩ := List.mem_map.mp hmem
  rwa [← List.inj_on_of_nodup_map (ready_ids hids) ((nodup_orderedBy hids).2 hd) hc hid]

theorem mem_blocked_iff : c ∈ (deterministicOrder candidates integratedIds).blocked ↔
    (c ∈ ready candidates ∧ c ∉ orderedBy candidates integratedIds) ∧
      ∃ d ∈ ready candidates, c.dependsOn = some d.id := by
  rw [deterministicOrder, List.mem_insertionSort, List.mem_filter, mem_left_iff hids,
    any_byId_iff hids]

theorem mem_deferred_iff : c ∈ (deterministicOrder candidates integratedIds).deferred ↔
    (c ∈ ready candidates ∧ c ∉ orderedBy candidates integratedIds) ∧
      ¬∃ d ∈ ready candidates, c.dependsOn = some d.id := by
  rw [deterministicOrder, List.mem_insertionSort, List.mem_filter, mem_left_iff hids,
    ← any_byId_iff hids, Bool.not_eq_true', Bool.not_eq_true]

theorem mem_orderedBy_of_settled (hc : c ∈ ready candidates)
    (hsettled : Settled candidates integratedIds c) : c ∈ orderedBy candidates integratedIds :=
  (mem_orderedBy_iff hids).mpr ⟨c, hc, .refl, hsettled⟩

theorem stuck_of_mem_deferred (h : c ∈ (deterministicOrder candidates integratedIds).deferred) :
    Stuck candidates integratedIds c := by
  obtain ⟨⟨hc, hnot⟩, habsent⟩ := (mem_deferred_iff hids).mp h
  exact ⟨hc, fun hsettled => hnot (mem_orderedBy_of_settled hids hc hsettled),
    fun d hd hdep => habsent ⟨d, hd, hdep⟩⟩

theorem not_mem_orderedBy_of_stuck (h : Stuck candidates integratedIds c) :
    c ∉ orderedBy candidates integratedIds := by
  intro hmem
  obtain ⟨d, hd, hlead, hsettled⟩ := (mem_orderedBy_iff hids).mp hmem
  rcases Relation.ReflTransGen.cases_head hlead with rfl | ⟨e, he, -⟩
  · exact h.unsettled hsettled
  · exact not_awaits_of_stuck h he

/-- **Each READY candidate is in one of the lists, once.** -/
theorem partition_deterministicOrder :
    ((deterministicOrder candidates integratedIds).ordered ++
      (deterministicOrder candidates integratedIds).deferred ++
      (deterministicOrder candidates integratedIds).blocked).Perm (ready candidates) := by
  have hnodup : (ready candidates).Nodup := (ready_ids hids).of_map
  have hdeferred : (deterministicOrder candidates integratedIds).deferred.Nodup :=
    (List.perm_insertionSort _ _).nodup_iff.mpr ((hnodup.filter _).filter _)
  have hblocked : (deterministicOrder candidates integratedIds).blocked.Nodup :=
    (List.perm_insertionSort _ _).nodup_iff.mpr ((hnodup.filter _).filter _)
  refine (List.perm_ext_iff_of_nodup ?_ hnodup).mpr fun c => ?_
  · rw [List.nodup_append, List.nodup_append]
    refine ⟨⟨(nodup_orderedBy hids).1, hdeferred, ?_⟩, hblocked, ?_⟩
    · rintro c hc _ hc' rfl
      exact ((mem_deferred_iff hids).mp hc').1.2 hc
    · rintro c hc _ hc' rfl
      obtain ⟨⟨-, hnot⟩, hdep⟩ := (mem_blocked_iff hids).mp hc'
      rcases List.mem_append.mp hc with hc | hc
      · exact hnot hc
      · exact ((mem_deferred_iff hids).mp hc).2 hdep
  · rw [List.mem_append, List.mem_append, mem_deferred_iff hids, mem_blocked_iff hids]
    constructor
    · rintro ((hc | hc) | hc)
      · exact (nodup_orderedBy hids).2 hc
      · exact hc.1.1
      · exact hc.1.1
    · intro hc
      by_cases hmem : c ∈ orderedBy candidates integratedIds
      · exact .inl (.inl hmem)
      · by_cases hdep : ∃ d ∈ ready candidates, c.dependsOn = some d.id
        · exact .inr ⟨⟨hc, hmem⟩, hdep⟩
        · exact .inl (.inr ⟨⟨hc, hmem⟩, hdep⟩)

/-- **The split is a correct one.** -/
theorem splits_deterministicOrder :
    Splits candidates integratedIds (deterministicOrder candidates integratedIds) where
  partition := partition_deterministicOrder hids
  behind _ _ _ h := (next_of_orderedBy hids h).1
  first _ _ _ h := (next_of_orderedBy hids h).2
  ordered _ := mem_orderedBy_iff hids
  cyclic c h := by
    obtain ⟨d, hd⟩ := h.awaits
    refine (mem_blocked_iff hids).mpr ⟨⟨hd.left, fun hmem => ?_⟩, d, hd.right, hd.dependsOn⟩
    obtain ⟨e, -, hlead, hsettled⟩ := (mem_orderedBy_iff hids).mp hmem
    exact not_cyclic_of_leads hids hlead (fun _ => not_awaits_of_settled hsettled) h
  stuck c h := (mem_deferred_iff hids).mpr ⟨⟨h.ready, not_mem_orderedBy_of_stuck hids h⟩,
    fun ⟨d, hd, hdep⟩ => h.absent d hd hdep⟩
  deferred c h := ⟨c, .refl, stuck_of_mem_deferred hids h⟩
  fifoDeferred := List.pairwise_insertionSort _ _
  fifoBlocked := List.pairwise_insertionSort _ _

end Split

/-! ### The order of the candidates -/

section Perm

variable {candidates integratedIds} {candidates' : List IntegrationCandidate}
  (hids : (candidates.map (·.id)).Nodup) (hperm : candidates.Perm candidates')
include hids hperm

theorem unmet_perm : unmet candidates integratedIds = unmet candidates' integratedIds := by
  have hids' : (candidates'.map (·.id)).Nodup := (hperm.map _).nodup_iff.mp hids
  funext c
  refine Option.ext fun dep => ?_
  rw [unmet_eq_some_iff hids, unmet_eq_some_iff hids', Settled, Settled]
  simp only [hperm.mem_iff]

omit hids in
theorem ready_perm : (ready candidates).Perm (ready candidates') := hperm.filter _

theorem orderedBy_perm :
    orderedBy candidates integratedIds = orderedBy candidates' integratedIds := by
  have hids' : (candidates'.map (·.id)).Nodup := (hperm.map _).nodup_iff.mp hids
  rw [orderedBy_eq_run hids, orderedBy_eq_run hids', ← unmet_perm hids hperm,
    ← (ready_perm hperm).length_eq]
  refine Worklist.run_perm (fun l l' hl hll' => Chosen.insertionSort_congr ?_ hll')
    (fun l => List.perm_insertionSort precedes l) (fun _ => waitingFor_subset)
    (List.filter_subset_self _) ((ready_perm hperm).filter _) fun c => ?_
  · intro a ha b hb hab hba
    exact List.inj_on_of_nodup_map (ready_ids hids) (hl ha) (hl hb) (id_eq_of_precedes hab hba)
  · rw [waitingFor, waitingFor, ← unmet_perm hids hperm]
    exact (ready_perm hperm).filter _

theorem byId_perm : byId candidates = byId candidates' := by
  have hids' : (candidates'.map (·.id)).Nodup := (hperm.map _).nodup_iff.mp hids
  funext id
  refine Option.ext fun c => ?_
  rw [byId_eq_some hids, byId_eq_some hids', (ready_perm hperm).mem_iff]

/-- **The order in which the candidates are given** makes no difference to what is put in order, and
none to what is deferred and what is blocked. -/
theorem deterministicOrder_perm :
    (deterministicOrder candidates integratedIds).ordered =
        (deterministicOrder candidates' integratedIds).ordered ∧
      (deterministicOrder candidates integratedIds).deferred.Perm
        (deterministicOrder candidates' integratedIds).deferred ∧
      (deterministicOrder candidates integratedIds).blocked.Perm
        (deterministicOrder candidates' integratedIds).blocked := by
  have hsort : ∀ l l' : List IntegrationCandidate, l.Perm l' →
      (l.insertionSort (·.queuePosition ≤ ·.queuePosition)).Perm
        (l'.insertionSort (·.queuePosition ≤ ·.queuePosition)) := fun l l' h =>
    (List.perm_insertionSort _ l).trans (h.trans (List.perm_insertionSort _ l').symm)
  unfold deterministicOrder
  rw [← orderedBy_perm hids hperm, ← byId_perm hids hperm]
  exact ⟨rfl, hsort _ _ (((ready_perm hperm).filter _).filter _),
    hsort _ _ (((ready_perm hperm).filter _).filter _)⟩

end Perm

/-- **A correct split** of candidates with different ids, whatever their order. -/
theorem deterministicOrder_splits (candidates : List IntegrationCandidate)
    (integratedIds : List String) (hids : (candidates.map (·.id)).Nodup) :
    Splits candidates integratedIds (deterministicOrder candidates integratedIds) ∧
      ∀ candidates', candidates.Perm candidates' →
        (deterministicOrder candidates integratedIds).ordered =
            (deterministicOrder candidates' integratedIds).ordered ∧
          (deterministicOrder candidates integratedIds).deferred.Perm
            (deterministicOrder candidates' integratedIds).deferred ∧
          (deterministicOrder candidates integratedIds).blocked.Perm
            (deterministicOrder candidates' integratedIds).blocked :=
  ⟨splits_deterministicOrder hids, fun _ => deterministicOrder_perm hids⟩

/-! ### Two candidates at one position -/

section Tie

/-- The order of position and id alone. -/
def byPosition (a b : IntegrationCandidate) : Prop :=
  a.queuePosition < b.queuePosition ∨ a.queuePosition = b.queuePosition ∧ a.id ≤ b.id

/-- Two READY candidates at one position, of which the second has the higher priority. -/
def tied : List IntegrationCandidate :=
  [{ candidate "a" 0 with priority := 1 }, { candidate "b" 0 with priority := 5 }]

theorem ordered_tied : (deterministicOrder tied []).ordered =
    [{ candidate "b" 0 with priority := 5 }, { candidate "a" 0 with priority := 1 }] := by
  decide

/-- **The priority decides between equal positions**, before the id. -/
theorem priority_before_id : ¬∀ (candidates : List IntegrationCandidate)
    (integratedIds : List String), (candidates.map (·.id)).Nodup →
    ((deterministicOrder candidates integratedIds).ordered ++
        (deterministicOrder candidates integratedIds).deferred ++
        (deterministicOrder candidates integratedIds).blocked).Perm (ready candidates) ∧
      Behind candidates integratedIds (deterministicOrder candidates integratedIds).ordered ∧
      FirstBy candidates integratedIds byPosition
        (deterministicOrder candidates integratedIds).ordered ∧
      (∀ c, c ∈ (deterministicOrder candidates integratedIds).blocked ↔
        Cyclic candidates integratedIds c) ∧
      (∀ c, c ∈ (deterministicOrder candidates integratedIds).deferred ↔
        ∃ d, Leads candidates integratedIds c d ∧ Stuck candidates integratedIds d) ∧
      ∀ candidates', candidates.Perm candidates' →
        deterministicOrder candidates' integratedIds =
          deterministicOrder candidates integratedIds := by
  intro h
  obtain ⟨-, -, hfirst, -, -, -⟩ := h tied [] (by decide)
  have hbefore := hfirst [] _ _ ordered_tied { candidate "a" 0 with priority := 1 }
    (by decide) List.not_mem_nil (by decide) (.inl fun dep hdep => by cases hdep)
  revert hbefore
  unfold byPosition
  decide

theorem splits_tied : Splits tied [] (deterministicOrder tied []) ∧
    ∀ candidates', tied.Perm candidates' →
      (deterministicOrder tied []).ordered = (deterministicOrder candidates' []).ordered ∧
        (deterministicOrder tied []).deferred.Perm (deterministicOrder candidates' []).deferred ∧
        (deterministicOrder tied []).blocked.Perm (deterministicOrder candidates' []).blocked :=
  deterministicOrder_splits tied [] (by decide)

end Tie

end MergeQueue

end ArgentTeam
