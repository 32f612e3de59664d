import ArgentTeam.Lib.Chosen
import ArgentTeam.MergeQueue.Ordering

/-!
# The order of the candidates

The READY candidates of a target are split into those that are put in order, those that are
deferred and those that are blocked. The order is that of a topological sort which counts for each
candidate how many dependencies it still waits for, takes the first that waits for none out of a
heap, and counts down what depends on it. A candidate has one dependency at most, so the counts are
zero or one, and the loop is a worklist (`kahn_eq_run`).
-/

namespace ArgentTeam

namespace MergeQueue

/-! ### The split -/

structure OrderOutcome where
  ordered : List IntegrationCandidate
  deferred : List IntegrationCandidate
  blocked : List IntegrationCandidate

/-- The dictionaries `dependents` and `indegree`. -/
structure Edges where
  /-- `dependents`; what is not in it has none. -/
  dependents : String → List String := fun _ => []
  indegree : String → ℕ := fun _ => 0

section Split

variable (candidates : List IntegrationCandidate) (integratedIds : List String)

def byId (id : String) : Option IntegrationCandidate := (ready candidates).find? (·.id = id)

/-- The dependency that a candidate waits for: one that is neither among the ids of what is
integrated nor the id of an INTEGRATED candidate. -/
def unmet (c : IntegrationCandidate) : Option String :=
  match c.dependsOn with
  | none => none
  | some dep =>
    if dep ∈ integratedIds then none
    else
      match candidates.find? (·.id = dep) with
      | some depObj => if depObj.state = .integrated then none else some dep
      | none => some dep

/-- What one candidate adds to the edges: it waits for a READY candidate, or for what never comes
out of the heap. -/
def Edges.add (e : Edges) (c : IntegrationCandidate) : Edges :=
  match unmet candidates integratedIds c with
  | none => e
  | some dep =>
    { dependents := Function.update e.dependents dep (e.dependents dep ++ [c.id])
      indegree := Function.update e.indegree c.id
        (if (byId candidates dep).isSome then e.indegree c.id + 1 else 1) }

def edges : Edges := (ready candidates).foldl (Edges.add candidates integratedIds) {}

/-- What depends on a candidate is counted down, and put on the heap when it waits for nothing
any more. -/
def countDown (state : (String → ℕ) × List IntegrationCandidate) (depId : String) :
    (String → ℕ) × List IntegrationCandidate :=
  match byId candidates depId with
  | none => state
  | some c =>
    let indegree := Function.update state.1 depId (state.1 depId - 1)
    (indegree, if indegree depId = 0 then state.2 ++ [c] else state.2)

/-- The loop over the heap, in so many rounds. -/
def kahn (dependents : String → List String) :
    ℕ → List IntegrationCandidate → (String → ℕ) → List String → List IntegrationCandidate
  | 0, _, _, _ => []
  | n + 1, heap, indegree, processed =>
    match heap.insertionSort precedes with
    | [] => []
    | c :: rest =>
      if c.id ∈ processed then kahn dependents n rest indegree processed
      else
        let state := (dependents c.id).foldl (countDown candidates) (indegree, rest)
        c :: kahn dependents n state.2 state.1 (c.id :: processed)

/-- What `deterministic_order` puts in order. There are as many rounds as READY candidates. -/
def orderedBy : List IntegrationCandidate :=
  let e := edges candidates integratedIds
  kahn candidates e.dependents (ready candidates).length
    ((ready candidates).filter (e.indegree ·.id = 0)) e.indegree []

def deterministicOrder : OrderOutcome :=
  let ordered := orderedBy candidates integratedIds
  let left := (ready candidates).filter fun c => c.id ∉ ordered.map (·.id)
  let waits := fun c : IntegrationCandidate =>
    c.dependsOn.any fun dep => (byId candidates dep).isSome
  { ordered
    deferred := (left.filter fun c => !waits c).insertionSort (·.queuePosition ≤ ·.queuePosition)
    blocked := (left.filter waits).insertionSort (·.queuePosition ≤ ·.queuePosition) }

end Split

/-! ### The edges -/

section Edges

variable {candidates : List IntegrationCandidate} {integratedIds : List String}
  {c d : IntegrationCandidate} {dep : String}

def waitingFor (candidates : List IntegrationCandidate) (integratedIds : List String)
    (dep : String) : List IntegrationCandidate :=
  (ready candidates).filter fun c => unmet candidates integratedIds c = some dep

theorem mem_waitingFor : c ∈ waitingFor candidates integratedIds dep ↔
    c ∈ ready candidates ∧ unmet candidates integratedIds c = some dep := by
  simp [waitingFor]

theorem dependsOn_of_unmet (h : unmet candidates integratedIds c = some dep) :
    c.dependsOn = some dep := by
  unfold unmet at h
  split at h
  · cases h
  next dep' hdep =>
    rw [hdep]
    split at h
    · cases h
    · split at h
      · split at h
        · cases h
        · exact h
      · exact h

/-- The edges of candidates with different ids. -/
theorem foldl_add {l : List IntegrationCandidate} (hids : (l.map (·.id)).Nodup) {e : Edges}
    (hzero : ∀ c ∈ l, e.indegree c.id = 0) :
    (∀ dep, (l.foldl (Edges.add candidates integratedIds) e).dependents dep =
      e.dependents dep ++
        (l.filter fun c => unmet candidates integratedIds c = some dep).map (·.id)) ∧
    (∀ c ∈ l, (l.foldl (Edges.add candidates integratedIds) e).indegree c.id =
      if unmet candidates integratedIds c = none then 0 else 1) ∧
    ∀ id, id ∉ l.map (·.id) →
      (l.foldl (Edges.add candidates integratedIds) e).indegree id = e.indegree id := by
  induction l generalizing e with
  | nil => simp
  | cons c l ih =>
    rw [List.map_cons, List.nodup_cons] at hids
    have hc : e.indegree c.id = 0 := hzero c List.mem_cons_self
    have hother : ∀ d ∈ l, d.id ≠ c.id := fun d hd heq =>
      hids.1 (heq ▸ List.mem_map_of_mem hd)
    have hadd : (∀ d ∈ l, (e.add candidates integratedIds c).indegree d.id = 0) := by
      intro d hd
      unfold Edges.add
      split
      · exact hzero d (List.mem_cons_of_mem c hd)
      · exact (Function.update_of_ne (hother d hd) _ _).trans (hzero d (List.mem_cons_of_mem c hd))
    obtain ⟨hdependents, hindegree, hrest⟩ := ih hids.2 hadd
    rw [List.foldl_cons]
    refine ⟨fun dep => ?_, fun d hd => ?_, fun id hid => ?_⟩
    · rw [hdependents]
      cases hunmet : unmet candidates integratedIds c with
      | none => simp [Edges.add, hunmet]
      | some dep' =>
        by_cases hdep : dep' = dep
        · subst hdep
          simp [Edges.add, hunmet]
        · simp [Edges.add, hunmet, hdep, Function.update_of_ne (Ne.symm hdep)]
    · rcases List.mem_cons.mp hd with rfl | hd
      · rw [hrest _ hids.1]
        unfold Edges.add
        split
        next hnone => rw [hnone, if_pos rfl, hc]
        next dep hsome => simp [hsome, hc]
      · exact hindegree d hd
    · rw [List.map_cons, List.mem_cons, not_or] at hid
      rw [hrest id hid.2]
      unfold Edges.add
      split
      · rfl
      · exact Function.update_of_ne hid.1 _ _

variable (hids : (candidates.map (·.id)).Nodup)
include hids

theorem ready_ids : ((ready candidates).map (·.id)).Nodup :=
  hids.sublist (List.filter_sublist.map _)

theorem byId_eq_some : byId candidates dep = some c ↔ c ∈ ready candidates ∧ c.id = dep := by
  constructor
  · intro h
    exact ⟨List.mem_of_find?_eq_some h, by simpa using List.find?_some h⟩
  · rintro ⟨hc, rfl⟩
    cases hfind : byId candidates c.id with
    | none => simpa using List.find?_eq_none.mp hfind c hc
    | some d =>
      have hid : d.id = c.id := by simpa using List.find?_some hfind
      rw [List.inj_on_of_nodup_map (ready_ids hids) (List.mem_of_find?_eq_some hfind) hc hid]

theorem dependents_edges : (edges candidates integratedIds).dependents dep =
    (waitingFor candidates integratedIds dep).map (·.id) := by
  rw [edges, (foldl_add (ready_ids hids) fun _ _ => rfl).1, List.nil_append, waitingFor]

theorem indegree_edges (hc : c ∈ ready candidates) :
    (edges candidates integratedIds).indegree c.id =
      if unmet candidates integratedIds c = none then 0 else 1 :=
  (foldl_add (ready_ids hids) fun _ _ => rfl).2.1 c hc

end Edges

/-! ### The loop -/

section Loop

variable {candidates : List IntegrationCandidate} {integratedIds : List String}
  {c d : IntegrationCandidate} {dep : String} (hids : (candidates.map (·.id)).Nodup)
include hids

theorem foldl_countDown {l heap : List IntegrationCandidate} {indegree : String → ℕ}
    (hready : l ⊆ ready candidates) (hnodup : (l.map (·.id)).Nodup)
    (hone : ∀ c ∈ l, indegree c.id = 1) :
    (l.map (·.id)).foldl (countDown candidates) (indegree, heap) =
      (fun id => if id ∈ l.map (·.id) then 0 else indegree id, heap ++ l) := by
  induction l generalizing indegree heap with
  | nil => simp
  | cons c l ih =>
    rw [List.map_cons, List.nodup_cons] at hnodup
    have hbyId : byId candidates c.id = some c :=
      (byId_eq_some hids).mpr ⟨hready List.mem_cons_self, rfl⟩
    have hstep : countDown candidates (indegree, heap) c.id =
        (Function.update indegree c.id 0, heap ++ [c]) := by
      simp [countDown, hbyId, hone c List.mem_cons_self]
    rw [List.map_cons, List.foldl_cons, hstep, ih (fun d hd => hready (List.mem_cons_of_mem c hd))
      hnodup.2, List.append_assoc, List.singleton_append]
    · congr 1
      funext id
      by_cases hid : id = c.id
      · subst hid
        simp
      · simp [hid]
    · intro d hd
      have hne : d.id ≠ c.id := fun heq => hnodup.1 (heq ▸ List.mem_map_of_mem hd)
      rw [Function.update_of_ne hne]
      exact hone d (List.mem_cons_of_mem c hd)

theorem eq_of_mem_waitingFor {b : IntegrationCandidate} :
    ∀ c ∈ ready candidates, ∀ d ∈ ready candidates,
      b ∈ waitingFor candidates integratedIds c.id →
      b ∈ waitingFor candidates integratedIds d.id → c = d := by
  intro c hc d hd hb hb'
  have hid := ((mem_waitingFor).mp hb).2.symm.trans ((mem_waitingFor).mp hb').2
  exact List.inj_on_of_nodup_map (ready_ids hids) hc hd (Option.some.inj hid)

omit hids in
theorem waitingFor_subset {id : String} :
    waitingFor candidates integratedIds id ⊆ ready candidates :=
  List.filter_subset_self _

theorem nodup_waitingFor {id : String} : (waitingFor candidates integratedIds id).Nodup :=
  (ready_ids hids).of_map.filter _

/-- The counts are those of what has been processed. -/
def Counted (candidates : List IntegrationCandidate) (integratedIds : List String)
    (out : List IntegrationCandidate) (indegree : String → ℕ) : Prop :=
  ∀ c ∈ ready candidates, indegree c.id =
    match unmet candidates integratedIds c with
    | none => 0
    | some dep => if dep ∈ out.map (·.id) then 0 else 1

theorem Counted.take {out : List IntegrationCandidate} {indegree : String → ℕ}
    (h : Counted candidates integratedIds out indegree) :
    Counted candidates integratedIds (out ++ [c]) fun id =>
      if id ∈ (waitingFor candidates integratedIds c.id).map (·.id) then 0 else indegree id := by
  intro d hd
  have hmem : d.id ∈ (waitingFor candidates integratedIds c.id).map (·.id) ↔
      unmet candidates integratedIds d = some c.id := by
    constructor
    · intro hmem
      obtain ⟨e, he, heq⟩ := List.mem_map.mp hmem
      obtain ⟨hready, hunmet⟩ := (mem_waitingFor).mp he
      rwa [← List.inj_on_of_nodup_map (ready_ids hids) hready hd heq]
    · exact fun hunmet => List.mem_map_of_mem ((mem_waitingFor).mpr ⟨hd, hunmet⟩)
  dsimp only
  rw [h d hd]
  cases hunmet : unmet candidates integratedIds d with
  | none => simp
  | some dep =>
    rw [hunmet, Option.some.injEq] at hmem
    by_cases hdep : dep = c.id
    · rw [if_pos (hmem.mpr hdep)]
      simp [hdep]
    · rw [if_neg (mt hmem.mp hdep)]
      simp [hdep]

/-- **The loop is a worklist**: what a candidate puts on the heap is what waits for it. -/
theorem kahn_eq_run {n : ℕ} {out heap : List IntegrationCandidate} {indegree : String → ℕ}
    {processed : List String}
    (haccounted : Worklist.Accounted (fun c => waitingFor candidates integratedIds c.id)
      (ready candidates) out heap)
    (hcounted : Counted candidates integratedIds out indegree)
    (hprocessed : ∀ id, id ∈ processed ↔ id ∈ out.map (·.id)) :
    kahn candidates (edges candidates integratedIds).dependents n heap indegree processed =
      Worklist.run (·.insertionSort precedes) (fun c => waitingFor candidates integratedIds c.id) n
        heap := by
  induction n generalizing out heap indegree processed with
  | zero => rfl
  | succ n ih =>
    rw [kahn, Worklist.run]
    rcases hs : heap.insertionSort precedes with _ | ⟨c, rest⟩
    · rfl
    · have hperm : (c :: rest).Perm heap := hs ▸ List.perm_insertionSort precedes heap
      have hheap : c ∈ heap := hperm.subset List.mem_cons_self
      have hc : c ∈ ready candidates := haccounted.subset (List.mem_append_right out hheap)
      -- what is on the heap has not come out
      have hnew : c.id ∉ out.map (·.id) := by
        intro hmem
        obtain ⟨d, hd, hid⟩ := List.mem_map.mp hmem
        have hd' : d ∈ ready candidates := haccounted.subset (List.mem_append_left heap hd)
        have heq := List.inj_on_of_nodup_map (ready_ids hids) hd' hc hid
        exact (List.nodup_append.mp haccounted.nodup).2.2 d hd c hheap heq
      dsimp only
      rw [if_neg (mt (hprocessed c.id).mp hnew), dependents_edges hids,
        foldl_countDown hids waitingFor_subset]
      · refine congrArg (c :: ·) (@ih (out ++ [c]) _ _ _ ?_ (hcounted.take hids) fun id => ?_)
        · exact haccounted.round hperm (fun _ => nodup_waitingFor hids)
            (fun _ => waitingFor_subset) fun b => eq_of_mem_waitingFor hids
        · rw [List.mem_cons, hprocessed, List.map_append, List.mem_append, List.map_singleton,
            List.mem_singleton, or_comm]
      · exact (ready_ids hids).sublist (List.filter_sublist.map _)
      · intro d hd
        obtain ⟨hready, hunmet⟩ := mem_waitingFor.mp hd
        rw [hcounted d hready, hunmet]
        exact if_neg hnew

end Loop

end MergeQueue

end ArgentTeam
