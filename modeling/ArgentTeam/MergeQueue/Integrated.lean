import ArgentTeam.MergeQueue.Calls

/-!
# What becomes of a candidate

A step of a call moves at most one candidate, by the transition that the call asks for at its
point (`moves_turn`), and what a call asks for is in keeping with the row it has read
(`Point.Fits`). So nobody takes a candidate out of INTEGRATED; and it gets there only by the
transition that closes an attempt, by a holder whose lease and whose lock that very transaction
has checked, with the head and the evidence of this attempt (`integrated_with_proof`).
-/

namespace ArgentTeam

namespace MergeQueue

namespace Calls

variable {q : Queue} {db db' : Db} {told : Told} {op : Op} {p : Point} {r : Request}
  {c row row' : IntegrationCandidate} {id : String} {frame : Frame} {h : Holder}
  {go : IntegrationCandidate → Point} {h? : Option Holder} {notes : List Note} {name : String}
  {race : Point} {f : Fields}

/-! ### Transitions -/

@[simp]
theorem Fields.write_state : (f.write row).state = row.state := rfl

@[simp]
theorem Fields.write_id : (f.write row).id = row.id := rfl

@[simp]
theorem Fields.write_target : (f.write row).repository = row.repository ∧
    (f.write row).integrationTarget = row.integrationTarget := ⟨rfl, rfl⟩

@[simp]
theorem HolderWrite.write_state {w : HolderWrite} : (w.write row).state = row.state := by
  cases w <;> rfl

@[simp]
theorem HolderWrite.write_target {w : HolderWrite} : (w.write row).repository = row.repository ∧
    (w.write row).integrationTarget = row.integrationTarget := by
  cases w <;> exact ⟨rfl, rfl⟩

@[simp]
theorem Request.write_state : (r.write row).state = r.dst := by
  rw [Request.write, Fields.write_state, HolderWrite.write_state]

theorem Request.write_target : (r.write row).repository = row.repository ∧
    (r.write row).integrationTarget = row.integrationTarget := by
  rw [Request.write, (Fields.write_target).1, (Fields.write_target).2, (HolderWrite.write_target).1,
    (HolderWrite.write_target).2]
  exact ⟨rfl, rfl⟩

/-- The row of a candidate after the transition. -/
def Request.moved (r : Request) (row : IntegrationCandidate) : IntegrationCandidate :=
  if row.id = r.row.id then { r.write row with id := row.id, revision := row.revision + 1 } else row

@[simp]
theorem Request.moved_id : (r.moved row).id = row.id := by
  rw [Request.moved]
  split <;> rfl

theorem Request.moved_target : (r.moved row).repository = row.repository ∧
    (r.moved row).integrationTarget = row.integrationTarget := by
  rw [Request.moved]
  split
  · exact r.write_target
  · exact ⟨rfl, rfl⟩

theorem Request.moved_state (hid : row.id = r.row.id) : (r.moved row).state = r.dst := by
  rw [Request.moved, if_pos hid]
  exact Request.write_state

theorem Request.moved_of_ne (hid : row.id ≠ r.row.id) : r.moved row = row := if_neg hid

/-- What a transition that goes through has found, and what it makes of the table. -/
structure Went (q : Queue) (db : Db) (r : Request) (db' : Db) : Prop where
  found : ∃ row, getIntegrationCandidate db r.row.id = some row ∧ row.state = r.src ∧
    row.revision = r.row.revision
  fence : ∀ h ∈ r.fence, jobHoldsCurrentLease db h = true ∧
    db.locks (lockName q.config r.row.repository r.row.integrationTarget) = some h
  index : r.dst = .integrating → othersIntegrating db r.row.id = false
  tables : db' = { db with candidates := db.candidates.map r.moved }

theorem went_of_transition (hok : transition q db r = .ok db') : Went q db r db' := by
  unfold transition at hok
  split at hok
  · cases hok
  next hfence =>
    unfold transitionIntegrationCandidate at hok
    cases hrow : getIntegrationCandidate db r.row.id with
    | none =>
      rw [hrow] at hok
      cases hok
    | some row =>
      rw [hrow] at hok
      dsimp only at hok
      by_cases hsame : row.state = r.src ∧ row.revision = r.row.revision
      · rw [if_pos hsame] at hok
        dsimp only at hok
        split at hok
        · cases hok
        next hindex =>
          refine ⟨⟨row, hrow, hsame⟩, ?_, ?_, (Except.ok.inj hok).symm⟩
          · intro h hh
            by_contra hnot
            exact hfence ⟨h, hh, hnot⟩
          · intro hdst
            exact Bool.eq_false_iff.mpr fun hothers => hindex ⟨hdst, hothers⟩
      · rw [if_neg hsame] at hok
        cases hok

theorem getIntegrationCandidate_id (hrow : getIntegrationCandidate db id = some row) :
    row.id = id := by
  simpa using List.find?_some hrow

theorem mem_of_getIntegrationCandidate (hrow : getIntegrationCandidate db id = some row) :
    row ∈ db.candidates := List.mem_of_find?_eq_some hrow

theorem getIntegrationCandidate_congr (h : db'.candidates = db.candidates) :
    getIntegrationCandidate db' id = getIntegrationCandidate db id := by
  rw [getIntegrationCandidate, h, getIntegrationCandidate]

theorem Went.get (hwent : Went q db r db') (id : String) :
    getIntegrationCandidate db' id = (getIntegrationCandidate db id).map r.moved := by
  rw [hwent.tables, getIntegrationCandidate, getIntegrationCandidate, List.find?_map]
  congr 2
  funext row
  simp

theorem current_id : (current db c).id = c.id := by
  rw [current]
  cases hrow : getIntegrationCandidate db c.id with
  | none => rfl
  | some row => exact getIntegrationCandidate_id hrow

theorem Went.current_state (hwent : Went q db r db') : (current db' r.row).state = r.dst := by
  obtain ⟨row, hrow, -, -⟩ := hwent.found
  rw [current, hwent.get, hrow]
  exact r.moved_state (getIntegrationCandidate_id hrow)

/-! ### What a step does to the candidates -/

/-- A candidate is created: it is PENDING, and new. -/
structure Creates (q : Queue) (db db' : Db) (row : IntegrationCandidate) : Prop where
  fresh : getIntegrationCandidate db row.id = none
  named : row.id = q.config.candidateIdFor row.repository row.integrationTarget row.sourceJobId
  pending : row.state = .pending
  tables : db'.candidates = db.candidates ++ [row]

/-- What a step may do to the candidates. -/
inductive Moves (q : Queue) (db db' : Db) (op : Op) (p : Point) : Prop
  | keeps (hkeep : db'.candidates = db.candidates)
  | creates (row : IntegrationCandidate) (hnew : Creates q db db' row)
  /-- The transition that the call asks for goes through. -/
  | goes (r : Request) (hasks : p.request q op.holder? = some r) (hwent : Went q db r db')

theorem attempt_eq_ok (hok : attempt q db op p = .ok db') :
    ∃ r, p.request q op.holder? = some r ∧ Went q db r db' := by
  unfold attempt at hok
  cases hasks : p.request q op.holder? with
  | none =>
    rw [hasks] at hok
    cases hok
  | some r =>
    rw [hasks] at hok
    exact ⟨r, rfl, went_of_transition hok⟩

theorem candidates_acquire {b : Bool}
    (hacq : tryAcquireActionLock db name h = some (b, db')) : db'.candidates = db.candidates := by
  unfold tryAcquireActionLock at hacq
  split at hacq
  · split at hacq
    · cases hacq
      rfl
    · split at hacq
      · cases hacq
        rfl
      · split at hacq <;> (cases hacq; rfl)
  · cases hacq

theorem candidates_release :
    (releaseActionLock db name h).candidates = db.candidates := by
  unfold releaseActionLock
  split <;> rfl

theorem candidates_reclaim :
    (reclaimStaleActionLock db name).candidates = db.candidates := by
  unfold reclaimStaleActionLock
  split
  · rfl
  · split <;> rfl

theorem moves_fenced {attempted : Except Refusal Db}
    (hattempt : ∀ db', attempted = .ok db' → Moves q db db' op p) :
    Moves q db (fenced db c attempted race frame go notes).db op p := by
  unfold fenced
  split
  · exact hattempt _ rfl
  all_goals exact .keeps rfl

theorem moves_create {sourceJobId target : String} {dependsOn : Option String} {priority : ℤ}
    {job : SupervisorJob} :
    Moves q db (create q db sourceJobId target dependsOn priority job).db op p := by
  unfold create
  dsimp only
  split
  · exact .keeps rfl
  next hfresh =>
    split
    · exact .keeps rfl
    · exact .creates _ ⟨hfresh, rfl, rfl, rfl⟩

/-- **What a step does to the candidates.** -/
theorem moves_turn : Moves q db (turn q db told op p).db op p := by
  have hattempt : ∀ db', attempt q db op p = .ok db' → Moves q db db' op p := by
    intro db' hok
    obtain ⟨r, hasks, hwent⟩ := attempt_eq_ok hok
    exact .goes r hasks hwent
  have hswallow : Moves q db ((attempt q db op p).toOption.getD db) op p := by
    cases hok : attempt q db op p with
    | error e => exact .keeps rfl
    | ok db' => exact hattempt db' hok
  cases p with
  | creating job =>
    cases op with
    | enqueue => exact moves_create
    | evaluate | integrate | process | reconcile => exact .keeps rfl
  | admitting =>
    rw [turn]
    unfold admittingTurn
    split
    · split
      · exact .keeps rfl
      · split <;> exact .keeps rfl
    all_goals exact .keeps rfl
  | promoting c toState error frame =>
    rw [turn]
    unfold promotingTurn
    split
    next db' hok => exact hattempt db' hok
    all_goals exact .keeps rfl
  | claiming | placing | recording | closing | marking => exact moves_fenced hattempt
  | evidencing =>
    rw [turn, evidencingTurn]
    split
    · exact .keeps rfl
    · exact .keeps rfl
    · split
      · exact .keeps rfl
      · exact moves_fenced hattempt
  | resetting => exact hswallow
  | blocking members queue =>
    cases members with
    | nil => exact .keeps rfl
    | cons => exact hswallow
  | acquiring c frame =>
    rw [turn, acquiringTurn]
    split
    · exact .keeps rfl
    · split
      · exact .keeps rfl
      next hacq => exact .keeps (candidates_acquire hacq)
      next hacq => exact .keeps (candidates_acquire hacq)
  | entering =>
    rw [turn, enteringTurn]
    split
    · exact .keeps rfl
    · split
      · exact .keeps rfl
      next hacq => exact .keeps (candidates_acquire hacq)
      next hacq => exact .keeps (candidates_acquire hacq)
  | releasing | leaving => exact .keeps candidates_release
  | reclaiming => exact .keeps candidates_reclaim
  | evaluating =>
    rw [turn, evaluatingTurn]
    split
    · exact .keeps rfl
    · split <;> exact .keeps rfl
  | weighing =>
    rw [turn, weighingTurn]
    split
    · split <;> exact .keeps rfl
    · exact .keeps rfl
  | revalidating =>
    rw [turn, revalidatingTurn]
    split
    · exact .keeps rfl
    · split <;> exact .keeps rfl
  | testing =>
    rw [turn, testingTurn]
    split
    · exact .keeps rfl
    · exact .keeps rfl
    · split <;> exact .keeps rfl
  | probing cs =>
    rw [turn]
    unfold probingTurn
    split
    · exact .keeps rfl
    · split
      · split <;> exact .keeps rfl
      · exact .keeps rfl
  | fetching | basing | classifying | preparing | merging | heading | checking =>
    simp only [turn, fetchingTurn, basingTurn, classifyingTurn, preparingTurn, mergingTurn,
      headingTurn, checkingTurn]
    split <;> exact .keeps rfl
  | resolving | rereading | lost | listing | ordering | scanning | returned | crashed =>
    exact .keeps rfl

/-! ### Before and after the attempts -/

/-- A call is not at work on a candidate of the queue. -/
def Point.Idle : Point → Prop
  | .admitting | .creating _ | .entering | .listing | .probing _ | .checking _ _ | .resetting _ _
  | .reclaiming | .returned _ | .crashed => True
  | _ => False

/-- It admits a candidate, gets the lock, or looks for what a crash has left behind. -/
def Point.outside : Point → Bool
  | .admitting | .creating _ | .entering | .probing _ | .checking _ _ => true
  | _ => false

/-- **From there it goes on to no candidate that it has in hand.** -/
theorem idle_turn (hp : p.outside = true) : (turn q db told op p).point.Idle := by
  cases p with
  | admitting =>
    rw [turn]
    unfold admittingTurn
    split
    · split
      · trivial
      · split <;> trivial
    all_goals trivial
  | creating job =>
    cases op with
    | enqueue =>
      rw [turn, creatingTurn, create]
      dsimp only
      split
      · trivial
      · split <;> trivial
    | evaluate | integrate | process | reconcile => trivial
  | entering =>
    rw [turn, enteringTurn]
    split
    · trivial
    · split <;> trivial
  | probing cs =>
    rw [turn]
    unfold probingTurn
    split
    · trivial
    · split
      · split <;> trivial
      · trivial
  | checking =>
    rw [turn, checkingTurn]
    split <;> trivial
  | _ => cases hp

/-! ### What a call has in hand -/

/-- The evidence of an attempt is authentic: it names the plan, and its MAC is the one under the
key of the queue. -/
structure Authentic (q : Queue) (planHash : Option String) (evidence : Json) : Prop where
  dict : ∃ fields, evidence = .obj fields
  plan : Json.getD evidence.entries "plan_hash" .null = .optText planHash
  mac : ∃ key ∈ q.macKey, Json.get? evidence.entries "evidence_mac" =
    some (.text (q.hmac key (evidencePayload evidence.entries)))

theorem authentic_of_evidenceAuthentic {planHash : Option String} {evidence : Json}
    (hok : evidenceAuthentic q planHash evidence = .ok true) : Authentic q planHash evidence := by
  cases evidence with
  | obj fields =>
    rw [evidenceAuthentic] at hok
    split at hok
    · cases hok
    next hplan =>
      split at hok
      next key mac hkey hmac =>
        split at hok
        · cases hok
        · split at hok
          · have heq : mac = PyStr.ofString (q.hmac key (evidencePayload fields)) := by
              simpa using Except.ok.inj hok
            rw [heq] at hmac
            exact ⟨⟨fields, rfl⟩, not_not.mp hplan, key, hkey, hmac⟩
          · cases hok
      · cases hok
  | _ => cases hok

/-- A row that a call has in hand after it has claimed the candidate: the candidate has the same
target in the table. -/
structure Held (db : Db) (c : IntegrationCandidate) : Prop where
  state : c.state = .integrating
  known : ∃ row, getIntegrationCandidate db c.id = some row ∧ row.repository = c.repository ∧
    row.integrationTarget = c.integrationTarget

theorem Went.held (hwent : Went q db r db') (hdst : r.dst = .integrating) :
    Held db' (current db' r.row) where
  state := hwent.current_state.trans hdst
  known := by
    obtain ⟨row, hrow, -, -⟩ := hwent.found
    refine ⟨r.moved row, ?_, ?_⟩
    · rw [current_id, hwent.get, hrow]
      rfl
    · rw [current, hwent.get, hrow]
      exact ⟨rfl, rfl⟩

/-- What is in keeping with the row a call has read: with what it goes on, and where to. -/
def Point.Fits (q : Queue) (db : Db) : Point → Prop
  | .weighing c _ => c.state = .pending ∨ c.state = .stale
  | .promoting c toState _ _ =>
    (c.state = .pending ∨ c.state = .stale) ∧ (toState = .pending ∨ toState = .ready)
  | .resolving c _ | .revalidating c _ _ | .basing c _ _ | .classifying c _ _ | .preparing c _ _ _
  | .placing c _ _ _ | .merging c _ _ _ | .heading c _ _ _ | .recording c _ _ _ _
  | .testing c _ _ _ _ | .evidencing c _ _ _ _ _ => Held db c
  | .closing c _ _ planHash evidence _ =>
    Held db c ∧ Authentic q planHash evidence ∧ verdict evidence = .text "DONE"
  | .marking c state _ _ => Held db c ∧ state ≠ .integrating ∧ state ≠ .integrated
  | .blocking members _ => ∀ m ∈ members, m.state = .ready
  | .admitting | .creating _ | .evaluating _ _ | .fetching _ _ | .acquiring _ _ | .claiming _ _
  | .rereading _ _ | .lost _ _ | .releasing _ _ _ | .entering | .listing | .ordering | .leaving _ _
  | .scanning | .probing _ | .checking _ _ | .resetting _ _ | .reclaiming | .returned _
  | .crashed => True

theorem fits_nextEvaluation {ids : List String} : (nextEvaluation ids).Fits q db := by
  cases ids <;> trivial

theorem fits_evaluated : (evaluated frame).Fits q db := by
  cases frame <;> first | trivial | exact fits_nextEvaluation

theorem fits_raised {e : Fault} : (raised e frame).Fits q db := by
  cases frame <;> trivial

theorem fits_nextIntegration {done : List Outcome} {rest : List IntegrationCandidate} :
    (nextIntegration done rest).Fits q db := by
  cases rest <;> trivial

theorem fits_integrated {o : Outcome} : (integrated o frame).Fits q db := by
  cases frame with
  | alone | evaluation => trivial
  | queue done rest =>
    rw [integrated]
    split
    · exact fits_nextIntegration
    · exact fits_nextIntegration
    · trivial
    · trivial
    all_goals
      split
      · trivial
      · exact fits_nextIntegration

theorem fits_settled {result : Except Fault Outcome} : (settled frame result).Fits q db := by
  cases result with
  | ok o => exact fits_integrated
  | error e => exact fits_raised

theorem fits_giveUp {state : CandidateState} {detail : String} {cls : Option MergeClassification}
    (hc : Held db c) (hstate : state ≠ .integrating ∧ state ≠ .integrated) :
    (giveUp c state detail frame cls).Fits q db := ⟨hc, hstate⟩

theorem asks_of_map {f : Holder → Request} {dst : CandidateState}
    (hf : ∀ h, (f h).row = c ∧ (f h).dst = dst) :
    ∀ r, h?.map f = some r → r.row = c ∧ r.dst = dst := by
  intro r hr
  obtain ⟨h, -, rfl⟩ := Option.map_eq_some_iff.mp hr
  exact hf h

/-- A fenced step goes on with the row it has written. -/
theorem fits_fenced
    {dst : CandidateState}
    (hasks : ∀ r, p.request q op.holder? = some r → r.row = c ∧ r.dst = dst)
    (hrace : race.Fits q db)
    (hgo : ∀ db' c', (dst = .integrating → Held db' c') → (go c').Fits q db') :
    let t := fenced db c (attempt q db op p) race frame go notes
    t.point.Fits q t.db := by
  unfold fenced
  split
  next db' hok =>
    obtain ⟨r, hr, hwent⟩ := attempt_eq_ok hok
    obtain ⟨rfl, rfl⟩ := hasks r hr
    exact hgo db' _ hwent.held
  · trivial
  · exact hrace
  · trivial

theorem state_of_mem_blocked {candidates : List IntegrationCandidate}
    (hc : c ∈ blocked candidates) :
    c.state = .ready := by
  have hmem := (List.mem_insertionSort _).mp hc
  have hready := List.mem_of_mem_filter hmem
  simpa using (List.mem_filter.mp hready).2

theorem Held.moves {op' : Op} {p' : Point} (h : Held db c) (hmoves : Moves q db db' op' p') :
    Held db' c where
  state := h.state
  known := by
    obtain ⟨row, hrow, htarget⟩ := h.known
    cases hmoves with
    | keeps hkeep => exact ⟨row, (getIntegrationCandidate_congr hkeep).trans hrow, htarget⟩
    | creates new hnew =>
      refine ⟨row, ?_, htarget⟩
      rw [getIntegrationCandidate, hnew.tables, List.find?_append,
        show db.candidates.find? (·.id = c.id) = some row from hrow]
      rfl
    | goes r _ hwent =>
      refine ⟨r.moved row, ?_, ?_⟩
      · rw [hwent.get, hrow]
        rfl
      · rw [r.moved_target.1, r.moved_target.2]
        exact htarget

theorem Point.Fits.moves {op' : Op} {p' : Point} (h : p.Fits q db)
    (hmoves : Moves q db db' op' p') : p.Fits q db' := by
  cases p with
  | closing | marking => exact ⟨h.1.moves hmoves, h.2⟩
  | resolving | revalidating | basing | classifying | preparing | placing | merging | heading
  | recording | testing | evidencing => exact Held.moves h hmoves
  | _ => exact h

theorem fits_of_idle (h : p.Idle) : p.Fits q db := by
  cases p <;> first | exact h.elim | trivial

/-- **What a call has in hand stays in keeping.** -/
theorem fits_turn (hfits : p.Fits q db) :
    (turn q db told op p).point.Fits q (turn q db told op p).db := by
  cases p with
  | admitting | creating | entering | probing | checking => exact fits_of_idle (idle_turn rfl)
  | evaluating =>
    rw [turn, evaluatingTurn]
    split
    · exact fits_raised
    · split
      next hstate => exact hstate
      · exact fits_evaluated
  | weighing =>
    rw [turn, weighingTurn]
    split
    · split
      · exact ⟨hfits, .inl rfl⟩
      · exact ⟨hfits, .inr rfl⟩
    · exact ⟨hfits, .inl rfl⟩
  | promoting =>
    rw [turn]
    unfold promotingTurn
    split
    · exact fits_evaluated
    all_goals exact fits_raised
  | fetching =>
    rw [turn, fetchingTurn]
    split
    · exact fits_raised
    · trivial
  | acquiring =>
    rw [turn, acquiringTurn]
    split
    · exact fits_raised
    · split
      · exact fits_raised
      · exact fits_integrated
      · trivial
  | claiming => exact fits_fenced (asks_of_map fun _ => ⟨rfl, rfl⟩) trivial fun _ _ hc' => hc' rfl
  | resolving =>
    rw [turn]
    cases told.targetTip with
    | none => exact fits_giveUp hfits (by decide)
    | some tip => exact hfits
  | revalidating =>
    rw [turn, revalidatingTurn]
    split
    · exact fits_giveUp hfits (by decide)
    · split
      · exact fits_giveUp hfits (by decide)
      · exact hfits
  | classifying =>
    rw [turn, classifyingTurn]
    split
    iterate 4 · exact fits_giveUp hfits (by decide)
    · exact hfits
    · exact hfits
  | basing | preparing =>
    simp only [turn, basingTurn, preparingTurn]
    split
    · exact fits_giveUp hfits (by decide)
    · exact hfits
  | placing => exact fits_fenced (asks_of_map fun _ => ⟨rfl, rfl⟩) trivial fun _ _ hc' => hc' rfl
  | merging =>
    rw [turn, mergingTurn]
    split
    · exact ⟨hfits, by decide⟩
    · exact hfits
  | heading =>
    rw [turn, headingTurn]
    split
    · exact fits_giveUp hfits (by decide)
    · exact hfits
  | recording =>
    refine fits_fenced (asks_of_map fun _ => ⟨rfl, rfl⟩) trivial fun _ _ hc' => ?_
    split
    · exact hc' rfl
    · exact fits_giveUp (hc' rfl) (by decide)
  | testing =>
    rw [turn, testingTurn]
    split
    · trivial
    · exact fits_giveUp hfits (by decide)
    · split
      · trivial
      · exact fits_giveUp hfits (by decide)
      · exact hfits
  | evidencing =>
    rw [turn, evidencingTurn]
    split
    · trivial
    · exact fits_giveUp hfits (by decide)
    next hauthentic =>
      split
      · trivial
      · refine fits_fenced (asks_of_map fun _ => ⟨rfl, rfl⟩) trivial fun _ _ hc' => ?_
        split
        next hdone => exact ⟨hc' rfl, authentic_of_evidenceAuthentic hauthentic, hdone⟩
        · exact fits_giveUp (hc' rfl) (by decide)
  | closing => exact fits_fenced (asks_of_map fun _ => ⟨rfl, rfl⟩) trivial fun _ _ _ => trivial
  | marking => exact fits_fenced (asks_of_map fun _ => ⟨rfl, rfl⟩) trivial fun _ _ _ => trivial
  | releasing => exact fits_settled
  | listing => exact fits_nextEvaluation
  | ordering => exact fun m hm => state_of_mem_blocked hm
  | blocking members queue =>
    cases members with
    | nil => exact fits_nextIntegration
    | cons m members => exact fun m' hm' => hfits m' (List.mem_cons_of_mem m hm')
  | rereading | lost | leaving | scanning | resetting | reclaiming | returned | crashed => trivial

/-! ### What a call has done -/

/-- What has been noted last of a call at a point: what it has done in this attempt. -/
def Point.story : Point → List Note
  | .resolving c _ | .revalidating c _ _ | .basing c _ _ | .classifying c _ _ | .preparing c _ _ _
  | .placing c _ _ _ | .merging c _ _ _ => [.claimed c.id]
  | .heading c _ _ _ => [.claimed c.id, .merged c.id]
  | .recording c _ _ head _ | .testing c _ _ head _ => [.claimed c.id, .merged c.id, .head head]
  | .evidencing c _ head planHash evidence _ | .closing c _ head planHash evidence _ =>
    [.claimed c.id, .merged c.id, .head head, .tested planHash evidence]
  | _ => []

/-- What is noted of a call, in order. -/
def notesOf (c : ℕ) (log : List (ℕ × Note)) : List Note :=
  (log.filter fun n => n.1 = c).map Prod.snd

theorem story_nextEvaluation {ids : List String} : (nextEvaluation ids).story = [] := by
  cases ids <;> rfl

theorem story_nextIntegration {done : List Outcome} {rest : List IntegrationCandidate} :
    (nextIntegration done rest).story = [] := by
  cases rest <;> rfl

theorem story_evaluated : (evaluated frame).story = [] := by
  cases frame with
  | alone | queue => rfl
  | evaluation ids => exact story_nextEvaluation

theorem story_raised {e : Fault} : (raised e frame).story = [] := by
  cases frame <;> rfl

theorem story_integrated {o : Outcome} : (integrated o frame).story = [] := by
  cases frame with
  | alone | evaluation => rfl
  | queue done rest =>
    rw [integrated]
    split
    · exact story_nextIntegration
    · exact story_nextIntegration
    · rfl
    · rfl
    all_goals
      split
      · rfl
      · exact story_nextIntegration

theorem story_settled {result : Except Fault Outcome} : (settled frame result).story = [] := by
  cases result with
  | ok o => exact story_integrated
  | error e => exact story_raised

theorem story_of_idle (h : p.Idle) : p.story = [] := by
  cases p <;> first | exact h.elim | rfl

theorem suffix_of_story {l : List Note} (h : p.story = []) : p.story <:+ l := by
  rw [h]
  exact List.nil_suffix

theorem story_fenced {attempted : Except Refusal Db}
    (hrace : race.story = [])
    (hgo : ∀ c', c'.id = c.id → (go c').story <:+ p.story ++ notes) :
    (fenced db c attempted race frame go notes).point.story <:+
      p.story ++ (fenced db c attempted race frame go notes).notes := by
  unfold fenced
  split
  · exact hgo _ current_id
  · exact List.nil_suffix
  · exact suffix_of_story hrace
  · exact List.nil_suffix

/-- **What a call has done, it has done before or in this step.** -/
theorem story_turn : (turn q db told op p).point.story <:+
    p.story ++ (turn q db told op p).notes := by
  cases p with
  | admitting | creating | entering | probing | checking =>
    exact suffix_of_story (story_of_idle (idle_turn rfl))
  | evaluating =>
    rw [turn, evaluatingTurn]
    split
    · exact suffix_of_story story_raised
    · split
      · exact List.nil_suffix
      · exact suffix_of_story story_evaluated
  | weighing =>
    rw [turn, weighingTurn]
    split
    · split <;> exact List.nil_suffix
    · exact List.nil_suffix
  | promoting =>
    rw [turn]
    unfold promotingTurn
    split
    · exact suffix_of_story story_evaluated
    all_goals exact suffix_of_story story_raised
  | fetching =>
    rw [turn, fetchingTurn]
    split
    · exact suffix_of_story story_raised
    · exact List.nil_suffix
  | acquiring =>
    rw [turn, acquiringTurn]
    split
    · exact suffix_of_story story_raised
    · split
      · exact suffix_of_story story_raised
      · exact suffix_of_story story_integrated
      · exact List.nil_suffix
  | claiming | placing =>
    refine story_fenced rfl fun c' hid => ?_
    simp only [Point.story, hid]
    exact List.suffix_rfl
  | resolving =>
    rw [turn]
    cases told.targetTip with
    | none => exact List.nil_suffix
    | some tip => exact List.suffix_rfl
  | revalidating =>
    rw [turn, revalidatingTurn]
    split
    · exact List.nil_suffix
    · split
      · exact List.nil_suffix
      · exact List.suffix_rfl
  | classifying =>
    rw [turn, classifyingTurn]
    split
    · exact List.nil_suffix
    · exact List.nil_suffix
    · exact List.nil_suffix
    · exact List.nil_suffix
    · exact List.suffix_rfl
    · exact List.suffix_rfl
  | basing | preparing | merging =>
    simp only [turn, basingTurn, preparingTurn, mergingTurn]
    split
    · exact List.nil_suffix
    · exact List.suffix_rfl
  | heading =>
    rw [turn, headingTurn]
    split
    · exact List.nil_suffix
    · exact List.suffix_rfl
  | recording =>
    refine story_fenced rfl fun c' hid => ?_
    split
    · simp only [Point.story, hid]
      exact List.suffix_rfl
    · exact List.nil_suffix
  | testing =>
    rw [turn, testingTurn]
    split
    · exact List.nil_suffix
    · exact List.nil_suffix
    · split
      · exact List.nil_suffix
      · exact List.nil_suffix
      · exact List.suffix_rfl
  | evidencing =>
    rw [turn, evidencingTurn]
    split
    · exact List.nil_suffix
    · exact List.nil_suffix
    · split
      · exact List.nil_suffix
      · refine story_fenced rfl fun c' hid => ?_
        split
        · simp only [Point.story, hid]
          exact List.suffix_rfl
        · exact List.nil_suffix
  | closing | marking => exact story_fenced rfl fun c' _ => List.nil_suffix
  | releasing => exact suffix_of_story story_settled
  | listing => exact suffix_of_story story_nextEvaluation
  | blocking members queue =>
    cases members with
    | nil => exact suffix_of_story story_nextIntegration
    | cons => exact List.nil_suffix
  | ordering | rereading | lost | leaving | scanning | resetting | reclaiming |
    returned | crashed =>
    exact List.nil_suffix

/-! ### The system -/

variable {s : System} {a : Act} {as : List Act} {k : ℕ} {call : Call}

/-- The table of the candidates is as its keys and its index keep it. -/
structure Tabled (db : Db) : Prop where
  keys : (db.candidates.map (·.id)).Nodup
  index : ∀ d ∈ db.candidates, ∀ e ∈ db.candidates, d.state = .integrating →
    e.state = .integrating → d.repository = e.repository →
    d.integrationTarget = e.integrationTarget → d.id = e.id

theorem getIntegrationCandidate_eq_none (hnone : getIntegrationCandidate db id = none)
    (hrow : row ∈ db.candidates) : row.id ≠ id := by
  simpa using List.find?_eq_none.mp hnone row hrow

theorem Tabled.creates (h : Tabled db) (hnew : Creates q db db' row) : Tabled db' where
  keys := by
    rw [hnew.tables, List.map_append, List.nodup_append]
    refine ⟨h.keys, by simp, ?_⟩
    simp only [List.map_cons, List.map_nil, List.mem_singleton, List.mem_map]
    rintro _ ⟨d, hd, rfl⟩ _ rfl
    exact getIntegrationCandidate_eq_none hnew.fresh hd
  index := by
    rw [hnew.tables]
    have hstate : row.state ≠ .integrating := by
      rw [hnew.pending]
      decide
    intro d hd e he hds hes
    rcases List.mem_append.mp hd with hd | hd
    · rcases List.mem_append.mp he with he | he
      · exact h.index d hd e he hds hes
      · exact absurd (List.mem_singleton.mp he ▸ hes) hstate
    · exact absurd (List.mem_singleton.mp hd ▸ hds) hstate

theorem Tabled.get (h : Tabled db) (hrow : row ∈ db.candidates) :
    getIntegrationCandidate db row.id = some row := by
  have hpair : db.candidates.Pairwise fun a b => a.id ≠ b.id := List.pairwise_map.mp h.keys
  refine List.find?_eq_some_iff_append.mpr ⟨by simp, ?_⟩
  obtain ⟨before, after, hsplit⟩ := List.append_of_mem hrow
  refine ⟨before, after, hsplit, fun d hd => ?_⟩
  rw [hsplit] at hpair
  have hne := (List.pairwise_append.mp hpair).2.2 d hd row List.mem_cons_self
  simpa using hne

theorem Tabled.went (h : Tabled db) (hwent : Went q db r db') : Tabled db' where
  keys := by
    rw [hwent.tables, List.map_map]
    have hsame : (·.id) ∘ r.moved = (·.id) := funext fun row => r.moved_id
    rw [hsame]
    exact h.keys
  index := by
    have hother : ∀ d ∈ db.candidates, ∀ e ∈ db.candidates, d.id = r.row.id → e.id ≠ r.row.id →
        (r.moved d).state = .integrating → e.state = .integrating →
        d.repository = e.repository → d.integrationTarget = e.integrationTarget → False := by
      intro d hd e he hid hne hds hes hrepository htarget
      rw [r.moved_state hid] at hds
      have hindex := hwent.index hds
      rw [othersIntegrating, ← hid, h.get hd] at hindex
      have hnot := List.any_eq_false.mp hindex e he
      rw [hid, hrepository, htarget, hes] at hnot
      simp [hne] at hnot
    simp only [hwent.tables, List.forall_mem_map]
    intro d hd e he hds hes hrepository htarget
    rw [r.moved_id, r.moved_id]
    rw [r.moved_target.1, r.moved_target.1] at hrepository
    rw [r.moved_target.2, r.moved_target.2] at htarget
    by_cases hdid : d.id = r.row.id
    · by_cases heid : e.id = r.row.id
      · exact hdid.trans heid.symm
      · rw [r.moved_of_ne heid] at hes
        exact (hother d hd e he hdid heid hds hes hrepository htarget).elim
    · rw [r.moved_of_ne hdid] at hds
      by_cases heid : e.id = r.row.id
      · exact (hother e he d hd heid hdid hes hds hrepository.symm htarget.symm).elim
      · rw [r.moved_of_ne heid] at hes
        exact h.index d hd e he hds hes hrepository htarget

theorem Tabled.moves (h : Tabled db) (hmoves : Moves q db db' op p) : Tabled db' := by
  cases hmoves with
  | keeps hkeep => exact ⟨by rw [hkeep]; exact h.keys, by rw [hkeep]; exact h.index⟩
  | creates row hnew => exact h.creates hnew
  | goes r _ hwent => exact h.went hwent

/-- What holds of the system at any time. -/
structure Sound (q : Queue) (s : System) : Prop extends Tabled s.toDb where
  fits : ∀ k call, s.calls k = some call → call.point.Fits q s.toDb
  story : ∀ k call, s.calls k = some call → call.point.story <:+ notesOf k s.log

theorem notesOf_append (log : List (ℕ × Note)) (notes : List Note) :
    notesOf k (log ++ notes.map (k, ·)) = notesOf k log ++ notes := by
  simp [notesOf, List.filter_map, Function.comp_def]

theorem notesOf_append_of_ne {k' : ℕ} (hk : k' ≠ k) (log : List (ℕ × Note)) (notes : List Note) :
    notesOf k' (log ++ notes.map (k, ·)) = notesOf k' log := by
  simp [notesOf, List.filter_map, Function.comp_def, Ne.symm hk]

theorem Sound.goTo (h : Sound q s) (hp : p.Fits q s.toDb) (hstory : p.story = []) :
    Sound q (s.goTo k op p) where
  toTabled := h.toTabled
  fits k' call hcall := by
    rcases System.calls_goTo hcall with ⟨-, rfl⟩ | ⟨-, hcall⟩
    · exact hp
    · exact h.fits k' call hcall
  story k' call hcall := by
    rcases System.calls_goTo hcall with ⟨-, rfl⟩ | ⟨-, hcall⟩
    · exact suffix_of_story hstory
    · exact h.story k' call hcall

theorem Sound.take (h : Sound q s) (hcall : s.calls k = some call) :
    Sound q (s.take k call.op (turn q s.toDb told call.op call.point)) where
  toTabled := h.toTabled.moves moves_turn
  fits k' call' hcall' := by
    rcases System.calls_take hcall' with ⟨-, rfl⟩ | ⟨-, hcall'⟩
    · exact fits_turn (h.fits k call hcall)
    · exact (h.fits k' call' hcall').moves moves_turn
  story k' call' hcall' := by
    rcases System.calls_take hcall' with ⟨rfl, rfl⟩ | ⟨hk, hcall'⟩
    · rw [System.take, notesOf_append]
      obtain ⟨before, hbefore⟩ := h.story k' call hcall
      refine (story_turn).trans ⟨before, ?_⟩
      rw [← hbefore, List.append_assoc]
    · rw [System.take, notesOf_append_of_ne hk]
      exact h.story k' call' hcall'

theorem Sound.set (h : Sound q s) (db : Db) (hkeep : db.candidates = s.candidates) :
    Sound q (s.set db) := by
  have hmoves : Moves q s.toDb db (.evaluate "") .crashed := .keeps hkeep
  exact ⟨h.toTabled.moves hmoves, fun k call hcall => (h.fits k call hcall).moves hmoves, h.story⟩

/-- What a step of the system is: a call begins, takes a step or stops, or the tables are
written and the candidates left alone. -/
inductive Stepped (q : Queue) (s : System) (a : Act) : System → Prop
  | begins (k : ℕ) (op : Op) : Stepped q s a (s.goTo k op op.start)
  | takes (k : ℕ) (told : Told) (call : Call) (ha : a = .next k told)
    (hcall : s.calls k = some call) :
    Stepped q s a (s.take k call.op (turn q s.toDb told call.op call.point))
  | stops (k : ℕ) (op : Op) : Stepped q s a (s.goTo k op .crashed)
  | writes (db : Db) (hkeep : db.candidates = s.candidates) : Stepped q s a (s.set db)

theorem stepped_step (s : System) (a : Act) : Stepped q s a (step q s a) := by
  have hstays : Stepped q s a s := .writes s.toDb rfl
  cases a with
  | start k op =>
    rw [step]
    split
    · exact .begins k op
    · exact hstays
  | next k told =>
    rw [step]
    split
    · exact hstays
    next call hcall => exact .takes k told call rfl hcall
  | crash k =>
    rw [step]
    split
    · exact hstays
    · exact .stops k _
  | writeJob id row => exact .writes { s.toDb with jobs := Function.update s.jobs id row } rfl
  | waits n => exact .writes { s.toDb with now := s.now + n } rfl
  | acquire name h =>
    refine .writes _ ?_
    cases hacq : tryAcquireActionLock s.toDb name h with
    | none => rfl
    | some r => exact candidates_acquire hacq
  | release => exact .writes _ candidates_release
  | reclaim => exact .writes _ candidates_reclaim

/-- **Every step keeps the system sound.** -/
theorem Sound.step (h : Sound q s) (a : Act) : Sound q (step q s a) := by
  have hstepped : Stepped q s a (Calls.step q s a) := stepped_step s a
  generalize Calls.step q s a = s' at hstepped
  cases hstepped with
  | begins k op =>
    refine h.goTo ?_ ?_
    · cases op <;> trivial
    · cases op <;> rfl
  | takes k told call _ hcall => exact h.take hcall
  | stops => exact h.goTo trivial rfl
  | writes db hkeep => exact h.set db hkeep

variable {now : Time} {jobs : String → Option SupervisorJob} {locks : String → Option Holder}

theorem sound_run : Sound q (run q now jobs locks as) := by
  refine Runs.run_always (fun s a h => h.step a) ?_
  exact ⟨⟨List.nodup_nil, by rintro _ ⟨⟩⟩, by rintro _ _ ⟨⟩, by rintro _ _ ⟨⟩⟩

/-! ### Into INTEGRATED, and out of it -/

/-- A step leaves the candidates alone, or is one of a call. -/
theorem candidates_step (a : Act) : (step q s a).candidates = s.candidates ∨
    ∃ k told call, a = .next k told ∧ s.calls k = some call ∧
      (step q s a).toDb = (turn q s.toDb told call.op call.point).db := by
  have hstepped : Stepped q s a (Calls.step q s a) := stepped_step s a
  generalize Calls.step q s a = s' at hstepped
  cases hstepped with
  | takes k told call ha hcall => exact .inr ⟨k, told, call, ha, hcall, rfl⟩
  | begins | stops => exact .inl rfl
  | writes db hkeep => exact .inl hkeep

/-- Nobody asks to take a candidate out of INTEGRATED. -/
theorem Point.Fits.src_ne (hfits : p.Fits q db)
    (hasks : p.request q h? = some r) : r.src ≠ .integrated := by
  have hdriven : ∀ {f : Holder → Request}, h?.map f = some r → (∀ h, (f h).src ≠ .integrated) →
      r.src ≠ .integrated := by
    intro f hmap hf
    obtain ⟨h, -, rfl⟩ := Option.map_eq_some_iff.mp hmap
    exact hf h
  cases p with
  | promoting c =>
    obtain rfl := Option.some.inj hasks
    rcases hfits.1 with hstate | hstate <;> exact fun heq => by cases hstate.symm.trans heq
  | claiming | placing | recording | evidencing => exact hdriven hasks fun h => by rintro ⟨⟩
  | closing c => exact hdriven hasks fun h heq => by cases hfits.1.state.symm.trans heq
  | marking c => exact hdriven hasks fun h heq => by cases hfits.1.state.symm.trans heq
  | blocking members queue =>
    cases members with
    | nil => cases hasks
    | cons c members =>
      obtain rfl := Option.some.inj hasks
      exact fun heq => by cases (hfits c List.mem_cons_self).symm.trans heq
  | resetting =>
    obtain rfl := Option.some.inj hasks
    rintro ⟨⟩
  | _ => cases hasks

/-- Only the transition that closes an attempt leads into INTEGRATED. -/
theorem Point.Fits.closing (hfits : p.Fits q db)
    (hasks : p.request q h? = some r) (hdst : r.dst = .integrated) :
    ∃ h c cls head planHash evidence frame, h? = some h ∧
      p = .closing c cls head planHash evidence frame ∧ r.row = c ∧ r.fence = some h ∧
        r.fields.integratedHead = some head := by
  have hdriven : ∀ {f : Holder → Request}, h?.map f = some r → (∀ h, (f h).dst ≠ .integrated) →
      False := by
    intro f hmap hf
    obtain ⟨h, -, rfl⟩ := Option.map_eq_some_iff.mp hmap
    exact hf h hdst
  cases p with
  | closing c cls head planHash evidence frame =>
    obtain ⟨h, hh, rfl⟩ := Option.map_eq_some_iff.mp hasks
    exact ⟨h, c, cls, head, planHash, evidence, frame, hh, rfl, rfl, rfl, rfl⟩
  | promoting c toState =>
    obtain rfl := Option.some.inj hasks
    rcases hfits.2 with hstate | hstate <;> cases hstate.symm.trans hdst
  | claiming | placing | recording | evidencing => exact (hdriven hasks fun h => by rintro ⟨⟩).elim
  | marking c state => exact (hdriven hasks fun h => hfits.2.2).elim
  | blocking members queue =>
    cases members with
    | nil => cases hasks
    | cons c members =>
      obtain rfl := Option.some.inj hasks
      cases hdst
  | resetting =>
    obtain rfl := Option.some.inj hasks
    cases hdst
  | _ => cases hasks

theorem Moves.keeps_integrated (hmoves : Moves q db db' op p) (hfits : p.Fits q db)
    (hrow : getIntegrationCandidate db id = some row) (hstate : row.state = .integrated) :
    getIntegrationCandidate db' id = some row := by
  cases hmoves with
  | keeps hkeep => exact (getIntegrationCandidate_congr hkeep).trans hrow
  | creates row' hnew =>
    rw [getIntegrationCandidate, hnew.tables, List.find?_append,
      show db.candidates.find? (·.id = id) = some row from hrow]
    rfl
  | goes r hasks hwent =>
    have hne : row.id ≠ r.row.id := by
      intro hid
      obtain ⟨row', hrow', hsrc, -⟩ := hwent.found
      rw [← hid, getIntegrationCandidate_id hrow, hrow] at hrow'
      obtain rfl := Option.some.inj hrow'
      exact hfits.src_ne hasks (hsrc.symm.trans hstate)
    rw [hwent.get, hrow, Option.map_some, r.moved_of_ne hne]

/-- What a candidate is integrated on: a holder whose lease and whose lock are checked there and
then, and, last of all that its call has done, an attempt that has claimed it, merged it, read this
head, and whose tests have come to this evidence, for this plan. -/
structure Proven (q : Queue) (s : System) (row : IntegrationCandidate) (k : ℕ) (h : Holder) :
    Prop where
  driven : ∃ call, s.calls k = some call ∧ call.op.holder? = some h
  lease : jobHoldsCurrentLease s.toDb h = true
  lock : s.locks (lockName q.config row.repository row.integrationTarget) = some h
  attempt : ∃ head planHash evidence,
    [.claimed row.id, .merged row.id, .head head, .tested planHash evidence] <:+
        notesOf k s.log ∧
      Authentic q planHash evidence ∧ verdict evidence = .text "DONE" ∧
        row.integratedHead = some head

theorem Request.moved_integratedHead {head : String} (hid : row.id = r.row.id)
    (hfields : r.fields.integratedHead = some head) : (r.moved row).integratedHead = some head := by
  rw [Request.moved, if_pos hid, Request.write, Fields.write, hfields]
  rfl

/-- **Into INTEGRATED only with proof.** -/
theorem Sound.proven (h : Sound q s)
    (hnot : ∀ row, getIntegrationCandidate s.toDb id = some row → row.state ≠ .integrated)
    (hrow : getIntegrationCandidate (Calls.step q s a).toDb id = some row)
    (hstate : row.state = .integrated) : ∃ k told h, a = .next k told ∧ Proven q s row k h := by
  rcases candidates_step (q := q) (s := s) a with hkeep | ⟨k, told, call, rfl, hcall, hdb⟩
  · rw [getIntegrationCandidate_congr hkeep] at hrow
    exact absurd hstate (hnot row hrow)
  rw [hdb] at hrow
  have hfits := h.fits k call hcall
  have hstory := h.story k call hcall
  have hmoves : Moves q s.toDb (turn q s.toDb told call.op call.point).db call.op call.point :=
    moves_turn
  cases hmoves with
  | keeps hkeep =>
    rw [getIntegrationCandidate_congr hkeep] at hrow
    exact absurd hstate (hnot row hrow)
  | creates new hnew =>
    rw [getIntegrationCandidate, hnew.tables, List.find?_append] at hrow
    cases hold : getIntegrationCandidate s.toDb id with
    | some old =>
      rw [show s.candidates.find? (·.id = id) = some old from hold] at hrow
      obtain rfl := Option.some.inj hrow
      exact absurd hstate (hnot _ hold)
    | none =>
      rw [show s.candidates.find? (·.id = id) = none from hold, Option.none_or] at hrow
      obtain rfl := List.mem_singleton.mp (List.mem_of_find?_eq_some hrow)
      cases hnew.pending.symm.trans hstate
  | goes r hasks hwent =>
    rw [hwent.get] at hrow
    obtain ⟨old, hold, rfl⟩ := Option.map_eq_some_iff.mp hrow
    by_cases hid : old.id = r.row.id
    · rw [r.moved_state hid] at hstate
      obtain ⟨holder, c, cls, head, planHash, evidence, frame, hholder, hp, rfl, hfence, hhead⟩ :=
        hfits.closing hasks hstate
      rw [hp] at hfits hstory
      obtain ⟨hlease, hlock⟩ := hwent.fence holder hfence
      obtain ⟨row, hread, hrepository, htarget⟩ := hfits.1.known
      have hsame : old = row := by
        refine Option.some.inj (Eq.trans ?_ hread)
        rw [← hid, getIntegrationCandidate_id hold]
        exact hold.symm
      subst hsame
      refine ⟨k, told, holder, rfl, ⟨call, hcall, hholder⟩, hlease, ?_, head, planHash, evidence,
        ?_, hfits.2.1, hfits.2.2, Request.moved_integratedHead hid hhead⟩
      · rw [r.moved_target.1, r.moved_target.2, hrepository, htarget]
        exact hlock
      · rw [r.moved_id, hid]
        exact hstory
    · rw [r.moved_of_ne hid] at hstate
      exact absurd hstate (hnot old hold)

theorem Sound.keeps_integrated (h : Sound q s) (hrow : getIntegrationCandidate s.toDb id = some row)
    (hstate : row.state = .integrated) :
    getIntegrationCandidate (Calls.step q s a).toDb id = some row := by
  rcases candidates_step (q := q) (s := s) a with hkeep | ⟨k, told, call, rfl, hcall, hdb⟩
  · exact (getIntegrationCandidate_congr hkeep).trans hrow
  · rw [hdb]
    exact moves_turn.keeps_integrated (h.fits k call hcall) hrow hstate

theorem keeps_integrated_run {bs : List Act}
    (hrow : getIntegrationCandidate (run q now jobs locks as).toDb id = some row)
    (hstate : row.state = .integrated) :
    getIntegrationCandidate (run q now jobs locks (as ++ bs)).toDb id = some row := by
  have hboth : let s := run q now jobs locks (as ++ bs)
      Sound q s ∧ getIntegrationCandidate s.toDb id = some row := by
    simp only [run, Runs.run_append]
    exact Runs.run_always
      (I := fun s : System => Sound q s ∧ getIntegrationCandidate s.toDb id = some row)
      (fun s a ⟨hsound, hget⟩ => ⟨hsound.step a, hsound.keeps_integrated hget hstate⟩)
      ⟨sound_run, hrow⟩
  exact hboth.2

/-- **INTEGRATED only with proof, and for good.** In every run: a candidate that a step takes into
INTEGRATED is taken there by a call whose lease and whose lock are current in that very
transaction, and the last that the call has done is to claim this candidate, to merge it, to read
the head that the row is now given, and to obtain authentic evidence of DONE for the plan it has
built; a candidate that is INTEGRATED keeps its row however the run goes on; and of each target at
most one candidate is INTEGRATING. -/
theorem integrated_with_proof (q : Queue) (now : Time) (jobs : String → Option SupervisorJob)
    (locks : String → Option Holder) (as : List Act) :
    let s := run q now jobs locks as
    (∀ a id row, (∀ row, getIntegrationCandidate s.toDb id = some row → row.state ≠ .integrated) →
        getIntegrationCandidate (step q s a).toDb id = some row → row.state = .integrated →
          ∃ k told h, a = .next k told ∧ Proven q s row k h) ∧
      (∀ id row, getIntegrationCandidate s.toDb id = some row → row.state = .integrated →
        ∀ bs, getIntegrationCandidate (run q now jobs locks (as ++ bs)).toDb id = some row) ∧
      ∀ d ∈ s.candidates, ∀ e ∈ s.candidates, d.state = .integrating → e.state = .integrating →
        d.repository = e.repository → d.integrationTarget = e.integrationTarget → d = e := by
  have hsound : Sound q (run q now jobs locks as) := sound_run
  refine ⟨fun a id row hnot hrow hstate => hsound.proven hnot hrow hstate,
    fun id row hrow hstate bs => keeps_integrated_run hrow hstate, ?_⟩
  intro d hd e he hds hes hrepository htarget
  have hid := hsound.index d hd e he hds hes hrepository htarget
  have hget := hsound.get hd
  rw [hid, hsound.get he] at hget
  exact (Option.some.inj hget).symm

end Calls

end MergeQueue

end ArgentTeam
