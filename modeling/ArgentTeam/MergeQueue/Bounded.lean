import ArgentTeam.MergeQueue.Ordering

/-!
# What an integration may raise

`integrate_candidate` catches a race, a lost lease and an `IntegrationError`; everything else goes
through to its caller, and to that of `process_target`. Given what the docstring asks of the
caller, and whatever git and the test runner return, it raises where another candidate of the
target has been left INTEGRATING, where the merge has changed nothing and the default plan builder
makes the plan, and where evidence cannot be verified or is too large; and a pass raises besides
where the lease of its holder has run out before one of its integrations, or a candidate has been
moved while it was evaluated. Nothing else is raised, and every integration comes to its end
(`integration_bounded_iff`).
-/

namespace ArgentTeam

namespace MergeQueue

namespace Calls

/-! ### What is promised -/

/-- What a call raises, or is about to raise. -/
def Point.fault? : Point → Option Fault
  | .releasing _ (.error e) _ | .leaving _ (some e) | .returned (.error e) => some e
  | _ => none

/-- The plan builder and the test runner return something, or raise an `IntegrationError`. -/
def Told.answers (q : Queue) (told : Told) : Bool :=
  (match told.planned with
    | .raised => !q.planBuilder
    | .plan _ | .refused _ => true) &&
  match told.ran with
    | .raised => false
    | .evidence _ | .refused _ => true

/-- The next step of the call should not raise: it is one of an integration of a candidate that is
there, by a holder whose lease is current, or one of a pass that has the lock. -/
def Call.promised (db : Db) (call : Call) : Bool :=
  match call.op, call.point with
  | .integrate .., .fetching id _ => (getIntegrationCandidate db id).isSome
  | .integrate _ h _, .acquiring _ _ => validHolder h && jobHoldsCurrentLease db h
  | .integrate .., .entering | .process .., .entering => false
  | .integrate .., _ | .process .., _ => true
  | .enqueue .., _ | .evaluate _, _ | .reconcile .., _ => false

/-- A step is bounded: it does not raise where it should not. -/
def Bounded (q : Queue) (s : System) : Act → Prop
  | .next k told => ∀ call ∈ s.calls k, call.promised s.toDb = true → told.answers q = true →
      call.point.fault? = none →
      (turn q s.toDb told call.op call.point).point.fault? = none
  | _ => True

/-- What a step of a call raises at. -/
def Hazard (q : Queue) (db : Db) (told : Told) (call : Call) : Prop :=
  match call.point with
  | .promoting c _ _ _ =>
    ¬∃ row ∈ getIntegrationCandidate db c.id, row.state = c.state ∧ row.revision = c.revision
  | .acquiring _ _ =>
    ¬(validHolder call.op.holder = true ∧ jobHoldsCurrentLease db call.op.holder = true)
  | .claiming c _ =>
    (jobHoldsCurrentLease db call.op.holder = true ∧
      db.locks (lockName q.config c.repository c.integrationTarget) = some call.op.holder) ∧
    (∃ row ∈ getIntegrationCandidate db c.id, row.state = .ready ∧ row.revision = c.revision) ∧
    othersIntegrating db c.id = true
  | .testing .. => q.planBuilder = false ∧ told.changedPaths = []
  | .evidencing _ _ _ planHash evidence _ =>
    evidenceAuthentic q planHash evidence = .error .unverifiable ∨
      evidenceAuthentic q planHash evidence = .ok true ∧ oversized evidence = true
  | _ => False

/-- A step is safe: a call whose step should not raise meets nothing that it raises at. -/
def Safe (q : Queue) (s : System) : Act → Prop
  | .next k told => ∀ call ∈ s.calls k, call.promised s.toDb = true → told.answers q = true →
      call.point.fault? = none → ¬Hazard q s.toDb told call
  | _ => True

variable {q : Queue} {db db' : Db} {told : Told} {op : Op} {p : Point} {r : Request}
  {c row : IntegrationCandidate} {frame : Frame} {s : System} {id : String} {h : Holder} {e : Fault}

/-! ### What is there stays there -/

/-- The candidate is there. -/
def Exists (db : Db) (id : String) : Prop := ∃ row, getIntegrationCandidate db id = some row

theorem Exists.moves (h : Exists db id) (hmoves : Moves q db db' op p) : Exists db' id := by
  obtain ⟨row, hrow⟩ := h
  cases hmoves with
  | keeps hkeep => exact ⟨row, (getIntegrationCandidate_congr hkeep).trans hrow⟩
  | creates new hnew =>
    refine ⟨row, ?_⟩
    rw [getIntegrationCandidate, hnew.tables, List.find?_append]
    exact Option.or_eq_some_iff.mpr (.inl hrow)
  | goes r _ hwent => exact ⟨r.moved row, by rw [hwent.get, hrow, Option.map_some]⟩

/-- The candidates that are still to come are there. -/
def Frame.Known (db : Db) : Frame → Prop
  | .alone => True
  | .evaluation ids => ∀ id ∈ ids, Exists db id
  | .queue _ rest => ∀ c ∈ rest, Exists db c.id

theorem Frame.Known.moves (hknown : frame.Known db) (hmoves : Moves q db db' op p) :
    frame.Known db' := by
  cases frame with
  | alone => trivial
  | evaluation ids => exact fun id hid => (hknown id hid).moves hmoves
  | queue done rest => exact fun c hc => (hknown c hc).moves hmoves

/-- What a pass is about to read is there. -/
def Point.Present (db : Db) (op : Op) : Point → Prop
  | .evaluating id f => f.Known db ∧ ((∃ i, op = .evaluate i) ∨ Exists db id)
  | .fetching id f => f.Known db ∧ ((∃ i h runTests, op = .integrate i h runTests) ∨ Exists db id)
  | .weighing _ f | .promoting _ _ _ f | .acquiring _ f | .claiming _ f | .resolving _ f
  | .revalidating _ _ f | .basing _ _ f | .classifying _ _ f | .preparing _ _ _ f
  | .placing _ _ _ f | .merging _ _ _ f | .heading _ _ _ f | .recording _ _ _ _ f
  | .testing _ _ _ _ f | .evidencing _ _ _ _ _ f | .closing _ _ _ _ _ f | .marking _ _ _ f
  | .rereading _ f | .lost _ f | .releasing _ _ f => f.Known db
  | .blocking _ queue => ∀ c ∈ queue, Exists db c.id
  | _ => True

theorem Point.Present.moves {op' : Op} {p' : Point} (h : p'.Present db op')
    (hmoves : Moves q db db' op p) : p'.Present db' op' := by
  cases p' with
  | evaluating | fetching => exact ⟨h.1.moves hmoves, h.2.imp_right fun h => h.moves hmoves⟩
  | blocking => exact fun c hc => (h c hc).moves hmoves
  | weighing | promoting | acquiring | claiming | resolving | revalidating | basing | classifying
  | preparing | placing | merging | heading | recording | testing | evidencing | closing | marking
  | rereading | lost | releasing => exact Frame.Known.moves h hmoves
  | _ => trivial

theorem present_nextEvaluation {ids : List String} (h : ∀ id ∈ ids, Exists db id) :
    (nextEvaluation ids).Present db op := by
  cases ids with
  | nil => trivial
  | cons id ids =>
    exact ⟨fun i hi => h i (List.mem_cons_of_mem id hi), .inr (h id List.mem_cons_self)⟩

theorem present_nextIntegration {done : List Outcome} {rest : List IntegrationCandidate}
    (h : ∀ c ∈ rest, Exists db c.id) : (nextIntegration done rest).Present db op := by
  cases rest with
  | nil => trivial
  | cons c rest =>
    exact ⟨fun d hd => h d (List.mem_cons_of_mem c hd), .inr (h c List.mem_cons_self)⟩

theorem present_evaluated (h : frame.Known db) : (evaluated frame).Present db op := by
  cases frame with
  | alone | queue => trivial
  | evaluation ids => exact present_nextEvaluation h

theorem present_of_idle (h : p.Idle) : p.Present db op := by
  cases p <;> first | exact h.elim | trivial

theorem present_raised : (raised e frame).Present db op := by
  cases frame <;> trivial

theorem present_settled {result : Except Fault Outcome} (h : frame.Known db) :
    (settled frame result).Present db op := by
  cases result with
  | error e => exact present_raised
  | ok o =>
    cases frame with
    | alone | evaluation => trivial
    | queue done rest =>
      rw [settled, integrated_queue]
      split
      · trivial
      · exact present_nextIntegration h

theorem present_of_at (hat : p.At id frame) (hstage : p.stage < 18) (h : frame.Known db) :
    p.Present db op := by
  cases p with
  | fetching => exact absurd hstage (Nat.lt_irrefl 18)
  | acquiring | claiming | resolving | revalidating | basing | classifying
  | preparing | placing | merging | heading | recording | testing | evidencing | closing | marking
  | rereading | lost =>
    obtain ⟨-, rfl⟩ := hat
    exact h
  | releasing =>
    obtain ⟨-, rfl, -⟩ := hat
    exact h
  | _ => exact hat.elim

theorem present_of_evaluates (heval : p.Evaluates frame) (hstage : p.stage < 3)
    (h : frame.Known db) : p.Present db op := by
  cases p with
  | evaluating => exact absurd hstage (Nat.lt_irrefl 3)
  | weighing | promoting =>
    obtain rfl := heval
    exact h
  | _ => exact heval.elim

theorem exists_of_mem (htabled : Tabled db) (hc : c ∈ db.candidates) : Exists db c.id :=
  ⟨c, htabled.get hc⟩

theorem exists_of_mem_list {repository target : String} (htabled : Tabled db)
    (hc : c ∈ listIntegrationCandidates db repository target) : Exists db c.id := by
  rw [listIntegrationCandidates, List.mem_insertionSort] at hc
  exact exists_of_mem htabled (List.mem_of_mem_filter hc)

/-- **What a pass is about to read is there.** -/
theorem present_turn (htabled : Tabled db) (h : p.Present db op) :
    (turn q db told op p).point.Present (turn q db told op p).db op := by
  refine Point.Present.moves ?_ moves_turn
  have hat : ∀ id frame, p.At id frame → frame.Known db →
      (turn q db told op p).point.Present db op := by
    intro id frame hp hknown
    have hleads : Leads id frame p.stage (turn q db told op p).point := leads_turn hp
    have hstage : p.stage ≤ 18 := by
      cases p <;> first | exact hp.elim | exact Nat.le_of_ble_eq_true rfl
    generalize (turn q db told op p).point = p' at hleads
    cases hleads with
    | goes hp' hlt => exact present_of_at hp' (Nat.lt_of_lt_of_le hlt hstage) hknown
    | settled => exact present_settled hknown
  have heval : ∀ frame, p.Evaluates frame → frame.Known db →
      (turn q db told op p).point.Present db op := by
    intro frame hp hknown
    have hstage : p.stage ≤ 3 := by
      cases p <;> first | exact hp.elim | exact Nat.le_of_ble_eq_true rfl
    rcases evaluates_turn hp with ⟨hp', hlt⟩ | hdone | ⟨e, hraised⟩
    · exact present_of_evaluates hp' (Nat.lt_of_lt_of_le hlt hstage) hknown
    · rw [hdone]
      exact present_evaluated hknown
    · rw [hraised]
      exact present_raised
  cases p with
  | admitting | creating | entering | probing | checking =>
    exact present_of_idle (idle_turn rfl)
  | evaluating id frame => exact heval frame rfl h.1
  | weighing c frame | promoting c _ _ frame => exact heval frame rfl h
  | fetching id frame => exact hat id frame ⟨rfl, rfl⟩ h.1
  | acquiring c frame | claiming c frame | resolving c frame | rereading c frame
  | lost c frame => exact hat c.id frame ⟨rfl, rfl⟩ h
  | revalidating c _ frame | basing c _ frame | classifying c _ frame =>
    exact hat c.id frame ⟨rfl, rfl⟩ h
  | preparing c _ _ frame | placing c _ _ frame | merging c _ _ frame | heading c _ _ frame
  | marking c _ _ frame => exact hat c.id frame ⟨rfl, rfl⟩ h
  | recording c _ _ _ frame | testing c _ _ _ frame => exact hat c.id frame ⟨rfl, rfl⟩ h
  | evidencing c _ _ _ _ frame | closing c _ _ _ _ frame => exact hat c.id frame ⟨rfl, rfl⟩ h
  | releasing => exact present_settled h
  | listing =>
    refine present_nextEvaluation fun id hid => ?_
    obtain ⟨c, hc, rfl⟩ := List.mem_map.mp hid
    exact exists_of_mem_list htabled (List.mem_of_mem_filter hc)
  | ordering =>
    intro c hc
    exact exists_of_mem_list htabled (mem_ready.mp (mem_ordered hc).1).1
  | blocking members queue =>
    cases members with
    | nil => exact present_nextIntegration h
    | cons => exact h
  | leaving | scanning | resetting | reclaiming | returned | crashed => trivial

/-! ### What a step raises -/

theorem fault_nextEvaluation {ids : List String} : (nextEvaluation ids).fault? = none := by
  cases ids <;> rfl

theorem fault_nextIntegration {done : List Outcome} {rest : List IntegrationCandidate} :
    (nextIntegration done rest).fault? = none := by
  cases rest <;> rfl

theorem fault_evaluated : (evaluated frame).fault? = none := by
  cases frame with
  | alone | queue => rfl
  | evaluation ids => exact fault_nextEvaluation

theorem fault_raised : (raised e frame).fault? = some e := by
  cases frame <;> rfl

theorem fault_integrated {o : Outcome} : (integrated o frame).fault? = none := by
  cases frame with
  | alone | evaluation => rfl
  | queue done rest =>
    rw [integrated_queue]
    split
    · rfl
    · exact fault_nextIntegration

/-- When a transition meets the index. -/
theorem transition_eq_integrity : transition q db r = .error .integrity ↔
    (∀ h ∈ r.fence, jobHoldsCurrentLease db h ∧
      db.locks (lockName q.config r.row.repository r.row.integrationTarget) = some h) ∧
    (∃ row ∈ getIntegrationCandidate db r.row.id, row.state = r.src ∧
      row.revision = r.row.revision) ∧
    r.dst = .integrating ∧ othersIntegrating db r.row.id := by
  unfold transition transitionIntegrationCandidate
  split
  next hfence =>
    obtain ⟨h, hh, hnot⟩ := hfence
    exact iff_of_false (by rintro ⟨⟩) fun hall => hnot (hall.1 h hh)
  next hfence =>
    have hall : ∀ h ∈ r.fence, jobHoldsCurrentLease db h = true ∧
        db.locks (lockName q.config r.row.repository r.row.integrationTarget) = some h := by
      intro h hh
      by_contra hnot
      exact hfence ⟨h, hh, hnot⟩
    rw [and_iff_right hall]
    cases hrow : getIntegrationCandidate db r.row.id with
    | none =>
      refine iff_of_false (by rintro ⟨⟩) ?_
      rintro ⟨⟨row, ⟨⟩, -⟩, -⟩
    | some row =>
      dsimp only
      by_cases hsame : row.state = r.src ∧ row.revision = r.row.revision
      · refine Iff.trans ?_ (and_iff_right ⟨row, rfl, hsame⟩).symm
        rw [if_pos hsame]
        dsimp only
        split
        next hindex => exact iff_of_true rfl hindex
        next hindex => exact iff_of_false (by rintro ⟨⟩) hindex
      · rw [if_neg hsame]
        refine iff_of_false (by rintro ⟨⟩) ?_
        rintro ⟨⟨row', hrow', hsame'⟩, -⟩
        obtain rfl := Option.some.inj hrow'
        exact hsame hsame'

/-- A fenced step raises exactly if its transition meets the index. -/
theorem fault_fenced {attempted : Except Refusal Db} {race : Point}
    {go : IntegrationCandidate → Point} {notes : List Note} (hrace : race.fault? = none)
    (hgo : ∀ c', (go c').fault? = none) :
    (fenced db c attempted race frame go notes).point.fault? = none ↔
      attempted ≠ .error .integrity := by
  unfold fenced
  split
  · exact iff_of_true (hgo _) (by rintro ⟨⟩)
  · exact iff_of_true rfl (by rintro ⟨⟩)
  · exact iff_of_true hrace (by rintro ⟨⟩)
  · exact iff_of_false (by rintro ⟨⟩) fun hne => hne rfl

/-- Of the calls that drive a candidate, only a claim can meet the index. -/
theorem attempt_claiming {hold : Holder} (hholder : op.holder? = some hold) :
    attempt q db op (.claiming c frame) = .error .integrity ↔
      (jobHoldsCurrentLease db hold ∧
        db.locks (lockName q.config c.repository c.integrationTarget) = some hold) ∧
      (∃ row ∈ getIntegrationCandidate db c.id, row.state = .ready ∧ row.revision = c.revision) ∧
      othersIntegrating db c.id := by
  rw [attempt, Point.request, hholder, Option.map_some, Option.elim_some, transition_eq_integrity]
  simp

/-- The other requests that keep a candidate INTEGRATING have found it so. -/
theorem src_of_request (hfits : p.Fits q db) (hclaiming : ∀ c frame, p ≠ .claiming c frame)
    (hasks : p.request q op.holder? = some r) (hdst : r.dst = .integrating) :
    r.src = .integrating := by
  cases p with
  | claiming c frame => exact absurd rfl (hclaiming c frame)
  | promoting c toState =>
    obtain rfl := Option.some.inj hasks
    rcases hfits.2 with hs | hs <;> cases hs.symm.trans hdst
  | placing | recording | evidencing =>
    obtain ⟨h, -, rfl⟩ := Option.map_eq_some_iff.mp hasks
    rfl
  | closing =>
    obtain ⟨h, -, rfl⟩ := Option.map_eq_some_iff.mp hasks
    cases hdst
  | marking =>
    obtain ⟨h, -, rfl⟩ := Option.map_eq_some_iff.mp hasks
    exact absurd hdst hfits.2.1
  | blocking members =>
    cases members with
    | nil => cases hasks
    | cons =>
      obtain rfl := Option.some.inj hasks
      cases hdst
  | resetting =>
    obtain rfl := Option.some.inj hasks
    cases hdst
  | _ => cases hasks

/-- So they do not meet the index. -/
theorem attempt_ne_integrity (htabled : Tabled db) (hfits : p.Fits q db)
    (hclaiming : ∀ c frame, p ≠ .claiming c frame) : attempt q db op p ≠ .error .integrity := by
  intro herror
  rw [attempt] at herror
  cases hasks : p.request q op.holder? with
  | none =>
    rw [hasks] at herror
    cases herror
  | some r =>
    rw [hasks, Option.elim_some] at herror
    obtain ⟨-, ⟨row, hrow, hstate, -⟩, hdst, hothers⟩ := (transition_eq_integrity).mp herror
    have hsrc := src_of_request hfits hclaiming hasks hdst
    rw [othersIntegrating, show getIntegrationCandidate db r.row.id = some row from hrow,
      Option.any_some, List.any_eq_true] at hothers
    obtain ⟨d, hd, hsame⟩ := hothers
    simp only [Bool.and_eq_true, decide_eq_true_eq] at hsame
    obtain ⟨⟨⟨hid, hrepository⟩, htarget⟩, hintegrating⟩ := hsame
    exact hid (htabled.index d hd row (mem_of_getIntegrationCandidate hrow) hintegrating
      (hstate.trans hsrc) hrepository htarget)

theorem tryAcquireActionLock_eq_none {name : String} :
    tryAcquireActionLock db name h = none ↔ jobHoldsCurrentLease db h ≠ true := by
  unfold tryAcquireActionLock
  split
  next hlease =>
    refine iff_of_false ?_ fun hnot => hnot hlease
    split
    · rintro ⟨⟩
    · split
      · rintro ⟨⟩
      · split <;> rintro ⟨⟩
  next hlease => exact iff_of_true rfl hlease

/-- The transition of an evaluation fails exactly if the row is not as it was read. -/
theorem promoting_ok {toState : CandidateState} {error : Option String}
    (hdst : toState ≠ .integrating) :
    (promotingTurn db frame (attempt q db op (.promoting c toState error frame))).point.fault? =
        none ↔
      ∃ row ∈ getIntegrationCandidate db c.id, row.state = c.state ∧
        row.revision = c.revision := by
  have hfence : ¬∃ h ∈ (none : Option Holder), ¬(jobHoldsCurrentLease db h = true ∧
      db.locks (lockName q.config c.repository c.integrationTarget) = some h) := by
    rintro ⟨h, ⟨⟩, -⟩
  rw [attempt, Point.request, Option.elim_some, transition, if_neg hfence,
    transitionIntegrationCandidate]
  dsimp only
  cases hrow : getIntegrationCandidate db c.id with
  | none =>
    refine iff_of_false ?_ ?_
    · rw [promotingTurn, fault_raised]
      rintro ⟨⟩
    · rintro ⟨row, ⟨⟩, -⟩
  | some row =>
    dsimp only
    by_cases hsame : row.state = c.state ∧ row.revision = c.revision
    · refine iff_of_true ?_ ⟨row, rfl, hsame⟩
      rw [if_pos hsame]
      dsimp only
      rw [if_neg fun hboth => hdst hboth.1, promotingTurn]
      exact fault_evaluated
    · refine iff_of_false ?_ ?_
      · rw [if_neg hsame, promotingTurn, fault_raised]
        rintro ⟨⟩
      · rintro ⟨row', hrow', hsame'⟩
        obtain rfl := Option.some.inj hrow'
        exact hsame hsame'

theorem holder_of_promised (hpromised : Call.promised db ⟨op, p⟩ = true) :
    op.holder? = some op.holder := by
  cases op with
  | integrate | process => rfl
  | enqueue | evaluate | reconcile => cases p <;> cases hpromised

/-- Making the plan raises exactly where the default plan builder has no changed paths. -/
theorem planned_eq_raised (db : Db) (c : IntegrationCandidate) (base : String)
    (hanswers : told.answers q) :
    planned db q told c base = .raised ↔ q.planBuilder = false ∧ told.changedPaths = [] := by
  rw [planned]
  cases hbuilder : q.planBuilder with
  | true =>
    refine iff_of_false ?_ ?_
    · rw [if_pos rfl]
      intro hraised
      rw [Told.answers, hraised, hbuilder] at hanswers
      cases hanswers
    · rintro ⟨⟨⟩, -⟩
  | false =>
    rw [if_neg Bool.false_ne_true, eq_self, true_and, defaultPlanBuilder, Planning.buildTestPlan]
    by_cases hchanged : told.changedPaths = []
    · rw [if_pos hchanged]
      exact iff_of_true rfl hchanged
    · rw [if_neg hchanged]
      exact iff_of_false (by rintro ⟨⟩) hchanged

theorem eq_unverifiable {planHash : Option String} {evidence : Json}
    (herror : evidenceAuthentic q planHash evidence = .error e) : e = .unverifiable := by
  unfold evidenceAuthentic at herror
  split at herror
  · split at herror
    · cases herror
    · split at herror
      · split at herror
        · cases herror
        · split at herror
          · cases herror
          · exact (Except.error.inj herror).symm
      · cases herror
  all_goals cases herror

/-- **A step of a call that is promised something raises exactly at a hazard.** -/
theorem fault_turn (htabled : Tabled db) (hfits : p.Fits q db) (hpresent : p.Present db op)
    (hpromised : Call.promised db ⟨op, p⟩ = true) (hanswers : told.answers q)
    (hnone : p.fault? = none) :
    (turn q db told op p).point.fault? = none ↔ ¬Hazard q db told ⟨op, p⟩ := by
  have hholder := holder_of_promised hpromised
  have hfenced : ∀ {go : IntegrationCandidate → Point} {race : Point} {notes : List Note}
      {c : IntegrationCandidate} {frame : Frame}, (∀ c frame, p ≠ .claiming c frame) →
      race.fault? = none → (∀ c', (go c').fault? = none) →
      (fenced db c (attempt q db op p) race frame go notes).point.fault? = none :=
    fun hp hrace hgo => (fault_fenced hrace hgo).mpr (attempt_ne_integrity htabled hfits hp)
  cases p with
  | evaluating id frame =>
    refine iff_of_true ?_ fun h => h
    have hexists : Exists db id := by
      rcases hpresent.2 with ⟨i, rfl⟩ | hexists
      · cases hpromised
      · exact hexists
    obtain ⟨row, hrow⟩ := hexists
    rw [turn, evaluatingTurn, hrow]
    dsimp only
    split
    · rfl
    · exact fault_evaluated
  | weighing =>
    refine iff_of_true ?_ fun h => h
    rw [turn, weighingTurn]
    split
    · split <;> rfl
    · rfl
  | promoting c toState error frame =>
    rw [turn, promoting_ok, Hazard, not_not]
    rintro rfl
    rcases hfits.2 with hs | hs <;> cases hs
  | fetching id frame =>
    refine iff_of_true ?_ fun h => h
    have hexists : Exists db id := by
      rcases hpresent.2 with ⟨i, h, runTests, rfl⟩ | hexists
      · exact Option.isSome_iff_exists.mp hpromised
      · exact hexists
    obtain ⟨row, hrow⟩ := hexists
    rw [turn, fetchingTurn, hrow]
    rfl
  | acquiring c frame =>
    rw [turn, acquiringTurn, Hazard, not_not]
    by_cases hvalid : validHolder op.holder = true
    · rw [if_neg (by rw [hvalid]; decide), and_iff_right hvalid]
      cases hacq : tryAcquireActionLock db (lockName q.config c.repository c.integrationTarget)
          op.holder with
      | none =>
        refine iff_of_false ?_ ((tryAcquireActionLock_eq_none).mp hacq)
        rw [fault_raised]
        rintro ⟨⟩
      | some r =>
        have hlease : jobHoldsCurrentLease db op.holder = true := by
          by_contra hnot
          rw [(tryAcquireActionLock_eq_none).mpr hnot] at hacq
          cases hacq
        refine iff_of_true ?_ hlease
        rcases r with ⟨_ | _, db'⟩
        · exact fault_integrated
        · rfl
    · refine iff_of_false ?_ fun hboth => hvalid hboth.1
      rw [if_pos (Bool.eq_false_iff.mpr hvalid), fault_raised]
      rintro ⟨⟩
  | claiming c frame =>
    have hgo : ∀ c', (Point.resolving c' frame).fault? = none := fun _ => rfl
    rw [turn, fault_fenced rfl hgo, ne_eq, attempt_claiming hholder]
    rfl
  | resolving =>
    refine iff_of_true ?_ fun h => h
    rw [turn]
    cases told.targetTip <;> rfl
  | revalidating =>
    refine iff_of_true ?_ fun h => h
    rw [turn, revalidatingTurn]
    split
    · rfl
    · split <;> rfl
  | placing =>
    exact iff_of_true (hfenced (by rintro _ _ ⟨⟩) rfl fun _ => rfl) fun h => h
  | recording =>
    refine iff_of_true (hfenced (by rintro _ _ ⟨⟩) rfl fun _ => ?_) fun h => h
    split <;> rfl
  | testing c base cls head frame =>
    have hran : told.ran ≠ .raised := by
      intro hran
      rw [Told.answers, hran, Bool.and_false] at hanswers
      cases hanswers
    rw [turn, Hazard, ← planned_eq_raised db c base hanswers, testingTurn]
    split
    next hraised => exact iff_of_false (by rintro ⟨⟩) fun hnot => hnot hraised
    next hrefused => exact iff_of_true rfl fun hraised => by cases hrefused.symm.trans hraised
    next hplan =>
      refine iff_of_true ?_ fun hraised => by cases hplan.symm.trans hraised
      split
      next hraised => exact absurd hraised hran
      · rfl
      · rfl
  | evidencing c cls head planHash evidence frame =>
    rw [turn, Hazard, evidencingTurn]
    split
    next e herror =>
      refine iff_of_false (by rintro ⟨⟩) fun hnot => hnot (.inl ?_)
      rw [herror, eq_unverifiable herror]
    next hfalse =>
      refine iff_of_true rfl ?_
      rintro (h | ⟨h, -⟩) <;> cases hfalse.symm.trans h
    next htrue =>
      split
      next hlarge =>
        exact iff_of_false (by rintro ⟨⟩) fun hnot => hnot (.inr ⟨htrue, hlarge⟩)
      next hsmall =>
        refine iff_of_true (hfenced (by rintro _ _ ⟨⟩) rfl fun _ => ?_) ?_
        · split <;> rfl
        · rintro (h | ⟨-, h⟩)
          · cases htrue.symm.trans h
          · exact hsmall h
  | closing | marking => exact iff_of_true (hfenced (by rintro _ _ ⟨⟩) rfl fun _ => rfl) fun h => h
  | releasing c result frame =>
    refine iff_of_true ?_ fun h => h
    cases result with
    | ok o => exact fault_integrated
    | error e => cases hnone
  | entering => cases op <;> cases hpromised
  | listing => exact iff_of_true fault_nextEvaluation fun h => h
  | blocking members queue =>
    refine iff_of_true ?_ fun h => h
    cases members with
    | nil => exact fault_nextIntegration
    | cons => rfl
  | leaving done raises =>
    refine iff_of_true ?_ fun h => h
    cases raises with
    | none => rfl
    | some e => cases hnone
  | admitting | creating =>
    refine iff_of_true ?_ fun h => h
    cases op <;> first | rfl | cases hpromised
  | probing cs =>
    refine iff_of_true ?_ fun h => h
    rw [turn]
    unfold probingTurn
    split
    · rfl
    · split
      · split <;> rfl
      · rfl
  | basing | classifying | preparing | merging | heading | checking =>
    refine iff_of_true ?_ fun h => h
    simp only [turn, basingTurn, classifyingTurn, preparingTurn, mergingTurn, headingTurn,
      checkingTurn]
    split <;> rfl
  | returned => exact iff_of_true hnone fun h => h
  | rereading | lost | ordering | scanning | resetting | reclaiming | crashed =>
    exact iff_of_true rfl fun h => h

/-! ### Runs -/

/-- The system is sound, and what its calls are about to read is there. -/
structure Provided (q : Queue) (s : System) : Prop extends Sound q s where
  present : ∀ k call, s.calls k = some call → call.point.Present s.toDb call.op

section

variable {a : Act} {as : List Act} {k : ℕ} {call : Call} {runTests : Bool}
  {now : Time} {jobs : String → Option SupervisorJob} {locks : String → Option Holder}

theorem Provided.goTo (hs : Provided q s) (hp : p.Fits q s.toDb) (hstory : p.story = [])
    (hpresent : p.Present s.toDb op) : Provided q (s.goTo k op p) where
  toSound := hs.toSound.goTo hp hstory
  present k' call hcall := by
    rcases System.calls_goTo hcall with ⟨-, rfl⟩ | ⟨-, hcall⟩
    · exact hpresent
    · exact hs.present k' call hcall

theorem Provided.take (hs : Provided q s) (hcall : s.calls k = some call) :
    Provided q (s.take k call.op (turn q s.toDb told call.op call.point)) where
  toSound := hs.toSound.take hcall
  present k' call' hcall' := by
    rcases System.calls_take hcall' with ⟨-, rfl⟩ | ⟨-, hcall'⟩
    · exact present_turn hs.toTabled (hs.present k call hcall)
    · exact (hs.present k' call' hcall').moves moves_turn

theorem Provided.set (hs : Provided q s) (db : Db) (hkeep : db.candidates = s.candidates) :
    Provided q (s.set db) := by
  have hmoves : Moves q s.toDb db (.evaluate "") .crashed := .keeps hkeep
  exact ⟨hs.toSound.set db hkeep, fun k call hcall => (hs.present k call hcall).moves hmoves⟩

/-- **Every step keeps the system provided.** -/
theorem Provided.step (hs : Provided q s) (a : Act) : Provided q (step q s a) := by
  have hstepped : Stepped q s a (Calls.step q s a) := stepped_step s a
  generalize Calls.step q s a = s' at hstepped
  cases hstepped with
  | begins k op =>
    refine hs.goTo ?_ ?_ ?_
    · cases op <;> trivial
    · cases op <;> rfl
    · cases op with
      | evaluate i => exact ⟨trivial, .inl ⟨i, rfl⟩⟩
      | integrate i h runTests => exact ⟨trivial, .inl ⟨i, h, runTests, rfl⟩⟩
      | enqueue | process | reconcile => trivial
  | takes k told call _ hcall => exact hs.take hcall
  | stops => exact hs.goTo trivial rfl trivial
  | writes db hkeep => exact hs.set db hkeep

theorem provided_run : Provided q (run q now jobs locks as) := by
  have hsound : Sound q (run q now jobs locks []) := sound_run
  exact Runs.run_always (fun s a hs => hs.step a) ⟨hsound, by rintro _ _ ⟨⟩⟩

theorem bounded_iff_safe (hs : Provided q s) : Bounded q s a ↔ Safe q s a := by
  cases a with
  | next k told =>
    refine forall_congr' fun call => forall_congr' fun hcall => ?_
    refine forall_congr' fun hpromised => forall_congr' fun hanswers => ?_
    exact forall_congr' fun hnone => fault_turn hs.toTabled (hs.fits k call hcall)
      (hs.present k call hcall) hpromised hanswers hnone
  | start | crash | writeJob | acquire | release | reclaim | waits => exact Iff.rfl

/-! ### To the end -/

/-- The steps of the call are promised not to raise, and are answered. -/
def Kept (q : Queue) (k : ℕ) (s : System) : Act → Prop
  | .next k' told => k' = k →
    told.answers q = true ∧ ∀ call ∈ s.calls k, call.promised s.toDb = true
  | _ => True

/-- It is a step of the call. -/
def Act.isNext (k : ℕ) : Act → Bool
  | .next k' _ => k' = k
  | _ => false

theorem ne_of_isNext (hown : a.isNext k) (hne : ∀ told, a ≠ .next k told) : False := by
  cases a with
  | next k' told => exact hne told (by rw [of_decide_eq_true hown])
  | _ => cases hown

/-- An integration has come to its end: it returns an outcome of its candidate, unless its process
has stopped. -/
def Point.Over (id : String) : Point → Prop
  | .returned (.ok done) => ∃ o, done = [o] ∧ o.candidateId = id
  | .crashed => True
  | _ => False

theorem Point.Over.turn (hover : p.Over id) : (turn q db told op p).point.Over id := by
  cases p with
  | returned | crashed => exact hover
  | _ => exact hover.elim

theorem stage_of_over (hover : p.Over id) : p.stage = 0 := by
  cases p with
  | returned | crashed => rfl
  | _ => exact hover.elim

theorem stage_pos_of_at (hat : p.At id frame) : 0 < p.stage := by
  cases p <;> first | exact hat.elim | exact Nat.le_of_ble_eq_true rfl

/-- A step that is bounded leads an integration to a later point, or to its end. -/
theorem over_turn (hat : p.At id .alone) (hnone : (turn q db told op p).point.fault? = none) :
    (turn q db told op p).point.At id .alone ∧ (turn q db told op p).point.stage < p.stage ∨
      (turn q db told op p).point.Over id := by
  have hleads : Leads id .alone p.stage (turn q db told op p).point := leads_turn hat
  generalize (turn q db told op p).point = p' at hleads hnone
  cases hleads with
  | goes hat' hlt => exact Or.inl ⟨hat', hlt⟩
  | settled result hid =>
    cases result with
    | ok o => exact Or.inr ⟨o, rfl, hid o rfl⟩
    | error e =>
      rw [settled, fault_raised] at hnone
      cases hnone

/-- **An integration comes to its end** in as many steps of its own as it has left, if no step of
it meets a hazard. -/
theorem over_run (hs : Provided q s) (hsafe : Runs.Along (step q) (Safe q) s as)
    (hkept : Runs.Along (step q) (Kept q k) s as)
    (hcall : s.calls k = some ⟨.integrate id h runTests, p⟩)
    (hp : p.At id .alone ∧ p.fault? = none ∨ p.Over id)
    (hn : p.stage ≤ as.countP (Act.isNext k)) :
    ∃ p', (Runs.run (step q) s as).calls k = some ⟨.integrate id h runTests, p'⟩ ∧
      p'.Over id := by
  induction as generalizing s p with
  | nil =>
    rcases hp with ⟨hat, -⟩ | hover
    · exact absurd hn (Nat.not_le.mpr (stage_pos_of_at hat))
    · exact ⟨p, hcall, hover⟩
  | cons a as ih =>
    rw [List.countP_cons] at hn
    rcases call_step (a := a) hcall with ⟨hne, hsame⟩ | ⟨told, rfl, hnext⟩ | hcrashed
    · rw [if_neg fun hown => ne_of_isNext hown hne, Nat.add_zero] at hn
      exact ih (hs.step a) hsafe.2 hkept.2 hsame hp hn
    · rw [if_pos (show (Act.next k told).isNext k = true from decide_eq_true rfl)] at hn
      rcases hp with ⟨hat, hnone⟩ | hover
      · obtain ⟨hanswers, hpromised⟩ := hkept.1 rfl
        have hnone' : (turn q s.toDb told (.integrate id h runTests) p).point.fault? = none :=
          (bounded_iff_safe hs).mpr hsafe.1 _ hcall (hpromised _ hcall) hanswers hnone
        rcases over_turn hat hnone' with ⟨hat', hlt⟩ | hover
        · refine ih (hs.step _) hsafe.2 hkept.2 hnext (.inl ⟨hat', hnone'⟩) ?_
          exact Nat.le_of_lt_succ (Nat.lt_of_lt_of_le hlt hn)
        · refine ih (hs.step _) hsafe.2 hkept.2 hnext (.inr hover) ?_
          exact (stage_of_over hover).trans_le (Nat.zero_le _)
      · refine ih (hs.step _) hsafe.2 hkept.2 hnext (.inr hover.turn) ?_
        exact (stage_of_over hover.turn).trans_le (Nat.zero_le _)
    · exact ih (hs.step a) hsafe.2 hkept.2 hcrashed (.inr trivial) (Nat.zero_le _)

/-- **Integration is bounded on errors**: no step raises that is promised not to, and an
integration whose steps are promised not to raise returns an outcome of its candidate. -/
structure BoundedRun (q : Queue) (now : Time) (jobs : String → Option SupervisorJob)
    (locks : String → Option Holder) (as : List Act) : Prop where
  steps : Runs.Along (step q) (Bounded q) (initial now jobs locks) as
  returns : ∀ bs cs k id h runTests, as = bs ++ cs →
    (run q now jobs locks bs).calls k = some ⟨.integrate id h runTests, .fetching id .alone⟩ →
    Runs.Along (step q) (Kept q k) (run q now jobs locks bs) cs →
    18 ≤ cs.countP (Act.isNext k) →
    ∃ p, (run q now jobs locks as).calls k = some ⟨.integrate id h runTests, p⟩ ∧ p.Over id

/-- **Integration is bounded on errors** exactly as long as no step meets a hazard. -/
theorem integration_bounded_iff (q : Queue) (now : Time) (jobs : String → Option SupervisorJob)
    (locks : String → Option Holder) (as : List Act) :
    BoundedRun q now jobs locks as ↔
      Runs.Along (step q) (Safe q) (initial now jobs locks) as := by
  have hprovided : ∀ bs, Provided q (run q now jobs locks bs) := fun bs => provided_run
  have hsteps : Runs.Along (step q) (Bounded q) (initial now jobs locks) as ↔
      Runs.Along (step q) (Safe q) (initial now jobs locks) as :=
    Runs.along_congr_of_inv (I := Provided q) (D := fun _ => True) (fun s a _ hs => hs.step a)
      (fun s a _ hs => bounded_iff_safe hs) (hprovided []) fun _ _ => trivial
  refine ⟨fun hbounded => hsteps.mp hbounded.steps, fun hsafe => ⟨hsteps.mpr hsafe, ?_⟩⟩
  rintro bs cs k id h runTests rfl hcall hkept hn
  rw [run, Runs.run_append]
  exact over_run (hprovided bs) (Runs.along_append.mp hsafe).2 hkept hcall
    (.inl ⟨⟨rfl, rfl⟩, rfl⟩) hn

end

/-! ### A candidate that is left INTEGRATING -/

/-- Jobs `a` and `b` are enqueued. A pass makes both READY, claims the first and stops for good;
its lease runs out, and another holder begins to integrate the second and takes the lock over. -/
def leftIntegrating : List Act :=
  enqueued 0 "a" none ++ enqueued 1 "b" none ++ passed 2 13 ++
    [.crash 2, .waits 200, .writeJob "heir" (some { leased "heir" with
      leaseExpiresAt := some 1000 })] ++ (Op.integrate "b" ("heir", 1) true).runs 3 2

/-- The queue after a run from jobs `a` and `b`. -/
def afterBoth (as : List Act) : System :=
  run (readableQueue true) 0 (doneJobs ["a", "b"]) (fun _ => none) as

/-- The other holder, whose lease is current, meets the index, and its call raises. -/
theorem integration_raises :
    (∃ c ∈ (afterBoth leftIntegrating).candidates, c.id = "a" ∧ c.state = .integrating) ∧
    jobHoldsCurrentLease (afterBoth leftIntegrating).toDb ("heir", 1) = true ∧
    ((afterBoth (leftIntegrating ++ [.next 3 smooth, .next 3 smooth])).calls 3).map
      (·.point.fault?) = some (some .integrity) ∧
    ¬BoundedRun (readableQueue true) 0 (doneJobs ["a", "b"]) (fun _ => none)
      (leftIntegrating ++ [.next 3 smooth]) := by
  refine ⟨by decide, by decide, by decide, fun hbounded => ?_⟩
  have hraises : ((afterBoth leftIntegrating).calls 3).any (fun call =>
      call.promised (afterBoth leftIntegrating).toDb && call.point.fault?.isNone &&
        (turn (readableQueue true) (afterBoth leftIntegrating).toDb smooth call.op
          call.point).point.fault?.isSome) = true := by
    decide
  obtain ⟨call, hcall, hraises⟩ := (Option.any_eq_true _ _).mp hraises
  simp only [Bool.and_eq_true, Option.isNone_iff_eq_none] at hraises
  obtain ⟨⟨hpromised, hnone⟩, hfault⟩ := hraises
  have hstep := (Runs.along_append.mp hbounded.steps).2.1 call hcall hpromised rfl hnone
  rw [Option.isSome_iff_ne_none] at hfault
  exact hfault hstep

end Calls

end MergeQueue

end ArgentTeam
