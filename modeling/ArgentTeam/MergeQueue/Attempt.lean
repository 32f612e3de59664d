import ArgentTeam.MergeQueue.Integrated

/-!
# An attempt from its beginning to its end

Where an evaluation or an integration stands, and what it leads to: a later point of the same
attempt, or its end, with an outcome of its candidate or with what it raises. Each point has a
stage, and the stages go down, so that an attempt is over after some twenty steps of its own. A
pass over a target works through its queue from the front, and leaves out only what comes after an
outcome that stops it (`works_run`).
-/

namespace ArgentTeam

namespace MergeQueue

namespace Calls

variable {q : Queue} {db : Db} {told : Told} {op : Op} {p : Point} {c : IntegrationCandidate}
  {id : String} {frame : Frame} {n : ℕ}

/-- The point is one of an evaluation, in this frame. -/
def Point.Evaluates (frame : Frame) : Point → Prop
  | .evaluating _ f | .weighing _ f | .promoting _ _ _ f => f = frame
  | _ => False

/-- The point is one of an integration of this candidate, in this frame. -/
def Point.At (id : String) (frame : Frame) : Point → Prop
  | .fetching i f => i = id ∧ f = frame
  | .acquiring c f | .claiming c f | .resolving c f | .revalidating c _ f | .basing c _ f
  | .classifying c _ f | .preparing c _ _ f | .placing c _ _ f | .merging c _ _ f
  | .heading c _ _ f | .recording c _ _ _ f | .testing c _ _ _ f | .evidencing c _ _ _ _ f
  | .closing c _ _ _ _ f | .marking c _ _ f | .rereading c f | .lost c f => c.id = id ∧ f = frame
  | .releasing c result f => c.id = id ∧ f = frame ∧ ∀ o, result = .ok o → o.candidateId = id
  | _ => False

/-- How many steps of an attempt are left at most. -/
def Point.stage : Point → ℕ
  | .evaluating .. => 3
  | .weighing .. => 2
  | .promoting .. => 1
  | .fetching .. => 18
  | .acquiring .. => 17
  | .claiming .. => 16
  | .resolving .. => 15
  | .revalidating .. => 14
  | .basing .. => 13
  | .classifying .. => 12
  | .preparing .. => 11
  | .placing .. => 10
  | .merging .. => 9
  | .heading .. => 8
  | .recording .. => 7
  | .testing .. => 6
  | .evidencing .. => 5
  | .closing .. => 4
  | .marking .. => 4
  | .rereading .. => 3
  | .lost .. => 3
  | .releasing .. => 1
  | _ => 0

/-- Where a step of an evaluation leads. -/
theorem evaluates_turn (h : p.Evaluates frame) :
    (turn q db told op p).point.Evaluates frame ∧ (turn q db told op p).point.stage < p.stage ∨
      (turn q db told op p).point = evaluated frame ∨
      ∃ e, (turn q db told op p).point = raised e frame := by
  cases p with
  | evaluating i f =>
    obtain rfl := h
    rw [turn, evaluatingTurn]
    split
    · exact Or.inr (.inr ⟨_, rfl⟩)
    · split
      · exact Or.inl ⟨rfl, Nat.lt_succ_self 2⟩
      · exact Or.inr (.inl rfl)
  | weighing c f =>
    obtain rfl := h
    rw [turn, weighingTurn]
    split
    · split <;> exact Or.inl ⟨rfl, Nat.lt_succ_self 1⟩
    · exact Or.inl ⟨rfl, Nat.lt_succ_self 1⟩
  | promoting c _ _ f =>
    obtain rfl := h
    rw [turn]
    unfold promotingTurn
    split
    · exact Or.inr (.inl rfl)
    all_goals exact Or.inr (.inr ⟨_, rfl⟩)
  | _ => exact h.elim

/-- Where a step of an integration leads that has so many steps left. -/
inductive Leads (id : String) (frame : Frame) (n : ℕ) : Point → Prop
  | goes {p : Point} (hat : p.At id frame) (hstage : p.stage < n) : Leads id frame n p
  /-- The integration is over, with an outcome or with what it raises. -/
  | settled (result : Except Fault Outcome) (hid : ∀ o, result = .ok o → o.candidateId = id) :
    Leads id frame n (settled frame result)

theorem leads_to (hat : p.At id frame) (hstage : Nat.blt p.stage n) :
    Leads id frame n p := .goes hat (Nat.le_of_ble_eq_true hstage)

theorem leads_raised {e : Fault} : Leads id frame n (raised e frame) :=
  .settled (.error e) (by rintro _ ⟨⟩)

theorem leads_fenced {attempted : Except Refusal Db} {race : Point}
    {go : IntegrationCandidate → Point} {notes : List Note} (hn : Nat.blt 3 n)
    (hrace : race.At c.id frame ∧ Nat.blt race.stage n)
    (hgo : ∀ c', c'.id = c.id → (go c').At c.id frame ∧ Nat.blt (go c').stage n = true) :
    Leads c.id frame n (fenced db c attempted race frame go notes).point := by
  unfold fenced
  split
  · exact leads_to (hgo _ current_id).1 (hgo _ current_id).2
  · exact leads_to ⟨rfl, rfl⟩ hn
  · exact leads_to hrace.1 hrace.2
  · have hlt : 3 < n := Nat.le_of_ble_eq_true hn
    exact .goes ⟨rfl, rfl, by rintro _ ⟨⟩⟩ (show 1 < n by omega)

theorem raced_at {state : CandidateState} {detail : String} :
    (raced c state detail frame).At c.id frame :=
  ⟨rfl, rfl, fun o h => by rw [← Except.ok.inj h]⟩

/-- **Where a step of an integration leads.** -/
theorem leads_turn (h : p.At id frame) :
    Leads id frame p.stage (turn q db told op p).point := by
  cases p with
  | fetching i f =>
    obtain ⟨rfl, rfl⟩ := h
    rw [turn, fetchingTurn]
    split
    · exact leads_raised
    next hrow => exact leads_to ⟨getIntegrationCandidate_id hrow, rfl⟩ rfl
  | acquiring c f =>
    obtain ⟨rfl, rfl⟩ := h
    rw [turn, acquiringTurn]
    split
    · exact leads_raised
    · split
      · exact leads_raised
      · exact .settled (.ok _) fun o ho => by rw [← Except.ok.inj ho]; rfl
      · exact leads_to ⟨rfl, rfl⟩ rfl
  | claiming | placing =>
    obtain ⟨rfl, rfl⟩ := h
    exact leads_fenced rfl ⟨raced_at, rfl⟩ fun c' hid => ⟨⟨hid, rfl⟩, rfl⟩
  | resolving c f =>
    obtain ⟨rfl, rfl⟩ := h
    rw [turn]
    cases told.targetTip <;> exact leads_to ⟨rfl, rfl⟩ rfl
  | revalidating c _ f =>
    obtain ⟨rfl, rfl⟩ := h
    rw [turn, revalidatingTurn]
    split
    · exact leads_to ⟨rfl, rfl⟩ rfl
    · split <;> exact leads_to ⟨rfl, rfl⟩ rfl
  | basing c _ f =>
    obtain ⟨rfl, rfl⟩ := h
    rw [turn, basingTurn]
    split <;> exact leads_to ⟨rfl, rfl⟩ rfl
  | classifying c _ f =>
    obtain ⟨rfl, rfl⟩ := h
    rw [turn, classifyingTurn]
    split <;> exact leads_to ⟨rfl, rfl⟩ rfl
  | preparing c _ _ f =>
    obtain ⟨rfl, rfl⟩ := h
    rw [turn, preparingTurn]
    split <;> exact leads_to ⟨rfl, rfl⟩ rfl
  | merging c _ _ f =>
    obtain ⟨rfl, rfl⟩ := h
    rw [turn, mergingTurn]
    split <;> exact leads_to ⟨rfl, rfl⟩ rfl
  | heading c _ _ f =>
    obtain ⟨rfl, rfl⟩ := h
    rw [turn, headingTurn]
    split <;> exact leads_to ⟨rfl, rfl⟩ rfl
  | recording c _ _ _ f =>
    obtain ⟨rfl, rfl⟩ := h
    refine leads_fenced rfl ⟨raced_at, rfl⟩ fun c' hid => ?_
    split <;> exact ⟨⟨hid, rfl⟩, rfl⟩
  | testing c _ _ _ f =>
    obtain ⟨rfl, rfl⟩ := h
    rw [turn, testingTurn]
    split
    · exact leads_to ⟨rfl, rfl, by rintro _ ⟨⟩⟩ rfl
    · exact leads_to ⟨rfl, rfl⟩ rfl
    · split
      · exact leads_to ⟨rfl, rfl, by rintro _ ⟨⟩⟩ rfl
      · exact leads_to ⟨rfl, rfl⟩ rfl
      · exact leads_to ⟨rfl, rfl⟩ rfl
  | evidencing c _ _ _ _ f =>
    obtain ⟨rfl, rfl⟩ := h
    rw [turn, evidencingTurn]
    split
    · exact leads_to ⟨rfl, rfl, by rintro _ ⟨⟩⟩ rfl
    · exact leads_to ⟨rfl, rfl⟩ rfl
    · split
      · exact leads_to ⟨rfl, rfl, by rintro _ ⟨⟩⟩ rfl
      · refine leads_fenced rfl ⟨raced_at, rfl⟩ fun c' hid => ?_
        split <;> exact ⟨⟨hid, rfl⟩, rfl⟩
  | closing | marking =>
    obtain ⟨rfl, rfl⟩ := h
    refine leads_fenced rfl ⟨⟨rfl, rfl⟩, rfl⟩ fun c' hid => ⟨⟨rfl, rfl, ?_⟩, rfl⟩
    intro o ho
    rw [← Except.ok.inj ho]
    exact hid
  | rereading c f =>
    obtain ⟨rfl, rfl⟩ := h
    refine leads_to ⟨rfl, rfl, fun o ho => ?_⟩ rfl
    rw [← Except.ok.inj ho]
    exact current_id
  | lost c f =>
    obtain ⟨rfl, rfl⟩ := h
    exact leads_to raced_at rfl
  | releasing c result f =>
    obtain ⟨rfl, rfl, hid⟩ := h
    exact .settled result hid
  | _ => exact h.elim

/-! ### What a pass works through -/

def Outcome.stops (o : Outcome) : Bool :=
  match o.state with
  | .integrated | .stale => false
  | .conflicted | .failed => true
  | .pending | .ready | .integrating | .blocked => o.locked

theorem integrated_queue {o : Outcome} {done : List Outcome} {rest : List IntegrationCandidate} :
    integrated o (.queue done rest) =
      if o.stops = true then .leaving (done ++ [o]) none
      else nextIntegration (done ++ [o]) rest := by
  rw [integrated, Outcome.stops]
  cases o.state <;> rfl

/-- What a pass has done to a queue: it has come through it from the front, up to its end or to an
outcome that stops it. -/
structure Worked (ids : List String) (done : List Outcome) : Prop where
  front : done.map (·.candidateId) <+: ids
  ends : done.map (·.candidateId) = ids ∨ ∃ o ∈ done, o.stops = true

/-- The point is one of a pass that works through these candidates, once they are in order. -/
def Point.Works (ids : List String) : Point → Prop
  | .blocking _ queue => queue.map (·.id) = ids
  | .leaving done none | .returned (.ok done) => Worked ids done
  | .leaving _ (some _) | .returned (.error _) | .crashed => True
  | p => ∃ id done rest, p.At id (.queue done rest) ∧
      done.map (·.candidateId) ++ id :: rest.map (·.id) = ids

section

variable {ids : List String} {done : List Outcome} {rest : List IntegrationCandidate}
  {s : System} {a : Act} {as : List Act} {k : ℕ} {call : Call}

theorem works_of_at (h : p.At id (.queue done rest))
    (hids : done.map (·.candidateId) ++ id :: rest.map (·.id) = ids) : p.Works ids := by
  cases p with
  | fetching | acquiring | claiming | resolving | revalidating | basing | classifying | preparing
  | placing | merging | heading | recording | testing | evidencing | closing | marking | rereading
  | lost | releasing => exact ⟨id, done, rest, h, hids⟩
  | _ => exact h.elim

theorem works_nextIntegration
    (hids : done.map (·.candidateId) ++ rest.map (·.id) = ids) :
    (nextIntegration done rest).Works ids := by
  cases rest with
  | nil =>
    rw [List.map_nil, List.append_nil] at hids
    exact ⟨⟨[], by rw [List.append_nil, hids]⟩, .inl hids⟩
  | cons c rest => exact ⟨c.id, done, rest, ⟨rfl, rfl⟩, hids⟩

/-- An integration of the queue that is over. -/
theorem works_settled {result : Except Fault Outcome}
    (hid : ∀ o, result = .ok o → o.candidateId = id)
    (hids : done.map (·.candidateId) ++ id :: rest.map (·.id) = ids) :
    (settled (.queue done rest) result).Works ids := by
  cases result with
  | error e => trivial
  | ok o =>
    have hdone : (done ++ [o]).map (·.candidateId) ++ rest.map (·.id) = ids := by
      rw [List.map_append, List.map_singleton, hid o rfl, List.append_assoc]
      exact hids
    rw [settled, integrated_queue]
    split
    next hstops =>
      refine ⟨⟨_, hdone⟩, .inr ⟨o, ?_, hstops⟩⟩
      exact List.mem_append_right done (List.mem_singleton_self o)
    · exact works_nextIntegration hdone

/-- **A step of a pass that works through a queue.** -/
theorem works_turn (h : p.Works ids) : (turn q db told op p).point.Works ids := by
  have hat : ∀ id done rest, p.At id (.queue done rest) →
      done.map (·.candidateId) ++ id :: rest.map (·.id) = ids →
      (turn q db told op p).point.Works ids := by
    intro id done rest hp hids
    have hleads : Leads id (.queue done rest) p.stage (turn q db told op p).point :=
      leads_turn hp
    generalize (turn q db told op p).point = p' at hleads
    cases hleads with
    | goes hat _ => exact works_of_at hat hids
    | settled result hid => exact works_settled hid hids
  cases p with
  | blocking members queue =>
    cases members with
    | nil => exact works_nextIntegration h
    | cons => exact h
  | leaving done raises =>
    cases raises with
    | none => exact h
    | some e => trivial
  | returned result => exact h
  | crashed => trivial
  | _ =>
    obtain ⟨id, done, rest, hp, hids⟩ := h
    exact hat id done rest hp hids

/-- What becomes of a call in a step of the system. -/
theorem call_step (hcall : s.calls k = some call) :
    (∀ told, a ≠ .next k told) ∧ (step q s a).calls k = some call ∨
      (∃ told, a = .next k told ∧
        (step q s a).calls k = some ⟨call.op, (turn q s.toDb told call.op call.point).point⟩) ∨
      (step q s a).calls k = some ⟨call.op, .crashed⟩ := by
  have hother : ∀ {k' : ℕ} {f : Option Call}, k ≠ k' →
      Function.update s.calls k' f k = some call := by
    intro k' f hk
    rw [Function.update_of_ne hk]
    exact hcall
  cases a with
  | start k' op =>
    refine Or.inl ⟨by rintro _ ⟨⟩, ?_⟩
    rw [step]
    split
    next hnone =>
      refine hother ?_
      rintro rfl
      rw [hcall] at hnone
      cases hnone
    · exact hcall
  | next k' told =>
    rw [step]
    by_cases hk : k = k'
    · obtain rfl := hk
      rw [hcall]
      exact Or.inr (.inl ⟨told, rfl, Function.update_self ..⟩)
    · refine Or.inl ⟨fun told' heq => hk (Act.next.inj heq).1.symm, ?_⟩
      split
      · exact hcall
      · exact hother hk
  | crash k' =>
    rw [step]
    by_cases hk : k = k'
    · obtain rfl := hk
      rw [hcall]
      exact Or.inr (.inr (Function.update_self ..))
    · refine Or.inl ⟨by rintro _ ⟨⟩, ?_⟩
      split
      · exact hcall
      · exact hother hk
  | writeJob | acquire | release | reclaim | waits => exact Or.inl ⟨by rintro _ ⟨⟩, hcall⟩

/-- **A pass works through its queue**, whatever happens meanwhile. -/
theorem works_run (hcall : s.calls k = some call) (hworks : call.point.Works ids) :
    ∃ p, (Runs.run (step q) s as).calls k = some ⟨call.op, p⟩ ∧ p.Works ids := by
  refine Runs.run_always
    (I := fun s : System => ∃ p, s.calls k = some ⟨call.op, p⟩ ∧ p.Works ids) ?_ ⟨_, hcall, hworks⟩
  rintro s a ⟨p, hp, hworks⟩
  rcases call_step hp with ⟨-, h⟩ | ⟨told, -, h⟩ | h
  · exact ⟨p, h, hworks⟩
  · exact ⟨_, h, works_turn hworks⟩
  · exact ⟨_, h, trivial⟩

end

/-! ### A queue -/

/-- A queue with readable names, with an injected plan builder or without. -/
def readableQueue (planBuilder : Bool) : Queue where
  config := readable
  canonicalRepo repository := repository
  worktreePath _ _ := "integration"
  macKey := some "key"
  hmac _ _ := "mac"
  sha256 _ := "sha256"
  planBuilder := planBuilder
  inventory := ⟨[], [], [], [], [], ⟨PyStr.ofString "tests", by decide⟩, "inventory"⟩
  policy := ⟨[], [], [], [], [], [], [], ⟨⟨[], false⟩, none⟩, ⟨⟨[], false⟩, none⟩, "policy"⟩
  riskClass _ := none

/-- A job that has ended well, and may be enqueued. -/
def doneJob (id : String) : SupervisorJob :=
  { leased id with terminal := some "DONE", expectedHead := some "abcdef1" }

/-- Jobs that are done, and one under a lease. -/
def doneJobs (done : List String) (id : String) : Option SupervisorJob :=
  if id ∈ done then some (doneJob id) else if id = "holder" then some (leased id) else none

/-- All goes well: the merge is clean, and the tests pass. -/
def smooth : Told where
  targetTip := some "1111111"
  mergeBase := some "1111111"
  addWorktree := true
  head := some "2222222"
  changedPaths := [PyStr.ofString "a.py"]
  planned := .plan (some "plan")
  ran := .evidence (.dict [("verdict", .text "DONE"), ("plan_hash", .text "plan"),
    ("evidence_mac", .text "mac")])

/-- A call begins, and takes so many steps. -/
def Op.runs (op : Op) (k n : ℕ) : List Act :=
  .start k op :: List.replicate n (.next k smooth)

def enqueued (k : ℕ) (job : String) (dependsOn : Option String) : List Act :=
  (Op.enqueue job "main" dependsOn 0).runs k 2

/-- A pass takes so many steps. -/
def passed (k n : ℕ) : List Act := (Op.process "repo" "main" ("holder", 1) true).runs k n

end Calls

end MergeQueue

end ArgentTeam
