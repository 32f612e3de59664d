import ArgentTeam.Broker.Snapshots
import ArgentTeam.MergeQueue.Attempt

/-!
# What a request is bound to

The merge queue, the broker and any number of calls of `create_request` run on the same tables. A
call reads the candidate that its provenance names, the source job and the findings, each on its
own, and inserts its row at last; and a candidate that it has found INTEGRATED keeps its row for
good. So the row of a request always names an INTEGRATED candidate, the source job of this
candidate, and its integrated head (`Rooted`). Its repository is a third copy, which the call takes
from its own arguments: it is the candidate's exactly as long as no call inserts a row for another
repository than the one its provenance is about (`requests_bound_iff`).
-/

namespace ArgentTeam

open MergeQueue (getIntegrationCandidate)

namespace Broker

namespace Creation

/-! ### Calls of `create_request` -/

/-- What a call has read of the store when it checks its arguments. -/
def snapshot (r : CreateRequest) (candidate : Option IntegrationCandidate)
    (job : Option SupervisorJob) (findings : Table Finding Finding.clash) : World where
  db := { Db.empty with
    core := { Db.empty.core with findings := findings }
    jobs := { Db.empty.jobs with
      integrationCandidates := ⟨candidate.toList, by cases candidate <;> simp⟩
      supervisorJobs := ⟨job.toList.map fun j => { j with id := r.provenance.sourceJobId },
        by cases job <;> simp⟩ } }
  clock := ⟨fun _ => 0, fun _ _ _ => le_rfl⟩
  reads := 0
  uuids := Uuid.numbered
  draws := 0

/-- Where a call of `create_request` stands. -/
inductive Stage
  /-- It is about to read the candidate. -/
  | verifying
  /-- It is about to read the source job. -/
  | sourced (candidate : Option IntegrationCandidate)
  /-- It is about to read the findings, and to check its arguments. -/
  | judging (candidate : Option IntegrationCandidate) (job : Option SupervisorJob)
  | inserting (v : Validated) (expiresAt : Time)
  | ended

/-- A call of `create_request`. -/
structure Call where
  request : CreateRequest
  stage : Stage

/-- Where a call goes. -/
def Call.next (b : Broker) (db : BrokerDb) (findings : Table Finding Finding.clash) (c : Call) :
    Stage :=
  match c.stage with
  | .verifying => .sourced (getIntegrationCandidate db.toDb c.request.provenance.sourceCandidateId)
  | .sourced candidate => .judging candidate (db.jobs c.request.provenance.sourceJobId)
  | .judging candidate job =>
    match (validate b c.request (snapshot c.request candidate job findings)).1 with
    | .ok v => .inserting v (db.now + c.request.expiryTtlSeconds.toNat * 1000000)
    | .error _ => .ended
  | .inserting .. | .ended => .ended

/-! ### The system -/

/-- The tables, with the calls of the broker, of the merge queue and of `create_request`. -/
structure Joint where
  broker : Calls.System
  queueCalls : ℕ → Option MergeQueue.Calls.Call
  queueLog : List (ℕ × MergeQueue.Calls.Note)
  /-- The calls of `create_request`. -/
  creations : ℕ → Option Call
  keys : List String

namespace Joint

def queue (s : Joint) : MergeQueue.Calls.System where
  toDb := s.broker.toDb
  calls := s.queueCalls
  log := s.queueLog

/-- The merge queue has taken a step. -/
def setQueue (s : Joint) (queue : MergeQueue.Calls.System) : Joint :=
  { s with
    broker := s.broker.setQueue queue.toDb
    queueCalls := queue.calls
    queueLog := queue.log }

/-- A call of `create_request` stands at a stage. -/
def goTo (s : Joint) (k : ℕ) (r : CreateRequest) (stage : Stage) : Joint :=
  { s with creations := Function.update s.creations k (some ⟨r, stage⟩) }

end Joint

/-- The act inserts a row. -/
def creates : Calls.Act → Bool
  | .create .. => true
  | _ => false

/-- What happens. -/
inductive Act
  /-- A step of the merge queue, of its jobs or of its locks. -/
  | queue (a : MergeQueue.Calls.Act)
  /-- A step of the broker; rows are inserted by `create_request` alone. -/
  | broker (a : Calls.Act) (h : creates a = false)
  /-- `create_request` is called. -/
  | request (k : ℕ) (r : CreateRequest)
  /-- A call of it takes its next step; these are the findings there are. -/
  | next (k : ℕ) (findings : Table Finding Finding.clash)
  /-- A call of it stops for good. -/
  | crash (k : ℕ)

/-- The row a call is about to insert, if neither its identifier nor its key is taken. -/
def Joint.insertion (d : Driver) (s : Joint) (c : Call) : Option (Validated × Time) :=
  match c.stage with
  | .inserting v expiresAt =>
    if s.broker.requests (Calls.newRow d c.request v expiresAt).requestId = none ∧
        c.request.idempotencyKey ∉ s.keys then some (v, expiresAt)
    else none
  | .verifying | .sourced _ | .judging .. | .ended => none

/-- The tables once a call of `create_request` has taken its step. -/
def Joint.insert (d : Driver) (s : Joint) (c : Call) : Joint :=
  match s.insertion d c with
  | none => s
  | some (v, expiresAt) =>
    { s with
      broker := Calls.step d s.broker (.create c.request v expiresAt)
      keys := c.request.idempotencyKey :: s.keys }

def step (q : MergeQueue.Calls.Queue) (d : Driver) (s : Joint) : Act → Joint
  | .queue a => s.setQueue (MergeQueue.Calls.step q s.queue a)
  | .broker a _ => { s with broker := Calls.step d s.broker a }
  | .request k r => if (s.creations k).isNone then s.goTo k r .verifying else s
  | .next k findings =>
    match s.creations k with
    | none => s
    | some c =>
      (s.insert d c).goTo k c.request (c.next d.toBroker s.broker.toBrokerDb findings)
  | .crash k =>
    match s.creations k with
    | none => s
    | some c => s.goTo k c.request .ended

/-- Nothing has been enqueued, and nothing requested. -/
def initial (now : Time) (jobs : String → Option SupervisorJob)
    (locks : String → Option MergeQueue.Holder) (approvals : String → Option ApprovalRow) :
    Joint where
  broker := Calls.initial ⟨now, jobs, locks, []⟩ approvals
  queueCalls := fun _ => none
  queueLog := []
  creations := fun _ => none
  keys := []

/-- The system after a run. -/
def run (q : MergeQueue.Calls.Queue) (d : Driver) (now : Time)
    (jobs : String → Option SupervisorJob)
    (locks : String → Option MergeQueue.Holder) (approvals : String → Option ApprovalRow)
    (as : List Act) : Joint := Runs.run (step q d) (initial now jobs locks approvals) as

/-! ### What a row is bound to -/

/-- The parameter that has to be the integrated head. -/
def shaKey (action : String) : Option String :=
  if action = "push_feature_branch" then some "sha"
  else if action = "create_pull_request" then some "head_sha"
  else none

/-- A row is bound to a candidate, up to the repository. -/
structure Bound (db : BrokerDb) (row : RequestRow) (candidate : IntegrationCandidate) :
    Prop where
  known : getIntegrationCandidate db.toDb row.sourceCandidateId = some candidate
  integrated : candidate.state = .integrated
  sourceJob : row.sourceJobId = candidate.sourceJobId
  head : ∀ key ∈ shaKey row.action, ∃ head, candidate.integratedHead = some head ∧
    Json.getD row.parameters.entries key .null = .text head

/-- Every request is bound to what was integrated. -/
def RequestsBound (s : Joint) : Prop :=
  ∀ id row, s.broker.requests id = some row →
    ∃ candidate, Bound s.broker.toBrokerDb row candidate ∧ row.repository = candidate.repository

variable {q : MergeQueue.Calls.Queue} {b : Broker} {d : Driver} {r : CreateRequest} {v : Validated}
  {db db' : BrokerDb} {row row' : RequestRow} {candidate : IntegrationCandidate}
  {cand : Option IntegrationCandidate} {job : Option SupervisorJob}
  {findings : Table Finding Finding.clash} {s : Joint} {a : Act} {k : ℕ} {c : Call} {id : String}

/-! ### What a check of the arguments has found -/

theorem le_self (s : PyStr) : PyStr.le s s := by
  induction s with
  | nil => rfl
  | cons c s ih => simp [PyStr.le, ih]

/-- A field is found in a list into which another one has been sorted as if that stood in front. -/
theorem find?_orderedInsert (key : PyStr) (f : PyStr × Json) (fields : List (PyStr × Json)) :
    (List.orderedInsert (fun f g : PyStr × Json => PyStr.le f.1 g.1) f fields).find?
      (fun g => g.1 = key) = (f :: fields).find? fun g => g.1 = key := by
  induction fields with
  | nil => rfl
  | cons g fields ih =>
    rw [List.orderedInsert_cons]
    split
    · rfl
    next hle =>
      have hne : f.1 ≠ g.1 := by
        intro heq
        rw [heq] at hle
        exact hle (le_self g.1)
      rw [List.find?_cons, ih, List.find?_cons, List.find?_cons, List.find?_cons]
      by_cases hf : f.1 = key
      · simp [hf, show g.1 ≠ key from fun hg => hne (hf.trans hg.symm)]
      · simp [hf]

/-- Sorting a dictionary sorts what is found under a key. -/
theorem get?_sorted (fields : List (PyStr × Json)) (key : String) :
    Json.get? (Json.obj fields).sorted.entries key = (Json.get? fields key).map Json.sorted := by
  rw [Json.sorted, Json.entries, Json.get?, Json.get?, Json.sortedFields_eq_map]
  induction fields with
  | nil => rfl
  | cons f fields ih =>
    rw [List.map_cons, List.insertionSort_cons, find?_orderedInsert, List.find?_cons,
      List.find?_cons]
    by_cases hf : f.1 = PyStr.ofString key
    · simp [hf]
    · simp only [hf, decide_false]
      exact ih

/-- What a call has found when it is about to insert its row: the candidate of its provenance. -/
structure Verified (db : BrokerDb) (r : CreateRequest) (v : Validated)
    (candidate : IntegrationCandidate) : Prop where
  known : getIntegrationCandidate db.toDb r.provenance.sourceCandidateId = some candidate
  integrated : candidate.state = .integrated
  sourceJob : r.provenance.sourceJobId = candidate.sourceJobId
  repository : r.provenance.repository = candidate.repository
  head : ∀ key ∈ shaKey r.action, ∃ head, candidate.integratedHead = some head ∧
    Json.getD v.parameters.entries key .null = .text head

/-- The provenance is about the candidate that was read. -/
theorem returns_verifyProvenance {w : World} {u : Unit} {w' : World}
    (h : (verifyProvenance b r.provenance).Returns w u w') :
    ∃ candidate, getCandidate w.db r.provenance.sourceCandidateId = some candidate ∧
      candidate.state = .integrated ∧ r.provenance.sourceJobId = candidate.sourceJobId ∧
      r.provenance.repository = candidate.repository ∧
      candidate.integratedHead = some r.provenance.integratedHead := by
  simp only [verifyProvenance, Prog.returns_bind, Prog.returns_require, Prog.returns_read,
    Prog.returns_orRaise, and_assoc, exists_and_left, exists_eq_left', exists_const] at h
  obtain ⟨-, -, -, candidate, hget, hstate, hjob, -, hhead, job, -, -, -, -, -, hrepository, -⟩ := h
  exact ⟨candidate, hget, hstate, hjob.symm, hrepository, hhead⟩

/-- The parameter that has to be the integrated head is, and stays it when it is stored. -/
theorem head_of_bindMutation {params : List (PyStr × Json)} {head : String}
    {w w' : World} {u : Unit}
    (h : (bindMutation r.action params head).Returns w u w') :
    ∀ key ∈ shaKey r.action, Json.getD (Json.obj params).sorted.entries key .null = .text head := by
  intro key hkey
  have hfound : Json.getD params key .null = .text head := by
    unfold shaKey at hkey
    unfold bindMutation at h
    split at h
    next haction =>
      rw [if_pos haction] at hkey
      obtain rfl := Option.some.inj hkey
      exact (Prog.returns_require.mp h).1
    next haction =>
      rw [if_neg haction] at hkey
      split at h
      next haction =>
        rw [if_pos haction] at hkey
        obtain rfl := Option.some.inj hkey
        exact (Prog.returns_require.mp h).1
      next haction =>
        rw [if_neg haction] at hkey
        cases hkey
  rw [Json.getD, get?_sorted]
  rw [Json.getD] at hfound
  cases hget : Json.get? params key with
  | none =>
    rw [hget] at hfound
    cases hfound
  | some x =>
    rw [hget] at hfound
    rw [show x = .text head from hfound]
    rfl

/-- The checks that a request passes. -/
theorem of_validate {w : World} (h : (validate b r w).1 = .ok v) :
    ∃ candidate, getCandidate w.db r.provenance.sourceCandidateId = some candidate ∧
      candidate.state = .integrated ∧ r.provenance.sourceJobId = candidate.sourceJobId ∧
      r.provenance.repository = candidate.repository ∧
      ∀ key ∈ shaKey r.action, ∃ head, candidate.integratedHead = some head ∧
        Json.getD v.parameters.entries key .null = .text head := by
  obtain ⟨w', hreturns⟩ : ∃ w', (validate b r).Returns w v w' := ⟨_, Prog.returns_of_fst h⟩
  simp only [validate, Prog.returns_bind, Prog.returns_require, Prog.returns_orRaise,
    Prog.returns_pure, Prog.returns_whenSome, Prog.not_returns_raise, boundedJson, and_false,
    exists_false, false_or, and_assoc, exists_and_left, exists_eq_left', exists_const] at hreturns
  obtain ⟨taxonomy, -, -, -, -, -, -, -, -, -, -, _, w₁, hprovenance, params, w₂, -, -, -, _, w₃,
    hbind, -, -, rfl, -⟩ := hreturns
  obtain ⟨candidate, hget, hstate, hjob, hrepository, hhead⟩ := returns_verifyProvenance hprovenance
  exact ⟨candidate, hget, hstate, hjob, hrepository,
    fun key hkey => ⟨_, hhead, head_of_bindMutation hbind key hkey⟩⟩

/-- What a check has found in what the call has read. -/
theorem verified_of_validate
    (hkeep : ∀ x, cand = some x → x.state = .integrated →
      getIntegrationCandidate db.toDb r.provenance.sourceCandidateId = some x)
    (h : (validate b r (snapshot r cand job findings)).1 = .ok v) :
    ∃ candidate, Verified db r v candidate := by
  obtain ⟨candidate, hget, hstate, hjob, hrepository, hhead⟩ := of_validate h
  have hcand : cand = some candidate := by
    have hmem := (Table.mem_of_lookup hget).1
    simpa [snapshot, eq_comm] using hmem
  exact ⟨candidate, hkeep candidate hcand hstate, hstate, hjob, hrepository, hhead⟩

theorem Verified.bound (h : Verified db r v candidate) (d : Driver) (expiresAt : Time) :
    Bound db (Calls.newRow d r v expiresAt) candidate :=
  ⟨h.known, h.integrated, h.sourceJob, h.head⟩

/-! ### What stays -/

def KeepsIntegrated (db db' : BrokerDb) : Prop :=
  ∀ id row, getIntegrationCandidate db.toDb id = some row → row.state = .integrated →
    getIntegrationCandidate db'.toDb id = some row

theorem KeepsIntegrated.of_candidates (h : db'.candidates = db.candidates) :
    KeepsIntegrated db db' :=
  fun _ _ hrow _ => (MergeQueue.Calls.getIntegrationCandidate_congr h).trans hrow

theorem Verified.keeps (h : Verified db r v candidate) (hkeep : KeepsIntegrated db db') :
    Verified db' r v candidate :=
  { h with known := hkeep _ _ h.known h.integrated }

theorem Bound.keeps (h : Bound db row candidate) (hkeep : KeepsIntegrated db db') :
    Bound db' row candidate :=
  { h with known := hkeep _ _ h.known h.integrated }

/-- A row that has moved on is bound to the same candidate. -/
theorem Bound.later (h : Bound db row candidate) (hlater : Calls.Later row row') :
    Bound db row' candidate ∧ row'.repository = row.repository := by
  have hasked := hlater.1
  have hid : row'.sourceCandidateId = row.sourceCandidateId :=
    (congrArg ExternalActionRequest.sourceCandidateId hasked :)
  have hjob : row'.sourceJobId = row.sourceJobId :=
    (congrArg ExternalActionRequest.sourceJobId hasked :)
  have haction : row'.action = row.action := (congrArg ExternalActionRequest.action hasked :)
  have hparameters : row'.parameters = row.parameters :=
    (congrArg ExternalActionRequest.parameters hasked :)
  refine ⟨⟨by rw [hid]; exact h.known, h.integrated, by rw [hjob]; exact h.sourceJob, ?_⟩,
    (congrArg ExternalActionRequest.repository hasked :)⟩
  rw [haction, hparameters]
  exact h.head

/-- What a call of `create_request` has read of a candidate that was INTEGRATED then, and what it
has found, still holds. -/
def Call.Informed (db : BrokerDb) (c : Call) : Prop :=
  match c.stage with
  | .sourced cand | .judging cand _ => ∀ x, cand = some x → x.state = .integrated →
    getIntegrationCandidate db.toDb c.request.provenance.sourceCandidateId = some x
  | .inserting v _ => ∃ candidate, Verified db c.request v candidate
  | .verifying | .ended => True

theorem Call.Informed.keeps (h : c.Informed db) (hkeep : KeepsIntegrated db db') :
    c.Informed db' := by
  obtain ⟨r, stage⟩ := c
  cases stage with
  | sourced cand | judging cand job => exact fun x hx hstate => hkeep _ _ (h x hx hstate) hstate
  | inserting v expiresAt =>
    obtain ⟨candidate, hverified⟩ := h
    exact ⟨candidate, hverified.keeps hkeep⟩
  | verifying | ended => trivial

theorem Call.Informed.next (h : c.Informed db) :
    Call.Informed db ⟨c.request, c.next b db findings⟩ := by
  obtain ⟨r, stage⟩ := c
  cases stage with
  | verifying => exact fun x hx _ => hx
  | sourced cand => exact h
  | judging cand job =>
    rw [Call.next]
    dsimp only
    cases hcheck : (validate b r (snapshot r cand job findings)).1 with
    | error e => trivial
    | ok v => exact verified_of_validate h hcheck
  | inserting | ended => trivial

/-! ### The steps of the broker and of the queue -/

theorem candidates_transitionRow {src dst : RequestState} {revision : ℕ}
    {cols : Columns} (h : transitionRow db id src dst revision cols = .ok db') :
    db'.candidates = db.candidates := by
  obtain ⟨r, -, -, -, -, rfl⟩ := transitionRow_eq_ok h
  rfl

theorem candidates_attempt {src dst : RequestState} {revision : ℕ} {cols : Columns}
    {x : Except Fault BrokerDb} {p : Calls.Point}
    (hx : ∀ db', x = .ok db' → transitionRow db id src dst revision cols = .ok db') :
    (Calls.Turn.attempt db x p).db.candidates = db.candidates := by
  rcases Calls.attempt_cases (x := x) (p := p) with heq | heq
  · rw [heq]
  · exact candidates_transitionRow (hx _ heq)

theorem candidates_turn {call : Calls.Call} {answer : Answer} {seen : Observed} {p : Calls.Point} :
    (Calls.turn d db k call answer seen p).db.candidates = db.candidates := by
  cases p with
  | reading =>
    rw [Calls.turn, Calls.readingTurn]
    split
    · rfl
    · split <;> rfl
  | expiry row =>
    rw [Calls.turn, Calls.expiryTurn]
    split <;> rfl
  | expiring | denying => exact candidates_attempt fun _ hok => hok
  | approval row =>
    rw [Calls.turn]
    cases call.op.approvalId? with
    | none => rfl
    | some approvalId =>
      rw [Option.elim_some, Calls.approvalTurn]
      split <;> rfl
  | approvalExpiry | binding =>
    rw [Calls.turn]
    split <;> rfl
  | consuming row ap job now =>
    rw [Calls.turn]
    cases call.op.approvalId? with
    | none => rfl
    | some approvalId =>
      rw [Option.elim_some, Calls.consumingTurn]
      split <;> rfl
  | authorizing row decision =>
    rw [Calls.turn, Calls.authorizingTurn]
    split
    next hok => exact candidates_transitionRow hok
    · rfl
  | locking row =>
    rw [Calls.turn]
    cases call.op.holder? with
    | none => rfl
    | some h =>
      rw [Option.elim_some, Calls.lockingTurn]
      split
      · rfl
      · rfl
      next hacq =>
        have hkeep := MergeQueue.Calls.candidates_acquire hacq
        split <;> exact hkeep
  | opening row =>
    rw [Calls.turn]
    cases call.op.holder? with
    | none => rfl
    | some h =>
      rw [Option.elim_some, Calls.openingTurn]
      split
      next hok => exact candidates_transitionRow (transitionRowAuthoritative_eq_ok hok).2.2
      · rfl
  | preparing row =>
    rw [Calls.turn, Calls.preparingTurn]
    split
    · rfl
    · split
      · rfl
      · split <;> rfl
  | settling row a =>
    rw [Calls.turn]
    cases call.op.holder? with
    | none => rfl
    | some h =>
      rw [Option.elim_some, Calls.settlingTurn]
      split
      · rfl
      · exact candidates_attempt fun _ hok => (transitionRowAuthoritative_eq_ok hok).2.2
  | observing row =>
    rw [Calls.turn]
    cases seen.observation? <;> rfl
  | recording row o =>
    rw [Calls.turn]
    cases call.op.holder? with
    | none => rfl
    | some h =>
      rw [Option.elim_some, Calls.recordingTurn]
      split
      · rfl
      · exact candidates_attempt fun _ hok => (transitionRowAuthoritative_eq_ok hok).2.2
  | releasing row =>
    rw [Calls.turn]
    cases call.op.holder? with
    | none => rfl
    | some h => exact MergeQueue.Calls.candidates_release
  | policy | dispatching | returned => rfl

theorem candidates_writeApproval (op : Calls.ApprovalOp) :
    (Calls.writeApproval db op).candidates = db.candidates := by
  have hpatch : ∀ id p f, (Calls.patchApproval db id p f).candidates = db.candidates := by
    intro id p f
    unfold Calls.patchApproval
    split <;> rfl
  cases op with
  | insert ap =>
    rw [Calls.writeApproval]
    split <;> rfl
  | _ => exact hpatch ..

theorem candidates_step (t : Calls.System) (a : Calls.Act) :
    (Calls.step d t a).candidates = t.candidates := by
  cases a with
  | create | start | crash =>
    rw [Calls.step]
    split <;> rfl
  | next c answer seen =>
    rw [Calls.step]
    split
    · rfl
    · exact candidates_turn
  | approval op => exact candidates_writeApproval op
  | acquire name h =>
    rw [Calls.step]
    cases hacq : MergeQueue.tryAcquireActionLock t.toDb name h with
    | none => rfl
    | some r => exact MergeQueue.Calls.candidates_acquire hacq
  | release => exact MergeQueue.Calls.candidates_release
  | reclaim => exact MergeQueue.Calls.candidates_reclaim
  | writeJob | waits => rfl

/-! ### The system -/

/-- What holds of the system at any time: every row is bound to a candidate, up to its
repository. -/
structure Rooted (q : MergeQueue.Calls.Queue) (s : Joint) : Prop where
  queue : MergeQueue.Calls.Sound q s.queue
  /-- The calls of `create_request` have read what there is. -/
  informed : ∀ k c, s.creations k = some c → c.Informed s.broker.toBrokerDb
  rows : ∀ id row, s.broker.requests id = some row →
    ∃ candidate, Bound s.broker.toBrokerDb row candidate

/-- A step that creates no request leaves no row that was not there. -/
theorem requests_step_eq_none {t : Calls.System} {a : Calls.Act}
    (ha : creates a = false) (hnone : t.requests id = none) :
    (Calls.step d t a).requests id = none := by
  cases a with
  | create => cases ha
  | next c answer seen =>
    rw [Calls.step]
    split
    · exact hnone
    next call hcall =>
      rcases Calls.requests_turn d t.toBrokerDb c call answer seen call.point with heq |
        ⟨row, src, dst, cols, fence, -, -, hok⟩
      · exact (congrFun heq id).trans hnone
      · obtain ⟨r, hr, -, -, -, hdb⟩ := transitionRow_eq_ok hok
        have hne : id ≠ call.requestId := by
          rintro rfl
          rw [hnone] at hr
          cases hr
        refine (congrFun (congrArg BrokerDb.requests hdb) id).trans ?_
        exact (Function.update_of_ne hne ..).trans hnone
  | approval op => exact (congrFun (Calls.requests_writeApproval op) id).trans hnone
  | start | crash =>
    rw [Calls.step]
    split <;> exact hnone
  | writeJob | acquire | release | reclaim | waits => exact hnone

/-- The rows after such a step are those there were, or later ones. -/
theorem later_of_step {t : Calls.System} {a : Calls.Act} {row : RequestRow}
    (ha : creates a = false) (hrow : (Calls.step d t a).requests id = some row) :
    ∃ row₀, t.requests id = some row₀ ∧ Calls.Later row₀ row := by
  cases hold : t.requests id with
  | none => cases hrow.symm.trans (requests_step_eq_none ha hold)
  | some row₀ =>
    obtain ⟨row', hrow', hlater⟩ := Calls.rowsLater_step (d := d) t a id row₀ hold
    obtain rfl := Option.mem_unique hrow hrow'
    exact ⟨row₀, rfl, hlater⟩

/-- The request whose row a step inserts. -/
def inserted (d : Driver) (s : Joint) : Act → Option CreateRequest
  | .next k _ => (s.creations k).bind fun c => (s.insertion d c).map fun _ => c.request
  | .queue _ | .broker .. | .request .. | .crash _ => none

/-- Whatever row a step inserts is for the repository that the provenance of its request is
about. -/
def Matched (d : Driver) (s : Joint) (a : Act) : Prop :=
  ∀ r ∈ inserted d s a, r.repository = r.provenance.repository

theorem insertion_eq_some {p : Validated × Time} (h : s.insertion d c = some p) :
    c.stage = .inserting p.1 p.2 ∧
      s.broker.requests (Calls.newRow d c.request p.1 p.2).requestId = none := by
  obtain ⟨r, stage⟩ := c
  cases stage with
  | inserting v expiresAt =>
    rw [Joint.insertion] at h
    dsimp only at h
    split at h
    next hfree =>
      obtain rfl := Option.some.inj h
      exact ⟨rfl, hfree.1⟩
    · cases h
  | verifying | sourced | judging | ended => cases h

/-- What a step does to the rows: it moves those there are, or inserts one for a candidate that
has been verified. -/
inductive Rows (d : Driver) (s : Joint) (a : Act) (requests : String → Option RequestRow) : Prop
  | moves (hnone : inserted d s a = none)
    (hrows : ∀ id row, requests id = some row →
      ∃ row₀, s.broker.requests id = some row₀ ∧ Calls.Later row₀ row)
  | inserts (r : CreateRequest) (v : Validated) (expiresAt : Time)
    (candidate : IntegrationCandidate) (hins : inserted d s a = some r)
    (hverified : Verified s.broker.toBrokerDb r v candidate)
    (hrows : requests = Function.update s.broker.requests (Calls.newRow d r v expiresAt).requestId
      (some (Calls.newRow d r v expiresAt)))
    (hfresh : s.broker.requests (Calls.newRow d r v expiresAt).requestId = none)

/-- The rows of the system, and what is INTEGRATED. -/
theorem Rooted.rows_step (h : Rooted q s) (a : Act) :
    Rows d s a (step q d s a).broker.requests ∧
      KeepsIntegrated s.broker.toBrokerDb (step q d s a).broker.toBrokerDb ∧
      MergeQueue.Calls.Sound q (step q d s a).queue := by
  have hstays : ∀ {s' : Joint}, inserted d s a = none → s'.broker = s.broker →
      s'.queueCalls = s.queueCalls → s'.queueLog = s.queueLog →
      Rows d s a s'.broker.requests ∧ KeepsIntegrated s.broker.toBrokerDb s'.broker.toBrokerDb ∧
        MergeQueue.Calls.Sound q s'.queue := by
    rintro ⟨broker, calls, log, creations, keys⟩ hnone rfl rfl rfl
    exact ⟨.moves hnone fun id row hrow => ⟨row, hrow, .refl row⟩, .of_candidates rfl, h.queue⟩
  cases a with
  | queue a =>
    refine ⟨.moves rfl fun id row hrow => ⟨row, hrow, .refl row⟩, ?_, h.queue.step a⟩
    exact fun id row hrow hstate => h.queue.keeps_integrated hrow hstate
  | broker a ha =>
    have hcandidates : (Calls.step d s.broker a).candidates = s.broker.candidates :=
      candidates_step s.broker a
    exact ⟨.moves rfl fun id row hrow => later_of_step ha hrow, .of_candidates hcandidates,
      h.queue.set _ hcandidates⟩
  | request | crash =>
    rw [step]
    split <;> exact hstays rfl rfl rfl rfl
  | next k findings =>
    rw [step]
    split
    next hnone => exact hstays (by rw [inserted, hnone]; rfl) rfl rfl rfl
    next c hc =>
      have hins : inserted d s (.next k findings) = (s.insertion d c).map fun _ => c.request := by
        rw [inserted, hc]
        rfl
      cases hp : s.insertion d c with
      | none =>
        have hkeep : s.insert d c = s := by
          rw [Joint.insert, hp]
        rw [hkeep]
        exact hstays (by rw [hins, hp]; rfl) rfl rfl rfl
      | some p =>
        obtain ⟨hstage, hfresh⟩ := insertion_eq_some hp
        have hinsert : s.insert d c = { s with
            broker := Calls.step d s.broker (.create c.request p.1 p.2)
            keys := c.request.idempotencyKey :: s.keys } := by
          rw [Joint.insert, hp]
        have hverified := h.informed k c hc
        rw [Call.Informed, hstage] at hverified
        obtain ⟨candidate, hverified⟩ := hverified
        have hcandidates : (Calls.step d s.broker (.create c.request p.1 p.2)).candidates =
            s.broker.candidates := candidates_step s.broker _
        rw [hinsert]
        refine ⟨.inserts c.request p.1 p.2 candidate (by rw [hins, hp]; rfl) hverified ?_ hfresh,
          .of_candidates hcandidates, h.queue.set _ hcandidates⟩
        rw [Joint.goTo, Calls.step, if_pos hfresh]

/-- The calls of `create_request` after a step. -/
theorem creations_step {k : ℕ} {c : Call} (hc : (step q d s a).creations k = some c) :
    s.creations k = some c ∨ c.stage = .verifying ∨ c.stage = .ended ∨
      ∃ c₀ findings, s.creations k = some c₀ ∧
        c = ⟨c₀.request, c₀.next d.toBroker s.broker.toBrokerDb findings⟩ := by
  have hgo : ∀ {s' : Joint} {k' : ℕ} {r : CreateRequest} {stage : Stage},
      s'.creations = s.creations → (s'.goTo k' r stage).creations k = some c →
        s.creations k = some c ∨ k = k' ∧ c = ⟨r, stage⟩ := by
    intro s' k' r stage hsame hc
    by_cases hk : k = k'
    · subst hk
      have hself : (s'.goTo k r stage).creations k = some ⟨r, stage⟩ := Function.update_self ..
      exact .inr ⟨rfl, (Option.mem_unique hself hc).symm⟩
    · rw [← hsame]
      exact .inl ((Function.update_of_ne hk ..).symm.trans hc)
  cases a with
  | queue | broker => exact .inl hc
  | request k' r =>
    rw [step] at hc
    split at hc
    · rcases hgo rfl hc with hc | ⟨-, rfl⟩
      · exact .inl hc
      · exact .inr (.inl rfl)
    · exact .inl hc
  | crash k' =>
    rw [step] at hc
    split at hc
    · exact .inl hc
    · rcases hgo rfl hc with hc | ⟨-, rfl⟩
      · exact .inl hc
      · exact .inr (.inr (.inl rfl))
  | next k' findings =>
    rw [step] at hc
    split at hc
    · exact .inl hc
    next c₀ hc₀ =>
      have hsame : (s.insert d c₀).creations = s.creations := by
        rw [Joint.insert]
        split <;> rfl
      rcases hgo hsame hc with hc | ⟨rfl, rfl⟩
      · exact .inl hc
      · exact .inr (.inr (.inr ⟨c₀, findings, hc₀, rfl⟩))

/-- **Every row stays bound**, up to its repository. -/
theorem Rooted.step (h : Rooted q s) (a : Act) : Rooted q (step q d s a) := by
  obtain ⟨hrows, hkeep, hqueue⟩ := h.rows_step (d := d) a
  refine ⟨hqueue, fun k c hc => ?_, fun id row hrow => ?_⟩
  · rcases creations_step hc with hc | hstage | hstage | ⟨c₀, findings, hc₀, rfl⟩
    · exact (h.informed k c hc).keeps hkeep
    · rw [Call.Informed, hstage]
      trivial
    · rw [Call.Informed, hstage]
      trivial
    · exact (h.informed k c₀ hc₀).next.keeps hkeep
  · cases hrows with
    | moves _ hrows =>
      obtain ⟨row₀, hrow₀, hlater⟩ := hrows id row hrow
      obtain ⟨candidate, hbound⟩ := h.rows id row₀ hrow₀
      exact ⟨candidate, ((hbound.keeps hkeep).later hlater).1⟩
    | inserts r v expiresAt candidate _ hverified hrows hfresh =>
      rw [hrows] at hrow
      by_cases hid : id = (Calls.newRow d r v expiresAt).requestId
      · subst hid
        rw [Function.update_self] at hrow
        obtain rfl := Option.some.inj hrow
        exact ⟨candidate, (hverified.bound d expiresAt).keeps hkeep⟩
      · obtain ⟨candidate, hbound⟩ := h.rows id row ((Function.update_of_ne hid ..).symm.trans hrow)
        exact ⟨candidate, hbound.keeps hkeep⟩

theorem Bound.unique {candidate' : IntegrationCandidate} (h : Bound db row candidate)
    (h' : Bound db row candidate') : candidate' = candidate :=
  Option.mem_unique h'.known h.known

/-- **A step keeps the requests bound exactly if it inserts no row for another repository.** -/
theorem requestsBound_step (h : Rooted q s) (hbound : RequestsBound s) :
    RequestsBound (step q d s a) ↔ Matched d s a := by
  obtain ⟨hrows, hkeep, -⟩ := h.rows_step (d := d) a
  have hold : ∀ id row row₀, s.broker.requests id = some row₀ → Calls.Later row₀ row →
      ∃ candidate, Bound (Creation.step q d s a).broker.toBrokerDb row candidate ∧
        row.repository = candidate.repository := by
    intro id row row₀ hrow₀ hlater
    obtain ⟨candidate, hrow, hrepository⟩ := hbound id row₀ hrow₀
    obtain ⟨hrow', hsame⟩ := (hrow.keeps hkeep).later hlater
    exact ⟨candidate, hrow', hsame.trans hrepository⟩
  cases hrows with
  | moves hnone hrows =>
    refine iff_of_true (fun id row hrow => ?_) fun r hr => ?_
    · obtain ⟨row₀, hrow₀, hlater⟩ := hrows id row hrow
      exact hold id row row₀ hrow₀ hlater
    · rw [hnone] at hr
      cases hr
  | inserts r v expiresAt candidate hins hverified hrows hfresh =>
    have hnew := (hverified.bound d expiresAt).keeps hkeep
    constructor
    · intro hafter r' hr'
      obtain rfl := Option.mem_unique hins hr'
      have hrow : (Creation.step q d s a).broker.requests
          (Calls.newRow d r v expiresAt).requestId = some (Calls.newRow d r v expiresAt) := by
        rw [hrows]
        exact Function.update_self ..
      obtain ⟨candidate', hrow', hrepository⟩ := hafter _ _ hrow
      rw [hnew.unique hrow'] at hrepository
      exact hrepository.trans hverified.repository.symm
    · intro hmatched id row hrow
      rw [hrows] at hrow
      by_cases hid : id = (Calls.newRow d r v expiresAt).requestId
      · subst hid
        rw [Function.update_self] at hrow
        obtain rfl := Option.some.inj hrow
        exact ⟨candidate, hnew, (hmatched r hins).trans hverified.repository⟩
      · exact hold id row row ((Function.update_of_ne hid ..).symm.trans hrow) (.refl row)

/-! ### Runs -/

variable {now : Time} {jobs : String → Option SupervisorJob}
  {locks : String → Option MergeQueue.Holder} {approvals : String → Option ApprovalRow}
  {as : List Act}

theorem rooted_initial : Rooted q (initial now jobs locks approvals) where
  queue :=
    have hsound : MergeQueue.Calls.Sound q (MergeQueue.Calls.run q now jobs locks []) :=
      MergeQueue.Calls.sound_run
    hsound
  informed := by rintro _ _ ⟨⟩
  rows := by rintro _ _ ⟨⟩

theorem rooted_run : Rooted q (run q d now jobs locks approvals as) :=
  Runs.run_always (fun _ a h => h.step a) rooted_initial

/-- **Requests stay bound to what was integrated** exactly as long as no call of `create_request`
inserts a row for another repository than the one its provenance is about. -/
theorem requests_bound_iff (q : MergeQueue.Calls.Queue) (d : Driver) (now : Time)
    (jobs : String → Option SupervisorJob) (locks : String → Option MergeQueue.Holder)
    (approvals : String → Option ApprovalRow) (as : List Act) :
    (∀ bs cs, as = bs ++ cs → RequestsBound (run q d now jobs locks approvals bs)) ↔
      Runs.Along (step q d) (Matched d) (initial now jobs locks approvals) as := by
  have hboth : (∀ bs cs, as = bs ++ cs →
      Rooted q (run q d now jobs locks approvals bs) ∧
        RequestsBound (run q d now jobs locks approvals bs)) ↔
      Runs.Along (step q d) (Matched d) (initial now jobs locks approvals) as :=
    Runs.forall_split_iff_along (I := fun s => Rooted q s ∧ RequestsBound s)
      (fun s a h => (and_iff_right (h.1.step a)).trans (requestsBound_step h.1 h.2))
      ⟨rooted_initial, by rintro _ _ ⟨⟩⟩
  rw [← hboth]
  exact forall_congr' fun bs => forall_congr' fun cs => forall_congr' fun _ =>
    (and_iff_right rooted_run).symm

/-! ### A row for another repository -/

/-- A driver under whose key every provenance has the digest of sixty-four zeros. -/
def keyed : Driver :=
  { Calls.fixture with provenanceMac := fun _ => String.ofList (List.replicate 64 '0') }

/-- The push of what was integrated in one repository to another one. -/
def pushElsewhere : CreateRequest :=
  { Calls.updateRequest with
    action := "push_feature_branch"
    repository := "other"
    parameters := .dict [("branch", .text "feature"), ("sha", .text "2222222")]
    provenance := ⟨1, "a", "a", "repo", "abcdef1", "2222222", "main", "",
      String.ofList (List.replicate 64 '0')⟩ }

/-- Job `a` is integrated, and the push of its head is requested. -/
def untilPush : List Act :=
  (MergeQueue.Calls.enqueued 0 "a" none ++ MergeQueue.Calls.passed 1 30).map Act.queue ++
    .request 0 pushElsewhere :: List.replicate 4 (.next 0 .empty)

def afterPush : Joint :=
  run (MergeQueue.Calls.readableQueue true) keyed 0 (MergeQueue.Calls.doneJobs ["a"])
    (fun _ => none) (fun _ => none) untilPush

/-- The request for the other repository is created, with the provenance of the first one. -/
theorem requested_elsewhere :
    (afterPush.broker.requests Calls.updateId).any (fun row => row.repository = "other" &&
      row.sourceCandidateId = "a") = true ∧
    (getIntegrationCandidate afterPush.broker.toDb "a").any (fun candidate =>
      candidate.repository = "repo" && candidate.state = .integrated) = true ∧
    ¬∀ bs cs, untilPush = bs ++ cs →
      RequestsBound (run (MergeQueue.Calls.readableQueue true) keyed 0
        (MergeQueue.Calls.doneJobs ["a"]) (fun _ => none) (fun _ => none) bs) := by
  have hrow : (afterPush.broker.requests Calls.updateId).any (fun row => row.repository = "other" &&
      row.sourceCandidateId = "a") = true := by decide
  have hcandidate : (getIntegrationCandidate afterPush.broker.toDb "a").any (fun candidate =>
      candidate.repository = "repo" && candidate.state = .integrated) = true := by decide
  refine ⟨hrow, hcandidate, fun hbound => ?_⟩
  obtain ⟨row, hrow, hfields⟩ := (Option.any_eq_true _ _).mp hrow
  obtain ⟨candidate, hcandidate, hsource⟩ := (Option.any_eq_true _ _).mp hcandidate
  simp only [Bool.and_eq_true, decide_eq_true_eq] at hfields hsource
  obtain ⟨candidate', hrow', hrepository⟩ := hbound untilPush [] (List.append_nil _).symm _ row hrow
  have hknown := hrow'.known
  rw [hfields.2] at hknown
  obtain rfl := Option.mem_unique hknown hcandidate
  rw [hfields.1, hsource.1] at hrepository
  exact absurd hrepository (by decide)

end Creation

end Broker

end ArgentTeam
