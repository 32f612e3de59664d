import ArgentTeam.Models

/-!
# Workflow sequences

The fixed role sequences of the orchestration layer, after `workflow.py`:

* standard: lead, analyst, lead, implementer, qa, reviewer, lead;
* rework: lead, implementer, qa, [reviewer], lead.

The reviewer of a rework cycle is conditional: an explicit toggle in the lead's
decision wins, and without one the reviewer takes part whenever a finding is open.
-/

namespace ArgentTeam

namespace Workflow

def standardSequence : List Role :=
  [.lead, .analyst, .lead, .implementer, .qa, .reviewer, .lead]

def reworkSequenceFull : List Role := [.lead, .implementer, .qa, .reviewer, .lead]

/-- The effective rework sequence for a reviewer toggle. -/
def reworkSequence (includeReviewer : Bool) : List Role :=
  if includeReviewer then reworkSequenceFull else [.lead, .implementer, .qa, .lead]

def effectiveSequence (kind : SequenceKind) (includeReviewer : Bool) : List Role :=
  match kind with
  | .rework => reworkSequence includeReviewer
  | .standard => standardSequence

/-- The role at a position of the effective sequence; `none` once it is exhausted. -/
def nextRole (kind : SequenceKind) (position : ℕ) (includeReviewer : Bool) : Option Role :=
  (effectiveSequence kind includeReviewer)[position]?

/-- The reviewer toggle of a rework cycle, from the detail of its decision and from
whether a finding is open. -/
def reworkIncludeReviewer (detail : List (PyStr × Json)) (openFindingsExist : Bool) : Bool :=
  match Json.get? detail "rework_include_reviewer" with
  | some .null => openFindingsExist
  | some v => v.truthy
  | none => openFindingsExist

/-- The next dispatch position, computed from the persisted workflow state. -/
structure Frontier where
  cycleNo : ℕ
  position : ℕ
  sequenceKind : SequenceKind
  includeReviewer : Bool
  /-- The role to dispatch; `none` once the sequence is exhausted. -/
  expectedRole : Option Role
  deriving DecidableEq

/-! ### Replaying the workflow

`Core._workflow_frontier`, as a function of the rows it reads: the dispatches of the
task in the order of `(cycle_no, position, attempt_no)`, its decisions in the order of
their insertion, and whether one of its findings is open. -/

/-- `Core._parse_decision_detail`: the detail as a dictionary, empty if it is none. -/
def parseDecisionDetail : Option JsonText → List (PyStr × Json)
  | some (some (.obj fields)) => fields
  | _ => []

def namesCycle (detail : List (PyStr × Json)) (cycleNo : ℤ) : Bool :=
  match Json.get? detail "cycle_no" with
  | some v => v.eqInt cycleNo
  | none => false

/-- `Core._rework_include_for_cycle`: the toggle of a rework cycle, from the latest
rework decision made in the cycle before. -/
def reworkIncludeForCycle (cycleNo : ℕ) (decisions : List Decision) (openFindings : Bool) : Bool :=
  match decisions.reverse.find? fun d =>
      d.decision = "rework" && namesCycle (parseDecisionDetail d.detail) (cycleNo - 1) with
  | some d => reworkIncludeReviewer (parseDecisionDetail d.detail) openFindings
  | none => reworkIncludeReviewer [] openFindings

/-- The latest decision, if it is a rework decision made in this cycle. -/
def pendingRework (decisions : List Decision) (cycleNo : ℕ) : Option Decision :=
  decisions.getLast?.filter fun d =>
    d.decision = "rework" && namesCycle (parseDecisionDetail d.detail) cycleNo

/-- The first position of the sequence that is not among the consumed ones. -/
def firstOpen (consumed : List ℕ) (seq : List Role) : Option ℕ :=
  (List.range seq.length).find? fun pos => pos ∉ consumed

def maxCycle (dispatches : List AgentDispatch) : ℕ :=
  (dispatches.map AgentDispatch.cycleNo).foldl max 0

def consumedPositions (dispatches : List AgentDispatch) (cycle : ℕ) : List ℕ :=
  (dispatches.filter fun d => d.cycleNo = cycle && d.status = .consumed).map AgentDispatch.position

def cycleKind (dispatches : List AgentDispatch) (cycle : ℕ) : SequenceKind :=
  match (dispatches.filter fun d => d.cycleNo = cycle).getLast? with
  | some d => d.sequenceKind
  | none => .standard

/-- The reviewer toggle of the current cycle. -/
def cycleInclude (kind : SequenceKind) (cycle : ℕ) (decisions : List Decision)
    (openFindings : Bool) : Bool :=
  match kind with
  | .rework => reworkIncludeForCycle cycle decisions openFindings
  | .standard => true

/-- **The frontier**: the first cycle starts with the lead; a pending rework decision
starts the next one; otherwise it is the first position of the current cycle that has
not been consumed. -/
def frontier (dispatches : List AgentDispatch) (decisions : List Decision)
    (openFindings : Bool) : Frontier :=
  if dispatches = [] then ⟨1, 0, .standard, true, some .lead⟩
  else
    let cycle := maxCycle dispatches
    match pendingRework decisions cycle with
    | some d => ⟨cycle + 1, 0, .rework,
        reworkIncludeReviewer (parseDecisionDetail d.detail) openFindings, some .lead⟩
    | none =>
      let kind := cycleKind dispatches cycle
      let include_ := cycleInclude kind cycle decisions openFindings
      let seq := effectiveSequence kind include_
      match firstOpen (consumedPositions dispatches cycle) seq with
      | some pos => ⟨cycle, pos, kind, include_, seq[pos]?⟩
      | none => ⟨cycle, seq.length, kind, include_, none⟩

end Workflow

end ArgentTeam
