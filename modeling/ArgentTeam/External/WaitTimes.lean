import ArgentTeam.External.CiWait
import ArgentTeam.Jobs.DuePass
import ArgentTeam.Lib.Except
import ArgentTeam.Lib.IsoFormat

/-!
# The times of a wait

The two managers of waits accept any text as a time that `datetime.fromisoformat` reads, and store
it as it is. The store looks for the waits that are due by comparing texts, and so do the managers
for the deadline; what they compare with is the text of the current time in UTC.

Such texts are in the order of the moments only where all are written as `_iso` writes them. What
counts is whether the text of the current time is between the text that is stored and the text that
`_iso` would have written (`Misread`): `comparedAsInstants_iff`. A text that ends in an offset is
misread between the time on its clock and the moment it means (`misread_isoformat_iff`).
-/

namespace ArgentTeam

namespace External

open IsoFormat Jobs

/-! ### Specifications -/

def WaitKind.value : WaitKind → String
  | .ci => "CI"
  | .upstream => "UPSTREAM"
  | .rateLimit => "RATE_LIMIT"
  | .network => "NETWORK"
  | .timer => "TIMER"

def allowedWaitKinds : List WaitKind := [.ci, .upstream, .rateLimit, .network, .timer]

structure WaitSpec where
  kind : PyStr
  provider : PyStr
  ref : PyStr
  expectedSubject : Option PyStr := none
  deadlineAt : Option PyStr := none
  nextCheckAt : Option PyStr := none

structure CiWaitSpec where
  provider : PyStr
  repository : PyStr
  prNumber : ℤ
  expectedHeadSha : PyStr
  expectedBase : PyStr
  requiredChecks : Option (List PyStr) := none
  optionalChecks : List PyStr := []
  candidateId : Option PyStr := none
  deadlineAt : Option PyStr := none
  nextCheckAt : Option PyStr := none

/-- A row of `external_waits`, as it is created. -/
structure WaitRow where
  waitId : String
  jobId : String
  kind : WaitKind
  provider : PyStr
  ref : PyStr
  expectedSubject : Option PyStr
  nextCheckAt : PyStr
  deadlineAt : Option PyStr
  checkAttempt : ℕ := 0
  eventVersion : ℕ := 0
  terminalObservedAt : Option PyStr := none
  /-- `ci_policy`, as the value that its text decodes to. -/
  ciPolicy : Option Json := none
  createdAt : PyStr
  updatedAt : PyStr

/-- The adapters of a manager, by their providers: each is its `validate_ref`. -/
abbrev Adapters := PyStr → Option (PyStr → Bool)

/-! ### Rows -/

/-- The first check, where none is given: a minute after the current time. -/
def defaultCheck (nowIso : PyStr) : Option PyStr := do
  let now ← parseIso nowIso
  let next ← Moment.ofInstant (now.instant + 60 * 1000000)
  pure next.iso

/-- The first check: a text that is given must be one that can be read. -/
def nextCheckText (nowIso : PyStr) : Option PyStr → Option PyStr
  | none => defaultCheck nowIso
  | some s => (parseIso s).map fun _ => s

def deadlineReads (deadline : Option PyStr) : Bool := deadline.all fun d => (parseIso d).isSome

/-- `_validate_provider`, and the adapter. -/
def validateProvider (adapters : Adapters) (provider : PyStr) : Option (PyStr → Bool) :=
  if provider ≠ [] ∧ provider.length ≤ maxProviderLen then adapters provider else none

section Build

variable (adapters : Adapters) (waitId jobId : String)

/-- `ExternalWaitManager._build_wait_row`; `none` where it raises. -/
def buildWaitRow (spec : WaitSpec) (nowIso : PyStr) : Option WaitRow := do
  let kind ← allowedWaitKinds.find? fun k => PyStr.ofString (WaitKind.value k) = spec.kind
  let validateRef ← validateProvider adapters spec.provider
  guard (spec.ref ≠ [] ∧ spec.ref.length ≤ maxRefLen ∧ validateRef spec.ref = true)
  guard ((spec.expectedSubject.all fun s => s.length ≤ maxSubjectLen) = true)
  guard (kind = .ci → (spec.expectedSubject.any fun s => s.strip ≠ []) = true)
  guard (deadlineReads spec.deadlineAt = true)
  let nextCheckAt ← nextCheckText nowIso spec.nextCheckAt
  pure
    { waitId := waitId
      jobId := jobId
      kind := kind
      provider := spec.provider
      ref := spec.ref
      expectedSubject := spec.expectedSubject
      nextCheckAt := nextCheckAt
      deadlineAt := spec.deadlineAt
      createdAt := nowIso
      updatedAt := nowIso }

def ciRef (repository : PyStr) (prNumber : ℤ) : Option PyStr :=
  let ref := repository ++ PyStr.ofString ("#" ++ toString prNumber)
  if repository.strip ≠ [] ∧ 0 < prNumber ∧ ref.length ≤ maxRefLen then some ref else none

/-- `_build_policy_json`. -/
def policyJson (spec : CiWaitSpec) : Json :=
  Json.dict
    [("provider", .str spec.provider), ("repository", .str spec.repository),
      ("pr_number", .int spec.prNumber), ("expected_head_sha", .str spec.expectedHeadSha),
      ("expected_base", .str spec.expectedBase),
      ("required_checks", (spec.requiredChecks.map namesJson).getD .null),
      ("optional_checks", namesJson spec.optionalChecks),
      ("candidate_id", optStr spec.candidateId)]

/-- `CiWaitManager._validate_spec` and `_build_wait_row`; `none` where one raises. -/
def buildCiWaitRow (spec : CiWaitSpec) (nowIso : PyStr) : Option WaitRow := do
  let validateRef ← validateProvider adapters spec.provider
  let ref ← ciRef spec.repository spec.prNumber
  guard (validateRef ref = true)
  guard (spec.expectedHeadSha.strip ≠ [] ∧ spec.expectedHeadSha.length ≤ maxSubjectLen)
  guard (spec.expectedBase.strip ≠ [])
  guard ((spec.requiredChecks.all fun names => names.all fun n => n.strip ≠ []) = true)
  guard (deadlineReads spec.deadlineAt = true)
  let nextCheckAt ← nextCheckText nowIso spec.nextCheckAt
  guard ((policyJson spec).compact.length ≤ maxCiEvidenceBytes)
  pure
    { waitId := waitId
      jobId := jobId
      kind := .ci
      provider := spec.provider
      ref := ref
      expectedSubject := some spec.expectedHeadSha
      nextCheckAt := nextCheckAt
      deadlineAt := spec.deadlineAt
      ciPolicy := some (policyJson spec)
      createdAt := nowIso
      updatedAt := nowIso }

end Build

/-- A specification of either manager. -/
inductive AnySpec
  /-- Of `ExternalWaitManager`. -/
  | wait (spec : WaitSpec)
  /-- Of `CiWaitManager`. -/
  | ci (spec : CiWaitSpec)

namespace AnySpec

/-- Its `deadline_at`. -/
def deadlineAt : AnySpec → Option PyStr
  | wait spec => spec.deadlineAt
  | ci spec => spec.deadlineAt

/-- Its `next_check_at`. -/
def nextCheckAt : AnySpec → Option PyStr
  | wait spec => spec.nextCheckAt
  | ci spec => spec.nextCheckAt

/-- The row that its manager builds. -/
def build (adapters : Adapters) (waitId jobId : String) (nowIso : PyStr) :
    AnySpec → Option WaitRow
  | wait spec => buildWaitRow adapters waitId jobId spec nowIso
  | ci spec => buildCiWaitRow adapters waitId jobId spec nowIso

end AnySpec

/-! ### Where times are compared -/

/-- The condition of `list_due_external_waits`. -/
def isDue (nowIso : PyStr) (row : WaitRow) : Bool :=
  row.terminalObservedAt = none &&
    (PyStr.le row.nextCheckAt nowIso || row.deadlineAt.any fun d => PyStr.le d nowIso)

def listDueExternalWaits (nowIso : PyStr) (limit : ℕ) (kind : Option WaitKind)
    (rows : List WaitRow) : List WaitRow :=
  ((rows.filter fun row => isDue nowIso row && kind.all fun k => k = row.kind).insertionSort
    fun a b => PyStr.le a.nextCheckAt b.nextCheckAt).take limit

/-- What is done about a wait first. -/
inductive FirstBranch
  | deadline
  | check
  deriving DecidableEq

/-- The first branch of `_process_wait` and of `_process_ci_wait`. -/
def firstBranch (row : WaitRow) (nowIso : PyStr) : FirstBranch :=
  if row.deadlineAt.any (fun d => PyStr.le d nowIso) then .deadline else .check

/-! ### Instants -/

/-- The moment that a text means is not after another one. -/
def Reached (s : PyStr) (now : Moment) : Prop := ∃ m ∈ parseIso s, m.instant ≤ now.instant

/-- **The times of a wait are compared as instants**: the wait is listed as due, where the limit
leaves room for it, if one of its times is reached, and the branch of the deadline is taken if the
deadline is. -/
def ComparedAsInstants (row : WaitRow) (now : Moment) : Prop :=
  (∀ rows limit kind, row ∈ rows → rows.length ≤ limit →
    (kind.all fun k => k = row.kind) = true →
      (row ∈ listDueExternalWaits now.iso limit kind rows ↔
        Reached row.nextCheckAt now ∨ ∃ d ∈ row.deadlineAt, Reached d now)) ∧
    (firstBranch row now.iso = .deadline ↔ ∃ d ∈ row.deadlineAt, Reached d now)

/-- **A text is misread at a time**: the text of the time is between the text and the one that
`_iso` writes of the same moment, that is, not before the one and before the other. -/
def Misread (s : PyStr) (now : Moment) : Prop :=
  ∃ m ∈ parseIso s, (PyStr.le s now.iso = true ∧ PyStr.le m.iso now.iso = false) ∨
    (PyStr.le m.iso now.iso = true ∧ PyStr.le s now.iso = false)

/-- The deadline is not misread; and unless it is reached, the first check is not. -/
def WellRead (spec : AnySpec) (now : Moment) : Prop :=
  (∀ d ∈ spec.deadlineAt, ¬Misread d now) ∧
    ((∃ d ∈ spec.deadlineAt, Reached d now) ∨ ∀ s ∈ spec.nextCheckAt, ¬Misread s now)

section Compared

variable {adapters : Adapters} {waitId jobId : String} {spec : AnySpec} {nowIso s : PyStr}
  {row : WaitRow} {created now m : Moment}

theorem misread_iff (h : parseIso s = some m) :
    Misread s now ↔ ¬(PyStr.le s now.iso ↔ PyStr.le m.iso now.iso) := by
  simp only [Misread, h, Option.mem_def, Option.some.injEq, exists_eq_left']
  generalize PyStr.le s now.iso = stored, PyStr.le m.iso now.iso = written
  cases stored <;> cases written <;> decide

theorem le_iso_iff (h : parseIso s = some m) :
    (PyStr.le s now.iso ↔ Reached s now) ↔ ¬Misread s now := by
  have hreached : Reached s now ↔ PyStr.le m.iso now.iso = true := by
    rw [Moment.iso_le_iff, Reached, h]
    simp
  rw [hreached, misread_iff h, not_not]

theorem not_misread_iso : ¬Misread m.iso now := by
  simp [misread_iff (parseIso_iso m)]

structure Timed (spec : AnySpec) (nowIso : PyStr) (row : WaitRow) : Prop where
  isOpen : row.terminalObservedAt = none
  deadline : row.deadlineAt = spec.deadlineAt
  reads : deadlineReads spec.deadlineAt = true
  nextCheck : nextCheckText nowIso spec.nextCheckAt = some row.nextCheckAt

theorem timed_of_build (h : spec.build adapters waitId jobId nowIso = some row) :
    Timed spec nowIso row := by
  cases spec with
  | wait spec =>
    -- the kind, the provider, the reference, the subject twice
    iterate 5 obtain ⟨_, -, h⟩ := Option.bind_eq_some_iff.mp h
    obtain ⟨_, hreads, h⟩ := Option.bind_eq_some_iff.mp h
    obtain ⟨next, hnext, h⟩ := Option.bind_eq_some_iff.mp h
    obtain rfl := Option.some.inj h
    exact ⟨rfl, rfl, (Option.guard_eq_some' _).mp hreads, hnext⟩
  | ci spec =>
    -- the provider, the reference twice, the head, the base, the required checks
    iterate 6 obtain ⟨_, -, h⟩ := Option.bind_eq_some_iff.mp h
    obtain ⟨_, hreads, h⟩ := Option.bind_eq_some_iff.mp h
    obtain ⟨next, hnext, h⟩ := Option.bind_eq_some_iff.mp h
    obtain ⟨_, -, h⟩ := Option.bind_eq_some_iff.mp h
    obtain rfl := Option.some.inj h
    exact ⟨rfl, rfl, (Option.guard_eq_some' _).mp hreads, hnext⟩

/-- The first check of a row can be read, and one that was not given is not misread. -/
theorem Timed.next (h : Timed spec created.iso row) : ∃ m, parseIso row.nextCheckAt = some m ∧
    ((∀ s ∈ spec.nextCheckAt, ¬Misread s now) ↔ ¬Misread row.nextCheckAt now) := by
  have hnext := h.nextCheck
  cases hspec : spec.nextCheckAt with
  | none =>
    rw [hspec] at hnext
    obtain ⟨_, -, hnext⟩ := Option.bind_eq_some_iff.mp hnext
    obtain ⟨m, -, hnext⟩ := Option.bind_eq_some_iff.mp hnext
    rw [← Option.some.inj hnext]
    exact ⟨m, parseIso_iso m, iff_of_true (by simp) not_misread_iso⟩
  | some s =>
    rw [hspec] at hnext
    obtain ⟨m, hm, rfl⟩ := Option.map_eq_some_iff.mp hnext
    exact ⟨m, hm, by simp⟩

theorem Timed.deadline_iff (h : Timed spec nowIso row) :
    ((row.deadlineAt.any fun d => PyStr.le d now.iso) = true ↔
        ∃ d ∈ row.deadlineAt, Reached d now) ↔
      ∀ d ∈ spec.deadlineAt, ¬Misread d now := by
  have hreads := h.reads
  rw [h.deadline]
  cases hd : spec.deadlineAt with
  | none => simp
  | some d =>
    rw [hd] at hreads
    obtain ⟨m, hm⟩ := Option.isSome_iff_exists.mp hreads
    simpa using @le_iso_iff d now m hm

theorem mem_listDueExternalWaits {rows : List WaitRow} {limit : ℕ} {kind : Option WaitKind}
    (hrow : row ∈ rows) (hlimit : rows.length ≤ limit)
    (hkind : (kind.all fun k => k = row.kind) = true) :
    row ∈ listDueExternalWaits nowIso limit kind rows ↔ isDue nowIso row = true := by
  rw [listDueExternalWaits, List.take_of_length_le, List.mem_insertionSort, List.mem_filter,
    Bool.and_eq_true]
  · simp only [hrow, hkind, true_and, and_true]
  · rw [List.length_insertionSort]
    exact (List.length_filter_le _ rows).trans hlimit

theorem forall_listDueExternalWaits_iff {p : Prop} :
    (∀ rows limit kind, row ∈ rows → rows.length ≤ limit →
      (kind.all fun k => k = row.kind) = true →
        (row ∈ listDueExternalWaits nowIso limit kind rows ↔ p)) ↔
      (isDue nowIso row = true ↔ p) := by
  constructor
  · intro hall
    have hrow : row ∈ [row] := List.mem_singleton_self row
    have hmem := @mem_listDueExternalWaits nowIso row [row] 1 none hrow le_rfl rfl
    exact hmem.symm.trans (hall [row] 1 none hrow le_rfl rfl)
  · intro hdue rows limit kind hrow hlimit hkind
    rwa [mem_listDueExternalWaits hrow hlimit hkind]

theorem firstBranch_eq_deadline : firstBranch row nowIso = .deadline ↔
    (row.deadlineAt.any fun d => PyStr.le d nowIso) = true := by
  unfold firstBranch
  split
  next hpassed => exact iff_of_true rfl hpassed
  next hpassed => exact iff_of_false FirstBranch.noConfusion hpassed

theorem isDue_eq_true (hopen : row.terminalObservedAt = none) : isDue nowIso row = true ↔
    PyStr.le row.nextCheckAt nowIso = true ∨
      (row.deadlineAt.any fun d => PyStr.le d nowIso) = true := by
  simp only [isDue, hopen, decide_true, Bool.true_and, Bool.or_eq_true]

theorem or_iff_or_and_iff {listed passed next deadline : Prop} :
    ((listed ∨ passed ↔ next ∨ deadline) ∧ (passed ↔ deadline)) ↔
      (passed ↔ deadline) ∧ (deadline ∨ (listed ↔ next)) := by
  rw [and_comm, and_congr_right_iff]
  intro h
  rw [h]
  by_cases hd : deadline <;> simp [hd]

/-- **Where times are compared as instants.** -/
theorem comparedAsInstants_iff (h : spec.build adapters waitId jobId created.iso = some row) :
    ComparedAsInstants row now ↔ WellRead spec now := by
  have htimed := timed_of_build h
  obtain ⟨m, hm, hnext⟩ := @Timed.next spec row created now htimed
  have hdeadline := @Timed.deadline_iff spec created.iso row now htimed
  rw [ComparedAsInstants, forall_listDueExternalWaits_iff, firstBranch_eq_deadline,
    isDue_eq_true htimed.isOpen, or_iff_or_and_iff, WellRead, hdeadline, hnext,
    ← le_iso_iff hm, htimed.deadline]

end Compared

/-! ### Offsets -/

section Offsets

variable {m m' now : Moment} {z : PyStr}

/-- **A text that ends in an offset** is compared by the time on its clock, and what is written of
the zone decides only where that is the current time. -/
theorem misread_isoformat_iff (hz : z = [] ∨ Moment.Signed z)
    (hm : parseIso (m.isoformat z) = some m') : Misread (m.isoformat z) now ↔
      ¬((m.instant < now.instant ∨
        m.instant = now.instant ∧ PyStr.le z Moment.utcZone = true) ↔
          m'.instant ≤ now.instant) := by
  rw [misread_iff hm, Moment.iso_le_iff, Moment.iso,
    Moment.isoformat_le_iff hz Moment.signed_utcZone]

/-- Without an offset, a text is never misread. -/
theorem not_misread_naive : ¬Misread (m.isoformat []) now := by
  have hm : parseIso (m.isoformat []) = some m := by
    rw [@parseIso_isoformat m [] none (.inl rfl) rfl]
    simp
  rw [misread_isoformat_iff (.inl rfl) hm, not_not, le_iff_lt_or_eq]
  simp [PyStr.le]

/-- An hour of the first of January 2026. -/
def hourOf (hour : ℕ) (h : hour < 24) : Moment where
  date := ⟨2026, 1, 1, by decide, Nat.one_pos, by decide, Nat.one_pos, by decide⟩
  hour := hour
  minute := 0
  second := 0
  micro := 0
  year_le := by decide
  hour_lt := h
  minute_lt := by decide
  second_lt := by decide
  micro_lt := by decide

/-- A deadline at noon, where the clocks are two hours ahead. -/
def noonAhead : AnySpec :=
  .wait
    { kind := PyStr.ofString "TIMER"
      provider := PyStr.ofString "clock"
      ref := PyStr.ofString "noon"
      deadlineAt := some (PyStr.ofString "2026-01-01T12:00:00+02:00") }

def clockAdapters : Adapters := fun provider =>
  if provider = PyStr.ofString "clock" then some fun _ => true else none

/-- The row of that deadline, created at nine. -/
def noonRow : Option WaitRow :=
  noonAhead.build clockAdapters "wait:1" "job:1" (hourOf 9 (by decide)).iso

/-- At eleven the deadline has passed an hour ago, and its branch is not taken. -/
theorem noon_missed : ∃ row ∈ noonRow, ¬ComparedAsInstants row (hourOf 11 (by decide)) := by
  have hbranch : (noonRow.any fun row =>
      firstBranch row (hourOf 11 (by decide)).iso = .check &&
        row.deadlineAt.any fun d => (parseIso d).any fun m =>
          m.instant ≤ (hourOf 11 (by decide)).instant) = true := by
    decide
  obtain ⟨row, hrow, hcheck⟩ := (Option.any_eq_true _ _).mp hbranch
  obtain ⟨hcheck, hpassed⟩ := Bool.and_eq_true_iff.mp hcheck
  obtain ⟨d, hd, hreached⟩ := (Option.any_eq_true _ _).mp hpassed
  obtain ⟨m, hm, hle⟩ := (Option.any_eq_true _ _).mp hreached
  refine ⟨row, hrow, fun h => ?_⟩
  have hdeadline := h.2.mpr ⟨d, hd, m, hm, of_decide_eq_true hle⟩
  rw [of_decide_eq_true hcheck] at hdeadline
  cases hdeadline

/-- The same row, at eleven. -/
theorem comparedAsInstants_noon : ∃ row ∈ noonRow,
    (ComparedAsInstants row (hourOf 11 (by decide)) ↔
      WellRead noonAhead (hourOf 11 (by decide))) := by
  have hsome : noonRow.isSome = true := by decide
  obtain ⟨row, hrow⟩ := Option.isSome_iff_exists.mp hsome
  exact ⟨row, hrow, comparedAsInstants_iff hrow⟩

end Offsets

end External

end ArgentTeam
