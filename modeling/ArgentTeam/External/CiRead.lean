import ArgentTeam.External.Ci
import Mathlib.Data.Finset.Card

/-!
# What the provider is read as

The adapter of `ci_external_wait.py` asks GitHub three times, for the pull request, the check
runs and the commit statuses, and makes a `CiRead` of the answers. The manager trusts no
adapter: `_validate_read` goes over the read again, with bounds and closed sets of its own.
`validateRead_readCiState_iff` says exactly which answers get through both.
-/

namespace ArgentTeam

namespace External

/-! ### A read -/

def maxCiChecks : ℕ := 256

def maxCiRunRefLen : ℕ := 512

/-- The largest `event_version`. -/
def maxCiEventVersion : ℤ := 2 ^ 31 - 1

/-- The statuses of `CHECK_STATUSES`, and any other text. -/
inductive CheckStatus
  | queued
  | inProgress
  | completed
  | pending
  | unknown
  | other
  deriving DecidableEq

/-- The states of `PR_STATES`, and any other text. -/
inductive PrState
  | opened
  | closed
  | merged
  | unknown
  | other
  deriving DecidableEq

/-- The errors of `PROVIDER_ERRORS`, and any other text. -/
inductive ProviderError
  | unavailable
  | rateLimited
  | network
  | unknown
  | other
  deriving DecidableEq

/-- `CiCheck`, with all its fields. -/
structure ReadCheck extends CiCheck where
  status : CheckStatus
  runRef : Option PyStr
  detailsUrl : Option PyStr
  checkId : ℤ

/-- `CiRead`. The head and the base of the pull request are whatever value was found in the
answer. -/
structure CiRead where
  repository : PyStr
  prNumber : ℕ
  prHeadSha : Json
  baseRef : Json
  prState : PrState
  checks : List ReadCheck
  providerError : Option ProviderError
  rateLimitResetAt : Option PyStr
  eventVersion : ℤ

/-! ### The reference of a wait -/

/-- The value of a decimal digit. -/
def digit? : PyChar → Option ℕ
  | .scalar c => if c.isDigit then some (c.toNat - '0'.toNat) else none
  | .surrogate _ => none

/-- `int(s)`, of a text that is not empty and all digits. -/
def decimal? (s : PyStr) : Option ℕ :=
  if s = [] then none else s.foldlM (fun n c => (digit? c).map (10 * n + ·)) 0

def parseCiRef (ref : PyStr) : Option (PyStr × ℕ) :=
  let repository := ref.takeWhile (· ≠ .scalar '#')
  if ref.count (.scalar '#') ≠ 1 then none
  else if repository = [] || !repository.elem (.scalar '/') then none
  else
    match decimal? ((ref.dropWhile (· ≠ .scalar '#')).drop 1) with
    | none | some 0 => none
    | some (n + 1) => some (repository, n + 1)

/-! ### The manager: what is let through -/

/-- What `_validate_read` has against a read. -/
inductive ReadError
  | badRef
  | wrongIdentity
  | badPrState
  | badProviderError
  | tooManyChecks
  | badCheckConclusion
  | badCheckStatus
  | badCheckContradictory
  | badCheckName
  | badEventVersion

def CheckStatus.running (s : CheckStatus) : Bool :=
  s = .queued || s = .inProgress || s = .pending

/-- What `_validate_read` has against a check. -/
def checkError (c : ReadCheck) : Option ReadError :=
  if c.conclusion = some .unknown then some .badCheckConclusion
  else if c.status = .other then some .badCheckStatus
  else if c.conclusion.isSome && c.status.running then some .badCheckContradictory
  else if maxCiCheckNameLen < c.name.length then some .badCheckName
  else none

/-- `_validate_read`, for a wait with the given reference. -/
def validateRead (read : CiRead) (ref : PyStr) : Option ReadError :=
  match parseCiRef ref with
  | none => some .badRef
  | some (repository, prNumber) =>
    if read.repository ≠ repository || read.prNumber ≠ prNumber then some .wrongIdentity
    else if read.prState = .other then some .badPrState
    else if read.providerError = some .other then some .badProviderError
    else if maxCiChecks < read.checks.length then some .tooManyChecks
    else
      (read.checks.findSome? checkError).or <|
        if read.eventVersion < 0 || maxCiEventVersion < read.eventVersion then
          some .badEventVersion
        else none

/-! ### The adapter: the fields of an answer -/

/-- The fields of a dictionary in an answer. -/
abbrev Fields := List (PyStr × Json)

/-- `d.get(a) or d.get(b)`. -/
def getOr (d : Fields) (a b : String) : Json :=
  if (Json.getD d a .null).truthy then Json.getD d a .null else Json.getD d b .null

/-- `_norm_check_name`, of any value. -/
def normName : Json → PyStr
  | .str s => normCheckName s
  | _ => []

def normStatus : Json → CheckStatus
  | .str s =>
    let s := s.strip.upper
    if s = PyStr.ofString "QUEUED" then .queued
    else if s = PyStr.ofString "IN_PROGRESS" then .inProgress
    else if s = PyStr.ofString "COMPLETED" then .completed
    else if s = PyStr.ofString "PENDING" then .pending
    else .unknown
  | _ => .unknown

/-- The texts of `CHECK_CONCLUSIONS`. -/
def checkConclusions : List (PyStr × CheckConclusion) :=
  [(PyStr.ofString "SUCCESS", .success), (PyStr.ofString "FAILURE", .failure),
    (PyStr.ofString "CANCELLED", .cancelled), (PyStr.ofString "TIMED_OUT", .timedOut),
    (PyStr.ofString "ACTION_REQUIRED", .actionRequired), (PyStr.ofString "NEUTRAL", .neutral),
    (PyStr.ofString "SKIPPED", .skipped), (PyStr.ofString "STALE", .stale),
    (PyStr.ofString "STARTUP_FAILURE", .startupFailure)]

def normConclusion : Json → Option CheckConclusion
  | .str s => (checkConclusions.find? fun p => p.1 = s.strip.upper).map Prod.snd
  | _ => none

def statusStateToConclusion : Json → Option CheckConclusion
  | .str s =>
    let s := s.strip.lower
    if s = PyStr.ofString "success" then some .success
    else if s = PyStr.ofString "failure" then some .failure
    else if s = PyStr.ofString "error" then some .failure
    else if s = PyStr.ofString "pending" then none
    else some .unknown
  | _ => none

/-- The `id` of a check run, if it is one. -/
def normId : Json → ℤ
  | .int n => if n < 0 then 0 else n
  | _ => 0

section Adapter

-- how `str` prints a value that is not a text
variable (strOf : Json → PyStr)

/-- `str(v or "")[:MAX_CI_RUN_REF_LEN] or None`. -/
def normUrl : Json → Option PyStr
  | .str s => if s = [] then none else some (s.take maxCiRunRefLen)
  | v => if v.truthy && strOf v ≠ [] then some ((strOf v).take maxCiRunRefLen) else none

/-- One of the check runs: `None` where it is skipped. -/
def normalizeCheckRun : Json → Option ReadCheck
  | .obj r =>
    let name := normName (Json.getD r "name" .null)
    if name = [] then none
    else
      some
        { name := name
          conclusion := normConclusion (Json.getD r "conclusion" .null)
          status := normStatus (Json.getD r "status" .null)
          runRef := normUrl strOf (getOr r "html_url" "details_url")
          detailsUrl := normUrl strOf (getOr r "details_url" "html_url")
          checkId := normId (Json.getD r "id" .null) }
  | _ => none

def normalizeCheckRuns (runs : List Json) : List ReadCheck × ℤ :=
  let checks := (runs.take maxCiChecks).filterMap (normalizeCheckRun strOf)
  (checks, (checks.map ReadCheck.checkId).foldl max 0)

/-- One of the commit statuses: `None` where it is skipped. -/
def normalizeStatus : Json → Option ReadCheck
  | .obj s =>
    let name := normName (getOr s "context" "name")
    let conclusion := statusStateToConclusion (Json.getD s "state" .null)
    if name = [] then none
    else
      some
        { name := name
          conclusion := conclusion
          status := if conclusion.isSome then .completed else .pending
          runRef := normUrl strOf (Json.getD s "target_url" .null)
          detailsUrl := normUrl strOf (Json.getD s "target_url" .null)
          checkId := 0 }
  | _ => none

def normalizeStatuses (statuses : List Json) : List ReadCheck :=
  (statuses.take maxCiChecks).filterMap (normalizeStatus strOf)

/-- `_merge_checks`: a status is added unless its name is taken. -/
def mergeChecks (existing : List ReadCheck) : List ReadCheck → List ReadCheck
  | [] => existing
  | c :: extra =>
    if existing.any fun d => d.name = c.name then mergeChecks existing extra
    else mergeChecks (existing ++ [c]) extra

/-- What comes of asking `gh`: an error, or a body that may not be JSON. -/
inductive Reply
  | rateLimited (resetAt : Option PyStr)
  | unavailable
  | failed
  | body (data : Option Json)

/-- The error of a reply that is one, and when to ask again. -/
def Reply.error? : Reply → Option (ProviderError × Option PyStr)
  | .rateLimited resetAt => some (.rateLimited, resetAt)
  | .unavailable => some (.unavailable, none)
  | .failed => some (.unknown, none)
  | .body _ => none

def Reply.dict? : Reply → Option Fields
  | .body (some (.obj d)) => some d
  | _ => none

/-- The list under a key of the dictionary of a reply. -/
def Reply.list? (reply : Reply) (key : String) : Option (List Json) :=
  match reply.dict?.map fun d => Json.getD d key .null with
  | some (.arr xs) => some xs
  | _ => none

/-- The state of a pull request. -/
def prStateOf (d : Fields) : PrState :=
  if (Json.getD d "mergedAt" .null).truthy then .merged
  else if Json.getD d "state" .null = Json.text "OPEN" then .opened
  else if Json.getD d "state" .null = Json.text "CLOSED" then .closed
  else if Json.getD d "state" .null = Json.text "MERGED" then .merged
  else .unknown

/-- `read_ci_state`, of what `gh` answers to the three questions. -/
def readCiState (repository : PyStr) (prNumber : ℕ) (pr runs statuses : Reply) : CiRead :=
  let read : CiRead :=
    { repository := repository
      prNumber := prNumber
      prHeadSha := .null
      baseRef := .null
      prState := .unknown
      checks := []
      providerError := none
      rateLimitResetAt := none
      eventVersion := 0 }
  let failed (read : CiRead) (e : ProviderError × Option PyStr) : CiRead :=
    { read with providerError := some e.1, rateLimitResetAt := e.2 }
  match pr.dict? with
  | none => failed read (pr.error?.getD (.unknown, none))
  | some d =>
    let read :=
      { read with
        prHeadSha := Json.getD d "headRefOid" .null
        baseRef := Json.getD d "baseRefName" .null
        prState := prStateOf d }
    match runs.list? "check_runs" with
    | none => failed read (runs.error?.getD (.unknown, none))
    | some rs =>
      let (checks, eventVersion) := normalizeCheckRuns strOf rs
      let read := { read with checks := checks, eventVersion := eventVersion }
      match statuses.list? "statuses" with
      | none => failed read (statuses.error?.getD (.unknown, none))
      | some ss =>
        let extra := normalizeStatuses strOf ss
        { read with
          checks := mergeChecks checks extra
          eventVersion := max eventVersion ((extra.map ReadCheck.checkId).foldl max 0) }

end Adapter

/-! ### Which answers get through -/

/-- The name under a key, where a value is a dictionary that has one. -/
def nameOf (name : Fields → PyStr) : Json → Option PyStr
  | .obj d => if name d = [] then none else some (name d)
  | _ => none

def runName (r : Fields) : PyStr := normName (Json.getD r "name" .null)

def statusName (s : Fields) : PyStr := normName (getOr s "context" "name")

/-- The check runs that are looked at. -/
def SeenRun (runs : List Json) (r : Fields) : Prop :=
  Json.obj r ∈ runs.take maxCiChecks ∧ runName r ≠ []

def runNames (runs : List Json) : List PyStr := (runs.take maxCiChecks).filterMap (nameOf runName)

def statusNames (statuses : List Json) : List PyStr :=
  (statuses.take maxCiChecks).filterMap (nameOf statusName)

/-- A commit status that stays: none of the check runs has its name, and no status before it. -/
def NewStatus (runs statuses : List Json) (s : Fields) : Prop :=
  ∃ ss ss', statuses.take maxCiChecks = ss ++ .obj s :: ss' ∧ statusName s ≠ [] ∧
    statusName s ∉ runNames runs ∧ statusName s ∉ ss.filterMap (nameOf statusName)

/-- The two lists stay within what the manager lets through. -/
structure WithinBounds (runs statuses : List Json) : Prop where
  ids : ∀ r, SeenRun runs r → normId (Json.getD r "id" .null) ≤ maxCiEventVersion
  ended : ∀ r, SeenRun runs r → (normConclusion (Json.getD r "conclusion" .null)).isSome = true →
    (normStatus (Json.getD r "status" .null)).running = false
  listed : ∀ s, NewStatus runs statuses s →
    statusStateToConclusion (Json.getD s "state" .null) ≠ some .unknown
  few : (runNames runs).length + ((statusNames statuses).toFinset \ (runNames runs).toFinset).card ≤
    maxCiChecks

variable {strOf : Json → PyStr} {c : ReadCheck} {v : Json} {runs statuses : List Json}
  {existing extra : List ReadCheck}

/-! #### Merging -/

abbrev namesOf (checks : List ReadCheck) : List PyStr := checks.map fun c => c.name

theorem mergeChecks_cons_of_mem (h : c.name ∈ namesOf existing) :
    mergeChecks existing (c :: extra) = mergeChecks existing extra := by
  obtain ⟨d, hd, hname⟩ := List.mem_map.mp h
  rw [mergeChecks, if_pos (List.any_eq_true.mpr ⟨d, hd, by simpa using hname⟩)]

theorem mergeChecks_cons_of_notMem (h : c.name ∉ namesOf existing) :
    mergeChecks existing (c :: extra) = mergeChecks (existing ++ [c]) extra := by
  rw [mergeChecks, if_neg]
  intro hany
  obtain ⟨d, hd, hname⟩ := List.any_eq_true.mp hany
  exact h (List.mem_map.mpr ⟨d, hd, by simpa using hname⟩)

/-- What is there after merging: what was there, and the first of each new name. -/
theorem mem_mergeChecks : c ∈ mergeChecks existing extra ↔
    c ∈ existing ∨ ∃ ds ds', extra = ds ++ c :: ds' ∧ c.name ∉ namesOf existing ∧
      c.name ∉ namesOf ds := by
  induction extra generalizing existing with
  | nil => simp [mergeChecks]
  | cons d extra ih =>
    by_cases hd : d.name ∈ namesOf existing
    · rw [mergeChecks_cons_of_mem hd, ih]
      refine or_congr_right ⟨?_, ?_⟩
      · rintro ⟨ds, ds', rfl, hnew, hfirst⟩
        refine ⟨d :: ds, ds', rfl, hnew, ?_⟩
        rw [namesOf, List.map_cons, List.mem_cons, not_or]
        exact ⟨fun heq => hnew (heq ▸ hd), hfirst⟩
      · rintro ⟨ds, ds', heq, hnew, hfirst⟩
        rcases ds with _ | ⟨d', ds⟩
        · cases heq
          exact absurd hd hnew
        · cases heq
          exact ⟨ds, ds', rfl, hnew, fun hmem => hfirst (List.mem_cons_of_mem _ hmem)⟩
    · rw [mergeChecks_cons_of_notMem hd, ih, List.mem_append, List.mem_singleton, or_assoc]
      refine or_congr_right ⟨?_, ?_⟩
      · rintro (rfl | ⟨ds, ds', rfl, hnew, hfirst⟩)
        · exact ⟨[], extra, rfl, hd, List.not_mem_nil⟩
        · rw [namesOf, List.map_append, List.mem_append, not_or] at hnew
          refine ⟨d :: ds, ds', rfl, hnew.1, ?_⟩
          rw [namesOf, List.map_cons, List.mem_cons, not_or]
          exact ⟨fun heq => hnew.2 (heq ▸ List.mem_singleton_self _), hfirst⟩
      · rintro ⟨ds, ds', heq, hnew, hfirst⟩
        rcases ds with _ | ⟨d', ds⟩
        · cases heq
          exact .inl rfl
        · cases heq
          rw [namesOf, List.map_cons, List.mem_cons, not_or] at hfirst
          refine .inr ⟨ds, ds', rfl, ?_, hfirst.2⟩
          rw [namesOf, List.map_append, List.mem_append, not_or]
          exact ⟨hnew, fun hmem => hfirst.1 (List.mem_singleton.mp hmem)⟩

/-- Merging adds one check for each new name. -/
theorem length_mergeChecks : (mergeChecks existing extra).length =
    existing.length + ((namesOf extra).toFinset \ (namesOf existing).toFinset).card := by
  induction extra generalizing existing with
  | nil => simp [mergeChecks]
  | cons d extra ih =>
    by_cases hd : d.name ∈ namesOf existing
    · have hnames : namesOf (d :: extra) = d.name :: namesOf extra := rfl
      rw [mergeChecks_cons_of_mem hd, ih, hnames, List.toFinset_cons,
        Finset.insert_sdiff_of_mem _ (List.mem_toFinset.mpr hd)]
    · have hsplit : (namesOf (d :: extra)).toFinset \ (namesOf existing).toFinset =
          insert d.name ((namesOf extra).toFinset \ (namesOf (existing ++ [d])).toFinset) := by
        ext n
        by_cases hn : n = d.name
        · subst hn
          simp only [namesOf, List.map_cons, List.toFinset_cons, Finset.mem_sdiff,
            Finset.mem_insert, true_or, List.mem_toFinset, true_and, iff_true]
          exact hd
        · simp [hn]
      rw [mergeChecks_cons_of_notMem hd, ih, hsplit, Finset.card_insert_of_notMem,
        List.length_append, List.length_singleton]
      · omega
      · simp

/-! #### The checks the adapter makes -/

theorem length_normCheckName_le (name : PyStr) : (normCheckName name).length ≤ maxCiCheckNameLen :=
  List.length_take_le _ _

theorem length_normName_le : (normName v).length ≤ maxCiCheckNameLen := by
  cases v with
  | str s => exact length_normCheckName_le s
  | _ => exact Nat.zero_le _

theorem normStatus_ne_other : normStatus v ≠ .other := by
  cases v with
  | str s =>
    simp only [normStatus]
    split_ifs <;> decide
  | _ => exact fun h => by cases h

theorem normConclusion_ne_unknown : normConclusion v ≠ some .unknown := by
  cases v with
  | str s =>
    intro h
    obtain ⟨p, hp, hunknown⟩ := Option.map_eq_some_iff.mp h
    have hall : ∀ p ∈ checkConclusions, p.2 ≠ .unknown := by decide
    exact hall p (List.mem_of_find?_eq_some hp) hunknown
  | _ => exact fun h => by cases h

theorem normalizeCheckRun_eq_some : normalizeCheckRun strOf v = some c ↔
    ∃ r, v = .obj r ∧ runName r ≠ [] ∧
      c = { name := runName r
            conclusion := normConclusion (Json.getD r "conclusion" .null)
            status := normStatus (Json.getD r "status" .null)
            runRef := normUrl strOf (getOr r "html_url" "details_url")
            detailsUrl := normUrl strOf (getOr r "details_url" "html_url")
            checkId := normId (Json.getD r "id" .null) } := by
  cases v with
  | obj r =>
    have hname : runName r = normName (Json.getD r "name" .null) := rfl
    rw [normalizeCheckRun, ← hname]
    constructor
    · intro h
      obtain ⟨hne, heq⟩ := Option.ite_none_left_eq_some.mp h
      exact ⟨r, rfl, hne, (Option.some.inj heq).symm⟩
    · rintro ⟨_, heq, hne, rfl⟩
      cases heq
      rw [if_neg hne]
  | _ => simp [normalizeCheckRun]

/-- A commit status, as it is kept. -/
theorem normalizeStatus_eq_some : normalizeStatus strOf v = some c ↔
    ∃ s, v = .obj s ∧ statusName s ≠ [] ∧
      c = { name := statusName s
            conclusion := statusStateToConclusion (Json.getD s "state" .null)
            status := if (statusStateToConclusion (Json.getD s "state" .null)).isSome
              then .completed
              else .pending
            runRef := normUrl strOf (Json.getD s "target_url" .null)
            detailsUrl := normUrl strOf (Json.getD s "target_url" .null)
            checkId := 0 } := by
  cases v with
  | obj s =>
    have hname : statusName s = normName (getOr s "context" "name") := rfl
    rw [normalizeStatus, ← hname]
    constructor
    · intro h
      obtain ⟨hne, heq⟩ := Option.ite_none_left_eq_some.mp h
      exact ⟨s, rfl, hne, (Option.some.inj heq).symm⟩
    · rintro ⟨_, heq, hne, rfl⟩
      cases heq
      exact if_neg hne
  | _ => simp [normalizeStatus]

theorem name_normalizeCheckRun :
    (normalizeCheckRun strOf v).map (fun c => c.name) = nameOf runName v := by
  cases v with
  | obj r =>
    simp only [normalizeCheckRun, nameOf, runName]
    rw [apply_ite (Option.map fun c : ReadCheck => c.name)]
    rfl
  | _ => rfl

theorem name_normalizeStatus :
    (normalizeStatus strOf v).map (fun c => c.name) = nameOf statusName v := by
  cases v with
  | obj s =>
    simp only [normalizeStatus, nameOf, statusName]
    rw [apply_ite (Option.map fun c : ReadCheck => c.name)]
    rfl
  | _ => rfl

theorem namesOf_filterMap {f : Json → Option ReadCheck} {g : Json → Option PyStr} {vs : List Json}
    (h : ∀ v, (f v).map (fun c => c.name) = g v) : namesOf (vs.filterMap f) = vs.filterMap g := by
  rw [namesOf, List.map_filterMap]
  exact List.filterMap_congr fun v _ => h v

theorem namesOf_normalizeCheckRuns : namesOf (normalizeCheckRuns strOf runs).1 = runNames runs :=
  namesOf_filterMap fun _ => name_normalizeCheckRun

theorem namesOf_normalizeStatuses : namesOf (normalizeStatuses strOf statuses) =
    statusNames statuses :=
  namesOf_filterMap fun _ => name_normalizeStatus

theorem foldl_max_le_iff {xs : List ℤ} {a m : ℤ} :
    xs.foldl max a ≤ m ↔ a ≤ m ∧ ∀ x ∈ xs, x ≤ m := by
  induction xs generalizing a with
  | nil => simp
  | cons x xs ih => simp [ih, and_assoc]

theorem le_foldl_max {xs : List ℤ} {a : ℤ} : a ≤ xs.foldl max a :=
  ((foldl_max_le_iff).mp (le_refl (xs.foldl max a))).1

/-- What the manager has against a check that the adapter has made of a check run. -/
theorem checkError_run {r : Fields} (h : normalizeCheckRun strOf (.obj r) = some c) :
    checkError c = none ↔ ((normConclusion (Json.getD r "conclusion" .null)).isSome →
      (normStatus (Json.getD r "status" .null)).running = false) := by
  obtain ⟨_, heq, -, rfl⟩ := (normalizeCheckRun_eq_some).mp h
  cases heq
  have hname : ¬maxCiCheckNameLen < (runName r).length := not_lt.mpr length_normName_le
  simp only [checkError, normConclusion_ne_unknown, normStatus_ne_other, hname, if_false]
  cases (normConclusion (Json.getD r "conclusion" .null)).isSome <;>
    cases (normStatus (Json.getD r "status" .null)).running <;> simp

/-- What it has against one made of a commit status. -/
theorem checkError_status {s : Fields} (h : normalizeStatus strOf (.obj s) = some c) :
    checkError c = none ↔ statusStateToConclusion (Json.getD s "state" .null) ≠ some .unknown := by
  obtain ⟨_, heq, -, rfl⟩ := (normalizeStatus_eq_some).mp h
  cases heq
  have hname : ¬maxCiCheckNameLen < (statusName s).length := not_lt.mpr length_normName_le
  simp only [checkError, hname, if_false]
  -- a status that has a conclusion has ended
  cases hc : statusStateToConclusion (Json.getD s "state" .null) with
  | none => simp [CheckStatus.running]
  | some x => cases x <;> simp [CheckStatus.running]

/-! #### The read as a whole -/

/-- The checks of the runs, as the manager sees them. -/
theorem forall_checkError_runs_iff :
    (∀ c ∈ (normalizeCheckRuns strOf runs).1, checkError c = none) ↔
      ∀ r, SeenRun runs r → (normConclusion (Json.getD r "conclusion" .null)).isSome →
        (normStatus (Json.getD r "status" .null)).running = false := by
  constructor
  · rintro h r ⟨hmem, hname⟩
    have hrun := (@normalizeCheckRun_eq_some strOf _ _).mpr ⟨r, rfl, hname, rfl⟩
    exact (checkError_run hrun).mp (h _ (List.mem_filterMap.mpr ⟨_, hmem, hrun⟩))
  · intro h c hc
    obtain ⟨v, hv, hrun⟩ := List.mem_filterMap.mp hc
    obtain ⟨r, rfl, hname, -⟩ := (normalizeCheckRun_eq_some).mp hrun
    exact (checkError_run hrun).mpr (h r ⟨hv, hname⟩)

/-- The event of the runs is the largest of their numbers. -/
theorem eventVersion_le_iff : (normalizeCheckRuns strOf runs).2 ≤ maxCiEventVersion ↔
    ∀ r, SeenRun runs r → normId (Json.getD r "id" .null) ≤ maxCiEventVersion := by
  have hzero : (0 : ℤ) ≤ maxCiEventVersion := by decide
  rw [normalizeCheckRuns, foldl_max_le_iff, and_iff_right hzero]
  constructor
  · rintro h r ⟨hmem, hname⟩
    have hrun := (@normalizeCheckRun_eq_some strOf _ _).mpr ⟨r, rfl, hname, rfl⟩
    exact h _ (List.mem_map.mpr ⟨_, List.mem_filterMap.mpr ⟨_, hmem, hrun⟩, rfl⟩)
  · intro h x hx
    obtain ⟨c, hc, rfl⟩ := List.mem_map.mp hx
    obtain ⟨v, hv, hrun⟩ := List.mem_filterMap.mp hc
    obtain ⟨r, rfl, hname, rfl⟩ := (normalizeCheckRun_eq_some).mp hrun
    exact h r ⟨hv, hname⟩

theorem eventVersion_statuses :
    ((normalizeStatuses strOf statuses).map ReadCheck.checkId).foldl max 0 = 0 := by
  refine le_antisymm ((foldl_max_le_iff).mpr ⟨le_refl 0, fun x hx => ?_⟩) le_foldl_max
  obtain ⟨c, hc, rfl⟩ := List.mem_map.mp hx
  obtain ⟨v, -, hstatus⟩ := List.mem_filterMap.mp hc
  obtain ⟨s, -, -, rfl⟩ := (normalizeStatus_eq_some).mp hstatus
  exact le_refl 0

/-- A list that a filter has cut in two was cut in two before. -/
theorem split_filterMap {f : Json → Option ReadCheck} {vs : List Json} {ds ds' : List ReadCheck}
    (h : vs.filterMap f = ds ++ c :: ds') :
    ∃ us v us', vs = us ++ v :: us' ∧ us.filterMap f = ds ∧ f v = some c := by
  obtain ⟨us, us₂, rfl, hds, h₂⟩ := List.filterMap_eq_append_iff.mp h
  obtain ⟨us₃, v, us', rfl, hnone, hv, -⟩ := List.filterMap_eq_cons_iff.mp h₂
  refine ⟨us ++ us₃, v, us', by simp, ?_, hv⟩
  rw [List.filterMap_append, hds, List.filterMap_eq_nil_iff.mpr hnone, List.append_nil]

/-- The merged checks, as the manager sees them. -/
theorem forall_checkError_merged_iff :
    (∀ c ∈ mergeChecks (normalizeCheckRuns strOf runs).1 (normalizeStatuses strOf statuses),
        checkError c = none) ↔
      (∀ c ∈ (normalizeCheckRuns strOf runs).1, checkError c = none) ∧
        ∀ s, NewStatus runs statuses s →
          statusStateToConclusion (Json.getD s "state" .null) ≠ some .unknown := by
  simp only [mem_mergeChecks, or_imp, forall_and, namesOf_normalizeCheckRuns]
  refine and_congr_right fun _ => ⟨?_, ?_⟩
  · rintro h s ⟨ss, ss', hsplit, hname, hnew, hfirst⟩
    have hstatus := (@normalizeStatus_eq_some strOf _ _).mpr ⟨s, rfl, hname, rfl⟩
    refine (checkError_status hstatus).mp (h _ ⟨ss.filterMap (normalizeStatus strOf),
      ss'.filterMap (normalizeStatus strOf), ?_, hnew, ?_⟩)
    · rw [normalizeStatuses, hsplit, List.filterMap_append, List.filterMap_cons_some hstatus]
    · rwa [namesOf_filterMap fun _ => name_normalizeStatus]
  · rintro h c ⟨ds, ds', hsplit, hnew, hfirst⟩
    obtain ⟨us, v, us', hcut, rfl, hstatus⟩ := split_filterMap hsplit
    obtain ⟨s, rfl, hname, hc⟩ := normalizeStatus_eq_some.mp hstatus
    rw [namesOf_filterMap fun _ => name_normalizeStatus] at hfirst
    subst hc
    exact (checkError_status hstatus).mpr (h s ⟨us, us', hcut, hname, hnew, hfirst⟩)

theorem prStateOf_ne_other {d : Fields} : prStateOf d ≠ .other := by
  unfold prStateOf
  split_ifs <;> decide

variable {repository ref : PyStr} {prNumber : ℕ} {pr runsReply statusReply : Reply}

/-- Where nothing went wrong, all three answers had what was asked for. -/
theorem readCiState_clean
    (h : (readCiState strOf repository prNumber pr runsReply statusReply).providerError = none) :
    ∃ d rs ss, pr.dict? = some d ∧ runsReply.list? "check_runs" = some rs ∧
      statusReply.list? "statuses" = some ss := by
  cases hpr : pr.dict? with
  | none => simp [readCiState, hpr] at h
  | some d =>
    cases hruns : runsReply.list? "check_runs" with
    | none => simp [readCiState, hpr, hruns] at h
    | some rs =>
      cases hstatuses : statusReply.list? "statuses" with
      | none => simp [readCiState, hpr, hruns, hstatuses] at h
      | some ss => exact ⟨d, rs, ss, rfl, rfl, rfl⟩

/-- What the two lists must be like for the manager to let the read through. -/
def AnswersWithinBounds (runsReply statusReply : Reply) : Prop :=
  ∀ rs ss, runsReply.list? "check_runs" = some rs → statusReply.list? "statuses" = some ss →
    WithinBounds rs ss

/-- **A read in which nothing went wrong is let through exactly if the numbers of the check
runs are small, none of them has both ended and not, no commit status has a state that is not
listed, and there are not too many names.** -/
theorem validateRead_readCiState_iff (href : parseCiRef ref = some (repository, prNumber))
    (hclean : (readCiState strOf repository prNumber pr runsReply statusReply).providerError =
      none) :
    validateRead (readCiState strOf repository prNumber pr runsReply statusReply) ref = none ↔
      AnswersWithinBounds runsReply statusReply := by
  obtain ⟨d, rs, ss, hpr, hruns, hstatuses⟩ := readCiState_clean hclean
  have hbounds : AnswersWithinBounds runsReply statusReply ↔ WithinBounds rs ss := by
    simp [AnswersWithinBounds, hruns, hstatuses]
  have hnonneg : (0 : ℤ) ≤ (normalizeCheckRuns strOf rs).2 := le_foldl_max
  have hevent : max (normalizeCheckRuns strOf rs).2 0 = (normalizeCheckRuns strOf rs).2 :=
    max_eq_left hnonneg
  have hlen := @length_mergeChecks (normalizeCheckRuns strOf rs).1 (normalizeStatuses strOf ss)
  rw [namesOf_normalizeStatuses, namesOf_normalizeCheckRuns] at hlen
  have hruns_len : (normalizeCheckRuns strOf rs).1.length = (runNames rs).length := by
    rw [← @namesOf_normalizeCheckRuns strOf, namesOf, List.length_map]
  rw [hruns_len] at hlen
  simp only [validateRead, href, readCiState, hpr, hruns, hstatuses, eventVersion_statuses, hevent,
    prStateOf_ne_other, ne_eq, not_true_eq_false, decide_false, Bool.or_self, if_false,
    Bool.false_eq_true, reduceCtorEq]
  rw [hbounds]
  by_cases hfew : (runNames rs).length +
      ((statusNames ss).toFinset \ (runNames rs).toFinset).card ≤ maxCiChecks
  · rw [if_neg (by rw [hlen]; omega), Option.or_eq_none_iff, List.findSome?_eq_none_iff,
      forall_checkError_merged_iff, forall_checkError_runs_iff]
    have hversion : (if (decide ((normalizeCheckRuns strOf rs).2 < 0) ||
        decide (maxCiEventVersion < (normalizeCheckRuns strOf rs).2)) = true then
          some ReadError.badEventVersion else none) = none ↔
        ∀ r, SeenRun rs r → normId (Json.getD r "id" .null) ≤ maxCiEventVersion := by
      rw [← @eventVersion_le_iff strOf]
      simp [not_lt.mpr hnonneg]
    rw [hversion]
    exact ⟨fun h => ⟨h.2, h.1.1, h.1.2, hfew⟩, fun h => ⟨⟨h.ended, h.listed⟩, h.ids⟩⟩
  · rw [if_pos (by rw [hlen]; omega)]
    exact iff_of_false (fun h => by cases h) fun h => hfew h.few

/-! ### An answer that does not get through -/

/-- An answer with a pull request that is open. -/
def openPr : Reply :=
  .body (some (Json.dict
    [("state", Json.text "OPEN"), ("headRefOid", Json.text "abc"),
      ("baseRefName", Json.text "main")]))

/-- An answer with one check run, that has succeeded. -/
def oneRun (id : ℤ) : Reply :=
  .body (some (Json.dict [("check_runs", .arr [Json.dict [("name", Json.text "ci"),
    ("status", Json.text "completed"), ("conclusion", Json.text "success"), ("id", .int id)]])]))

/-- An answer without commit statuses. -/
def noStatuses : Reply := .body (some (Json.dict [("statuses", .arr [])]))

/-- A check run whose number has 32 bits is an answer that the manager never lets through. -/
theorem large_id_rejected :
    ¬((readCiState (fun _ => []) (PyStr.ofString "o/r") 1 openPr (oneRun (2 ^ 31))
      noStatuses).providerError =
        none →
      validateRead
        (readCiState (fun _ => []) (PyStr.ofString "o/r") 1 openPr (oneRun (2 ^ 31)) noStatuses)
        (PyStr.ofString "o/r#1") = none) := by
  decide +kernel

/-- One with a smaller number gets through. -/
theorem small_id_accepted :
    (parseCiRef (PyStr.ofString "o/r#1") = some (PyStr.ofString "o/r", 1) ∧
      (readCiState (fun _ => []) (PyStr.ofString "o/r") 1 openPr (oneRun 7)
        noStatuses).providerError =
        none) ∧
      (validateRead
        (readCiState (fun _ => []) (PyStr.ofString "o/r") 1 openPr (oneRun 7) noStatuses)
        (PyStr.ofString "o/r#1") = none ↔ AnswersWithinBounds (oneRun 7) noStatuses) :=
  ⟨by decide,
    validateRead_readCiState_iff (by decide +kernel) (by decide +kernel)⟩

end External

end ArgentTeam
