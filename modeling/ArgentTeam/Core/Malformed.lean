import ArgentTeam.Core.Consume

/-!
# Malformed outputs

The validator is meant to refuse whatever is malformed with one exception, which the Core turns
into a rejected dispatch. Two things come in between. Before it looks at the nesting depth of a
result the validator walks through all of it, twice, as far as the interpreter lets it; and it asks
whether a value is in a set before it knows that the value is a string, which a list and a
dictionary answer with an exception of their own.

`trips_iff` says which results run into that, and `malformed_output_iff` what the Core makes of
them: the dispatch of every other malformed result is rejected.
-/

namespace ArgentTeam

open Prog Store

/-- `OutputValidationError`. -/
def Error.IsOutputValidation : Error → Prop
  | .error .outputValidationError _ _ => True
  | _ => False

namespace Outputs

/-! ### The validator on a stack -/

/-- How deeply nested a value may be for the interpreter to walk through it: in `json.dumps`, and
in `_depth`. The other walks take no more frames than `_depth` does, and are made over values that
it has been through. -/
structure Stack where
  dumps : ℕ
  calls : ℕ

/-- A walk through a value of a depth, with room for a depth: `RecursionError` where there is too
little. -/
def walk (room depth : ℕ) : Except Error Unit :=
  if room < depth then .error (.error .recursionError "maximum recursion depth exceeded" [])
  else .ok ()

/-- `validate_role_output`, with the walks that may exhaust the stack. -/
def validateRoleOutputOn (stack : Stack) (role : Role) : Json → Except Error Unit
  | .obj fields => do
    walk stack.dumps (Json.depth 1 (.obj fields))
    check ((Json.obj fields).dumps.length ≤ 256 * 1024) "output exceeds 256 KB limit" []
    walk stack.calls (Json.depth 1 (.obj fields))
    validateRoleOutput role (.obj fields)
  | _ => malformed "output must be a dict" []

/-- The result as the validator returns it. -/
def acceptOn (stack : Stack) (role : Role) (result : Json) : Except Error (RoleOutput role) :=
  match validateRoleOutputOn stack role result with
  | .ok () => accept role result
  | .error e => .error e

/-! ### What the validator raises -/

/-- All that a check raises is the exception of the validator. -/
def Proper (x : Except Error Unit) : Prop := ∀ e, x = .error e → e.IsOutputValidation

/-- A value that cannot be hashed. -/
def Unhashable : Json → Prop
  | .arr _ | .obj _ => True
  | _ => False

/-- A list has an element that trips a check, and the check gets that far. -/
def Reaches (validate : ℕ → Json → Except Error Unit) (trips : Json → Prop) (xs : List Json) :
    Prop :=
  ∃ before x after, xs = before ++ x :: after ∧ checkEach validate 0 before = .ok () ∧ trips x

/-- A finding that has no other fields than a finding may have, and a severity that cannot be
hashed. -/
def FindingTrips : Json → Prop
  | .obj f => unknownKeys f ["severity", "description", "title", "id"] = [] ∧
      ∃ v, Json.get? f "severity" = some v ∧ Unhashable v
  | _ => False

/-- A test that has a name, no other fields than a test may have, and a result that cannot be
hashed. -/
def TestTrips : Json → Prop
  | .obj t => unknownKeys t ["name", "result"] = [] ∧
      (∃ s, Json.get? t "name" = some (.str s)) ∧ ∃ v, Json.get? t "result" = some v ∧ Unhashable v
  | _ => False

/-- A security or architecture finding that has no other fields than it may have, and a severity
that cannot be hashed. -/
def SecArchTrips : Json → Prop
  | .obj f => unknownKeys f ["severity", "description"] = [] ∧
      ∃ v, Json.get? f "severity" = some v ∧ Unhashable v
  | _ => False

def fieldElems (fields : List (PyStr × Json)) (field : String) : List Json :=
  (Json.getD fields field .null).elems

/-- **What trips the checks of the nested fields**, one after the other. -/
inductive NestedTrips (fields : List (PyStr × Json)) : Prop
  | finding (h : Reaches validateFinding FindingTrips (fieldElems fields "findings"))
  | test (hfindings : validateField fields "findings" validateFinding = .ok ())
      (hstrings : ∀ field ∈ stringListFields, ∀ v ∈ fieldElems fields field,
        isInstance v .str = true)
      (h : Reaches validateTest TestTrips (fieldElems fields "tests"))
  | security (hfindings : validateField fields "findings" validateFinding = .ok ())
      (hstrings : ∀ field ∈ stringListFields, ∀ v ∈ fieldElems fields field,
        isInstance v .str = true)
      (htests : validateField fields "tests" validateTest = .ok ())
      (h : Reaches (validateSecArchFinding "security_findings") SecArchTrips
        (fieldElems fields "security_findings"))
  | architecture (hfindings : validateField fields "findings" validateFinding = .ok ())
      (hstrings : ∀ field ∈ stringListFields, ∀ v ∈ fieldElems fields field,
        isInstance v .str = true)
      (htests : validateField fields "tests" validateTest = .ok ())
      (hsecurity : validateField fields "security_findings"
        (validateSecArchFinding "security_findings") = .ok ())
      (h : Reaches (validateSecArchFinding "architecture_findings") SecArchTrips
        (fieldElems fields "architecture_findings"))

/-- **What trips the validator**: a result too deeply nested for `json.dumps`, or one that is
small enough and too deeply nested for `_depth`, or one that passes all checks up to a value that
cannot be hashed, where a text of a set is expected. -/
inductive Trips (stack : Stack) (role : Role) : Json → Prop
  /-- `json.dumps` gives up. -/
  | dumps {fields : List (PyStr × Json)} (h : stack.dumps < Json.depth 1 (.obj fields)) :
      Trips stack role (.obj fields)
  /-- `_depth` gives up. -/
  | calls {fields : List (PyStr × Json)}
      (hsize : (Json.obj fields).dumps.length ≤ 256 * 1024)
      (h : stack.calls < Json.depth 1 (.obj fields)) : Trips stack role (.obj fields)
  | nested {fields : List (PyStr × Json)} (hlimits : checkLimits (.obj fields) = .ok ())
      (hfields : checkFields role fields = .ok ())
      (henvelope : checkEnvelope role fields = .ok ()) (h : NestedTrips fields) :
      Trips stack role (.obj fields)

section Proper

variable {x y : Except Error Unit} {α : Type} {f : α → Except Error Unit}
  {g : ℕ → Json → Except Error Unit} {xs : List Json} {v : Json} {i : ℕ}
  {fields : List (PyStr × Json)} {role : Role} {text : String} {u : Unit}

@[simp]
theorem proper_ok : Proper (.ok u) := fun _ h => nomatch h

@[simp]
theorem proper_malformed {values : List String} :
    Proper (malformed text values) := by
  rintro _ ⟨⟩
  trivial

@[simp]
theorem proper_check {c : Bool} {values : List String} :
    Proper (check c text values) := by
  unfold check
  split
  · exact proper_ok
  · exact proper_malformed

theorem not_proper_walk {room depth : ℕ} : ¬Proper (walk room depth) ↔ room < depth := by
  unfold walk
  split
  next h => exact ⟨fun _ => h, fun _ hproper => hproper _ rfl⟩
  next h => simp [h]

theorem walk_eq_ok {room depth : ℕ} : walk room depth = .ok u ↔ ¬room < depth := by
  unfold walk
  split <;> simp [*]

theorem not_proper_bind : ¬Proper (x >>= fun _ => y) ↔ ¬Proper x ∨ x = .ok () ∧ ¬Proper y := by
  cases x with
  | ok u => simp [bind, Except.bind]
  | error e => simp [bind, Except.bind, Proper]

theorem not_proper_inSet {values path : List String} :
    ¬Proper (inSet v values text path) ↔ Unhashable v := by
  cases v with
  | arr | obj => exact ⟨fun _ => trivial, fun _ h => h _ rfl⟩
  | _ => simp [inSet, Unhashable]

theorem proper_checkAll (h : ∀ a, Proper (f a)) (as : List α) : Proper (checkAll f as) := by
  induction as with
  | nil => exact proper_ok
  | cons a as ih =>
    by_contra hcon
    rcases (not_proper_bind).mp hcon with ha | ⟨-, has⟩
    · exact ha (h a)
    · exact has ih

/-- A walk over a list raises something else at the first element that makes it do so, if it gets
that far. -/
theorem not_proper_checkEach {trips : Json → Prop} (h : ∀ i v, ¬Proper (g i v) ↔ trips v) :
    ¬Proper (checkEach g i xs) ↔ ∃ before v after, xs = before ++ v :: after ∧
      checkEach g i before = .ok () ∧ trips v := by
  induction xs generalizing i with
  | nil => simp [checkEach]
  | cons x xs ih =>
    rw [checkEach, not_proper_bind, h, ih]
    constructor
    · rintro (hx | ⟨hx, before, v, after, rfl, hbefore, hv⟩)
      · exact ⟨[], x, xs, rfl, rfl, hx⟩
      · exact ⟨x :: before, v, after, rfl, bind_eq_ok.mpr ⟨hx, hbefore⟩, hv⟩
    · rintro ⟨before, v, after, heq, hbefore, hv⟩
      cases before with
      | nil =>
        obtain ⟨rfl, rfl⟩ := List.cons.inj heq
        exact .inl hv
      | cons y before =>
        obtain ⟨rfl, rfl⟩ := List.cons.inj heq
        obtain ⟨hy, hrest⟩ := bind_eq_ok.mp hbefore
        exact .inr ⟨hy, before, v, after, rfl, hrest, hv⟩

theorem not_proper_validateField {trips : Json → Prop} {field : String}
    (h : ∀ i v, ¬Proper (g i v) ↔ trips v) :
    ¬Proper (validateField fields field g) ↔ Reaches g trips (fieldElems fields field) :=
  not_proper_checkEach h

/-! ### The elements -/

theorem not_proper_validateFinding (i : ℕ) (v : Json) :
    ¬Proper (validateFinding i v) ↔ FindingTrips v := by
  cases v with
  | obj f =>
    cases hseverity : Json.get? f "severity" with
    | none => simp [validateFinding, FindingTrips, not_proper_bind, hseverity]
    | some v =>
      simp only [validateFinding, FindingTrips, not_proper_bind, not_proper_inSet, hseverity,
        proper_check, check_eq_ok, List.isEmpty_iff, not_true_eq_false, false_or, and_false,
        or_false, Option.some.injEq, exists_eq_left']
      -- the texts come behind the severity, and their check is proper
      refine and_congr_right fun _ => ⟨fun h => h.elim id fun h => ?_, .inl⟩
      exact absurd (proper_checkAll (fun k => by split <;> simp) _) h.2
  | _ => simp [validateFinding, FindingTrips]

theorem not_proper_validateTest (i : ℕ) (v : Json) :
    ¬Proper (validateTest i v) ↔ TestTrips v := by
  cases v with
  | obj t =>
    cases hname : Json.get? t "name" with
    | none => simp [validateTest, TestTrips, not_proper_bind, hname]
    | some name =>
      cases hresult : Json.get? t "result" with
      | none => simp [validateTest, TestTrips, not_proper_bind, hname, hresult]
      | some result =>
        simp [validateTest, TestTrips, not_proper_bind, not_proper_inSet, hname, hresult,
          List.isEmpty_iff, isInstance_str]
  | _ => simp [validateTest, TestTrips]

theorem not_proper_validateSecArchFinding (field : String) (i : ℕ) (v : Json) :
    ¬Proper (validateSecArchFinding field i v) ↔ SecArchTrips v := by
  cases v with
  | obj f =>
    cases hseverity : Json.get? f "severity" with
    | none =>
      cases hdescription : Json.get? f "description" with
      | none | some =>
        simp [validateSecArchFinding, SecArchTrips, not_proper_bind, hseverity, hdescription]
    | some v =>
      have hne : f ≠ [] := by
        rintro rfl
        cases hseverity
      cases hdescription : Json.get? f "description" with
      | none | some =>
        simp [validateSecArchFinding, SecArchTrips, not_proper_bind, not_proper_inSet, hseverity,
          hdescription, List.isEmpty_iff, hne]
  | _ => simp [validateSecArchFinding, SecArchTrips]

/-! ### The whole of a result -/

theorem checkEach_check_eq_ok {c : Json → Bool} {values : ℕ → List String}
    : checkEach (fun i v => check (c v) text (values i)) i xs = .ok u ↔
      ∀ v ∈ xs, c v = true := by
  induction xs generalizing i with
  | nil => simp [checkEach]
  | cons x xs ih => rw [checkEach, bind_eq_ok, check_eq_ok, ih, List.forall_mem_cons]

theorem validateField_check_eq_ok {c : Json → Bool} {text field : String}
    {values : ℕ → List String} :
    validateField fields field (fun i v => check (c v) text (values i)) = .ok u ↔
      ∀ v ∈ fieldElems fields field, c v = true :=
  checkEach_check_eq_ok

theorem hashable_of_checkTypes {types : List (String × FieldType)} {key : String}
    (h : checkTypes fields types = .ok ()) (hmem : (key, FieldType.str) ∈ types) :
    ¬Unhashable (Json.getD fields key .null) := by
  have htype := checkAll_eq_ok.mp h _ hmem
  rw [Json.getD]
  cases hget : Json.get? fields key with
  | none => exact id
  | some v =>
    simp only [hget, check_eq_ok] at htype
    obtain ⟨s, rfl⟩ := isInstance_str.mp htype
    exact id

theorem proper_checkTypes (types : List (String × FieldType)) : Proper (checkTypes fields types) :=
  proper_checkAll (fun f => by split <;> simp) _

theorem proper_checkLimits (result : Json) : Proper (checkLimits result) := by
  by_contra hcon
  simp [checkLimits, not_proper_bind] at hcon

theorem proper_checkFields : Proper (checkFields role fields) := by
  by_contra hcon
  simp [checkFields, not_proper_bind, proper_checkTypes,
    proper_checkAll (f := fun f : String × FieldType =>
      check (Json.has fields f.1) "missing required field(s): %s" [f.1])
      fun _ => proper_check] at hcon

theorem checkTypes_of_checkFields (h : checkFields role fields = .ok ()) :
    checkTypes fields commonFields = .ok () ∧ checkTypes fields (roleFields role) = .ok () := by
  simp only [checkFields, bind_eq_ok] at h
  exact ⟨h.2.2.1, h.2.2.2.1⟩

theorem proper_checkEnvelope (h : checkFields role fields = .ok ()) :
    Proper (checkEnvelope role fields) := by
  obtain ⟨hcommon, hrole⟩ := checkTypes_of_checkFields h
  have hstatus : ¬Unhashable (Json.getD fields "status" .null) :=
    hashable_of_checkTypes hcommon (by decide)
  by_contra hcon
  simp only [checkEnvelope, not_proper_bind, proper_check, not_true_eq_false, false_or,
    not_proper_inSet, hstatus] at hcon
  obtain ⟨-, -, -, hdecision⟩ := hcon
  split at hdecision
  next hlead =>
    subst hlead
    have hhash : ¬Unhashable (Json.getD fields "decision" .null) :=
      hashable_of_checkTypes hrole (by decide)
    exact hhash (not_proper_inSet.mp hdecision)
  · exact hdecision proper_ok

theorem not_proper_checkNested (h : checkFields role fields = .ok ()) :
    ¬Proper (checkNested role fields) ↔ NestedTrips fields := by
  have hstrings : Proper (checkAll (fun field => validateField fields field fun i v =>
      check (isInstance v .str) "output.%s[%s] must be a str" [field, toString i])
      stringListFields) := by
    refine proper_checkAll (fun field => ?_) _
    by_contra hcon
    obtain ⟨-, -, -, -, -, hfalse⟩ :=
      (@not_proper_validateField _ _ (fun _ => False) _ fun i v => by simp).mp hcon
    exact hfalse
  have hseverity : Proper (if role = .reviewer then
      inSet (Json.getD fields "severity" .null) severityValues "severity must be one of" []
      else .ok ()) := by
    by_contra hcon
    split at hcon
    next hreviewer =>
      subst hreviewer
      have hhash : ¬Unhashable (Json.getD fields "severity" .null) :=
        hashable_of_checkTypes (checkTypes_of_checkFields h).2 (by decide)
      exact hhash (not_proper_inSet.mp hcon)
    · exact hcon proper_ok
  simp only [checkNested, not_proper_bind, hstrings, hseverity, not_true_eq_false, false_or,
    and_false, or_false, not_proper_validateField not_proper_validateFinding,
    not_proper_validateField not_proper_validateTest,
    not_proper_validateField (not_proper_validateSecArchFinding _), checkAll_eq_ok,
    validateField_check_eq_ok]
  constructor
  · rintro (hfinding | ⟨hfindings, htexts, htest | ⟨htests, hsecurity | ⟨hsec, harch⟩⟩⟩)
    · exact .finding hfinding
    · exact .test hfindings htexts htest
    · exact .security hfindings htexts htests hsecurity
    · exact .architecture hfindings htexts htests hsec harch
  · rintro (hfinding | ⟨hfindings, htexts, htest⟩ | ⟨hfindings, htexts, htests, hsecurity⟩ |
      ⟨hfindings, htexts, htests, hsec, harch⟩)
    · exact .inl hfinding
    · exact .inr ⟨hfindings, htexts, .inl htest⟩
    · exact .inr ⟨hfindings, htexts, .inr ⟨htests, .inl hsecurity⟩⟩
    · exact .inr ⟨hfindings, htexts, .inr ⟨htests, .inr ⟨hsec, harch⟩⟩⟩

theorem not_proper_validateRoleOutput : ¬Proper (validateRoleOutput role (.obj fields)) ↔
    checkLimits (.obj fields) = .ok () ∧ checkFields role fields = .ok () ∧
      checkEnvelope role fields = .ok () ∧ NestedTrips fields := by
  simp only [validateRoleOutput, not_proper_bind, proper_checkLimits, proper_checkFields,
    not_true_eq_false, false_or]
  refine and_congr_right fun _ => and_congr_right fun hfields => ?_
  rw [not_proper_checkNested hfields]
  constructor
  · rintro (henvelope | ⟨henvelope, hnested | ⟨-, hrest⟩⟩)
    · exact absurd (proper_checkEnvelope hfields) henvelope
    · exact ⟨henvelope, hnested⟩
    · refine absurd ?_ hrest
      -- what the scan finds is malformed
      split <;> simp
  · rintro ⟨henvelope, hnested⟩
    exact .inr ⟨henvelope, .inl hnested⟩

/-- **Which results trip the validator.** -/
theorem trips_iff {stack : Stack} {result : Json} :
    Trips stack role result ↔ ¬Proper (validateRoleOutputOn stack role result) := by
  cases result with
  | obj fields =>
    simp only [validateRoleOutputOn, not_proper_bind, not_proper_walk, walk_eq_ok, proper_check,
      not_true_eq_false, false_or, not_proper_validateRoleOutput, check_eq_ok, decide_eq_true_eq]
    constructor
    · rintro (hdumps | ⟨hsize, hcalls⟩ | ⟨hlimits, hfields, henvelope, hnested⟩)
      · exact .inl hdumps
      · exact (em _).imp_right fun hdumps => ⟨hdumps, hsize, .inl hcalls⟩
      · have hsize := (bind_eq_ok.mp hlimits).1
        exact (em _).imp_right fun hdumps => ⟨hdumps, of_decide_eq_true (check_eq_ok.mp hsize),
          (em _).imp_right fun hcalls => ⟨hcalls, hlimits, hfields, henvelope, hnested⟩⟩
    · rintro (hdumps | ⟨-, hsize, hcalls | ⟨-, hlimits, hfields, henvelope, hnested⟩⟩)
      · exact .dumps hdumps
      · exact .calls hsize hcalls
      · exact .nested hlimits hfields henvelope hnested
  | _ =>
    constructor
    · intro htrips
      cases htrips
    · exact fun h => absurd proper_malformed h

end Proper

end Outputs

namespace Core

/-! ### What the Core makes of it -/

/-- A malformed result: its dispatch is rejected, and the event is put into quarantine. -/
def rejectMalformed (cfg : Config) (d : AgentDispatch) (dispatchId : String) (eventMeta : Json) :
    Cmd ReceiveResult := do
  let _ ← nowIso
  let _ ← updateDispatchStatus d.id .rejected
  refuse cfg (.text d.taskId.text) dispatchId "malformed_output" "rejected" eventMeta

/-- A result for a dispatch that has not been consumed, validated on a stack. -/
def receiveOpenOn (stack : Outputs.Stack) (cfg : Config) (d : AgentDispatch) (dispatchId : String)
    (eventMeta result : Json) : Cmd ReceiveResult := do
  let reason ← read fun w => refusal w.db d eventMeta result
  caseSome reason
    (fun reason => refuse cfg (.text d.taskId.text) dispatchId reason "rejected" eventMeta)
    (match Outputs.acceptOn stack d.role result with
      | .ok out => consumeWork cfg d dispatchId out
      | .error (.error .outputValidationError _ _) => rejectMalformed cfg d dispatchId eventMeta
      | .error e => raise e)

/-- `_receive_work`, on a stack. -/
def receiveWorkOn (stack : Outputs.Stack) (cfg : Config) (dispatchId : String)
    (eventMeta result : Json) : Cmd ReceiveResult := do
  let d ← read fun w => w.db.getDispatch dispatchId
  caseSome d
    (fun d =>
      if d.status = .consumed then receiveConsumed cfg d dispatchId eventMeta
      else receiveOpenOn stack cfg d dispatchId eventMeta result)
    (refuse cfg (claimedTask eventMeta) dispatchId "dispatch_unknown" "unknown" eventMeta)

/-! ### The metadata of the event -/

/-- One value of the sanitized metadata, if it can be sanitized. -/
def cleaned (cfg : Config) (value : Json) : Option Json :=
  let s : PyStr := (if value = .null then PyStr.ofString "<none>" else strOf cfg value).take 512
  if containsDenylisted s = none then some (.str s)
  else s.encode?.map fun utf8 => .text ("<redacted:" ++ cfg.digest12 utf8 ++ ">")

/-- The metadata of an event can be put into quarantine. -/
def Quarantinable (cfg : Config) (eventMeta : Json) : Prop :=
  ∀ fields, eventMeta = .obj fields →
    ∀ key ∈ ["child_session_id", "run_id", "event_type", "status"],
      (cleaned cfg (Json.getD fields key .null)).isSome = true

section Rejected

variable {cfg : Config} {value eventMeta result v : Json} {w w' : World} {d : AgentDispatch}
  {dispatchId reason status : String} {taskId : Uuid} {r : ReceiveResult} {stack : Outputs.Stack}

theorem returns_cleanMeta : (cleanMeta cfg value).Returns w v w' ↔
    cleaned cfg value = some v ∧ w = w' := by
  unfold cleanMeta cleaned
  extract_lets s
  split
  · simp
  · simp only [returns_bind, returns_orRaise, returns_pure, Option.map_eq_some_iff]
    constructor
    · rintro ⟨utf8, _, ⟨hutf8, rfl⟩, hv, rfl⟩
      exact ⟨⟨utf8, hutf8, hv⟩, rfl⟩
    · rintro ⟨⟨utf8, hutf8, hv⟩, rfl⟩
      exact ⟨utf8, w, ⟨hutf8, rfl⟩, hv, rfl⟩

theorem eq_of_sanitizeEventMeta (h : (sanitizeEventMeta cfg eventMeta).Returns w v w') :
    w' = w ∧ Quarantinable cfg eventMeta := by
  unfold sanitizeEventMeta at h
  split at h
  next fields =>
    simp only [returns_bind, returns_cleanMeta, returns_pure] at h
    obtain ⟨session, _, ⟨hsession, rfl⟩, run, _, ⟨hrun, rfl⟩, type, _, ⟨htype, rfl⟩, status, _,
      ⟨hstatus, rfl⟩, -, rfl⟩ := h
    refine ⟨rfl, fun fields' heq => ?_⟩
    obtain rfl := Json.obj.inj heq
    simp [hsession, hrun, htype, hstatus]
  next hnot =>
    simp only [returns_pure] at h
    exact ⟨h.2.symm, fun fields heq => absurd heq (hnot fields)⟩

theorem exists_sanitizeEventMeta (h : Quarantinable cfg eventMeta) (w : World) :
    ∃ v, (sanitizeEventMeta cfg eventMeta).Returns w v w := by
  unfold sanitizeEventMeta
  split
  next fields =>
    have hkeys := h fields rfl
    simp only [List.forall_mem_cons, List.not_mem_nil, false_implies, implies_true, and_true,
      Option.isSome_iff_exists] at hkeys
    obtain ⟨⟨session, hsession⟩, ⟨run, hrun⟩, ⟨type, htype⟩, status, hstatus⟩ := hkeys
    simp only [returns_bind, returns_cleanMeta, returns_pure]
    exact ⟨_, session, w, ⟨hsession, rfl⟩, run, w, ⟨hrun, rfl⟩, type, w, ⟨htype, rfl⟩, status, w,
      ⟨hstatus, rfl⟩, rfl, rfl⟩
  · exact ⟨_, returns_pure.mpr ⟨rfl, rfl⟩⟩

theorem quarantinable_of_refuse
    (h : (refuse cfg (.text taskId.text) dispatchId reason status eventMeta).Returns w r w') :
    Quarantinable cfg eventMeta := by
  simp only [refuse, quarantine, returns_bind] at h
  obtain ⟨-, _, ⟨-, _, -, _, _, hsanitize, -⟩, -⟩ := h
  exact (eq_of_sanitizeEventMeta hsanitize).2

theorem exists_emit {type : String} {claimed payload : Json} {role state : Option String}
    (hclean : checkEvent type claimed role state payload = none) (hbind : claimed.bindable)
    (w : World) : ∃ w', (emit type claimed role state payload).Returns w () w' := by
  simp only [emit, returns_bind, returns_uuid4, returns_nowIso, returns_require,
    Relvar.returns_insertOrIgnore]
  exact ⟨_, _, _, ⟨rfl, rfl⟩, _, _, ⟨rfl, rfl⟩, (), _, ⟨hclean, rfl⟩, (), _, ⟨hbind, rfl⟩, rfl⟩

/-- An event whose metadata can be put into quarantine is, under an identifier that is new, and
its refusal is reported. -/
theorem exists_refuse (hmeta : Quarantinable cfg eventMeta) (id : Uuid)
    (hfresh : ∀ q ∈ w.db.log.quarantine.rows, q.id ≠ w.uuids w.draws) :
    ∃ w', (refuse cfg (.text taskId.text) id.text "malformed_output" status eventMeta).Returns w
      ⟨id.text, status, some "malformed_output"⟩ w' := by
  have hclean : checkEvent "agent.result_rejected" (.text taskId.text) none none
      (.dict [("reason", .text "malformed_output"), ("dispatch_id", .text id.text)]) = none := by
    have hwords : ∀ s ∈ ["agent.result_rejected", "reason", "malformed_output", "dispatch_id"],
        containsDenylisted (PyStr.ofString s) = none := by decide +kernel
    have hpayload : scanValue (.dict [("reason", .text "malformed_output"),
        ("dispatch_id", .text id.text)]) = none := by
      refine scanValue_dict fun f hf => ?_
      rcases List.mem_pair.mp hf with rfl | rfl
      · exact ⟨hwords _ (by simp), scanValue_text.trans (hwords _ (by simp))⟩
      · exact ⟨hwords _ (by simp), scanValue_text.trans id.clean⟩
    simp only [Json.text] at hpayload
    simp [checkEvent, Json.text, Json.optText, hwords "agent.result_rejected", hpayload]
  obtain ⟨v, hv⟩ := exists_sanitizeEventMeta hmeta { w with draws := w.draws + 1 }
  obtain ⟨t, ht⟩ := Table.exists_insert? (t := w.db.log.quarantine)
    (r := ⟨w.uuids w.draws, .text taskId.text, id.text, "malformed_output", v⟩) fun q hq =>
      decide_eq_false (hfresh q hq)
  have hquarantine : (quarantine cfg (.text taskId.text) id.text "malformed_output"
      eventMeta).Returns w ()
      (Tables.quarantine.set t { w with draws := w.draws + 1, reads := w.reads + 1 }) := by
    simp only [quarantine, insertQuarantine, returns_bind, returns_uuid4, returns_nowIso,
      returns_require, Relvar.returns_insert]
    exact ⟨_, _, ⟨rfl, rfl⟩, v, _, hv, _, _, ⟨rfl, rfl⟩, (), _, ⟨Json.bindable_text _, rfl⟩, t, ht,
      rfl⟩
  obtain ⟨w', hemit⟩ := exists_emit hclean (Json.bindable_text taskId.text)
    (Tables.quarantine.set t { w with draws := w.draws + 1, reads := w.reads + 1 })
  refine ⟨w', ?_⟩
  simp only [refuse, returns_bind, returns_pure]
  exact ⟨(), _, hquarantine, (), w', hemit, trivial, rfl⟩

/-- **A malformed result is rejected** if the event can be put into quarantine. -/
theorem returns_rejectMalformed (hd : w.db.getDispatch dispatchId = some d)
    (hfresh : ∀ q ∈ w.db.log.quarantine.rows, q.id ≠ w.uuids w.draws) :
    (∃ w', (rejectMalformed cfg d dispatchId eventMeta).Returns w
      ⟨dispatchId, "rejected", some "malformed_output"⟩ w' ∧
        ∃ d', w'.db.getDispatch dispatchId = some d' ∧ d'.status = .rejected) ↔
      Quarantinable cfg eventMeta := by
  obtain ⟨hmem, hid⟩ := Db.getDispatch_eq_some.mp hd
  subst hid
  constructor
  · rintro ⟨w', h, -⟩
    simp only [rejectMalformed, returns_bind] at h
    obtain ⟨-, _, -, -, _, -, hrefuse⟩ := h
    exact quarantinable_of_refuse hrefuse
  · intro hmeta
    obtain ⟨t, ht⟩ := Table.exists_update? w.db.core.agentDispatches (p := fun x => x.id = d.id)
      (f := fun x => { x with status := .rejected }) fun a _ b _ => by
        simp only [AgentDispatch.clash, Table.patch]
        grind [DispatchStatus.active]
    obtain ⟨w', hrefuse⟩ := @exists_refuse cfg eventMeta
      (Tables.agentDispatches.set t { w with reads := w.reads + 1 }) "rejected" d.taskId hmeta
      d.id hfresh
    refine ⟨w', ?_, { d with status := .rejected }, ?_, rfl⟩
    · simp only [rejectMalformed, returns_bind, returns_nowIso, updateDispatchStatus,
        Relvar.returns_update]
      exact ⟨_, _, ⟨rfl, rfl⟩, _, _, ⟨t, ht, rfl, rfl⟩, hrefuse⟩
    · have hcore := Moves.frame core hrefuse
      refine Db.getDispatch_eq_some.mpr ⟨?_, rfl⟩
      rw [show w'.db.core = _ from hcore]
      exact (Table.mem_of_update? ht).mpr ⟨d, hmem, Table.patch_pos (by simp)⟩

/-- A result that has got as far as the validator. -/
structure AtValidator (w : World) (d : AgentDispatch) (dispatchId : String)
    (eventMeta result : Json) : Prop where
  found : w.db.getDispatch dispatchId = some d
  unconsumed : d.status ≠ .consumed
  fits : refusal w.db d eventMeta result = none
  fresh : ∀ q ∈ w.db.log.quarantine.rows, q.id ≠ w.uuids w.draws

/-- The dispatch is rejected, and nothing is raised. -/
def Rejects (stack : Outputs.Stack) (cfg : Config) (w : World) (dispatchId : String)
    (eventMeta result : Json) : Prop :=
  ∃ w', (receiveWorkOn stack cfg dispatchId eventMeta result).Returns w
      ⟨dispatchId, "rejected", some "malformed_output"⟩ w' ∧
    ∃ d, w'.db.getDispatch dispatchId = some d ∧ d.status = .rejected

/-- At the validator, what the Core does next depends on what the validator says. -/
theorem returns_receiveWorkOn (h : AtValidator w d dispatchId eventMeta result) {e : Error}
    (hraises : Outputs.validateRoleOutputOn stack d.role result = .error e) :
    (receiveWorkOn stack cfg dispatchId eventMeta result).Returns w r w' ↔
      e.IsOutputValidation ∧ (rejectMalformed cfg d dispatchId eventMeta).Returns w r w' := by
  have haccept : Outputs.acceptOn stack d.role result = .error e := by
    rw [Outputs.acceptOn, hraises]
  simp only [receiveWorkOn, receiveOpenOn, returns_bind, returns_read, returns_caseSome,
    returns_ite]
  constructor
  · rintro ⟨o, _, ⟨hfound, rfl⟩, ⟨d', hd', hbranch⟩ | ⟨hnone, -⟩⟩
    · obtain rfl := Option.some.inj (h.found.symm.trans (hfound.trans hd'))
      rcases hbranch with ⟨hconsumed, -⟩ | ⟨-, reason, _, ⟨hreason, rfl⟩, hrest⟩
      · exact absurd hconsumed h.unconsumed
      · rcases hrest with ⟨text, htext, -⟩ | ⟨-, hrest⟩
        · rw [h.fits] at hreason
          rw [← hreason] at htext
          cases htext
        · rw [haccept] at hrest
          cases e with
          | approvalExpired id => exact absurd hrest not_returns_raise
          | error cls text values =>
            cases cls <;> first | exact ⟨trivial, hrest⟩ | exact absurd hrest not_returns_raise
    · rw [hnone] at hfound
      rw [h.found] at hfound
      cases hfound
  · rintro ⟨he, hrest⟩
    refine ⟨some d, w, ⟨h.found, rfl⟩, .inl ⟨d, rfl, .inr ⟨h.unconsumed, none, w, ⟨h.fits, rfl⟩,
      .inr ⟨rfl, ?_⟩⟩⟩⟩
    rw [haccept]
    cases e with
    | approvalExpired id => cases he
    | error cls text values => cases cls <;> first | exact hrest | cases he

/-- **What becomes of a malformed result**: its dispatch is rejected exactly if it does not trip
the validator, and the metadata of its event can be put into quarantine. -/
theorem rejects_iff (h : AtValidator w d dispatchId eventMeta result)
    (hmalformed : Outputs.validateRoleOutputOn stack d.role result ≠ .ok ()) :
    Rejects stack cfg w dispatchId eventMeta result ↔
      ¬Outputs.Trips stack d.role result ∧ Quarantinable cfg eventMeta := by
  cases hraises : Outputs.validateRoleOutputOn stack d.role result with
  | ok u => exact absurd hraises hmalformed
  | error e =>
    have hproper : ¬Outputs.Trips stack d.role result ↔ e.IsOutputValidation := by
      rw [Outputs.trips_iff, not_not, hraises]
      exact ⟨fun hproper => hproper e rfl, fun he e' heq => Except.error.inj heq ▸ he⟩
    rw [Rejects, hproper, ← returns_rejectMalformed h.found h.fresh]
    constructor
    · rintro ⟨w', hreturns, hrejected⟩
      obtain ⟨he, hrest⟩ := (returns_receiveWorkOn h hraises).mp hreturns
      exact ⟨he, w', hrest, hrejected⟩
    · rintro ⟨he, w', hrest, hrejected⟩
      exact ⟨w', (returns_receiveWorkOn h hraises).mpr ⟨he, hrest⟩, hrejected⟩

end Rejected

/-- **The validator raises one exception only**, and the Core rejects the dispatch of a malformed
result: the first exactly for the results that do not trip the validator, the second for those of
them whose event can be put into quarantine. -/
theorem malformed_output_iff (stack : Outputs.Stack) (role : Role) (result : Json) :
    ((∀ e, Outputs.validateRoleOutputOn stack role result = .error e → e.IsOutputValidation) ↔
      ¬Outputs.Trips stack role result) ∧
    ∀ (cfg : Config) (w : World) (d : AgentDispatch) (dispatchId : String) (eventMeta : Json),
      d.role = role → AtValidator w d dispatchId eventMeta result →
      Outputs.validateRoleOutputOn stack role result ≠ .ok () →
      (Rejects stack cfg w dispatchId eventMeta result ↔
        ¬Outputs.Trips stack role result ∧ Quarantinable cfg eventMeta) := by
  refine ⟨?_, ?_⟩
  · rw [Outputs.trips_iff, not_not]
    exact Iff.rfl
  · rintro cfg w d dispatchId eventMeta rfl h hmalformed
    exact rejects_iff h hmalformed

/-! ### A severity that is a list -/

/-- A lead's result with one finding, the severity of which is a list. -/
def listedSeverity : Json :=
  .dict ((outputFields .lead 6 (decided "accept")).map fun f =>
    if f.1 = "findings" then
      (f.1, .arr [.dict [("severity", .arr []), ("description", .text "flaky")]])
    else f)

def deepStack : Outputs.Stack := ⟨900, 450⟩

/-- **A malformed result may escape**: a finding whose severity is a list passes all checks before
it, and what is raised then is no `OutputValidationError`. The dispatch stays as it was. -/
theorem list_severity_escapes :
    ∃ e, (receiveWorkOn deepStack .lenient (num 6) (completed 6) listedSeverity leadWorld).1 =
        .error e ∧ ¬e.IsOutputValidation ∧
      Outputs.validateRoleOutputOn deepStack .lead listedSeverity = .error e ∧
      (leadWorld.db.getDispatch (num 6)).map AgentDispatch.status = some .running := by
  have hfacts : (receiveWorkOn deepStack .lenient (num 6) (completed 6) listedSeverity
        leadWorld).1 = .error (.error .typeError "unhashable type" []) ∧
      Outputs.validateRoleOutputOn deepStack .lead listedSeverity =
        .error (.error .typeError "unhashable type" []) ∧
      (leadWorld.db.getDispatch (num 6)).map AgentDispatch.status = some .running := by
    decide +kernel
  exact ⟨_, hfacts.1, id, hfacts.2⟩

def textFindings : Json :=
  .dict ((outputFields .lead 6 (decided "accept")).map fun f =>
    if f.1 = "findings" then (f.1, .text "flaky") else f)

/-- Such a result comes to the validator. -/
theorem malformed_output_iff_lead :
    Rejects deepStack .lenient leadWorld (num 6) (completed 6) textFindings ↔
      ¬Outputs.Trips deepStack .lead textFindings ∧ Quarantinable .lenient (completed 6) := by
  have hfacts : leadWorld.db.getDispatch (num 6) = some leadDispatch ∧ leadDispatch.role = .lead ∧
      leadDispatch.status ≠ .consumed ∧
      refusal leadWorld.db leadDispatch (completed 6) textFindings = none ∧
      (∀ q ∈ leadWorld.db.log.quarantine.rows, q.id ≠ leadWorld.uuids leadWorld.draws) ∧
      Outputs.validateRoleOutputOn deepStack .lead textFindings ≠ .ok () := by
    decide +kernel
  obtain ⟨hfound, hrole, hunconsumed, hfits, hfresh, hmalformed⟩ := hfacts
  exact (malformed_output_iff deepStack .lead textFindings).2 .lenient leadWorld leadDispatch
    (num 6) (completed 6) hrole ⟨hfound, hunconsumed, hfits, hfresh⟩ hmalformed

end Core

end ArgentTeam
