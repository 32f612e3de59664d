import ArgentTeam.Models

/-!
# Privacy filter and role outputs

Two walks over untrusted values. The privacy filter of `events.py` looks for the
words of a deny-list in every string of an event, keys included and case ignored. The
validator of `outputs.py` decides which structured results an agent may hand in: a
strict allow-list of fields for each role, types and value sets for each field, limits
on size and shape, and the deny-list over all of it.

A result the validator accepts is packed with the proof that it does, in a
`RoleOutput`: this is what the effects of a consumed dispatch are computed from.
-/

namespace ArgentTeam

/-! ### The deny-list -/

/-- The words no event and no output may contain. -/
def privacyDenylist : List String :=
  ["prompt", "chain_of_thought", "cot", "reasoning", "secret", "password", "api_key", "token",
    "credential", "mail_content", "mail_address", "email_address", "source_code", "code", "diff",
    "body", "subject", "content", "recipient"]

/-- The first deny-listed word in a text. -/
def containsDenylisted (text : PyStr) : Option String :=
  privacyDenylist.find? fun word => (PyStr.ofString word).contains text.lower

/-- The first deny-listed word in a value. -/
def scanValue (value : Json) : Option String := Json.scan containsDenylisted value

/-- The first deny-listed word in the envelope or the payload of an event. -/
def checkEvent (type : String) (taskId : Json) (role state : Option String) (payload : Json) :
    Option String :=
  [Json.text type, taskId, Json.optText role, Json.optText state].findSome? (fun v => match v with
    | .str s => containsDenylisted s
    | _ => none) <|> scanValue payload

/-! ### Role outputs -/

namespace Outputs

inductive FieldType
  | str
  | list
  | number
  | bool
  deriving DecidableEq

/-- `isinstance(value, expected)`; a boolean is a number. -/
def isInstance : Json → FieldType → Bool
  | .str _, .str => true
  | .arr _, .list => true
  | .int _, .number | .float _, .number | .bool _, .number => true
  | .bool _, .bool => true
  | _, _ => false

/-- The fields every role must hand in. -/
def commonFields : List (String × FieldType) :=
  [("role", .str), ("task_id", .str), ("dispatch_id", .str), ("status", .str),
    ("findings", .list), ("own_assessment", .str), ("concerns", .list), ("proposal", .str),
    ("alternatives", .list), ("confidence", .number), ("blockers", .list),
    ("requested_next_state", .str)]

def roleFields : Role → List (String × FieldType)
  | .lead => [("decision", .str), ("accepted_findings", .list), ("rejected_findings", .list),
      ("rationale", .str)]
  | .analyst => [("reproduction", .str), ("root_cause", .str), ("evidence_refs", .list)]
  | .implementer => [("changed_files", .list), ("implementation_summary", .str),
      ("tests_run", .list)]
  | .qa => [("tests", .list), ("failures", .list), ("regressions", .list),
      ("coverage_concerns", .list)]
  | .reviewer => [("severity", .str), ("security_findings", .list),
      ("architecture_findings", .list), ("recommendation", .str)]

/-- The fields a role may leave out. -/
def optionalFields : Role → List (String × FieldType)
  | .lead => [("rework_include_reviewer", .bool)]
  | _ => []

/-- Fields whose elements must all be strings. -/
def stringListFields : List String :=
  ["accepted_findings", "rejected_findings", "alternatives", "concerns", "blockers",
    "evidence_refs", "failures", "regressions", "tests_run"]

def severityValues : List String := ["low", "medium", "high", "critical"]

def statusValues : List String := ["ok", "findings", "blocked"]

def decisionValues : List String := ["accept", "rework", "cancel", "request_owner_gate"]

def testResultValues : List String := ["passed", "failed", "error"]

def malformed (text : String) (values : List String) : Except Error Unit :=
  .error (.error .outputValidationError text values)

/-- Refuse the output unless a condition holds. -/
def check (c : Bool) (text : String) (values : List String) : Except Error Unit :=
  if c then .ok () else malformed text values

/-- Check the elements of a list, with their indices. -/
def checkEach (f : ℕ → Json → Except Error Unit) (i : ℕ) : List Json → Except Error Unit
  | [] => .ok ()
  | x :: xs => do
    f i x
    checkEach f (i + 1) xs

/-- Run a check on every item of a fixed list. -/
def checkAll {α : Type} (f : α → Except Error Unit) : List α → Except Error Unit
  | [] => .ok ()
  | a :: as => do
    f a
    checkAll f as

/-- `value in {…}` for a set of strings; a list or a dictionary cannot be hashed. -/
def inSet (value : Json) (values : List String) (text : String) (path : List String) :
    Except Error Unit :=
  match value with
  | .arr _ | .obj _ => .error (.error .typeError "unhashable type" [])
  | .str s => check (values.any fun v => s = PyStr.ofString v) text path
  | _ => malformed text path

def unknownKeys (fields : List (PyStr × Json)) (allowed : List String) : List PyStr :=
  (fields.map Prod.fst).filter fun k => !(allowed.any fun a => k = PyStr.ofString a)

def checkTypes (fields : List (PyStr × Json)) : List (String × FieldType) → Except Error Unit :=
  checkAll fun f => match Json.get? fields f.1 with
    | none => .ok ()
    | some v => check (isInstance v f.2) "output.%s has the wrong type" [f.1]

/-- One finding: a dictionary with a severity and with a description or a title. -/
def validateFinding (i : ℕ) : Json → Except Error Unit
  | .obj f => do
    check (unknownKeys f ["severity", "description", "title", "id"]).isEmpty
      "output.findings[%s] has unknown field(s)" [toString i]
    match Json.get? f "severity" with
    | none => malformed "output.findings[%s].severity is required" [toString i]
    | some v => inSet v severityValues "output.findings[%s].severity must be one of" [toString i]
    checkAll (fun k => match Json.get? f k with
      | none => .ok ()
      | some v => check (isInstance v .str) "output.findings[%s].%s must be a str" [toString i, k])
      ["description", "title", "id"]
    check (Json.has f "description" || Json.has f "title")
      "output.findings[%s] must include 'description' or 'title'" [toString i]
  | _ => malformed "output.findings[%s] must be a dict" [toString i]

/-- One test: a string, or a dictionary with a name and a result. -/
def validateTest (i : ℕ) : Json → Except Error Unit
  | .str _ => .ok ()
  | .obj t => do
    check (unknownKeys t ["name", "result"]).isEmpty "output.tests[%s] has unknown field(s)"
      [toString i]
    match Json.get? t "name" with
    | none => malformed "output.tests[%s].name must be a str" [toString i]
    | some v => check (isInstance v .str) "output.tests[%s].name must be a str" [toString i]
    match Json.get? t "result" with
    | none => malformed "output.tests[%s].result must be one of" [toString i]
    | some v => inSet v testResultValues "output.tests[%s].result must be one of" [toString i]
  | _ => malformed "output.tests[%s] must be a str or dict" [toString i]

/-- One security or architecture finding: a string, or a dictionary with a severity
and a description. -/
def validateSecArchFinding (field : String) (i : ℕ) : Json → Except Error Unit
  | .str _ => .ok ()
  | .obj f => do
    check (!f.isEmpty) "output.%s[%s] must not be empty" [field, toString i]
    check (unknownKeys f ["severity", "description"]).isEmpty
      "output.%s[%s] has unknown field(s)" [field, toString i]
    match Json.get? f "severity" with
    | none => malformed "output.%s[%s].severity is required" [field, toString i]
    | some v => inSet v severityValues "output.%s[%s].severity must be one of" [field, toString i]
    match Json.get? f "description" with
    | none => malformed "output.%s[%s].description is required" [field, toString i]
    | some v =>
      check (isInstance v .str) "output.%s[%s].description must be a str" [field, toString i]
  | _ => malformed "output.%s[%s] must be a str or dict" [field, toString i]

def validateField (fields : List (PyStr × Json)) (field : String)
    (f : ℕ → Json → Except Error Unit) : Except Error Unit :=
  checkEach f 0 (Json.getD fields field .null).elems

/-- The limits on size and shape. -/
def checkLimits (result : Json) : Except Error Unit := do
  check (result.dumps.length ≤ 256 * 1024) "output exceeds 256 KB limit" []
  check (Json.depth 1 result ≤ 12) "output exceeds maximum nesting depth" []
  check (result.maxStringLen ≤ 8192) "output contains a string longer than 8 KB" []

/-- The allow-list of fields, and their types. -/
def checkFields (role : Role) (fields : List (PyStr × Json)) : Except Error Unit := do
  check (unknownKeys fields
      ((commonFields ++ roleFields role ++ optionalFields role).map Prod.fst)).isEmpty
    "unknown top-level field(s)" []
  checkAll (fun f => check (Json.has fields f.1) "missing required field(s): %s" [f.1])
    (commonFields ++ roleFields role)
  checkTypes fields commonFields
  checkTypes fields (roleFields role)
  checkTypes fields (optionalFields role)

/-- A confidence is a number from 0 to 1, and no boolean. -/
def confidenceOk : Json → Bool
  | .int n => 0 ≤ n && n ≤ 1
  | .float (.finite v _) => 0 ≤ v && v ≤ 1
  | _ => false

/-- The envelope: role, status, confidence and the decision of a lead. -/
def checkEnvelope (role : Role) (fields : List (PyStr × Json)) : Except Error Unit := do
  check (Json.get? fields "role" = some (Json.text role.value)) "role envelope mismatch" []
  inSet (Json.getD fields "status" .null) statusValues "status must be one of" []
  check (confidenceOk (Json.getD fields "confidence" .null)) "confidence must be 0..1" []
  if role = .lead then
    inSet (Json.getD fields "decision" .null) decisionValues "decision must be one of" []
  else .ok ()

def checkNested (role : Role) (fields : List (PyStr × Json)) : Except Error Unit := do
  validateField fields "findings" validateFinding
  checkAll (fun field => validateField fields field fun i v =>
      check (isInstance v .str) "output.%s[%s] must be a str" [field, toString i])
    stringListFields
  validateField fields "tests" validateTest
  validateField fields "security_findings" (validateSecArchFinding "security_findings")
  validateField fields "architecture_findings" (validateSecArchFinding "architecture_findings")
  if role = .reviewer then
    inSet (Json.getD fields "severity" .null) severityValues "severity must be one of" []
  else .ok ()

/-- **`validate_role_output`**: the limits first, then the fields, the envelope, the
nested elements, and the deny-list over all of it. -/
def validateRoleOutput (role : Role) : Json → Except Error Unit
  | .obj fields => do
    checkLimits (.obj fields)
    checkFields role fields
    checkEnvelope role fields
    checkNested role fields
    match scanValue (.obj fields) with
    | none => .ok ()
    | some hit => malformed "output contains deny-listed term %r" [hit]
  | _ => malformed "output must be a dict" []

/-! ### What an accepted output looks like -/

section Accepted

variable {α : Type} {f : α → Except Error Unit} {g : ℕ → Json → Except Error Unit} {u : Unit}
  {text : String}

@[simp]
theorem check_eq_ok {c : Bool} {values : List String} :
    check c text values = .ok u ↔ c := by
  cases c <;> simp [check, malformed]

@[simp]
theorem malformed_ne_ok {values : List String} :
    malformed text values ≠ .ok u := by
  simp [malformed]

theorem bind_eq_ok {x : Except Error Unit} {y : Except Error Unit} :
    (x >>= fun _ => y) = .ok u ↔ x = .ok () ∧ y = .ok u := by
  cases x <;> simp [bind, Except.bind]

theorem checkAll_eq_ok {as : List α} :
    checkAll f as = .ok u ↔ ∀ a ∈ as, f a = .ok () := by
  induction as with
  | nil => simp [checkAll]
  | cons a as ih => simp [checkAll, bind_eq_ok, ih]

theorem checkEach_eq_ok {xs : List Json} {i : ℕ} (h : checkEach g i xs = .ok u) :
    ∀ x ∈ xs, ∃ j, g j x = .ok () := by
  induction xs generalizing i with
  | nil => simp
  | cons x xs ih =>
    obtain ⟨hx, hxs⟩ := (bind_eq_ok).mp h
    intro y hy
    rcases List.mem_cons.mp hy with rfl | hy
    · exact ⟨i, hx⟩
    · exact ih hxs y hy

theorem inSet_eq_ok {value : Json} {values path : List String} :
    inSet value values text path = .ok u ↔ ∃ v ∈ values, value = Json.text v := by
  cases value <;> simp [inSet, Json.text]

theorem isInstance_str {v : Json} : isInstance v .str = true ↔ ∃ s, v = .str s := by
  cases v <;> simp [isInstance]

end Accepted

end Outputs

/-- A result the validator accepts for a role. -/
structure RoleOutput (role : Role) where
  fields : List (PyStr × Json)
  accepted : Outputs.validateRoleOutput role (.obj fields) = .ok ()

/-- The result as the validator returns it: unmodified, with the proof that it
passed. -/
def Outputs.accept (role : Role) (result : Json) : Except Error (RoleOutput role) :=
  match result with
  | .obj fields => match h : validateRoleOutput role (.obj fields) with
    | .ok () => .ok ⟨fields, h⟩
    | .error e => .error e
  | _ => .error (.error .outputValidationError "output must be a dict" [])

end ArgentTeam
