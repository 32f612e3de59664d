import ArgentTeam.Lib.TextOrder

/-!
# Context packs

The items of a context pack, the fields that are projected from them, the prompt that is rendered
from those fields, the hash that is taken of the items, and what the validation of a pack checks.
The items are the source of truth, but a pack carries its fields with it: nothing ties the two
together but the code that builds a pack.

SHA-256 is a parameter, of texts and of values by their canonical text. It raises for a text that
has no encoding.
-/

namespace ArgentTeam

namespace Context

/-! ### Limits -/

def contextPackVersion : PyStr := PyStr.ofString "1"

def maxItems : ℕ := 256

def maxProvenanceEntries : ℕ := 256

def maxSourceRefLen : ℕ := 512

def maxArtifactRefLen : ℕ := 512

def maxArtifactLocationLen : ℕ := 1024

def maxMetadataEntries : ℕ := 16

def maxMetadataKeyLen : ℕ := 128

def maxMetadataValueLen : ℕ := 1024

/-! ### Enumerations -/

inductive TrustClass
  | ownerInstruction
  | trustedPolicy
  | trustedLocalFact
  | trustedArtifact
  | agentResult
  | externalUntrusted
  | optionalHistory

namespace TrustClass

def value : TrustClass → PyStr
  | ownerInstruction => PyStr.ofString "OWNER_INSTRUCTION"
  | trustedPolicy => PyStr.ofString "TRUSTED_POLICY"
  | trustedLocalFact => PyStr.ofString "TRUSTED_LOCAL_FACT"
  | trustedArtifact => PyStr.ofString "TRUSTED_ARTIFACT"
  | agentResult => PyStr.ofString "AGENT_RESULT"
  | externalUntrusted => PyStr.ofString "EXTERNAL_UNTRUSTED"
  | optionalHistory => PyStr.ofString "OPTIONAL_HISTORY"

/-- The members. -/
def all : List TrustClass :=
  [ownerInstruction, trustedPolicy, trustedLocalFact, trustedArtifact, agentResult,
    externalUntrusted, optionalHistory]

/-- `TrustClass(..)` does not raise. -/
def known (s : PyStr) : Bool := all.any fun c => s = c.value

end TrustClass

inductive Importance
  | required
  | high
  | normal
  | optional

namespace Importance

def value : Importance → PyStr
  | required => PyStr.ofString "REQUIRED"
  | high => PyStr.ofString "HIGH"
  | normal => PyStr.ofString "NORMAL"
  | optional => PyStr.ofString "OPTIONAL"

/-- The members. -/
def all : List Importance := [required, high, normal, optional]

/-- `Importance(..)` does not raise. -/
def known (s : PyStr) : Bool := all.any fun c => s = c.value

/-- `_IMPORTANCE_RANK.get(.., 0)`. -/
def rank (s : PyStr) : ℕ :=
  if s = required.value then 4
  else if s = high.value then 3
  else if s = normal.value then 2
  else if s = optional.value then 1
  else 0

end Importance

inductive ExpansionReason
  | requiredContext
  | largeCodeEvidence
  | securityReview
  | rootCauseAnalysis
  | integratedReview

namespace ExpansionReason

def value : ExpansionReason → PyStr
  | requiredContext => PyStr.ofString "REQUIRED_CONTEXT"
  | largeCodeEvidence => PyStr.ofString "LARGE_CODE_EVIDENCE"
  | securityReview => PyStr.ofString "SECURITY_REVIEW"
  | rootCauseAnalysis => PyStr.ofString "ROOT_CAUSE_ANALYSIS"
  | integratedReview => PyStr.ofString "INTEGRATED_REVIEW"

/-- The members. -/
def all : List ExpansionReason :=
  [requiredContext, largeCodeEvidence, securityReview, rootCauseAnalysis, integratedReview]

/-- `ExpansionReason(..)` does not raise. -/
def known (s : PyStr) : Bool := all.any fun c => s = c.value

end ExpansionReason

/-- What leaves a function of this module. -/
inductive BuildError
  /-- `ContextBuildError`, with its code. -/
  | context (code : String)
  /-- `ValueError`: a member that there is not, or a text that has no encoding. -/
  | value
  deriving DecidableEq

/-- Raise a `ContextBuildError` unless a condition holds. -/
def check (ok : Bool) (code : String) : Except BuildError Unit :=
  if ok then .ok () else .error (.context code)

section Ok

variable {α β : Type} {x : Except BuildError α} {f : α → Except BuildError β} {b : β} {xs : List α}

@[simp]
theorem bind_eq_ok : (x >>= f) = .ok b ↔ ∃ a, x = .ok a ∧ f a = .ok b := by
  cases x <;> simp [bind, Except.bind]

@[simp]
theorem pure_eq_ok {a a' : α} : (pure a : Except BuildError α) = .ok a' ↔ a = a' := by
  simp [pure, Except.pure]

@[simp]
theorem check_eq_ok {ok : Bool} {code : String} {u : Unit} :
    check ok code = .ok u ↔ ok := by
  cases ok <;> simp [check]

theorem mapM_eq_ok {ys : List β} :
    xs.mapM f = .ok ys ↔ List.Forall₂ (fun x y => f x = .ok y) xs ys := by
  induction xs generalizing ys with
  | nil => simp [pure, Except.pure, eq_comm]
  | cons x xs ih =>
    simp only [List.mapM_cons, bind_eq_ok, pure_eq_ok, List.forall₂_cons_left_iff, ih]
    constructor
    · rintro ⟨y, hy, ys, hys, rfl⟩
      exact ⟨y, ys, hy, hys, rfl⟩
    · rintro ⟨y, ys, hy, hys, rfl⟩
      exact ⟨y, hy, ys, hys, rfl⟩

theorem exists_of_mem_mapM {ys : List β} (h : xs.mapM f = .ok ys) {y : β}
    (hy : y ∈ ys) : ∃ x ∈ xs, f x = .ok y := by
  replace h := (mapM_eq_ok).mp h
  induction h with
  | nil => cases hy
  | cons hxy _ ih =>
    rcases List.mem_cons.mp hy with rfl | hmem
    · exact ⟨_, List.mem_cons_self, hxy⟩
    · obtain ⟨x, hx, hfx⟩ := ih hmem
      exact ⟨x, List.mem_cons_of_mem _ hx, hfx⟩

@[simp]
theorem exists_eq_ok_unit {x : Except BuildError Unit} : (∃ u, x = .ok u) ↔ x = .ok () :=
  ⟨fun ⟨_, h⟩ => h, fun h => ⟨(), h⟩⟩

theorem forM_eq_ok {g : α → Except BuildError Unit} :
    forM xs g = .ok () ↔ ∀ x ∈ xs, g x = .ok () := by
  induction xs with
  | nil => simp [pure, Except.pure]
  | cons x xs ih => simp [ih]

end Ok

def estimateTokens (text : PyStr) : ℤ := max 1 (text.length / 4 : ℕ)

/-! ### Items and packs -/

structure ContextItem where
  id : PyStr
  trustClass : PyStr
  importance : PyStr
  sourceType : PyStr
  sourceRef : PyStr
  content : PyStr
  contentHash : PyStr
  metadata : List (PyStr × PyStr) := []
  deriving DecidableEq

structure ArtifactRef where
  ref : PyStr
  location : PyStr := []
  excerpt : PyStr := []
  contentHash : PyStr := []
  deriving DecidableEq

structure ProvenanceEntry where
  sourceType : PyStr
  sourceRef : PyStr
  trustClass : PyStr
  deriving DecidableEq

/-- The fields that are projected from the items and rendered. -/
structure PackFields where
  objective : PyStr := []
  acceptanceCriteria : List PyStr := []
  constraints : List PyStr := []
  policyReferences : List PyStr := []
  facts : List PyStr := []
  artifacts : List ArtifactRef := []
  history : List PyStr := []
  deriving DecidableEq

structure ContextPack extends PackFields where
  version : PyStr
  contextPackId : PyStr
  jobId : PyStr
  dispatchId : PyStr
  role : PyStr
  createdAt : PyStr
  budgetSoft : ℤ
  budgetHard : ℤ
  budgetEstimated : ℤ
  tokenCount : ℤ
  expansionReason : Option PyStr
  provenance : List ProvenanceEntry
  contentHash : PyStr
  items : List ContextItem
  deriving DecidableEq

/-! ### Projection -/

def metadataGet (metadata : List (PyStr × PyStr)) (key : String) : PyStr :=
  ((metadata.find? fun e => e.1 = PyStr.ofString key).map Prod.snd).getD []

/-- The fields with one more item projected into them. -/
def PackFields.project (fields : PackFields) (it : ContextItem) : PackFields :=
  if it.sourceType = PyStr.ofString "objective" then { fields with objective := it.content }
  else if it.sourceType = PyStr.ofString "acceptance_criteria" then
    { fields with acceptanceCriteria := fields.acceptanceCriteria ++ [it.content] }
  else if it.sourceType = PyStr.ofString "constraint" then
    { fields with constraints := fields.constraints ++ [it.content] }
  else if it.sourceType = PyStr.ofString "policy_reference" then
    { fields with policyReferences := fields.policyReferences ++ [it.content] }
  else if it.sourceType = PyStr.ofString "fact" then
    { fields with facts := fields.facts ++ [it.content] }
  else if it.sourceType = PyStr.ofString "artifact" then
    { fields with artifacts := fields.artifacts ++ [{
        ref := it.sourceRef
        location := metadataGet it.metadata "location"
        excerpt := if it.content ≠ it.sourceRef then it.content else []
        contentHash := metadataGet it.metadata "artifact_hash" }] }
  else if it.sourceType = PyStr.ofString "history" ∨
      it.sourceType = PyStr.ofString "prior_result" then
    { fields with history := fields.history ++ [it.content] }
  else fields

/-- `_project_items`, without the provenance. -/
def projectItems (items : List ContextItem) : PackFields := items.foldl PackFields.project {}

/-- The provenance of `_project_items`: each triple once, where it is seen first. -/
def projectProvenance (items : List ContextItem) : List ProvenanceEntry :=
  items.foldl (fun seen it =>
    let prov : ProvenanceEntry := ⟨it.sourceType, it.sourceRef, it.trustClass⟩
    if prov ∈ seen then seen else seen ++ [prov]) []

/-! ### Rendering -/

/-- A header and its lines, if there are any. -/
def headed (header : String) (lines : List PyStr) : List PyStr :=
  if lines = [] then [] else PyStr.ofString header :: lines

/-- `- ` and a text. -/
def bullet (text : PyStr) : PyStr := PyStr.ofString "- " ++ text

def artifactLines (a : ArtifactRef) : List PyStr :=
  (PyStr.ofString "- ref: " ++ a.ref) ::
    ((if a.location = [] then [] else [PyStr.ofString "  location: " ++ a.location]) ++
      if a.excerpt = [] then [] else [PyStr.ofString "  excerpt: " ++ a.excerpt])

/-- The lines after those of the identity. -/
def PackFields.lines (fields : PackFields) : List PyStr :=
  [PyStr.ofString "objective:", fields.objective] ++
    headed "acceptance_criteria:" (fields.acceptanceCriteria.map bullet) ++
    headed "constraints:" (fields.constraints.map bullet) ++
    headed "policy_references:" (fields.policyReferences.map bullet) ++
    headed "facts:" (fields.facts.map bullet) ++
    headed "artifacts:" (fields.artifacts.flatMap artifactLines) ++
    headed "history:" (fields.history.map bullet) ++
    [PyStr.ofString "Reply with exactly one JSON object matching your role schema."]

/-- Lines, each with its end. -/
def unlines (lines : List PyStr) : PyStr := lines.flatMap fun l => l ++ [.scalar '\n']

/-- What is rendered besides the fields and the id of the pack. -/
structure Identity where
  version : PyStr
  jobId : PyStr
  dispatchId : PyStr
  role : PyStr

def renderMessage (contextPackId : PyStr) (identity : Identity) (fields : PackFields) : PyStr :=
  unlines
    ([PyStr.ofString "You are an agent in a deterministic, isolated development team.",
        PyStr.ofString "context_pack_id: " ++ contextPackId,
        PyStr.ofString "version: " ++ identity.version,
        PyStr.ofString "job_id: " ++ identity.jobId,
        PyStr.ofString "dispatch_id: " ++ identity.dispatchId,
        PyStr.ofString "role: " ++ identity.role] ++ fields.lines)

namespace ContextPack

variable (pack : ContextPack)

def identity : Identity := ⟨pack.version, pack.jobId, pack.dispatchId, pack.role⟩

/-- `render_pack`, with an id of the caller's or that of the pack. -/
def render (contextPackId : Option PyStr) : PyStr :=
  renderMessage (contextPackId.getD pack.contextPackId) pack.identity pack.toPackFields

def renderTokenCount : ℤ := estimateTokens (pack.render none)

end ContextPack

def packIdPlaceholder : PyStr := PyStr.ofString "cp_000000000000000000000000"

def renderTokensFor (items : List ContextItem) (identity : Identity) : ℤ :=
  estimateTokens (renderMessage packIdPlaceholder identity (projectItems items))

/-! ### Hashes -/

def itemSortKey (it : ContextItem) : List PyStr :=
  [it.trustClass, it.importance, it.sourceType, it.sourceRef, it.contentHash]

def itemCanonical (it : ContextItem) : Json :=
  .dict
    [("trust_class", .str it.trustClass),
      ("importance", .str it.importance),
      ("source_type", .str it.sourceType),
      ("source_ref", .str it.sourceRef),
      ("content", .str it.content),
      ("metadata", .arr (it.metadata.map fun e => .arr [.str e.1, .str e.2]))]

/-- `canonical_content`, as a value. -/
def canonicalContent (items : List ContextItem) (role version : PyStr) : Json :=
  .dict
    [("version", .str version),
      ("role", .str role),
      ("items", .arr ((items.insertionSort fun a b =>
        textsLe (itemSortKey a) (itemSortKey b)).map itemCanonical))]

def validHex (value : PyStr) (length : ℕ) : Bool :=
  value.length = length && value.all fun c => c ∈ PyStr.ofString "0123456789abcdef"

/-- `hashlib.sha256(..).hexdigest()`, of texts and of the canonical text of values. -/
structure Sha256 where
  ofText : PyStr → PyStr
  ofJson : Json → PyStr
  hexText : ∀ s, validHex (ofText s) 64 = true
  hexJson : ∀ v, validHex (ofJson v) 64 = true

variable (sha : Sha256)

namespace Sha256

/-- The hash of a text, which has to have an encoding. -/
def text (s : PyStr) : Except BuildError PyStr :=
  if s.encode?.isSome then .ok (sha.ofText s) else .error .value

/-- A hit for each text without an encoding. -/
def unencodable (s : PyStr) : Option String := if s.encode?.isSome then none else some ""

/-- The hash of a value, whose texts have to have an encoding. -/
def json (v : Json) : Except BuildError PyStr :=
  if (v.scan unencodable).isNone then .ok (sha.ofJson v) else .error .value

end Sha256

def itemContentHash (content : PyStr) : Except BuildError PyStr := sha.text content

def makeItemId (trustClass sourceType sourceRef content : PyStr) : Except BuildError PyStr := do
  let digest ← sha.json (.arr [.str trustClass, .str sourceType, .str sourceRef, .str content])
  pure (PyStr.ofString "ci_" ++ digest.take 16)

/-- The hash of `canonical_content`. -/
def contentHash (items : List ContextItem) (role version : PyStr) : Except BuildError PyStr :=
  sha.json (canonicalContent items role version)

def makeContextPackId (dispatchId contentHash : PyStr) : Except BuildError PyStr := do
  let digest ← sha.text (dispatchId ++ .scalar (Char.ofNat 0) :: contentHash)
  pure (PyStr.ofString "cp_" ++ digest.take 24)

/-! ### Validation -/

/-- A prefix and hexadecimal digits. -/
def validId (value : PyStr) (start : String) (length : ℕ) : Bool :=
  (PyStr.ofString start).startsWith value &&
    validHex (value.drop (PyStr.ofString start).length) length

def validateItemBounds (it : ContextItem) : Except BuildError Unit := do
  check (it.sourceRef.length ≤ maxSourceRefLen) "CONTEXT_INVALID_REFERENCE"
  check (it.metadata.length ≤ maxMetadataEntries) "CONTEXT_INVALID_REFERENCE"
  check (it.metadata.all fun e =>
    e.1.length ≤ maxMetadataKeyLen && e.2.length ≤ maxMetadataValueLen)
    "CONTEXT_INVALID_REFERENCE"

/-- What `validate_context_pack` checks of an item. -/
def validateItem (it : ContextItem) : Except BuildError Unit := do
  check (TrustClass.known it.trustClass) "CONTEXT_INVALID_TRUST_CLASS"
  check (Importance.known it.importance) "CONTEXT_INVALID_IMPORTANCE"
  check (validId it.id "ci_" 16) "CONTEXT_MALFORMED_ID"
  let id ← makeItemId sha it.trustClass it.sourceType it.sourceRef it.content
  check (it.id = id) "CONTEXT_MALFORMED_ID"
  let digest ← itemContentHash sha it.content
  check (it.contentHash = digest) "CONTEXT_HASH_MISMATCH"
  validateItemBounds it

/-- What `validate_context_pack` checks of the budget, the tokens and the reason. -/
def validateBudget (pack : ContextPack) : Except BuildError Unit := do
  check (0 ≤ pack.budgetSoft ∧ pack.budgetSoft ≤ pack.budgetHard) "CONTEXT_INVALID_BUDGET"
  check (pack.tokenCount = pack.renderTokenCount) "CONTEXT_INVALID_BUDGET"
  check (0 ≤ pack.tokenCount ∧ pack.tokenCount ≤ pack.budgetHard) "CONTEXT_INVALID_BUDGET"
  check (pack.tokenCount ≤ pack.budgetEstimated) "CONTEXT_INVALID_BUDGET"
  check (decide (pack.budgetSoft < pack.tokenCount) = pack.expansionReason.isSome)
    "CONTEXT_INVALID_EXPANSION_REASON"
  check (pack.expansionReason.all ExpansionReason.known) "CONTEXT_INVALID_EXPANSION_REASON"

def validateContextPack (pack : ContextPack) : Except BuildError Unit := do
  check (pack.version = contextPackVersion) "CONTEXT_INVALID_VERSION"
  check (validId pack.contextPackId "cp_" 24) "CONTEXT_MALFORMED_ID"
  check (pack.items.length ≤ maxItems) "CONTEXT_INVALID_REFERENCE"
  pack.items.forM (validateItem sha)
  validateBudget pack
  check (pack.provenance.length ≤ maxProvenanceEntries) "CONTEXT_INVALID_REFERENCE"
  check (pack.provenance.all fun prov => TrustClass.known prov.trustClass)
    "CONTEXT_INVALID_TRUST_CLASS"
  let digest ← contentHash sha pack.items pack.role pack.version
  check (digest = pack.contentHash) "CONTEXT_HASH_MISMATCH"

variable {sha} {pack : ContextPack}

theorem validateBudget_eq_ok : validateBudget pack = .ok () ↔
    (0 ≤ pack.budgetSoft ∧ pack.budgetSoft ≤ pack.budgetHard) ∧
      pack.tokenCount = pack.renderTokenCount ∧
      (0 ≤ pack.tokenCount ∧ pack.tokenCount ≤ pack.budgetHard) ∧
      pack.tokenCount ≤ pack.budgetEstimated ∧
      (pack.budgetSoft < pack.tokenCount ↔ pack.expansionReason.isSome) ∧
      pack.expansionReason.all ExpansionReason.known := by
  have hreason : decide (pack.budgetSoft < pack.tokenCount) = pack.expansionReason.isSome ↔
      (pack.budgetSoft < pack.tokenCount ↔ pack.expansionReason.isSome = true) := by
    rw [Bool.eq_iff_iff, decide_eq_true_eq]
  simp only [validateBudget, bind_eq_ok, check_eq_ok, decide_eq_true_eq, exists_const, hreason]

/-- What a pack that is accepted has passed. -/
theorem validateContextPack_eq_ok : validateContextPack sha pack = .ok () ↔
    pack.version = contextPackVersion ∧ validId pack.contextPackId "cp_" 24 = true ∧
      pack.items.length ≤ maxItems ∧ (∀ it ∈ pack.items, validateItem sha it = .ok ()) ∧
      validateBudget pack = .ok () ∧ pack.provenance.length ≤ maxProvenanceEntries ∧
      (∀ prov ∈ pack.provenance, TrustClass.known prov.trustClass) ∧
      contentHash sha pack.items pack.role pack.version = .ok pack.contentHash := by
  simp [validateContextPack, forM_eq_ok]

end Context

end ArgentTeam
