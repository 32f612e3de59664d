import ArgentTeam.Context.Pack
import ArgentTeam.Lib.Chosen

/-!
# Building a context pack

The builder makes an item of each input, keeps the most important one of those that agree in
trust class, source and content, removes items in a fixed order until what is rendered fits the
soft budget, and checks the pack it has built.
-/

namespace ArgentTeam

namespace Context

/-- `FactInput` and `ResultInput`. -/
structure TextInput where
  content : PyStr
  sourceRef : PyStr := []
  importance : PyStr

structure BudgetTier where
  softMin : ℤ
  softMax : ℤ
  softTarget : ℤ
  hard : ℤ

structure ContextBudgetPolicy where
  policyVersion : PyStr := PyStr.ofString "1"
  allowExpansion : Bool := true
  flash : BudgetTier := ⟨4000, 8000, 6000, 16000⟩
  pro : BudgetTier := ⟨12000, 24000, 16000, 48000⟩
  sol : BudgetTier := ⟨24000, 48000, 32000, 96000⟩

def ContextBudgetPolicy.tierFor (policy : ContextBudgetPolicy) (capability : PyStr) :
    Except BuildError BudgetTier :=
  if capability = PyStr.ofString "FLASH" then .ok policy.flash
  else if capability = PyStr.ofString "PRO" then .ok policy.pro
  else if capability = PyStr.ofString "SOL" then .ok policy.sol
  else .error .value

/-- The arguments of `build`. -/
structure BuildCall where
  jobId : PyStr
  dispatchId : PyStr
  role : PyStr
  objective : PyStr
  acceptanceCriteria : List PyStr := []
  constraints : List PyStr := []
  policyReferences : List PyStr := []
  facts : List TextInput := []
  artifacts : List ArtifactRef := []
  history : List PyStr := []
  priorResults : List TextInput := []
  /-- `budget_policy`, or that of the builder. -/
  policy : ContextBudgetPolicy := {}
  capability : PyStr := PyStr.ofString "FLASH"
  expansionReason : Option PyStr := none
  nowIso : PyStr := []

variable (sha : Sha256)

/-! ### Items -/

/-- `_item`. -/
def makeItem (trustClass : TrustClass) (importance : PyStr) (sourceType : String)
    (sourceRef content : PyStr) (metadata : List (PyStr × PyStr) := []) :
    Except BuildError ContextItem := do
  let id ← makeItemId sha trustClass.value (PyStr.ofString sourceType) sourceRef content
  let digest ← itemContentHash sha content
  pure
    { id := id
      trustClass := trustClass.value
      importance := importance
      sourceType := PyStr.ofString sourceType
      sourceRef := sourceRef
      content := content
      contentHash := digest
      metadata := metadata }

/-- The item of an artifact; its metadata are sorted by their keys. -/
def artifactItem (a : ArtifactRef) : Except BuildError ContextItem := do
  check (a.ref.length ≤ maxArtifactRefLen) "CONTEXT_INVALID_REFERENCE"
  check (a.location.length ≤ maxArtifactLocationLen) "CONTEXT_INVALID_REFERENCE"
  makeItem sha .trustedArtifact Importance.normal.value "artifact" a.ref
    (if a.excerpt ≠ [] then a.excerpt else a.ref)
    [(PyStr.ofString "artifact_hash", a.contentHash), (PyStr.ofString "location", a.location)]

def collectItems (call : BuildCall) : Except BuildError (List ContextItem) := do
  let objective ← makeItem sha .ownerInstruction Importance.required.value "objective"
    (PyStr.ofString "task_objective") call.objective
  let acceptance ← call.acceptanceCriteria.mapM
    (makeItem sha .ownerInstruction Importance.required.value "acceptance_criteria" [])
  let constraints ← call.constraints.mapM
    (makeItem sha .trustedPolicy Importance.required.value "constraint" [])
  let policies ← call.policyReferences.mapM
    (makeItem sha .trustedPolicy Importance.required.value "policy_reference" [])
  let facts ← call.facts.mapM fun f =>
    makeItem sha .trustedLocalFact f.importance "fact" f.sourceRef f.content
  let artifacts ← call.artifacts.mapM (artifactItem sha)
  let history ← call.history.mapM
    (makeItem sha .optionalHistory Importance.optional.value "history" [])
  let results ← call.priorResults.mapM fun r =>
    makeItem sha .agentResult r.importance "prior_result" r.sourceRef r.content
  pure (objective :: (acceptance ++ constraints ++ policies ++ facts ++ artifacts ++ history ++
    results))

/-! ### Duplicates -/

/-- The key that duplicates agree in. -/
def dedupKey (it : ContextItem) : PyStr × PyStr × PyStr × PyStr :=
  (it.trustClass, it.sourceType, it.sourceRef, it.contentHash)

/-- The order of `_dedup`: by importance, trust class and id. -/
def dedupLe (a b : ContextItem) : Bool :=
  numberedLe (-Importance.rank a.importance) (-Importance.rank b.importance)
    [a.trustClass, a.id] [b.trustClass, b.id]

def dedup (items : List ContextItem) : List ContextItem :=
  (Chosen.choose dedupKey (fun it => Importance.rank it.importance) items).insertionSort
    fun a b => dedupLe a b

/-! ### Trimming -/

def trimGroup (it : ContextItem) : Option ℕ :=
  if it.importance = Importance.required.value then none
  else if it.trustClass = TrustClass.optionalHistory.value then some 0
  else if it.trustClass = TrustClass.agentResult.value then some 1
  else if it.importance = Importance.optional.value then some 2
  else if it.importance = Importance.normal.value then some 3
  else if it.importance = Importance.high.value then
    if it.sourceRef ≠ [] then some 4 else none
  else some 3

/-- The order in which items are removed: by group and id. -/
def trimLe (a b : ContextItem) : Bool :=
  numberedLe ((trimGroup a).getD 0 : ℕ) ((trimGroup b).getD 0 : ℕ) [a.id] [b.id]

/-- The loop of `_trim`. -/
def trimLoop (soft : ℤ) (renderTokens : List ContextItem → ℤ) :
    List ContextItem → List ContextItem → List ContextItem
  | [], remaining => remaining
  | it :: removable, remaining =>
    if renderTokens (remaining.erase it) ≤ soft then remaining.erase it
    else trimLoop soft renderTokens removable (remaining.erase it)

def trim (items : List ContextItem) (soft : ℤ) (renderTokens : List ContextItem → ℤ) :
    List ContextItem :=
  if renderTokens items ≤ soft then items
  else
    trimLoop soft renderTokens
      ((items.filter fun it => (trimGroup it).isSome).insertionSort fun a b => trimLe a b) items

/-! ### Building -/

/-- What `build` identifies a prompt by. -/
def BuildCall.identity (call : BuildCall) : Identity :=
  ⟨contextPackVersion, call.jobId, call.dispatchId, call.role⟩

def BuildCall.renderTokens (call : BuildCall) (items : List ContextItem) : ℤ :=
  renderTokensFor items call.identity

/-- The items that fit the budget, and the reason for an expansion. -/
def fit (call : BuildCall) (tier : BudgetTier) (items : List ContextItem) :
    Except BuildError (List ContextItem × Option PyStr) :=
  if tier.softMax < call.renderTokens items then do
    let final := trim items tier.softMax call.renderTokens
    if tier.softMax < call.renderTokens final then do
      check (call.renderTokens final ≤ tier.hard) "CONTEXT_BUDGET_EXCEEDED"
      match call.expansionReason with
      | none => .error (.context "CONTEXT_BUDGET_EXCEEDED")
      | some reason => do
        check call.policy.allowExpansion "CONTEXT_BUDGET_EXCEEDED"
        if ExpansionReason.known reason then pure (final, some reason) else .error .value
    else pure (final, none)
  else pure (items, none)

/-- The pack of some items. -/
def assemble (call : BuildCall) (tier : BudgetTier) (estimated : ℤ) (final : List ContextItem)
    (reason : Option PyStr) : Except BuildError ContextPack := do
  let digest ← contentHash sha final call.role contextPackVersion
  let packId ← makeContextPackId sha call.dispatchId digest
  pure
    { projectItems final with
      version := contextPackVersion
      contextPackId := packId
      jobId := call.jobId
      dispatchId := call.dispatchId
      role := call.role
      createdAt := call.nowIso
      budgetSoft := tier.softMax
      budgetHard := tier.hard
      budgetEstimated := estimated
      tokenCount := call.renderTokens final
      expansionReason := reason
      provenance := projectProvenance final
      contentHash := digest
      items := final }

/-- What `build` does with the items that it has collected. -/
def buildFrom (call : BuildCall) (tier : BudgetTier) (items : List ContextItem) :
    Except BuildError ContextPack := do
  check (items.length ≤ maxItems) "CONTEXT_INVALID_REFERENCE"
  check (call.renderTokens (items.filter fun it => it.importance = Importance.required.value) ≤
    tier.hard) "CONTEXT_BUDGET_EXCEEDED"
  let (final, reason) ← fit call tier items
  let pack ← assemble sha call tier (call.renderTokens items) final reason
  validateContextPack sha pack
  pure pack

def build (call : BuildCall) : Except BuildError ContextPack := do
  let tier ← call.policy.tierFor call.capability
  let items ← collectItems sha call
  buildFrom sha call tier (dedup items)

/-! ### The two orders -/

instance : Std.Total fun a b : ContextItem => dedupLe a b = true :=
  ⟨fun _ _ => numberedLe_total _ _ _ _⟩

instance : IsTrans ContextItem fun a b => dedupLe a b = true :=
  ⟨fun _ _ _ => numberedLe_trans⟩

instance : Std.Total fun a b : ContextItem => trimLe a b = true :=
  ⟨fun _ _ => numberedLe_total _ _ _ _⟩

instance : IsTrans ContextItem fun a b => trimLe a b = true :=
  ⟨fun _ _ _ => numberedLe_trans⟩

theorem mem_dedup {items : List ContextItem} {it : ContextItem} : it ∈ dedup items ↔
    it ∈ Chosen.choose dedupKey (fun it => Importance.rank it.importance) items :=
  List.mem_insertionSort _

theorem nodup_dedup (items : List ContextItem) : (dedup items).Nodup :=
  (List.perm_insertionSort _ _).nodup_iff.mpr (Chosen.filled_choose _ _ items).nodup.of_map

end Context

end ArgentTeam
