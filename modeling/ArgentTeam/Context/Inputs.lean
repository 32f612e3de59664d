import ArgentTeam.Context.Budget

/-!
# The inputs of the builder

Each input of a call becomes an item. Its id and its hash are taken of texts, which have to have an
encoding; so are the hash and the id of the pack that is put together in the end. Where the texts
have one, neither the pack nor its validation raises a `ValueError` (`exists_assemble`,
`validateContextPack_ne_value`).
-/

namespace ArgentTeam

namespace Context

variable {sha : Sha256} {call : BuildCall} {it : ContextItem} {items : List ContextItem}
  {importance sourceRef content : PyStr} {metadata : List (PyStr × PyStr)} {trustClass : TrustClass}
  {sourceType : String} {s : PyStr}

/-! ### The items of the inputs -/

def Encodable (s : PyStr) : Prop := s.encode?.isSome = true

/-- The item that is made of an input. -/
def itemOf (sha : Sha256) (trustClass : TrustClass) (importance : PyStr) (sourceType : String)
    (sourceRef content : PyStr) (metadata : List (PyStr × PyStr)) : ContextItem where
  id := PyStr.ofString "ci_" ++ (sha.ofJson (.arr [.str trustClass.value,
    .str (PyStr.ofString sourceType), .str sourceRef, .str content])).take 16
  trustClass := trustClass.value
  importance := importance
  sourceType := PyStr.ofString sourceType
  sourceRef := sourceRef
  content := content
  contentHash := sha.ofText content
  metadata := metadata

def ArtifactRef.text (a : ArtifactRef) : PyStr := if a.excerpt ≠ [] then a.excerpt else a.ref

def artifactOf (sha : Sha256) (a : ArtifactRef) : ContextItem :=
  itemOf sha .trustedArtifact Importance.normal.value "artifact" a.ref a.text
    [(PyStr.ofString "artifact_hash", a.contentHash), (PyStr.ofString "location", a.location)]

/-- An artifact is within the limits. -/
def ArtifactRef.fits (a : ArtifactRef) : Bool :=
  a.ref.length ≤ maxArtifactRefLen && a.location.length ≤ maxArtifactLocationLen

def inputsBefore (sha : Sha256) (call : BuildCall) : List ContextItem :=
  itemOf sha .ownerInstruction Importance.required.value "objective"
      (PyStr.ofString "task_objective") call.objective [] ::
    (call.acceptanceCriteria.map (fun s => itemOf sha .ownerInstruction Importance.required.value
        "acceptance_criteria" [] s []) ++
      call.constraints.map (fun s => itemOf sha .trustedPolicy Importance.required.value
        "constraint" [] s []) ++
      call.policyReferences.map (fun s => itemOf sha .trustedPolicy Importance.required.value
        "policy_reference" [] s []) ++
      call.facts.map fun f => itemOf sha .trustedLocalFact f.importance "fact" f.sourceRef
        f.content [])

def inputsAfter (sha : Sha256) (call : BuildCall) : List ContextItem :=
  call.history.map (fun s => itemOf sha .optionalHistory Importance.optional.value "history" [] s
      []) ++
    call.priorResults.map fun r => itemOf sha .agentResult r.importance "prior_result" r.sourceRef
      r.content []

def inputs (sha : Sha256) (call : BuildCall) : List ContextItem :=
  inputsBefore sha call ++ call.artifacts.map (artifactOf sha) ++ inputsAfter sha call

/-! ### Encodings -/

theorem encodable_ofString (s : String) : Encodable (PyStr.ofString s) := by
  simp [Encodable]

theorem encodable_iff : Encodable s ↔ ∀ c ∈ s, (PyStr.scalar? c).isSome :=
  PyStr.isSome_encode?_iff

theorem encodable_append {s t : PyStr} : Encodable (s ++ t) ↔ Encodable s ∧ Encodable t := by
  simp only [encodable_iff, List.forall_mem_append]

theorem isNone_scanList {xs : List Json} {hit : PyStr → Option String} :
    (Json.scanList hit xs).isNone ↔ ∀ x ∈ xs, (x.scan hit).isNone := by
  induction xs with
  | nil => simp [Json.scanList]
  | cons x xs ih =>
    rw [Json.scanList, List.forall_mem_cons, ← ih]
    cases x.scan hit <;> simp

theorem isNone_unencodable : (Sha256.unencodable s).isNone ↔ Encodable s := by
  unfold Sha256.unencodable Encodable
  cases s.encode? <;> simp

theorem isNone_scan_texts {ss : List PyStr} :
    ((Json.arr (ss.map Json.str)).scan Sha256.unencodable).isNone = true ↔
      ∀ s ∈ ss, Encodable s := by
  rw [Json.scan, isNone_scanList, List.forall_mem_map]
  exact forall₂_congr fun s _ => isNone_unencodable

theorem encodable_value (trustClass : TrustClass) : Encodable trustClass.value := by
  cases trustClass <;> exact encodable_ofString _

/-- The id of an item whose texts have an encoding. -/
theorem makeItemId_eq {trustClass sourceType sourceRef content : PyStr}
    (htrust : Encodable trustClass) (htype : Encodable sourceType) (href : Encodable sourceRef)
    (hcontent : Encodable content) :
    makeItemId sha trustClass sourceType sourceRef content =
      .ok (PyStr.ofString "ci_" ++ (sha.ofJson (.arr [.str trustClass, .str sourceType,
        .str sourceRef, .str content])).take 16) := by
  have hid : ((Json.arr ([trustClass, sourceType, sourceRef, content].map Json.str)).scan
      Sha256.unencodable).isNone = true := by
    rw [isNone_scan_texts]
    simp only [List.forall_mem_cons]
    exact ⟨htrust, htype, href, hcontent, nofun⟩
  simp only [makeItemId, Sha256.json, bind_eq_ok, pure_eq_ok]
  exact ⟨_, if_pos hid, rfl⟩

theorem itemContentHash_eq {content : PyStr} (h : Encodable content) :
    itemContentHash sha content = .ok (sha.ofText content) := if_pos h

theorem makeItem_eq
    (href : Encodable sourceRef)
    (hcontent : Encodable content) :
    makeItem sha trustClass importance sourceType sourceRef content metadata =
      .ok (itemOf sha trustClass importance sourceType sourceRef content metadata) := by
  rw [makeItem, makeItemId_eq (encodable_value _) (encodable_ofString _) href hcontent,
    itemContentHash_eq hcontent]
  rfl

/-! ### No `ValueError` -/

/-- All texts of an item have an encoding. -/
structure Whole (it : ContextItem) : Prop where
  trustClass : Encodable it.trustClass
  importance : Encodable it.importance
  sourceType : Encodable it.sourceType
  sourceRef : Encodable it.sourceRef
  content : Encodable it.content
  metadata : ∀ e ∈ it.metadata, Encodable e.1 ∧ Encodable e.2

theorem isNone_scanFields {fields : List (PyStr × Json)} {hit : PyStr → Option String} :
    (Json.scanFields hit fields).isNone ↔
      ∀ e ∈ fields, (hit e.1).isNone ∧ (e.2.scan hit).isNone := by
  induction fields with
  | nil => simp [Json.scanFields]
  | cons e fields ih =>
    rw [Json.scanFields, List.forall_mem_cons, ← ih]
    cases hit e.1 <;> cases e.2.scan hit <;> simp

theorem isNone_scan_dict {fields : List (String × Json)} :
    ((Json.dict fields).scan Sha256.unencodable).isNone ↔
      ∀ e ∈ fields, (e.2.scan Sha256.unencodable).isNone := by
  rw [Json.dict, Json.scan, isNone_scanFields, List.forall_mem_map]
  exact forall₂_congr fun e _ => and_iff_right (isNone_unencodable.mpr (encodable_ofString _))

theorem isNone_scan_itemCanonical :
    ((itemCanonical it).scan Sha256.unencodable).isNone ↔ Whole it := by
  have hmetadata : ((Json.arr (it.metadata.map fun e => .arr [.str e.1, .str e.2])).scan
      Sha256.unencodable).isNone = true ↔ ∀ e ∈ it.metadata, Encodable e.1 ∧ Encodable e.2 := by
    rw [Json.scan, isNone_scanList, List.forall_mem_map]
    refine forall₂_congr fun e _ => ?_
    have hpair := @isNone_scan_texts [e.1, e.2]
    simpa using hpair
  rw [itemCanonical, isNone_scan_dict]
  simp only [List.forall_mem_cons, Json.scan, isNone_unencodable] at hmetadata ⊢
  rw [hmetadata]
  constructor
  · rintro ⟨htrust, himportance, htype, href, hcontent, hentries, -⟩
    exact ⟨htrust, himportance, htype, href, hcontent, hentries⟩
  · rintro ⟨htrust, himportance, htype, href, hcontent, hentries⟩
    exact ⟨htrust, himportance, htype, href, hcontent, hentries, nofun⟩

theorem isNone_scan_canonicalContent {role version : PyStr} :
    ((canonicalContent items role version).scan Sha256.unencodable).isNone ↔
      Encodable version ∧ Encodable role ∧ ∀ it ∈ items, Whole it := by
  rw [canonicalContent, isNone_scan_dict]
  simp only [List.forall_mem_cons, Json.scan, isNone_unencodable, isNone_scanList,
    List.forall_mem_map, List.mem_insertionSort, isNone_scan_itemCanonical]
  exact and_congr_right fun _ => and_congr_right fun _ => and_iff_left nofun

theorem contentHash_eq {role version : PyStr}
    (hitems : ∀ it ∈ items, Whole it) (hrole : Encodable role) (hversion : Encodable version) :
    contentHash sha items role version =
      .ok (sha.ofJson (canonicalContent items role version)) :=
  if_pos ((isNone_scan_canonicalContent).mpr ⟨hversion, hrole, hitems⟩)

theorem encodable_of_validHex {n : ℕ} (h : validHex s n) : Encodable s := by
  rw [encodable_iff]
  intro c hc
  simp only [validHex, Bool.and_eq_true, List.all_eq_true, decide_eq_true_eq] at h
  obtain ⟨d, -, rfl⟩ := List.mem_map.mp (h.2 c hc)
  rfl

section NoValue

variable {α β : Type} {x : Except BuildError α} {f : α → Except BuildError β}

theorem bind_ne_value (hx : x ≠ .error .value) (hf : ∀ a, x = .ok a → f a ≠ .error .value) :
    (x >>= f) ≠ .error .value := by
  cases x with
  | ok a => exact hf a rfl
  | error e =>
    rintro ⟨⟩
    exact hx rfl

theorem check_ne_value (ok : Bool) (code : String) : check ok code ≠ .error .value := by
  cases ok <;> exact nofun

theorem forM_ne_value {xs : List α} {g : α → Except BuildError Unit}
    (h : ∀ x ∈ xs, g x ≠ .error .value) : xs.forM g ≠ .error .value := by
  induction xs with
  | nil => exact nofun
  | cons x xs ih =>
    exact bind_ne_value (h x List.mem_cons_self) fun _ _ =>
      ih fun y hy => h y (List.mem_cons_of_mem _ hy)

end NoValue

variable (sha) in
/-- The pack of items that have an encoding. -/
theorem exists_assemble (hitems : ∀ it ∈ items, Whole it)
    (hrole : Encodable call.role) (hdispatch : Encodable call.dispatchId) (tier : BudgetTier)
    (estimated : ℤ) (reason : Option PyStr) :
    ∃ pack, assemble sha call tier estimated items reason = .ok pack ∧ pack.items = items ∧
      pack.role = call.role ∧ pack.version = contextPackVersion := by
  have hid : Encodable (call.dispatchId ++ .scalar (Char.ofNat 0) ::
      sha.ofJson (canonicalContent items call.role contextPackVersion)) := by
    rw [encodable_append]
    refine ⟨hdispatch, encodable_iff.mpr (List.forall_mem_cons.mpr ⟨rfl, ?_⟩)⟩
    exact encodable_iff.mp (encodable_of_validHex (sha.hexJson _))
  simp only [assemble, makeContextPackId, bind_eq_ok, pure_eq_ok]
  exact ⟨_, ⟨_, contentHash_eq hitems hrole (encodable_ofString _), _, ⟨_, if_pos hid, rfl⟩, rfl⟩,
    rfl, rfl, rfl⟩

theorem validateItem_ne_value (h : Whole it) :
    validateItem sha it ≠ .error .value := by
  unfold validateItem
  rw [makeItemId_eq h.trustClass h.sourceType h.sourceRef h.content, itemContentHash_eq h.content]
  exact bind_ne_value (check_ne_value _ _) fun _ _ => bind_ne_value (check_ne_value _ _) fun _ _ =>
    bind_ne_value (check_ne_value _ _) fun _ _ => bind_ne_value nofun fun _ _ =>
    bind_ne_value (check_ne_value _ _) fun _ _ => bind_ne_value nofun fun _ _ =>
    bind_ne_value (check_ne_value _ _) fun _ _ => bind_ne_value (check_ne_value _ _) fun _ _ =>
    bind_ne_value (check_ne_value _ _) fun _ _ => check_ne_value _ _

theorem validateBudget_ne_value (pack : ContextPack) : validateBudget pack ≠ .error .value := by
  unfold validateBudget
  exact bind_ne_value (check_ne_value _ _) fun _ _ => bind_ne_value (check_ne_value _ _) fun _ _ =>
    bind_ne_value (check_ne_value _ _) fun _ _ => bind_ne_value (check_ne_value _ _) fun _ _ =>
    bind_ne_value (check_ne_value _ _) fun _ _ => check_ne_value _ _

theorem validateContextPack_ne_value {pack : ContextPack} (hitems : ∀ it ∈ pack.items, Whole it)
    (hrole : Encodable pack.role) (hversion : Encodable pack.version) :
    validateContextPack sha pack ≠ .error .value := by
  unfold validateContextPack
  rw [contentHash_eq hitems hrole hversion]
  exact bind_ne_value (check_ne_value _ _) fun _ _ => bind_ne_value (check_ne_value _ _) fun _ _ =>
    bind_ne_value (check_ne_value _ _) fun _ _ =>
    bind_ne_value (forM_ne_value fun it hit => validateItem_ne_value (hitems it hit)) fun _ _ =>
    bind_ne_value (validateBudget_ne_value pack) fun _ _ =>
    bind_ne_value (check_ne_value _ _) fun _ _ => bind_ne_value (check_ne_value _ _) fun _ _ =>
    bind_ne_value nofun fun _ _ => check_ne_value _ _

end Context

end ArgentTeam
