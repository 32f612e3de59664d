import ArgentTeam.Planning.Plan

/-!
# Evidence

What the executor keeps of the selectors it has run: records that carry the identity of what
was tested and a MAC, in a dictionary whose keys are the MACs. A store that has grown too large
drops its oldest records, and a result is reused only if the identity is the same in all of its
fields, the MAC verifies, and no record of the same identity is anything but a pass
(`vouches_of_findReusablePass`).
-/

namespace ArgentTeam

namespace Execution

/-! ### Results -/

inductive ResultClass
  | testPass
  | testFailure
  | testInfraFailure
  | resourceFailure
  | processFailure
  | timeout
  | cancelledBlocked
  | unknown
  deriving DecidableEq

namespace ResultClass

def value : ResultClass → String
  | testPass => "TEST_PASS"
  | testFailure => "TEST_FAILURE"
  | testInfraFailure => "TEST_INFRA_FAILURE"
  | resourceFailure => "RESOURCE_FAILURE"
  | processFailure => "PROCESS_FAILURE"
  | timeout => "TIMEOUT"
  | cancelledBlocked => "CANCELLED_BLOCKED"
  | unknown => "UNKNOWN"

/-- The members. -/
def all : List ResultClass :=
  [testPass, testFailure, testInfraFailure, resourceFailure, processFailure, timeout,
    cancelledBlocked, unknown]

/-- `ResultClass(..)`; `none` where it raises. -/
def ofValue? (s : PyStr) : Option ResultClass := all.find? fun c => s = PyStr.ofString c.value

@[simp]
theorem ofValue?_value (c : ResultClass) : ofValue? (PyStr.ofString c.value) = some c := by
  cases c <;> simp [ofValue?, all, value]

end ResultClass

/-- `SnapshotIdentity`, with what its `__post_init__` checks. -/
structure SnapshotIdentity where
  sourceHash : PyStr
  testDefinitionHash : PyStr
  executorId : PyStr
  root : PyStr := []
  configHash : PyStr := []
  nonempty : sourceHash ≠ [] ∧ testDefinitionHash ≠ [] ∧ executorId ≠ []

/-! ### Records -/

def maxSummary : ℕ := 1000

def maxArtifactRef : ℕ := 256

/-- The fields of `identity_fields`. -/
structure EvidenceIdentity where
  selector : PyStr
  sourceHash : PyStr
  testDefinitionHash : PyStr
  planHash : PyStr
  inventoryHash : PyStr
  policyHash : PyStr
  executorId : PyStr
  root : PyStr
  configHash : PyStr
  deriving DecidableEq

/-- `EvidenceRecord`, with the bounds of its `__post_init__`. -/
structure EvidenceRecord extends EvidenceIdentity where
  classification : ResultClass
  timestamp : PyStr
  artifactRef : PyStr
  summary : PyStr
  testCount : ℤ
  evidenceHash : PyStr
  bounded : summary.length ≤ maxSummary ∧ artifactRef.length ≤ maxArtifactRef
  deriving DecidableEq

namespace EvidenceRecord

/-- A record as the constructor leaves it. -/
def of (identity : EvidenceIdentity) (classification : ResultClass)
    (timestamp artifactRef summary : PyStr) (testCount : ℤ) (evidenceHash : PyStr) :
    EvidenceRecord :=
  { identity with
    classification
    timestamp
    artifactRef := artifactRef.take maxArtifactRef
    summary := summary.take maxSummary
    testCount
    evidenceHash
    bounded := ⟨List.length_take_le _ _, List.length_take_le _ _⟩ }

variable (r : EvidenceRecord)

/-- What the MAC of a record is taken of. -/
def macPayload : Json :=
  .dict
    [("identity", .dict
        [("selector", .str r.selector),
          ("source_hash", .str r.sourceHash),
          ("test_definition_hash", .str r.testDefinitionHash),
          ("plan_hash", .str r.planHash),
          ("inventory_hash", .str r.inventoryHash),
          ("policy_hash", .str r.policyHash),
          ("executor_id", .str r.executorId),
          ("root", .str r.root),
          ("config_hash", .str r.configHash)]),
      ("classification", .text r.classification.value),
      ("timestamp", .str r.timestamp),
      ("artifact_ref", .str r.artifactRef),
      ("summary", .str r.summary),
      ("test_count", .int r.testCount)]

/-- A record as it is written. -/
def toJson : Json :=
  .dict
    [("selector", .str r.selector),
      ("source_hash", .str r.sourceHash),
      ("test_definition_hash", .str r.testDefinitionHash),
      ("plan_hash", .str r.planHash),
      ("inventory_hash", .str r.inventoryHash),
      ("policy_hash", .str r.policyHash),
      ("executor_id", .str r.executorId),
      ("classification", .text r.classification.value),
      ("timestamp", .str r.timestamp),
      ("artifact_ref", .str r.artifactRef),
      ("summary", .str r.summary),
      ("test_count", .int r.testCount),
      ("evidence_hash", .str r.evidenceHash),
      ("root", .str r.root),
      ("config_hash", .str r.configHash)]

/-- `item[key]`, of a text. -/
def field? (fields : List (PyStr × Json)) (key : String) : Option PyStr :=
  match Json.get? fields key with
  | some (.str s) => some s
  | _ => none

/-- `item.get(key, "")`, of a text. -/
def fieldD? (fields : List (PyStr × Json)) (key : String) : Option PyStr :=
  match Json.get? fields key with
  | none => some []
  | some (.str s) => some s
  | some _ => none

/-- `int(item.get("test_count", 0))`, of a number; the numerals and floats that `int` takes besides
are refused here. -/
def testCount? (fields : List (PyStr × Json)) : Option ℤ :=
  match Json.get? fields "test_count" with
  | none => some 0
  | some (.int n) => some n
  | some (.bool b) => some (if b then 1 else 0)
  | some _ => none

/-- A record as `_load` reads it; `none` where it raises, or where a field has another type than it
is written with, which `_load` does not look at. -/
def ofJson? : Json → Option EvidenceRecord
  | .obj fields => do
    let selector ← field? fields "selector"
    let sourceHash ← field? fields "source_hash"
    let testDefinitionHash ← field? fields "test_definition_hash"
    let planHash ← field? fields "plan_hash"
    let inventoryHash ← field? fields "inventory_hash"
    let policyHash ← field? fields "policy_hash"
    let executorId ← field? fields "executor_id"
    let classification ← (field? fields "classification").bind ResultClass.ofValue?
    let timestamp ← field? fields "timestamp"
    let artifactRef ← fieldD? fields "artifact_ref"
    let summary ← fieldD? fields "summary"
    let testCount ← testCount? fields
    let evidenceHash ← field? fields "evidence_hash"
    let root ← fieldD? fields "root"
    let configHash ← fieldD? fields "config_hash"
    some (of ⟨selector, sourceHash, testDefinitionHash, planHash, inventoryHash, policyHash,
      executorId, root, configHash⟩ classification timestamp artifactRef summary testCount
      evidenceHash)
  | _ => none

theorem get?_cons {k key : String} {v : Json} {fields : List (PyStr × Json)} :
    Json.get? ((PyStr.ofString k, v) :: fields) key =
      if k = key then some v else Json.get? fields key := by
  by_cases h : k = key <;> simp [Json.get?, h]

/-- **A record decodes to itself.** -/
@[simp]
theorem ofJson?_toJson : ofJson? r.toJson = some r := by
  have hsummary : r.summary.take maxSummary = r.summary := List.take_of_length_le r.bounded.1
  have href : r.artifactRef.take maxArtifactRef = r.artifactRef :=
    List.take_of_length_le r.bounded.2
  simp [ofJson?, toJson, Json.dict, field?, fieldD?, testCount?, get?_cons, Json.text, of,
    hsummary, href]

end EvidenceRecord

/-! ### The store -/

def computeEvidenceMac {κ : Type} (hmac : κ → Json → String) (record : EvidenceRecord) (key : κ) :
    PyStr :=
  PyStr.ofString (hmac key record.macPayload)

section Records

/-- `self._records[rec.evidence_hash] = rec`. -/
def assign (records : List EvidenceRecord) (rec : EvidenceRecord) : List EvidenceRecord :=
  if ∃ r ∈ records, r.evidenceHash = rec.evidenceHash then
    records.map fun r => if r.evidenceHash = rec.evidenceHash then rec else r
  else records ++ [rec]

/-- `min(records, key=timestamp)`: the first of the oldest. -/
def oldest : List EvidenceRecord → Option EvidenceRecord
  | [] => none
  | r :: records => match oldest records with
    | none => some r
    | some o => if PyStr.le r.timestamp o.timestamp then some r else some o

def dropOldest (records : List EvidenceRecord) : List EvidenceRecord :=
  match oldest records with
  | none => records
  | some o => records.filter fun r => r.evidenceHash ≠ o.evidenceHash

def trim (maxRecords : ℕ) (records : List EvidenceRecord) : List EvidenceRecord :=
  dropOldest^[records.length - maxRecords] records

variable {records : List EvidenceRecord} {rec r : EvidenceRecord} {n : ℕ}

theorem keys_assign : (assign records rec).map EvidenceRecord.evidenceHash =
    if rec.evidenceHash ∈ records.map EvidenceRecord.evidenceHash then
      records.map EvidenceRecord.evidenceHash
    else records.map EvidenceRecord.evidenceHash ++ [rec.evidenceHash] := by
  by_cases hmem : rec.evidenceHash ∈ records.map EvidenceRecord.evidenceHash
  · rw [assign, if_pos (List.mem_map.mp hmem), if_pos hmem, List.map_map]
    refine List.map_congr_left fun r _ => ?_
    by_cases h : r.evidenceHash = rec.evidenceHash <;> simp [h]
  · rw [assign, if_neg (mt List.mem_map.mpr hmem), if_neg hmem]
    simp

theorem nodup_keys_assign (h : (records.map EvidenceRecord.evidenceHash).Nodup) :
    ((assign records rec).map EvidenceRecord.evidenceHash).Nodup := by
  rw [keys_assign]
  split
  · exact h
  next hnew => exact h.append (List.nodup_singleton _) (by simpa using hnew)

theorem mem_assign_self : rec ∈ assign records rec := by
  unfold assign
  split
  next hmem =>
    obtain ⟨r, hr, heq⟩ := hmem
    exact List.mem_map.mpr ⟨r, hr, if_pos heq⟩
  · simp

theorem mem_of_mem_assign (h : r ∈ assign records rec) : r ∈ records ∨ r = rec := by
  unfold assign at h
  split at h
  · obtain ⟨r', hr', rfl⟩ := List.mem_map.mp h
    by_cases heq : r'.evidenceHash = rec.evidenceHash
    · exact .inr (if_pos heq)
    · exact .inl (by rwa [if_neg heq])
  · simpa using h

theorem mem_assign_of_ne (h : r ∈ records) (hne : r.evidenceHash ≠ rec.evidenceHash) :
    r ∈ assign records rec := by
  unfold assign
  split
  · exact List.mem_map.mpr ⟨r, h, if_neg hne⟩
  · exact List.mem_append_left _ h

theorem oldest_mem {o : EvidenceRecord} (h : oldest records = some o) : o ∈ records := by
  induction records generalizing o with
  | nil => cases h
  | cons r records ih =>
    simp only [oldest] at h
    split at h
    · cases h
      exact List.mem_cons_self
    next o' ho' =>
      split at h
      · cases h
        exact List.mem_cons_self
      · cases h
        exact List.mem_cons_of_mem _ (ih ho')

theorem oldest_isSome (h : records ≠ []) : ∃ o, oldest records = some o := by
  cases records with
  | nil => exact absurd rfl h
  | cons r records =>
    simp only [oldest]
    split
    · exact ⟨_, rfl⟩
    · split <;> exact ⟨_, rfl⟩

theorem dropOldest_sublist (records : List EvidenceRecord) :
    (dropOldest records).Sublist records := by
  unfold dropOldest
  split
  · exact List.Sublist.refl _
  · exact List.filter_sublist

/-- One record goes. -/
theorem length_dropOldest (h : (records.map EvidenceRecord.evidenceHash).Nodup) :
    (dropOldest records).length = records.length - 1 := by
  rcases eq_or_ne records [] with rfl | hne
  · rfl
  · obtain ⟨o, ho⟩ := oldest_isSome hne
    have hone : (records.filter fun r => r.evidenceHash = o.evidenceHash).length = 1 := by
      have hcount := List.count_eq_one_of_mem h (List.mem_map_of_mem (oldest_mem ho))
      rw [List.count, List.countP_map, List.countP_eq_length_filter] at hcount
      rw [← hcount]
      refine congrArg List.length (List.filter_congr fun r _ => ?_)
      rw [Function.comp_apply, beq_eq_decide]
    have hsplit := List.length_eq_length_filter_add (l := records)
      fun r => r.evidenceHash = o.evidenceHash
    simp only [dropOldest, ho]
    simp only [decide_not] at hsplit ⊢
    omega

theorem iterate_dropOldest_sublist (n : ℕ) (records : List EvidenceRecord) :
    (dropOldest^[n] records).Sublist records := by
  induction n generalizing records with
  | zero => exact List.Sublist.refl _
  | succ n ih => exact (ih (dropOldest records)).trans (dropOldest_sublist records)

theorem trim_sublist (n : ℕ) (records : List EvidenceRecord) : (trim n records).Sublist records :=
  iterate_dropOldest_sublist _ _

theorem length_iterate_dropOldest (h : (records.map EvidenceRecord.evidenceHash).Nodup) (n : ℕ) :
    (dropOldest^[n] records).length = records.length - n := by
  induction n generalizing records with
  | zero => rfl
  | succ n ih =>
    rw [Function.iterate_succ_apply, ih (h.sublist ((dropOldest_sublist records).map _)),
      length_dropOldest h]
    omega

theorem length_trim_le (h : (records.map EvidenceRecord.evidenceHash).Nodup) :
    (trim n records).length ≤ n := by
  rw [trim, length_iterate_dropOldest h]
  omega

theorem nodup_keys_trim (h : (records.map EvidenceRecord.evidenceHash).Nodup) :
    ((trim n records).map EvidenceRecord.evidenceHash).Nodup :=
  h.sublist ((trim_sublist n records).map _)

end Records

/-- `EvidenceStore`: the dictionary of a store, whose keys are the MACs, with what its methods
keep. -/
structure EvidenceStore {κ : Type} (hmac : κ → Json → String) where
  /-- Whether there is a `_path`. -/
  persistent : Bool
  maxRecords : ℕ
  macKey : κ
  expectedGeneration : ℕ
  /-- `_records`, in the order of the dictionary. -/
  records : List EvidenceRecord
  positive : 1 ≤ maxRecords
  keys : (records.map EvidenceRecord.evidenceHash).Nodup
  bounded : records.length ≤ maxRecords
  authentic : ∀ r ∈ records, r.evidenceHash = computeEvidenceMac hmac r macKey

namespace EvidenceStore

variable {κ : Type} {hmac : κ → Json → String} (store : EvidenceStore hmac)

/-- A store whose path does not exist. -/
def fresh (hmac : κ → Json → String) (persistent : Bool) (maxRecords : ℕ) (key : κ)
    (h : 1 ≤ maxRecords) : EvidenceStore hmac where
  persistent := persistent
  maxRecords := maxRecords
  macKey := key
  expectedGeneration := 0
  records := []
  positive := h
  keys := List.nodup_nil
  bounded := Nat.zero_le _
  authentic := nofun

def verifyMac (record : EvidenceRecord) : Bool :=
  record.evidenceHash = computeEvidenceMac hmac record store.macKey

/-- The record that `add` keeps: with its MAC; `none` if it has another one. -/
def authenticated (record : EvidenceRecord) : Option EvidenceRecord :=
  if record.evidenceHash ≠ [] then if store.verifyMac record then some record else none
  else some { record with evidenceHash := computeEvidenceMac hmac record store.macKey }

variable {store} in
theorem mac_of_authenticated {record rec : EvidenceRecord}
    (h : store.authenticated record = some rec) :
    rec.evidenceHash = computeEvidenceMac hmac rec store.macKey := by
  unfold authenticated at h
  split at h
  · split at h
    next hverify =>
      cases h
      simpa [verifyMac] using hverify
    · cases h
  · cases h
    rfl

/-- `add`, of a record with its MAC, up to the saving. -/
def put (rec : EvidenceRecord) (h : rec.evidenceHash = computeEvidenceMac hmac rec store.macKey) :
    EvidenceStore hmac :=
  { store with
    records := trim store.maxRecords (assign store.records rec)
    keys := nodup_keys_trim (nodup_keys_assign store.keys)
    bounded := length_trim_le (nodup_keys_assign store.keys)
    authentic := fun r hr => by
      rcases mem_of_mem_assign ((trim_sublist _ _).subset hr) with hmem | rfl
      · exact store.authentic r hmem
      · exact h }

/-- `add`, up to the saving; `none` where it raises. -/
def add (record : EvidenceRecord) : Option (EvidenceStore hmac) :=
  match h : store.authenticated record with
  | none => none
  | some rec => some (store.put rec (mac_of_authenticated h))

/-! ### Reuse -/

/-- What the loop of `find_reusable_pass` has found. -/
structure Scan where
  passRecord : Option EvidenceRecord := none
  conflict : Bool := false

/-- One round of the loop. -/
def scan (want : EvidenceIdentity) (found : Scan) (rec : EvidenceRecord) : Scan :=
  if rec.toEvidenceIdentity ≠ want then found
  else if rec.classification = .testPass then
    if store.verifyMac rec && found.passRecord.isNone then { found with passRecord := some rec }
    else found
  else { found with conflict := true }

/-- The identity that a record is reused for. -/
def wanted (selector : PyStr) (snapshot : SnapshotIdentity) (plan : Planning.TestPlan) :
    EvidenceIdentity where
  selector := selector
  sourceHash := snapshot.sourceHash
  testDefinitionHash := snapshot.testDefinitionHash
  planHash := PyStr.ofString plan.planHash
  inventoryHash := PyStr.ofString plan.inventoryHash
  policyHash := PyStr.ofString plan.policyHash
  executorId := snapshot.executorId
  root := snapshot.root
  configHash := snapshot.configHash

def findReusablePass (selector : PyStr) (snapshot : SnapshotIdentity) (plan : Planning.TestPlan) :
    Option EvidenceRecord :=
  let found := store.records.foldl (store.scan (wanted selector snapshot plan)) {}
  if found.conflict then none else found.passRecord

/-- A record stands for a pass of an identity: a stored pass whose fields are the same, whose MAC
verifies, and that no record of the identity contradicts. -/
structure Vouches (want : EvidenceIdentity) (rec : EvidenceRecord) : Prop where
  stored : rec ∈ store.records
  identity : rec.toEvidenceIdentity = want
  pass : rec.classification = .testPass
  verified : store.verifyMac rec = true
  unopposed : ∀ r ∈ store.records, r.toEvidenceIdentity = want → r.classification = .testPass

variable {store} {want : EvidenceIdentity} {records : List EvidenceRecord} {found : Scan}

theorem conflict_foldl_scan : (records.foldl (store.scan want) found).conflict = false ↔
    found.conflict = false ∧
      ∀ r ∈ records, r.toEvidenceIdentity = want → r.classification = .testPass := by
  induction records generalizing found with
  | nil => simp
  | cons r records ih =>
    rw [List.foldl_cons, ih, List.forall_mem_cons, ← and_assoc]
    refine and_congr_left' ?_
    unfold scan
    split
    next hne => simp [hne]
    · split
      next hpass => split <;> simp [hpass]
      next hfail => simp_all

theorem passRecord_foldl_scan {rec : EvidenceRecord}
    (h : (records.foldl (store.scan want) found).passRecord = some rec) :
    found.passRecord = some rec ∨ rec ∈ records ∧ rec.toEvidenceIdentity = want ∧
      rec.classification = .testPass ∧ store.verifyMac rec := by
  induction records generalizing found with
  | nil => exact .inl h
  | cons r records ih =>
    rcases ih h with hfound | ⟨hmem, hrest⟩
    · unfold scan at hfound
      split at hfound
      · exact .inl hfound
      next hid =>
        split at hfound
        next hpass =>
          split at hfound
          next hverify =>
            cases hfound
            refine .inr ⟨List.mem_cons_self, not_not.mp hid, hpass, ?_⟩
            exact (Bool.and_eq_true _ _ ▸ hverify).1
          · exact .inl hfound
        · exact .inl hfound
    · exact .inr ⟨List.mem_cons_of_mem _ hmem, hrest⟩

/-- **What is reused vouches for a pass.** -/
theorem vouches_of_findReusablePass {selector : PyStr} {snapshot : SnapshotIdentity}
    {plan : Planning.TestPlan} {rec : EvidenceRecord}
    (h : store.findReusablePass selector snapshot plan = some rec) :
    store.Vouches (wanted selector snapshot plan) rec := by
  unfold findReusablePass at h
  simp only at h
  split at h
  · cases h
  next hconflict =>
    have hcalm := ((conflict_foldl_scan).mp (Bool.not_eq_true _ ▸ hconflict)).2
    rcases passRecord_foldl_scan h with hnone | ⟨hmem, hid, hpass, hverify⟩
    · cases hnone
    · exact ⟨hmem, hid, hpass, hverify, hcalm⟩

end EvidenceStore

end Execution

end ArgentTeam
