import ArgentTeam.Execution.Addition
import ArgentTeam.Lib.JsonRoundTrip

/-!
# A restart of the evidence store

A store that is made anew at a path reads the text that the last save has written there. The
keys come back sorted; but the store that comes out is the one that was saved, record for
record and in the same order (`loadText_fileText`).
-/

namespace ArgentTeam

open JsonText

namespace Execution

open EvidenceRecord

variable {κ : Type} {hmac : κ → Json → String} {records : List EvidenceRecord}

/-! ### What is read again -/

/-- A record decodes to itself when it is read again. -/
theorem ofJson?_reread {r : EvidenceRecord} (h : r.Encodable)
    (hhash : joinPairs r.evidenceHash = r.evidenceHash) :
    ofJson? (reread r.toJson) = some r := by
  have hjoin : ∀ s ∈ _, joinPairs s = s := fun s hs => joinPairs_of_encode? (h.1 s hs)
  simp only [List.forall_mem_cons] at hjoin
  obtain ⟨fs, hfs, hget⟩ : ∃ fs, reread r.toJson = .obj fs ∧ ∀ key, Json.get? fs key = _ :=
    reread_dict (by simp)
  rw [hfs, ← ofJson?_toJson r]
  simp [ofJson?, field?, fieldD?, testCount?, hget, toJson, Json.dict, get?_cons, reread, hjoin,
    hhash, Json.text, joinPairs_ofString]

theorem mapM_reread (h : ∀ r ∈ records, ofJson? (reread r.toJson) = some r) :
    (rereadList (records.map toJson)).mapM ofJson? = some records := by
  induction records with
  | nil => rfl
  | cons r records ih =>
    rw [List.forall_mem_cons] at h
    rw [List.map_cons, rereadList, List.mapM_cons, h.1, ih h.2]
    rfl

/-- Records whose MACs differ are all kept, in their order. -/
theorem foldl_assign {acc : List EvidenceRecord}
    (h : ((acc ++ records).map evidenceHash).Nodup) :
    records.foldl assign acc = acc ++ records := by
  induction records generalizing acc with
  | nil => simp
  | cons r records ih =>
    have hnew : ¬∃ r' ∈ acc, r'.evidenceHash = r.evidenceHash := by
      rintro ⟨r', hr', heq⟩
      rw [List.map_append, List.nodup_append] at h
      exact h.2.2 _ (List.mem_map_of_mem hr') _ (by simp) heq
    rw [List.foldl_cons, assign, if_neg hnew, ih (by simpa using h), List.append_assoc]
    rfl

/-! ### The restart -/

namespace EvidenceStore

variable (store : EvidenceStore hmac)

/-- The text that `_save` writes. -/
def fileText : List Char := write .indented 0 store.payload

/-- The decoder of `_load`, with its hook `_no_duplicate_keys`. -/
def decoder (float : List Char → PyFloat) (nesting : ℕ) : Decoder :=
  ⟨float, nesting, fun fields => if (fields.map Prod.fst).Nodup then some (.obj fields) else none⟩

/-- `_load`, from the text of the file. -/
def loadText (hmac : κ → Json → String) (maxRecords : ℕ) (positive : 1 ≤ maxRecords) (key : κ)
    (d : Decoder) (text : List Char) : Option (EvidenceStore hmac) :=
  match loads d text with
  | .ok value => load hmac maxRecords positive key (.document value false)
  | .error _ => none

/-- An integer that the decoder does not find too long. -/
abbrev Short (n : ℤ) : Prop := (Nat.toDigits 10 n.natAbs).length ≤ maxStrDigits

theorem readable_payload (n : ℕ) (hgen : Short (store.expectedGeneration + 1))
    (hcounts : ∀ r ∈ store.records, Short r.testCount) : Readable (n + 3) store.payload := by
  have hitems : ∀ r ∈ store.records, Readable (n + 1) r.toJson := by
    refine fun r hr => .obj (by simp [joinPairs_ofString]) ?_
    simp only [List.forall_mem_map, List.forall_mem_cons]
    exact ⟨.str, .str, .str, .str, .str, .str, .str, .str, .str, .str, .str, .int (hcounts r hr),
      .str, .str, .str, nofun⟩
  refine .obj (by simp [joinPairs_ofString]) ?_
  simp only [List.forall_mem_map, List.forall_mem_cons]
  exact ⟨.str, .int hgen, .arr (List.forall_mem_map.mpr hitems), nofun⟩

/-- **A restart finds the store that was saved**, record for record. -/
theorem loadText_fileText (float : List Char → PyFloat) (n : ℕ)
    (hrecords : ∀ r ∈ store.records, r.Encodable)
    (hgen : Short (store.expectedGeneration + 1)) :
    loadText hmac store.maxRecords store.positive store.macKey (decoder float (n + 3))
        store.fileText =
      some { store with
        persistent := true, expectedGeneration := store.expectedGeneration + 1 } := by
  have hfaithful : (decoder float (n + 3)).Faithful := fun fields h => if_pos h
  have hreadable := store.readable_payload n hgen fun r hr => (hrecords r hr).2
  obtain ⟨fs, hfs, hget⟩ : ∃ fs, reread store.payload = .obj fs ∧ ∀ key, Json.get? fs key = _ :=
    reread_dict (by simp)
  have hversion : Json.get? fs "evidence_store_version" = some (.text "1") := by
    simp [hget, get?_cons, reread, Json.text, joinPairs_ofString]
  have hnumber : Json.get? fs "store_generation" = some (.int (store.expectedGeneration + 1)) := by
    simp [hget, get?_cons, reread]
  have hitems : Json.get? fs "records" = some (.arr (rereadList (store.records.map toJson))) := by
    simp [hget, get?_cons, reread]
  have hdecoded := mapM_reread fun r hr => ofJson?_reread (hrecords r hr) (by
    rw [store.authentic r hr, computeEvidenceMac, joinPairs_ofString])
  have hloaded : loadedRecords hmac store.macKey fs = some store.records := by
    have hassign := @foldl_assign store.records [] store.keys
    simpa [loadedRecords, hitems, hdecoded, hassign] using store.authentic
  have hgeneration : loadedGeneration fs = some (store.expectedGeneration + 1) := by
    simp only [loadedGeneration, hnumber]
    rw [if_neg (by omega)]
    rfl
  have hfields : loadedFields (.document (.obj fs) false) = some fs := by
    simp [loadedFields, hversion]
  rw [loadText, fileText, loads_write hfaithful hreadable]
  simp only [hfs, load, hfields]
  split
  next g records hg hr =>
    rw [hgeneration] at hg
    rw [hloaded] at hr
    cases hg
    cases hr
    simp [trim_of_length_le store.bounded]
  next hno => exact absurd hloaded (hno _ _ hgeneration)

/-- A store with one record. -/
def passedOnce : EvidenceStore plainMac :=
  (fresh plainMac true 1 () Nat.one_pos).put
    { passed 'a' with evidenceHash := PyStr.ofString "4f" } rfl

theorem loadText_passedOnce :
    loadText plainMac 1 passedOnce.positive () (decoder (fun _ => .nan) 3) passedOnce.fileText =
      some { passedOnce with expectedGeneration := 1 } :=
  loadText_fileText passedOnce _ 0 (by decide) (by decide)

end EvidenceStore

end Execution

end ArgentTeam
