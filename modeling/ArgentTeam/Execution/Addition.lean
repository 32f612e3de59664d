import ArgentTeam.Execution.Fence
import ArgentTeam.Lib.JsonText
import ArgentTeam.Lib.Prog
import ArgentTeam.Lib.TextOrder

/-!
# An addition that fails

`EvidenceStore.add` enters a record into the dictionary and trims it before it looks at the file.
What raises after that leaves the dictionary as it is by then: the record is in it, and what was
trimmed for it is gone (`refused_record_kept`). `add_atomic_iff` says when a failed addition
changes nothing: if it fails before the dictionary is touched, or if the record alters nothing
there.
-/

namespace ArgentTeam

namespace Execution

/-! ### The dictionary -/

section Records

variable {records : List EvidenceRecord} {rec r o : EvidenceRecord} {n : ℕ}

/-- The oldest record is not younger than any other. -/
theorem oldest_le (h : oldest records = some o) (hr : r ∈ records) :
    PyStr.le o.timestamp r.timestamp := by
  induction records generalizing o with
  | nil => cases h
  | cons x records ih =>
    simp only [oldest] at h
    split at h
    next hnone =>
      cases h
      rcases List.mem_cons.mp hr with rfl | hr
      · exact PyStr.le_refl _
      · obtain ⟨o', ho'⟩ := oldest_isSome (List.ne_nil_of_mem hr)
        rw [hnone] at ho'
        cases ho'
    next o' ho' =>
      split at h
      next hle =>
        cases h
        rcases List.mem_cons.mp hr with rfl | hr
        · exact PyStr.le_refl _
        · exact PyStr.le_trans hle (ih ho' hr)
      next hnle =>
        cases h
        rcases List.mem_cons.mp hr with rfl | hr
        · exact (PyStr.le_total _ _).resolve_left hnle
        · exact ih ho' hr

/-- The oldest record of a list and one more: the new one only if all others are younger. -/
theorem oldest_concat : oldest (records ++ [rec]) =
    some (match oldest records with
      | none => rec
      | some o => if PyStr.le o.timestamp rec.timestamp then o else rec) := by
  induction records with
  | nil => rfl
  | cons x records ih =>
    rw [List.cons_append, oldest, ih]
    cases ho : oldest records with
    | none => simp only [oldest, ho]; split <;> rfl
    | some o =>
      simp only [oldest, ho]
      -- the three comparisons are those of a linear order
      by_cases hxo : PyStr.le x.timestamp o.timestamp = true
      · by_cases hor : PyStr.le o.timestamp rec.timestamp = true
        · have hxr := PyStr.le_trans hxo hor
          simp [hxo, hor, hxr]
        · simp [hxo, hor]
          split <;> rfl
      · have hox := (PyStr.le_total _ _).resolve_left hxo
        by_cases hor : PyStr.le o.timestamp rec.timestamp = true
        · simp [hxo, hor]
        · have hxr : ¬PyStr.le x.timestamp rec.timestamp = true :=
            fun hxr => hor (PyStr.le_trans hox hxr)
          simp [hxo, hor, hxr]

/-- A record alters nothing: it is there already, or it is older than all the records of a full
dictionary. -/
def Unaltered (n : ℕ) (records : List EvidenceRecord) (rec : EvidenceRecord) : Prop :=
  rec ∈ records ∨
    (rec.evidenceHash ∉ records.map EvidenceRecord.evidenceHash ∧ records.length = n ∧
      ∀ r ∈ records, PyStr.le r.timestamp rec.timestamp = false)

instance : Decidable (Unaltered n records rec) := inferInstanceAs (Decidable (_ ∨ _))

theorem dropOldest_eq (h : oldest records = some o) :
    dropOldest records = records.filter fun r => r.evidenceHash ≠ o.evidenceHash := by
  rw [dropOldest, h]

theorem trim_of_length_le (h : records.length ≤ n) : trim n records = records := by
  rw [trim, Nat.sub_eq_zero_of_le h]
  rfl

/-- A record whose key is there takes the place of the one that has it. -/
theorem assign_eq_self_iff (hkeys : (records.map EvidenceRecord.evidenceHash).Nodup)
    (h : rec.evidenceHash ∈ records.map EvidenceRecord.evidenceHash) :
    assign records rec = records ↔ rec ∈ records := by
  constructor
  · intro heq
    rw [← heq]
    exact mem_assign_self
  · intro hmem
    rw [assign, if_pos (List.mem_map.mp h)]
    refine (List.map_congr_left fun r hr => ?_).trans (List.map_id records)
    by_cases hkey : r.evidenceHash = rec.evidenceHash
    · rw [if_pos hkey, List.inj_on_of_nodup_map hkeys hr hmem hkey, id_eq]
    · rw [if_neg hkey, id_eq]

theorem length_assign_of_mem (h : rec.evidenceHash ∈ records.map EvidenceRecord.evidenceHash) :
    (assign records rec).length = records.length := by
  have hlength := congrArg List.length (@keys_assign records rec)
  rw [if_pos h] at hlength
  simpa using hlength

/-- **What alters nothing**: the dictionary is the same after an assignment and a trim. -/
theorem trim_assign_eq_self_iff (hkeys : (records.map EvidenceRecord.evidenceHash).Nodup)
    (hbounded : records.length ≤ n) :
    trim n (assign records rec) = records ↔ Unaltered n records rec := by
  by_cases hmem : rec.evidenceHash ∈ records.map EvidenceRecord.evidenceHash
  · rw [trim_of_length_le (by rwa [length_assign_of_mem hmem]), assign_eq_self_iff hkeys hmem]
    exact ⟨.inl, fun h => h.resolve_right fun h' => h'.1 hmem⟩
  have hnew : rec ∉ records := fun h => hmem (List.mem_map_of_mem h)
  rw [assign, if_neg (mt List.mem_map.mpr hmem)]
  by_cases hfull : records.length = n
  · have hone : trim n (records ++ [rec]) = dropOldest (records ++ [rec]) := by
      rw [trim, List.length_append, List.length_singleton, hfull, Nat.add_sub_cancel_left,
        Function.iterate_one]
    have hconcat := @oldest_concat records rec
    rw [hone]
    cases ho : oldest records with
    | none =>
      have hnil : records = [] := by
        by_contra hne
        obtain ⟨o, ho'⟩ := oldest_isSome hne
        rw [ho] at ho'
        cases ho'
      simp [Unaltered, hnil, ← hfull, dropOldest, oldest]
    | some o =>
      rw [ho] at hconcat
      by_cases hle : PyStr.le o.timestamp rec.timestamp = true
      · rw [dropOldest_eq (hconcat.trans (congrArg some (if_pos hle)))]
        constructor
        · intro heq
          have hin : o ∈ (records ++ [rec]).filter fun r => r.evidenceHash ≠ o.evidenceHash := by
            rw [heq]
            exact oldest_mem ho
          exact absurd rfl (of_decide_eq_true (List.mem_filter.mp hin).2)
        · rintro (hin | ⟨-, -, hyoung⟩)
          · exact absurd hin hnew
          · rw [hyoung o (oldest_mem ho)] at hle
            cases hle
      · rw [dropOldest_eq (hconcat.trans (congrArg some (if_neg hle)))]
        refine ⟨fun _ => .inr ⟨hmem, hfull, fun r hr => ?_⟩, fun _ => ?_⟩
        · by_contra hr'
          exact hle (PyStr.le_trans (oldest_le ho hr) (Bool.not_eq_false _ ▸ hr'))
        · rw [List.filter_append, List.filter_eq_self.mpr fun r hr => ?_]
          · simp
          · exact decide_eq_true fun heq => hmem (heq ▸ List.mem_map_of_mem hr)
  · rw [trim_of_length_le (by rw [List.length_append, List.length_singleton]; omega)]
    constructor
    · intro heq
      have hlength := congrArg List.length heq
      rw [List.length_append, List.length_singleton] at hlength
      omega
    · rintro (hin | ⟨-, hn, -⟩)
      · exact absurd hin hnew
      · exact absurd hn hfull

end Records

/-! ### The addition -/

/-- What a record is taken a MAC of can be written: its texts have an encoding, and its number has
no more digits than `json.dumps` writes out. -/
def EvidenceRecord.Encodable (r : EvidenceRecord) : Prop :=
  (∀ s ∈ [r.selector, r.sourceHash, r.testDefinitionHash, r.planHash, r.inventoryHash, r.policyHash,
    r.executorId, r.root, r.configHash, r.timestamp, r.artifactRef, r.summary],
    (PyStr.encode? s).isSome = true) ∧
  (Nat.toDigits 10 r.testCount.natAbs).length ≤ JsonText.maxStrDigits

instance (r : EvidenceRecord) : Decidable r.Encodable :=
  inferInstanceAs (Decidable ((∀ s ∈ _, _) ∧ _))

/-- How the accesses to the file go. -/
structure Io where
  readable : Bool
  decodable : Bool
  writable : Bool
  replaceable : Bool

/-- What an addition raises. -/
inductive AddError
  /-- `UnicodeEncodeError`, or `ValueError` of a number, of the MAC. -/
  | unencodable
  /-- `ValueError`, of a record with another MAC. -/
  | unauthenticated
  /-- `RecursionError`, of the decoder. -/
  | recursion
  /-- `AttributeError`, of a file that is not an object. -/
  | attribute
  /-- `StaleWriteError`. -/
  | stale (expected onDisk : ℕ)
  /-- `OSError`. -/
  | os
  deriving DecidableEq

variable {κ : Type} {hmac : κ → Json → String}

/-- A store and the file at its path. -/
structure Filed (hmac : κ → Json → String) where
  store : EvidenceStore hmac
  content : Content

namespace Filed

/-- What the decoder is given of a file. -/
def seen (io : Io) (content : Content) : Content := if io.readable then content else .absent

/-- The decoder gives up on a file. -/
def Exhausts (io : Io) (content : Content) : Prop :=
  seen io content ≠ .absent ∧ io.decodable = false

instance (io : Io) (content : Content) : Decidable (Exhausts io content) :=
  inferInstanceAs (Decidable (_ ∧ _))

def save (io : Io) : Prog (Filed hmac) AddError Unit := do
  let p ← Prog.read id
  Prog.require (¬Exhausts io p.content) .recursion
  let onDisk ← Prog.orRaise (readDiskGeneration (seen io p.content)) .attribute
  Prog.require (onDisk = p.store.expectedGeneration) (.stale p.store.expectedGeneration onDisk)
  Prog.require (io.writable = true) .os
  Prog.require (io.replaceable = true) .os
  Prog.change fun p =>
    { store := { p.store with expectedGeneration := p.store.expectedGeneration + 1 }
      content := .document p.store.payload false }

def add (io : Io) (record : EvidenceRecord) : Prog (Filed hmac) AddError Unit := do
  let p ← Prog.read id
  Prog.require record.Encodable .unencodable
  let store ← Prog.orRaise (p.store.add record) .unauthenticated
  Prog.change fun p => { p with store := store }
  Prog.onlyIf (store.persistent = true) (save io)

/-- The file has the generation that the store expects, and can be replaced. -/
structure Saves (io : Io) (p : Filed hmac) : Prop where
  decodable : ¬Exhausts io p.content
  expected : readDiskGeneration (seen io p.content) = some p.store.expectedGeneration
  writable : io.writable = true
  replaceable : io.replaceable = true

variable {io : Io} {p p' : Filed hmac} {record : EvidenceRecord} {e : AddError}

theorem eq_of_save_raises (h : (save io).Raises p e p') : p' = p := by
  simp [save] at h
  rcases h with ⟨-, -, rfl⟩ | ⟨-, h⟩
  · rfl
  rcases h with ⟨-, -, rfl⟩ | ⟨g, -, h⟩
  · rfl
  rcases h with ⟨-, -, rfl⟩ | ⟨-, h⟩
  · rfl
  rcases h with ⟨-, -, rfl⟩ | ⟨-, -, -, rfl⟩ <;> rfl

/-- A save returns exactly if the file has the expected generation and can be replaced. -/
theorem save_returns_iff : (save io).Returns p () p' ↔ Saves io p ∧
    { store := { p.store with expectedGeneration := p.store.expectedGeneration + 1 }
      content := .document p.store.payload false } = p' := by
  simp only [save, Prog.returns_bind, Prog.returns_read, Prog.returns_require,
    Prog.returns_orRaise, Prog.returns_change, id_eq]
  constructor
  · rintro ⟨q, s₁, ⟨rfl, rfl⟩, -, s₂, ⟨hdecodable, rfl⟩, g, s₃, ⟨hread, rfl⟩, -, s₄, ⟨rfl, rfl⟩,
      -, s₅, ⟨hwritable, rfl⟩, -, s₆, ⟨hreplaceable, rfl⟩, rfl⟩
    exact ⟨⟨hdecodable, hread, hwritable, hreplaceable⟩, rfl⟩
  · rintro ⟨h, rfl⟩
    exact ⟨p, p, ⟨rfl, rfl⟩, (), p, ⟨h.decodable, rfl⟩, _, p, ⟨h.expected, rfl⟩, (), p, ⟨rfl, rfl⟩,
      (), p, ⟨h.writable, rfl⟩, (), p, ⟨h.replaceable, rfl⟩, rfl⟩

theorem save_raises_iff : (∃ e p', (save io).Raises p e p') ↔ ¬Saves io p := by
  constructor
  · rintro ⟨e, p', h⟩ hsaves
    have hreturns := (save_returns_iff).mpr ⟨hsaves, rfl⟩
    rw [Prog.Raises, show save io p = _ from hreturns] at h
    cases h
  · intro hnot
    rcases Prog.returns_or_raises (save io) p with ⟨u, p', h⟩ | h
    · exact absurd ((save_returns_iff).mp h).1 hnot
    · exact h

/-- The store with a record in it, and the file as it was. -/
def withRecord (p : Filed hmac) (rec : EvidenceRecord)
    (h : rec.evidenceHash = computeEvidenceMac hmac rec p.store.macKey) : Filed hmac :=
  { p with store := p.store.put rec h }

/-- An addition raises before it touches the dictionary, or it is the save that raises. -/
theorem add_raises_cases (h : (add io record).Raises p e p') : p' = p ∨
    record.Encodable ∧ p.store.persistent ∧ ∃ rec, ∃ hrec : p.store.authenticated record =
      some rec, ¬Saves io p ∧ p' = p.withRecord rec (EvidenceStore.mac_of_authenticated hrec) := by
  simp only [add, Prog.raises_bind, Prog.not_raises_read, Prog.returns_read, Prog.raises_require,
    Prog.returns_require, Prog.raises_orRaise, Prog.returns_orRaise, Prog.not_raises_change,
    Prog.returns_change, Prog.raises_onlyIf, id_eq, false_or] at h
  obtain ⟨q, s₁, ⟨rfl, rfl⟩, ⟨-, -, rfl⟩ | ⟨-, s₂, ⟨hencodable, rfl⟩, h⟩⟩ := h
  · exact .inl rfl
  rcases h with ⟨-, -, rfl⟩ | ⟨store, s₃, ⟨hadd, rfl⟩, -, s₄, rfl, hpersistent, hsave⟩
  · exact .inl rfl
  obtain rfl := eq_of_save_raises hsave
  have hnot := (save_raises_iff).mp ⟨_, _, hsave⟩
  unfold EvidenceStore.add at hadd
  split at hadd
  · cases hadd
  next rec hrec =>
    cases hadd
    exact .inr ⟨hencodable, hpersistent, rec, hrec,
      fun h => hnot ⟨h.decodable, h.expected, h.writable, h.replaceable⟩, rfl⟩

/-- An addition whose save raises leaves the record in the dictionary. -/
theorem add_raises_of_not_saves (hencodable : record.Encodable)
    (hpersistent : p.store.persistent) {rec : EvidenceRecord}
    (hrec : p.store.authenticated record = some rec) (hsaves : ¬Saves io p) :
    ∃ e, (add io record).Raises p e
      (p.withRecord rec (EvidenceStore.mac_of_authenticated hrec)) := by
  have hadd : p.store.add record =
      some (p.store.put rec (EvidenceStore.mac_of_authenticated hrec)) := by
    unfold EvidenceStore.add
    split
    next hnone =>
      rw [hrec] at hnone
      cases hnone
    next rec' hrec' =>
      rw [hrec] at hrec'
      cases hrec'
      rfl
  obtain ⟨e, p', hsave⟩ := (save_raises_iff).mpr fun h : Saves io (p.withRecord rec
    (EvidenceStore.mac_of_authenticated hrec)) =>
      hsaves ⟨h.decodable, h.expected, h.writable, h.replaceable⟩
  refine ⟨e, ?_⟩
  have hp' := eq_of_save_raises hsave
  rw [hp'] at hsave
  simp only [add, Prog.raises_bind, Prog.not_raises_read, Prog.returns_read, Prog.raises_require,
    Prog.returns_require, Prog.raises_orRaise, Prog.returns_orRaise, Prog.not_raises_change,
    Prog.returns_change, Prog.raises_onlyIf, id_eq, false_or]
  exact ⟨p, p, ⟨rfl, rfl⟩, .inr ⟨(), p, ⟨hencodable, rfl⟩, .inr ⟨_, p, ⟨hadd, rfl⟩, (), _, rfl,
    hpersistent, hsave⟩⟩⟩

/-- The dictionary is as it was exactly if the record alters nothing. -/
theorem withRecord_eq_self_iff {rec : EvidenceRecord}
    {h : rec.evidenceHash = computeEvidenceMac hmac rec p.store.macKey} :
    p.withRecord rec h = p ↔ Unaltered p.store.maxRecords p.store.records rec := by
  rw [← trim_assign_eq_self_iff p.store.keys p.store.bounded]
  constructor
  · intro heq
    exact congrArg (fun q : Filed hmac => q.store.records) heq
  · intro heq
    obtain ⟨store, content⟩ := p
    obtain ⟨persistent, maxRecords, macKey, expectedGeneration, records, _, _, _, _⟩ := store
    simp only [withRecord, EvidenceStore.put] at heq ⊢
    congr

/-- **When an addition is atomic**: the store has no path, or the record is refused before the
dictionary is touched, or the file has the generation that the store expects and can be replaced,
or the record alters nothing. -/
theorem add_atomic_iff (io : Io) (p : Filed hmac) (record : EvidenceRecord) :
    (∀ e p', (add io record).Raises p e p' → p' = p) ↔
      (record.Encodable → p.store.persistent = true → ∀ rec ∈ p.store.authenticated record,
        Saves io p ∨ Unaltered p.store.maxRecords p.store.records rec) := by
  constructor
  · intro h hencodable hpersistent rec hrec
    by_contra hcon
    obtain ⟨hsaves, haltered⟩ := not_or.mp hcon
    obtain ⟨e, hraises⟩ := add_raises_of_not_saves hencodable hpersistent hrec hsaves
    exact haltered ((withRecord_eq_self_iff).mp (h e _ hraises))
  · intro h e p' hraises
    rcases add_raises_cases hraises with rfl | ⟨hencodable, hpersistent, rec, hrec, hsaves, rfl⟩
    · rfl
    · exact (withRecord_eq_self_iff).mpr ((h hencodable hpersistent rec hrec).resolve_left hsaves)

end Filed

/-! ### A record that the fence refused -/

/-- A store that has room for one record and has one, on a path that another store has written
to since. -/
def overtaken : Filed plainMac where
  store := (EvidenceStore.fresh plainMac true 1 () Nat.one_pos).put
    { passed 'b' with evidenceHash := computeEvidenceMac plainMac (passed 'b') () } rfl
  content := .document (.dict [("evidence_store_version", .text "1"),
    ("store_generation", .int 1), ("records", .arr [])]) false

/-- **The refused record is kept**: the save raises, and the record is in the dictionary, where it
has taken the place of the one that was there. -/
theorem refused_record_kept :
    ∃ e p', (Filed.add ⟨true, true, true, true⟩ (passed 'a')).Raises overtaken e p' ∧
      e = .stale 0 1 ∧
      overtaken.store.records.map (fun r => r.selector) = [PyStr.ofString "b"] ∧
      p'.store.records.map (fun r => r.selector) = [PyStr.ofString "a"] :=
  ⟨_, _, rfl, by decide, by decide, by decide⟩

end Execution

end ArgentTeam
