import ArgentTeam.Execution.Evidence
import ArgentTeam.Lib.Runs

/-!
# The fence of the evidence stores

Several stores on one path. A save reads the generation of the file, compares it with the one
the store expects, writes a file of its own and puts that in the place of the store file; each of
these is a step, and the stores take theirs in any order.

The comparison is made on what was read, not on what is replaced: between the two the file may
have been replaced by another store, and a file that cannot be read has generation zero.
`saves_last` says that no save is lost in a run whose replacements all find the generation that
their store expects, and `clobbered` is a run of two stores in which one does not.
-/

namespace ArgentTeam

namespace Execution

variable {κ : Type} {hmac : κ → Json → String}

/-! ### The file -/

/-- What is found at the path of the stores. A file is kept as the value it decodes to, and
whether a key is there twice. -/
inductive Content
  | absent
  | corrupt
  | document (value : Json) (duplicates : Bool)
  deriving DecidableEq

/-- `_read_disk_generation`; `none` where it raises. -/
def readDiskGeneration : Content → Option ℕ
  | .absent | .corrupt => some 0
  | .document (.obj fields) _ => match Json.get? fields "store_generation" with
    | some (.int n) => some n.toNat
    | some (.bool b) => some b.toNat
    | _ => some 0
  | .document _ _ => none

def documentRecords : Json → List EvidenceRecord
  | .obj fields => match Json.get? fields "records" with
    | some (.arr items) => items.filterMap EvidenceRecord.ofJson?
    | _ => []
  | _ => []

def Content.records : Content → List EvidenceRecord
  | .document value _ => documentRecords value
  | .absent | .corrupt => []

namespace EvidenceStore

variable (store : EvidenceStore hmac)

/-- What `_save` writes. -/
def payload : Json :=
  .dict
    [("evidence_store_version", .text "1"),
      ("store_generation", .int (store.expectedGeneration + 1)),
      ("records", .arr (store.records.map EvidenceRecord.toJson))]

/-- The records before the trim of `add`. -/
def assigned (record : EvidenceRecord) : List EvidenceRecord :=
  match store.authenticated record with
  | none => store.records
  | some rec => assign store.records rec

/-- The generation that `_load` reads; `none` where it raises. -/
def loadedGeneration (fields : List (PyStr × Json)) : Option ℕ :=
  match Json.get? fields "store_generation" with
  | none => some 0
  | some (.int n) => if n < 0 then none else some n.toNat
  | some (.bool b) => some b.toNat
  | some _ => none

/-- The fields of a file that `_load` goes on with. -/
def loadedFields : Content → Option (List (PyStr × Json))
  | .document (.obj fields) false =>
    if Json.get? fields "evidence_store_version" = some (.text "1") then some fields else none
  | _ => none

end EvidenceStore

theorem nodup_keys_foldl_assign {acc records : List EvidenceRecord}
    (h : (acc.map EvidenceRecord.evidenceHash).Nodup) :
    ((records.foldl assign acc).map EvidenceRecord.evidenceHash).Nodup := by
  induction records generalizing acc with
  | nil => exact h
  | cons r records ih => exact ih (nodup_keys_assign h)

theorem mem_of_mem_foldl_assign {acc records : List EvidenceRecord} {r : EvidenceRecord}
    (h : r ∈ records.foldl assign acc) : r ∈ acc ∨ r ∈ records := by
  induction records generalizing acc with
  | nil => exact .inl h
  | cons r' records ih =>
    rcases ih h with hacc | hmem
    · rcases mem_of_mem_assign hacc with hacc | rfl
      · exact .inl hacc
      · exact .inr List.mem_cons_self
    · exact .inr (List.mem_cons_of_mem _ hmem)

namespace EvidenceStore

/-- The dictionary that `_load` fills, before the trim; `none` where it raises. -/
def loadedRecords (hmac : κ → Json → String) (key : κ) (fields : List (PyStr × Json)) :
    Option (List EvidenceRecord) :=
  match Json.get? fields "records" with
  | some (.arr items) => do
    let records ← items.mapM EvidenceRecord.ofJson?
    if ∀ r ∈ records, r.evidenceHash = computeEvidenceMac hmac r key then
      some (records.foldl assign [])
    else none
  | _ => none

theorem loadedRecords_eq_some {key : κ} {fields : List (PyStr × Json)}
    {records : List EvidenceRecord} (h : loadedRecords hmac key fields = some records) :
    (records.map EvidenceRecord.evidenceHash).Nodup ∧
      ∀ r ∈ records, r.evidenceHash = computeEvidenceMac hmac r key := by
  unfold loadedRecords at h
  split at h
  next items _ =>
    obtain ⟨decoded, -, h⟩ := Option.bind_eq_some_iff.mp h
    split at h
    next hverify =>
      cases h
      refine ⟨nodup_keys_foldl_assign List.nodup_nil, fun r hr => ?_⟩
      rcases mem_of_mem_foldl_assign hr with hnil | hmem
      · cases hnil
      · exact hverify r hmem
    · cases h
  · cases h

/-- `_load`; `none` where it raises. -/
def load (hmac : κ → Json → String) (maxRecords : ℕ) (positive : 1 ≤ maxRecords) (key : κ)
    (content : Content) : Option (EvidenceStore hmac) :=
  match loadedFields content with
  | none => none
  | some fields =>
    match loadedGeneration fields, h : loadedRecords hmac key fields with
    | some generation, some records => some
      { persistent := true
        maxRecords := maxRecords
        macKey := key
        expectedGeneration := generation
        records := trim maxRecords records
        positive := positive
        keys := nodup_keys_trim (loadedRecords_eq_some h).1
        bounded := length_trim_le (loadedRecords_eq_some h).1
        authentic := fun r hr =>
          (loadedRecords_eq_some h).2 r ((trim_sublist _ _).subset hr) }
    | _, _ => none

end EvidenceStore

/-! ### Stores on one path -/

/-- Where a store is. -/
inductive Pc
  /-- The constructor has found that the path exists. -/
  | opening
  | idle
  /-- `_save` is about to read the generation on disk. -/
  | reading
  | comparing (onDisk : ℕ)
  | writing
  /-- It is about to put the file that it has written in the place of the store file. -/
  | replacing (payload : Json)

/-- A store at work, and what has been trimmed from the records that it knows of. -/
structure Instance (hmac : κ → Json → String) where
  store : EvidenceStore hmac
  pc : Pc
  dropped : List EvidenceRecord

/-- The path and the stores on it. -/
structure World (hmac : κ → Json → String) where
  content : Content
  dropped : List EvidenceRecord
  saved : List EvidenceRecord
  instances : ℕ → Option (Instance hmac)

/-- A step of a store. -/
inductive Op
  /-- The rest of the constructor; a file may not be readable. -/
  | load (readable : Bool)
  | add (record : EvidenceRecord)
  /-- `_read_disk_generation`; a file may not be readable. -/
  | read (readable : Bool)
  /-- The comparison of `_save`. -/
  | compare
  /-- The file of its own is written, or cannot be. -/
  | write (ok : Bool)
  /-- `os.replace`, or its failure. -/
  | replace (ok : Bool)

/-- A step of the system. -/
inductive Action (κ : Type)
  | create (i : ℕ) (maxRecords : ℕ) (positive : 1 ≤ maxRecords) (key : κ)
  /-- A store takes a step. -/
  | turn (i : ℕ) (op : Op)

/-- What a trim takes out. -/
def removed (before after : List EvidenceRecord) : List EvidenceRecord :=
  before.filter fun r => r ∉ after

namespace World

variable (w : World hmac)

/-- A store as it is after a step of its own. -/
def put (i : ℕ) (inst : Instance hmac) : World hmac :=
  { w with instances := Function.update w.instances i (some inst) }

/-- The world after a store has replaced the file. -/
def replaced (i : ℕ) (inst : Instance hmac) (payload : Json) : World hmac where
  content := .document payload false
  dropped := inst.dropped
  saved := w.saved ++ documentRecords payload
  instances := Function.update w.instances i (some
    { inst with
      store := { inst.store with expectedGeneration := inst.store.expectedGeneration + 1 }
      pc := .idle })

/-- What a file reads as. -/
def seen (readable : Bool) : Content := if readable then w.content else .corrupt

/-- The step of a store. -/
def turn (i : ℕ) (inst : Instance hmac) : Op → Pc → World hmac
  | .load readable, .opening =>
    match EvidenceStore.load hmac inst.store.maxRecords inst.store.positive inst.store.macKey
        (w.seen readable) with
    | none => { w with instances := Function.update w.instances i none }
    | some store =>
      w.put i ⟨store, .idle, w.dropped ++ removed w.content.records store.records⟩
  | .add record, .idle =>
    match inst.store.add record with
    | none => w
    | some store =>
      w.put i ⟨store, .reading,
        inst.dropped ++ removed (inst.store.assigned record) store.records⟩
  | .read readable, .reading =>
    match readDiskGeneration (w.seen readable) with
    | none => w.put i { inst with pc := .idle }
    | some onDisk => w.put i { inst with pc := .comparing onDisk }
  | .compare, .comparing onDisk =>
    w.put i { inst with pc := if onDisk = inst.store.expectedGeneration then .writing else .idle }
  | .write ok, .writing =>
    w.put i { inst with pc := if ok then .replacing inst.store.payload else .idle }
  | .replace ok, .replacing payload =>
    if ok then w.replaced i inst payload else w.put i { inst with pc := .idle }
  | _, _ => w

def step : Action κ → World hmac
  | .create i maxRecords positive key =>
    match w.instances i with
    | some _ => w
    | none =>
      w.put i ⟨.fresh hmac true maxRecords key positive,
        if w.content = .absent then .idle else .opening, []⟩
  | .turn i op =>
    match w.instances i with
    | none => w
    | some inst => w.turn i inst op inst.pc

/-- Nothing has happened yet. -/
structure Pristine : Prop where
  instances : ∀ i, w.instances i = none
  saved : w.saved = []

end World

/-! ### The condition -/

/-- A store is about to replace the file. -/
def Pc.replaces : Pc → Bool
  | replacing _ => true
  | _ => false

/-- A record that a store adds is the only one with its MAC, and a store that replaces the file
still finds the generation that it expects. -/
def Instance.Fenced (inst : Instance hmac) (content : Content) : Op → Prop
  | .add record => ∀ rec ∈ inst.store.authenticated record,
    ∀ r ∈ inst.store.records, r.evidenceHash = rec.evidenceHash → r = rec
  | .replace ok => ok = true → inst.pc.replaces = true →
    readDiskGeneration content = some inst.store.expectedGeneration
  | _ => True

instance (inst : Instance hmac) (content : Content) : ∀ op, Decidable (inst.Fenced content op)
  | .add record => inferInstanceAs (Decidable (∀ rec ∈ inst.store.authenticated record,
    ∀ r ∈ inst.store.records, r.evidenceHash = rec.evidenceHash → r = rec))
  | .replace ok => inferInstanceAs (Decidable (ok = true → inst.pc.replaces = true →
    readDiskGeneration content = some inst.store.expectedGeneration))
  | .load _ | .read _ | .compare | .write _ => isTrue trivial

/-- The condition on a step of the system. -/
def World.Fenced (w : World hmac) : Action κ → Prop
  | .turn i op => ∀ inst ∈ w.instances i, inst.Fenced w.content op
  | .create .. => True

instance (w : World hmac) : ∀ a, Decidable (w.Fenced a)
  | .turn i op => inferInstanceAs (Decidable (∀ inst ∈ w.instances i, inst.Fenced w.content op))
  | .create .. => isTrue trivial

/-! ### What is written and read -/

namespace EvidenceStore

variable {store : EvidenceStore hmac} {content : Content} {key : κ} {n : ℕ} {hn : 1 ≤ n}

/-- **What a save writes are the records of the store.** -/
@[simp]
theorem records_payload : documentRecords store.payload = store.records := by
  simp [documentRecords, payload, Json.dict, EvidenceRecord.get?_cons]

theorem generation_payload : readDiskGeneration (.document store.payload false) =
    some (store.expectedGeneration + 1) := by
  simp only [readDiskGeneration, payload, Json.dict, List.map_cons, EvidenceRecord.get?_cons]
  simp

theorem load_eq_some {loaded : EvidenceStore hmac}
    (h : load hmac n hn key content = some loaded) :
    readDiskGeneration content = some loaded.expectedGeneration ∧
      ∃ fields records, content = .document (.obj fields) false ∧
        loadedRecords hmac key fields = some records ∧ loaded.records = trim n records := by
  unfold load at h
  split at h
  · cases h
  next fields hfields =>
    have hcontent : content = .document (.obj fields) false := by
      unfold loadedFields at hfields
      split at hfields
      · split at hfields
        · cases hfields
          rfl
        · cases hfields
      · cases hfields
    split at h
    next generation records hgeneration hrecords =>
      cases h
      refine ⟨?_, fields, records, hcontent, hrecords, rfl⟩
      rw [hcontent, readDiskGeneration]
      unfold loadedGeneration at hgeneration
      split at hgeneration
      next hnone => simp_all
      next m hint =>
        split at hgeneration
        · cases hgeneration
        · rw [hint, ← hgeneration]
      next b hbool => rw [hbool, ← hgeneration]
      · cases hgeneration
    · cases h

end EvidenceStore

/-! ### No save is lost -/

namespace World

variable {w : World hmac} {inst : Instance hmac} {i : ℕ}

/-- What a store knows of the saves. -/
structure Synced (w : World hmac) (inst : Instance hmac) : Prop where
  behind : ∀ g, readDiskGeneration w.content = some g → inst.store.expectedGeneration ≤ g
  current : readDiskGeneration w.content = some inst.store.expectedGeneration →
    ∀ r ∈ w.saved, r ∈ inst.store.records ∨ r ∈ inst.dropped
  payload : ∀ p, inst.pc = .replacing p → p = inst.store.payload

/-- No save has been lost. -/
structure Kept (w : World hmac) : Prop where
  saved : ∀ r ∈ w.saved, r ∈ w.content.records ∨ r ∈ w.dropped
  written : w.saved = [] ∨ ∃ store : EvidenceStore hmac, w.content = .document store.payload false
  synced : ∀ i inst, w.instances i = some inst → Synced w inst

theorem Pristine.kept (h : Pristine w) : Kept w where
  saved := by simp [h.saved]
  written := .inl h.saved
  synced := fun i inst hi => by simp [h.instances i] at hi

theorem Kept.put (h : Kept w) (hinst : Synced w inst) : Kept (w.put i inst) where
  saved := h.saved
  written := h.written
  synced := fun j inst' hj => by
    have hsynced : Synced w inst' := by
      rcases eq_or_ne j i with rfl | hne
      · simp only [World.put, Function.update_self] at hj
        cases hj
        exact hinst
      · simp only [World.put, Function.update_of_ne hne] at hj
        exact h.synced j inst' hj
    exact ⟨hsynced.behind, hsynced.current, hsynced.payload⟩

theorem Kept.forget (h : Kept w) :
    Kept { w with instances := Function.update w.instances i none } where
  saved := h.saved
  written := h.written
  synced := fun j inst' hj => by
    rcases eq_or_ne j i with rfl | hne
    · simp at hj
    · simp only [Function.update_of_ne hne] at hj
      have hsynced := h.synced j inst' hj
      exact ⟨hsynced.behind, hsynced.current, hsynced.payload⟩

theorem Synced.move (h : Synced w inst) {pc : Pc}
    (hpc : ∀ p, pc = .replacing p → p = inst.store.payload) : Synced w { inst with pc } :=
  ⟨h.behind, h.current, hpc⟩

theorem mem_or_mem_removed {before after : List EvidenceRecord} {r : EvidenceRecord}
    (h : r ∈ before) : r ∈ after ∨ r ∈ removed before after := by
  by_cases hafter : r ∈ after
  · exact .inl hafter
  · exact .inr (List.mem_filter.mpr ⟨h, by simpa using hafter⟩)

/-- A new store knows of no saves, and expects the generation of a file without any. -/
theorem synced_fresh (h : Kept w) {maxRecords : ℕ} {positive : 1 ≤ maxRecords} {key : κ} {pc : Pc}
    (hpc : ∀ p, pc ≠ .replacing p) :
    Synced w ⟨.fresh hmac true maxRecords key positive, pc, []⟩ where
  behind := fun g _ => Nat.zero_le g
  current := fun hgeneration => by
    rcases h.written with hnone | ⟨store, hstore⟩
    · simp [hnone]
    · rw [hstore, EvidenceStore.generation_payload] at hgeneration
      simp [EvidenceStore.fresh] at hgeneration
  payload := fun p hp => absurd hp (hpc p)

theorem synced_load (h : Kept w) {maxRecords : ℕ} {positive : 1 ≤ maxRecords} {key : κ}
    {store : EvidenceStore hmac}
    (hload : EvidenceStore.load hmac maxRecords positive key w.content =
      some store) :
    Synced w ⟨store, .idle, w.dropped ++ removed w.content.records store.records⟩ := by
  obtain ⟨hgeneration, fields, records, hcontent, hrecords,
      htrim⟩ := EvidenceStore.load_eq_some hload
  refine ⟨fun g hg => ?_, fun _ r hr => ?_, fun p hp => by cases hp⟩
  · rw [hgeneration] at hg
    cases hg
    exact le_rfl
  · rcases h.saved r hr with hmem | hdropped
    · rcases @mem_or_mem_removed _ store.records _ hmem with hkept | hremoved
      · exact .inl hkept
      · exact .inr (List.mem_append_right _ hremoved)
    · exact .inr (List.mem_append_left _ hdropped)

/-- A store that adds a record keeps the others, but for what it trims. -/
theorem Synced.add (h : Synced w inst) {record : EvidenceRecord} {store : EvidenceStore hmac}
    (hadd : inst.store.add record = some store) (hone : inst.Fenced w.content (.add record)) :
    Synced w ⟨store, .reading,
      inst.dropped ++ removed (inst.store.assigned record) store.records⟩ := by
  unfold EvidenceStore.add at hadd
  split at hadd
  · cases hadd
  next rec hrec =>
    cases hadd
    refine ⟨h.behind, fun hgeneration r hr => ?_, fun p hp => by cases hp⟩
    rcases h.current hgeneration r hr with hmem | hdropped
    · have hassigned : r ∈ inst.store.assigned record := by
        rw [EvidenceStore.assigned, hrec]
        by_cases hkey : r.evidenceHash = rec.evidenceHash
        · rw [hone rec hrec r hmem hkey]
          exact mem_assign_self
        · exact mem_assign_of_ne hmem hkey
      rcases mem_or_mem_removed hassigned with hkept | hremoved
      · exact .inl hkept
      · exact .inr (List.mem_append_right _ hremoved)
    · exact .inr (List.mem_append_left _ hdropped)

/-- **The replacement**: where the generation is the expected one, the records of the store
stand for all saves, and no other store expects the next one. -/
theorem Kept.replaced (h : Kept w) (hi : w.instances i = some inst)
    (hgeneration : readDiskGeneration w.content = some inst.store.expectedGeneration) :
    Kept (w.replaced i inst inst.store.payload) := by
  have hsynced := h.synced i inst hi
  have hsaved : ∀ r ∈ w.saved ++ documentRecords inst.store.payload,
      r ∈ inst.store.records ∨ r ∈ inst.dropped := by
    intro r hr
    rcases List.mem_append.mp hr with hmem | hmem
    · exact hsynced.current hgeneration r hmem
    · rw [EvidenceStore.records_payload] at hmem
      exact .inl hmem
  refine ⟨fun r hr => ?_, .inr ⟨inst.store, rfl⟩, fun j inst' hj => ?_⟩
  · rw [World.replaced, Content.records, EvidenceStore.records_payload]
    exact hsaved r hr
  · have hnext : readDiskGeneration (w.replaced i inst inst.store.payload).content =
        some (inst.store.expectedGeneration + 1) := EvidenceStore.generation_payload
    rcases eq_or_ne j i with rfl | hne
    · simp only [World.replaced, Function.update_self] at hj
      cases hj
      refine ⟨fun g hg => ?_, fun _ => hsaved, fun p hp => by cases hp⟩
      rw [hnext] at hg
      cases hg
      exact le_rfl
    · simp only [World.replaced, Function.update_of_ne hne] at hj
      have hother := h.synced j inst' hj
      have hle := hother.behind _ hgeneration
      refine ⟨fun g hg => ?_, fun hg => ?_, hother.payload⟩
      · rw [hnext] at hg
        cases hg
        omega
      · rw [hnext, Option.some.injEq] at hg
        omega

theorem Kept.turn (h : Kept w) (hi : w.instances i = some inst) {op : Op}
    (hfenced : Fenced w (.turn i op)) : Kept (w.turn i inst op inst.pc) := by
  have hsynced := h.synced i inst hi
  have hcond : inst.Fenced w.content op := hfenced inst hi
  unfold World.turn
  split
  next readable _ =>
    split
    · exact h.forget
    next store hload =>
      cases readable with
      | true => exact h.put (synced_load h hload)
      | false => cases hload
  next record _ =>
    split
    · exact h
    next store hadd => exact h.put (hsynced.add hadd hcond)
  next readable _ =>
    split
    · exact h.put (hsynced.move nofun)
    · exact h.put (hsynced.move nofun)
  next onDisk _ =>
    refine h.put (hsynced.move fun p hp => ?_)
    split at hp <;> cases hp
  next ok _ =>
    refine h.put (hsynced.move fun p hp => ?_)
    split at hp
    · cases hp
      rfl
    · cases hp
  next ok payload hpc =>
    cases ok with
    | true =>
      rw [if_pos rfl, hsynced.payload payload hpc]
      exact h.replaced hi (hcond rfl (by rw [hpc]; rfl))
    | false => exact h.put (hsynced.move nofun)
  · exact h

theorem Kept.step (h : Kept w) {a : Action κ} (hfenced : Fenced w a) : Kept (w.step a) := by
  unfold World.step
  split
  next j maxRecords positive key =>
    split
    · exact h
    · refine h.put (synced_fresh h fun p => ?_)
      split <;> exact nofun
  next j op =>
    split
    · exact h
    next inst hinst => exact h.turn hinst hfenced

theorem saved_step (w : World hmac) (a : Action κ) : w.saved ⊆ (w.step a).saved := by
  cases a with
  | create i maxRecords positive key =>
    unfold World.step
    dsimp only
    split <;> exact List.Subset.refl _
  | turn i op =>
    unfold World.step
    dsimp only
    split
    · exact List.Subset.refl _
    next inst _ =>
      unfold World.turn
      split
      iterate 3 · split <;> exact List.Subset.refl _
      · exact List.Subset.refl _
      · exact List.Subset.refl _
      · split
        · exact List.subset_append_left _ _
        · exact List.Subset.refl _
      · exact List.Subset.refl _

end World

/-- **No save is lost**: where every replacement finds the generation that its store expects,
what a save has written is in the file ever after, but for what has been trimmed. -/
theorem saves_last {w : World hmac} (hw : w.Pristine) {before after : List (Action κ)}
    (hfenced : Runs.Along World.step World.Fenced w (before ++ after)) :
    ∀ r ∈ (Runs.run World.step w before).saved,
      r ∈ (Runs.run World.step w (before ++ after)).content.records ∨
        r ∈ (Runs.run World.step w (before ++ after)).dropped := by
  intro r hr
  have hkept : (Runs.run World.step w (before ++ after)).Kept :=
    Runs.run_inv (fun w a h hok => h.step hok) hw.kept hfenced
  refine hkept.saved r ?_
  rw [Runs.run_append]
  exact Runs.run_always (I := fun w : World hmac => r ∈ w.saved)
    (fun w a h => w.saved_step a h) hr

/-! ### Two stores -/

section Clobbered

/-- A MAC that tells the two selectors apart. -/
def plainMac (_ : Unit) : Json → String
  | .obj ((_, .obj ((_, .str [.scalar 'a']) :: _)) :: _) => "4f"
  | _ => "9c"

/-- A path that does not exist, and no stores. -/
def emptyWorld : World plainMac := ⟨.absent, [], [], fun _ => none⟩

def passed (selector : Char) : EvidenceRecord :=
  .of ⟨[.scalar selector], [], [], [], [], [], [], [], []⟩ .testPass [] [] [] 1 []

/-- The steps of `add`, one after the other. -/
def addSteps (i : ℕ) (record : EvidenceRecord) : List (Action Unit) :=
  [.turn i (.add record), .turn i (.read true), .turn i .compare, .turn i (.write true),
    .turn i (.replace true)]

/-- Two stores add a record each: the second one while the first is between its comparison and
its replacement. -/
def interleaved : List (Action Unit) :=
  [.create 0 10 (by decide) (), .create 1 10 (by decide) (),
    .turn 0 (.add (passed 'a')), .turn 0 (.read true), .turn 0 .compare] ++
    addSteps 1 (passed 'b') ++ [.turn 0 (.write true), .turn 0 (.replace true)]

/-- Two stores, the second constructed after the first has saved its record. -/
def oneByOne : List (Action Unit) :=
  .create 0 10 (by decide) () :: addSteps 0 (passed 'a')

theorem pristine_emptyWorld : emptyWorld.Pristine := ⟨fun _ => rfl, rfl⟩

/-- A save that returns is lost when the other one, which has compared before, replaces the
file. -/
theorem clobbered : ¬∀ (w : World plainMac) (before after : List (Action Unit)), w.Pristine →
    ∀ r ∈ (Runs.run World.step w before).saved,
      r ∈ (Runs.run World.step w (before ++ after)).content.records ∨
        r ∈ (Runs.run World.step w (before ++ after)).dropped := by
  intro h
  have hlost := h emptyWorld (interleaved.take 10) (interleaved.drop 10) pristine_emptyWorld
  revert hlost
  decide +kernel

/-- The second store has the record of the first. -/
theorem saves_last_oneByOne :
    ∃ r ∈ (Runs.run World.step emptyWorld oneByOne).saved,
      r ∈ (Runs.run World.step emptyWorld (oneByOne ++ .create 1 10 (by decide) () ::
        .turn 1 (.load true) :: addSteps 1 (passed 'b'))).content.records ∨
        r ∈ (Runs.run World.step emptyWorld (oneByOne ++ .create 1 10 (by decide) () ::
        .turn 1 (.load true) :: addSteps 1 (passed 'b'))).dropped := by
  have hsaved : (Runs.run World.step emptyWorld oneByOne).saved ≠ [] := by decide
  obtain ⟨r, hr⟩ := List.exists_mem_of_ne_nil _ hsaved
  exact ⟨r, hr, saves_last pristine_emptyWorld (by decide +kernel) r hr⟩

end Clobbered

end Execution

end ArgentTeam
