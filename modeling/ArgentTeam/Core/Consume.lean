import ArgentTeam.Core.Exec

/-!
# The effects of an accepted result

The validator and the effects of a result are two walks over the same value. Once a result
has been accepted and consumed, its effects should not be able to fail, or the transaction
takes the consumption back. This file finds out which accepted results have effects that
complete: all of them, *except* where

* the description of a finding, or the name of a test, is a text that no database can store,
  because it holds a lone surrogate;
* a QA result reports a test as anything but passed or failed – and the validator admits
  `error`, and as an unnamed test any text at all.

The argument is a total-correctness one: every step of the effects is run from a state in
which the identifiers still to be drawn are new and the findings the result names are there
(`Ready`), and leaves such a state behind.
-/

namespace ArgentTeam

open Prog Store

/-! ### What the privacy filter lets through -/

theorem Uuid.lower_text (id : Uuid) : (PyStr.ofString id.text).lower = PyStr.ofString id.text := by
  have hchar : ("0123456789abcdef-".toList.all fun c =>
      PyStr.lowerChar (.scalar c) = [.scalar c]) = true := by decide
  have hall := List.all_eq_true.mp id.hexDash
  rw [PyStr.lower, PyStr.ofString, List.flatMap_map]
  rw [← List.flatMap_pure_eq_map]
  refine List.flatMap_congr fun c hc => ?_
  exact of_decide_eq_true (List.all_eq_true.mp hchar c (by simpa [isHexDash] using hall c hc))

/-- **No identifier holds a deny-listed word**: each of these words has a letter beyond the
hexadecimal digits. -/
@[simp]
theorem Uuid.clean (id : Uuid) : containsDenylisted (PyStr.ofString id.text) = none := by
  have hwords : (privacyDenylist.all fun word => word.toList.any fun c => !isHexDash c) = true := by
    decide +kernel
  refine List.find?_eq_none.mpr fun word hmem hcon => ?_
  rw [id.lower_text] at hcon
  obtain ⟨c, hc, hhex⟩ := List.any_eq_true.mp (List.all_eq_true.mp hwords word hmem)
  rw [Bool.not_eq_true'] at hhex
  have hin := PyStr.mem_of_contains hcon (c := .scalar c) (List.mem_map_of_mem hc)
  obtain ⟨c', hc', heq⟩ := List.mem_map.mp hin
  obtain rfl : c' = c := PyChar.scalar.inj heq
  rw [List.all_eq_true.mp id.hexDash c' hc'] at hhex
  exact Bool.noConfusion hhex

theorem scanValue_text {s : String} :
    scanValue (.text s) = containsDenylisted (PyStr.ofString s) := by
  simp [scanValue, Json.text, Json.scan]

theorem scanValue_dict {fields : List (String × Json)}
    (h : ∀ f ∈ fields, containsDenylisted (PyStr.ofString f.1) = none ∧ scanValue f.2 = none) :
    scanValue (.dict fields) = none := by
  rw [scanValue, Json.dict, Json.scan]
  induction fields with
  | nil => rfl
  | cons f fields ih =>
    obtain ⟨hkey, hvalue⟩ := h f List.mem_cons_self
    rw [scanValue] at hvalue
    rw [List.map_cons, Json.scanFields, hkey, hvalue]
    exact ih fun g hg => h g (List.mem_cons_of_mem f hg)

namespace Core

/-! ### Identifiers that are new -/

section Ready

/-- The identifier is that of a row of one of the tables a consumed result adds to. -/
def InUse (id : Uuid) (w : World) : Prop :=
  (∃ f ∈ w.db.core.findings.rows, f.id = id) ∨ (∃ d ∈ w.db.core.decisions.rows, d.id = id) ∨
    (∃ r ∈ w.db.log.testRuns.rows, r.id = id) ∨ (∃ r ∈ w.db.log.reviews.rows, r.id = id) ∨
      ∃ h ∈ w.db.log.handoffs.rows, h.id = id

/-- **`uuid4` does not repeat itself**: the identifiers still to be drawn differ from one
another and from those in use. -/
structure Drawable (w : World) : Prop where
  differ : ∀ m n, w.draws ≤ m → w.draws ≤ n → w.uuids m = w.uuids n → m = n
  unused : ∀ id, InUse id w → ∀ n, w.draws ≤ n → w.uuids n ≠ id

/-- What the effects of a result rely on: new identifiers, and the findings it names. -/
structure Ready (fids : List Json) (w : World) : Prop extends Drawable w where
  named : ∀ fid ∈ fids, ∃ f ∈ w.db.core.findings.rows, fid = .text f.id.text

/-- An identifier that has been drawn but not been used. -/
def Unused (id : Uuid) (w : World) : Prop :=
  ¬InUse id w ∧ ∀ n, w.draws ≤ n → w.uuids n ≠ id

/-- What becomes of a world in which a row with this identifier is added to some table. -/
structure Adds (id : Uuid) (w w' : World) : Prop where
  draws : w'.draws = w.draws
  uuids : w'.uuids = w.uuids
  inUse : ∀ i, InUse i w' → i = id ∨ InUse i w
  findings : ∀ f ∈ w.db.core.findings.rows, f ∈ w'.db.core.findings.rows

variable {fids : List Json} {w w' : World} {id : Uuid}

theorem Ready.add (h : Ready fids w) (hid : Unused id w) (hadd : Adds id w w') : Ready fids w' where
  differ m n := by
    rw [hadd.draws, hadd.uuids]
    exact h.differ m n
  unused i hi n hn := by
    rw [hadd.draws] at hn
    rw [hadd.uuids]
    rcases hadd.inUse i hi with rfl | hi
    · exact hid.2 n hn
    · exact h.unused i hi n hn
  named fid hfid := by
    obtain ⟨f, hf, rfl⟩ := h.named fid hfid
    exact ⟨f, hadd.findings f hf, rfl⟩

theorem total_uuid4 : Total (Ready fids) uuid4 fun u w => Ready fids w ∧ Unused u w := by
  intro w h
  have hlater : ∀ n, w.draws + 1 ≤ n → w.draws ≤ n := fun n hn => by omega
  refine ⟨_, _, returns_uuid4.mpr ⟨rfl, rfl⟩, ⟨⟨fun m n hm hn => ?_, fun i hi n hn => ?_⟩, h.named⟩,
    fun hmem => ?_, fun n hn heq => ?_⟩
  · exact h.differ m n (hlater m hm) (hlater n hn)
  · exact h.unused i hi n (hlater n hn)
  · exact h.unused _ hmem w.draws le_rfl rfl
  · have hsame := h.differ n w.draws (hlater n hn) le_rfl heq
    change w.draws + 1 ≤ n at hn
    omega

theorem total_nowIso : Total (Ready fids) nowIso fun _ => Ready fids :=
  fun _ h => ⟨_, _, returns_nowIso.mpr ⟨rfl, rfl⟩, ⟨h.differ, h.unused⟩, h.named⟩

/-- A row whose identifier has just been drawn can be inserted. -/
theorem total_insert {ρ : Type} {clash : ρ → ρ → Bool} {R : Relvar World ρ clash} (key : ρ → Uuid)
    {r : ρ} (hid : key r = id) (hclash : ∀ a b, clash a b → key a = key b)
    (hkeys : ∀ w, ∀ a ∈ (R.get w).rows, InUse (key a) w)
    (hadds : ∀ w t, (R.get w).insert? r = some t → Adds (key r) w (R.set t w)) :
    Total (fun w => Ready fids w ∧ Unused id w) (R.insert integrityError r)
      fun _ => Ready fids := by
  rw [← hid]
  rintro w ⟨h, hr⟩
  have hfree : ∀ a ∈ (R.get w).rows, clash a r = false := by
    intro a ha
    by_contra hc
    rw [Bool.not_eq_false] at hc
    exact hr.1 (hclash a r hc ▸ hkeys w a ha)
  obtain ⟨t, ht⟩ := Table.exists_insert? hfree
  exact ⟨(), _, Relvar.returns_insert.mpr ⟨t, ht, rfl⟩, h.add hr (hadds w t ht)⟩

theorem total_insertFinding {f : Finding} (hid : f.id = id) :
    Total (fun w => Ready fids w ∧ Unused id w) (insertFinding f) fun _ => Ready fids := by
  refine total_insert Finding.id hid (fun a b => by simp [Finding.clash])
    (fun w a ha => Or.inl ⟨a, ha, rfl⟩) fun w t ht => ⟨rfl, rfl, fun i => ?_, fun g hg => ?_⟩
  · simp only [InUse, Tables.findings, Table.mem_of_insert? ht]
    grind
  · exact (Table.mem_of_insert? ht).mpr (Or.inl hg)

theorem total_insertDecision {d : Decision} (hid : d.id = id) :
    Total (fun w => Ready fids w ∧ Unused id w) (insertDecision d) fun _ => Ready fids := by
  refine total_insert Decision.id hid (fun a b => by simp [Decision.clash])
    (fun w a ha => Or.inr (Or.inl ⟨a, ha, rfl⟩)) fun w t ht =>
    ⟨rfl, rfl, fun i => ?_, fun g hg => hg⟩
  simp only [InUse, Tables.decisions, Table.mem_of_insert? ht]
  grind

theorem total_insertTestRun {r : TestRun} (hid : r.id = id) :
    Total (fun w => Ready fids w ∧ Unused id w) (insertTestRun r) fun _ => Ready fids := by
  refine total_insert TestRun.id hid (fun a b => by simp [TestRun.clash])
    (fun w a ha => Or.inr (Or.inr (Or.inl ⟨a, ha, rfl⟩)))
    fun w t ht => ⟨rfl, rfl, fun i => ?_, fun g hg => hg⟩
  simp only [InUse, Tables.testRuns, Table.mem_of_insert? ht]
  grind

theorem total_insertReview {r : Review} (hid : r.id = id) :
    Total (fun w => Ready fids w ∧ Unused id w) (insertReview r) fun _ => Ready fids := by
  refine total_insert Review.id hid (fun a b => by simp [Review.clash])
    (fun w a ha => Or.inr (Or.inr (Or.inr (Or.inl ⟨a, ha, rfl⟩))))
    fun w t ht => ⟨rfl, rfl, fun i => ?_, fun g hg => hg⟩
  simp only [InUse, Tables.reviews, Table.mem_of_insert? ht]
  grind

theorem total_insertHandoff {h : Handoff} (hid : h.id = id) :
    Total (fun w => Ready fids w ∧ Unused id w) (insertHandoff h) fun _ => Ready fids := by
  refine total_insert Handoff.id hid (fun a b => by simp [Handoff.clash])
    (fun w a ha => Or.inr (Or.inr (Or.inr (Or.inr ⟨a, ha, rfl⟩))))
    fun w t ht => ⟨rfl, rfl, fun i => ?_, fun g hg => hg⟩
  simp only [InUse, Tables.handoffs, Table.mem_of_insert? ht]
  grind

theorem total_updateFindingStatus {status : FindingStatus} :
    Total (Ready fids) (updateFindingStatus id status) fun _ => Ready fids := by
  intro w h
  have hid : ∀ f : Finding,
      (Table.patch (fun f => f.id = id) (fun f => { f with status }) f).id = f.id := by
    intro f
    unfold Table.patch
    split <;> rfl
  obtain ⟨t, ht⟩ := Table.exists_update? w.db.core.findings (p := fun f => f.id = id)
    (f := fun f => { f with status }) fun a _ b _ => by simp only [Finding.clash, hid, imp_self]
  have hrows : ∀ f ∈ t.rows, ∃ g ∈ w.db.core.findings.rows, g.id = f.id := by
    intro f hf
    obtain ⟨g, hg, rfl⟩ := (Table.mem_of_update? ht).mp hf
    exact ⟨g, hg, (hid g).symm⟩
  refine ⟨_, _, Relvar.returns_update.mpr ⟨t, ht, rfl, rfl⟩,
    ⟨h.differ, fun i hi => h.unused i (hi.imp_left ?_)⟩, fun fid hfid => ?_⟩
  · rintro ⟨f, hf, hfi⟩
    obtain ⟨g, hg, hgf⟩ := hrows f hf
    exact ⟨g, hg, hgf.trans hfi⟩
  · obtain ⟨f, hf, rfl⟩ := h.named fid hfid
    exact ⟨_, (Table.mem_of_update? ht).mpr ⟨f, hf, rfl⟩, by rw [hid]⟩

theorem total_updateRoleRunStatus :
    Total (Ready fids) (updateRoleRunStatus id .completed) fun _ => Ready fids := by
  intro w h
  obtain ⟨t, ht⟩ := Table.exists_update? w.db.log.roleRuns (p := fun r => r.id = id)
    (f := fun r => { r with status := RunStatus.completed }) fun a _ b _ => by
      simp only [RoleRun.clash, Table.patch]
      grind
  exact ⟨_, _, Relvar.returns_update.mpr ⟨t, ht, rfl, rfl⟩, ⟨h.differ, h.unused⟩, h.named⟩

end Ready

/-! ### Events -/

section Events

variable {fids : List Json} {type : String} {taskId : Uuid} {role fromRole toRole : Role}
  {payload : Json} {fields : List (String × Json)}

/-- The words the events of a result are made of. -/
def vocabulary : List String :=
  ["finding.created", "finding.resolved", "lead.decision", "test.started", "test.completed",
    "review.started", "review.completed", "role.completed", "handoff.created",
    "handoff.accepted", "agent.result_received", "finding_id", "severity", "decision_id",
    "decision", "test_run_id", "result", "review_id", "verdict", "role", "from_role", "to_role",
    "dispatch_id", "lead", "analyst", "implementer", "qa", "reviewer", "passed", "failed",
    "approve", "reject"] ++ Outputs.severityValues ++ Outputs.decisionValues

theorem clean_of_mem_vocabulary :
    ∀ s ∈ vocabulary, containsDenylisted (PyStr.ofString s) = none := by
  decide +kernel

/-- A value an event may carry: one of these words, or an identifier. -/
def Speakable (v : Json) : Prop := (∃ s ∈ vocabulary, v = .text s) ∨ ∃ id : Uuid, v = .text id.text

theorem speakable_id (id : Uuid) : Speakable (.text id.text) := Or.inr ⟨id, rfl⟩

theorem speakable_word {s : String} (hs : s ∈ vocabulary) : Speakable (.text s) :=
  Or.inl ⟨s, hs, rfl⟩

theorem mem_vocabulary_role : role.value ∈ vocabulary := by
  cases role <;> simp [vocabulary, Role.value]

theorem Speakable.clean {v : Json} (h : Speakable v) : scanValue v = none := by
  rcases h with ⟨s, hs, rfl⟩ | ⟨id, rfl⟩
  · exact scanValue_text.trans (clean_of_mem_vocabulary s hs)
  · exact scanValue_text.trans id.clean

theorem clean_payload (hfields : ∀ f ∈ fields, f.1 ∈ vocabulary ∧ Speakable f.2) :
    scanValue (.dict fields) = none :=
  scanValue_dict fun f hf => ⟨clean_of_mem_vocabulary _ (hfields f hf).1, (hfields f hf).2.clean⟩

theorem total_emit {claimed : Json} {role state : Option String}
    (hclean : checkEvent type claimed role state payload = none)
    (hbind : claimed.bindable) :
    Total (Ready fids) (emit type claimed role state payload) fun _ => Ready fids := by
  refine total_uuid4.bind fun id => (total_nowIso.of_imp fun _ h => h.1).bind fun _ => ?_
  refine (total_require hclean).bind fun _ => (total_require hbind).bind fun _ => ?_
  exact fun w h => ⟨(), _, Relvar.returns_insertOrIgnore.mpr rfl, ⟨h.differ, h.unused⟩, h.named⟩

theorem total_emitTask (htype : type ∈ vocabulary)
    (hfields : ∀ f ∈ fields, f.1 ∈ vocabulary ∧ Speakable f.2) :
    Total (Ready fids) (emitTask type taskId fields) fun _ => Ready fids := by
  refine total_emit ?_ (Json.bindable_text _)
  simp [checkEvent, Json.text, Json.optText, clean_of_mem_vocabulary type htype,
    clean_payload hfields]

theorem total_emitRole (htype : type ∈ vocabulary)
    (hfields : ∀ f ∈ fields, f.1 ∈ vocabulary ∧ Speakable f.2) :
    Total (Ready fids) (emitRole type taskId role fields) fun _ => Ready fids := by
  refine total_emit ?_ (Json.bindable_text _)
  simp [checkEvent, Json.text, Json.optText, clean_of_mem_vocabulary type htype,
    clean_of_mem_vocabulary _ mem_vocabulary_role, clean_payload hfields]

theorem total_emitHandoff (htype : type ∈ vocabulary) :
    Total (Ready fids) (emitHandoff type taskId fromRole toRole) fun _ => Ready fids := by
  refine total_emitTask htype ?_
  have hrole : ∀ role : Role, Speakable (.text role.value) := fun _ =>
    speakable_word mem_vocabulary_role
  simp [vocabulary, hrole]

end Events

/-! ### What the validator has checked -/

section Accepted

open Outputs

variable {cfg : Config} {role : Role} {fields f : List (PyStr × Json)} {x v : Json} {i : ℕ}
  {key : String} {s : PyStr}

/-- The text a finding is recorded with: its description, or its title where the description
is missing or empty. -/
def recordedText (f : List (PyStr × Json)) : PyStr :=
  match Json.get? f "description", Json.get? f "title" with
  | some (.str (c :: s)), _ => c :: s
  | _, some (.str s) => s
  | _, _ => []

/-- A finding whose text a database can store. -/
def FindingRecordable : Json → Prop
  | .obj f => (recordedText f).encode?.isSome = true
  | _ => True

/-- A test that has passed or failed, with a name a database can store. -/
def TestRecordable : Json → Prop
  | .str s => s = PyStr.ofString "passed" ∨ s = PyStr.ofString "failed"
  | .obj t =>
    (Json.get? t "result" = some (.text "passed") ∨ Json.get? t "result" = some (.text "failed")) ∧
      ∀ s, Json.get? t "name" = some (.str s) → s.encode?.isSome = true
  | _ => True

/-- **What a result has to look like for its effects to complete.** -/
structure Recordable (role : Role) (fields : List (PyStr × Json)) : Prop where
  findings : ∀ f ∈ (Json.getD fields "findings" .null).elems, FindingRecordable f
  tests : role = .qa → ∀ t ∈ (Json.getD fields "tests" .null).elems, TestRecordable t

theorem validateFinding_eq_ok (h : validateFinding i x = .ok ()) :
    ∃ f, x = .obj f ∧ (∃ s ∈ severityValues, Json.get? f "severity" = some (.text s)) ∧
      ∀ key ∈ ["description", "title", "id"], ∀ v, Json.get? f key = some v → ∃ s, v = .str s := by
  cases x with
  | obj f =>
    unfold validateFinding at h
    rcases hsev : Json.get? f "severity" with _ | v
    · simp [hsev, bind_eq_ok] at h
    simp only [hsev, bind_eq_ok, check_eq_ok, checkAll_eq_ok, inSet_eq_ok] at h
    obtain ⟨-, ⟨s, hs, rfl⟩, htexts, -⟩ := h
    refine ⟨f, rfl, ⟨s, hs, hsev⟩, fun key hkey v hv => ?_⟩
    have htext := htexts key hkey
    rw [hv] at htext
    exact isInstance_str.mp (check_eq_ok.mp htext)
  | _ => exact absurd h malformed_ne_ok

theorem validateTest_eq_ok (h : validateTest i x = .ok ()) :
    (∃ s, x = .str s) ∨ ∃ t, x = .obj t ∧ (∃ s, Json.get? t "name" = some (.str s)) ∧
      ∃ s ∈ testResultValues, Json.get? t "result" = some (.text s) := by
  cases x with
  | str s => exact Or.inl ⟨s, rfl⟩
  | obj t =>
    unfold validateTest at h
    rcases hname : Json.get? t "name" with _ | v
    · simp [hname, bind_eq_ok] at h
    rcases hresult : Json.get? t "result" with _ | r
    · simp [hname, hresult, bind_eq_ok] at h
    simp only [hname, hresult, bind_eq_ok, check_eq_ok, inSet_eq_ok, isInstance_str] at h
    obtain ⟨-, ⟨s, rfl⟩, r', hr', rfl⟩ := h
    exact Or.inr ⟨t, rfl, ⟨s, hname⟩, r', hr', hresult⟩
  | _ => exact absurd h malformed_ne_ok

theorem mem_field_eq_ok {validate : ℕ → Json → Except Error Unit}
    (h : validateField fields key validate = .ok ()) :
    ∀ x ∈ (Json.getD fields key .null).elems, ∃ i, validate i x = .ok () :=
  checkEach_eq_ok h

/-- **What the effects use of an accepted result**: its findings and tests, and the decision
and the recommendation of those roles that have one. -/
theorem output_checked (out : RoleOutput role) :
    (∀ x ∈ (Json.getD out.fields "findings" .null).elems, ∃ i, validateFinding i x = .ok ()) ∧
      (∀ x ∈ (Json.getD out.fields "tests" .null).elems, ∃ i, validateTest i x = .ok ()) ∧
      (role = .lead → ∃ s ∈ decisionValues, Json.get? out.fields "decision" = some (.text s)) := by
  have h := out.accepted
  unfold validateRoleOutput at h
  simp only [bind_eq_ok] at h
  obtain ⟨-, hfields, henvelope, hnested, -⟩ := h
  simp only [checkNested, bind_eq_ok] at hnested
  obtain ⟨hfindings, -, htests, -⟩ := hnested
  refine ⟨mem_field_eq_ok hfindings, mem_field_eq_ok htests, ?_⟩
  rintro rfl
  simp only [checkEnvelope, bind_eq_ok, if_true, inSet_eq_ok] at henvelope
  obtain ⟨-, -, -, s, hs, hdecision⟩ := henvelope
  refine ⟨s, hs, ?_⟩
  rcases hget : Json.get? out.fields "decision" with _ | v
  · rw [Json.getD, hget] at hdecision
    exact Json.noConfusion hdecision
  · rw [Json.getD, hget] at hdecision
    rw [← hdecision]
    rfl

theorem elems_getD_arr :
    (Json.getD fields key (.arr [])).elems = (Json.getD fields key .null).elems := by
  unfold Json.getD
  cases Json.get? fields key <;> rfl

/-- The description a finding is recorded with, where the validator has seen it. -/
theorem findingDescription_eq
    (h : ∀ key ∈ ["description", "title", "id"], ∀ v, Json.get? f key = some v → ∃ s, v = .str s) :
    findingDescription cfg f = recordedText f := by
  unfold findingDescription recordedText
  rcases hdesc : Json.get? f "description" with _ | v
  · rcases htitle : Json.get? f "title" with _ | v
    · rfl
    · obtain ⟨s, rfl⟩ := h "title" (by decide) v htitle
      cases s <;> rfl
  · obtain ⟨s, rfl⟩ := h "description" (by decide) v hdesc
    cases s with
    | cons c s => rfl
    | nil =>
      rcases htitle : Json.get? f "title" with _ | v
      · rfl
      · obtain ⟨s, rfl⟩ := h "title" (by decide) v htitle
        cases s <;> rfl

end Accepted

/-! ### Each effect completes -/

section Effects

open Outputs

variable {cfg : Config} {taskId : Uuid} {d : AgentDispatch} {fids : List Json}
  {fields f : List (PyStr × Json)} {x fid : Json} {i : ℕ} {s : PyStr} {t : String}

theorem total_storable_bind {β : Type} {g : String → Cmd β} {P : World → Prop}
    {Q : β → World → Prop} (h : s.encode? = some t) (hg : Total P (g t) Q) :
    Total P (storable s >>= g) Q :=
  total_orRaise_bind h hg

/-- **A finding is recorded** once its text can be stored. -/
theorem total_recordFinding (hx : validateFinding i x = .ok ()) (hrec : FindingRecordable x) :
    Total (Ready fids) (recordFinding cfg taskId x) fun _ => Ready fids := by
  obtain ⟨f, rfl, ⟨sev, hsev, hget⟩, htexts⟩ := validateFinding_eq_ok hx
  obtain ⟨t, ht⟩ := Option.isSome_iff_exists.mp hrec
  have hseverity : (strOf cfg (Json.getD f "severity" (.text "medium"))).encode? = some sev := by
    rw [Json.getD, hget]
    exact PyStr.encode?_ofString sev
  have hspeak : Speakable (.text sev) := speakable_word (by simp [vocabulary, hsev])
  have hdescription : (findingDescription cfg f).encode? = some t := by
    rw [findingDescription_eq htexts, ht]
  refine total_uuid4.bind fun id => ?_
  refine total_storable_bind hseverity <| total_storable_bind hdescription ?_
  refine Total.bind (total_insertFinding ?_) fun _ => ?_
  · rfl
  refine total_emitTask (by simp [vocabulary]) ?_
  simp [vocabulary, speakable_id, hspeak]

/-- **An accepted finding is resolved**: it is there, and its identifier may be told. -/
theorem total_resolveAccepted (hfid : fid ∈ fids) :
    Total (Ready fids) (resolveAccepted taskId fid) fun _ => Ready fids := by
  intro w h
  obtain ⟨f, hf, rfl⟩ := h.named fid hfid
  have hget : w.db.getFinding f.id.text = some f := Db.getFinding_eq_some.mpr ⟨hf, rfl⟩
  have hname : (namedFinding (.text f.id.text)).Returns w (some f) w := by
    simp [namedFinding, Json.text, storable, hget]
  obtain ⟨u, w', hrest, hw'⟩ := total_whenSome (o := (some f).filter fun f => f.status = .opened)
    (f := fun g => do
      let _ ← updateFindingStatus g.id .resolved
      emitTask "finding.resolved" taskId [("finding_id", .text f.id.text)])
    (fun g _ => total_updateFindingStatus.bind fun _ => total_emitTask (by simp [vocabulary])
      (by simp [vocabulary, speakable_id])) w h
  exact ⟨u, w', returns_bind.mpr ⟨some f, w, hname, hrest⟩, hw'⟩

/-- **The decision of a lead is recorded.** -/
theorem total_leadEffects {decision : String} (hmem : decision ∈ decisionValues)
    (hdecision : Json.get? fields "decision" = some (.text decision)) :
    Total (Ready (Json.getD fields "accepted_findings" (.arr [])).elems) (leadEffects d fields)
      fun _ => Ready (Json.getD fields "accepted_findings" (.arr [])).elems := by
  have hresult : resultDecision fields = some decision := by
    rw [resultDecision, hdecision]
    exact PyStr.encode?_ofString decision
  have hspeak : Speakable (.text decision) := speakable_word (by simp [vocabulary, hmem])
  refine total_orRaise_bind hresult <| total_uuid4.bind fun id => ?_
  refine Total.bind (total_insertDecision ?_) fun _ => ?_
  · rfl
  refine (total_emitTask (by simp [vocabulary]) ?_).bind fun _ => ?_
  · simp [vocabulary, speakable_id, hspeak]
  · exact total_onlyIf fun _ => total_forEach fun fid hfid => total_resolveAccepted hfid

theorem coerceResult_isSome :
    (coerceResult s).isSome ↔ s = PyStr.ofString "passed" ∨ s = PyStr.ofString "failed" := by
  unfold coerceResult
  split_ifs <;> simp_all

/-- What makes a test recordable, in terms of its name and its result. -/
theorem testRecordable_iff (hx : validateTest i x = .ok ()) :
    TestRecordable x ↔ (coerceResult (testFields cfg x).2).isSome ∧
      (testFields cfg x).1.encode?.isSome = true := by
  rcases validateTest_eq_ok hx with ⟨s, rfl⟩ | ⟨t, rfl, ⟨name, hname⟩, r, -, hresult⟩
  · rw [coerceResult_isSome]
    exact (and_iff_left rfl).symm
  · have hfields : testFields cfg (.obj t) = (name, PyStr.ofString r) := by
      rw [testFields, Json.getD, Json.getD, hname, hresult]
      rfl
    rw [hfields, coerceResult_isSome, TestRecordable, hname, hresult]
    simp [Json.text]

/-- **A test is recorded** once it has passed or failed, and its name can be stored. -/
theorem total_recordTest (hx : validateTest i x = .ok ()) (hrec : TestRecordable x) :
    Total (Ready fids) (recordTest cfg taskId x) fun _ => Ready fids := by
  obtain ⟨hresult, hname⟩ := (@testRecordable_iff cfg _ _ hx).mp hrec
  obtain ⟨r, hr⟩ := Option.isSome_iff_exists.mp hresult
  obtain ⟨name, hn⟩ := Option.isSome_iff_exists.mp hname
  have hspeak : Speakable (.text r.value) := speakable_word <| by
    cases r <;> simp [vocabulary, TestResult.value]
  refine total_uuid4.bind fun id => ?_
  refine total_orRaise_bind hr <| total_storable_bind hn ?_
  refine Total.bind (total_insertTestRun ?_) fun _ => ?_
  · rfl
  refine (total_emitTask (by simp [vocabulary]) ?_).bind fun _ =>
    total_emitTask (by simp [vocabulary]) ?_
  · simp [vocabulary, speakable_id]
  · simp [vocabulary, speakable_id, hspeak]

/-- **A review is recorded.** -/
theorem total_reviewEffects :
    Total (Ready fids) (reviewEffects cfg d fields) fun _ => Ready fids := by
  have hspeak : ∀ s, Speakable (.text (canonicalReviewVerdict s)) := by
    intro s
    unfold canonicalReviewVerdict
    split <;> exact speakable_word (by simp [vocabulary])
  refine total_uuid4.bind fun id => ?_
  refine Total.bind (total_insertReview ?_) fun _ => ?_
  · rfl
  refine (total_emitTask (by simp [vocabulary]) ?_).bind fun _ =>
    total_emitTask (by simp [vocabulary]) ?_
  · simp [vocabulary, speakable_id]
  · simp [vocabulary, speakable_id, hspeak]

/-- **The active role run ends.** -/
theorem total_completeActiveRole :
    Total (Ready fids) (completeActiveRole d) fun _ => Ready fids := by
  refine total_read_bind fun w h => ?_
  refine total_whenSome (fun r _ => total_updateRoleRunStatus.bind fun _ =>
    total_emitRole (by simp [vocabulary]) ?_) w h
  simp [vocabulary, speakable_word mem_vocabulary_role]

/-- **The next handoff is recorded.** -/
theorem total_sequenceHandoff :
    Total (Ready fids) (sequenceHandoff d) fun _ => Ready fids := by
  refine total_read_bind fun w h => ?_
  refine total_whenSome (fun role _ => total_nowIso.bind fun _ => ?_) w h
  refine Total.bind (total_uuid4.bind fun id => total_insertHandoff ?_) fun _ =>
    (total_emitHandoff (by simp [vocabulary])).bind fun _ =>
      total_emitHandoff (by simp [vocabulary])
  rfl

end Effects

/-! ### The effects together -/

section Together

variable {cfg : Config} {d : AgentDispatch} {w w' : World} {u : Unit}

def acceptedFindings (fields : List (PyStr × Json)) : List Json :=
  (Json.getD fields "accepted_findings" .null).elems

/-- The effects that depend on the role complete. -/
theorem total_sectionEffects {fields : List (PyStr × Json)}
    (hdecision : d.role = .lead →
      ∃ s ∈ Outputs.decisionValues, Json.get? fields "decision" = some (.text s))
    (htests : d.role = .qa → ∀ t ∈ (Json.getD fields "tests" .null).elems,
      (∃ i, Outputs.validateTest i t = .ok ()) ∧ TestRecordable t) :
    Total (Ready (acceptedFindings fields)) (sectionEffects cfg d fields)
      fun _ => Ready (acceptedFindings fields) := by
  unfold sectionEffects
  cases hrole : d.role with
  | lead =>
    obtain ⟨s, hs, hget⟩ := hdecision hrole
    rw [acceptedFindings, ← elems_getD_arr]
    exact total_leadEffects hs hget
  | qa =>
    refine total_forEach fun t ht => ?_
    rw [elems_getD_arr] at ht
    obtain ⟨⟨i, hi⟩, hrec⟩ := htests hrole t ht
    exact total_recordTest hi hrec
  | reviewer => exact total_reviewEffects
  | analyst | implementer => exact total_pure (Q := fun _ => Ready _)

/-- The effects of a recordable result complete. -/
theorem total_consumeEffects (out : RoleOutput d.role) (hrec : Recordable d.role out.fields) :
    Total (Ready (acceptedFindings out.fields)) (consumeEffects cfg d out.fields)
      fun _ => Ready (acceptedFindings out.fields) := by
  obtain ⟨hfindings, htests, hdecision⟩ := output_checked out
  have hsection : Total (Ready (acceptedFindings out.fields)) (sectionEffects cfg d out.fields)
      fun _ => Ready (acceptedFindings out.fields) :=
    total_sectionEffects hdecision fun hrole t ht => ⟨htests t ht, hrec.tests hrole t ht⟩
  refine Total.bind (total_nowIso.bind fun _ => Total.bind (total_forEach fun f hf => ?_)
    fun _ => hsection) fun _ => total_completeActiveRole.bind fun _ => total_sequenceHandoff
  obtain ⟨i, hi⟩ := hfindings f hf
  exact total_recordFinding hi (hrec.findings f hf)

theorem findingRecordable_of_returns {taskId : Uuid} {x : Json} {i : ℕ}
    (hx : Outputs.validateFinding i x = .ok ())
    (h : (recordFinding cfg taskId x).Returns w u w') : FindingRecordable x := by
  obtain ⟨f, rfl, -, htexts⟩ := validateFinding_eq_ok hx
  simp only [recordFinding, storable, returns_bind, returns_orRaise] at h
  obtain ⟨-, -, -, -, -, -, t, -, ⟨ht, -⟩, -⟩ := h
  rw [findingDescription_eq htexts] at ht
  exact Option.isSome_iff_exists.mpr ⟨t, ht⟩

theorem testRecordable_of_returns {taskId : Uuid} {x : Json} {i : ℕ}
    (hx : Outputs.validateTest i x = .ok ())
    (h : (recordTest cfg taskId x).Returns w u w') : TestRecordable x := by
  simp only [recordTest, storable, returns_bind, returns_orRaise] at h
  obtain ⟨-, -, -, r, -, ⟨hr, -⟩, name, -, ⟨hname, -⟩, -⟩ := h
  exact (@testRecordable_iff cfg _ _ hx).mpr
    ⟨Option.isSome_iff_exists.mpr ⟨r, hr⟩, Option.isSome_iff_exists.mpr ⟨name, hname⟩⟩

theorem sectionEffects_qa {fields : List (PyStr × Json)} (hrole : d.role = .qa) :
    sectionEffects cfg d fields =
      forEach (recordTest cfg d.taskId) (Json.getD fields "tests" (.arr [])).elems := by
  simp only [sectionEffects, hrole]

/-- A result whose effects have completed was recordable. -/
theorem recordable_of_returns (out : RoleOutput d.role)
    (h : (consumeEffects cfg d out.fields).Returns w u w') : Recordable d.role out.fields := by
  obtain ⟨hfindings, htests, -⟩ := output_checked out
  obtain ⟨_, w₁, heffects, -⟩ := returns_bind.mp h
  obtain ⟨_, w₂, -, heffects⟩ := returns_bind.mp heffects
  obtain ⟨_, w₃, hloop, hsection⟩ := returns_bind.mp heffects
  refine ⟨fun f hf => ?_, fun hrole t ht => ?_⟩
  · obtain ⟨i, hi⟩ := hfindings f hf
    obtain ⟨s₁, s₂, -, hbody⟩ := body_of_returns_forEach (fun _ => ()) (fun _ => ⟨fun _ => rfl⟩)
      hloop f hf
    exact findingRecordable_of_returns hi hbody
  · obtain ⟨i, hi⟩ := htests t ht
    rw [sectionEffects_qa hrole] at hsection
    rw [← elems_getD_arr] at ht
    obtain ⟨s₁, s₂, -, hbody⟩ := body_of_returns_forEach (fun _ => ()) (fun _ => ⟨fun _ => rfl⟩)
      hsection t ht
    exact testRecordable_of_returns hi hbody

end Together

/-! ### From the consumption on -/

section Consumed

variable {cfg : Config} {d : AgentDispatch} {w w' : World} {eventMeta : Json}

/-- What `_receive_work` does with a result that fits, up to the point where its effects are
applied: the findings it names are checked, the dispatch is consumed, and the event is
written. -/
def consumption (d : AgentDispatch) (out : RoleOutput d.role) : Cmd Unit := do
  validateEffectBindings d.taskId out.fields
  let _ ← nowIso
  let rc ← consumeDispatch d.id (Json.obj out.fields).sorted
  require (rc = 1) (.error .dispatchError "dispatch %r is not open" [d.id.text])
  emitRole "agent.result_received" d.taskId d.role [("dispatch_id", .text d.id.text)]

/-- **A dispatch whose result has been accepted and consumed**: it is known and open, the
result passes every check of identity, binding, run, role and handoff, and consuming it leads
from one world to the other. -/
structure Consumed (d : AgentDispatch) (eventMeta : Json) (out : RoleOutput d.role)
    (w w' : World) : Prop where
  known : w.db.getDispatch d.id.text = some d
  unconsumed : d.status ≠ .consumed
  fits : refusal w.db d eventMeta (.obj out.fields) = none
  consumes : (consumption d out).Returns w () w'

theorem namedFinding_eq {fid : Json} {o : Option Finding}
    (h : (namedFinding fid).Returns w o w') :
    w = w' ∧ ∀ f, o = some f → f ∈ w.db.core.findings.rows ∧ fid = .text f.id.text := by
  unfold namedFinding at h
  split at h
  · rename_i s
    simp only [storable, returns_bind, returns_orRaise, returns_read] at h
    obtain ⟨id, _, ⟨hid, rfl⟩, hget, rfl⟩ := h
    refine ⟨rfl, fun f hf => ?_⟩
    obtain ⟨hmem, hkey⟩ := Db.getFinding_eq_some.mp (hget.trans hf)
    exact ⟨hmem, by rw [hkey, Json.text, PyStr.eq_ofString_of_encode? hid]⟩
  · simp only [returns_bind, returns_require, returns_pure] at h
    obtain ⟨_, _, ⟨-, rfl⟩, rfl, rfl⟩ := h
    exact ⟨rfl, fun f hf => absurd hf (by simp)⟩

/-- The findings a result accepts are there, where the bindings of its effects hold. -/
theorem named_of_validateEffectBindings {fields : List (PyStr × Json)} {taskId : Uuid} {u : Unit}
    (h : (validateEffectBindings taskId fields).Returns w u w') :
    w = w' ∧ ∀ fid ∈ acceptedFindings fields, ∃ f ∈ w.db.core.findings.rows,
      fid = .text f.id.text := by
  -- the check of one identifier reads the database and leaves it alone
  have hsame : ∀ fid : Json, Moves id Eq (do
      let f ← namedFinding fid
      require (f.map Finding.taskId = some taskId)
        (.error .dispatchError "finding %r does not belong to task %r" [taskId.text])) := by
    intro fid
    refine moves_bind ?_ fun _ => inferInstance
    unfold namedFinding storable
    split <;> exact moves_bind inferInstance fun _ => inferInstance
  have hloop : ∀ field : String, Moves id Eq (forEach (fun fid => do
      let f ← namedFinding fid
      require (f.map Finding.taskId = some taskId)
        (.error .dispatchError "finding %r does not belong to task %r" [taskId.text]))
      (Json.getD fields field .null).elems) := fun field => moves_forEach hsame
  refine ⟨Moves.of_returns (h := moves_forEach hloop) h, fun fid hfid => ?_⟩
  obtain ⟨w₁, w₂, rfl, hfields⟩ := body_of_returns_forEach id hloop h "accepted_findings" (by simp)
  obtain ⟨w₃, w₄, rfl, hbody⟩ := body_of_returns_forEach id hsame hfields fid hfid
  simp only [returns_bind, returns_require] at hbody
  obtain ⟨o, _, hname, ho, rfl⟩ := hbody
  obtain ⟨rfl, hnamed⟩ := namedFinding_eq hname
  obtain ⟨f, rfl, -⟩ := Option.map_eq_some_iff.mp ho
  exact ⟨f, hnamed f rfl⟩

/-- **Consuming a result makes its effects ready.** -/
theorem Consumed.ready {out : RoleOutput d.role} (hc : Consumed d eventMeta out w w')
    (hw : Drawable w) : Ready (acceptedFindings out.fields) w' := by
  have hconsumes := hc.consumes
  simp only [consumption, consumeDispatch, returns_bind, Relvar.returns_update, returns_require]
    at hconsumes
  obtain ⟨_, w₁, hbindings, _, w₂, hnow, _, w₃, ⟨t, -, -, rfl⟩, _, _, ⟨-, rfl⟩, hemit⟩ := hconsumes
  obtain ⟨rfl, hnamed⟩ := named_of_validateEffectBindings hbindings
  have h₂ : Ready (acceptedFindings out.fields) w₂ := total_nowIso.of_returns ⟨hw, hnamed⟩ hnow
  have h₃ : Ready (acceptedFindings out.fields) (Tables.agentDispatches.set t w₂) :=
    ⟨⟨h₂.differ, h₂.unused⟩, h₂.named⟩
  refine (total_emitRole (by simp [vocabulary]) ?_).of_returns h₃ hemit
  simp [vocabulary, speakable_id]

/-- **Which accepted results are recorded**: once a result that fits has been consumed, its
effects complete if and only if its findings have texts that can be stored and, for QA, its
tests have passed or failed and have names that can be stored. -/
theorem effects_complete_iff (out : RoleOutput d.role) (hc : Consumed d eventMeta out w w')
    (hw : Drawable w) :
    (∃ w'', (consumeEffects cfg d out.fields).Returns w' () w'') ↔
      Recordable d.role out.fields := by
  constructor
  · rintro ⟨w'', h⟩
    exact recordable_of_returns out h
  · intro hrec
    obtain ⟨u, w'', h, -⟩ := @total_consumeEffects cfg _ out hrec w' (hc.ready hw)
    exact ⟨w'', h⟩

/-- Identifiers that are numbered do not repeat themselves. -/
theorem drawable_of_numbered (hw : w.uuids = Uuid.numbered)
    (hfindings : ∀ f ∈ w.db.core.findings.rows, ∃ k < w.draws, f.id = .numbered k)
    (hdecisions : ∀ x ∈ w.db.core.decisions.rows, ∃ k < w.draws, x.id = .numbered k)
    (htests : ∀ r ∈ w.db.log.testRuns.rows, ∃ k < w.draws, r.id = .numbered k)
    (hreviews : ∀ r ∈ w.db.log.reviews.rows, ∃ k < w.draws, r.id = .numbered k)
    (hhandoffs : ∀ h ∈ w.db.log.handoffs.rows, ∃ k < w.draws, h.id = .numbered k) :
    Drawable w where
  differ m n _ _ h := by
    rw [hw] at h
    exact Uuid.numbered_injective h
  unused id hid n hn heq := by
    have hk : ∃ k < w.draws, id = .numbered k := by
      rcases hid with ⟨x, hx, rfl⟩ | ⟨x, hx, rfl⟩ | ⟨x, hx, rfl⟩ | ⟨x, hx, rfl⟩ | ⟨x, hx, rfl⟩
      · exact hfindings x hx
      · exact hdecisions x hx
      · exact htests x hx
      · exact hreviews x hx
      · exact hhandoffs x hx
    obtain ⟨k, hk, rfl⟩ := hk
    rw [hw] at heq
    have hnk : n = k := Uuid.numbered_injective heq
    omega

end Consumed

/-! ### A lead's first result -/

/-- A lead at work on its first dispatch (6). -/
def leadWorld : World :=
  { ticking with
    db := (run .lenient ticking (begun ++ dispatchTo .lead 0 1 .standard 6)).db, draws := 16 }

def leadDispatch : AgentDispatch := (leadWorld.db.getDispatch (num 6)).get (by decide +kernel)

/-- Its result. -/
def leadOutput : RoleOutput leadDispatch.role where
  fields := (outputFields .lead 6 (decided "accept")).map fun f => (PyStr.ofString f.1, f.2)
  accepted := by decide +kernel

theorem leadConsumed :
    Consumed leadDispatch (completed 6) leadOutput leadWorld
      (consumption leadDispatch leadOutput leadWorld).2 := by
  have hfacts : leadWorld.db.getDispatch leadDispatch.id.text = some leadDispatch ∧
      leadDispatch.status ≠ .consumed ∧
      refusal leadWorld.db leadDispatch (completed 6) (.obj leadOutput.fields) = none ∧
      (consumption leadDispatch leadOutput leadWorld).1 = .ok () := by
    decide +kernel
  exact ⟨hfacts.1, hfacts.2.1, hfacts.2.2.1, returns_of_fst hfacts.2.2.2⟩

theorem drawable_leadWorld : Drawable leadWorld := by
  have hfacts : leadWorld.db.core.findings.rows = [] ∧ leadWorld.db.core.decisions.rows = [] ∧
      leadWorld.db.log.testRuns.rows = [] ∧ leadWorld.db.log.reviews.rows = [] ∧
      leadWorld.db.log.handoffs.rows = [] := by
    decide +kernel
  obtain ⟨hfindings, hdecisions, htests, hreviews, hhandoffs⟩ := hfacts
  refine drawable_of_numbered rfl ?_ ?_ ?_ ?_ ?_
  · simp [hfindings]
  · simp [hdecisions]
  · simp [htests]
  · simp [hreviews]
  · simp [hhandoffs]

/-- The lead's first result is such a result. -/
theorem effects_complete_iff_lead :
    (∃ w, (consumeEffects .lenient leadDispatch leadOutput.fields).Returns
        (consumption leadDispatch leadOutput leadWorld).2 () w) ↔
      Recordable leadDispatch.role leadOutput.fields :=
  effects_complete_iff leadOutput leadConsumed drawable_leadWorld

/-! ### A test that ended in an error -/

/-- **An accepted result may crash in its effects**: a test of QA that ended in an error passes
every check, and then is no result a test run can have. -/
theorem effects_may_crash :
    (((run .lenient ticking qaAtWork).db.getDispatch (num 66)).map fun d =>
        refusal (run .lenient ticking qaAtWork).db d (completed 66)
          (outputOf .qa 66 (tested "error"))) = some none ∧
      Outputs.validateRoleOutput .qa (outputOf .qa 66 (tested "error")) = .ok () ∧
      (receiveAgentResult .lenient (num 66) (completed 66) (outputOf .qa 66 (tested "error"))
          (roleSource .lead) none (run .lenient ticking qaAtWork)).1 =
        .error (.error .valueError "%r is not a valid TestResult" []) := by
  decide +kernel

end Core

end ArgentTeam
