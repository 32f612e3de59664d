import ArgentTeam.Core.Ledger

/-!
# Transactions under a key

A command that is given a key is run once under it. The commands have one shape: checks, then
a transaction that looks up the key, and does and records the work where there is no record.
`Keyed` collects what the parts of such a transaction owe, `Obeys` what the transaction
promises, and `Lawful` what the whole command does.
-/

namespace ArgentTeam

open Prog Store

namespace Core

/-! ### What a call may leave behind -/

def keys (w : World) : Table CommandIdempotency CommandIdempotency.clash :=
  w.db.log.commandIdempotency

/-- All tables but the events. -/
def unreported (w : World) : Db := { w.db with log := { w.db.log with events := Table.empty } }

section Views

instance : OffReports keys := ⟨fun _ _ _ _ _ _ _ _ _ h => h⟩

instance : Tables.tasks.Apart keys := ⟨fun _ _ => rfl⟩
instance : Tables.findings.Apart keys := ⟨fun _ _ => rfl⟩
instance : Tables.decisions.Apart keys := ⟨fun _ _ => rfl⟩
instance : Tables.ownerApprovals.Apart keys := ⟨fun _ _ => rfl⟩
instance : Tables.actionExecutions.Apart keys := ⟨fun _ _ => rfl⟩
instance : Tables.agentDispatches.Apart keys := ⟨fun _ _ => rfl⟩
instance : Tables.projects.Apart keys := ⟨fun _ _ => rfl⟩
instance : Tables.taskRuns.Apart keys := ⟨fun _ _ => rfl⟩
instance : Tables.roleRuns.Apart keys := ⟨fun _ _ => rfl⟩
instance : Tables.testRuns.Apart keys := ⟨fun _ _ => rfl⟩
instance : Tables.reviews.Apart keys := ⟨fun _ _ => rfl⟩

instance : OfRecords keys Eq where
  project _ := inferInstance
  taskRun _ := inferInstance
  taskRunStatus _ _ := inferInstance
  roleRun _ := inferInstance
  roleRunStatus _ _ := inferInstance
  testRun _ := inferInstance
  review _ := inferInstance

instance : OfDb unreported := ⟨fun w w' h => by rw [unreported, h, unreported]⟩

instance : Tables.events.Apart unreported := ⟨fun _ _ => rfl⟩

end Views

/-- The error of a gate command whose approval has expired: the expiry has been carried
out. -/
def Expired (e : Error) : Prop := ∃ id, e = .error .approvalError "approval %r expired" [id]

/-! ### Transactions under a key -/

section Keyed

variable {α β : Type} {k name : String} {args : Json} {work : Cmd (β × String)}
  {again : String → Cmd β} {answer : Db → String → Option β} {echo : β → β → Prop} {w w' w₂ : World}
  {a : β} {r : CommandIdempotency}

/-- What the parts of a transaction under a key owe: the refetch reads an answer off the
database, which is there for good once it is there; and the work leaves one, and does not
touch the records of the keys. -/
structure Keyed (work : Cmd (β × String)) (again : String → Cmd β)
    (answer : Db → String → Option β) (echo : β → β → Prop) : Prop where
  refetches : ∀ id w a w', (again id).Returns w a w' ↔ answer w.db id = some a ∧ w = w'
  apart : ∀ id, Tables.commandIdempotency.Apart fun w => answer w.db id
  lasts : ∀ {id w w'}, Grows (ledger w) (ledger w') → (answer w.db id).isSome = true →
    (answer w'.db id).isSome = true
  sound : ∀ {w a id w'}, work.Returns w (a, id) w' →
    ∃ a', answer w'.db id = some a' ∧ echo a a'
  frame : Moves keys Eq work

theorem Keyed.replay (h : Keyed work again answer echo)
    (hrec : w.db.getCommandIdempotency k name = some r) (hargs : r.args = args.sorted)
    (ha : answer w.db r.resultId = some a) :
    (idempotent (some k) name args work again).Returns w a w :=
  returns_idempotent.mpr (Or.inl ⟨r, hrec, hargs, (h.refetches ..).mpr ⟨ha, rfl⟩⟩)

theorem raises_keyReused (hrec : w.db.getCommandIdempotency k name = some r)
    (hargs : r.args ≠ args.sorted) :
    (idempotent (some k) name args work again).Raises w (keyReused k name) w := by
  refine raises_transaction.mpr ⟨w, ?_, rfl⟩
  simp only [caseSome, raises_bind, not_raises_read, returns_read, false_or]
  refine ⟨_, w, ⟨rfl, rfl⟩, raises_caseSome.mpr (Or.inl ⟨r, hrec, ?_⟩)⟩
  exact raises_bind.mpr (Or.inl (raises_require.mpr ⟨hargs, rfl, rfl⟩))

/-- A key that is not recorded is recorded by `recordCommand`. -/
theorem getCommandIdempotency_recordCommand {id : String}
    (h : w.db.getCommandIdempotency k name = none) :
    (recordCommand (some k) name id args w).db.getCommandIdempotency k name =
      some ⟨k, name, id, args⟩ := by
  have hclash : ∀ x ∈ (Tables.commandIdempotency.get w).rows,
      CommandIdempotency.clash x ⟨k, name, id, args⟩ = false := by
    intro x hx
    have hne := Table.lookup_eq_none_iff.mp h x hx
    simpa [CommandIdempotency.clash] using hne
  obtain ⟨t', ht'⟩ := Table.exists_insert? hclash
  have hset : (recordCommand (some k) name id args w).db.log.commandIdempotency = t' := by
    simp only [recordCommand, ht', Option.getD_some]
    rfl
  rw [Db.getCommandIdempotency, hset]
  exact Table.lookup_of_insert? (fun x hx => by simpa [CommandIdempotency.clash] using hx) ht'

/-- **A transaction that has returned is recorded**, and the record has its answer. -/
theorem Keyed.stored (h : Keyed work again answer echo)
    (hr : (idempotent (some k) name args work again).Returns w a w') :
    ∃ r, w'.db.getCommandIdempotency k name = some r ∧ r.args = args.sorted ∧
      ∃ a', answer w'.db r.resultId = some a' ∧ (echo a a' ∨ a' = a) := by
  rcases returns_idempotent.mp hr with ⟨r, hrec, hargs, hagain⟩ | ⟨hrec, id, w₁, hwork, rfl⟩
  · obtain ⟨ha, rfl⟩ := (h.refetches ..).mp hagain
    exact ⟨r, hrec, hargs, a, ha, Or.inr rfl⟩
  · have hkeys : w₁.db.log.commandIdempotency = w.db.log.commandIdempotency :=
      Moves.frame keys (h := h.frame) hwork
    have hnone : w₁.db.getCommandIdempotency k name = none := by
      rw [Db.getCommandIdempotency, hkeys]
      exact hrec
    obtain ⟨a', ha', hecho⟩ := h.sound hwork
    refine ⟨_, getCommandIdempotency_recordCommand hnone, rfl, a', ?_, Or.inl hecho⟩
    exact ((h.apart id).apart _ _).trans ha'

end Keyed

/-! ### What a transaction promises, and what a command does -/

section Law

variable {α : Type} {key : Option String} {name : String} {args : Json} {checks : Cmd Unit}
  {answer : Db → String → Option α} {echoes : Prop} {late : Error → Prop} {m body : Cmd α}

/-- **What a program under a key promises**: once it has returned it is recorded, and answers
from then on; it is not deceived by other arguments; and where it raises it is not recorded,
the errors apart that are raised late, after the record. -/
structure Obeys (key : Option String) (name : String) (args : Json)
    (answer : Db → String → Option α) (echoes : Prop) (late : Error → Prop) (m : Cmd α) :
    Prop where
  again : ∀ {k w a w'}, key = some k → m.Returns w a w' →
    ∃ r, w'.db.getCommandIdempotency k name = some r ∧ r.args = args.sorted ∧
      (echoes → answer w'.db r.resultId = some a) ∧
      ∀ w₂, Grows (ledger w') (ledger w₂) →
        ∃ a₂, answer w₂.db r.resultId = some a₂ ∧ m.Returns w₂ a₂ w₂
  conflicts : ∀ {k w r}, key = some k → w.db.getCommandIdempotency k name = some r →
    r.args ≠ args.sorted → m.Raises w (keyReused k name) w
  raised : ∀ {w e w'}, m.Raises w e w' →
    late e ∨ keys w' = keys w ∧ (unreported w' = unreported w ∨ Expired e)

/-- **What a command does** that makes its checks before it looks at its key. -/
structure Lawful (key : Option String) (name : String) (args : Json) (checks : Cmd Unit)
    (answer : Db → String → Option α) (echoes : Prop) (late : Error → Prop) (m : Cmd α) :
    Prop where
  again : ∀ {k w a w'}, key = some k → m.Returns w a w' →
    ∃ r, w'.db.getCommandIdempotency k name = some r ∧ r.args = args.sorted ∧
      (echoes → answer w'.db r.resultId = some a) ∧
      ∀ w₂, Grows (ledger w') (ledger w₂) →
        ∃ a₂, answer w₂.db r.resultId = some a₂ ∧ m.Returns w₂ a₂ w₂
  conflicts : ∀ {k w r}, key = some k → w.db.getCommandIdempotency k name = some r →
    r.args ≠ args.sorted → m.Raises w (keyReused k name) w ∨
      ∃ e w', checks.Raises w e w' ∧ m.Raises w e w' ∧ unreported w' = unreported w
  raised : ∀ {w e w'}, m.Raises w e w' →
    late e ∨ keys w' = keys w ∧ (unreported w' = unreported w ∨ Expired e)

/-- A transaction under a key keeps its promise. -/
theorem Keyed.obeys {work : Cmd (α × String)} {again : String → Cmd α}
    (h : Keyed work again answer fun a a' => echoes → a' = a) :
    Obeys key name args answer echoes late (idempotent key name args work again) where
  again := by
    rintro k w a w' rfl hr
    obtain ⟨r, hrec, hargs, a', ha', hecho⟩ := h.stored hr
    refine ⟨r, hrec, hargs, fun he => ?_, fun w₂ hgrows => ?_⟩
    · rcases hecho with hecho | rfl
      · rw [ha', hecho he]
      · exact ha'
    · obtain ⟨a₂, ha₂⟩ := Option.isSome_iff_exists.mp
        (h.lasts hgrows (Option.isSome_of_eq_some ha'))
      exact ⟨a₂, ha₂, h.replay (hgrows.getCommandIdempotency hrec) hargs ha₂⟩
  conflicts := by
    rintro k w r rfl hrec hargs
    exact raises_keyReused hrec hargs
  raised hr := by
    have hdb := (raises_idempotent hr).1
    exact Or.inr ⟨congrArg (fun db : Db => db.log.commandIdempotency) hdb,
      Or.inl (OfDb.congr _ _ hdb)⟩

/-- **A command is lawful** if past its checks it is a program that keeps its promise, and
goes on to be the same one. -/
theorem lawful_of_checked (hm : Moves ledger Grows m)
    (hraise : ∀ {w e w'}, checks.Raises w e w' →
      m.Raises w e w' ∧ keys w' = keys w ∧ unreported w' = unreported w)
    (hpass : ∀ {w u w'}, checks.Returns w u w' → ∃ body,
      Obeys key name args answer echoes late body ∧
        ∀ w₂, Grows (ledger w) (ledger w₂) → m w₂ = body w₂) :
    Lawful key name args checks answer echoes late m where
  again {k w a w'} hkey hr := by
    rcases returns_or_raises checks w with ⟨u, w₁, hc⟩ | ⟨e, w₁, hc⟩
    · obtain ⟨body, hbody, hsame⟩ := hpass hc
      have hbr : body.Returns w a w' := (hsame w (Grows.refl _)).symm.trans hr
      obtain ⟨r, hrec, hargs, hecho, hlater⟩ := hbody.again hkey hbr
      refine ⟨r, hrec, hargs, hecho, fun w₂ hgrows => ?_⟩
      obtain ⟨a₂, ha₂, hr₂⟩ := hlater w₂ hgrows
      have hw : Grows (ledger w) (ledger w') := Moves.of_returns (h := hm) hr
      exact ⟨a₂, ha₂, (hsame w₂ (IsTrans.trans _ _ _ hw hgrows)).trans hr₂⟩
    · have := (show m w = _ from (hraise hc).1).symm.trans hr
      cases this
  conflicts {k w r} hkey hrec hargs := by
    rcases returns_or_raises checks w with ⟨u, w₁, hc⟩ | ⟨e, w₁, hc⟩
    · obtain ⟨body, hbody, hsame⟩ := hpass hc
      exact Or.inl ((hsame w (Grows.refl _)).trans (hbody.conflicts hkey hrec hargs))
    · obtain ⟨hraised, -, hquiet⟩ := hraise hc
      exact Or.inr ⟨e, w₁, hc, hraised, hquiet⟩
  raised {w e w'} hr := by
    rcases returns_or_raises checks w with ⟨u, w₁, hc⟩ | ⟨e₁, w₁, hc⟩
    · obtain ⟨body, hbody, hsame⟩ := hpass hc
      exact hbody.raised ((hsame w (Grows.refl _)).symm.trans hr)
    · obtain ⟨hraised, hkeys, hquiet⟩ := hraise hc
      obtain ⟨-, rfl⟩ := Prod.mk.inj (hraised.symm.trans hr)
      exact Or.inr ⟨hkeys, Or.inl hquiet⟩

/-- A check that does not look at the world. -/
def Fixed (check : Cmd Unit) : Prop := ∃ r, ∀ w, check w = (r, w)

theorem fixed_require {c : Prop} [Decidable c] {e : Error} : Fixed (require c e) := by
  by_cases hc : c
  · exact ⟨.ok (), fun w => if_pos hc⟩
  · exact ⟨.error e, fun w => if_neg hc⟩

theorem Fixed.bind {check : Cmd Unit} {rest : Unit → Cmd Unit} (h : Fixed check)
    (hrest : ∀ u, Fixed (rest u)) : Fixed (check >>= rest) := by
  obtain ⟨_ | u, hr⟩ := h
  · exact ⟨_, fun w => by simp only [Bind.bind, hr w]; rfl⟩
  · obtain ⟨r', hr'⟩ := hrest u
    exact ⟨r', fun w => by simp only [Bind.bind, hr w, hr' w]⟩

/-- A command is lawful that makes such a check and then keeps its promise. -/
theorem lawful_of_fixed (hm : Moves ledger Grows m) (hcall : m = checks >>= fun _ => body)
    (hfixed : Fixed checks) (hbody : Obeys key name args answer echoes late body) :
    Lawful key name args checks answer echoes late m := by
  subst hcall
  obtain ⟨res, hres⟩ := hfixed
  refine lawful_of_checked hm (fun {w e w'} hc => ?_)
    fun {w u w'} hc => ⟨body, hbody, fun w₂ _ => ?_⟩
  · obtain ⟨-, rfl⟩ := Prod.mk.inj ((hres w).symm.trans hc)
    exact ⟨raises_bind.mpr (Or.inl hc), rfl, rfl⟩
  · obtain ⟨hok, -⟩ := Prod.mk.inj ((hres w).symm.trans hc)
    have hw₂ : checks w₂ = (.ok u, w₂) := (hres w₂).trans (by rw [hok])
    simp only [Bind.bind, hw₂]

/-- A command is lawful whose checks find something that is found again, and that decides
again in the same way. -/
theorem lawful_of_found {β : Type} {p : Cmd β} {q : β → Cmd Unit} {rest : β → Cmd α}
    (hm : Moves ledger Grows m) (hcall : m = p >>= fun b => q b >>= fun _ => rest b)
    (hchecks : checks = p >>= q) (hkeys : Moves keys Eq checks)
    (hquiet : Moves unreported Eq checks)
    (hrest : ∀ b, Obeys key name args answer echoes late (rest b))
    (hlast : ∀ {w b w₁ u w'}, p.Returns w b w₁ → (q b).Returns w₁ u w' →
      ∀ w₂, Grows (ledger w) (ledger w₂) → ∃ b₂, p.Returns w₂ b₂ w₂ ∧ (q b₂).Returns w₂ () w₂ ∧
        rest b₂ = rest b) :
    Lawful key name args checks answer echoes late m := by
  refine lawful_of_checked hm (fun {w e w'} hc => ?_) fun {w u w'} hc => ?_
  · refine ⟨?_, (Moves.of_raises (h := hkeys) hc).symm, (Moves.of_raises (h := hquiet) hc).symm⟩
    subst hcall hchecks
    rcases raises_bind.mp hc with hc | ⟨b, w₁, hb, hc⟩
    · exact raises_bind.mpr (Or.inl hc)
    · exact raises_bind.mpr (Or.inr ⟨b, w₁, hb, raises_bind.mpr (Or.inl hc)⟩)
  · subst hcall hchecks
    obtain ⟨b, w₁, hb, hc⟩ := returns_bind.mp hc
    refine ⟨rest b, hrest b, fun w₂ hgrows => ?_⟩
    obtain ⟨b₂, hb₂, hq₂, hsame⟩ := hlast hb hc w₂ hgrows
    simp only [Bind.bind, show p w₂ = _ from hb₂, show q b₂ w₂ = _ from hq₂, hsame]

end Law

variable {source : String}

theorem fixed_checkSource : Fixed (checkSource source) := fixed_require

theorem fixed_requireOwner : Fixed (requireOwner source) :=
  fixed_checkSource.bind fun _ => fixed_require

theorem fixed_requireController : Fixed (requireController source) :=
  fixed_checkSource.bind fun _ => fixed_require

/-! ### Work that leaves a row -/

section Rows

variable {α β : Type}

/-- A row that is found stays found, and is found without the records of the keys. -/
class Lasting (find : Db → String → Option α) : Prop where
  lasts : ∀ {id w w'}, Grows (ledger w) (ledger w') → (find w.db id).isSome = true →
    (find w'.db id).isSome = true
  apart : ∀ id, Tables.commandIdempotency.Apart fun w => find w.db id

instance : Lasting Db.getProject :=
  ⟨fun h => isSome_of_prefix h.projects, fun _ => ⟨fun _ _ => rfl⟩⟩

instance : Lasting Db.getTask where
  lasts h hw := by
    obtain ⟨t, ht⟩ := Option.isSome_iff_exists.mp hw
    obtain ⟨t', ht', -⟩ := h.getTask ht
    exact Option.isSome_of_eq_some ht'
  apart _ := ⟨fun _ _ => rfl⟩

instance : Lasting Db.getRoleRun :=
  ⟨fun h => isSome_of_prefix h.roleRuns, fun _ => ⟨fun _ _ => rfl⟩⟩

instance : Lasting Db.getTaskRun :=
  ⟨fun h => isSome_of_prefix h.taskRuns, fun _ => ⟨fun _ _ => rfl⟩⟩

instance : Lasting Db.getFinding :=
  ⟨fun h => isSome_of_prefix h.findings, fun _ => ⟨fun _ _ => rfl⟩⟩

instance : Lasting Db.getTestRun :=
  ⟨fun h => isSome_of_prefix h.testRuns, fun _ => ⟨fun _ _ => rfl⟩⟩

instance : Lasting Db.getReview :=
  ⟨fun h => isSome_of_prefix h.reviews, fun _ => ⟨fun _ _ => rfl⟩⟩

instance : Lasting Db.getDecision :=
  ⟨fun h => isSome_of_prefix h.decisions, fun _ => ⟨fun _ _ => rfl⟩⟩

instance : Lasting Db.getDispatch :=
  ⟨fun h => isSome_of_prefix h.dispatches, fun _ => ⟨fun _ _ => rfl⟩⟩

instance : Lasting Db.getActionExecution :=
  ⟨fun h => isSome_of_prefix h.executions, fun _ => ⟨fun _ _ => rfl⟩⟩

variable {find : Db → String → Option α} {work rest : Cmd (Option α × String)} {m ins : Cmd β}
  {f : β → Cmd (Option α × String)} {row : α} {id : String} {w w' : World} {x : Option α × String}

/-- Work that leaves the row it returns, where its result names it. -/
def LeavesRow (find : Db → String → Option α) (work : Cmd (Option α × String)) : Prop :=
  ∀ {w x w'}, work.Returns w x w' → find w'.db x.2 = x.1 ∧ x.1.isSome = true

theorem LeavesRow.bind (h : ∀ b, LeavesRow find (f b)) : LeavesRow find (m >>= f) := by
  intro w x w' hr
  obtain ⟨b, w₁, -, hf⟩ := returns_bind.mp hr
  exact h b hf

/-- A transaction whose work leaves a row and whose refetch finds it. -/
theorem keyed_refetch [hfind : Lasting find] (hwork : LeavesRow find work)
    (hkeys : Moves keys Eq work) :
    Keyed work (refetch find) (named find) fun a a' => True → a' = a where
  refetches id w a w' := by
    simp only [refetch, named, returns_bind, returns_read, returns_require, returns_pure,
      Option.map_eq_some_iff, Option.isSome_iff_exists]
    constructor
    · rintro ⟨_, _, ⟨rfl, rfl⟩, _, _, ⟨⟨row, hrow⟩, rfl⟩, rfl, rfl⟩
      exact ⟨⟨row, hrow, hrow.symm⟩, rfl⟩
    · rintro ⟨⟨row, hrow, rfl⟩, rfl⟩
      exact ⟨_, w, ⟨rfl, rfl⟩, (), w, ⟨⟨row, hrow⟩, rfl⟩, hrow, rfl⟩
  apart id := ⟨fun t w => congrArg (Option.map some) ((hfind.apart id).apart t w)⟩
  lasts hgrows h := by
    simp only [named, Option.isSome_map] at h ⊢
    exact hfind.lasts hgrows h
  sound hr := by
    obtain ⟨hrow, hsome⟩ := hwork hr
    obtain ⟨row, rfl⟩ := Option.isSome_iff_exists.mp hsome
    exact ⟨some row, by rw [named, hrow, Option.map_some], fun _ => rfl⟩
  frame := hkeys

theorem found_of_insert {ρ : Type} {clash : ρ → ρ → Bool} {R : Relvar World ρ clash} {e : Error}
    {row : ρ} {u : Unit} {find : Db → String → Option ρ} (key : ρ → Uuid)
    (hfind : ∀ t w id, find (R.set t w).db id = t.lookup (fun r => (key r).text) id)
    (hkey : ∀ a, key a = key row → clash a row = true) (h : (R.insert e row).Returns w u w') :
    find w'.db (key row).text = some row := by
  obtain ⟨t', ht', rfl⟩ := Relvar.returns_insert.mp h
  rw [hfind]
  exact Table.lookup_of_insert? (fun a ha => hkey a (Uuid.text_injective ha)) ht'

/-- Work that returns nothing but the given result. -/
def Ends (x : Option α × String) (m : Cmd (Option α × String)) : Prop :=
  ∀ {w y w'}, m.Returns w y w' → y = x

theorem ends_pure : Ends x (pure x) :=
  fun h => (returns_pure.mp h).1.symm

theorem Ends.bind (h : ∀ b, Ends x (f b)) : Ends x (m >>= f) := by
  intro w y w' hr
  obtain ⟨b, w₁, -, hf⟩ := returns_bind.mp hr
  exact h b hf

theorem leavesRow_of_insert (hins : ∀ {w b w'}, ins.Returns w b w' → find w'.db id = some row)
    (hrest : Moves (fun w => find w.db id) Eq rest) (hends : Ends (some row, id) rest) :
    LeavesRow find (ins >>= fun _ => rest) := by
  intro w x w' hr
  obtain ⟨b, w₁, hb, hrest'⟩ := returns_bind.mp hr
  obtain rfl := hends hrest'
  exact ⟨(Moves.frame (fun w => find w.db id) hrest').trans (hins hb), rfl⟩

/-- Work that ends with reading the row again. -/
def Rereads (find : Db → String → Option α) (id : String) (m : Cmd (Option α × String)) : Prop :=
  ∀ {w x w'}, m.Returns w x w' → x = (find w'.db id, id)

theorem rereads_last : Rereads find id (do
    let o ← read fun w => find w.db id
    pure (o, id)) := by
  intro w x w' hr
  obtain ⟨o, w₁, ho, hx⟩ := returns_bind.mp hr
  obtain ⟨rfl, rfl⟩ := returns_read.mp ho
  obtain ⟨rfl, rfl⟩ := returns_pure.mp hx
  rfl

theorem Rereads.bind (h : ∀ b, Rereads find id (f b)) : Rereads find id (m >>= f) := by
  intro w x w' hr
  obtain ⟨b, w₁, -, hf⟩ := returns_bind.mp hr
  exact h b hf

theorem Rereads.leaves [hfind : Lasting find] (h : Rereads find id rest)
    (hgrows : Moves ledger Grows rest) (hw : (find w.db id).isSome)
    (hr : rest.Returns w x w') :
    find w'.db x.2 = x.1 ∧ x.1.isSome := by
  obtain rfl := h hr
  exact ⟨rfl, hfind.lasts (Moves.of_returns (h := hgrows) hr) hw⟩

theorem leavesRow_of_reread [Lasting find]
    (hm : ∀ {w b w'}, m.Returns w b w' → (find w'.db id).isSome)
    (hgrows : ∀ b, Moves ledger Grows (f b)) (hends : ∀ b, Rereads find id (f b)) :
    LeavesRow find (m >>= f) := by
  intro w x w' hr
  obtain ⟨b, w₁, hb, hf⟩ := returns_bind.mp hr
  exact Rereads.leaves (hends b) (hgrows b) (hm hb) hf

theorem isSome_of_theTask {b : Task} (h : (theTask id).Returns w b w') :
    (w'.db.getTask id).isSome := by
  obtain ⟨ht, rfl⟩ := returns_theTask.mp h
  exact Option.isSome_of_eq_some ht

theorem isSome_of_theRoleRun {b : RoleRun} (h : (theRoleRun id).Returns w b w') :
    (w'.db.getRoleRun id).isSome := by
  simp only [theRoleRun, returns_bind, returns_read, returns_orRaise] at h
  obtain ⟨_, _, ⟨rfl, rfl⟩, hr, rfl⟩ := h
  exact Option.isSome_of_eq_some hr

theorem isSome_of_theTaskRun {b : TaskRun} (h : (theTaskRun id).Returns w b w') :
    (w'.db.getTaskRun id).isSome := by
  simp only [theTaskRun, returns_bind, returns_read, returns_orRaise] at h
  obtain ⟨_, _, ⟨rfl, rfl⟩, hr, rfl⟩ := h
  exact Option.isSome_of_eq_some hr

theorem isSome_of_theDispatch {b : AgentDispatch} (h : (theDispatch id).Returns w b w') :
    (w'.db.getDispatch id).isSome := by
  obtain ⟨hd, rfl⟩ := returns_theDispatch.mp h
  exact Option.isSome_of_eq_some hd

end Rows

end Core

end ArgentTeam
