import Mathlib.Data.List.Perm.Subperm
import Mathlib.Data.List.Range
import ArgentTeam.Lib.Runs
import ArgentTeam.Notifications.Delivery

/-!
# Claims that fence

A row of the outbox is claimed at most five times, and sent at most once for a claim; once it is
settled it is never written again. Beyond that a claim is to fence its row: until its lease expires
nobody else closes it, and a worker whose claim was superseded writes nothing. That rests on the
row that is read back: as long as a worker finds no other's claim there, the token it closes the
row by is the one it has drawn (`Own`). Where another worker has claimed the row in between, it
takes over that one's token, and closes the row in its place.
-/

namespace ArgentTeam

open Store

namespace Notifications

variable {d : Delivery} {s : System} {e : Event} {r r' : OutboxRow} {t : Outbox} {w : ℕ}
  {p : OutboxRow → Bool} {f : OutboxRow → OutboxRow} {now later : Time} {s' : System}

/-! ### Statements -/

def Keyed (f : OutboxRow → OutboxRow) : Prop := ∀ r, (f r).id = r.id ∧ (f r).dedupKey = r.dedupKey

theorem keyed_claim {token : String} {now : Time} : Keyed (OutboxRow.claim token now) :=
  fun _ => ⟨rfl, rfl⟩

theorem keyed_discard {now : Time} {code : String} : Keyed (OutboxRow.discard now code) :=
  fun _ => ⟨rfl, rfl⟩

theorem keyed_finalize {row : OutboxRow} {receipt : TransportReceipt} :
    Keyed (finalize row now later receipt) := by
  intro r
  unfold finalize
  split_ifs <;> exact ⟨rfl, rfl⟩

theorem patch_id (hf : Keyed f) :
    (Table.patch p f r).id = r.id := by
  unfold Table.patch
  split
  · exact (hf r).1
  · rfl

/-- A statement that keeps the keys goes through. -/
theorem mem_rewrite (hf : Keyed f) :
    r' ∈ (rewrite t p f).rows ↔ ∃ r ∈ t.rows, Table.patch p f r = r' := by
  obtain ⟨t', ht⟩ := Table.exists_update? t (p := p) (f := f) fun a _ b _ hab => by
    have hkeys : ∀ r, (Table.patch p f r).dedupKey = r.dedupKey := by
      intro r
      unfold Table.patch
      split
      · exact (hf r).2
      · rfl
    simpa only [OutboxRow.clash, patch_id hf, hkeys] using hab
  rw [rewrite, ht, Option.getD_some]
  exact Table.mem_of_update? ht

theorem mem_rewrite_of_not (hf : Keyed f)
    (hr : r ∈ t.rows) (hp : p r = false) : r ∈ (rewrite t p f).rows :=
  (mem_rewrite hf).mpr ⟨r, hr, Table.patch_neg hp⟩

theorem eq_of_id (hr : r ∈ t.rows) (hr' : r' ∈ t.rows) (hid : r.id = r'.id) : r = r' :=
  Table.eq_of_clash (fun a b => by simp [OutboxRow.clash, eq_comm]) hr hr'
    (by simp [OutboxRow.clash, hid])

theorem mem_of_oldest {rows : List OutboxRow} (h : oldest rows = some r) : r ∈ rows := by
  induction rows generalizing r with
  | nil => cases h
  | cons a rows ih =>
    rw [oldest] at h
    split at h
    · exact List.mem_cons.mpr (.inl (Option.some.inj h).symm)
    · rename_i b hb
      split at h
      · exact Option.some.inj h ▸ List.mem_cons_of_mem a (ih hb)
      · exact List.mem_cons.mpr (.inl (Option.some.inj h).symm)

/-! ### What is asked of a step -/

/-- The claim a worker is at, and its row. -/
def Pass.place : Pass → Option (ℕ × String)
  | idle => none
  | claimed claim id _ => some (claim, id)
  | holds claim row _ | discarding claim row _ _ | finishing claim row _ _ => some (claim, row.id)

/-- The worker has not sent yet. -/
def Pass.unsent : Pass → Bool
  | claimed .. | holds .. => true
  | _ => false

/-- The row the worker has read back. -/
def Pass.row : Pass → Option OutboxRow
  | holds _ row _ | discarding _ row _ _ | finishing _ row _ _ => some row
  | _ => none

/-- Whose step it is. -/
def Event.worker : Event → Option ℕ
  | enqueue .. => none
  | claim w _ _ | reread w | send w _ | finish w _ | stop w => some w

/-- The step claims, and finds the lease of the row expired. -/
def Event.expires (r : OutboxRow) : Event → Bool
  | claim _ _ later => r.claimedAt.any fun t => t + claimLease ≤ later
  | _ => false

/-- What is asked of a step. -/
structure Lawful (d : Delivery) (s : System) (e : Event) : Prop where
  settled : ∀ r ∈ s.outbox.rows, r.status.settled = true → r ∈ (step d s e).outbox.rows
  /-- A row that is being sent is written where its lease has expired, by a claim, or by the worker
  of its latest claim. -/
  fenced : ∀ r ∈ s.outbox.rows, r.status = .sending → r ∈ (step d s e).outbox.rows ∨
    e.expires r = true ∨ ∃ w c, e.worker = some w ∧ (s.pass w).place = some (c, r.id) ∧
      s.latest r.id = some c
  superseded : ∀ w c id, e.worker = some w → (s.pass w).place = some (c, id) →
    s.latest id ≠ some c → (step d s e).outbox = s.outbox

/-- The row that is read back is not being sent under another claim. -/
def Undisturbed (s : System) : Event → Prop
  | .reread w => ∀ c id now, s.pass w = .claimed c id now → ∀ r ∈ s.outbox.rows, r.id = id →
    r.status = .sending → s.latest id = some c
  | _ => True

/-- How often a row was sent. -/
def System.sendsOf (s : System) (id : String) : ℕ := s.sends.countP fun c => s.claims[c]? = some id

def run (d : Delivery) : List Event → System := Runs.run (step d) initial

/-! ### What holds in every state -/

/-- The counts of the claims, and the tokens they hold their rows by. -/
structure Counted (d : Delivery) (s : System) : Prop where
  count : ∀ r ∈ s.outbox.rows, r.attemptCount = s.claims.count r.id
  ceiling : ∀ r ∈ s.outbox.rows, r.attemptCount ≤ maxAttempts
  held : ∀ r ∈ s.outbox.rows, r.status = .sending →
    ∃ c, s.latest r.id = some c ∧ r.claimToken = some (d.token c)
  free : ∀ r ∈ s.outbox.rows, r.status ≠ .sending → r.claimToken = none
  claimed : ∀ id ∈ s.claims, ∃ r ∈ s.outbox.rows, r.id = id

/-- A claim is at one worker, and is sent once. -/
structure Sole (s : System) : Prop where
  place : ∀ w c id, (s.pass w).place = some (c, id) → s.claims[c]? = some id
  alone : ∀ w w' c id id', (s.pass w).place = some (c, id) → (s.pass w').place = some (c, id') →
    w = w'
  unsent : ∀ w c id, (s.pass w).place = some (c, id) → (s.pass w).unsent = true → c ∉ s.sends
  sent : ∀ c ∈ s.sends, c < s.claims.length
  once : s.sends.Nodup

/-- A worker holds the token it has drawn, or none. -/
def Own (d : Delivery) (s : System) : Prop :=
  ∀ w c id row, (s.pass w).place = some (c, id) → (s.pass w).row = some row →
    ∀ token, row.claimToken = some token → token = d.token c

/-! #### Counts -/

/-- The places at which a value stands in a list, each taken once, are no more than it is there. -/
theorem countP_le_count {α : Type} [DecidableEq α] (l : List α) (a : α) {places : List ℕ}
    (hnodup : places.Nodup) : places.countP (fun n => l[n]? = some a) ≤ l.count a := by
  have hrange : (List.range l.length).countP (fun n => l[n]? = some a) = l.count a := by
    induction l with
    | nil => rfl
    | cons b l ih =>
      rw [List.length_cons, List.range_succ_eq_map, List.countP_cons, List.countP_map,
        List.count_cons, ← ih]
      simp [Function.comp_def]
  rw [← hrange, List.countP_eq_length_filter, List.countP_eq_length_filter]
  refine (List.Nodup.subperm (hnodup.filter _) fun n hn => ?_).length_le
  obtain ⟨-, hget⟩ := List.mem_filter.mp hn
  refine List.mem_filter.mpr ⟨List.mem_range.mpr ?_, hget⟩
  exact (List.getElem?_eq_some_iff.mp (by simpa using hget)).1

/-- **A row is sent at most so many times.** -/
theorem sendsOf_le (hcounted : Counted d s) (hsole : Sole s) (id : String) :
    s.sendsOf id ≤ maxAttempts := by
  refine (countP_le_count s.claims id hsole.once).trans ?_
  by_cases hid : id ∈ s.claims
  · obtain ⟨r, hr, rfl⟩ := hcounted.claimed id hid
    rw [← hcounted.count r hr]
    exact hcounted.ceiling r hr
  · rw [List.count_eq_zero_of_not_mem hid]
    exact Nat.zero_le _

/-! #### The steps that close a row -/

/-- The row is no longer being sent, and holds no token. -/
def Closes (f : OutboxRow → OutboxRow) : Prop :=
  ∀ r, (f r).attemptCount = r.attemptCount ∧ (f r).status ≠ .sending ∧ (f r).claimToken = none

theorem closes_discard {now : Time} {code : String} : Closes (OutboxRow.discard now code) :=
  fun _ => ⟨rfl, by simp [OutboxRow.discard], rfl⟩

theorem closes_finalize {row : OutboxRow} {receipt : TransportReceipt} :
    Closes (finalize row now later receipt) := by
  intro r
  unfold finalize
  split_ifs <;> exact ⟨rfl, by simp [OutboxRow.discard, OutboxRow.complete, OutboxRow.fail], rfl⟩

theorem Counted.close
    (h : Counted d s) (hkeyed : Keyed f) (hcloses : Closes f)
    (houtbox : s'.outbox = rewrite s.outbox p f) (hclaims : s'.claims = s.claims)
    (hlatest : s'.latest = s.latest) : Counted d s' := by
  have hmem : ∀ r', r' ∈ s'.outbox.rows → ∃ r ∈ s.outbox.rows, r'.id = r.id ∧
      r'.attemptCount = r.attemptCount ∧ (r' = r ∨ r'.status ≠ .sending ∧
        r'.claimToken = none) := by
    intro r' hr'
    rw [houtbox] at hr'
    obtain ⟨r, hr, rfl⟩ := (mem_rewrite hkeyed).mp hr'
    refine ⟨r, hr, patch_id hkeyed, ?_⟩
    unfold Table.patch
    split
    · exact ⟨(hcloses r).1, .inr (hcloses r).2⟩
    · exact ⟨rfl, .inl rfl⟩
  refine ⟨fun r' hr' => ?_, fun r' hr' => ?_, fun r' hr' hsending => ?_, fun r' hr' hfree => ?_,
    fun id hid => ?_⟩
  · obtain ⟨r, hr, hid, hcount, -⟩ := hmem r' hr'
    rw [hcount, hclaims, hid]
    exact h.count r hr
  · obtain ⟨r, hr, -, hcount, -⟩ := hmem r' hr'
    exact hcount ▸ h.ceiling r hr
  · obtain ⟨r, hr, -, -, rfl | ⟨hne, -⟩⟩ := hmem r' hr'
    · rw [hlatest]
      exact h.held r' hr hsending
    · exact absurd hsending hne
  · obtain ⟨r, hr, -, -, rfl | ⟨-, hnone⟩⟩ := hmem r' hr'
    · exact h.free r' hr hfree
    · exact hnone
  · rw [hclaims] at hid
    obtain ⟨r, hr, rfl⟩ := h.claimed id hid
    refine ⟨Table.patch p f r, ?_, patch_id hkeyed⟩
    rw [houtbox]
    exact (mem_rewrite hkeyed).mpr ⟨r, hr, rfl⟩

/-! #### The step that claims -/

/-- What a claim does: nothing, as nothing is due; it discards a row that was claimed too often;
or it claims a row that is due. -/
theorem claimStep_cases (d : Delivery) (s : System) (w : ℕ) (now later : Time) :
    claimStep d s w now later = s ∨
      (∃ r ∈ s.outbox.rows, r.due now later ∧ claimStep d s w now later =
        { s with outbox := rewrite s.outbox (fun a => a.id = r.id && a.isOpen)
                   (OutboxRow.discard now "ATTEMPTS_EXHAUSTED") }) ∨
      ∃ r ∈ s.outbox.rows, r.due now later = true ∧ r.attemptCount < maxAttempts ∧
        claimStep d s w now later =
        { s with outbox := rewrite s.outbox
                   (fun a => a.id = r.id && a.isOpen && a.attemptCount < maxAttempts)
                   (OutboxRow.claim (d.token s.claims.length) now)
                 pass := Function.update s.pass w (.claimed s.claims.length r.id now)
                 claims := s.claims ++ [r.id]
                 latest := Function.update s.latest r.id (some s.claims.length) } := by
  unfold claimStep
  split
  · exact .inl rfl
  · rename_i r hr
    obtain ⟨hmem, hdue⟩ := List.mem_filter.mp (mem_of_oldest hr)
    split
    · exact .inr (.inl ⟨r, hmem, hdue, rfl⟩)
    · rename_i hlt
      exact .inr (.inr ⟨r, hmem, hdue, not_le.mp hlt, rfl⟩)

theorem isOpen_of_due (h : r.due now later) : r.isOpen := by
  simp only [OutboxRow.due, OutboxRow.isOpen, Bool.or_eq_true, Bool.and_eq_true,
    decide_eq_true_eq] at h ⊢
  tauto

/-- One row is claimed, and the others stay. -/
theorem mem_claimed (r' : OutboxRow) (token : String) (hr : r ∈ t.rows)
    (hdue : r.due now later) (hlt : r.attemptCount < maxAttempts) :
    r' ∈ (rewrite t (fun a => a.id = r.id && a.isOpen && a.attemptCount < maxAttempts)
      (OutboxRow.claim token now)).rows ↔ r' = r.claim token now ∨ r' ∈ t.rows ∧ r'.id ≠ r.id := by
  have hsel : (fun a : OutboxRow => a.id = r.id && a.isOpen && a.attemptCount < maxAttempts) r =
      true := by simp [isOpen_of_due hdue, hlt]
  rw [mem_rewrite keyed_claim]
  constructor
  · rintro ⟨a, ha, rfl⟩
    by_cases hid : a.id = r.id
    · obtain rfl := eq_of_id ha hr hid
      exact .inl (Table.patch_pos hsel)
    · rw [Table.patch_neg (by simp [hid])]
      exact .inr ⟨ha, hid⟩
  · rintro (rfl | ⟨ha, hid⟩)
    · exact ⟨r, hr, Table.patch_pos hsel⟩
    · exact ⟨r', ha, Table.patch_neg (by simp [hid])⟩

theorem Counted.claim (h : Counted d s) :
    Counted d (claimStep d s w now later) := by
  rcases claimStep_cases d s w now later with heq | ⟨r, hr, hdue, heq⟩ | ⟨r, hr, hdue, hlt, heq⟩
  · rw [heq]
    exact h
  · rw [heq]
    exact h.close keyed_discard closes_discard rfl rfl rfl
  · rw [heq]
    have hmem := fun r' => mem_claimed r' (d.token s.claims.length) hr hdue hlt
    refine ⟨fun r' hr' => ?_, fun r' hr' => ?_, fun r' hr' hsending => ?_, fun r' hr' hfree => ?_,
      fun id hid => ?_⟩
    · rcases (hmem r').mp hr' with rfl | ⟨hr', hid⟩
      · simp [OutboxRow.claim, List.count_append, h.count r hr]
      · simp [List.count_append, h.count r' hr', Ne.symm hid]
    · rcases (hmem r').mp hr' with rfl | ⟨hr', hid⟩
      · exact hlt
      · exact h.ceiling r' hr'
    · rcases (hmem r').mp hr' with rfl | ⟨hr', hid⟩
      · exact ⟨_, Function.update_self .., rfl⟩
      · obtain ⟨c, hlatest, htoken⟩ := h.held r' hr' hsending
        exact ⟨c, (Function.update_of_ne hid ..).trans hlatest, htoken⟩
    · rcases (hmem r').mp hr' with rfl | ⟨hr', hid⟩
      · exact absurd rfl hfree
      · exact h.free r' hr' hfree
    · rcases List.mem_append.mp hid with hold | hnew
      · obtain ⟨a, ha, rfl⟩ := h.claimed id hold
        by_cases hsame : a.id = r.id
        · exact ⟨_, (hmem _).mpr (.inl rfl), hsame.symm⟩
        · exact ⟨a, (hmem a).mpr (.inr ⟨ha, hsame⟩), rfl⟩
      · exact ⟨_, (hmem _).mpr (.inl rfl), (List.mem_singleton.mp hnew).symm⟩

/-! #### The steps of a worker -/

/-- A worker goes on with its claim, or lets go of it. -/
structure Moves (s s' : System) (w : ℕ) (p : Pass) : Prop where
  claims : s'.claims = s.claims
  latest : s'.latest = s.latest
  pass : s'.pass = Function.update s.pass w p
  place : p.place = none ∨ p.place = (s.pass w).place
  unsent : p.unsent = true → (s.pass w).unsent = true
  sends : s'.sends = s.sends ∨ ∃ c id, (s.pass w).place = some (c, id) ∧
    (s.pass w).unsent = true ∧ p.unsent = false ∧ s'.sends = s.sends ++ [c]

theorem Sole.move {p : Pass} (h : Sole s) (hmoves : Moves s s' w p) : Sole s' := by
  have hplace : ∀ v c id, (s'.pass v).place = some (c, id) → (s.pass v).place = some (c, id) := by
    intro v c id hv
    rw [hmoves.pass] at hv
    by_cases hsame : v = w
    · subst hsame
      rw [Function.update_self] at hv
      rcases hmoves.place with hnone | hkept
      · rw [hnone] at hv
        cases hv
      · exact hkept ▸ hv
    · rwa [Function.update_of_ne hsame] at hv
  have hunsent : ∀ v, (s'.pass v).unsent = true → (s.pass v).unsent = true := by
    intro v hv
    rw [hmoves.pass] at hv
    by_cases hsame : v = w
    · subst hsame
      rw [Function.update_self] at hv
      exact hmoves.unsent hv
    · rwa [Function.update_of_ne hsame] at hv
  refine ⟨fun v c id hv => ?_, fun v v' c id id' hv hv' => ?_, fun v c id hv hopen => ?_,
    fun c hc => ?_, ?_⟩
  · rw [hmoves.claims]
    exact h.place v c id (hplace v c id hv)
  · exact h.alone v v' c id id' (hplace v c id hv) (hplace v' c id' hv')
  · rcases hmoves.sends with hsame | ⟨c₁, id₁, hw, -, hsent, hsends⟩
    · rw [hsame]
      exact h.unsent v c id (hplace v c id hv) (hunsent v hopen)
    · rw [hsends, List.mem_append, List.mem_singleton, not_or]
      refine ⟨h.unsent v c id (hplace v c id hv) (hunsent v hopen), ?_⟩
      rintro rfl
      obtain rfl := h.alone v w c id id₁ (hplace v c id hv) hw
      rw [hmoves.pass, Function.update_self, hsent] at hopen
      cases hopen
  · rw [hmoves.claims]
    rcases hmoves.sends with hsame | ⟨c₁, id₁, hw, -, -, hsends⟩
    · exact h.sent c (hsame ▸ hc)
    · rw [hsends] at hc
      rcases List.mem_append.mp hc with hold | hnew
      · exact h.sent c hold
      · obtain rfl := List.mem_singleton.mp hnew
        exact (List.getElem?_eq_some_iff.mp (h.place w c id₁ hw)).1
  · rcases hmoves.sends with hsame | ⟨c₁, id₁, hw, hopen, -, hsends⟩
    · exact hsame ▸ h.once
    · rw [hsends]
      refine List.nodup_append.mpr ⟨h.once, List.nodup_singleton c₁, fun a ha b hb => ?_⟩
      obtain rfl := List.mem_singleton.mp hb
      rintro rfl
      exact h.unsent w _ id₁ hw hopen ha

theorem rereadStep_cases (s : System) (w : ℕ) : rereadStep s w = s ∨
    ∃ c id now p, s.pass w = .claimed c id now ∧ Moves s (rereadStep s w) w p ∧
      (rereadStep s w).outbox = s.outbox ∧
      ∀ row, p.row = some row → row ∈ s.outbox.rows ∧ row.id = id := by
  unfold rereadStep
  split
  next c id now hpass =>
    refine .inr ⟨c, id, now, _, hpass, ⟨rfl, rfl, rfl, ?_, ?_, .inl rfl⟩, rfl, ?_⟩
    · split
      next row hrow => exact .inr (by simp [hpass, Pass.place, (Table.mem_of_lookup hrow).2])
      next => exact .inl rfl
    · intro
      rw [hpass]
      rfl
    · intro row hp
      split at hp
      next row' hrow =>
        obtain rfl := Option.some.inj hp
        exact Table.mem_of_lookup hrow
      next => cases hp
  next => exact .inl rfl

theorem next_facts (c : ℕ) (row : OutboxRow) (now : Time) (answer : Answer) :
    (answer.next c row now).place = some (c, row.id) ∧
      (answer.next c row now).unsent = false ∧ (answer.next c row now).row = some row := by
  cases answer <;> exact ⟨rfl, rfl, rfl⟩

/-- A row that is sent, or cannot be. -/
theorem sendStep_cases (d : Delivery) (s : System) (w : ℕ) (answer : Answer) :
    sendStep d s w answer = s ∨
    ∃ p, Moves s (sendStep d s w answer) w p ∧ (sendStep d s w answer).outbox = s.outbox ∧
      (p.row = none ∨ p.row = (s.pass w).row) := by
  unfold sendStep
  split
  next c row now hpass =>
    refine .inr ?_
    split_ifs
    · exact ⟨_, ⟨rfl, rfl, rfl, .inr (by rw [hpass]; rfl), (fun h => by cases h), .inl rfl⟩, rfl,
        .inr (by rw [hpass]; rfl)⟩
    · exact ⟨_, ⟨rfl, rfl, rfl, .inl rfl, (fun h => by cases h), .inl rfl⟩, rfl, .inl rfl⟩
    all_goals
      obtain ⟨hplace, hunsent, hrow⟩ := next_facts c row now answer
      have hkept : (answer.next c row now).place = (s.pass w).place := by rw [hplace, hpass]; rfl
      have hsent : (answer.next c row now).unsent = true → (s.pass w).unsent = true := by
        rw [hunsent]
        exact fun h => by cases h
      have hheld : (answer.next c row now).row = (s.pass w).row := by rw [hrow, hpass]; rfl
    · exact ⟨_, ⟨rfl, rfl, rfl, .inr hkept, hsent,
        .inr ⟨c, row.id, by rw [hpass]; rfl, by rw [hpass]; rfl, hunsent, rfl⟩⟩, rfl, .inr hheld⟩
    · exact ⟨_, ⟨rfl, rfl, rfl, .inr hkept, hsent, .inl rfl⟩, rfl, .inr hheld⟩
  next => exact .inl rfl

/-- A row that is closed. -/
theorem finishStep_cases (s : System) (w : ℕ) (later : Time) : finishStep s w later = s ∨
    ∃ c row f, (s.pass w).place = some (c, row.id) ∧ (s.pass w).row = some row ∧ Keyed f ∧
      Closes f ∧ Moves s (finishStep s w later) w .idle ∧
      (finishStep s w later).outbox =
        rewrite s.outbox (OutboxRow.heldUnder row.id row.claimToken) f := by
  unfold finishStep
  split
  next c row now code hpass =>
    exact .inr ⟨c, row, _, by rw [hpass]; rfl, by rw [hpass]; rfl, keyed_discard, closes_discard,
      ⟨rfl, rfl, rfl, .inl rfl, (fun h => by cases h), .inl rfl⟩, rfl⟩
  next c row now receipt hpass =>
    exact .inr ⟨c, row, _, by rw [hpass]; rfl, by rw [hpass]; rfl, keyed_finalize, closes_finalize,
      ⟨rfl, rfl, rfl, .inl rfl, (fun h => by cases h), .inl rfl⟩, rfl⟩
  next => exact .inl rfl

/-! #### Every step -/

theorem moves_stop : Moves s { s with pass := Function.update s.pass w .idle } w .idle :=
  ⟨rfl, rfl, rfl, .inl rfl, (fun h => by cases h), .inl rfl⟩

theorem Counted.congr (h : Counted d s) (houtbox : s'.outbox = s.outbox)
    (hclaims : s'.claims = s.claims) (hlatest : s'.latest = s.latest) : Counted d s' := by
  refine ⟨?_, ?_, ?_, ?_, ?_⟩
  · rw [houtbox, hclaims]
    exact h.count
  · rw [houtbox]
    exact h.ceiling
  · rw [houtbox, hlatest]
    exact h.held
  · rw [houtbox]
    exact h.free
  · rw [houtbox, hclaims]
    exact h.claimed

theorem Counted.enqueue {a : OutboxRow} (h : Counted d s) (hpending : a.status = .pending)
    (hcount : a.attemptCount = 0) (hfree : a.claimToken = none) :
    Counted d { s with outbox := (s.outbox.insert? a).getD s.outbox } := by
  cases ht : s.outbox.insert? a with
  | none => exact h.congr rfl rfl rfl
  | some t =>
    have hmem := fun r => Table.mem_of_insert? (s := r) ht
    refine ⟨fun r hr => ?_, fun r hr => ?_, fun r hr hsending => ?_, fun r hr hne => ?_,
      fun id hid => ?_⟩
    · rcases (hmem r).mp hr with hr | rfl
      · exact h.count r hr
      · rw [hcount, eq_comm, List.count_eq_zero]
        intro hid
        obtain ⟨b, hb, hsame⟩ := h.claimed _ hid
        have hclash := (Table.insert?_eq_some.mp ht).1 b hb
        simp [OutboxRow.clash, hsame] at hclash
    · rcases (hmem r).mp hr with hr | rfl
      · exact h.ceiling r hr
      · exact hcount ▸ Nat.zero_le _
    · rcases (hmem r).mp hr with hr | rfl
      · exact h.held r hr hsending
      · rw [hpending] at hsending
        cases hsending
    · rcases (hmem r).mp hr with hr | rfl
      · exact h.free r hr hne
      · exact hfree
    · obtain ⟨b, hb, hsame⟩ := h.claimed id hid
      exact ⟨b, (hmem b).mpr (.inl hb), hsame⟩

theorem counted_step (e : Event) (h : Counted d s) : Counted d (step d s e) := by
  cases e with
  | enqueue => exact h.enqueue rfl rfl rfl
  | claim w now later =>
    rw [step]
    split
    · exact h.claim
    · exact h
  | reread w =>
    rcases rereadStep_cases s w with heq | ⟨c, id, now, p, -, hmoves, houtbox, -⟩
    · rw [step, heq]
      exact h
    · exact h.congr houtbox hmoves.claims hmoves.latest
  | send w answer =>
    rcases sendStep_cases d s w answer with heq | ⟨p, hmoves, houtbox, -⟩
    · rw [step, heq]
      exact h
    · exact h.congr houtbox hmoves.claims hmoves.latest
  | finish w later =>
    rcases finishStep_cases s w later with heq |
      ⟨c, row, f, -, -, hkeyed, hcloses, hmoves, houtbox⟩
    · rw [step, heq]
      exact h
    · exact h.close hkeyed hcloses houtbox hmoves.claims hmoves.latest
  | stop w => exact h.congr rfl rfl rfl

theorem Sole.congr (h : Sole s) (hpass : s'.pass = s.pass)
    (hclaims : s'.claims = s.claims) (hsends : s'.sends = s.sends) : Sole s' := by
  refine ⟨?_, ?_, ?_, ?_, ?_⟩
  · rw [hpass, hclaims]
    exact h.place
  · rw [hpass]
    exact h.alone
  · rw [hpass, hsends]
    exact h.unsent
  · rw [hsends, hclaims]
    exact h.sent
  · rw [hsends]
    exact h.once

/-- A new claim is at its worker alone. -/
theorem Sole.claim (h : Sole s) (hidle : s.pass w = .idle) :
    Sole (claimStep d s w now later) := by
  rcases claimStep_cases d s w now later with heq | ⟨r, hr, hdue, heq⟩ | ⟨r, hr, hdue, hlt, heq⟩
  · rw [heq]
    exact h
  · rw [heq]
    exact h.congr rfl rfl rfl
  · rw [heq]
    have hlt : ∀ v c id, (s.pass v).place = some (c, id) → c < s.claims.length := fun v c id hv =>
      (List.getElem?_eq_some_iff.mp (h.place v c id hv)).1
    have hplace : ∀ v c id, (Function.update s.pass w
        (.claimed s.claims.length r.id now) v).place = some (c, id) →
        (v = w ∧ c = s.claims.length ∧ id = r.id) ∨ v ≠ w ∧ (s.pass v).place = some (c, id) := by
      intro v c id hv
      by_cases hsame : v = w
      · subst hsame
        rw [Function.update_self] at hv
        obtain ⟨rfl, rfl⟩ := Prod.mk.inj (Option.some.inj hv)
        exact .inl ⟨rfl, rfl, rfl⟩
      · rw [Function.update_of_ne hsame] at hv
        exact .inr ⟨hsame, hv⟩
    refine ⟨fun v c id hv => ?_, fun v v' c id id' hv hv' => ?_, fun v c id hv hopen => ?_,
      fun c hc => ?_, h.once⟩
    · rcases hplace v c id hv with ⟨-, rfl, rfl⟩ | ⟨-, hold⟩
      · exact List.getElem?_concat_length
      · exact (List.getElem?_append_left (hlt v c id hold)).trans (h.place v c id hold)
    · rcases hplace v c id hv with ⟨hvw, hc, -⟩ | ⟨-, hold⟩ <;>
        rcases hplace v' c id' hv' with ⟨hvw', hc', -⟩ | ⟨-, hold'⟩
      · rw [hvw, hvw']
      · exact absurd hc (hlt v' c id' hold').ne
      · exact absurd hc' (hlt v c id hold).ne
      · exact h.alone v v' c id id' hold hold'
    · rcases hplace v c id hv with ⟨-, rfl, -⟩ | ⟨hne, hold⟩
      · exact fun hsent => absurd (h.sent _ hsent) (lt_irrefl _)
      · change (Function.update s.pass w _ v).unsent = true at hopen
        rw [Function.update_of_ne hne] at hopen
        exact h.unsent v c id hold hopen
    · rw [List.length_append]
      exact (h.sent c hc).trans_le (Nat.le_add_right ..)

theorem sole_step (e : Event) (h : Sole s) : Sole (step d s e) := by
  cases e with
  | enqueue => exact h.congr rfl rfl rfl
  | claim w now later =>
    rw [step]
    split
    next hidle => exact h.claim hidle
    next => exact h
  | reread w =>
    rcases rereadStep_cases s w with heq | ⟨c, id, now, p, -, hmoves, -⟩
    · rw [step, heq]
      exact h
    · exact h.move hmoves
  | send w answer =>
    rcases sendStep_cases d s w answer with heq | ⟨p, hmoves, -⟩
    · rw [step, heq]
      exact h
    · exact h.move hmoves
  | finish w later =>
    rcases finishStep_cases s w later with heq | ⟨c, row, f, -, -, -, -, hmoves, -⟩
    · rw [step, heq]
      exact h
    · exact h.move hmoves
  | stop w => exact h.move moves_stop

/-! ### Whose tokens the workers hold -/

theorem Own.move {p : Pass} (h : Own d s) (hmoves : Moves s s' w p)
    (hrow : ∀ c id row, p.place = some (c, id) → p.row = some row →
      ∀ token, row.claimToken = some token → token = d.token c) : Own d s' := by
  intro v c id row hplace hv
  rw [hmoves.pass] at hplace hv
  by_cases hsame : v = w
  · subst hsame
    rw [Function.update_self] at hplace hv
    exact hrow c id row hplace hv
  · rw [Function.update_of_ne hsame] at hplace hv
    exact h v c id row hplace hv

/-- **A row that is read back without another's claim has the token of the worker's own.** -/
theorem own_step (e : Event) (hcounted : Counted d s) (h : Own d s) (hok : Undisturbed s e) :
    Own d (step d s e) := by
  cases e with
  | enqueue => exact h
  | claim w now later =>
    rw [step]
    split
    next hidle =>
      rcases claimStep_cases d s w now later with heq | ⟨r, -, -, heq⟩ | ⟨r, -, -, -, heq⟩
      · rw [heq]
        exact h
      · rw [heq]
        exact h
      · rw [heq]
        intro v c id row hplace hv
        change (Function.update s.pass w _ v).place = _ at hplace
        change (Function.update s.pass w _ v).row = _ at hv
        by_cases hsame : v = w
        · subst hsame
          rw [Function.update_self] at hv
          cases hv
        · rw [Function.update_of_ne hsame] at hplace hv
          exact h v c id row hplace hv
    next => exact h
  | reread w =>
    rcases rereadStep_cases s w with heq | ⟨c, id, now, p, hpass, hmoves, -, hrow⟩
    · rw [step, heq]
      exact h
    · refine h.move hmoves fun c' id' row hplace hp token htoken => ?_
      obtain ⟨hmem, hid⟩ := hrow row hp
      have hsending : row.status = .sending := by
        by_contra hne
        rw [hcounted.free row hmem hne] at htoken
        cases htoken
      obtain ⟨k, hlatest, hheld⟩ := hcounted.held row hmem hsending
      have hown : s.latest id = some c := hok c id now hpass row hmem hid hsending
      obtain rfl : c' = c := by
        rcases hmoves.place with hnone | hkept
        · rw [hnone] at hplace
          cases hplace
        · rw [hkept, hpass] at hplace
          exact (Prod.mk.inj (Option.some.inj hplace)).1.symm
      rw [hid, hown] at hlatest
      obtain rfl := Option.some.inj hlatest
      exact Option.mem_unique htoken hheld
  | send w answer =>
    rcases sendStep_cases d s w answer with heq | ⟨p, hmoves, -, hrow⟩
    · rw [step, heq]
      exact h
    · refine h.move hmoves fun c id row hplace hp => ?_
      rcases hmoves.place with hnone | hkept
      · rw [hnone] at hplace
        cases hplace
      · rcases hrow with hnone | hsame
        · rw [hnone] at hp
          cases hp
        · exact h w c id row (hkept ▸ hplace) (hsame ▸ hp)
  | finish w later =>
    rcases finishStep_cases s w later with heq | ⟨c, row, f, -, -, -, -, hmoves, -⟩
    · rw [step, heq]
      exact h
    · exact h.move hmoves fun _ _ _ hplace => by cases hplace
  | stop w => exact h.move moves_stop fun _ _ _ hplace => by cases hplace

/-! ### What a step writes -/

theorem rewrite_eq
    (hp : ∀ r ∈ t.rows, p r = false) : rewrite t p f = t := by
  unfold rewrite
  cases ht : t.update? p f with
  | none => rfl
  | some t' => exact Table.eq_of_update? ht hp

theorem isOpen_of_settled (h : r.status.settled) : r.isOpen = false := by
  cases hstatus : r.status with
  | sent | discarded => simp [OutboxRow.isOpen, hstatus]
  | _ =>
    rw [hstatus] at h
    cases h

theorem lawful_of_same (h : (step d s e).outbox = s.outbox) : Lawful d s e :=
  ⟨fun _ hr _ => h.symm ▸ hr, fun _ hr _ => .inl (h.symm ▸ hr), fun _ _ _ _ _ _ => h⟩

theorem expires_of_due (h : r.due now later)
    (hsending : r.status = .sending) : (Event.claim w now later).expires r := by
  have hlease : (r.claimedAt.any fun t => t + claimLease ≤ later) = true := by
    simpa [OutboxRow.due, hsending] using h
  exact hlease

/-- A statement about one row that is due and not settled is lawful. -/
theorem rewrite_due
    {a : OutboxRow} (hf : Keyed f) (ha : a ∈ s.outbox.rows) (hdue : a.due now later)
    (hp : ∀ r, p r → r.id = a.id ∧ r.isOpen) :
    (∀ r ∈ s.outbox.rows, r.status.settled → r ∈ (rewrite s.outbox p f).rows) ∧
      ∀ r ∈ s.outbox.rows, r.status = .sending → r ∈ (rewrite s.outbox p f).rows ∨
        (Event.claim w now later).expires r := by
  refine ⟨fun r hr hsettled => mem_rewrite_of_not hf hr ?_, fun r hr hsending => ?_⟩
  · rw [← Bool.not_eq_true]
    intro hsel
    cases (isOpen_of_settled hsettled).symm.trans (hp r hsel).2
  · by_cases hsel : p r = true
    · obtain rfl := eq_of_id hr ha (hp r hsel).1
      exact .inr (expires_of_due hdue hsending)
    · exact .inl (mem_rewrite_of_not hf hr (Bool.not_eq_true _ ▸ hsel))

theorem lawful_claim : Lawful d s (.claim w now later) := by
  cases hidle : s.pass w with
  | idle =>
    have hstep : step d s (.claim w now later) = claimStep d s w now later := by
      simp only [step, hidle]
    have hfree : ∀ v c id, (Event.claim w now later).worker = some v →
        (s.pass v).place = some (c, id) → s.latest id ≠ some c →
        (step d s (.claim w now later)).outbox = s.outbox := by
      intro v c id hv hplace
      obtain rfl := Option.some.inj hv
      rw [hidle] at hplace
      cases hplace
    rcases claimStep_cases d s w now later with heq | ⟨a, ha, hdue, heq⟩ | ⟨a, ha, hdue, -, heq⟩
    · exact lawful_of_same (by rw [hstep, heq])
    · obtain ⟨hsettled, hfenced⟩ := rewrite_due (w := w) keyed_discard ha hdue
        (p := fun r => r.id = a.id && r.isOpen) fun r hr => by simpa using hr
      have houtbox := congrArg System.outbox (hstep.trans heq)
      exact ⟨fun r hr hr' => houtbox ▸ hsettled r hr hr', fun r hr hr' => by
        rw [houtbox]
        exact (hfenced r hr hr').imp_right .inl, hfree⟩
    · obtain ⟨hsettled, hfenced⟩ := rewrite_due (w := w) keyed_claim ha hdue
        (p := fun r => r.id = a.id && r.isOpen && r.attemptCount < maxAttempts)
        fun r hr => by simpa using (Bool.and_eq_true_iff.mp hr).1
      have houtbox := congrArg System.outbox (hstep.trans heq)
      exact ⟨fun r hr hr' => houtbox ▸ hsettled r hr hr', fun r hr hr' => by
        rw [houtbox]
        exact (hfenced r hr hr').imp_right .inl, hfree⟩
  | _ => exact lawful_of_same (by simp only [step, hidle])

/-- **A step is lawful where the workers hold their own tokens.** -/
theorem lawful_step (e : Event) (hcounted : Counted d s) (h : Own d s) : Lawful d s e := by
  cases e with
  | enqueue id notificationType dedupKey payloadJson payloadHash now =>
    have hkept : ∀ r ∈ s.outbox.rows, r ∈ (step d s
        (.enqueue id notificationType dedupKey payloadJson payloadHash now)).outbox.rows := by
      intro r hr
      rw [step]
      cases ht : s.outbox.insert? (newRow id notificationType dedupKey payloadJson payloadHash now)
      with
      | none => exact hr
      | some t => exact (Table.mem_of_insert? ht).mpr (.inl hr)
    exact ⟨fun r hr _ => hkept r hr, fun r hr _ => .inl (hkept r hr), fun v c id hv => by cases hv⟩
  | claim w now later => exact lawful_claim
  | reread w =>
    rcases rereadStep_cases s w with heq | ⟨c, id, now, p, -, -, houtbox, -⟩
    · exact lawful_of_same (by rw [step, heq])
    · exact lawful_of_same houtbox
  | send w answer =>
    rcases sendStep_cases d s w answer with heq | ⟨p, -, houtbox, -⟩
    · exact lawful_of_same (by rw [step, heq])
    · exact lawful_of_same houtbox
  | finish w later =>
    rcases finishStep_cases s w later with heq |
      ⟨c, row, f, hplace, hrow, hkeyed, -, -, houtbox⟩
    · exact lawful_of_same (by rw [step, heq])
    · have hlatest : ∀ r ∈ s.outbox.rows,
          OutboxRow.heldUnder row.id row.claimToken r = true →
          r.status = .sending ∧ r.id = row.id ∧ s.latest row.id = some c := by
        intro r hr hsel
        simp only [OutboxRow.heldUnder, sameKey, Bool.and_eq_true, decide_eq_true_eq] at hsel
        obtain ⟨⟨hid, hsending⟩, -, htoken⟩ := hsel
        obtain ⟨k, hlatest, hheld⟩ := hcounted.held r hr hsending
        have hown := h w c row.id row hplace hrow (d.token k) (htoken ▸ hheld)
        rw [hid, d.token_injective hown] at hlatest
        exact ⟨hsending, hid, hlatest⟩
      refine ⟨fun r hr hsettled => ?_, fun r hr hsending => ?_, fun v k id hv hplace' hnot => ?_⟩
      · rw [step, houtbox]
        refine mem_rewrite_of_not hkeyed hr (Bool.eq_false_iff.mpr fun hsel => ?_)
        rw [(hlatest r hr hsel).1] at hsettled
        cases hsettled
      · by_cases hsel : OutboxRow.heldUnder row.id row.claimToken r = true
        · obtain ⟨-, hid, hlast⟩ := hlatest r hr hsel
          exact .inr (.inr ⟨w, c, rfl, hid ▸ hplace, hid ▸ hlast⟩)
        · rw [step, houtbox]
          exact .inl (mem_rewrite_of_not hkeyed hr (Bool.eq_false_iff.mpr hsel))
      · obtain rfl := Option.some.inj hv
        obtain ⟨rfl, rfl⟩ := Prod.mk.inj (Option.mem_unique hplace hplace')
        rw [step, houtbox]
        refine rewrite_eq fun r hr => Bool.eq_false_iff.mpr fun hsel => ?_
        exact hnot (hlatest r hr hsel).2.2
  | stop w => exact lawful_of_same rfl

/-! ### Runs -/

theorem counted_initial : Counted d initial := by
  constructor <;> intro _ h <;> cases h

theorem sole_initial : Sole initial where
  place _ _ _ h := by cases h
  alone _ _ _ _ _ h := by cases h
  unsent _ _ _ h := by cases h
  sent _ h := by cases h
  once := List.nodup_nil

theorem own_initial : Own d initial := by
  intro _ _ _ _ h
  cases h

/-- **The outbox is safe where no worker reads back another's claim.** In every run whose workers
read back no claim of another, every step is lawful; and in every run no row is sent more than five
times. -/
theorem lawful_of_undisturbed (d : Delivery) (es : List Event) :
    (Runs.Along (step d) Undisturbed initial es → Runs.Along (step d) (Lawful d) initial es) ∧
      ∀ id, (run d es).sendsOf id ≤ maxAttempts := by
  constructor
  · exact Runs.Along.of_inv (I := fun s => Counted d s ∧ Own d s)
      (fun s e hs hok => ⟨counted_step e hs.1, own_step e hs.1 hs.2 hok⟩)
      (fun s e hs _ => lawful_step e hs.1 hs.2) ⟨counted_initial, own_initial⟩
  · have hrun : Counted d (run d es) ∧ Sole (run d es) :=
      Runs.run_always (I := fun s => Counted d s ∧ Sole s)
        (fun s e hs => ⟨counted_step e hs.1, sole_step e hs.2⟩) ⟨counted_initial, sole_initial⟩
    exact sendsOf_le hrun.1 hrun.2

/-- Tokens of growing length, payloads that verify, and texts that render. -/
def plainDelivery : Delivery where
  token n := String.ofList (List.replicate n 'x')
  token_injective m n h := by simpa using congrArg List.length (String.ofList_injective h)
  verifies _ := true
  render _ := some ""

/-- A worker claims a notification, reads it back and sends it. -/
def sentAtOnce : List Event :=
  [.enqueue "n1" .done "e1" "{}" "h" 0, .claim 0 1 1, .reread 0,
    .send 0 (.receipt ⟨true, false, none, none⟩), .finish 0 2]

theorem lawful_of_undisturbed_sent :
    Runs.Along (step plainDelivery) (Lawful plainDelivery) initial sentAtOnce := by
  refine (lawful_of_undisturbed plainDelivery sentAtOnce).1
    ⟨trivial, trivial, fun c id now hpass r _ _ _ => ?_, trivial, trivial, trivial⟩
  cases hpass
  rfl

/-- A worker claims a notification, and is held up until another has claimed it, as the lease has
expired; then it reads the row back and sends it. -/
def takenOver : List Event :=
  [.enqueue "n1" .done "e1" "{}" "h" 0, .claim 0 1 1, .claim 1 40000000 40000000, .reread 0,
    .send 0 (.receipt ⟨true, false, none, none⟩)]

/-- The worker whose claim was superseded closes the row, as sent, under the claim of the other. -/
theorem superseded_closes_row : ¬∀ (d : Delivery) (es : List Event),
    Runs.Along (step d) (Lawful d) initial es ∧ ∀ id, (run d es).sendsOf id ≤ maxAttempts := by
  intro h
  have halong := (h plainDelivery (takenOver ++ [.finish 0 40000001])).1
  have hlawful : Lawful plainDelivery (run plainDelivery takenOver) (.finish 0 40000001) :=
    Runs.along_iff_split.mp halong takenOver _ [] rfl
  have hplace : ((run plainDelivery takenOver).pass 0).place = some (0, "n1") := by decide
  have hlatest : (run plainDelivery takenOver).latest "n1" ≠ some 0 := by decide
  have hsame := congrArg (fun t : Outbox => t.rows.map OutboxRow.status)
    (hlawful.superseded 0 0 "n1" rfl hplace hlatest)
  revert hsame
  decide

end Notifications

end ArgentTeam
