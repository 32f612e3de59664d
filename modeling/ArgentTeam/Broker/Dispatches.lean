import ArgentTeam.Broker.Snapshots

/-!
# How often a request is dispatched

The course of one request, on its own (`Course`): the state of its row, which calls have opened
an execution of it, how often the adapter was called. It is followed by the whole system, whatever
happens there (`course_step`); so each execution is one of at most nine, no two are open
at a time, and none is opened after an answer that is final (`dispatches_bounded`).
-/

namespace ArgentTeam

open MergeQueue (Holder)

namespace Broker

namespace Calls

/-! ### The course of a request -/

/-- How far a call has come that has opened an execution. -/
inductive Stage
  | preparing
  | dispatching
  | settling (answer : Option Answer)

/-- An answer after which nothing is tried again. -/
def isFinal (a : Answer) : Bool := a.outcome?.any Outcome.isFinal

structure Course where
  row : Option (RequestState × ℕ)
  stages : ℕ → Option Stage
  dispatches : ℕ
  answered : Bool

namespace Course

variable {k k' : Course} {c c' : ℕ} {state : RequestState} {n : ℕ} {g g' : Stage}

/-- A call is in no execution any more. -/
def leave (k : Course) (c : ℕ) : Course := { k with stages := Function.update k.stages c none }

/-- What can happen in the course of a request. -/
inductive Step (k : Course) : Course → Prop
  | keep : Step k k
  | create (hrow : k.row = none) : Step k { k with row := some (.pending, 0) }
  /-- A call goes on, or gives up, without an execution. -/
  | leave (c : ℕ) : Step k (k.leave c)
  | authorize (c n : ℕ) (hrow : k.row = some (.pending, n)) :
    Step k { k.leave c with row := some (.authorized, n) }
  | finish (c n : ℕ) (state dst : RequestState) (hrow : k.row = some (state, n))
    (hdst : dst.isTerminal = true) : Step k { k.leave c with row := some (dst, n) }
  | open (c n : ℕ) (state : RequestState) (hrow : k.row = some (state, n))
    (hstate : state = .authorized ∨ state = .waitingExternal) :
    Step k
      { k with row := some (.executing, n), stages := Function.update k.stages c (some .preparing) }
  | refuse (c : ℕ) (a : Option Answer) (hc : k.stages c = some .preparing) :
    Step k { k with stages := Function.update k.stages c (some (.settling a)) }
  | dispatch (c : ℕ) (hc : k.stages c = some .preparing) :
    Step k
      { k with
        stages := Function.update k.stages c (some .dispatching)
        dispatches := k.dispatches + 1 }
  | answer (c : ℕ) (a : Answer) (hc : k.stages c = some .dispatching) :
    Step k
      { k with
        stages := Function.update k.stages c (some (.settling (some a)))
        answered := k.answered || isFinal a }
  | putOff (c n : ℕ) (a : Answer) (hrow : k.row = some (.executing, n))
    (hc : k.stages c = some (.settling (some a))) (ha : isFinal a = false)
    (hlast : n + 1 ≤ maxRetryAttempts) :
    Step k { k.leave c with row := some (.waitingExternal, n + 1) }

/-- How often a request in a state can have been dispatched that was put off `n` times. -/
def budget (n : ℕ) : RequestState → ℕ
  | .pending | .authorized => 0
  | .waitingExternal => n
  | .executing => n + 1
  | .succeeded | .failed | .blocked | .denied => maxRetryAttempts + 1

def Open (state : RequestState) : Prop := state = .executing ∨ state.isTerminal = true

/-- What holds in the course of a request. -/
structure Paced (k : Course) : Prop where
  one : ∀ c c' g g', k.stages c = some g → k.stages c' = some g' → c = c'
  isOpen : ∀ c g, k.stages c = some g → ∃ state n, k.row = some (state, n) ∧ Open state
  within : ∀ state n, k.row = some (state, n) → k.dispatches ≤ budget n state
  room : ∀ c state n, k.stages c = some .preparing → k.row = some (state, n) →
    k.dispatches + 1 ≤ budget n state
  attempts : ∀ state n, k.row = some (state, n) → n ≤ maxRetryAttempts
  fresh : ∀ state n, k.row = some (state, n) → state = .pending ∨ state = .authorized → n = 0
  absent : k.row = none → k.dispatches = 0 ∧ k.answered = false
  closed : k.answered = true → ∀ state n, k.row = some (state, n) → Open state
  settling : k.answered = true → ∀ c g, k.stages c = some g →
    ∃ a, g = .settling (some a) ∧ isFinal a = true

theorem budget_le (state : RequestState) (h : n ≤ maxRetryAttempts) :
    budget n state ≤ maxRetryAttempts + 1 := by
  cases state <;> simp only [budget] <;> omega

theorem budget_of_isTerminal (h : state.isTerminal) :
    budget n state = maxRetryAttempts + 1 := by
  cases state <;> first | rfl | cases h

@[simp]
theorem not_open_pending : ¬Open .pending := by simp [Open, RequestState.isTerminal]

@[simp]
theorem not_open_authorized : ¬Open .authorized := by simp [Open, RequestState.isTerminal]

@[simp]
theorem not_open_waitingExternal : ¬Open .waitingExternal := by
  simp [Open, RequestState.isTerminal]

theorem stages_update {o : Option Stage}
    (h : Function.update k.stages c o c' = some g) : c' = c ∧ o = some g ∨
    k.stages c' = some g := by
  by_cases hc : c' = c
  · rw [hc, Function.update_self] at h
    exact .inl ⟨hc, h⟩
  · rw [Function.update_of_ne hc] at h
    exact .inr h

namespace Paced

theorem leave (h : Paced k) (c : ℕ) : Paced (k.leave c) := by
  have hkept : ∀ c' g, (k.leave c).stages c' = some g → k.stages c' = some g := by
    intro c' g hg
    rcases stages_update hg with ⟨-, hnone⟩ | hg'
    · cases hnone
    · exact hg'
  exact {
    one := fun c₁ c₂ g₁ g₂ h₁ h₂ => h.one c₁ c₂ g₁ g₂ (hkept c₁ g₁ h₁) (hkept c₂ g₂ h₂)
    isOpen := fun c' g hg => h.isOpen c' g (hkept c' g hg)
    within := h.within
    room := fun c' state n hc' => h.room c' state n (hkept c' _ hc')
    attempts := h.attempts
    fresh := h.fresh
    absent := h.absent
    closed := h.closed
    settling := fun hans c' g hg => h.settling hans c' g (hkept c' g hg) }

theorem stages_eq_none (h : Paced k) (hrow : k.row = some (state, n)) (hopen : ¬Open state)
    (c : ℕ) : k.stages c = none := by
  cases hc : k.stages c with
  | none => rfl
  | some g =>
    obtain ⟨state', n', hrow', hopen'⟩ := h.isOpen c g hc
    obtain ⟨rfl, rfl⟩ := Prod.mk.inj (Option.mem_unique hrow hrow')
    exact absurd hopen' hopen

/-- A request gets another state. -/
theorem setRow (h : Paced k) (hrow : k.row = some (state, n)) {dst : RequestState} {m : ℕ}
    (hbudget : budget n state ≤ budget m dst) (hm : m ≤ maxRetryAttempts)
    (hfresh : dst = .pending ∨ dst = .authorized → m = 0)
    (hopen : Open state → Open dst) : Paced { k with row := some (dst, m) } where
  one := h.one
  isOpen := by
    intro c g hg
    obtain ⟨state', n', hrow', hopen'⟩ := h.isOpen c g hg
    obtain ⟨rfl, rfl⟩ := Prod.mk.inj (Option.mem_unique hrow hrow')
    exact ⟨dst, m, rfl, hopen hopen'⟩
  within := by
    rintro _ _ ⟨⟩
    exact (h.within state n hrow).trans hbudget
  room := by
    rintro c _ _ hc ⟨⟩
    exact (h.room c state n hc hrow).trans hbudget
  attempts := by
    rintro _ _ ⟨⟩
    exact hm
  fresh := by
    rintro _ _ ⟨⟩
    exact hfresh
  absent := by
    rintro ⟨⟩
  closed := by
    rintro hans _ _ ⟨⟩
    exact hopen (h.closed hans state n hrow)
  settling := h.settling

/-- The call that is in the execution goes on in it. -/
theorem move (h : Paced k) (hc : k.stages c = some g) {ds : ℕ} {fin : Bool}
    (hg' : g' ≠ .preparing)
    (hwithin : ∀ state n, k.row = some (state, n) → ds ≤ budget n state)
    (hfin : fin → ∃ a, g' = .settling (some a) ∧ isFinal a) :
    Paced { k with stages := Function.update k.stages c (some g'), dispatches := ds,
                   answered := fin } := by
  have hown : ∀ c' g, Function.update k.stages c (some g') c' = some g → c' = c ∧ g = g' := by
    intro c' g₁ hg₁
    rcases stages_update hg₁ with ⟨heq, hsome⟩ | hold
    · exact ⟨heq, (Option.some.inj hsome).symm⟩
    · obtain rfl := h.one c' c g₁ g hold hc
      rw [Function.update_self] at hg₁
      exact ⟨rfl, (Option.some.inj hg₁).symm⟩
  obtain ⟨state, n, hrow, hopen⟩ := h.isOpen c g hc
  exact {
    one := fun c₁ c₂ g₁ g₂ h₁ h₂ => (hown c₁ g₁ h₁).1.trans (hown c₂ g₂ h₂).1.symm
    isOpen := fun _ _ _ => ⟨state, n, hrow, hopen⟩
    within := hwithin
    room := fun c' _ _ hprep => absurd (hown c' _ hprep).2.symm hg'
    attempts := h.attempts
    fresh := h.fresh
    absent := fun hnone => by
      rw [hnone] at hrow
      cases hrow
    closed := fun _ state' n' hrow' => by
      obtain ⟨rfl, rfl⟩ := Prod.mk.inj (Option.mem_unique hrow hrow')
      exact hopen
    settling := fun hyes c' g₁ hg₁ => by
      obtain ⟨-, rfl⟩ := hown c' g₁ hg₁
      exact hfin hyes }

theorem answered_eq_false (h : Paced k) (hc : k.stages c = some g)
    (hg : ∀ a, g ≠ .settling a) : k.answered = false := by
  cases hans : k.answered with
  | false => rfl
  | true =>
    obtain ⟨a, heq, -⟩ := h.settling hans c g hc
    exact absurd heq (hg _)

/-- **Whatever happens in the course of a request, it stays paced.** -/
theorem step (h : Paced k) (hstep : k.Step k') : Paced k' := by
  cases hstep with
  | keep => exact h
  | create hrow =>
    have hnone : ∀ c, k.stages c = none := by
      intro c
      cases hc : k.stages c with
      | none => rfl
      | some g =>
        obtain ⟨state, n, hrow', -⟩ := h.isOpen c g hc
        rw [hrow] at hrow'
        cases hrow'
    obtain ⟨hzero, hans⟩ := h.absent hrow
    exact {
      one := h.one
      isOpen := fun c g hg => absurd hg (by rw [hnone c]; simp)
      within := by
        rintro _ _ ⟨⟩
        exact hzero.le
      room := fun c _ _ hc => absurd hc (by rw [hnone c]; simp)
      attempts := by
        rintro _ _ ⟨⟩
        exact Nat.zero_le _
      fresh := by
        rintro _ _ ⟨⟩
        exact fun _ => rfl
      absent := by rintro ⟨⟩
      closed := fun hyes => absurd hyes (by simp [hans])
      settling := h.settling }
  | leave c => exact h.leave c
  | authorize c n hrow =>
    refine (h.leave c).setRow hrow ?_ (h.attempts _ _ hrow) ?_ ?_
    · exact le_rfl
    · exact fun _ => h.fresh _ _ hrow (.inl rfl)
    · exact fun hopen => absurd hopen not_open_pending
  | finish c n state dst hrow hdst =>
    refine (h.leave c).setRow hrow ?_ (h.attempts _ _ hrow) ?_ fun _ => .inr hdst
    · rw [budget_of_isTerminal hdst]
      exact budget_le state (h.attempts _ _ hrow)
    · rintro (rfl | rfl) <;> cases hdst
  | «open» c n state hrow hstate =>
    have hnot : ¬Open state := by rcases hstate with rfl | rfl <;> simp
    have hnone := h.stages_eq_none hrow hnot
    -- The request was neither executing nor settled, so nobody is in an execution of it.
    have hown : ∀ c' g, Function.update k.stages c (some Stage.preparing) c' = some g → c' = c := by
      intro c' g hg
      rcases stages_update hg with ⟨heq, -⟩ | hg'
      · exact heq
      · rw [hnone c'] at hg'
        cases hg'
    have hroom : k.dispatches + 1 ≤ budget n .executing := by
      have hwithin := h.within state n hrow
      rcases hstate with rfl | rfl <;> simp only [budget] at hwithin ⊢ <;> omega
    have hans : ¬k.answered = true := fun hyes => hnot (h.closed hyes state n hrow)
    exact {
      one := fun c₁ c₂ g₁ g₂ h₁ h₂ => (hown c₁ g₁ h₁).trans (hown c₂ g₂ h₂).symm
      isOpen := fun c' g hg => ⟨.executing, n, rfl, .inl rfl⟩
      within := by
        rintro _ _ ⟨⟩
        exact Nat.le_of_succ_le hroom
      room := by
        rintro _ _ _ - ⟨⟩
        exact hroom
      attempts := by
        rintro _ _ ⟨⟩
        exact h.attempts _ _ hrow
      fresh := by
        rintro _ _ ⟨⟩ (⟨⟨⟩⟩ | ⟨⟨⟩⟩)
      absent := by rintro ⟨⟩
      closed := fun hyes => absurd hyes hans
      settling := fun hyes => absurd hyes hans }
  | refuse c a hc =>
    have hans : k.answered = false := h.answered_eq_false hc (by rintro _ ⟨⟩)
    refine h.move hc (by rintro ⟨⟩) h.within fun hyes => ?_
    rw [hans] at hyes
    cases hyes
  | dispatch c hc =>
    have hans : k.answered = false := h.answered_eq_false hc (by rintro _ ⟨⟩)
    refine h.move hc (by rintro ⟨⟩) (fun state n => h.room c state n hc) fun hyes => ?_
    rw [hans] at hyes
    cases hyes
  | answer c a hc =>
    have hans : k.answered = false := h.answered_eq_false hc (by rintro _ ⟨⟩)
    refine h.move hc (by rintro ⟨⟩) h.within fun hyes => ?_
    rw [hans, Bool.false_or] at hyes
    exact ⟨a, rfl, hyes⟩
  | putOff c n a hrow hc ha hlast =>
    have hans : ¬k.answered = true := by
      intro hyes
      obtain ⟨a', heq, ha'⟩ := h.settling hyes c _ hc
      cases heq
      rw [ha] at ha'
      cases ha'
    have hnone : ∀ c', (k.leave c).stages c' = none := by
      intro c'
      by_cases hc' : c' = c
      · rw [hc']
        exact Function.update_self ..
      · refine (Function.update_of_ne hc' ..).trans ?_
        cases hg : k.stages c' with
        | none => rfl
        | some g => exact absurd (h.one c' c g _ hg hc) hc'
    have hnot : ∀ c' g, (k.leave c).stages c' ≠ some g := by
      intro c' g
      rw [hnone c']
      rintro ⟨⟩
    exact {
      one := fun c₁ _ g₁ _ h₁ => absurd h₁ (hnot c₁ g₁)
      isOpen := fun c' g hg => absurd hg (hnot c' g)
      within := by
        rintro _ _ ⟨⟩
        have hwithin := h.within .executing n hrow
        exact hwithin
      room := fun c' _ _ hg => absurd hg (hnot c' _)
      attempts := by
        rintro _ _ ⟨⟩
        exact hlast
      fresh := by
        rintro _ _ ⟨⟩ (⟨⟨⟩⟩ | ⟨⟨⟩⟩)
      absent := by rintro ⟨⟩
      closed := fun hyes => absurd hyes hans
      settling := fun hyes => absurd hyes hans }

theorem dispatches_le (h : Paced k) : k.dispatches ≤ maxRetryAttempts + 1 := by
  cases hrow : k.row with
  | none =>
    rw [(h.absent hrow).1]
    exact Nat.zero_le _
  | some r => exact (h.within r.1 r.2 hrow).trans (budget_le r.1 (h.attempts r.1 r.2 hrow))

theorem dispatches_eq (h : Paced k) (hstep : k.Step k') (hans : k.answered) :
    k'.answered ∧ k'.dispatches = k.dispatches := by
  cases hstep with
  | dispatch c hc =>
    rw [h.answered_eq_false hc (by rintro _ ⟨⟩)] at hans
    cases hans
  | answer c a hc => exact ⟨by simp [hans], rfl⟩
  | _ => exact ⟨hans, rfl⟩

end Paced

end Course

/-! ### The course of a request in the system -/

/-- How far a call has come that has opened an execution of a request. -/
def Call.stage? (id : String) (call : Call) : Option Stage :=
  if call.requestId = id then
    match call.point with
    | .preparing _ => some .preparing
    | .dispatching _ => some .dispatching
    | .settling _ a => some (.settling a)
    | _ => none
  else none

/-- An operation of the adapter was called for a request. -/
def isDispatch (id : String) : Event → Bool
  | .dispatched _ id' => id' = id
  | _ => false

/-- The adapter has given a final answer for a request. -/
def isFinalAnswer (id : String) : Event → Bool
  | .answered _ id' a => id' = id && isFinal a
  | _ => false

/-- How often an operation of the adapter was called for a request. -/
def dispatches (id : String) (log : List Event) : ℕ := log.countP (isDispatch id)

def course (s : System) (id : String) : Course where
  row := (s.requests id).map fun r => (r.state, r.attemptCount)
  stages := fun c => (s.calls c).bind (·.stage? id)
  dispatches := dispatches id s.log
  answered := s.log.any (isFinalAnswer id)

variable {d : Driver} {db db' : BrokerDb} {s : System} {c : ℕ} {call : Call} {answer : Answer}
  {seen : Observed} {p q : Point} {row : RequestRow} {id : String} {es : List Event} {now : Time}
  {h : Holder} {dst : RequestState} {cols : Columns} {a : Option Answer} {t : Turn}

theorem stages_goTo (s : System) (c : ℕ) (call : Call) (p : Point) (id : String) :
    (course (s.goTo c call p) id).stages =
      Function.update (course s id).stages c ({ call with point := p }.stage? id) := by
  funext c'
  by_cases hc : c' = c
  · subst hc
    rw [Function.update_self]
    exact congrArg (Option.bind · _) System.calls_goTo_self
  · rw [Function.update_of_ne hc]
    exact congrArg (Option.bind · _) (System.calls_goTo_of_ne hc)

variable (call p) in
theorem course_goTo (hp : { call with point := p }.stage? id = none) :
    course (s.goTo c call p) id = (course s id).leave c := by
  refine (Course.mk.injEq ..).mpr ⟨rfl, (stages_goTo s c call p id).trans ?_, rfl, rfl⟩
  rw [hp]

theorem stages_take (t : Turn) :
    (course (s.take c call t) id).stages =
      Function.update (course s id).stages c ({ call with point := t.point }.stage? id) :=
  stages_goTo s c call t.point id

theorem dispatches_append (es es' : List Event) :
    dispatches id (es ++ es') = dispatches id es + dispatches id es' := List.countP_append ..

/-- The course after a step of a call. -/
theorem course_take {k : Course}
    (hrow : (t.db.requests id).map (fun r => (r.state, r.attemptCount)) = k.row)
    (hstages : Function.update (course s id).stages c ({ call with point := t.point }.stage? id) =
      k.stages)
    (hdispatches : dispatches id s.log + dispatches id t.notes = k.dispatches)
    (hanswered : (s.log.any (isFinalAnswer id) || t.notes.any (isFinalAnswer id)) = k.answered) :
    course (s.take c call t) id = k := by
  refine (Course.mk.injEq ..).mpr ⟨hrow, (stages_take t).trans hstages, ?_, ?_⟩
  · exact (dispatches_append _ _).trans hdispatches
  · exact (List.any_append ..).trans hanswered

theorem stage?_of_ne (hid : call.requestId ≠ id) (p : Point) :
    { call with point := p }.stage? id = none := if_neg hid

theorem Leads.dispatches_eq_zero (hleads : Leads d db db' c call p q es)
    (hid : call.requestId ≠ id) : dispatches id es = 0 ∧ es.any (isFinalAnswer id) = false := by
  cases hleads with
  | dispatched | answered => simp [dispatches, isDispatch, isFinalAnswer, hid]
  | _ => exact ⟨rfl, rfl⟩

/-- A call that asks for a transition other than the one that opens an execution leaves the
execution it is in, if any. -/
theorem Leads.quiet_of_asks (id : String) {src : RequestState} {fence : Option Holder}
    (hleads : Leads d db db' c call p q es) (hasks : Asks d now call.op p row src dst cols fence)
    (hopening : ∀ row', p ≠ .opening row') :
    { call with point := q }.stage? id = none ∧ dispatches id es = 0 ∧
      es.any (isFinalAnswer id) = false := by
  have hnone : ∀ q, (q = .returned ∨ ∃ row, q = .releasing row) →
      { call with point := q }.stage? id = none := by
    rintro _ (rfl | ⟨row, rfl⟩) <;> exact ite_self none
  cases hasks with
  | «open» h hop => exact absurd rfl (hopening _)
  | authorize decision =>
    cases hleads with
    | stop | authorized => exact ⟨hnone _ (.inl rfl), rfl, rfl⟩
    | release => exact ⟨hnone _ (.inr ⟨_, rfl⟩), rfl, rfl⟩
  | _ =>
    cases hleads with
    | stop => exact ⟨hnone _ (.inl rfl), rfl, rfl⟩
    | release => exact ⟨hnone _ (.inr ⟨_, rfl⟩), rfl, rfl⟩

/-- **Settling** ends the execution for good, unless the answer is one to be tried again and
there are attempts left. -/
theorem settlement_eq_some (heq : settlement d now h row a = some (dst, cols)) :
    dst.isTerminal ∧ cols.attemptCount = none ∨
      dst = .waitingExternal ∧ cols.attemptCount = some (row.attemptCount + 1) ∧
        row.attemptCount + 1 ≤ maxRetryAttempts ∧ ∃ ans, a = some ans ∧ isFinal ans = false := by
  cases a with
  | none =>
    obtain ⟨rfl, hnone⟩ := finalize_eq_some heq
    exact .inl ⟨rfl, hnone⟩
  | some ans =>
    rcases settle_eq_some heq with hend | ⟨hdst, hattempt, hlast, o, ho, hretry⟩
    · exact .inl hend
    · refine .inr ⟨hdst, hattempt, hlast, ans, rfl, ?_⟩
      rw [isFinal, ho]
      exact hretry

@[simp]
theorem stage?_preparing (op : Op) (row : RequestRow) :
    Call.stage? id ⟨op, id, .preparing row⟩ = some .preparing := if_pos rfl

@[simp]
theorem stage?_dispatching (op : Op) (row : RequestRow) :
    Call.stage? id ⟨op, id, .dispatching row⟩ = some .dispatching := if_pos rfl

@[simp]
theorem stage?_settling (op : Op) (row : RequestRow) (a : Option Answer) :
    Call.stage? id ⟨op, id, .settling row a⟩ = some (.settling a) := if_pos rfl

theorem stage?_afterPolicy (row : RequestRow) (decision : PolicyDecision) (reason : String)
    (call : Call) (op : Op) :
    { call with point := afterPolicy row decision reason op }.stage? id = none := by
  cases op <;> simp only [afterPolicy] <;> (try split) <;> exact ite_self none

theorem course_take_leave {r : Option (RequestState × ℕ)}
    (hr : (t.db.requests id).map (fun r => (r.state, r.attemptCount)) = r)
    (hq : { call with point := t.point }.stage? id = none)
    (hzero : dispatches id t.notes = 0) (hnone : t.notes.any (isFinalAnswer id) = false) :
    course (s.take c call t) id = { (course s id).leave c with row := r } := by
  refine course_take hr ?_ ?_ ?_
  · rw [hq]
    rfl
  · rw [hzero]
    rfl
  · rw [hnone]
    exact Bool.or_false _

theorem stages_course (hcall : s.calls c = some call) :
    (course s id).stages c = call.stage? id := by
  change (s.calls c).bind _ = _
  rw [hcall]
  rfl

/-- A step that leaves the row of its request alone. -/
theorem course_turn_of_requests (hcall : s.calls c = some call)
    (hinformed : Informed s.toBrokerDb call)
    (hleads : Leads d s.toBrokerDb t.db c call call.point t.point t.notes)
    (hrow : t.db.requests call.requestId = s.requests call.requestId) :
    (course s call.requestId).Step (course (s.take c call t) call.requestId) := by
  obtain ⟨op, id, p⟩ := call
  obtain ⟨db', q, es⟩ := t
  have hstage : (course s id).stages c = Call.stage? id ⟨op, id, p⟩ := stages_course hcall
  have hr : (db'.requests id).map (fun r => (r.state, r.attemptCount)) = (course s id).row :=
    congrArg (Option.map _) hrow
  have hleave : ∀ {q : Point} {es : List Event},
      Call.stage? id ⟨op, id, q⟩ = none → dispatches id es = 0 →
      es.any (isFinalAnswer id) = false →
      (course s id).Step (course (s.take c ⟨op, id, p⟩ ⟨db', q, es⟩) id) := by
    intro q es hq hzero hnone
    rw [course_take_leave hr hq hzero hnone]
    exact .leave c
  have hmove : ∀ {q : Point} {es : List Event} {g : Stage},
      Call.stage? id ⟨op, id, q⟩ = some g →
      course (s.take c ⟨op, id, p⟩ ⟨db', q, es⟩) id =
        { course s id with
          stages := Function.update (course s id).stages c (some g)
          dispatches := (course s id).dispatches + dispatches id es
          answered := (course s id).answered || es.any (isFinalAnswer id) } := by
    intro q es g hq
    refine course_take hr ?_ rfl rfl
    rw [← hq]
  cases hleads with
  | unexpired row q hlive hq =>
    refine hleave ?_ rfl rfl
    rcases hq with rfl | ⟨-, rfl⟩ <;> exact ite_self none
  | policy row => exact hleave (stage?_afterPolicy row _ _ ⟨op, id, .policy row⟩ op) rfl rfl
  | opened row h hop hok =>
    obtain ⟨hold, -, rfl⟩ := requests_opened (hinformed.seen row rfl) hok
    have hnew := (Function.update_self ..).symm.trans (hrow.trans hold)
    have hrev := congrArg (·.revision) (Option.some.inj hnew)
    exact absurd hrev (Nat.succ_ne_self _)
  | refused row a =>
    rw [hmove (stage?_settling op row a)]
    simpa [dispatches] using Course.Step.refuse c a (hstage.trans (stage?_preparing op row))
  | dispatched row =>
    rw [hmove (stage?_dispatching op row)]
    simpa [dispatches, isDispatch, isFinalAnswer] using
      Course.Step.dispatch c (hstage.trans (stage?_preparing op row))
  | answered row answer =>
    rw [hmove (stage?_settling op row (some answer))]
    simpa [dispatches, isDispatch, isFinalAnswer] using
      Course.Step.answer c answer (hstage.trans (stage?_dispatching op row))
  | _ => exact hleave (ite_self none) rfl rfl

/-- A step that moves the row of its request. -/
theorem course_turn_of_goes (hcall : s.calls c = some call)
    (hinformed : Informed s.toBrokerDb call)
    (hleads : Leads d s.toBrokerDb t.db c call call.point t.point t.notes)
    (hgoes : Goes d s.toBrokerDb call call.point t.db) :
    (course s call.requestId).Step (course (s.take c call t) call.requestId) := by
  obtain ⟨row, dst, cols, fence, hrow, hasks, -, hedge, hdb⟩ := hgoes.exists_row hinformed
  have hold : (course s call.requestId).row = some (row.state, row.attemptCount) :=
    congrArg (Option.map _) hrow
  have hnew : (t.db.requests call.requestId).map (fun r => (r.state, r.attemptCount)) =
      some (dst, cols.attemptCount.getD row.attemptCount) := by
    simp only [hdb, Function.update_self]
    rfl
  have hleave : (∀ row', call.point ≠ .opening row') →
      course (s.take c call t) call.requestId = { (course s call.requestId).leave c with
        row := some (dst, cols.attemptCount.getD row.attemptCount) } := by
    intro hopening
    obtain ⟨hq, hzero, hnone⟩ := hleads.quiet_of_asks call.requestId hasks hopening
    exact course_take_leave hnew hq hzero hnone
  have hfinish : (∀ row', call.point ≠ .opening row') → dst.isTerminal = true →
      cols.attemptCount = none → (course s call.requestId).Step
        (course (s.take c call t) call.requestId) := by
    intro hopening hterminal hattempt
    rw [hleave hopening, hattempt]
    exact .finish c row.attemptCount row.state dst hold hterminal
  have hstage : (course s call.requestId).stages c = call.stage? call.requestId :=
    stages_course hcall
  have hfits := hinformed.fits
  obtain ⟨op, id, p⟩ := call
  dsimp only at *
  generalize hsrc : row.state = src at hasks hold hfinish
  cases hasks with
  | expire row cols hcols => exact hfinish (by rintro _ ⟨⟩) rfl hcols
  | deny row reason cols hcols => exact hfinish (by rintro _ ⟨⟩) rfl hcols
  | authorize row decision cols hcols =>
    rw [hleave (by rintro _ ⟨⟩), hcols]
    exact .authorize c row.attemptCount hold
  | «open» row h hop =>
    generalize hq : t.point = q at hleads
    generalize hes : t.notes = es at hleads
    cases hleads with
    | stop _ hkeep | release _ _ _ hkeep =>
      exact absurd (hdb.symm.trans (hkeep rfl)) (update_movedRow_ne hrow)
    | opened =>
      have hopen : course (s.take c ⟨op, id, .opening row⟩ t) id = { course s id with
          row := some (.executing, row.attemptCount)
          stages := Function.update (course s id).stages c (some .preparing) } := by
        refine course_take hnew ?_ ?_ ?_
        · rw [hq, stage?_preparing]
        · rw [hes]
          rfl
        · rw [hes]
          exact Bool.or_false _
      rw [hopen]
      refine .open c row.attemptCount row.state (by rw [hsrc]; exact hold) ?_
      revert hedge
      generalize row.state = state
      cases state <;> decide
  | settle row a h dst cols hop hset =>
    rcases settlement_eq_some hset with ⟨hterminal, hnone⟩ | ⟨rfl, hattempt, hlast, ans, rfl, hans⟩
    · exact hfinish (by rintro _ ⟨⟩) hterminal hnone
    · rw [hleave (by rintro _ ⟨⟩), hattempt]
      refine .putOff c row.attemptCount ans ?_ (hstage.trans (stage?_settling op row _)) hans hlast
      rw [hold, show row.state = .executing from hfits]
  | record row o h cols hop hfound =>
    exact hfinish (by rintro _ ⟨⟩) rfl (attemptCount_of_found hfound.2)

/-- A step of a call is one in the course of each request. -/
theorem course_turn (hcall : s.calls c = some call) (hinformed : Informed s.toBrokerDb call)
    (id : String) : (course s id).Step
      (course (s.take c call (turn d s.toBrokerDb c call answer seen call.point)) id) := by
  have hleads : Leads d s.toBrokerDb _ c call call.point _ _ :=
    leads_turn d s.toBrokerDb c call answer seen call.point
  have hrequests := requests_turn d s.toBrokerDb c call answer seen call.point
  generalize turn d s.toBrokerDb c call answer seen call.point = t at hleads hrequests
  by_cases hid : call.requestId = id
  · subst hid
    rcases hrequests with heq | hgoes
    · exact course_turn_of_requests hcall hinformed hleads (congrFun heq _)
    · exact course_turn_of_goes hcall hinformed hleads hgoes
  · have hrow : t.db.requests id = s.requests id := by
      rcases hrequests with heq | hgoes
      · exact congrFun heq id
      · obtain ⟨row, dst, cols, fence, -, -, -, -, hdb⟩ := hgoes.exists_row hinformed
        rw [hdb]
        exact Function.update_of_ne (Ne.symm hid) ..
    obtain ⟨hzero, hnone⟩ := hleads.dispatches_eq_zero hid
    rw [course_take_leave (congrArg _ hrow) (stage?_of_ne hid _) hzero hnone]
    exact .leave c

/-- **Whatever happens in the system is a step in the course of each request.** -/
theorem course_step (hinformed : AllInformed s) (a : Act) (id : String) :
    (course s id).Step (course (step d s a) id) := by
  cases a with
  | create r v expiresAt =>
    rw [step]
    split
    next hnone =>
      generalize hnew : newRow d r v expiresAt = new at hnone
      have hpending : (new.state, new.attemptCount) = (.pending, 0) := by
        rw [← hnew]
        rfl
      by_cases hid : id = new.requestId
      · have hcreate : course
            { s with requests := Function.update s.requests new.requestId (some new) } id =
            { course s id with row := some (.pending, 0) } := by
          refine (Course.mk.injEq ..).mpr ⟨?_, rfl, rfl, rfl⟩
          simp only [hid, Function.update_self, Option.map_some, hpending]
        rw [hcreate]
        exact .create (by rw [hid]; exact congrArg (Option.map _) hnone)
      · have hkeep : course
            { s with requests := Function.update s.requests new.requestId (some new) } id =
            course s id :=
          (Course.mk.injEq ..).mpr
            ⟨congrArg (Option.map _) (Function.update_of_ne hid ..), rfl, rfl, rfl⟩
        rw [hkeep]
        exact .keep
    · exact .keep
  | start c op requestId =>
    rw [step]
    split
    · rw [course_goTo ⟨op, requestId, .reading⟩ .reading (ite_self none)]
      exact .leave c
    · exact .keep
  | next c answer seen =>
    rw [step]
    split
    · exact .keep
    next call hcall => exact course_turn hcall (hinformed c call hcall) id
  | crash c =>
    rw [step]
    split
    · exact .keep
    next call hcall =>
      rw [course_goTo call .returned (ite_self none)]
      exact .leave c
  | approval op =>
    have hsame : course (step d s (.approval op)) id = course s id :=
      (Course.mk.injEq ..).mpr
        ⟨congrArg _ (congrFun (requests_writeApproval op) id), rfl, rfl, rfl⟩
    rw [hsame]
    exact .keep
  | _ => exact .keep

/-! ### Runs -/

variable {queue : MergeQueue.Db} {approvals : String → Option ApprovalRow} {as : List Act}

theorem paced_initial {id : String} : (course (initial queue approvals) id).Paced where
  one := by rintro _ _ _ _ ⟨⟩
  isOpen := by rintro _ _ ⟨⟩
  within := by rintro _ _ ⟨⟩
  room := by rintro _ _ _ ⟨⟩
  attempts := by rintro _ _ ⟨⟩
  fresh := by rintro _ _ ⟨⟩
  absent := fun _ => ⟨rfl, rfl⟩
  closed := by rintro ⟨⟩
  settling := by rintro ⟨⟩

theorem informed_paced_run (id : String) : AllInformed (run d queue approvals as) ∧
    (course (run d queue approvals as) id).Paced := by
  refine Runs.run_always
    (I := fun s : System => AllInformed s ∧ (course s id).Paced) (fun s a h => ?_) ?_
  · exact ⟨allInformed_step h.1 a, h.2.step (course_step h.1 a id)⟩
  · refine ⟨?_, paced_initial⟩
    rintro c call ⟨⟩

/-- What has been answered for good stays so, and is not dispatched any more. -/
theorem dispatches_run_append {bs : List Act}
    (hfinal : (course (run d queue approvals as) id).answered) :
    (course (run d queue approvals (as ++ bs)) id).dispatches =
      (course (run d queue approvals as) id).dispatches := by
  have hafter : let s := run d queue approvals (as ++ bs)
      AllInformed s ∧ (course s id).Paced ∧ (course s id).answered = true ∧
        (course s id).dispatches = (course (run d queue approvals as) id).dispatches := by
    obtain ⟨hinformed, hpaced⟩ : AllInformed (run d queue approvals as) ∧
        (course (run d queue approvals as) id).Paced := informed_paced_run id
    simp only [run, Runs.run_append] at *
    refine Runs.run_always (I := fun s : System => AllInformed s ∧ (course s id).Paced ∧
      (course s id).answered = true ∧ (course s id).dispatches = _)
      (fun s a ⟨hinformed, hpaced, hans, heq⟩ => ?_) ⟨hinformed, hpaced, hfinal, rfl⟩
    have hstep := course_step (d := d) hinformed a id
    obtain ⟨hans', heq'⟩ := hpaced.dispatches_eq hstep hans
    exact ⟨allInformed_step hinformed a, hpaced.step hstep, hans', heq'.trans heq⟩
  exact hafter.2.2.2

/-- **Bounded dispatches.** In every run, however leases and locks change hands and wherever a
call stops, an operation of the adapter is called for a request at most once more than it can be
put off; no two calls are in an execution of it at once; and after an answer that is final, none is
called for it any more. -/
theorem dispatches_bounded (d : Driver) (queue : MergeQueue.Db)
    (approvals : String → Option ApprovalRow) (as : List Act) (id : String) :
    dispatches id (run d queue approvals as).log ≤ maxRetryAttempts + 1 ∧
      (∀ c c' call call' g g', (run d queue approvals as).calls c = some call →
        (run d queue approvals as).calls c' = some call' →
        call.stage? id = some g → call'.stage? id = some g' → c = c') ∧
      ∀ c a, .answered c id a ∈ (run d queue approvals as).log → isFinal a = true →
        ∀ bs, dispatches id (run d queue approvals (as ++ bs)).log =
          dispatches id (run d queue approvals as).log := by
  have hpaced : (course (run d queue approvals as) id).Paced := (informed_paced_run id).2
  refine ⟨hpaced.dispatches_le, ?_, ?_⟩
  · intro c c' call call' g g' hc hc' hg hg'
    exact hpaced.one c c' g g' ((stages_course hc).trans hg) ((stages_course hc').trans hg')
  · intro c a hmem ha bs
    refine dispatches_run_append (List.any_eq_true.mpr ⟨_, hmem, ?_⟩)
    simp [isFinalAnswer, ha]

end Calls

end Broker

end ArgentTeam
