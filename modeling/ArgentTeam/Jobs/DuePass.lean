import ArgentTeam.Jobs.Waits

/-!
# A pass over the waits that are due

A manager takes the waits that are due, the earliest first and no more than it may handle, drops
those of a kind that it does not serve, and processes the rest one after the other: a wait is put
off, or its job is woken. A pass may starve two ways. The kinds are looked at after the limit, so
that waits of other kinds take the places of its own; and a wait whose job is no longer waiting is
left as it is, due as before.

`pass_kept_iff` says when neither happens.
-/

namespace ArgentTeam

namespace Jobs

open Supervisor

/-! ### The manager -/

/-- `WaitKind`, but for `NONE`, of which no row is. -/
inductive WaitKind
  | ci
  | upstream
  | rateLimit
  | network
  | timer
  deriving DecidableEq

def backoffMinutes : List ℕ := [1, 2, 5, 10, 30]

/-- `next_check_delay_seconds`; what the jitter makes of a delay, rounded, is a parameter. -/
def nextCheckDelaySeconds (jitter : ℕ → ℤ) (attempt : ℕ) : ℕ :=
  (max 1 (jitter (backoffMinutes.getD (min (max 1 attempt - 1) 4) 30 * 60))).toNat

/-- `ExternalWaitManager`. -/
structure WaitManager where
  kinds : Option (List WaitKind)
  ask : ExternalWait → Asked
  /-- Drawn anew for each wait. -/
  jitter : ExternalWait → ℕ → ℤ

/-- What comes of processing a wait. -/
inductive WaitOutcome
  | woke
  /-- The wait is over, or the job is no longer waiting. -/
  | alreadyHandled
  | putOff

structure WaitCheckResult where
  waitId : String
  outcome : WaitOutcome
  jobId : String
  queueReason : Option QueueReason
  nextCheckAt : Option Time

/-- What `complete_wait_and_requeue` ends with. -/
inductive Completion
  /-- The wait is over, and the job is queued. -/
  | done (t : WaitStore)
  /-- It returns `None`, and has written nothing. -/
  | nothing
  | raised

/-- `complete_wait_and_requeue`, with the two ways to write nothing told apart. -/
def completion (t : WaitStore) (waitId : String) (queueReason : QueueReason)
    (observed : Option ObsState) (eventVersion : Option ℕ) (now : Time) : Completion :=
  match t.waits.find? fun w => w.waitId = waitId with
  | none => .nothing
  | some w =>
    if !w.isOpen then .nothing
    else
      match t.jobs w.jobId with
      | none => .raised
      | some j =>
        if j.primaryState ≠ .waitingExternal then .nothing
        else
          match (Primitive.completeWait queueReason).attempt now [] j with
          | none => .raised
          | some j' =>
            .done ((t.updateWait waitId (WaitStore.closed observed eventVersion now)
              (WaitStore.closed_waitId observed eventVersion now)).setJob w.jobId j')

namespace WaitManager

variable (m : WaitManager) (now : Time)

/-- Waits of a kind are looked at. -/
def serves (k : WaitKind) : Bool := m.kinds.all fun ks => k ∈ ks

def backoff (t : WaitStore) (w : ExternalWait) (observed : Option ObsState) :
    WaitStore × WaitCheckResult :=
  let nextCheckAt := later now (nextCheckDelaySeconds (m.jitter w) (w.checkAttempt + 1))
  (t.updateWait w.waitId (WaitStore.putOff w observed nextCheckAt)
      (WaitStore.putOff_waitId w observed nextCheckAt),
    ⟨w.waitId, .putOff, w.jobId, none, some nextCheckAt⟩)

/-- `_process_wait`, and what `check_due_waits` makes of an exception. -/
def handle (t : WaitStore) (w : ExternalWait) : WaitStore × WaitCheckResult :=
  match processWait w now (m.ask w) with
  | .wake queueReason observed eventVersion =>
    match completion t w.waitId queueReason observed (some eventVersion) now with
    | .done t' => (t', ⟨w.waitId, .woke, w.jobId, some queueReason, none⟩)
    | .nothing => (t, ⟨w.waitId, .alreadyHandled, w.jobId, none, none⟩)
    | .raised => m.backoff now t w none
  | .backoff observed => m.backoff now t w observed

/-- The waits of a pass, one after the other. -/
def handleAll (t : WaitStore) : List ExternalWait → WaitStore × List WaitCheckResult
  | [] => (t, [])
  | w :: ws =>
    let (t', r) := m.handle now t w
    let (t'', rs) := handleAll t' ws
    (t'', r :: rs)

end WaitManager

def ExternalWait.due (now : Time) (w : ExternalWait) : Bool :=
  w.isOpen && (w.nextCheckAt ≤ now || w.deadlineAt.any fun t => t ≤ now)

/-- The waits that are due, in the order of their next check; where two are equal, in the order in
which they were entered. -/
def WaitStore.dueWaits (t : WaitStore) (now : Time) : List ExternalWait :=
  (t.waits.filter (ExternalWait.due now)).insertionSort fun v w => v.nextCheckAt ≤ w.nextCheckAt

/-- `list_due_external_waits`, without a kind. -/
def WaitStore.listDueExternalWaits (t : WaitStore) (now : Time) (limit : ℕ) : List ExternalWait :=
  (t.dueWaits now).take limit

section Pass

-- the column `kind`, by the primary key: nothing ever writes it again
variable (kind : String → WaitKind) (m : WaitManager) (t : WaitStore) (now : Time) (maxItems : ℤ)

/-- The waits a pass processes: of the due ones within the limit those of the right kind. -/
def handled : List ExternalWait :=
  (t.listDueExternalWaits now maxItems.toNat).filter fun w => m.serves (kind w.waitId)

def checkDueWaits : WaitStore × List WaitCheckResult :=
  if maxItems ≤ 0 then (t, []) else m.handleAll now t (handled kind m t now maxItems)

/-! ### What is promised -/

/-- A wait is over, or is not looked at before some time that is still to come. -/
def Progressed (t' : WaitStore) (waitId : String) : Prop :=
  ∃ w ∈ t'.waits, w.waitId = waitId ∧ (w.isOpen = false ∨ now < w.nextCheckAt)

/-- A pass does not starve. -/
structure PassKept : Prop where
  count : (checkDueWaits kind m t now maxItems).2.length =
    min maxItems.toNat ((t.dueWaits now).countP fun w => m.serves (kind w.waitId))
  progress : ∀ r ∈ (checkDueWaits kind m t now maxItems).2,
    Progressed now (checkDueWaits kind m t now maxItems).1 r.waitId

/-! ### When it is kept -/

/-- No wait of another kind is among the first that are due while one of its own is behind them. -/
def Unobstructed : Prop :=
  (∀ w ∈ (t.dueWaits now).take maxItems.toNat, m.serves (kind w.waitId) = true) ∨
    ∀ w ∈ (t.dueWaits now).drop maxItems.toNat, m.serves (kind w.waitId) = false

/-- A wait is to wake its job: its deadline has passed, or the adapter has seen what it is for. -/
def WaitManager.wakes (w : ExternalWait) : Bool :=
  match processWait w now (m.ask w) with
  | .wake .. => true
  | .backoff _ => false

/-- A wait is to wake its job, and does so for its next check. -/
def WaitManager.pressing (w : ExternalWait) : Bool := m.wakes now w && w.nextCheckAt ≤ now

/-- Of some waits, those that are to wake their job find it waiting, and no two of them are to wake
the same one, unless the job cannot be woken at all. -/
structure Fresh (ws : List ExternalWait) : Prop where
  waiting : ∀ w ∈ ws, m.pressing now w = true →
    ∀ j, t.jobs w.jobId = some j → j.primaryState = .waitingExternal
  apart : ws.Pairwise fun v w => m.wakes now v = true → m.pressing now w = true →
    v.jobId = w.jobId → ∀ j, t.jobs w.jobId = some j → j.transitionable false = false

end Pass

/-! ### Processing one wait -/

section Handle

variable {m : WaitManager} {t t' : WaitStore} {now : Time} {w x : ExternalWait}
  {ws : List ExternalWait} {jitter : ℕ → ℤ} {attempt : ℕ}

theorem lt_later_delay : now < later now (nextCheckDelaySeconds jitter attempt) := by
  have hpos : 1 ≤ nextCheckDelaySeconds jitter attempt := by
    rw [nextCheckDelaySeconds, Int.le_toNat (by omega)]
    exact le_max_left _ _
  exact Nat.lt_add_of_pos_right (Nat.mul_pos hpos (by decide))

/-- Of an open wait of the store, all depends on its job. -/
theorem completion_eq (hw : w ∈ t.waits) (hopen : w.isOpen) {queueReason : QueueReason}
    {observed : Option ObsState} {eventVersion : Option ℕ} :
    completion t w.waitId queueReason observed eventVersion now =
      match t.jobs w.jobId with
      | none => .raised
      | some j =>
        if j.primaryState ≠ .waitingExternal then .nothing
        else
          match (Primitive.completeWait queueReason).attempt now [] j with
          | none => .raised
          | some j' =>
            .done ((t.updateWait w.waitId (WaitStore.closed observed eventVersion now)
              (WaitStore.closed_waitId observed eventVersion now)).setJob w.jobId j') := by
  have hfind : (t.waits.find? fun x => x.waitId = w.waitId) = some w := by
    cases h : t.waits.find? fun x => x.waitId = w.waitId with
    | none => simpa using List.find?_eq_none.mp h w hw
    | some x =>
      have hx : x.waitId = w.waitId := by simpa using List.find?_some h
      rw [WaitStore.eq_of_waitId (List.mem_of_find?_eq_some h) hw hx]
  rw [completion, hfind]
  simp [hopen]

/-- What becomes of the store when an open wait is processed: the wait is put off; or it is over,
and its job is queued; or nothing happens, as its job is no longer waiting. -/
theorem handle_cases (hw : w ∈ t.waits) (hopen : w.isOpen) :
    (m.wakes now w ∧ ∃ j j' f hf, t.jobs w.jobId = some j ∧
      j.primaryState = .waitingExternal ∧ j.transitionable false ∧
      j'.primaryState = .queued ∧ (∀ x, (f x).isOpen = false) ∧
      (m.handle now t w).1 = (t.updateWait w.waitId f hf).setJob w.jobId j') ∨
    (m.wakes now w ∧ (∃ j, t.jobs w.jobId = some j ∧ j.primaryState ≠ .waitingExternal) ∧
      (m.handle now t w).1 = t) ∨
    ((m.wakes now w → ∀ j, t.jobs w.jobId = some j →
        j.primaryState = .waitingExternal ∧ j.transitionable false = false) ∧
      ∃ f hf, (∀ x, now < (f x).nextCheckAt) ∧
        (m.handle now t w).1 = t.updateWait w.waitId f hf) := by
  have hputoff : ∀ observed, ∃ f hf, (∀ x : ExternalWait, now < (f x).nextCheckAt) ∧
      (m.backoff now t w observed).1 = t.updateWait w.waitId f hf :=
    fun observed => ⟨_, WaitStore.putOff_waitId w observed _, fun _ => lt_later_delay, rfl⟩
  unfold WaitManager.handle WaitManager.wakes
  cases processWait w now (m.ask w) with
  | backoff observed => exact .inr (.inr ⟨fun h => Bool.noConfusion h, hputoff observed⟩)
  | wake queueReason observed eventVersion =>
    simp only [completion_eq hw hopen]
    cases hj : t.jobs w.jobId with
    | none => exact .inr (.inr ⟨by simp, hputoff none⟩)
    | some j =>
      by_cases hwaiting : j.primaryState = .waitingExternal
      · by_cases htrans : j.transitionable false = true
        · simp only [Primitive.attempt, hwaiting, htrans, ne_eq, not_true_eq_false, if_false,
            decide_true, Bool.and_self, if_true]
          exact .inl ⟨trivial, j, _, _, WaitStore.closed_waitId observed _ now, rfl, hwaiting,
            htrans, rfl, fun _ => rfl, rfl⟩
        · simp only [Primitive.attempt, hwaiting, htrans, ne_eq, not_true_eq_false, if_false,
            Bool.and_false, Bool.false_eq_true]
          refine .inr (.inr ⟨?_, hputoff none⟩)
          rintro - j₀ h₀
          cases h₀
          exact ⟨hwaiting, by simpa using htrans⟩
      · simp only [hwaiting, ne_eq, not_false_eq_true, if_true]
        exact .inr (.inl ⟨trivial, ⟨j, rfl, hwaiting⟩, trivial⟩)

theorem mem_updateWait_of_ne {waitId : String} {f : ExternalWait → ExternalWait}
    {hf : ∀ w, (f w).waitId = w.waitId} (h : x.waitId ≠ waitId) :
    x ∈ (t.updateWait waitId f hf).waits ↔ x ∈ t.waits := by
  simp only [WaitStore.updateWait, List.mem_map]
  constructor
  · rintro ⟨y, hy, rfl⟩
    split_ifs at h ⊢ with heq
    · exact absurd ((hf y).trans heq) h
    · exact hy
  · exact fun hx => ⟨x, hx, if_neg h⟩

theorem mem_updateWait_self {f : ExternalWait → ExternalWait}
    {hf : ∀ w, (f w).waitId = w.waitId} (hw : w ∈ t.waits) :
    f w ∈ (t.updateWait w.waitId f hf).waits :=
  List.mem_map.mpr ⟨w, hw, if_pos rfl⟩

theorem mem_handle_of_ne (hw : w ∈ t.waits) (hopen : w.isOpen) (h : x.waitId ≠ w.waitId) :
    x ∈ (m.handle now t w).1.waits ↔ x ∈ t.waits := by
  rcases @handle_cases m t now w hw hopen with ⟨-, _, _, f, hf, -, -, -, -, -, heq⟩ |
    ⟨-, -, heq⟩ | ⟨-, f, hf, -, heq⟩
  · rw [heq]
    exact @mem_updateWait_of_ne _ _ _ _ hf h
  · rw [heq]
  · rw [heq]
    exact mem_updateWait_of_ne h

/-- **What makes a wait progress**: it is not pressed upon a job that is no longer waiting. -/
theorem progressed_handle_iff (hw : w ∈ t.waits) (hopen : w.isOpen) :
    Progressed now (m.handle now t w).1 w.waitId ↔ (m.pressing now w →
      ∀ j, t.jobs w.jobId = some j → j.primaryState = .waitingExternal) := by
  rcases @handle_cases m t now w hw hopen with ⟨-, j, j', f, hf, hj, hwaiting, -, -, hclosed, heq⟩ |
    ⟨hwakes, ⟨j, hj, hnot⟩, heq⟩ | ⟨hput, f, hf, hlater, heq⟩
  · refine iff_of_true ?_ fun _ j₀ h₀ => ?_
    · rw [heq]
      exact ⟨f w, @mem_updateWait_self _ _ _ hf hw, hf w, .inl (hclosed w)⟩
    · rw [hj] at h₀
      cases h₀
      exact hwaiting
  · rw [heq]
    constructor
    · rintro ⟨x, hx, hid, hprogress⟩ hpressing
      obtain rfl := WaitStore.eq_of_waitId hx hw hid
      simp only [WaitManager.pressing, Bool.and_eq_true, decide_eq_true_eq] at hpressing
      rcases hprogress with hover | hlater
      · rw [hopen] at hover
        cases hover
      · exact absurd hpressing.2 (not_le.mpr hlater)
    · intro h
      refine ⟨w, hw, rfl, .inr ?_⟩
      by_contra hle
      refine hnot (h ?_ j hj)
      simp only [WaitManager.pressing, hwakes, Bool.true_and, decide_eq_true_eq]
      exact not_lt.mp hle
  · refine iff_of_true ?_ fun hpressing j hj => ?_
    · rw [heq]
      exact ⟨f w, mem_updateWait_self hw, hf w, .inr (hlater w)⟩
    · simp only [WaitManager.pressing, Bool.and_eq_true] at hpressing
      exact (hput hpressing.1 j hj).1

/-- **Handling a wait, the rest of the pass is as fresh as it was**: a job that was woken is no
longer waiting, and all others are as they were. -/
theorem fresh_cons_iff (hw : w ∈ t.waits) (hopen : w.isOpen) :
    Fresh m t now (w :: ws) ↔ (m.pressing now w →
        ∀ j, t.jobs w.jobId = some j → j.primaryState = .waitingExternal) ∧
      Fresh m (m.handle now t w).1 now ws := by
  have hsplit : Fresh m t now (w :: ws) ↔ ((m.pressing now w = true →
        ∀ j, t.jobs w.jobId = some j → j.primaryState = .waitingExternal) ∧
      (∀ x ∈ ws, m.wakes now w = true → m.pressing now x = true → w.jobId = x.jobId →
        ∀ j, t.jobs x.jobId = some j → j.transitionable false = false)) ∧ Fresh m t now ws := by
    constructor
    · rintro ⟨hwaiting, hapart⟩
      rw [List.pairwise_cons] at hapart
      exact ⟨⟨hwaiting w List.mem_cons_self, hapart.1⟩,
        fun x hx => hwaiting x (List.mem_cons_of_mem w hx), hapart.2⟩
    · rintro ⟨⟨hhead, hpairs⟩, hwaiting, hapart⟩
      exact ⟨List.forall_mem_cons.mpr ⟨hhead, hwaiting⟩, List.pairwise_cons.mpr ⟨hpairs, hapart⟩⟩
  rw [hsplit, and_assoc]
  refine and_congr_right fun _ => ?_
  rcases @handle_cases m t now w hw hopen with
    ⟨hwakes, j, j', f, hf, hj, -, htrans, hqueued, -, heq⟩ | ⟨-, ⟨j, hj, hnot⟩, heq⟩ |
    ⟨hput, f, hf, -, heq⟩
  · rw [heq]
    have hself : ((t.updateWait w.waitId f hf).setJob w.jobId j').jobs w.jobId = some j' :=
      WaitStore.setJob_jobs_self
    have hother : ∀ id, id ≠ w.jobId →
        ((t.updateWait w.waitId f hf).setJob w.jobId j').jobs id = t.jobs id :=
      fun id h => WaitStore.setJob_jobs_of_ne h
    constructor
    · rintro ⟨hpairs, hwaiting, hapart⟩
      -- nothing else is pressed upon the job that is woken
      have hne : ∀ x ∈ ws, m.pressing now x = true → x.jobId ≠ w.jobId := by
        intro x hx hpressing hsame
        have := hpairs x hx hwakes hpressing hsame.symm j (by rw [hsame, hj])
        rw [htrans] at this
        cases this
      refine ⟨fun x hx hpressing => ?_, hapart.imp_of_mem fun {v x} _ hx h hv hpressing hsame => ?_⟩
      · rw [hother _ (hne x hx hpressing)]
        exact hwaiting x hx hpressing
      · rw [hother _ (hne x hx hpressing)]
        exact h hv hpressing hsame
    · rintro ⟨hwaiting, hapart⟩
      have hne : ∀ x ∈ ws, m.pressing now x = true → x.jobId ≠ w.jobId := by
        intro x hx hpressing hsame
        have := hwaiting x hx hpressing j' (by rw [hsame, hself])
        rw [hqueued] at this
        cases this
      refine ⟨fun x hx _ hpressing hsame => absurd hsame.symm (hne x hx hpressing),
        fun x hx hpressing => ?_, hapart.imp_of_mem fun {v x} _ hx h hv hpressing hsame => ?_⟩
      · rw [← hother _ (hne x hx hpressing)]
        exact hwaiting x hx hpressing
      · rw [← hother _ (hne x hx hpressing)]
        exact h hv hpressing hsame
  · rw [heq]
    refine and_iff_right_of_imp fun hfresh x hx _ hpressing hsame j₀ _ => ?_
    exact absurd (hfresh.waiting x hx hpressing j (by rw [← hsame, hj])) hnot
  · have hjobs : ∀ {s s' : WaitStore}, s.jobs = s'.jobs → (Fresh m s now ws → Fresh m s' now ws) :=
      fun h ⟨hwaiting, hapart⟩ => ⟨by rw [← h]; exact hwaiting, by rw [← h]; exact hapart⟩
    rw [heq]
    constructor
    · exact fun h => @hjobs t _ rfl h.2
    · intro h
      refine ⟨fun x _ hwakes _ hsame j hj => ?_, @hjobs (t.updateWait w.waitId f hf) t rfl h⟩
      exact (hput hwakes j (by rw [hsame, hj])).2

/-- The waits of a pass are open rows of the store, all different. -/
structure OpenRows (t : WaitStore) (ws : List ExternalWait) : Prop where
  there : ∀ w ∈ ws, w ∈ t.waits ∧ w.isOpen = true
  nodup : (ws.map ExternalWait.waitId).Nodup

theorem OpenRows.tail (h : OpenRows t (w :: ws)) : OpenRows (m.handle now t w).1 ws := by
  obtain ⟨hthere, hnodup⟩ := h
  obtain ⟨⟨hw, hopen⟩, hrest⟩ := List.forall_mem_cons.mp hthere
  rw [List.map_cons, List.nodup_cons] at hnodup
  refine ⟨fun x hx => ⟨(mem_handle_of_ne hw hopen fun hid => hnodup.1 ?_).mpr (hrest x hx).1,
    (hrest x hx).2⟩, hnodup.2⟩
  rw [← hid]
  exact List.mem_map_of_mem hx

theorem mem_handleAll_of_notMem (h : OpenRows t ws) (hx : x.waitId ∉ ws.map ExternalWait.waitId) :
    x ∈ (m.handleAll now t ws).1.waits ↔ x ∈ t.waits := by
  induction ws generalizing t with
  | nil => exact Iff.rfl
  | cons w ws ih =>
    rw [List.map_cons, List.mem_cons, not_or] at hx
    obtain ⟨hw, hopen⟩ := h.there w List.mem_cons_self
    exact (ih h.tail hx.2).trans (mem_handle_of_ne hw hopen hx.1)

theorem progressed_handleAll_of_notMem {waitId : String} (h : OpenRows t ws)
    (hid : waitId ∉ ws.map ExternalWait.waitId) :
    Progressed now (m.handleAll now t ws).1 waitId ↔ Progressed now t waitId := by
  refine exists_congr fun x => ?_
  constructor
  · rintro ⟨hx, rfl, hprogress⟩
    exact ⟨(mem_handleAll_of_notMem h hid).mp hx, rfl, hprogress⟩
  · rintro ⟨hx, rfl, hprogress⟩
    exact ⟨(mem_handleAll_of_notMem h hid).mpr hx, rfl, hprogress⟩

/-- **The waits that are handled make way for others** exactly if they are fresh. -/
theorem progressed_handleAll_iff (h : OpenRows t ws) :
    (∀ w ∈ ws, Progressed now (m.handleAll now t ws).1 w.waitId) ↔ Fresh m t now ws := by
  induction ws generalizing t with
  | nil => exact iff_of_true (fun w hw => nomatch hw) ⟨fun w hw => (nomatch hw), List.Pairwise.nil⟩
  | cons w ws ih =>
    obtain ⟨hw, hopen⟩ := h.there w List.mem_cons_self
    have hid := (List.nodup_cons.mp (List.map_cons .. ▸ h.nodup)).1
    rw [fresh_cons_iff hw hopen, ← progressed_handle_iff hw hopen, ← ih h.tail,
      List.forall_mem_cons]
    exact and_congr_left' (progressed_handleAll_of_notMem h.tail hid)

theorem waitIds_handleAll (t : WaitStore) (ws : List ExternalWait) :
    (m.handleAll now t ws).2.map WaitCheckResult.waitId = ws.map ExternalWait.waitId := by
  induction ws generalizing t with
  | nil => rfl
  | cons w ws ih =>
    have hhead : (m.handle now t w).2.waitId = w.waitId := by
      unfold WaitManager.handle
      split
      · split <;> rfl
      · rfl
    rw [WaitManager.handleAll, List.map_cons, List.map_cons, ih, hhead]

end Handle

/-! ### A whole pass -/

section Whole

/-- What is filtered out of the first few of a list is as much as there can be exactly if the rest
of the first few does not matter. -/
theorem length_filter_take_iff {α : Type} {xs : List α} {p : α → Bool} {n : ℕ} :
    ((xs.take n).filter p).length = min n (xs.countP p) ↔
      (∀ x ∈ xs.take n, p x) ∨ ∀ x ∈ xs.drop n, p x = false := by
  have hcount : xs.countP p = (xs.take n).countP p + (xs.drop n).countP p := by
    rw [← List.countP_append, List.take_append_drop]
  have hle : (xs.take n).countP p ≤ (xs.take n).length := List.countP_le_length
  have hall : (∀ x ∈ xs.take n, p x = true) ↔ (xs.take n).countP p = (xs.take n).length :=
    List.countP_eq_length.symm
  have hnone : (∀ x ∈ xs.drop n, p x = false) ↔ (xs.drop n).countP p = 0 := by
    rw [List.countP_eq_zero]
    simp
  have hdrop : (xs.drop n).countP p ≤ (xs.drop n).length := List.countP_le_length
  rw [← List.countP_eq_length_filter, hcount, hall, hnone]
  rw [List.length_take] at hle ⊢
  rw [List.length_drop] at hdrop
  omega

variable {kind : String → WaitKind} {m : WaitManager} {t : WaitStore} {now : Time} {maxItems : ℤ}

theorem openRows_handled : OpenRows t (handled kind m t now maxItems) := by
  have hperm : (t.dueWaits now).Perm (t.waits.filter (ExternalWait.due now)) :=
    List.perm_insertionSort ..
  have hsub : (handled kind m t now maxItems).Sublist (t.dueWaits now) :=
    List.filter_sublist.trans (List.take_sublist ..)
  refine ⟨fun w hw => ?_, ?_⟩
  · have hmem := hperm.mem_iff.mp (hsub.subset hw)
    rw [List.mem_filter, ExternalWait.due, Bool.and_eq_true] at hmem
    exact ⟨hmem.1, hmem.2.1⟩
  · refine ((hperm.map _).nodup_iff.mpr ?_).sublist (hsub.map _)
    exact t.primaryKey.sublist (List.filter_sublist.map _)

/-- **A pass does not starve** exactly if no wait of another kind takes the place of one of its
own, and no wait is pressed upon a job that is no longer waiting. -/
theorem pass_kept_iff (kind : String → WaitKind) (m : WaitManager) (t : WaitStore) (now : Time)
    (maxItems : ℤ) :
    PassKept kind m t now maxItems ↔ Unobstructed kind m t now maxItems ∧
      Fresh m t now (handled kind m t now maxItems) := by
  have hpass : checkDueWaits kind m t now maxItems =
      m.handleAll now t (handled kind m t now maxItems) := by
    rw [checkDueWaits]
    split_ifs with hnone
    · rw [handled, WaitStore.listDueExternalWaits, Int.toNat_of_nonpos hnone]
      rfl
    · rfl
  have hids := @waitIds_handleAll m now t (handled kind m t now maxItems)
  have hcount : (checkDueWaits kind m t now maxItems).2.length =
      (handled kind m t now maxItems).length := by
    rw [hpass, ← List.length_map WaitCheckResult.waitId, hids, List.length_map]
  have hprogress : (∀ r ∈ (checkDueWaits kind m t now maxItems).2,
      Progressed now (checkDueWaits kind m t now maxItems).1 r.waitId) ↔
        Fresh m t now (handled kind m t now maxItems) := by
    rw [← progressed_handleAll_iff openRows_handled, hpass]
    -- the results and the waits that were handled have the same identifiers
    rw [← List.forall_mem_map (f := WaitCheckResult.waitId)
      (P := Progressed now (m.handleAll now t (handled kind m t now maxItems)).1), hids,
      List.forall_mem_map]
  rw [← hprogress, Unobstructed, ← length_filter_take_iff]
  constructor
  · rintro ⟨hcounted, hprogressed⟩
    exact ⟨hcount ▸ hcounted, hprogressed⟩
  · rintro ⟨hcounted, hprogressed⟩
    exact ⟨hcount.trans hcounted, hprogressed⟩

end Whole

/-! ### Two passes that starve -/

/-- A wait that is due: its deadline has passed. -/
def overdue (waitId : String) (nextCheckAt : Time) : ExternalWait where
  waitId := waitId
  jobId := "job"
  provider := "clock"
  ref := "timer"
  expectedSubject := none
  lastObservedState := none
  nextCheckAt := nextCheckAt
  deadlineAt := some 20
  checkAttempt := 0
  eventVersion := 0
  terminalObservedAt := none

/-- The store of two such waits, the first of kind `CI`, with a job in a state. -/
def twoWaits (j : JobRow) : WaitStore where
  jobs id := if id = "job" then some j else none
  waits := [overdue "ci" 5, overdue "timer" 10]
  primaryKey := by decide

/-- Their kinds. -/
def kindsOfTwo (waitId : String) : WaitKind := if waitId = "ci" then .ci else .timer

/-- The manager of all kinds but `CI`. -/
def generalManager : WaitManager where
  kinds := some [.upstream, .rateLimit, .network, .timer]
  ask _ := .noAdapter
  jitter _ := Int.ofNat

def waitingJob : JobRow :=
  { createSupervisorJob "job" "task" with primaryState := .waitingExternal, waiting := true }

/-- **Passes that starve**: a wait of the kind `CI` takes the one place there is; and a wait whose
job has been queued again stays due. -/
theorem starving_passes :
    ¬PassKept kindsOfTwo generalManager (twoWaits waitingJob) 30 1 ∧
      ¬PassKept kindsOfTwo generalManager (twoWaits (createSupervisorJob "job" "task")) 30 2 := by
  have hdue : ∀ j, (twoWaits j).dueWaits 30 = [overdue "ci" 5, overdue "timer" 10] := by
    intro j
    show ([overdue "ci" 5, overdue "timer" 10].filter (ExternalWait.due 30)).insertionSort
      (fun v w => v.nextCheckAt ≤ w.nextCheckAt) = _
    decide
  constructor
  · rw [pass_kept_iff, Unobstructed, hdue]
    rintro ⟨hfirst | hbehind, -⟩
    · exact absurd (hfirst _ List.mem_cons_self) (by decide)
    · exact absurd (hbehind _ List.mem_cons_self) (by decide)
  · rw [pass_kept_iff, handled, WaitStore.listDueExternalWaits, hdue]
    rintro ⟨-, hwaiting, -⟩
    exact absurd (hwaiting (overdue "timer" 10) (by decide) (by decide) _ rfl) (by decide)

end Jobs

end ArgentTeam
