import ArgentTeam.External.CiWait
import ArgentTeam.Jobs.Primitives

/-!
# CI waits in the store

A pass of `check_due_ci_waits` lists the waits that are due and then takes them one after
another: it asks the adapter about the row it has read, decides, and writes in a transaction
of its own. Between two turns of a pass anything may happen: other passes, of this instance
or another, a takeover, and every other write of the jobs. `ci_wake_safe` is what holds
nevertheless, and `terminal_result_wakes_iff` says exactly when a result that is in wakes
the job.
-/

namespace ArgentTeam

namespace External

open Supervisor Jobs

/-! ### The store -/

/-- A row of `supervisor_jobs`, with the class of its error. -/
structure CiJob where
  row : JobRow
  errorClass : JobErrorClass

/-- A pass that goes on: the rows it has read are still to be taken. -/
structure Pass where
  instanceId : Option String
  now : Time
  due : List CiWaitRow

/-- The tables that the manager writes, and the passes that go on. -/
structure CiStore where
  jobs : String → Option CiJob
  waits : List CiWaitRow
  primaryKey : (waits.map CiWaitRow.waitId).Nodup
  /-- The singleton row: who holds it, and whether it is `ACTIVE`. -/
  singleton : Option (String × Bool)
  passes : List Pass

/-- What can happen. -/
inductive CiStep
  /-- A pass begins: it lists the waits that are due. -/
  | begin (instanceId : Option String) (now : Time) (maxItems : ℕ)
  /-- A pass takes its next row; what the adapter answers, and when the wait is due again if
  it is put off. -/
  | turn (pass : ℕ) (answer : CiAnswer) (nextCheckAt : Time)
  | writeJob (jobId : String) (j : CiJob)
  | writeSingleton (s : Option (String × Bool))
  | enter (w : CiWaitRow)

namespace CiStore

variable (t : CiStore)

/-- The fence of an instance, where there is one. -/
def holds : Option String → Bool
  | none => true
  | some id => t.singleton = some (id, true)

/-- Write the waits with an id. -/
def updateWait (waitId : String) (f : CiWaitRow → CiWaitRow)
    (hf : ∀ w, (f w).waitId = w.waitId) : CiStore :=
  { t with
    waits := t.waits.map fun w => if w.waitId = waitId then f w else w
    primaryKey := by
      rw [List.map_map]
      have hsame : (CiWaitRow.waitId ∘ fun w => if w.waitId = waitId then f w else w) =
          CiWaitRow.waitId := by
        funext w
        simp only [Function.comp]
        split
        · exact hf w
        · rfl
      rw [hsame]
      exact t.primaryKey }

/-- Write the row of a job. -/
def setJob (jobId : String) (j : CiJob) : CiStore :=
  { t with jobs := fun id => if id = jobId then some j else t.jobs id }

/-- `list_due_external_waits`, of kind `ci`. -/
def listDue (now : Time) (limit : ℕ) : List CiWaitRow :=
  ((t.waits.filter fun w => w.isOpen && (w.nextCheckAt ≤ now ||
    w.deadlineAt.any (· ≤ now))).insertionSort
    fun v w => v.nextCheckAt ≤ w.nextCheckAt).take limit

/-- The row of a wait that is put off, after the row that was read; a row that is over is not
written. -/
def putOff (read : CiWaitRow) (state : Option Observed) (evidence : Option CiEvidence)
    (nextCheckAt : Time) (w : CiWaitRow) : CiWaitRow :=
  if w.isOpen then
    { w with
      checkAttempt := read.checkAttempt + 1
      nextCheckAt := nextCheckAt
      lastObservedState := state.or w.lastObservedState
      ciEvidence := evidence.or w.ciEvidence }
  else w

theorem putOff_waitId (read : CiWaitRow) (state : Option Observed) (evidence : Option CiEvidence)
    (nextCheckAt : Time) (w : CiWaitRow) :
    (putOff read state evidence nextCheckAt w).waitId = w.waitId := by
  unfold putOff
  split <;> rfl

/-- `_backoff`: `update_external_wait_fenced`. -/
def backoff (instanceId : Option String) (read : CiWaitRow) (state : Option Observed)
    (evidence : Option CiEvidence) (nextCheckAt : Time) : CiStore :=
  if t.holds instanceId then
    t.updateWait read.waitId (putOff read state evidence nextCheckAt)
      (putOff_waitId read state evidence nextCheckAt)
  else t

/-- The row of a wait that is over. -/
def ended (now : Time) (state : Option Observed) (eventVersion : ℤ) (evidence : CiEvidence)
    (w : CiWaitRow) : CiWaitRow :=
  { w with
    terminalObservedAt := some now
    lastObservedState := state.or w.lastObservedState
    eventVersion := eventVersion
    ciEvidence := some evidence }

theorem ended_waitId (now : Time) (state : Option Observed) (eventVersion : ℤ)
    (evidence : CiEvidence) (w : CiWaitRow) :
    (ended now state eventVersion evidence w).waitId = w.waitId := rfl

/-- `complete_wait_and_requeue`: none where it raises. -/
def complete (instanceId : Option String) (now : Time) (waitId : String)
    (queueReason : QueueReason) (errorClass : JobErrorClass) (state : Option Observed)
    (eventVersion : ℤ) (evidence : CiEvidence) : Option CiStore :=
  if !t.holds instanceId then some t
  else
    match t.waits.find? fun w => w.waitId = waitId with
    | none => some t
    | some w =>
      if !w.isOpen then some t
      else
        match t.jobs w.jobId with
        | none => none
        | some j =>
          if j.row.primaryState ≠ .waitingExternal then some t
          else
            ((Primitive.completeWait queueReason).attempt now [] j.row).map fun row =>
              (t.updateWait waitId (ended now state eventVersion evidence)
                (ended_waitId now state eventVersion evidence)).setJob w.jobId ⟨row, errorClass⟩

section Process

variable (iso : Time → PyStr)

/-- What a pass does with a row that it has read. -/
def process (instanceId : Option String) (now : Time) (w : CiWaitRow) (answer : CiAnswer)
    (nextCheckAt : Time) : CiStore :=
  match processCiWait iso w now answer with
  | none => t.backoff instanceId w none none nextCheckAt
  | some (.backoff state _ _ evidence) => t.backoff instanceId w state evidence nextCheckAt
  | some (.wake queueReason errorClass _ state evidence eventVersion) =>
    (t.complete instanceId now w.waitId queueReason errorClass state
      (eventVersion.getD w.eventVersion) evidence).getD
      -- what raises is caught by the pass, and puts the wait off
      (t.backoff instanceId w none none nextCheckAt)

/-- The passes, after one of them has taken its next row. -/
def taken (pass : ℕ) : List Pass :=
  t.passes.modify pass fun p => { p with due := p.due.tail }

def next? (pass : ℕ) : Option (Pass × CiWaitRow) :=
  t.passes[pass]?.bind fun p => p.due.head?.map fun w => (p, w)

def step : CiStep → CiStore
  | .begin instanceId now maxItems =>
    { t with passes := t.passes ++ [⟨instanceId, now, t.listDue now maxItems⟩] }
  | .turn pass answer nextCheckAt =>
    match t.next? pass with
    | none => t
    | some (p, w) =>
      { t.process iso p.instanceId p.now w answer nextCheckAt with passes := t.taken pass }
  | .writeJob jobId j => t.setJob jobId j
  | .writeSingleton s => { t with singleton := s }
  | .enter w =>
    if h : w.isOpen = true ∧ w.waitId ∉ t.waits.map CiWaitRow.waitId then
      { t with
        waits := t.waits ++ [w]
        primaryKey := by
          rw [List.map_append]
          exact t.primaryKey.append (List.nodup_singleton _)
            (List.disjoint_singleton.mpr h.2) }
    else t

end Process

end CiStore

variable {t : CiStore} {iso : Time → PyStr} {w v : CiWaitRow} {now nextCheckAt : Time}
  {read : CiRead} {answer : CiAnswer} {instanceId : Option String} {a : CiStep}
  {state : Option Observed} {e : Option CiEvidence} {t' : CiStore}

/-! ### What a pass can do to the store -/

theorem CiStore.eq_of_waitId (hw : w ∈ t.waits) (hv : v ∈ t.waits) (h : w.waitId = v.waitId) :
    w = v :=
  List.inj_on_of_nodup_map t.primaryKey hw hv h

theorem CiStore.find_eq (hw : w ∈ t.waits) :
    (t.waits.find? fun v => decide (v.waitId = w.waitId)) = some w := by
  cases hfind : t.waits.find? fun v => decide (v.waitId = w.waitId) with
  | none =>
    have hne := List.find?_eq_none.mp hfind w hw
    exact absurd (decide_eq_true rfl) hne
  | some v =>
    have hv := List.mem_of_find?_eq_some hfind
    rw [CiStore.eq_of_waitId hv hw (by simpa using List.find?_some hfind)]

/-- What the transactions of a pass do: nothing, put an open wait off, or complete one. -/
inductive CiEffect (t : CiStore) (instanceId : Option String) (now : Time) (read : CiWaitRow) :
    Option CiOutcome → CiStore → Prop
  | nothing {o} : CiEffect t instanceId now read o t
  | putOff {o} (state : Option Observed) (e : Option CiEvidence) (nextCheckAt : Time)
    (hfence : t.holds instanceId = true) :
    CiEffect t instanceId now read o
      (t.updateWait read.waitId (CiStore.putOff read state e nextCheckAt)
        (CiStore.putOff_waitId read state e nextCheckAt))
  | complete {queueReason errorClass reason state e eventVersion w j row}
    (hfence : t.holds instanceId = true) (hw : w ∈ t.waits) (hid : w.waitId = read.waitId)
    (hopen : w.isOpen = true) (hj : t.jobs w.jobId = some j)
    (hqueued : row.primaryState = .queued) :
    CiEffect t instanceId now read (some (.wake queueReason errorClass reason state e eventVersion))
      ((t.updateWait read.waitId
          (CiStore.ended now state (eventVersion.getD read.eventVersion) e)
          (CiStore.ended_waitId now state (eventVersion.getD read.eventVersion) e)).setJob w.jobId
        ⟨row, errorClass⟩)

theorem ciEffect_backoff {o : Option CiOutcome} :
    CiEffect t instanceId now w o (t.backoff instanceId w state e nextCheckAt) := by
  unfold CiStore.backoff
  split
  next hfence => exact .putOff state e nextCheckAt hfence
  next => exact .nothing

/-- **What a turn can do.** -/
theorem ciEffect_process : CiEffect t instanceId now w (processCiWait iso w now answer)
    (t.process iso instanceId now w answer nextCheckAt) := by
  unfold CiStore.process
  split
  · exact ciEffect_backoff
  · exact ciEffect_backoff
  next queueReason errorClass reason state e eventVersion hout =>
    unfold CiStore.complete
    split
    · exact .nothing
    next hfence =>
      split
      · exact .nothing
      next v hv =>
        split
        · exact .nothing
        next hopen =>
          split
          · exact ciEffect_backoff
          next j hj =>
            split
            · exact .nothing
            next hwait =>
              cases hrow : (Primitive.completeWait queueReason).attempt now [] j.row with
              | none => exact ciEffect_backoff
              | some row =>
                have hqueued : row.primaryState = .queued := by
                  obtain @⟨⟩ := effect_of_attempt hrow
                  rfl
                rw [hout, Option.map_some, Option.getD_some]
                exact .complete (by simpa using hfence) (List.mem_of_find?_eq_some hv)
                  (by simpa using List.find?_some hv) (by simpa using hopen) hj hqueued

/-! ### What wakes with success -/

/-- **Only a read that is bound to the wait records a success.** -/
theorem bound_of_success {queueReason : QueueReason} {reason : String}
    {e : CiEvidence} {eventVersion : Option ℤ}
    (h : processCiWait iso w now answer =
      some (.wake queueReason .none reason state e eventVersion)) :
    ∃ read, answer = .read read ∧ Bound w read ∧ state = some (.ci .success) := by
  unfold processCiWait at h
  split at h
  · obtain ⟨e', -, hwake⟩ := Option.map_eq_some_iff.mp h
    cases hwake
  · cases answer with
    | noAdapter => cases h
    | raises name =>
      simp only at h
      split at h
      · cases h
      · obtain ⟨e', -, hbackoff⟩ := Option.map_eq_some_iff.mp h
        cases hbackoff
    | read read =>
      simp only at h
      split at h
      · cases h
      next hvalid =>
        refine ⟨read, rfl, ?_⟩
        unfold aboutRead at h
        simp only at h
        -- every exit but the last gives the job an error
        split at h
        · obtain ⟨_, -, hout⟩ := Option.map_eq_some_iff.mp h
          cases hout
        · obtain ⟨_, -, hout⟩ := Option.map_eq_some_iff.mp h
          cases hout
        next hclean =>
          split_ifs at h with h₁ h₂ h₃ h₄ h₅ h₆
          iterate 6
            · obtain ⟨_, -, hout⟩ := Option.map_eq_some_iff.mp h
              cases hout
          · have hopened : read.prState = .opened := by
              have hother : read.prState ≠ .other := prState_ne_other_of_valid hvalid
              revert h₄ h₅ h₆ hother
              cases read.prState <;> simp
            refine ⟨⟨hvalid, hclean, not_not.mp h₂, not_not.mp h₃, hopened⟩, ?_⟩
            unfold aboutChecks at h
            obtain ⟨e', -, hout⟩ := Option.map_eq_some_iff.mp h
            split at hout
            · cases hout
            split at hout
            · generalize aggregateOf w read = s at hout
              cases s <;> cases hout
              rfl
            · cases hout

/-! ### What a step leaves of the waits -/

/-- Two rows of one wait: what is asked about is the same. -/
structure SameWait (w v : CiWaitRow) : Prop where
  waitId : v.waitId = w.waitId
  jobId : v.jobId = w.jobId
  ref : v.ref = w.ref
  expectedSubject : v.expectedSubject = w.expectedSubject
  ciPolicy : v.ciPolicy = w.ciPolicy

theorem SameWait.refl (w : CiWaitRow) : SameWait w w := ⟨rfl, rfl, rfl, rfl, rfl⟩

theorem SameWait.trans {u : CiWaitRow} (h : SameWait u v) (h' : SameWait v w) : SameWait u w :=
  ⟨h'.waitId.trans h.waitId, h'.jobId.trans h.jobId, h'.ref.trans h.ref,
    h'.expectedSubject.trans h.expectedSubject, h'.ciPolicy.trans h.ciPolicy⟩

theorem Bound.congr (h : Bound w read) (hs : SameWait w v) : Bound v read where
  valid := by rw [hs.ref]; exact h.valid
  clean := h.clean
  head := by rw [hs.expectedSubject]; exact h.head
  base := by
    rw [CiWaitRow.policy, hs.ciPolicy]
    exact h.base
  opened := h.opened

theorem sameWait_putOff :
    SameWait v (CiStore.putOff w state e nextCheckAt v) := by
  unfold CiStore.putOff
  split
  · exact ⟨rfl, rfl, rfl, rfl, rfl⟩
  · exact SameWait.refl v

theorem isOpen_putOff :
    (CiStore.putOff w state e nextCheckAt v).isOpen = v.isOpen := by
  unfold CiStore.putOff
  split <;> rfl

/-- What a step keeps of the waits: every wait asks about the same, and one that is over is
left as it is. -/
structure KeepsWaits (t t' : CiStore) : Prop where
  same : ∀ v ∈ t.waits, ∃ v' ∈ t'.waits, SameWait v v'
  ended : ∀ v ∈ t.waits, v.isOpen = false → v ∈ t'.waits

theorem KeepsWaits.refl (t : CiStore) : KeepsWaits t t :=
  ⟨fun v hv => ⟨v, hv, SameWait.refl v⟩, fun _ hv _ => hv⟩

theorem keepsWaits_of_waits (h : t'.waits = t.waits) : KeepsWaits t t' :=
  ⟨fun v hv => ⟨v, h ▸ hv, SameWait.refl v⟩, fun _ hv _ => h ▸ hv⟩

/-- A write of some waits keeps them all, if it keeps what they ask about and does not touch
those that are over. -/
theorem keepsWaits_updateWait {waitId : String} {f : CiWaitRow → CiWaitRow}
    {hf : ∀ w, (f w).waitId = w.waitId} (hsame : ∀ v, SameWait v (f v))
    (hover : ∀ v ∈ t.waits, v.waitId = waitId → v.isOpen = false → f v = v) :
    KeepsWaits t (t.updateWait waitId f hf) where
  same v hv := by
    refine ⟨_, List.mem_map_of_mem hv, ?_⟩
    split
    · exact hsame v
    · exact SameWait.refl v
  ended v hv hclosed := by
    refine List.mem_map.mpr ⟨v, hv, ?_⟩
    split
    next hid => exact hover v hv hid hclosed
    next => rfl

theorem CiEffect.keepsWaits {o : Option CiOutcome}
    (h : CiEffect t instanceId now w o t') : KeepsWaits t t' := by
  cases h with
  | nothing => exact KeepsWaits.refl t
  | putOff state e nextCheckAt hfence =>
    refine keepsWaits_updateWait (fun v => sameWait_putOff) fun v _ _ hclosed => ?_
    rw [CiStore.putOff, if_neg (by simp [hclosed])]
  | @complete _ _ _ state e eventVersion u j row hfence hu hid hopen hj hqueued =>
    have hkeeps : KeepsWaits t (t.updateWait w.waitId
        (CiStore.ended now state (eventVersion.getD w.eventVersion) e)
        (CiStore.ended_waitId now state (eventVersion.getD w.eventVersion) e)) := by
      refine keepsWaits_updateWait (fun v => ⟨rfl, rfl, rfl, rfl, rfl⟩)
        fun v hv hid' hclosed => ?_
      -- the row that is completed is the only one with its id
      rw [CiStore.eq_of_waitId hv hu (hid'.trans hid.symm), hopen] at hclosed
      cases hclosed
    exact ⟨hkeeps.same, hkeeps.ended⟩

/-- **No step changes what a wait asks about, nor a wait that is over.** -/
theorem keepsWaits_step (t : CiStore) (a : CiStep) : KeepsWaits t (t.step iso a) := by
  cases a with
  | begin | writeJob | writeSingleton => exact keepsWaits_of_waits rfl
  | turn pass answer nextCheckAt =>
    simp only [CiStore.step]
    split
    · exact KeepsWaits.refl t
    next p w _ =>
      have heffect := @ciEffect_process t iso w p.now nextCheckAt answer p.instanceId
      exact ⟨heffect.keepsWaits.same, heffect.keepsWaits.ended⟩
  | enter w =>
    simp only [CiStore.step]
    split
    · exact ⟨fun v hv => ⟨v, List.mem_append_left _ hv, SameWait.refl v⟩,
        fun v hv _ => List.mem_append_left _ hv⟩
    · exact KeepsWaits.refl t

/-- The rows that a pass still has to take are rows of waits that are there. -/
def PassesKnown (t : CiStore) : Prop :=
  ∀ p ∈ t.passes, ∀ w ∈ p.due, ∃ v ∈ t.waits, SameWait w v

theorem PassesKnown.keeps (h : PassesKnown t) (hkeeps : KeepsWaits t t')
    (hpasses : ∀ p ∈ t'.passes, ∀ w ∈ p.due, ∃ p₀ ∈ t.passes, w ∈ p₀.due) : PassesKnown t' := by
  intro p hp w hw
  obtain ⟨p₀, hp₀, hw₀⟩ := hpasses p hp w hw
  obtain ⟨v, hv, hs⟩ := h p₀ hp₀ w hw₀
  obtain ⟨v', hv', hs'⟩ := hkeeps.same v hv
  exact ⟨v', hv', hs.trans hs'⟩

theorem mem_listDue {limit : ℕ} (h : w ∈ t.listDue now limit) : w ∈ t.waits := by
  have hsorted := List.mem_of_mem_take h
  rw [List.mem_insertionSort] at hsorted
  exact List.mem_of_mem_filter hsorted

theorem passesKnown_step (h : PassesKnown t) (a : CiStep) : PassesKnown (t.step iso a) := by
  cases a with
  | begin instanceId now maxItems =>
    intro p hp w hw
    rcases List.mem_append.mp hp with hp | hp
    · exact h p hp w hw
    · rw [List.mem_singleton.mp hp] at hw
      exact ⟨w, mem_listDue hw, SameWait.refl w⟩
  | turn pass answer nextCheckAt =>
    refine h.keeps (keepsWaits_step t _) fun p hp w hw => ?_
    simp only [CiStore.step] at hp
    split at hp
    · exact ⟨p, hp, hw⟩
    · obtain ⟨i, hi⟩ := List.mem_iff_getElem?.mp hp
      rw [CiStore.taken, List.getElem?_modify] at hi
      obtain ⟨p₀, hp₀, rfl⟩ := Option.map_eq_some_iff.mp hi
      refine ⟨p₀, List.mem_of_getElem? hp₀, ?_⟩
      split at hw
      · exact List.mem_of_mem_tail hw
      · exact hw
  | writeJob | writeSingleton => exact h
  | enter w =>
    refine h.keeps (keepsWaits_step t _) fun p hp v hv => ?_
    simp only [CiStore.step] at hp
    split at hp <;> exact ⟨p, hp, hv⟩

/-! ### Wake safety -/

def Completes (iso : Time → PyStr) (t : CiStore) (a : CiStep) (waitId : String) : Prop :=
  ∃ v ∈ t.waits, v.waitId = waitId ∧ v.isOpen = true ∧
    ∃ v' ∈ (t.step iso a).waits, v'.waitId = waitId ∧ v'.isOpen = false

/-- A step records that a wait has succeeded: it completes the wait with `SUCCESS`, and its
job with no error. -/
def RecordsSuccess (iso : Time → PyStr) (t : CiStore) (a : CiStep) (v : CiWaitRow) : Prop :=
  v ∈ t.waits ∧ v.isOpen = true ∧
    (∃ v' ∈ (t.step iso a).waits, v'.waitId = v.waitId ∧ v'.isOpen = false ∧
      v'.lastObservedState = some (.ci .success)) ∧
    ∃ j, (t.step iso a).jobs v.jobId = some j ∧ j.errorClass = .none

/-- A read that is of the pull request of a wait, at its head and base, open, and without an
error. -/
structure OfWait (v : CiWaitRow) (read : CiRead) : Prop where
  identity : parseCiRef v.ref = some (read.repository, read.prNumber)
  head : read.prHeadSha = .str v.expectedSubject
  base : read.baseRef = optStr v.policy.expectedBase
  opened : read.prState = .opened
  clean : read.providerError = none

theorem Bound.ofWait (h : Bound v read) : OfWait v read where
  identity := by
    have hvalid := h.valid
    unfold validateRead at hvalid
    split at hvalid
    · cases hvalid
    next repository prNumber hparse =>
      by_cases hne : (decide (read.repository ≠ repository) ||
          decide (read.prNumber ≠ prNumber)) = true
      · rw [if_pos hne] at hvalid
        cases hvalid
      · simp only [Bool.or_eq_true, decide_eq_true_eq, not_or, not_not] at hne
        rw [hparse, hne.1, hne.2]
  head := h.head
  base := h.base
  opened := h.opened
  clean := h.clean

/-- A step that completes a wait is a turn, whose outcome is to wake the job. -/
theorem turn_of_closed (hv : v ∈ t.waits) (hopen : v.isOpen) {v' : CiWaitRow}
    (hv' : v' ∈ (t.step iso a).waits) (hid : v'.waitId = v.waitId) (hclosed : v'.isOpen = false) :
    ∃ pass answer nextCheckAt p w queueReason errorClass reason state e eventVersion row,
      a = .turn pass answer nextCheckAt ∧ t.next? pass = some (p, w) ∧ w.waitId = v.waitId ∧
        t.holds p.instanceId ∧
        processCiWait iso w p.now answer =
          some (.wake queueReason errorClass reason state e eventVersion) ∧
        (t.step iso a).jobs v.jobId = some ⟨row, errorClass⟩ := by
  -- where the waits are not written, the row is still open
  have hnot : v' ∉ t.waits := by
    intro hmem
    rw [CiStore.eq_of_waitId hmem hv hid, hopen] at hclosed
    cases hclosed
  cases a with
  | begin | writeJob | writeSingleton => exact absurd hv' hnot
  | enter w =>
    simp only [CiStore.step] at hv'
    split at hv'
    next h =>
      rcases List.mem_append.mp hv' with hmem | hmem
      · exact absurd hmem hnot
      · rw [List.mem_singleton.mp hmem, h.1] at hclosed
        cases hclosed
    next => exact absurd hv' hnot
  | turn pass answer nextCheckAt =>
    cases hnext : t.next? pass with
    | none =>
      simp only [CiStore.step, hnext] at hv'
      exact absurd hv' hnot
    | some pw =>
      obtain ⟨p, w⟩ := pw
      have hstep : t.step iso (.turn pass answer nextCheckAt) =
          { t.process iso p.instanceId p.now w answer nextCheckAt with
            passes := t.taken pass } := by
        simp only [CiStore.step, hnext]
      rw [hstep] at hv' ⊢
      have heffect := @ciEffect_process t iso w p.now nextCheckAt answer p.instanceId
      generalize hout : processCiWait iso w p.now answer = o at heffect
      generalize t.process iso p.instanceId p.now w answer nextCheckAt = t' at heffect hv' ⊢
      cases heffect with
      | nothing => exact absurd hv' hnot
      | putOff state e nextCheckAt' hfence =>
        obtain ⟨u, hu, rfl⟩ := List.mem_map.mp hv'
        have huid : u.waitId = v.waitId := by
          rw [← hid]
          split
          · rw [CiStore.putOff_waitId]
          · rfl
        rw [CiStore.eq_of_waitId hu hv huid] at hclosed
        split at hclosed
        · rw [isOpen_putOff, hopen] at hclosed
          cases hclosed
        · rw [hopen] at hclosed
          cases hclosed
      | @complete queueReason errorClass reason state e eventVersion u j row hfence hu huid huopen
          hj hqueued =>
        obtain ⟨u', hu', rfl⟩ := List.mem_map.mp hv'
        have huid' : u'.waitId = v.waitId := by
          rw [← hid]
          split <;> rfl
        rw [CiStore.eq_of_waitId hu' hv huid'] at hclosed
        split at hclosed
        next hwid =>
          have huv : u = v := CiStore.eq_of_waitId hu hv (huid.trans hwid.symm)
          refine ⟨pass, answer, nextCheckAt, p, w, queueReason, errorClass, reason, state, e,
            eventVersion, row, rfl, hnext, hwid.symm, hfence, hout, ?_⟩
          rw [← huv]
          simp [CiStore.setJob]
        next =>
          rw [hopen] at hclosed
          cases hclosed

/-- Where the rows of the passes are known, only a read of the wait records a success. -/
theorem ofWait_of_recordsSuccess (hknown : PassesKnown t) (h : RecordsSuccess iso t a v) :
    ∃ pass read nextCheckAt, a = .turn pass (.read read) nextCheckAt ∧ OfWait v read := by
  obtain ⟨hv, hopen, ⟨v', hv', hid, hclosed, -⟩, j, hj, herror⟩ := h
  obtain ⟨pass, answer, nextCheckAt, p, w, queueReason, errorClass, reason, state, e, eventVersion,
    row, rfl, hnext, hwid, -, hout, hjob⟩ := turn_of_closed hv hopen hv' hid hclosed
  rw [hjob] at hj
  cases hj
  have herror' : errorClass = .none := herror
  subst herror'
  obtain ⟨read, rfl, hbound, -⟩ := bound_of_success hout
  refine ⟨pass, read, nextCheckAt, rfl, Bound.ofWait (hbound.congr ?_)⟩
  -- the row the pass has read and the row in the store ask about the same
  obtain ⟨p', hp', hmap⟩ := Option.bind_eq_some_iff.mp hnext
  obtain ⟨w', hw', heq⟩ := Option.map_eq_some_iff.mp hmap
  cases heq
  obtain ⟨v₀, hv₀, hs⟩ := hknown p (List.mem_of_getElem? hp') w (List.mem_of_head? hw')
  rwa [CiStore.eq_of_waitId hv hv₀ (hwid.symm.trans hs.waitId.symm)]

/-- An instance that does not hold the singleton row writes nothing. -/
theorem process_of_not_holds (h : t.holds instanceId = false) :
    t.process iso instanceId now w answer nextCheckAt = t := by
  have heffect := @ciEffect_process t iso w now nextCheckAt answer instanceId
  generalize t.process iso instanceId now w answer nextCheckAt = t' at heffect ⊢
  generalize processCiWait iso w now answer = o at heffect
  cases heffect with
  | nothing => rfl
  | putOff state e nextCheckAt hfence =>
    rw [h] at hfence
    cases hfence
  | complete hfence =>
    rw [h] at hfence
    cases hfence

/-- Everything that happens to CI waits after a store is safe. -/
structure WakeSafe (iso : Time → PyStr) (t : CiStore) : Prop where
  once : ∀ bs a cs b waitId, Completes iso (Runs.run (CiStore.step · iso) t bs) a waitId →
    ¬Completes iso (Runs.run (CiStore.step · iso) t (bs ++ a :: cs)) b waitId
  immutable : ∀ bs cs, ∀ v ∈ (Runs.run (CiStore.step · iso) t bs).waits, v.isOpen = false →
    v ∈ (Runs.run (CiStore.step · iso) t (bs ++ cs)).waits
  success : ∀ bs a v, RecordsSuccess iso (Runs.run (CiStore.step · iso) t bs) a v →
    ∃ pass read nextCheckAt, a = .turn pass (.read read) nextCheckAt ∧ OfWait v read
  fenced : ∀ bs pass answer nextCheckAt p w,
    (Runs.run (CiStore.step · iso) t bs).next? pass = some (p, w) →
      (Runs.run (CiStore.step · iso) t bs).holds p.instanceId = false →
        (Runs.run (CiStore.step · iso) t (bs ++ [.turn pass answer nextCheckAt])).waits =
            (Runs.run (CiStore.step · iso) t bs).waits ∧
          (Runs.run (CiStore.step · iso) t (bs ++ [.turn pass answer nextCheckAt])).jobs =
            (Runs.run (CiStore.step · iso) t bs).jobs

/-- A store in which no pass goes on. -/
def CiStore.idle (t : CiStore) : CiStore := { t with passes := [] }

theorem keepsOver_run {as : List CiStep} (hv : v ∈ t.waits) (hclosed : v.isOpen = false) :
    v ∈ (Runs.run (CiStore.step · iso) t as).waits :=
  Runs.run_always (I := fun t => v ∈ t.waits)
    (fun t a h => (keepsWaits_step t a).ended v h hclosed) hv

/-- **CI wakes are safe**, in every interleaving of passes and of all else. -/
theorem ci_wake_safe (iso : Time → PyStr) (t : CiStore) : WakeSafe iso t.idle where
  once bs a cs b waitId hfirst hsecond := by
    obtain ⟨-, -, -, -, v', hv', hid, hclosed⟩ := hfirst
    obtain ⟨u, hu, huid, hopen, -⟩ := hsecond
    have hstill : v' ∈ (Runs.run (CiStore.step · iso) t.idle (bs ++ a :: cs)).waits := by
      rw [Runs.run_append]
      exact keepsOver_run (t := (Runs.run (CiStore.step · iso) t.idle bs).step iso a) hv' hclosed
    rw [CiStore.eq_of_waitId hu hstill (huid.trans hid.symm), hclosed] at hopen
    cases hopen
  immutable bs cs v hv hclosed := by
    rw [Runs.run_append]
    exact keepsOver_run hv hclosed
  success bs a v h := by
    refine ofWait_of_recordsSuccess ?_ h
    exact Runs.run_always (fun t a h => passesKnown_step h a) fun p hp => by cases hp
  fenced bs pass answer nextCheckAt p w hnext hlost := by
    have hstep : Runs.run (CiStore.step · iso) t.idle (bs ++ [.turn pass answer nextCheckAt]) =
        { Runs.run (CiStore.step · iso) t.idle bs with
          passes := (Runs.run (CiStore.step · iso) t.idle bs).taken pass } := by
      rw [Runs.run_append, Runs.run, Runs.run]
      simp only [CiStore.step, hnext, process_of_not_holds hlost]
    rw [hstep]
    exact ⟨rfl, rfl⟩

/-! ### A result that is in -/

/-- The wait is over with the given evidence, and its job is back in the queue. -/
def WokenWith (t : CiStore) (w : CiWaitRow) (e : CiEvidence) : Prop :=
  (∃ w' ∈ t.waits, w'.waitId = w.waitId ∧ w'.isOpen = false ∧ w'.ciEvidence = some e) ∧
    ∃ j, t.jobs w.jobId = some j ∧ j.row.primaryState = .queued

variable {j : CiJob}

/-- A wait that is put off does not wake its job. -/
theorem not_wokenWith_backoff {e' : CiEvidence}
    {read : CiWaitRow} (hj : t.jobs w.jobId = some j)
    (hwait : j.row.primaryState = .waitingExternal) :
    ¬WokenWith (t.backoff instanceId read state e nextCheckAt) w e' := by
  have hjobs : (t.backoff instanceId read state e nextCheckAt).jobs = t.jobs := by
    unfold CiStore.backoff
    split <;> rfl
  rintro ⟨-, j', hj', hqueued⟩
  rw [hjobs, hj] at hj'
  cases hj'
  rw [hwait] at hqueued
  cases hqueued

theorem transitionable_iff_of_waiting (hwait : j.row.primaryState = .waitingExternal) :
    j.row.transitionable false ↔ j.row.terminal = none := by
  simp only [JobRow.transitionable, hwait]
  rcases j.row.terminal with _ | _ | _ | _ <;> decide

/-- What comes of a result that is in: the job is woken, if the evidence fits. -/
theorem processCiWait_of_terminal (hbound : Bound w read) (htime : w.InTime now)
    (hterminal : (aggregateOf w read).isTerminal) :
    processCiWait iso w now (.read read) = none ∧ ¬(checksEvidence w now read).Fits iso ∨
      (checksEvidence w now read).Fits iso ∧ ∃ errorClass reason state,
        processCiWait iso w now (.read read) =
          some (.wake .waitEvent errorClass reason state (checksEvidence w now read)
            (some read.eventVersion)) := by
  rw [processCiWait_of_bound hbound htime, aboutChecks, dumpEvidence_eq]
  by_cases hfits : (checksEvidence w now read).Fits iso
  · refine .inr ⟨hfits, ?_⟩
    rw [if_pos hfits, Option.map_some]
    by_cases hchanged : requiredSetMateriallyChanged w read = true
    · exact ⟨_, _, _, by rw [if_pos hchanged]⟩
    · exact ⟨_, _, _, by rw [if_neg hchanged, if_pos hterminal]⟩
  · exact .inl ⟨by rw [if_neg hfits, Option.map_none], hfits⟩

section Turn

variable (hw : w ∈ t.waits) (hopen : w.isOpen = true) (hj : t.jobs w.jobId = some j)
  (hwait : j.row.primaryState = .waitingExternal) (hbound : Bound w read) (htime : w.InTime now)
  (hterminal : (aggregateOf w read).isTerminal = true)

include hj hwait hbound htime hterminal

theorem not_wokenWith_of_not_fits {e : CiEvidence}
    (hfits : ¬(checksEvidence w now read).Fits iso) :
    ¬WokenWith (t.process iso instanceId now w (.read read) nextCheckAt) w e := by
  rcases processCiWait_of_terminal hbound htime hterminal with ⟨hnone, -⟩ | ⟨hfits', -⟩
  · rw [CiStore.process, hnone]
    exact not_wokenWith_backoff hj hwait
  · exact absurd hfits' hfits

include hw hopen

/-- What the current instance does about a result that is in. -/
theorem wokenWith_process_iff (hfence : t.holds instanceId) :
    WokenWith (t.process iso instanceId now w (.read read) nextCheckAt) w
        (checksEvidence w now read) ↔
      (checksEvidence w now read).Fits iso ∧ j.row.terminal = none := by
  rcases processCiWait_of_terminal hbound htime hterminal with
    ⟨-, hfits⟩ | ⟨hfits, errorClass, reason, state, hwake⟩
  · exact iff_of_false (not_wokenWith_of_not_fits hj hwait hbound htime hterminal hfits)
      fun h => hfits h.1
  · rw [and_iff_right hfits, ← transitionable_iff_of_waiting hwait, CiStore.process, hwake]
    simp only [CiStore.complete, hfence, CiStore.find_eq hw, hopen, hj, hwait, Bool.not_true,
      Bool.false_eq_true, if_false, ne_eq, not_true_eq_false, Primitive.attempt, decide_true,
      Bool.true_and]
    by_cases htrans : j.row.transitionable false = true
    · rw [if_pos htrans, Option.map_some, Option.getD_some]
      refine iff_of_true ⟨⟨_, List.mem_map_of_mem hw, ?_⟩, ?_⟩ htrans
      · rw [if_pos rfl]
        exact ⟨rfl, rfl, rfl⟩
      · exact ⟨_, if_pos rfl, rfl⟩
    · rw [if_neg htrans, Option.map_none, Option.getD_none]
      exact iff_of_false (not_wokenWith_backoff hj hwait) htrans

end Turn

theorem wokenWith_turn {pass : ℕ} {p : Pass} {e : CiEvidence} (hnext : t.next? pass = some (p, w)) :
    WokenWith (t.step iso (.turn pass answer nextCheckAt)) v e ↔
      WokenWith (t.process iso p.instanceId p.now w answer nextCheckAt) v e := by
  simp only [CiStore.step, hnext, WokenWith]

/-- **A result that is in wakes the job exactly if its evidence is within the budget** and
the job has not ended. -/
theorem terminal_result_wakes_iff {pass : ℕ} {p : Pass} (hnext : t.next? pass = some (p, w))
    (hfence : t.holds p.instanceId = true) (hw : w ∈ t.waits) (hopen : w.isOpen = true)
    (hj : t.jobs w.jobId = some j) (hwait : j.row.primaryState = .waitingExternal)
    (htime : w.InTime p.now) (hbound : Bound w read)
    (hterminal : (aggregateOf w read).isTerminal = true) :
    WokenWith (t.step iso (.turn pass (.read read) nextCheckAt)) w (checksEvidence w p.now read) ↔
      (checksEvidence w p.now read).Fits iso ∧ j.row.terminal = none := by
  rw [wokenWith_turn hnext]
  exact wokenWith_process_iff hw hopen hj hwait hbound htime hterminal hfence

/-! ### A result that never wakes -/

/-- A wait for one check of a pull request. -/
def ciWait : CiWaitRow where
  waitId := "wait:1"
  jobId := "job"
  provider := "github"
  ref := PyStr.ofString "o/r#1"
  expectedSubject := PyStr.ofString "abc"
  lastObservedState := none
  nextCheckAt := 60
  deadlineAt := none
  checkAttempt := 0
  eventVersion := 0
  terminalObservedAt := none
  ciPolicy := some ⟨some [PyStr.ofString "ci"], [], some (PyStr.ofString "main")⟩
  ciEvidence := none

def greenCheck (name : PyStr) : ReadCheck :=
  { name := name, conclusion := some .success, status := .completed, runRef := none,
    detailsUrl := none, checkId := 1 }

/-- A clean read of its pull request. -/
def ciRead (checks : List ReadCheck) : CiRead where
  repository := PyStr.ofString "o/r"
  prNumber := 1
  prHeadSha := Json.text "abc"
  baseRef := Json.text "main"
  prState := .opened
  checks := checks
  providerError := none
  rateLimitResetAt := none
  eventVersion := 1

/-- The check has succeeded, and so have twenty-two others with long names. -/
def longNames : CiRead :=
  ciRead (greenCheck (PyStr.ofString "ci") ::
    List.replicate 22 (greenCheck (List.replicate 256 (.scalar (Char.ofNat 0x1F600)))))

def waitingJob : CiJob where
  row :=
    { createSupervisorJob "job" "task" with
      status := .waitingRun
      primaryState := .waitingExternal
      waiting := true }
  errorClass := .none

def ciPass : Pass := ⟨some "instance", 60, [ciWait]⟩

/-- The pass is about to take the wait of the job. -/
def aboutToTake : CiStore where
  jobs := fun id => if id = "job" then some waitingJob else none
  waits := [ciWait]
  primaryKey := List.nodup_singleton _
  singleton := some ("instance", true)
  passes := [ciPass]

theorem next_aboutToTake : aboutToTake.next? 0 = some (ciPass, ciWait) := rfl

def isoOfExample (_ : Time) : PyStr := PyStr.ofString "2026-01-01T00:00:00+00:00"

theorem bound_longNames : Bound ciWait longNames := by
  constructor <;> decide +kernel

theorem inTime_ciWait : ciWait.InTime 60 := fun t h => by cases h

/-- The result is in, the instance is the current one, and yet the job is not woken: the long
names do not fit into the evidence. -/
theorem long_names_do_not_wake :
    aboutToTake.next? 0 = some (ciPass, ciWait) ∧ Bound ciWait longNames ∧
      ciWait.InTime 60 ∧ (aggregateOf ciWait longNames).isTerminal = true ∧
      ¬WokenWith (aboutToTake.step isoOfExample (.turn 0 (.read longNames) 120)) ciWait
        (checksEvidence ciWait 60 longNames) := by
  have hterminal : (aggregateOf ciWait longNames).isTerminal = true := by decide
  have hfits : ¬(checksEvidence ciWait 60 longNames).Fits isoOfExample := by decide +kernel
  refine ⟨rfl, bound_longNames, inTime_ciWait, hterminal, ?_⟩
  rw [wokenWith_turn next_aboutToTake]
  exact not_wokenWith_of_not_fits (j := waitingJob) rfl rfl bound_longNames inTime_ciWait hterminal
    hfits

/-- A read in which only the required check has succeeded. -/
def shortName : CiRead := ciRead [greenCheck (PyStr.ofString "ci")]

theorem bound_shortName : Bound ciWait shortName := by
  constructor <;> decide

/-- It does wake the job. -/
theorem short_name_wakes :
    (checksEvidence ciWait 60 shortName).Fits isoOfExample ∧ waitingJob.row.terminal = none ∧
      (WokenWith (aboutToTake.step isoOfExample (.turn 0 (.read shortName) 120)) ciWait
          (checksEvidence ciWait 60 shortName) ↔
        (checksEvidence ciWait 60 shortName).Fits isoOfExample ∧
          waitingJob.row.terminal = none) := by
  have hterminal : (aggregateOf ciWait shortName).isTerminal = true := by decide +kernel
  exact ⟨by decide +kernel, rfl,
    terminal_result_wakes_iff next_aboutToTake rfl (List.mem_singleton_self _) rfl rfl rfl
      inTime_ciWait bound_shortName hterminal⟩

end External

end ArgentTeam
