import ArgentTeam.Supervisor.Decide

/-!
# The action journal

`_begin_action` and `_finish_action`. An action is known by its key; a key that comes
back with other arguments is an error, and a row that was not begun yet, or has failed,
may be begun `maxActionRetries` times. What a step of the journal can do is said once,
in `beginAction_cases`.
-/

namespace ArgentTeam

namespace Supervisor

/-- What an action is begun with. -/
structure Opening where
  actionKey : ActionKey
  actionType : ActionType
  jobId : String
  dispatchId : Option String
  argsHash : Json
  inputHash : Option Json := none
  preconditionHash : Option String := none
  effectHash : Option String := none
  patchSetJson : Option Json := none

def Opening.row (o : Opening) (now : Time) : SupervisorAction where
  jobId := o.jobId
  dispatchId := o.dispatchId
  actionType := o.actionType
  actionKey := o.actionKey
  argsHash := o.argsHash
  inputHash := o.inputHash
  preconditionHash := o.preconditionHash
  effectHash := o.effectHash
  patchSetJson := o.patchSetJson
  status := .running
  attemptCount := 1
  lastErrorCode := none
  createdAt := now

/-- The next attempt at a row; what is given anew replaces what was there. -/
def Opening.resume (o : Opening) (a : SupervisorAction) : SupervisorAction :=
  { a with
    status := .running
    attemptCount := a.attemptCount + 1
    inputHash := o.inputHash.or a.inputHash
    preconditionHash := o.preconditionHash.or a.preconditionHash
    effectHash := o.effectHash.or a.effectHash
    patchSetJson := o.patchSetJson.or a.patchSetJson }

/-- How an action was begun. -/
inductive Begun
  | new | retry | running | succeeded | exhausted

/-- A journal: its rows in the order of insertion. -/
abbrev Journal := List SupervisorAction

namespace Journal

variable {js js' : Journal} {o : Opening} {now : Time} {a b : SupervisorAction} {key : ActionKey}
  {key' : ActionKey} {r : Begun}

/-- `get_supervisor_action_by_key`. -/
def find (js : Journal) (key : ActionKey) : Option SupervisorAction :=
  js.find? fun a => a.actionKey = key

/-- `_update_supervisor_action`. -/
def update (js : Journal) (key : ActionKey) (f : SupervisorAction → SupervisorAction) : Journal :=
  js.map fun a => if a.actionKey = key then f a else a

/-- `_begin_action_locked`; `none` is its `IdempotencyError`. -/
def beginAction (js : Journal) (o : Opening) (now : Time) :
    Option (Begun × SupervisorAction × Journal) :=
  match js.find o.actionKey with
  | none => some (.new, o.row now, js ++ [o.row now])
  | some a =>
    if a.argsHash ≠ o.argsHash then none
    else match a.status with
      | .succeeded => some (.succeeded, a, js)
      | .running | .uncertain => some (.running, a, js)
      | .planned | .failed =>
        if maxActionRetries ≤ a.attemptCount then some (.exhausted, a, js)
        else some (.retry, o.resume a, js.update o.actionKey o.resume)

def finishAction (js : Journal) (key : ActionKey) (status : ActionStatus)
    (errorCode : Option String) : Journal :=
  js.update key fun a => { a with status := status, lastErrorCode := errorCode }

/-! ### Reading a journal -/

theorem mem_of_find (h : js.find key = some a) : a ∈ js := List.mem_of_find?_eq_some h

theorem key_of_find (h : js.find key = some a) : a.actionKey = key := by
  simpa using List.find?_some h

theorem find_append_of_none (h : js.find key = none) : find (js ++ [a]) key =
    if a.actionKey = key then some a else none := by
  by_cases hk : a.actionKey = key <;>
    simp [find, List.find?_append, show js.find? _ = none from h, hk]

theorem find_cons : find (a :: js) key = if a.actionKey = key then some a else js.find key := by
  by_cases hk : a.actionKey = key <;> simp [find, hk]

/-- Writing a row changes the row of its key and no other. -/
theorem find_update {f : SupervisorAction → SupervisorAction}
    (hf : ∀ a, (f a).actionKey = a.actionKey) :
    (js.update key f).find key' = if key' = key then (js.find key').map f else js.find key' := by
  induction js with
  | nil => simp [update, find]
  | cons a js ih =>
    have hcons : update (a :: js) key f = (if a.actionKey = key then f a else a) ::
        update js key f :=
      rfl
    rw [hcons, find_cons, find_cons, ih]
    by_cases hk : a.actionKey = key
    · by_cases hk' : a.actionKey = key'
      · simp [hk, hf, hk.symm.trans hk']
      · simp [hk, hf, show key ≠ key' from fun h => hk' (hk.trans h)]
    · by_cases hk' : a.actionKey = key'
      · simp [hk', show key' ≠ key from fun h => hk (hk'.trans h)]
      · simp [hk, hk']

@[simp]
theorem find_finishAction {status : ActionStatus} {e : Option String} :
    (js.finishAction key status e).find key' = if key' = key then
      (js.find key').map fun a => { a with status := status, lastErrorCode := e }
    else js.find key' :=
  find_update (f := fun a => { a with status := status, lastErrorCode := e }) fun _ => rfl

theorem find_resume : (js.update key o.resume).find key' =
    if key' = key then (js.find key').map o.resume else js.find key' :=
  find_update (f := o.resume) fun _ => rfl

/-! ### Beginning an action -/

/-- **What beginning an action can do.** A key that is not there gets a row; a row that
is there, with the same arguments, is over, is being worked on, has used up its
attempts, or is begun once more. -/
theorem beginAction_cases (h : js.beginAction o now = some (r, a, js')) :
    (js.find o.actionKey = none ∧ r = .new ∧ a = o.row now ∧ js' = js ++ [o.row now]) ∨
    (∃ b, js.find o.actionKey = some b ∧ b.argsHash = o.argsHash ∧
      ((b.status = .succeeded ∧ r = .succeeded ∧ a = b ∧ js' = js) ∨
       ((b.status = .running ∨ b.status = .uncertain) ∧ r = .running ∧ a = b ∧ js' = js) ∨
       ((b.status = .planned ∨ b.status = .failed) ∧ maxActionRetries ≤ b.attemptCount ∧
          r = .exhausted ∧ a = b ∧ js' = js) ∨
       ((b.status = .planned ∨ b.status = .failed) ∧ b.attemptCount < maxActionRetries ∧
          r = .retry ∧ a = o.resume b ∧ js' = js.update o.actionKey o.resume))) := by
  unfold beginAction at h
  cases hfind : js.find o.actionKey with
  | none =>
    simp only [hfind, Option.some.injEq, Prod.mk.injEq] at h
    obtain ⟨rfl, rfl, rfl⟩ := h
    exact .inl ⟨rfl, rfl, rfl, rfl⟩
  | some b =>
    simp only [hfind] at h
    split at h
    · cases h
    rename_i hargs
    refine .inr ⟨b, rfl, not_not.mp hargs, ?_⟩
    cases hb : b.status <;> simp only [hb] at h
    case succeeded => grind
    case running => grind
    case uncertain => grind
    all_goals
      split at h
      · grind
      · grind

theorem beginAction_eq_none :
    js.beginAction o now = none ↔ ∃ a, js.find o.actionKey = some a ∧ a.argsHash ≠ o.argsHash := by
  unfold beginAction
  cases hfind : js.find o.actionKey with
  | none => simp
  | some a =>
    simp only [Option.some.injEq, exists_eq_left']
    split
    · simpa
    · rename_i hargs
      cases hs : a.status <;> grind

theorem find_of_beginAction (h : js.beginAction o now = some (r, a, js'))
    (hk : key' ≠ o.actionKey) : js'.find key' = js.find key' := by
  rcases beginAction_cases h with ⟨-, -, -, rfl⟩ | ⟨b, -, -, ⟨-, -, -, rfl⟩ | ⟨-, -, -, rfl⟩ |
    ⟨-, -, -, -, rfl⟩ | ⟨-, -, -, -, rfl⟩⟩
  · have hrow : (o.row now).actionKey ≠ key' := hk.symm
    simp [find, List.find?_append, hrow]
  · rfl
  · rfl
  · rfl
  · rw [find_resume, if_neg hk]

theorem find_of_beginAction_self (h : js.beginAction o now = some (r, a, js')) :
    js'.find o.actionKey = some a := by
  rcases beginAction_cases h with ⟨hn, -, rfl, rfl⟩ |
    ⟨b, hb, -, ⟨-, -, rfl, rfl⟩ | ⟨-, -, rfl, rfl⟩ |
    ⟨-, -, -, rfl, rfl⟩ | ⟨-, -, -, rfl, rfl⟩⟩
  · rw [find_append_of_none hn]
    simp [Opening.row]
  · exact hb
  · exact hb
  · exact hb
  · rw [find_resume, if_pos rfl, hb]
    rfl

end Journal

end Supervisor

end ArgentTeam
