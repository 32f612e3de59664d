import ArgentTeam.Broker.Dispatches
import ArgentTeam.Broker.Recordable

/-!
# Who decides an executing request

A request that is EXECUTING is moved by the holder of the lease and the lock, or by a call that has
found it expired: that transition is not fenced. As long as no such call blocks an executing
request, and the successes can be written down, only the holder decides it, and what succeeds under
its lease and lock is recorded (`holder_decides`); without the condition a call without a holder
may block it while the holder is with the provider (`expiry_unseats_holder`).
-/

namespace ArgentTeam

open MergeQueue (Holder jobHoldsCurrentLease)

namespace Broker

namespace Calls

/-! ### The condition and the property -/

/-- A call at this point does not block an executing request because it has expired, nor settles a
success that cannot be written down. -/
def Point.lawful (d : Driver) (db : BrokerDb) (id : String) : Point → Bool
  | expiring row => !(row.state = .executing && db.requests id = some row)
  | settling _ (some a) => !(a.outcome? = some .success) || a.recordable d
  | _ => true

/-- A step that keeps to the condition. -/
def lawful (d : Driver) (s : System) : Act → Bool
  | .next c _ _ => (s.calls c).all fun call => call.point.lawful d s.toBrokerDb call.requestId
  | _ => true

/-- A step is one of a call whose holder has the current lease, and the lock of the request. -/
def ByHolder (s : System) (act : Act) (r : RequestRow) (id : String) : Prop :=
  ∃ c answer seen call h, act = .next c answer seen ∧ s.calls c = some call ∧
    call.requestId = id ∧ call.op.holder? = some h ∧
    jobHoldsCurrentLease s.toDb h = true ∧ s.locks (lockName r) = some h

/-- Only the holder decides a request that is executing, and records the success it has obtained. -/
structure HolderDecides (d : Driver) (s : System) (act : Act) : Prop where
  leaves : ∀ id r r', s.requests id = some r → r.state = .executing →
    (step d s act).requests id = some r' → r'.state ≠ .executing → ByHolder s act r id
  records : ∀ c answer seen call row a h, act = .next c answer seen → s.calls c = some call →
    call.point = .settling row (some a) → a.outcome? = some .success →
    call.op.holder? = some h → jobHoldsCurrentLease s.toDb h = true →
    s.locks (lockName row) = some h →
      ∃ r, (step d s act).requests call.requestId = some r ∧ r.state = .succeeded

/-! ### Who moves an executing request -/

variable {d : Driver} {s : System} {act : Act} {id : String} {r r' : RequestRow} {c : ℕ}
  {call : Call} {row : RequestRow}

/-- **A row that is there is moved by a call that asks for it.** -/
theorem exists_asks_of_ne (hinformed : AllInformed s) (hr : s.requests id = some r)
    (hr' : (step d s act).requests id = some r') (hne : r' ≠ r) :
    ∃ c answer seen call dst cols fence, act = .next c answer seen ∧ s.calls c = some call ∧
      call.requestId = id ∧ Asks d s.now call.op call.point r r.state dst cols fence ∧
      Fenced s.toBrokerDb r fence ∧ dst ∈ r.state.targets ∧ r' = movedRow dst cols r := by
  have hsame : (step d s act).requests id ≠ s.requests id := by
    rw [hr, hr']
    exact fun heq => hne (Option.some.inj heq)
  cases act with
  | create new v expiresAt =>
    rw [step] at hsame
    split at hsame
    next hnone =>
      refine absurd (Function.update_of_ne ?_ ..) hsame
      rintro rfl
      rw [hr] at hnone
      cases hnone
    · exact absurd rfl hsame
  | start | crash =>
    rw [step] at hsame
    split at hsame <;> exact absurd rfl hsame
  | next c answer seen =>
    cases hcall : s.calls c with
    | none =>
      simp only [step, hcall] at hsame
      exact absurd rfl hsame
    | some call =>
      simp only [step, hcall] at hsame hr'
      rcases requests_turn d s.toBrokerDb c call answer seen call.point with heq | hgoes
      · exact absurd (congrFun heq id) hsame
      · obtain ⟨row, dst, cols, fence, hrow, hasks, hfenced, hedge, hdb⟩ :=
          hgoes.exists_row (hinformed c call hcall)
        have hafter := congrFun (congrArg BrokerDb.requests hdb) id
        by_cases hid : id = call.requestId
        · subst hid
          obtain rfl : row = r := Option.mem_unique hrow hr
          refine ⟨c, answer, seen, call, dst, cols, fence, rfl, hcall, rfl, hasks,
            hfenced, hedge, ?_⟩
          exact Option.some.inj (hr'.symm.trans (hafter.trans (Function.update_self ..)))
        · exact absurd (hafter.trans (Function.update_of_ne hid ..)) hsame
  | approval op => exact absurd (congrFun (requests_writeApproval op) id) hsame
  | _ => exact absurd rfl hsame

/-- A step that keeps to the condition moves an executing request as its holder: it settles it, or
writes down what it has found. -/
theorem moved_executing (hinformed : AllInformed s) (hlawful : lawful d s act)
    (hr : s.requests id = some r) (hstate : r.state = .executing)
    (hr' : (step d s act).requests id = some r') (hne : r' ≠ r) :
    ByHolder s act r id ∧ ((∃ c answer seen call a, act = .next c answer seen ∧
      s.calls c = some call ∧ call.requestId = id ∧ call.point = .settling r a) ∨
        r'.state = .succeeded) := by
  obtain ⟨c, answer, seen, call, dst, cols, fence, rfl, hcall, rfl, hasks, hfenced, hedge, rfl⟩ :=
    exists_asks_of_ne hinformed hr hr' hne
  have hkeeps : call.point.lawful d s.toBrokerDb call.requestId = true := by
    rw [lawful, hcall] at hlawful
    exact hlawful
  have hholder : ∀ {h : Holder}, fence = some h → call.op.holder? = some h →
      ByHolder s (.next c answer seen) r call.requestId := by
    rintro h rfl hop
    obtain ⟨hlease, hlock⟩ := hfenced h rfl
    exact ⟨c, answer, seen, call, h, rfl, hcall, rfl, hop, hlease, hlock⟩
  generalize hp : call.point = p at hasks hkeeps
  generalize hsrc : r.state = src at hasks hedge
  cases hasks with
  | expire row cols hcols =>
    simp [Point.lawful, hstate, hr] at hkeeps
  | deny row reason cols hcols | «open» row h hop =>
    rw [hstate] at hedge
    exact absurd hedge (by decide)
  | authorize row decision cols hcols =>
    rw [hstate] at hsrc
    cases hsrc
  | settle row a h dst cols hop hset =>
    exact ⟨hholder rfl hop, .inl ⟨c, answer, seen, call, a, rfl, hcall, rfl, hp⟩⟩
  | record row o h cols hop hfound => exact ⟨hholder rfl hop, .inr rfl⟩

/-! ### What the holder has opened -/

/-- The row a call works on, while it is in an execution. -/
def Point.execution? : Point → Option RequestRow
  | preparing row | dispatching row | settling row _ => some row
  | _ => none

/-- A request whose execution is open is as it was opened, or it has succeeded. -/
def Held (s : System) : Prop :=
  ∀ c call row, s.calls c = some call → call.point.execution? = some row →
    ∃ r, s.requests call.requestId = some r ∧ (r = row ∨ r.state = .succeeded)

theorem stage?_of_execution? (h : call.point.execution? = some row) :
    ∃ g, call.stage? call.requestId = some g := by
  obtain ⟨op, id, p⟩ := call
  cases p with
  | preparing row => exact ⟨_, stage?_preparing op row⟩
  | dispatching row => exact ⟨_, stage?_dispatching op row⟩
  | settling row a => exact ⟨_, stage?_settling op row a⟩
  | _ => cases h

theorem eq_of_execution? {c' : ℕ} {call' : Call} {row' : RequestRow}
    (hpaced : (course s call.requestId).Paced) (hcall : s.calls c = some call)
    (hcall' : s.calls c' = some call') (hid : call'.requestId = call.requestId)
    (hexec : call.point.execution? = some row) (hexec' : call'.point.execution? = some row') :
    c' = c := by
  obtain ⟨g, hg⟩ := stage?_of_execution? hexec
  obtain ⟨g', hg'⟩ := stage?_of_execution? hexec'
  rw [hid] at hg'
  exact hpaced.one c' c g' g ((stages_course hcall').trans hg') ((stages_course hcall).trans hg)

/-- Where an execution goes on, it was opened before, or in this step. -/
theorem Leads.execution {db db' : BrokerDb} {p q : Point} {es : List Event}
    (h : Leads d db db' c call p q es) (hexec : q.execution? = some row) :
    (∃ row₀ h, p = .opening row₀ ∧
      row = movedRow .executing { holder := some (some h) } row₀ ∧
      transitionRowAuthoritative db (lockName row₀) h call.requestId row₀.state .executing
        row₀.revision { holder := some (some h) } = .ok db') ∨
      p = .preparing row ∨ p = .dispatching row := by
  cases h with
  | opened row₀ h hop hok =>
    cases hexec
    exact .inl ⟨row₀, h, rfl, rfl, hok⟩
  | refused row a | dispatched row =>
    cases hexec
    exact .inr (.inl rfl)
  | answered row answer =>
    cases hexec
    exact .inr (.inr rfl)
  | unexpired row q hlive hq => rcases hq with rfl | ⟨-, rfl⟩ <;> cases hexec
  | policy row =>
    have hnone : ∀ decision reason,
        (afterPolicy row decision reason call.op).execution? = none := by
      intro decision reason
      cases call.op <;> simp only [afterPolicy] <;> (try split) <;> rfl
    rw [hnone] at hexec
    cases hexec
  | _ => cases hexec

theorem requests_turn_of_execution {answer : Answer} {seen : Observed} {p : Point} {db : BrokerDb}
    (hp : p = .preparing row ∨ p = .dispatching row) :
    (turn d db c call answer seen p).db.requests = db.requests := by
  rcases requests_turn d db c call answer seen p with heq | ⟨_, _, _, _, _, hasks, -⟩
  · exact heq
  · rcases hp with rfl | rfl <;> cases hasks

/-- **What the holder has opened stays as it was**, unless it has succeeded. -/
theorem held_step (hinformed : AllInformed s) (hpaced : ∀ id, (course s id).Paced)
    (hlawful : lawful d s act) (h : Held s) : Held (step d s act) := by
  intro c call row hcall hexec
  by_cases hown : s.calls c = some call
  · obtain ⟨r, hr, hor⟩ := h c call row hown hexec
    obtain ⟨r', hr', hlater⟩ := rowsLater_step (d := d) s act call.requestId r hr
    by_cases heq : r' = r
    · exact ⟨r', hr', heq ▸ hor⟩
    · have hrow : r = row := by
        rcases hor with hrow | hdone
        · exact hrow
        · exact absurd (hlater.eq_of_isTerminal (by rw [hdone]; rfl)) heq
      have hstate : r.state = .executing := by
        have hfits := (hinformed c call hown).fits
        rw [hrow]
        generalize call.point = p at hexec hfits
        cases p <;> cases hexec <;> exact hfits
      rcases (moved_executing hinformed hlawful hr hstate hr' heq).2 with
        ⟨c', answer, seen, call', a, rfl, hcall', hid, hpoint⟩ | hdone
      · -- The call that settles it is this one, which has left its execution then.
        have hexec' : call'.point.execution? = some r := by rw [hpoint]; rfl
        obtain rfl := eq_of_execution? (hpaced call.requestId) hown hcall' hid hexec hexec'
        obtain rfl : call' = call := Option.mem_unique hcall' hown
        simp only [step, hown] at hcall
        have hsame := congrArg Call.point
          (Option.mem_unique System.calls_take_self hcall)
        have hleads := leads_turn d s.toBrokerDb c' call' answer seen call'.point
        dsimp only at hsame
        rw [hsame, hpoint] at hleads
        rcases hleads.execution rfl with ⟨_, _, hopening, -⟩ | hp | hp
        · cases hopening
        · cases hp
        · cases hp
      · exact ⟨r', hr', .inr hdone⟩
  · rcases calls_cases hcall hown with hpoint | hpoint | ⟨answer, seen, call₀, rfl, hcall₀, rfl⟩
    · rw [hpoint] at hexec
      cases hexec
    · rw [hpoint] at hexec
      cases hexec
    · simp only [step, hcall₀]
      have hleads := leads_turn d s.toBrokerDb c call₀ answer seen call₀.point
      rcases hleads.execution hexec with ⟨row₀, holder, hopening, rfl, hok⟩ | hp
      · have hseen := (hinformed c call₀ hcall₀).seen row₀ (by rw [hopening]; rfl)
        obtain ⟨-, -, hdb⟩ := requests_opened hseen hok
        refine ⟨_, ?_, .inl rfl⟩
        exact (congrFun (congrArg BrokerDb.requests hdb) _).trans (Function.update_self ..)
      · obtain ⟨r, hr, hor⟩ := h c call₀ row hcall₀ (by rcases hp with hp | hp <;> rw [hp] <;> rfl)
        refine ⟨r, ?_, hor⟩
        exact (congrFun (requests_turn_of_execution hp) _).trans hr

/-! ### Steps and runs -/

theorem holderDecides_step (hinformed : AllInformed s) (hheld : Held s)
    (hlawful : lawful d s act) : HolderDecides d s act where
  leaves := by
    intro id r r' hr hstate hr' hleft
    refine (moved_executing hinformed hlawful hr hstate hr' ?_).1
    rintro rfl
    exact hleft hstate
  records := by
    rintro c answer seen call row a h rfl hcall hpoint houtcome hop hlease hlock
    obtain ⟨r, hr, rfl | hdone⟩ := hheld c call row hcall (by rw [hpoint]; rfl)
    · have hfits := (hinformed c call hcall).fits
      have hrecordable : a.recordable d = true := by
        rw [lawful, hcall, Option.all_some, hpoint, Point.lawful, houtcome] at hlawful
        simpa using hlawful
      rw [hpoint] at hfits
      obtain ⟨-, r', hr', hsettled⟩ := (settle_iff hlease hlock hr hfits).mpr hrecordable
      rw [settling_next hcall hpoint hop]
      exact ⟨r', hr', hsettled.succeeded.mpr houtcome⟩
    · obtain ⟨r', hr', hlater⟩ := rowsLater_step (d := d) s (.next c answer seen) _ r hr
      refine ⟨r', hr', ?_⟩
      rw [hlater.eq_of_isTerminal (by rw [hdone]; rfl), hdone]

variable {queue : MergeQueue.Db} {approvals : String → Option ApprovalRow} {as : List Act}

theorem held_run
    (h : Runs.Along (step d) (fun s act => lawful d s act = true) (initial queue approvals) as) :
    AllInformed (run d queue approvals as) ∧ Held (run d queue approvals as) := by
  have hall : AllInformed (run d queue approvals as) ∧
      (∀ id, (course (run d queue approvals as) id).Paced) ∧ Held (run d queue approvals as) := by
    refine Runs.run_inv (I := fun s => AllInformed s ∧ (∀ id, (course s id).Paced) ∧ Held s)
      (fun s act hs hlawful => ?_) ?_ h
    · obtain ⟨hinformed, hpaced, hheld⟩ := hs
      exact ⟨allInformed_step hinformed act,
        fun id => (hpaced id).step (course_step hinformed act id),
        held_step hinformed hpaced hlawful hheld⟩
    · refine ⟨?_, fun id => paced_initial, ?_⟩
      · rintro c call ⟨⟩
      · rintro c call row ⟨⟩
  exact ⟨hall.1, hall.2.2⟩

/-- **Only the live holder decides an executing request**, in every run in which no call blocks
one because it has expired and every success can be written down: whatever moves it is a step of
a call whose holder has the current lease and the lock of the request, and a success that a call
settles under its lease and lock is recorded. -/
theorem holder_decides (d : Driver) (queue : MergeQueue.Db)
    (approvals : String → Option ApprovalRow) (as : List Act)
    (h : Runs.Along (step d) (fun s act => lawful d s act = true) (initial queue approvals) as) :
    Runs.Along (step d) (HolderDecides d) (initial queue approvals) as := by
  refine Runs.along_iff_split.mpr fun bs act cs hsplit => ?_
  subst hsplit
  obtain ⟨hbefore, hstep, -⟩ := Runs.along_append.mp h
  obtain ⟨hinformed, hheld⟩ := held_run hbefore
  exact holderDecides_step hinformed hheld hstep

/-- **A success under the lease and the lock is recorded.** -/
theorem holder_decides_success : Runs.Along (step fixture) (HolderDecides fixture)
    (initial twoJobs fun _ => none) (untilDispatch ++ .next 1 success .nothing :: steps 1 3) :=
  holder_decides fixture twoJobs (fun _ => none) _ (by decide +kernel)

/-- Before the holder's call comes back, the request expires, and another call, made without a
holder, finds it so. -/
def untilExpiry : List Act :=
  untilDispatch ++ [.waits 60, .start 2 .authorizeAutonomous updateId] ++ steps 2 2

theorem run_untilExpiry : let s := run fixture twoJobs (fun _ => none) untilExpiry
    (s.requests updateId).map (·.state) = some .executing ∧
      jobHoldsCurrentLease s.toDb ("driver", 1) = true ∧
      s.locks (lockName openRow) = some ("driver", 1) ∧
      (s.calls 2).map (·.op) = some .authorizeAutonomous ∧
      ((step fixture s (.next 2 .other .nothing)).requests updateId).map (·.state) =
        some .blocked := by
  decide +kernel

/-- **A call without a holder can decide an executing request**: it blocks one that has expired
while its live holder is with the provider. -/
theorem expiry_unseats_holder :
    ¬∀ (d : Driver) (queue : MergeQueue.Db) (approvals : String → Option ApprovalRow)
      (as : List Act), Runs.Along (step d) (HolderDecides d) (initial queue approvals) as := by
  intro hall
  have hrun := hall fixture twoJobs (fun _ => none) (untilExpiry ++ [.next 2 .other .nothing])
  have hdecides : HolderDecides fixture (run fixture twoJobs (fun _ => none) untilExpiry)
      (.next 2 .other .nothing) := (Runs.along_append.mp hrun).2.1
  obtain ⟨hstate, -, -, hop, hblocked⟩ := run_untilExpiry
  obtain ⟨r, hr, hexecuting⟩ := Option.map_eq_some_iff.mp hstate
  obtain ⟨r', hr', hblocked⟩ := Option.map_eq_some_iff.mp hblocked
  obtain ⟨c, answer, seen, call, h, hact, hcall, -, hholder, -⟩ :=
    hdecides.leaves updateId r r' hr hexecuting hr' (by rw [hblocked]; rintro ⟨⟩)
  cases hact
  rw [hcall, Option.map_some, Option.some.injEq] at hop
  rw [hop] at hholder
  cases hholder

end Calls

end Broker

end ArgentTeam
