import Mathlib.Data.Nat.Pairing
import ArgentTeam.Lib.Runs
import ArgentTeam.Lib.Versioned
import ArgentTeam.Runtime.Instance

/-!
# One supervisor at a time

An instance that has acquired the row finds itself named there until it releases it or its process
ends. The row of a released owner, or of one whose process has ended, may be replaced, and only
those: what a process has found out of the owner, that it has ended, stays true, and the
compare-and-set refuses where the row was written since it was read.
-/

namespace ArgentTeam

open Machines Versioned

namespace Runtime

variable {d : Naming} {s s' : System} {e : Event} {i j : Instance} {p q : Process} {m m' : Fleet}
  {r r' : InstanceRow} {c : Call} {who : Self}

/-! ### What is asked of a state and of a step -/

/-- The instance runs the supervisor: it has acquired the row, has not released it, and lives. -/
def System.Active (s : System) (i : Instance) : Prop :=
  s.held i = true ∧ s.fleet.lives i.process = true

/-- A heartbeat, or a release. -/
def Event.renews : Event → Option Instance
  | heartbeat i _ _ | release i _ _ => some i
  | _ => none

/-- The process of the owner has ended. -/
def Gone (d : Naming) (m : Fleet) (r : InstanceRow) : Prop :=
  ∀ j, d.instanceId j = r.instanceId → m.lives j.process = false

/-- What is asked of a step. -/
structure Lawful (d : Naming) (s : System) (e : Event) : Prop where
  replaced : ∀ i now, e = .cas i now → ∀ r, s.row = some r →
    (step d s e).row = some r ∨ r.status = .released ∨ Gone d s.fleet r
  grows : Grows InstanceRow.revision s.row (step d s e).row
  own : ∀ i, e.renews = some i → (∀ r, s.row = some r → r.instanceId ≠ d.instanceId i) →
    step d s e = s

/-- The state after a run. -/
def run (d : Naming) : List Event → System := Runs.run (step d) initial

/-! ### What is known of an owner -/

/-- This is who the process is. -/
structure Identifies (d : Naming) (p : Process) (bootId hostId : Option String)
    (pid startTicks : Option ℕ) : Prop where
  boot : bootId = some (d.bootId p.host p.boot)
  host : ∀ h, hostId = some h → h = d.machineId p.host
  pid : pid = some p.pid
  ticks : startTicks = some p.startTicks

/-- The owner was started, and the row says who it is. -/
structure Known (d : Naming) (m : Fleet) (r : InstanceRow) : Prop where
  started : ∀ j, d.instanceId j = r.instanceId → j.process < m.started
  identifies : ∀ j, d.instanceId j = r.instanceId → ∀ p ∈ m.living, p.name = j.process →
    Identifies d p r.bootId r.hostId r.pid r.processStartTicks

theorem Known.later (h : Known d m r) (hm : m.Later m') : Known d m' r where
  started j hj := (h.started j hj).trans_le hm.started
  identifies j hj p hp hname :=
    h.identifies j hj p (hm.lived hp (hname ▸ h.started j hj)) hname

theorem Gone.later (h : Gone d m r) (hknown : Known d m r) (hm : m.Later m') : Gone d m' r := by
  intro j hj
  rw [← Bool.not_eq_true, Fleet.lives_eq_true]
  rintro ⟨p, hp, hname⟩
  have hlives : m.lives j.process = true := Fleet.lives_eq_true.mpr
    ⟨p, hm.lived hp (hname ▸ hknown.started j hj), hname⟩
  rw [h j hj] at hlives
  cases hlives

/-- An owner in another boot of a host that is its own has ended: the host was booted since. -/
theorem gone_of_boot (hm : m.Sound) (hq : q ∈ m.living) (hknown : Known d m r)
    (hboot : r.bootId ≠ some (d.bootId q.host q.boot))
    (hhost : r.hostId = some (d.machineId q.host)) : Gone d m r := by
  intro j hj
  rw [← Bool.not_eq_true, Fleet.lives_eq_true]
  rintro ⟨p, hp, hname⟩
  have hid := hknown.identifies j hj p hp hname
  have hsame : q.host = p.host := d.machineId_injective (hid.host _ hhost)
  have hboots : q.boot = p.boot := by rw [hm.boot q hq, hm.boot p hp, hsame]
  exact hboot (by rw [hid.boot, hsame, hboots])

/-- An owner in the same boot whose identifier nobody has has ended. -/
theorem gone_of_pid (hknown : Known d m r) (hboot : r.bootId = some (d.bootId q.host q.boot))
    {pid : ℕ} (hpid : r.pid = some pid) (halive : m.pidAlive q.host pid = false) :
    Gone d m r := by
  intro j hj
  rw [← Bool.not_eq_true, Fleet.lives_eq_true]
  rintro ⟨p, hp, hname⟩
  have hid := hknown.identifies j hj p hp hname
  have hsame : q.host = p.host :=
    (d.bootId_injective (Option.mem_unique hboot hid.boot)).1
  have hused : m.pidAlive q.host pid = true := Fleet.pidAlive_eq_true.mpr
    ⟨p, hp, hsame.symm, Option.mem_unique hid.pid hpid⟩
  rw [halive] at hused
  cases hused

/-- So has one whose identifier a process has that was started at another moment. -/
theorem gone_of_ticks (hm : m.Sound) (hknown : Known d m r)
    (hboot : r.bootId = some (d.bootId q.host q.boot)) {pid ticks : ℕ} (hpid : r.pid = some pid)
    (hticks : m.startTicks q.host pid = some ticks) (hne : some ticks ≠ r.processStartTicks) :
    Gone d m r := by
  intro j hj
  rw [← Bool.not_eq_true, Fleet.lives_eq_true]
  rintro ⟨p, hp, hname⟩
  have hid := hknown.identifies j hj p hp hname
  have hsame : q.host = p.host :=
    (d.bootId_injective (Option.mem_unique hboot hid.boot)).1
  have hown : p.pid = pid := Option.mem_unique hid.pid hpid
  rw [hsame, ← hown, hm.startTicks_eq hp] at hticks
  exact hne (hticks.symm.trans hid.ticks.symm)

/-! ### What holds in every state -/

/-- An instance knows who it is. -/
structure Self.Own (d : Naming) (p : Process) (who : Self) : Prop where
  boot : who.liveBoot = d.bootId p.host p.boot
  host : ∀ h, who.hostId = some h → h = d.machineId p.host
  ticks : who.ownTicks = p.startTicks

/-- The owner may be replaced. -/
def Vacant (d : Naming) (m : Fleet) (r : InstanceRow) : Prop := r.status = .released ∨ Gone d m r

/-- What an instance knows where it is. -/
def Call.Ok (d : Naming) (s : System) (p : Process) : Call → Prop
  | idle _ => True
  | booted liveBoot => liveBoot = d.bootId p.host p.boot
  | hosted liveBoot hostId =>
    liveBoot = d.bootId p.host p.boot ∧ ∀ h, hostId = some h → h = d.machineId p.host
  | trying who _ => who.Own d p
  | looked who _ owner =>
    who.Own d p ∧ Known d s.fleet owner ∧
      Since InstanceRow.revision s.row owner.revision (· = owner)
  | probed who _ owner alive =>
    who.Own d p ∧ Known d s.fleet owner ∧
      Since InstanceRow.revision s.row owner.revision (· = owner) ∧
      (alive = some false → owner.bootId = some who.liveBoot → Gone d s.fleet owner)
  | resolved who _ expected _ =>
    who.Own d p ∧ ∀ n, expected = some n → Since InstanceRow.revision s.row n (Vacant d s.fleet)

/-- What holds in every state. -/
structure Consistent (d : Naming) (s : System) : Prop where
  fleet : s.fleet.Sound
  row : ∀ r, s.row = some r → Known d s.fleet r
  active : ∀ i, s.Active i → ∃ r, s.row = some r ∧ r.status = .active ∧
    r.instanceId = d.instanceId i
  call : ∀ i, ∀ p ∈ s.fleet.living, p.name = i.process → (s.call i).Ok d s p
  fresh : ∀ i, s.fleet.started ≤ i.process → s.held i = false ∧ s.call i = .idle none

/-- **At most one instance runs the supervisor.** -/
theorem Consistent.single (h : Consistent d s) (hi : s.Active i) (hj : s.Active j) : i = j := by
  obtain ⟨r, hr, -, hid⟩ := h.active i hi
  obtain ⟨r', hr', -, hid'⟩ := h.active j hj
  obtain rfl := Option.mem_unique hr hr'
  exact d.instanceId_injective (hid.symm.trans hid')

theorem Consistent.ne_of_started (h : Consistent d s) (hp : p ∈ s.fleet.living)
    (hname : p.name = i.process) (hj : s.fleet.started ≤ j.process) : j ≠ i := by
  rintro rfl
  exact absurd (h.fleet.started p hp) (not_lt.mpr (hname ▸ hj))

/-- What an instance knows it knows later, as the row is written and others end. -/
theorem Call.Ok.later (h : c.Ok d s p) (hrow : ∀ r, s.row = some r → Known d s.fleet r)
    (hm : s.fleet.Later s'.fleet) (hgrows : Grows InstanceRow.revision s.row s'.row) :
    c.Ok d s' p := by
  cases c with
  | idle | booted | hosted | trying => exact h
  | looked who left owner => exact ⟨h.1, h.2.1.later hm, h.2.2.grows hgrows⟩
  | probed who left owner alive =>
    obtain ⟨hown, hknown, hsince, hgone⟩ := h
    exact ⟨hown, hknown.later hm, hsince.grows hgrows, fun ha hb => (hgone ha hb).later hknown hm⟩
  | resolved who left expected verdict =>
    refine ⟨h.1, fun n hn => Since.grows (Since.imp (h.2 n hn) fun r hr hvacant => ?_) hgrows⟩
    exact hvacant.imp_right fun hgone => hgone.later (hrow r hr) hm

/-! ### The steps that read -/

/-- Who is classified as dead is in another boot of the same host, or its identifier is not in use,
or is that of a process that was started at another moment. -/
theorem dead_cases {ownerBootId liveBootId ownerHostId liveHostId : Option String}
    {ownerPid ownerStartTicks liveStartTicks : Option ℕ} {pidAlive : Option Bool}
    (h : classifyOwnerLiveness ownerBootId ownerPid ownerStartTicks liveBootId pidAlive
      liveStartTicks ownerHostId liveHostId = .dead) :
    ownerBootId ≠ liveBootId ∧ ownerHostId = liveHostId ∧ liveHostId ≠ none ∨
      ownerBootId = liveBootId ∧ (pidAlive = some false ∨ pidAlive = some true ∧
        liveStartTicks ≠ none ∧ liveStartTicks ≠ ownerStartTicks) := by
  unfold classifyOwnerLiveness at h
  by_cases hboot : ownerBootId = liveBootId
  · refine .inr ⟨hboot, ?_⟩
    simp only [hboot, ne_eq, not_true_eq_false, if_false] at h
    split_ifs at h with _ _ _ hfalse hticks hsame
    · exact .inl hfalse
    · refine .inr ⟨?_, hticks, hsame⟩
      cases hpid : pidAlive with
      | none => contradiction
      | some b => cases b with
        | true => rfl
        | false => exact absurd hpid hfalse
  · refine .inl ⟨hboot, ?_⟩
    simp only [ne_eq, hboot, not_false_eq_true, if_true] at h
    split_ifs at h with _ _ hnone hhost
    exact ⟨hhost, fun hlive => hnone (.inr hlive)⟩

theorem dead_of_verdict {alive : Option Bool} {ticks : Option ℕ}
    (h : ¬(classifyExisting r who alive ticks = .liveOwner ∨
      classifyExisting r who alive ticks = .ambiguous)) :
    classifyOwnerLiveness r.bootId r.pid r.processStartTicks (some who.liveBoot) alive ticks
      r.hostId who.hostId = .dead := by
  unfold classifyExisting at h
  split at h
  · exact absurd (.inl rfl) h
  · assumption
  · exact absurd (.inr rfl) h

/-- An instance goes on, and only that. -/
structure Moves (d : Naming) (s s' : System) (i : Instance) (p : Process) : Prop where
  row : s'.row = s.row
  fleet : s'.fleet = s.fleet
  held : s'.held = s.held
  call : ∃ c : Call, c.Ok d s p ∧ s'.call = Function.update s.call i c

theorem moves_goto (hc : c.Ok d s p) : Moves d s (s.goto i c) i p := ⟨rfl, rfl, rfl, c, hc, rfl⟩

theorem moves_fail {verdict : InstanceVerdict} {detail : String} {owner : Option InstanceRow} :
    Moves d s (s.fail i verdict detail owner) i p := moves_goto trivial

/-- What is found out of the identifier of the owner is true of it. -/
theorem gone_of_probe {answers : Bool} (hwho : who.Own d p) (hknown : Known d s.fleet r)
    (halive : (r.pid.bind fun pid => observed answers (some (s.fleet.pidAlive p.host pid))) =
      some false) (hboot : r.bootId = some who.liveBoot) : Gone d s.fleet r := by
  obtain ⟨pid, hpid, hobserved⟩ := Option.bind_eq_some_iff.mp halive
  rw [hwho.boot] at hboot
  rcases observed_cases answers (some (s.fleet.pidAlive p.host pid)) with h | h
  · cases h.symm.trans hobserved
  · exact gone_of_pid hknown hboot hpid (Option.mem_unique h hobserved)

/-- **Who is found to be dead has ended.** -/
theorem gone_of_dead {answers : Bool} {alive : Option Bool} (hfleet : s.fleet.Sound)
    (hp : p ∈ s.fleet.living) (hwho : who.Own d p) (hknown : Known d s.fleet r)
    (hprobe : alive = some false → r.bootId = some who.liveBoot → Gone d s.fleet r)
    (hdead : classifyOwnerLiveness r.bootId r.pid r.processStartTicks (some who.liveBoot) alive
      (ownerTicks s.fleet p.host r alive answers) r.hostId who.hostId =
        .dead) : Gone d s.fleet r := by
  rcases dead_cases hdead with ⟨hboot, hhost, hsome⟩ | ⟨hboot, hfalse | ⟨htrue, hticks, hne⟩⟩
  · obtain ⟨h, hid⟩ := Option.ne_none_iff_exists'.mp hsome
    rw [hwho.boot] at hboot
    exact gone_of_boot hfleet hp hknown hboot
      (by rw [hhost, hid, hwho.host h hid])
  · exact hprobe hfalse hboot
  · rw [ownerTicks, if_pos htrue] at hticks hne
    rw [hwho.boot] at hboot
    obtain ⟨ticks, hread⟩ := Option.ne_none_iff_exists'.mp hticks
    obtain ⟨pid, hpid, hobserved⟩ := Option.bind_eq_some_iff.mp hread
    rw [hread] at hne
    rcases observed_cases answers (s.fleet.startTicks p.host pid) with h | h
    · cases h.symm.trans hobserved
    · exact gone_of_ticks hfleet hknown hboot hpid (h.symm.trans hobserved) hne

/-- The event reads, and does not write. -/
def Event.reads : Event → Bool
  | readBoot _ _ | readHost _ _ | readSelf _ _ _ _ | look _ | probe _ _ | resolve _ _ | abandon _ =>
    true
  | _ => false

/-- **An instance that reads knows what it has read.** -/
theorem moves_of_reads (h : Consistent d s) (hp : p ∈ s.fleet.living) (hname : p.name = i.process)
    (he : e.reads) : instanceStep d s i p e = s ∨ Moves d s (instanceStep d s i p e) i p := by
  have hok := h.call i p hp hname
  cases e with
  | readBoot _ answers =>
    simp only [instanceStep]
    split
    · split
      · exact .inr moves_fail
      · rename_i liveBoot hread
        refine .inr (moves_goto ?_)
        rcases observed_cases answers (some (d.bootId p.host p.boot)) with ho | ho
        · cases ho.symm.trans hread
        · exact (Option.mem_unique ho hread).symm
    · exact .inl rfl
  | readHost _ answers =>
    simp only [instanceStep]
    split
    · rename_i liveBoot hcall
      rw [hcall] at hok
      refine .inr (moves_goto ⟨hok, fun host hread => ?_⟩)
      rcases observed_cases answers (some (d.machineId p.host)) with ho | ho
      · cases ho.symm.trans hread
      · exact (Option.mem_unique ho hread).symm
    · exact .inl rfl
  | readSelf _ answers now later =>
    simp only [instanceStep]
    split
    · rename_i liveBoot hostId hcall
      rw [hcall] at hok
      split
      · exact .inr moves_fail
      · rename_i ownTicks hread
        refine .inr (moves_goto ⟨hok.1, hok.2, ?_⟩)
        rw [h.fleet.startTicks_eq hp] at hread
        rcases observed_cases answers (some p.startTicks) with ho | ho
        · cases ho.symm.trans hread
        · exact (Option.mem_unique ho hread).symm
    · exact .inl rfl
  | look _ =>
    simp only [instanceStep]
    split
    · exact .inr moves_fail
    · rename_i who left hcall
      rw [hcall] at hok
      split
      · exact .inr (moves_goto ⟨hok, fun n hn => by cases hn⟩)
      · rename_i owner hrow
        split
        · rename_i hreleased
          refine .inr (moves_goto ⟨hok, fun n hn => ?_⟩)
          obtain rfl := Option.some.inj hn
          exact Since.of_read hrow (.inl hreleased)
        · exact .inr (moves_goto ⟨hok, h.row owner hrow, Since.of_read hrow rfl⟩)
    · exact .inl rfl
  | probe _ answers =>
    simp only [instanceStep]
    split
    · rename_i who left owner hcall
      rw [hcall] at hok
      obtain ⟨hwho, hknown, hsince⟩ := hok
      exact .inr (moves_goto ⟨hwho, hknown, hsince, gone_of_probe hwho hknown⟩)
    · exact .inl rfl
  | resolve _ answers =>
    simp only [instanceStep]
    split
    · rename_i who left owner alive hcall
      rw [hcall] at hok
      obtain ⟨hwho, hknown, hsince, hprobe⟩ := hok
      split
      · exact .inr moves_fail
      · rename_i hverdict
        refine .inr (moves_goto ⟨hwho, fun n hn => ?_⟩)
        obtain rfl := Option.some.inj hn
        refine hsince.imp fun r _ hr => .inr ?_
        rw [hr]
        exact gone_of_dead h.fleet hp hwho hknown hprobe (dead_of_verdict hverdict)
    · exact .inl rfl
  | abandon _ => exact .inr (moves_goto trivial)
  | machine _ | cas _ _ | heartbeat _ _ _ | release _ _ _ => cases he

theorem Moves.consistent (hmoves : Moves d s s' i p) (h : Consistent d s)
    (hp : p ∈ s.fleet.living) (hname : p.name = i.process) : Consistent d s' := by
  obtain ⟨hrow, hfleet, hheld, c, hc, hcall⟩ := hmoves
  have hsame : ∀ {c : Call} {q : Process}, c.Ok d s q → c.Ok d s' q := fun hok =>
    hok.later h.row (hfleet ▸ Fleet.Later.refl _) (hrow ▸ Grows.refl _)
  refine ⟨hfleet ▸ h.fleet, fun r hr => ?_, fun j hj => ?_, fun j q hq hqname => ?_,
    fun j hj => ?_⟩
  · rw [hfleet]
    exact h.row r (hrow ▸ hr)
  · rw [hrow]
    exact h.active j (by rwa [System.Active, hheld, hfleet] at hj)
  · rw [hfleet] at hq
    rw [hcall]
    by_cases hji : j = i
    · subst hji
      obtain rfl := h.fleet.name p hp q hq (hname.trans hqname.symm)
      rw [Function.update_self]
      exact hsame hc
    · rw [Function.update_of_ne hji]
      exact hsame (h.call j q hq hqname)
  · rw [hfleet] at hj
    rw [hheld, hcall, Function.update_of_ne (h.ne_of_started hp hname hj)]
    exact h.fresh j hj

/-! ### The steps that write -/

theorem updateSupervisorInstance_eq_some {current : Option InstanceRow} {instanceId : String}
    {fields : InstanceRow → InstanceRow}
    (h : updateSupervisorInstance current instanceId fields = some r') :
    ∃ r, current = some r ∧ r.instanceId = instanceId ∧
      r' = { fields r with revision := r.revision + 1 } := by
  unfold updateSupervisorInstance at h
  split at h
  · cases h
  · rename_i r
    split at h
    · cases h
    · rename_i hid
      exact ⟨r, rfl, not_not.mp hid, (Option.some.inj h).symm⟩

theorem casSupervisorInstance_eq_some {current : Option InstanceRow} {expected : Option ℕ}
    {row : ℕ → InstanceRow} (h : casSupervisorInstance current expected row = some r') :
    current.map InstanceRow.revision = expected ∧
      r' = row ((current.map InstanceRow.revision).getD 0 + 1) := by
  unfold casSupervisorInstance at h
  split at h
  · rename_i hexpected
    exact ⟨hexpected, (Option.some.inj h).symm⟩
  · cases h

/-- The row is written anew, and names the owner as before. -/
structure Renames (r r' : InstanceRow) : Prop where
  instanceId : r'.instanceId = r.instanceId
  bootId : r'.bootId = r.bootId
  hostId : r'.hostId = r.hostId
  pid : r'.pid = r.pid
  processStartTicks : r'.processStartTicks = r.processStartTicks
  revision : r'.revision = r.revision + 1

theorem Renames.known (h : Renames r r') (hknown : Known d m r) : Known d m r' where
  started j hj := hknown.started j (hj.trans h.instanceId)
  identifies j hj p hp hname := by
    rw [h.bootId, h.hostId, h.pid, h.processStartTicks]
    exact hknown.identifies j (hj.trans h.instanceId) p hp hname

theorem Renames.grows (h : Renames r r') :
    Grows InstanceRow.revision (some r) (some r') := by
  refine .inr ⟨r', rfl, fun a ha => ?_⟩
  obtain rfl := Option.some.inj ha
  rw [h.revision]
  exact Nat.lt_succ_self _

/-- What the owner writes of itself. -/
theorem Renames.consistent (hrenames : Renames r r') (h : Consistent d s) (hrow : s.row = some r)
    {held : Instance → Bool} (hheld : ∀ i, held i → s.held i)
    (hstatus : ∀ i, held i → r.instanceId = d.instanceId i → r'.status = r.status) :
    Consistent d { s with row := some r', held := held } where
  fleet := h.fleet
  row a ha := by
    obtain rfl := Option.some.inj ha
    exact hrenames.known (h.row r hrow)
  active i hi := by
    obtain ⟨a, ha, hact, hid⟩ := h.active i ⟨hheld i hi.1, hi.2⟩
    obtain rfl := Option.mem_unique hrow ha
    exact ⟨r', rfl, (hstatus i hi.1 hid).trans hact, hrenames.instanceId.trans hid⟩
  call i p hp hname :=
    (h.call i p hp hname).later h.row (Fleet.Later.refl _) (hrow ▸ hrenames.grows)
  fresh i hi := by
    refine ⟨Bool.eq_false_iff.mpr fun hh => ?_, (h.fresh i hi).2⟩
    cases (h.fresh i hi).1.symm.trans (hheld i hh)

theorem Consistent.vacant {left : ℕ} {expected : Option ℕ} {verdict : InstanceVerdict}
    (h : Consistent d s) (hp : p ∈ s.fleet.living) (hname : p.name = i.process)
    (hcall : s.call i = .resolved who left expected verdict)
    (hexpected : s.row.map InstanceRow.revision = expected) (hrow : s.row = some r) :
    Vacant d s.fleet r := by
  have hok := h.call i p hp hname
  rw [hcall] at hok
  rw [hrow] at hexpected
  exact (hok.2 r.revision hexpected.symm).found hrow rfl

theorem grows_buildRow {now : Time} : Grows InstanceRow.revision s.row
    (some (buildRow d i p who now ((s.row.map InstanceRow.revision).getD 0 + 1))) := by
  refine .inr ⟨_, rfl, fun a ha => ?_⟩
  rw [ha]
  exact Nat.lt_succ_self _

/-- **Who acquires the row is the only one that has it.** -/
theorem Consistent.acquires {now : Time} {result : Option InstanceAcquireResult}
    (h : Consistent d s) (hp : p ∈ s.fleet.living) (hname : p.name = i.process)
    (hwho : who.Own d p) (hvacant : ∀ r, s.row = some r → Vacant d s.fleet r) :
    Consistent d { s.goto i (.idle result) with
      row := some (buildRow d i p who now ((s.row.map InstanceRow.revision).getD 0 + 1))
      held := Function.update s.held i true } where
  fleet := h.fleet
  row r hr := by
    obtain rfl := Option.some.inj hr
    constructor
    · intro j hj
      obtain rfl := d.instanceId_injective hj
      exact hname ▸ h.fleet.started p hp
    · intro j hj q hq hqname
      obtain rfl := d.instanceId_injective hj
      obtain rfl := h.fleet.name p hp q hq (hname.trans hqname.symm)
      exact ⟨congrArg some hwho.boot, hwho.host, rfl, congrArg some hwho.ticks⟩
  active j hj := by
    refine ⟨_, rfl, rfl, ?_⟩
    by_cases hji : j = i
    · rw [hji]
      rfl
    · have hbefore : s.Active j := ⟨(Function.update_of_ne hji ..).symm.trans hj.1, hj.2⟩
      obtain ⟨r, hr, hact, hid⟩ := h.active j hbefore
      rcases hvacant r hr with hreleased | hgone
      · cases hact.symm.trans hreleased
      · cases (hgone j hid.symm).symm.trans hj.2
  call j q hq hqname := by
    change (Function.update s.call i _ j).Ok d _ q
    by_cases hji : j = i
    · rw [hji, Function.update_self]
      exact trivial
    · rw [Function.update_of_ne hji]
      exact (h.call j q hq hqname).later h.row (Fleet.Later.refl _) grows_buildRow
  fresh j hj := by
    have hji := h.ne_of_started hp hname hj
    exact ⟨(Function.update_of_ne hji ..).trans (h.fresh j hj).1,
      (Function.update_of_ne hji ..).trans (h.fresh j hj).2⟩

/-- What happens to hosts and processes changes nothing that is known. -/
theorem Consistent.machine (h : Consistent d s) (e : Machines.Event) :
    Consistent d { s with fleet := s.fleet.step e } where
  fleet := h.fleet.step e
  row r hr := (h.row r hr).later (s.fleet.later_step e)
  active i hi := by
    refine h.active i ⟨hi.1, Fleet.lives_eq_true.mpr ?_⟩
    obtain ⟨p, hp, hname⟩ := Fleet.lives_eq_true.mp hi.2
    rcases (s.fleet.later_step e).living p hp with hlived | hnew
    · exact ⟨p, hlived, hname⟩
    · cases (h.fresh i (hname ▸ hnew)).1.symm.trans hi.1
  call i p hp hname := by
    rcases (s.fleet.later_step e).living p hp with hlived | hnew
    · exact (h.call i p hlived hname).later h.row (s.fleet.later_step e) (Grows.refl _)
    · rw [(h.fresh i (hname ▸ hnew)).2]
      exact trivial
  fresh i hi := h.fresh i ((s.fleet.later_step e).started.trans hi)

/-! ### Steps and runs -/

/-- **What a step of an instance does**: nothing, or it goes on; or it puts itself in a row that may
be replaced; or it writes its own row. -/
theorem instanceStep_cases (h : Consistent d s) (hp : p ∈ s.fleet.living)
    (hname : p.name = i.process) (he : e.actor = some i) :
    instanceStep d s i p e = s ∨ Moves d s (instanceStep d s i p e) i p ∨
      (∃ now who result, e = .cas i now ∧ who.Own d p ∧
        (∀ r, s.row = some r → Vacant d s.fleet r) ∧
        instanceStep d s i p e = { s.goto i (.idle result) with
          row := some (buildRow d i p who now ((s.row.map InstanceRow.revision).getD 0 + 1))
          held := Function.update s.held i true }) ∨
      ∃ r r' held, s.row = some r ∧ r.instanceId = d.instanceId i ∧ e.renews = some i ∧
        Renames r r' ∧ (∀ j, held j = true → s.held j = true) ∧
        (∀ j, held j = true → r.instanceId = d.instanceId j → r'.status = r.status) ∧
        instanceStep d s i p e = { s with row := some r', held := held } := by
  by_cases hreads : e.reads = true
  · rcases moves_of_reads h hp hname hreads with heq | hmoves
    · exact .inl heq
    · exact .inr (.inl hmoves)
  · cases e with
    | machine _ => cases he
    | cas j now =>
      obtain rfl := Option.some.inj he
      cases hcall : s.call j with
      | resolved who left expected verdict =>
        have hok := h.call j p hp hname
        rw [hcall] at hok
        cases hcas : casSupervisorInstance s.row expected (buildRow d j p who now) with
        | none =>
          refine .inr (.inl ?_)
          simp only [instanceStep, hcall, hcas]
          exact moves_goto (c := .trying who left) hok.1
        | some row =>
          obtain ⟨hexpected, rfl⟩ := casSupervisorInstance_eq_some hcas
          refine .inr (.inr (.inl ⟨now, who, some ⟨verdict, "acquired", none⟩, rfl, hok.1,
            fun r hr => h.vacant hp hname hcall hexpected hr, ?_⟩))
          simp only [instanceStep, hcall, hcas]
      | _ => exact .inl (by simp only [instanceStep, hcall])
    | heartbeat _ now later =>
      simp only [instanceStep]
      split
      · exact .inl rfl
      · rename_i row hupdate
        obtain ⟨r, hr, hid, hrow⟩ := updateSupervisorInstance_eq_some hupdate
        refine .inr (.inr (.inr ⟨r, row, s.held, hr, hid, he, ?_, fun _ hj => hj, fun _ _ _ => ?_,
          rfl⟩)) <;> rw [hrow]
        exact ⟨rfl, rfl, rfl, rfl, rfl, rfl⟩
    | release _ reason now =>
      simp only [instanceStep]
      split
      · exact .inl rfl
      · rename_i row hupdate
        obtain ⟨r, hr, hid, hrow⟩ := updateSupervisorInstance_eq_some hupdate
        refine .inr (.inr (.inr ⟨r, row, Function.update s.held i false, hr, hid, he, ?_,
          fun j hj => ?_, fun j hj hj' => ?_, rfl⟩))
        · rw [hrow]
          exact ⟨rfl, rfl, rfl, rfl, rfl, rfl⟩
        · by_cases hji : j = i
          · rw [hji, Function.update_self] at hj
            cases hj
          · rwa [Function.update_of_ne hji] at hj
        · obtain rfl := d.instanceId_injective (hid.symm.trans hj')
          rw [Function.update_self] at hj
          cases hj
    | _ => exact absurd rfl hreads

/-- What a step is: one of hosts and processes, or one of an instance whose process lives, or
none. -/
theorem step_cases (d : Naming) (s : System) (e : Event) :
    step d s e = s ∨ (∃ e', e = .machine e' ∧ step d s e = { s with fleet := s.fleet.step e' }) ∨
      ∃ i p, e.actor = some i ∧ p ∈ s.fleet.living ∧ p.name = i.process ∧
        step d s e = instanceStep d s i p e := by
  cases e with
  | machine e => exact .inr (.inl ⟨e, rfl, rfl⟩)
  | _ =>
    simp only [step]
    split
    · exact .inl rfl
    · rename_i i hi
      split
      · exact .inl rfl
      · rename_i p hp
        exact .inr (.inr ⟨i, p, hi, List.mem_of_find?_eq_some hp,
          by simpa using List.find?_some hp, rfl⟩)

/-- **Every step keeps what holds.** -/
theorem Consistent.step (h : Consistent d s) (e : Event) : Consistent d (step d s e) := by
  rcases step_cases d s e with heq | ⟨e', -, heq⟩ | ⟨i, p, he, hp, hname, heq⟩
  · rwa [heq]
  · rw [heq]
    exact h.machine e'
  · rw [heq]
    rcases instanceStep_cases h hp hname he with heq | hmoves |
      ⟨now, who, result, -, hwho, hvacant, heq⟩ | ⟨r, r', held, hr, -, -, hrenames, hheld, hst, heq⟩
    · rwa [heq]
    · exact hmoves.consistent h hp hname
    · rw [heq]
      exact h.acquires hp hname hwho hvacant
    · rw [heq]
      exact hrenames.consistent h hr hheld hst

theorem updateSupervisorInstance_eq_none {instanceId : String} {fields : InstanceRow → InstanceRow}
    (h : ∀ r, s.row = some r → r.instanceId ≠ instanceId) :
    updateSupervisorInstance s.row instanceId fields = none := by
  unfold updateSupervisorInstance
  split
  · rfl
  · rename_i r hr
    exact if_pos (h r hr)

theorem step_of_stranger (hrenews : e.renews = some i)
    (h : ∀ r, s.row = some r → r.instanceId ≠ d.instanceId i) : Runtime.step d s e = s := by
  cases e with
  | heartbeat j _ _ | release j _ _ =>
    obtain rfl := Option.some.inj hrenews
    simp only [Runtime.step, Event.actor, instanceStep, updateSupervisorInstance_eq_none h]
    split <;> rfl
  | _ => cases hrenews

theorem lawful_of_row (h : (Runtime.step d s e).row = s.row) : Lawful d s e :=
  ⟨fun _ _ _ _ hr => .inl (h.trans hr), .inl h, fun _ => step_of_stranger⟩

/-- **Every step is lawful.** -/
theorem Consistent.lawful (h : Consistent d s) (e : Event) : Lawful d s e := by
  rcases step_cases d s e with heq | ⟨e', -, heq⟩ | ⟨i, p, he, hp, hname, heq⟩
  · exact lawful_of_row (by rw [heq])
  · exact lawful_of_row (by rw [heq])
  · rcases instanceStep_cases h hp hname he with heq' | hmoves |
      ⟨now, who, result, rfl, -, hvacant, heq'⟩ | ⟨r, r', held, hr, -, hi, hrenames, -, -, heq'⟩
    · exact lawful_of_row (by rw [heq, heq'])
    · exact lawful_of_row (by rw [heq, hmoves.row])
    · refine ⟨fun _ _ _ r hr => .inr (hvacant r hr), ?_, fun _ => step_of_stranger⟩
      rw [heq, heq']
      exact grows_buildRow
    · refine ⟨fun j now hj => ?_, ?_, fun _ => step_of_stranger⟩
      · rw [hj] at hi
        cases hi
      · rw [heq, heq', hr]
        exact hrenames.grows

theorem consistent_initial : Consistent d initial where
  fleet := Fleet.sound_initial
  row _ hr := by cases hr
  active _ hi := by cases hi.1
  call _ _ hp := by cases hp
  fresh _ _ := ⟨rfl, rfl⟩

/-- **A single active supervisor.** In every state that is reached at most one instance runs the
supervisor, and every step is lawful: the row of an owner that lives and has not released it is not
replaced, every write is of a later revision, and a heartbeat or a release of one that is not named
in the row changes nothing. -/
theorem single_active (d : Naming) (es : List Event) :
    (∀ i j, (run d es).Active i → (run d es).Active j → i = j) ∧
      ∀ e, Lawful d (run d es) e := by
  have h : Consistent d (run d es) :=
    Runs.run_always (I := Consistent d) (fun _ e hs => hs.step e) consistent_initial
  exact ⟨fun _ _ hi hj => h.single hi hj, fun e => h.lawful e⟩

/-! ### A takeover -/

/-- A name for each number. -/
def tally (n : ℕ) : String := String.ofList (List.replicate n 'I')

theorem tally_injective : Function.Injective tally := fun m n h => by
  simpa using congrArg List.length (String.ofList_injective h)

def numbered : Naming where
  machineId := tally
  machineId_injective := tally_injective
  bootId host boot := tally (Nat.pair host boot)
  bootId_injective _ _ _ _ h := Nat.pair_eq_pair.mp (tally_injective h)
  instanceId i := tally (Nat.pair i.process i.serial)
  instanceId_injective i j h := by
    obtain ⟨hprocess, hserial⟩ := Nat.pair_eq_pair.mp (tally_injective h)
    cases i
    cases j
    exact congrArg₂ Instance.mk hprocess hserial
  ttl := 30000000

/-- A first process acquires the row and ends without releasing it; a second one is given its
process identifier. -/
def takesOver : List Event :=
  [.machine (.start 0 5 100), .readBoot ⟨0, 0⟩ true, .readHost ⟨0, 0⟩ true,
    .readSelf ⟨0, 0⟩ true 1 1, .look ⟨0, 0⟩, .cas ⟨0, 0⟩ 2, .machine (.exit 0),
    .machine (.start 0 5 200), .readBoot ⟨1, 0⟩ true, .readHost ⟨1, 0⟩ true,
    .readSelf ⟨1, 0⟩ true 3 3, .look ⟨1, 0⟩, .probe ⟨1, 0⟩ true, .resolve ⟨1, 0⟩ true,
      .cas ⟨1, 0⟩ 4]

/-- The second one finds out by the start of its process that the first is gone, and runs the
supervisor, it alone. -/
theorem single_active_takeover : (run numbered takesOver).Active ⟨1, 0⟩ ∧
    ∀ i, (run numbered takesOver).Active i → i = ⟨1, 0⟩ := by
  have hactive : (run numbered takesOver).Active ⟨1, 0⟩ := by
    constructor <;> decide +kernel
  exact ⟨hactive, fun i hi => (single_active numbered takesOver).1 i _ hi hactive⟩

end Runtime

end ArgentTeam
