import ArgentTeam.Jobs.Recovery
import ArgentTeam.Lib.Machines

/-!
# Whether the agents of a job live

A process of an agent is registered with the boot it runs in, its identifier and its start, as far
as these can be read (`process_registry.py`); what cannot be read is nothing. After a restart the
scheduler looks at the newest registration of a job (`scheduler.py`), compares it with what it now
reads of that identifier, and takes the process for ended where they differ, so that the job may be
taken over.

What it should say is that no agent of the job lives. It does so exactly where the registration it
looks at, should some agent of the job live, is not marked as ended, and says what is read now
(`dead_only_if_dead_iff`). That fails in three ways: what could not be read at registration differs
from everything that can; a later registration hides an earlier process that still runs; and a
registration is marked as ended while its process may still run. Where none of these happens, an
agent that lives is never taken for dead.
-/

namespace ArgentTeam

open Machines Supervisor

namespace Restart

/-! ### Registrations -/

structure ProcessIdentity where
  bootId : Option String
  pid : ℕ
  processStartTicks : Option ℕ

def ProcessIdentity.isKnown (identity : ProcessIdentity) : Bool :=
  identity.bootId.isSome && identity.processStartTicks.isSome

/-- A row of `process_registry`. -/
structure RegistryRow extends Jobs.Registration where
  processStartTicks : Option ℕ

/-- `ProcessRegistry.register`: the row that is inserted. -/
def register (processId jobId : String) (dispatchId : Option String) (identity : ProcessIdentity)
    (scopeEvents : Option Json) : RegistryRow where
  processId := processId
  jobId := jobId
  dispatchId := dispatchId
  pid := identity.pid
  bootId := identity.bootId
  processStartTicks := identity.processStartTicks
  terminationClass := none
  timedOut := false
  scopeEvents := scopeEvents
  status := if identity.isKnown then .running else .unknown
  exitCode := none
  terminalAt := none

/-- How a process has ended. -/
structure TerminalEvidence where
  exitCode : Option ℤ
  terminalAt : Time
  terminationClass : Option TerminationClass
  timedOut : Bool
  scopeEvents : Option Json

/-- `mark_process_terminal_with_evidence`, of one row. -/
def RegistryRow.markTerminal (processId : String) (evidence : TerminalEvidence)
    (r : RegistryRow) : RegistryRow :=
  if r.processId = processId ∧ r.status ≠ .terminal then
    { r with
      status := .terminal
      exitCode := evidence.exitCode
      terminalAt := some evidence.terminalAt
      terminationClass := evidence.terminationClass
      timedOut := evidence.timedOut
      scopeEvents := evidence.scopeEvents }
  else r

/-- What a comparison of identities has shown. -/
inductive IdentityVerdict
  | same
  | pidReuse
  | bootChanged
  deriving DecidableEq

def classifyIdentity (registered : RegistryRow) (observed : ProcessIdentity) : IdentityVerdict :=
  if registered.bootId ≠ observed.bootId then .bootChanged
  else if registered.pid = observed.pid ∧
    registered.processStartTicks = observed.processStartTicks then .same
  else if registered.pid = observed.pid then .pidReuse
  else .bootChanged

/-! ### The verdict of the scheduler -/

/-- What the scheduler takes a job's process for. -/
inductive ProcessVerdict
  | alive
  | terminal
  | unknown
  deriving DecidableEq

/-- `process_evidence`: the newest registration of the job. -/
def processEvidence (registry : List RegistryRow) (jobId : String) : Option RegistryRow :=
  (registry.filter fun r => r.jobId = jobId).getLast?

/-- `_process_identity_verdict`; `current` is what is read of an identifier, nothing where that
raises. -/
def processIdentityVerdict (registry : List RegistryRow) (jobId : String)
    (current : ℕ → Option ProcessIdentity) : ProcessVerdict :=
  match processEvidence registry jobId with
  | none => .unknown
  | some reg =>
    if reg.isTerminallyDead then .terminal
    else if reg.pid = 0 then .unknown
    else
      match current reg.pid with
      | none => .unknown
      | some live =>
        if live.isKnown = false then .unknown
        else if classifyIdentity reg live = .same then .alive
        else .terminal

/-! ### Processes and their registrations -/

/-- A registration, and the process it is of. -/
structure Registered where
  row : RegistryRow
  process : ℕ

/-- The processes, and those that were registered, in the order of insertion. -/
structure Agents where
  fleet : Fleet
  registered : List Registered

structure Reading where
  raises : Bool
  boot : Bool
  ticks : Bool

/-- `ProcessIdentityProvider.current`, on a host. -/
def Reading.current (bootId : ℕ → ℕ → String) (m : Fleet) (host : ℕ) (reading : Reading)
    (pid : ℕ) : Option ProcessIdentity :=
  if reading.raises then none
  else
    some ⟨observed reading.boot (some (bootId host (m.boots host))), pid,
      observed reading.ticks (m.startTicks host pid)⟩

/-- The identity that is registered of a process: what is read, or its identifier alone where
reading raises. -/
def Reading.identity (bootId : ℕ → ℕ → String) (m : Fleet) (p : Process) (reading : Reading) :
    ProcessIdentity :=
  (reading.current bootId m p.host p.pid).getD ⟨none, p.pid, none⟩

/-- What happens. -/
inductive AgentEvent
  /-- Something happens to hosts or processes. -/
  | machine (e : Machines.Event)
  /-- A process that was started is registered, on the host it runs on. -/
  | register (processId jobId : String) (dispatchId : Option String) (p : Process)
    (reading : Reading) (scopeEvents : Option Json)
  /-- A registration is marked as that of a process that has ended. -/
  | markTerminal (processId : String) (evidence : TerminalEvidence)

variable (bootId : ℕ → ℕ → String)

def step (s : Agents) : AgentEvent → Agents
  | .machine e => { s with fleet := s.fleet.step e }
  | .register processId jobId dispatchId p reading scopeEvents =>
    if p ∈ s.fleet.living ∨ s.fleet.lives p.name = false ∧ p.name < s.fleet.started then
      { s with registered := s.registered ++ [⟨register processId jobId dispatchId
          (reading.identity bootId s.fleet p) scopeEvents, p.name⟩] }
    else s
  | .markTerminal processId evidence =>
    { s with registered :=
        s.registered.map fun x => { x with row := x.row.markTerminal processId evidence } }

/-- No process was started. -/
def initial : Agents where
  fleet := .initial
  registered := []

/-- The state after a run. -/
def run : List AgentEvent → Agents := Runs.run (step bootId) initial

namespace Agents

variable (s : Agents)

/-- The rows. -/
def registry : List RegistryRow := s.registered.map Registered.row

/-- An agent of the job lives. -/
def runs (jobId : String) : Prop :=
  ∃ x ∈ s.registered, x.row.jobId = jobId ∧ s.fleet.lives x.process = true

def verdict (jobId : String) (host : ℕ) (reading : Reading) : ProcessVerdict :=
  processIdentityVerdict s.registry jobId (reading.current bootId s.fleet host)

/-- **A job is taken for ended only if it is**: none of its processes lives. -/
def DeadOnlyIfDead (jobId : String) (host : ℕ) (reading : Reading) : Prop :=
  s.verdict bootId jobId host reading = .terminal → ¬s.runs jobId

/-- Should an agent of the job live, the newest registration is not marked as ended, and says what
is read of its identifier, if boot and start can be read. -/
def Evident (jobId : String) (host : ℕ) (reading : Reading) : Prop :=
  s.runs jobId → ∀ r, processEvidence s.registry jobId = some r →
    r.isTerminallyDead = false ∧ ∀ live, r.pid ≠ 0 →
      reading.current bootId s.fleet host r.pid = some live → live.isKnown = true →
      r.bootId = live.bootId ∧ r.processStartTicks = live.processStartTicks

end Agents

/-- A process is registered, with boot and start, while no other one of its job lives, and on the
host of the scheduler; it is marked as ended when it has. -/
def Careful (here : ℕ) (s : Agents) : AgentEvent → Prop
  | .machine _ => True
  | .register _ jobId _ p reading _ =>
    (∀ x ∈ s.registered, x.row.jobId = jobId → s.fleet.lives x.process = true →
      x.process = p.name) ∧
    (p ∈ s.fleet.living →
      p.host = here ∧ reading.raises = false ∧ reading.boot = true ∧ reading.ticks = true)
  | .markTerminal processId _ =>
    ∀ x ∈ s.registered, x.row.processId = processId → s.fleet.lives x.process = false

variable {bootId} {s : Agents} {e : AgentEvent} {jobId : String} {here host n : ℕ} {r : RegistryRow}
  {reading : Reading} {x y : Registered} {processId : String}

/-! ### What the verdict says -/

/-- A job is taken for ended where its newest registration is marked as ended, or says something
else than what is read now. -/
theorem verdict_eq_terminal_iff {registry : List RegistryRow}
    {current : ℕ → Option ProcessIdentity} (hpid : ∀ pid live, current pid = some live →
      live.pid = pid) :
    processIdentityVerdict registry jobId current = .terminal ↔
      ∃ r, processEvidence registry jobId = some r ∧ (r.isTerminallyDead ∨
        ∃ live, r.pid ≠ 0 ∧ current r.pid = some live ∧ live.isKnown ∧
          ¬(r.bootId = live.bootId ∧ r.processStartTicks = live.processStartTicks)) := by
  unfold processIdentityVerdict
  cases processEvidence registry jobId with
  | none => simp
  | some r =>
    cases hcurrent : current r.pid with
    | none => by_cases hdead : r.isTerminallyDead = true <;> simp [hdead, hcurrent]
    | some live =>
      have hsame : classifyIdentity r live = .same ↔
          r.bootId = live.bootId ∧ r.processStartTicks = live.processStartTicks := by
        unfold classifyIdentity
        by_cases hboot : r.bootId = live.bootId <;> simp [hboot, hpid _ _ hcurrent]
      by_cases hdead : r.isTerminallyDead = true <;> by_cases hzero : r.pid = 0 <;>
        by_cases hknown : live.isKnown = true <;> simp [hdead, hzero, hknown, hcurrent, hsame]

theorem current_pid {m : Fleet} {pid : ℕ} {live : ProcessIdentity}
    (h : reading.current bootId m host pid = some live) : live.pid = pid := by
  unfold Reading.current at h
  split at h
  · cases h
  · rw [← Option.some.inj h]

/-- A job is taken for ended only if it is, exactly where the registration is evident. -/
theorem deadOnlyIfDead_iff_evident :
    s.DeadOnlyIfDead bootId jobId host reading ↔ s.Evident bootId jobId host reading := by
  unfold Agents.DeadOnlyIfDead Agents.Evident Agents.verdict
  rw [verdict_eq_terminal_iff fun _ _ => current_pid]
  constructor
  · intro h hruns r hr
    constructor
    · rw [← Bool.not_eq_true]
      exact fun hdead => h ⟨r, hr, .inl hdead⟩ hruns
    · intro live hzero hlive hknown
      by_contra hne
      exact h ⟨r, hr, .inr ⟨live, hzero, hlive, hknown, hne⟩⟩ hruns
  · rintro h ⟨r, hr, hdead | ⟨live, hzero, hlive, hknown, hne⟩⟩ hruns
    · rw [(h hruns r hr).1] at hdead
      cases hdead
    · exact hne ((h hruns r hr).2 live hzero hlive hknown)

/-! ### Careful registration -/

def Agents.newest (s : Agents) (jobId : String) : Option Registered :=
  (s.registered.filter fun x => x.row.jobId = jobId).getLast?

theorem processEvidence_registry :
    processEvidence s.registry jobId = (s.newest jobId).map Registered.row := by
  rw [processEvidence, Agents.registry, Agents.newest, List.filter_map, List.getLast?_map]
  rfl

/-- The registration is not marked as ended, and says which process on the host it is of. -/
structure Tells (bootId : ℕ → ℕ → String) (here : ℕ) (m : Fleet) (y : Registered) : Prop where
  opened : y.row.isTerminallyDead = false
  tells : ∃ p ∈ m.living, p.name = y.process ∧ p.host = here ∧ y.row.pid = p.pid ∧
    y.row.bootId = some (bootId here p.boot) ∧ y.row.processStartTicks = some p.startTicks

/-- What holds where registration is careful. -/
structure Told (bootId : ℕ → ℕ → String) (here : ℕ) (s : Agents) : Prop where
  fleet : s.fleet.Sound
  started : ∀ x ∈ s.registered, x.process < s.fleet.started
  newest : ∀ x ∈ s.registered, s.fleet.lives x.process = true →
    ∃ y, s.newest x.row.jobId = some y ∧ y.process = x.process ∧ Tells bootId here s.fleet y

theorem Told.machine (h : Told bootId here s) (e : Machines.Event) :
    Told bootId here (step bootId s (.machine e)) where
  fleet := h.fleet.step e
  started x hx := (h.started x hx).trans_le (s.fleet.later_step e).started
  newest x hx hlives := by
    obtain ⟨q, hq, hqname⟩ := Fleet.lives_eq_true.mp hlives
    have hbefore : q ∈ s.fleet.living :=
      (s.fleet.later_step e).lived hq (hqname ▸ h.started x hx)
    obtain ⟨y, hy, hyx, hopen, p, hp, hname, hrest⟩ :=
      h.newest x hx (Fleet.lives_eq_true.mpr ⟨q, hbefore, hqname⟩)
    -- the process that lives now is the one the registration is of
    obtain rfl := h.fleet.name p hp q hbefore (hname.trans (hyx.trans hqname.symm))
    exact ⟨y, hy, hyx, hopen, p, hq, hname, hrest⟩

theorem newest_concat : Agents.newest { s with registered := s.registered ++ [x] } jobId =
    if x.row.jobId = jobId then some x else s.newest jobId := by
  simp only [Agents.newest, List.filter_append]
  split
  · rename_i hjob
    rw [List.filter_cons_of_pos (by simpa using hjob), List.filter_nil]
    exact List.getLast?_concat
  · rename_i hjob
    rw [List.filter_cons_of_neg (by simpa using hjob), List.filter_nil, List.append_nil]

theorem identity_eq {p : Process} (hfleet : s.fleet.Sound) (hp : p ∈ s.fleet.living)
    (hraises : reading.raises = false) (hboot : reading.boot)
    (hticks : reading.ticks) : reading.identity bootId s.fleet p =
      ⟨some (bootId p.host p.boot), p.pid, some p.startTicks⟩ := by
  rw [Reading.identity, Reading.current, hraises, hboot, hticks, hfleet.startTicks_eq hp,
    ← hfleet.boot p hp]
  rfl

theorem Told.register {dispatchId : Option String} {p : Process}
    {scopeEvents : Option Json} (h : Told bootId here s)
    (hcareful : Careful here s (.register processId jobId dispatchId p reading scopeEvents)) :
    Told bootId here (step bootId s (.register processId jobId dispatchId p reading
      scopeEvents)) := by
  obtain ⟨hother, hread⟩ := hcareful
  set z : Registered := ⟨Restart.register processId jobId dispatchId
    (reading.identity bootId s.fleet p) scopeEvents, p.name⟩ with hz
  rw [step]
  split
  · rename_i hp
    have hstarted : p.name < s.fleet.started := hp.elim (h.fleet.started p) And.right
    -- who lives under the name of the process is the process, and the new row is of it
    have htells : s.fleet.lives p.name = true → Tells bootId here s.fleet z := by
      intro hlives
      have hliving : p ∈ s.fleet.living := by
        refine hp.resolve_right fun hgone => ?_
        rw [hgone.1] at hlives
        cases hlives
      obtain ⟨rfl, hraises, hboot, hticks⟩ := hread hliving
      rw [identity_eq h.fleet hliving hraises hboot hticks] at hz
      exact ⟨hz ▸ rfl, p, hliving, rfl, rfl, hz ▸ rfl, hz ▸ rfl, hz ▸ rfl⟩
    refine ⟨h.fleet, fun x hx => ?_, fun x hx hlives => ?_⟩
    · rcases List.mem_append.mp hx with hx | hx
      · exact h.started x hx
      · rw [List.mem_singleton.mp hx]
        exact hstarted
    · rw [newest_concat]
      rcases List.mem_append.mp hx with hx | hx
      · by_cases hjob : jobId = x.row.jobId
        · have hsame := hother x hx hjob.symm hlives
          exact ⟨z, if_pos hjob, hsame.symm, htells (hsame ▸ hlives)⟩
        · obtain ⟨y, hy, hyx⟩ := h.newest x hx hlives
          exact ⟨y, (if_neg hjob).trans hy, hyx⟩
      · obtain rfl := List.mem_singleton.mp hx
        exact ⟨z, if_pos rfl, rfl, htells hlives⟩
  · exact h

theorem jobId_markTerminal {evidence : TerminalEvidence} :
    (r.markTerminal processId evidence).jobId = r.jobId := by
  unfold RegistryRow.markTerminal
  split <;> rfl

theorem Told.markTerminal {evidence : TerminalEvidence}
    (h : Told bootId here s) (hcareful : Careful here s (.markTerminal processId evidence)) :
    Told bootId here (step bootId s (.markTerminal processId evidence)) := by
  set mark : Registered → Registered :=
    fun x => { x with row := x.row.markTerminal processId evidence } with hmark
  have hjob : ∀ x, (mark x).row.jobId = x.row.jobId := fun x => jobId_markTerminal
  refine ⟨h.fleet, fun x hx => ?_, fun x hx hlives => ?_⟩
  · obtain ⟨x, hx', rfl⟩ := List.mem_map.mp hx
    exact h.started x hx'
  · obtain ⟨x, hx', rfl⟩ := List.mem_map.mp hx
    obtain ⟨y, hy, hyx, htells⟩ := h.newest x hx' hlives
    have hmem : y ∈ s.registered := (List.mem_filter.mp (List.mem_of_getLast? hy)).1
    have hkept : mark y = y := by
      have hne : y.row.processId ≠ processId := by
        intro heq
        have hdead := hcareful y hmem heq
        rw [hyx] at hdead
        cases hdead.symm.trans hlives
      rw [hmark]
      simp [RegistryRow.markTerminal, hne]
    refine ⟨mark y, ?_, hyx, hkept.symm ▸ htells⟩
    have hfilter : ((s.registered.map mark).filter fun z => z.row.jobId = (mark x).row.jobId) =
        (s.registered.filter fun z => z.row.jobId = x.row.jobId).map mark := by
      rw [List.filter_map]
      simp only [Function.comp_def, hjob]
    change ((s.registered.map mark).filter _).getLast? = _
    rw [hfilter, List.getLast?_map]
    exact congrArg (Option.map mark) hy

theorem Told.step (h : Told bootId here s) (hcareful : Careful here s e) :
    Told bootId here (step bootId s e) := by
  cases e with
  | machine e => exact h.machine e
  | register processId jobId dispatchId p reading scopeEvents => exact h.register hcareful
  | markTerminal processId evidence => exact h.markTerminal hcareful

theorem told_initial : Told bootId here initial where
  fleet := Fleet.sound_initial
  started _ hx := by cases hx
  newest _ hx := by cases hx

theorem Told.evident (h : Told bootId here s) : s.Evident bootId jobId here reading := by
  rintro ⟨x, hx, rfl, hlives⟩ r hr
  obtain ⟨y, hy, -, hopen, p, hp, -, rfl, hpid, hboot, hticks⟩ := h.newest x hx hlives
  rw [processEvidence_registry, hy] at hr
  obtain rfl := Option.some.inj hr
  refine ⟨hopen, fun live _ hlive hknown => ?_⟩
  unfold Reading.current at hlive
  split at hlive
  · cases hlive
  · rw [← Option.some.inj hlive] at hknown ⊢
    rw [hpid, h.fleet.startTicks_eq hp] at hknown ⊢
    rw [hboot, hticks, h.fleet.boot p hp]
    -- what was read, both parts of it, is what the row says
    simp only [ProcessIdentity.isKnown, Bool.and_eq_true] at hknown
    rcases observed_cases reading.boot
        (some (bootId p.host (s.fleet.boots p.host))) with hb | hb
    · rw [hb] at hknown
      cases hknown.1
    · rcases observed_cases reading.ticks (some p.startTicks) with ht | ht
      · rw [ht] at hknown
        cases hknown.2
      · exact ⟨hb.symm, ht.symm⟩

/-- **A process is called dead only when it is dead, exactly where that is evident.** In every
state that is reached and for every reading on any host, the verdict is right exactly if the newest
registration is evident; and in every run in which registration is careful it always is. -/
theorem dead_only_if_dead_iff (bootId : ℕ → ℕ → String) (here : ℕ) (es : List AgentEvent) :
    (∀ jobId host reading, (run bootId es).DeadOnlyIfDead bootId jobId host reading ↔
      (run bootId es).Evident bootId jobId host reading) ∧
    (Runs.Along (step bootId) (Careful here) initial es →
      ∀ jobId reading, (run bootId es).DeadOnlyIfDead bootId jobId here reading) := by
  refine ⟨fun _ _ _ => deadOnlyIfDead_iff_evident, fun hcareful jobId reading => ?_⟩
  have htold : Told bootId here (run bootId es) :=
    Runs.run_inv (I := Told bootId here) (fun _ _ hs hok => hs.step hok) told_initial hcareful
  exact deadOnlyIfDead_iff_evident.mpr htold.evident

/-- A process is registered while boot and start can be read. -/
def readable : List AgentEvent :=
  [.machine (.start 0 5 70), .register "p" "job" none ⟨0, 0, 0, 5, 70⟩ ⟨false, true, true⟩ none]

theorem dead_only_if_dead_readable : ∀ jobId reading,
    (run (fun _ _ => "boot") readable).DeadOnlyIfDead (fun _ _ => "boot") jobId 0 reading := by
  refine (dead_only_if_dead_iff (fun _ _ => "boot") 0 readable).2
    ⟨trivial, ⟨fun x hx => ?_, fun _ => ⟨rfl, rfl, rfl, rfl⟩⟩, trivial⟩
  cases hx

/-- A process is registered while the boot cannot be read, and lives on. -/
def unreadable : List AgentEvent :=
  [.machine (.start 0 5 70), .register "p" "job" none ⟨0, 0, 0, 5, 70⟩ ⟨false, false, true⟩ none]

/-- What was nothing differs from what is read later, and the agent is taken for dead. -/
theorem unknown_taken_for_dead : ¬∀ (bootId : ℕ → ℕ → String) (es : List AgentEvent)
    (jobId : String)
    (host : ℕ) (reading : Reading), (run bootId es).DeadOnlyIfDead bootId jobId host reading := by
  intro h
  refine h (fun _ _ => "boot") unreadable "job" 0 ⟨false, true, true⟩ (by decide +kernel) ?_
  exact ⟨_, List.mem_singleton_self _, rfl, by decide⟩

end Restart

end ArgentTeam
