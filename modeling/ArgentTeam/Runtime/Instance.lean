import ArgentTeam.Lib.Machines
import ArgentTeam.Models

/-!
# The instance of the supervisor

Which process may run the supervisor (`background_runtime.py`): one row names the instance that
does, with the boot, the host, the process identifier and the start of its process. To acquire the
row an instance reads who it is itself; then, five times at most, it reads the row, finds out
whether the owner lives, and puts itself there by a compare-and-set on the revision (`store.py`).
Each of these is a step of its own, and other processes, on this host or on others, take theirs in
between.

What an instance reads of the system is true, or nothing. A host has a machine id of its own, and
each boot of it a boot id.
-/

namespace ArgentTeam

namespace Runtime

open Machines

/-! ### The row -/

inductive InstanceStatus
  | active
  | released
  deriving DecidableEq

/-- The row of `supervisor_instances`. -/
structure InstanceRow where
  instanceId : String
  bootId : Option String
  hostId : Option String
  pid : Option ℕ
  processStartTicks : Option ℕ
  status : InstanceStatus
  acquiredAt : Time
  leaseExpiresAt : Option Time
  lastHeartbeatAt : Option Time
  stoppedAt : Option Time
  stopReason : Option String
  lastErrorCode : Option String
  updatedAt : Time
  revision : ℕ

/-! ### The owner -/

/-- Whether the owner lives. -/
inductive OwnerLiveness
  | live
  | dead
  | unknown

def classifyOwnerLiveness (ownerBootId : Option String) (ownerPid ownerStartTicks : Option ℕ)
    (liveBootId : Option String) (pidAlive : Option Bool) (liveStartTicks : Option ℕ)
    (ownerHostId liveHostId : Option String) : OwnerLiveness :=
  if ownerBootId = none ∨ ownerPid = none ∨ ownerStartTicks = none then .unknown
  else if liveBootId = none then .unknown
  else if ownerBootId ≠ liveBootId then
    -- the same host has been booted since, or it may live on another
    if ownerHostId = none ∨ liveHostId = none then .unknown
    else if ownerHostId ≠ liveHostId then .unknown
    else .dead
  else if pidAlive = none then .unknown
  else if pidAlive = some false then .dead
  else if liveStartTicks = none then .unknown
  else if liveStartTicks = ownerStartTicks then .live
  else .dead

/-- What an attempt to acquire the row has come to. -/
inductive InstanceVerdict
  | acquired
  | takeover
  | liveOwner
  | ambiguous
  deriving DecidableEq

structure InstanceAcquireResult where
  verdict : InstanceVerdict
  detail : String
  owner : Option InstanceRow

def InstanceVerdict.value : InstanceVerdict → String
  | acquired => "acquired"
  | takeover => "takeover"
  | liveOwner => "live_owner"
  | ambiguous => "ambiguous"

def maxAcquireAttempts : ℕ := 5

/-! ### Instances -/

structure Instance where
  process : ℕ
  serial : ℕ
  deriving DecidableEq

/-- Who an instance is, as it has read when it began to acquire the row. -/
structure Self where
  liveBoot : String
  hostId : Option String
  ownTicks : ℕ
  acquiredAt : Time
  leaseExpiresAt : Time

/-- What an instance is at. -/
inductive Call
  /-- Nothing; what its last attempt has come to. -/
  | idle (result : Option InstanceAcquireResult)
  | booted (liveBoot : String)
  | hosted (liveBoot : String) (hostId : Option String)
  /-- It has read who it is, and tries so many times. -/
  | trying (self : Self) (left : ℕ)
  | looked (self : Self) (left : ℕ) (owner : InstanceRow)
  /-- It has asked whether the identifier of the owner is in use. -/
  | probed (self : Self) (left : ℕ) (owner : InstanceRow) (alive : Option Bool)
  /-- It may write the row, as long as that has the revision that was read. -/
  | resolved (self : Self) (left : ℕ) (expected : Option ℕ) (verdict : InstanceVerdict)

structure Naming where
  machineId : ℕ → String
  machineId_injective : Function.Injective machineId
  bootId : ℕ → ℕ → String
  bootId_injective : Function.Injective2 bootId
  instanceId : Instance → String
  instanceId_injective : Function.Injective instanceId
  /-- `ttl_seconds`, in microseconds. -/
  ttl : ℕ

/-- The row, and those who may own it. -/
structure System where
  row : Option InstanceRow
  fleet : Fleet
  call : Instance → Call
  held : Instance → Bool

/-- What happens. -/
inductive Event
  /-- Something happens to hosts or processes. -/
  | machine (e : Machines.Event)
  /-- An instance begins to acquire the row, and reads the boot. -/
  | readBoot (i : Instance) (answers : Bool)
  | readHost (i : Instance) (answers : Bool)
  /-- It reads the start of its own process, and the clock twice. -/
  | readSelf (i : Instance) (answers : Bool) (now later : Time)
  | look (i : Instance)
  | probe (i : Instance) (answers : Bool)
  /-- It reads the start of the process with that identifier, and draws its conclusion. -/
  | resolve (i : Instance) (answers : Bool)
  /-- It tries to write the row. -/
  | cas (i : Instance) (now : Time)
  | heartbeat (i : Instance) (now later : Time)
  | release (i : Instance) (reason : String) (now : Time)
  | abandon (i : Instance)

namespace System

/-- The process of an instance, if it lives. -/
def process (s : System) (i : Instance) : Option Process :=
  s.fleet.living.find? fun p => p.name = i.process

/-- An instance goes on. -/
def goto (s : System) (i : Instance) (c : Call) : System :=
  { s with call := Function.update s.call i c }

/-- An attempt ends. -/
def fail (s : System) (i : Instance) (verdict : InstanceVerdict) (detail : String)
    (owner : Option InstanceRow) : System :=
  s.goto i (.idle (some ⟨verdict, detail, owner⟩))

end System

/-- The start of the process that has the identifier of the owner, where that is in use. -/
def ownerTicks (m : Fleet) (host : ℕ) (owner : InstanceRow) (alive : Option Bool)
    (answers : Bool) : Option ℕ :=
  if alive = some true then owner.pid.bind fun pid => observed answers (m.startTicks host pid)
  else none

/-- The last lines of `_classify_existing`. -/
def classifyExisting (owner : InstanceRow) (self : Self) (alive : Option Bool)
    (ticks : Option ℕ) : InstanceVerdict :=
  match classifyOwnerLiveness owner.bootId owner.pid owner.processStartTicks (some self.liveBoot)
    alive ticks owner.hostId self.hostId with
  | .live => .liveOwner
  | .dead => .takeover
  | .unknown => .ambiguous

variable (d : Naming)

def buildRow (i : Instance) (p : Process) (self : Self) (now : Time) (revision : ℕ) :
    InstanceRow where
  instanceId := d.instanceId i
  bootId := some self.liveBoot
  hostId := self.hostId
  pid := some p.pid
  processStartTicks := some self.ownTicks
  status := .active
  acquiredAt := self.acquiredAt
  leaseExpiresAt := some self.leaseExpiresAt
  lastHeartbeatAt := some self.acquiredAt
  stoppedAt := none
  stopReason := none
  lastErrorCode := none
  updatedAt := now
  revision := revision

/-- `cas_supervisor_instance`: the row that is written in the place of one with this revision. -/
def casSupervisorInstance (current : Option InstanceRow) (expected : Option ℕ)
    (row : ℕ → InstanceRow) : Option InstanceRow :=
  if current.map InstanceRow.revision = expected then
    some (row ((current.map InstanceRow.revision).getD 0 + 1))
  else none

/-- `update_supervisor_instance`: the row that is written where it is the instance's own. -/
def updateSupervisorInstance (current : Option InstanceRow) (instanceId : String)
    (fields : InstanceRow → InstanceRow) : Option InstanceRow :=
  match current with
  | none => none
  | some r =>
    if r.instanceId ≠ instanceId then none
    else some { fields r with revision := r.revision + 1 }

/-- A step of an instance whose process is `p`. -/
def instanceStep (s : System) (i : Instance) (p : Process) : Event → System
  | .readBoot _ answers =>
    match s.call i with
    | .idle _ =>
      match observed answers (some (d.bootId p.host p.boot)) with
      | none => s.fail i .ambiguous "boot_id_unreadable" none
      | some liveBoot => s.goto i (.booted liveBoot)
    | _ => s
  | .readHost _ answers =>
    match s.call i with
    | .booted liveBoot =>
      s.goto i (.hosted liveBoot (observed answers (some (d.machineId p.host))))
    | _ => s
  | .readSelf _ answers now later =>
    match s.call i with
    | .hosted liveBoot hostId =>
      match observed answers (s.fleet.startTicks p.host p.pid) with
      | none => s.fail i .ambiguous "own_start_ticks_unreadable" none
      | some ownTicks =>
        s.goto i (.trying ⟨liveBoot, hostId, ownTicks, now, later + d.ttl⟩ maxAcquireAttempts)
    | _ => s
  | .look _ =>
    match s.call i with
    | .trying _ 0 => s.fail i .ambiguous "acquire_cas_contended" none
    | .trying self (left + 1) =>
      match s.row with
      | none => s.goto i (.resolved self left none .acquired)
      | some owner =>
        if owner.status = .released then
          s.goto i (.resolved self left (some owner.revision) .acquired)
        else s.goto i (.looked self left owner)
    | _ => s
  | .probe _ answers =>
    match s.call i with
    | .looked self left owner =>
      s.goto i (.probed self left owner
        (owner.pid.bind fun pid => observed answers (some (s.fleet.pidAlive p.host pid))))
    | _ => s
  | .resolve _ answers =>
    match s.call i with
    | .probed self left owner alive =>
      let verdict := classifyExisting owner self alive
        (ownerTicks s.fleet p.host owner alive answers)
      if verdict = .liveOwner ∨ verdict = .ambiguous then
        s.fail i verdict ("refused:existing:" ++ verdict.value) (some owner)
      else s.goto i (.resolved self left (some owner.revision) verdict)
    | _ => s
  | .cas _ now =>
    match s.call i with
    | .resolved self left expected verdict =>
      match casSupervisorInstance s.row expected (buildRow d i p self now) with
      | none => s.goto i (.trying self left)
      | some row =>
        { s.goto i (.idle (some ⟨verdict, "acquired", none⟩)) with
          row := some row, held := Function.update s.held i true }
    | _ => s
  | .heartbeat _ now later =>
    match updateSupervisorInstance s.row (d.instanceId i) fun r =>
        { r with lastHeartbeatAt := some now, leaseExpiresAt := some (later + d.ttl),
                 updatedAt := now } with
    | none => s
    | some row => { s with row := some row }
  | .release _ reason now =>
    match updateSupervisorInstance s.row (d.instanceId i) fun r =>
        { r with status := .released, stoppedAt := some now,
                 stopReason := some (String.ofList (reason.toList.take 256)),
                 updatedAt := now } with
    | none => s
    | some row => { s with row := some row, held := Function.update s.held i false }
  | .abandon _ => s.goto i (.idle none)
  | .machine _ => s

/-- The instance that takes a step. -/
def Event.actor : Event → Option Instance
  | machine _ => none
  | readBoot i _ | readHost i _ | readSelf i _ _ _ | look i | probe i _ | resolve i _ | cas i _
  | heartbeat i _ _ | release i _ _ | abandon i => some i

/-- A step. An instance takes none unless its process lives. -/
def step (s : System) (e : Event) : System :=
  match e with
  | .machine e => { s with fleet := s.fleet.step e }
  | e =>
    match e.actor with
    | none => s
    | some i =>
      match s.process i with
      | none => s
      | some p => instanceStep d s i p e

/-- Nobody has been there. -/
def initial : System where
  row := none
  fleet := .initial
  call _ := .idle none
  held _ := false

end Runtime

end ArgentTeam
