import Mathlib.Data.Finset.Dedup
import Mathlib.Data.Finset.Lattice.Basic
import Mathlib.Data.Finset.Filter
import Arena.Lib.FifoLock
import Arena.Model.Xray

/-!
# The Xray runtime

The class `XrayRuntime` of `backend/app/xray.py` beside the process it owns. Between two
awaits the code runs alone, so a step goes from one await to the next; its label says how
the awaited command, configuration test or connection ended. `last_error` and the log
task are left out: nothing here reads them.
-/

namespace Arena.Model

open Arena.Lib

/-- A user of an Xray inbound, as `payload` has it. -/
structure InboundUser where
  id : String
  email : String
  level : ℕ
  deriving DecidableEq

def XrayClient.inboundUser (c : XrayClient) : InboundUser := ⟨c.credential, c.email, 0⟩

def InboundUser.json (u : InboundUser) : Json :=
  .obj [("id", .str u.id), ("email", .str u.email), ("level", .num u.level)]

/-- The users of each inbound of a running Xray, by the inbound's tag. -/
abbrev Inbounds := String → Finset InboundUser

/-- The users that the proxy inbounds of `_build_config` name. -/
def configured (cfg : Settings) (clients : List XrayClient) : Inbounds := fun tag =>
  (((proxyInbounds cfg clients).filter (·.tag = tag)).flatMap fun i =>
    i.clients.map XrayClient.inboundUser).toFinset

/-! ## Commands -/

/-- `xray api rmu` and `xray api adu`. -/
inductive Command where
  | rmu (tag : String) (emails : List String)
  | adu (tag : String) (users : List InboundUser)
  deriving DecidableEq

/-- What a command that succeeds does to the inbounds. -/
def Command.apply (users : Inbounds) : Command → Inbounds
  | .rmu tag emails => fun t => if t = tag then (users t).filter (·.email ∉ emails) else users t
  | .adu tag added => fun t => if t = tag then users t ∪ added.toFinset else users t

/-- What may have been applied of a command that failed. -/
def Command.isPartOf : Command → Command → Bool
  | .rmu tag emails, .rmu tag' emails' => tag = tag' && emails.all (· ∈ emails')
  | .adu tag users, .adu tag' users' => tag = tag' && users.all (· ∈ users')
  | _, _ => false

/-- The clients of one protocol. -/
def group (clients : List XrayClient) (protocol : Protocol) : List XrayClient :=
  clients.filter (·.protocol = protocol)

/-- `f"arena-{protocol}-ws"`. -/
def inboundTag (protocol : Protocol) : String := "arena-" ++ protocol.text ++ "-ws"

/-- The command of one round of `_remove_clients`. -/
def removeCommand (clients : List XrayClient) (protocol : Protocol) : Option Command :=
  match (group clients protocol).map XrayClient.email with
  | [] => none
  | emails => some (.rmu (inboundTag protocol) emails)

/-- The command of one round of `_add_clients`. -/
def addCommand (clients : List XrayClient) (protocol : Protocol) : Option Command :=
  match (group clients protocol).map XrayClient.inboundUser with
  | [] => none
  | users => some (.adu (inboundTag protocol) users)

/-- `for protocol in ("vless", "vmess")`. -/
def proxies : List Protocol := [.vless, .vmess]

/-- The commands of the dynamic path of `reconcile`: `_remove_clients`, then `_add_clients`. -/
def syncCommands (clients desired : List XrayClient) : List Command :=
  proxies.filterMap (removeCommand (clients.filter (· ∉ desired))) ++
    proxies.filterMap (addCommand (desired.filter (· ∉ clients)))

/-! ## The runtime -/

/-- What `_load_keys` reads and when `user_allowed` looks at the clock. -/
structure Snapshot where
  db : Database
  now : Instant

/-- The desired clients of a `start` or `reconcile`. -/
def Snapshot.desired (snap : Snapshot) : List XrayClient :=
  clientsFromKeys snap.now snap.db.loadKeys

/-- `self.process`, and the users of the inbounds while it runs. -/
inductive XrayProcess where
  | none
  | running (users : Inbounds)
  | exited

/-- `running`. -/
def XrayProcess.isRunning : XrayProcess → Bool
  | .running _ => true
  | _ => false

/-- A command reaches a running process only. -/
def XrayProcess.apply (cmd : Command) : XrayProcess → XrayProcess
  | .running users => .running (cmd.apply users)
  | process => process

/-- Where the holder of the lock stands. -/
inductive Phase where
  /-- In the dynamic path, with these commands still to run. -/
  | syncing (todo : List Command)
  /-- In the `except` branch, before `_stop_locked`. -/
  | stopping
  /-- In `_start_locked`, before the process is created. -/
  | starting
  /-- In `_wait_for_api`. -/
  | waiting

/-- How a call of `start` or `reconcile` ended. -/
inductive Outcome where
  | returned | raised
  deriving DecidableEq

structure XrayRuntime where
  lock : FifoLock Snapshot Phase Outcome
  process : XrayProcess
  clients : List XrayClient

namespace XrayRuntime

/-- `__init__`. -/
def new : XrayRuntime := ⟨.free, .none, []⟩

/-- `start` in `lifespan`: the lock is free, so the call enters it at once. -/
def boot (snap : Snapshot) : XrayRuntime :=
  ⟨⟨[], some (snap, .starting), none⟩, .none, []⟩

/-- `_stop_locked`. -/
def stopLocked (r : XrayRuntime) : XrayRuntime := { r with process := .none, clients := [] }

/-- The first part of `reconcile`: the keys are loaded and the call queues on the lock. -/
def call (snap : Snapshot) (r : XrayRuntime) : XrayRuntime := { r with lock := r.lock.enqueue snap }

/-- The labels of the runtime's steps. -/
inductive Label where
  /-- The first waiter enters the lock and decides between the two paths. -/
  | acquired
  | commandDone
  /-- The command failed, and Xray had applied `part` of it. -/
  | commandFailed (part : Command)
  | stopped
  /-- The dynamic path is done. -/
  | synced
  /-- Writing the configuration, testing it or creating the process failed. -/
  | rejected
  | spawned
  | apiReady
  | apiFailed
  /-- The process exits on its own. -/
  | exited

/-- One step of the runtime. -/
def step (cfg : Settings) (r : XrayRuntime) : Label → Option XrayRuntime
  | .acquired => match r.lock.holder, r.lock.waiting with
    | none, snap :: _ => some (
      if r.process.isRunning then
        { r with lock := r.lock.acquire (.syncing (syncCommands r.clients snap.desired)) }
      else { r.stopLocked with lock := r.lock.acquire .starting })
    | _, _ => none
  | .commandDone => match r.lock.holder with
    | some (_, .syncing (cmd :: todo)) => some
      { r with process := r.process.apply cmd, lock := r.lock.move (.syncing todo) }
    | _ => none
  | .commandFailed part => match r.lock.holder with
    | some (_, .syncing (cmd :: _)) =>
      if part.isPartOf cmd then some
        { r with process := r.process.apply part, lock := r.lock.move .stopping }
      else none
    | _ => none
  | .stopped => match r.lock.holder with
    | some (_, .stopping) => some { r.stopLocked with lock := r.lock.move .starting }
    | _ => none
  | .synced => match r.lock.holder with
    | some (snap, .syncing []) => some
      { r with clients := snap.desired, lock := r.lock.release .returned }
    | _ => none
  | .rejected => match r.lock.holder with
    | some (_, .starting) => some { r with lock := r.lock.release .raised }
    | _ => none
  | .spawned => match r.lock.holder with
    | some (snap, .starting) => some
      { r with process := .running (configured cfg snap.desired), lock := r.lock.move .waiting }
    | _ => none
  | .apiReady => match r.lock.holder with
    | some (snap, .waiting) => some
      { r with clients := snap.desired, lock := r.lock.release .returned }
    | _ => none
  | .apiFailed => match r.lock.holder with
    | some (_, .waiting) => some { r.stopLocked with lock := r.lock.release .raised }
    | _ => none
  | .exited => match r.process with
    | .running _ => some { r with process := .exited }
    | _ => none

end XrayRuntime

end Arena.Model
