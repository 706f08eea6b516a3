import Arena.Lib.Runs
import Arena.Model.Runtime

/-!
# The processes behind the runtime

The class `XrayRuntime` of `backend/app/xray.py` again, one level down: the children that it starts
for `xray run`, each with its own life, and every await of `_stop_locked`, `_start_locked`,
`_run_process` and the dynamic path. An inbound command reaches whichever child listens on the API's
port, so that it goes to each one that is alive. Handlers are not cancelled; the log task is left
out as it is there, and so is the deadline of `_wait_for_api`, which may give up at any time.
-/

namespace Arena.Model

open Arena.Lib

/-! ## Children -/

/-- How far a child is from its end: a signal only asks for it. -/
inductive Life where
  | running
  /-- After `terminate()`. -/
  | terminated
  /-- After `kill()`. -/
  | killed
  /-- `returncode` is set. -/
  | exited
  deriving DecidableEq

def Life.alive : Life → Bool
  | .exited => false
  | _ => true

/-- A child that runs `xray run`, with the users of its inbounds. -/
structure Server where
  users : Inbounds
  life : Life

def Server.alive (x : Server) : Bool := x.life.alive

def Server.withLife (life : Life) (x : Server) : Server := { x with life := life }

/-- A command reaches a child that is alive. -/
def Server.apply (cmd : Command) (x : Server) : Server :=
  if x.alive then { x with users := cmd.apply x.users } else x

/-! ## Awaits -/

/-- What `_run_process` runs. -/
inductive Job where
  /-- The test of the configuration. -/
  | test
  /-- A command of the dynamic path, and the commands after it. -/
  | command (cmd : Command) (todo : List Command)

/-- What comes after `_stop_locked`. -/
inductive AfterStop where
  /-- `_start_locked`, in `reconcile`. -/
  | restart
  /-- `raise`, in `_start_locked`. -/
  | reraise
  /-- The end of `stop`. -/
  | done

/-- What the holder of the lock awaits. -/
inductive Await where
  /-- In the dynamic path: the child of the next command is not created yet. -/
  | syncing (todo : List Command)
  /-- In `_start_locked`: the configuration is not written, or its test not created yet. -/
  | writing
  /-- `process.communicate()` in `_run_process`. -/
  | job (job : Job)
  /-- `process.wait()` in `_run_process`, after `kill()`. -/
  | jobKilled (job : Job)
  /-- `create_subprocess_exec` in `_start_locked`. -/
  | launching
  /-- `_wait_for_api`. -/
  | waiting
  /-- `process.wait()` in `_stop_locked`, with its timeout. -/
  | terminating (i : ℕ) (next : AfterStop)
  /-- `process.wait()` in `_stop_locked`, after `kill()`. -/
  | killing (i : ℕ) (next : AfterStop)

/-- The child that `_stop_locked` waits for, and what it was called for. -/
def Await.stops : Await → Option (ℕ × AfterStop)
  | .terminating i next | .killing i next => some (i, next)
  | _ => none

/-- The callers of the lock. -/
inductive Call where
  /-- `start` or `reconcile`, with the keys it loaded. -/
  | sync (snap : Snapshot)
  | stop

structure Supervisor where
  lock : FifoLock Call Await Outcome
  /-- All children so far; a child's place is its name. -/
  servers : List Server
  process : Option ℕ
  clients : List XrayClient

namespace Supervisor

/-- `start` in `lifespan`. -/
def boot (snap : Snapshot) : Supervisor := ⟨⟨[], some (.sync snap, .writing), none⟩, [], none, []⟩

/-- The child of this name has not exited. -/
def alive (s : Supervisor) (i : ℕ) : Bool := s.servers[i]?.any Server.alive

/-- `running`. -/
def running (s : Supervisor) : Bool := s.process.any s.alive

/-- A command that is run, or part of one. -/
def apply (cmd : Command) (s : Supervisor) : Supervisor :=
  { s with servers := s.servers.map (Server.apply cmd) }

def move (w : Await) (s : Supervisor) : Supervisor := { s with lock := s.lock.move w }

def release (o : Outcome) (s : Supervisor) : Supervisor := { s with lock := s.lock.release o }

/-- The end of `_stop_locked`, and what follows it. -/
def finishStop (s : Supervisor) : AfterStop → Supervisor
  | .restart => { s with clients := [] }.move .writing
  | .reraise => { s with clients := [] }.release .raised
  | .done => { s with clients := [] }.release .returned

/-- `_stop_locked` up to its first await. -/
def stopLocked (s : Supervisor) (next : AfterStop) : Supervisor :=
  match s.process.filter s.alive with
  | some i => { s with
      process := none, servers := s.servers.modify i (Server.withLife .terminated)
      lock := s.lock.move (.terminating i next) }
  | none => { s with process := none }.finishStop next

/-- The labels of the supervisor's steps. -/
inductive Label where
  | called (c : Call)
  /-- The first waiter enters the lock. -/
  | entered
  /-- The child of a command or of the test is created. -/
  | created
  | creationFailed
  | testPassed
  | testRefused
  | commandDone
  /-- The command failed, and Xray had applied `part` of it. -/
  | commandRefused (part : Command)
  /-- The timeout of `_run_process`. -/
  | timedOut
  | testKilled
  | commandKilled (part : Command)
  | synced
  | launched
  | launchFailed
  | apiReady
  | apiFailed
  /-- The timeout of `_stop_locked`. -/
  | stopTimedOut
  /-- `process.wait()` of `_stop_locked` returns. -/
  | stopWaited
  /-- A child exits, on its own or on a signal. -/
  | exits (i : ℕ)

/-- The first waiter's way from the lock to its first await. -/
def enter (s : Supervisor) : Call → Supervisor
  | .stop => { s with lock := s.lock.acquire .writing }.stopLocked .done
  | .sync snap =>
    if s.running then { s with lock := s.lock.acquire (.syncing (syncCommands s.clients snap.desired)) }
    else { s with lock := s.lock.acquire .writing }.stopLocked .restart

/-- One step of the supervisor. -/
def step (cfg : Settings) (s : Supervisor) : Label → Option Supervisor
  | .called c => some { s with lock := s.lock.enqueue c }
  | .entered => match s.lock.holder, s.lock.waiting with
    | none, c :: _ => some (s.enter c)
    | _, _ => none
  | .created => match s.lock.holder with
    | some (_, .syncing (cmd :: todo)) => some (s.move (.job (.command cmd todo)))
    | some (_, .writing) => some (s.move (.job .test))
    | _ => none
  | .creationFailed => match s.lock.holder with
    | some (_, .syncing (_ :: _)) => some (s.stopLocked .restart)
    | some (_, .writing) => some (s.release .raised)
    | _ => none
  | .testPassed => match s.lock.holder with
    | some (_, .job .test) => some (s.move .launching)
    | _ => none
  | .testRefused => match s.lock.holder with
    | some (_, .job .test) => some (s.release .raised)
    | _ => none
  | .commandDone => match s.lock.holder with
    | some (_, .job (.command cmd todo)) => some ((s.apply cmd).move (.syncing todo))
    | _ => none
  | .commandRefused part => match s.lock.holder with
    | some (_, .job (.command cmd _)) =>
      if part.isPartOf cmd then some ((s.apply part).stopLocked .restart) else none
    | _ => none
  | .timedOut => match s.lock.holder with
    | some (_, .job job) => some (s.move (.jobKilled job))
    | _ => none
  | .testKilled => match s.lock.holder with
    | some (_, .jobKilled .test) => some (s.release .raised)
    | _ => none
  | .commandKilled part => match s.lock.holder with
    | some (_, .jobKilled (.command cmd _)) =>
      if part.isPartOf cmd then some ((s.apply part).stopLocked .restart) else none
    | _ => none
  | .synced => match s.lock.holder with
    | some (.sync snap, .syncing []) => some ({ s with clients := snap.desired }.release .returned)
    | _ => none
  | .launched => match s.lock.holder with
    | some (.sync snap, .launching) => some
      { s with
        servers := s.servers ++ [⟨configured cfg snap.desired, .running⟩]
        process := some s.servers.length
        lock := s.lock.move .waiting }
    | _ => none
  | .launchFailed => match s.lock.holder with
    | some (_, .launching) => some (s.release .raised)
    | _ => none
  | .apiReady => match s.lock.holder with
    | some (.sync snap, .waiting) => some ({ s with clients := snap.desired }.release .returned)
    | _ => none
  | .apiFailed => match s.lock.holder with
    | some (_, .waiting) => some (s.stopLocked .reraise)
    | _ => none
  | .stopTimedOut => match s.lock.holder with
    | some (_, .terminating i next) =>
      if s.alive i then some
        { s with
          servers := s.servers.modify i (Server.withLife .killed), lock := s.lock.move (.killing i next) }
      else none
    | _ => none
  | .stopWaited => match s.lock.holder with
    | some (_, .terminating i next) | some (_, .killing i next) =>
      if s.alive i then none else some (s.finishStop next)
    | _ => none
  | .exits i =>
    if s.alive i then some { s with servers := s.servers.modify i (Server.withLife .exited) } else none

end Supervisor

/-- The supervisor as a machine. -/
def supervisor (cfg : Settings) : Machine Supervisor Supervisor.Label := ⟨Supervisor.step cfg⟩

end Arena.Model
