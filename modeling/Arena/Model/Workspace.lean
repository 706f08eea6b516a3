import Arena.Model.ConfigFiles
import Arena.Model.SupervisorSteps

/-!
# The supervisor and its files

The supervisor once more, with the directory of its configuration: `_write_json` puts the text in a
temporary file, part by part, and renames it when it is complete. A child serves what the binary
reads in the configuration, and a command does what it reads in the arguments and the patch. What is on
the disk at the start may be anything.
-/

namespace Arena.Model

open Arena.Lib

/-- How far `_write_json` is with the file of the next process. -/
inductive Writing where
  | idle
  /-- The temporary file has part of the text. -/
  | partly
  | complete
  | renamed
  deriving DecidableEq

structure Workspace where
  supervisor : Supervisor
  disk : String → Option (List Char)
  writing : Writing

/-- `str(path)` in `_start_locked`. -/
def configPath (dir : String) : String := filePath dir "config.json"

/-- The file that a process of the holder reads: the configuration, or the patch of a command. -/
def Await.file (cfg : Settings) (dir : String) (c : Call) : Await → Option (String × List Char)
  | .writing | .job .test | .jobKilled .test | .launching =>
    match c with
    | .sync snap => some (configPath dir, fileText (buildConfig cfg snap.desired))
    | .stop => none
  | .syncing (cmd :: _) | .job (.command cmd _) | .jobKilled (.command cmd _) => cmd.patch cfg dir
  | _ => none

/-- The file is written here, before the process is created. -/
def Await.writes : Await → Bool
  | .syncing _ | .writing => true
  | _ => false

namespace Workspace

variable (xray : Xray) (cfg : Settings) (dir : String)

/-- `start` in `lifespan`, in whatever directory it finds. -/
def boot (snap : Snapshot) (disk : String → Option (List Char)) : Workspace := ⟨.boot snap, disk, .idle⟩

/-- The file that `_write_json` is called for. -/
def pending (w : Workspace) : Option (String × List Char) :=
  match w.supervisor.lock.holder with
  | some (c, a) => if a.writes then a.file cfg dir c else none
  | none => none

/-- The labels of the workspace's steps. -/
inductive Label where
  /-- Some of the text is in the temporary file. -/
  | wrote (n : ℕ)
  | wroteAll
  | renamed
  | supervised (x : Supervisor.Label)

/-- A child that is started with the configuration on the disk; it exits when it cannot read it. -/
def child (w : Workspace) : Server :=
  match (w.disk (configPath dir)).bind xray.inbounds with
  | some entries => ⟨served entries, .running⟩
  | none => ⟨fun _ => ∅, .exited⟩

/-- The commands that Xray reads. -/
def read (w : Workspace) (cmd : Command) : Option (List Command) := xray.commands w.disk (cmd.args cfg dir)

/-- A command that failed, when Xray had applied `part` of what it read. -/
def failed (w : Workspace) (part cmd : Command) : Option Supervisor :=
  match w.read xray cfg dir cmd with
  | some cmds =>
    if cmds.any fun cmd => part.isPartOf cmd then some ((w.supervisor.apply part).stopLocked .restart) else none
  | none => some (w.supervisor.stopLocked .restart)

/-- A step of the supervisor, where it depends on the files. -/
def supervise (w : Workspace) (x : Supervisor.Label) : Option Supervisor :=
  match x, w.supervisor.lock.holder with
  | .created, _ =>
    match w.pending cfg dir, w.writing with
    | none, _ | some _, .renamed => w.supervisor.step cfg .created
    | _, _ => none
  | .launched, some (.sync _, .launching) => some { w.supervisor with
      servers := w.supervisor.servers ++ [w.child xray dir]
      process := some w.supervisor.servers.length
      lock := w.supervisor.lock.move .waiting }
  | .commandDone, some (_, .job (.command cmd todo)) => (w.read xray cfg dir cmd).map fun cmds =>
      (cmds.foldl (fun s cmd => s.apply cmd) w.supervisor).move (.syncing todo)
  | .commandRefused part, some (_, .job (.command cmd _)) => w.failed xray cfg dir part cmd
  | .commandKilled part, some (_, .jobKilled (.command cmd _)) => w.failed xray cfg dir part cmd
  | x, _ => w.supervisor.step cfg x

/-- One step of the workspace. -/
def step (w : Workspace) : Label → Option Workspace
  | .wrote n => match w.pending cfg dir, w.writing with
    | some (path, text), .idle | some (path, text), .partly => some
      { w with disk := Function.update w.disk (tempPath path) (some (text.take n)), writing := .partly }
    | _, _ => none
  | .wroteAll => match w.pending cfg dir, w.writing with
    | some (path, text), .idle | some (path, text), .partly => some
      { w with disk := Function.update w.disk (tempPath path) (some text), writing := .complete }
    | _, _ => none
  | .renamed => match w.pending cfg dir, w.writing with
    | some (path, _), .complete => some
      { w with
        disk := Function.update (Function.update w.disk path (w.disk (tempPath path))) (tempPath path) none
        writing := .renamed }
    | _, _ => none
  | .supervised x => (w.supervise xray cfg dir x).map fun s => match x with
    | .called _ | .exits _ => { w with supervisor := s }
    | _ => { w with supervisor := s, writing := .idle }

end Workspace

/-- The workspace as a machine. -/
def workspace (xray : Xray) (cfg : Settings) (dir : String) : Machine Workspace Workspace.Label :=
  ⟨Workspace.step xray cfg dir⟩

end Arena.Model
