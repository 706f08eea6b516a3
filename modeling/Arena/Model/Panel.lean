import Arena.Model.Plane
import Arena.Model.Runtime

/-!
# The panel: the control plane beside its Xray

The control plane of `Arena.Model.Plane` and the runtime it synchronises, with
`xray_enabled`. Gateway requests and `rotate_subscription` commit and are done. Every other
administrative request commits, then calls `reconcile`, which loads the keys and queues on
the lock in one go; commits and loads of concurrent requests may come in any order between.
-/

namespace Arena.Model

open Arena.Lib

/-- The requests whose handler calls `reconcile` after its commit. -/
def AdminOp.reconciles : AdminOp → Bool
  | .rotateSubscription _ => false
  | _ => true

/-- The life of the panel's process, as `lifespan` has it. -/
inductive Stage where
  | down | booting | serving
  deriving DecidableEq

structure Panel where
  plane : Plane
  stage : Stage
  /-- Requests that have committed and not yet loaded the keys. -/
  loading : ℕ
  runtime : XrayRuntime

namespace Panel

/-- The panel is not running; the database holds what it holds. -/
def initial (p : Plane) : Panel := ⟨p, .down, 0, .new⟩

/-- What a call of `start` or `reconcile` reads now. -/
def snapshot (s : Panel) : Snapshot := ⟨s.plane.db, s.plane.now⟩

/-- No administrative request is in progress, nor the start. -/
def Quiet (s : Panel) : Prop := s.loading = 0 ∧ s.runtime.lock.Idle

instance (s : Panel) : Decidable s.Quiet := inferInstanceAs (Decidable (_ ∧ _))

inductive Label where
  /-- A commit, or the passing of time; `start` is the start of the panel. -/
  | plane (e : Event)
  /-- A request that committed loads the keys and queues on the lock. -/
  | load
  | runtime (x : XrayRuntime.Label)
  /-- The panel shuts down: `lifespan` stops Xray once the requests are done. -/
  | stop

/-- The stage after a step of the runtime: `lifespan` goes on when `start` returns, and the
process ends when it raises. -/
def Stage.after (stage : Stage) (r : XrayRuntime) : Stage :=
  match stage, r.lock.holder, r.lock.latest with
  | .booting, none, some (_, .returned) => .serving
  | .booting, none, some (_, .raised) => .down
  | _, _, _ => stage

/-- The panel after the transaction of an event. -/
def commit (cfg : Settings) (s : Panel) (p : Plane) : Event → Option Panel
  | .tick _ => some { s with plane := p }
  | .start vlessId vmessId =>
    if s.stage = .down then
      match seedDatabase cfg vlessId vmessId s.plane.db with
      | .error _ => some { s with plane := p }
      | .ok _ => some { s with plane := p, stage := .booting, runtime := .boot ⟨p.db, p.now⟩ }
    else none
  | .admin name op =>
    if s.stage = .serving then
      match op.commit name s.plane.db with
      | .error _ => some { s with plane := p }
      | .ok _ => some { s with plane := p, loading := s.loading + if op.reconciles then 1 else 0 }
    else none
  | .authorize .. | .heartbeat _ | .close _ =>
    if s.stage = .serving then some { s with plane := p } else none

def step (cfg : Settings) (s : Panel) : Label → Option Panel
  | .plane e => ((Model.plane cfg).step s.plane e).bind fun p => s.commit cfg p e
  | .load =>
    if 0 < s.loading then some
      { s with loading := s.loading - 1, runtime := s.runtime.call s.snapshot }
    else none
  | .runtime x => (s.runtime.step cfg x).map fun r =>
    { s with runtime := r, stage := Stage.after s.stage r }
  | .stop =>
    if s.stage = .serving ∧ s.Quiet then some { s with stage := .down, runtime := .new } else none

end Panel

/-- The panel. -/
def panel (cfg : Settings) : Machine Panel Panel.Label := ⟨Panel.step cfg⟩

end Arena.Model
