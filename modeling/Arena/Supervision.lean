import Arena.Model.Plane
import Arena.Model.SupervisorSteps
import Arena.Model.Sync

/-!
# The runtime, refined

The supervisor with its children is the runtime of `Arena.Model.Runtime`, seen from nearer: each of
its steps is none, one or two steps there. So what holds of the runtime holds of the one child that
is alive; and there is never a second one.
-/

namespace Arena.Model

open Arena.Lib

/-! ## The runtime as a machine -/

/-- A call of `reconcile`, or a step of the runtime. -/
inductive RuntimeEvent where
  | called (snap : Snapshot)
  | stepped (x : XrayRuntime.Label)

def RuntimeEvent.step (cfg : Settings) (r : XrayRuntime) : RuntimeEvent → Option XrayRuntime
  | .called snap => some (r.call snap)
  | .stepped x => r.step cfg x

def runtime (cfg : Settings) : Machine XrayRuntime RuntimeEvent := ⟨RuntimeEvent.step cfg⟩

end Arena.Model

namespace Arena.Supervision

open Arena.Lib Arena.Model Supervisor

variable {cfg : Settings} {s s' : Supervisor} {r r' : XrayRuntime} {x : Label} {snap : Snapshot} {c : Call}
  {w : Await} {i : ℕ}

/-- Where a call stands, seen from further away. -/
def phase : Await → Phase
  | .syncing todo => .syncing todo
  | .job (.command cmd todo) | .jobKilled (.command cmd todo) => .syncing (cmd :: todo)
  | .writing | .job .test | .jobKilled .test | .launching => .starting
  | .waiting | .terminating _ .reraise | .killing _ .reraise => .waiting
  | .terminating _ _ | .killing _ _ => .stopping

/-- A child, if there is one of that name, as the process of the runtime. -/
def viewOf (servers : List Server) (name : Option ℕ) : XrayProcess :=
  match name.bind fun i => servers[i]? with
  | none => .none
  | some y => if y.alive then .running y.users else .exited

/-- The process that the control plane answers for. -/
def view (s : Supervisor) : XrayProcess := viewOf s.servers s.current

/-- **Refinement**: the same calls, at the same places of the critical section, and the same process. -/
structure Refines (s : Supervisor) (r : XrayRuntime) : Prop where
  lock : s.lock.map id phase = r.lock.map Call.sync id
  process : r.process = view s
  clients : r.clients = s.clients

/-! ## Processes -/

@[simp] theorem viewOf_none {servers : List Server} : viewOf servers none = .none := rfl

theorem viewOf_apply {servers : List Server} {name : Option ℕ} {cmd : Command} :
    viewOf (servers.map (Server.apply cmd)) name = (viewOf servers name).apply cmd := by
  cases name with
  | none => rfl
  | some i =>
    cases found : servers[i]? with
    | none => simp [viewOf, found, XrayProcess.apply]
    | some y =>
      by_cases alive : y.alive = true
      · have still : ({ y with users := cmd.apply y.users } : Server).alive = true := alive
        simp [viewOf, found, Server.apply, alive, still, XrayProcess.apply]
      · simp [viewOf, found, Server.apply, alive, XrayProcess.apply]

/-- A signal is not seen from further away. -/
theorem viewOf_signal {servers : List Server} {life : Life} (signal : life.alive = true)
    (alive : servers[i]?.any Server.alive) :
    viewOf (servers.modify i (Server.withLife life)) (some i) = viewOf servers (some i) := by
  obtain ⟨y, found, there⟩ := (Option.any_eq_true _ _).1 alive
  have still : (y.withLife life).alive = true := signal
  simp [viewOf, found, there, still]
  rfl

theorem viewOf_exit {servers : List Server} (alive : servers[i]?.any Server.alive) :
    viewOf (servers.modify i (Server.withLife .exited)) (some i) = .exited := by
  obtain ⟨y, found, -⟩ := (Option.any_eq_true _ _).1 alive
  have gone : (y.withLife .exited).alive = false := rfl
  simp [viewOf, found, gone]

theorem viewOf_running {servers : List Server} {name : Option ℕ} :
    (viewOf servers name).isRunning = name.any fun i => servers[i]?.any Server.alive := by
  cases name with
  | none => rfl
  | some i =>
    cases found : servers[i]? with
    | none => simp [viewOf, found, XrayProcess.isRunning]
    | some y => by_cases alive : y.alive = true <;> simp [viewOf, found, alive, XrayProcess.isRunning]

theorem view_calm (held : s.lock.holder = some (c, w)) (calm : w.stops = none) :
    view s = viewOf s.servers s.process := by
  rw [view, current_held held, calm]
  rfl

theorem view_stopping {next : AfterStop} (held : s.lock.holder = some (c, w)) (stops : w.stops = some (i, next)) :
    view s = viewOf s.servers (some i) := by
  rw [view, current_held held, stops]
  rfl

theorem view_free (free : s.lock.holder = none) : view s = viewOf s.servers s.process := by
  rw [view, current_free free]

/-! ## The lock -/

theorem Refines.held (h : Refines s r) (held : s.lock.holder = some (c, w)) :
    ∃ snap, c = .sync snap ∧ r.lock.holder = some (snap, phase w) := by
  have holders := congrArg FifoLock.holder h.lock
  simp only [FifoLock.map, held, Option.map_some] at holders
  obtain ⟨⟨snap, place⟩, there, same⟩ := Option.map_eq_some_iff.1 holders.symm
  obtain ⟨rfl, rfl⟩ := Prod.mk.inj same
  exact ⟨snap, rfl, there⟩

theorem Refines.free (h : Refines s r) (free : s.lock.holder = none) : r.lock.holder = none := by
  have holders := congrArg FifoLock.holder h.lock
  simpa [FifoLock.map, free] using holders.symm

theorem Refines.waits {rest : List Call} (h : Refines s r) (waits : s.lock.waiting = c :: rest) :
    ∃ snap later, c = .sync snap ∧ r.lock.waiting = snap :: later := by
  have queues := congrArg FifoLock.waiting h.lock
  simp only [FifoLock.map, waits, List.map_cons] at queues
  obtain ⟨snap, later, queue, same, -⟩ := List.map_eq_cons_iff.1 queues.symm
  exact ⟨snap, later, same.symm, queue⟩

theorem lock_move {w' : Await} (lock : s.lock.map id phase = r.lock.map Call.sync id) :
    (s.lock.move w').map id phase = (r.lock.move (phase w')).map Call.sync id := by
  rw [FifoLock.map_move, FifoLock.map_move, lock]
  rfl

theorem lock_release {o : Outcome} (lock : s.lock.map id phase = r.lock.map Call.sync id) :
    (s.lock.release o).map id phase = (r.lock.release o).map Call.sync id := by
  rw [FifoLock.map_release, FifoLock.map_release, lock]

theorem lock_acquire {w' : Await} (lock : s.lock.map id phase = r.lock.map Call.sync id) :
    (s.lock.acquire w').map id phase = (r.lock.acquire (phase w')).map Call.sync id := by
  rw [FifoLock.map_acquire, FifoLock.map_acquire, lock]
  rfl

/-! ## Steps -/

/-- Some steps of the runtime lead to what the supervisor's state refines. -/
def Simulates (cfg : Settings) (s' : Supervisor) (r : XrayRuntime) : Prop :=
  ∃ ys r', (runtime cfg).run r ys = some r' ∧ Refines s' r'

theorem Simulates.zero (h : Refines s' r) : Simulates cfg s' r := ⟨[], r, rfl, h⟩

theorem Simulates.one {y : XrayRuntime.Label} (step : r.step cfg y = some r') (h : Refines s' r') :
    Simulates cfg s' r :=
  ⟨[.stepped y], r', Machine.run_cons.2 ⟨r', step, rfl⟩, h⟩

theorem Simulates.two {r₁ : XrayRuntime} {y z : XrayRuntime.Label} (first : r.step cfg y = some r₁)
    (second : r₁.step cfg z = some r') (h : Refines s' r') : Simulates cfg s' r :=
  ⟨[.stepped y, .stepped z], r', Machine.run_cons.2 ⟨r₁, first, Machine.run_cons.2 ⟨r', second, rfl⟩⟩, h⟩

/-- The next await of the same phase. -/
theorem Refines.stay {w' : Await} (h : Refines s r) (held : s.lock.holder = some (c, w)) (calm : w.stops = none)
    (calm' : w'.stops = none) (same : phase w' = phase w) : Refines (s.move w') r := by
  obtain ⟨snap, -, there⟩ := h.held held
  refine ⟨?_, ?_, h.clients⟩
  · rw [← FifoLock.move_self (same ▸ there : r.lock.holder = some (snap, phase w'))]
    exact lock_move h.lock
  · rw [h.process, view_calm held calm, view_calm (FifoLock.holder_move held) calm']
    rfl

/-- An exception before the process is created. -/
theorem Refines.raise (h : Refines s r) (held : s.lock.holder = some (c, w)) (calm : w.stops = none)
    (place : phase w = .starting) : Simulates cfg (s.release .raised) r := by
  obtain ⟨snap, -, there⟩ := h.held held
  rw [place] at there
  have step : r.step cfg .rejected = some { r with lock := r.lock.release .raised } := by
    simp only [XrayRuntime.step, there]
  refine .one step ⟨lock_release h.lock, ?_, h.clients⟩
  rw [view_free FifoLock.holder_release]
  exact h.process.trans (view_calm held calm)

/-- The `except` branch of `reconcile`, once `part` of a command was applied. -/
theorem simulates_restart {part cmd : Command} {todo : List Command} (held : s.lock.holder = some (.sync snap, w))
    (calm : w.stops = none) (place : phase w = .syncing (cmd :: todo)) (isPart : part.isPartOf cmd)
    (lock : s.lock.map id phase = r.lock.map Call.sync id) (process : r.process.apply part = view s)
    (clients : r.clients = s.clients) : Simulates cfg (s.stopLocked .restart) r := by
  have there : r.lock.holder = some (snap, .syncing (cmd :: todo)) := by
    have holders := congrArg FifoLock.holder lock
    simp only [FifoLock.map, held, Option.map_some] at holders
    obtain ⟨⟨snap', place'⟩, there, same⟩ := Option.map_eq_some_iff.1 holders.symm
    obtain ⟨here, rfl⟩ := Prod.mk.inj same
    cases here
    exact there.trans (congrArg (fun p => some (snap, p)) place)
  have failed : r.step cfg (.commandFailed part) =
      some { r with process := r.process.apply part, lock := r.lock.move .stopping } := by
    simp only [XrayRuntime.step, there, isPart, if_true]
  have stopping := @stopLocked_cases s .restart
  generalize s.stopLocked .restart = t at stopping
  cases stopping with
  | signalled i own alive =>
    refine .one failed ⟨lock_move lock, ?_, clients⟩
    rw [view_stopping (FifoLock.holder_move held) rfl]
    exact (process.trans (view_calm held calm)).trans (own ▸ (viewOf_signal rfl alive).symm)
  | nothing down =>
    have stopped : XrayRuntime.step cfg
        { r with process := r.process.apply part, lock := r.lock.move .stopping } .stopped =
        some { r with process := .none, clients := [], lock := (r.lock.move .stopping).move .starting } := by
      simp only [XrayRuntime.step, FifoLock.holder_move there]
      rfl
    refine .two failed stopped ⟨?_, ?_, rfl⟩
    · rw [FifoLock.move_move]
      exact lock_move lock
    · rw [view_calm (FifoLock.holder_move held) rfl]
      rfl

/-- Nothing of a command is a part of it. -/
theorem exists_nothing (cmd : Command) :
    ∃ part : Command, part.isPartOf cmd ∧ ∀ process : XrayProcess, process.apply part = process := by
  cases cmd with
  | rmu tag emails =>
    refine ⟨.rmu tag [], by simp [Command.isPartOf], fun process => ?_⟩
    cases process with
    | running users =>
      refine congrArg XrayProcess.running (funext fun t => ?_)
      simp [Command.apply]
    | none | exited => rfl
  | adu tag users =>
    refine ⟨.adu tag [], by simp [Command.isPartOf], fun process => ?_⟩
    cases process with
    | running users =>
      refine congrArg XrayProcess.running (funext fun t => ?_)
      have none : ([] : List InboundUser).toFinset = ∅ := rfl
      simp [Command.apply, none]
    | none | exited => rfl

/-- The end of `start` or `reconcile`. -/
theorem Refines.finish {y : XrayRuntime.Label} (h : Refines s r) (held : s.lock.holder = some (.sync snap, w))
    (calm : w.stops = none)
    (step : r.step cfg y = some { r with clients := snap.desired, lock := r.lock.release .returned }) :
    Simulates cfg ({ s with clients := snap.desired }.release .returned) r := by
  refine .one step ⟨lock_release h.lock, ?_, rfl⟩
  have free : (s.lock.release .returned).holder = none := FifoLock.holder_release
  rw [view_free free]
  exact h.process.trans (view_calm held calm)

theorem Refines.enter {rest : List Call} (h : Refines s r) (free : s.lock.holder = none)
    (waits : s.lock.waiting = c :: rest) : Simulates cfg (s.enter c) r := by
  obtain ⟨snap, later, rfl, queue⟩ := h.waits waits
  have process : r.process = viewOf s.servers s.process := h.process.trans (view_free free)
  have same : r.process.isRunning = s.running := by rw [process, viewOf_running]; rfl
  have entered : r.step cfg .acquired = some (if r.process.isRunning then
      { r with lock := r.lock.acquire (.syncing (syncCommands r.clients snap.desired)) }
      else { r.stopLocked with lock := r.lock.acquire .starting }) := by
    simp only [XrayRuntime.step, h.free free, queue]
  by_cases running : s.running = true
  · rw [Supervisor.enter, if_pos running]
    rw [if_pos (same.trans running)] at entered
    refine .one entered ⟨?_, ?_, h.clients⟩
    · rw [h.clients]
      exact lock_acquire h.lock
    · rw [view_calm (FifoLock.holder_acquire waits) rfl]
      exact process
  · rw [Supervisor.enter, if_neg running]
    rw [if_neg (fun up => running (same.symm.trans up))] at entered
    have stopping := @stopLocked_cases { s with lock := s.lock.acquire .writing } .restart
    generalize Supervisor.stopLocked { s with lock := s.lock.acquire .writing } .restart = t at stopping
    cases stopping with
    | signalled i own alive => exact absurd ((Option.any_eq_true _ _).2 ⟨i, own, alive⟩) running
    | nothing down =>
      refine .one entered ⟨?_, ?_, rfl⟩
      · have moved : (s.lock.acquire .writing).move .writing = s.lock.acquire .writing :=
          FifoLock.move_self (FifoLock.holder_acquire waits)
        show ((s.lock.acquire .writing).move .writing).map id phase = _
        rw [moved]
        exact lock_acquire h.lock
      · rw [view_calm (FifoLock.holder_move (FifoLock.holder_acquire waits)) rfl]
        rfl

/-- The API did not come up. -/
theorem Refines.unready (h : Refines s r) (held : s.lock.holder = some (c, .waiting)) :
    Simulates cfg (s.stopLocked .reraise) r := by
  obtain ⟨snap, -, there⟩ := h.held held
  have process := h.process.trans (view_calm held rfl)
  have stopping := @stopLocked_cases s .reraise
  generalize s.stopLocked .reraise = t at stopping
  cases stopping with
  | signalled i own alive =>
    refine .zero ⟨?_, ?_, h.clients⟩
    · rw [← FifoLock.move_self there]
      exact lock_move h.lock
    · rw [view_stopping (FifoLock.holder_move held) rfl]
      exact process.trans (own ▸ (viewOf_signal rfl alive).symm)
  | nothing down =>
    have failed : r.step cfg .apiFailed = some { r.stopLocked with lock := r.lock.release .raised } := by
      simp only [XrayRuntime.step, there]
      rfl
    refine .one failed ⟨lock_release h.lock, ?_, rfl⟩
    rw [view_free FifoLock.holder_release]
    rfl

/-- The child that was stopped has exited. -/
theorem Refines.stopped {next : AfterStop} (h : Refines s r) (owned : Owned s)
    (held : s.lock.holder = some (c, w)) (target : w = .terminating i next ∨ w = .killing i next) :
    Simulates cfg (s.finishStop next) r := by
  obtain ⟨snap, rfl, there⟩ := h.held held
  have down : s.process = none := by
    have fits := owned.held _ _ held
    rcases target with rfl | rfl <;> exact fits
  cases next with
  | restart =>
    have place : phase w = .stopping := by rcases target with rfl | rfl <;> rfl
    rw [place] at there
    have step : r.step cfg .stopped = some { r.stopLocked with lock := r.lock.move .starting } := by
      simp only [XrayRuntime.step, there]
    refine .one step ⟨lock_move h.lock, ?_, rfl⟩
    rw [view_calm (FifoLock.holder_move held) rfl, finishStop_process, down]
    rfl
  | reraise =>
    have place : phase w = .waiting := by rcases target with rfl | rfl <;> rfl
    rw [place] at there
    have step : r.step cfg .apiFailed = some { r.stopLocked with lock := r.lock.release .raised } := by
      simp only [XrayRuntime.step, there]
    refine .one step ⟨lock_release h.lock, ?_, rfl⟩
    rw [view_free FifoLock.holder_release, finishStop_process, down]
    rfl
  | done =>
    have stops : w.stops = some (i, .done) := by rcases target with rfl | rfl <;> rfl
    exact absurd (owned.done _ _ _ held stops) (by simp)

/-- **The simulation.** -/
theorem refines_step (owned : Owned s) (h : Refines s r) (alone : x ≠ .called .stop)
    (step : s.step cfg x = some s') : Simulates cfg s' r := by
  cases step_inv step with
  | called c =>
    cases c with
    | stop => exact absurd rfl alone
    | sync snap =>
      refine ⟨[.called snap], r.call snap, rfl, ?_, h.process, h.clients⟩
      show (s.lock.enqueue (.sync snap)).map id phase = (r.lock.enqueue snap).map Call.sync id
      rw [FifoLock.map_enqueue, FifoLock.map_enqueue, h.lock]
      rfl
  | entered c rest free waits => exact h.enter free waits
  | command c cmd todo held => exact .zero (h.stay held rfl rfl rfl)
  | test c held => exact .zero (h.stay held rfl rfl rfl)
  | noCommand c cmd todo held =>
    obtain ⟨snap, rfl, -⟩ := h.held held
    obtain ⟨part, isPart, nothing⟩ := exists_nothing cmd
    exact simulates_restart held rfl rfl isPart h.lock ((nothing _).trans h.process) h.clients
  | noTest c held => exact h.raise held rfl rfl
  | passed c held => exact .zero (h.stay held rfl rfl rfl)
  | refused c held => exact h.raise held rfl rfl
  | done c cmd todo held =>
    obtain ⟨snap, rfl, there⟩ := h.held held
    have moved : r.step cfg .commandDone =
        some { r with process := r.process.apply cmd, lock := r.lock.move (.syncing todo) } := by
      simp only [XrayRuntime.step, there, phase]
    refine .one moved ⟨lock_move h.lock, ?_, h.clients⟩
    rw [view_calm (FifoLock.holder_move held) rfl, h.process, view_calm held rfl]
    exact viewOf_apply.symm
  | failed c part cmd todo held isPart =>
    obtain ⟨snap, rfl, -⟩ := h.held held
    refine simulates_restart held rfl rfl isPart h.lock ?_ h.clients
    rw [h.process, view_calm held rfl, view_calm (s := s.apply part) held rfl]
    exact viewOf_apply.symm
  | timedOut c job held => cases job <;> exact .zero (h.stay held rfl rfl rfl)
  | testKilled c held => exact h.raise held rfl rfl
  | commandKilled c part cmd todo held isPart =>
    obtain ⟨snap, rfl, -⟩ := h.held held
    refine simulates_restart held rfl rfl isPart h.lock ?_ h.clients
    rw [h.process, view_calm held rfl, view_calm (s := s.apply part) held rfl]
    exact viewOf_apply.symm
  | synced snap held =>
    obtain ⟨snap', same, there⟩ := h.held held
    cases same
    exact h.finish (y := .synced) held rfl (by simp only [XrayRuntime.step, there, phase])
  | launched snap held =>
    obtain ⟨snap', same, there⟩ := h.held held
    cases same
    have spawned : r.step cfg .spawned =
        some { r with process := .running (configured cfg snap.desired), lock := r.lock.move .waiting } := by
      simp only [XrayRuntime.step, there, phase]
    refine .one spawned ⟨lock_move h.lock, ?_, h.clients⟩
    rw [view_calm (FifoLock.holder_move held) rfl]
    simp [viewOf, Server.alive, Life.alive]
  | launchFailed c held => exact h.raise held rfl rfl
  | ready snap held =>
    obtain ⟨snap', same, there⟩ := h.held held
    cases same
    exact h.finish (y := .apiReady) held rfl (by simp only [XrayRuntime.step, there, phase])
  | unready c held => exact h.unready held
  | kill c i next held alive =>
    obtain ⟨snap, -, there⟩ := h.held held
    refine .zero ⟨?_, ?_, h.clients⟩
    · have place : phase (.killing i next) = phase (.terminating i next) := by cases next <;> rfl
      rw [← FifoLock.move_self there, ← place]
      exact lock_move h.lock
    · rw [view_stopping (FifoLock.holder_move held) rfl, h.process, view_stopping held rfl]
      exact (viewOf_signal rfl alive).symm
  | stopped c w i next held target gone => exact h.stopped owned held target
  | exits i alive =>
    have here : view s = viewOf s.servers (some i) := by rw [view, owned.alive i alive]
    have up : r.process.isRunning = true := by
      rw [h.process, here, viewOf_running]
      exact alive
    obtain ⟨users, running⟩ := isRunning_iff.1 up
    have exited : r.step cfg .exited = some { r with process := .exited } := by
      simp only [XrayRuntime.step, running]
    refine .one exited ⟨h.lock, ?_, h.clients⟩
    have still : Supervisor.current { s with servers := s.servers.modify i (Server.withLife .exited) } = some i :=
      owned.alive i alive
    rw [view, still]
    exact (viewOf_exit alive).symm

/-! ## Runs -/

theorem refines_boot (snap : Snapshot) : Refines (boot snap) (.boot snap) := ⟨rfl, rfl, rfl⟩

/-- The refinement along a run. -/
theorem refines_run {xs : List Label} (run : (supervisor cfg).run (boot snap) xs = some s)
    (alone : ∀ x ∈ xs, x ≠ .called .stop) :
    ∃ ys r, (runtime cfg).run (.boot snap) ys = some r ∧ Refines s r := by
  have along : (supervisor cfg).Along (fun _ x => x ≠ .called .stop) (boot snap) xs :=
    Machine.along_of_mem alone _
  have inv := Machine.along_invariant
    (I := fun s => Owned s ∧ ∃ ys r, (runtime cfg).run (.boot snap) ys = some r ∧ Refines s r)
    (fun {s x s'} before other step => by
      obtain ⟨owned, ys, r, reached, refines⟩ := before
      obtain ⟨zs, r', further, refines'⟩ := refines_step owned refines other step
      exact ⟨owned_step owned step, ys ++ zs, r', (Machine.run_append reached).trans further, refines'⟩)
    ⟨owned_boot snap, [], .boot snap, rfl, refines_boot snap⟩ along run
  exact inv.2

/-- The runtime stays sound. -/
theorem sound_run {ys : List RuntimeEvent} (run : (runtime cfg).run (.boot snap) ys = some r) : r.Sound cfg :=
  Machine.run_invariant (I := fun r => r.Sound cfg)
    (fun {r y r'} sound step => by
      cases y with
      | called snap =>
        cases step
        exact sound.call
      | stepped x => exact sound.step step)
    XrayRuntime.sound_boot ⟨ys, run⟩

/-- **Refinement of the runtime.** Whatever its children do and however their timeouts fall, a
supervisor that nobody stops follows a run of the runtime, with the same calls waiting, at the same
place of the critical section, with the same result of the latest call. So, while nobody is inside,
the child that is alive serves exactly the clients that the supervisor believes in, and after a call
that returned these are the ones the call asked for. -/
theorem supervision_refines (cfg : Settings) (snap : Snapshot) (xs : List Label) (s : Supervisor)
    (run : (supervisor cfg).run (boot snap) xs = some s) (alone : ∀ x ∈ xs, x ≠ .called .stop) :
    (∃ ys r, (runtime cfg).run (.boot snap) ys = some r ∧ Refines s r) ∧
      (s.lock.holder = none → ∀ (i : ℕ) (y : Server), s.servers[i]? = some y → y.alive →
        y.users = configured cfg s.clients) ∧
      (s.lock.holder = none → ∀ last, s.lock.latest = some (.sync last, .returned) →
        s.clients = last.desired) := by
  obtain ⟨ys, r, reached, refines⟩ := refines_run run alone
  have sound := sound_run reached
  have owned := owned_run run
  refine ⟨⟨ys, r, reached, refines⟩, fun free i y found alive => ?_, fun free last latest => ?_⟩
  · have there : s.alive i = true := (Option.any_eq_true _ _).2 ⟨y, found, alive⟩
    have own : s.process = some i := by
      rw [← current_free free]
      exact owned.alive i there
    have process : r.process = .running y.users := by
      rw [refines.process, view_free free, own]
      simp [viewOf, found, alive]
    rw [← refines.clients]
    exact sound.idle (refines.free free) y.users process
  · have latests := congrArg FifoLock.latest refines.lock
    simp only [FifoLock.map, latest, Option.map_some] at latests
    obtain ⟨⟨snap', o⟩, there, same⟩ := Option.map_eq_some_iff.1 latests.symm
    obtain ⟨here, rfl⟩ := Prod.mk.inj same
    cases here
    rw [← refines.clients]
    exact (sound.returned (refines.free free) _ there).2

/-- A first user's key cannot be added: the command fails, Xray ignores `SIGTERM` and is killed, and
the next child starts with the key in its configuration. -/
def restartRun (snap : Snapshot) : List Label :=
  [.created, .testPassed, .launched, .apiReady, .called (.sync snap), .entered, .created,
    .commandRefused (.adu "arena-vless-ws" []), .stopTimedOut, .exits 0, .stopWaited, .created, .testPassed,
    .launched, .apiReady]

theorem restartRun_ends : ∃ p s, (plane {}).run (.initial 0) firstConnection = some p ∧
    (supervisor {}).run (boot ⟨.empty, 0⟩) (restartRun ⟨p.db, p.now⟩) = some s ∧ s.lock.holder = none ∧
    s.servers.length = 2 ∧ s.alive 1 ∧ s.clients.length = 1 := by
  obtain ⟨p, first, facts⟩ := (Option.any_eq_true _ _).1
    (by decide +kernel : ((plane {}).run (.initial 0) firstConnection).any fun p =>
      ((supervisor {}).run (boot ⟨.empty, 0⟩) (restartRun ⟨p.db, p.now⟩)).any fun s =>
        s.lock.holder.isNone && s.servers.length = 2 && s.alive 1 && s.clients.length = 1)
  obtain ⟨s, run, facts⟩ := (Option.any_eq_true _ _).1 facts
  simp only [Bool.and_eq_true, Option.isNone_iff_eq_none, decide_eq_true_eq] at facts
  exact ⟨p, s, first, run, facts.1.1.1, facts.1.1.2, facts.1.2, facts.2⟩

theorem restartRun_goes_on (snap : Snapshot) : ∀ x ∈ restartRun snap, x ≠ .called .stop := by
  simp [restartRun]

/-- The second child serves the first user. -/
theorem supervision_refines_restart : ∃ (p : Plane) (s : Supervisor) (y : Server),
    (supervisor {}).run (boot ⟨.empty, 0⟩) (restartRun ⟨p.db, p.now⟩) = some s ∧
      (∃ ys r, (runtime {}).run (.boot ⟨.empty, 0⟩) ys = some r ∧ Refines s r) ∧
      s.servers[1]? = some y ∧ y.users = configured {} s.clients ∧ s.clients.length = 1 := by
  obtain ⟨p, s, -, run, free, -, alive, one⟩ := restartRun_ends
  obtain ⟨refines, serves, -⟩ := supervision_refines {} _ _ s run (restartRun_goes_on _)
  obtain ⟨y, found, there⟩ := (Option.any_eq_true _ _).1 alive
  exact ⟨p, s, y, run, refines, found, serves free 1 y found there, one⟩

/-- **One Xray.** In every state of the supervisor: at most one child is alive; none is while the next
one is about to be created, so that its ports are free; a command runs when its child is the only one
and the control plane's own; outside of the critical section, `running` tells whether there is one;
and none is left by a call that raised, or by `stop`. -/
theorem one_xray (cfg : Settings) (snap : Snapshot) (xs : List Label) (s : Supervisor)
    (run : (supervisor cfg).run (boot snap) xs = some s) :
    (∀ i j, s.alive i → s.alive j → i = j) ∧
      (∀ c w, s.lock.holder = some (c, w) → phase w = .starting → ∀ i, s.alive i = false) ∧
      (∀ c cmd todo, s.lock.holder = some (c, .job (.command cmd todo)) → ∀ i, s.alive i → s.process = some i) ∧
      (s.lock.holder = none → (s.running ↔ ∃ i, s.alive i)) ∧
      (s.lock.holder = none → ∀ c o, s.lock.latest = some (c, o) → c = .stop ∨ o = .raised →
        ∀ i, s.alive i = false) := by
  have owned := owned_run run
  refine ⟨fun i j hi hj => ?_, fun c w held place => ?_, fun c cmd todo held => owned.own held rfl,
    fun free => ?_, fun free c o latest failed i => ?_⟩
  · exact Option.some.inj ((owned.alive i hi).symm.trans (owned.alive j hj))
  · have fits := owned.held _ _ held
    cases w with
    | writing | launching => exact owned.nobody held rfl fits
    | job job | jobKilled job =>
      cases job with
      | test => exact owned.nobody held rfl fits
      | command cmd todo => cases place
    | syncing | waiting => cases place
    | terminating i next | killing i next => cases next <;> cases place
  · constructor
    · intro running
      obtain ⟨i, -, alive⟩ := (Option.any_eq_true _ _).1 running
      exact ⟨i, alive⟩
    · rintro ⟨i, alive⟩
      refine (Option.any_eq_true _ _).2 ⟨i, ?_, alive⟩
      rw [← current_free free]
      exact owned.alive i alive
  · by_contra alive
    have own := owned.alive i (by simpa using alive)
    rw [current_free free, owned.ended free c o latest failed] at own
    cases own

/-- The first child is dead when the second one serves. -/
theorem one_xray_restart : ∃ (p : Plane) (s : Supervisor),
    (supervisor {}).run (boot ⟨.empty, 0⟩) (restartRun ⟨p.db, p.now⟩) = some s ∧ s.running ∧
      s.alive 1 ∧ s.alive 0 = false := by
  obtain ⟨p, s, -, run, free, -, alive, -⟩ := restartRun_ends
  obtain ⟨alone, -, -, runs, -⟩ := one_xray {} _ _ s run
  refine ⟨p, s, run, (runs free).2 ⟨1, alive⟩, alive, ?_⟩
  by_contra zero
  exact absurd (alone 0 1 (by simpa using zero) alive) (by decide)

end Arena.Supervision
