import Arena.Model.Supervisor

/-!
# One Xray at a time

Everything a step of the supervisor can do, and `Owned`, which each step keeps: the one child that
may be alive is `self.process`, or the one that `_stop_locked` waits for; the next is created when
there is none.
-/

namespace Arena.Model.Supervisor

open Arena.Lib

variable {cfg : Settings} {s s' : Supervisor} {x : Label} {c : Call} {w : Await} {i : ℕ} {next : AfterStop}

/-! ## Steps -/

/-- **Everything a step of the supervisor can do.** -/
inductive Stepped (cfg : Settings) (s : Supervisor) : Label → Supervisor → Prop
  | called (c : Call) : Stepped cfg s (.called c) { s with lock := s.lock.enqueue c }
  | entered (c : Call) (rest : List Call) (free : s.lock.holder = none) (waits : s.lock.waiting = c :: rest) :
      Stepped cfg s .entered (s.enter c)
  | command (c : Call) (cmd : Command) (todo : List Command) (held : s.lock.holder = some (c, .syncing (cmd :: todo))) :
      Stepped cfg s .created (s.move (.job (.command cmd todo)))
  | test (c : Call) (held : s.lock.holder = some (c, .writing)) : Stepped cfg s .created (s.move (.job .test))
  | noCommand (c : Call) (cmd : Command) (todo : List Command) (held : s.lock.holder = some (c, .syncing (cmd :: todo))) :
      Stepped cfg s .creationFailed (s.stopLocked .restart)
  | noTest (c : Call) (held : s.lock.holder = some (c, .writing)) :
      Stepped cfg s .creationFailed (s.release .raised)
  | passed (c : Call) (held : s.lock.holder = some (c, .job .test)) : Stepped cfg s .testPassed (s.move .launching)
  | refused (c : Call) (held : s.lock.holder = some (c, .job .test)) : Stepped cfg s .testRefused (s.release .raised)
  | done (c : Call) (cmd : Command) (todo : List Command) (held : s.lock.holder = some (c, .job (.command cmd todo))) :
      Stepped cfg s .commandDone ((s.apply cmd).move (.syncing todo))
  | failed (c : Call) (part cmd : Command) (todo : List Command) (held : s.lock.holder = some (c, .job (.command cmd todo)))
      (isPart : part.isPartOf cmd) : Stepped cfg s (.commandRefused part) ((s.apply part).stopLocked .restart)
  | timedOut (c : Call) (job : Job) (held : s.lock.holder = some (c, .job job)) :
      Stepped cfg s .timedOut (s.move (.jobKilled job))
  | testKilled (c : Call) (held : s.lock.holder = some (c, .jobKilled .test)) :
      Stepped cfg s .testKilled (s.release .raised)
  | commandKilled (c : Call) (part cmd : Command) (todo : List Command) (held : s.lock.holder = some (c, .jobKilled (.command cmd todo)))
      (isPart : part.isPartOf cmd) : Stepped cfg s (.commandKilled part) ((s.apply part).stopLocked .restart)
  | synced (snap : Snapshot) (held : s.lock.holder = some (.sync snap, .syncing [])) :
      Stepped cfg s .synced ({ s with clients := snap.desired }.release .returned)
  | launched (snap : Snapshot) (held : s.lock.holder = some (.sync snap, .launching)) : Stepped cfg s .launched
      { s with
        servers := s.servers ++ [⟨configured cfg snap.desired, .running⟩]
        process := some s.servers.length
        lock := s.lock.move .waiting }
  | launchFailed (c : Call) (held : s.lock.holder = some (c, .launching)) :
      Stepped cfg s .launchFailed (s.release .raised)
  | ready (snap : Snapshot) (held : s.lock.holder = some (.sync snap, .waiting)) :
      Stepped cfg s .apiReady ({ s with clients := snap.desired }.release .returned)
  | unready (c : Call) (held : s.lock.holder = some (c, .waiting)) :
      Stepped cfg s .apiFailed (s.stopLocked .reraise)
  | kill (c : Call) (i : ℕ) (next : AfterStop) (held : s.lock.holder = some (c, .terminating i next)) (alive : s.alive i) :
      Stepped cfg s .stopTimedOut
        { s with
          servers := s.servers.modify i (Server.withLife .killed), lock := s.lock.move (.killing i next) }
  | stopped (c : Call) (w : Await) (i : ℕ) (next : AfterStop) (held : s.lock.holder = some (c, w))
      (target : w = .terminating i next ∨ w = .killing i next) (gone : s.alive i = false) :
      Stepped cfg s .stopWaited (s.finishStop next)
  | exits (i : ℕ) (alive : s.alive i) :
      Stepped cfg s (.exits i) { s with servers := s.servers.modify i (Server.withLife .exited) }

theorem step_inv (h : s.step cfg x = some s') : Stepped cfg s x s' := by
  cases x with
  | called c => cases h; exact .called c
  | entered =>
    simp only [step] at h
    split at h <;> cases h
    exact .entered _ _ ‹_› ‹_›
  | created =>
    simp only [step] at h
    split at h <;> cases h
    · exact .command _ _ _ ‹_›
    · exact .test _ ‹_›
  | creationFailed =>
    simp only [step] at h
    split at h <;> cases h
    · exact .noCommand _ _ _ ‹_›
    · exact .noTest _ ‹_›
  | testPassed => simp only [step] at h; split at h <;> cases h; exact .passed _ ‹_›
  | testRefused => simp only [step] at h; split at h <;> cases h; exact .refused _ ‹_›
  | commandDone => simp only [step] at h; split at h <;> cases h; exact .done _ _ _ ‹_›
  | commandRefused part =>
    simp only [step] at h
    split at h
    · split at h <;> cases h
      exact .failed _ _ _ _ ‹_› ‹_›
    · cases h
  | timedOut => simp only [step] at h; split at h <;> cases h; exact .timedOut _ _ ‹_›
  | testKilled => simp only [step] at h; split at h <;> cases h; exact .testKilled _ ‹_›
  | commandKilled part =>
    simp only [step] at h
    split at h
    · split at h <;> cases h
      exact .commandKilled _ _ _ _ ‹_› ‹_›
    · cases h
  | synced => simp only [step] at h; split at h <;> cases h; exact .synced _ ‹_›
  | launched => simp only [step] at h; split at h <;> cases h; exact .launched _ ‹_›
  | launchFailed => simp only [step] at h; split at h <;> cases h; exact .launchFailed _ ‹_›
  | apiReady => simp only [step] at h; split at h <;> cases h; exact .ready _ ‹_›
  | apiFailed => simp only [step] at h; split at h <;> cases h; exact .unready _ ‹_›
  | stopTimedOut =>
    simp only [step] at h
    split at h
    · split at h <;> cases h
      exact .kill _ _ _ ‹_› ‹_›
    · cases h
  | stopWaited =>
    simp only [step] at h
    split at h
    · split at h <;> cases h
      exact .stopped _ _ _ _ ‹_› (.inl rfl) (Bool.eq_false_iff.2 ‹_›)
    · split at h <;> cases h
      exact .stopped _ _ _ _ ‹_› (.inr rfl) (Bool.eq_false_iff.2 ‹_›)
    · cases h
  | exits i =>
    simp only [step] at h
    split at h <;> cases h
    exact .exits i ‹_›

/-! ## Who is alive -/

@[simp] theorem alive_apply {cmd : Command} : (s.apply cmd).alive i = s.alive i := by
  have each : ∀ y : Server, (y.apply cmd).alive = y.alive := by
    intro y
    unfold Server.apply
    split <;> rfl
  simp only [alive, apply, List.getElem?_map, Option.any_map, each]

/-- A signal leaves alive who is; an exit does not. -/
theorem alive_withLife {life : Life} {servers : List Server} {j : ℕ} :
    ((servers.modify i (Server.withLife life))[j]?.any Server.alive) =
      if i = j ∧ j < servers.length then life.alive else servers[j]?.any Server.alive := by
  rw [List.getElem?_modify]
  by_cases here : i = j
  · subst here
    cases found : servers[i]? with
    | none =>
      have beyond := List.getElem?_eq_none_iff.1 found
      simp [Nat.not_lt.2 beyond]
    | some y =>
      have inside := (List.getElem?_eq_some_iff.1 found).1
      simp [inside, Server.alive, Server.withLife]
  · cases servers[j]? <;> simp [here]

theorem lt_of_alive (h : s.alive i) : i < s.servers.length := by
  obtain ⟨y, found, -⟩ := (Option.any_eq_true _ _).1 h
  exact (List.getElem?_eq_some_iff.1 found).1

/-! ## Stopping -/

/-- `_stop_locked`, up to its first await or to its end. -/
inductive Stopping (s : Supervisor) (next : AfterStop) : Supervisor → Prop
  | signalled (i : ℕ) (own : s.process = some i) (alive : s.alive i) : Stopping s next
      { s with
        process := none, servers := s.servers.modify i (Server.withLife .terminated)
        lock := s.lock.move (.terminating i next) }
  | nothing (down : ∀ i, s.process = some i → s.alive i = false) :
      Stopping s next ({ s with process := none }.finishStop next)

theorem stopLocked_cases : Stopping s next (s.stopLocked next) := by
  unfold stopLocked
  split
  · rename_i i own
    obtain ⟨own, alive⟩ := Option.filter_eq_some_iff.1 own
    exact .signalled i own alive
  · rename_i down
    refine .nothing fun i own => ?_
    simpa [own, Option.filter_eq_none_iff] using down

@[simp] theorem finishStop_servers : (s.finishStop next).servers = s.servers := by cases next <;> rfl

@[simp] theorem alive_finishStop : (s.finishStop next).alive i = s.alive i := by cases next <;> rfl

@[simp] theorem finishStop_process : (s.finishStop next).process = s.process := by cases next <;> rfl

/-! ## Ownership -/

/-- What `self.process` is at a point of the critical section. -/
def Fits (process : Option ℕ) : Await → Prop
  | .syncing _ | .job (.command _ _) | .jobKilled (.command _ _) | .waiting => process.isSome
  | .writing | .job .test | .jobKilled .test | .launching | .terminating _ _ | .killing _ _ => process = none

/-- The child that the control plane answers for: its own, or the one that a stop waits for. -/
def current (s : Supervisor) : Option ℕ :=
  match s.lock.holder.bind fun h => h.2.stops with
  | some (i, _) => some i
  | none => s.process

/-- **The control plane owns Xray.** -/
structure Owned (s : Supervisor) : Prop where
  alive : ∀ i, s.alive i → s.current = some i
  known : ∀ i, s.process = some i → i < s.servers.length
  held : ∀ c w, s.lock.holder = some (c, w) → Fits s.process w
  done : ∀ c w i, s.lock.holder = some (c, w) → w.stops = some (i, .done) → c = .stop
  /-- After a stop and after an exception there is none. -/
  ended : s.lock.holder = none → ∀ c o, s.lock.latest = some (c, o) → c = .stop ∨ o = .raised →
    s.process = none

theorem current_held (held : s.lock.holder = some (c, w)) :
    s.current = (w.stops.map Prod.fst).or s.process := by
  simp only [current, held, Option.bind_some]
  cases w.stops <;> rfl

theorem current_free (free : s.lock.holder = none) : s.current = s.process := by
  simp [current, free]

/-- A state whose lock is held. -/
theorem Owned.of_held (held : s.lock.holder = some (c, w)) (fits : Fits s.process w)
    (alive : ∀ i, s.alive i → (w.stops.map Prod.fst).or s.process = some i)
    (known : ∀ i, s.process = some i → i < s.servers.length)
    (done : ∀ i, w.stops = some (i, .done) → c = .stop) : Owned s := by
  refine ⟨fun i there => by rw [current_held held]; exact alive i there, known, fun c' w' held' => ?_,
    fun c' w' i held' => ?_, by simp [held]⟩
  · cases held.symm.trans held'
    exact fits
  · cases held.symm.trans held'
    exact done i

/-- A state whose lock was left without a process. -/
theorem Owned.of_down (free : s.lock.holder = none) (nobody : ∀ i, s.alive i = false)
    (down : s.process = none) : Owned s :=
  ⟨fun i there => by simp [nobody] at there, by simp [down], by simp [free], by simp [free],
    fun _ _ _ _ _ => down⟩

theorem owned_finishStop (held : s.lock.holder = some (c, w)) (nobody : ∀ i, s.alive i = false)
    (down : s.process = none) : Owned (s.finishStop next) := by
  cases next with
  | restart =>
    exact .of_held (FifoLock.holder_move held) down (fun i there => absurd there (by simp [nobody]))
      (by simp [down]) nofun
  | reraise | done => exact .of_down FifoLock.holder_release nobody down

/-- **A stop keeps ownership**, wherever it starts. -/
theorem owned_stopLocked (held : s.lock.holder = some (c, w)) (own : ∀ i, s.alive i → s.process = some i)
    (done : next = .done → c = .stop) : Owned (s.stopLocked next) := by
  have stopping := @stopLocked_cases s next
  generalize s.stopLocked next = t at stopping
  cases stopping with
  | signalled i mine alive =>
    refine .of_held (FifoLock.holder_move held) rfl (fun j there => ?_) (by simp) fun j stops =>
      done (by cases stops; rfl)
    simp only [Supervisor.alive, alive_withLife] at there
    split at there
    · rename_i here
      simp [Await.stops, here.1]
    · have same : some i = some j := mine.symm.trans (own j there)
      rw [← same]
      rfl
  | nothing down =>
    have nobody : ∀ i, s.alive i = false := fun i => by
      by_contra there
      exact there (down i (own i (by simpa using there)))
    exact owned_finishStop held nobody rfl

theorem Owned.apply {cmd : Command} (owned : Owned s) : Owned (s.apply cmd) :=
  ⟨fun i there => owned.alive i (by simpa using there), fun i own => by
    simpa [Supervisor.apply] using owned.known i own, owned.held, owned.done, owned.ended⟩

theorem Owned.own (owned : Owned s) (held : s.lock.holder = some (c, w)) (calm : w.stops = none) :
    ∀ i, s.alive i → s.process = some i := by
  intro i there
  have current := owned.alive i there
  rwa [current_held held, calm] at current

theorem Owned.nobody (owned : Owned s) (held : s.lock.holder = some (c, w)) (calm : w.stops = none)
    (down : s.process = none) : ∀ i, s.alive i = false := by
  intro i
  by_contra there
  have own := owned.own held calm i (by simpa using there)
  rw [down] at own
  cases own

theorem Owned.move {w' : Await} (owned : Owned s) (held : s.lock.holder = some (c, w)) (calm : w.stops = none)
    (fits : Fits s.process w') (calm' : w'.stops = none) : Owned (s.move w') :=
  .of_held (FifoLock.holder_move held) fits
    (fun i there => by rw [calm']; exact owned.own held calm i there) owned.known (by simp [calm'])

/-- An exception before there is a process. -/
theorem Owned.raise (owned : Owned s) (held : s.lock.holder = some (c, w)) (calm : w.stops = none)
    (down : s.process = none) : Owned (s.release .raised) :=
  .of_down FifoLock.holder_release (owned.nobody held calm down) down

/-- The end of a `start` or `reconcile`. -/
theorem Owned.return {snap : Snapshot} (owned : Owned s) (held : s.lock.holder = some (.sync snap, w))
    (calm : w.stops = none) : Owned ({ s with clients := snap.desired }.release .returned) := by
  have free : (s.lock.release .returned).holder = none := FifoLock.holder_release
  refine ⟨fun i there => ?_, owned.known, by simp [release], by simp [release],
    fun _ c' o latest failed => ?_⟩
  · rw [current_free free]
    exact owned.own held calm i there
  · have last : (s.lock.release .returned).latest = some (.sync snap, .returned) := FifoLock.latest_release held
    cases last.symm.trans latest
    simp at failed

/-- **The step lemma.** -/
theorem owned_step (owned : Owned s) (h : s.step cfg x = some s') : Owned s' := by
  cases step_inv h with
  | called c => exact ⟨owned.alive, owned.known, owned.held, owned.done, owned.ended⟩
  | entered c rest free waits =>
    have own : ∀ i, s.alive i → s.process = some i := fun i there => by
      rw [← current_free free]
      exact owned.alive i there
    cases c with
    | stop => exact owned_stopLocked (FifoLock.holder_acquire waits) own fun _ => rfl
    | sync snap =>
      by_cases running : s.running = true
      · obtain ⟨i, mine, -⟩ := (Option.any_eq_true _ _).1 running
        rw [enter, if_pos running]
        exact .of_held (FifoLock.holder_acquire waits) (by simp [Fits, mine]) own owned.known nofun
      · rw [enter, if_neg running]
        exact owned_stopLocked (FifoLock.holder_acquire waits) own nofun
  | command c cmd todo held =>
    have fits := owned.held _ _ held
    exact owned.move held rfl fits rfl
  | test c held =>
    have fits := owned.held _ _ held
    exact owned.move held rfl fits rfl
  | noCommand c cmd todo held => exact owned_stopLocked held (owned.own held rfl) nofun
  | noTest c held => exact owned.raise held rfl (owned.held _ _ held)
  | passed c held =>
    have fits := owned.held _ _ held
    exact owned.move held rfl fits rfl
  | refused c held => exact owned.raise held rfl (owned.held _ _ held)
  | done c cmd todo held =>
    have fits := owned.held _ _ held
    exact owned.apply.move held rfl fits rfl
  | failed c part cmd todo held isPart => exact owned_stopLocked held (owned.apply.own held rfl) nofun
  | timedOut c job held =>
    have fits := owned.held _ _ held
    cases job <;> exact owned.move held rfl fits rfl
  | testKilled c held => exact owned.raise held rfl (owned.held _ _ held)
  | commandKilled c part cmd todo held isPart => exact owned_stopLocked held (owned.apply.own held rfl) nofun
  | synced snap held => exact owned.return held rfl
  | launched snap held =>
    have nobody := owned.nobody held rfl (owned.held _ _ held)
    refine .of_held (FifoLock.holder_move held) rfl (fun i there => ?_) (by simp) nofun
    -- the new child is the only one
    have last : ¬ i < s.servers.length := fun before => by
      have old : s.alive i = true := by simpa [alive, List.getElem?_append_left before] using there
      rw [nobody] at old
      cases old
    have inside := lt_of_alive there
    simp only [List.length_append, List.length_cons, List.length_nil] at inside
    have same : s.servers.length = i := by omega
    exact congrArg some same
  | launchFailed c held => exact owned.raise held rfl (owned.held _ _ held)
  | ready snap held => exact owned.return held rfl
  | unready c held => exact owned_stopLocked held (owned.own held rfl) nofun
  | kill c i next held alive =>
    have down : s.process = none := owned.held _ _ held
    refine .of_held (FifoLock.holder_move held) down (fun j there => ?_) (by simp [down]) fun j stops =>
      owned.done c _ j held stops
    simp only [Supervisor.alive, alive_withLife] at there
    split at there
    · rename_i here
      simp [Await.stops, here.1]
    · have current := owned.alive j there
      rwa [current_held held] at current
  | stopped c w i next held target gone =>
    have down : s.process = none := by
      have fits := owned.held _ _ held
      rcases target with rfl | rfl <;> exact fits
    refine owned_finishStop held (fun j => ?_) down
    by_contra there
    have current := owned.alive j (by simpa using there)
    rw [current_held held] at current
    have same : some i = some j := by rcases target with rfl | rfl <;> exact current
    obtain rfl := Option.some.inj same
    exact there gone
  | exits i alive =>
    refine ⟨fun j there => ?_, by simpa using owned.known, owned.held, owned.done, owned.ended⟩
    simp only [Supervisor.alive, alive_withLife] at there
    split at there
    · cases there
    · exact owned.alive j there

theorem owned_boot (snap : Snapshot) : Owned (boot snap) :=
  .of_held (s := boot snap) rfl rfl (by simp [alive, boot]) (by simp [boot]) nofun

/-- **The run lemma.** -/
theorem owned_run {snap : Snapshot} {xs : List Label} (run : (supervisor cfg).run (boot snap) xs = some s) :
    Owned s :=
  Machine.run_invariant (I := Owned) (fun owned step => owned_step owned step) (owned_boot snap) ⟨xs, run⟩

end Arena.Model.Supervisor
