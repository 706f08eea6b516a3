import Arena.Model.Runtime

/-!
# The dynamic path and the restart reach the desired inbounds

Which users the inbounds have after the commands of `reconcile`, and `Sound`: what holds of
the runtime and its process at each point of the critical section.
-/

namespace Arena.Model

open Arena.Lib

variable {cfg : Settings} {clients desired : List XrayClient} {users : Inbounds} {tag : String}
  {u : InboundUser} {c : XrayClient} {protocol : Protocol}

theorem protocol_text_injective : Function.Injective Protocol.text := by
  intro p q h
  cases p <;> cases q <;> first | rfl | exact absurd h (by decide)

theorem inboundTag_injective : Function.Injective inboundTag := by
  intro p q h
  apply protocol_text_injective
  simpa [inboundTag, String.ext_iff] using h

/-- On one inbound, an email names one client. -/
theorem email_inj {c d : XrayClient} (protocol : c.protocol = d.protocol) (h : c.email = d.email) :
    c = d := by
  obtain ⟨p, credential⟩ := c
  obtain ⟨q, credential'⟩ := d
  obtain rfl : p = q := protocol
  have same : credential = credential' := by
    simpa [XrayClient.email, String.ext_iff] using h
  rw [same]

theorem mem_proxies : protocol ∈ proxies ↔ protocol.isProxy := by
  cases protocol <;> simp [proxies, Protocol.isProxy]

theorem mem_group : c ∈ group clients protocol ↔ c ∈ clients ∧ c.protocol = protocol := by
  simp [group]

/-- **The users of a configuration.** -/
theorem mem_configured : u ∈ configured cfg clients tag ↔
    ∃ c ∈ clients, c.protocol.isProxy ∧ inboundTag c.protocol = tag ∧ c.inboundUser = u := by
  have tags : ∀ p port, (inbound cfg clients p port).tag = inboundTag p := fun _ _ => rfl
  have members : ∀ p port, (inbound cfg clients p port).clients = group clients p :=
    fun _ _ => rfl
  simp only [configured, proxyInbounds, List.mem_toFinset, List.mem_flatMap, List.mem_filter,
    List.mem_cons, List.not_mem_nil, or_false, decide_eq_true_eq, List.mem_map]
  constructor
  · rintro ⟨i, ⟨rfl | rfl, rfl⟩, c, hc, rfl⟩
    · obtain ⟨mem, vless⟩ := mem_group.1 (members .vless 11000 ▸ hc)
      exact ⟨c, mem, by simp [vless, Protocol.isProxy], by rw [vless, tags], rfl⟩
    · obtain ⟨mem, vmess⟩ := mem_group.1 (members .vmess 11001 ▸ hc)
      exact ⟨c, mem, by simp [vmess, Protocol.isProxy], by rw [vmess, tags], rfl⟩
  · rintro ⟨c, mem, proxy, rfl, rfl⟩
    cases h : c.protocol with
    | vless => exact ⟨_, ⟨.inl rfl, tags .vless 11000⟩, c, mem_group.2 ⟨mem, h⟩, rfl⟩
    | vmess => exact ⟨_, ⟨.inr rfl, tags .vmess 11001⟩, c, mem_group.2 ⟨mem, h⟩, rfl⟩
    | wireguard => simp [h, Protocol.isProxy] at proxy
    | cisco => simp [h, Protocol.isProxy] at proxy

theorem mem_configured_of_proxy (proxy : ∀ c ∈ clients, c.protocol.isProxy) :
    u ∈ configured cfg clients tag ↔ ∃ c ∈ clients, c.inboundTag = tag ∧ c.inboundUser = u := by
  rw [mem_configured]
  constructor
  · rintro ⟨c, mem, -, tagged, user⟩
    exact ⟨c, mem, tagged, user⟩
  · rintro ⟨c, mem, tagged, user⟩
    exact ⟨c, mem, proxy c mem, tagged, user⟩

/-! ## Running commands -/

/-- The inbounds after a list of commands. -/
def runCommands (users : Inbounds) (cmds : List Command) : Inbounds := cmds.foldl Command.apply users

@[simp] theorem runCommands_nil : runCommands users [] = users := rfl

@[simp] theorem runCommands_cons {cmd : Command} {cmds : List Command} :
    runCommands users (cmd :: cmds) = runCommands (cmd.apply users) cmds := rfl

theorem runCommands_append {cmds cmds' : List Command} :
    runCommands users (cmds ++ cmds') = runCommands (runCommands users cmds) cmds' :=
  List.foldl_append

/-- A round that removes nobody is no command, and would change nothing. -/
theorem mem_runCommands_remove {protocols : List Protocol} :
    u ∈ runCommands users (protocols.filterMap (removeCommand clients)) tag ↔
      u ∈ users tag ∧ ∀ c ∈ clients, c.protocol ∈ protocols → inboundTag c.protocol = tag →
        c.email ≠ u.email := by
  induction protocols generalizing users with
  | nil => simp
  | cons p protocols ih =>
    have here : ∀ c, c ∈ group clients p ↔ c ∈ clients ∧ c.protocol = p := fun c => mem_group
    cases h : (group clients p).map XrayClient.email with
    | nil =>
      have nobody : ∀ c ∈ clients, c.protocol ≠ p := by
        intro c hc hp
        have mem := (here c).2 ⟨hc, hp⟩
        simp_all
      have skip : removeCommand clients p = none := by simp [removeCommand, h]
      simp only [List.filterMap_cons, skip, ih, List.mem_cons]
      grind
    | cons email emails =>
      have cmd : removeCommand clients p = some (.rmu (inboundTag p) (email :: emails)) := by
        simp [removeCommand, h]
      have named : ∀ e, e ∈ email :: emails ↔ ∃ c ∈ group clients p, c.email = e := by
        intro e; rw [← h, List.mem_map]
      simp only [List.filterMap_cons, cmd, runCommands_cons, ih, Command.apply]
      split
      · simp only [Finset.mem_filter, named]
        grind
      · grind

/-- The users that the rounds of `_add_clients` add. -/
theorem mem_runCommands_add {protocols : List Protocol} :
    u ∈ runCommands users (protocols.filterMap (addCommand clients)) tag ↔
      u ∈ users tag ∨ ∃ c ∈ clients, c.protocol ∈ protocols ∧ inboundTag c.protocol = tag ∧
        c.inboundUser = u := by
  induction protocols generalizing users with
  | nil => simp
  | cons p protocols ih =>
    have here : ∀ c, c ∈ group clients p ↔ c ∈ clients ∧ c.protocol = p := fun c => mem_group
    cases h : (group clients p).map XrayClient.inboundUser with
    | nil =>
      have nobody : ∀ c ∈ clients, c.protocol ≠ p := by
        intro c hc hp
        have mem := (here c).2 ⟨hc, hp⟩
        simp_all
      have skip : addCommand clients p = none := by simp [addCommand, h]
      simp only [List.filterMap_cons, skip, ih, List.mem_cons]
      grind
    | cons first rest =>
      have cmd : addCommand clients p = some (.adu (inboundTag p) (first :: rest)) := by
        simp [addCommand, h]
      have named : ∀ v, v ∈ first :: rest ↔ ∃ c ∈ group clients p, c.inboundUser = v := by
        intro v; rw [← h, List.mem_map]
      simp only [List.filterMap_cons, cmd, runCommands_cons, ih, Command.apply]
      split
      · simp only [Finset.mem_union, List.mem_toFinset, named]
        grind
      · grind

/-- **The dynamic path**: from the inbounds of the clients it knows, its commands lead to
the inbounds of the desired clients. -/
theorem runCommands_sync :
    runCommands (configured cfg clients) (syncCommands clients desired) = configured cfg desired := by
  funext tag
  ext u
  rw [syncCommands, runCommands_append, mem_runCommands_add, mem_runCommands_remove]
  simp only [mem_configured, mem_proxies, List.mem_filter, decide_eq_true_eq]
  constructor
  · rintro (⟨⟨c, mem, proxy, rfl, rfl⟩, kept⟩ | ⟨c, ⟨mem, -⟩, proxy, tagged, user⟩)
    · refine ⟨c, ?_, proxy, rfl, rfl⟩
      by_contra gone
      exact kept c ⟨mem, gone⟩ proxy rfl rfl
    · exact ⟨c, mem, proxy, tagged, user⟩
  · rintro ⟨c, mem, proxy, rfl, rfl⟩
    by_cases known : c ∈ clients
    · refine .inl ⟨⟨c, known, proxy, rfl, rfl⟩, fun d hd _ tagged email => ?_⟩
      have same : d = c := email_inj (inboundTag_injective tagged) email
      exact hd.2 (same ▸ mem)
    · exact .inr ⟨c, ⟨mem, known⟩, proxy, rfl, rfl⟩

/-! ## The critical section -/

theorem isRunning_iff {process : XrayProcess} :
    process.isRunning ↔ ∃ users, process = .running users := by
  cases process <;> simp [XrayProcess.isRunning]

/-- When the process runs, its inbounds have exactly the users of these clients. -/
def XrayProcess.Serves (cfg : Settings) (clients : List XrayClient) (process : XrayProcess) : Prop :=
  ∀ users, process = .running users → users = configured cfg clients

/-- What holds of the runtime at a point of the critical section of a call. -/
def XrayRuntime.At (cfg : Settings) (r : XrayRuntime) (snap : Snapshot) : Phase → Prop
  | .syncing todo => r.process ≠ .none ∧ ∀ users, r.process = .running users →
      runCommands users todo = configured cfg snap.desired
  | .stopping => True
  | .starting => r.process = .none
  | .waiting => r.process ≠ .none ∧ r.process.Serves cfg snap.desired

/-- **The runtime is sound**: between two calls the process has the users of `_clients`,
which are those of the latest call if that returned; during a call, `At`. -/
structure XrayRuntime.Sound (cfg : Settings) (r : XrayRuntime) : Prop where
  idle : r.lock.holder = none → r.process.Serves cfg r.clients
  returned : r.lock.holder = none → ∀ snap, r.lock.latest = some (snap, .returned) →
    r.process ≠ .none ∧ r.clients = snap.desired
  held : ∀ snap phase, r.lock.holder = some (snap, phase) → r.At cfg snap phase

/-- **Everything a step of the runtime can do.** -/
inductive XrayRuntime.Stepped (cfg : Settings) (r : XrayRuntime) : Label → XrayRuntime → Prop
  | dynamic (users : Inbounds) (free : r.lock.holder = none) (snap rest)
      (waits : r.lock.waiting = snap :: rest) (running : r.process = .running users) :
      Stepped cfg r .acquired
        { r with lock := r.lock.acquire (.syncing (syncCommands r.clients snap.desired)) }
  | restart (free : r.lock.holder = none) (snap rest) (waits : r.lock.waiting = snap :: rest)
      (down : ∀ users, r.process ≠ .running users) : Stepped cfg r .acquired
        { process := .none, clients := [], lock := r.lock.acquire .starting }
  | command (snap cmd todo) (held : r.lock.holder = some (snap, .syncing (cmd :: todo))) :
      Stepped cfg r .commandDone
        { r with process := r.process.apply cmd, lock := r.lock.move (.syncing todo) }
  | failure (snap part cmd todo) (held : r.lock.holder = some (snap, .syncing (cmd :: todo))) :
      Stepped cfg r (.commandFailed part)
        { r with process := r.process.apply part, lock := r.lock.move .stopping }
  | stop (snap) (held : r.lock.holder = some (snap, .stopping)) : Stepped cfg r .stopped
      { process := .none, clients := [], lock := r.lock.move .starting }
  | synced (snap) (held : r.lock.holder = some (snap, .syncing [])) : Stepped cfg r .synced
      { r with clients := snap.desired, lock := r.lock.release .returned }
  | rejected (snap) (held : r.lock.holder = some (snap, .starting)) : Stepped cfg r .rejected
      { r with lock := r.lock.release .raised }
  | spawned (snap) (held : r.lock.holder = some (snap, .starting)) : Stepped cfg r .spawned
      { r with process := .running (configured cfg snap.desired), lock := r.lock.move .waiting }
  | ready (snap) (held : r.lock.holder = some (snap, .waiting)) : Stepped cfg r .apiReady
      { r with clients := snap.desired, lock := r.lock.release .returned }
  | unready (snap) (held : r.lock.holder = some (snap, .waiting)) : Stepped cfg r .apiFailed
      { process := .none, clients := [], lock := r.lock.release .raised }
  | exit (users : Inbounds) (running : r.process = .running users) : Stepped cfg r .exited
      { r with process := .exited }

theorem XrayRuntime.step_inv {r r' : XrayRuntime} {x : Label} (h : r.step cfg x = some r') :
    Stepped cfg r x r' := by
  cases x with
  | acquired =>
    simp only [step] at h
    split at h
    · rename_i snap rest free waits
      split at h
      · rename_i running
        cases h
        obtain ⟨users, hp⟩ := isRunning_iff.1 running
        exact .dynamic users free snap rest waits hp
      · rename_i down
        cases h
        exact .restart free snap rest waits fun users hp => down (isRunning_iff.2 ⟨users, hp⟩)
    · cases h
  | commandFailed part =>
    simp only [step] at h
    split at h
    · split at h
      · cases h; exact .failure _ _ _ _ ‹_›
      · cases h
    · cases h
  | commandDone => simp only [step] at h; split at h <;> cases h; exact .command _ _ _ ‹_›
  | stopped => simp only [step] at h; split at h <;> cases h; exact .stop _ ‹_›
  | synced => simp only [step] at h; split at h <;> cases h; exact .synced _ ‹_›
  | rejected => simp only [step] at h; split at h <;> cases h; exact .rejected _ ‹_›
  | spawned => simp only [step] at h; split at h <;> cases h; exact .spawned _ ‹_›
  | apiReady => simp only [step] at h; split at h <;> cases h; exact .ready _ ‹_›
  | apiFailed => simp only [step] at h; split at h <;> cases h; exact .unready _ ‹_›
  | exited => simp only [step] at h; split at h <;> cases h; exact .exit _ ‹_›

/-- A runtime whose lock is held is sound when `At` holds. -/
theorem XrayRuntime.Sound.of_held {r : XrayRuntime} {snap : Snapshot} {phase : Phase}
    (held : r.lock.holder = some (snap, phase)) (here : r.At cfg snap phase) : r.Sound cfg := by
  refine ⟨by simp [held], by simp [held], fun snap' phase' held' => ?_⟩
  cases held.symm.trans held'
  exact here

/-- A runtime whose lock was left after a success. -/
theorem XrayRuntime.Sound.of_returned {r : XrayRuntime} {snap : Snapshot}
    (free : r.lock.holder = none) (latest : r.lock.latest = some (snap, .returned))
    (here : r.process ≠ .none) (serves : r.process.Serves cfg snap.desired)
    (clients : r.clients = snap.desired) : r.Sound cfg := by
  refine ⟨fun _ => clients ▸ serves, fun _ snap' latest' => ?_, by simp [free]⟩
  cases latest.symm.trans latest'
  exact ⟨here, clients⟩

/-- A runtime whose lock was left after a failure, and whose process is gone. -/
theorem XrayRuntime.Sound.of_raised {r : XrayRuntime} {snap : Snapshot}
    (free : r.lock.holder = none) (latest : r.lock.latest = some (snap, .raised))
    (down : r.process = .none) : r.Sound cfg :=
  ⟨fun _ => by simp [XrayProcess.Serves, down], by simp [latest], by simp [free]⟩

/-- **The step lemma.** -/
theorem XrayRuntime.Sound.step {r r' : XrayRuntime} {x : Label} (sound : r.Sound cfg)
    (h : r.step cfg x = some r') : r'.Sound cfg := by
  cases step_inv h with
  | dynamic users free snap rest waits running =>
    apply Sound.of_held (FifoLock.holder_acquire waits)
    refine ⟨by simp [running], fun us hus => ?_⟩
    rw [sound.idle free us hus]
    exact runCommands_sync
  | restart free snap rest waits down => exact .of_held (FifoLock.holder_acquire waits) rfl
  | command snap cmd todo held =>
    apply Sound.of_held (FifoLock.holder_move held)
    obtain ⟨here, reach⟩ := sound.held _ _ held
    cases hp : r.process with
    | none => exact absurd hp here
    | exited => exact ⟨by simp [XrayProcess.apply], by simp [XrayProcess.apply]⟩
    | running users =>
      refine ⟨by simp [XrayProcess.apply], fun us hus => ?_⟩
      simp only [XrayProcess.apply, XrayProcess.running.injEq] at hus
      rw [← hus]
      exact reach users hp
  | failure snap part cmd todo held => exact .of_held (FifoLock.holder_move held) trivial
  | stop snap held => exact .of_held (FifoLock.holder_move held) rfl
  | synced snap held =>
    obtain ⟨here, reach⟩ := sound.held _ _ held
    exact .of_returned FifoLock.holder_release (FifoLock.latest_release held) here reach rfl
  | rejected snap held =>
    exact .of_raised FifoLock.holder_release (FifoLock.latest_release held) (sound.held _ _ held)
  | spawned snap held =>
    apply Sound.of_held (FifoLock.holder_move held)
    exact ⟨by simp, by rintro us ⟨⟩; rfl⟩
  | ready snap held =>
    obtain ⟨here, reach⟩ := sound.held _ _ held
    exact .of_returned FifoLock.holder_release (FifoLock.latest_release held) here reach rfl
  | unready snap held =>
    exact .of_raised FifoLock.holder_release (FifoLock.latest_release held) rfl
  | exit users running =>
    refine ⟨fun _ => by simp [XrayProcess.Serves],
      fun free snap latest => ⟨by simp, (sound.returned free snap latest).2⟩,
      fun snap phase held => ?_⟩
    have before := sound.held snap phase held
    cases phase with
    | syncing todo => exact ⟨by simp, by simp⟩
    | stopping => trivial
    | starting => simp [XrayRuntime.At, running] at before
    | waiting => exact ⟨by simp, by simp [XrayProcess.Serves]⟩

/-- Only a new call changes which call is the newest. -/
theorem XrayRuntime.newest_step {r r' : XrayRuntime} {x : Label} (h : r.step cfg x = some r') :
    r'.lock.newest = r.lock.newest := by
  cases step_inv h with
  | dynamic users free => exact FifoLock.newest_acquire free
  | restart free => exact FifoLock.newest_acquire free
  | command | failure | stop | spawned => exact FifoLock.newest_move
  | synced | rejected | ready | unready => exact FifoLock.newest_release
  | exit => rfl

/-- Desired clients are clients of proxy nodes. -/
theorem Snapshot.desired_isProxy {snap : Snapshot} : ∀ c ∈ snap.desired, c.protocol.isProxy := by
  intro c hc
  obtain ⟨k, -, proxy, -, rfl⟩ := mem_clientsFromKeys.1 hc
  exact proxy

theorem XrayRuntime.clients_step {r r' : XrayRuntime} {x : Label} (h : r.step cfg x = some r')
    (proxy : ∀ c ∈ r.clients, c.protocol.isProxy) : ∀ c ∈ r'.clients, c.protocol.isProxy := by
  cases step_inv h with
  | dynamic | command | failure | rejected | spawned | exit => exact proxy
  | restart | stop | unready => simp
  | synced snap | ready snap => exact snap.desired_isProxy

/-- Only the process itself ends a process without a call knowing. -/
theorem XrayRuntime.exited_step {r r' : XrayRuntime} {x : Label} (h : r.step cfg x = some r')
    (other : x ≠ .exited) (up : r.process ≠ .exited) : r'.process ≠ .exited := by
  have apply_up : ∀ cmd, r.process.apply cmd ≠ .exited := by
    intro cmd
    cases hp : r.process <;> simp_all [XrayProcess.apply]
  cases step_inv h with
  | command snap cmd | failure snap cmd => exact apply_up cmd
  | dynamic | synced | rejected | ready => exact up
  | restart | stop | unready | spawned => simp
  | exit => exact absurd rfl other

/-- A queued call changes nothing for the holder. -/
theorem XrayRuntime.Sound.call {r : XrayRuntime} {snap : Snapshot} (sound : r.Sound cfg) :
    (r.call snap).Sound cfg :=
  ⟨sound.idle, sound.returned, sound.held⟩

theorem XrayRuntime.sound_new : XrayRuntime.new.Sound cfg :=
  ⟨by simp [new, XrayProcess.Serves], by simp [new, FifoLock.free], by simp [new, FifoLock.free]⟩

theorem XrayRuntime.sound_boot {snap : Snapshot} : (XrayRuntime.boot snap).Sound cfg :=
  .of_held (by rfl) (by rfl)

end Arena.Model
