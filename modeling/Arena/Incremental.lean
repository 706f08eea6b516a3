import Arena.Lib.Runs
import Arena.Model.Plane
import Arena.Model.Sync

/-!
# What an incremental sync does to the others

While Xray runs, `reconcile` tells it what has changed and leaves the process alone. Removals
name users by their e-mails, additions carry whole users, and both go inbound by inbound:
`incremental_sync` follows the users of the inbounds through the commands one by one.
-/

namespace Arena.Incremental

open Arena.Lib Arena.Model

variable {cfg : Settings} {old new : List XrayClient} {users : Inbounds} {cmd : Command}
  {r s s' : XrayRuntime} {snap : Snapshot}

/-- What happens during a call: a step of the runtime, or another call that queues behind it. -/
inductive Move where
  | own (x : XrayRuntime.Label)
  | queued (snap : Snapshot)

/-- The runtime between the requests that call it. -/
def runtime (cfg : Settings) : Machine XrayRuntime Move where
  step r
    | .own x => r.step cfg x
    | .queued snap => some (r.call snap)

/-- A move of a call whose commands succeed, before its last one. -/
def Move.inProgress : Move → Prop
  | .own (.commandFailed _) | .own .synced => False
  | _ => True

/-- Users on the way from one set of clients to another: who is in both is there, and who is in
neither is not. -/
structure Between (old new : List XrayClient) (users : Inbounds) : Prop where
  kept : ∀ c ∈ old, c ∈ new → c.inboundUser ∈ users c.inboundTag
  only : ∀ tag, ∀ u ∈ users tag, ∃ c, (c ∈ old ∨ c ∈ new) ∧ c.inboundTag = tag ∧ c.inboundUser = u

/-- The inbounds have the users of these clients and no other. -/
def Exactly (clients : List XrayClient) (users : Inbounds) : Prop :=
  ∀ tag u, u ∈ users tag ↔ ∃ c ∈ clients, c.inboundTag = tag ∧ c.inboundUser = u

/-! ## One command -/

theorem removeCommand_eq {clients : List XrayClient} {protocol : Protocol}
    (made : removeCommand clients protocol = some cmd) :
    cmd = .rmu (inboundTag protocol) ((group clients protocol).map XrayClient.email) := by
  cases emails : (group clients protocol).map XrayClient.email with
  | nil => simp [removeCommand, emails] at made
  | cons email rest =>
    rw [removeCommand, emails] at made
    exact (Option.some.inj made).symm

theorem addCommand_eq {clients : List XrayClient} {protocol : Protocol}
    (made : addCommand clients protocol = some cmd) :
    cmd = .adu (inboundTag protocol) ((group clients protocol).map XrayClient.inboundUser) := by
  cases added : (group clients protocol).map XrayClient.inboundUser with
  | nil => simp [addCommand, added] at made
  | cons user rest =>
    rw [addCommand, added] at made
    exact (Option.some.inj made).symm

/-- **What a command of a sync is**: the e-mails of removed clients of one protocol, or the added
clients of one protocol. -/
theorem syncCommands_cases (mem : cmd ∈ syncCommands old new) :
    (∃ protocol, cmd = .rmu (inboundTag protocol)
      ((group (old.filter (· ∉ new)) protocol).map XrayClient.email)) ∨
    (∃ protocol, cmd = .adu (inboundTag protocol)
      ((group (new.filter (· ∉ old)) protocol).map XrayClient.inboundUser)) := by
  rcases List.mem_append.1 mem with mem | mem
  · obtain ⟨protocol, -, made⟩ := List.mem_filterMap.1 mem
    exact .inl ⟨protocol, removeCommand_eq made⟩
  · obtain ⟨protocol, -, made⟩ := List.mem_filterMap.1 mem
    exact .inr ⟨protocol, addCommand_eq made⟩

/-- **The step lemma**: a command of the sync removes nobody who is in both sets, and adds nobody
who is in neither. -/
theorem Between.apply (between : Between old new users) (mem : cmd ∈ syncCommands old new) :
    Between old new (cmd.apply users) := by
  rcases syncCommands_cases mem with ⟨protocol, rfl⟩ | ⟨protocol, rfl⟩
  · constructor
    case kept =>
      intro c hold hnew
      have there := between.kept c hold hnew
      simp only [Command.apply]
      split
      · rename_i tagged
        refine Finset.mem_filter.2 ⟨there, fun removed => ?_⟩
        obtain ⟨d, gone, email⟩ := List.mem_map.1 removed
        obtain ⟨gone, mine⟩ := mem_group.1 gone
        -- on this inbound the e-mail is that of `c` itself, who is not removed
        have same : d = c := email_inj (mine.trans (inboundTag_injective tagged).symm) email
        have absent := (List.mem_filter.1 gone).2
        simp [same, hnew] at absent
      · exact there
    case only =>
      intro tag u there
      simp only [Command.apply] at there
      split at there
      · exact between.only tag u (Finset.mem_filter.1 there).1
      · exact between.only tag u there
  · constructor
    case kept =>
      intro c hold hnew
      have there := between.kept c hold hnew
      simp only [Command.apply]
      split
      · exact Finset.mem_union_left _ there
      · exact there
    case only =>
      intro tag u there
      simp only [Command.apply] at there
      split at there
      · rename_i tagged
        rcases Finset.mem_union.1 there with there | added
        · exact between.only tag u there
        · obtain ⟨c, mem, rfl⟩ := List.mem_map.1 (List.mem_toFinset.1 added)
          obtain ⟨mem, mine⟩ := mem_group.1 mem
          exact ⟨c, .inr (List.mem_filter.1 mem).1, by rw [tagged, ← mine]; rfl, rfl⟩
      · exact between.only tag u there

theorem Between.runCommands {cmds : List Command} (between : Between old new users)
    (all : ∀ cmd ∈ cmds, cmd ∈ syncCommands old new) : Between old new (runCommands users cmds) := by
  induction cmds generalizing users with
  | nil => exact between
  | cons cmd cmds ih =>
    rw [runCommands_cons]
    exact ih (between.apply (all cmd (by simp))) fun c mem => all c (by simp [mem])

/-- The users of a configuration are on the way to any other. -/
theorem between_configured (proxy : ∀ c ∈ new, c.protocol.isProxy) : Between old new (configured cfg old) where
  kept c hold hnew := mem_configured.2 ⟨c, hold, proxy c hnew, rfl, rfl⟩
  only tag u there := by
    obtain ⟨c, mem, -, tagged, user⟩ := mem_configured.1 there
    exact ⟨c, .inl mem, tagged, user⟩

theorem exactly_configured (proxy : ∀ c ∈ new, c.protocol.isProxy) : Exactly new (configured cfg new) :=
  fun _ _ => mem_configured_of_proxy proxy

/-! ## A call -/

/-- Where a call stands after some of its commands. -/
structure Halfway (cfg : Settings) (r : XrayRuntime) (snap : Snapshot) (moves : List Move)
    (s : XrayRuntime) : Prop where
  commands : ∃ done todo, syncCommands r.clients snap.desired = done ++ todo ∧
    s.lock.holder = some (snap, .syncing todo) ∧
    (s.process = .running (runCommands (configured cfg r.clients) done) ∨
      s.process = .exited ∧ .own .exited ∈ moves)
  clients : s.clients = r.clients
  spawned : .own .spawned ∉ moves

/-- **The step lemma of a call.** -/
theorem Halfway.step {moves : List Move} {e : Move} (halfway : Halfway cfg r snap moves s)
    (ok : e.inProgress) (h : (runtime cfg).step s e = some s') : Halfway cfg r snap (moves ++ [e]) s' := by
  obtain ⟨⟨done, todo, split, held, process⟩, clients, spawned⟩ := halfway
  have later (m : Move) : (s.process = .running (runCommands (configured cfg r.clients) done) ∨
      s.process = .exited ∧ .own .exited ∈ moves) →
      (s.process = .running (runCommands (configured cfg r.clients) done) ∨
        s.process = .exited ∧ .own .exited ∈ moves ++ [m]) :=
    Or.imp_right fun ⟨down, mem⟩ => ⟨down, List.mem_append_left _ mem⟩
  cases e with
  | queued snap' =>
    cases h
    exact ⟨⟨done, todo, split, held, later _ process⟩, clients, by simp [spawned]⟩
  | own x =>
    cases XrayRuntime.step_inv h with
    | dynamic users free => simp [free] at held
    | restart free => simp [free] at held
    | command snap' cmd todo' held' =>
      cases held.symm.trans held'
      refine ⟨⟨done ++ [cmd], todo', by simp [split], FifoLock.holder_move held, ?_⟩, clients, by simp [spawned]⟩
      rcases process with up | ⟨down, mem⟩
      · left
        simp only [up, XrayProcess.apply, runCommands_append, runCommands_cons, runCommands_nil]
      · right
        exact ⟨by simp only [down, XrayProcess.apply], List.mem_append_left _ mem⟩
    | failure => exact absurd ok id
    | stop snap' held' => cases held.symm.trans held'
    | synced => exact absurd ok id
    | rejected snap' held' => cases held.symm.trans held'
    | spawned snap' held' => cases held.symm.trans held'
    | ready snap' held' => cases held.symm.trans held'
    | unready snap' held' => cases held.symm.trans held'
    | exit users running => exact ⟨⟨done, todo, split, held, .inr ⟨rfl, by simp⟩⟩, clients, by simp [spawned]⟩

theorem halfway_start {rest : List Snapshot}
    (first : r.lock.waiting = snap :: rest) (running : r.process = .running (configured cfg r.clients))
    (h : r.step cfg .acquired = some s) : Halfway cfg r snap [] s := by
  cases XrayRuntime.step_inv h with
  | dynamic users free' snap' rest' waits up =>
    obtain ⟨rfl, rfl⟩ := List.cons.inj (first.symm.trans waits)
    exact ⟨⟨[], _, rfl, FifoLock.holder_acquire waits, .inl running⟩, rfl, by simp⟩
  | restart free' snap' rest' waits down => exact absurd running (down _)

/-- **An incremental sync disturbs nobody else.** From a running Xray whose users are those of
`_clients`, during the call of the first waiter, after any of its commands and whatever calls
queue meanwhile: no process was created, Xray still runs unless it exited on its own, everyone
in both sets is there and nobody outside both; and when the call returns, the users are exactly
the desired ones. -/
theorem incremental_sync (cfg : Settings) (r s : XrayRuntime) (snap : Snapshot) (rest : List Snapshot)
    (moves : List Move) (first : r.lock.waiting = snap :: rest)
    (running : r.process = .running (configured cfg r.clients)) (good : ∀ e ∈ moves, e.inProgress)
    (run : (runtime cfg).run r (.own .acquired :: moves) = some s) :
    (.own .spawned ∉ moves ∧ (s.process.isRunning ∨ .own .exited ∈ moves) ∧
      ∀ users, s.process = .running users → Between r.clients snap.desired users) ∧
    ∀ s', (runtime cfg).step s (.own .synced) = some s' →
      s'.clients = snap.desired ∧ s'.process = s.process ∧
        ∀ users, s'.process = .running users → Exactly snap.desired users := by
  obtain ⟨mid, acquired, later⟩ := Machine.run_cons.1 run
  have along : (runtime cfg).Along (fun _ e => e.inProgress) mid moves := Machine.along_of_mem good mid
  have halfway : Halfway cfg r snap moves s :=
    Machine.history_invariant (halfway_start first running acquired)
      (fun _ before ok h => before.step ok h) along later
  obtain ⟨⟨done, todo, split, held, process⟩, -, spawned⟩ := halfway
  have proxy := snap.desired_isProxy
  refine ⟨⟨spawned, ?_, fun users up => ?_⟩, fun s' last => ?_⟩
  · rcases process with up | ⟨-, mem⟩
    · exact .inl (by rw [up]; rfl)
    · exact .inr mem
  · rcases process with up' | ⟨down, -⟩
    · cases up.symm.trans up'
      exact (between_configured proxy).runCommands fun cmd mem => by rw [split]; exact List.mem_append_left _ mem
    · cases up.symm.trans down
  · have last : s.step cfg .synced = some s' := last
    cases XrayRuntime.step_inv last with
    | synced snap' held' =>
      cases held.symm.trans held'
      refine ⟨rfl, rfl, fun users up => ?_⟩
      rcases process with up' | ⟨down, -⟩
      · cases up.symm.trans up'
        rw [← List.append_nil done, ← split, runCommands_sync]
        exact exactly_configured proxy
      · cases up.symm.trans down

/-- The runtime with no client, called by a request that saw the database `db`. -/
def calledWith (db : Database) : XrayRuntime :=
  ⟨⟨[⟨db, 0⟩], none, none⟩, .running (configured {} []), []⟩

/-- The user of the tests is added by one command. -/
theorem incremental_sync_first : ∃ p s s', (plane {}).run (.initial 0) firstConnection = some p ∧
    (runtime {}).run (calledWith p.db) [.own .acquired, .own .commandDone] = some s ∧
    (runtime {}).step s (.own .synced) = some s' ∧ s'.clients = clientsFromKeys 0 p.db.loadKeys ∧
    (s.process.isRunning ∨ .own .exited ∈ [Move.own .commandDone]) := by
  obtain ⟨p, reached, facts⟩ := (Option.any_eq_true _ _).1 (by decide +kernel :
    ((plane {}).run (.initial 0) firstConnection).any fun p =>
      ((runtime {}).run (calledWith p.db) [.own .acquired, .own .commandDone]).any fun s =>
        ((runtime {}).step s (.own .synced)).isSome)
  obtain ⟨s, run, last⟩ := (Option.any_eq_true _ _).1 facts
  obtain ⟨s', last⟩ := Option.isSome_iff_exists.1 last
  have good : ∀ e ∈ [Move.own .commandDone], e.inProgress := by simp [Move.inProgress]
  obtain ⟨during, after⟩ := incremental_sync {} (calledWith p.db) s ⟨p.db, 0⟩ [] _ rfl rfl good run
  exact ⟨p, s, s', reached, run, last, (after s' last).1, during.2.1⟩

end Arena.Incremental
