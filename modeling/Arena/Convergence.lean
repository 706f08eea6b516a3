import Arena.Model.Snapshots

/-!
# Xray converges to the database

Administrators change the database concurrently, and each change is followed by a
`reconcile` that may fail at every command, configuration test or start. `convergence`:
whenever no call holds the lock, `_clients` are the clients of the running Xray; and when all
requests are finished and the latest call returned, they are those that the final access keys
ask for.
-/

namespace Arena.Convergence

open Arena.Lib Arena.Model

variable {cfg : Settings} {p : Plane} {s : Panel} {snap : Snapshot} {users : Inbounds}

/-- The access keys of a database with their nodes, each with its user as an earlier database
had it. -/
def loadKeysAsOf (earlier db : Database) : List LoadedKey :=
  db.accessKeys.rows.filterMap fun key =>
    match earlier.users.find? key.userId, db.nodes.find? key.nodeId with
    | some user, some node => some ⟨key, user, node⟩
    | _, _ => none

/-- A current snapshot read the keys and nodes of today. -/
theorem loadKeysAsOf_of_current (current : snap.Current p) :
    loadKeysAsOf snap.db p.db = snap.db.loadKeys :=
  calc loadKeysAsOf snap.db p.db
      = loadKeysAsOf snap.db snap.db := by simp only [loadKeysAsOf, current.keys, current.nodes]
    _ = snap.db.loadKeys := rfl

/-- `_clients` and the users of the inbounds, when they agree. -/
theorem mem_of_configured (proxy : ∀ c ∈ s.runtime.clients, c.protocol.isProxy)
    (h : users = configured cfg s.runtime.clients) (tag : String) (u : InboundUser) :
    u ∈ users tag ↔ ∃ c ∈ s.runtime.clients, c.inboundTag = tag ∧ c.inboundUser = u := by
  rw [h]
  exact mem_configured_of_proxy proxy

/-- **Xray converges.** In every state that the panel reaches: (a) when no call holds the lock
and Xray runs, the users of its inbounds are those of `_clients`; (b) when no request is in
progress and the latest call of `start` or `reconcile` returned, the inbounds have the users
of `build_config` for the access keys of this database, each user judged as that call's
snapshot had it, and Xray runs unless it exited on its own. -/
theorem convergence (cfg : Settings) (p : Plane) (es : List Panel.Label) (s : Panel)
    (run : (panel cfg).run (.initial p) es = some s) :
    (s.runtime.lock.holder = none → ∀ users, s.runtime.process = .running users →
      ∀ tag u, u ∈ users tag ↔ ∃ c ∈ s.runtime.clients, c.inboundTag = tag ∧ c.inboundUser = u) ∧
    (s.Quiet → ∀ snap, s.runtime.lock.latest = some (snap, .returned) →
      (.runtime .exited ∉ es → s.runtime.process.isRunning) ∧
      ∀ users, s.runtime.process = .running users →
        users = configured cfg (clientsFromKeys snap.now (loadKeysAsOf snap.db s.plane.db))) := by
  have inv : s.Inv cfg := inv_run run
  constructor
  · intro free users running
    exact mem_of_configured inv.proxy (inv.sound.idle free users running)
  · intro quiet snap latest
    refine ⟨isRunning_of_returned run quiet latest, fun users running => ?_⟩
    obtain ⟨current, serves⟩ := inv.returned quiet latest
    rw [serves users running, loadKeysAsOf_of_current current]
    rfl

/-- A start; a user whose second `adu` fails halfway, so that Xray restarts; and two requests
that both commit before either loads the keys. -/
def firstRestart : List Panel.Label :=
  [.plane (.start "vless" "vmess"), .runtime .spawned, .runtime .apiReady,
    .plane (.admin "admin" (.createUser "user" testKeys testUser)),
    .load, .runtime .acquired, .runtime .commandDone,
    .runtime (.commandFailed (.adu "arena-vmess-ws" [])), .runtime .stopped, .runtime .spawned,
    .plane (.admin "admin" (.disableNode "vmess")),
    .plane (.admin "admin" (.detachNode "user" "vless")),
    .load, .runtime .apiReady, .load,
    .runtime .acquired, .runtime .commandDone, .runtime .commandDone, .runtime .synced,
    .runtime .acquired, .runtime .synced]

/-- After it, Xray runs without a client. -/
theorem convergence_first_restart :
    ∃ s users, (panel {}).run (.initial (.initial 0)) firstRestart = some s ∧
      s.runtime.process = .running users ∧ ∀ tag, users tag = ∅ := by
  obtain ⟨s, run⟩ := Option.isSome_iff_exists.1
    (by decide +kernel : ((panel {}).run (.initial (.initial 0)) firstRestart).isSome)
  have known : ((panel {}).run (.initial (.initial 0)) firstRestart).map
      (fun s => decide (s.runtime.lock.holder = none) && s.runtime.process.isRunning &&
        s.runtime.clients.isEmpty) = some true := by decide +kernel
  rw [run] at known
  simp only [Option.map_some, Option.some.injEq, Bool.and_eq_true, decide_eq_true_eq] at known
  obtain ⟨⟨free, running⟩, nobody⟩ := known
  obtain ⟨users, running⟩ := isRunning_iff.1 running
  have same := (convergence {} (.initial 0) firstRestart s run).1 free users running
  refine ⟨s, users, run, running, fun tag => ?_⟩
  ext u
  rw [same, List.isEmpty_iff.1 nobody]
  simp

end Arena.Convergence
