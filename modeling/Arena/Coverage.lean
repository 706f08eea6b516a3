import Arena.Model.Admission
import Arena.Model.Snapshots

/-!
# No admitted user is missing from Xray

Gateway requests and the clock never trigger a `reconcile`, yet they decide with the
administrators who is admitted. `admitted_in_xray`: whenever no administrative request is in
progress and the latest `start` or `reconcile` returned, each key that `authorize` would
admit on a proxy node has its client in Xray. The reverse fails, as it may: a user who
expires stays in Xray until the next administrative request.
-/

namespace Arena.Coverage

open Arena.Lib Arena.Model

variable {cfg : Settings} {now : Instant} {p : Plane} {db : Database} {k : LoadedKey}
  {snap : Snapshot}

/-- `authorize` admits some request for the key, or stops it at the address limit only. -/
def Admits (cfg : Settings) (now : Instant) (db : Database) (k : LoadedKey) : Prop :=
  ∃ q : GatewayAuthorize, q.userId = k.key.userId ∧ q.nodeId = k.key.nodeId ∧
    (decideRoute now q (finishStaleSessions cfg now db)).passes

/-- An admitted key is admissible: the sweep changes sessions only. -/
theorem admissible_of_admits (hk : k ∈ db.loadKeys) (admits : Admits cfg now db k) :
    k.Admissible now := by
  obtain ⟨q, user, node, passes⟩ := admits
  have swept : k ∈ (finishStaleSessions cfg now db).loadKeys := mem_loadKeys.2 (mem_loadKeys.1 hk)
  exact (decideRoute_passes_iff swept user node).1 passes

/-- A key that is admissible today was desired by a current snapshot: keys and nodes are
those of today, and a user allowed today was allowed then. -/
theorem mem_desired (current : snap.Current p) (hk : k ∈ p.db.loadKeys)
    (proxy : k.node.protocol.isProxy) (ok : k.Admissible p.now) : clientOf k ∈ snap.desired := by
  obtain ⟨mem, user, node⟩ := mem_loadKeys.1 hk
  obtain ⟨earlier, found, allowed⟩ := current.allows k.key.userId ⟨k.user, user, ok.user⟩
  have loaded : (⟨k.key, earlier, k.node⟩ : LoadedKey) ∈ snap.db.loadKeys :=
    mem_loadKeys.2 ⟨current.keys ▸ mem, found, current.nodes ▸ node⟩
  exact mem_clientsFromKeys.2 ⟨_, loaded, proxy, ⟨ok.node, ok.key, allowed⟩, rfl⟩

/-- **No admitted user is missing from Xray.** In every state that the panel reaches, when no
administrative request is in progress and the latest call of `start` or `reconcile` returned,
Xray runs (unless it exited on its own), and while it runs every key on a VLESS or VMess node
that `authorize` would admit now, the address limit aside, has its client in the node's
inbound. -/
theorem admitted_in_xray (cfg : Settings) (p : Plane) (es : List Panel.Label) (s : Panel)
    (run : (panel cfg).run (.initial p) es = some s) (quiet : s.Quiet) (snap : Snapshot)
    (latest : s.runtime.lock.latest = some (snap, .returned)) :
    (.runtime .exited ∉ es → s.runtime.process.isRunning) ∧
    ∀ users, s.runtime.process = .running users →
      ∀ k ∈ s.plane.db.loadKeys, k.node.protocol.isProxy → Admits cfg s.plane.now s.plane.db k →
        (clientOf k).inboundUser ∈ users (clientOf k).inboundTag := by
  refine ⟨isRunning_of_returned run quiet latest, fun users running k hk proxy admits => ?_⟩
  obtain ⟨current, serves⟩ := (inv_run run).returned quiet latest
  have ok : k.Admissible s.plane.now := admissible_of_admits hk admits
  have desired : clientOf k ∈ snap.desired := mem_desired current hk proxy ok
  rw [serves users running, mem_configured]
  exact ⟨clientOf k, desired, proxy, rfl, rfl⟩

/-- A start, a user, its first connection, and some time. -/
def firstClient : List Panel.Label :=
  [.plane (.start "vless" "vmess"), .runtime .spawned, .runtime .apiReady,
    .plane (.admin "admin" (.createUser "user" testKeys testUser)),
    .load, .runtime .acquired, .runtime .commandDone, .runtime .commandDone, .runtime .synced,
    .plane (.authorize "session" { userId := "user", nodeId := "vless", sourceIp := "203.0.113.10" }),
    .plane (.tick 1000000)]

/-- The request of the user from a second address is stopped by the limit only. -/
theorem admitted_in_xray_first_client :
    ∃ s users k, (panel {}).run (.initial (.initial 0)) firstClient = some s ∧
      s.runtime.process = .running users ∧ k ∈ s.plane.db.loadKeys ∧ k.node.protocol.isProxy ∧
      (clientOf k).inboundUser ∈ users (clientOf k).inboundTag := by
  obtain ⟨s, run⟩ := Option.isSome_iff_exists.1
    (by decide +kernel : ((panel {}).run (.initial (.initial 0)) firstClient).isSome)
  let second (k : LoadedKey) : GatewayAuthorize :=
    { userId := k.key.userId, nodeId := k.key.nodeId, sourceIp := "203.0.113.11" }
  have known : ((panel {}).run (.initial (.initial 0)) firstClient).map (fun s =>
      decide s.Quiet && s.runtime.lock.latest.any (·.2 = .returned) &&
        s.plane.db.loadKeys.any fun k => k.node.protocol.isProxy &&
          (decideRoute s.plane.now (second k)
            (finishStaleSessions {} s.plane.now s.plane.db)).passes) = some true := by
    decide +kernel
  rw [run] at known
  simp only [Option.map_some, Option.some.injEq, Bool.and_eq_true, decide_eq_true_eq,
    Option.any_eq_true, List.any_eq_true] at known
  obtain ⟨⟨quiet, ⟨snap, outcome⟩, latest, rfl⟩, k, hk, proxy, passes⟩ := known
  have covered := admitted_in_xray {} (.initial 0) firstClient s run quiet snap latest
  have stays : .runtime .exited ∉ firstClient := by simp [firstClient]
  obtain ⟨users, running⟩ := isRunning_iff.1 (covered.1 stays)
  exact ⟨s, users, k, run, running, hk, proxy,
    covered.2 users running k hk proxy ⟨second k, rfl, rfl, passes⟩⟩

end Arena.Coverage
