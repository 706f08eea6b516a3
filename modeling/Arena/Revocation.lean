import Arena.Model.Standing
import Arena.Model.Storage

/-!
# What a heartbeat re-checks

`authorize` checks the route and the account; `heartbeat` checks the account again and
nothing else. A heartbeat that lets a connection go on therefore vouches for the account, and
a new connection on the same route is admitted exactly when the route still stands: an
administrator who disables the node or detaches it from the user refuses new connections and
leaves the open ones alone.
-/

namespace Arena.Revocation

open Arena.Lib Arena.Model

variable {cfg : Settings} {now : Instant} {db db' : Database} {user node : Id}

/-- The node is enabled and the user has an enabled access key on it. -/
def RouteStands (db : Database) (user node : Id) : Prop :=
  (∃ n, db.nodes.find? node = some n ∧ n.enabled) ∧ (db.enabledKey user node).isSome

/-- The request opens the route of this session from the same address. -/
def SameRoute (session : ConnectionSession) (p : GatewayAuthorize) : Prop :=
  p.userId = session.userId ∧ p.nodeId = session.nodeId ∧ p.sourceIp = session.sourceIp

/-- Where the user is allowed and its address already counts, only the route decides. -/
theorem admitted_iff_route {p : GatewayAuthorize} (allowed : db.allows p.userId now)
    (counted : p.sourceIp ∈ db.openIps p.userId) :
    (∃ user node, decideRoute now p db = .admitted user node) ↔
      RouteStands db p.userId p.nodeId := by
  obtain ⟨user, found, ok⟩ := allowed
  constructor
  · rintro ⟨user, node, verdict⟩
    obtain ⟨-, hn, key, enabled, -⟩ := decideRoute_admitted_iff.1 verdict
    exact ⟨⟨node, hn, enabled⟩, key⟩
  · rintro ⟨⟨node, hn, enabled⟩, key⟩
    exact ⟨user, node, decideRoute_admitted_iff.2 ⟨found, hn, key, enabled, ok, .inl counted⟩⟩

/-- The reply of a heartbeat on an open session, in terms of the database it leaves. -/
theorem heartbeat_reply {p : GatewayHeartbeat} {session : ConnectionSession}
    (opened : db.openSession p.sessionId = some session) :
    ∃ reply, (heartbeat now p db).2 = .ok reply ∧
      (reply.terminate = false ↔ (heartbeat now p db).1.allows session.userId now) := by
  rcases heartbeat_cases (Prod.mk.eta (p := heartbeat now p db)).symm with
    ⟨missing, -⟩ | ⟨s, user, verdict, sid, rfl, charges, answered⟩
  · simp [missing] at opened
  · have same : s = session := by
      have here := charges.opened sid
      exact Option.some.inj (here.symm.trans opened)
    subst same
    have uid := Table.find?_key charges.owner
    have row : (heartbeat now p db).1.users.find? s.userId =
        some (user.addTraffic p.uplinkDelta p.downlinkDelta) := by
      simp [charges.users, Table.find?_update, charges.owner, uid]
    refine ⟨_, answered, ?_⟩
    simp [Database.allows, row]

/-- **A heartbeat that does not terminate vouches for the account only**: in the state it
leaves, the same connection would be admitted afresh exactly when its route stands. -/
theorem fresh_authorize_iff {p : GatewayHeartbeat} {session : ConnectionSession}
    {request : GatewayAuthorize} {newId : Id}
    (opened : db.openSession p.sessionId = some session) (same : SameRoute session request)
    (allowed : (heartbeat now p db).1.allows session.userId now)
    (fresh : (heartbeat now p db).1.sessions.find? newId = none) :
    (∃ reply, (authorize cfg now newId request (heartbeat now p db).1).2 = .ok reply) ↔
      RouteStands (heartbeat now p db).1 session.userId session.nodeId := by
  obtain ⟨huser, hnode, hip⟩ := same
  rw [authorize_ok_iff fresh]
  set after := (heartbeat now p db).1 with hafter
  have counted : session.sourceIp ∈ (finishStaleSessions cfg now after).openIps session.userId := by
    rcases heartbeat_cases (Prod.mk.eta (p := heartbeat now p db)).symm with
      ⟨missing, -⟩ | ⟨s, user, verdict, sid, -, charges, -⟩
    · simp [missing] at opened
    · have here := charges.opened sid
      obtain rfl : s = session := Option.some.inj (here.symm.trans opened)
      -- the heartbeat has just written the row's `last_seen_at`
      have row : s.heard p.uplinkDelta p.downlinkDelta now verdict ∈ after.sessions.rows := by
        rw [charges.sessions, Table.mem_update]
        exact ⟨s, Table.find?_mem charges.found, by simp⟩
      have recent : now - seconds cfg.sessionStaleSeconds ≤
          (s.heard p.uplinkDelta p.downlinkDelta now verdict).lastSeenAt := by
        rw [ConnectionSession.heard_lastSeenAt, seconds]
        have : (0 : ℤ) ≤ cfg.sessionStaleSeconds * 1000000 := by positivity
        linarith
      simpa using mem_openIps_sweep row (by simpa using charges.wasOpen) recent
  rw [← huser, ← hip] at counted
  have allowed' : (finishStaleSessions cfg now after).allows request.userId now := huser ▸ allowed
  rw [admitted_iff_route allowed' counted, huser, hnode]
  exact Iff.rfl

/-- **What a heartbeat re-checks.** In every state, a heartbeat on an open session that is
answered with `terminate = false` leaves a state in which a fresh authorize for the same user, node
and address is admitted exactly when the node is still enabled and the user still has an
enabled key on it. And once the user is denied (disabled, expired or over quota), every later
heartbeat on an open session of it that is answered has `terminate = true`, until an administrator
updates the user, resets its usage or creates it. -/
theorem heartbeat_rechecks_account (cfg : Settings) (s : Plane) :
    (∀ (p : GatewayHeartbeat) (session : ConnectionSession) (db' : Database) (reply : HeartbeatReply),
      s.db.openSession p.sessionId = some session →
      storeHeartbeat s.now p s.db = (db', .ok reply) → reply.terminate = false →
        ∀ request newId, SameRoute session request → db'.sessions.find? newId = none →
          ((∃ admitted, (authorize cfg s.now newId request db').2 = .ok admitted) ↔
            RouteStands db' session.userId session.nodeId)) ∧
    ∀ (uid : Id) (es : List Event) (s' : Plane), ¬ s.db.allows uid s.now →
      (plane cfg).run s es = some s' → (∀ e ∈ es, ¬ Readmits uid e) →
      ∀ (p : GatewayHeartbeat) (session : ConnectionSession) (db' : Database) (reply : HeartbeatReply),
        s'.db.openSession p.sessionId = some session → session.userId = uid →
        storeHeartbeat s'.now p s'.db = (db', .ok reply) → reply.terminate = true := by
  constructor
  · intro p session db' reply opened beat goes_on request newId same fresh
    obtain ⟨reply', answered, terminate⟩ := heartbeat_reply opened
    have whole := storeHeartbeat_ok beat
    obtain ⟨rfl, said⟩ := Prod.ext_iff.1 whole
    obtain rfl : reply' = reply := Except.ok.inj (answered.symm.trans said)
    exact fresh_authorize_iff opened same (terminate.1 goes_on) fresh
  · intro uid es s' denied run other p session db' reply opened mine beat
    obtain ⟨reply', answered, terminate⟩ := heartbeat_reply opened
    have whole := storeHeartbeat_ok beat
    obtain rfl : reply' = reply := Except.ok.inj (answered.symm.trans (congrArg Prod.snd whole))
    by_contra goes_on
    have allowed := terminate.1 (by simpa using goes_on)
    -- the heartbeat is one more event that ends no denial
    have after : (plane cfg).step s' (.heartbeat p) =
        some ⟨(heartbeat s'.now p s'.db).1, s'.now + 0, [] ++ s'.issued⟩ :=
      plane_step.2 ⟨by simp [Event.draws], rfl⟩
    have before : s'.db.allows uid s'.now :=
      denial_step after (fun h => h) (by simpa [mine] using allowed)
    exact denial_run run other denied before

/-- The first connection, and its node disabled afterwards. -/
def nodeDisabled : List Event := firstConnection ++ [.admin "admin" (.disableNode "node")]

/-- The connection of the first session, asked for again. -/
def again : GatewayAuthorize := { userId := "user", nodeId := "node", sourceIp := "203.0.113.10" }

/-- The next heartbeat of the first session. -/
def nextBeat : GatewayHeartbeat := { sessionId := "session" }

/-- The first session, as its connection asked for it. -/
theorem first_session {s : Plane} (row : (s.db.openSession "session").map
      (fun x => (x.userId, x.nodeId, x.sourceIp)) = some ("user", "node", "203.0.113.10")) :
    ∃ session, s.db.openSession "session" = some session ∧ session.userId = "user" ∧
      session.nodeId = "node" ∧ SameRoute session again := by
  obtain ⟨session, opened, same⟩ := Option.map_eq_some_iff.1 row
  obtain ⟨huser, hnode, hip⟩ : session.userId = "user" ∧ session.nodeId = "node" ∧
      session.sourceIp = "203.0.113.10" := by simpa using same
  exact ⟨session, opened, huser, hnode, huser.symm, hnode.symm, hip.symm⟩

/-- Both halves on a run: with the node disabled the session goes on and its route is refused;
a quota used up by a heartbeat ends the next one. -/
theorem heartbeat_rechecks_account_first_connection :
    (∃ s db' reply, (plane {}).run (.initial 0) nodeDisabled = some s ∧
      storeHeartbeat s.now nextBeat s.db = (db', .ok reply) ∧ reply.terminate = false ∧
      ((∃ admitted, (authorize {} s.now "again" again db').2 = .ok admitted) ↔
        RouteStands db' "user" "node")) ∧
    ∃ s s' db' reply, (plane {}).run (.initial 0)
        (firstConnection ++ [.heartbeat { sessionId := "session", uplinkDelta := 2000000000 }]) = some s ∧
      (plane {}).run s [.tick 15000000] = some s' ∧
      storeHeartbeat s'.now nextBeat s'.db = (db', .ok reply) ∧ reply.terminate = true := by
  constructor
  · obtain ⟨s, run, facts⟩ := (Option.any_eq_true _ _).1
      (by decide +kernel : ((plane {}).run (.initial 0) nodeDisabled).any fun s =>
        decide ((s.db.openSession "session").map (fun x => (x.userId, x.nodeId, x.sourceIp)) =
          some ("user", "node", "203.0.113.10")) &&
        ((storeHeartbeat s.now nextBeat s.db).1.sessions.find? "again").isNone &&
        (storeHeartbeat s.now nextBeat s.db).2.toOption.any fun reply => !reply.terminate)
    simp only [Bool.and_eq_true, Option.any_eq_true, decide_eq_true_eq, Option.isNone_iff_eq_none,
      Bool.not_eq_true'] at facts
    obtain ⟨⟨row, free⟩, reply, said, goes_on⟩ := facts
    obtain ⟨session, opened, huser, hnode, same⟩ := first_session row
    have beat : storeHeartbeat s.now nextBeat s.db = (_, .ok reply) :=
      Prod.ext rfl (toOption_eq_some.1 said)
    have decided := (heartbeat_rechecks_account {} s).1 nextBeat session _ reply opened beat goes_on again
      "again" same free
    rw [huser, hnode] at decided
    exact ⟨s, _, reply, run, beat, goes_on, decided⟩
  · obtain ⟨s, run, facts⟩ := (Option.any_eq_true _ _).1
      (by decide +kernel : ((plane {}).run (.initial 0) (firstConnection ++
        [.heartbeat { sessionId := "session", uplinkDelta := 2000000000 }])).any fun s =>
          ((s.db.users.find? "user").all fun u => !(userAllowed u s.now).1) &&
          ((plane {}).run s [.tick 15000000]).any fun s' =>
            ((s'.db.openSession "session").any fun x => x.userId = "user") &&
              (storeHeartbeat s'.now nextBeat s'.db).2.toOption.isSome)
    simp only [Bool.and_eq_true, Option.any_eq_true, decide_eq_true_eq] at facts
    obtain ⟨spent, s', tick, ⟨session, opened, mine⟩, answered⟩ := facts
    obtain ⟨reply, said⟩ := Option.isSome_iff_exists.1 answered
    have denied : ¬ s.db.allows "user" s.now := by
      rintro ⟨user, found, allowed⟩
      simp [found, allowed] at spent
    have beat : storeHeartbeat s'.now nextBeat s'.db = (_, .ok reply) :=
      Prod.ext rfl (toOption_eq_some.1 said)
    have ends := (heartbeat_rechecks_account {} s).2 "user" [.tick 15000000] s' denied tick
      (by simp [Readmits]) nextBeat session _ reply opened mine beat
    exact ⟨s, s', _, reply, run, tick, beat, ends⟩

/-- An open connection outlives its route: the heartbeat after the node was disabled does not
terminate, and the route is refused. -/
theorem disabled_node_keeps_connection :
    ¬ ∀ (cfg : Settings) (start : Instant) (es : List Event) (s : Plane),
      (plane cfg).run (.initial start) es = some s →
      ∀ (p : GatewayHeartbeat) (session : ConnectionSession),
        s.db.openSession p.sessionId = some session →
        ∀ db' reply, storeHeartbeat s.now p s.db = (db', .ok reply) → reply.terminate = false →
          ∀ request newId, SameRoute session request → db'.sessions.find? newId = none →
            ∃ admitted, (authorize cfg s.now newId request db').2 = .ok admitted := by
  intro claim
  obtain ⟨s, run, facts⟩ := (Option.any_eq_true _ _).1
    (by decide +kernel : ((plane {}).run (.initial 0) nodeDisabled).any fun s =>
      decide ((s.db.openSession "session").map (fun x => (x.userId, x.nodeId, x.sourceIp)) =
        some ("user", "node", "203.0.113.10")) &&
      ((storeHeartbeat s.now nextBeat s.db).1.sessions.find? "again").isNone &&
      ((storeHeartbeat s.now nextBeat s.db).2.toOption.any fun reply => !reply.terminate) &&
      (authorize {} s.now "again" again (storeHeartbeat s.now nextBeat s.db).1).2.toOption.isNone)
  simp only [Bool.and_eq_true, Option.any_eq_true, decide_eq_true_eq, Option.isNone_iff_eq_none,
    Bool.not_eq_true'] at facts
  obtain ⟨⟨⟨row, free⟩, reply, said, goes_on⟩, refused⟩ := facts
  obtain ⟨session, opened, -, -, same⟩ := first_session row
  have beat : storeHeartbeat s.now nextBeat s.db = (_, .ok reply) :=
    Prod.ext rfl (toOption_eq_some.1 said)
  obtain ⟨admitted, ok⟩ := claim {} 0 nodeDisabled s run nextBeat session opened _ reply beat goes_on
    again "again" same free
  simp [ok, Except.toOption] at refused

end Arena.Revocation
