import Arena.Model.Gateway

/-!
# What a gateway transaction does

One statement per handler of `Arena.Model.Gateway` with everything it can do to the
tables; later proofs use these and never unfold a handler. The foreign keys make the
`user_not_found` branches unreachable.
-/

namespace Arena.Model

open Arena.Lib

variable {cfg : Settings} {now : Instant} {newId : Id} {db db' : Database}

namespace ConnectionSession

variable {up down : ℕ} {reason : Reason} {why : String} {s : ConnectionSession}

/-- What a recorded heartbeat does to its session row. -/
def heard (up down : ℕ) (now : Instant) (verdict : Bool × Reason) (s : ConnectionSession) :
    ConnectionSession :=
  if verdict.1 then s.addTraffic up down now else (s.addTraffic up down now).block verdict.2

/-- What a recorded close does to its session row. -/
def closed (up down : ℕ) (now : Instant) (why : String) (s : ConnectionSession) :
    ConnectionSession :=
  (s.addTraffic up down now).closeAt now why

variable {verdict : Bool × Reason}

@[simp] theorem heard_id : (s.heard up down now verdict).id = s.id := by unfold heard; split <;> rfl
@[simp] theorem heard_userId : (s.heard up down now verdict).userId = s.userId := by
  unfold heard; split <;> rfl
@[simp] theorem heard_nodeId : (s.heard up down now verdict).nodeId = s.nodeId := by
  unfold heard; split <;> rfl
@[simp] theorem heard_sourceIp : (s.heard up down now verdict).sourceIp = s.sourceIp := by
  unfold heard; split <;> rfl
@[simp] theorem heard_isOpen : (s.heard up down now verdict).isOpen = s.isOpen := by
  unfold heard; split <;> rfl
@[simp] theorem heard_lastSeenAt : (s.heard up down now verdict).lastSeenAt = now := by
  unfold heard; split <;> rfl
@[simp] theorem heard_uplinkBytes :
    (s.heard up down now verdict).uplinkBytes = s.uplinkBytes + up := by unfold heard; split <;> rfl
@[simp] theorem heard_downlinkBytes :
    (s.heard up down now verdict).downlinkBytes = s.downlinkBytes + down := by
  unfold heard; split <;> rfl

@[simp] theorem closed_id : (s.closed up down now why).id = s.id := rfl
@[simp] theorem closed_userId : (s.closed up down now why).userId = s.userId := rfl
@[simp] theorem closed_isOpen : (s.closed up down now why).isOpen = false := rfl
@[simp] theorem closed_uplinkBytes :
    (s.closed up down now why).uplinkBytes = s.uplinkBytes + up := rfl
@[simp] theorem closed_downlinkBytes :
    (s.closed up down now why).downlinkBytes = s.downlinkBytes + down := rfl

end ConnectionSession

/-! ## The sweep -/

@[simp] theorem finishStaleSessions_users : (finishStaleSessions cfg now db).users = db.users := rfl
@[simp] theorem finishStaleSessions_nodes : (finishStaleSessions cfg now db).nodes = db.nodes := rfl
@[simp] theorem finishStaleSessions_accessKeys :
    (finishStaleSessions cfg now db).accessKeys = db.accessKeys := rfl

theorem finishStaleSessions_sessions :
    (finishStaleSessions cfg now db).sessions = db.sessions.update (ConnectionSession.isStale cfg now)
      (ConnectionSession.finish now) (fun _ => ConnectionSession.finish_id) := rfl

theorem finishStaleSessions_find? (i : Id) :
    (finishStaleSessions cfg now db).sessions.find? i = (db.sessions.find? i).map fun s =>
      if s.isStale cfg now then s.finish now else s := by
  rw [finishStaleSessions_sessions, Table.find?_update]

theorem mem_openIps {user : Id} {ip : String} :
    ip ∈ db.openIps user ↔
      ∃ s ∈ db.sessions.rows, s.userId = user ∧ s.isOpen ∧ s.sourceIp = ip := by
  simp [Database.openIps, Database.openSessions, and_assoc]

/-- An open session heard of recently enough still counts after the sweep. -/
theorem mem_openIps_sweep {s : ConnectionSession} (h : s ∈ db.sessions.rows) (isOpen : s.isOpen)
    (recent : now - seconds cfg.sessionStaleSeconds ≤ s.lastSeenAt) :
    s.sourceIp ∈ (finishStaleSessions cfg now db).openIps s.userId := by
  have kept : ¬ s.isStale cfg now := by
    simp only [ConnectionSession.isStale, isOpen, Bool.true_and, decide_eq_true_eq]
    exact not_lt.2 recent
  have still : s ∈ (finishStaleSessions cfg now db).sessions.rows := by
    rw [finishStaleSessions_sessions, Table.mem_update]
    exact ⟨s, h, if_neg kept⟩
  exact mem_openIps.2 ⟨s, still, rfl, isOpen, rfl⟩

/-! ## Authorize -/

/-- The writes of an admitted request. -/
theorem admission_eq_some {p : GatewayAuthorize} (h : admission newId now p db = some db') :
    db'.users = db.users.update (·.id = p.userId) (User.start now) (fun _ => User.start_id) ∧
      db.sessions.insert? (newSession newId now p) = some db'.sessions ∧
      db'.nodes = db.nodes ∧ db'.accessKeys = db.accessKeys := by
  obtain ⟨mid, inserted, rfl⟩ := Option.map_eq_some_iff.1 h
  obtain ⟨sessions, users, nodes, keys, -⟩ := Database.insertSession?_eq_some inserted
  exact ⟨users, sessions, nodes, keys⟩

/-- **Everything `authorize` can do**: a refusal commits the sweep and one audit row, a
refused insert commits nothing, an admission starts the user and inserts one session. -/
theorem authorize_cases {p : GatewayAuthorize} {reply : Except HttpError AuthorizeReply}
    (h : authorize cfg now newId p db = (db', reply)) :
    (∃ event err, db' = (finishStaleSessions cfg now db).addAudit event ∧ reply = .error err ∧
        ∀ user node, decideRoute now p (finishStaleSessions cfg now db) ≠ .admitted user node) ∨
      (db' = db ∧ reply = .error internalError) ∨
      ∃ user node, decideRoute now p (finishStaleSessions cfg now db) = .admitted user node ∧
        admission newId now p (finishStaleSessions cfg now db) = some db' ∧
        reply = .ok (authorizeReply cfg newId user node) := by
  simp only [authorize] at h
  split at h
  case h_1 verdict => cases h; exact .inl ⟨_, _, rfl, rfl, by simp [verdict]⟩
  case h_2 reason verdict => cases h; exact .inl ⟨_, _, rfl, rfl, by simp [verdict]⟩
  case h_3 active verdict => cases h; exact .inl ⟨_, _, rfl, rfl, by simp [verdict]⟩
  case h_4 user node verdict =>
    split at h
    case h_1 => cases h; exact .inr (.inl ⟨rfl, rfl⟩)
    case h_2 committed => cases h; exact .inr (.inr ⟨user, node, verdict, committed, rfl⟩)

/-- What the checks of `authorize` let through. -/
theorem decideRoute_admitted_iff {p : GatewayAuthorize} {user : User} {node : Node} :
    decideRoute now p db = .admitted user node ↔
      db.users.find? p.userId = some user ∧ db.nodes.find? p.nodeId = some node ∧
        (db.enabledKey p.userId p.nodeId).isSome ∧ node.enabled ∧ (userAllowed user now).1 ∧
        (p.sourceIp ∈ db.openIps p.userId ∨ (db.openIps p.userId).card < user.maxIps) := by
  have same : ∀ u, db.users.find? p.userId = some u → u.id = p.userId := fun u => Table.find?_key
  unfold decideRoute
  split
  case h_2 missing =>
    simp only [reduceCtorEq, false_iff, not_and]
    intro hu hn hk
    obtain ⟨k, hk⟩ := Option.isSome_iff_exists.1 hk
    exact absurd hk (missing user node k hu hn)
  case h_1 u n k hu hn hk =>
    simp only [hu, hn, hk, Option.some.injEq, Option.isSome_some, true_and]
    rw [same u hu]
    constructor
    · intro h
      split at h
      · cases h
      · split at h
        · cases h
        · split at h
          · cases h
          · cases h
            refine ⟨rfl, rfl, by simp_all, by simp_all, ?_⟩
            by_contra no
            push Not at no
            exact absurd no (by assumption)
    · rintro ⟨rfl, rfl, enabled, allowed, room⟩
      have full : ¬ (p.sourceIp ∉ db.openIps p.userId ∧ u.maxIps ≤ (db.openIps p.userId).card) := by
        rintro ⟨absent, full⟩
        rcases room with present | room
        · exact absent present
        · omega
      simp [enabled, allowed, full]

/-- With an identifier that no session has, the reply is a success exactly when the checks
let the request through: the foreign keys then hold. -/
theorem authorize_ok_iff {p : GatewayAuthorize} (fresh : db.sessions.find? newId = none) :
    (∃ reply, (authorize cfg now newId p db).2 = .ok reply) ↔
      ∃ user node, decideRoute now p (finishStaleSessions cfg now db) = .admitted user node := by
  constructor
  · rintro ⟨reply, ok⟩
    rcases authorize_cases (Prod.mk.eta (p := authorize cfg now newId p db)).symm with
      ⟨-, err, -, refused, -⟩ | ⟨-, refused⟩ | ⟨user, node, verdict, -⟩
    · rw [refused] at ok; cases ok
    · rw [refused] at ok; cases ok
    · exact ⟨user, node, verdict⟩
  · rintro ⟨user, node, verdict⟩
    obtain ⟨hu, hn, -⟩ := decideRoute_admitted_iff.1 verdict
    rw [finishStaleSessions_users] at hu
    rw [finishStaleSessions_nodes] at hn
    have inserted : (((finishStaleSessions cfg now db).updateUsers (·.id = p.userId) (User.start now)
        fun _ => User.start_id).insertSession? (newSession newId now p)).isSome := by
      apply Database.insertSession?_isSome
      · simp [newSession, finishStaleSessions_find?, fresh]
      · simp [newSession, hu]
      · simp [newSession, hn]
    have committed : (admission newId now p (finishStaleSessions cfg now db)).isSome := by
      simpa [admission] using inserted
    obtain ⟨db', written⟩ := Option.isSome_iff_exists.1 committed
    exact ⟨authorizeReply cfg newId user node, by simp only [authorize, verdict, written]⟩

/-! ## Heartbeat and close -/

theorem openSession_eq_some_iff {i : Id} {s : ConnectionSession} :
    db.openSession i = some s ↔ db.sessions.find? i = some s ∧ s.isOpen := by
  simp [Database.openSession, Option.filter_eq_some_iff]

/-- The foreign key: a session's user exists. -/
theorem session_user {i : Id} {s : ConnectionSession} (h : db.sessions.find? i = some s) :
    ∃ u, db.users.find? s.userId = some u :=
  Option.isSome_iff_exists.1 (db.sessionUser s (Table.find?_mem h))

/-- The changes of a request that found its session open: the same deltas on the session
and on its user, and `f` for the rest of the session row. -/
structure Charges (db db' : Database) (session : ConnectionSession) (user : User) (up down : ℕ)
    (f : ConnectionSession → ConnectionSession) : Prop where
  found : db.sessions.find? session.id = some session
  wasOpen : session.isOpen
  owner : db.users.find? session.userId = some user
  users : db'.users = db.users.update (·.id = session.userId) (User.addTraffic up down)
    fun _ => User.addTraffic_id
  keeps : ∀ s, (f s).id = s.id
  sessions : db'.sessions = db.sessions.update (·.id = session.id) f keeps
  nodes : db'.nodes = db.nodes
  accessKeys : db'.accessKeys = db.accessKeys

/-- A request that charges found its session open. -/
theorem Charges.opened {session : ConnectionSession} {user : User} {up down : ℕ}
    {f : ConnectionSession → ConnectionSession} (charges : Charges db db' session user up down f) {i : Id}
    (sid : session.id = i) : db.openSession i = some session :=
  openSession_eq_some_iff.2 ⟨sid ▸ charges.found, charges.wasOpen⟩

/-- **Everything `heartbeat` can do.** -/
theorem heartbeat_cases {p : GatewayHeartbeat} {reply : Except HttpError HeartbeatReply}
    (h : heartbeat now p db = (db', reply)) :
    (db.openSession p.sessionId = none ∧ db' = db ∧ reply = .error ⟨404, "session_not_found"⟩) ∨
      ∃ session user verdict, session.id = p.sessionId ∧
        verdict = userAllowed (user.addTraffic p.uplinkDelta p.downlinkDelta) now ∧
        Charges db db' session user p.uplinkDelta p.downlinkDelta
          (ConnectionSession.heard p.uplinkDelta p.downlinkDelta now verdict) ∧
        reply = .ok ⟨!verdict.1, verdict.2, user.speedLimitBps⟩ := by
  unfold heartbeat at h
  cases opened : db.openSession p.sessionId with
  | none =>
    rw [opened] at h
    cases h
    exact .inl ⟨rfl, rfl, rfl⟩
  | some session =>
    obtain ⟨found, isOpen⟩ := openSession_eq_some_iff.1 opened
    obtain ⟨user, owner⟩ := session_user found
    have sid := Table.find?_key found
    have uid := Table.find?_key owner
    refine .inr ⟨session, user, _, sid, rfl, ?_⟩
    simp only [opened, owner] at h
    set verdict := userAllowed (user.addTraffic p.uplinkDelta p.downlinkDelta) now with hv
    by_cases allowed : verdict.1
    · rw [if_pos allowed] at h
      cases h
      refine ⟨⟨sid ▸ found, isOpen, owner, by rw [← uid]; rfl, fun _ => by simp, ?_, rfl, rfl⟩, rfl⟩
      apply Table.ext_rows
      simp [applyTraffic, Table.update, ConnectionSession.heard, allowed]
    · rw [if_neg allowed] at h
      cases h
      refine ⟨⟨sid ▸ found, isOpen, owner, by rw [← uid]; rfl, fun _ => by simp, ?_, rfl, rfl⟩, rfl⟩
      simp only [applyTraffic, Database.updateSessions_sessions, Database.updateUsers_sessions]
      refine (Table.update_update fun r h => by exact h).trans ?_
      apply Table.ext_rows
      simp [Table.update, ConnectionSession.heard, allowed]

/-- **Everything `close` can do.** -/
theorem close_cases (now : Instant) (p : GatewayClose) (db : Database) :
    (db.openSession p.sessionId = none ∧ close now p db = db) ∨
      ∃ session user, session.id = p.sessionId ∧
        Charges db (close now p db) session user p.uplinkDelta p.downlinkDelta
          (ConnectionSession.closed p.uplinkDelta p.downlinkDelta now p.reason) := by
  unfold close
  cases found : db.sessions.find? p.sessionId with
  | none => exact .inl ⟨by simp [Database.openSession, found], rfl⟩
  | some session =>
    by_cases isOpen : session.isOpen
    · obtain ⟨user, owner⟩ := session_user found
      have sid := Table.find?_key found
      have uid := Table.find?_key owner
      refine .inr ⟨session, user, sid, ?_⟩
      simp only [isOpen, owner, Bool.not_true, Bool.false_eq_true, if_false]
      refine ⟨sid ▸ found, isOpen, owner, by rw [← uid]; rfl,
        fun _ => ConnectionSession.closed_id, ?_, rfl, rfl⟩
      simp only [applyTraffic, Database.addAudit_sessions, Database.updateSessions_sessions,
        Database.updateUsers_sessions]
      exact Table.update_update fun r h => by exact h
    · exact .inl ⟨by simp [Database.openSession, found, isOpen], by simp [isOpen]⟩

/-! ## Requests for a session that is not open -/

theorem heartbeat_ended {p : GatewayHeartbeat} (ended : db.openSession p.sessionId = none) :
    heartbeat now p db = (db, .error ⟨404, "session_not_found"⟩) := by
  simp [heartbeat, ended]

theorem close_ended {p : GatewayClose} (ended : db.openSession p.sessionId = none) :
    close now p db = db := by
  rcases close_cases now p db with ⟨-, same⟩ | ⟨session, user, sid, charges⟩
  · exact same
  · have opened := charges.opened sid
    simp [opened] at ended

end Arena.Model
