import Mathlib.Data.Finset.Card
import Mathlib.Data.Finset.Dedup
import Arena.Model.Accounts

/-!
# The control plane's gateway routes

`backend/app/routes/gateway.py`: `authorize`, `heartbeat` and `close` as functions of the
database, each one a transaction. A handler returns the database it committed (the one it
was given, when it committed nothing) and its response. The `datetime.now` calls of one
request read one instant `now`; a fresh identifier is an argument.
-/

namespace Arena.Model

structure GatewayAuthorize where
  userId : Id
  nodeId : Id
  sourceIp : String
  userAgent : String := ""
  gatewayInstance : String := ""

structure GatewayHeartbeat where
  sessionId : Id
  uplinkDelta : ℕ := 0
  downlinkDelta : ℕ := 0

structure GatewayClose extends GatewayHeartbeat where
  reason : String := "client_closed"

structure AuthorizeReply where
  sessionId : Id
  upstreamUrl : String
  speedLimitBps : ℕ
  heartbeatSeconds : ℕ

structure HeartbeatReply where
  terminate : Bool
  reason : Reason
  speedLimitBps : ℕ

/-- `ended_at IS NULL`. -/
def ConnectionSession.isOpen (s : ConnectionSession) : Bool := s.endedAt.isNone

/-- The sessions that `_finish_stale_sessions` ends. -/
def ConnectionSession.isStale (cfg : Settings) (now : Instant) (s : ConnectionSession) : Bool :=
  s.isOpen && decide (s.lastSeenAt < now - seconds cfg.sessionStaleSeconds)

/-- The values `_finish_stale_sessions` writes. -/
def ConnectionSession.finish (now : Instant) (s : ConnectionSession) : ConnectionSession :=
  { s with endedAt := some now, status := .stale, closeReason := "heartbeat_timeout" }

namespace ConnectionSession

variable {now : Instant} {s : ConnectionSession}

@[simp] theorem finish_id : (s.finish now).id = s.id := rfl
@[simp] theorem finish_userId : (s.finish now).userId = s.userId := rfl
@[simp] theorem finish_nodeId : (s.finish now).nodeId = s.nodeId := rfl
@[simp] theorem finish_sourceIp : (s.finish now).sourceIp = s.sourceIp := rfl
@[simp] theorem finish_isOpen : (s.finish now).isOpen = false := rfl
@[simp] theorem finish_uplinkBytes : (s.finish now).uplinkBytes = s.uplinkBytes := rfl
@[simp] theorem finish_downlinkBytes : (s.finish now).downlinkBytes = s.downlinkBytes := rfl

end ConnectionSession

/-- `_finish_stale_sessions`. -/
def finishStaleSessions (cfg : Settings) (now : Instant) (db : Database) : Database :=
  db.updateSessions (ConnectionSession.isStale cfg now) (ConnectionSession.finish now)
    (fun _ => ConnectionSession.finish_id) (fun _ => ConnectionSession.finish_userId)
    (fun _ => ConnectionSession.finish_nodeId)

/-- The session's part of `_apply_traffic`. -/
def ConnectionSession.addTraffic (up down : ℕ) (now : Instant) (s : ConnectionSession) :
    ConnectionSession :=
  { s with
    uplinkBytes := s.uplinkBytes + up
    downlinkBytes := s.downlinkBytes + down
    lastSeenAt := now }

/-- The user's part of `_apply_traffic`. -/
def User.addTraffic (up down : ℕ) (u : User) : User :=
  { u with usedUpBytes := u.usedUpBytes + up, usedDownBytes := u.usedDownBytes + down }

section Traffic

variable {up down : ℕ} {now : Instant} {s : ConnectionSession} {u : User}

@[simp] theorem ConnectionSession.addTraffic_id : (s.addTraffic up down now).id = s.id := rfl
@[simp] theorem ConnectionSession.addTraffic_userId :
    (s.addTraffic up down now).userId = s.userId := rfl
@[simp] theorem ConnectionSession.addTraffic_nodeId :
    (s.addTraffic up down now).nodeId = s.nodeId := rfl
@[simp] theorem ConnectionSession.addTraffic_sourceIp :
    (s.addTraffic up down now).sourceIp = s.sourceIp := rfl
@[simp] theorem ConnectionSession.addTraffic_isOpen :
    (s.addTraffic up down now).isOpen = s.isOpen := rfl
@[simp] theorem ConnectionSession.addTraffic_lastSeenAt :
    (s.addTraffic up down now).lastSeenAt = now := rfl
@[simp] theorem ConnectionSession.addTraffic_uplinkBytes :
    (s.addTraffic up down now).uplinkBytes = s.uplinkBytes + up := rfl
@[simp] theorem ConnectionSession.addTraffic_downlinkBytes :
    (s.addTraffic up down now).downlinkBytes = s.downlinkBytes + down := rfl

@[simp] theorem User.addTraffic_id : (u.addTraffic up down).id = u.id := rfl
@[simp] theorem User.addTraffic_usedUpBytes :
    (u.addTraffic up down).usedUpBytes = u.usedUpBytes + up := rfl
@[simp] theorem User.addTraffic_usedDownBytes :
    (u.addTraffic up down).usedDownBytes = u.usedDownBytes + down := rfl
@[simp] theorem User.addTraffic_maxIps : (u.addTraffic up down).maxIps = u.maxIps := rfl

end Traffic

/-- `_apply_traffic`. -/
def applyTraffic (db : Database) (user : Id) (session : Id) (up down : ℕ) (now : Instant) :
    Database :=
  (db.updateUsers (·.id = user) (User.addTraffic up down) fun _ => User.addTraffic_id).updateSessions
    (·.id = session) (ConnectionSession.addTraffic up down now)
    (fun _ => ConnectionSession.addTraffic_id) (fun _ => ConnectionSession.addTraffic_userId)
    (fun _ => ConnectionSession.addTraffic_nodeId)

/-- The enabled access key of a user on a node. -/
def Database.enabledKey (db : Database) (user node : Id) : Option AccessKey :=
  db.accessKeys.rows.find? fun k => k.userId = user && k.nodeId = node && k.enabled

/-- The user's sessions with `ended_at IS NULL`. -/
def Database.openSessions (db : Database) (user : Id) : List ConnectionSession :=
  db.sessions.rows.filter fun s => s.userId = user && s.isOpen

/-- The distinct source addresses of a user's open sessions. -/
def Database.openIps (db : Database) (user : Id) : Finset String :=
  ((db.openSessions user).map ConnectionSession.sourceIp).toFinset

/-- The first admitted connection starts the validity period. -/
def User.start (now : Instant) (u : User) : User :=
  match u.startsAt with
  | some _ => u
  | none =>
    { u with
      startsAt := some now
      expiresAt := if u.validityDays = 0 then u.expiresAt else some (now + days u.validityDays) }

section Start

variable {now : Instant} {u : User}

@[simp] theorem User.start_id : (u.start now).id = u.id := by unfold User.start; split <;> rfl
@[simp] theorem User.start_usedUpBytes : (u.start now).usedUpBytes = u.usedUpBytes := by
  unfold User.start; split <;> rfl
@[simp] theorem User.start_usedDownBytes : (u.start now).usedDownBytes = u.usedDownBytes := by
  unfold User.start; split <;> rfl
@[simp] theorem User.start_maxIps : (u.start now).maxIps = u.maxIps := by
  unfold User.start; split <;> rfl

end Start

/-- The row that `authorize` inserts; text is cut to its column. -/
def newSession (newId : Id) (now : Instant) (p : GatewayAuthorize) : ConnectionSession where
  id := newId
  userId := p.userId
  nodeId := p.nodeId
  sourceIp := p.sourceIp
  userAgent := String.ofList (p.userAgent.toList.take 512)
  gatewayInstance := String.ofList (p.gatewayInstance.toList.take 120)
  startedAt := now
  lastSeenAt := now

/-- `node.protocol == "vless"` decides the inbound's port. -/
def upstreamPort (protocol : Protocol) : ℕ := if protocol = .vless then 11000 else 11001

def authorizeReply (cfg : Settings) (newId : Id) (user : User) (node : Node) : AuthorizeReply where
  sessionId := newId
  upstreamUrl := "ws://" ++ cfg.xrayInternalHost ++ ":" ++ toString (upstreamPort node.protocol) ++
    "/internal/" ++ node.protocol.text
  speedLimitBps := user.speedLimitBps
  heartbeatSeconds := 15

/-- What `authorize` decides, before it writes anything but the sweep. -/
inductive Verdict where
  | routeNotFound
  | notAllowed (reason : Reason)
  | ipLimit (active : ℕ)
  | admitted (user : User) (node : Node)

/-- The checks of `authorize`, on the database after its sweep. -/
def decideRoute (now : Instant) (p : GatewayAuthorize) (db : Database) : Verdict :=
  match db.users.find? p.userId, db.nodes.find? p.nodeId, db.enabledKey p.userId p.nodeId with
  | some user, some node, some _ =>
    if !node.enabled then .routeNotFound
    else if !(userAllowed user now).1 then .notAllowed (userAllowed user now).2
    else if p.sourceIp ∉ db.openIps user.id ∧ user.maxIps ≤ (db.openIps user.id).card then
      .ipLimit (db.openIps user.id).card
    else .admitted user node
  | _, _, _ => .routeNotFound

def deniedEvent (user : Id) (detail : List (String × Json)) : AuditEvent where
  action := "gateway.denied"
  entityType := "user"
  entityId := user
  detail := detail

/-- The writes of an admitted `authorize` after its sweep. -/
def admission (newId : Id) (now : Instant) (p : GatewayAuthorize) (db : Database) : Option Database :=
  ((db.updateUsers (·.id = p.userId) (User.start now) fun _ => User.start_id).insertSession?
    (newSession newId now p)).map fun db => db.addAudit
      { action := "gateway.connected"
        entityType := "user"
        entityId := p.userId
        detail := [("session_id", .str newId), ("node_id", .str p.nodeId), ("ip", .str p.sourceIp)] }

/-- `POST /api/internal/gateway/authorize`. -/
def authorize (cfg : Settings) (now : Instant) (newId : Id) (p : GatewayAuthorize) (db : Database) :
    Database × Except HttpError AuthorizeReply :=
  let swept := finishStaleSessions cfg now db
  match decideRoute now p swept with
  | .routeNotFound =>
    (swept.addAudit (deniedEvent p.userId
      [("reason", .str "route_not_found"), ("ip", .str p.sourceIp)]), .error ⟨403, "route_not_found"⟩)
  | .notAllowed reason =>
    (swept.addAudit (deniedEvent p.userId [("reason", .str reason.text), ("ip", .str p.sourceIp)]),
      .error ⟨403, reason.text⟩)
  | .ipLimit active =>
    (swept.addAudit (deniedEvent p.userId
      [("reason", .str "ip_limit"), ("ip", .str p.sourceIp), ("active_ips", .num active)]),
      .error ⟨429, "ip_limit"⟩)
  | .admitted user node =>
    match admission newId now p swept with
    | none => (db, .error internalError)
    | some db' => (db', .ok (authorizeReply cfg newId user node))

/-- The session that `heartbeat` locks. -/
def Database.openSession (db : Database) (id : Id) : Option ConnectionSession :=
  (db.sessions.find? id).filter ConnectionSession.isOpen

/-- A heartbeat that orders termination marks the session. -/
def ConnectionSession.block (reason : Reason) (s : ConnectionSession) : ConnectionSession :=
  { s with status := .blocked, closeReason := reason.text }

section Block

variable {reason : Reason} {s : ConnectionSession}

@[simp] theorem ConnectionSession.block_id : (s.block reason).id = s.id := rfl
@[simp] theorem ConnectionSession.block_userId : (s.block reason).userId = s.userId := rfl
@[simp] theorem ConnectionSession.block_nodeId : (s.block reason).nodeId = s.nodeId := rfl
@[simp] theorem ConnectionSession.block_sourceIp : (s.block reason).sourceIp = s.sourceIp := rfl
@[simp] theorem ConnectionSession.block_isOpen : (s.block reason).isOpen = s.isOpen := rfl
@[simp] theorem ConnectionSession.block_lastSeenAt :
    (s.block reason).lastSeenAt = s.lastSeenAt := rfl
@[simp] theorem ConnectionSession.block_uplinkBytes :
    (s.block reason).uplinkBytes = s.uplinkBytes := rfl
@[simp] theorem ConnectionSession.block_downlinkBytes :
    (s.block reason).downlinkBytes = s.downlinkBytes := rfl

end Block

/-- `POST /api/internal/gateway/heartbeat`. The counters are idealised: a `BIGINT` column refuses
`2 ^ 63`, and the request is then a 500 that commits nothing (`storeHeartbeat`). -/
def heartbeat (now : Instant) (p : GatewayHeartbeat) (db : Database) :
    Database × Except HttpError HeartbeatReply :=
  match db.openSession p.sessionId with
  | none => (db, .error ⟨404, "session_not_found"⟩)
  | some session =>
    match db.users.find? session.userId with
    | none => (db, .error ⟨404, "user_not_found"⟩)
    | some user =>
      let charged := applyTraffic db user.id session.id p.uplinkDelta p.downlinkDelta now
      let verdict := userAllowed (user.addTraffic p.uplinkDelta p.downlinkDelta) now
      let reply := .ok ⟨!verdict.1, verdict.2, user.speedLimitBps⟩
      if verdict.1 then (charged, reply)
      else (charged.updateSessions (·.id = session.id) (ConnectionSession.block verdict.2)
        (fun _ => ConnectionSession.block_id) (fun _ => ConnectionSession.block_userId)
        (fun _ => ConnectionSession.block_nodeId), reply)

/-- The values `close` writes over the traffic. -/
def ConnectionSession.closeAt (now : Instant) (reason : String) (s : ConnectionSession) :
    ConnectionSession :=
  { s with endedAt := some now, status := .closed, closeReason := reason }

section Close

variable {now : Instant} {why : String} {s : ConnectionSession}

@[simp] theorem ConnectionSession.closeAt_id : (s.closeAt now why).id = s.id := rfl
@[simp] theorem ConnectionSession.closeAt_userId : (s.closeAt now why).userId = s.userId := rfl
@[simp] theorem ConnectionSession.closeAt_nodeId : (s.closeAt now why).nodeId = s.nodeId := rfl
@[simp] theorem ConnectionSession.closeAt_isOpen : (s.closeAt now why).isOpen = false := rfl
@[simp] theorem ConnectionSession.closeAt_uplinkBytes :
    (s.closeAt now why).uplinkBytes = s.uplinkBytes := rfl
@[simp] theorem ConnectionSession.closeAt_downlinkBytes :
    (s.closeAt now why).downlinkBytes = s.downlinkBytes := rfl

end Close

def disconnectedEvent (session : ConnectionSession) (reason : String) : AuditEvent where
  action := "gateway.disconnected"
  entityType := "user"
  entityId := session.userId
  detail := [("session_id", .str session.id), ("reason", .str reason),
    ("uplink", .num session.uplinkBytes), ("downlink", .num session.downlinkBytes)]

/-- `POST /api/internal/gateway/close`; the reply is always `{"ok": true}`. -/
def close (now : Instant) (p : GatewayClose) (db : Database) : Database :=
  match db.sessions.find? p.sessionId with
  | none => db
  | some session =>
    if !session.isOpen then db
    else
      let user := db.users.find? session.userId
      let charged := match user with
        | none => db
        | some user => applyTraffic db user.id session.id p.uplinkDelta p.downlinkDelta now
      let recorded := match user with
        | none => session
        | some _ => session.addTraffic p.uplinkDelta p.downlinkDelta now
      (charged.updateSessions (·.id = session.id) (ConnectionSession.closeAt now p.reason)
        (fun _ => ConnectionSession.closeAt_id) (fun _ => ConnectionSession.closeAt_userId)
        (fun _ => ConnectionSession.closeAt_nodeId)).addAudit (disconnectedEvent recorded p.reason)

end Arena.Model
