import Mathlib.Data.List.Sort
import Arena.Model.Gateway

/-!
# The dashboard

`dashboard` of `backend/app/routes/dashboard.py`. Among sessions that started at one instant the
query has no order; here it is the table's.
-/

namespace Arena.Model

/-- A session as the dashboard shows it. -/
structure RecentSession where
  id : Id
  userId : Id
  nodeId : Id
  sourceIp : String
  status : Status
  uplinkBytes : ℕ
  downlinkBytes : ℕ
  startedAt : Instant
  lastSeenAt : Instant

structure DashboardReply where
  usersTotal : ℕ
  usersEnabled : ℕ
  activeSessions : ℕ
  activeIps : ℕ
  trafficTotal : ℕ
  nodesEnabled : ℕ
  recentSessions : List RecentSession

def ConnectionSession.recent (s : ConnectionSession) : RecentSession where
  id := s.id
  userId := s.userId
  nodeId := s.nodeId
  sourceIp := s.sourceIp
  status := s.status
  uplinkBytes := s.uplinkBytes
  downlinkBytes := s.downlinkBytes
  startedAt := s.startedAt
  lastSeenAt := s.lastSeenAt

/-- The sessions with `ended_at IS NULL AND last_seen_at >= cutoff`. -/
def Database.activeSessions (cfg : Settings) (now : Instant) (db : Database) : List ConnectionSession :=
  db.sessions.rows.filter fun s => s.isOpen && decide (now - seconds cfg.sessionStaleSeconds ≤ s.lastSeenAt)

/-- `GET /api/dashboard`. -/
def dashboard (cfg : Settings) (now : Instant) (db : Database) : DashboardReply where
  usersTotal := db.users.rows.length
  usersEnabled := db.users.rows.countP (·.active)
  activeSessions := (db.activeSessions cfg now).length
  activeIps := ((db.activeSessions cfg now).map ConnectionSession.sourceIp).toFinset.card
  trafficTotal := (db.users.rows.map User.usedBytes).sum
  nodesEnabled := db.nodes.rows.countP (·.enabled)
  recentSessions :=
    ((db.sessions.rows.mergeSort fun a b => b.startedAt ≤ a.startedAt).take 10).map ConnectionSession.recent

end Arena.Model
