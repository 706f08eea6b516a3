import Arena.Model.Plane

/-!
# Requests on one row, statement by statement

The handlers run beside each other at `READ COMMITTED`. `heartbeat` and `close` lock the session
and then the user with `SELECT .. FOR UPDATE` before they read them, and hold both to the
commit. `update_user`, `reset_usage` and `rotate_subscription` read the user without a lock;
the `UPDATE` at their commit writes the columns whose value differs from the one they read, over
whatever the row has then. A transaction waits for a row that another one holds.

Any other request is one step, taken at its commit.
-/

namespace Arena.Model

open Arena.Lib

deriving instance DecidableEq for User
deriving instance DecidableEq for ConnectionSession

/-! ## What the ORM writes -/

/-- A column of an `UPDATE`: written when the value assigned differs from the one loaded. -/
def written {α : Type} [DecidableEq α] (loaded assigned current : α) : α :=
  if assigned = loaded then current else assigned

/-- The row after the `UPDATE` of a user. -/
def User.flush (loaded assigned current : User) : User :=
  { current with
    name := written loaded.name assigned.name current.name
    note := written loaded.note assigned.note current.note
    active := written loaded.active assigned.active current.active
    quotaBytes := written loaded.quotaBytes assigned.quotaBytes current.quotaBytes
    usedUpBytes := written loaded.usedUpBytes assigned.usedUpBytes current.usedUpBytes
    usedDownBytes := written loaded.usedDownBytes assigned.usedDownBytes current.usedDownBytes
    validityDays := written loaded.validityDays assigned.validityDays current.validityDays
    startsAt := written loaded.startsAt assigned.startsAt current.startsAt
    expiresAt := written loaded.expiresAt assigned.expiresAt current.expiresAt
    maxIps := written loaded.maxIps assigned.maxIps current.maxIps
    speedLimitBps := written loaded.speedLimitBps assigned.speedLimitBps current.speedLimitBps
    subscriptionVersion :=
      written loaded.subscriptionVersion assigned.subscriptionVersion current.subscriptionVersion }

/-- The row after the `UPDATE` of a session, over the columns that handlers assign. -/
def ConnectionSession.flush (loaded assigned current : ConnectionSession) : ConnectionSession :=
  { current with
    status := written loaded.status assigned.status current.status
    closeReason := written loaded.closeReason assigned.closeReason current.closeReason
    uplinkBytes := written loaded.uplinkBytes assigned.uplinkBytes current.uplinkBytes
    downlinkBytes := written loaded.downlinkBytes assigned.downlinkBytes current.downlinkBytes
    lastSeenAt := written loaded.lastSeenAt assigned.lastSeenAt current.lastSeenAt
    endedAt := written loaded.endedAt assigned.endedAt current.endedAt }

@[simp] theorem User.flush_id {loaded assigned current : User} :
    (User.flush loaded assigned current).id = current.id := rfl

def Database.flushUser (db : Database) (loaded assigned : User) : Database :=
  db.updateUsers (·.id = loaded.id) (User.flush loaded assigned) fun _ => rfl

def Database.flushSession (db : Database) (loaded assigned : ConnectionSession) : Database :=
  db.updateSessions (·.id = loaded.id) (ConnectionSession.flush loaded assigned) (fun _ => rfl)
    (fun _ => rfl) fun _ => rfl

/-! ## Requests in flight -/

/-- The requests that charge a session. -/
inductive Charge where
  | heartbeat (p : GatewayHeartbeat)
  | close (p : GatewayClose)

def Charge.event : Charge → Event
  | .heartbeat p => .heartbeat p
  | .close p => .close p

def Charge.sessionId : Charge → Id
  | .heartbeat p => p.sessionId
  | .close p => p.sessionId

/-- The next statement of a request that charges a session, with the rows it holds. -/
inductive ChargeStatement where
  | lockSession
  | lockUser (session : ConnectionSession)
  | write (session : ConnectionSession) (user : Option User)

/-- The writes and the commit, from the rows that were read. -/
def Charge.commit (now : Instant) (session : ConnectionSession) (user : Option User) (db : Database) :
    Charge → Database
  | .heartbeat p => match user with
    | none => db
    | some user =>
      let charged := user.addTraffic p.uplinkDelta p.downlinkDelta
      let verdict := userAllowed charged now
      let recorded := session.addTraffic p.uplinkDelta p.downlinkDelta now
      (db.flushUser user charged).flushSession session
        (if verdict.1 then recorded else recorded.block verdict.2)
  | .close p =>
    let recorded := match user with
      | none => session
      | some _ => session.addTraffic p.uplinkDelta p.downlinkDelta now
    let charged := match user with
      | none => db
      | some user => db.flushUser user (user.addTraffic p.uplinkDelta p.downlinkDelta)
    (charged.flushSession session (recorded.closeAt now p.reason)).addAudit
      (disconnectedEvent recorded p.reason)

/-- The handlers that read a user without a lock and assign some of its columns. -/
inductive UserEdit where
  | update (p : UserUpdate)
  | resetUsage
  | rotateSubscription

def UserEdit.assign (loaded : User) : UserEdit → Except HttpError User
  | .update p => patchUser p loaded
  | .resetUsage => .ok loaded.resetUsage
  | .rotateSubscription => .ok loaded.rotate

/-- The request as one step. -/
def UserEdit.on (userId : Id) : UserEdit → AdminOp
  | .update p => .updateUser userId p
  | .resetUsage => .resetUsage userId
  | .rotateSubscription => .rotateSubscription userId

def UserEdit.audit (admin : String) (userId : Id) : UserEdit → AuditEvent
  | .update p => userEvent admin "user.updated" userId [("fields", .arr p.fields)]
  | .resetUsage => userEvent admin "user.usage_reset" userId []
  | .rotateSubscription => userEvent admin "user.subscription_rotated" userId []

inductive Task where
  | charge (c : Charge) (next : ChargeStatement)
  | edit (admin : String) (op : UserEdit) (loaded : User)

/-- A request in flight. -/
structure Work where
  request : ℕ
  task : Task

/-- The request as one step. -/
def Work.event (w : Work) : Event :=
  match w.task with
  | .charge c _ => c.event
  | .edit admin op loaded => .admin admin (op.on loaded.id)

/-- The session row that the request holds. -/
def Work.session (w : Work) : Option Id :=
  match w.task with
  | .charge _ (.lockUser session) => some session.id
  | .charge _ (.write session _) => some session.id
  | _ => none

/-- The user row that the request holds. -/
def Work.user (w : Work) : Option Id :=
  match w.task with
  | .charge _ (.write _ user) => user.map User.id
  | _ => none

/-- A response that shows the user as the request has it in memory. -/
structure EditReply where
  op : UserEdit
  user : User

structure Threads where
  plane : Plane
  work : Table Work.request
  replies : List EditReply

namespace Threads

/-- Nothing in flight. -/
def initial (plane : Plane) : Threads := ⟨plane, ⟨[], by simp⟩, []⟩

inductive Label where
  /-- A request of another kind, start-up, or the passing of time. -/
  | other (e : Event)
  /-- A request that charges a session arrives. -/
  | charge (request : ℕ) (c : Charge)
  /-- A request that edits a user arrives and reads it. -/
  | edit (request : ℕ) (admin : String) (userId : Id) (op : UserEdit)
  /-- A request in flight runs its next statement. -/
  | advance (request : ℕ)

/-- The requests that this machine runs statement by statement. -/
def splits : Event → Bool
  | .heartbeat _ | .close _ => true
  | .admin _ (.updateUser ..) | .admin _ (.resetUsage _) | .admin _ (.rotateSubscription _) => true
  | _ => false

/-- Another request holds this session row. -/
def sessionHeld (s : Threads) (request : ℕ) (id : Id) : Bool :=
  s.work.rows.any fun w => w.request ≠ request && w.session = some id

/-- Another request holds this user row. -/
def userHeld (s : Threads) (request : ℕ) (id : Id) : Bool :=
  s.work.rows.any fun w => w.request ≠ request && w.user = some id

/-- The database leaves the rows that are held as they are. -/
def spares (s : Threads) (db : Database) : Bool :=
  s.work.rows.all fun w =>
    w.session.all (fun i => db.sessions.find? i = s.plane.db.sessions.find? i) &&
      w.user.all fun i => db.users.find? i = s.plane.db.users.find? i

/-- The request goes on with another statement. -/
def goOn (s : Threads) (request : ℕ) (task : Task) : Threads :=
  { s with
    work := s.work.update (·.request = request) (fun w => { w with task := task }) fun _ => rfl }

/-- The request ends with this database. -/
def finish (s : Threads) (request : ℕ) (db : Database) : Threads :=
  { s with plane := { s.plane with db := db }, work := s.work.delete (·.request = request) }

/-- A statement of a request that charges a session. One on a session that is missing or has
ended ends the request without a write. -/
def advanceCharge (s : Threads) (request : ℕ) (c : Charge) : ChargeStatement → Option Threads
  | .lockSession =>
    if s.sessionHeld request c.sessionId then none
    else match s.plane.db.openSession c.sessionId with
      | none => some (s.finish request s.plane.db)
      | some session => some (s.goOn request (.charge c (.lockUser session)))
  | .lockUser session =>
    if s.userHeld request session.userId then none
    else match s.plane.db.users.find? session.userId, c with
      | none, .heartbeat _ => some (s.finish request s.plane.db)
      | user, c => some (s.goOn request (.charge c (.write session user)))
  | .write session user => some (s.finish request (c.commit s.plane.now session user s.plane.db))

/-- The commit of an edit. It writes nothing when no column differs; a `NULL` that a column
refuses and an `UPDATE` of a row that is gone end the request with nothing committed. -/
def commitEdit (s : Threads) (request : ℕ) (admin : String) (op : UserEdit) (loaded : User) :
    Option Threads :=
  match op.assign loaded with
  | .error _ => some (s.finish request s.plane.db)
  | .ok assigned =>
    let reply := ⟨op, assigned⟩
    if assigned = loaded then
      some { s.finish request (s.plane.db.addAudit (op.audit admin loaded.id)) with
        replies := reply :: s.replies }
    else if s.userHeld request loaded.id then none
    else match s.plane.db.users.find? loaded.id with
      | none => some (s.finish request s.plane.db)
      | some _ =>
        some { s.finish request ((s.plane.db.flushUser loaded assigned).addAudit
            (op.audit admin loaded.id)) with replies := reply :: s.replies }

def step (cfg : Settings) (s : Threads) : Label → Option Threads
  | .other e =>
    if splits e then none
    else ((Model.plane cfg).step s.plane e).bind fun p =>
      if s.spares p.db then some { s with plane := p } else none
  | .charge request c =>
    (s.work.insert? ⟨request, .charge c .lockSession⟩).map fun work => { s with work := work }
  | .edit request admin userId op => match s.plane.db.users.find? userId with
    | none => some s
    | some user =>
      (s.work.insert? ⟨request, .edit admin op user⟩).map fun work => { s with work := work }
  | .advance request => (s.work.find? request).bind fun w => match w.task with
    | .charge c next => s.advanceCharge request c next
    | .edit admin op loaded => s.commitEdit request admin op loaded

end Threads

/-- The control plane as a machine of statements on sessions and users. -/
def threads (cfg : Settings) : Machine Threads Threads.Label := ⟨Threads.step cfg⟩

end Arena.Model
