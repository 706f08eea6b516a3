import Arena.Model.Frames

/-!
# Concurrent `authorize` transactions

`authorize` statement by statement, as PostgreSQL runs it at `READ COMMITTED`: each statement
reads what is committed when it runs, and the transaction's own sweep. The sweep locks the
rows it ends, `SELECT .. FOR UPDATE` locks the user's row, and both are held to the end.

Every other request stays one step, taken at its commit: `heartbeat` and `close` lock the
session and the user before they read, so nothing they read can change in between. It waits
while a transaction in flight holds a row that it locks or writes.
-/

namespace Arena.Model

open Arena.Lib

/-- The next statement of an `authorize` transaction, with what it has read so far. -/
inductive Statement where
  /-- The `UPDATE` of `_finish_stale_sessions`. -/
  | sweep
  /-- The rows that the `UPDATE` found, still to be locked and checked again. -/
  | sweepRows (todo : List Id)
  | lockUser
  | readNode
  | readKey (node : Option Node)
  | readSessions (user : User) (node : Node)
  /-- The writes and the commit; `seen` are the open addresses it has read. -/
  | write (verdict : Verdict) (seen : Finset String)

structure Transaction where
  newId : Id
  request : GatewayAuthorize
  now : Instant
  /-- The sessions it has ended, whose rows it holds. -/
  swept : List Id := []
  /-- The user's row, which it holds. -/
  user : Option User := none
  next : Statement := .sweep

namespace Transaction

/-- The database as the transaction sees it before its last writes. -/
def view (t : Transaction) (db : Database) : Database :=
  db.updateSessions (fun s => decide (s.id ∈ t.swept)) (ConnectionSession.finish t.now)
    (fun _ => ConnectionSession.finish_id) (fun _ => ConnectionSession.finish_userId)
    (fun _ => ConnectionSession.finish_nodeId)

/-- The transaction holds this user's row. -/
def holds (t : Transaction) (uid : Id) : Bool := t.user.isSome && decide (t.request.userId = uid)

/-- The checks of `authorize` before it reads the sessions. -/
def route (t : Transaction) (node : Option Node) (key : Option AccessKey) : Statement :=
  match t.user, node, key with
  | some user, some node, some _ =>
    if !node.enabled then .write .routeNotFound ∅
    else if !(userAllowed user t.now).1 then .write (.notAllowed (userAllowed user t.now).2) ∅
    else .readSessions user node
  | _, _, _ => .write .routeNotFound ∅

/-- The address limit. -/
def limit (t : Transaction) (user : User) (node : Node) (seen : Finset String) : Verdict :=
  if t.request.sourceIp ∉ seen ∧ user.maxIps ≤ seen.card then .ipLimit seen.card
  else .admitted user node

/-- What the transaction commits. -/
def commit (t : Transaction) (db : Database) : Verdict → Database
  | .routeNotFound => (t.view db).addAudit (deniedEvent t.request.userId
      [("reason", .str "route_not_found"), ("ip", .str t.request.sourceIp)])
  | .notAllowed reason => (t.view db).addAudit (deniedEvent t.request.userId
      [("reason", .str reason.text), ("ip", .str t.request.sourceIp)])
  | .ipLimit active => (t.view db).addAudit (deniedEvent t.request.userId
      [("reason", .str "ip_limit"), ("ip", .str t.request.sourceIp), ("active_ips", .num active)])
  | .admitted .. => (admission t.newId t.now t.request (t.view db)).getD db

/-- The next statement, run beside the `others` in flight: the committed database after it and
the transaction, unless it has ended. `none` means that the statement waits for a row. -/
def advance (cfg : Settings) (others : List Transaction) (db : Database) (t : Transaction) :
    Option (Database × Option Transaction) :=
  match t.next with
  | .sweep =>
    some (db, some { t with
      next := .sweepRows ((db.sessions.rows.filter (·.isStale cfg t.now)).map ConnectionSession.id) })
  | .sweepRows [] => some (db, some { t with next := .lockUser })
  | .sweepRows (i :: todo) =>
    if others.any (i ∈ ·.swept) then none
    else if (db.sessions.find? i).any (·.isStale cfg t.now) then
      some (db, some { t with swept := i :: t.swept, next := .sweepRows todo })
    else some (db, some { t with next := .sweepRows todo })
  | .lockUser =>
    if others.any (·.holds t.request.userId) then none
    else some (db, some { t with user := db.users.find? t.request.userId, next := .readNode })
  | .readNode => some (db, some { t with next := .readKey (db.nodes.find? t.request.nodeId) })
  | .readKey node =>
    some (db, some { t with
      next := t.route node (db.enabledKey t.request.userId t.request.nodeId) })
  | .readSessions user node =>
    let seen := (t.view db).openIps user.id
    some (db, some { t with next := .write (t.limit user node seen) seen })
  | .write verdict _ => some (t.commit db verdict, none)

end Transaction

/-- The session rows that a request locks or writes. -/
def Event.sessionRows (db : Database) : Event → List Id
  | .heartbeat p => [p.sessionId]
  | .close p => [p.sessionId]
  | .admin _ (.deleteUser userId) =>
    (db.sessions.rows.filter (·.userId = userId)).map ConnectionSession.id
  | _ => []

/-- The user rows that a request locks or writes. The share lock that the foreign key of a new
access key takes is left out; it could only delay. -/
def Event.userRows (db : Database) : Event → List Id
  | .heartbeat p => ((db.openSession p.sessionId).map ConnectionSession.userId).toList
  | .close p => ((db.openSession p.sessionId).map ConnectionSession.userId).toList
  | .admin _ (.updateUser userId _) => [userId]
  | .admin _ (.resetUsage userId) => [userId]
  | .admin _ (.rotateSubscription userId) => [userId]
  | .admin _ (.deleteUser userId) => [userId]
  | _ => []

/-- The control plane with the `authorize` transactions in flight. -/
structure Store where
  plane : Plane
  transactions : List Transaction

namespace Store

def initial (now : Instant) : Store := ⟨.initial now, []⟩

inductive Label where
  /-- A request other than `authorize`, a start of the panel, or the passing of time. -/
  | other (e : Event)
  /-- A request to `authorize` arrives and reads the clock. -/
  | begins (newId : Id) (p : GatewayAuthorize)
  /-- The transaction runs its next statement. -/
  | advance (newId : Id)
  /-- The transaction is rolled back. -/
  | abort (newId : Id)

/-- The transactions beside this one. -/
def others (s : Store) (newId : Id) : List Transaction :=
  s.transactions.filter (·.newId ≠ newId)

/-- A transaction in flight holds a row that the request needs. -/
def blocks (s : Store) (e : Event) : Bool :=
  s.transactions.any fun t =>
    (e.sessionRows s.plane.db).any (· ∈ t.swept) || (e.userRows s.plane.db).any t.holds

def step (cfg : Settings) (s : Store) : Label → Option Store
  | .other (.authorize ..) => none
  | .other e =>
    if s.blocks e then none else ((Model.plane cfg).step s.plane e).map fun p => { s with plane := p }
  | .begins newId p =>
    if newId ∈ s.plane.issued then none
    else some
      { plane := { s.plane with issued := newId :: s.plane.issued }
        transactions := { newId := newId, request := p, now := s.plane.now } :: s.transactions }
  | .advance newId =>
    (s.transactions.find? (·.newId = newId)).bind fun t =>
      (t.advance cfg (s.others newId) s.plane.db).map fun (db, rest) =>
        { plane := { s.plane with db := db }, transactions := rest.toList ++ s.others newId }
  | .abort newId => some { s with transactions := s.others newId }

end Store

/-- The control plane as a machine of statements. -/
def store (cfg : Settings) : Machine Store Store.Label := ⟨Store.step cfg⟩

end Arena.Model
