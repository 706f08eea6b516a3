import Arena.Lib.Runs
import Arena.Model.Schema

/-!
# Administrator sessions

`new_session`, `current_admin` and `require_csrf` of `backend/app/security.py` and the routes of
`backend/app/routes/auth.py`, and the machine of an installation's logins, logouts and other
requests. A session row has the hashes of two secrets, which only the response to the login
shows.
-/

namespace Arena.Model

open Arena.Lib

/-- The settings and the two one-way functions that the routes use. -/
structure AuthEnv where
  sessionHours : ℕ := 12
  /-- `token_hash`, for one `app_secret`. -/
  tokenHash : String → String
  /-- `verify_password`, of a stored hash and a password. -/
  verifyPassword : String → String → Bool

structure Admin where
  id : Id
  username : String
  passwordHash : String

structure AdminSession where
  adminId : Id
  tokenHash : String
  csrfHash : String
  expiresAt : Instant
  lastSeenAt : Instant

/-- The tables of the administrators, with their unique indexes and their foreign key. -/
structure AuthDb where
  admins : Table Admin.id
  sessions : Table AdminSession.tokenHash
  auditEvents : List AuditEvent
  usernames : (admins.rows.map Admin.username).Nodup
  owner : ∀ s ∈ sessions.rows, (admins.find? s.adminId).isSome

namespace AuthDb

/-- `UPDATE admin_sessions SET last_seen_at` of one row. -/
def touch (db : AuthDb) (hash : String) (now : Instant) : AuthDb :=
  { db with
    sessions := db.sessions.update (·.tokenHash = hash) (fun s => { s with lastSeenAt := now })
      fun _ => rfl
    owner := by
      intro s hs
      obtain ⟨s₀, h₀, rfl⟩ := Table.mem_update.1 hs
      split <;> exact db.owner s₀ h₀ }

/-- `DELETE FROM admin_sessions WHERE p`. -/
def deleteSessions (db : AuthDb) (p : AdminSession → Bool) : AuthDb :=
  { db with
    sessions := db.sessions.delete p
    owner := fun s hs => db.owner s (Table.mem_delete.1 hs).1 }

def addAudit (db : AuthDb) (event : AuditEvent) : AuthDb :=
  { db with auditEvents := db.auditEvents ++ [event] }

/-- `INSERT INTO admin_sessions`. -/
def insertSession? (db : AuthDb) (session : AdminSession) : Option AuthDb :=
  match h : db.sessions.insert? session with
  | none => none
  | some sessions =>
    if known : (db.admins.find? session.adminId).isSome then some
      { db with
        sessions := sessions
        owner := fun s hs => by
          rw [(Table.insert?_eq_some_iff.1 h).2, List.mem_append, List.mem_singleton] at hs
          rcases hs with hs | rfl
          · exact db.owner s hs
          · exact known }
    else none

theorem insertSession?_of_isSome {db : AuthDb} {session : AdminSession}
    (fits : (db.sessions.insert? session).isSome) (known : (db.admins.find? session.adminId).isSome) :
    ∃ db', db.insertSession? session = some db' ∧
      db'.sessions.rows = db.sessions.rows ++ [session] ∧ db'.admins = db.admins := by
  unfold insertSession?
  split
  · rename_i refused
    simp [refused] at fits
  · rename_i sessions inserted
    rw [dif_pos known]
    exact ⟨_, rfl, (Table.insert?_eq_some_iff.1 inserted).2, rfl⟩

theorem mem_touch {db : AuthDb} {hash : String} {now : Instant} {row : AdminSession} :
    row ∈ (db.touch hash now).sessions.rows ↔ ∃ row₀ ∈ db.sessions.rows,
      (if row₀.tokenHash = hash then { row₀ with lastSeenAt := now } else row₀) = row := by
  simp [touch, Table.update]

end AuthDb

/-! ## Requests -/

inductive Method where
  | get | head | options | post | put | patch | delete
  deriving DecidableEq

/-- `request.method in {"POST", "PUT", "PATCH", "DELETE"}`. -/
def Method.writes : Method → Bool
  | .post | .put | .patch | .delete => true
  | _ => false

/-- A request, as far as `require_csrf` reads it. -/
structure AuthRequest where
  method : Method
  /-- The cookie `arena_session`. -/
  cookie : Option String := none
  /-- The header `X-CSRF-Token`. -/
  csrf : Option String := none

/-- An optional text is not empty: Python truth of a `str | None`. -/
def given (text : Option String) : Bool := (text.getD "") ≠ ""

/-- `current_admin`; the row it found is returned with the administrator. -/
def currentAdmin (env : AuthEnv) (now : Instant) (r : AuthRequest) (db : AuthDb) :
    Except HttpError (Admin × AdminSession) :=
  if !given r.cookie then .error ⟨401, "نشست معتبر نیست"⟩
  else
    match (db.sessions.find? (env.tokenHash (r.cookie.getD ""))).filter (now < ·.expiresAt) with
    | none => .error ⟨401, "نشست منقضی شده است"⟩
    | some record => match db.admins.find? record.adminId with
      | none => .error internalError
      | some admin => .ok (admin, record)

/-- `require_csrf`. -/
def requireCsrf (env : AuthEnv) (now : Instant) (r : AuthRequest) (db : AuthDb) :
    Except HttpError (Admin × AdminSession) := do
  let (admin, record) ← currentAdmin env now r db
  if r.method.writes && (!given r.csrf || record.csrfHash ≠ env.tokenHash (r.csrf.getD "")) then
    .error ⟨403, "CSRF نامعتبر است"⟩
  else .ok (admin, record)

/-! ## Routes -/

def authEvent (actor action entityType entityId : String) : AuditEvent :=
  { actor := actor, action := action, entityType := entityType, entityId := entityId }

structure LoginReply where
  adminId : Id
  username : String
  expiresAt : Instant
  sessionCookie : String
  csrfCookie : String
  maxAge : ℕ

/-- The row that `new_session` inserts. -/
def newSessionRow (env : AuthEnv) (now : Instant) (admin : Admin) (token csrf : String) :
    AdminSession where
  adminId := admin.id
  tokenHash := env.tokenHash token
  csrfHash := env.tokenHash csrf
  expiresAt := now + seconds (env.sessionHours * 3600)
  lastSeenAt := now

/-- The administrator that a login names, when the password is right. -/
def authenticate (env : AuthEnv) (username password : String) (db : AuthDb) : Option Admin :=
  (db.admins.rows.find? (·.username = username)).filter (env.verifyPassword ·.passwordHash password)

/-- `POST /api/auth/login`, with the two tokens that `new_session` draws. -/
def login (env : AuthEnv) (now : Instant) (username password token csrf : String) (db : AuthDb) :
    AuthDb × Except HttpError LoginReply :=
  match authenticate env username password db with
  | none => (db.addAudit (authEvent username "auth.login_failed" "" ""),
      .error ⟨401, "نام کاربری یا رمز عبور نادرست است"⟩)
  | some admin =>
    let session := newSessionRow env now admin token csrf
    match db.insertSession? session with
    | none => (db, .error internalError)
    | some db => (db.addAudit (authEvent admin.username "auth.login" "admin" admin.id),
        .ok ⟨admin.id, admin.username, session.expiresAt, token, csrf, env.sessionHours * 3600⟩)

/-- `POST /api/auth/logout`. The row it deletes is the one whose `last_seen_at` is pending, which
is not written then. -/
def logout (env : AuthEnv) (now : Instant) (cookie csrf : Option String) (db : AuthDb) :
    AuthDb × Except HttpError Unit :=
  match requireCsrf env now ⟨.post, cookie, csrf⟩ db with
  | .error e => (db, .error e)
  | .ok (admin, _) =>
    let db := if given cookie then
      db.deleteSessions (·.tokenHash = env.tokenHash (cookie.getD "")) else db
    (db.addAudit (authEvent admin.username "auth.logout" "admin" admin.id), .ok ())

/-- `DELETE /api/auth/expired-sessions`, with the number of rows and the actor it returns. -/
def deleteExpiredSessions (env : AuthEnv) (now : Instant) (cookie csrf : Option String) (db : AuthDb) :
    AuthDb × Except HttpError (ℕ × String) :=
  match requireCsrf env now ⟨.delete, cookie, csrf⟩ db with
  | .error e => (db, .error e)
  | .ok (admin, record) =>
    ((db.touch record.tokenHash now).deleteSessions (·.expiresAt ≤ now),
      .ok ((db.sessions.rows.filter (·.expiresAt ≤ now)).length, admin.username))

/-- Any other route behind `require_csrf`; one that commits writes `last_seen_at`. -/
def otherRequest (env : AuthEnv) (now : Instant) (r : AuthRequest) (commits : Bool) (db : AuthDb) :
    AuthDb × Except HttpError Unit :=
  match requireCsrf env now r db with
  | .error e => (db, .error e)
  | .ok (_, record) => (if commits then db.touch record.tokenHash now else db, .ok ())

/-! ## The machine -/

structure Auth where
  db : AuthDb
  now : Instant
  /-- The tokens drawn so far. -/
  issued : List String

/-- An installation with its administrators, before the first login. -/
def Auth.initial (admins : Table Admin.id) (usernames : (admins.rows.map Admin.username).Nodup)
    (now : Instant) : Auth :=
  ⟨⟨admins, ⟨[], by simp⟩, [], usernames, by simp⟩, now, []⟩

inductive AuthEvent where
  | tick (microseconds : ℕ)
  | login (username password token csrf : String)
  | logout (cookie csrf : Option String)
  | deleteExpired (cookie csrf : Option String)
  | request (r : AuthRequest) (commits : Bool)

/-- The database an event commits. -/
def AuthEvent.commit (env : AuthEnv) (now : Instant) : AuthEvent → AuthDb → AuthDb
  | .tick _, db => db
  | .login username password token csrf, db => (Model.login env now username password token csrf db).1
  | .logout cookie csrf, db => (Model.logout env now cookie csrf db).1
  | .deleteExpired cookie csrf, db => (deleteExpiredSessions env now cookie csrf db).1
  | .request r commits, db => (otherRequest env now r commits db).1

/-- The tokens an event draws. -/
def AuthEvent.draws : AuthEvent → List String
  | .login _ _ token csrf => [token, csrf]
  | _ => []

def AuthEvent.elapsed : AuthEvent → ℕ
  | .tick microseconds => microseconds
  | _ => 0

/-- One event; the tokens it draws are new, distinct and not empty. -/
def Auth.step (env : AuthEnv) (s : Auth) (e : AuthEvent) : Option Auth :=
  if e.draws.Nodup ∧ ∀ t ∈ e.draws, t ≠ "" ∧ t ∉ s.issued then
    some ⟨e.commit env s.now s.db, s.now + e.elapsed, e.draws ++ s.issued⟩
  else none

/-- The sessions of an installation. -/
def auth (env : AuthEnv) : Machine Auth AuthEvent := ⟨Auth.step env⟩

/-- The request passes `require_csrf`. -/
def Auth.passes (env : AuthEnv) (s : Auth) (r : AuthRequest) : Prop :=
  ∃ found, requireCsrf env s.now r s.db = .ok found

theorem auth_step {env : AuthEnv} {s s' : Auth} {e : AuthEvent} :
    (auth env).step s e = some s' ↔
      (e.draws.Nodup ∧ ∀ t ∈ e.draws, t ≠ "" ∧ t ∉ s.issued) ∧
        s' = ⟨e.commit env s.now s.db, s.now + e.elapsed, e.draws ++ s.issued⟩ := by
  simp only [auth, Auth.step]
  split
  · simp_all [eq_comm]
  · simp_all

end Arena.Model
