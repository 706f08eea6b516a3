import Mathlib.Data.Rat.Floor
import Mathlib.Tactic.Simps.Basic
import Arena.Lib.Rows

/-!
# The control plane's data model

The rows of `backend/app/models.py`, the settings that the modelled handlers read
(`backend/app/config.py`) and the database they live in.

Instants are microseconds since the epoch in UTC, the resolution of `datetime`. Byte
counts and limits are natural numbers (the columns are `BIGINT`). An identifier is the
text that `new_id` draws (`uuid4`).

A `Database` carries what PostgreSQL enforces on every commit: primary keys (in `Table`),
the unique indexes on `nodes.slug` and on `access_keys (user_id, node_id)`, and the
foreign keys of `access_keys` and `connection_sessions`.
-/

namespace Arena.Model

open Arena.Lib

abbrev Id := String

/-- Microseconds since the epoch. -/
abbrev Instant := ℤ

def seconds (n : ℕ) : ℤ := n * 1000000

def days (n : ℕ) : ℤ := n * 86400000000

/-- JSON values, as `json.dumps` writes and `json.loads` reads them. -/
inductive Json where
  | null
  | bool (b : Bool)
  | num (n : ℚ)
  | str (s : String)
  | arr (items : List Json)
  | obj (members : List (String × Json))

/-- The settings of `config.py` that the modelled code reads. -/
structure Settings where
  publicUrl : String := "auto"
  xrayListenHost : String := "0.0.0.0"
  xrayApiHost : String := "127.0.0.1"
  xrayApiPort : ℕ := 10085
  xrayInternalHost : String := "arena"
  gatewayPublicPath : String := "/edge"
  trustProxyHeaders : Bool := true
  sessionStaleSeconds : ℕ := 45

inductive Kind where
  | xray | wireguard | cisco
  deriving DecidableEq

inductive Protocol where
  | vless | vmess | wireguard | cisco
  deriving DecidableEq

inductive Transport where
  | websocket | external
  deriving DecidableEq

inductive Security where
  | tls | none
  deriving DecidableEq

inductive Fingerprint where
  | chrome | firefox | safari | ios | android | edge | random | randomized
  deriving DecidableEq

inductive Alpn where
  | http11 | h2 | h3
  deriving DecidableEq

/-- `ConnectionSession.status`. -/
inductive Status where
  | active | blocked | closed | stale
  deriving DecidableEq

def Protocol.text : Protocol → String
  | .vless => "vless"
  | .vmess => "vmess"
  | .wireguard => "wireguard"
  | .cisco => "cisco"

/-- `protocol in {"vless", "vmess"}`. -/
def Protocol.isProxy : Protocol → Bool
  | .vless | .vmess => true
  | _ => false

def Security.text : Security → String
  | .tls => "tls"
  | .none => "none"

def Fingerprint.text : Fingerprint → String
  | .chrome => "chrome"
  | .firefox => "firefox"
  | .safari => "safari"
  | .ios => "ios"
  | .android => "android"
  | .edge => "edge"
  | .random => "random"
  | .randomized => "randomized"

def Alpn.text : Alpn → String
  | .http11 => "http/1.1"
  | .h2 => "h2"
  | .h3 => "h3"

structure User where
  id : Id
  name : String := ""
  note : String := ""
  active : Bool := true
  quotaBytes : ℕ := 0
  usedUpBytes : ℕ := 0
  usedDownBytes : ℕ := 0
  validityDays : ℕ := 30
  startsAt : Option Instant := none
  expiresAt : Option Instant := none
  maxIps : ℕ := 1
  speedLimitBps : ℕ := 0
  subscriptionVersion : ℕ := 1

/-- `User.used_bytes`. -/
def User.usedBytes (user : User) : ℕ := user.usedUpBytes + user.usedDownBytes

structure Node where
  id : Id
  name : String := ""
  slug : String
  kind : Kind := .xray
  protocol : Protocol := .vless
  transport : Transport := .websocket
  host : String
  port : ℕ := 443
  security : Security := .tls
  sni : String := ""
  websocketHost : String := ""
  path : String := "/edge"
  fingerprint : Fingerprint := .chrome
  /-- The protocols joined by commas. -/
  alpn : String := "http/1.1"
  enabled : Bool := true
  /-- `metadata_json`, decoded: every writer of the column stores `json.dumps` of a value. -/
  metadata : Json := .obj []
  /-- A JSON response can show the metadata: the column has no `NaN`, no infinity and no unpaired
  surrogate. `Json` has none of them, so the row says it. -/
  renders : Bool := true

structure AccessKey where
  id : Id
  userId : Id
  nodeId : Id
  credential : String
  /-- `secret_payload`, decrypted; empty when the column is the empty string. -/
  secretPayload : List (String × String) := []
  enabled : Bool := true

structure ConnectionSession where
  id : Id
  userId : Id
  nodeId : Id
  sourceIp : String
  userAgent : String := ""
  gatewayInstance : String := ""
  status : Status := .active
  closeReason : String := ""
  uplinkBytes : ℕ := 0
  downlinkBytes : ℕ := 0
  startedAt : Instant
  lastSeenAt : Instant
  endedAt : Option Instant := none

structure AuditEvent where
  actor : String := "system"
  action : String
  entityType : String := ""
  entityId : String := ""
  detail : List (String × Json) := []

/-- The committed state. The fields from `slugs` on are the constraints of the schema. -/
structure Database where
  users : Table User.id
  nodes : Table Node.id
  accessKeys : Table AccessKey.id
  sessions : Table ConnectionSession.id
  auditEvents : List AuditEvent
  slugs : (nodes.rows.map Node.slug).Nodup
  keyPairs : (accessKeys.rows.map fun k => (k.userId, k.nodeId)).Nodup
  keyUser : ∀ k ∈ accessKeys.rows, (users.find? k.userId).isSome
  keyNode : ∀ k ∈ accessKeys.rows, (nodes.find? k.nodeId).isSome
  sessionUser : ∀ s ∈ sessions.rows, (users.find? s.userId).isSome
  sessionNode : ∀ s ∈ sessions.rows, (nodes.find? s.nodeId).isSome

/-- An error response: `HTTPException`, or the 500 of an exception nobody handles. -/
structure HttpError where
  status : ℕ
  detail : String
  deriving DecidableEq

def internalError : HttpError := ⟨500, "Internal Server Error"⟩

/-- A sequence of steps that may raise succeeds when both parts do. -/
theorem bind_eq_ok {ε α β : Type} {x : Except ε α} {f : α → Except ε β} {b : β} :
    (x >>= f) = .ok b ↔ ∃ a, x = .ok a ∧ f a = .ok b := by
  cases x <;> simp [bind, Except.bind]

theorem bind_eq_error {ε α β : Type} {x : Except ε α} {f : α → Except ε β} {e : ε}
    (h : (x >>= f) = .error e) : x = .error e ∨ ∃ a, f a = .error e := by
  cases x with
  | error e' => exact .inl (congrArg Except.error (Except.error.inj h))
  | ok a => exact .inr ⟨a, h⟩

/-- What holds of every exception of the parts holds of every exception of the sequence. -/
theorem bind_error_of {ε α β : Type} {P : ε → Prop} {x : Except ε α} {f : α → Except ε β}
    (first : ∀ e, x = .error e → P e) (rest : ∀ a, x = .ok a → ∀ e, f a = .error e → P e) :
    ∀ e, (x >>= f) = .error e → P e := by
  intro e h
  cases x with
  | error e' => exact first e (congrArg Except.error (Except.error.inj h))
  | ok a => exact rest a rfl e h

theorem map_eq_error {ε α β : Type} {x : Except ε α} {f : α → β} {e : ε} (h : x.map f = .error e) :
    x = .error e := by
  cases x with
  | error e' => exact congrArg Except.error (Except.error.inj h)
  | ok a => cases h

theorem toOption_eq_some {ε α : Type} {x : Except ε α} {a : α} :
    x.toOption = some a ↔ x = .ok a := by
  cases x <;> simp [Except.toOption]

namespace Database

/-- The schema before the first row. -/
@[simps users nodes accessKeys sessions auditEvents]
def empty : Database where
  users := ⟨[], by simp⟩
  nodes := ⟨[], by simp⟩
  accessKeys := ⟨[], by simp⟩
  sessions := ⟨[], by simp⟩
  auditEvents := []
  slugs := by simp
  keyPairs := by simp
  keyUser := by simp
  keyNode := by simp
  sessionUser := by simp
  sessionNode := by simp

/-! ## Statements

The statements that the handlers issue. Each one keeps the constraints, so a handler
built from them cannot leave an ill-formed database; an `INSERT` that would break one is
refused. -/

/-- `UPDATE users SET f WHERE p`. -/
@[simps users nodes accessKeys sessions auditEvents]
def updateUsers (db : Database) (p : User → Bool) (f : User → User)
    (keeps : ∀ u, (f u).id = u.id) : Database :=
  { db with
    users := db.users.update p f keeps
    keyUser := by simpa using db.keyUser
    sessionUser := by simpa using db.sessionUser }

/-- `UPDATE nodes SET f WHERE p`; no handler changes a slug. -/
@[simps users nodes accessKeys sessions auditEvents]
def updateNodes (db : Database) (p : Node → Bool) (f : Node → Node)
    (keeps : ∀ n, (f n).id = n.id)
    (keepsSlug : ∀ n, (f n).slug = n.slug) : Database :=
  { db with
    nodes := db.nodes.update p f keeps
    slugs := by
      have h : (Node.slug ∘ fun n => if p n then f n else n) = Node.slug := by
        funext n; simp only [Function.comp]; split <;> simp [keepsSlug]
      simpa [Table.update, h] using db.slugs
    keyNode := by simpa using db.keyNode
    sessionNode := by simpa using db.sessionNode }

/-- `UPDATE connection_sessions SET f WHERE p`. -/
@[simps users nodes accessKeys sessions auditEvents]
def updateSessions (db : Database) (p : ConnectionSession → Bool)
    (f : ConnectionSession → ConnectionSession)
    (keeps : ∀ s, (f s).id = s.id)
    (keepsUser : ∀ s, (f s).userId = s.userId)
    (keepsNode : ∀ s, (f s).nodeId = s.nodeId) : Database :=
  { db with
    sessions := db.sessions.update p f keeps
    sessionUser := by
      intro s hs
      obtain ⟨s₀, h₀, rfl⟩ := Table.mem_update.1 hs
      split <;> simpa [keepsUser] using db.sessionUser s₀ h₀
    sessionNode := by
      intro s hs
      obtain ⟨s₀, h₀, rfl⟩ := Table.mem_update.1 hs
      split <;> simpa [keepsNode] using db.sessionNode s₀ h₀ }

/-- `UPDATE access_keys SET enabled WHERE p`. -/
@[simps users nodes accessKeys sessions auditEvents]
def updateKeysEnabled (db : Database) (p : AccessKey → Bool) (enabled : Bool) : Database :=
  { db with
    accessKeys := db.accessKeys.update p (fun k => { k with enabled := enabled }) (fun _ => rfl)
    keyPairs := by
      have h : ((fun k => (k.userId, k.nodeId)) ∘ fun k : AccessKey =>
          if p k then { k with enabled := enabled } else k) = fun k => (k.userId, k.nodeId) := by
        funext k; simp only [Function.comp]; split <;> rfl
      simpa [Table.update, h] using db.keyPairs
    keyUser := by
      intro k hk
      obtain ⟨k₀, h₀, rfl⟩ := Table.mem_update.1 hk
      split <;> exact db.keyUser k₀ h₀
    keyNode := by
      intro k hk
      obtain ⟨k₀, h₀, rfl⟩ := Table.mem_update.1 hk
      split <;> exact db.keyNode k₀ h₀ }

/-- `INSERT INTO audit_events`. -/
@[simps users nodes accessKeys sessions auditEvents]
def addAudit (db : Database) (event : AuditEvent) : Database :=
  { db with auditEvents := db.auditEvents ++ [event] }

/-- `INSERT INTO users`. -/
def insertUser? (db : Database) (user : User) : Option Database :=
  match h : db.users.insert? user with
  | none => none
  | some users => some
    { db with
      users := users
      keyUser := fun k hk => by
        obtain ⟨u, hu⟩ := Option.isSome_iff_exists.1 (db.keyUser k hk)
        simp [Table.find?_insert_of_isSome h hu]
      sessionUser := fun s hs => by
        obtain ⟨u, hu⟩ := Option.isSome_iff_exists.1 (db.sessionUser s hs)
        simp [Table.find?_insert_of_isSome h hu] }

/-- `INSERT INTO nodes`. -/
def insertNode? (db : Database) (node : Node) : Option Database :=
  match h : db.nodes.insert? node with
  | none => none
  | some nodes =>
    if hs : node.slug ∈ db.nodes.rows.map Node.slug then none
    else some
      { db with
        nodes := nodes
        slugs := by
          rw [(Table.insert?_eq_some_iff.1 h).2, List.map_append, List.nodup_append]
          refine ⟨db.slugs, by simp, ?_⟩
          rintro a ha b hb rfl
          simp only [List.map_cons, List.map_nil, List.mem_singleton] at hb
          exact hs (hb ▸ ha)
        keyNode := fun k hk => by
          obtain ⟨n, hn⟩ := Option.isSome_iff_exists.1 (db.keyNode k hk)
          simp [Table.find?_insert_of_isSome h hn]
        sessionNode := fun s hs => by
          obtain ⟨n, hn⟩ := Option.isSome_iff_exists.1 (db.sessionNode s hs)
          simp [Table.find?_insert_of_isSome h hn] }

/-- `INSERT INTO access_keys`. -/
def insertKey? (db : Database) (key : AccessKey) : Option Database :=
  match h : db.accessKeys.insert? key with
  | none => none
  | some keys =>
    if ok : (key.userId, key.nodeId) ∉ db.accessKeys.rows.map (fun k => (k.userId, k.nodeId)) ∧
        (db.users.find? key.userId).isSome ∧ (db.nodes.find? key.nodeId).isSome then some
      { db with
        accessKeys := keys
        keyPairs := by
          rw [(Table.insert?_eq_some_iff.1 h).2, List.map_append, List.nodup_append]
          refine ⟨db.keyPairs, by simp, ?_⟩
          rintro a ha b hb rfl
          simp only [List.map_cons, List.map_nil, List.mem_singleton] at hb
          exact ok.1 (hb ▸ ha)
        keyUser := fun k hk => by
          rw [(Table.insert?_eq_some_iff.1 h).2, List.mem_append, List.mem_singleton] at hk
          rcases hk with hk | rfl
          · exact db.keyUser k hk
          · exact ok.2.1
        keyNode := fun k hk => by
          rw [(Table.insert?_eq_some_iff.1 h).2, List.mem_append, List.mem_singleton] at hk
          rcases hk with hk | rfl
          · exact db.keyNode k hk
          · exact ok.2.2 }
    else none

/-- `INSERT INTO connection_sessions`. -/
def insertSession? (db : Database) (session : ConnectionSession) : Option Database :=
  match h : db.sessions.insert? session with
  | none => none
  | some sessions =>
    if ok : (db.users.find? session.userId).isSome ∧ (db.nodes.find? session.nodeId).isSome then some
      { db with
        sessions := sessions
        sessionUser := fun s hs => by
          rw [(Table.insert?_eq_some_iff.1 h).2, List.mem_append, List.mem_singleton] at hs
          rcases hs with hs | rfl
          · exact db.sessionUser s hs
          · exact ok.1
        sessionNode := fun s hs => by
          rw [(Table.insert?_eq_some_iff.1 h).2, List.mem_append, List.mem_singleton] at hs
          rcases hs with hs | rfl
          · exact db.sessionNode s hs
          · exact ok.2 }
    else none

/-- `DELETE FROM access_keys WHERE p`. -/
@[simps users nodes accessKeys sessions auditEvents]
def deleteKeys (db : Database) (p : AccessKey → Bool) : Database :=
  { db with
    accessKeys := db.accessKeys.delete p
    keyPairs := db.keyPairs.sublist (List.filter_sublist.map _)
    keyUser := fun k hk => db.keyUser k (Table.mem_delete.1 hk).1
    keyNode := fun k hk => db.keyNode k (Table.mem_delete.1 hk).1 }

/-- `DELETE` of a user, with the keys and sessions it owns (`cascade="all, delete-orphan"`). -/
@[simps users nodes accessKeys sessions auditEvents]
def deleteUser (db : Database) (id : Id) : Database :=
  { db with
    users := db.users.delete fun u => u.id = id
    accessKeys := db.accessKeys.delete fun k => k.userId = id
    sessions := db.sessions.delete fun s => s.userId = id
    keyPairs := db.keyPairs.sublist (List.filter_sublist.map _)
    keyUser := fun k hk => by
      obtain ⟨mem, other⟩ := Table.mem_delete.1 hk
      obtain ⟨u, hu⟩ := Option.isSome_iff_exists.1 (db.keyUser k mem)
      have hid := Table.find?_key hu
      simp_all [Table.find?_delete]
    keyNode := fun k hk => db.keyNode k (Table.mem_delete.1 hk).1
    sessionUser := fun s hs => by
      obtain ⟨mem, other⟩ := Table.mem_delete.1 hs
      obtain ⟨u, hu⟩ := Option.isSome_iff_exists.1 (db.sessionUser s mem)
      have hid := Table.find?_key hu
      simp_all [Table.find?_delete]
    sessionNode := fun s hs => db.sessionNode s (Table.mem_delete.1 hs).1 }

/-! ## What an accepted `INSERT` does -/

variable {db db' : Database}

theorem insertUser?_eq_some {user : User} (h : db.insertUser? user = some db') :
    db.users.insert? user = some db'.users ∧ db'.nodes = db.nodes ∧
      db'.accessKeys = db.accessKeys ∧ db'.sessions = db.sessions ∧
      db'.auditEvents = db.auditEvents := by
  unfold insertUser? at h
  split at h
  · cases h
  · cases h; exact ⟨‹_›, rfl, rfl, rfl, rfl⟩

theorem insertNode?_eq_some {node : Node} (h : db.insertNode? node = some db') :
    db.nodes.insert? node = some db'.nodes ∧ db'.users = db.users ∧
      db'.accessKeys = db.accessKeys ∧ db'.sessions = db.sessions ∧
      db'.auditEvents = db.auditEvents := by
  unfold insertNode? at h
  split at h
  · cases h
  · split at h
    · cases h
    · cases h; exact ⟨‹_›, rfl, rfl, rfl, rfl⟩

theorem insertKey?_eq_some {key : AccessKey} (h : db.insertKey? key = some db') :
    db.accessKeys.insert? key = some db'.accessKeys ∧ db'.users = db.users ∧
      db'.nodes = db.nodes ∧ db'.sessions = db.sessions ∧ db'.auditEvents = db.auditEvents := by
  unfold insertKey? at h
  split at h
  · cases h
  · split at h
    · cases h; exact ⟨‹_›, rfl, rfl, rfl, rfl⟩
    · cases h

theorem insertSession?_eq_some {session : ConnectionSession}
    (h : db.insertSession? session = some db') :
    db.sessions.insert? session = some db'.sessions ∧ db'.users = db.users ∧
      db'.nodes = db.nodes ∧ db'.accessKeys = db.accessKeys ∧
      db'.auditEvents = db.auditEvents := by
  unfold insertSession? at h
  split at h
  · cases h
  · split at h
    · cases h; exact ⟨‹_›, rfl, rfl, rfl, rfl⟩
    · cases h

/-- A session of a known user on a known node is inserted when its identifier is new. -/
theorem insertSession?_isSome {session : ConnectionSession}
    (fresh : db.sessions.find? session.id = none) (user : (db.users.find? session.userId).isSome)
    (node : (db.nodes.find? session.nodeId).isSome) : (db.insertSession? session).isSome := by
  have h : (db.sessions.insert? session).isSome := Table.insert?_isSome fresh
  unfold insertSession?
  split
  · simp_all
  · rw [dif_pos ⟨user, node⟩]; rfl

/-- A node is inserted when its identifier and its slug are new. -/
theorem insertNode?_isSome {node : Node} (fresh : db.nodes.find? node.id = none)
    (slug : ∀ n ∈ db.nodes.rows, n.slug ≠ node.slug) : (db.insertNode? node).isSome := by
  have h : (db.nodes.insert? node).isSome := Table.insert?_isSome fresh
  unfold insertNode?
  split
  · simp_all
  · rw [dif_neg (by simpa using slug)]; rfl

end Database

end Arena.Model
