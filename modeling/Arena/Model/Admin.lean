import Arena.Lib.Text
import Arena.Model.Accounts

/-!
# Administrative operations

The handlers of `backend/app/routes/users.py` and `backend/app/routes/nodes.py` that write,
each up to its commit, with the schemas of `backend/app/schemas.py` they accept. An error
leaves nothing committed; the Xray synchronisation after the commit is in `Arena.Xray`.

Random values and the free address that the WireGuard pool answered are arguments.
-/

namespace Arena.Model

open Arena.Lib

/-! ## Payloads -/

/-- A field of a partial update: left out, given as `null`, or given a value. -/
inductive Patch (α : Type) where
  | unset
  | null
  | set (value : α)

namespace Patch

variable {α : Type}

/-- The value of a column that accepts no `NULL`: the commit refuses an explicit `null`. -/
def required (old : α) : Patch α → Except HttpError α
  | .unset => .ok old
  | .null => .error internalError
  | .set value => .ok value

/-- The value of a nullable column. -/
def nullable (old : Option α) : Patch α → Option α
  | .unset => old
  | .null => none
  | .set value => some value

/-- The name of a field that was given, for the audit row. -/
def field (name : String) : Patch α → Option Json
  | .unset => none
  | _ => some (.str name)

def map {β : Type} (f : α → β) : Patch α → Patch β
  | .unset => .unset
  | .null => .null
  | .set value => .set (f value)

end Patch

structure UserCreate where
  name : String
  note : String := ""
  quotaGb : ℚ := 50
  validityDays : ℕ := 30
  maxIps : ℕ := 1
  speedMbps : ℚ := 0
  nodeIds : List Id := []
  nameLength : 1 ≤ name.length ∧ name.length ≤ 120 := by decide
  noteLength : note.length ≤ 2000 := by decide
  quotaRange : 0 ≤ quotaGb ∧ quotaGb ≤ 1000000 := by decide
  validityRange : validityDays ≤ 3650 := by decide
  maxIpsRange : 1 ≤ maxIps ∧ maxIps ≤ 100 := by decide
  speedRange : 0 ≤ speedMbps ∧ speedMbps ≤ 100000 := by decide

structure UserUpdate where
  name : Patch String := .unset
  note : Patch String := .unset
  active : Patch Bool := .unset
  quotaGb : Patch ℚ := .unset
  validityDays : Patch ℕ := .unset
  expiresAt : Patch Instant := .unset
  maxIps : Patch ℕ := .unset
  speedMbps : Patch ℚ := .unset
  nameLength : ∀ v, name = .set v → 1 ≤ v.length ∧ v.length ≤ 120 := by simp
  noteLength : ∀ v, note = .set v → v.length ≤ 2000 := by simp
  quotaRange : ∀ v, quotaGb = .set v → 0 ≤ v ∧ v ≤ 1000000 := by simp
  validityRange : ∀ v, validityDays = .set v → v ≤ 3650 := by simp
  maxIpsRange : ∀ v, maxIps = .set v → 1 ≤ v ∧ v ≤ 100 := by simp
  speedRange : ∀ v, speedMbps = .set v → 0 ≤ v ∧ v ≤ 100000 := by simp

/-- The slug pattern `^[a-z0-9][a-z0-9-]{1,62}$`. -/
def isSlug (slug : String) : Bool :=
  let word := fun c : Char => c.isLower || c.isDigit
  match slug.toList with
  | [] => false
  | c :: rest => word c && rest.all (fun c => word c || c == '-') && 1 ≤ rest.length && rest.length ≤ 62

/-- `NodeCreate`; `path` is the text the client sent, `metadata` the members of the object
it sent. -/
structure NodeCreate where
  name : String
  slug : String
  kind : Kind := .xray
  protocol : Protocol := .vless
  transport : Transport := .websocket
  host : String
  port : ℕ := 443
  security : Security := .tls
  sni : String := ""
  websocketHost : String := ""
  path : String := "/edge"
  fingerprint : Fingerprint := .chrome
  alpn : List Alpn := [.http11]
  enabled : Bool := true
  metadata : List (String × Json) := []
  /-- The metadata has no `NaN`, no infinity and no unpaired surrogate. -/
  metadataRenders : Bool := true
  nameLength : 1 ≤ name.length ∧ name.length ≤ 120 := by decide
  slugPattern : isSlug slug := by decide
  hostLength : 1 ≤ host.length ∧ host.length ≤ 255 := by decide
  portRange : 1 ≤ port ∧ port ≤ 65535 := by decide
  sniLength : sni.length ≤ 255 := by decide
  websocketHostLength : websocketHost.length ≤ 255 := by decide
  pathLength : path.length ≤ 255 := by decide

structure NodeUpdate where
  name : Patch String := .unset
  enabled : Patch Bool := .unset
  host : Patch String := .unset
  port : Patch ℕ := .unset
  security : Patch Security := .unset
  sni : Patch String := .unset
  websocketHost : Patch String := .unset
  path : Patch String := .unset
  fingerprint : Patch Fingerprint := .unset
  alpn : Patch (List Alpn) := .unset
  metadata : Patch (List (String × Json)) := .unset
  /-- As in `NodeCreate`, of metadata that is given. -/
  metadataRenders : Bool := true
  nameLength : ∀ v, name = .set v → 1 ≤ v.length ∧ v.length ≤ 120 := by simp
  hostLength : ∀ v, host = .set v → 1 ≤ v.length ∧ v.length ≤ 255 := by simp
  portRange : ∀ v, port = .set v → 1 ≤ v ∧ v ≤ 65535 := by simp
  sniLength : ∀ v, sni = .set v → v.length ≤ 255 := by simp
  websocketHostLength : ∀ v, websocketHost = .set v → v.length ≤ 255 := by simp
  pathLength : ∀ v, path = .set v → v.length ≤ 255 := by simp

/-! ## Access keys -/

/-- The random values one `create_access_key` draws, and what the address pool answered:
`none` when every address is in use. -/
structure KeyMaterial where
  id : Id
  uuid : String
  privateKey : String
  publicKey : String
  address : Option String
  password : String

/-- `create_access_key`. -/
def createAccessKey (m : KeyMaterial) (user : User) (node : Node) : Except HttpError AccessKey :=
  match node.protocol with
  | .vless | .vmess => .ok
      { id := m.id, userId := user.id, nodeId := node.id, credential := m.uuid }
  | .wireguard =>
    match m.address with
    | none => .error internalError
    | some address => .ok
        { id := m.id
          userId := user.id
          nodeId := node.id
          credential := m.publicKey
          secretPayload := [("private_key", m.privateKey), ("public_key", m.publicKey),
            ("address", address)] }
  | .cisco =>
    let username := "arena-" ++ String.ofList ((user.id.toList.splitOn '-').headD [])
    .ok
      { id := m.id
        userId := user.id
        nodeId := node.id
        credential := username
        secretPayload := [("username", username), ("password", m.password)] }

/-- `create_access_key` for each node of a list. -/
def createKeys (material : Id → KeyMaterial) (user : User) : List Node → Database →
    Except HttpError Database
  | [], db => .ok db
  | node :: nodes, db => do
    let key ← createAccessKey (material node.id) user node
    match db.insertKey? key with
    | none => .error internalError
    | some db => createKeys material user nodes db

/-! ## Users -/

def notFound (detail : String) : HttpError := ⟨404, detail⟩

/-- `int(quota_gb * 1024**3)`, over exact arithmetic. -/
def quotaBytesOf (quotaGb : ℚ) : ℕ := ⌊quotaGb * 1024 ^ 3⌋.toNat

/-- `int(speed_mbps * 1_000_000 / 8)`, over exact arithmetic; `speedLimit64` rounds as the code does. -/
def speedLimitOf (speedMbps : ℚ) : ℕ := ⌊speedMbps * 1000000 / 8⌋.toNat

def userEvent (admin action : String) (id : Id) (detail : List (String × Json)) : AuditEvent where
  actor := admin
  action := action
  entityType := "user"
  entityId := id
  detail := detail

/-- `_get_user`. -/
def getUser (db : Database) (userId : Id) : Except HttpError User :=
  match db.users.find? userId with
  | none => .error (notFound "کاربر پیدا نشد")
  | some user => .ok user

def newUser (newId : Id) (p : UserCreate) : User where
  id := newId
  name := stripSpaces p.name
  note := stripSpaces p.note
  quotaBytes := quotaBytesOf p.quotaGb
  validityDays := p.validityDays
  maxIps := p.maxIps
  speedLimitBps := speedLimitOf p.speedMbps

/-- `create_user`. -/
def createUser (admin : String) (newId : Id) (material : Id → KeyMaterial) (p : UserCreate)
    (db : Database) : Except HttpError Database := do
  let user := newUser newId p
  match db.insertUser? user with
  | none => .error internalError
  | some db =>
    let nodes := db.nodes.rows.filter fun n =>
      n.enabled && (p.nodeIds.isEmpty || p.nodeIds.contains n.id)
    let db ← createKeys material user nodes db
    .ok (db.addAudit (userEvent admin "user.created" newId
      [("name", .str user.name), ("nodes", .num nodes.length)]))

/-- The row that `update_user` commits. -/
def patchUser (p : UserUpdate) (user : User) : Except HttpError User := do
  let quotaBytes ← (p.quotaGb.map quotaBytesOf).required user.quotaBytes
  let speedLimitBps ← (p.speedMbps.map speedLimitOf).required user.speedLimitBps
  let name ← (p.name.map stripSpaces).required user.name
  let note ← (p.note.map stripSpaces).required user.note
  let active ← p.active.required user.active
  let validityDays ← p.validityDays.required user.validityDays
  let maxIps ← p.maxIps.required user.maxIps
  .ok { user with
    name := name
    note := note
    active := active
    quotaBytes := quotaBytes
    validityDays := validityDays
    expiresAt := p.expiresAt.nullable user.expiresAt
    maxIps := maxIps
    speedLimitBps := speedLimitBps }

/-- `sorted(payload.model_fields_set)`. -/
def UserUpdate.fields (p : UserUpdate) : List Json :=
  [p.active.field "active", p.expiresAt.field "expires_at", p.maxIps.field "max_ips",
    p.name.field "name", p.note.field "note", p.quotaGb.field "quota_gb",
    p.speedMbps.field "speed_mbps", p.validityDays.field "validity_days"].filterMap id

/-- Write `row` over the columns of a user that `update_user` may assign. -/
def User.assign (row user : User) : User :=
  { user with
    name := row.name
    note := row.note
    active := row.active
    quotaBytes := row.quotaBytes
    validityDays := row.validityDays
    expiresAt := row.expiresAt
    maxIps := row.maxIps
    speedLimitBps := row.speedLimitBps }

@[simp] theorem User.assign_id {row user : User} : (User.assign row user).id = user.id := rfl

/-- `update_user`. -/
def updateUser (admin : String) (userId : Id) (p : UserUpdate) (db : Database) :
    Except HttpError Database := do
  let user ← getUser db userId
  let row ← patchUser p user
  .ok ((db.updateUsers (·.id = userId) (User.assign row) fun _ => User.assign_id).addAudit
    (userEvent admin "user.updated" userId [("fields", .arr p.fields)]))

/-- The assignments of `reset_usage`. -/
def User.resetUsage (u : User) : User := { u with usedUpBytes := 0, usedDownBytes := 0 }

@[simp] theorem User.resetUsage_id {u : User} : u.resetUsage.id = u.id := rfl

/-- `reset_usage`. -/
def resetUsage (admin : String) (userId : Id) (db : Database) : Except HttpError Database := do
  let _ ← getUser db userId
  .ok ((db.updateUsers (·.id = userId) User.resetUsage fun _ => User.resetUsage_id).addAudit
    (userEvent admin "user.usage_reset" userId []))

/-- The assignment of `rotate_subscription`. -/
def User.rotate (u : User) : User := { u with subscriptionVersion := u.subscriptionVersion + 1 }

@[simp] theorem User.rotate_id {u : User} : u.rotate.id = u.id := rfl

/-- `rotate_subscription`, which has no Xray synchronisation after it. -/
def rotateSubscription (admin : String) (userId : Id) (db : Database) :
    Except HttpError Database := do
  let _ ← getUser db userId
  .ok ((db.updateUsers (·.id = userId) User.rotate fun _ => User.rotate_id).addAudit
    (userEvent admin "user.subscription_rotated" userId []))

/-- `attach_node`. -/
def attachNode (admin : String) (userId nodeId : Id) (material : KeyMaterial) (db : Database) :
    Except HttpError Database := do
  let user ← getUser db userId
  match db.nodes.find? nodeId with
  | none => .error (notFound "نود پیدا نشد")
  | some node =>
    let event := userEvent admin "user.node_attached" userId [("node_id", .str nodeId)]
    if db.accessKeys.rows.any fun k => k.userId = userId && k.nodeId = nodeId then
      .ok ((db.updateKeysEnabled (fun k => k.userId = userId && k.nodeId = nodeId) true).addAudit
        event)
    else
      let db ← createKeys (fun _ => material) user [node] db
      .ok (db.addAudit event)

/-- `detach_node`. -/
def detachNode (admin : String) (userId nodeId : Id) (db : Database) :
    Except HttpError Database := do
  let _ ← getUser db userId
  .ok ((db.deleteKeys fun k => k.userId = userId && k.nodeId = nodeId).addAudit
    (userEvent admin "user.node_detached" userId [("node_id", .str nodeId)]))

/-- `delete_user`. -/
def deleteUser (admin : String) (userId : Id) (db : Database) : Except HttpError Database := do
  let user ← getUser db userId
  .ok ((db.addAudit (userEvent admin "user.deleted" userId [("name", .str user.name)])).deleteUser
    userId)

/-! ## Nodes -/

def nodeEvent (admin action : String) (id : Id) (detail : List (String × Json)) : AuditEvent where
  actor := admin
  action := action
  entityType := "node"
  entityId := id
  detail := detail

/-- `"/" + value.strip("/")`: the validator of `NodeCreate.path`, of the setting
`gateway_public_path` and of `update_node`. -/
def normalizePath (value : String) : String :=
  String.ofList ('/' :: strip (· == '/') value.toList)

/-- `_validate_node`. -/
def validateNode (p : NodeCreate) : Except HttpError Unit :=
  if p.kind = .xray ∧ p.protocol ≠ .vless ∧ p.protocol ≠ .vmess then
    .error ⟨422, "نود Xray باید VLESS یا VMess باشد"⟩
  else if p.kind = .xray ∧ p.transport ≠ .websocket then
    .error ⟨422, "در فاز ۱ ترابرد فعال Xray فقط WebSocket است"⟩
  else if p.kind = .wireguard ∧ p.protocol ≠ .wireguard then
    .error ⟨422, "نوع و پروتکل WireGuard هم‌خوان نیست"⟩
  else if p.kind = .cisco ∧ p.protocol ≠ .cisco then
    .error ⟨422, "نوع و پروتکل Cisco هم‌خوان نیست"⟩
  else .ok ()

/-- `",".join(alpn)`. -/
def joinAlpn (alpn : List Alpn) : String := ",".intercalate (alpn.map Alpn.text)

def newNode (newId : Id) (p : NodeCreate) : Node where
  id := newId
  name := stripSpaces p.name
  slug := p.slug
  kind := p.kind
  protocol := p.protocol
  transport := p.transport
  host := stripSpaces p.host
  port := p.port
  security := p.security
  sni := stripSpaces p.sni
  websocketHost := stripSpaces p.websocketHost
  path := normalizePath p.path
  fingerprint := p.fingerprint
  alpn := joinAlpn p.alpn
  enabled := p.enabled
  metadata := .obj p.metadata
  renders := p.metadataRenders

/-- `create_node`. -/
def createNode (admin : String) (newId : Id) (p : NodeCreate) (db : Database) :
    Except HttpError Database := do
  validateNode p
  if db.nodes.rows.any (·.slug = p.slug) then
    .error ⟨409, "این شناسه نود قبلاً استفاده شده است"⟩
  else
    match db.insertNode? (newNode newId p) with
    | none => .error internalError
    | some db => .ok (db.addAudit (nodeEvent admin "node.created" newId
        [("protocol", .str p.protocol.text)]))

/-- `update_node` normalises a path that is given and not empty, then strips every text. -/
def patchPath (value : String) : String :=
  if value = "" then "" else stripSpaces (normalizePath value)

/-- The row that `update_node` commits. An explicit `null` for `metadata` is stored as the
JSON text `null`; for any other column the commit (or the join of `alpn`) refuses it. -/
def patchNode (p : NodeUpdate) (node : Node) : Except HttpError Node := do
  let alpn ← (p.alpn.map joinAlpn).required node.alpn
  let path ← (p.path.map patchPath).required node.path
  let name ← (p.name.map stripSpaces).required node.name
  let enabled ← p.enabled.required node.enabled
  let host ← (p.host.map stripSpaces).required node.host
  let port ← p.port.required node.port
  let security ← p.security.required node.security
  let sni ← (p.sni.map stripSpaces).required node.sni
  let websocketHost ← (p.websocketHost.map stripSpaces).required node.websocketHost
  let fingerprint ← p.fingerprint.required node.fingerprint
  .ok { node with
    name := name
    enabled := enabled
    host := host
    port := port
    security := security
    sni := sni
    websocketHost := websocketHost
    path := path
    fingerprint := fingerprint
    alpn := alpn
    metadata := match p.metadata with
      | .unset => node.metadata
      | .null => .null
      | .set members => .obj members
    renders := match p.metadata with
      | .unset => node.renders
      | .null => true
      | .set _ => p.metadataRenders }

/-- `sorted(payload.model_fields_set)`. -/
def NodeUpdate.fields (p : NodeUpdate) : List Json :=
  [p.alpn.field "alpn", p.enabled.field "enabled", p.fingerprint.field "fingerprint",
    p.host.field "host", p.metadata.field "metadata", p.name.field "name", p.path.field "path",
    p.port.field "port", p.security.field "security", p.sni.field "sni",
    p.websocketHost.field "websocket_host"].filterMap id

/-- Write `row` over the columns of a node that `update_node` may assign. -/
def Node.assign (row node : Node) : Node :=
  { node with
    name := row.name
    enabled := row.enabled
    host := row.host
    port := row.port
    security := row.security
    sni := row.sni
    websocketHost := row.websocketHost
    path := row.path
    fingerprint := row.fingerprint
    alpn := row.alpn
    metadata := row.metadata
    renders := row.renders }

@[simp] theorem Node.assign_id {row node : Node} : (Node.assign row node).id = node.id := rfl
@[simp] theorem Node.assign_slug {row node : Node} : (Node.assign row node).slug = node.slug := rfl

/-- `_get_node`. -/
def getNode (db : Database) (nodeId : Id) : Except HttpError Node :=
  match db.nodes.find? nodeId with
  | none => .error (notFound "نود پیدا نشد")
  | some node => .ok node

/-- `update_node`. -/
def updateNode (admin : String) (nodeId : Id) (p : NodeUpdate) (db : Database) :
    Except HttpError Database := do
  let node ← getNode db nodeId
  let row ← patchNode p node
  .ok ((db.updateNodes (·.id = nodeId) (Node.assign row) (fun _ => Node.assign_id)
      fun _ => Node.assign_slug).addAudit
    (nodeEvent admin "node.updated" nodeId [("fields", .arr p.fields)]))

/-- The assignment of `disable_node`. -/
def Node.disable (n : Node) : Node := { n with enabled := false }

@[simp] theorem Node.disable_id {n : Node} : n.disable.id = n.id := rfl
@[simp] theorem Node.disable_slug {n : Node} : n.disable.slug = n.slug := rfl

/-- `disable_node`. -/
def disableNode (admin : String) (nodeId : Id) (db : Database) : Except HttpError Database := do
  let _ ← getNode db nodeId
  .ok ((db.updateNodes (·.id = nodeId) Node.disable (fun _ => Node.disable_id)
      fun _ => Node.disable_slug).addAudit
    (nodeEvent admin "node.disabled" nodeId []))

end Arena.Model
