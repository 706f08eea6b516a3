import Arena.Lib.Binary64
import Arena.Lib.CodePoints
import Arena.Model.Auth
import Arena.Model.Effects
import Arena.Model.Handlers
import Arena.Model.SubscriptionToken

/-!
# What PostgreSQL accepts

The bounded columns of `audit_events` and `connection_sessions`, the text columns of `users`, and
the transactions that write caller's text into them. PostgreSQL refuses a text that is longer than
its `VARCHAR(n)` column and a number that is out of the range of its `BIGINT` column, and the driver
refuses a parameter with a NUL character, in a query as in a row: the handler raises, the transaction
is rolled back and the response is a 500.
-/

namespace Arena.Model

open Arena.Lib

/-- A text without the NUL character, which no parameter may have. -/
def isParameter (text : String) : Bool := '\x00' ∉ text.toList

/-- The text fits a `VARCHAR(n)` column. -/
def fitsVarchar (n : ℕ) (text : String) : Bool := text.length ≤ n && isParameter text

/-- The columns of `audit_events`. `detail_json` is unbounded, and `json.dumps` escapes the
control characters. -/
def AuditEvent.fits (event : AuditEvent) : Bool :=
  fitsVarchar 120 event.actor && fitsVarchar 80 event.action && fitsVarchar 80 event.entityType &&
    fitsVarchar 80 event.entityId

/-- The text columns of `connection_sessions` that `authorize` fills. -/
def ConnectionSession.fits (s : ConnectionSession) : Bool :=
  fitsVarchar 36 s.id && fitsVarchar 36 s.userId && fitsVarchar 36 s.nodeId &&
    fitsVarchar 64 s.sourceIp && fitsVarchar 512 s.userAgent && fitsVarchar 120 s.gatewayInstance

/-- The rows that a transaction inserted fit their columns. -/
def Database.accepts (db db' : Database) : Bool :=
  (db'.auditEvents.drop db.auditEvents.length).all AuditEvent.fits &&
    (db'.sessions.rows.drop db.sessions.rows.length).all ConnectionSession.fits

/-- A transaction whose rows do not fit is rolled back. -/
def commitStored {α : Type} (db : Database) (result : Database × Except HttpError α) :
    Database × Except HttpError α :=
  if db.accepts result.1 then result else (db, .error internalError)

/-- `authorize` on PostgreSQL: its queries have both identifiers as parameters. -/
def storeAuthorize (cfg : Settings) (now : Instant) (newId : Id) (p : GatewayAuthorize)
    (db : Database) : Database × Except HttpError AuthorizeReply :=
  if isParameter p.userId && isParameter p.nodeId then
    commitStored db (authorize cfg now newId p db)
  else (db, .error internalError)

/-- The number fits a `BIGINT` column. -/
def fitsBigint (n : ℕ) : Bool := n < 2 ^ 63

/-- The counters that the traffic of a session goes to fit their columns. -/
def Database.countersFit (db : Database) (sessionId : Id) : Bool :=
  (db.sessions.find? sessionId).all fun s =>
    fitsBigint s.uplinkBytes && fitsBigint s.downlinkBytes && (db.users.find? s.userId).all fun user =>
      fitsBigint user.usedUpBytes && fitsBigint user.usedDownBytes

/-- `heartbeat` on PostgreSQL, which refuses a counter that is out of its range. -/
def storeHeartbeat (now : Instant) (p : GatewayHeartbeat) (db : Database) :
    Database × Except HttpError HeartbeatReply :=
  let result := heartbeat now p db
  if result.1.countersFit p.sessionId then result else (db, .error internalError)

/-- An answered heartbeat is the one without bounds. -/
theorem storeHeartbeat_ok {now : Instant} {p : GatewayHeartbeat} {db db' : Database} {reply : HeartbeatReply}
    (answered : storeHeartbeat now p db = (db', .ok reply)) : heartbeat now p db = (db', .ok reply) := by
  dsimp only [storeHeartbeat] at answered
  split at answered
  · exact answered
  · cases answered

/-- `login` on PostgreSQL: its query has the username as a parameter. -/
def storeLogin (env : AuthEnv) (now : Instant) (username password token csrf : String)
    (db : AuthDb) : AuthDb × Except HttpError LoginReply :=
  if isParameter username then
    let result := login env now username password token csrf db
    if (result.1.auditEvents.drop db.auditEvents.length).all AuditEvent.fits then result
    else (db, .error internalError)
  else (db, .error internalError)

/-! ## Texts with surrogates

`json.loads` reads `"\ud800"` as a lone surrogate, and `LoginRequest` and `GatewayAuthorize` take any
`str`. No row has such a text: the driver cannot encode it, neither for a query nor for a row. -/

/-- A received text that a query can have as its parameter. -/
def isParameterText (text : CodePoints) : Bool := text.encodable && text.all (·.val ≠ 0)

theorem isParameterText_ofString {s : String} : isParameterText (.ofString s) = isParameter s := by
  have nul : (CodePoints.ofString s).all (·.val ≠ 0) = isParameter s := by
    rw [Bool.eq_iff_iff, isParameter, decide_eq_true_eq, List.all_eq_true]
    simp only [CodePoints.ofString, List.mem_map, decide_eq_true_eq, forall_exists_index, and_imp,
      forall_apply_eq_imp_iff₂]
    constructor
    · intro each mem
      exact each _ mem rfl
    · intro clean c mem zero
      exact clean ((Char.ext (UInt32.toNat_inj.1 zero) : c = '\x00') ▸ mem)
  rw [isParameterText, CodePoints.encodable_ofString, nul, Bool.true_and]

/-- A `GatewayAuthorize` as it is received. -/
structure AuthorizeBody where
  userId : CodePoints
  nodeId : CodePoints
  sourceIp : CodePoints
  userAgent : CodePoints := []
  gatewayInstance : CodePoints := []

/-- The checks of `authorize`; `none` is an address that no session has. -/
def decideAddress (now : Instant) (userId nodeId : Id) (sourceIp : Option String) (db : Database) : Verdict :=
  match db.users.find? userId, db.nodes.find? nodeId, db.enabledKey userId nodeId with
  | some user, some node, some _ =>
    if !node.enabled then .routeNotFound
    else if !(userAllowed user now).1 then .notAllowed (userAllowed user now).2
    else if (sourceIp.all (· ∉ db.openIps user.id)) ∧ user.maxIps ≤ (db.openIps user.id).card then
      .ipLimit (db.openIps user.id).card
    else .admitted user node
  | _, _, _ => .routeNotFound

/-- What the policy says of the request. -/
def AuthorizeBody.verdict (now : Instant) (p : AuthorizeBody) (db : Database) : Verdict :=
  match p.userId.string?, p.nodeId.string? with
  | some userId, some nodeId => decideAddress now userId nodeId p.sourceIp.string? db
  | _, _ => .routeNotFound

/-- `authorize` of a received request. Both identifiers go into queries, and the address goes into the
audit row of a denial as it goes into the session: `json.dumps` with `ensure_ascii=False` keeps it as it
is. The other two texts go into the session only, cut to their columns. -/
def receiveAuthorize (cfg : Settings) (now : Instant) (newId : Id) (p : AuthorizeBody) (db : Database) :
    Database × Except HttpError AuthorizeReply :=
  match p.userId.string?, p.nodeId.string?, p.sourceIp.string? with
  | some userId, some nodeId, some sourceIp =>
    let agent := CodePoints.string? (p.userAgent.take 512)
    let gateway := CodePoints.string? (p.gatewayInstance.take 120)
    let result := storeAuthorize cfg now newId
      ⟨userId, nodeId, sourceIp, agent.getD "", gateway.getD ""⟩ db
    if result.2.isOk && (agent.isNone || gateway.isNone) then (db, .error internalError) else result
  | _, _, _ => (db, .error internalError)

/-- The administrator that a received login names. `verify_password` answers `False` when the password
cannot be encoded. -/
def authenticateBody (env : AuthEnv) (username password : CodePoints) (db : AuthDb) : Option Admin :=
  match username.string?, password.string? with
  | some username, some password => authenticate env username password db
  | _, _ => none

/-- `login` of a received request. -/
def receiveLogin (env : AuthEnv) (now : Instant) (username password : CodePoints) (token csrf : String)
    (db : AuthDb) : AuthDb × Except HttpError LoginReply :=
  match username.string?, password.string? with
  | some username, some password => storeLogin env now username password token csrf db
  | some username, none =>
    storeLogin { env with verifyPassword := fun _ _ => false } now username "" token csrf db
  | none, _ => (db, .error internalError)

/-- `GET /sub/{token}` on PostgreSQL: its query has the user of an accepted token as a parameter. -/
def storeSubscription (mac : Mac) (secret : String) (now : Instant) (db : Database)
    (base : PublicEndpoint) (raw : Bool) (token : String) : Except HttpError SubscriptionReply := do
  let verified ← verifySubscription mac secret token
  if verified.any fun (userId, _) => !isParameter userId then .error internalError
  else subscriptionRoute mac secret now db base raw token

/-! ## Edits of a user -/

/-- `int(quota_gb * 1024**3)` of binary64 numbers. -/
def quotaBytes64 (quotaGb : ℚ) : ℕ := ⌊binary64 (quotaGb * 1024 ^ 3)⌋.toNat

/-- `int(speed_mbps * 1_000_000 / 8)` of binary64 numbers: the product is rounded, and so is the
quotient. -/
def speedLimit64 (speedMbps : ℚ) : ℕ := ⌊binary64 (binary64 (speedMbps * 1000000) / 8)⌋.toNat

/-- 1.001 Mbit/s: exact arithmetic gives 125125. -/
example : speedLimit64 (binary64 1.001) = 125124 := by decide +kernel

/-- The body of `PATCH /users/{user_id}` that was accepted. `json.loads` reads `NaN`, and neither
`ge` nor `le` refuses it; a field that holds it is unset in `update`. It reads `"\ud800"` as well: where
a text has such a surrogate, `encodable` is false and `update` has U+FFFD in its place. -/
structure UserBody where
  update : UserUpdate
  quotaIsNan : Bool := false
  speedIsNan : Bool := false
  encodable : Bool := true

theorem toNat_floor_binary64_le {x : ℚ} {n : ℕ} (nonneg : 0 ≤ x) (le : x ≤ n) (small : n < 2 ^ 53) :
    (⌊binary64 x⌋.toNat : ℚ) ≤ n := by
  have rounded : binary64 x ≤ n := binary64_eq (isBinary64_natCast small) ▸ binary64_mono nonneg le
  have floor : ⌊binary64 x⌋ ≤ n := by exact_mod_cast (Int.floor_le _).trans rounded
  exact_mod_cast Int.toNat_le.2 floor

theorem quotaBytes64_le {v : ℚ} (range : 0 ≤ v ∧ v ≤ 1000000) :
    (quotaBytes64 v : ℚ) ≤ 1000000 * 1024 ^ 3 := by
  have le : v * 1024 ^ 3 ≤ (1000000 * 1024 ^ 3 : ℕ) := by
    push_cast
    linarith [range.2]
  exact_mod_cast toNat_floor_binary64_le (mul_nonneg range.1 (by norm_num)) le (by norm_num)

theorem speedLimit64_le {v : ℚ} (range : 0 ≤ v ∧ v ≤ 100000) :
    (speedLimit64 v : ℚ) ≤ 100000 * 1000000 / 8 := by
  have nonneg : 0 ≤ v * 1000000 := mul_nonneg range.1 (by norm_num)
  have product : binary64 (v * 1000000) ≤ (100000 * 1000000 : ℕ) := by
    rw [← binary64_eq (isBinary64_natCast (n := 100000 * 1000000) (by norm_num))]
    refine binary64_mono nonneg ?_
    push_cast
    linarith [range.2]
  have le : binary64 (v * 1000000) / 8 ≤ (12500000000 : ℕ) := by
    push_cast at product ⊢
    linarith
  have rounded := toNat_floor_binary64_le (div_nonneg (binary64_nonneg nonneg) (by norm_num)) le (by norm_num)
  rw [speedLimit64]
  push_cast at rounded
  linarith

namespace Patch

variable {α β : Type} {f : α → β} {q : Patch α} {v : β}

theorem map_eq_set : q.map f = .set v ↔ ∃ u, q = .set u ∧ f u = v := by
  cases q <;> simp [map]

end Patch

/-- The edit that stores with exact arithmetic what the body stores with binary64. -/
def UserBody.converted (body : UserBody) : UserUpdate :=
  { body.update with
    quotaGb := body.update.quotaGb.map fun v => quotaBytes64 v / 1024 ^ 3
    quotaRange := by
      intro v given
      obtain ⟨u, received, rfl⟩ := Patch.map_eq_set.1 given
      have le := quotaBytes64_le (body.update.quotaRange u received)
      exact ⟨by positivity, by rwa [div_le_iff₀ (by norm_num)]⟩
    speedMbps := body.update.speedMbps.map fun v => speedLimit64 v * 8 / 1000000
    speedRange := by
      intro v given
      obtain ⟨u, received, rfl⟩ := Patch.map_eq_set.1 given
      have le := speedLimit64_le (body.update.speedRange u received)
      exact ⟨by positivity, by rw [div_le_iff₀ (by norm_num)]; linarith⟩ }

/-- The conversions of `patchUser` give the numbers of the code back. -/
theorem quotaBytesOf_converted {v : ℚ} : quotaBytesOf (quotaBytes64 v / 1024 ^ 3) = quotaBytes64 v := by
  rw [quotaBytesOf, div_mul_cancel₀ _ (by norm_num), Int.floor_natCast, Int.toNat_natCast]

theorem speedLimitOf_converted {v : ℚ} : speedLimitOf (speedLimit64 v * 8 / 1000000) = speedLimit64 v := by
  rw [speedLimitOf, div_mul_cancel₀ _ (by norm_num), mul_div_cancel_right₀ _ (by norm_num),
    Int.floor_natCast, Int.toNat_natCast]

/-- Nothing was given, or the given value passes. -/
def Patch.all {α : Type} (f : α → Bool) : Patch α → Bool
  | .set v => f v
  | _ => true

theorem Patch.all_iff {α : Type} {f : α → Bool} {q : Patch α} :
    q.all f = true ↔ ∀ v, q = .set v → f v = true := by
  cases q <;> simp [Patch.all]

/-- The texts that an edit of a user assigns are parameters. -/
def UserUpdate.storable (p : UserUpdate) : Bool :=
  p.name.all (fun v => isParameter (stripSpaces v)) && p.note.all (fun v => isParameter (stripSpaces v))

/-- `update_user` on PostgreSQL. `int` of a `NaN` raises, once the user has been found. -/
def storeUpdateUser (cfg : Settings) (site : Site) (admin : String) (around : Surroundings)
    (userId : Id) (body : UserBody) (db : Database) : Option (Database × Except HttpError Reply) :=
  if !isParameter userId then some (db, .error internalError)
  else if (db.users.find? userId).isSome && (body.quotaIsNan || body.speedIsNan) then
    some (db, .error internalError)
  else
    (AdminOp.updateUser userId body.converted).handle cfg site admin
      { around with stored := body.update.storable && body.encodable } db

/-! ## One audit row -/

/-- A transaction that inserts one audit row and no session is accepted with the row. -/
theorem accepts_addAudit {db swept : Database} {event : AuditEvent}
    (events : swept.auditEvents = db.auditEvents)
    (sessions : swept.sessions.rows.length = db.sessions.rows.length) :
    db.accepts (swept.addAudit event) = event.fits := by
  simp [Database.accepts, events, ← sessions]

end Arena.Model
