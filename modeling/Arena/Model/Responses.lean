import Arena.Model.Gateway
import Arena.Model.SubscriptionToken

/-!
# Public URLs and responses

`backend/app/public_url.py`, `serialize_user` and `serialize_node` of
`backend/app/services/accounts.py`, and `_serialize` of `backend/app/routes/users.py`. What
`urllib.parse.urlsplit` makes of a URL is a parameter. The columns `created_at` and
`updated_at` are left out.
-/

namespace Arena.Model

open Arena.Lib

/-! ## Public URLs -/

/-- What `urlsplit` returns; `port` raises when it is no port number. -/
structure SplitUrl where
  scheme : String
  hostname : Option String
  port : Except HttpError (Option ℕ)

/-- `urlsplit`, which may raise. -/
abbrev UrlSplit := String → Except HttpError SplitUrl

/-- `public_endpoint`; a `ValueError` is handled by nobody. -/
def publicEndpoint (urlsplit : UrlSplit) (baseUrl : String) : Except HttpError PublicEndpoint := do
  let parsed ← urlsplit baseUrl
  let host := parsed.hostname.getD ""
  if (parsed.scheme ≠ "http" ∧ parsed.scheme ≠ "https") ∨ host = "" then .error internalError
  else
    let given ← parsed.port
    let defaultPort := if parsed.scheme = "https" then 443 else 80
    let port := if given.getD 0 = 0 then defaultPort else given.getD 0
    let displayHost := if host.toList.contains ':' then "[" ++ host ++ "]" else host
    let authority := if port = defaultPort then displayHost else displayHost ++ ":" ++ toString port
    .ok
      { baseUrl := parsed.scheme ++ "://" ++ authority
        host := host
        authority := authority
        port := port
        security := if parsed.scheme = "https" then .tls else .none }

/-- What the handlers read of a request to find its public URL. -/
structure Request where
  scheme : String := "http"
  netloc : String := "testserver"
  host : Option String := none
  forwardedProto : Option String := none
  forwardedHost : Option String := none

/-- `_first_header`. -/
def firstHeader (value : Option String) : String :=
  stripSpaces (String.ofList ((value.getD "").toList.takeWhile (· ≠ ',')))

/-- The URL that `public_base_url` reads off the headers. -/
def Request.origin (cfg : Settings) (r : Request) : String :=
  let netloc := r.host.getD r.netloc
  if cfg.trustProxyHeaders then
    orText (firstHeader r.forwardedProto) r.scheme ++ "://" ++ orText (firstHeader r.forwardedHost) netloc
  else r.scheme ++ "://" ++ netloc

/-- `public_base_url`. -/
def publicBaseUrl (cfg : Settings) (urlsplit : UrlSplit) (r : Request) : Except HttpError String := do
  let endpoint ← publicEndpoint urlsplit
    (if cfg.publicUrl ≠ "" ∧ cfg.publicUrl.toLower ≠ "auto" then cfg.publicUrl else r.origin cfg)
  .ok endpoint.baseUrl

/-! ## Users and nodes as JSON -/

structure UserData where
  id : Id
  name : String
  note : String
  active : Bool
  allowed : Bool
  statusReason : Reason
  quotaBytes : ℕ
  usedUpBytes : ℕ
  usedDownBytes : ℕ
  usedBytes : ℕ
  validityDays : ℕ
  daysRemaining : Option ℤ
  startsAt : Option Instant
  expiresAt : Option Instant
  maxIps : ℕ
  speedLimitBps : ℕ
  subscriptionUrl : String

/-- `serialize_user`. -/
def serializeUser (now : Instant) (user : User) (publicUrl subscriptionToken : String) : UserData where
  id := user.id
  name := user.name
  note := user.note
  active := user.active
  allowed := (userAllowed user now).1
  statusReason := (userAllowed user now).2
  quotaBytes := user.quotaBytes
  usedUpBytes := user.usedUpBytes
  usedDownBytes := user.usedDownBytes
  usedBytes := user.usedBytes
  validityDays := user.validityDays
  daysRemaining := daysRemaining user now
  startsAt := user.startsAt
  expiresAt := userExpiry user
  maxIps := user.maxIps
  speedLimitBps := user.speedLimitBps
  subscriptionUrl := publicUrl ++ "/sub/" ++ subscriptionToken

structure UserReply extends UserData where
  activeIps : ℕ

/-- The distinct source addresses of the open sessions that are not stale. -/
def activeIps (cfg : Settings) (now : Instant) (db : Database) (userId : Id) : ℕ :=
  let active := (db.openSessions userId).filter fun s =>
    now - seconds cfg.sessionStaleSeconds ≤ s.lastSeenAt
  (active.map ConnectionSession.sourceIp).toFinset.card

/-- What the responses rest on besides the settings. -/
structure Site where
  mac : Mac
  secret : String
  urlsplit : UrlSplit

/-- `_serialize`. -/
def serialize (cfg : Settings) (site : Site) (now : Instant) (r : Request) (db : Database)
    (user : User) : Except HttpError UserReply := do
  let publicUrl ← publicBaseUrl cfg site.urlsplit r
  let token ← signSubscription site.mac site.secret user.id user.subscriptionVersion
  .ok { serializeUser now user publicUrl token with activeIps := activeIps cfg now db user.id }

structure NodeData where
  id : Id
  name : String
  slug : String
  kind : Kind
  protocol : Protocol
  transport : Transport
  host : String
  port : ℕ
  security : Security
  sni : String
  websocketHost : String
  path : String
  fingerprint : Fingerprint
  alpn : List String
  enabled : Bool
  metadata : Json

/-- `serialize_node`. -/
def serializeNode (node : Node) : NodeData where
  id := node.id
  name := node.name
  slug := node.slug
  kind := node.kind
  protocol := node.protocol
  transport := node.transport
  host := node.host
  port := node.port
  security := node.security
  sni := node.sni
  websocketHost := node.websocketHost
  path := node.path
  fingerprint := node.fingerprint
  alpn := ((node.alpn.toList.splitOn ',').map String.ofList).filter (· ≠ "")
  enabled := node.enabled
  metadata := node.metadata

/-! ## Subscription URLs -/

variable {cfg : Settings} {site : Site} {now now' : Instant} {r r' : Request} {db db' : Database}
  {user user' : User} {reply reply' : UserReply}

theorem serialize_url (h : serialize cfg site now r db user = .ok reply) : ∃ base token,
    signSubscription site.mac site.secret user.id user.subscriptionVersion = .ok token ∧
      reply.subscriptionUrl = base ++ "/sub/" ++ token := by
  obtain ⟨base, -, h⟩ := bind_eq_ok.1 h
  obtain ⟨token, signed, h⟩ := bind_eq_ok.1 h
  cases h
  exact ⟨base, token, signed, rfl⟩

/-- The numeral of a version tells the version. -/
theorem writeInt_inj {v w : ℤ} {text : String} (hv : writeInt v = some text) (hw : writeInt w = some text) :
    v = w :=
  Option.some.inj ((readInt_of_writeInt hv).symm.trans (readInt_of_writeInt hw))

/-- **A subscription URL tells the version**, whatever the public URLs are. -/
theorem subscriptionUrl_version (h : serialize cfg site now r db user = .ok reply)
    (h' : serialize cfg site now' r' db' user' = .ok reply')
    (same : reply.subscriptionUrl = reply'.subscriptionUrl) :
    user.subscriptionVersion = user'.subscriptionVersion := by
  obtain ⟨base, token, signed, url⟩ := serialize_url h
  obtain ⟨base', token', signed', url'⟩ := serialize_url h'
  obtain ⟨text, written, rfl⟩ := signSubscription_eq_ok.1 signed
  obtain ⟨text', written', rfl⟩ := signSubscription_eq_ok.1 signed'
  -- both URLs, cut at their last two dots
  have parts : ∀ (base i numeral payload : String), '.' ∉ numeral.toList →
      splitToken (base ++ "/sub/" ++ (i ++ "." ++ numeral ++ "." ++ signature site.mac site.secret payload)) =
        some (base ++ "/sub/" ++ i, numeral, signature site.mac site.secret payload) := by
    intro base i numeral payload clean
    exact splitToken_eq_some_iff.2 ⟨by simp only [String.append_assoc], clean, signature_clean⟩
  have cut := parts base user.id text (user.id ++ "." ++ text) (writeInt_clean written)
  rw [← url, same, url', parts base' user'.id text' _ (writeInt_clean written')] at cut
  simp only [Option.some.injEq, Prod.mk.injEq] at cut
  obtain ⟨-, rfl, -⟩ := cut
  exact_mod_cast writeInt_inj written written'

end Arena.Model
