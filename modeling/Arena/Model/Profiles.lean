import Arena.Lib.Binary64
import Arena.Lib.Encoding
import Arena.Model.Admin

/-!
# Links and subscriptions

`backend/app/services/profiles.py` and the route `GET /sub/{token}`.

A request's public URL is taken as what `public_endpoint` makes of it, a `PublicEndpoint`;
the endpoint of a node is `none` for it where the node has a fixed one.
-/

namespace Arena.Model

open Arena.Lib

structure PublicEndpoint where
  baseUrl : String
  host : String
  authority : String
  port : ℕ
  security : Security

structure ProxyEndpoint where
  host : String
  port : ℕ
  security : Security
  sni : String
  websocketHost : String

/-- `json.loads(...).get(key)`: defined on objects only. -/
def Json.get? (key : String) : Json → Except HttpError (Option Json)
  | .obj members => .ok (members.lookup key)
  | _ => .error internalError

/-- Python truth of a decoded JSON value. -/
def Json.truthy : Json → Bool
  | .null => false
  | .bool b => b
  | .num n => n ≠ 0
  | .str s => s ≠ ""
  | .arr items => !items.isEmpty
  | .obj members => !members.isEmpty

/-- `metadata.get("adaptive_endpoint", False)` as a truth value. -/
def Node.adaptiveFlag (node : Node) : Except HttpError Bool := do
  let flag ← node.metadata.get? "adaptive_endpoint"
  .ok ((flag.map Json.truthy).getD false)

/-- `public_ws_path`. -/
def publicWsPath (node : Node) (user : User) : String :=
  String.ofList (rstrip (· == '/') node.path.toList) ++ "/" ++ node.id ++ "/" ++ user.id

/-- `a or b` on texts. -/
def orText (a b : String) : String := if a = "" then b else a

/-- The endpoint of a node that is not adaptive. -/
def Node.fixedEndpoint (node : Node) : ProxyEndpoint where
  host := node.host
  port := node.port
  security := node.security
  sni := orText node.sni node.host
  websocketHost := orText node.websocketHost (orText node.sni node.host)

/-- The endpoint of an adaptive node. -/
def PublicEndpoint.proxyEndpoint (origin : PublicEndpoint) : ProxyEndpoint where
  host := origin.host
  port := origin.port
  security := origin.security
  sni := if origin.security = .tls then origin.host else ""
  websocketHost := origin.authority

/-- `_proxy_endpoint`. -/
def proxyEndpoint (node : Node) (base : Option PublicEndpoint) : Except HttpError ProxyEndpoint := do
  let flag ← node.adaptiveFlag
  let origin := if flag || node.host.toLower = "auto" then base else none
  .ok ((origin.map PublicEndpoint.proxyEndpoint).getD node.fixedEndpoint)

/-- The name that a link shows. -/
def linkName (user : User) (node : Node) : String := "ARENA - " ++ user.name ++ " - " ++ node.name

/-- `vless_uri`. -/
def vlessUri (user : User) (node : Node) (key : AccessKey) (base : Option PublicEndpoint) :
    Except HttpError String := do
  let endpoint ← proxyEndpoint node base
  let sni := if endpoint.security = .tls then [("sni", endpoint.sni)] else []
  let params := [("encryption", "none"), ("security", endpoint.security.text), ("type", "ws"),
    ("host", endpoint.websocketHost), ("path", publicWsPath node user),
    ("fp", node.fingerprint.text), ("alpn", node.alpn)] ++ sni
  let uriHost :=
    if endpoint.host.toList.contains ':' && endpoint.host.toList.head? != some '[' then
      "[" ++ endpoint.host ++ "]"
    else endpoint.host
  .ok ("vless://" ++ key.credential ++ "@" ++ uriHost ++ ":" ++ toString endpoint.port ++ "?" ++
    urlencode params ++ "#" ++ quote (linkName user node))

/-- `vmess_uri`. -/
def vmessUri (user : User) (node : Node) (key : AccessKey) (base : Option PublicEndpoint) :
    Except HttpError String := do
  let endpoint ← proxyEndpoint node base
  let payload := [("v", "2"), ("ps", linkName user node), ("add", endpoint.host),
    ("port", toString endpoint.port), ("id", key.credential), ("aid", "0"), ("scy", "auto"),
    ("net", "ws"), ("type", "none"), ("host", endpoint.websocketHost),
    ("path", publicWsPath node user), ("tls", if endpoint.security = .tls then "tls" else ""),
    ("sni", endpoint.sni), ("alpn", node.alpn), ("fp", node.fingerprint.text)]
  .ok ("vmess://" ++ b64urlUnpadded (utf8 (jsonObject payload)))

/-- `proxy_uri`. -/
def proxyUri (user : User) (node : Node) (key : AccessKey) (base : Option PublicEndpoint) :
    Except HttpError (Option String) :=
  if !node.enabled || !key.enabled then .ok none
  else match node.protocol with
    | .vless => (vlessUri user node key base).map some
    | .vmess => (vmessUri user node key base).map some
    | _ => .ok none

/-- `f"{value / 1024**3:.1f}"`, over exact arithmetic: tenths, rounded half to even. -/
def tenthsOfGb (value : ℕ) : ℕ :=
  let tenths := value * 10 / 2 ^ 30
  let rest := value * 10 % 2 ^ 30
  if rest * 2 < 2 ^ 30 ∨ (rest * 2 = 2 ^ 30 ∧ tenths % 2 = 0) then tenths else tenths + 1

/-- `human_bytes`. -/
def humanBytes (value : ℕ) : String :=
  if value = 0 then "unlimited"
  else
    let text := toString (tenthsOfGb value / 10) ++ "." ++ toString (tenthsOfGb value % 10)
    String.ofList (rstrip (· == '.') (rstrip (· == '0') text.toList)) ++ " GB"

/-- `INFO_UUID`. -/
def infoUuid : String := "00000000-0000-4000-8000-000000000000"

/-- `info_profile`. -/
def infoProfile (now : Instant) (user : User) : String :=
  let days := match daysRemaining user now with
    | none => "unlimited"
    | some days => toString days ++ " days"
  let label := quote ("ARENA | " ++ humanBytes user.usedBytes ++ "/" ++ humanBytes user.quotaBytes ++
    " | " ++ days)
  "vless://" ++ infoUuid ++ "@127.0.0.1:1?encryption=none&security=none&type=tcp#" ++ label

/-- The keys of a list that have a link, each with its link. -/
def proxyLinks (user : User) (base : Option PublicEndpoint) :
    List (AccessKey × Node) → Except HttpError (List (AccessKey × String))
  | [] => .ok []
  | (key, node) :: keys => do
    let uri ← proxyUri user node key base
    let rest ← proxyLinks user base keys
    .ok ((uri.toList.map fun uri => (key, uri)) ++ rest)

/-- `subscription_document`. -/
def subscriptionDocument (now : Instant) (user : User) (keys : List (AccessKey × Node))
    (base : Option PublicEndpoint) : Except HttpError String := do
  let links ← proxyLinks user base keys
  .ok ("\n".intercalate (infoProfile now user :: links.map Prod.snd) ++ "\n")

/-- An access key with the node that its foreign key names. -/
def Database.withNode (db : Database) (key : AccessKey) : Option (AccessKey × Node) :=
  (db.nodes.find? key.nodeId).map fun node => (key, node)

/-- The user's access keys, with their nodes. -/
def Database.keysOf (db : Database) (user : Id) : List (AccessKey × Node) :=
  (db.accessKeys.rows.filter fun key => key.userId = user).filterMap db.withNode

/-- The keys that the subscription renders: all of an allowed user's, none of a denied one's. -/
def servedKeys (now : Instant) (db : Database) (user : User) : List (AccessKey × Node) :=
  if (userAllowed user now).1 then db.keysOf user.id else []

structure SubscriptionReply where
  body : String
  headers : List (String × String)

/-- `int(expiry.timestamp())`, or 0. The timestamp is the quotient of two integers, rounded to
binary64. -/
def expiryEpoch (user : User) : ℤ :=
  ((userExpiry user).map fun e : Instant => truncate (binary64 ((e : ℚ) / 1000000))).getD 0

/-- `GET /sub/{token}` for a token whose signature was accepted. -/
def subscription (now : Instant) (db : Database) (base : PublicEndpoint) (raw : Bool) (userId : Id)
    (version : ℤ) : Except HttpError SubscriptionReply :=
  match (db.users.find? userId).filter fun u => u.subscriptionVersion = version with
  | none => .error ⟨404, "سابسکریپشن معتبر نیست"⟩
  | some user => do
    let document ← subscriptionDocument now user (servedKeys now db user) (some base)
    .ok
      { body := if raw then document else b64encode (utf8 document)
        headers :=
          [("Profile-Title", "base64:" ++ b64encode (utf8 ("ARENA - " ++ user.name))),
            ("Profile-Update-Interval", "6"),
            ("Subscription-Userinfo", "upload=" ++ toString user.usedUpBytes ++ "; download=" ++
              toString user.usedDownBytes ++ "; total=" ++ toString user.quotaBytes ++ "; expire=" ++
              toString (expiryEpoch user)),
            ("Content-Disposition", "attachment; filename=\"arena-" ++
              String.ofList (user.id.toList.take 8) ++ ".txt\""),
            ("Cache-Control", "no-store"), ("X-Content-Type-Options", "nosniff")] }

end Arena.Model
