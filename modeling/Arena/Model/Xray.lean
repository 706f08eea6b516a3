import Mathlib.Data.List.Dedup
import Arena.Model.Accounts

/-!
# The desired Xray configuration

The pure part of `backend/app/xray.py`: which clients the access keys ask for, and the
configuration that holds them.
-/

namespace Arena.Model

structure XrayClient where
  protocol : Protocol
  credential : String
  deriving DecidableEq

namespace XrayClient

/-- `inbound_tag`. -/
def inboundTag (c : XrayClient) : String := "arena-" ++ c.protocol.text ++ "-ws"

def email (c : XrayClient) : String := c.credential ++ "@" ++ c.protocol.text ++ ".arena"

def payload (c : XrayClient) : Json :=
  .obj [("id", .str c.credential), ("email", .str c.email), ("level", .num 0)]

end XrayClient

/-- An access key as `_load_keys` loads it, with its user and its node. -/
structure LoadedKey where
  key : AccessKey
  user : User
  node : Node

/-- `_load_keys`. The foreign keys make both lookups succeed. -/
def Database.loadKeys (db : Database) : List LoadedKey :=
  db.accessKeys.rows.filterMap fun key =>
    match db.users.find? key.userId, db.nodes.find? key.nodeId with
    | some user, some node => some ⟨key, user, node⟩
    | _, _ => none

/-- The client of a key. -/
def clientOf (k : LoadedKey) : XrayClient := ⟨k.node.protocol, k.key.credential⟩

/-- The client of one key, unless `_clients_from_keys` skips it. -/
def LoadedKey.client (now : Instant) (k : LoadedKey) : Option XrayClient :=
  if !k.node.protocol.isProxy || !k.key.enabled || !k.node.enabled || !(userAllowed k.user now).1 then
    none
  else some ⟨k.node.protocol, k.key.credential⟩

/-- `_clients_from_keys`: a dictionary by protocol and credential, in insertion order. -/
def clientsFromKeys (now : Instant) (keys : List LoadedKey) : List XrayClient :=
  (keys.filterMap (LoadedKey.client now)).eraseDups

structure Inbound where
  tag : String
  listen : String
  port : ℕ
  protocol : Protocol
  clients : List XrayClient
  path : String

/-- The function `inbound` of `_build_config`. -/
def inbound (cfg : Settings) (clients : List XrayClient) (protocol : Protocol) (port : ℕ) :
    Inbound where
  tag := "arena-" ++ protocol.text ++ "-ws"
  listen := cfg.xrayListenHost
  port := port
  protocol := protocol
  clients := clients.filter (·.protocol = protocol)
  path := "/internal/" ++ protocol.text

/-- The proxy inbounds of `_build_config`. -/
def proxyInbounds (cfg : Settings) (clients : List XrayClient) : List Inbound :=
  [inbound cfg clients .vless 11000, inbound cfg clients .vmess 11001]

/-- An inbound as the configuration file has it. -/
def Inbound.json (i : Inbound) : Json :=
  .obj [("tag", .str i.tag), ("listen", .str i.listen), ("port", .num i.port),
    ("protocol", .str i.protocol.text),
    ("settings", .obj (("clients", .arr (i.clients.map XrayClient.payload)) ::
      if i.protocol = .vless then [("decryption", .str "none")] else [])),
    ("streamSettings", .obj [("network", .str "ws"), ("security", .str "none"),
      ("wsSettings", .obj [("path", .str i.path), ("acceptProxyProtocol", .bool false)])]),
    ("sniffing", .obj [("enabled", .bool true),
      ("destOverride", .arr [.str "http", .str "tls", .str "quic"]), ("routeOnly", .bool true)])]

/-- The inbound of Xray's own API. -/
def apiInbound (cfg : Settings) : Json :=
  .obj [("tag", .str "api"), ("listen", .str cfg.xrayApiHost), ("port", .num cfg.xrayApiPort),
    ("protocol", .str "dokodemo-door"), ("settings", .obj [("address", .str cfg.xrayApiHost)])]

/-- `_build_config`. -/
def buildConfig (cfg : Settings) (clients : List XrayClient) : Json :=
  .obj [("log", .obj [("loglevel", .str "warning")]),
    ("api", .obj [("tag", .str "api"), ("services", .arr [.str "HandlerService", .str "StatsService"])]),
    ("policy", .obj
      [("levels", .obj [("0", .obj [("statsUserUplink", .bool true), ("statsUserDownlink", .bool true)])]),
        ("system", .obj [("statsInboundUplink", .bool true), ("statsInboundDownlink", .bool true)])]),
    ("stats", .obj []),
    ("inbounds", .arr (apiInbound cfg :: (proxyInbounds cfg clients).map Inbound.json)),
    ("outbounds", .arr
      [.obj [("tag", .str "direct"), ("protocol", .str "freedom"),
          ("settings", .obj [("domainStrategy", .str "UseIPv4")])],
        .obj [("tag", .str "blocked"), ("protocol", .str "blackhole")]]),
    ("routing", .obj [("domainStrategy", .str "AsIs"),
      ("rules", .arr [.obj [("type", .str "field"), ("inboundTag", .arr [.str "api"]),
        ("outboundTag", .str "api")]])])]

/-- The key, its node and its user are all in good standing: what the checks ask for. -/
structure LoadedKey.Admissible (now : Instant) (k : LoadedKey) : Prop where
  node : k.node.enabled
  key : k.key.enabled
  user : (userAllowed k.user now).1

theorem client_eq_some_iff {now : Instant} {k : LoadedKey} {c : XrayClient} :
    k.client now = some c ↔ k.node.protocol.isProxy ∧ k.Admissible now ∧
      c = ⟨k.node.protocol, k.key.credential⟩ := by
  unfold LoadedKey.client
  constructor
  · intro h
    split at h
    · cases h
    · rename_i passed
      simp only [Bool.or_eq_true, Bool.not_eq_true', not_or, Bool.not_eq_false] at passed
      obtain ⟨⟨⟨proxy, key⟩, node⟩, user⟩ := passed
      exact ⟨proxy, ⟨node, key, user⟩, (Option.some.inj h).symm⟩
  · rintro ⟨proxy, ⟨node, key, user⟩, rfl⟩
    simp [proxy, node, key, user]

/-- **The desired set**: the clients of the admissible keys on proxy nodes. -/
theorem mem_clientsFromKeys {now : Instant} {keys : List LoadedKey} {c : XrayClient} :
    c ∈ clientsFromKeys now keys ↔ ∃ k ∈ keys, k.node.protocol.isProxy ∧ k.Admissible now ∧
      c = ⟨k.node.protocol, k.key.credential⟩ := by
  simp only [clientsFromKeys, List.mem_eraseDups, List.mem_filterMap, client_eq_some_iff]

/-- What `_load_keys` returns: a stored key with the rows its foreign keys name. -/
theorem mem_loadKeys {db : Database} {k : LoadedKey} :
    k ∈ db.loadKeys ↔ k.key ∈ db.accessKeys.rows ∧ db.users.find? k.key.userId = some k.user ∧
      db.nodes.find? k.key.nodeId = some k.node := by
  simp only [Database.loadKeys, List.mem_filterMap]
  constructor
  · rintro ⟨key, hkey, h⟩
    split at h
    · cases h
      exact ⟨hkey, ‹_›, ‹_›⟩
    · cases h
  · rintro ⟨hkey, user, node⟩
    exact ⟨k.key, hkey, by simp [user, node]⟩

end Arena.Model
