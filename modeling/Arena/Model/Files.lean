import Arena.Model.Profiles

/-!
# Files for external backends

`wireguard_profile` and `cisco_profile_xml` of `backend/app/services/profiles.py`, and the
address that `_wireguard_payload` of `backend/app/services/accounts.py` takes from the node's
pool.

`format` is what an f-string makes of a decoded JSON value, `ipNetwork` what
`ipaddress.ip_network(.., strict=False)` makes of one, or the error it raises.
-/

namespace Arena.Model

/-- `metadata.get(key, default)`. -/
def Json.getOr (metadata : Json) (key : String) (default : Json) : Except HttpError Json := do
  let value ← metadata.get? key
  .ok (value.getD default)

/-- `secret.get(key)` is a text and not empty. -/
def AccessKey.hasSecret (key : AccessKey) (name : String) : Bool :=
  (key.secretPayload.lookup name).getD "" ≠ ""

/-- `wireguard_profile`. -/
def wireguardProfile (format : Json → String) (user : User) (node : Node) (key : AccessKey) :
    Except HttpError String :=
  if !key.hasSecret "private_key" then .error internalError
  else do
    let serverKey ← node.metadata.get? "server_public_key"
    if !(serverKey.any Json.truthy) then .error internalError
    else match key.secretPayload.lookup "address" with
      | none => .error internalError
      | some address => do
        let dns ← node.metadata.getOr "dns" (.str "1.1.1.1")
        let presharedKey ← node.metadata.get? "preshared_key"
        let allowedIps ← node.metadata.getOr "allowed_ips" (.str "0.0.0.0/0, ::/0")
        let keepalive ← node.metadata.getOr "persistent_keepalive" (.num 25)
        let shared := if presharedKey.any Json.truthy then
          ["PresharedKey = " ++ format (presharedKey.getD .null)] else []
        let lines := ["[Interface]",
          "PrivateKey = " ++ (key.secretPayload.lookup "private_key").getD "",
          "Address = " ++ address, "DNS = " ++ format dns, "", "[Peer]",
          "PublicKey = " ++ format (serverKey.getD .null)] ++ shared ++
          ["AllowedIPs = " ++ format allowedIps,
            "Endpoint = " ++ node.host ++ ":" ++ toString node.port,
            "PersistentKeepalive = " ++ format keepalive, "", "# ARENA user: " ++ user.name]
        .ok ("\n".intercalate lines ++ "\n")

/-- `cisco_profile_xml`. -/
def ciscoProfileXml (format : Json → String) (user : User) (node : Node) (key : AccessKey) :
    Except HttpError String := do
  let group ← node.metadata.getOr "group" (.str "ARENA")
  .ok ("<?xml version=\"1.0\" encoding=\"UTF-8\"?>\n" ++
    "<AnyConnectProfile xmlns=\"http://schemas.xmlsoap.org/encoding/\">\n" ++
    "  <ClientInitialization><UseStartBeforeLogon UserControllable=\"true\">false" ++
    "</UseStartBeforeLogon></ClientInitialization>\n" ++
    "  <ServerList><HostEntry><HostName>ARENA - " ++ user.name ++ "</HostName><HostAddress>" ++
    node.host ++ "</HostAddress><UserGroup>" ++ format group ++
    "</UserGroup></HostEntry></ServerList>\n" ++
    "  <!-- Username: " ++ (key.secretPayload.lookup "username").getD key.credential ++ " -->\n" ++
    "</AnyConnectProfile>\n")

/-- The host addresses of a network as text, in order, and its prefix length. -/
structure IpNetwork where
  hosts : List String
  prefixlen : ℕ

/-- `used_addresses`: the addresses in the node's access keys, without their prefix length. -/
def usedAddresses (db : Database) (node : Node) : List String :=
  ((db.accessKeys.rows.filter (·.nodeId = node.id)).filter (·.hasSecret "address")).map fun key =>
    String.ofList
      ((((key.secretPayload.lookup "address").getD "").toList.splitOn '/').headD [])

/-- The address of `_wireguard_payload`. -/
def wireguardAddress (ipNetwork : Json → Except HttpError IpNetwork) (db : Database) (node : Node) :
    Except HttpError String := do
  let cidr ← node.metadata.getOr "client_cidr" (.str "10.66.0.0/24")
  let network ← ipNetwork cidr
  match (network.hosts.drop 1).find? (· ∉ usedAddresses db node) with
  | none => .error internalError
  | some candidate => .ok (candidate ++ "/" ++ toString network.prefixlen)

end Arena.Model
