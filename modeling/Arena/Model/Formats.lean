import Arena.Model.Files
import Arena.Model.Links
import Arena.Model.Responses

/-!
# Formats of a user's access

The routes of `backend/app/routes/users.py` that show a user's keys: `user_detail`,
`user_formats` and `download_profile`, with `hiddify_deep_link` and `cisco_credentials` of
`backend/app/services/profiles.py`. As in a subscription, a request's public URL is taken as what
`public_endpoint` makes of it.
-/

namespace Arena.Model

open Arena.Lib

/-! ## Details -/

/-- A key as `user_detail` shows it. -/
structure KeyData where
  id : Id
  nodeId : Id
  nodeName : String
  protocol : Protocol
  enabled : Bool

structure UserDetail extends UserReply where
  keys : List KeyData

/-- `GET /api/users/{user_id}`. -/
def userDetail (cfg : Settings) (site : Site) (now : Instant) (r : Request) (db : Database)
    (userId : Id) : Except HttpError UserDetail := do
  let user ← getUser db userId
  let data ← serialize cfg site now r db user
  .ok { data with
    keys := (db.keysOf user.id).map fun (key, node) =>
      { id := key.id, nodeId := key.nodeId, nodeName := node.name, protocol := node.protocol,
        enabled := key.enabled } }

/-! ## Formats -/

/-- `hiddify_deep_link`. -/
def hiddifyDeepLink (subscriptionUrl userName : String) : String :=
  "hiddify://import/" ++ quote subscriptionUrl ++ "#" ++ quote ("ARENA - " ++ userName)

/-- A file that `user_formats` offers. -/
structure Download where
  nodeId : Id
  nodeName : String
  protocol : Protocol
  url : String

structure FormatsReply where
  subscriptionUrl : String
  hiddifyUrl : String
  directLinks : List String
  downloads : List Download

/-- `protocol in {"wireguard", "cisco"}`. -/
def Protocol.hasFile : Protocol → Bool
  | .wireguard | .cisco => true
  | .vless | .vmess => false

/-- The dictionary that `user_formats` returns. -/
def formatsReply (base : PublicEndpoint) (user : User) (keys : List (AccessKey × Node)) (token : String)
    (links : List (AccessKey × String)) : FormatsReply where
  subscriptionUrl := base.baseUrl ++ "/sub/" ++ token
  hiddifyUrl := hiddifyDeepLink (base.baseUrl ++ "/sub/" ++ token) user.name
  directLinks := links.map Prod.snd
  downloads := (keys.filter fun (_, node) => node.protocol.hasFile).map fun (key, node) =>
    { nodeId := key.nodeId
      nodeName := node.name
      protocol := node.protocol
      url := base.baseUrl ++ "/api/users/" ++ user.id ++ "/profiles/" ++ key.nodeId }

/-- `GET /api/users/{user_id}/formats`. -/
def userFormats (mac : Mac) (secret : String) (base : PublicEndpoint) (db : Database) (userId : Id) :
    Except HttpError FormatsReply := do
  let user ← getUser db userId
  let token ← signSubscription mac secret user.id user.subscriptionVersion
  let keys := db.keysOf user.id
  let links ← proxyLinks user (some base) keys
  .ok (formatsReply base user keys token links)

/-! ## Files -/

structure CiscoCredentials where
  server : String
  username : String
  password : String

/-- `cisco_credentials`. -/
def ciscoCredentials (node : Node) (key : AccessKey) : CiscoCredentials where
  server := "https://" ++ node.host ++ ":" ++ toString node.port
  username := (key.secretPayload.lookup "username").getD key.credential
  password := (key.secretPayload.lookup "password").getD ""

/-- What `download_profile` answers: a text with the name of its file, or a JSON object. -/
inductive ProfileReply where
  | file (text contentDisposition : String)
  | json (credentials : CiscoCredentials) (profileXml : String)

/-- `GET /api/users/{user_id}/profiles/{node_id}`. -/
def downloadProfile (format : Json → String) (db : Database) (userId nodeId : Id) :
    Except HttpError ProfileReply := do
  let user ← getUser db userId
  match (db.keysOf userId).find? fun (key, _) => key.nodeId = nodeId with
  | none => .error (notFound "پروفایل پیدا نشد")
  | some (key, node) => match node.protocol with
    | .wireguard => do
      let text ← wireguardProfile format user node key
      .ok (.file text
        ("attachment; filename=\"arena-" ++ String.ofList (user.id.toList.take 8) ++ ".conf\""))
    | .cisco => do
      let xml ← ciscoProfileXml format user node key
      .ok (.json (ciscoCredentials node key) xml)
    | _ => .error ⟨400, "این نود فایل جداگانه ندارد"⟩

/-! ## What is served -/

variable {mac : Mac} {secret : String} {base : PublicEndpoint} {db : Database} {uid : Id} {user : User}
  {reply : FormatsReply}

/-- What `user_formats` answers. -/
theorem userFormats_eq_ok : userFormats mac secret base db uid = .ok reply ↔
    ∃ user token links, db.users.find? uid = some user ∧
      signSubscription mac secret user.id user.subscriptionVersion = .ok token ∧
      proxyLinks user (some base) (db.keysOf user.id) = .ok links ∧
      formatsReply base user (db.keysOf user.id) token links = reply := by
  simp only [userFormats, bind_eq_ok, getUser_eq_ok, Except.ok.injEq]
  constructor
  · rintro ⟨user, found, token, signed, links, rendered, same⟩
    exact ⟨user, token, links, found, signed, rendered, same⟩
  · rintro ⟨user, token, links, found, signed, rendered, same⟩
    exact ⟨user, found, token, signed, links, rendered, same⟩

theorem map_withNode {keys : List AccessKey} (stored : keys ⊆ db.accessKeys.rows) :
    (keys.filterMap db.withNode).map (fun pair => pair.1.id) = keys.map AccessKey.id := by
  induction keys with
  | nil => rfl
  | cons key keys ih =>
    obtain ⟨mem, stored⟩ := List.cons_subset.1 stored
    obtain ⟨node, named⟩ := Option.isSome_iff_exists.1 (db.keyNode key mem)
    simp [Database.withNode, named, ← ih stored]

/-- Every key of the user is shown: the node of each exists. -/
theorem userDetail_keys {cfg : Settings} {site : Site} {now : Instant} {r : Request} {detail : UserDetail}
    (shown : userDetail cfg site now r db uid = .ok detail) :
    detail.keys.map KeyData.id =
      (db.accessKeys.rows.filter fun key => key.userId = uid).map AccessKey.id := by
  simp only [userDetail, bind_eq_ok, getUser_eq_ok, Except.ok.injEq] at shown
  obtain ⟨user, found, data, -, rfl⟩ := shown
  rw [Table.find?_key found, ← map_withNode (List.filter_subset_self _)]
  simp [Database.keysOf, Function.comp_def]

/-- The query of `download_profile` finds the key that `user_formats` shows: a user has one at a node. -/
theorem find?_keysOf {key : AccessKey} {node : Node} (mem : (key, node) ∈ db.keysOf uid) :
    (db.keysOf uid).find? (fun pair => pair.1.nodeId = key.nodeId) = some (key, node) := by
  obtain ⟨⟨key', node'⟩, found⟩ := Option.isSome_iff_exists.1
    (List.find?_isSome (p := fun pair => decide (pair.1.nodeId = key.nodeId)).2 ⟨_, mem, by simp⟩)
  have there : key'.nodeId = key.nodeId := by simpa using List.find?_some found
  obtain ⟨hkey, owner, named⟩ := mem_keysOf.1 mem
  obtain ⟨hkey', owner', named'⟩ := mem_keysOf.1 (List.mem_of_find?_eq_some found)
  have same : key' = key :=
    List.inj_on_of_nodup_map db.keyPairs hkey' hkey (by rw [owner, owner', there])
  subst same
  rw [named'] at named
  rw [found, Option.some.inj named]

theorem Json.get?_error {metadata : Json} {name : String} :
    ∀ e, metadata.get? name = .error e → e = internalError := by
  intro e h
  cases metadata <;> simp_all [Json.get?]

theorem Json.getOr_error {metadata default : Json} {name : String} :
    ∀ e, metadata.getOr name default = .error e → e = internalError :=
  bind_error_of Json.get?_error fun _ _ _ done => nomatch done

/-- Where a file cannot be rendered, the request fails. -/
theorem wireguardProfile_error {format : Json → String} {node : Node} {key : AccessKey} :
    ∀ e, wireguardProfile format user node key = .error e → e = internalError := by
  intro e h
  unfold wireguardProfile at h
  split at h
  · exact (Except.error.inj h).symm
  · refine bind_error_of Json.get?_error (fun serverKey _ e h => ?_) e h
    split at h
    · exact (Except.error.inj h).symm
    · split at h
      · exact (Except.error.inj h).symm
      · refine bind_error_of Json.getOr_error (fun _ _ => bind_error_of Json.get?_error fun _ _ =>
          bind_error_of Json.getOr_error fun _ _ => bind_error_of Json.getOr_error
            fun _ _ e done => ?_) e h
        simp at done

theorem ciscoProfileXml_error {format : Json → String} {node : Node} {key : AccessKey} :
    ∀ e, ciscoProfileXml format user node key = .error e → e = internalError :=
  bind_error_of Json.getOr_error fun _ _ _ done => nomatch done

/-- `user_formats` offers the files that `download_profile` has: it neither misses one nor
refuses one, though rendering it may fail. -/
theorem offered_iff {format : Json → String} (formats : userFormats mac secret base db uid = .ok reply)
    (nodeId : Id) :
    (∃ d ∈ reply.downloads, d.nodeId = nodeId) ↔
      ∀ e, downloadProfile format db uid nodeId = .error e → e = internalError := by
  obtain ⟨user, token, links, found, -, -, rfl⟩ := userFormats_eq_ok.1 formats
  have asked : getUser db uid = .ok user := getUser_eq_ok.2 found
  rw [Table.find?_key found]
  have shown : (∃ d ∈ (formatsReply base user (db.keysOf uid) token links).downloads, d.nodeId = nodeId) ↔
      ∃ key node, (key, node) ∈ db.keysOf uid ∧ node.protocol.hasFile ∧ key.nodeId = nodeId := by
    simp [formatsReply, and_assoc]
  rw [shown]
  constructor
  · rintro ⟨key, node, mem, file, rfl⟩ e h
    simp only [downloadProfile, asked, find?_keysOf mem, bind, Except.bind] at h
    cases protocol : node.protocol with
    | wireguard =>
      rw [protocol] at h
      exact bind_error_of wireguardProfile_error (fun _ _ _ done => by simp at done) e h
    | cisco =>
      rw [protocol] at h
      exact bind_error_of ciscoProfileXml_error (fun _ _ _ done => by simp at done) e h
    | _ => simp [protocol, Protocol.hasFile] at file
  · intro served
    simp only [downloadProfile, asked, bind, Except.bind] at served
    split at served
    · exact absurd (served _ rfl) (by decide +kernel)
    · rename_i key node held
      refine ⟨key, node, List.mem_of_find?_eq_some held, ?_, by simpa using List.find?_some held⟩
      cases protocol : node.protocol with
      | wireguard | cisco => rfl
      | _ =>
        rw [protocol] at served
        exact absurd (served _ rfl) (by decide +kernel)

end Arena.Model
