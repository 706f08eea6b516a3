import Arena.Model.Client
import Arena.Model.Admission
import Arena.Model.Plane
import Arena.Routing
import Arena.Subscriptions
import Arena.Userinfo

/-!
# From the panel to the proxy

What an administrator hands to a user, followed through every component: the deep link gives the
client a subscription URL, its token stands for the user in every later state, and each link of an
allowed user is routed, admitted and known to Xray. No other proxy node admits the user.
-/

namespace Arena.Journey

open Arena.Lib Arena.Model Arena.Routing Arena.Subscriptions

variable {mac : Mac} {secret : String} {base base' : PublicEndpoint} {db db' : Database} {uid : Id}
  {user : User} {now : Instant} {reply : FormatsReply} {token : String} {raw : Bool} {cfg : Settings}
  {key : AccessKey} {node : Node} {ingress : String → Prop} {tables : UnicodeTables} {url : String}

/-! ## The subscription -/

/-- **A token stands for one user and version**, in every state. -/
theorem subscriptionRoute_signed {version : ℤ}
    (signed : signSubscription mac secret uid version = .ok token) :
    subscriptionRoute mac secret now db base raw token = subscription now db base raw uid version := by
  obtain ⟨text, written, rfl⟩ := signSubscription_eq_ok.1 signed
  have verified : verifySubscription mac secret
      (uid ++ "." ++ text ++ "." ++ signature mac secret (uid ++ "." ++ text)) = .ok (some (uid, version)) :=
    verifySubscription_eq_some.2
      ⟨text, text, writeInt_clean written, readInt_of_writeInt written, written, rfl⟩
  rw [subscriptionRoute, verified]
  rfl

/-- The lines of a subscription's document. -/
def documentOf (now : Instant) (user : User) (links : List String) : String :=
  "\n".intercalate (infoProfile now user :: links) ++ "\n"

theorem subscription_of_links {links : List (AccessKey × String)}
    (found : db.users.find? uid = some user)
    (rendered : proxyLinks user (some base) (db.keysOf user.id) = .ok links) :
    ∃ answer, subscription now db base false uid user.subscriptionVersion = .ok answer ∧
      answer.document false =
        some (documentOf now user (if (userAllowed user now).1 then links.map Prod.snd else [])) := by
  have served : subscriptionDocument now user (servedKeys now db user) (some base) =
      .ok (documentOf now user (if (userAllowed user now).1 then links.map Prod.snd else [])) := by
    unfold servedKeys
    split
    · exact bind_eq_ok.2 ⟨links, rendered, rfl⟩
    · rfl
  unfold subscription
  rw [found]
  simp only [Option.filter_some, decide_true, if_true, served, bind, Except.bind]
  refine ⟨_, rfl, ?_⟩
  simp [SubscriptionReply.document, b64decode_b64encode]

/-- **The deep link imports the user's subscription.** -/
theorem deep_link_imports (mac : Mac) (secret : String) (base : PublicEndpoint) (db : Database) (uid : Id)
    (reply : FormatsReply) (plain : PlainId uid) (formats : userFormats mac secret base db uid = .ok reply) :
    ∃ user token, db.users.find? uid = some user ∧
      readDeepLink reply.hiddifyUrl = some (reply.subscriptionUrl, "ARENA - " ++ user.name) ∧
      urlToken base reply.subscriptionUrl = some token ∧
      (∀ now, ∃ answer, subscriptionRoute mac secret now db base false token = .ok answer ∧
        answer.document false =
          some (documentOf now user (if (userAllowed user now).1 then reply.directLinks else []))) ∧
      ∀ now db' base' raw, subscriptionRoute mac secret now db' base' raw token =
        subscription now db' base' raw uid user.subscriptionVersion := by
  obtain ⟨user, token, links, found, signed, rendered, rfl⟩ := userFormats_eq_ok.1 formats
  have mine : user.id = uid := Table.find?_key found
  have stands : ∀ now db' base' raw, subscriptionRoute mac secret now db' base' raw token =
      subscription now db' base' raw uid user.subscriptionVersion := fun _ _ _ _ =>
    mine ▸ subscriptionRoute_signed signed
  refine ⟨user, token, found, readDeepLink_hiddifyDeepLink, urlToken_url (mine ▸ plain) signed,
    fun now => ?_, stands⟩
  rw [stands]
  exact subscription_of_links found rendered

/-- The default nodes and one user, with UUIDs. -/
def firstUser : List Event :=
  [.start "11111111-1111-4111-8111-111111111111" "22222222-2222-4222-8222-222222222222",
    .admin "admin" (.createUser "44444444-4444-4444-8444-444444444444" testKeys testUser)]

/-- A signature that repeats the message. -/
def echoMac : Mac := fun _ message => message

/-- The deep link of the first user. -/
theorem deep_link_imports_first_user :
    ∃ s reply answer token, (plane {}).run (.initial 0) firstUser = some s ∧
      userFormats echoMac "secret" Userinfo.panel s.db "44444444-4444-4444-8444-444444444444" = .ok reply ∧
      urlToken Userinfo.panel reply.subscriptionUrl = some token ∧
      subscriptionRoute echoMac "secret" s.now s.db Userinfo.panel false token = .ok answer := by
  obtain ⟨s, run, shown⟩ := (Option.any_eq_true _ _).1
    (by decide +kernel : ((plane {}).run (.initial 0) firstUser).any fun s =>
      (userFormats echoMac "secret" Userinfo.panel s.db "44444444-4444-4444-8444-444444444444").isOk)
  cases formats : userFormats echoMac "secret" Userinfo.panel s.db "44444444-4444-4444-8444-444444444444" with
  | error e =>
    rw [formats] at shown
    cases shown
  | ok reply =>
    obtain ⟨user, token, -, -, read, served, -⟩ := deep_link_imports _ _ _ _ _ _
      (forall_mem_of_check (by decide +kernel)) formats
    obtain ⟨answer, answered, -⟩ := served s.now
    exact ⟨s, reply, answer, token, run, formats, read, answered⟩

/-! ## The gateway -/

variable {newId : Id} {p : GatewayAuthorize}

/-- What the address limit leaves room for. -/
def HasRoom (cfg : Settings) (now : Instant) (db : Database) (user : User) (ip : String) : Prop :=
  ip ∈ (finishStaleSessions cfg now db).openIps user.id ∨
    ((finishStaleSessions cfg now db).openIps user.id).card < user.maxIps

instance (cfg : Settings) (now : Instant) (db : Database) (user : User) (ip : String) :
    Decidable (HasRoom cfg now db user ip) :=
  inferInstanceAs (Decidable (_ ∨ _))

/-- **An admissible route is refused for the address limit only.** -/
theorem authorize_answer (fresh : db.sessions.find? newId = none) (owner : db.users.find? p.userId = some user)
    (there : db.nodes.find? p.nodeId = some node) (held : (db.enabledKey p.userId p.nodeId).isSome)
    (enabled : node.enabled) (allowed : (userAllowed user now).1) :
    (authorize cfg now newId p db).2 =
      if HasRoom cfg now db user p.sourceIp then .ok (authorizeReply cfg newId user node)
      else .error ⟨429, "ip_limit"⟩ := by
  have mine : user.id = p.userId := Table.find?_key owner
  have key : ((finishStaleSessions cfg now db).enabledKey p.userId p.nodeId).isSome := held
  split
  · rename_i room
    have verdict : decideRoute now p (finishStaleSessions cfg now db) = .admitted user node :=
      decideRoute_admitted_iff.2 ⟨owner, there, key, enabled, allowed, mine ▸ room⟩
    obtain ⟨answer, ok⟩ := (@authorize_ok_iff cfg now newId db p fresh).2 ⟨user, node, verdict⟩
    rcases authorize_cases (Prod.mk.eta (p := authorize cfg now newId p db)).symm with
      ⟨-, -, -, -, refused⟩ | ⟨-, failed⟩ | ⟨user', node', verdict', -, replied⟩
    · exact absurd verdict (refused user node)
    · rw [failed] at ok
      cases ok
    · rw [verdict] at verdict'
      cases verdict'
      exact replied
  · rename_i full
    simp only [HasRoom, not_or, not_lt] at full
    obtain ⟨k, found⟩ := Option.isSome_iff_exists.1 key
    have verdict : decideRoute now p (finishStaleSessions cfg now db) =
        .ipLimit ((finishStaleSessions cfg now db).openIps user.id).card := by
      unfold decideRoute
      rw [finishStaleSessions_users, finishStaleSessions_nodes, owner, there, found]
      simp [enabled, allowed, full]
    simp only [authorize, verdict]

theorem authorize_not_found
    (closed : ∀ node, db.nodes.find? p.nodeId = some node → node.enabled →
      db.enabledKey p.userId p.nodeId = none) :
    (authorize cfg now newId p db).2 = .error ⟨403, "route_not_found"⟩ := by
  have verdict : decideRoute now p (finishStaleSessions cfg now db) = .routeNotFound := by
    unfold decideRoute
    split
    · rename_i user node key owner there held
      split
      · rfl
      · rename_i enabled
        have gone := closed node there (by simpa using enabled)
        rw [show (finishStaleSessions cfg now db).enabledKey p.userId p.nodeId =
          db.enabledKey p.userId p.nodeId from rfl, gone] at held
        cases held
    · rfl
  simp only [authorize, verdict]

/-! ## Links -/

/-- A link takes its client where the key is served: through the ingress and the gateway, which
admits it, to the inbound of Xray with the link's credential. -/
structure Leads (ingress : String → Prop) (cfg : Settings) (now : Instant) (db : Database) (user : User)
    (parsed : ProxyLink) (node : Node) : Prop where
  ingress : ingress parsed.path
  handled : edgeHandles parsed.path
  route : routeIDs parsed.path = (node.id, user.id, true)
  admitted : ∀ newId p, db.sessions.find? newId = none → p.userId = user.id → p.nodeId = node.id →
    (authorize cfg now newId p db).2 =
      if HasRoom cfg now db user p.sourceIp then .ok (authorizeReply cfg newId user node)
      else .error ⟨429, "ip_limit"⟩
  inbound : ∃ i ∈ proxyInbounds cfg (clientsFromKeys now db.loadKeys),
    (⟨parsed.protocol, parsed.credential⟩ : XrayClient) ∈ i.clients ∧ ∀ newId,
      (authorizeReply cfg newId user node).upstreamUrl =
        "ws://" ++ cfg.xrayInternalHost ++ ":" ++ toString i.port ++ i.path

/-- The inbound that the gateway dials for a node has the clients of the node's protocol. -/
theorem inbound_of_client (cfg : Settings) {clients : List XrayClient} {c : XrayClient} (mem : c ∈ clients)
    (proxy : c.protocol.isProxy) : ∃ i ∈ proxyInbounds cfg clients, c ∈ i.clients ∧
      i.port = upstreamPort c.protocol ∧ i.path = "/internal/" ++ c.protocol.text := by
  cases protocol : c.protocol with
  | vless => exact ⟨inbound cfg clients .vless 11000, by simp [proxyInbounds], by simp [inbound, mem, protocol], rfl, rfl⟩
  | vmess => exact ⟨inbound cfg clients .vmess 11001, by simp [proxyInbounds], by simp [inbound, mem, protocol], rfl, rfl⟩
  | wireguard | cisco => simp [protocol, Protocol.isProxy] at proxy

/-- What the formats of a user rest on: identifiers are UUIDs, proxy nodes lie under `/edge`, and a
key with a link is as the code makes it, on a node whose host, unless it is adaptive, is a DNS name or an
IP literal. `NodeCreate` and `NodeUpdate` ask for the last two of no node. -/
structure Installed (db : Database) (uid : Id) : Prop where
  user : IsUuid uid
  node : ∀ node ∈ db.nodes.rows, node.protocol.isProxy → IsUuid node.id ∧ EdgePath node.path
  key : ∀ key node, (key, node) ∈ db.keysOf uid → hasLink (key, node) = true → LinkKey key node

theorem leads_of_link (rule : IngressRule ingress) (installed : Installed db uid)
    (shape : PublicHost base.host.toList) (found : db.users.find? uid = some user)
    (allowed : (userAllowed user now).1) {link : String} (mem : (key, node) ∈ db.keysOf uid)
    (rendered : proxyUri user node key (some base) = .ok (some link)) :
    ∃ parsed, decodeLink link = some parsed ∧ Leads ingress cfg now db user parsed node := by
  have mine : user.id = uid := Table.find?_key found
  obtain ⟨on, active, proxy, object⟩ := proxyUri_isSome_iff.1 ⟨link, rendered⟩
  have served : hasLink (key, node) = true := by simp [hasLink, on, active, proxy]
  obtain ⟨own, again, read⟩ := proxyUri_readBack user (installed.key key node mem) shape
  obtain rfl : own = some link := Except.ok.inj (again.symm.trans rendered)
  rw [List.filter_singleton, served] at read
  obtain ⟨⟨-, endpoint, -, parsed⟩, -⟩ := List.forall₂_cons.1 read
  obtain ⟨row, owner, there⟩ := mem_keysOf.1 mem
  have nodeId : key.nodeId = node.id := (Table.find?_key there).symm
  obtain ⟨uuid, edge⟩ := installed.node node (Table.find?_mem there) proxy
  have routed := routed_of_edge rule uuid (mine.symm ▸ installed.user : IsUuid user.id) edge
  have loaded : (⟨key, user, node⟩ : LoadedKey) ∈ db.loadKeys :=
    mem_loadKeys.2 ⟨row, by rw [owner]; exact found, there⟩
  have client : (⟨node.protocol, key.credential⟩ : XrayClient) ∈ clientsFromKeys now db.loadKeys :=
    mem_clientsFromKeys.2 ⟨_, loaded, proxy, ⟨on, active, allowed⟩, rfl⟩
  refine ⟨_, parsed, routed.ingress, routed.handled, routed.parsed, fun newId p fresh user' node' => ?_, ?_⟩
  · refine authorize_answer fresh (by rw [user', mine]; exact found) (by rw [node', ← nodeId]; exact there) ?_ on
      allowed
    rw [user', node', mine, ← owner, ← nodeId]
    exact (enabledKey_isSome_iff loaded).2 active
  · obtain ⟨i, here, holds, port, path⟩ := inbound_of_client cfg client proxy
    refine ⟨i, here, holds, fun newId => ?_⟩
    rw [port, path]
    simp only [authorizeReply, String.append_assoc]

/-- **Links work, and only they do.** For an allowed user of an installation whose proxy nodes lie
under `/edge`, and have a name or an address for their host where they are not adaptive, every direct
link is routed, admitted up to the address limit and known to Xray under the link's own credential;
and a proxy node that no link leads to refuses the user. -/
theorem direct_links_work (rule : IngressRule ingress) (installed : Installed db uid)
    (accepted : publicEndpoint (urlsplit tables) url = .ok base)
    (formats : userFormats mac secret base db uid = .ok reply) (found : db.users.find? uid = some user)
    (allowed : (userAllowed user now).1) :
    (∀ link ∈ reply.directLinks, ∃ parsed node, decodeLink link = some parsed ∧ node ∈ db.nodes.rows ∧
      Leads ingress cfg now db user parsed node) ∧
    ∀ node ∈ db.nodes.rows, node.protocol.isProxy →
      (∃ link ∈ reply.directLinks, ∃ parsed, decodeLink link = some parsed ∧
        Leads ingress cfg now db user parsed node) ∨
      ∀ newId p, p.userId = uid → p.nodeId = node.id →
        (authorize cfg now newId p db).2 = .error ⟨403, "route_not_found"⟩ := by
  obtain ⟨user', token, links, found', -, rendered, rfl⟩ := userFormats_eq_ok.1 formats
  obtain rfl : user' = user := Option.some.inj (found'.symm.trans found)
  have mine : user'.id = uid := Table.find?_key found
  rw [mine] at rendered
  have shape := publicEndpoint_host accepted
  constructor
  · intro link mem
    obtain ⟨⟨key, _⟩, shown, rfl⟩ := List.mem_map.1 mem
    obtain ⟨node, held, uri⟩ := (mem_proxyLinks rendered).1 shown
    obtain ⟨parsed, read, leads⟩ := leads_of_link rule installed shape found allowed held uri
    obtain ⟨-, -, there⟩ := mem_keysOf.1 held
    exact ⟨parsed, node, read, Table.find?_mem there, leads⟩
  · intro node mem proxy
    by_cases served : node.enabled ∧ ∃ key, (key, node) ∈ db.keysOf uid ∧ key.enabled
    · obtain ⟨on, key, held, active⟩ := served
      have link : hasLink (key, node) = true := by simp [hasLink, on, active, proxy]
      obtain ⟨uri, rendersLink⟩ := (@proxyUri_isSome_iff user' node key (some base)).2
        ⟨on, active, proxy, (installed.key key node held link).metadata⟩
      obtain ⟨parsed, read, leads⟩ := leads_of_link rule installed shape found allowed held rendersLink
      exact .inl ⟨uri, List.mem_map.2 ⟨(key, uri), (mem_proxyLinks rendered).2 ⟨node, held, rendersLink⟩, rfl⟩,
        parsed, read, leads⟩
    · refine .inr fun newId p user'' node' => authorize_not_found fun other there enabled => ?_
      obtain rfl : node = other := by
        rw [node', Table.find?_of_mem mem] at there
        exact Option.some.inj there
      by_contra held
      obtain ⟨key, held⟩ := Option.ne_none_iff_exists'.1 held
      have holds := List.find?_some held
      simp only [Bool.and_eq_true, decide_eq_true_eq] at holds
      exact served ⟨enabled, key, mem_keysOf.2 ⟨List.mem_of_find?_eq_some held, by rw [holds.1.1, user''],
        by rw [holds.1.2]; exact there⟩, holds.2⟩

/-! ## The first user -/

def isUuid (i : Id) : Bool :=
  i.toList.length = 36 && i.toList.all fun c => "0123456789abcdef-".toList.contains c

theorem isUuid_spec {i : Id} (h : isUuid i = true) : IsUuid i := by
  simp only [isUuid, Bool.and_eq_true, decide_eq_true_eq, List.all_eq_true, List.contains_iff_mem] at h
  exact ⟨h.1, h.2⟩

/-- A key on an adaptive node, with a credential that ends no part of a URI. -/
def isLinkKey (k : AccessKey × Node) : Bool :=
  k.2.metadata.isObject && (k.2.adaptiveFlag.toOption.getD false) &&
    k.1.credential.toList.all fun c => c ∉ ['/', '?', '#', '\n']

theorem isLinkKey_spec (h : isLinkKey (key, node) = true) : LinkKey key node := by
  simp only [isLinkKey, Bool.and_eq_true, List.all_eq_true, decide_eq_true_eq] at h
  obtain ⟨⟨object, adaptive⟩, credential⟩ := h
  refine ⟨object, fun _ => credential, fun fixed => ?_⟩
  rw [fixed] at adaptive
  cases adaptive

def isInstalled (db : Database) (uid : Id) : Bool :=
  isUuid uid && (db.nodes.rows.all fun node => isUuid node.id && EdgePath node.path) &&
    (db.keysOf uid).all isLinkKey

theorem isInstalled_spec (h : isInstalled db uid = true) : Installed db uid := by
  simp only [isInstalled, Bool.and_eq_true, List.all_eq_true, decide_eq_true_eq] at h
  obtain ⟨⟨user, nodes⟩, keys⟩ := h
  exact ⟨isUuid_spec user, fun node mem _ => ⟨isUuid_spec (nodes node mem).1, (nodes node mem).2⟩,
    fun key node mem _ => isLinkKey_spec (keys _ mem)⟩

/-- The two links of the first user. -/
theorem direct_links_work_first_user :
    ∃ s base reply user, (plane {}).run (.initial 0) firstUser = some s ∧
      publicEndpoint (urlsplit asciiTables) "https://panel.example" = .ok base ∧
      userFormats echoMac "secret" base s.db "44444444-4444-4444-8444-444444444444" = .ok reply ∧
      reply.directLinks.length = 2 ∧ ∀ link ∈ reply.directLinks, ∃ parsed node,
        decodeLink link = some parsed ∧ node ∈ s.db.nodes.rows ∧
          Leads prefixRule {} s.now s.db user parsed node := by
  obtain ⟨s, run, facts⟩ := (Option.any_eq_true _ _).1
    (by decide +kernel : ((plane {}).run (.initial 0) firstUser).any fun s =>
      isInstalled s.db "44444444-4444-4444-8444-444444444444" &&
        (s.db.users.find? "44444444-4444-4444-8444-444444444444").any (fun user => (userAllowed user s.now).1) &&
        (publicEndpoint (urlsplit asciiTables) "https://panel.example").toOption.any fun base =>
          (userFormats echoMac "secret" base s.db "44444444-4444-4444-8444-444444444444").toOption.any fun reply =>
            reply.directLinks.length = 2)
  simp only [Bool.and_eq_true, Option.any_eq_true, decide_eq_true_eq, toOption_eq_some] at facts
  obtain ⟨⟨installed, user, found, allowed⟩, base, accepted, reply, formats, two⟩ := facts
  exact ⟨s, base, reply, user, run, accepted, formats, two,
    (direct_links_work prefixRule_ingress (isInstalled_spec installed) accepted formats found allowed).1⟩

end Arena.Journey
