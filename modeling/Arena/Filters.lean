import Arena.Model.Admission
import Arena.Model.Links
import Arena.Model.Plane

/-!
# The three access filters

The subscription offers a link, the Xray configuration holds a client and `authorize` admits
a connection, each by its own checks. All three ask for an allowed user, an enabled node and
an enabled key; the first two also ask for a proxy protocol, which `authorize` does not.
-/

namespace Arena.Filters

open Arena.Lib Arena.Model

variable {cfg : Settings} {now : Instant} {db : Database} {k : LoadedKey}

/-- The subscription of the key's user is served, and has a link for the key. -/
def Offers (base : PublicEndpoint) (now : Instant) (db : Database) (k : LoadedKey) : Prop :=
  (∀ raw, ∃ reply,
    subscription now db base raw k.user.id k.user.subscriptionVersion = .ok reply) ∧
  ∃ links uri, proxyLinks k.user (some base) (servedKeys now db k.user) = .ok links ∧
    (k.key, uri) ∈ links

/-- The key's client is in the desired set. -/
def InXray (now : Instant) (db : Database) (k : LoadedKey) : Prop :=
  clientOf k ∈ clientsFromKeys now db.loadKeys

/-- A request for the key's user and node, from an address that passes the limit, with an
unused session identifier. -/
structure PassesLimit (cfg : Settings) (now : Instant) (db : Database) (k : LoadedKey)
    (p : GatewayAuthorize) (newId : Id) : Prop where
  user : p.userId = k.key.userId
  node : p.nodeId = k.key.nodeId
  room : p.sourceIp ∈ (finishStaleSessions cfg now db).openIps p.userId ∨
    ((finishStaleSessions cfg now db).openIps p.userId).card < k.user.maxIps
  fresh : db.sessions.find? newId = none

/-- The URL names the port and the path of an inbound for the node's protocol. -/
def NamesInbound (cfg : Settings) (now : Instant) (db : Database) (k : LoadedKey) (url : String) :
    Prop :=
  ∃ i ∈ proxyInbounds cfg (clientsFromKeys now db.loadKeys), i.protocol = k.node.protocol ∧
    url = "ws://" ++ cfg.xrayInternalHost ++ ":" ++ toString i.port ++ i.path

/-- Every proxy link of the user can be rendered: the metadata of the nodes are objects. -/
def Renders (now : Instant) (db : Database) (user : Id) : Prop :=
  ∀ k ∈ db.loadKeys, k.key.userId = user → k.Admissible now → k.node.protocol.isProxy →
    k.node.metadata.isObject

/-- Another admissible key asks for the client of this one. -/
def Shared (now : Instant) (db : Database) (k : LoadedKey) : Prop :=
  ∃ other ∈ db.loadKeys, other.Admissible now ∧ other.node.protocol.isProxy ∧
    clientOf other = clientOf k

/-! ## Each filter on its own -/

/-- The desired set has the clients of the admissible proxy keys. -/
theorem inXray_iff : InXray now db k ↔ Shared now db k := by
  unfold InXray Shared
  rw [mem_clientsFromKeys]
  constructor
  · rintro ⟨other, mem, proxy, ok, same⟩
    exact ⟨other, mem, ok, proxy, same.symm⟩
  · rintro ⟨other, mem, ok, proxy, same⟩
    exact ⟨other, mem, proxy, ok, same.symm⟩

theorem inXray_of_admissible (hk : k ∈ db.loadKeys) (ok : k.Admissible now)
    (proxy : k.node.protocol.isProxy) : InXray now db k :=
  inXray_iff.2 ⟨k, hk, ok, proxy, rfl⟩

/-- `authorize` asks for an admissible key, of whatever protocol. -/
theorem admitted_iff (hk : k ∈ db.loadKeys) {p : GatewayAuthorize} {newId : Id}
    (passes : PassesLimit cfg now db k p newId) :
    (∃ reply, (authorize cfg now newId p db).2 = .ok reply) ↔ k.Admissible now := by
  obtain ⟨-, user, node⟩ := mem_loadKeys.1 hk
  -- the sweep leaves the access keys alone
  have key : ((finishStaleSessions cfg now db).enabledKey k.key.userId k.key.nodeId).isSome ↔
      k.key.enabled := enabledKey_isSome_iff hk
  rw [authorize_ok_iff passes.fresh]
  simp only [decideRoute_admitted_iff, finishStaleSessions_users, finishStaleSessions_nodes,
    passes.user, passes.node, user, node, key, Option.some.injEq]
  constructor
  · rintro ⟨u, n, rfl, rfl, enabled, node_on, allowed, -⟩
    exact ⟨node_on, enabled, allowed⟩
  · intro ok
    exact ⟨k.user, k.node, rfl, rfl, ok.key, ok.node, ok.user, passes.user ▸ passes.room⟩

/-- The URL of an admitted connection is that of the node's protocol. -/
theorem upstreamUrl_eq {p : GatewayAuthorize} {newId : Id} {reply : AuthorizeReply}
    (hk : k ∈ db.loadKeys) (node : p.nodeId = k.key.nodeId)
    (h : (authorize cfg now newId p db).2 = .ok reply) :
    reply.upstreamUrl = "ws://" ++ cfg.xrayInternalHost ++ ":" ++
      toString (upstreamPort k.node.protocol) ++ "/internal/" ++ k.node.protocol.text := by
  rcases authorize_cases (Prod.mk.eta (p := authorize cfg now newId p db)).symm with
    ⟨-, err, -, refused, -⟩ | ⟨-, refused⟩ | ⟨u, n, verdict, -, answered⟩
  · rw [refused] at h; cases h
  · rw [refused] at h; cases h
  · obtain ⟨-, found, -⟩ := decideRoute_admitted_iff.1 verdict
    obtain ⟨-, -, here⟩ := mem_loadKeys.1 hk
    rw [finishStaleSessions_nodes, node, here] at found
    cases found
    rw [answered] at h
    cases h
    rfl

theorem namesInbound_of_proxy (proxy : k.node.protocol.isProxy) :
    NamesInbound cfg now db k ("ws://" ++ cfg.xrayInternalHost ++ ":" ++
      toString (upstreamPort k.node.protocol) ++ "/internal/" ++ k.node.protocol.text) := by
  cases protocol : k.node.protocol with
  | vless =>
    refine ⟨inbound cfg (clientsFromKeys now db.loadKeys) .vless 11000, by simp [proxyInbounds],
      by simp [inbound, protocol], ?_⟩
    simp [upstreamPort, inbound, String.append_assoc]
  | vmess =>
    refine ⟨inbound cfg (clientsFromKeys now db.loadKeys) .vmess 11001, by simp [proxyInbounds],
      by simp [inbound, protocol], ?_⟩
    simp [upstreamPort, inbound, String.append_assoc]
  | wireguard => simp [protocol, Protocol.isProxy] at proxy
  | cisco => simp [protocol, Protocol.isProxy] at proxy

/-- The keys of an allowed user that the subscription walks through. -/
theorem mem_servedKeys {user : User} {key : AccessKey} {node : Node}
    (found : db.users.find? user.id = some user) :
    (key, node) ∈ servedKeys now db user ↔
      (userAllowed user now).1 ∧ (⟨key, user, node⟩ : LoadedKey) ∈ db.loadKeys := by
  unfold servedKeys
  split
  · rename_i allowed
    rw [mem_keysOf, mem_loadKeys]
    simp only [allowed, true_and]
    constructor
    · rintro ⟨mem, owner, here⟩
      exact ⟨mem, by rw [owner]; exact found, here⟩
    · rintro ⟨mem, owner, here⟩
      refine ⟨mem, ?_, here⟩
      exact (Table.find?_key owner).symm
  · rename_i denied
    simp [denied]

/-- The subscription of a user that exists is served when its links can be rendered. -/
theorem served_iff (base : PublicEndpoint) {user : User}
    (found : db.users.find? user.id = some user) (raw : Bool) :
    (∃ reply, subscription now db base raw user.id user.subscriptionVersion = .ok reply) ↔
      ∃ links, proxyLinks user (some base) (servedKeys now db user) = .ok links := by
  simp only [subscription, found, Option.filter_some, decide_true, if_true, subscriptionDocument]
  cases proxyLinks user (some base) (servedKeys now db user) with
  | error => simp [bind, Except.bind]
  | ok links => simp [bind, Except.bind]

/-- **What the subscription asks for**: an admissible key of a proxy protocol, and that no
link of its user raises. -/
theorem offers_iff (base : PublicEndpoint) (hk : k ∈ db.loadKeys) :
    Offers base now db k ↔
      k.Admissible now ∧ k.node.protocol.isProxy ∧ Renders now db k.key.userId := by
  obtain ⟨mem, owner, here⟩ := mem_loadKeys.1 hk
  have uid : k.user.id = k.key.userId := Table.find?_key owner
  have found : db.users.find? k.user.id = some k.user := uid ▸ owner
  have rows : ∀ {key node}, (key, node) ∈ servedKeys now db k.user ↔ (userAllowed k.user now).1 ∧
      (⟨key, k.user, node⟩ : LoadedKey) ∈ db.loadKeys := mem_servedKeys found
  unfold Offers
  constructor
  · rintro ⟨-, links, uri, rendered, offered⟩
    obtain ⟨node, served, link⟩ := (mem_proxyLinks rendered).1 offered
    obtain ⟨allowed, loaded⟩ := rows.1 served
    have same : node = k.node := by
      have there := (mem_loadKeys.1 loaded).2.2
      exact Option.some.inj (there.symm.trans here)
    subst same
    obtain ⟨enabled, key, proxy, -⟩ := proxyUri_isSome_iff.1 ⟨uri, link⟩
    refine ⟨⟨enabled, key, allowed⟩, proxy, fun other hother mine ok protocol => ?_⟩
    have his : other.user = k.user := by
      have there := (mem_loadKeys.1 hother).2.1
      rw [mine] at there
      exact Option.some.inj (there.symm.trans owner)
    have walked : (other.key, other.node) ∈ servedKeys now db k.user :=
      rows.2 ⟨allowed, his ▸ hother⟩
    exact proxyUri_ok_iff.1 (proxyLinks_ok_iff.1 ⟨links, rendered⟩ _ _ walked) ok.node ok.key protocol
  · rintro ⟨ok, proxy, renders⟩
    have rendered : ∃ links, proxyLinks k.user (some base) (servedKeys now db k.user) = .ok links := by
      refine proxyLinks_ok_iff.2 fun key node served => proxyUri_ok_iff.2 fun node_on key_on protocol => ?_
      obtain ⟨allowed, loaded⟩ := rows.1 served
      have mine : key.userId = k.key.userId := by
        rw [← uid]
        exact (Table.find?_key (mem_loadKeys.1 loaded).2.1).symm
      exact renders _ loaded mine ⟨node_on, key_on, allowed⟩ protocol
    obtain ⟨links, eq⟩ := rendered
    have object : k.node.metadata.isObject := renders k hk rfl ok proxy
    obtain ⟨uri, link⟩ :=
      (proxyUri_isSome_iff ).2 ⟨ok.node, ok.key, proxy, object⟩
    refine ⟨fun raw => (served_iff base found raw).2 ⟨links, eq⟩, links, uri, eq, ?_⟩
    exact (mem_proxyLinks eq).2 ⟨k.node, rows.2 ⟨ok.user, hk⟩, link⟩

/-! ## The three together -/

/-- Where the filters agree: an admissible key has a proxy protocol and its user's links can
all be rendered; a key that is not admissible shares its client with no admissible one. -/
def Agreeing (now : Instant) (db : Database) (k : LoadedKey) : Prop :=
  (k.Admissible now ∧ k.node.protocol.isProxy ∧ Renders now db k.key.userId) ∨
    (¬ k.Admissible now ∧ ¬ Shared now db k)

/-- **The three filters agree exactly there**: for every database, instant and access key and
for every request for its user and node that passes the IP limit, the subscription offers the
key, the desired Xray set has its client and the request is admitted are one and the same, and
an admitted request's URL names an inbound of the node's protocol, if and only if the key is
`Agreeing`. -/
theorem filters_agree_iff (cfg : Settings) (base : PublicEndpoint) (now : Instant) (db : Database)
    (k : LoadedKey) (hk : k ∈ db.loadKeys) (p : GatewayAuthorize) (newId : Id)
    (passes : PassesLimit cfg now db k p newId) :
    ((Offers base now db k ↔ InXray now db k) ∧
      (InXray now db k ↔ ∃ reply, (authorize cfg now newId p db).2 = .ok reply) ∧
      ∀ reply, (authorize cfg now newId p db).2 = .ok reply →
        NamesInbound cfg now db k reply.upstreamUrl) ↔
      Agreeing now db k := by
  rw [admitted_iff hk passes, offers_iff base hk]
  constructor
  · rintro ⟨offered, admitted, -⟩
    by_cases ok : k.Admissible now
    · exact .inl (offered.2 (admitted.2 ok))
    · exact .inr ⟨ok, fun shared => ok (admitted.1 (inXray_iff.2 shared))⟩
  · rintro (⟨ok, proxy, renders⟩ | ⟨denied, alone⟩)
    · have inXray := inXray_of_admissible hk ok proxy
      refine ⟨by simp [ok, proxy, renders, inXray], by simp [ok, inXray], fun reply answered => ?_⟩
      rw [upstreamUrl_eq hk passes.node answered]
      exact namesInbound_of_proxy proxy
    · have outside : ¬ InXray now db k := fun h => alone (inXray_iff.1 h)
      refine ⟨by simp [denied, outside], by simp [denied, outside], fun reply answered => ?_⟩
      exact absurd ((admitted_iff hk passes).1 ⟨reply, answered⟩) denied

/-- A Cisco node beside the nodes of a fresh installation, and a user with a key on each. -/
def ciscoNode : List Event :=
  [.start "vless" "vmess",
    .admin "admin" (.createNode "cisco"
      { testNode with
        name := "Cisco", slug := "cisco", host := "vpn.example.net"
        kind := .cisco, protocol := .cisco, transport := .external
        nameLength := by decide, slugPattern := by decide, hostLength := by decide }),
    .admin "admin" (.createUser "user" testKeys testUser)]

/-- A request for the user's key on a node of that installation. -/
def requestFor (node : Id) : GatewayAuthorize :=
  { userId := "user", nodeId := node, sourceIp := "203.0.113.10" }

/-- The public URL `http://localhost`. -/
def localhost : PublicEndpoint := ⟨"http://localhost", "localhost", "localhost", 80, .none⟩

/-- The keys of that installation: loaded, admissible, with metadata that are objects, and the
only one of their client; a first request for any of them passes the limit. -/
theorem ciscoNode_key (node : Id) (proto : Protocol)
    (h : ((plane {}).run (.initial 0) ciscoNode).any (fun s => s.db.loadKeys.any fun k =>
      k.key.userId = "user" && k.key.nodeId = node && k.node.protocol = proto &&
        k.node.enabled && k.key.enabled && (userAllowed k.user s.now).1 &&
        (s.db.sessions.find? "session").isNone && k.user.maxIps = 1 &&
        s.db.loadKeys.all (fun other => other.node.metadata.isObject) &&
        ((finishStaleSessions {} s.now s.db).openIps "user").card = 0)) :
    ∃ s k, (plane {}).run (.initial 0) ciscoNode = some s ∧ k ∈ s.db.loadKeys ∧
      k.node.protocol = proto ∧ k.Admissible s.now ∧ Renders s.now s.db k.key.userId ∧
      PassesLimit {} s.now s.db k (requestFor node) "session" := by
  obtain ⟨s, run, h⟩ := (Option.any_eq_true _ _).1 h
  obtain ⟨k, mem, h⟩ := List.any_eq_true.1 h
  simp only [Bool.and_eq_true, decide_eq_true_eq, Option.isNone_iff_eq_none, List.all_eq_true] at h
  obtain ⟨⟨⟨⟨⟨⟨⟨⟨⟨user, here⟩, protocol⟩, node_on⟩, key_on⟩, allowed⟩, fresh⟩, limit⟩, objects⟩,
    none_open⟩ := h
  refine ⟨s, k, run, mem, protocol, ⟨node_on, key_on, allowed⟩,
    fun other loaded _ _ _ => objects other loaded, ⟨user.symm, here.symm, .inr ?_, fresh⟩⟩
  have zero : ((finishStaleSessions {} s.now s.db).openIps (requestFor node).userId).card = 0 := none_open
  rw [zero, limit]
  exact Nat.one_pos

/-- The filters agree on the user's key on the default VLESS node: all three let it through. -/
theorem filters_agree_iff_vless :
    ∃ s k, (plane {}).run (.initial 0) ciscoNode = some s ∧ k.node.protocol = .vless ∧
      (Offers localhost s.now s.db k ↔ InXray s.now s.db k) ∧
      (InXray s.now s.db k ↔
        ∃ reply, (authorize {} s.now "session" (requestFor "vless") s.db).2 = .ok reply) ∧
      InXray s.now s.db k := by
  obtain ⟨s, k, run, mem, protocol, ok, renders, passes⟩ :=
    ciscoNode_key "vless" .vless (by decide +kernel)
  have proxy : k.node.protocol.isProxy := by rw [protocol]; rfl
  have agree := (filters_agree_iff {} localhost s.now s.db k mem (requestFor "vless") "session" passes).2
    (.inl ⟨ok, proxy, renders⟩)
  exact ⟨s, k, run, protocol, agree.1, agree.2.1, inXray_of_admissible mem ok proxy⟩

/-- A key on the Cisco node is admitted by the gateway, and Xray has no such client. -/
theorem cisco_key_admitted :
    ¬ ∀ (cfg : Settings) (base : PublicEndpoint) (now : Instant) (db : Database) (k : LoadedKey),
      k ∈ db.loadKeys → ∀ (p : GatewayAuthorize) (newId : Id), PassesLimit cfg now db k p newId →
        (Offers base now db k ↔ InXray now db k) ∧
        (InXray now db k ↔ ∃ reply, (authorize cfg now newId p db).2 = .ok reply) ∧
        ∀ reply, (authorize cfg now newId p db).2 = .ok reply →
          NamesInbound cfg now db k reply.upstreamUrl := by
  intro claim
  obtain ⟨s, k, -, mem, protocol, ok, -, passes⟩ := ciscoNode_key "cisco" .cisco (by decide +kernel)
  obtain ⟨-, admitted, -⟩ := claim {} localhost s.now s.db k mem
    (requestFor "cisco") "session" passes
  have inXray := admitted.2 ((admitted_iff mem passes).2 ok)
  obtain ⟨other, -, -, proxy, same⟩ := inXray_iff.1 inXray
  have cisco : other.node.protocol = .cisco := by
    have := congrArg XrayClient.protocol same
    rw [← protocol]
    exact this
  simp [cisco, Protocol.isProxy] at proxy

end Arena.Filters
