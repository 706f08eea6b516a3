import Arena.Model.Frames
import Arena.Model.Profiles

/-!
# Which keys have a link

`proxy_uri` gives a link for an enabled proxy key and raises where the node's metadata are
not an object; a subscription renders every key or raises.
-/

namespace Arena.Model

open Arena.Lib

variable {user : User} {node : Node} {key : AccessKey} {base : Option PublicEndpoint}

/-- A JSON object. -/
def Json.isObject : Json → Bool
  | .obj _ => true
  | _ => false

theorem proxyEndpoint_ok_iff :
    (∃ endpoint, proxyEndpoint node base = .ok endpoint) ↔ node.metadata.isObject := by
  cases h : node.metadata with
  | obj members =>
    simp [proxyEndpoint, Node.adaptiveFlag, h, Json.get?, Json.isObject, bind, Except.bind]
  | _ => simp [proxyEndpoint, Node.adaptiveFlag, h, Json.get?, Json.isObject, bind, Except.bind]

/-- A computation that only its first step can refuse. -/
theorem bind_pure_ok_iff {α β : Type} {x : Except HttpError α} {f : α → β} :
    (∃ b, (x >>= fun a => .ok (f a)) = .ok b) ↔ ∃ a, x = .ok a := by
  constructor
  · rintro ⟨b, h⟩
    obtain ⟨a, eq, -⟩ := bind_eq_ok.1 h
    exact ⟨a, eq⟩
  · rintro ⟨a, eq⟩
    exact ⟨f a, bind_eq_ok.2 ⟨a, eq, rfl⟩⟩

theorem vlessUri_ok_iff : (∃ uri, vlessUri user node key base = .ok uri) ↔ node.metadata.isObject := by
  rw [← @proxyEndpoint_ok_iff node base]
  exact bind_pure_ok_iff

theorem vmessUri_ok_iff : (∃ uri, vmessUri user node key base = .ok uri) ↔ node.metadata.isObject := by
  rw [← @proxyEndpoint_ok_iff node base]
  exact bind_pure_ok_iff

theorem map_some_eq_ok {α : Type} {x : Except HttpError α} {o : Option α} :
    x.map some = .ok o ↔ ∃ a, x = .ok a ∧ o = some a := by
  cases x <;> simp [Except.map, eq_comm]

/-- What `proxy_uri` answers: no link, or the one of the node's protocol. -/
inductive ProxyAnswer (user : User) (node : Node) (key : AccessKey) (base : Option PublicEndpoint) : Prop
  | hidden (off : ¬(node.enabled ∧ key.enabled ∧ node.protocol.isProxy))
      (answer : proxyUri user node key base = .ok none)
  | vless (on : node.enabled) (active : key.enabled) (protocol : node.protocol = .vless)
      (answer : proxyUri user node key base = (vlessUri user node key base).map some)
  | vmess (on : node.enabled) (active : key.enabled) (protocol : node.protocol = .vmess)
      (answer : proxyUri user node key base = (vmessUri user node key base).map some)

theorem proxyUri_cases (user : User) (node : Node) (key : AccessKey) (base : Option PublicEndpoint) :
    ProxyAnswer user node key base := by
  by_cases enabled : node.enabled ∧ key.enabled
  · obtain ⟨on, active⟩ := enabled
    cases protocol : node.protocol with
    | vless => exact .vless on active protocol (by simp [proxyUri, on, active, protocol])
    | vmess => exact .vmess on active protocol (by simp [proxyUri, on, active, protocol])
    | wireguard | cisco =>
      exact .hidden (by simp [protocol, Protocol.isProxy]) (by simp [proxyUri, protocol])
  · have off : (!node.enabled || !key.enabled) = true := by
      cases on : node.enabled <;> simp_all
    exact .hidden (fun served => enabled ⟨served.1, served.2.1⟩) (by rw [proxyUri, if_pos off])

/-- A key has a link when it and its node are enabled, its protocol is a proxy protocol and
the link can be rendered. -/
theorem proxyUri_isSome_iff : (∃ uri, proxyUri user node key base = .ok (some uri)) ↔
    node.enabled ∧ key.enabled ∧ node.protocol.isProxy ∧ node.metadata.isObject := by
  cases proxyUri_cases user node key base with
  | hidden off answer =>
    constructor
    · rintro ⟨uri, link⟩
      rw [answer] at link
      cases link
    · rintro ⟨on, active, proxy, -⟩
      exact absurd ⟨on, active, proxy⟩ off
  | vless on active protocol answer =>
    simp [answer, on, active, protocol, map_some_eq_ok, Protocol.isProxy, vlessUri_ok_iff]
  | vmess on active protocol answer =>
    simp [answer, on, active, protocol, map_some_eq_ok, Protocol.isProxy, vmessUri_ok_iff]

/-- `proxy_uri` raises only on an enabled proxy key. -/
theorem proxyUri_ok_iff : (∃ uri, proxyUri user node key base = .ok uri) ↔
    (node.enabled → key.enabled → node.protocol.isProxy → node.metadata.isObject) := by
  cases proxyUri_cases user node key base with
  | hidden off answer =>
    exact ⟨fun _ on active proxy => absurd ⟨on, active, proxy⟩ off, fun _ => ⟨none, answer⟩⟩
  | vless on active protocol answer =>
    simp [answer, on, active, protocol, map_some_eq_ok, Protocol.isProxy, vlessUri_ok_iff]
  | vmess on active protocol answer =>
    simp [answer, on, active, protocol, map_some_eq_ok, Protocol.isProxy, vmessUri_ok_iff]

/-! ## A subscription's links -/

theorem proxyLinks_cons_eq_ok {keys : List (AccessKey × Node)} {links : List (AccessKey × String)} :
    proxyLinks user base ((key, node) :: keys) = .ok links ↔
      ∃ uri rest, proxyUri user node key base = .ok uri ∧ proxyLinks user base keys = .ok rest ∧
        links = (uri.toList.map fun uri => (key, uri)) ++ rest := by
  simp only [proxyLinks, bind_eq_ok, Except.ok.injEq]
  constructor
  · rintro ⟨uri, hu, rest, hr, rfl⟩
    exact ⟨uri, rest, hu, hr, rfl⟩
  · rintro ⟨uri, rest, hu, hr, rfl⟩
    exact ⟨uri, hu, rest, hr, rfl⟩

/-- The links are rendered when each one can be. -/
theorem proxyLinks_ok_iff {keys : List (AccessKey × Node)} :
    (∃ links, proxyLinks user base keys = .ok links) ↔
      ∀ key node, (key, node) ∈ keys → ∃ uri, proxyUri user node key base = .ok uri := by
  induction keys with
  | nil => simp [proxyLinks]
  | cons head keys ih =>
    obtain ⟨key, node⟩ := head
    simp only [proxyLinks_cons_eq_ok]
    constructor
    · rintro ⟨_, uri, rest, hu, hr, rfl⟩ key' node' mem
      rcases List.mem_cons.1 mem with same | mem
      · cases same
        exact ⟨uri, hu⟩
      · exact ih.1 ⟨rest, hr⟩ key' node' mem
    · intro each
      obtain ⟨uri, hu⟩ := each key node (by simp)
      obtain ⟨rest, hr⟩ := ih.2 fun key' node' mem => each key' node' (by simp [mem])
      exact ⟨_, uri, rest, hu, hr, rfl⟩

/-- The links are the keys' own. -/
theorem mem_proxyLinks {keys : List (AccessKey × Node)} {links : List (AccessKey × String)}
    {uri : String} (h : proxyLinks user base keys = .ok links) :
    (key, uri) ∈ links ↔ ∃ node, (key, node) ∈ keys ∧ proxyUri user node key base = .ok (some uri) := by
  induction keys generalizing links with
  | nil => cases h; simp
  | cons head keys ih =>
    obtain ⟨key', node'⟩ := head
    obtain ⟨own, rest, hu, hr, rfl⟩ := proxyLinks_cons_eq_ok.1 h
    rw [List.mem_append, ih hr]
    constructor
    · rintro (here | ⟨node, mem, link⟩)
      · obtain ⟨u, hu', same⟩ := List.mem_map.1 here
        cases same
        rw [Option.mem_toList] at hu'
        exact ⟨node', by simp, by rw [hu, hu']⟩
      · exact ⟨node, by simp [mem], link⟩
    · rintro ⟨node, mem, link⟩
      rcases List.mem_cons.1 mem with same | mem
      · cases same
        rw [hu] at link
        exact .inl (List.mem_map.2 ⟨uri, by simp [Except.ok.inj link], rfl⟩)
      · exact .inr ⟨node, mem, link⟩

/-- The keys of a user, with the node that the foreign key names. -/
theorem mem_keysOf {db : Database} {uid : Id} :
    (key, node) ∈ db.keysOf uid ↔
      key ∈ db.accessKeys.rows ∧ key.userId = uid ∧ db.nodes.find? key.nodeId = some node := by
  simp only [Database.keysOf, Database.withNode, List.mem_filterMap, List.mem_filter,
    decide_eq_true_eq, Option.map_eq_some_iff, Prod.mk.injEq]
  constructor
  · rintro ⟨k, ⟨mem, owner⟩, n, found, rfl, rfl⟩
    exact ⟨mem, owner, found⟩
  · rintro ⟨mem, owner, found⟩
    exact ⟨key, ⟨mem, owner⟩, node, found, rfl, rfl⟩

end Arena.Model
