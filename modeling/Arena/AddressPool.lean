import Arena.Lib.IpNetwork
import Arena.Model.Files
import Arena.Model.KeyRows

/-!
# The addresses of a WireGuard node

`_wireguard_payload` reads the addresses in the keys of the node back and takes the first other
host of the node's current `client_cidr`. Whatever the network was when the other keys were made,
no two keys of a node have the same address, and a pool is exhausted only when every host but
the first is in use.

`parse` is `ipaddress.ip_network(.., strict=False)` of a decoded JSON value, or the error that
it raises.
-/

namespace Arena.AddressPool

open Arena.Lib Arena.Model

variable {parse : Json → Except HttpError Network} {cfg : Settings} {now : Instant} {db : Database}
  {s s' : Plane} {e : Event} {node : Node} {k k' : AccessKey} {network : Network} {h : ℕ}

/-! ## Allocation -/

/-- The network as `_wireguard_payload` uses it. -/
def toIpNetwork (network : Network) : IpNetwork :=
  ⟨network.hosts.map network.version.text, network.prefixlen⟩

/-- The network of a node's `client_cidr`. -/
def clientNetwork (parse : Json → Except HttpError Network) (node : Node) : Except HttpError Network := do
  let cidr ← node.metadata.getOr "client_cidr" (.str "10.66.0.0/24")
  parse cidr

/-- What the pool of a node answers, `none` when it raises. -/
def allocate (parse : Json → Except HttpError Network) (db : Database) (nodeId : Id) : Option String :=
  (db.nodes.find? nodeId).bind fun node =>
    (wireguardAddress (fun cidr => (parse cidr).map toIpNetwork) db node).toOption

/-- An event whose keys get the addresses that the pool answers. -/
def Event.allocating (parse : Json → Except HttpError Network) (db : Database) : Event → Event
  | .admin name (.createUser newId material p) =>
    .admin name (.createUser newId (fun i => { material i with address := allocate parse db i }) p)
  | .admin name (.attachNode userId nodeId material) =>
    .admin name (.attachNode userId nodeId { material with address := allocate parse db nodeId })
  | e => e

/-- The control plane with its address pools. -/
def pool (parse : Json → Except HttpError Network) (cfg : Settings) : Machine Plane Event :=
  ⟨fun s e => (plane cfg).step s (Event.allocating parse s.db e)⟩

/-- The text of a host, as `str(candidate)` and as it stands in a key. -/
def hostText (network : Network) (h : ℕ) : String := network.version.text h

/-- The key has a host of the network as its address. -/
def Holds (k : AccessKey) (network : Network) (h : ℕ) : Prop :=
  h ∈ network.hosts ∧
    k.secretPayload.lookup "address" = some (hostText network h ++ "/" ++ toString network.prefixlen)

/-- The part of a key's address before the prefix length. -/
def hostOf (k : AccessKey) : String :=
  String.ofList ((((k.secretPayload.lookup "address").getD "").toList.splitOn '/').headD [])

/-- The address that is read back is the host that was allocated. -/
theorem Holds.hostOf (holds : Holds k network h) : hostOf k = hostText network h := by
  have split : (hostText network h ++ "/" ++ toString network.prefixlen).toList =
      (hostText network h).toList ++ '/' :: (toString network.prefixlen).toList := by
    simp
  have clean : '/' ∉ (hostText network h).toList := IpVersion.slash_notMem_text
  rw [AddressPool.hostOf, holds.2, Option.getD_some, split,
    List.splitOn_append_cons_self_of_not_mem clean, List.headD_cons, String.ofList_toList]

theorem Holds.hasSecret (holds : Holds k network h) : k.hasSecret "address" := by
  have long : (hostText network h ++ "/" ++ toString network.prefixlen) ≠ "" := by
    intro empty
    have := congrArg String.toList empty
    simp at this
  simp only [AccessKey.hasSecret, holds.2, Option.getD_some, decide_eq_true_eq]
  exact long

/-- The addresses in use are those of the node's keys. -/
theorem mem_usedAddresses {text : String} :
    text ∈ usedAddresses db node ↔ ∃ k ∈ db.accessKeys.rows, k.nodeId = node.id ∧
      k.hasSecret "address" ∧ hostOf k = text := by
  simp [usedAddresses, hostOf, and_assoc, and_left_comm]

/-- The first host that the pool can answer. -/
def freeHost (db : Database) (node : Node) (network : Network) : Option ℕ :=
  (network.hosts.drop 1).find? fun h => hostText network h ∉ usedAddresses db node

/-- What the pool answers, for a `client_cidr` that is a network. -/
theorem wireguardAddress_eq (client : clientNetwork parse node = .ok network) :
    (wireguardAddress (fun cidr => (parse cidr).map toIpNetwork) db node).toOption =
      (freeHost db node network).map fun h => hostText network h ++ "/" ++ toString network.prefixlen := by
  obtain ⟨cidr, member, parsed⟩ := bind_eq_ok.1 client
  have texts : ((toIpNetwork network).hosts.drop 1).find? (· ∉ usedAddresses db node) =
      (freeHost db node network).map (hostText network) := by
    rw [toIpNetwork, ← List.map_drop, List.find?_map]
    rfl
  simp only [wireguardAddress, member, parsed, bind, Except.bind, Except.map, texts]
  cases freeHost db node network <;> rfl

theorem wireguardAddress_error {err : HttpError} (client : clientNetwork parse node = .error err) :
    (wireguardAddress (fun cidr => (parse cidr).map toIpNetwork) db node).toOption = none := by
  cases member : node.metadata.getOr "client_cidr" (.str "10.66.0.0/24") with
  | error err => simp [wireguardAddress, member, bind, Except.bind, Except.toOption]
  | ok cidr =>
    have failed : parse cidr = .error err := by
      simpa [clientNetwork, member, bind, Except.bind] using client
    simp [wireguardAddress, member, failed, bind, Except.bind, Except.map, Except.toOption]

/-- An answer is a host of the node's network, not the first, that no key of the node has. -/
theorem allocate_some {nodeId : Id} {address : String} (answer : allocate parse db nodeId = some address) :
    ∃ node, db.nodes.find? nodeId = some node ∧ ∃ network, clientNetwork parse node = .ok network ∧
      ∃ h ∈ network.hosts, network.hosts.head? ≠ some h ∧ hostText network h ∉ usedAddresses db node ∧
        address = hostText network h ++ "/" ++ toString network.prefixlen := by
  obtain ⟨node, found, answer⟩ := Option.bind_eq_some_iff.1 answer
  refine ⟨node, found, ?_⟩
  cases client : clientNetwork parse node with
  | error err => rw [wireguardAddress_error client] at answer; cases answer
  | ok network =>
    rw [wireguardAddress_eq client] at answer
    obtain ⟨h, free, rfl⟩ := Option.map_eq_some_iff.1 answer
    have later : h ∈ network.hosts.drop 1 := List.mem_of_find?_eq_some free
    refine ⟨network, rfl, h, List.mem_of_mem_drop later, ?_, by simpa using List.find?_some free, rfl⟩
    -- the hosts are distinct, so a later one is not the first
    intro first
    obtain ⟨rest, hosts⟩ : ∃ rest, network.hosts = h :: rest := by
      cases hosts : network.hosts with
      | nil => rw [hosts] at first; cases first
      | cons a rest => rw [hosts] at first; cases first; exact ⟨rest, rfl⟩
    have distinct := network.hosts_nodup
    rw [hosts] at distinct later
    exact (List.nodup_cons.1 distinct).1 later

/-- **Completeness of the search**: without an answer every host but the first is in use. -/
theorem allocate_none {nodeId : Id} (found : db.nodes.find? nodeId = some node)
    (client : clientNetwork parse node = .ok network) (answer : allocate parse db nodeId = none) :
    ∀ h ∈ network.hosts.tail, ∃ k ∈ db.accessKeys.rows, k.nodeId = nodeId ∧ hostOf k = hostText network h := by
  intro h mem
  simp only [allocate, found, Option.bind_some, wireguardAddress_eq client, Option.map_eq_none_iff] at answer
  have used : hostText network h ∈ usedAddresses db node := by
    simpa using List.find?_eq_none.1 answer h (by simpa using mem)
  obtain ⟨k, there, mine, -, same⟩ := mem_usedAddresses.1 used
  exact ⟨k, there, mine.trans (Table.find?_key found), same⟩

/-! ## The invariant -/

/-- The node is a WireGuard node of the table. -/
def IsWireguard (db : Database) (nodeId : Id) : Prop :=
  ∃ node, db.nodes.find? nodeId = some node ∧ node.protocol = .wireguard

/-- Every key of a WireGuard node has a host address, and no other key of the node has that host. -/
structure Inv (db : Database) : Prop where
  holds : ∀ k ∈ db.accessKeys.rows, IsWireguard db k.nodeId → ∃ network h, Holds k network h
  distinct : ∀ k ∈ db.accessKeys.rows, ∀ k' ∈ db.accessKeys.rows, IsWireguard db k.nodeId →
    k.nodeId = k'.nodeId → hostOf k = hostOf k' → k.id = k'.id

/-- The key came with this event, with an address that the node's pool answered. -/
def Allocated (parse : Json → Except HttpError Network) (db : Database) (k : AccessKey) : Prop :=
  ∃ node, db.nodes.find? k.nodeId = some node ∧ ∃ network, clientNetwork parse node = .ok network ∧
    ∃ h, network.hosts.head? ≠ some h ∧ hostText network h ∉ usedAddresses db node ∧ Holds k network h

/-- A key that is made for a WireGuard node has the answer of the pool. -/
theorem allocated_of_made {user : User} {material : KeyMaterial} (protocol : node.protocol = .wireguard)
    (how : KeyMade db (Event.allocating parse db e) node user.id material)
    (made : createAccessKey material user node = .ok k) : Allocated parse db k := by
  have answered : material.address = allocate parse db node.id := by
    generalize event : Event.allocating parse db e = e' at how
    cases how with
    | created name newId material' p node mem =>
      cases e with
      | admin name op => cases op <;> cases event; rfl
      | _ => cases event
    | attached name userId nodeId material' node found =>
      have here := Table.find?_key found
      cases e with
      | admin name op => cases op <;> cases event; rw [here]
      | _ => cases event
  obtain ⟨-, here⟩ := createAccessKey_owner made
  simp only [createAccessKey, protocol] at made
  split at made
  · cases made
  · rename_i address given
    cases made
    obtain ⟨node', found, network, client, h, mem, first, unused, rfl⟩ :=
      allocate_some (answered.symm.trans given)
    exact ⟨node', found, network, client, h, first, unused, mem, rfl⟩

/-! ## One step -/

/-- A node that was there and is a WireGuard node was one. -/
theorem wireguard_before {nodeId : Id} (keeps : KeepsProtocols db db')
    (there : (db.nodes.find? nodeId).isSome) (after : IsWireguard db' nodeId) : IsWireguard db nodeId := by
  obtain ⟨node, found⟩ := Option.isSome_iff_exists.1 there
  obtain ⟨node', found', protocol⟩ := after
  exact ⟨node, found, (keeps.protocol found found').symm.trans protocol⟩

/-- A key of a WireGuard node after a step of the pool. -/
inductive PoolKey (parse : Json → Except HttpError Network) (db : Database) (e : Event) (k : AccessKey) : Prop
  | kept (k₀ : AccessKey) (mem : k₀ ∈ db.accessKeys.rows) (wireguard : IsWireguard db k₀.nodeId)
      (same : k = { k₀ with enabled := k.enabled })
  | allocated (node : Node) (material : KeyMaterial)
      (how : KeyMade db (Event.allocating parse db e) node k.userId material)
      (fresh : Allocated parse db k)

theorem pool_step : (pool parse cfg).step s e = some s' →
    s'.db = (Event.allocating parse s.db e).commit cfg s.now s.db := by
  intro step
  obtain ⟨-, rfl⟩ := plane_step.1 step
  rfl

/-- **The inversion lemma** for the keys of the WireGuard nodes. -/
theorem pool_key (step : (pool parse cfg).step s e = some s') (mem : k ∈ s'.db.accessKeys.rows)
    (wireguard : IsWireguard s'.db k.nodeId) : PoolKey parse s.db e k := by
  have keeps : KeepsProtocols s.db s'.db := by
    rw [pool_step step]
    exact commit_keepsProtocols cfg s.now s.db _
  cases key_origin cfg s.now s.db (Event.allocating parse s.db e) k (pool_step step ▸ mem) with
  | kept k₀ mem₀ same =>
    have node : k.nodeId = k₀.nodeId := by rw [same]
    exact .kept k₀ mem₀ (wireguard_before keeps (s.db.keyNode k₀ mem₀) (node ▸ wireguard)) same
  | made node user material how made =>
    obtain ⟨owner, here⟩ := createAccessKey_owner made
    obtain ⟨node', found', protocol⟩ := wireguard_before keeps (by rw [how.found]; rfl) (here ▸ wireguard)
    rw [how.found] at found'
    cases found'
    exact .allocated node material (owner ▸ how) (allocated_of_made protocol how made)

/-- A new address is not that of a key that was there. -/
theorem Allocated.ne_hostOf {k₀ : AccessKey} (fresh : Allocated parse db k) (before : Inv db)
    (mem₀ : k₀ ∈ db.accessKeys.rows) (wireguard : IsWireguard db k₀.nodeId)
    (same : k₀.nodeId = k.nodeId) : hostOf k₀ ≠ hostOf k := by
  obtain ⟨node, found, network, -, h, -, unused, holds⟩ := fresh
  obtain ⟨network₀, h₀, holds₀⟩ := before.holds k₀ mem₀ wireguard
  intro host
  refine unused (mem_usedAddresses.2 ⟨k₀, mem₀, ?_, holds₀.hasSecret, host.trans holds.hostOf⟩)
  rw [same, Table.find?_key found]

theorem hostOf_congr {k₀ : AccessKey} {on : Bool} (same : k = { k₀ with enabled := on }) :
    hostOf k = hostOf k₀ := by
  rw [same, hostOf, hostOf]

/-- Every step keeps the addresses of a node's keys distinct. -/
theorem inv_step (before : Inv s.db) (step : (pool parse cfg).step s e = some s') : Inv s'.db where
  holds k mem wireguard := by
    cases pool_key step mem wireguard with
    | kept k₀ mem₀ wireguard₀ same =>
      obtain ⟨network, h, holds⟩ := before.holds k₀ mem₀ wireguard₀
      exact ⟨network, h, holds.1, by rw [same]; exact holds.2⟩
    | allocated node material how fresh =>
      obtain ⟨node, -, network, -, h, -, -, holds⟩ := fresh
      exact ⟨network, h, holds⟩
  distinct k mem k' mem' wireguard node host := by
    cases pool_key step mem wireguard with
    | kept k₀ mem₀ wireguard₀ same =>
      cases pool_key step mem' (node ▸ wireguard) with
      | kept k₀' mem₀' _ same' =>
        rw [hostOf_congr same, hostOf_congr same'] at host
        rw [same, same'] at node ⊢
        exact before.distinct k₀ mem₀ k₀' mem₀' wireguard₀ node host
      | allocated _ _ _ fresh =>
        have node₀ : k₀.nodeId = k'.nodeId := by rw [← node, same]
        exact absurd (hostOf_congr same ▸ host) (fresh.ne_hostOf before mem₀ wireguard₀ node₀)
    | allocated _ _ how fresh =>
      cases pool_key step mem' (node ▸ wireguard) with
      | kept k₀ mem₀ wireguard₀ same =>
        have node₀ : k₀.nodeId = k.nodeId := by rw [node, same]
        exact absurd (hostOf_congr same ▸ host.symm) (fresh.ne_hostOf before mem₀ wireguard₀ node₀)
      | allocated _ _ how' _ =>
        -- one event makes at most one key for a user and a node
        have owner : k.userId = k'.userId := how.user_unique how'
        have same : k = k' := List.inj_on_of_nodup_map s'.db.keyPairs mem mem' (by rw [owner, node])
        rw [same]

/-! ## Runs -/

theorem inv_run {start : Instant} {es : List Event} (run : (pool parse cfg).run (.initial start) es = some s) :
    Inv s.db := by
  refine Machine.run_invariant (I := fun s => Inv s.db) (fun before step => inv_step before step) ?_ ⟨es, run⟩
  constructor <;> intro k mem <;> simp [Plane.initial, Database.empty] at mem

/-- **The address pools.** In every run, the keys of a WireGuard node have pairwise distinct host
addresses; a pool that answers nothing has every host of its network but the first in use; and
the address of a key that a step adds is a host of the node's network as it then is, not its
first one, and not in use. -/
theorem wireguard_pool (parse : Json → Except HttpError Network) (cfg : Settings) (start : Instant)
    (es : List Event) (s : Plane) (run : (pool parse cfg).run (.initial start) es = some s) :
    (∀ node ∈ s.db.nodes.rows, node.protocol = .wireguard →
      (∀ k ∈ s.db.accessKeys.rows, k.nodeId = node.id → ∃ network h, Holds k network h) ∧
      (∀ k ∈ s.db.accessKeys.rows, ∀ k' ∈ s.db.accessKeys.rows, k.nodeId = node.id →
        k'.nodeId = node.id → hostOf k = hostOf k' → k = k') ∧
      ∀ network, clientNetwork parse node = .ok network → allocate parse s.db node.id = none →
        ∀ h ∈ network.hosts.tail, ∃ k ∈ s.db.accessKeys.rows,
          k.nodeId = node.id ∧ hostOf k = hostText network h) ∧
    ∀ e s', (pool parse cfg).step s e = some s' →
      ∀ k ∈ s'.db.accessKeys.rows, IsWireguard s'.db k.nodeId →
        (∀ k₀ ∈ s.db.accessKeys.rows, k₀.id ≠ k.id) → Allocated parse s.db k := by
  have inv : Inv s.db := inv_run run
  constructor
  · intro node mem protocol
    have found := Table.find?_of_mem mem
    have wireguard : IsWireguard s.db node.id := ⟨node, found, protocol⟩
    refine ⟨fun k there mine => inv.holds k there (mine ▸ wireguard), ?_, ?_⟩
    · intro k there k' there' mine mine' host
      have same := inv.distinct k there k' there' (mine ▸ wireguard) (mine.trans mine'.symm) host
      exact Table.eq_of_key_eq there there' same
    · intro network client answer
      exact allocate_none found client answer
  · intro e s' step k mem wireguard new
    cases pool_key step mem wireguard with
    | kept k₀ mem₀ _ same => exact absurd (by rw [same]) (new k₀ mem₀)
    | allocated _ _ _ fresh => exact fresh

/-- A network of two usable hosts. -/
def smallNetwork : Network := ⟨.v4, 0x0A420000, 30, by decide, by decide, by decide⟩

def parseSmall : Json → Except HttpError Network
  | .str "10.66.0.0/30" => .ok smallNetwork
  | _ => .error internalError

/-- A WireGuard node of that network and a user with a key on it. -/
def pooled : List Event :=
  [.admin "admin" (.createNode "node"
      { testNode with
        kind := .wireguard, protocol := .wireguard, transport := .external, metadata := [("client_cidr", .str "10.66.0.0/30")] }),
    .admin "admin" (.createUser "user" testKeys testUser)]

/-- The first key has the second host, and after it the pool is exhausted. -/
theorem wireguard_pool_small :
    ∃ s k, (pool parseSmall {}).run (.initial 0) pooled = some s ∧ k ∈ s.db.accessKeys.rows ∧
      k.secretPayload.lookup "address" = some "10.66.0.2/30" ∧ (∃ network h, Holds k network h) ∧
      ∀ h ∈ smallNetwork.hosts.tail, ∃ k ∈ s.db.accessKeys.rows,
        k.nodeId = "node" ∧ hostOf k = hostText smallNetwork h := by
  obtain ⟨s, run, facts⟩ := (Option.any_eq_true _ _).1
    (by decide +kernel : ((pool parseSmall {}).run (.initial 0) pooled).any fun s =>
      (s.db.nodes.find? "node").any fun node =>
        node.protocol == .wireguard && (clientNetwork parseSmall node).toOption == some smallNetwork &&
          (allocate parseSmall s.db "node").isNone && s.db.accessKeys.rows.any fun k =>
            k.nodeId == "node" && k.secretPayload.lookup "address" == some "10.66.0.2/30")
  simp only [Option.any_eq_true, List.any_eq_true, Bool.and_eq_true, beq_iff_eq,
    Option.isNone_iff_eq_none] at facts
  obtain ⟨node, found, ⟨⟨protocol, client⟩, exhausted⟩, k, mem, mine, address⟩ := facts
  have here : node.id = "node" := Table.find?_key found
  obtain ⟨hosts, -, complete⟩ := (wireguard_pool parseSmall {} 0 pooled s run).1 node (Table.find?_mem found) protocol
  rw [here] at hosts complete
  exact ⟨s, k, run, mem, address, hosts k mem mine, complete smallNetwork (toOption_eq_some.1 client) exhausted⟩

end Arena.AddressPool
