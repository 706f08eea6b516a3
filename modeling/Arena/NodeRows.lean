import Arena.Model.Files
import Arena.Model.Links
import Arena.Model.RowProperties

/-!
# Which edits keep node rows well-formed

The readers of a node's metadata take it for an object, and its links need a host and a rooted
path. `create_node` and `update_node` strip the host after its length was checked, `update_node`
stores `null` for metadata given as `null` and, other than `create_node`, leaves an empty path
empty.
-/

namespace Arena.NodeRows

open Arena.Lib Arena.Model

variable {cfg : Settings} {now : Instant} {db db' : Database} {s s' : Plane} {e : Event}
  {n node row : Node} {p : NodeUpdate}

/-- A row as its readers take it. -/
structure WellFormed (n : Node) : Prop where
  object : n.metadata.isObject
  host : n.host ≠ ""
  rooted : n.path.toList.head? = some '/'

/-- What an accepted `update_node` must not store: metadata given as `null`, a blank host or an
empty path. -/
def Sound (p : NodeUpdate) : Prop :=
  p.metadata.isNull = false ∧ (p.host.map stripSpaces).getD "-" ≠ "" ∧ p.path.getD "/" ≠ ""

/-- The event is no accepted `create_node` with a blank host and no accepted `update_node` that
stores what it must not. -/
def KeepsWellFormed (db : Database) : Event → Prop
  | .admin _ (.createNode _ p) => validateNode p = .ok () →
      (∀ n ∈ db.nodes.rows, n.slug ≠ p.slug) → stripSpaces p.host ≠ ""
  | .admin _ (.updateNode nodeId p) =>
      p.refused = false → (db.nodes.find? nodeId).isSome → Sound p
  | _ => True

instance (db : Database) : DecidablePred (KeepsWellFormed db)
  | .admin _ (.createNode _ p) => match h : validateNode p with
    | .ok () => inferInstanceAs (Decidable (_ → _ → _))
    | .error _ => isTrue fun accepted => by simp [h] at accepted
  | .admin _ (.updateNode nodeId p) => inferInstanceAs (Decidable (p.refused = false →
      (db.nodes.find? nodeId).isSome → _ ∧ _ ∧ _))
  | .tick _ | .start .. | .authorize .. | .heartbeat _ | .close _ => isTrue trivial
  | .admin _ (.createUser ..) | .admin _ (.updateUser ..) | .admin _ (.resetUsage _) |
    .admin _ (.rotateSubscription _) | .admin _ (.attachNode ..) | .admin _ (.detachNode ..) |
    .admin _ (.deleteUser _) | .admin _ (.disableNode _) => isTrue trivial

/-! ## What is stored -/

theorem normalizePath_rooted (value : String) : (normalizePath value).toList.head? = some '/' := by
  simp [normalizePath]

/-- A given path is stored rooted, unless it is empty. -/
theorem patchPath_rooted {value : String} :
    (patchPath value).toList.head? = some '/' ↔ value ≠ "" := by
  unfold patchPath
  split
  · rename_i empty
    simp [empty]
  · rename_i given
    have kept : isSpace '/' = false := by decide
    simp [given, stripSpaces, normalizePath, head?_strip_cons kept]

theorem defaultNode_wellFormed {newId : Id} {name slug : String} {protocol : Protocol} :
    WellFormed (defaultNode cfg newId name slug protocol) :=
  ⟨rfl, by simp [defaultNode], normalizePath_rooted _⟩

theorem newNode_wellFormed {newId : Id} {p : NodeCreate} :
    WellFormed (newNode newId p) ↔ stripSpaces p.host ≠ "" :=
  ⟨fun wf => wf.host, fun host => ⟨rfl, host, normalizePath_rooted _⟩⟩

/-- The columns that an accepted `update_node` stores, one by one. -/
theorem apply_wellFormed (wf : WellFormed n) : WellFormed (p.apply n) ↔ Sound p := by
  have object : (p.apply n).metadata.isObject ↔ p.metadata.isNull = false := by
    cases given : p.metadata with
    | unset => simpa [NodeUpdate.apply, given, Patch.isNull] using wf.object
    | null => simp [NodeUpdate.apply, given, Patch.isNull, Json.isObject]
    | set members => simp [NodeUpdate.apply, given, Patch.isNull, Json.isObject]
  have host : (p.apply n).host ≠ "" ↔ (p.host.map stripSpaces).getD "-" ≠ "" := by
    cases given : p.host <;> simp [NodeUpdate.apply, given, wf.host, Patch.map, Patch.getD]
  have rooted : (p.apply n).path.toList.head? = some '/' ↔ p.path.getD "/" ≠ "" := by
    cases given : p.path <;>
      simp [NodeUpdate.apply, given, wf.rooted, Patch.map, Patch.getD, patchPath_rooted]
  constructor
  · intro after
    exact ⟨object.1 after.object, host.1 after.host, rooted.1 after.rooted⟩
  · rintro ⟨metadata, named, path⟩
    exact ⟨object.2 metadata, host.2 named, rooted.2 path⟩

theorem isObject_iff {value : Json} : value.isObject ↔ ∃ members, value = .obj members := by
  cases value <;> simp [Json.isObject]

/-- Start-up keeps a row well-formed. -/
theorem reseed_wellFormed (wf : WellFormed n) (reseeded : n.reseed = .ok row) : WellFormed row := by
  have rooted : row.path.toList.head? = some '/' := reseed_path reseeded ▸ wf.rooted
  have object : row.metadata.isObject := reseed_isObject reseeded
  obtain ⟨metadata, -, adaptive, -, rfl⟩ := reseed_eq_ok.1 reseeded
  cases adaptive with
  | true => exact ⟨object, by simp [Node.makeAdaptive], rooted⟩
  | false => exact ⟨object, wf.host, rooted⟩

/-! ## Steps -/

/-- Every node row is well-formed. -/
def AllWellFormed (db : Database) : Prop := ∀ n ∈ db.nodes.rows, WellFormed n

theorem wellFormed_kept : RowsKept cfg WellFormed where
  default _ _ _ _ := defaultNode_wellFormed
  reseed := reseed_wellFormed
  disable before := ⟨before.object, before.host, before.rooted⟩

/-- The condition, column by column. -/
theorem stores_wellFormed_iff (all : AllWellFormed db) : StoresOnly WellFormed db e ↔ KeepsWellFormed db e := by
  cases e with
  | admin name op =>
    cases op with
    | createNode newId p => simp only [StoresOnly, KeepsWellFormed, newNode_wellFormed]
    | updateNode nodeId p =>
      simp only [StoresOnly, KeepsWellFormed]
      refine imp_congr_right fun _ => ?_
      cases found : db.nodes.find? nodeId with
      | none => simp
      | some n => simp [apply_wellFormed (all n (Table.find?_mem found))]
    | _ => rfl
  | _ => rfl

/-! ## Readers -/

/-- A member of an object; no other value has one. -/
def member (name : String) : Json → Option Json
  | .obj members => members.lookup name
  | _ => none

theorem get?_object {name : String} {value : Json} (object : value.isObject) :
    value.get? name = .ok (member name value) := by
  obtain ⟨members, rfl⟩ := isObject_iff.1 object
  rfl

theorem getOr_object {name : String} {value default : Json} (object : value.isObject) :
    value.getOr name default = .ok ((member name value).getD default) :=
  bind_eq_ok.2 ⟨_, get?_object object, rfl⟩

/-- What the readers of a node's metadata do: they raise for a reason of their own, or not at
all. -/
structure Readable (db : Database) (n : Node) : Prop where
  reseed : ∃ row, n.reseed = .ok row
  endpoint (base) : ∃ endpoint, proxyEndpoint n base = .ok endpoint
  cisco (format user key) : ∃ text, ciscoProfileXml format user n key = .ok text
  wireguard (format user key) : (∃ text, wireguardProfile format user n key = .ok text) ↔
    key.hasSecret "private_key" ∧ (member "server_public_key" n.metadata).any Json.truthy ∧
      (key.secretPayload.lookup "address").isSome
  address (ipNetwork) : (∃ address, wireguardAddress ipNetwork db n = .ok address) ↔
    ∃ network, ipNetwork ((member "client_cidr" n.metadata).getD (.str "10.66.0.0/24")) = .ok network ∧
      ∃ candidate ∈ network.hosts.drop 1, candidate ∉ usedAddresses db n

theorem wireguardProfile_ok {format : Json → String} {user : User} {key : AccessKey}
    (object : n.metadata.isObject) : (∃ text, wireguardProfile format user n key = .ok text) ↔
      key.hasSecret "private_key" ∧ (member "server_public_key" n.metadata).any Json.truthy ∧
        (key.secretPayload.lookup "address").isSome := by
  simp only [wireguardProfile, get?_object object, getOr_object object, bind, Except.bind]
  cases key.hasSecret "private_key" with
  | false => simp
  | true =>
    cases (member "server_public_key" n.metadata).any Json.truthy with
    | false => simp
    | true => cases key.secretPayload.lookup "address" <;> simp

theorem wireguardAddress_ok {ipNetwork : Json → Except HttpError IpNetwork}
    (object : n.metadata.isObject) : (∃ address, wireguardAddress ipNetwork db n = .ok address) ↔
      ∃ network,
        ipNetwork ((member "client_cidr" n.metadata).getD (.str "10.66.0.0/24")) = .ok network ∧
          ∃ candidate ∈ network.hosts.drop 1, candidate ∉ usedAddresses db n := by
  simp only [wireguardAddress, getOr_object object, bind, Except.bind]
  cases ipNetwork ((member "client_cidr" n.metadata).getD (.str "10.66.0.0/24")) with
  | error => simp
  | ok network =>
    cases free : (network.hosts.drop 1).find? (· ∉ usedAddresses db n) with
    | none =>
      have taken : ∀ candidate ∈ network.hosts.drop 1, candidate ∈ usedAddresses db n := by
        simpa using free
      simp only [free]
      constructor
      · rintro ⟨_, h⟩
        cases h
      · rintro ⟨_, same, candidate, mem, unused⟩
        cases same
        exact absurd (taken candidate mem) unused
    | some candidate =>
      have unused : candidate ∉ usedAddresses db n := by simpa using List.find?_some free
      simp only [free]
      exact ⟨fun _ => ⟨network, rfl, candidate, List.mem_of_find?_eq_some free, unused⟩,
        fun _ => ⟨_, rfl⟩⟩

theorem WellFormed.readable (wf : WellFormed n) : Readable db n where
  reseed := reseed_object wf.object
  endpoint _ := proxyEndpoint_ok_iff.2 wf.object
  cisco _ _ _ := ⟨_, bind_eq_ok.2 ⟨_, getOr_object wf.object, rfl⟩⟩
  wireguard _ _ _ := wireguardProfile_ok wf.object
  address _ := wireguardAddress_ok wf.object

/-- A subscription renders. -/
theorem subscription_ok {user : User} {base : PublicEndpoint} {raw : Bool}
    (all : AllWellFormed db) (found : db.users.find? user.id = some user) :
    ∃ reply, subscription now db base raw user.id user.subscriptionVersion = .ok reply := by
  obtain ⟨links, rendered⟩ : ∃ links, proxyLinks user (some base) (servedKeys now db user) = .ok links := by
    refine proxyLinks_ok_iff.2 fun key node mem => proxyUri_ok_iff.2 fun _ _ _ => ?_
    unfold servedKeys at mem
    split at mem
    · exact (all node (Table.find?_mem (mem_keysOf.1 mem).2.2)).object
    · cases mem
  have document : ∃ text, subscriptionDocument now user (servedKeys now db user) (some base) = .ok text :=
    ⟨_, bind_eq_ok.2 ⟨links, rendered, rfl⟩⟩
  obtain ⟨text, written⟩ := document
  simp only [subscription, found, Option.filter_some, decide_true, if_true]
  exact ⟨_, bind_eq_ok.2 ⟨text, written, rfl⟩⟩

/-! ## Runs -/

/-- Node rows are well-formed and have drawn identifiers. -/
structure Inv (s : Plane) : Prop where
  all : AllWellFormed s.db
  drawn : ∀ n ∈ s.db.nodes.rows, n.id ∈ s.issued

theorem Inv.fresh {i : Id} (inv : Inv s) (new : i ∉ s.issued) : ∀ n ∈ s.db.nodes.rows, n.id ≠ i :=
  fun n mem same => new (same ▸ inv.drawn n mem)

/-- The condition is exact: any step that breaks it commits a row that is not well-formed. -/
theorem wellFormed_iff_keeps (inv : Inv s) (step : (plane cfg).step s e = some s') :
    AllWellFormed s'.db ↔ KeepsWellFormed s.db e :=
  (wellFormed_kept.step_iff inv.all inv.drawn step).trans (stores_wellFormed_iff inv.all)

theorem inv_step (inv : Inv s) (keeps : KeepsWellFormed s.db e)
    (step : (plane cfg).step s e = some s') : Inv s' :=
  ⟨(wellFormed_iff_keeps inv step).2 keeps, nodes_drawn_step inv.drawn step⟩

/-- **When node rows stay well-formed.** In every run whose requests store no blank host, no
empty path and no `null` for metadata, every row in every state is well-formed, so that its
readers, start-up and each subscription do not raise on it. And any next step keeps all rows
well-formed exactly when it is such a request. -/
theorem node_rows_well_formed (cfg : Settings) (start : Instant) (es : List Event) (s : Plane)
    (run : (plane cfg).run (.initial start) es = some s)
    (keeps : (plane cfg).Along (fun s e => KeepsWellFormed s.db e) (.initial start) es) :
    (∀ n ∈ s.db.nodes.rows, WellFormed n ∧ Readable s.db n) ∧
    (∀ vlessId vmessId, vlessId ∉ s.issued → vmessId ∉ s.issued → vlessId ≠ vmessId →
      ∃ db', seedDatabase cfg vlessId vmessId s.db = .ok db') ∧
    (∀ user ∈ s.db.users.rows, ∀ now base raw, ∃ reply,
      subscription now s.db base raw user.id user.subscriptionVersion = .ok reply) ∧
    ∀ e s', (plane cfg).step s e = some s' → (AllWellFormed s'.db ↔ KeepsWellFormed s.db e) := by
  have init : Inv (.initial start) := ⟨by simp [AllWellFormed, Plane.initial], by simp [Plane.initial]⟩
  have inv : Inv s := Machine.along_invariant inv_step init keeps run
  refine ⟨fun n mem => ⟨inv.all n mem, (inv.all n mem).readable⟩, ?_, ?_, ?_⟩
  · intro vlessId vmessId vless vmess distinct
    exact seedDatabase_isOk cfg (fun n mem => (inv.all n mem).object)
      (Table.find?_eq_none_iff.2 (inv.fresh vless)) (Table.find?_eq_none_iff.2 (inv.fresh vmess)) distinct
  · intro user mem now base raw
    exact subscription_ok inv.all (Table.find?_of_mem mem)
  · intro e s' step
    exact wellFormed_iff_keeps inv step

/-- Metadata given as `null`. -/
def nullMetadata : NodeUpdate := { metadata := .null, nameLength := Patch.unset_name }

def edgeEndpoint : NodeUpdate where
  host := .set " edge "
  path := .set "ws/"
  nameLength := Patch.unset_name
  hostLength := by rintro _ ⟨⟩; decide
  pathLength := by rintro _ ⟨⟩; decide

/-- The default nodes, one of them with another host and path. -/
def editedDefaults : List Event :=
  [.start "vless" "vmess", .admin "admin" (.updateNode "vless" edgeEndpoint)]

/-- The edited nodes are well-formed, and start-up and the next edit say so. -/
theorem node_rows_well_formed_edited :
    ∃ s s', (plane {}).run (.initial 0) editedDefaults = some s ∧
      (∃ n ∈ s.db.nodes.rows, n.host = "edge" ∧ n.path = "/ws" ∧ WellFormed n) ∧
      (plane {}).step s (.admin "admin" (.updateNode "vless" nullMetadata)) = some s' ∧
      ¬ AllWellFormed s'.db := by
  obtain ⟨s, run, facts⟩ := (Option.any_eq_true _ _).1
    (by decide +kernel : ((plane {}).run (.initial 0) editedDefaults).any fun s =>
      (s.db.nodes.find? "vless").any (fun n => n.host = "edge" ∧ n.path = "/ws") &&
        ((plane {}).step s (.admin "admin" (.updateNode "vless" nullMetadata))).isSome &&
        !decide (KeepsWellFormed s.db (.admin "admin" (.updateNode "vless" nullMetadata))))
  simp only [Bool.and_eq_true, Option.any_eq_true, Bool.not_eq_true',
    decide_eq_false_iff_not, decide_eq_true_eq, Option.isSome_iff_exists] at facts
  obtain ⟨⟨⟨n, found, host, path⟩, s', step⟩, breaks⟩ := facts
  have mem := Table.find?_mem found
  obtain ⟨rows, -, -, exact_step⟩ := node_rows_well_formed {} 0 editedDefaults s run (by decide +kernel)
  exact ⟨s, s', run, ⟨n, mem, host, path, (rows n mem).1⟩, step,
    fun all => breaks ((exact_step _ s' step).1 all)⟩

/-- An accepted edit leaves a row whose metadata are not an object. -/
theorem edits_break_nodes :
    ¬ ∀ (cfg : Settings) (start : Instant) (es : List Event) (s : Plane),
      (plane cfg).run (.initial start) es = some s → ∀ n ∈ s.db.nodes.rows, WellFormed n := by
  intro claim
  obtain ⟨s, run, facts⟩ := (Option.any_eq_true _ _).1
    (by decide +kernel : ((plane {}).run (.initial 0) [.start "vless" "vmess",
      .admin "admin" (.updateNode "vless" nullMetadata)]).any fun s =>
        (s.db.nodes.find? "vless").any fun n => !n.metadata.isObject)
  simp only [Option.any_eq_true, Bool.not_eq_true'] at facts
  obtain ⟨n, found, broken⟩ := facts
  have wf := claim {} 0 _ s run n (Table.find?_mem found)
  exact absurd wf.object (by simp [broken])

end Arena.NodeRows
