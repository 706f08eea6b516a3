import Mathlib.Algebra.Order.Group.Multiset
import Arena.Model.KeyRows

/-!
# The credentials of the access keys

`create_access_key` draws the credential of a key on a VLESS, VMess or WireGuard node. On a Cisco
node it takes it from the user's id, up to the first hyphen, and nothing keeps the first parts
of two ids apart. In every run that draws no UUID and no public key twice, the keys of a node
identify their users as long as no key is made on a Cisco node where a user with the same first
part has one; the step that makes such a key is exactly the one after which they do not.
-/

namespace Arena.Credentials

open Arena.Lib Arena.Model

variable {cfg : Settings} {now : Instant} {db db' : Database} {e : Event} {op : AdminOp} {name : String}
  {k k₀ : AccessKey} {node : Node} {uuids publicKeys : Multiset String}

/-! ## The keys that a request makes -/

/-- A key to be made: its user, its node and what is drawn for it. -/
structure Draft where
  userId : Id
  node : Node
  material : KeyMaterial

/-- The first part of an identifier, `user.id.split('-')[0]`. -/
def firstPart (i : Id) : String := String.ofList ((i.toList.splitOn '-').headD [])

/-- The user name on a Cisco node. -/
def username (userId : Id) : String := "arena-" ++ firstPart userId

/-- The credential that `create_access_key` gives the key. -/
def Draft.credential (d : Draft) : String :=
  match d.node.protocol with
  | .vless | .vmess => d.material.uuid
  | .wireguard => d.material.publicKey
  | .cisco => username d.userId

/-- The UUID that is drawn for the key. -/
def Draft.uuid? (d : Draft) : Option String :=
  match d.node.protocol with
  | .vless | .vmess => some d.material.uuid
  | _ => none

/-- The public key that is drawn for the key. -/
def Draft.publicKey? (d : Draft) : Option String :=
  match d.node.protocol with
  | .wireguard => some d.material.publicKey
  | _ => none

/-- The keys that an accepted request makes. -/
def draftsOf (db : Database) : AdminOp → List Draft
  | .createUser newId material p =>
    (db.nodes.rows.filter fun n => n.enabled && (p.nodeIds.isEmpty || p.nodeIds.contains n.id)).map
      fun n => ⟨newId, n, material n.id⟩
  | .attachNode userId nodeId material =>
    match db.nodes.find? nodeId with
    | some node => if db.holdsKey userId nodeId then [] else [⟨userId, node, material⟩]
    | none => []
  | _ => []

/-- The keys that an event makes. A request that is refused makes none. -/
def drafts (db : Database) : Event → List Draft
  | .admin name op => if (op.commit name db).isOk then draftsOf db op else []
  | _ => []

/-- The UUIDs that an event draws for its keys. -/
def drawnUuids (db : Database) (e : Event) : Multiset String :=
  ((drafts db e).filterMap Draft.uuid? : List String)

/-- The X25519 public keys that an event draws. -/
def drawnPublicKeys (db : Database) (e : Event) : Multiset String :=
  ((drafts db e).filterMap Draft.publicKey? : List String)

/-- The key is the one that was to be made. -/
structure Draft.Yields (d : Draft) (k : AccessKey) : Prop where
  user : k.userId = d.userId
  node : k.nodeId = d.node.id
  credential : k.credential = d.credential

theorem yields_of_made {material : KeyMaterial} {user : User}
    (made : createAccessKey material user node = .ok k) : Draft.Yields ⟨user.id, node, material⟩ k := by
  obtain ⟨owner, here⟩ := createAccessKey_owner made
  refine ⟨owner, here, ?_⟩
  simp only [createAccessKey] at made
  simp only [Draft.credential]
  cases protocol : node.protocol with
  | vless | vmess => simp only [protocol] at made; cases made; rfl
  | wireguard =>
    simp only [protocol] at made
    split at made
    · cases made
    · cases made; rfl
  | cisco => simp only [protocol] at made; cases made; rfl

/-- What an event does to the keys: it makes none and changes at most their flags, or it makes the
keys of a list of nodes for one user. -/
inductive Drafting (db after : Database) (ds : List Draft) : Prop
  | none (empty : ds = [])
      (kept : ∀ k ∈ after.accessKeys.rows, ∃ k₀ ∈ db.accessKeys.rows, k = { k₀ with enabled := k.enabled })
  | made (user : User) (nodes : List Node) (material : Id → KeyMaterial) (first last : Database)
      (keys : createKeys material user nodes first = .ok last)
      (before : first.accessKeys = db.accessKeys) (result : after.accessKeys = last.accessKeys)
      (found : ∀ n ∈ nodes, db.nodes.find? n.id = some n)
      (all : ds = nodes.map fun n => ⟨user.id, n, material n.id⟩)

/-- An event that is no request for keys makes none. -/
theorem drafting_none (empty : drafts db e = [])
    (unmade : ∀ node i material, ¬KeyMade db e node i material) :
    Drafting db (e.commit cfg now db) (drafts db e) := by
  refine .none empty fun k mem => ?_
  cases key_origin cfg now db e k mem with
  | kept k₀ mem₀ same => exact ⟨k₀, mem₀, same⟩
  | made node user material how _ => exact absurd how (unmade node user.id material)

theorem drafting_admin (done : op.commit name db = .ok db') :
    Drafting db ((Event.admin name op).commit cfg now db) (drafts db (.admin name op)) := by
  have after : (Event.admin name op).commit cfg now db = db' := by simp [Event.commit, done, Except.toOption]
  have accepted : drafts db (.admin name op) = draftsOf db op := by simp [drafts, done, Except.isOk, Except.toBool]
  cases op with
  | createUser newId material p =>
    obtain ⟨mid, last, event, inserted, keys, -, -, rfl⟩ := createUser_inv done
    obtain ⟨-, nodes, old, -⟩ := Database.insertUser?_eq_some inserted
    rw [nodes] at keys
    exact .made (newUser newId p) _ material mid last keys old (by rw [after, Database.addAudit_accessKeys])
      (fun n mem => Table.find?_of_mem (List.mem_filter.1 mem).1) accepted
  | attachNode userId nodeId material =>
    obtain ⟨user, node, mid, event, found, here, how, -, -, rfl⟩ := attachNode_inv done
    have owner : user.id = userId := Table.find?_key found
    rcases how with ⟨held, rfl⟩ | ⟨free, keys⟩
    · refine .none (by simp [accepted, draftsOf, here, held]) fun k mem => ?_
      rw [after, Database.addAudit_accessKeys, Database.updateKeysEnabled_accessKeys,
        Table.mem_update] at mem
      obtain ⟨k₀, mem, rfl⟩ := mem
      refine ⟨k₀, mem, ?_⟩
      split <;> rfl
    · have found : ∀ n ∈ [node], db.nodes.find? n.id = some n := by
        intro n mem
        rw [List.mem_singleton.1 mem, Table.find?_key here, here]
      exact .made user [node] (fun _ => material) db mid keys rfl (by rw [after, Database.addAudit_accessKeys])
        found (by simp [accepted, draftsOf, here, free, owner])
  | _ => exact drafting_none accepted fun _ _ _ how => by cases how

/-- **The inversion lemma** for the keys that an event makes. -/
theorem commit_drafting (cfg : Settings) (now : Instant) (db : Database) (e : Event) :
    Drafting db (e.commit cfg now db) (drafts db e) := by
  cases e with
  | admin name op =>
    cases done : op.commit name db with
    | ok db' => exact drafting_admin done
    | error err =>
      refine .none (by simp [drafts, done, Except.isOk, Except.toBool]) fun k mem => ⟨k, ?_, rfl⟩
      simpa [Event.commit, done, Except.toOption] using mem
  | _ => exact drafting_none rfl fun _ _ _ how => by cases how

theorem kept_or_drafted (mem : k ∈ (e.commit cfg now db).accessKeys.rows) :
    (∃ k₀ ∈ db.accessKeys.rows, ∃ on, k = { k₀ with enabled := on }) ∨ ∃ d ∈ drafts db e, d.Yields k := by
  cases commit_drafting cfg now db e with
  | none empty kept =>
    obtain ⟨k₀, mem₀, same⟩ := kept k mem
    exact .inl ⟨k₀, mem₀, k.enabled, same⟩
  | made user nodes material first last keys before result _ all =>
    rw [result] at mem
    rcases createKeys_keys keys k mem with old | ⟨node, there, key⟩
    · exact .inl ⟨k, before ▸ old, k.enabled, rfl⟩
    · exact .inr ⟨_, all ▸ List.mem_map_of_mem there, yields_of_made key⟩

/-- Every key of the list is made, and no key goes with it. -/
theorem made_of_draft {d : Draft} (mem : d ∈ drafts db e) :
    (∃ k ∈ (e.commit cfg now db).accessKeys.rows, d.Yields k) ∧
      ∀ k ∈ db.accessKeys.rows, k ∈ (e.commit cfg now db).accessKeys.rows := by
  cases commit_drafting cfg now db e with
  | none empty kept => rw [empty] at mem; cases mem
  | made user nodes material first last keys before result _ all =>
    obtain ⟨kept, made⟩ := createKeys_made keys
    rw [all] at mem
    obtain ⟨node, there, rfl⟩ := List.mem_map.1 mem
    obtain ⟨k, mem, key⟩ := made node there
    rw [result]
    exact ⟨⟨k, mem, yields_of_made key⟩, fun k old => kept k (before ▸ old)⟩

/-- One event makes keys for one user. -/
theorem draft_user {d d' : Draft} (mem : d ∈ drafts db e) (mem' : d' ∈ drafts db e) : d.userId = d'.userId := by
  cases commit_drafting {} 0 db e with
  | none empty _ => rw [empty] at mem; cases mem
  | made user nodes material _ _ _ _ _ _ all =>
    rw [all] at mem mem'
    obtain ⟨node, -, rfl⟩ := List.mem_map.1 mem
    obtain ⟨node', -, rfl⟩ := List.mem_map.1 mem'
    rfl

/-- A key is made for a node of the table. -/
theorem draft_found {d : Draft} (mem : d ∈ drafts db e) : db.nodes.find? d.node.id = some d.node := by
  cases commit_drafting {} 0 db e with
  | none empty _ => rw [empty] at mem; cases mem
  | made user nodes material _ _ _ _ _ found all =>
    rw [all] at mem
    obtain ⟨node, there, rfl⟩ := List.mem_map.1 mem
    exact found node there

/-! ## The invariant -/

/-- The keys of a node identify their users. -/
def Identify (db : Database) (nodeId : Id) : Prop :=
  ∀ k ∈ db.accessKeys.rows, ∀ k' ∈ db.accessKeys.rows, k.nodeId = nodeId → k'.nodeId = nodeId →
    k.userId ≠ k'.userId → k.credential ≠ k'.credential

/-- No key is made on a Cisco node where another user has one whose id has the same first part. -/
def Apart (db : Database) (e : Event) : Prop :=
  ∀ d ∈ drafts db e, d.node.protocol = .cisco → ∀ k ∈ db.accessKeys.rows, k.nodeId = d.node.id →
    k.userId ≠ d.userId → firstPart k.userId ≠ firstPart d.userId

instance (db : Database) (e : Event) : Decidable (Apart db e) :=
  inferInstanceAs (Decidable (∀ d ∈ drafts db e, d.node.protocol = .cisco → ∀ k ∈ db.accessKeys.rows,
    k.nodeId = d.node.id → k.userId ≠ d.userId → firstPart k.userId ≠ firstPart d.userId))

/-- The key has the credential that the protocol of its node calls for. -/
def Derived (uuids publicKeys : Multiset String) (k : AccessKey) : Protocol → Prop
  | .vless | .vmess => k.credential ∈ uuids
  | .wireguard => k.credential ∈ publicKeys
  | .cisco => k.credential = username k.userId

/-- Every key has such a credential, from the values drawn so far, and the credentials of
different users on a node differ. -/
structure Inv (uuids publicKeys : Multiset String) (db : Database) : Prop where
  derived : ∀ k ∈ db.accessKeys.rows, ∀ node, db.nodes.find? k.nodeId = some node →
    Derived uuids publicKeys k node.protocol
  identify : ∀ nodeId, Identify db nodeId

theorem username_inj {i i' : Id} : username i = username i' ↔ firstPart i = firstPart i' := by
  simp [username, String.append_right_inj]

theorem Derived.mono {uuids' publicKeys' : Multiset String} {protocol : Protocol}
    (h : Derived uuids publicKeys k protocol) (more : uuids ≤ uuids') (more' : publicKeys ≤ publicKeys') :
    Derived uuids' publicKeys' k protocol := by
  cases protocol with
  | vless | vmess => exact Multiset.mem_of_le more h
  | wireguard => exact Multiset.mem_of_le more' h
  | cisco => exact h

/-- A new key has a value that the event draws, or the name of its user. -/
theorem Draft.Yields.derived {d : Draft} (yields : d.Yields k) (mem : d ∈ drafts db e) :
    Derived (drawnUuids db e) (drawnPublicKeys db e) k d.node.protocol := by
  have credential := yields.credential
  simp only [Draft.credential] at credential
  cases protocol : d.node.protocol with
  | vless | vmess =>
    rw [protocol] at credential
    exact List.mem_filterMap.2 ⟨d, mem, by simp [Draft.uuid?, protocol, credential]⟩
  | wireguard =>
    rw [protocol] at credential
    exact List.mem_filterMap.2 ⟨d, mem, by simp [Draft.publicKey?, protocol, credential]⟩
  | cisco =>
    rw [protocol] at credential
    exact credential.trans (by rw [yields.user])

/-! ## One step -/

section Step

variable (before : Inv uuids publicKeys db) (distinct : (uuids + drawnUuids db e).Nodup)
  (distinctKeys : (publicKeys + drawnPublicKeys db e).Nodup) (apart : Apart db e)

include before distinct distinctKeys apart

/-- A new credential is not that of another user's key that was there. -/
theorem ne_credential {d : Draft} (mem₀ : k₀ ∈ db.accessKeys.rows) (mem : d ∈ drafts db e)
    (yields : d.Yields k) (same : k₀.nodeId = k.nodeId) (other : k₀.userId ≠ k.userId) :
    k₀.credential ≠ k.credential := by
  have here : k₀.nodeId = d.node.id := same.trans yields.node
  have old := before.derived k₀ mem₀ d.node (here ▸ draft_found mem)
  have new := yields.derived mem
  intro equal
  cases protocol : d.node.protocol with
  | vless | vmess =>
    rw [protocol] at old new
    exact Multiset.disjoint_left.1 (Multiset.nodup_add.1 distinct).2.2 old (equal ▸ new)
  | wireguard =>
    rw [protocol] at old new
    exact Multiset.disjoint_left.1 (Multiset.nodup_add.1 distinctKeys).2.2 old (equal ▸ new)
  | cisco =>
    rw [protocol] at old new
    have parts := apart d mem protocol k₀ mem₀ here (yields.user ▸ other)
    rw [yields.user.symm] at parts
    exact parts (username_inj.1 (old.symm.trans (equal.trans new)))

theorem inv_step :
    Inv (uuids + drawnUuids db e) (publicKeys + drawnPublicKeys db e) (e.commit cfg now db) where
  derived k mem node found := by
    have keeps := commit_keepsProtocols cfg now db e
    rcases kept_or_drafted mem with ⟨k₀, mem₀, on, rfl⟩ | ⟨d, there, yields⟩
    · obtain ⟨node₀, found₀⟩ := Option.isSome_iff_exists.1 (db.keyNode k₀ mem₀)
      have old := before.derived k₀ mem₀ node₀ found₀
      rw [keeps.protocol found₀ found]
      exact Derived.mono old (Multiset.le_add_right ..) (Multiset.le_add_right ..)
    · rw [yields.node] at found
      rw [keeps.protocol (draft_found there) found]
      exact (yields.derived there).mono (Multiset.le_add_left ..) (Multiset.le_add_left ..)
  identify nodeId k mem k' mem' here here' other := by
    rcases kept_or_drafted mem with ⟨k₀, mem₀, on, rfl⟩ | ⟨d, there, yields⟩
    · rcases kept_or_drafted mem' with ⟨k₀', mem₀', on', rfl⟩ | ⟨d', there', yields'⟩
      · exact before.identify nodeId k₀ mem₀ k₀' mem₀' here here' other
      · have differ := ne_credential before distinct distinctKeys apart mem₀ there' yields'
          (here.trans here'.symm) other
        exact differ
    · rcases kept_or_drafted mem' with ⟨k₀', mem₀', on', rfl⟩ | ⟨d', there', yields'⟩
      · have differ := ne_credential before distinct distinctKeys apart mem₀' there yields
          (here'.trans here.symm) other.symm
        exact differ.symm
      · -- both keys come with this event, which makes keys for one user
        have owner : k.userId = k'.userId := by rw [yields.user, yields'.user, draft_user there there']
        exact absurd owner other

end Step

/-- The step that makes a key on a Cisco node for a user with a first part in use leaves two users
with one credential. -/
theorem apart_of_identify (before : Inv uuids publicKeys db)
    (after : ∀ node ∈ (e.commit cfg now db).nodes.rows, Identify (e.commit cfg now db) node.id) : Apart db e := by
  intro d mem protocol k₀ mem₀ here other parts
  obtain ⟨⟨k, new, yields⟩, kept⟩ := made_of_draft mem
  obtain ⟨node, found, -⟩ := commit_keepsProtocols cfg now db e d.node.id d.node (draft_found mem)
  have same : node.id = d.node.id := Table.find?_key found
  have old : k₀.credential = username k₀.userId := by
    have derived := before.derived k₀ mem₀ d.node (here ▸ draft_found mem)
    rwa [protocol] at derived
  have name : k.credential = username d.userId := by rw [yields.credential, Draft.credential, protocol]
  refine after node (Table.find?_mem found) k₀ (kept k₀ mem₀) k new (here.trans same.symm)
    (yields.node.trans same.symm) (yields.user ▸ other) ?_
  rw [old, name, username_inj.2 parts]

/-! ## Runs -/

/-- The UUIDs that a run from a fresh installation draws for its keys. -/
def runUuids (cfg : Settings) (start : Instant) (es : List Event) : Multiset String :=
  (plane cfg).total (fun s e => drawnUuids s.db e) (.initial start) es

/-- The X25519 public keys that it draws. -/
def runPublicKeys (cfg : Settings) (start : Instant) (es : List Event) : Multiset String :=
  (plane cfg).total (fun s e => drawnPublicKeys s.db e) (.initial start) es

theorem inv_run {start : Instant} {es : List Event} {s : Plane} (run : (plane cfg).run (.initial start) es = some s)
    (distinct : (runUuids cfg start es).Nodup) (distinctKeys : (runPublicKeys cfg start es).Nodup)
    (apart : (plane cfg).Along (fun s e => Apart s.db e) (.initial start) es) :
    Inv (runUuids cfg start es) (runPublicKeys cfg start es) s.db := by
  revert distinct distinctKeys
  refine Machine.history_invariant (I := fun es (s : Plane) => (runUuids cfg start es).Nodup →
    (runPublicKeys cfg start es).Nodup → Inv (runUuids cfg start es) (runPublicKeys cfg start es) s.db)
    ?_ ?_ apart run
  · intro _ _
    have none : ∀ k, k ∉ (Plane.initial start).db.accessKeys.rows := by simp [Plane.initial, Database.empty]
    exact ⟨fun k mem => absurd mem (none k), fun _ k mem => absurd mem (none k)⟩
  · intro es e t t' first before apart step distinct distinctKeys
    have uuids : runUuids cfg start (es ++ [e]) = runUuids cfg start es + drawnUuids t.db e :=
      Machine.total_snoc first step
    have publicKeys : runPublicKeys cfg start (es ++ [e]) = runPublicKeys cfg start es + drawnPublicKeys t.db e :=
      Machine.total_snoc first step
    obtain ⟨-, rfl⟩ := plane_step.1 step
    rw [uuids] at distinct ⊢
    rw [publicKeys] at distinctKeys ⊢
    exact inv_step (before (Multiset.nodup_add.1 distinct).1 (Multiset.nodup_add.1 distinctKeys).1)
      distinct distinctKeys apart

/-- **Credentials identify one user.** In every run that draws no UUID and no public key twice and
makes no key on a Cisco node where another user's id has the same first part, the keys of different
users on a node have different credentials; and the next step keeps that exactly when it makes no
such key either. -/
theorem credentials_identify (cfg : Settings) (start : Instant) (es : List Event) (s : Plane)
    (run : (plane cfg).run (.initial start) es = some s) (distinct : (runUuids cfg start es).Nodup)
    (distinctKeys : (runPublicKeys cfg start es).Nodup)
    (apart : (plane cfg).Along (fun s e => Apart s.db e) (.initial start) es) :
    (∀ node ∈ s.db.nodes.rows, Identify s.db node.id) ∧
    ∀ e s', (plane cfg).step s e = some s' → (runUuids cfg start (es ++ [e])).Nodup →
      (runPublicKeys cfg start (es ++ [e])).Nodup →
      ((∀ node ∈ s'.db.nodes.rows, Identify s'.db node.id) ↔ Apart s.db e) := by
  have inv := inv_run run distinct distinctKeys apart
  refine ⟨fun node _ => inv.identify node.id, ?_⟩
  intro e s' step distinct' distinctKeys'
  constructor
  · intro after
    obtain ⟨-, rfl⟩ := plane_step.1 step
    exact apart_of_identify inv after
  · intro here node _
    have next : (plane cfg).run (.initial start) (es ++ [e]) = some s' := Machine.run_snoc.2 ⟨s, run, step⟩
    have along : (plane cfg).Along (fun s e => Apart s.db e) (.initial start) (es ++ [e]) :=
      apart.append run (.cons here step trivial)
    exact (inv_run next distinct' distinctKeys' along).identify node.id

/-- A VLESS, a WireGuard and a Cisco node. -/
def threeNodes : List Event :=
  [.admin "admin" (.createNode "0f4ba5e1-7d52-4c1b-9a3e-3f0d6f2f8c11" testNode),
    .admin "admin" (.createNode "6a1c9b7e-52d0-4f6e-8b1d-77c4f5a0e922"
      { testNode with
        name := "ARENA WireGuard", slug := "arena-wireguard", kind := .wireguard
        protocol := .wireguard, transport := .external
        nameLength := by decide, slugPattern := by decide }),
    .admin "admin" (.createNode "91d3c0aa-8e7f-4b52-a6c4-12f09b6d7e33"
      { testNode with
        name := "ARENA Cisco", slug := "arena-cisco", kind := .cisco
        protocol := .cisco, transport := .external
        nameLength := by decide, slugPattern := by decide })]

/-- Two users on these nodes, each with a UUID and a public key. -/
def twoUsers (first second : Id) : List Event :=
  threeNodes ++
    [.admin "admin" (.createUser first (fun i => ⟨"1-" ++ i, "c56a4180-65aa-42ec-a945-5fd21dec0538", "",
        "hSDwCYkwp1R0i33ctD73Wg2/Og0mOBr066SpjqqbTmo=", some "10.66.0.2/24", ""⟩) testUser),
      .admin "admin" (.createUser second (fun i => ⟨"2-" ++ i, "de305d54-75b4-431b-adb2-eb6b9e546014", "",
        "3p7bfXt9wbTTW2HC7OQ1Nz+DQ8hbeGdNrfx+FG+IK08=", some "10.66.0.3/24", ""⟩) testUser)]

/-- Users whose ids differ in the first part: on each node both have a key, with a credential of its own. -/
theorem credentials_identify_twoUsers :
    ∃ s, (plane {}).run (.initial 0) (twoUsers "0a1b2c3d-0000-4000-8000-000000000001"
        "4e5f6a7b-0000-4000-8000-000000000002") = some s ∧
      ∀ node ∈ s.db.nodes.rows, ∃ k ∈ s.db.accessKeys.rows, ∃ k' ∈ s.db.accessKeys.rows,
        k.nodeId = node.id ∧ k'.nodeId = node.id ∧ k.userId ≠ k'.userId ∧ k.credential ≠ k'.credential := by
  obtain ⟨s, run, facts⟩ := (Option.any_eq_true _ _).1
    (by decide +kernel : ((plane {}).run (.initial 0) (twoUsers "0a1b2c3d-0000-4000-8000-000000000001"
      "4e5f6a7b-0000-4000-8000-000000000002")).any fun s => s.db.nodes.rows.all fun node =>
        s.db.accessKeys.rows.any fun k => s.db.accessKeys.rows.any fun k' =>
          k.nodeId == node.id && k'.nodeId == node.id && k.userId != k'.userId)
  simp only [List.all_eq_true, List.any_eq_true, Bool.and_eq_true, beq_iff_eq, bne_iff_ne] at facts
  refine ⟨s, run, fun node mem => ?_⟩
  obtain ⟨k, there, k', there', ⟨here, here'⟩, other⟩ := facts node mem
  have identify := (credentials_identify {} 0 _ s run (by decide +kernel) (by decide +kernel) (by decide +kernel)).1
  exact ⟨k, there, k', there', here, here', other, identify node mem k there k' there' here here' other⟩

/-- The text is that of a UUID. -/
def isUuidText (text : String) : Bool :=
  (text.toList.splitOn '-').map List.length == [8, 4, 4, 4, 12] &&
    text.toList.all fun c => c == '-' || "0123456789abcdef".toList.contains c

/-- **Two users with one name**: their ids agree up to the first hyphen, and on the Cisco node
both keys have the credential `arena-0a1b2c3d`. -/
theorem cisco_credentials_collide :
    ¬∀ (cfg : Settings) (start : Instant) (es : List Event) (s : Plane),
      (plane cfg).run (.initial start) es = some s →
      ((s.issued : Multiset String) + runUuids cfg start es).Nodup →
      (∀ i ∈ (s.issued : Multiset String) + runUuids cfg start es, isUuidText i) →
      (runPublicKeys cfg start es).Nodup → ∀ node ∈ s.db.nodes.rows, Identify s.db node.id := by
  intro all
  obtain ⟨s, run, facts⟩ := (Option.any_eq_true _ _).1
    (by decide +kernel : ((plane {}).run (.initial 0) (twoUsers "0a1b2c3d-0000-4000-8000-000000000001"
      "0a1b2c3d-0000-4000-8000-000000000002")).any fun s => s.issued == ["0a1b2c3d-0000-4000-8000-000000000002",
          "0a1b2c3d-0000-4000-8000-000000000001", "91d3c0aa-8e7f-4b52-a6c4-12f09b6d7e33",
          "6a1c9b7e-52d0-4f6e-8b1d-77c4f5a0e922", "0f4ba5e1-7d52-4c1b-9a3e-3f0d6f2f8c11"] &&
        s.db.nodes.rows.any fun node => s.db.accessKeys.rows.any fun k => s.db.accessKeys.rows.any fun k' =>
          k.nodeId == node.id && k'.nodeId == node.id && k.userId != k'.userId && k.credential == k'.credential)
  simp only [List.any_eq_true, Bool.and_eq_true, beq_iff_eq, bne_iff_ne] at facts
  obtain ⟨issued, node, mem, k, there, k', there', ⟨⟨here, here'⟩, other⟩, same⟩ := facts
  refine all {} 0 _ s run ?_ ?_ (by decide +kernel) node mem k there k' there' here here' other same
  · rw [issued]; decide +kernel
  · rw [issued]; decide +kernel

end Arena.Credentials
