import Arena.Model.Frames

/-!
# Where access keys come from

The counterpart of `Arena.Model.UserRow` for the rows of `access_keys`: an event keeps a key, up
to its flag `enabled`, or `create_user` and `attach_node` make it for a node. And no event
changes the protocol of a node.
-/

namespace Arena.Model

open Arena.Lib

variable {cfg : Settings} {now : Instant} {admin : String} {db db' : Database} {i : Id} {e : Event}
  {k : AccessKey}

/-! ## Keys -/

/-- The rows after creating keys: the old ones and one made for each node. -/
theorem createKeys_keys {material : Id → KeyMaterial} {user : User} {nodes : List Node}
    (h : createKeys material user nodes db = .ok db') :
    ∀ k ∈ db'.accessKeys.rows, k ∈ db.accessKeys.rows ∨
      ∃ node ∈ nodes, createAccessKey (material node.id) user node = .ok k := by
  induction nodes generalizing db with
  | nil => cases h; exact fun k mem => .inl mem
  | cons node nodes ih =>
    obtain ⟨key, made, h⟩ := bind_eq_ok.1 h
    split at h
    · cases h
    · rename_i mid inserted
      intro k mem
      rcases ih h k mem with mem | ⟨other, there, made'⟩
      · rcases (Table.mem_insert (Database.insertKey?_eq_some inserted).1).1 mem with mem | rfl
        · exact .inl mem
        · exact .inr ⟨node, by simp, made⟩
      · exact .inr ⟨other, by simp [there], made'⟩

/-- Creating keys keeps the rows that were there, and makes a key for each node. -/
theorem createKeys_made {material : Id → KeyMaterial} {user : User} {nodes : List Node}
    (h : createKeys material user nodes db = .ok db') :
    (∀ k ∈ db.accessKeys.rows, k ∈ db'.accessKeys.rows) ∧ ∀ node ∈ nodes,
      ∃ k ∈ db'.accessKeys.rows, createAccessKey (material node.id) user node = .ok k := by
  induction nodes generalizing db with
  | nil => cases h; exact ⟨fun k mem => mem, by simp⟩
  | cons node nodes ih =>
    obtain ⟨key, made, h⟩ := bind_eq_ok.1 h
    split at h
    · cases h
    · rename_i mid inserted
      have rows : ∀ k, k ∈ mid.accessKeys.rows ↔ k ∈ db.accessKeys.rows ∨ k = key :=
        fun _ => Table.mem_insert (Database.insertKey?_eq_some inserted).1
      obtain ⟨kept, others⟩ := ih h
      refine ⟨fun k mem => kept k ((rows k).2 (.inl mem)), ?_⟩
      intro other there
      rcases List.mem_cons.1 there with rfl | there
      · exact ⟨key, kept key ((rows key).2 (.inr rfl)), made⟩
      · exact others other there

theorem createAccessKey_owner {m : KeyMaterial} {user : User} {node : Node}
    (made : createAccessKey m user node = .ok k) : k.userId = user.id ∧ k.nodeId = node.id := by
  unfold createAccessKey at made
  split at made
  · cases made; exact ⟨rfl, rfl⟩
  · cases made; exact ⟨rfl, rfl⟩
  · split at made
    · cases made
    · cases made; exact ⟨rfl, rfl⟩
  · cases made; exact ⟨rfl, rfl⟩

/-- How an event made a key: its node, its user and the material it used. -/
inductive KeyMade (db : Database) : Event → Node → Id → KeyMaterial → Prop
  | created (name newId material p node) (mem : node ∈ db.nodes.rows) :
      KeyMade db (.admin name (.createUser newId material p)) node newId (material node.id)
  | attached (name userId nodeId material node) (found : db.nodes.find? nodeId = some node) :
      KeyMade db (.admin name (.attachNode userId nodeId material)) node userId material

theorem KeyMade.found {node : Node} {material : KeyMaterial} (how : KeyMade db e node i material) :
    db.nodes.find? node.id = some node := by
  cases how with
  | created _ _ _ _ _ mem => exact Table.find?_of_mem mem
  | attached _ _ _ _ _ found => rwa [Table.find?_key found]

/-- An event makes keys for one user only. -/
theorem KeyMade.user_unique {node node' : Node} {i' : Id} {material material' : KeyMaterial}
    (how : KeyMade db e node i material) (how' : KeyMade db e node' i' material') : i = i' := by
  cases how <;> cases how' <;> rfl

/-- A key after an event. -/
inductive KeyOrigin (db : Database) (e : Event) (k : AccessKey) : Prop
  | kept (k₀ : AccessKey) (mem : k₀ ∈ db.accessKeys.rows) (same : k = { k₀ with enabled := k.enabled })
  | made (node : Node) (user : User) (material : KeyMaterial)
      (how : KeyMade db e node user.id material) (key : createAccessKey material user node = .ok k)

theorem origin_of_mem (mem : k ∈ db.accessKeys.rows) : KeyOrigin db e k := .kept k mem rfl

/-- **The inversion lemma** for the rows that an event leaves. -/
theorem key_origin (cfg : Settings) (now : Instant) (db : Database) (e : Event) :
    ∀ k ∈ (e.commit cfg now db).accessKeys.rows, KeyOrigin db e k := by
  have same : ∀ {db' : Database}, db'.accessKeys = db.accessKeys →
      ∀ k ∈ db'.accessKeys.rows, KeyOrigin db e k :=
    fun keys k mem => origin_of_mem (by rwa [keys] at mem)
  generalize made : e.commit cfg now db = db'
  cases made ▸ commit_changed cfg now db e with
  | same _ unchanged => exact same (by rw [unchanged])
  | seeded vlessId vmessId seeded => exact same (seedDatabase_frame seeded).2.1
  | refused newId p _ _ _ keys => exact same keys
  | admitted newId p user node _ committed => exact same (admission_eq_some committed).2.2.2
  | heard p session user verdict _ charges => exact same charges.accessKeys
  | closed p session user _ charges => exact same charges.accessKeys
  | administered name op done committed =>
    cases committed with
    | createUser newId material p _ _ _ =>
      obtain ⟨mid, last, event, inserted, keys, -, -, rfl⟩ := createUser_inv done
      obtain ⟨-, nodes, old, -⟩ := Database.insertUser?_eq_some inserted
      intro k mem
      rw [Database.addAudit_accessKeys] at mem
      rcases createKeys_keys keys k mem with mem | ⟨node, there, key⟩
      · exact origin_of_mem (by rwa [old] at mem)
      · rw [nodes] at there
        exact .made node (newUser newId p) _
          (.created name newId material p node (List.mem_filter.1 there).1) key
    | attachNode userId nodeId material _ _ _ =>
      obtain ⟨user, node, mid, event, found, here, how, -, -, rfl⟩ := attachNode_inv done
      have owner : user.id = userId := Table.find?_key found
      intro k mem
      rw [Database.addAudit_accessKeys] at mem
      rcases how with ⟨-, rfl⟩ | ⟨-, keys⟩
      · rw [Database.updateKeysEnabled_accessKeys, Table.mem_update] at mem
        obtain ⟨k₀, mem, rfl⟩ := mem
        split
        · exact .kept k₀ mem rfl
        · exact origin_of_mem mem
      · rcases createKeys_keys keys k mem with mem | ⟨node', there, key⟩
        · exact origin_of_mem mem
        · rw [List.mem_singleton.1 there] at key
          exact .made node user material
            (owner ▸ .attached name userId nodeId material node here) key
    | detachNode _ _ _ _ _ keys | deleteUser _ _ _ _ keys =>
      intro k mem
      rw [keys, Table.mem_delete] at mem
      exact origin_of_mem mem.1
    | updateUser _ _ _ _ _ _ _ _ _ keys => exact same keys
    | resetUsage _ _ _ _ keys => exact same keys
    | rotateSubscription _ _ _ _ keys => exact same keys
    | createNode _ _ _ _ _ keys => exact same keys
    | updateNode _ _ _ _ _ _ _ _ _ keys => exact same keys
    | disableNode _ _ _ _ keys => exact same keys

/-! ## Protocols -/

/-- Nodes that were there keep their protocol. -/
def KeepsProtocols (db db' : Database) : Prop :=
  ∀ i n, db.nodes.find? i = some n →
    ∃ n', db'.nodes.find? i = some n' ∧ n'.protocol = n.protocol

theorem KeepsProtocols.protocol {n n' : Node} (keeps : KeepsProtocols db db') (before : db.nodes.find? i = some n)
    (after : db'.nodes.find? i = some n') : n'.protocol = n.protocol := by
  obtain ⟨n'', found, same⟩ := keeps i n before
  rw [found] at after
  cases after
  exact same

theorem keepsProtocols_of_nodes (nodes : db'.nodes = db.nodes) : KeepsProtocols db db' :=
  fun _ n found => ⟨n, nodes ▸ found, rfl⟩

theorem keepsProtocols_of_insert {node : Node} (nodes : db.nodes.insert? node = some db'.nodes) :
    KeepsProtocols db db' :=
  fun _ n found => ⟨n, Table.find?_insert_of_isSome nodes found, rfl⟩

theorem keepsProtocols_of_update {p : Node → Bool} {f : Node → Node} {keeps : ∀ n, (f n).id = n.id}
    (nodes : db'.nodes = db.nodes.update p f keeps) (protocol : ∀ n, (f n).protocol = n.protocol) :
    KeepsProtocols db db' := by
  intro i n found
  rw [nodes, Table.find?_update, found]
  refine ⟨_, rfl, ?_⟩
  dsimp only
  split
  · exact protocol n
  · rfl

theorem KeepsProtocols.trans {db₁ db₂ db₃ : Database} (first : KeepsProtocols db₁ db₂)
    (second : KeepsProtocols db₂ db₃) : KeepsProtocols db₁ db₃ := by
  intro i n found
  obtain ⟨n', found', same⟩ := first i n found
  obtain ⟨n'', found'', same'⟩ := second i n' found'
  exact ⟨n'', found'', same'.trans same⟩

theorem seedNode_keepsProtocols {newId : Id} {name slug : String} {protocol : Protocol}
    (h : seedNode cfg newId name slug protocol db = .ok db') : KeepsProtocols db db' := by
  unfold seedNode at h
  split at h
  · split at h
    · cases h
    · rename_i mid inserted
      cases h
      exact keepsProtocols_of_insert (Database.insertNode?_eq_some inserted).1
  · obtain ⟨row, -, h⟩ := bind_eq_ok.1 h
    cases h
    exact keepsProtocols_of_update (Database.updateNodes_nodes ..) fun _ => rfl

/-- **No event changes the protocol of a node.** -/
theorem commit_keepsProtocols (cfg : Settings) (now : Instant) (db : Database) (e : Event) :
    KeepsProtocols db (e.commit cfg now db) := by
  generalize made : e.commit cfg now db = db'
  cases made ▸ commit_changed cfg now db e with
  | same _ unchanged => exact keepsProtocols_of_nodes (by rw [unchanged])
  | seeded vlessId vmessId seeded =>
    obtain ⟨mid, first, second⟩ := bind_eq_ok.1 seeded
    exact (seedNode_keepsProtocols first).trans (seedNode_keepsProtocols second)
  | refused newId p _ nodes => exact keepsProtocols_of_nodes nodes
  | admitted newId p user node _ committed =>
    exact keepsProtocols_of_nodes (admission_eq_some committed).2.2.1
  | heard p session user verdict _ charges => exact keepsProtocols_of_nodes charges.nodes
  | closed p session user _ charges => exact keepsProtocols_of_nodes charges.nodes
  | administered name op _ committed =>
    cases committed with
    | createUser _ _ _ _ nodes => exact keepsProtocols_of_nodes nodes
    | updateUser _ _ _ _ _ _ _ nodes => exact keepsProtocols_of_nodes nodes
    | resetUsage _ _ nodes => exact keepsProtocols_of_nodes nodes
    | rotateSubscription _ _ nodes => exact keepsProtocols_of_nodes nodes
    | attachNode _ _ _ _ nodes => exact keepsProtocols_of_nodes nodes
    | detachNode _ _ _ nodes => exact keepsProtocols_of_nodes nodes
    | deleteUser _ _ nodes => exact keepsProtocols_of_nodes nodes
    | createNode _ _ _ nodes => exact keepsProtocols_of_insert nodes
    | updateNode _ _ _ _ _ _ _ nodes => exact keepsProtocols_of_update nodes fun _ => rfl
    | disableNode _ _ nodes => exact keepsProtocols_of_update nodes fun _ => rfl

end Arena.Model
