import Arena.Lib.Simulation
import Arena.Model.Frames

/-!
# What one user can see of the database

Two databases agree on a user when they have the same row, keys and sessions of it, and the
same nodes. The statements that the handlers issue keep agreement, and so do the handlers;
their answers to the user's own requests are the same.
-/

namespace Arena.Model

open Arena.Lib

variable {uid : Id} {a b c : Database}

/-- The same rows of this user, and the same nodes. -/
structure AgreeOn (uid : Id) (a b : Database) : Prop where
  user : a.users.find? uid = b.users.find? uid
  nodes : a.nodes = b.nodes
  keys : a.accessKeys.rows.filter (·.userId = uid) = b.accessKeys.rows.filter (·.userId = uid)
  sessions : a.sessions.rows.filter (·.userId = uid) = b.sessions.rows.filter (·.userId = uid)

/-- The session with this identifier, if there is one, is the user's. -/
def OwnSession (uid : Id) (i : Id) (a : Database) : Prop :=
  ∀ x, a.sessions.find? i = some x → x.userId = uid

namespace AgreeOn

theorem refl (uid : Id) (a : Database) : AgreeOn uid a a := ⟨rfl, rfl, rfl, rfl⟩

theorem symm (h : AgreeOn uid a b) : AgreeOn uid b a :=
  ⟨h.user.symm, h.nodes.symm, h.keys.symm, h.sessions.symm⟩

theorem trans (h : AgreeOn uid a b) (h' : AgreeOn uid b c) : AgreeOn uid a c :=
  ⟨h.user.trans h'.user, h.nodes.trans h'.nodes, h.keys.trans h'.keys, h.sessions.trans h'.sessions⟩

/-! ## What the handlers look up -/

theorem mem_key (h : AgreeOn uid a b) {k : AccessKey} (mine : k.userId = uid) :
    k ∈ a.accessKeys.rows ↔ k ∈ b.accessKeys.rows := by
  have both : k ∈ a.accessKeys.rows.filter (·.userId = uid) ↔
      k ∈ b.accessKeys.rows.filter (·.userId = uid) := by rw [h.keys]
  simpa [mine] using both

theorem mem_session (h : AgreeOn uid a b) {x : ConnectionSession} (mine : x.userId = uid) :
    x ∈ a.sessions.rows ↔ x ∈ b.sessions.rows := by
  have both : x ∈ a.sessions.rows.filter (·.userId = uid) ↔
      x ∈ b.sessions.rows.filter (·.userId = uid) := by rw [h.sessions]
  simpa [mine] using both

theorem find_session (h : AgreeOn uid a b) {i : Id} (mine : OwnSession uid i a)
    (mine' : OwnSession uid i b) : a.sessions.find? i = b.sessions.find? i := by
  have half : ∀ {a b : Database}, AgreeOn uid a b → OwnSession uid i a → ∀ x,
      a.sessions.find? i = some x → b.sessions.find? i = some x := by
    intro a b h mine x found
    obtain ⟨mem, key⟩ := Table.find?_eq_some_iff.1 found
    exact Table.find?_eq_some_iff.2 ⟨(h.mem_session (mine x found)).1 mem, key⟩
  cases left : a.sessions.find? i with
  | some x => exact (half h mine x left).symm
  | none =>
    cases right : b.sessions.find? i with
    | none => rfl
    | some x => exact absurd (half h.symm mine' x right) (by simp [left])

theorem openIps (h : AgreeOn uid a b) : a.openIps uid = b.openIps uid := by
  have split : ∀ db : Database, db.openSessions uid =
      (db.sessions.rows.filter (·.userId = uid)).filter ConnectionSession.isOpen := by
    intro db
    rw [List.filter_filter]
    exact List.filter_congr fun x _ => Bool.and_comm ..
  rw [Database.openIps, Database.openIps, split a, split b, h.sessions]

theorem enabledKey (h : AgreeOn uid a b) (node : Id) :
    a.enabledKey uid node = b.enabledKey uid node := by
  have split : ∀ db : Database, db.enabledKey uid node =
      (db.accessKeys.rows.filter (·.userId = uid)).find? fun k => k.nodeId = node && k.enabled := by
    intro db
    rw [List.find?_filter, Database.enabledKey]
    congr 1
    funext k
    simp [Bool.and_assoc]
  rw [split a, split b, h.keys]

theorem holdsKey (h : AgreeOn uid a b) (node : Id) : a.holdsKey uid node = b.holdsKey uid node := by
  have split : ∀ db : Database, db.holdsKey uid node =
      (db.accessKeys.rows.filter (·.userId = uid)).any fun k => k.nodeId = node := by
    intro db
    rw [List.any_filter, Database.holdsKey]
  rw [split a, split b, h.keys]

theorem keysOf (h : AgreeOn uid a b) : a.keysOf uid = b.keysOf uid := by
  have same : a.withNode = b.withNode := by
    funext k
    rw [Database.withNode, Database.withNode, h.nodes]
  rw [Database.keysOf, Database.keysOf, h.keys, same]

/-! ## Statements -/

theorem updateUsers (h : AgreeOn uid a b) {p : User → Bool} {f : User → User}
    {keeps : ∀ u, (f u).id = u.id} :
    AgreeOn uid (a.updateUsers p f keeps) (b.updateUsers p f keeps) := by
  refine ⟨?_, h.nodes, h.keys, h.sessions⟩
  rw [Database.updateUsers_users, Database.updateUsers_users, Table.find?_update, Table.find?_update,
    h.user]

theorem updateNodes (h : AgreeOn uid a b) {p : Node → Bool} {f : Node → Node}
    {keeps : ∀ n, (f n).id = n.id} {keepsSlug : ∀ n, (f n).slug = n.slug} :
    AgreeOn uid (a.updateNodes p f keeps keepsSlug) (b.updateNodes p f keeps keepsSlug) := by
  refine ⟨h.user, ?_, h.keys, h.sessions⟩
  rw [Database.updateNodes_nodes, Database.updateNodes_nodes, h.nodes]

theorem addAudit (h : AgreeOn uid a b) {event event' : AuditEvent} :
    AgreeOn uid (a.addAudit event) (b.addAudit event') := ⟨h.user, h.nodes, h.keys, h.sessions⟩

theorem updateSessions (h : AgreeOn uid a b) {p : ConnectionSession → Bool}
    {f : ConnectionSession → ConnectionSession} (keeps : ∀ s, (f s).id = s.id)
    (keepsUser : ∀ s, (f s).userId = s.userId) (keepsNode : ∀ s, (f s).nodeId = s.nodeId) :
    AgreeOn uid (a.updateSessions p f keeps keepsUser keepsNode)
      (b.updateSessions p f keeps keepsUser keepsNode) := by
  refine ⟨h.user, h.nodes, h.keys, ?_⟩
  have same : ∀ s, decide ((f s).userId = uid) = decide (s.userId = uid) := fun s => by rw [keepsUser]
  rw [Database.updateSessions_sessions, Database.updateSessions_sessions, Table.filter_update same,
    Table.filter_update same, h.sessions]

theorem updateKeysEnabled (h : AgreeOn uid a b) {p : AccessKey → Bool} {enabled : Bool} :
    AgreeOn uid (a.updateKeysEnabled p enabled) (b.updateKeysEnabled p enabled) := by
  refine ⟨h.user, h.nodes, ?_, h.sessions⟩
  have same : ∀ k : AccessKey, decide (({ k with enabled := enabled } : AccessKey).userId = uid) =
      decide (k.userId = uid) := fun _ => rfl
  rw [Database.updateKeysEnabled_accessKeys, Database.updateKeysEnabled_accessKeys,
    Table.filter_update same, Table.filter_update same, h.keys]

theorem deleteKeys (h : AgreeOn uid a b) {p : AccessKey → Bool} :
    AgreeOn uid (a.deleteKeys p) (b.deleteKeys p) := by
  refine ⟨h.user, h.nodes, ?_, h.sessions⟩
  simp only [Database.deleteKeys_accessKeys, Table.delete]
  rw [List.filter_comm, h.keys, List.filter_comm]

theorem deleteUser (h : AgreeOn uid a b) {i : Id} : AgreeOn uid (a.deleteUser i) (b.deleteUser i) := by
  refine ⟨?_, h.nodes, ?_, ?_⟩
  · rw [Database.deleteUser_users, Database.deleteUser_users, Table.find?_delete, Table.find?_delete,
      h.user]
  · simp only [Database.deleteUser_accessKeys, Table.delete]
    rw [List.filter_comm, h.keys, List.filter_comm]
  · simp only [Database.deleteUser_sessions, Table.delete]
    rw [List.filter_comm, h.sessions, List.filter_comm]

end AgreeOn

/-! ## What the schema accepts -/

theorem insertUser?_isSome_iff {user : User} :
    (a.insertUser? user).isSome ↔ a.users.find? user.id = none := by
  constructor
  · intro accepted
    obtain ⟨a', inserted⟩ := Option.isSome_iff_exists.1 accepted
    exact (Table.insert?_eq_some_iff.1 (Database.insertUser?_eq_some inserted).1).1
  · intro fresh
    have inserted := Table.insert?_isSome (t := a.users) (r := user) fresh
    unfold Database.insertUser?
    split
    · simp_all
    · rfl

theorem insertNode?_isSome_iff {node : Node} : (a.insertNode? node).isSome ↔
    a.nodes.find? node.id = none ∧ ∀ n ∈ a.nodes.rows, n.slug ≠ node.slug := by
  refine ⟨fun accepted => ?_, fun ⟨fresh, slug⟩ => Database.insertNode?_isSome fresh slug⟩
  obtain ⟨a', inserted⟩ := Option.isSome_iff_exists.1 accepted
  refine ⟨(Table.insert?_eq_some_iff.1 (Database.insertNode?_eq_some inserted).1).1, ?_⟩
  unfold Database.insertNode? at inserted
  split at inserted
  · cases inserted
  · split at inserted
    · cases inserted
    · simpa using ‹node.slug ∉ a.nodes.rows.map Node.slug›

theorem insertKey?_isSome_iff {key : AccessKey} : (a.insertKey? key).isSome ↔
    a.accessKeys.find? key.id = none ∧ a.holdsKey key.userId key.nodeId = false ∧
      (a.users.find? key.userId).isSome ∧ (a.nodes.find? key.nodeId).isSome := by
  have pair : (key.userId, key.nodeId) ∉ a.accessKeys.rows.map (fun k => (k.userId, k.nodeId)) ↔
      a.holdsKey key.userId key.nodeId = false := by
    simp [Database.holdsKey]
  have found : (a.accessKeys.insert? key).isSome ↔ a.accessKeys.find? key.id = none := by
    refine ⟨fun accepted => ?_, Table.insert?_isSome⟩
    obtain ⟨keys, inserted⟩ := Option.isSome_iff_exists.1 accepted
    exact (Table.insert?_eq_some_iff.1 inserted).1
  rw [← found, ← pair]
  unfold Database.insertKey?
  split
  · simp_all
  · split <;> simp_all

namespace AgreeOn

theorem insertUser (h : AgreeOn uid a b) {user : User} (mine : user.id = uid) :
    Option.Rel (AgreeOn uid) (a.insertUser? user) (b.insertUser? user) := by
  refine rel_of_isSome ?_ fun a' b' ha hb => ?_
  · rw [insertUser?_isSome_iff, insertUser?_isSome_iff, mine, h.user]
  · obtain ⟨users, nodes, keys, sessions, -⟩ := Database.insertUser?_eq_some ha
    obtain ⟨users', nodes', keys', sessions', -⟩ := Database.insertUser?_eq_some hb
    refine ⟨?_, by rw [nodes, nodes', h.nodes], by rw [keys, keys', h.keys],
      by rw [sessions, sessions', h.sessions]⟩
    rw [Table.find?_insert users, Table.find?_insert users', if_pos mine, if_pos mine]

theorem insertNode (h : AgreeOn uid a b) {node : Node} :
    Option.Rel (AgreeOn uid) (a.insertNode? node) (b.insertNode? node) := by
  refine rel_of_isSome ?_ fun a' b' ha hb => ?_
  · rw [insertNode?_isSome_iff, insertNode?_isSome_iff, h.nodes]
  · obtain ⟨nodes, users, keys, sessions, -⟩ := Database.insertNode?_eq_some ha
    obtain ⟨nodes', users', keys', sessions', -⟩ := Database.insertNode?_eq_some hb
    refine ⟨by rw [users, users', h.user], ?_, by rw [keys, keys', h.keys],
      by rw [sessions, sessions', h.sessions]⟩
    rw [h.nodes, nodes'] at nodes
    exact (Option.some.inj nodes).symm

/-- A key of the user whose identifier both databases have or neither has. -/
theorem insertKey (h : AgreeOn uid a b) {key : AccessKey} (mine : key.userId = uid)
    (fresh : a.accessKeys.find? key.id = none ↔ b.accessKeys.find? key.id = none) :
    Option.Rel (AgreeOn uid) (a.insertKey? key) (b.insertKey? key) := by
  refine rel_of_isSome ?_ fun a' b' ha hb => ?_
  · simp only [insertKey?_isSome_iff, mine, h.user, h.nodes, h.holdsKey, fresh]
  · obtain ⟨keys, users, nodes, sessions, -⟩ := Database.insertKey?_eq_some ha
    obtain ⟨keys', users', nodes', sessions', -⟩ := Database.insertKey?_eq_some hb
    refine ⟨by rw [users, users', h.user], by rw [nodes, nodes', h.nodes], ?_,
      by rw [sessions, sessions', h.sessions]⟩
    rw [(Table.insert?_eq_some_iff.1 keys).2, (Table.insert?_eq_some_iff.1 keys').2,
      List.filter_append, List.filter_append, h.keys]

/-- A session of the user whose identifier neither database has. -/
theorem insertSession (h : AgreeOn uid a b) {session : ConnectionSession}
    (mine : session.userId = uid) (fresh : a.sessions.find? session.id = none)
    (fresh' : b.sessions.find? session.id = none) (user : (a.users.find? uid).isSome)
    (node : (a.nodes.find? session.nodeId).isSome) :
    ∃ a' b', a.insertSession? session = some a' ∧ b.insertSession? session = some b' ∧
      AgreeOn uid a' b' := by
  have owner : (b.users.find? session.userId).isSome := by rw [mine, ← h.user]; exact user
  obtain ⟨a', ha⟩ := Option.isSome_iff_exists.1
    (Database.insertSession?_isSome fresh (mine ▸ user) node)
  obtain ⟨b', hb⟩ := Option.isSome_iff_exists.1
    (Database.insertSession?_isSome fresh' owner (h.nodes ▸ node))
  obtain ⟨sessions, users, nodes, keys, -⟩ := Database.insertSession?_eq_some ha
  obtain ⟨sessions', users', nodes', keys', -⟩ := Database.insertSession?_eq_some hb
  refine ⟨a', b', ha, hb, by rw [users, users', h.user], by rw [nodes, nodes', h.nodes],
    by rw [keys, keys', h.keys], ?_⟩
  rw [(Table.insert?_eq_some_iff.1 sessions).2, (Table.insert?_eq_some_iff.1 sessions').2,
    List.filter_append, List.filter_append, h.sessions]

end AgreeOn

end Arena.Model
