import Arena.Model.Plane

/-!
# What an administrative transaction does

The counterpart of `Arena.Model.Effects` for the administrative requests and start-up:
which tables a commit leaves alone, and what it does to the row of one user.
-/

namespace Arena.Model

open Arena.Lib

variable {cfg : Settings} {admin : String} {db db' : Database} {i : Id}

theorem getUser_eq_ok {u : User} : getUser db i = .ok u ↔ db.users.find? i = some u := by
  unfold getUser; split <;> simp_all

theorem getNode_eq_ok {n : Node} : getNode db i = .ok n ↔ db.nodes.find? i = some n := by
  unfold getNode; split <;> simp_all

/-- Creating keys adds keys and does nothing else. -/
theorem createKeys_frame {material : Id → KeyMaterial} {user : User} {nodes : List Node}
    (h : createKeys material user nodes db = .ok db') :
    db'.users = db.users ∧ db'.nodes = db.nodes ∧ db'.sessions = db.sessions := by
  induction nodes generalizing db with
  | nil => cases h; exact ⟨rfl, rfl, rfl⟩
  | cons node nodes ih =>
    obtain ⟨key, -, h⟩ := bind_eq_ok.1 h
    split at h
    · cases h
    · rename_i mid inserted
      obtain ⟨-, users, nodes, sessions, -⟩ := Database.insertKey?_eq_some inserted
      obtain ⟨hu, hn, hs⟩ := ih h
      exact ⟨hu.trans users, hn.trans nodes, hs.trans sessions⟩

/-! ## The requests that insert rows -/

/-- `create_user` inserts the row, then the keys for the chosen nodes, and records that. -/
theorem createUser_inv {newId : Id} {material : Id → KeyMaterial} {p : UserCreate}
    (h : createUser admin newId material p db = .ok db') : ∃ mid last event,
    db.insertUser? (newUser newId p) = some mid ∧
      createKeys material (newUser newId p)
        (mid.nodes.rows.filter fun n => n.enabled && (p.nodeIds.isEmpty || p.nodeIds.contains n.id)) mid =
          .ok last ∧
      event.actor = admin ∧ event.action = "user.created" ∧ db' = last.addAudit event := by
  unfold createUser at h
  dsimp only at h
  split at h
  · cases h
  · rename_i mid inserted
    obtain ⟨last, keys, h⟩ := bind_eq_ok.1 h
    exact ⟨mid, last, _, inserted, keys, rfl, rfl, (Except.ok.inj h).symm⟩

/-- The user has a key on the node. -/
def Database.holdsKey (db : Database) (userId nodeId : Id) : Bool :=
  db.accessKeys.rows.any fun k => k.userId = userId && k.nodeId = nodeId

/-- `attach_node` enables the keys that are there, or creates one, and records that. -/
theorem attachNode_inv {userId nodeId : Id} {material : KeyMaterial}
    (h : attachNode admin userId nodeId material db = .ok db') : ∃ user node mid event,
    db.users.find? userId = some user ∧ db.nodes.find? nodeId = some node ∧
      (db.holdsKey userId nodeId ∧
          mid = db.updateKeysEnabled (fun k => k.userId = userId && k.nodeId = nodeId) true ∨
        ¬db.holdsKey userId nodeId ∧ createKeys (fun _ => material) user [node] db = .ok mid) ∧
      event.actor = admin ∧ event.action = "user.node_attached" ∧ db' = mid.addAudit event := by
  simp only [attachNode, bind_eq_ok] at h
  obtain ⟨user, found, h⟩ := h
  split at h
  · cases h
  · rename_i node here
    split at h
    · rename_i held
      exact ⟨user, node, _, _, getUser_eq_ok.1 found, here, .inl ⟨held, rfl⟩, rfl, rfl, (Except.ok.inj h).symm⟩
    · rename_i free
      obtain ⟨last, keys, h⟩ := bind_eq_ok.1 h
      exact ⟨user, node, last, _, getUser_eq_ok.1 found, here, .inr ⟨free, keys⟩, rfl, rfl,
        (Except.ok.inj h).symm⟩

/-- `create_node` checks the request and the slug, inserts the row and records that. -/
theorem createNode_inv {newId : Id} {p : NodeCreate} (h : createNode admin newId p db = .ok db') :
    validateNode p = .ok () ∧ (∀ n ∈ db.nodes.rows, n.slug ≠ p.slug) ∧ ∃ mid event,
      db.insertNode? (newNode newId p) = some mid ∧ event.actor = admin ∧ event.action = "node.created" ∧
        db' = mid.addAudit event := by
  simp only [createNode, bind_eq_ok] at h
  obtain ⟨_, valid, h⟩ := h
  split at h
  · cases h
  · rename_i taken
    split at h
    · cases h
    · rename_i mid inserted
      exact ⟨valid, by simpa using taken, mid, _, inserted, rfl, rfl, (Except.ok.inj h).symm⟩

/-! ## The inversion of a commit -/

/-- **Everything an administrative commit can do** to the users, nodes and sessions (and to
the keys, where it removes some), by what the request is. -/
inductive Committed (db db' : Database) : AdminOp → Prop
  | createUser (newId material p)
      (users : db.users.insert? (newUser newId p) = some db'.users) (nodes : db'.nodes = db.nodes)
      (sessions : db'.sessions = db.sessions) : Committed db db' (.createUser newId material p)
  | updateUser (userId p user row) (found : db.users.find? userId = some user)
      (patched : patchUser p user = .ok row)
      (users : db'.users =
        db.users.update (·.id = userId) (User.assign row) (fun _ => User.assign_id))
      (nodes : db'.nodes = db.nodes) (sessions : db'.sessions = db.sessions)
      (keys : db'.accessKeys = db.accessKeys) : Committed db db' (.updateUser userId p)
  | resetUsage (userId)
      (users : db'.users =
        db.users.update (·.id = userId) User.resetUsage (fun _ => User.resetUsage_id))
      (nodes : db'.nodes = db.nodes) (sessions : db'.sessions = db.sessions)
      (keys : db'.accessKeys = db.accessKeys) : Committed db db' (.resetUsage userId)
  | rotateSubscription (userId)
      (users : db'.users = db.users.update (·.id = userId) User.rotate (fun _ => User.rotate_id))
      (nodes : db'.nodes = db.nodes) (sessions : db'.sessions = db.sessions)
      (keys : db'.accessKeys = db.accessKeys) : Committed db db' (.rotateSubscription userId)
  | attachNode (userId nodeId material) (users : db'.users = db.users)
      (nodes : db'.nodes = db.nodes) (sessions : db'.sessions = db.sessions) :
      Committed db db' (.attachNode userId nodeId material)
  | detachNode (userId nodeId) (users : db'.users = db.users) (nodes : db'.nodes = db.nodes)
      (sessions : db'.sessions = db.sessions)
      (keys : db'.accessKeys =
        db.accessKeys.delete fun k => k.userId = userId && k.nodeId = nodeId) :
      Committed db db' (.detachNode userId nodeId)
  | deleteUser (userId) (users : db'.users = db.users.delete fun u => u.id = userId)
      (nodes : db'.nodes = db.nodes)
      (sessions : db'.sessions = db.sessions.delete fun s => s.userId = userId)
      (keys : db'.accessKeys = db.accessKeys.delete fun k => k.userId = userId) :
      Committed db db' (.deleteUser userId)
  | createNode (newId p) (users : db'.users = db.users)
      (nodes : db.nodes.insert? (newNode newId p) = some db'.nodes)
      (sessions : db'.sessions = db.sessions) (keys : db'.accessKeys = db.accessKeys) :
      Committed db db' (.createNode newId p)
  | updateNode (nodeId p node row) (found : db.nodes.find? nodeId = some node)
      (patched : patchNode p node = .ok row) (users : db'.users = db.users)
      (nodes : db'.nodes =
        db.nodes.update (·.id = nodeId) (Node.assign row) (fun _ => Node.assign_id))
      (sessions : db'.sessions = db.sessions) (keys : db'.accessKeys = db.accessKeys) :
      Committed db db' (.updateNode nodeId p)
  | disableNode (nodeId) (users : db'.users = db.users)
      (nodes : db'.nodes =
        db.nodes.update (·.id = nodeId) Node.disable (fun _ => Node.disable_id))
      (sessions : db'.sessions = db.sessions) (keys : db'.accessKeys = db.accessKeys) :
      Committed db db' (.disableNode nodeId)

theorem commit_inv {op : AdminOp} (h : op.commit admin db = .ok db') : Committed db db' op := by
  cases op with
  | createUser newId material p =>
    obtain ⟨mid, last, event, inserted, keys, -, -, rfl⟩ := createUser_inv h
    obtain ⟨users, nodes, -, sessions, -⟩ := Database.insertUser?_eq_some inserted
    obtain ⟨hu, hn, hs⟩ := createKeys_frame keys
    exact .createUser newId material p (by rw [Database.addAudit_users, hu]; exact users)
      (hn.trans nodes) (hs.trans sessions)
  | updateUser userId p =>
    simp only [AdminOp.commit, updateUser, bind_eq_ok] at h
    obtain ⟨user, found, row, patched, h⟩ := h
    cases h
    exact .updateUser userId p user row (getUser_eq_ok.1 found) patched rfl rfl rfl rfl
  | resetUsage userId =>
    simp only [AdminOp.commit, resetUsage, bind_eq_ok] at h
    obtain ⟨_, -, h⟩ := h
    cases h
    exact .resetUsage userId rfl rfl rfl rfl
  | rotateSubscription userId =>
    simp only [AdminOp.commit, rotateSubscription, bind_eq_ok] at h
    obtain ⟨_, -, h⟩ := h
    cases h
    exact .rotateSubscription userId rfl rfl rfl rfl
  | attachNode userId nodeId material =>
    obtain ⟨user, node, mid, event, -, -, ⟨-, rfl⟩ | ⟨-, keys⟩, -, -, rfl⟩ := attachNode_inv h
    · exact .attachNode userId nodeId material rfl rfl rfl
    · obtain ⟨users, nodes, sessions⟩ := createKeys_frame keys
      exact .attachNode userId nodeId material users nodes sessions
  | detachNode userId nodeId =>
    simp only [AdminOp.commit, detachNode, bind_eq_ok] at h
    obtain ⟨_, -, h⟩ := h
    cases h
    exact .detachNode userId nodeId rfl rfl rfl rfl
  | deleteUser userId =>
    simp only [AdminOp.commit, deleteUser, bind_eq_ok] at h
    obtain ⟨_, -, h⟩ := h
    cases h
    exact .deleteUser userId rfl rfl rfl rfl
  | createNode newId p =>
    obtain ⟨-, -, mid, event, inserted, -, -, rfl⟩ := createNode_inv h
    obtain ⟨nodes, users, keys, sessions, -⟩ := Database.insertNode?_eq_some inserted
    exact .createNode newId p users nodes sessions keys
  | updateNode nodeId p =>
    simp only [AdminOp.commit, updateNode, bind_eq_ok] at h
    obtain ⟨node, found, row, patched, h⟩ := h
    cases h
    exact .updateNode nodeId p node row (getNode_eq_ok.1 found) patched rfl rfl rfl rfl
  | disableNode nodeId =>
    simp only [AdminOp.commit, disableNode, bind_eq_ok] at h
    obtain ⟨_, -, h⟩ := h
    cases h
    exact .disableNode nodeId rfl rfl rfl rfl

/-- Only the deletion of a user touches sessions. -/
theorem Committed.sessions_cases {op : AdminOp} (committed : Committed db db' op) :
    db'.sessions = db.sessions ∨ ∃ userId, op = .deleteUser userId ∧
      db'.sessions = db.sessions.delete fun s => s.userId = userId := by
  cases committed with
  | deleteUser userId _ _ sessions => exact .inr ⟨userId, rfl, sessions⟩
  | _ => exact .inl ‹_›

/-! ## Start-up -/

theorem seedNode_frame {newId : Id} {name slug : String} {protocol : Protocol}
    (h : seedNode cfg newId name slug protocol db = .ok db') :
    db'.users = db.users ∧ db'.accessKeys = db.accessKeys ∧ db'.sessions = db.sessions := by
  unfold seedNode at h
  split at h
  · split at h
    · cases h
    · rename_i mid inserted
      obtain ⟨-, users, keys, sessions, -⟩ := Database.insertNode?_eq_some inserted
      cases h
      exact ⟨users, keys, sessions⟩
  · obtain ⟨row, -, h⟩ := bind_eq_ok.1 h
    cases h
    exact ⟨rfl, rfl, rfl⟩

/-- Start-up touches nodes only. -/
theorem seedDatabase_frame {vlessId vmessId : Id} (h : seedDatabase cfg vlessId vmessId db = .ok db') :
    db'.users = db.users ∧ db'.accessKeys = db.accessKeys ∧ db'.sessions = db.sessions := by
  obtain ⟨mid, first, second⟩ := bind_eq_ok.1 h
  obtain ⟨hu, hk, hs⟩ := seedNode_frame first
  obtain ⟨hu', hk', hs'⟩ := seedNode_frame second
  exact ⟨hu'.trans hu, hk'.trans hk, hs'.trans hs⟩

/-! ## The inversion of an event -/

/-- **Everything an event can commit**, by what the event is. -/
inductive Changed (cfg : Settings) (now : Instant) (db db' : Database) : Event → Prop
  | same (e) (same : db' = db) : Changed cfg now db db' e
  | seeded (vlessId vmessId) (seeded : seedDatabase cfg vlessId vmessId db = .ok db') :
      Changed cfg now db db' (.start vlessId vmessId)
  | refused (newId p) (users : db'.users = db.users) (nodes : db'.nodes = db.nodes)
      (sessions : db'.sessions = (finishStaleSessions cfg now db).sessions)
      (keys : db'.accessKeys = db.accessKeys) : Changed cfg now db db' (.authorize newId p)
  | admitted (newId p user node)
      (verdict : decideRoute now p (finishStaleSessions cfg now db) = .admitted user node)
      (committed : admission newId now p (finishStaleSessions cfg now db) = some db') :
      Changed cfg now db db' (.authorize newId p)
  | heard (p session user verdict) (sid : session.id = p.sessionId)
      (charges : Charges db db' session user p.uplinkDelta p.downlinkDelta
        (ConnectionSession.heard p.uplinkDelta p.downlinkDelta now verdict)) :
      Changed cfg now db db' (.heartbeat p)
  | closed (p session user) (sid : session.id = p.sessionId)
      (charges : Charges db db' session user p.uplinkDelta p.downlinkDelta
        (ConnectionSession.closed p.uplinkDelta p.downlinkDelta now p.reason)) :
      Changed cfg now db db' (.close p)
  | administered (name op) (done : op.commit name db = .ok db') (committed : Committed db db' op) :
      Changed cfg now db db' (.admin name op)

theorem commit_changed (cfg : Settings) (now : Instant) (db : Database) (e : Event) :
    Changed cfg now db (e.commit cfg now db) e := by
  cases e with
  | tick => exact .same _ rfl
  | start vlessId vmessId =>
    cases h : seedDatabase cfg vlessId vmessId db with
    | error => exact .same _ (by simp [Event.commit, h, Except.toOption])
    | ok db' => exact .seeded _ _ (by simp [Event.commit, h, Except.toOption])
  | authorize newId p =>
    rcases authorize_cases (Prod.mk.eta (p := authorize cfg now newId p db)).symm with
      ⟨event, -, swept, -⟩ | ⟨same, -⟩ | ⟨user, node, verdict, committed, -⟩
    · rw [Event.commit, swept]
      exact .refused newId p rfl rfl rfl rfl
    · exact .same _ same
    · exact .admitted newId p user node verdict committed
  | heartbeat p =>
    rcases heartbeat_cases (Prod.mk.eta (p := heartbeat now p db)).symm with
      ⟨-, same, -⟩ | ⟨session, user, verdict, sid, -, charges, -⟩
    · exact .same _ same
    · exact .heard p session user verdict sid charges
  | close p =>
    rcases close_cases now p db with ⟨-, same⟩ | ⟨session, user, sid, charges⟩
    · exact .same _ same
    · exact .closed p session user sid charges
  | admin name op =>
    cases h : op.commit name db with
    | error => exact .same _ (by simp [Event.commit, h, Except.toOption])
    | ok db' =>
      have made : (Event.admin name op).commit cfg now db = db' := by
        simp [Event.commit, h, Except.toOption]
      rw [made]
      exact .administered name op h (commit_inv h)

end Arena.Model
