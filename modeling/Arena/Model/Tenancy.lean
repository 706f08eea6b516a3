import Arena.Model.Agreement
import Arena.Model.KeyRows

/-!
# A user's requests, and those of others

The handlers on two databases that agree on a user: its own requests are answered alike and
keep the agreement, and so do those that are about no user. A request of another user
changes nothing that this user sees, but that each `authorize` sweeps.
-/

namespace Arena.Model

open Arena.Lib

variable {cfg : Settings} {now : Instant} {uid newId : Id} {a b : Database}

/-- The user that an administrative request is about. -/
def AdminOp.subject : AdminOp → Option Id
  | .createUser newId .. => some newId
  | .updateUser userId _ | .resetUsage userId | .rotateSubscription userId | .attachNode userId ..
  | .detachNode userId _ | .deleteUser userId => some userId
  | .createNode .. | .updateNode .. | .disableNode _ => none

/-- The identifiers that a request draws for the keys it creates. -/
def AdminOp.keyIds (db : Database) : AdminOp → List Id
  | .createUser _ material _ => db.nodes.rows.map fun node => (material node.id).id
  | .attachNode _ _ material => [material.id]
  | _ => []

/-- No key has an identifier that the event draws for one. -/
def KeysFresh (db : Database) : Event → Prop
  | .admin _ op => ∀ i ∈ op.keyIds db, db.accessKeys.find? i = none
  | _ => True

instance (db : Database) (e : Event) : Decidable (KeysFresh db e) := by
  cases e <;> unfold KeysFresh <;> infer_instance

namespace AgreeOn

/-! ## Gateway requests -/

theorem sweep (h : AgreeOn uid a b) :
    AgreeOn uid (finishStaleSessions cfg now a) (finishStaleSessions cfg now b) :=
  h.updateSessions (fun _ => ConnectionSession.finish_id) (fun _ => ConnectionSession.finish_userId)
    fun _ => ConnectionSession.finish_nodeId

theorem decideRoute {p : GatewayAuthorize} (h : AgreeOn p.userId a b) :
    decideRoute now p a = decideRoute now p b := by
  have same : ∀ u, b.users.find? p.userId = some u → u.id = p.userId := fun u => Table.find?_key
  unfold Model.decideRoute
  rw [h.user, h.nodes, h.enabledKey]
  split
  · rename_i u n k found _ _
    rw [same u found, h.openIps]
  · rfl

/-- An admitted request of the user, when neither database has its session. -/
theorem admission {p : GatewayAuthorize} (h : AgreeOn p.userId a b) (now : Instant)
    (fresh : a.sessions.find? newId = none) (fresh' : b.sessions.find? newId = none)
    (user : (a.users.find? p.userId).isSome) (node : (a.nodes.find? p.nodeId).isSome) :
    ∃ a' b', admission newId now p a = some a' ∧ admission newId now p b = some b' ∧
      AgreeOn p.userId a' b' := by
  have started : AgreeOn p.userId
      (a.updateUsers (·.id = p.userId) (User.start now) fun _ => User.start_id)
      (b.updateUsers (·.id = p.userId) (User.start now) fun _ => User.start_id) := h.updateUsers
  have owner : (newSession newId now p).userId = p.userId := rfl
  obtain ⟨a', b', ha, hb, agree⟩ := started.insertSession owner fresh fresh' (by simpa using user) node
  exact ⟨_, _, by rw [Model.admission, ha, Option.map_some], by rw [Model.admission, hb, Option.map_some],
    agree.addAudit⟩

/-- **The user's own `authorize`.** -/
theorem authorize {p : GatewayAuthorize} (h : AgreeOn p.userId a b)
    (fresh : a.sessions.find? newId = none) (fresh' : b.sessions.find? newId = none) :
    (authorize cfg now newId p a).2 = (authorize cfg now newId p b).2 ∧
      AgreeOn p.userId (authorize cfg now newId p a).1 (authorize cfg now newId p b).1 := by
  have swept : AgreeOn p.userId (finishStaleSessions cfg now a) (finishStaleSessions cfg now b) :=
    h.sweep
  unfold Model.authorize
  simp only [← swept.decideRoute]
  cases verdict : Model.decideRoute now p (finishStaleSessions cfg now a) with
  | routeNotFound | notAllowed reason | ipLimit active => exact ⟨rfl, swept.addAudit⟩
  | admitted user node =>
    obtain ⟨owner, there, -⟩ := decideRoute_admitted_iff.1 verdict
    have gone : ∀ {db : Database}, db.sessions.find? newId = none →
        (finishStaleSessions cfg now db).sessions.find? newId = none := by
      intro db fresh
      rw [finishStaleSessions_find?, fresh, Option.map_none]
    obtain ⟨a', b', ha, hb, agree⟩ := swept.admission now (gone fresh) (gone fresh')
      (Option.isSome_iff_exists.2 ⟨user, owner⟩) (Option.isSome_iff_exists.2 ⟨node, there⟩)
    simp only [ha, hb]
    exact ⟨trivial, agree⟩

theorem applyTraffic (h : AgreeOn uid a b) {user session : Id} {up down : ℕ} :
    AgreeOn uid (applyTraffic a user session up down now) (applyTraffic b user session up down now) :=
  h.updateUsers.updateSessions (fun _ => ConnectionSession.addTraffic_id)
    (fun _ => ConnectionSession.addTraffic_userId) fun _ => ConnectionSession.addTraffic_nodeId

theorem openSession (h : AgreeOn uid a b) {i : Id} (mine : OwnSession uid i a)
    (mine' : OwnSession uid i b) : a.openSession i = b.openSession i := by
  rw [Database.openSession, Database.openSession, h.find_session mine mine']

/-- **A heartbeat of one of the user's sessions.** -/
theorem heartbeat {p : GatewayHeartbeat} (h : AgreeOn uid a b) (mine : OwnSession uid p.sessionId a)
    (mine' : OwnSession uid p.sessionId b) :
    (heartbeat now p a).2 = (heartbeat now p b).2 ∧
      AgreeOn uid (heartbeat now p a).1 (heartbeat now p b).1 := by
  unfold Model.heartbeat
  rw [← h.openSession mine mine']
  cases opened : a.openSession p.sessionId with
  | none => exact ⟨rfl, h⟩
  | some session =>
    have owner : session.userId = uid := mine session (openSession_eq_some_iff.1 opened).1
    simp only [owner, ← h.user]
    cases a.users.find? uid with
    | none => exact ⟨rfl, h⟩
    | some user =>
      dsimp only
      split
      · exact ⟨rfl, h.applyTraffic⟩
      · exact ⟨rfl, h.applyTraffic.updateSessions (fun _ => ConnectionSession.block_id)
          (fun _ => ConnectionSession.block_userId) fun _ => ConnectionSession.block_nodeId⟩

/-- **A close of one of the user's sessions.** -/
theorem close {p : GatewayClose} (h : AgreeOn uid a b) (mine : OwnSession uid p.sessionId a)
    (mine' : OwnSession uid p.sessionId b) : AgreeOn uid (close now p a) (close now p b) := by
  unfold Model.close
  rw [← h.find_session mine mine']
  cases found : a.sessions.find? p.sessionId with
  | none => exact h
  | some session =>
    have owner : session.userId = uid := mine session found
    simp only [owner, ← h.user]
    split
    · exact h
    · have ended : ∀ {c d : Database}, AgreeOn uid c d →
          AgreeOn uid
            (c.updateSessions (·.id = session.id) (ConnectionSession.closeAt now p.reason)
              (fun _ => ConnectionSession.closeAt_id) (fun _ => ConnectionSession.closeAt_userId)
              fun _ => ConnectionSession.closeAt_nodeId)
            (d.updateSessions (·.id = session.id) (ConnectionSession.closeAt now p.reason)
              (fun _ => ConnectionSession.closeAt_id) (fun _ => ConnectionSession.closeAt_userId)
              fun _ => ConnectionSession.closeAt_nodeId) :=
        fun agree => agree.updateSessions _ _ _
      cases a.users.find? uid with
      | none => exact (ended h).addAudit
      | some user => exact (ended h.applyTraffic).addAudit

/-! ## Administrative requests -/

theorem getUser (h : AgreeOn uid a b) : getUser a uid = getUser b uid := by
  rw [Model.getUser, Model.getUser, h.user]

theorem getNode (h : AgreeOn uid a b) (i : Id) : getNode a i = getNode b i := by
  rw [Model.getNode, Model.getNode, h.nodes]

theorem createAccessKey_id {m : KeyMaterial} {user : User} {node : Node} {k : AccessKey}
    (made : createAccessKey m user node = .ok k) : k.id = m.id := by
  unfold createAccessKey at made
  split at made
  · cases made; rfl
  · cases made; rfl
  · split at made
    · cases made
    · cases made; rfl
  · cases made; rfl

/-- Keys whose identifiers both databases have or neither has. -/
theorem createKeys (h : AgreeOn uid a b) {material : Id → KeyMaterial} {user : User}
    (mine : user.id = uid) {nodes : List Node}
    (fresh : ∀ node ∈ nodes, (a.accessKeys.find? (material node.id).id = none ↔
      b.accessKeys.find? (material node.id).id = none)) :
    Parallel (AgreeOn uid) (createKeys material user nodes a) (createKeys material user nodes b) := by
  induction nodes generalizing a b with
  | nil => exact .ok h
  | cons node nodes ih =>
    cases made : createAccessKey (material node.id) user node with
    | error e =>
      simp only [Model.createKeys, made]
      exact .error e
    | ok key =>
      have owner : key.userId = uid := (createAccessKey_owner made).1.trans mine
      have drawn := fresh node (by simp)
      rw [← createAccessKey_id made] at drawn
      simp only [Model.createKeys, made, bind, Except.bind]
      obtain ⟨ha, hb⟩ | ⟨a', b', ha, hb, agree⟩ := rel_cases (h.insertKey owner drawn)
      · rw [ha, hb]
        exact .error _
      · rw [ha, hb]
        refine ih agree fun other there => ?_
        rw [Table.find?_insert (Database.insertKey?_eq_some ha).1,
          Table.find?_insert (Database.insertKey?_eq_some hb).1]
        split
        · simp
        · exact fresh other (by simp [there])

variable {admin : String} {nodeId : Id}

theorem createUser {material : Id → KeyMaterial} {p : UserCreate} (h : AgreeOn uid a b)
    (fresh : ∀ node ∈ a.nodes.rows, (a.accessKeys.find? (material node.id).id = none ↔
      b.accessKeys.find? (material node.id).id = none)) :
    Parallel (AgreeOn uid) (createUser admin uid material p a) (createUser admin uid material p b) := by
  unfold Model.createUser
  dsimp only
  have mine : (newUser uid p).id = uid := rfl
  obtain ⟨ha, hb⟩ | ⟨a', b', ha, hb, agree⟩ := rel_cases (h.insertUser mine)
  · rw [ha, hb]
    exact .error _
  · obtain ⟨-, nodes, keys, -⟩ := Database.insertUser?_eq_some ha
    obtain ⟨-, -, keys', -⟩ := Database.insertUser?_eq_some hb
    simp only [ha, hb, ← agree.nodes, nodes]
    refine (agree.createKeys rfl fun node mem => ?_).bind fun _ _ agree => .ok agree.addAudit
    rw [keys, keys']
    exact fresh node (List.mem_filter.1 mem).1

theorem attachNode {material : KeyMaterial} (h : AgreeOn uid a b)
    (fresh : a.accessKeys.find? material.id = none ↔ b.accessKeys.find? material.id = none) :
    Parallel (AgreeOn uid) (attachNode admin uid nodeId material a)
      (attachNode admin uid nodeId material b) := by
  have held : (a.accessKeys.rows.any fun k => k.userId = uid && k.nodeId = nodeId) =
      b.accessKeys.rows.any fun k => k.userId = uid && k.nodeId = nodeId := h.holdsKey nodeId
  unfold Model.attachNode
  rw [h.getUser, h.nodes, held]
  cases found : Model.getUser b uid with
  | error e => exact .error e
  | ok user =>
    have mine := Table.find?_key (getUser_eq_ok.1 found)
    simp only [bind, Except.bind]
    cases b.nodes.find? nodeId with
    | none => exact .error _
    | some node =>
      dsimp only
      split
      · exact .ok h.updateKeysEnabled.addAudit
      · exact (h.createKeys mine fun _ _ => fresh).bind fun _ _ agree => .ok agree.addAudit

/-- **An administrative request about the user**, or about no user. -/
theorem commit {op : AdminOp} (h : AgreeOn uid a b) (about : ∀ i, op.subject = some i → i = uid)
    (fresh : ∀ i ∈ op.keyIds a, (a.accessKeys.find? i = none ↔ b.accessKeys.find? i = none)) :
    Parallel (AgreeOn uid) (op.commit admin a) (op.commit admin b) := by
  cases op with
  | createUser newId material p =>
    obtain rfl := about newId rfl
    exact h.createUser fun node mem => fresh _ (List.mem_map_of_mem mem)
  | updateUser userId p =>
    obtain rfl := about userId rfl
    refine (Parallel.of_eq h.getUser).bind ?_
    rintro user _ rfl
    refine (Parallel.of_eq rfl).bind ?_
    rintro row _ rfl
    exact .ok h.updateUsers.addAudit
  | resetUsage userId | rotateSubscription userId =>
    obtain rfl := about userId rfl
    refine (Parallel.of_eq h.getUser).bind fun _ _ _ => ?_
    exact .ok h.updateUsers.addAudit
  | attachNode userId nodeId material =>
    obtain rfl := about userId rfl
    exact h.attachNode (fresh _ (by simp [AdminOp.keyIds]))
  | detachNode userId nodeId =>
    obtain rfl := about userId rfl
    exact (Parallel.of_eq h.getUser).bind fun _ _ _ => .ok h.deleteKeys.addAudit
  | deleteUser userId =>
    obtain rfl := about userId rfl
    exact (Parallel.of_eq h.getUser).bind fun _ _ _ => .ok h.addAudit.deleteUser
  | createNode newId p =>
    refine (Parallel.of_eq rfl).bind fun _ _ _ => ?_
    rw [h.nodes]
    split
    · exact .error _
    · have inserted : Option.Rel (AgreeOn uid) (a.insertNode? (newNode newId p))
          (b.insertNode? (newNode newId p)) := h.insertNode
      obtain ⟨ha, hb⟩ | ⟨a', b', ha, hb, agree⟩ := rel_cases inserted
      · rw [ha, hb]
        exact .error _
      · rw [ha, hb]
        exact .ok agree.addAudit
  | updateNode nodeId p =>
    refine (Parallel.of_eq (h.getNode nodeId)).bind ?_
    rintro node _ rfl
    refine (Parallel.of_eq rfl).bind ?_
    rintro row _ rfl
    exact .ok h.updateNodes.addAudit
  | disableNode nodeId =>
    exact (Parallel.of_eq (h.getNode nodeId)).bind fun _ _ _ => .ok h.updateNodes.addAudit

theorem seedNode {name slug : String} {protocol : Protocol} (h : AgreeOn uid a b) :
    Parallel (AgreeOn uid) (seedNode cfg newId name slug protocol a)
      (seedNode cfg newId name slug protocol b) := by
  unfold Model.seedNode
  rw [h.nodes]
  split
  · have inserted : Option.Rel (AgreeOn uid)
        (a.insertNode? (defaultNode cfg newId name slug protocol))
        (b.insertNode? (defaultNode cfg newId name slug protocol)) := h.insertNode
    obtain ⟨ha, hb⟩ | ⟨a', b', ha, hb, agree⟩ := rel_cases inserted
    · rw [ha, hb]
      exact .error _
    · rw [ha, hb]
      exact .ok agree
  · refine (Parallel.of_eq rfl).bind ?_
    rintro row _ rfl
    exact .ok h.updateNodes

theorem seedDatabase {vlessId vmessId : Id} (h : AgreeOn uid a b) :
    Parallel (AgreeOn uid) (seedDatabase cfg vlessId vmessId a) (seedDatabase cfg vlessId vmessId b) :=
  h.seedNode.bind fun _ _ agree => agree.seedNode

end AgreeOn

/-! ## Requests of others -/

/-- What was charged to another user's session. -/
theorem Charges.agree {session : ConnectionSession} {user : User} {up down : ℕ}
    {f : ConnectionSession → ConnectionSession} (charges : Charges a b session user up down f)
    (keepsUser : ∀ s, (f s).userId = s.userId) (other : session.userId ≠ uid) : AgreeOn uid a b := by
  refine ⟨?_, charges.nodes.symm, by rw [charges.accessKeys], ?_⟩
  · rw [charges.users, Table.find?_update_of_key]
    intro r mine same
    exact other ((of_decide_eq_true same).symm.trans mine)
  · have same : ∀ s, decide ((f s).userId = uid) = decide (s.userId = uid) := fun s => by rw [keepsUser]
    rw [charges.sessions, Table.filter_update_of_disjoint same]
    intro r mem hit
    have eq : r = session :=
      Table.eq_of_key_eq mem (Table.find?_mem charges.found) (of_decide_eq_true hit)
    simp [eq, other]

theorem heartbeat_agree {p : GatewayHeartbeat} (other : ¬ OwnSession uid p.sessionId a) :
    AgreeOn uid a (heartbeat now p a).1 := by
  rcases heartbeat_cases (Prod.mk.eta (p := heartbeat now p a)).symm with
    ⟨-, same, -⟩ | ⟨session, user, verdict, sid, -, charges, -⟩
  · rw [same]
    exact .refl uid a
  · refine charges.agree (fun _ => ConnectionSession.heard_userId) fun mine => other ?_
    intro x found
    obtain rfl : session = x := Option.some.inj ((sid ▸ charges.found).symm.trans found)
    exact mine

theorem close_agree {p : GatewayClose} (other : ¬ OwnSession uid p.sessionId a) :
    AgreeOn uid a (close now p a) := by
  rcases close_cases now p a with ⟨-, same⟩ | ⟨session, user, sid, charges⟩
  · rw [same]
    exact .refl uid a
  · refine charges.agree (fun _ => ConnectionSession.closed_userId) fun mine => other ?_
    intro x found
    obtain rfl : session = x := Option.some.inj ((sid ▸ charges.found).symm.trans found)
    exact mine

/-- Another user's `authorize` is a sweep. -/
theorem authorize_agree {p : GatewayAuthorize} (other : p.userId ≠ uid)
    (fresh : a.sessions.find? newId = none) :
    AgreeOn uid (finishStaleSessions cfg now a) (authorize cfg now newId p a).1 := by
  have written : ∀ {db : Database} {event : AuditEvent},
      AgreeOn uid db (db.addAudit event) := ⟨rfl, rfl, rfl, rfl⟩
  simp only [authorize]
  split
  · exact written
  · exact written
  · exact written
  · rename_i user node verdict
    split
    · -- an identifier that no session has is never refused
      rename_i refused
      obtain ⟨reply, ok⟩ := (authorize_ok_iff fresh).2 ⟨user, node, verdict⟩
      simp [authorize, verdict, refused] at ok
    · rename_i committed
      obtain ⟨users, sessions, nodes, keys⟩ := admission_eq_some committed
      refine ⟨?_, nodes.symm, by rw [keys], ?_⟩
      · rw [users, Table.find?_update_of_key]
        intro r mine same
        exact other ((of_decide_eq_true same).symm.trans mine)
      · rw [(Table.insert?_eq_some_iff.1 sessions).2, List.filter_append]
        simp [newSession, other]

/-- The keys of a new user, or of an attached node, come after those that were there. -/
theorem createKeys_rows {material : Id → KeyMaterial} {user : User} {nodes : List Node}
    (h : createKeys material user nodes a = .ok b) :
    ∃ added, b.accessKeys.rows = a.accessKeys.rows ++ added ∧ ∀ k ∈ added, k.userId = user.id := by
  induction nodes generalizing a with
  | nil => cases h; exact ⟨[], by simp, by simp⟩
  | cons node nodes ih =>
    obtain ⟨key, made, h⟩ := bind_eq_ok.1 h
    split at h
    · cases h
    · rename_i mid inserted
      obtain ⟨added, rows, owned⟩ := ih h
      refine ⟨key :: added, ?_, ?_⟩
      · rw [rows, (Table.insert?_eq_some_iff.1 (Database.insertKey?_eq_some inserted).1).2,
          List.append_assoc, List.singleton_append]
      · intro k mem
        rcases List.mem_cons.1 mem with rfl | mem
        · exact (createAccessKey_owner made).1
        · exact owned k mem

theorem createKeys_agree {material : Id → KeyMaterial} {user : User} {nodes : List Node}
    (h : createKeys material user nodes a = .ok b) (other : user.id ≠ uid) : AgreeOn uid a b := by
  obtain ⟨users, nodes, sessions⟩ := createKeys_frame h
  obtain ⟨added, rows, owned⟩ := createKeys_rows h
  refine ⟨by rw [users], nodes.symm, ?_, by rw [sessions]⟩
  have nothing : added.filter (·.userId = uid) = [] :=
    List.filter_eq_nil_iff.2 fun k mem => by simp [owned k mem, other]
  rw [rows, List.filter_append, nothing, List.append_nil]

/-- An administrative request about another user. -/
theorem commit_agree {op : AdminOp} {admin : String} {i : Id} (h : op.commit admin a = .ok b)
    (about : op.subject = some i) (other : i ≠ uid) : AgreeOn uid a b := by
  have row : ∀ (f : User → User) (keeps : ∀ u, (f u).id = u.id),
      a.users.find? uid = (a.users.update (·.id = i) f keeps).find? uid := by
    intro f keeps
    refine (Table.find?_update_of_key fun r mine same => other ?_).symm
    exact (of_decide_eq_true same).symm.trans mine
  cases op with
  | createUser newId material p =>
    obtain rfl := Option.some.inj about
    obtain ⟨mid, last, event, inserted, keys, -, -, rfl⟩ := createUser_inv h
    obtain ⟨users, nodes, same, sessions, -⟩ := Database.insertUser?_eq_some inserted
    have first : AgreeOn uid a mid :=
      ⟨by rw [Table.find?_insert users]; exact (if_neg other).symm, nodes.symm, by rw [same], by rw [sessions]⟩
    exact (first.trans (createKeys_agree keys other)).trans ⟨rfl, rfl, rfl, rfl⟩
  | attachNode userId nodeId material =>
    obtain rfl := Option.some.inj about
    obtain ⟨user, node, mid, event, found, -, ⟨-, rfl⟩ | ⟨-, keys⟩, -, -, rfl⟩ := attachNode_inv h
    · have kept : AgreeOn uid a (a.updateKeysEnabled (fun k => k.userId = userId && k.nodeId = nodeId)
          true) := by
        refine ⟨rfl, rfl, ?_, rfl⟩
        have same : ∀ k : AccessKey, decide (({ k with enabled := true } : AccessKey).userId = uid) =
          decide (k.userId = uid) := fun _ => rfl
        rw [Database.updateKeysEnabled_accessKeys, Table.filter_update_of_disjoint same]
        intro k _ hit
        simp only [Bool.and_eq_true, decide_eq_true_eq] at hit
        simp [hit.1, other]
      exact kept.trans ⟨rfl, rfl, rfl, rfl⟩
    · have mine := Table.find?_key found
      exact (createKeys_agree keys (mine ▸ other)).trans ⟨rfl, rfl, rfl, rfl⟩
  | updateUser userId p =>
    obtain rfl := Option.some.inj about
    simp only [AdminOp.commit, updateUser, bind_eq_ok] at h
    obtain ⟨user, -, row', -, h⟩ := h
    cases h
    exact ⟨row _ fun _ => User.assign_id, rfl, rfl, rfl⟩
  | resetUsage userId =>
    obtain rfl := Option.some.inj about
    simp only [AdminOp.commit, resetUsage, bind_eq_ok] at h
    obtain ⟨_, -, h⟩ := h
    cases h
    exact ⟨row _ fun _ => User.resetUsage_id, rfl, rfl, rfl⟩
  | rotateSubscription userId =>
    obtain rfl := Option.some.inj about
    simp only [AdminOp.commit, rotateSubscription, bind_eq_ok] at h
    obtain ⟨_, -, h⟩ := h
    cases h
    exact ⟨row _ fun _ => User.rotate_id, rfl, rfl, rfl⟩
  | detachNode userId nodeId =>
    obtain rfl := Option.some.inj about
    simp only [AdminOp.commit, detachNode, bind_eq_ok] at h
    obtain ⟨_, -, h⟩ := h
    cases h
    refine ⟨rfl, rfl, ?_, rfl⟩
    refine (Table.filter_delete_of_disjoint fun k mine => ?_).symm
    simp [of_decide_eq_true mine, other.symm]
  | deleteUser userId =>
    obtain rfl := Option.some.inj about
    simp only [AdminOp.commit, deleteUser, bind_eq_ok] at h
    obtain ⟨_, -, h⟩ := h
    cases h
    refine ⟨?_, rfl, ?_, ?_⟩
    · rw [Database.deleteUser_users, Table.find?_delete]
      cases found : (a.addAudit _).users.find? uid with
      | none => exact found
      | some u =>
        have key := Table.find?_key found
        simpa [Option.filter, key, other.symm] using found
    · refine (Table.filter_delete_of_disjoint fun k mine => ?_).symm
      simp [of_decide_eq_true mine, other.symm]
    · refine (Table.filter_delete_of_disjoint fun k mine => ?_).symm
      simp [of_decide_eq_true mine, other.symm]
  | createNode | updateNode | disableNode => cases about

end Arena.Model
