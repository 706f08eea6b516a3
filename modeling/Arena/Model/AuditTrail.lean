import Arena.Model.Frames

/-!
# What an event adds to the audit trail

Audit rows are only ever added. `authorize` adds one for a denial or an admission, `close` one
when it found the session open, an administrative request one when it commits; a heartbeat,
a start and the passing of time add none.
-/

namespace Arena.Model

open Arena.Lib

variable {cfg : Settings} {now : Instant} {db db' : Database} {e : Event} {a : AuditEvent}

/-- The action that an administrative request records. -/
def AdminOp.action : AdminOp → String
  | .createUser .. => "user.created"
  | .updateUser .. => "user.updated"
  | .resetUsage _ => "user.usage_reset"
  | .rotateSubscription _ => "user.subscription_rotated"
  | .attachNode .. => "user.node_attached"
  | .detachNode .. => "user.node_detached"
  | .deleteUser _ => "user.deleted"
  | .createNode .. => "node.created"
  | .updateNode .. => "node.updated"
  | .disableNode _ => "node.disabled"

/-- The audit rows that an event may add. -/
inductive Recorded (now : Instant) (db : Database) : Event → AuditEvent → Prop
  | denied (newId p detail) : Recorded now db (.authorize newId p) (deniedEvent p.userId detail)
  | connected (newId p a) (action : a.action = "gateway.connected") :
      Recorded now db (.authorize newId p) a
  | disconnected (p session) (opened : db.openSession p.sessionId = some session) :
      Recorded now db (.close p) (disconnectedEvent
        (session.addTraffic p.uplinkDelta p.downlinkDelta now) p.reason)
  | administered (name op a) (actor : a.actor = name) (action : a.action = op.action) :
      Recorded now db (.admin name op) a

theorem createKeys_audit {material : Id → KeyMaterial} {user : User} {nodes : List Node}
    (h : createKeys material user nodes db = .ok db') : db'.auditEvents = db.auditEvents := by
  induction nodes generalizing db with
  | nil => cases h; rfl
  | cons node nodes ih =>
    obtain ⟨key, -, h⟩ := bind_eq_ok.1 h
    split at h
    · cases h
    · rename_i mid inserted
      exact (ih h).trans (Database.insertKey?_eq_some inserted).2.2.2.2

/-- An administrative request that commits adds one row. -/
theorem admin_audit {name : String} {op : AdminOp} (h : op.commit name db = .ok db') :
    ∃ a, db'.auditEvents = db.auditEvents ++ [a] ∧ a.actor = name ∧ a.action = op.action := by
  cases op with
  | createUser newId material p =>
    obtain ⟨mid, last, event, inserted, keys, actor, action, rfl⟩ := createUser_inv h
    have same := (createKeys_audit keys).trans (Database.insertUser?_eq_some inserted).2.2.2.2
    exact ⟨event, by rw [Database.addAudit_auditEvents, same], actor, action⟩
  | updateUser userId p =>
    simp only [AdminOp.commit, updateUser, bind_eq_ok] at h
    obtain ⟨user, -, row, -, h⟩ := h
    cases h
    exact ⟨_, rfl, rfl, rfl⟩
  | resetUsage userId =>
    simp only [AdminOp.commit, resetUsage, bind_eq_ok] at h
    obtain ⟨_, -, h⟩ := h
    cases h
    exact ⟨_, rfl, rfl, rfl⟩
  | rotateSubscription userId =>
    simp only [AdminOp.commit, rotateSubscription, bind_eq_ok] at h
    obtain ⟨_, -, h⟩ := h
    cases h
    exact ⟨_, rfl, rfl, rfl⟩
  | attachNode userId nodeId material =>
    obtain ⟨user, node, mid, event, -, -, ⟨-, rfl⟩ | ⟨-, keys⟩, actor, action, rfl⟩ := attachNode_inv h
    · exact ⟨event, rfl, actor, action⟩
    · exact ⟨event, by rw [Database.addAudit_auditEvents, createKeys_audit keys], actor, action⟩
  | detachNode userId nodeId =>
    simp only [AdminOp.commit, detachNode, bind_eq_ok] at h
    obtain ⟨_, -, h⟩ := h
    cases h
    exact ⟨_, rfl, rfl, rfl⟩
  | deleteUser userId =>
    simp only [AdminOp.commit, deleteUser, bind_eq_ok] at h
    obtain ⟨_, -, h⟩ := h
    cases h
    exact ⟨_, rfl, rfl, rfl⟩
  | createNode newId p =>
    obtain ⟨-, -, mid, event, inserted, actor, action, rfl⟩ := createNode_inv h
    have same := (Database.insertNode?_eq_some inserted).2.2.2.2
    exact ⟨event, by rw [Database.addAudit_auditEvents, same], actor, action⟩
  | updateNode nodeId p =>
    simp only [AdminOp.commit, updateNode, bind_eq_ok] at h
    obtain ⟨node, -, row, -, h⟩ := h
    cases h
    exact ⟨_, rfl, rfl, rfl⟩
  | disableNode nodeId =>
    simp only [AdminOp.commit, disableNode, bind_eq_ok] at h
    obtain ⟨_, -, h⟩ := h
    cases h
    exact ⟨_, rfl, rfl, rfl⟩

theorem seedNode_audit {newId : Id} {name slug : String} {protocol : Protocol}
    (h : seedNode cfg newId name slug protocol db = .ok db') :
    db'.auditEvents = db.auditEvents := by
  unfold seedNode at h
  split at h
  · split at h
    · cases h
    · rename_i mid inserted
      cases h
      exact (Database.insertNode?_eq_some inserted).2.2.2.2
  · obtain ⟨row, -, h⟩ := bind_eq_ok.1 h
    cases h
    rfl

theorem admission_audit {newId : Id} {p : GatewayAuthorize}
    (h : admission newId now p db = some db') :
    ∃ a, db'.auditEvents = db.auditEvents ++ [a] ∧ a.action = "gateway.connected" := by
  obtain ⟨mid, inserted, rfl⟩ := Option.map_eq_some_iff.1 h
  have same := (Database.insertSession?_eq_some inserted).2.2.2.2
  exact ⟨_, by rw [Database.addAudit_auditEvents, same]; rfl, rfl⟩

theorem heartbeat_audit (now : Instant) (p : GatewayHeartbeat) (db : Database) :
    (heartbeat now p db).1.auditEvents = db.auditEvents := by
  unfold heartbeat
  split
  · rfl
  · split
    · rfl
    · simp only
      split <;> rfl

/-- A close that found its session open adds one row. -/
theorem close_audit (now : Instant) (p : GatewayClose) (db : Database) :
    close now p db = db ∨ ∃ session, db.openSession p.sessionId = some session ∧
      (close now p db).auditEvents = db.auditEvents ++ [disconnectedEvent
        (session.addTraffic p.uplinkDelta p.downlinkDelta now) p.reason] := by
  unfold close
  cases found : db.sessions.find? p.sessionId with
  | none => exact .inl rfl
  | some session =>
    by_cases isOpen : session.isOpen
    · obtain ⟨user, owner⟩ := session_user found
      refine .inr ⟨session, openSession_eq_some_iff.2 ⟨found, isOpen⟩, ?_⟩
      simp only [isOpen, owner, Bool.not_true, Bool.false_eq_true, if_false]
      rfl
    · exact .inl (by simp [isOpen])

/-- **The inversion lemma** for the audit trail. -/
theorem commit_audit (cfg : Settings) (now : Instant) (db : Database) (e : Event) :
    ∃ added, (e.commit cfg now db).auditEvents = db.auditEvents ++ added ∧
      ∀ a ∈ added, Recorded now db e a := by
  have none_added : ∀ {db' : Database}, db'.auditEvents = db.auditEvents →
      ∃ added, db'.auditEvents = db.auditEvents ++ added ∧ ∀ a ∈ added, Recorded now db e a :=
    fun same => ⟨[], by simpa using same, by simp⟩
  cases e with
  | tick => exact none_added rfl
  | start vlessId vmessId =>
    refine none_added ?_
    cases h : seedDatabase cfg vlessId vmessId db with
    | error => simp [Event.commit, h, Except.toOption]
    | ok db' =>
      obtain ⟨mid, first, second⟩ := bind_eq_ok.1 h
      simpa [Event.commit, h, Except.toOption] using
        (seedNode_audit second).trans (seedNode_audit first)
  | authorize newId p =>
    have swept : (finishStaleSessions cfg now db).auditEvents = db.auditEvents := rfl
    simp only [Event.commit, authorize]
    split
    · exact ⟨_, by rw [Database.addAudit_auditEvents, swept], by simpa using .denied newId p _⟩
    · exact ⟨_, by rw [Database.addAudit_auditEvents, swept], by simpa using .denied newId p _⟩
    · exact ⟨_, by rw [Database.addAudit_auditEvents, swept], by simpa using .denied newId p _⟩
    · split
      · exact none_added rfl
      · rename_i db' committed
        obtain ⟨a, added, action⟩ := admission_audit committed
        exact ⟨[a], by rw [added, swept], by simpa using .connected newId p a action⟩
  | heartbeat p => exact none_added (heartbeat_audit now p db)
  | close p =>
    rcases close_audit now p db with same | ⟨session, opened, added⟩
    · exact none_added (congrArg _ same)
    · exact ⟨_, added, by simpa using .disconnected p session opened⟩
  | admin name op =>
    cases h : op.commit name db with
    | error => exact none_added (by simp [Event.commit, h, Except.toOption])
    | ok db' =>
      obtain ⟨a, added, actor, action⟩ := admin_audit h
      exact ⟨[a], by simpa [Event.commit, h, Except.toOption] using added,
        by simpa using .administered name op a actor action⟩

end Arena.Model
