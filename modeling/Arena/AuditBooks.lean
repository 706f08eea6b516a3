import Arena.LifeCycle

/-!
# The audit trail and the sessions

`authorize` and `close` write an audit row beside the session row they write, in the same
transaction. `Noted` says for each event which rows of both tables it writes.
`audit_books`: in every state, the trail has one connection of each session, and its
disconnection exactly when the row says `closed`, with the row's reason and its final traffic.
The sweep and the deletion of a user record neither.
-/

namespace Arena.AuditBooks

open Arena.Lib Arena.Model Arena.LifeCycle

variable {cfg : Settings} {s s' : Plane} {e : Event} {i : Id}

/-- The audit row that the session's `authorize` records. -/
def connects (i : Id) (a : AuditEvent) : Bool :=
  a.action = "gateway.connected" && match a.detail.lookup "session_id" with
    | some (.str j) => j = i
    | _ => false

/-- What `authorize` records of the session it inserts. -/
def connectedEvent (x : ConnectionSession) : AuditEvent where
  action := "gateway.connected"
  entityType := "user"
  entityId := x.userId
  detail := [("session_id", .str x.id), ("node_id", .str x.nodeId), ("ip", .str x.sourceIp)]

/-- The rows of the trail that are about this session's beginning, and about its end. -/
def connections (i : Id) (s : Plane) : List AuditEvent := s.db.auditEvents.filter (connects i)

def disconnections (i : Id) (s : Plane) : List AuditEvent := s.db.auditEvents.filter (disconnects i)

/-- A row that was there, as an event other than its close leaves it. -/
inductive Carried (now : Instant) : ConnectionSession → ConnectionSession → Prop
  | kept (x : ConnectionSession) : Carried now x x
  | finished (x : ConnectionSession) (wasOpen : x.isOpen) : Carried now x (x.finish now)
  | heard (x : ConnectionSession) (up down verdict) (wasOpen : x.isOpen) :
      Carried now x (x.heard up down now verdict)

/-- **What an event notes**: no session's beginning or end, or one of them, with the rows that it
leaves. -/
inductive Noted (s s' : Plane) : Event → Prop
  | silent (e : Event) (begins : ∀ i, connections i s' = connections i s)
      (ends : ∀ i, disconnections i s' = disconnections i s)
      (rows : ∀ x ∈ s'.db.sessions.rows, ∃ x₀ ∈ s.db.sessions.rows, Carried s.now x₀ x) : Noted s s' e
  | connected (newId p)
      (trail : s'.db.auditEvents = s.db.auditEvents ++ [connectedEvent (newSession newId s.now p)])
      (rows : ∀ x ∈ s'.db.sessions.rows, x = newSession newId s.now p ∨
        ∃ x₀ ∈ s.db.sessions.rows, Carried s.now x₀ x) : Noted s s' (.authorize newId p)
  | disconnected (p) (x : ConnectionSession) (mem : x ∈ s.db.sessions.rows) (wasOpen : x.isOpen)
      (trail : s'.db.auditEvents = s.db.auditEvents ++
        [disconnectedEvent (x.closed p.uplinkDelta p.downlinkDelta s.now p.reason) p.reason])
      (rows : ∀ y ∈ s'.db.sessions.rows,
        y = x.closed p.uplinkDelta p.downlinkDelta s.now p.reason ∨
          y ∈ s.db.sessions.rows ∧ y.id ≠ x.id) : Noted s s' (.close p)

theorem swept_rows {db : Database} {x : ConnectionSession} {now : Instant}
    (mem : x ∈ (finishStaleSessions cfg now db).sessions.rows) :
    ∃ x₀ ∈ db.sessions.rows, Carried now x₀ x := by
  rw [finishStaleSessions_sessions, Table.mem_update] at mem
  obtain ⟨x₀, mem, rfl⟩ := mem
  refine ⟨x₀, mem, ?_⟩
  split
  · rename_i stale
    simp only [ConnectionSession.isStale, Bool.and_eq_true] at stale
    exact .finished x₀ stale.1
  · exact .kept x₀

/-- A row of the trail that is about no session's beginning or end. -/
theorem Noted.of_other (added : List AuditEvent)
    (trail : s'.db.auditEvents = s.db.auditEvents ++ added)
    (other : ∀ a ∈ added, a.action ≠ "gateway.connected" ∧ a.action ≠ "gateway.disconnected")
    (rows : ∀ x ∈ s'.db.sessions.rows, ∃ x₀ ∈ s.db.sessions.rows, Carried s.now x₀ x) :
    Noted s s' e := by
  refine .silent e (fun i => ?_) (fun i => ?_) rows
  · have nothing : added.filter (connects i) = [] :=
      List.filter_eq_nil_iff.2 fun a mem => by simp [connects, (other a mem).1]
    rw [connections, trail, List.filter_append, nothing, List.append_nil, connections]
  · have nothing : added.filter (disconnects i) = [] :=
      List.filter_eq_nil_iff.2 fun a mem => by simp [disconnects, (other a mem).2]
    rw [disconnections, trail, List.filter_append, nothing, List.append_nil, disconnections]

theorem authorize_noted {newId : Id} {p : GatewayAuthorize}
    (step : (plane cfg).step s (.authorize newId p) = some s') : Noted s s' (.authorize newId p) := by
  obtain ⟨-, rfl⟩ := plane_step.1 step
  have denied : ∀ {db : Database} {event : AuditEvent}, event.action = "gateway.denied" →
      db = (finishStaleSessions cfg s.now s.db).addAudit event →
      Noted s ⟨db, s.now + Event.elapsed (.authorize newId p),
        Event.draws (.authorize newId p) ++ s.issued⟩ (.authorize newId p) := by
    rintro db event action rfl
    exact Noted.of_other [event] rfl (by simp [action]) fun x mem => swept_rows mem
  simp only [Event.commit, authorize]
  split
  · exact denied rfl rfl
  · exact denied rfl rfl
  · exact denied rfl rfl
  · split
    · exact Noted.of_other [] (by simp) (by simp) fun x mem => ⟨x, mem, .kept x⟩
    · rename_i db' committed
      obtain ⟨mid, inserted, rfl⟩ := Option.map_eq_some_iff.1 committed
      obtain ⟨sessions, -, -, -, trail⟩ := Database.insertSession?_eq_some inserted
      refine .connected newId p ?_ fun x mem => ?_
      · rw [Database.addAudit_auditEvents, trail]
        rfl
      · rcases (Table.mem_insert sessions).1 mem with mem | rfl
        · exact .inr (swept_rows mem)
        · exact .inl rfl

theorem heartbeat_noted {p : GatewayHeartbeat} (step : (plane cfg).step s (.heartbeat p) = some s') :
    Noted s s' (.heartbeat p) := by
  obtain ⟨-, rfl⟩ := plane_step.1 step
  refine Noted.of_other [] ?_ (by simp) ?_
  · rw [List.append_nil]
    exact heartbeat_audit s.now p s.db
  intro x mem
  rcases heartbeat_cases (Prod.mk.eta (p := heartbeat s.now p s.db)).symm with
    ⟨-, same, -⟩ | ⟨session, user, verdict, sid, -, charges, -⟩
  · exact ⟨x, by simpa [Event.commit, same] using mem, .kept x⟩
  · simp only [Event.commit, charges.sessions, Table.mem_update] at mem
    obtain ⟨x₀, mem, rfl⟩ := mem
    refine ⟨x₀, mem, ?_⟩
    split
    · rename_i hit
      obtain rfl : x₀ = session :=
        Table.eq_of_key_eq mem (Table.find?_mem charges.found) (of_decide_eq_true hit)
      exact .heard x₀ _ _ verdict charges.wasOpen
    · exact .kept x₀

theorem close_noted {p : GatewayClose} (step : (plane cfg).step s (.close p) = some s') :
    Noted s s' (.close p) := by
  obtain ⟨-, rfl⟩ := plane_step.1 step
  rcases close_audit s.now p s.db with same | ⟨session, opened, trail⟩
  · exact Noted.of_other [] (by simp [Event.commit, same]) (by simp)
      fun x mem => ⟨x, by simpa [Event.commit, same] using mem, .kept x⟩
  · obtain ⟨found, wasOpen⟩ := openSession_eq_some_iff.1 opened
    refine .disconnected p session (Table.find?_mem found) wasOpen trail fun y mem => ?_
    rcases close_cases s.now p s.db with ⟨missing, -⟩ | ⟨session', user, sid, charges⟩
    · simp [missing] at opened
    · obtain rfl : session' = session := Option.some.inj ((charges.opened sid).symm.trans opened)
      simp only [Event.commit, charges.sessions, Table.mem_update] at mem
      obtain ⟨y, mem, rfl⟩ := mem
      split
      · rename_i hit
        obtain rfl : y = session' :=
          Table.eq_of_key_eq mem (Table.find?_mem charges.found) (of_decide_eq_true hit)
        exact .inl rfl
      · rename_i other
        exact .inr ⟨mem, by simpa using other⟩

/-- Start-up and administrators record neither, and change no session that they leave. -/
theorem other_noted (step : (plane cfg).step s e = some s')
    (other : ∀ a, Recorded s.now s.db e a →
      a.action ≠ "gateway.connected" ∧ a.action ≠ "gateway.disconnected")
    (rows : ∀ x ∈ s'.db.sessions.rows, x ∈ s.db.sessions.rows) : Noted s s' e := by
  obtain ⟨-, rfl⟩ := plane_step.1 step
  obtain ⟨added, trail, recorded⟩ := commit_audit cfg s.now s.db e
  exact Noted.of_other _ trail (fun a mem => other a (recorded a mem)) fun x mem => ⟨x, rows x mem, .kept x⟩

/-- **The inversion lemma** for sessions and their rows in the trail. -/
theorem noted (step : (plane cfg).step s e = some s') : Noted s s' e := by
  cases e with
  | authorize newId p => exact authorize_noted step
  | heartbeat p => exact heartbeat_noted step
  | close p => exact close_noted step
  | tick n =>
    refine other_noted step (fun a recorded => by cases recorded) fun x mem => ?_
    obtain ⟨-, rfl⟩ := plane_step.1 step
    exact mem
  | start vlessId vmessId =>
    refine other_noted step (fun a recorded => by cases recorded) fun x mem => ?_
    obtain ⟨-, rfl⟩ := plane_step.1 step
    cases commit_changed cfg s.now s.db (.start vlessId vmessId) with
    | same _ same => simpa [same] using mem
    | seeded _ _ seeded => simpa [(seedDatabase_frame seeded).2.2] using mem
  | admin name op =>
    refine other_noted step (fun a recorded => ?_) fun x mem => ?_
    · cases recorded with
      | administered _ _ _ actor action => cases op <;> simp [action, AdminOp.action]
    · obtain ⟨-, rfl⟩ := plane_step.1 step
      cases commit_changed cfg s.now s.db (.admin name op) with
      | same _ same => simpa [same] using mem
      | administered _ _ _ committed =>
        rcases committed.sessions_cases with sessions | ⟨userId, -, sessions⟩
        · simpa [sessions] using mem
        · simp only [sessions] at mem
          exact (Table.mem_delete.1 mem).1

/-! ## The books -/

/-- What the trail has of a session's end. -/
def endOf (x : ConnectionSession) : List AuditEvent :=
  if x.status = .closed then [disconnectedEvent x x.closeReason] else []

structure Books (s : Plane) : Prop where
  life : LifeCycle.Inv s
  begun : ∀ x ∈ s.db.sessions.rows, connections x.id s = [connectedEvent x]
  ended : ∀ x ∈ s.db.sessions.rows, disconnections x.id s = endOf x
  unknown : ∀ i, i ∉ s.issued → connections i s = []
  once : ∀ i, (connections i s).length ≤ 1 ∧ (disconnections i s).length ≤ (connections i s).length

theorem endOf_open {x : ConnectionSession} (coherent : Coherent x) (wasOpen : x.isOpen) :
    endOf x = [] := by
  have running : x.endedAt = none := by simpa [ConnectionSession.isOpen] using wasOpen
  refine if_neg fun closed => ?_
  have ended := coherent.2 (.inl closed)
  simp [running] at ended

/-- A row that is carried along keeps what the trail has of it. -/
theorem Carried.same {now : Instant} {x₀ x : ConnectionSession} (h : Carried now x₀ x)
    (coherent : Coherent x₀) :
    x.id = x₀.id ∧ connectedEvent x = connectedEvent x₀ ∧ endOf x = endOf x₀ := by
  cases h with
  | kept => exact ⟨rfl, rfl, rfl⟩
  | finished wasOpen =>
    rw [endOf_open coherent wasOpen]
    exact ⟨rfl, rfl, if_neg (by simp [ConnectionSession.finish])⟩
  | heard up down verdict wasOpen =>
    have after : Coherent (x₀.heard up down now verdict) :=
      SessionStep.coherent (.heard x₀ up down verdict wasOpen) coherent
    rw [endOf_open coherent wasOpen, endOf_open after (by simpa using wasOpen)]
    exact ⟨by simp, by simp [connectedEvent], rfl⟩

/-- **The step lemma.** -/
theorem books_step (books : Books s) (step : (plane cfg).step s e = some s') : Books s' := by
  have life := LifeCycle.inv_step books.life step
  have grows : ∀ i ∈ s.issued, i ∈ s'.issued := by
    obtain ⟨-, rfl⟩ := plane_step.1 step
    exact fun i mem => List.mem_append_right _ mem
  cases noted step with
  | silent _ begins ends rows =>
    refine ⟨life, fun x mem => ?_, fun x mem => ?_, fun i new => ?_, fun i => ?_⟩
    · obtain ⟨x₀, mem₀, carried⟩ := rows x mem
      obtain ⟨id, event, -⟩ := carried.same (books.life x₀ mem₀).1
      rw [begins, id, books.begun x₀ mem₀, event]
    · obtain ⟨x₀, mem₀, carried⟩ := rows x mem
      obtain ⟨id, -, endOf⟩ := carried.same (books.life x₀ mem₀).1
      rw [ends, id, books.ended x₀ mem₀, endOf]
    · rw [begins]
      exact books.unknown i fun mem => new (grows i mem)
    · rw [begins, ends]
      exact books.once i
  | connected newId p trail rows =>
    have new : newId ∉ s.issued := (plane_step.1 step).1 newId (by simp [Event.draws])
    have drawn : newId ∈ s'.issued := by
      obtain ⟨-, rfl⟩ := plane_step.1 step
      simp [Event.draws]
    have begins : ∀ i, connections i s' = connections i s ++
        if newId = i then [connectedEvent (newSession newId s.now p)] else [] := by
      intro i
      rw [connections, trail, List.filter_append, ← connections]
      by_cases mine : newId = i <;> simp [connects, connectedEvent, newSession, mine]
    have ends : ∀ i, disconnections i s' = disconnections i s := by
      intro i
      rw [disconnections, trail, List.filter_append, ← disconnections]
      simp [disconnects, connectedEvent]
    -- the trail knows nothing of the new session
    have none_before : connections newId s = [] ∧ disconnections newId s = [] := by
      have nothing := books.unknown newId new
      refine ⟨nothing, List.length_eq_zero_iff.1 ?_⟩
      have bound := (books.once newId).2
      simpa [nothing] using bound
    have other : ∀ x₀ ∈ s.db.sessions.rows, newId ≠ x₀.id :=
      fun x₀ mem same => new (same ▸ (books.life x₀ mem).2)
    refine ⟨life, fun x mem => ?_, fun x mem => ?_, fun i fresh => ?_, fun i => ?_⟩
    · rcases rows x mem with rfl | ⟨x₀, mem₀, carried⟩
      · simp [begins, newSession, none_before.1]
      · obtain ⟨id, event, -⟩ := carried.same (books.life x₀ mem₀).1
        rw [begins, id, if_neg (other x₀ mem₀), List.append_nil, books.begun x₀ mem₀, event]
    · rcases rows x mem with rfl | ⟨x₀, mem₀, carried⟩
      · simp [ends, newSession, none_before.2, endOf]
      · obtain ⟨id, -, endOf⟩ := carried.same (books.life x₀ mem₀).1
        rw [ends, id, books.ended x₀ mem₀, endOf]
    · have ne : newId ≠ i := fun same => fresh (same ▸ drawn)
      rw [begins, if_neg ne, List.append_nil]
      exact books.unknown i fun mem => fresh (grows i mem)
    · rw [begins, ends]
      by_cases mine : newId = i
      · subst mine
        simp [none_before]
      · simpa [mine] using books.once i
  | disconnected p x mem wasOpen trail rows =>
    have begins : ∀ i, connections i s' = connections i s := by
      intro i
      rw [connections, trail, List.filter_append, ← connections]
      simp [connects, disconnectedEvent]
    have ends : ∀ i, disconnections i s' = disconnections i s ++ if x.id = i then
        [disconnectedEvent (x.closed p.uplinkDelta p.downlinkDelta s.now p.reason) p.reason] else [] := by
      intro i
      rw [disconnections, trail, List.filter_append, ← disconnections]
      by_cases mine : x.id = i <;> simp [disconnects, disconnectedEvent, mine]
    have running : disconnections x.id s = [] := by
      rw [books.ended x mem, endOf_open (books.life x mem).1 wasOpen]
    refine ⟨life, fun y there => ?_, fun y there => ?_, fun i fresh => ?_, fun i => ?_⟩
    · rcases rows y there with rfl | ⟨mem₀, -⟩
      · rw [begins, ConnectionSession.closed_id, books.begun x mem]
        rfl
      · rw [begins, books.begun y mem₀]
    · rcases rows y there with rfl | ⟨mem₀, ne⟩
      · rw [ends, ConnectionSession.closed_id, running]
        simp [endOf, ConnectionSession.closed, ConnectionSession.closeAt]
      · rw [ends, if_neg (Ne.symm ne), List.append_nil, books.ended y mem₀]
    · rw [begins]
      exact books.unknown i fun mem => fresh (grows i mem)
    · rw [begins, ends]
      by_cases mine : x.id = i
      · subst mine
        simp [running, books.begun x mem]
      · simpa [mine] using books.once i

theorem books_run {start : Instant} {es : List Event}
    (run : (plane cfg).run (.initial start) es = some s) : Books s := by
  have init : Books (.initial start) :=
    ⟨by simp [LifeCycle.Inv, Plane.initial], by simp [Plane.initial], by simp [Plane.initial],
      by simp [connections, Plane.initial], by simp [connections, disconnections, Plane.initial]⟩
  exact Machine.run_invariant books_step init ⟨es, run⟩

/-- **The audit trail agrees with the sessions.** In every state a fresh installation reaches, the
trail has the beginning of each session once, with its user, node and address; it has its end
exactly when the row says `closed`, once, with the row's reason and its final traffic; and it has
no second beginning or end of any session, nor an end without a beginning, also of sessions that
went with their user. -/
theorem audit_books (cfg : Settings) (start : Instant) (es : List Event) (s : Plane)
    (run : (plane cfg).run (.initial start) es = some s) :
    (∀ x ∈ s.db.sessions.rows,
      s.db.auditEvents.filter (connects x.id) = [connectedEvent x] ∧
      s.db.auditEvents.filter (disconnects x.id) =
        if x.status = .closed then [disconnectedEvent x x.closeReason] else []) ∧
    ∀ i, (s.db.auditEvents.filter (connects i)).length ≤ 1 ∧
      (s.db.auditEvents.filter (disconnects i)).length ≤
        (s.db.auditEvents.filter (connects i)).length := by
  have books := books_run run
  exact ⟨fun x mem => ⟨books.begun x mem, books.ended x mem⟩, books.once⟩

/-- The trail of the first connection, closed. -/
theorem audit_books_closed :
    ∃ s x, (plane {}).run (.initial 0) closedConnection = some s ∧ x ∈ s.db.sessions.rows ∧
      s.db.auditEvents.filter (disconnects x.id) = [disconnectedEvent x "client_closed"] := by
  obtain ⟨s, run, facts⟩ := (Option.any_eq_true _ _).1
    (by decide +kernel : ((plane {}).run (.initial 0) closedConnection).any fun s =>
      (s.db.sessions.find? "session").any fun x => x.status = .closed && x.closeReason = "client_closed")
  obtain ⟨x, found, fields⟩ := (Option.any_eq_true _ _).1 facts
  simp only [Bool.and_eq_true, decide_eq_true_eq] at fields
  have mem := Table.find?_mem found
  have books := (audit_books {} 0 closedConnection s run).1 x mem
  exact ⟨s, x, run, mem, by rw [books.2, if_pos fields.1, fields.2]⟩

end Arena.AuditBooks
