import Arena.Model.AuditTrail
import Arena.Model.SessionRow

/-!
# The life of a session

A session is inserted by `authorize`, updated by its heartbeats and ended once, by its close or
by the sweep of another `authorize`. `session_life_cycle`: a row has `ended_at` exactly when
its status says `closed` or `stale`, and an ended row is final. Heartbeats and closes that
arrive afterwards, repeated or late, change nothing at all.
-/

namespace Arena.LifeCycle

open Arena.Lib Arena.Model

variable {cfg : Settings} {now : Instant} {db : Database} {s s' : Plane} {e : Event}
  {x x' : ConnectionSession}

/-- The row is ended exactly when its status says so. -/
def Coherent (x : ConnectionSession) : Prop :=
  x.endedAt.isSome ↔ x.status = .closed ∨ x.status = .stale

theorem SessionStep.coherent (step : SessionStep now x x') (before : Coherent x) : Coherent x' := by
  cases step with
  | kept => exact before
  | finished => simp [Coherent, ConnectionSession.finish]
  | heard up down verdict wasOpen =>
    have running : x.endedAt = none := by simpa [ConnectionSession.isOpen] using wasOpen
    unfold ConnectionSession.heard
    split
    · exact before
    · simp [Coherent, ConnectionSession.block, ConnectionSession.addTraffic, running]
  | closed up down why => simp [Coherent, ConnectionSession.closed, ConnectionSession.closeAt]

/-- Each row is coherent and its identifier was drawn. -/
def Inv (s : Plane) : Prop := ∀ x ∈ s.db.sessions.rows, Coherent x ∧ x.id ∈ s.issued

/-- **The step lemma.** -/
theorem inv_step (before : Inv s) (step : (plane cfg).step s e = some s') : Inv s' := by
  obtain ⟨-, rfl⟩ := plane_step.1 step
  intro x hx
  rcases commit_session hx with ⟨x₀, mem, row⟩ | ⟨newId, p, rfl, rfl⟩
  · obtain ⟨coherent, drawn⟩ := before x₀ mem
    exact ⟨SessionStep.coherent row coherent, by simp [row.id_eq, drawn]⟩
  · exact ⟨by simp [Coherent, newSession], by simp [newSession, Event.draws]⟩

theorem inv_run {start : Instant} {es : List Event}
    (run : (plane cfg).run (.initial start) es = some s) : Inv s := by
  have init : Inv (.initial start) := by simp [Inv, Plane.initial]
  exact Machine.run_invariant inv_step init ⟨es, run⟩

/-! ## After the end -/

/-- The request deletes the session's user. -/
def Deletes (x : ConnectionSession) : Event → Prop
  | .admin _ (.deleteUser userId) => userId = x.userId
  | _ => False

/-- The audit row that the session's close records. -/
def disconnects (i : Id) (a : AuditEvent) : Bool :=
  a.action = "gateway.disconnected" && match a.detail.lookup "session_id" with
    | some (.str j) => j = i
    | _ => false

theorem openSession_of_ended (found : db.sessions.find? x.id = some x) (ended : x.isOpen = false) :
    db.openSession x.id = none := by
  simp [Database.openSession, found, Option.filter, ended]

/-- The row is final, and its close is recorded as often as before. -/
def Final (x : ConnectionSession) (n : ℕ) (s : Plane) : Prop :=
  x.id ∈ s.issued ∧ s.db.sessions.find? x.id = some x ∧
    s.db.auditEvents.countP (disconnects x.id) = n

/-- Another event records no close of an ended session. -/
theorem disconnects_step (ended : db.openSession x.id = none) :
    (e.commit cfg now db).auditEvents.countP (disconnects x.id) =
      db.auditEvents.countP (disconnects x.id) := by
  obtain ⟨added, trail, recorded⟩ := commit_audit cfg now db e
  have nothing : added.countP (disconnects x.id) = 0 := by
    rw [List.countP_eq_zero]
    intro a ha
    cases recorded a ha with
    | denied newId p detail => simp [disconnects, deniedEvent]
    | connected newId p _ action => simp [disconnects, action]
    | disconnected p session opened =>
      obtain ⟨found, -⟩ := openSession_eq_some_iff.1 opened
      have sid := Table.find?_key found
      -- the close was of another session, as this one is not open
      have ne : session.id ≠ x.id := by
        intro same
        rw [← sid, same, ended] at opened
        cases opened
      simp [disconnects, disconnectedEvent, ne]
    | administered name op _ actor action => cases op <;> simp [disconnects, action, AdminOp.action]
  rw [trail, List.countP_append, nothing, Nat.add_zero]

/-- **The step lemma** for an ended session. -/
theorem final_step {n : ℕ} (ended : x.isOpen = false) (before : Final x n s) (keeps : ¬ Deletes x e)
    (step : (plane cfg).step s e = some s') : Final x n s' := by
  obtain ⟨drawn, found, counted⟩ := before
  have notOpen := openSession_of_ended found ended
  obtain ⟨-, rfl⟩ := id (plane_step.1 step)
  refine ⟨by simp [drawn], ?_, (disconnects_step notOpen).trans counted⟩
  by_cases addressed : e.addresses x.id
  · -- a request for the session itself finds it ended
    cases e with
    | heartbeat p =>
      have sid : p.sessionId = x.id := by simpa [Event.addresses] using addressed
      have same : (heartbeat s.now p s.db).1 = s.db :=
        congrArg Prod.fst (heartbeat_ended (sid ▸ notOpen))
      exact (congrArg (fun db : Database => db.sessions.find? x.id) same).trans found
    | close p =>
      have sid : p.sessionId = x.id := by simpa [Event.addresses] using addressed
      have same : close s.now p s.db = s.db := close_ended (sid ▸ notOpen)
      exact (congrArg (fun db : Database => db.sessions.find? x.id) same).trans found
    | _ => simp [Event.addresses] at addressed
  · cases row_step step drawn addressed with
    | kept _ same => exact same.trans found
    | swept newId p row was stale =>
      obtain rfl : row = x := Option.some.inj (was.symm.trans found)
      simp [ConnectionSession.isStale, ended] at stale
    | deleted name row was =>
      obtain rfl : row = x := Option.some.inj (was.symm.trans found)
      exact absurd rfl keeps

/-- **The life of a session.** In every state a fresh installation reaches, a session has
`ended_at` exactly when its status is `closed` or `stale`. And from the state on in which it
has, whatever the run: the row stays as it is unless its user is deleted, no event records
another disconnection of it, its heartbeats are answered with 404 and its closes with success,
and neither changes the database. -/
theorem session_life_cycle (cfg : Settings) (start : Instant) (es : List Event) (s : Plane)
    (run : (plane cfg).run (.initial start) es = some s) :
    ∀ x ∈ s.db.sessions.rows,
      (x.endedAt.isSome ↔ x.status = .closed ∨ x.status = .stale) ∧
      (x.endedAt.isSome → ∀ (later : List Event) (s' : Plane),
        (plane cfg).run s later = some s' → (∀ e ∈ later, ¬ Deletes x e) →
        x ∈ s'.db.sessions.rows ∧
        s'.db.auditEvents.countP (disconnects x.id) = s.db.auditEvents.countP (disconnects x.id) ∧
        (∀ p : GatewayHeartbeat, p.sessionId = x.id →
          heartbeat s'.now p s'.db = (s'.db, .error ⟨404, "session_not_found"⟩)) ∧
        ∀ p : GatewayClose, p.sessionId = x.id → close s'.now p s'.db = s'.db) := by
  intro x hx
  obtain ⟨coherent, drawn⟩ := inv_run run x hx
  refine ⟨coherent, fun ended later s' rest keeps => ?_⟩
  have notOpen : x.isOpen = false := by
    obtain ⟨at_, ended⟩ := Option.isSome_iff_exists.1 ended
    simp [ConnectionSession.isOpen, ended]
  have along : (plane cfg).Along (fun _ e => ¬ Deletes x e) s later := Machine.along_of_mem keeps s
  obtain ⟨-, found, counted⟩ := Machine.along_invariant
    (I := Final x (s.db.auditEvents.countP (disconnects x.id)))
    (fun before keeps step => final_step notOpen before keeps step)
    ⟨drawn, Table.find?_of_mem hx, rfl⟩ along rest
  have gone := openSession_of_ended found notOpen
  exact ⟨Table.find?_mem found, counted, fun p sid => heartbeat_ended (sid ▸ gone),
    fun p sid => close_ended (sid ▸ gone)⟩

/-- The first connection, closed. -/
def closedConnection : List Event :=
  firstConnection ++ [.close { sessionId := "session", uplinkDelta := 30 }]

/-- Requests for it afterwards. -/
def lateRequests : List Event :=
  [.heartbeat { sessionId := "session", uplinkDelta := 5 }, .tick 60000000,
    .authorize "second" { userId := "user", nodeId := "node", sourceIp := "203.0.113.10" },
    .close { sessionId := "session", downlinkDelta := 7 }]

/-- Its row, after requests of every kind: closed, with one disconnection recorded. -/
theorem session_life_cycle_first_connection :
    ∃ s s' x, (plane {}).run (.initial 0) closedConnection = some s ∧
      (plane {}).run s lateRequests = some s' ∧ x.status = .closed ∧ x.uplinkBytes = 150 ∧
      x ∈ s'.db.sessions.rows ∧ s'.db.auditEvents.countP (disconnects x.id) = 1 := by
  obtain ⟨s, run, facts⟩ := (Option.any_eq_true _ _).1
    (by decide +kernel : ((plane {}).run (.initial 0) closedConnection).any fun s =>
      ((plane {}).run s lateRequests).isSome &&
      (s.db.sessions.find? "session").any fun x => x.endedAt.isSome && x.status = .closed &&
        x.uplinkBytes = 150 && s.db.auditEvents.countP (disconnects x.id) = 1)
  simp only [Bool.and_eq_true, Option.any_eq_true, decide_eq_true_eq,
    Option.isSome_iff_exists] at facts
  obtain ⟨⟨s', rest⟩, x, found, ⟨⟨⟨ended, status⟩, bytes⟩, once⟩⟩ := facts
  obtain ⟨mem, counted, -⟩ := (session_life_cycle {} 0 closedConnection s run x
    (Table.find?_mem found)).2 (Option.isSome_iff_exists.2 ended) lateRequests s' rest
    (by simp [lateRequests, Deletes])
  exact ⟨s, s', x, run, rest, status, bytes, mem, counted.trans once⟩

end Arena.LifeCycle
