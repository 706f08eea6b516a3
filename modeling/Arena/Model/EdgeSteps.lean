import Arena.Model.Edge

/-!
# What one step of a connection does

The inversion of `Edge.step`, and what the control plane does with a request of the connection.
-/

namespace Arena.Model

open Arena.Lib

namespace Edge

variable {cfg : Settings} {c : Route} {s s' : Edge}

/-- The session's row. -/
def row (c : Route) (s : Edge) : Option ConnectionSession := s.plane.db.sessions.find? c.session

/-- **Everything a step can do**, with the guard under which it does it. -/
inductive Stepped (cfg : Settings) (c : Route) (s : Edge) : Move → Edge → Prop
  | other (e : Event) (p : Plane) (foreign : ¬ e.addresses c.session)
      (step : (Model.plane cfg).step s.plane e = some p) :
      Stepped cfg c s (.other e) { s with plane := p }
  | established (here : s.main = .connecting) : Stepped cfg c s .established
      { s with
        main := .waiting
        relay := fun _ => .running
        beat := .idle
        due := s.plane.now + heartbeatInterval }
  | unavailable (reason) (here : s.main = .connecting) : Stepped cfg c s (.unavailable reason)
      { s with main := .closing reason 0 0 false }
  | write (d n) (here : s.relay d = .running) : Stepped cfg c s (.write d n)
      { s.setRelay d (.adding n) with written := Function.update s.written d (s.written d + n) }
  | add (d n) (here : s.relay d = .adding n) : Stepped cfg c s (.add d)
      ((s.setRelay d .running).addBack d n)
  | relayStop (d) (here : s.relay d = .running) : Stepped cfg c s (.relayStop d)
      (s.setRelay d .stopped)
  | tick (here : s.beat = .idle) (due : s.due ≤ s.plane.now) : Stepped cfg c s .tick
      { s.swap .up with beat := .swapped (s.counter .up), due := s.due + heartbeatInterval }
  | swapDown (up) (here : s.beat = .swapped up) : Stepped cfg c s .swapDown
      { s.swap .down with beat := .posting up (s.counter .down) none }
  | beatHandled (up down) (here : s.beat = .posting up down none) : Stepped cfg c s .beatHandled
      { s.serve cfg c (.heartbeat (c.heartbeat up down)) with
        beat := .posting up down (some (heartbeat s.plane.now (c.heartbeat up down) s.plane.db).2) }
  | terminated (up down reply) (here : s.beat = .posting up down (some (.ok reply)))
      (ends : reply.terminate = true) : Stepped cfg c s .beatReplied
      { s with failures := 0, cancelled := true, beat := .stopped }
  | continued (up down reply) (here : s.beat = .posting up down (some (.ok reply)))
      (goes : reply.terminate = false) : Stepped cfg c s .beatReplied
      { s with failures := 0, beat := .idle }
  | refused (up down err) (here : s.beat = .posting up down (some (.error err))) :
      Stepped cfg c s .beatReplied { s with beat := .addingUp up down }
  | beatFailed (late up down reply) (here : s.beat = .posting up down reply) :
      Stepped cfg c s (.beatFailed late)
        { s.abandon (late && reply.isNone) (.heartbeat up down) with beat := .addingUp up down }
  | addUp (up down) (here : s.beat = .addingUp up down) : Stepped cfg c s .addUp
      { s.addBack .up up with beat := .addingDown down }
  | addDown (down) (here : s.beat = .addingDown down) : Stepped cfg c s .addDown
      (s.addBack .down down).fail
  | beatDone (here : s.beat = .idle) (done : s.cancelled = true) : Stepped cfg c s .beatDone
      { s with beat := .stopped }
  | cancel (reason d) (here : s.main = .waiting) (stopped : s.relay d = .stopped) :
      Stepped cfg c s (.cancel reason) { s with main := .cancelled reason, cancelled := true }
  | closeUp (reason) (here : s.main = .cancelled reason) : Stepped cfg c s .closeUp
      { s.swap .up with main := .swapped reason (s.counter .up) }
  | closeDown (reason up) (here : s.main = .swapped reason up) : Stepped cfg c s .closeDown
      { s.swap .down with main := .closing reason up (s.counter .down) false }
  | closeHandled (reason up down) (here : s.main = .closing reason up down false) :
      Stepped cfg c s .closeHandled
        { s.serve cfg c (.close (c.close up down reason)) with main := .closing reason up down true }
  | closeDone (late reason up down handled) (here : s.main = .closing reason up down handled) :
      Stepped cfg c s (.closeDone late)
        { s.abandon (late && !handled) (.close up down reason) with main := .returned }
  | lateHandled (i r) (here : s.abandoned[i]? = some r) : Stepped cfg c s (.lateHandled i)
      { s.serve cfg c (c.event r) with abandoned := s.abandoned.eraseIdx i }

theorem relayStep_inv {m : Move} (h : s.relayStep m = some s') : Stepped cfg c s m s' := by
  cases m with
  | write d n =>
    simp only [relayStep] at h
    split at h
    · cases h; exact .write d n ‹_›
    · cases h
  | add d =>
    simp only [relayStep] at h
    split at h
    · cases h; exact .add d _ ‹_›
    · cases h
  | relayStop d =>
    simp only [relayStep] at h
    split at h
    · cases h; exact .relayStop d ‹_›
    · cases h
  | _ => cases h

theorem beatStep_inv {m : Move} (h : s.beatStep cfg c m = some s') : Stepped cfg c s m s' := by
  cases m with
  | tick =>
    simp only [beatStep] at h
    split at h
    · split at h
      · cases h; exact .tick ‹_› ‹_›
      · cases h
    · cases h
  | swapDown =>
    simp only [beatStep] at h
    split at h
    · cases h; exact .swapDown _ ‹_›
    · cases h
  | beatHandled =>
    simp only [beatStep] at h
    split at h
    · cases h; exact .beatHandled _ _ ‹_›
    · cases h
  | beatReplied =>
    simp only [beatStep] at h
    split at h
    · rename_i reply here
      by_cases ends : reply.terminate = true
      · rw [if_pos ends] at h
        cases h; exact .terminated _ _ _ here ends
      · rw [if_neg ends] at h
        cases h; exact .continued _ _ _ here (Bool.eq_false_iff.2 ends)
    · cases h; exact .refused _ _ _ ‹_›
    · cases h
  | beatFailed late =>
    simp only [beatStep] at h
    split at h
    · cases h; exact .beatFailed late _ _ _ ‹_›
    · cases h
  | addUp =>
    simp only [beatStep] at h
    split at h
    · cases h; exact .addUp _ _ ‹_›
    · cases h
  | addDown =>
    simp only [beatStep] at h
    split at h
    · cases h; exact .addDown _ ‹_›
    · cases h
  | beatDone =>
    simp only [beatStep] at h
    split at h
    · split at h
      · cases h; exact .beatDone ‹_› ‹_›
      · cases h
    · cases h
  | _ => cases h

theorem mainStep_inv {m : Move} (h : s.mainStep cfg c m = some s') : Stepped cfg c s m s' := by
  cases m with
  | established =>
    simp only [mainStep] at h
    split at h
    · cases h; exact .established ‹_›
    · cases h
  | unavailable reason =>
    simp only [mainStep] at h
    split at h
    · cases h; exact .unavailable reason ‹_›
    · cases h
  | cancel reason =>
    simp only [mainStep] at h
    split at h
    · cases h; exact .cancel reason .up ‹_› ‹_›
    · cases h; exact .cancel reason .down ‹_› ‹_›
    · cases h
  | closeUp =>
    simp only [mainStep] at h
    split at h
    · cases h; exact .closeUp _ ‹_›
    · cases h
  | closeDown =>
    simp only [mainStep] at h
    split at h
    · cases h; exact .closeDown _ _ ‹_›
    · cases h
  | closeHandled =>
    simp only [mainStep] at h
    split at h
    · cases h; exact .closeHandled _ _ _ ‹_›
    · cases h
  | closeDone late =>
    simp only [mainStep] at h
    split at h
    · cases h; exact .closeDone late _ _ _ _ ‹_›
    · cases h
  | _ => cases h

theorem outerStep_inv {m : Move} (h : s.outerStep cfg c m = some s') : Stepped cfg c s m s' := by
  cases m with
  | other e =>
    simp only [outerStep] at h
    split at h
    · cases h
    · obtain ⟨p, step, rfl⟩ := Option.map_eq_some_iff.1 h
      exact .other e p ‹_› step
  | lateHandled i =>
    simp only [outerStep] at h
    split at h
    · cases h; exact .lateHandled i _ ‹_›
    · cases h
  | _ => cases h

theorem step_inv {m : Move} (h : (edge cfg c).step s m = some s') : Stepped cfg c s m s' := by
  cases m with
  | write | add | relayStop => exact relayStep_inv h
  | tick | swapDown | beatHandled | beatReplied | beatFailed | addUp | addDown | beatDone =>
    exact beatStep_inv h
  | established | unavailable | cancel | closeUp | closeDown | closeHandled | closeDone =>
    exact mainStep_inv h
  | other | lateHandled => exact outerStep_inv h

/-! ## A request handled -/

/-- A heartbeat of the connection that is handled: refused when the session is not open, and
recorded on the session and on its user otherwise. -/
theorem serve_heartbeat (cfg : Settings) (c : Route) (s : Edge) (up down : ℕ) :
    (s.plane.db.openSession c.session = none ∧
        (s.serve cfg c (.heartbeat (c.heartbeat up down))).row c = s.row c ∧
        (∀ d, (s.serve cfg c (.heartbeat (c.heartbeat up down))).credited d = s.credited d) ∧
        ∃ err, (heartbeat s.plane.now (c.heartbeat up down) s.plane.db).2 = .error err) ∨
      ∃ r verdict reply, s.row c = some r ∧ r.isOpen ∧
        (s.serve cfg c (.heartbeat (c.heartbeat up down))).row c =
          some (r.heard up down s.plane.now verdict) ∧
        (∀ d, (s.serve cfg c (.heartbeat (c.heartbeat up down))).credited d =
          s.credited d + if r.userId = c.user then d.pick up down else 0) ∧
        (heartbeat s.plane.now (c.heartbeat up down) s.plane.db).2 = .ok reply := by
  rcases heartbeat_cases
      (Prod.mk.eta (p := heartbeat s.plane.now (c.heartbeat up down) s.plane.db)).symm with
    ⟨missing, same, refused⟩ | ⟨r, user, verdict, sid, -, charges, answered⟩
  · refine .inl ⟨missing, ?_, fun d => ?_, _, refused⟩
    · simp only [row, serve, Event.commit, same]
    · simp only [serve, Event.commit, same, Nat.sub_self, Nat.add_zero]
  · have sid : r.id = c.session := sid
    have found : s.row c = some r := by rw [row, ← sid]; exact charges.found
    refine .inr ⟨r, verdict, _, found, charges.wasOpen, ?_, fun d => ?_, answered⟩
    · simp only [row, serve, Event.commit, charges.sessions, Table.find?_update]
      rw [← sid, charges.found]
      simp [Route.heartbeat]
    · simp only [serve, Event.commit, charges.balance, Nat.add_sub_cancel_left]
      rfl

/-- A close of the connection that is handled: ignored when the session is not open, and
recorded on the session and on its user otherwise. -/
theorem serve_close (cfg : Settings) (c : Route) (s : Edge) (up down : ℕ) (reason : String) :
    (s.plane.db.openSession c.session = none ∧
        (s.serve cfg c (.close (c.close up down reason))).row c = s.row c ∧
        ∀ d, (s.serve cfg c (.close (c.close up down reason))).credited d = s.credited d) ∨
      ∃ r, s.row c = some r ∧ r.isOpen ∧
        (s.serve cfg c (.close (c.close up down reason))).row c =
          some (r.closed up down s.plane.now reason) ∧
        ∀ d, (s.serve cfg c (.close (c.close up down reason))).credited d =
          s.credited d + if r.userId = c.user then d.pick up down else 0 := by
  rcases close_cases s.plane.now (c.close up down reason) s.plane.db with
    ⟨missing, same⟩ | ⟨r, user, sid, charges⟩
  · refine .inl ⟨missing, ?_, fun d => ?_⟩
    · simp only [row, serve, Event.commit, same]
    · simp only [serve, Event.commit, same, Nat.sub_self, Nat.add_zero]
  · have sid : r.id = c.session := sid
    have found : s.row c = some r := by rw [row, ← sid]; exact charges.found
    refine .inr ⟨r, found, charges.wasOpen, ?_, fun d => ?_⟩
    · simp only [row, serve, Event.commit, charges.sessions, Table.find?_update]
      rw [← sid, charges.found]
      simp [Route.close]
    · simp only [serve, Event.commit, charges.balance, Nat.add_sub_cancel_left]
      rfl

/-- A request that is given up may be handled later on. -/
theorem mem_abandon {s : Edge} {late : Bool} {r a : Abandoned} (mem : r ∈ (s.abandon late a).abandoned) :
    r ∈ s.abandoned ∨ (late = true ∧ r = a) := by
  rw [Edge.abandon_abandoned] at mem
  split at mem
  · rename_i given
    rcases List.mem_append.1 mem with mem | mem
    · exact .inl mem
    · exact .inr ⟨given, List.mem_singleton.1 mem⟩
  · exact .inl mem

/-- **Where a connection begins**: an admitted `authorize` leaves it fresh. -/
theorem fresh_of_authorize {plane plane' : Plane} {newId : Id} {p : GatewayAuthorize}
    {reply : AuthorizeReply}
    (step : (Model.plane cfg).step plane (.authorize newId p) = some plane')
    (admitted : (authorize cfg plane.now newId p plane.db).2 = .ok reply) :
    Fresh ⟨newId, p.userId⟩ { plane := plane' } := by
  obtain ⟨-, rfl⟩ := plane_step.1 step
  refine ⟨⟨_, rfl⟩, by simp [Event.draws], newSession newId plane.now p, ?_⟩
  rcases authorize_cases (Prod.mk.eta (p := authorize cfg plane.now newId p plane.db)).symm with
    ⟨-, err, -, refused, -⟩ | ⟨-, refused⟩ | ⟨user, node, -, committed, -⟩
  · rw [refused] at admitted; cases admitted
  · rw [refused] at admitted; cases admitted
  · have inserted := (admission_eq_some committed).2.1
    refine ⟨?_, rfl, rfl, by simp [newSession, Event.elapsed], rfl, rfl⟩
    simp only [Event.commit]
    rw [Table.find?_insert inserted, if_pos (by simp [newSession])]

theorem openSession_isSome_iff :
    (s.plane.db.openSession c.session).isSome ↔ ∃ r, s.row c = some r ∧ r.isOpen := by
  simp [Option.isSome_iff_exists, openSession_eq_some_iff, row]

end Edge

/-! ## A connection to evaluate -/

/-- The session of `firstConnection`. -/
def firstRoute : Route := ⟨"session", "user"⟩

/-- `firstConnection` up to its `authorize`. -/
def firstEdge : Edge :=
  { plane := ((plane {}).run (.initial 0) (firstConnection.take 3)).getD (.initial 0) }

theorem firstEdge_fresh : firstEdge.Fresh firstRoute := by
  have row : (firstEdge.row firstRoute).map (fun r =>
      (r.userId, r.isOpen, r.lastSeenAt, r.uplinkBytes, r.downlinkBytes)) =
        some ("user", true, firstEdge.plane.now, 0, 0) := by decide +kernel
  obtain ⟨r, found, fields⟩ := Option.map_eq_some_iff.1 row
  simp only [Prod.mk.injEq] at fields
  exact ⟨⟨_, rfl⟩, by decide +kernel, r, found, fields⟩

end Arena.Model
