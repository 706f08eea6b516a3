import Arena.Model.Traffic
import Arena.Model.UserRow

/-!
# The traffic ledger

Traffic is booked twice, on the session and on its user, by three endpoints with
different guards. `traffic_ledger`: as long as nobody resets a user's usage, the user's
counters are the sums over the user's sessions, and both are the sums of the deltas of
the requests that were accepted.
-/

namespace Arena.Ledger

open Arena.Lib Arena.Model

/-- The bytes of a user's sessions, ended or not. -/
def booked (d : Direction) (uid : Id) (db : Database) : ℕ :=
  db.sessions.sumWhere (fun s => s.userId = uid) (bytes d)

/-- The deltas that a request charges to a user: those of a heartbeat that returned 200
and of a close that found its session open. -/
def charged (d : Direction) (uid : Id) (s : Plane) : Event → ℕ
  | .heartbeat p =>
    match (heartbeat s.now p s.db).2, s.db.openSession p.sessionId with
    | .ok _, some session => if session.userId = uid then delta d p else 0
    | _, _ => 0
  | .close p =>
    match s.db.openSession p.sessionId with
    | some session => if session.userId = uid then delta d p.toGatewayHeartbeat else 0
    | none => 0
  | _ => 0

/-- The event is a `reset_usage` of this user. -/
def Resets (uid : Id) (e : Event) : Prop := ∃ name, e = .admin name (.resetUsage uid)

variable {cfg : Settings} {d : Direction} {uid : Id} {db db' : Database}

/-! ## One statement -/

theorem booked_of_sessions (sessions : db'.sessions = db.sessions) :
    booked d uid db' = booked d uid db := by rw [booked, sessions, booked]

theorem booked_sweep {now : Instant} :
    booked d uid (finishStaleSessions cfg now db) = booked d uid db := by
  rw [booked, finishStaleSessions_sessions]
  exact Table.sumWhere_update_of_eq (fun _ _ _ => rfl) (fun _ _ _ => bytes_finish)

/-- A request that found its session open books its delta on the user and on the session. -/
theorem charges_both {session : ConnectionSession} {user : User} {up down : ℕ}
    {f : ConnectionSession → ConnectionSession} (h : Charges db db' session user up down f)
    (userId : ∀ s, (f s).userId = s.userId) (grows : ∀ s, bytes d (f s) = bytes d s + d.pick up down) :
    balance d uid db' = balance d uid db + (if session.userId = uid then d.pick up down else 0) ∧
      booked d uid db' = booked d uid db + (if session.userId = uid then d.pick up down else 0) := by
  refine ⟨h.balance, ?_⟩
  unfold booked
  rw [h.sessions]
  have moved : (db.sessions.update (·.id = session.id) f h.keeps).sumWhere
      (fun s => s.userId = uid) (bytes d) = db.sessions.sumWhere (fun s => s.userId = uid) (bytes d) +
        (if decide (session.userId = uid) then d.pick up down else 0) :=
    Table.sumWhere_update_key_add h.found (by simp) (by simp [userId]) (grows session)
  simpa using moved

/-! ## One transaction -/

/-- `authorize` moves no counter. -/
theorem authorize_moves_nothing {now : Instant} {newId : Id} {p : GatewayAuthorize} :
    balance d uid (authorize cfg now newId p db).1 = balance d uid db ∧
      booked d uid (authorize cfg now newId p db).1 = booked d uid db := by
  rcases authorize_cases (Prod.mk.eta (p := authorize cfg now newId p db)).symm with
    ⟨event, -, h, -⟩ | ⟨h, -⟩ | ⟨user, node, -, h, -⟩
  · rw [h]
    exact ⟨balance_of_users rfl, booked_sweep⟩
  · rw [h]
    exact ⟨rfl, rfl⟩
  · obtain ⟨users, sessions, -, -⟩ := admission_eq_some h
    refine ⟨balance_update users fun _ _ _ => used_start, ?_⟩
    rw [booked, Table.sumWhere_insert sessions, bytes_newSession, ite_self, Nat.add_zero]
    exact booked_sweep

/-- `heartbeat` books what it charges. -/
theorem heartbeat_moves_charge {s : Plane} {p : GatewayHeartbeat} :
    balance d uid (heartbeat s.now p s.db).1 =
        balance d uid s.db + charged d uid s (.heartbeat p) ∧
      booked d uid (heartbeat s.now p s.db).1 =
        booked d uid s.db + charged d uid s (.heartbeat p) := by
  rcases heartbeat_cases (Prod.mk.eta (p := heartbeat s.now p s.db)).symm with
    ⟨missing, same, refused⟩ | ⟨session, user, verdict, sid, -, charges, reply⟩
  · simp [charged, missing, same]
  · have opened : s.db.openSession p.sessionId = some session := charges.opened sid
    simp only [charged, reply, opened]
    exact charges_both charges (fun _ => ConnectionSession.heard_userId) fun _ => bytes_heard

/-- `close` books what it charges. -/
theorem close_moves_charge {s : Plane} {p : GatewayClose} :
    balance d uid (close s.now p s.db) = balance d uid s.db + charged d uid s (.close p) ∧
      booked d uid (close s.now p s.db) = booked d uid s.db + charged d uid s (.close p) := by
  rcases close_cases s.now p s.db with ⟨missing, same⟩ | ⟨session, user, sid, charges⟩
  · simp [charged, missing, same]
  · have opened : s.db.openSession p.sessionId = some session := charges.opened sid
    simp only [charged, opened]
    exact charges_both charges (fun _ => ConnectionSession.closed_userId) fun _ => bytes_closed

/-- An administrative commit other than the user's reset, deletion or creation moves none
of its counters. -/
theorem admin_moves_nothing {name : String} {op : AdminOp} (h : op.commit name db = .ok db')
    (reset : op ≠ .resetUsage uid) (delete : op ≠ .deleteUser uid) (create : uid ∉ op.draws) :
    balance d uid db' = balance d uid db ∧ booked d uid db' = booked d uid db ∧
      (db'.users.find? uid).isSome = (db.users.find? uid).isSome := by
  have committed := commit_inv h
  have sessions : booked d uid db' = booked d uid db := by
    rcases committed.sessions_cases with sessions | ⟨userId, rfl, sessions⟩
    · exact booked_of_sessions sessions
    · have other : userId ≠ uid := fun e => delete (e ▸ rfl)
      unfold booked
      rw [sessions]
      refine Table.sumWhere_delete_of_disjoint fun s _ mine => ?_
      simp only [decide_eq_true_eq] at mine
      simp [mine, other.symm]
  have users : balance d uid db' = balance d uid db ∧
      (db'.users.find? uid).isSome = (db.users.find? uid).isSome := by
    have change : UserChange 0 db uid (.admin name op) _ _ := committed.change
    unfold balance
    generalize before : db.users.find? uid = was at change
    generalize db'.users.find? uid = is at change
    cases change with
    | absent => exact ⟨rfl, rfl⟩
    | created => simp [AdminOp.draws] at create
    | deleted => exact absurd rfl delete
    | moved _ u u' step =>
      cases step with
      | kept => exact ⟨rfl, rfl⟩
      | updated | rotated => exact ⟨by cases d <;> rfl, rfl⟩
      | reset => exact absurd (by rw [Table.find?_key before]) reset
  exact ⟨users.1, sessions, users.2⟩

/-- A request that draws `uid` leaves it without usage and books nothing. -/
theorem admin_creates {name : String} {op : AdminOp} (h : op.commit name db = .ok db')
    (create : uid ∈ op.draws) (absent : db.users.find? uid = none) :
    balance d uid db' = 0 ∧ db'.sessions = db.sessions := by
  cases commit_inv h with
  | createUser newId material p users _ sessions =>
    obtain rfl : uid = newId := by simpa [AdminOp.draws] using create
    refine ⟨?_, sessions⟩
    have mine : (newUser uid p).id = uid := rfl
    rw [balance, Table.find?_insert users, if_pos mine]
    cases d <;> rfl
  | createNode newId p users _ sessions =>
    exact ⟨by rw [balance, users, absent]; rfl, sessions⟩
  | _ => simp [AdminOp.draws] at create

/-- Deleting a user succeeds only when there is one, and removes it. -/
theorem admin_deletes {name : String} (h : (AdminOp.deleteUser uid).commit name db = .ok db') :
    ∃ user, db.users.find? uid = some user ∧ db'.users.find? uid = none := by
  obtain ⟨user, found, rest⟩ := bind_eq_ok.1 (show deleteUser name uid db = .ok db' from h)
  refine ⟨user, getUser_eq_ok.1 found, ?_⟩
  cases rest
  simp [Database.deleteUser, Table.find?_delete, Table.find?_key (getUser_eq_ok.1 found),
    getUser_eq_ok.1 found, Option.filter]

/-! ## One step -/

/-- The user exists, or its identifier has not been drawn yet: it was not deleted. -/
def NotDeleted (uid : Id) (s : Plane) : Prop := (s.db.users.find? uid).isSome ∨ uid ∉ s.issued

/-- An existing user's identifier has been drawn. -/
def Drawn (uid : Id) (s : Plane) : Prop := (s.db.users.find? uid).isSome → uid ∈ s.issued

/-- The event is an administrative request that creates or deletes this user. -/
def Owns (uid : Id) (e : Event) : Prop :=
  ∃ name op, e = .admin name op ∧ (uid ∈ op.draws ∨ op = .deleteUser uid)

/-- An event that neither resets, creates nor deletes the user books what it charges. -/
theorem commit_books {s : Plane} {e : Event} (reset : ¬ Resets uid e) (owns : ¬ Owns uid e) :
    balance d uid (e.commit cfg s.now s.db) = balance d uid s.db + charged d uid s e ∧
      booked d uid (e.commit cfg s.now s.db) = booked d uid s.db + charged d uid s e ∧
      ((e.commit cfg s.now s.db).users.find? uid).isSome = (s.db.users.find? uid).isSome := by
  cases e with
  | tick => exact ⟨rfl, rfl, rfl⟩
  | start vlessId vmessId =>
    cases h : seedDatabase cfg vlessId vmessId s.db with
    | error => simp [Event.commit, h, Except.toOption, charged]
    | ok db' =>
      obtain ⟨users, -, sessions⟩ := seedDatabase_frame h
      simp [Event.commit, h, Except.toOption, charged, users, balance_of_users users,
        booked_of_sessions sessions]
  | authorize newId p =>
    refine ⟨authorize_moves_nothing.1, authorize_moves_nothing.2, ?_⟩
    rcases authorize_cases (Prod.mk.eta (p := authorize cfg s.now newId p s.db)).symm with
      ⟨event, -, h, -⟩ | ⟨h, -⟩ | ⟨user, node, -, h, -⟩
    · rw [Event.commit, h]; rfl
    · rw [Event.commit, h]
    · rw [Event.commit, (admission_eq_some h).1]; simp
  | heartbeat p =>
    refine ⟨heartbeat_moves_charge.1, heartbeat_moves_charge.2, ?_⟩
    rcases heartbeat_cases (Prod.mk.eta (p := heartbeat s.now p s.db)).symm with
      ⟨-, same, -⟩ | ⟨session, user, verdict, -, -, charges, -⟩
    · rw [Event.commit, same]
    · rw [Event.commit, charges.users]; simp
  | close p =>
    refine ⟨close_moves_charge.1, close_moves_charge.2, ?_⟩
    rcases close_cases s.now p s.db with ⟨-, same⟩ | ⟨session, user, -, charges⟩
    · rw [Event.commit, same]
    · rw [Event.commit, charges.users]; simp
  | admin name op =>
    cases h : op.commit name s.db with
    | error => simp [Event.commit, h, Except.toOption, charged]
    | ok db' =>
      have moves := admin_moves_nothing (d := d) h (fun is => reset ⟨name, is ▸ rfl⟩)
        (fun is => owns ⟨name, op, rfl, .inr is⟩) (fun is => owns ⟨name, op, rfl, .inl is⟩)
      simpa [Event.commit, h, Except.toOption, charged] using moves

/-- A step other than the user's reset never brings a deleted user back, and books what it
charges while the user is there. -/
theorem step_books {s s' : Plane} {e : Event} (drawn : Drawn uid s) (reset : ¬ Resets uid e)
    (step : (plane cfg).step s e = some s') :
    Drawn uid s' ∧ (NotDeleted uid s' → NotDeleted uid s ∧
      balance d uid s'.db = balance d uid s.db + charged d uid s e ∧
      booked d uid s'.db = booked d uid s.db + charged d uid s e) := by
  obtain ⟨fresh, rfl⟩ := plane_step.1 step
  by_cases owns : Owns uid e
  · obtain ⟨name, op, rfl, owns⟩ := owns
    cases h : op.commit name s.db with
    | error =>
      have same : (Event.admin name op).commit cfg s.now s.db = s.db := by
        simp [Event.commit, h, Except.toOption]
      simp only [same, Drawn, NotDeleted, List.mem_append]
      exact ⟨fun here => .inr (drawn here),
        fun alive => ⟨alive.imp_right fun no mem => no (.inr mem), rfl, rfl⟩⟩
    | ok db' =>
      have commits : (Event.admin name op).commit cfg s.now s.db = db' := by
        simp [Event.commit, h, Except.toOption]
      simp only [commits, Drawn, NotDeleted, List.mem_append]
      rcases owns with create | rfl
      · -- the request creates a row under `uid`, so there was no such user before
        have new : uid ∉ s.issued := fresh uid create
        have absent : s.db.users.find? uid = none := by simpa using mt drawn new
        obtain ⟨unused, same⟩ := admin_creates (d := d) h create absent
        have before : balance d uid s.db = 0 := by rw [balance, absent]; rfl
        exact ⟨fun _ => .inl create, fun _ => ⟨.inr new, unused.trans before.symm,
          booked_of_sessions same⟩⟩
      · obtain ⟨user, was, gone⟩ := admin_deletes h
        have known : uid ∈ s.issued := drawn (by simp [was])
        simp [gone, known]
  · obtain ⟨used, sum, exist⟩ := @commit_books cfg d uid s e reset owns
    simp only [Drawn, NotDeleted, exist, List.mem_append]
    exact ⟨fun here => .inr (drawn here),
      fun alive => ⟨alive.imp_right fun no mem => no (.inr mem), used, sum⟩⟩

/-! ## Runs -/

/-- Along a run without resets of the user, what the user has used and what its sessions
hold are the charges of the run. -/
theorem run_books {start : Instant} {es : List Event} {s : Plane}
    (run : (plane cfg).run (.initial start) es = some s) (reset : ∀ e ∈ es, ¬ Resets uid e)
    (present : (s.db.users.find? uid).isSome) :
    balance d uid s.db = (plane cfg).total (charged d uid) (.initial start) es ∧
      booked d uid s.db = (plane cfg).total (charged d uid) (.initial start) es := by
  have along : (plane cfg).Along (fun _ e => ¬ Resets uid e) (.initial start) es :=
    Machine.along_of_mem reset _
  have ledger : ∀ Φ : Plane → ℕ, Φ (.initial start) = 0 →
      (∀ {s s' : Plane} {e : Event}, Drawn uid s → ¬ Resets uid e →
        (plane cfg).step s e = some s' → NotDeleted uid s' → Φ s' = Φ s + charged d uid s e) →
      Φ s = (plane cfg).total (charged d uid) (.initial start) es := by
    intro Φ zero post
    have none_drawn : Drawn uid (.initial start) := by
      simp [Drawn, Plane.initial, Database.empty, Table.find?]
    have alive : NotDeleted uid s := .inl present
    have sum := (Machine.run_total
      (fun hI ok step => (step_books (d := d) hI ok step).1)
      (fun hI ok step alive => ((step_books (d := d) hI ok step).2 alive).1)
      post none_drawn along run alive).2
    rw [sum, zero, Nat.zero_add]
  exact ⟨ledger (fun s => balance d uid s.db) rfl
      fun hI ok step alive => ((step_books hI ok step).2 alive).2.1,
    ledger (fun s => booked d uid s.db) rfl
      fun hI ok step alive => ((step_books hI ok step).2 alive).2.2⟩

/-- A request for a session that is ended or unknown changes nothing at all. -/
theorem ended_session_books_nothing (now : Instant) (db : Database) (i : Id)
    (ended : db.openSession i = none) :
    (∀ p : GatewayHeartbeat, p.sessionId = i → heartbeat now p db = (db, .error ⟨404, "session_not_found"⟩)) ∧
      ∀ p : GatewayClose, p.sessionId = i → close now p db = db := by
  constructor
  · rintro p rfl
    exact heartbeat_ended ended
  · rintro p rfl
    exact close_ended ended

/-- **The traffic ledger.** In every state a fresh installation reaches, a user whose usage
was never reset has used, in each direction, exactly the bytes of its sessions, and both
are the sums of the deltas that heartbeats answered with 200 and closes of open sessions
carried; requests for ended or unknown sessions change nothing. -/
theorem traffic_ledger (cfg : Settings) (start : Instant) (es : List Event) (s : Plane)
    (run : (plane cfg).run (.initial start) es = some s) :
    (∀ uid user, (∀ e ∈ es, ¬ Resets uid e) → s.db.users.find? uid = some user →
      user.usedUpBytes = s.db.sessions.sumWhere (fun x => x.userId = uid) ConnectionSession.uplinkBytes ∧
      user.usedDownBytes =
        s.db.sessions.sumWhere (fun x => x.userId = uid) ConnectionSession.downlinkBytes ∧
      user.usedUpBytes = (plane cfg).total (charged .up uid) (.initial start) es ∧
      user.usedDownBytes = (plane cfg).total (charged .down uid) (.initial start) es) ∧
    ∀ i, s.db.openSession i = none →
      (∀ p : GatewayHeartbeat, p.sessionId = i →
        heartbeat s.now p s.db = (s.db, .error ⟨404, "session_not_found"⟩)) ∧
      ∀ p : GatewayClose, p.sessionId = i → close s.now p s.db = s.db := by
  refine ⟨fun uid user reset found => ?_, fun i => ended_session_books_nothing s.now s.db i⟩
  have balance_up : balance .up uid s.db = user.usedUpBytes := by simp [balance, found, used, Direction.pick]
  have balance_down : balance .down uid s.db = user.usedDownBytes := by
    simp [balance, found, used, Direction.pick]
  obtain ⟨up, up'⟩ := run_books (d := .up) run reset (by simp [found])
  obtain ⟨down, down'⟩ := run_books (d := .down) run reset (by simp [found])
  rw [balance_up] at up
  rw [balance_down] at down
  exact ⟨up.trans up'.symm, down.trans down'.symm, up, down⟩

/-- The ledger of the first connection. -/
theorem traffic_ledger_first_connection :
    ∃ s user, (plane {}).run (.initial 0) firstConnection = some s ∧
      s.db.users.find? "user" = some user ∧ user.usedUpBytes = 120 ∧ user.usedDownBytes = 880 := by
  obtain ⟨s, run⟩ := Option.isSome_iff_exists.1
    (by decide +kernel : ((plane {}).run (.initial 0) firstConnection).isSome)
  have present : (((plane {}).run (.initial 0) firstConnection).bind
      fun s => s.db.users.find? "user").isSome := by decide +kernel
  rw [run] at present
  obtain ⟨user, found⟩ := Option.isSome_iff_exists.1 present
  have reset : ∀ e ∈ firstConnection, ¬ Resets "user" e := by simp [firstConnection, Resets]
  obtain ⟨-, -, up, down⟩ :=
    (traffic_ledger {} 0 firstConnection s run).1 "user" user reset found
  exact ⟨s, user, run, found, up.trans (by decide +kernel), down.trans (by decide +kernel)⟩

end Arena.Ledger
