import Arena.Model.Patches
import Arena.Model.SessionRow
import Arena.Model.UserRow

/-!
# What a connection does to an expiry

`authorize` decides from `starts_at` alone whether a connection is the first one, and the
first one writes `expires_at` from the validity. `user_expiry` gives an explicit `expires_at`
precedence over the validity, and an administrator can set one at any time: the first
connection then writes over an expiry that is in force.
-/

namespace Arena.Expiry

open Arena.Lib Arena.Model

variable {cfg : Settings} {now : Instant} {newId : Id} {p : GatewayAuthorize} {db db' : Database}
  {u u' : User} {s s' : Plane} {e : Event}

/-- What the checks of `authorize` ask of a request of this user. -/
structure Admissible (cfg : Settings) (now : Instant) (newId : Id) (p : GatewayAuthorize)
    (db : Database) (u : User) : Prop where
  mine : p.userId = u.id
  node : ∃ node, db.nodes.find? p.nodeId = some node ∧ node.enabled
  key : (db.enabledKey p.userId p.nodeId).isSome
  allowed : (userAllowed u now).1
  room : p.sourceIp ∈ (finishStaleSessions cfg now db).openIps u.id ∨
    ((finishStaleSessions cfg now db).openIps u.id).card < u.maxIps
  fresh : db.sessions.find? newId = none

/-- The user has never connected, has a validity, and has an expiry that is not the one which
the validity gives now. -/
def Overwrites (now : Instant) (u : User) : Prop :=
  u.startsAt = none ∧ u.validityDays ≠ 0 ∧
    ∃ e, u.expiresAt = some e ∧ e ≠ now + days u.validityDays

/-- The user's row after the request: an expiry that was in force still is, and where there
was none, one appears only by an admitted request of a user that had not started. -/
def Keeps (cfg : Settings) (now : Instant) (newId : Id) (p : GatewayAuthorize) (db : Database)
    (u : User) : Prop :=
  ∃ u', (authorize cfg now newId p db).1.users.find? u.id = some u' ∧
    (∀ e, userExpiry u = some e → userExpiry u' = some e) ∧
    (userExpiry u = none → userExpiry u' ≠ none →
      (∃ reply, (authorize cfg now newId p db).2 = .ok reply) ∧ p.userId = u.id ∧ u.startsAt = none)

/-! ## One request -/

/-- The checks, for a user of the table. -/
theorem admissible_iff (mem : u ∈ db.users.rows) :
    Admissible cfg now newId p db u ↔ p.userId = u.id ∧ db.sessions.find? newId = none ∧
      ∃ user node, decideRoute now p (finishStaleSessions cfg now db) = .admitted user node := by
  have found := Table.find?_of_mem mem
  constructor
  · rintro ⟨mine, ⟨node, here, enabled⟩, key, allowed, room, fresh⟩
    refine ⟨mine, fresh, u, node, decideRoute_admitted_iff.2 ?_⟩
    rw [← mine] at found room
    exact ⟨found, here, key, enabled, allowed, room⟩
  · rintro ⟨mine, fresh, user, node, verdict⟩
    obtain ⟨owner, here, key, enabled, allowed, room⟩ := decideRoute_admitted_iff.1 verdict
    have same : user = u := by
      rw [finishStaleSessions_users, mine, found] at owner
      exact (Option.some.inj owner).symm
    subst same
    rw [mine] at room
    exact ⟨mine, ⟨node, here, enabled⟩, key, allowed, room, fresh⟩

/-- **What a request does to a row**: it starts the user whose request it admits, and changes
no other. -/
theorem authorize_row (cfg : Settings) (now : Instant) (newId : Id) (p : GatewayAuthorize)
    (mem : u ∈ db.users.rows) :
    (Admissible cfg now newId p db u ∧
      (authorize cfg now newId p db).1.users.find? u.id = some (u.start now) ∧
      ∃ reply, (authorize cfg now newId p db).2 = .ok reply) ∨
    (¬ Admissible cfg now newId p db u ∧
      (authorize cfg now newId p db).1.users.find? u.id = some u) := by
  have found := Table.find?_of_mem mem
  rcases authorize_cases (Prod.mk.eta (p := authorize cfg now newId p db)).symm with
    ⟨event, err, committed, -, refused⟩ | ⟨committed, failed⟩ | ⟨user, node, verdict, written, ok⟩
  · refine .inr ⟨fun admitted => ?_, by rw [committed]; exact found⟩
    obtain ⟨-, -, user, node, verdict⟩ := (admissible_iff mem).1 admitted
    exact refused user node verdict
  · refine .inr ⟨fun admitted => ?_, by rw [committed]; exact found⟩
    obtain ⟨-, fresh, verdict⟩ := (admissible_iff mem).1 admitted
    obtain ⟨reply, ok⟩ := (authorize_ok_iff fresh).2 verdict
    rw [failed] at ok
    cases ok
  · obtain ⟨users, sessions, -⟩ := admission_eq_some written
    have fresh : db.sessions.find? newId = none := by
      have free := (Table.insert?_eq_some_iff.1 sessions).1
      simpa [newSession, finishStaleSessions_find?] using free
    rw [users, finishStaleSessions_users, Table.find?_update, found]
    by_cases mine : p.userId = u.id
    · exact .inl ⟨(admissible_iff mem).2 ⟨mine, fresh, user, node, verdict⟩, by simp [mine], _, ok⟩
    · exact .inr ⟨fun admitted => mine admitted.mine, by simp [Ne.symm mine]⟩

/-- A user that has started keeps its row. -/
theorem start_of_started (started : u.startsAt.isSome) : u.start now = u := by
  unfold User.start
  split
  · rfl
  · rename_i unstarted
    simp [unstarted] at started

theorem start_isSome : (u.start now).startsAt.isSome := by
  unfold User.start
  split
  · rename_i started
    simp [started]
  · rfl

/-- The expiry of a user that starts. -/
theorem start_expiry (unstarted : u.startsAt = none) :
    userExpiry (u.start now) =
      if u.validityDays = 0 then u.expiresAt else some (now + days u.validityDays) := by
  unfold User.start
  rw [unstarted]
  by_cases valid : u.validityDays = 0
  · cases stored : u.expiresAt <;> simp [userExpiry, valid]
  · simp [userExpiry, valid]

/-- Starting a user keeps the expiry that it has exactly when it overwrites none. -/
theorem start_keeps_iff :
    (∀ e, userExpiry u = some e → userExpiry (u.start now) = some e) ↔ ¬ Overwrites now u := by
  cases started : u.startsAt with
  | some start =>
    rw [start_of_started (by simp [started])]
    simp [Overwrites, started]
  | none =>
    rw [start_expiry started]
    by_cases valid : u.validityDays = 0
    · cases stored : u.expiresAt <;> simp [userExpiry, Overwrites, started, valid, stored]
    · cases stored : u.expiresAt <;>
        simp [userExpiry, Overwrites, started, valid, stored, eq_comm]

/-- A request keeps the expiry of a user unless it starts the user over one. -/
theorem keeps_iff (mem : u ∈ db.users.rows) :
    Keeps cfg now newId p db u ↔ ¬ (Admissible cfg now newId p db u ∧ Overwrites now u) := by
  rcases authorize_row cfg now newId p mem with
    ⟨admitted, row, ok⟩ | ⟨refused, row⟩
  · simp only [admitted, true_and, ← start_keeps_iff, Keeps, row, Option.some.injEq,
      exists_eq_left', and_iff_left_iff_imp]
    intro _ bare appears
    refine ⟨ok, admitted.mine, ?_⟩
    by_contra started
    rw [start_of_started (Option.isSome_iff_ne_none.2 started)] at appears
    exact appears bare
  · simp only [refused, false_and, not_false_eq_true, iff_true]
    exact ⟨u, row, fun _ same => same, fun bare appears => absurd bare appears⟩

/-! ## The first admitted request -/

/-- The user of each session has started. -/
def Started (db : Database) : Prop :=
  ∀ x ∈ db.sessions.rows, ∀ u, db.users.find? x.userId = some u → u.startsAt.isSome

/-- An event leaves no started user unstarted, other than by another user of that identifier. -/
theorem started_kept {uid : Id} (was : db.users.find? uid = some u) (started : u.startsAt.isSome)
    (found : (e.commit cfg now db).users.find? uid = some u') : u'.startsAt.isSome := by
  have change := user_change cfg now db uid e
  rw [was, found] at change
  cases change with
  | moved _ _ _ step =>
    cases step with
    | kept => exact started
    | started newId p _ mine allowed => exact start_isSome
    | heard => exact started
    | closed => exact started
    | updated name p _ row patched =>
      obtain ⟨-, rfl⟩ := patchUser_eq_ok.1 patched
      exact started
    | reset => exact started
    | rotated => exact started

theorem started_step (before : Started db) : Started (e.commit cfg now db) := by
  intro x mem u' found
  -- a row that was there, perhaps with other values
  have old : (∃ x₀ ∈ db.sessions.rows, x₀.userId = x.userId) → u'.startsAt.isSome := by
    rintro ⟨x₀, mem₀, same⟩
    obtain ⟨u, was⟩ := session_user (Table.find?_of_mem mem₀)
    exact started_kept (same ▸ was) (before x₀ mem₀ u was) found
  rcases commit_session mem with ⟨x₀, mem₀, step⟩ | ⟨newId, p, rfl, rfl⟩
  · refine old ⟨x₀, mem₀, ?_⟩
    cases step <;> simp
  · by_cases there : ∃ x₀ ∈ db.sessions.rows, x₀.userId = p.userId
    · exact old there
    · have change := user_change cfg now db p.userId (.authorize newId p)
      rw [show (newSession newId now p).userId = p.userId from rfl] at found
      -- the row is new, so the request was admitted
      rcases authorize_cases (Prod.mk.eta (p := authorize cfg now newId p db)).symm with
        ⟨event, err, committed, -⟩ | ⟨committed, -⟩ | ⟨user, node, -, written, -⟩
      · have swept : newSession newId now p ∈ (finishStaleSessions cfg now db).sessions.rows := by
          simpa [Event.commit, committed] using mem
        rw [finishStaleSessions_sessions, Table.mem_update] at swept
        obtain ⟨x₀, mem₀, made⟩ := swept
        refine absurd ⟨x₀, mem₀, ?_⟩ there
        have same := congrArg ConnectionSession.userId made
        split at same <;> simpa [newSession] using same
      · exact absurd ⟨_, by simpa [Event.commit, committed] using mem, rfl⟩ there
      · obtain ⟨users, -⟩ := admission_eq_some written
        simp only [Event.commit, users, finishStaleSessions_users, Table.find?_update,
          Option.map_eq_some_iff] at found
        obtain ⟨u, here, rfl⟩ := found
        rw [if_pos (by simpa using Table.find?_key here)]
        exact start_isSome

/-- In every run, a user that has not started has no session: its next admitted request is its
first one. -/
theorem unstarted_no_session {start : Instant} {es : List Event}
    (run : (plane cfg).run (.initial start) es = some s) (mem : u ∈ s.db.users.rows)
    (unstarted : u.startsAt = none) : ∀ x ∈ s.db.sessions.rows, x.userId ≠ u.id := by
  have started : Started s.db := by
    refine Machine.run_invariant (I := fun s => Started s.db) (fun before step => ?_) ?_ ⟨es, run⟩
    · obtain ⟨-, rfl⟩ := plane_step.1 step
      exact started_step before
    · intro x none
      simp [Plane.initial, Database.empty] at none
  intro x here same
  have := started x here u (same ▸ Table.find?_of_mem mem)
  simp [unstarted] at this

/-! ## No admitted request before -/

/-- A request of this user was admitted: its row, as long as it is there, has started. -/
def Connected (uid : Id) (s : Plane) : Prop :=
  uid ∈ s.issued ∧ ∀ u, s.db.users.find? uid = some u → u.startsAt.isSome

theorem connected_step {uid : Id} (before : Connected uid s) (step : (plane cfg).step s e = some s') :
    Connected uid s' := by
  obtain ⟨new, rfl⟩ := plane_step.1 step
  refine ⟨List.mem_append_right _ before.1, fun u' found => ?_⟩
  cases was : s.db.users.find? uid with
  | some u => exact started_kept was (before.2 u was) found
  | none =>
    have change := user_change cfg s.now s.db uid e
    rw [was, found] at change
    cases change with
    -- a user that is created gets an identifier that is new
    | created name material p => exact absurd before.1 (new uid (by simp [Event.draws, AdminOp.draws]))

theorem connected_of_admitted {reply : AuthorizeReply} (drawn : UsersDrawn s)
    (step : (plane cfg).step s (.authorize newId p) = some s')
    (ok : (authorize cfg s.now newId p s.db).2 = .ok reply) : Connected p.userId s' := by
  obtain ⟨-, rfl⟩ := plane_step.1 step
  rcases authorize_cases (Prod.mk.eta (p := authorize cfg s.now newId p s.db)).symm with
    ⟨event, err, -, failed, -⟩ | ⟨-, failed⟩ | ⟨user, node, verdict, written, -⟩
  · rw [failed] at ok
    cases ok
  · rw [failed] at ok
    cases ok
  · obtain ⟨owner, -⟩ := decideRoute_admitted_iff.1 verdict
    rw [finishStaleSessions_users] at owner
    refine ⟨List.mem_append_right _ (drawn _ (by rw [owner]; rfl)), fun u found => ?_⟩
    simp only [Event.commit, (admission_eq_some written).1, finishStaleSessions_users, Table.find?_update,
      owner, Option.map_some, Option.some.injEq] at found
    rw [← found, if_pos (by simpa using Table.find?_key owner)]
    exact start_isSome

/-- A user that has not started was never admitted. -/
theorem unstarted_not_admitted {start : Instant} {before after : List Event} {s₁ : Plane} {reply : AuthorizeReply}
    (first : (plane cfg).run (.initial start) before = some s₁)
    (run : (plane cfg).run (.initial start) (before ++ .authorize newId p :: after) = some s)
    (mem : u ∈ s.db.users.rows) (unstarted : u.startsAt = none) (mine : p.userId = u.id) :
    (authorize cfg s₁.now newId p s₁.db).2 ≠ .ok reply := by
  intro ok
  rw [Machine.run_append first] at run
  obtain ⟨s₂, step, rest⟩ := Machine.run_cons.1 run
  have admitted := connected_of_admitted (usersDrawn_run first) step ok
  have connected : Connected p.userId s :=
    Machine.run_invariant (fun before step => connected_step before step) admitted ⟨_, rest⟩
  have started := connected.2 u (mine ▸ Table.find?_of_mem mem)
  simp [unstarted] at started

/-- **What connecting does to an expiry.** For every request, user and instant, the request keeps
the user's expiry, and introduces one only at a first admission, unless it is the admitted
request of a user that has not started and whose `expires_at` is not the one its validity
gives. In every run, a user that has not started has no session and was never admitted. -/
theorem connecting_keeps_expiry (cfg : Settings) :
    (∀ (now : Instant) (newId : Id) (p : GatewayAuthorize) (db : Database), ∀ u ∈ db.users.rows,
      (Keeps cfg now newId p db u ↔ ¬ (Admissible cfg now newId p db u ∧ Overwrites now u))) ∧
    ∀ (start : Instant) (es : List Event) (s : Plane),
      (plane cfg).run (.initial start) es = some s →
      ∀ u ∈ s.db.users.rows, u.startsAt = none → (∀ x ∈ s.db.sessions.rows, x.userId ≠ u.id) ∧
        ∀ before newId p after s₁ reply, es = before ++ .authorize newId p :: after →
          (plane cfg).run (.initial start) before = some s₁ → p.userId = u.id →
          (authorize cfg s₁.now newId p s₁.db).2 ≠ .ok reply := by
  refine ⟨fun _ _ _ _ _ mem => keeps_iff mem, fun start es s run u mem unstarted => ?_⟩
  refine ⟨unstarted_no_session run mem unstarted, ?_⟩
  rintro before newId p after s₁ reply rfl first mine
  exact unstarted_not_admitted first run mem unstarted mine

/-- An administrator's expiry, ten days from the start of the run. -/
def tenDays : UserUpdate := { UserUpdate.nothing with expiresAt := .set (days 10) }

/-- The installation of the tests before its first connection. -/
def installed : List Event :=
  [.admin "admin" (.createNode "node" testNode), .admin "admin" (.createUser "user" testKeys testUser)]

/-- The request of the first connection. -/
def request : GatewayAuthorize := { userId := "user", nodeId := "node", sourceIp := "203.0.113.10" }

/-- The first connection of a user whose expiry nobody set. -/
theorem connecting_keeps_expiry_once :
    ∃ s u, (plane {}).run (.initial 0) installed = some s ∧ s.db.users.find? "user" = some u ∧
      Keeps {} 0 "session" request s.db u ∧ ∀ x ∈ s.db.sessions.rows, x.userId ≠ u.id := by
  obtain ⟨s, run, facts⟩ := (Option.any_eq_true _ _).1
    (by decide +kernel : ((plane {}).run (.initial 0) installed).any fun s =>
      (s.db.users.find? "user").any fun u => decide (u.startsAt = none) && decide (u.expiresAt = none))
  simp only [Option.any_eq_true, Bool.and_eq_true, decide_eq_true_eq] at facts
  obtain ⟨u, found, unstarted, unstored⟩ := facts
  have mem := Table.find?_mem found
  obtain ⟨keeps, first⟩ := connecting_keeps_expiry {}
  refine ⟨s, u, run, found, (keeps 0 "session" request s.db u mem).2 ?_, (first 0 installed s run u mem unstarted).1⟩
  rintro ⟨-, -, -, e, stored, -⟩
  rw [unstored] at stored
  cases stored

/-- An expiry of ten days, set before the first connection, becomes the fourteen days of the
validity. -/
theorem first_connection_overwrites :
    ¬ ∀ (cfg : Settings) (start : Instant) (es : List Event) (s : Plane) (newId : Id)
      (p : GatewayAuthorize) (u : User), (plane cfg).run (.initial start) es = some s →
      u ∈ s.db.users.rows → Keeps cfg s.now newId p s.db u := by
  intro claim
  obtain ⟨s, run, facts⟩ := (Option.any_eq_true _ _).1
    (by decide +kernel : ((plane {}).run (.initial 0)
      (installed ++ [.admin "admin" (.updateUser "user" tenDays)])).any fun s =>
        (s.db.users.find? "user").any fun u => decide (userExpiry u = some (days 10)) &&
          ((authorize {} s.now "session" request s.db).1.users.find? u.id).any fun u' =>
            decide (userExpiry u' = some (days 14)))
  simp only [Option.any_eq_true, Bool.and_eq_true, decide_eq_true_eq] at facts
  obtain ⟨u, found, expiry, u', after, moved⟩ := facts
  obtain ⟨u₂, after₂, kept, -⟩ := claim {} 0 _ s "session" request u run (Table.find?_mem found)
  obtain rfl : u' = u₂ := Option.some.inj (after.symm.trans after₂)
  rw [kept _ expiry] at moved
  exact absurd (Option.some.inj moved) (by decide)

end Arena.Expiry
