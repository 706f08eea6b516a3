import Arena.Model.Frames

/-!
# A user row under an event

Everything that an event can do to the row of one user: `authorize` starts its validity,
`heartbeat` and `close` add traffic, and administrators create, update and delete it, reset
its usage and rotate its subscription.
-/

namespace Arena.Model

open Arena.Lib

variable {cfg : Settings} {now : Instant} {db db' : Database} {uid : Id} {e : Event} {s s' : Plane}

/-- A user's row before and after an event, by what the event did to it. -/
inductive UserStep (now : Instant) (db : Database) : Event → User → User → Prop
  | kept (e : Event) (u : User) : UserStep now db e u u
  | started (newId p u) (mine : p.userId = u.id) (allowed : (userAllowed u now).1) :
      UserStep now db (.authorize newId p) u (u.start now)
  | heard (p u session) (opened : db.openSession p.sessionId = some session)
      (mine : session.userId = u.id) :
      UserStep now db (.heartbeat p) u (u.addTraffic p.uplinkDelta p.downlinkDelta)
  | closed (p u session) (opened : db.openSession p.sessionId = some session)
      (mine : session.userId = u.id) :
      UserStep now db (.close p) u (u.addTraffic p.uplinkDelta p.downlinkDelta)
  | updated (name p u row) (patched : patchUser p u = .ok row) :
      UserStep now db (.admin name (.updateUser u.id p)) u (User.assign row u)
  | reset (name u) : UserStep now db (.admin name (.resetUsage u.id)) u u.resetUsage
  | rotated (name u) : UserStep now db (.admin name (.rotateSubscription u.id)) u u.rotate

/-- A user identifier's row, if it has one, before and after an event. -/
inductive UserChange (now : Instant) (db : Database) (uid : Id) :
    Event → Option User → Option User → Prop
  | absent (e : Event) : UserChange now db uid e none none
  | moved (e : Event) (u u' : User) (step : UserStep now db e u u') :
      UserChange now db uid e (some u) (some u')
  | created (name material p) :
      UserChange now db uid (.admin name (.createUser uid material p)) none (some (newUser uid p))
  | deleted (name u) : UserChange now db uid (.admin name (.deleteUser uid)) (some u) none

theorem change_of_users (users : db'.users = db.users) :
    UserChange now db uid e (db.users.find? uid) (db'.users.find? uid) := by
  rw [users]
  cases db.users.find? uid with
  | none => exact .absent e
  | some u => exact .moved e u u (.kept e u)

/-- An assignment to the rows of one identifier. -/
theorem change_of_update {i : Id} {f : User → User} {keeps : ∀ u, (f u).id = u.id}
    (users : db'.users = db.users.update (·.id = i) f keeps)
    (step : ∀ u, db.users.find? uid = some u → u.id = i → UserStep now db e u (f u)) :
    UserChange now db uid e (db.users.find? uid) (db'.users.find? uid) := by
  rw [users, Table.find?_update]
  cases found : db.users.find? uid with
  | none => exact .absent e
  | some u =>
    by_cases mine : u.id = i
    · simpa [mine] using UserChange.moved e u (f u) (step u found mine)
    · simpa [mine] using UserChange.moved e u u (.kept e u)

/-- An administrative commit and the row of a user. -/
theorem Committed.change {name : String} {op : AdminOp} (committed : Committed db db' op) :
    UserChange now db uid (.admin name op) (db.users.find? uid) (db'.users.find? uid) := by
  cases committed with
  | createUser newId material p users =>
    obtain ⟨fresh, -⟩ := Table.insert?_eq_some_iff.1 users
    rw [Table.find?_insert users]
    split
    · rename_i mine
      subst mine
      rw [fresh]
      exact .created name material p
    · cases db.users.find? uid with
      | none => exact .absent _
      | some u => exact .moved _ u u (.kept _ u)
  | updateUser userId p user row found patched users =>
    refine change_of_update users fun u here mine => ?_
    have same : user = u := by
      rw [← mine, Table.find?_key here, here] at found
      exact (Option.some.inj found).symm
    subst same mine
    exact .updated name p user row patched
  | resetUsage userId users =>
    exact change_of_update users fun u _ mine => mine ▸ .reset name u
  | rotateSubscription userId users =>
    exact change_of_update users fun u _ mine => mine ▸ .rotated name u
  | attachNode userId nodeId material users => exact change_of_users users
  | detachNode userId nodeId users => exact change_of_users users
  | deleteUser userId users =>
    rw [users, Table.find?_delete]
    cases found : db.users.find? uid with
    | none => exact .absent _
    | some u =>
      have key := Table.find?_key found
      by_cases mine : uid = userId
      · subst mine
        have gone : (some u).filter (fun r => !decide (r.id = uid)) = none := by
          simp [Option.filter, key]
        rw [gone]
        exact .deleted name u
      · have stays : (some u).filter (fun r => !decide (r.id = userId)) = some u := by
          simp [Option.filter, key, mine]
        rw [stays]
        exact .moved _ u u (.kept _ u)
  | createNode newId p users => exact change_of_users users
  | updateNode nodeId p node row _ _ users => exact change_of_users users
  | disableNode nodeId users => exact change_of_users users

/-- **The inversion lemma** for the row of a user. -/
theorem user_change (cfg : Settings) (now : Instant) (db : Database) (uid : Id) (e : Event) :
    UserChange now db uid e (db.users.find? uid) ((e.commit cfg now db).users.find? uid) := by
  generalize made : e.commit cfg now db = db'
  cases made ▸ commit_changed cfg now db e with
  | same _ same => exact change_of_users (by rw [same])
  | seeded vlessId vmessId seeded => exact change_of_users (seedDatabase_frame seeded).1
  | refused newId p users => exact change_of_users users
  | admitted newId p user node verdict committed =>
    refine change_of_update (admission_eq_some committed).1 fun u found mine => ?_
    obtain ⟨owner, -, -, -, allowed, -⟩ := decideRoute_admitted_iff.1 verdict
    -- the row that the checks accepted is this one
    have same : user = u := by
      rw [finishStaleSessions_users, ← mine, Table.find?_key found, found] at owner
      exact (Option.some.inj owner).symm
    exact .started newId p u mine.symm (same ▸ allowed)
  | heard p session user verdict sid charges =>
    exact change_of_update charges.users fun u _ mine =>
      .heard p u session (charges.opened sid) mine.symm
  | closed p session user sid charges =>
    exact change_of_update charges.users fun u _ mine =>
      .closed p u session (charges.opened sid) mine.symm
  | administered name op _ committed => exact committed.change

/-! ## Drawn identifiers -/

/-- The identifiers of the users were drawn. -/
def UsersDrawn (s : Plane) : Prop := ∀ i, (s.db.users.find? i).isSome → i ∈ s.issued

theorem usersDrawn_step (before : UsersDrawn s) (step : (plane cfg).step s e = some s') :
    UsersDrawn s' := by
  obtain ⟨-, rfl⟩ := plane_step.1 step
  intro i there
  have change := user_change cfg s.now s.db i e
  have known := before i
  obtain ⟨u, found⟩ := Option.isSome_iff_exists.1 there
  generalize s.db.users.find? i = was at change known
  simp only at found
  rw [found] at change
  cases change with
  | moved _ u₀ _ _ => exact List.mem_append_right _ (known rfl)
  | created name material p => simp [Event.draws, AdminOp.draws]

theorem usersDrawn_run {start : Instant} {es : List Event}
    (run : (plane cfg).run (.initial start) es = some s) : UsersDrawn s := by
  have init : UsersDrawn (.initial start) := by simp [UsersDrawn, Plane.initial, Table.find?]
  exact Machine.run_invariant usersDrawn_step init ⟨es, run⟩

end Arena.Model
