import Arena.LifeCycle
import Arena.Model.Tenancy
import Arena.Model.UserRow

/-!
# Deletion is final

`delete_user` removes the row of a user, and the cascade removes its keys and sessions.
Identifiers are never drawn again, so the user stays unknown in every run from there on:
`deletion_is_final` says what each route answers, to gateways that still relay for the user as
well, and that no other user notices the deletion.
-/

namespace Arena.Deletion

open Arena.Lib Arena.Model

variable {cfg : Settings} {uid i : Id} {s s' : Plane} {e : Event} {db : Database}

/-! ## What stays away -/

/-- The identifier was drawn, and no user has it. -/
def UserGone (uid : Id) (s : Plane) : Prop := uid ∈ s.issued ∧ s.db.users.find? uid = none

theorem userGone_step (gone : UserGone uid s) (step : (plane cfg).step s e = some s') :
    UserGone uid s' := by
  obtain ⟨new, rfl⟩ := plane_step.1 step
  refine ⟨List.mem_append_right _ gone.1, ?_⟩
  have change := user_change cfg s.now s.db uid e
  rw [gone.2] at change
  generalize (e.commit cfg s.now s.db).users.find? uid = is at change ⊢
  cases change with
  | absent => rfl
  -- a user that is created gets an identifier that is new
  | created name material p => exact absurd gone.1 (new uid (by simp [Event.draws, AdminOp.draws]))

/-- The identifier was drawn, and no session has it. -/
def SessionGone (i : Id) (s : Plane) : Prop := i ∈ s.issued ∧ s.db.sessions.find? i = none

theorem sessionGone_step (gone : SessionGone i s) (step : (plane cfg).step s e = some s') :
    SessionGone i s' := by
  obtain ⟨new, rfl⟩ := plane_step.1 step
  refine ⟨List.mem_append_right _ gone.1, Table.find?_eq_none_iff.2 fun x mem same => ?_⟩
  rcases commit_session mem with ⟨x₀, mem₀, row⟩ | ⟨newId, p, rfl, rfl⟩
  · exact Table.find?_eq_none_iff.1 gone.2 x₀ mem₀ (row.id_eq.symm.trans same)
  · have mine : newId = i := same
    exact new newId (by simp [Event.draws]) (mine ▸ gone.1)

/-- Nothing belongs to a user that is not there: the foreign keys. -/
theorem owns_nothing (gone : db.users.find? uid = none) :
    (∀ k ∈ db.accessKeys.rows, k.userId ≠ uid) ∧ ∀ x ∈ db.sessions.rows, x.userId ≠ uid := by
  refine ⟨fun k mem mine => ?_, fun x mem mine => ?_⟩
  · have owner := db.keyUser k mem
    simp [mine, gone] at owner
  · have owner := db.sessionUser x mem
    simp [mine, gone] at owner

theorem authorize_gone {now : Instant} {newId : Id} {p : GatewayAuthorize}
    (gone : db.users.find? p.userId = none) :
    (authorize cfg now newId p db).2 = .error ⟨403, "route_not_found"⟩ := by
  have verdict : decideRoute now p (finishStaleSessions cfg now db) = .routeNotFound := by
    unfold decideRoute
    rw [finishStaleSessions_users, gone]
  simp [authorize, verdict]

theorem commit_gone {op : AdminOp} {name : String} (gone : db.users.find? uid = none)
    (about : op.subject = some uid) (creates : op.draws = []) :
    op.commit name db = .error (notFound "کاربر پیدا نشد") := by
  have missing : getUser db uid = .error (notFound "کاربر پیدا نشد") := by simp [getUser, gone]
  cases op with
  | createUser newId material p => cases creates
  | createNode | updateNode | disableNode => cases about
  | updateUser userId p =>
    obtain rfl := Option.some.inj about
    simp [AdminOp.commit, updateUser, missing, bind, Except.bind]
  | resetUsage userId =>
    obtain rfl := Option.some.inj about
    simp [AdminOp.commit, resetUsage, missing, bind, Except.bind]
  | rotateSubscription userId =>
    obtain rfl := Option.some.inj about
    simp [AdminOp.commit, rotateSubscription, missing, bind, Except.bind]
  | attachNode userId nodeId material =>
    obtain rfl := Option.some.inj about
    simp [AdminOp.commit, attachNode, missing, bind, Except.bind]
  | detachNode userId nodeId =>
    obtain rfl := Option.some.inj about
    simp [AdminOp.commit, detachNode, missing, bind, Except.bind]
  | deleteUser userId =>
    obtain rfl := Option.some.inj about
    simp [AdminOp.commit, deleteUser, missing, bind, Except.bind]

/-- **Deletion is final.** Delete a user of any state that an installation reaches. No other user
sees a difference. And in every state from there on, whatever happens: the user is unknown, no key
and no session is its own; its `authorize` requests are refused as `route_not_found`; heartbeats of
the sessions it had are answered with 404 and their closes change nothing; its subscription is not
found, for any version; and so are the requests of administrators about it. -/
theorem deletion_is_final (cfg : Settings) (start : Instant) (es : List Event) (s t s' : Plane)
    (uid : Id) (user : User) (name : String) (later : List Event)
    (run : (plane cfg).run (.initial start) es = some s) (found : s.db.users.find? uid = some user)
    (deleted : (plane cfg).step s (.admin name (.deleteUser uid)) = some t)
    (rest : (plane cfg).run t later = some s') :
    (∀ other, other ≠ uid → AgreeOn other s.db t.db) ∧
      s'.db.users.find? uid = none ∧
      (∀ k ∈ s'.db.accessKeys.rows, k.userId ≠ uid) ∧ (∀ x ∈ s'.db.sessions.rows, x.userId ≠ uid) ∧
      (∀ newId p, p.userId = uid →
        (authorize cfg s'.now newId p s'.db).2 = .error ⟨403, "route_not_found"⟩) ∧
      (∀ x ∈ s.db.sessions.rows, x.userId = uid →
        (∀ p : GatewayHeartbeat, p.sessionId = x.id →
          heartbeat s'.now p s'.db = (s'.db, .error ⟨404, "session_not_found"⟩)) ∧
        ∀ p : GatewayClose, p.sessionId = x.id → close s'.now p s'.db = s'.db) ∧
      (∀ base raw version, subscription s'.now s'.db base raw uid version =
        .error ⟨404, "سابسکریپشن معتبر نیست"⟩) ∧
      ∀ (admin : String) (op : AdminOp), op.subject = some uid → op.draws = [] →
        op.commit admin s'.db = .error (notFound "کاربر پیدا نشد") := by
  have done : AdminOp.commit name (.deleteUser uid) s.db = .ok t.db ∧ t.issued = s.issued := by
    obtain ⟨-, rfl⟩ := plane_step.1 deleted
    have here : getUser s.db uid = .ok user := getUser_eq_ok.2 found
    simp [AdminOp.commit, Event.commit, deleteUser, here, bind, Except.bind, Except.toOption,
      Event.draws, AdminOp.draws]
  obtain ⟨committed, issued⟩ := done
  have gone : UserGone uid t := by
    refine ⟨issued ▸ usersDrawn_run run uid (by simp [found]), ?_⟩
    cases commit_inv committed with
    | deleteUser _ users _ _ _ =>
      rw [users, Table.find?_delete, found]
      simp [Option.filter, Table.find?_key found]
  have goneAfter : UserGone uid s' := Machine.run_invariant userGone_step gone ⟨later, rest⟩
  obtain ⟨keys, sessions⟩ := owns_nothing goneAfter.2
  refine ⟨fun other ne => commit_agree committed rfl ne.symm, goneAfter.2, keys, sessions,
    fun newId p mine => authorize_gone (mine ▸ goneAfter.2), fun x mem mine => ?_,
    fun base raw version => by simp [subscription, goneAfter.2],
    fun admin op about creates => commit_gone goneAfter.2 about creates⟩
  have cascade : SessionGone x.id t := by
    refine ⟨issued ▸ (LifeCycle.inv_run run x mem).2, ?_⟩
    cases commit_inv committed with
    | deleteUser _ _ _ sessions _ =>
      rw [sessions, Table.find?_delete, Table.find?_of_mem mem]
      simp [Option.filter, mine]
  have absent : SessionGone x.id s' := Machine.run_invariant sessionGone_step cascade ⟨later, rest⟩
  have closed : s'.db.openSession x.id = none := by simp [Database.openSession, absent.2]
  exact ⟨fun p sid => heartbeat_ended (sid ▸ closed), fun p sid => close_ended (sid ▸ closed)⟩

/-- What arrives for the user afterwards, and a new user of the same name. -/
def afterDeletion : List Event :=
  [.heartbeat { sessionId := "session", uplinkDelta := 5 },
    .admin "admin" (.createUser "again" (fun node => testKeys ("again-" ++ node)) testUser),
    .authorize "second" { userId := "user", nodeId := "node", sourceIp := "203.0.113.10" },
    .close { sessionId := "session" }]

/-- The first connection, its user deleted while it relays. -/
theorem deletion_is_final_connected :
    ∃ s t s', (plane {}).run (.initial 0) firstConnection = some s ∧
      (plane {}).step s (.admin "admin" (.deleteUser "user")) = some t ∧
      (plane {}).run t afterDeletion = some s' ∧ (s'.db.users.find? "again").isSome ∧
      heartbeat s'.now { sessionId := "session" } s'.db =
        (s'.db, .error ⟨404, "session_not_found"⟩) := by
  obtain ⟨s, run, facts⟩ := (Option.any_eq_true _ _).1
    (by decide +kernel : ((plane {}).run (.initial 0) firstConnection).any fun s =>
      (s.db.users.find? "user").isSome && ((s.db.sessions.find? "session").any (·.userId = "user")) &&
      ((plane {}).step s (.admin "admin" (.deleteUser "user"))).any fun t =>
        ((plane {}).run t afterDeletion).any fun s' => (s'.db.users.find? "again").isSome)
  simp only [Bool.and_eq_true, Option.any_eq_true, decide_eq_true_eq,
    Option.isSome_iff_exists] at facts
  obtain ⟨⟨⟨user, found⟩, x, here, mine⟩, t, deleted, s', rest, again⟩ := facts
  have sessions := (deletion_is_final {} 0 firstConnection s t s' "user" user "admin" afterDeletion run
    found deleted rest).2.2.2.2.2.1 x (Table.find?_mem here) mine
  have id := Table.find?_key here
  exact ⟨s, t, s', run, deleted, rest, Option.isSome_iff_exists.2 again, sessions.1 _ id.symm⟩

end Arena.Deletion
