import Arena.AddressPool
import Arena.LifeCycle
import Arena.Model.Tenancy
import Arena.Model.UserRow

/-!
# Isolation of users

All users share one database, one clock and the nodes. `isolation` compares a history with the
one in which no other user was ever created: the rows of the user are the same, and so is every
answer to a request of it. What is left of the others is when they connect, as each `authorize`
sweeps the stale sessions of everybody.

The users of a WireGuard node share its addresses too: which one a new key gets, and whether there is
one, depends on the keys of the others. A user whose keys are on other nodes sees nothing of this.
-/

namespace Arena.Isolation

open Arena.Lib Arena.Model Arena.AddressPool

variable {parse : Json → Except HttpError Network} {cfg : Settings} {uid : Id} {s s' t : Plane}
  {e : Event} {db : Database} {op : AdminOp}

/-- The event is no administrative request about another user. -/
def Keeps (uid : Id) : Event → Bool
  | .admin _ op => op.subject.all (· = uid)
  | _ => true

/-! ## Addresses -/

/-- The request with the addresses that the pools answer in its keys. -/
def allocating (parse : Json → Except HttpError Network) (db : Database) : AdminOp → AdminOp
  | .createUser newId material p =>
    .createUser newId (fun i => { material i with address := allocate parse db i }) p
  | .attachNode userId nodeId material =>
    .attachNode userId nodeId { material with address := allocate parse db nodeId }
  | op => op

theorem event_allocating {name : String} :
    Event.allocating parse db (.admin name op) = .admin name (allocating parse db op) := by
  cases op <;> rfl

theorem draws_allocating : (Event.allocating parse db e).draws = e.draws := by
  cases e with
  | admin name op => cases op <;> rfl
  | _ => rfl

theorem elapsed_allocating : (Event.allocating parse db e).elapsed = e.elapsed := by
  cases e with
  | admin name op => cases op <;> rfl
  | _ => rfl

theorem keeps_allocating : Keeps uid (Event.allocating parse db e) = Keeps uid e := by
  cases e with
  | admin name op => cases op <;> rfl
  | _ => rfl

/-- No key that the request makes is one of a WireGuard node. -/
def offWireguard (db : Database) : AdminOp → Bool
  | .createUser _ _ p =>
    (db.nodes.rows.filter fun n => n.enabled && (p.nodeIds.isEmpty || p.nodeIds.contains n.id)).all
      (·.protocol ≠ .wireguard)
  | .attachNode _ nodeId _ => (db.nodes.find? nodeId).all (·.protocol ≠ .wireguard)
  | _ => true

/-- The other protocols do not read the address. -/
theorem createAccessKey_address {m : KeyMaterial} {user : User} {node : Node} {address : Option String}
    (other : node.protocol ≠ .wireguard) :
    createAccessKey { m with address := address } user node = createAccessKey m user node := by
  unfold createAccessKey
  cases protocol : node.protocol with
  | wireguard => exact absurd protocol other
  | vless | vmess | cisco => rfl

theorem createKeys_address {material : Id → KeyMaterial} {address : Id → Option String} {user : User}
    {nodes : List Node} (others : ∀ node ∈ nodes, node.protocol ≠ .wireguard) :
    createKeys (fun i => { material i with address := address i }) user nodes db =
      createKeys material user nodes db := by
  induction nodes generalizing db with
  | nil => rfl
  | cons node nodes ih =>
    have rest := fun db => @ih db fun n mem => others n (List.mem_cons_of_mem _ mem)
    simp only [createKeys, createAccessKey_address (others node List.mem_cons_self), rest]

/-- Off the WireGuard nodes, the pools do not matter. -/
theorem commit_allocating {name : String} (off : offWireguard db op) :
    (allocating parse db op).commit name db = op.commit name db := by
  cases op with
  | createUser newId material p =>
    simp only [allocating, AdminOp.commit, createUser]
    cases inserted : db.insertUser? (newUser newId p) with
    | none => rfl
    | some mid =>
      obtain ⟨-, nodes, -⟩ := Database.insertUser?_eq_some inserted
      have others : ∀ node ∈ db.nodes.rows.filter fun n =>
          n.enabled && (p.nodeIds.isEmpty || p.nodeIds.contains n.id), node.protocol ≠ .wireguard :=
        fun node mem => of_decide_eq_true (List.all_eq_true.1 off node mem)
      dsimp only
      rw [nodes, createKeys_address others]
  | attachNode userId nodeId material =>
    simp only [allocating, AdminOp.commit, attachNode]
    cases found : db.nodes.find? nodeId with
    | none => rfl
    | some node =>
      have other : node.protocol ≠ .wireguard := by simpa [offWireguard, found] using off
      have same : ∀ user, createKeys (fun _ => { material with address := allocate parse db nodeId })
          user [node] db = createKeys (fun _ => material) user [node] db :=
        fun user => createKeys_address (by simpa using other)
      simp only [same]
  | _ => rfl

/-- What the requests about this user meet: new identifiers for the keys that are made, as `uuid4`
draws them, and no WireGuard node for any of them. -/
def Separate (uid : Id) (s : Plane) : Event → Prop
  | .admin name op => Keeps uid (.admin name op) → KeysFresh s.db (.admin name op) ∧ offWireguard s.db op
  | _ => True

instance : Decidable (Separate uid s e) :=
  match e with
  | .admin name op => inferInstanceAs (Decidable (Keeps uid (.admin name op) →
      KeysFresh s.db (.admin name op) ∧ offWireguard s.db op))
  | .tick _ | .start .. | .authorize .. | .heartbeat _ | .close _ => instDecidableTrue

/-- Two histories at the same instant: the second one knows this user only. -/
structure Twin (uid : Id) (s t : Plane) : Prop where
  agree : AgreeOn uid s.db t.db
  now : t.now = s.now
  issued : ∀ i ∈ t.issued, i ∈ s.issued
  life : LifeCycle.Inv s
  life' : LifeCycle.Inv t
  alone : ∀ u ∈ t.db.users.rows, u.id = uid

namespace Twin

/-- An identifier that is new to the control plane is no session's. -/
theorem fresh_session {i : Id} (life : LifeCycle.Inv s) (new : i ∉ s.issued) :
    s.db.sessions.find? i = none := by
  refine Table.find?_eq_none_iff.2 fun x mem same => new ?_
  exact same ▸ (life x mem).2

/-- The second history has sessions of this user only. -/
theorem ownSession (twin : Twin uid s t) (i : Id) : OwnSession uid i t.db := by
  intro x found
  obtain ⟨u, owner⟩ := session_user found
  exact (Table.find?_key owner).symm.trans (twin.alone u (Table.find?_mem owner))

/-- And keys of this user only. -/
theorem fresh_key (twin : Twin uid s t) {i : Id} (fresh : s.db.accessKeys.find? i = none) :
    t.db.accessKeys.find? i = none := by
  refine Table.find?_eq_none_iff.2 fun k mem same => ?_
  obtain ⟨u, owner⟩ := Option.isSome_iff_exists.1 (t.db.keyUser k mem)
  have mine : k.userId = uid := (Table.find?_key owner).symm.trans (twin.alone u (Table.find?_mem owner))
  exact Table.find?_eq_none_iff.1 fresh k ((twin.agree.mem_key mine).2 mem) same

/-! ## One event of both histories -/

/-- A session of somebody else is unknown to the second history. -/
theorem unknown_session (twin : Twin uid s t) {i : Id} (other : ¬ OwnSession uid i s.db) :
    t.db.openSession i = none := by
  have missing : t.db.sessions.find? i = none := by
    cases found : t.db.sessions.find? i with
    | none => rfl
    | some x =>
      -- it would be this user's in the first history as well
      have mine := twin.ownSession i x found
      obtain ⟨mem, key⟩ := Table.find?_eq_some_iff.1 found
      have here := Table.find?_eq_some_iff.2 ⟨(twin.agree.mem_session mine).2 mem, key⟩
      refine absurd (fun y hy => ?_) other
      obtain rfl : x = y := Option.some.inj (here.symm.trans hy)
      exact mine
  simp [Database.openSession, missing]

/-- An administrator's request about this user, or about none, whatever the pools answer. -/
theorem commit_alike {name : String} (twin : Twin uid s t) (about : ∀ i, op.subject = some i → i = uid)
    (fresh : KeysFresh s.db (.admin name op)) (off : offWireguard s.db op) :
    Parallel (AgreeOn uid) ((allocating parse s.db op).commit name s.db)
      ((allocating parse t.db op).commit name t.db) := by
  have off' : offWireguard t.db op := by
    cases op <;> first | rfl | (simp only [offWireguard, ← twin.agree.nodes] at off ⊢; exact off)
  rw [commit_allocating off, commit_allocating off']
  refine twin.agree.commit about fun i drawn => ?_
  have none_here := fresh i drawn
  simp [none_here, twin.fresh_key none_here]

theorem commit_kept (twin : Twin uid s t) (kept : Keeps uid e) (new : ∀ i ∈ e.draws, i ∉ s.issued)
    (keys : Separate uid s e) :
    AgreeOn uid ((Event.allocating parse s.db e).commit cfg s.now s.db)
      ((Event.allocating parse t.db e).commit cfg t.now t.db) := by
  rw [twin.now]
  cases e with
  | tick => exact twin.agree
  | start vlessId vmessId => exact twin.agree.seedDatabase.getD twin.agree
  | authorize newId p =>
    have fresh := fresh_session twin.life (new newId (by simp [Event.draws]))
    have fresh' := fresh_session twin.life' (fun mem => new newId (by simp [Event.draws]) (twin.issued _ mem))
    by_cases mine : p.userId = uid
    · subst mine
      exact (twin.agree.authorize fresh fresh').2
    · exact ((authorize_agree mine fresh).symm.trans twin.agree.sweep).trans (authorize_agree mine fresh')
  | heartbeat p =>
    by_cases mine : OwnSession uid p.sessionId s.db
    · exact (twin.agree.heartbeat mine (twin.ownSession _)).2
    · have ended : (Event.heartbeat p).commit cfg s.now t.db = t.db :=
        congrArg Prod.fst (heartbeat_ended (twin.unknown_session mine))
      change AgreeOn uid _ ((Event.heartbeat p).commit cfg s.now t.db)
      rw [ended]
      exact (heartbeat_agree mine).symm.trans twin.agree
  | close p =>
    by_cases mine : OwnSession uid p.sessionId s.db
    · exact twin.agree.close mine (twin.ownSession _)
    · have ended : (Event.close p).commit cfg s.now t.db = t.db :=
        close_ended (twin.unknown_session mine)
      change AgreeOn uid _ ((Event.close p).commit cfg s.now t.db)
      rw [ended]
      exact (close_agree mine).symm.trans twin.agree
  | admin name op =>
    obtain ⟨fresh, off⟩ := keys kept
    rw [event_allocating, event_allocating]
    refine (twin.commit_alike ?_ fresh off).getD twin.agree
    intro i about
    simpa [Keeps, about] using kept

/-- A request that the second history leaves out. -/
theorem commit_left_out (cfg : Settings) (twin : Twin uid s t) (left_out : ¬ Keeps uid e) :
    AgreeOn uid (e.commit cfg s.now s.db) t.db ∧ e.elapsed = 0 := by
  cases e with
  | admin name op =>
    refine ⟨?_, rfl⟩
    cases about : op.subject with
    | none => simp [Keeps, about] at left_out
    | some i =>
      have other : i ≠ uid := by simpa [Keeps, about] using left_out
      cases done : op.commit name s.db with
      | error err => simpa [Event.commit, done, Except.toOption] using twin.agree
      | ok db' =>
        simpa [Event.commit, done, Except.toOption] using
          (commit_agree done about other).symm.trans twin.agree
  | _ => simp [Keeps] at left_out

/-- No other user appears in the second history. -/
theorem alone_step (alone : ∀ u ∈ t.db.users.rows, u.id = uid) (kept : Keeps uid e) (now : Instant) :
    ∀ u ∈ (e.commit cfg now t.db).users.rows, u.id = uid := by
  intro u mem
  by_contra other
  have change := user_change cfg now t.db u.id e
  rw [Table.find?_of_mem mem] at change
  have missing : t.db.users.find? u.id = none :=
    Table.find?_eq_none_iff.2 fun x there same => other (same ▸ alone x there)
  generalize hid : u.id = i at *
  rw [missing] at change
  cases change with
  | created name material p => simp [Keeps, AdminOp.subject, other] at kept

/-- **The step lemma.** -/
theorem step (twin : Twin uid s t) (keys : Separate uid s e)
    (step : (pool parse cfg).step s e = some s') :
    ∃ t', (pool parse cfg).run t (if Keeps uid e then [e] else []) = some t' ∧ Twin uid s' t' := by
  have life := LifeCycle.inv_step twin.life step
  obtain ⟨new, rfl⟩ := plane_step.1 step
  rw [draws_allocating] at new
  by_cases kept : Keeps uid e
  · have new' : ∀ i ∈ (Event.allocating parse t.db e).draws, i ∉ t.issued := by
      rw [draws_allocating]
      exact fun i mem drawn => new i mem (twin.issued i drawn)
    have step' : (pool parse cfg).step t e = some _ := plane_step.2 ⟨new', rfl⟩
    refine ⟨_, by rw [if_pos kept]; simp [Machine.run, step'], twin.commit_kept kept new keys,
      by simp [elapsed_allocating, twin.now], ?_, life, LifeCycle.inv_step twin.life' step',
      alone_step twin.alone (keeps_allocating.trans kept) _⟩
    intro i mem
    rw [draws_allocating] at mem ⊢
    rcases List.mem_append.1 mem with mem | mem
    · exact List.mem_append_left _ mem
    · exact List.mem_append_right _ (twin.issued i mem)
  · have left_out : ¬ Keeps uid (Event.allocating parse s.db e) := by
      rw [keeps_allocating]
      exact kept
    obtain ⟨agree, still⟩ := twin.commit_left_out cfg left_out
    exact ⟨t, by rw [if_neg kept]; rfl, agree, by simp [still, twin.now],
      fun i mem => List.mem_append_right _ (twin.issued i mem), life, twin.life', twin.alone⟩

end Twin

/-- The subscription reads the row and the keys of its user, and the nodes. -/
theorem subscription_agree {a b : Database} (agree : AgreeOn uid a b) (now : Instant)
    (base : PublicEndpoint) (raw : Bool) (version : ℤ) :
    subscription now a base raw uid version = subscription now b base raw uid version := by
  unfold subscription
  rw [agree.user]
  split
  · rfl
  · rename_i user found
    have mine : user.id = uid := Table.find?_key (Option.filter_eq_some_iff.1 found).1
    have served : servedKeys now a user = servedKeys now b user := by
      rw [servedKeys, servedKeys, mine, agree.keysOf]
    rw [served]

/-- **Isolation of users.** Take any history of an installation in which this user gets no key on a
WireGuard node, and leave out of it every request that creates, changes or deletes another user.
What remains is a history too, in which there is no other user, and it ends with the same row, keys
and sessions of this one. All answers that this user gets at the end are the same in both: to an
`authorize`, to a heartbeat, to an administrator's request about it, and to a fetch of its
subscription. -/
theorem isolation (parse : Json → Except HttpError Network) (cfg : Settings) (start : Instant)
    (uid : Id) (es : List Event) (s : Plane)
    (run : (pool parse cfg).run (.initial start) es = some s)
    (keys : (pool parse cfg).Along (Separate uid) (.initial start) es) :
    ∃ t, (pool parse cfg).run (.initial start) (es.filter (Keeps uid)) = some t ∧ t.now = s.now ∧
      (∀ u ∈ t.db.users.rows, u.id = uid) ∧ AgreeOn uid s.db t.db ∧
      (∀ newId p, p.userId = uid → newId ∉ s.issued →
        (authorize cfg s.now newId p s.db).2 = (authorize cfg t.now newId p t.db).2) ∧
      (∀ p, OwnSession uid p.sessionId s.db →
        (heartbeat s.now p s.db).2 = (heartbeat t.now p t.db).2) ∧
      (∀ name op, op.subject = some uid → KeysFresh s.db (.admin name op) → offWireguard s.db op →
        Parallel (AgreeOn uid) ((allocating parse s.db op).commit name s.db)
          ((allocating parse t.db op).commit name t.db)) ∧
      ∀ base raw version,
        subscription s.now s.db base raw uid version = subscription t.now t.db base raw uid version := by
  have init : Twin uid (.initial start) (.initial start) :=
    ⟨.refl uid _, rfl, fun _ mem => mem, by simp [LifeCycle.Inv, Plane.initial],
      by simp [LifeCycle.Inv, Plane.initial], by simp [Plane.initial]⟩
  obtain ⟨t, run', twin⟩ := Machine.simulation (R := Twin uid) (n := pool parse cfg)
    (f := fun _ e => if Keeps uid e then [e] else [])
    (fun twin keys step => twin.step keys step) init keys run
  rw [Machine.image_filter run] at run'
  refine ⟨t, run', twin.now, twin.alone, twin.agree, ?_, ?_, ?_, ?_⟩
  · rintro newId p rfl new
    rw [twin.now]
    exact (twin.agree.authorize (Twin.fresh_session twin.life new)
      (Twin.fresh_session twin.life' fun mem => new (twin.issued _ mem))).1
  · intro p mine
    rw [twin.now]
    exact (twin.agree.heartbeat mine (twin.ownSession _)).1
  · intro name op about fresh off
    exact twin.commit_alike (fun i subject => Option.some.inj (subject.symm.trans about)) fresh off
  · intro base raw version
    rw [twin.now]
    exact subscription_agree twin.agree _ base raw version

/-- A WireGuard node, and a second user with a key on both nodes, connected between the heartbeats of
the first. -/
def twoUsers : List Event :=
  firstConnection ++ [.admin "admin" (.createNode "wg"
      { testNode with
        slug := "arena-wg", slugPattern := by decide, kind := .wireguard, protocol := .wireguard
        transport := .external, metadata := [("client_cidr", .str "10.66.0.0/30")] }),
    .admin "admin" (.createUser "other" (fun node => testKeys ("other-" ++ node)) testUser),
    .authorize "second" { userId := "other", nodeId := "node", sourceIp := "203.0.113.10" },
    .heartbeat { sessionId := "second", uplinkDelta := 2000000000 },
    .heartbeat { sessionId := "session", downlinkDelta := 7 }]

/-- The first user's view of it. -/
theorem isolation_two_users :
    ∃ s t, (pool parseSmall {}).run (.initial 0) twoUsers = some s ∧
      (pool parseSmall {}).run (.initial 0) (twoUsers.filter (Keeps "user")) = some t ∧
      (s.db.users.find? "other").isSome ∧ t.db.users.find? "other" = none ∧
      AgreeOn "user" s.db t.db := by
  obtain ⟨s, run, other⟩ := (Option.any_eq_true _ _).1
    (by decide +kernel : ((pool parseSmall {}).run (.initial 0) twoUsers).any fun s =>
      (s.db.users.find? "other").any fun u => u.usedUpBytes = 2000000000)
  have keys : (pool parseSmall {}).Along (Separate "user") (.initial 0) twoUsers := by decide +kernel
  obtain ⟨t, run', -, alone, agree, -⟩ := isolation parseSmall {} 0 "user" twoUsers s run keys
  refine ⟨s, t, run, run', ?_, ?_, agree⟩
  · obtain ⟨u, found, -⟩ := (Option.any_eq_true _ _).1 other
    exact Option.isSome_iff_exists.2 ⟨u, found⟩
  · refine Table.find?_eq_none_iff.2 fun u mem => ?_
    rw [alone u mem]
    decide

end Arena.Isolation
