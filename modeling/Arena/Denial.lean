import Arena.Model.Standing
import Arena.Model.UserRow

/-!
# Denial is sticky

A user that `user_allowed` refuses is disabled, expired or over its quota. Gateway requests
cannot undo that, whatever their number and order and whenever after the denial they are
served: they add traffic and start the validity of users that are allowed, and this one is
not. `denial_is_sticky`: every `authorize` is refused, every heartbeat on an open session ends
it, the validity stays as it was, and only an administrator re-admits the user.
-/

namespace Arena.Denial

open Arena.Lib Arena.Model

variable {cfg : Settings} {t now : Instant} {db db' : Database} {u u' : User} {e : Event}

/-- The requests of gateways. -/
def IsGateway : Event → Bool
  | .authorize .. | .heartbeat _ | .close _ => true
  | _ => false

/-- Gateway requests, each served at an instant of its own. -/
def gateways (cfg : Settings) : Machine Database (Instant × Event) where
  step db r := if IsGateway r.2 then some (r.2.commit cfg r.1 db) else none

/-- A row later on: the account as it was, and at least as many bytes used. -/
structure Worn (u u' : User) : Prop where
  active : u'.active = u.active
  quota : u'.quotaBytes = u.quotaBytes
  validity : u'.validityDays = u.validityDays
  starts : u'.startsAt = u.startsAt
  expires : u'.expiresAt = u.expiresAt
  used : u.usedBytes ≤ u'.usedBytes

theorem Worn.refl : Worn u u := ⟨rfl, rfl, rfl, rfl, rfl, le_rfl⟩

theorem Worn.addTraffic {up down : ℕ} (worn : Worn u u') : Worn u (u'.addTraffic up down) := by
  obtain ⟨active, quota, validity, starts, expires, used⟩ := worn
  refine ⟨active, quota, validity, starts, expires, used.trans ?_⟩
  simp only [User.usedBytes, User.addTraffic_usedUpBytes, User.addTraffic_usedDownBytes]
  omega

/-- A worn row is denied from the instant on at which the row was. -/
theorem Worn.denied (worn : Worn u u') (denied : (userAllowed u t).1 = false) (later : t ≤ now) :
    (userAllowed u' now).1 = false := by
  have expiry : userExpiry u' = userExpiry u := by
    simp only [userExpiry, worn.expires, worn.starts, worn.validity]
  by_contra allowed
  have before := userAllowed_mono later worn.active expiry worn.quota worn.used (by simpa using allowed)
  simp [denied] at before

/-- **The step lemma**: a gateway request wears a denied row and does nothing else to it. -/
theorem worn_step {r : Instant × Event} (denied : (userAllowed u t).1 = false) (late : t ≤ r.1)
    (before : ∃ u', db.users.find? u.id = some u' ∧ Worn u u')
    (step : (gateways cfg).step db r = some db') :
    ∃ u', db'.users.find? u.id = some u' ∧ Worn u u' := by
  obtain ⟨now, e⟩ := r
  obtain ⟨u₁, found, worn⟩ := before
  simp only [gateways] at step
  split at step
  case isFalse => cases step
  case isTrue gateway =>
    cases step
    have change := user_change cfg now db u.id e
    rw [found] at change
    generalize (e.commit cfg now db).users.find? u.id = after at change ⊢
    cases change with
    | deleted name => cases gateway
    | moved _ _ u₂ step =>
      refine ⟨u₂, rfl, ?_⟩
      cases step with
      | kept => exact worn
      | started newId p _ mine allowed =>
        -- the checks would have accepted a denied row
        have refused : (userAllowed u₁ now).1 = false := worn.denied denied late
        simp [refused] at allowed
      | heard => exact worn.addTraffic
      | closed => exact worn.addTraffic
      | updated => cases gateway
      | reset => cases gateway
      | rotated => cases gateway

/-- **The run lemma.** -/
theorem worn_run {reqs : List (Instant × Event)} (found : db.users.find? u.id = some u)
    (denied : (userAllowed u t).1 = false) (late : ∀ r ∈ reqs, t ≤ r.1)
    (run : (gateways cfg).run db reqs = some db') :
    ∃ u', db'.users.find? u.id = some u' ∧ Worn u u' := by
  have along : (gateways cfg).Along (fun _ r => t ≤ r.1) db reqs := Machine.along_of_mem late db
  exact Machine.along_invariant (I := fun db => ∃ u', db.users.find? u.id = some u' ∧ Worn u u')
    (fun before late step => worn_step denied late before step) ⟨u, found, .refl⟩ along run

/-- A denied user's request is refused. -/
theorem authorize_refused {newId : Id} {p : GatewayAuthorize}
    (found : db.users.find? p.userId = some u) (denied : (userAllowed u now).1 = false) :
    ∃ err, (authorize cfg now newId p db).2 = .error err := by
  rcases authorize_cases (Prod.mk.eta (p := authorize cfg now newId p db)).symm with
    ⟨-, err, -, refused, -⟩ | ⟨-, refused⟩ | ⟨user, node, verdict, -⟩
  · exact ⟨err, refused⟩
  · exact ⟨internalError, refused⟩
  · obtain ⟨owner, -, -, -, allowed, -⟩ := decideRoute_admitted_iff.1 verdict
    obtain rfl : u = user := Option.some.inj (found.symm.trans owner)
    simp [denied] at allowed

/-- A heartbeat on an open session of a denied user orders termination. -/
theorem heartbeat_terminates {p : GatewayHeartbeat} {session : ConnectionSession}
    (opened : db.openSession p.sessionId = some session)
    (found : db.users.find? session.userId = some u)
    (denied : ∀ up down, (userAllowed (u.addTraffic up down) now).1 = false) :
    ∃ reply, (heartbeat now p db).2 = .ok reply ∧ reply.terminate = true := by
  rcases heartbeat_cases (Prod.mk.eta (p := heartbeat now p db)).symm with
    ⟨missing, -⟩ | ⟨s, user, verdict, sid, rfl, charges, answered⟩
  · simp [missing] at opened
  · have here := charges.opened sid
    obtain rfl : s = session := Option.some.inj (here.symm.trans opened)
    obtain rfl : u = user := Option.some.inj (found.symm.trans charges.owner)
    exact ⟨_, answered, by simp [denied]⟩

/-- **Denial is sticky.** After any gateway requests, in any order and each at any instant from
the denial on, the denied user has the validity it had, and from that instant on it is denied:
its `authorize` requests are refused and its heartbeats terminate. And a run of the control
plane that ends a denial has an administrator's request in it that creates the user, updates
it or resets its usage. -/
theorem denial_is_sticky (cfg : Settings) (uid : Id) :
    (∀ (t : Instant) (db db' : Database) (user : User) (reqs : List (Instant × Event)),
      db.users.find? uid = some user → (userAllowed user t).1 = false →
      (∀ r ∈ reqs, t ≤ r.1) → (gateways cfg).run db reqs = some db' →
      ∃ user', db'.users.find? uid = some user' ∧ user'.startsAt = user.startsAt ∧
        user'.expiresAt = user.expiresAt ∧
        ∀ now, t ≤ now → (userAllowed user' now).1 = false ∧
          (∀ newId p, p.userId = uid → ∃ err, (authorize cfg now newId p db').2 = .error err) ∧
          ∀ p session, db'.openSession p.sessionId = some session → session.userId = uid →
            ∃ reply, (heartbeat now p db').2 = .ok reply ∧ reply.terminate = true) ∧
    ∀ (s s' : Plane) (es : List Event), (plane cfg).run s es = some s' →
      ¬ s.db.allows uid s.now → s'.db.allows uid s'.now →
      ∃ name op, Event.admin name op ∈ es ∧ Readmits uid (.admin name op) := by
  constructor
  · intro t db db' user reqs found denied late run
    obtain rfl := Table.find?_key found
    obtain ⟨user', found', worn⟩ := worn_run found denied late run
    refine ⟨user', found', worn.starts, worn.expires, fun now later => ?_⟩
    refine ⟨worn.denied denied later, ?_, ?_⟩
    · intro newId p mine
      exact authorize_refused (mine ▸ found') (worn.denied denied later)
    · intro p session opened mine
      exact heartbeat_terminates opened (mine ▸ found')
        fun up down => worn.addTraffic.denied denied later
  · intro s s' es run denied allowed
    by_contra nobody
    push Not at nobody
    refine denial_run run (fun e he readmits => ?_) denied allowed
    cases e with
    | admin name op => exact nobody name op he readmits
    | _ => exact readmits

/-- A heartbeat that uses the quota up, and requests after it at instants in no order. -/
def afterTheQuota : List (Instant × Event) :=
  [(20, .authorize "again" { userId := "user", nodeId := "node", sourceIp := "203.0.113.10" }),
    (10, .heartbeat { sessionId := "session", uplinkDelta := 5 }),
    (30, .close { sessionId := "session" })]

/-- The first connection beyond its quota: denied, and denied after those requests; the reset
of its usage re-admits it. -/
theorem denial_is_sticky_quota :
    ∃ s db' s' user', (plane {}).run (.initial 0)
        (firstConnection ++ [.heartbeat { sessionId := "session", uplinkDelta := 2000000000 }]) = some s ∧
      (gateways {}).run s.db afterTheQuota = some db' ∧
      db'.users.find? "user" = some user' ∧ (userAllowed user' 40).1 = false ∧
      (plane {}).run s [.admin "admin" (.resetUsage "user")] = some s' ∧
      ∃ name op, Event.admin name op ∈ [.admin "admin" (.resetUsage "user")] ∧
        Readmits "user" (.admin name op) := by
  obtain ⟨s, run, facts⟩ := (Option.any_eq_true _ _).1
    (by decide +kernel : ((plane {}).run (.initial 0) (firstConnection ++
      [.heartbeat { sessionId := "session", uplinkDelta := 2000000000 }])).any fun s =>
        ((s.db.users.find? "user").any fun u => !(userAllowed u 0).1 && !(userAllowed u s.now).1) &&
        ((gateways {}).run s.db afterTheQuota).isSome &&
        ((plane {}).run s [.admin "admin" (.resetUsage "user")]).any fun s' =>
          (s'.db.users.find? "user").any fun u => (userAllowed u s'.now).1)
  simp only [Bool.and_eq_true, Option.any_eq_true, Bool.not_eq_true',
    Option.isSome_iff_exists] at facts
  obtain ⟨⟨⟨user, found, denied, denied'⟩, db', served⟩, s', reset, user₁, found₁, allowed₁⟩ := facts
  obtain ⟨sticky, readmitted⟩ := denial_is_sticky {} "user"
  obtain ⟨user', found', -, -, after⟩ := sticky 0 s.db db' user afterTheQuota found denied
    (by simp [afterTheQuota]) served
  refine ⟨s, db', s', user', run, served, found', (after 40 (by decide)).1, reset, ?_⟩
  refine readmitted s s' _ reset ?_ ⟨user₁, found₁, allowed₁⟩
  rintro ⟨u, hu, allowed⟩
  obtain rfl : user = u := Option.some.inj (found.symm.trans hu)
  simp [denied'] at allowed

end Arena.Denial
