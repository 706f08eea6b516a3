import Arena.Model.Dashboard
import Arena.Model.Effects
import Arena.Model.Plane
import Arena.Model.Responses

/-!
# How many connections a user has

The panel counts the open sessions that were seen since the cutoff, in a comparison of
timestamps; the dashboard does in a query; `authorize` ends those that were seen before the
cutoff and counts what is left open. A session that was seen at the cutoff itself counts in all
three.
-/

namespace Arena.Counts

open Arena.Lib Arena.Model

variable {cfg : Settings} {site : Site} {now : Instant} {r : Request} {db : Database} {user : Id}

/-- Rows of an update that `q` has not, when `q` has none of the updated ones. -/
theorem filter_update {ρ κ : Type} [DecidableEq κ] {key : ρ → κ} {t : Table key} {p q : ρ → Bool}
    {f : ρ → ρ} {keeps : ∀ a, key (f a) = key a} (off : ∀ a, q (f a) = false) :
    (t.update p f keeps).rows.filter q = t.rows.filter fun a => q a && !p a := by
  show (t.rows.map fun a => if p a then f a else a).filter q = _
  induction t.rows with
  | nil => rfl
  | cons a rows ih =>
    cases hit : p a <;> cases here : q a <;> simp [hit, here, off, ih]

/-- An open session that the sweep leaves was seen since the cutoff. -/
theorem open_and_not_stale (s : ConnectionSession) : (s.isOpen && !s.isStale cfg now) =
    (s.isOpen && decide (now - seconds cfg.sessionStaleSeconds ≤ s.lastSeenAt)) := by
  cases opened : s.isOpen with
  | false => rfl
  | true => by_cases seen : s.lastSeenAt < now - seconds cfg.sessionStaleSeconds <;>
      simp [ConnectionSession.isStale, opened, seen, not_le.2, not_lt.1]

/-- What the sweep leaves open is what the panel counts. -/
theorem openSessions_swept : (finishStaleSessions cfg now db).openSessions user =
    (db.openSessions user).filter fun s => now - seconds cfg.sessionStaleSeconds ≤ s.lastSeenAt := by
  rw [Database.openSessions, finishStaleSessions_sessions, filter_update (by simp), Database.openSessions,
    List.filter_filter]
  refine List.filter_congr fun s _ => ?_
  rw [Bool.and_assoc, open_and_not_stale, Bool.and_comm (decide (now - _ ≤ _)), Bool.and_assoc]

/-- **The panel's number is that of the enforcement.** -/
theorem activeIps_eq_openIps :
    activeIps cfg now db user = ((finishStaleSessions cfg now db).openIps user).card := by
  rw [activeIps, Database.openIps, openSessions_swept]

/-- The sweep leaves the panel's number. -/
theorem activeIps_swept : activeIps cfg now (finishStaleSessions cfg now db) user = activeIps cfg now db user := by
  simp only [activeIps, openSessions_swept, List.filter_filter, Bool.and_self]

/-- The sweep leaves the dashboard's sessions. -/
theorem activeSessions_swept :
    (finishStaleSessions cfg now db).activeSessions cfg now = db.activeSessions cfg now := by
  rw [Database.activeSessions, finishStaleSessions_sessions, filter_update (by simp), Database.activeSessions]
  refine List.filter_congr fun s _ => ?_
  rw [← open_and_not_stale, Bool.and_assoc, Bool.and_self]

theorem serialize_activeIps {row : User} {reply : UserReply} (h : serialize cfg site now r db row = .ok reply) :
    reply.activeIps = activeIps cfg now db row.id := by
  obtain ⟨_, -, h⟩ := bind_eq_ok.1 h
  obtain ⟨_, -, h⟩ := bind_eq_ok.1 h
  cases h
  rfl

/-- What `authorize` compares with `max_ips`. -/
theorem ipLimit_eq_activeIps {p : GatewayAuthorize} {active : ℕ}
    (h : decideRoute now p (finishStaleSessions cfg now db) = .ipLimit active) :
    active = activeIps cfg now db p.userId := by
  unfold decideRoute at h
  split at h
  · rename_i found _ _
    split at h
    · cases h
    · split at h
      · cases h
      · split at h
        · cases h
          rw [activeIps_eq_openIps, ← Table.find?_key found]
        · cases h
  · cases h

/-- **Panel and enforcement count the same connections.** The number that `_serialize` reports is
that of the addresses left open by the sweep of `authorize` at the same instant, which is what
`authorize` compares with `max_ips`; and that sweep changes no user's number and neither number
of the dashboard. -/
theorem same_connections (cfg : Settings) (site : Site) (now : Instant) (r : Request) (db : Database)
    (row : User) :
    (∀ reply, serialize cfg site now r db row = .ok reply →
      reply.activeIps = ((finishStaleSessions cfg now db).openIps row.id).card ∧
      ∀ p active, p.userId = row.id →
        decideRoute now p (finishStaleSessions cfg now db) = .ipLimit active → active = reply.activeIps) ∧
    (∀ user, activeIps cfg now (finishStaleSessions cfg now db) user = activeIps cfg now db user) ∧
    (dashboard cfg now (finishStaleSessions cfg now db)).activeSessions = (dashboard cfg now db).activeSessions ∧
    (dashboard cfg now (finishStaleSessions cfg now db)).activeIps = (dashboard cfg now db).activeIps := by
  refine ⟨fun reply shown => ?_, fun _ => activeIps_swept, ?_, ?_⟩
  · have number := serialize_activeIps shown
    refine ⟨number.trans activeIps_eq_openIps, fun p active mine limited => ?_⟩
    rw [ipLimit_eq_activeIps limited, mine, number]
  · simp only [dashboard, activeSessions_swept]
  · simp only [dashboard, activeSessions_swept]

/-- A site whose URLs all split into the origin of the tests. -/
def testSite : Site := ⟨fun _ message => message, "", fun _ => .ok ⟨"http", some "testserver", .ok none⟩⟩

/-- The connection of the tests, 45 seconds after it was last seen: at the cutoff it counts. -/
theorem same_connections_cutoff : ∃ s row reply,
    (plane {}).run (.initial 0) (firstConnection ++ [.tick 45000000]) = some s ∧
      serialize {} testSite s.now {} s.db row = .ok reply ∧ reply.activeIps = 1 ∧
      reply.activeIps = ((finishStaleSessions {} s.now s.db).openIps row.id).card := by
  obtain ⟨s, run, facts⟩ := (Option.any_eq_true _ _).1 (by decide +kernel :
    ((plane {}).run (.initial 0) (firstConnection ++ [.tick 45000000])).any fun s =>
      (s.db.users.find? "user").any fun row =>
        (serialize {} testSite s.now {} s.db row).toOption.any fun reply => reply.activeIps = 1)
  obtain ⟨row, -, facts⟩ := (Option.any_eq_true _ _).1 facts
  obtain ⟨reply, shown, one⟩ := (Option.any_eq_true _ _).1 facts
  have shown := toOption_eq_some.1 shown
  exact ⟨s, row, reply, run, shown, of_decide_eq_true one,
    ((same_connections {} testSite s.now {} s.db row).1 reply shown).1⟩

end Arena.Counts
