import Arena.Model.Frames

/-!
# A session row under other requests

Everything that an event which is not a heartbeat or a close of a session can do to the row
of that session: the sweep of an `authorize` ends it when it is stale, and deleting its user
deletes it. And for any event, where the rows it leaves come from.
-/

namespace Arena.Model

open Arena.Lib

variable {cfg : Settings} {s s' : Plane} {e : Event} {i : Id}

/-- The event is a heartbeat or a close of this session. -/
def Event.addresses (i : Id) : Event → Bool
  | .heartbeat p => p.sessionId = i
  | .close p => p.sessionId = i
  | _ => false

/-- The session row after an event, by what the event did to it. -/
inductive RowStep (cfg : Settings) (s s' : Plane) (i : Id) : Event → Prop
  | kept (e : Event) (same : s'.db.sessions.find? i = s.db.sessions.find? i) : RowStep cfg s s' i e
  | swept (newId p row) (was : s.db.sessions.find? i = some row) (stale : row.isStale cfg s.now)
      (ended : s'.db.sessions.find? i = some (row.finish s.now)) :
      RowStep cfg s s' i (.authorize newId p)
  | deleted (name row) (was : s.db.sessions.find? i = some row)
      (gone : s'.db.sessions.find? i = none) :
      RowStep cfg s s' i (.admin name (.deleteUser row.userId))

/-- The sweep keeps a row or ends it. -/
theorem sweep_row {newId : Id} {p : GatewayAuthorize}
    (h : s'.db.sessions.find? i = (finishStaleSessions cfg s.now s.db).sessions.find? i) :
    RowStep cfg s s' i (.authorize newId p) := by
  rw [finishStaleSessions_find?] at h
  cases was : s.db.sessions.find? i with
  | none => exact .kept _ (by rw [h, was]; rfl)
  | some row =>
    by_cases stale : row.isStale cfg s.now
    · exact .swept newId p row was stale (by rw [h, was]; simp [stale])
    · exact .kept _ (by rw [h, was]; simp [stale])

/-- **The inversion lemma** for the row of a session whose identifier was drawn. -/
theorem row_step (step : (plane cfg).step s e = some s') (drawn : i ∈ s.issued)
    (foreign : ¬ e.addresses i) : RowStep cfg s s' i e := by
  obtain ⟨fresh, rfl⟩ := plane_step.1 step
  -- a heartbeat or a close of another session
  have other : ∀ {db' : Database} {session : ConnectionSession} {user : User} {up down : ℕ}
      {f : ConnectionSession → ConnectionSession}, Charges s.db db' session user up down f →
      session.id ≠ i → db'.sessions.find? i = s.db.sessions.find? i := by
    intro db' session user up down f charges ne
    rw [charges.sessions]
    exact Table.find?_update_of_key fun r hr same => ne ((of_decide_eq_true same).symm.trans hr)
  generalize made : e.commit cfg s.now s.db = db'
  cases made ▸ commit_changed cfg s.now s.db e with
  | same _ same => exact .kept _ (by rw [same])
  | seeded vlessId vmessId seeded => exact .kept _ (by rw [(seedDatabase_frame seeded).2.2])
  | refused newId p _ _ sessions => exact sweep_row (by rw [sessions])
  | admitted newId p user node _ committed =>
    have inserted := (admission_eq_some committed).2.1
    have ne : (newSession newId s.now p).id ≠ i := by
      intro same
      have mine : newId = i := same
      exact fresh newId (by simp [Event.draws]) (mine ▸ drawn)
    refine sweep_row ?_
    rw [Table.find?_insert inserted, if_neg ne]
  | heard p session user verdict sid charges =>
    have ne : p.sessionId ≠ i := by simpa [Event.addresses] using foreign
    exact .kept _ (other charges (sid ▸ ne))
  | closed p session user sid charges =>
    have ne : p.sessionId ≠ i := by simpa [Event.addresses] using foreign
    exact .kept _ (other charges (sid ▸ ne))
  | administered name op _ committed =>
    rcases committed.sessions_cases with sessions | ⟨userId, rfl, sessions⟩
    · exact .kept _ (by rw [sessions])
    · have found : db'.sessions.find? i =
          (s.db.sessions.find? i).filter fun x => !decide (x.userId = userId) := by
        rw [sessions, Table.find?_delete]
      cases was : s.db.sessions.find? i with
      | none => exact .kept _ (by simp [found, was])
      | some row =>
        by_cases mine : row.userId = userId
        · subst mine
          exact .deleted name row was (by simp [found, was])
        · exact .kept _ (by simp [found, was, Option.filter, mine])

/-! ## Where the rows come from -/

/-- A session row before and after an event that keeps it. -/
inductive SessionStep (now : Instant) : ConnectionSession → ConnectionSession → Prop
  | kept (x : ConnectionSession) : SessionStep now x x
  | finished (x : ConnectionSession) : SessionStep now x (x.finish now)
  | heard (x up down verdict) (wasOpen : x.isOpen) : SessionStep now x (x.heard up down now verdict)
  | closed (x up down why) (wasOpen : x.isOpen) : SessionStep now x (x.closed up down now why)

theorem SessionStep.id_eq {now : Instant} {x x' : ConnectionSession} (h : SessionStep now x x') :
    x'.id = x.id := by
  cases h <;> simp

/-- **The inversion lemma** for the rows that an event leaves. -/
theorem commit_session {cfg : Settings} {now : Instant} {db : Database} {e : Event}
    {x : ConnectionSession} (h : x ∈ (e.commit cfg now db).sessions.rows) :
    (∃ x₀ ∈ db.sessions.rows, SessionStep now x₀ x) ∨
      ∃ newId p, e = .authorize newId p ∧ x = newSession newId now p := by
  have kept : x ∈ db.sessions.rows → (∃ x₀ ∈ db.sessions.rows, SessionStep now x₀ x) ∨
      ∃ newId p, e = .authorize newId p ∧ x = newSession newId now p :=
    fun mem => .inl ⟨x, mem, .kept x⟩
  have swept : x ∈ (finishStaleSessions cfg now db).sessions.rows →
      ∃ x₀ ∈ db.sessions.rows, SessionStep now x₀ x := by
    rw [finishStaleSessions_sessions, Table.mem_update]
    rintro ⟨x₀, mem, rfl⟩
    split
    · exact ⟨x₀, mem, .finished x₀⟩
    · exact ⟨x₀, mem, .kept x₀⟩
  -- a heartbeat or a close that found its session open
  have charged : ∀ {db' : Database} {session : ConnectionSession} {user : User} {up down : ℕ}
      {f : ConnectionSession → ConnectionSession}, Charges db db' session user up down f →
      SessionStep now session (f session) → x ∈ db'.sessions.rows →
      ∃ x₀ ∈ db.sessions.rows, SessionStep now x₀ x := by
    intro db' session user up down f charges step mem
    rw [charges.sessions, Table.mem_update] at mem
    obtain ⟨x₀, mem, rfl⟩ := mem
    split
    · rename_i same
      have eq : x₀ = session :=
        Table.eq_of_key_eq mem (Table.find?_mem charges.found) (of_decide_eq_true same)
      exact ⟨x₀, mem, eq ▸ step⟩
    · exact ⟨x₀, mem, .kept x₀⟩
  generalize made : e.commit cfg now db = db' at h
  cases made ▸ commit_changed cfg now db e with
  | same _ same => exact kept (same ▸ h)
  | seeded vlessId vmessId seeded => exact kept ((seedDatabase_frame seeded).2.2 ▸ h)
  | refused newId p _ _ sessions => exact .inl (swept (sessions ▸ h))
  | admitted newId p user node _ committed =>
    have inserted := (admission_eq_some committed).2.1
    rw [Table.mem_insert inserted] at h
    rcases h with h | rfl
    · exact .inl (swept h)
    · exact .inr ⟨newId, p, rfl, rfl⟩
  | heard p session user verdict sid charges =>
    exact .inl (charged charges (.heard session _ _ verdict charges.wasOpen) h)
  | closed p session user sid charges =>
    exact .inl (charged charges (.closed session _ _ _ charges.wasOpen) h)
  | administered name op _ committed =>
    rcases committed.sessions_cases with sessions | ⟨userId, -, sessions⟩
    · exact kept (sessions ▸ h)
    · exact kept (Table.mem_delete.1 (sessions ▸ h)).1

end Arena.Model
