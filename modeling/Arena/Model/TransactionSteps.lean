import Arena.Model.SessionRow
import Arena.Model.Transactions
import Arena.Model.UserRow

/-!
# What a statement of a concurrent `authorize` does

The inversion of the machine of statements, and the frame of the other requests: sessions
only end (`Shrinks`), and a user's row that a transaction holds stays as it is.
-/

namespace Arena.Model

open Arena.Lib

variable {cfg : Settings} {db db' : Database} {uid : Id} {p p' : Plane} {e : Event} {s s' : Store}
  {t t' : Transaction} {others : List Transaction}

/-! ## Open sessions -/

/-- Each open session that the user has afterwards was open before. -/
def Shrinks (uid : Id) (db db' : Database) : Prop :=
  ∀ s ∈ db'.sessions.rows, s.userId = uid → s.isOpen →
    ∃ s₀ ∈ db.sessions.rows, s₀.id = s.id ∧ s₀.userId = uid ∧ s₀.isOpen ∧ s₀.sourceIp = s.sourceIp

theorem shrinks_of_sessions (same : db'.sessions = db.sessions) : Shrinks uid db db' :=
  fun s hs owner isOpen => ⟨s, same ▸ hs, rfl, owner, isOpen, rfl⟩

/-- An assignment that opens no session. -/
theorem shrinks_of_update {q : ConnectionSession → Bool} {f : ConnectionSession → ConnectionSession}
    {keeps : ∀ s, (f s).id = s.id} (sessions : db'.sessions = db.sessions.update q f keeps)
    (userId : ∀ s, (f s).userId = s.userId) (sourceIp : ∀ s, (f s).sourceIp = s.sourceIp)
    (isOpen : ∀ s, (f s).isOpen → s.isOpen) : Shrinks uid db db' := by
  intro s hs owner opened
  rw [sessions, Table.mem_update] at hs
  obtain ⟨s₀, mem, rfl⟩ := hs
  refine ⟨s₀, mem, ?_⟩
  split at owner
  · rename_i hq
    simp only [hq, if_true] at opened ⊢
    exact ⟨(keeps s₀).symm, (userId s₀).symm.trans owner, isOpen s₀ opened, (sourceIp s₀).symm⟩
  · rename_i hq
    simp only [hq] at opened ⊢
    exact ⟨rfl, owner, opened, rfl⟩

theorem Shrinks.openIps (h : Shrinks uid db db') : db'.openIps uid ⊆ db.openIps uid := by
  intro ip hip
  obtain ⟨s, hs, owner, opened, rfl⟩ := mem_openIps.1 hip
  obtain ⟨s₀, h₀, -, owner₀, opened₀, same⟩ := h s hs owner opened
  exact mem_openIps.2 ⟨s₀, h₀, owner₀, opened₀, same⟩

/-- A transaction sees the open sessions that it has not ended itself. -/
theorem mem_openIps_view {ip : String} : ip ∈ (t.view db).openIps uid ↔
    ∃ s ∈ db.sessions.rows, s.userId = uid ∧ s.isOpen ∧ s.id ∉ t.swept ∧ s.sourceIp = ip := by
  rw [mem_openIps]
  simp only [Transaction.view, Database.updateSessions_sessions, Table.mem_update,
    decide_eq_true_eq]
  constructor
  · rintro ⟨s, ⟨s₀, mem, rfl⟩, owner, opened, rfl⟩
    by_cases ended : s₀.id ∈ t.swept
    · simp [ended] at opened
    · simp only [ended, if_false] at owner opened ⊢
      exact ⟨s₀, mem, owner, opened, ended, rfl⟩
  · rintro ⟨s, mem, owner, opened, kept, rfl⟩
    exact ⟨s, ⟨s, mem, by simp [kept]⟩, owner, opened, rfl⟩

theorem Shrinks.view (h : Shrinks uid db db') :
    (t.view db').openIps uid ⊆ (t.view db).openIps uid := by
  intro ip hip
  obtain ⟨s, hs, owner, opened, kept, rfl⟩ := mem_openIps_view.1 hip
  obtain ⟨s₀, h₀, same, owner₀, opened₀, addr⟩ := h s hs owner opened
  exact mem_openIps_view.2 ⟨s₀, h₀, owner₀, opened₀, same ▸ kept, addr⟩

theorem shrinks_view : Shrinks uid db (t.view db) := by
  have sessions : (t.view db).sessions = db.sessions.update (fun s => decide (s.id ∈ t.swept))
      (ConnectionSession.finish t.now) (fun _ => ConnectionSession.finish_id) := rfl
  exact shrinks_of_update sessions (fun _ => rfl) (fun _ => rfl) (by simp)

/-! ## The other requests -/

/-- A request other than `authorize` opens no session. -/
theorem other_shrinks {now : Instant} (foreign : ∀ newId q, e ≠ .authorize newId q) :
    Shrinks uid db (e.commit cfg now db) := by
  intro s mem owner opened
  rcases commit_session mem with ⟨s₀, mem₀, step⟩ | ⟨newId, q, rfl, -⟩
  · cases step with
    | kept => exact ⟨s, mem₀, rfl, owner, opened, rfl⟩
    | finished | closed => simp at opened
    | heard up down verdict wasOpen =>
      exact ⟨s₀, mem₀, by simp, by simpa using owner, wasOpen, by simp⟩
  · exact absurd rfl (foreign newId q)

/-- A request that does not need a user's row leaves it as it is. -/
theorem other_keeps_user {now : Instant} {user : User} (foreign : ∀ newId q, e ≠ .authorize newId q)
    (free : uid ∉ e.userRows db) (found : db.users.find? uid = some user) :
    (e.commit cfg now db).users.find? uid = some user := by
  have change := user_change cfg now db uid e
  have key := Table.find?_key found
  rw [found] at change
  generalize (e.commit cfg now db).users.find? uid = is at change
  cases change with
  | deleted => exact absurd (by simp [Event.userRows]) free
  | moved e _ u' step =>
    cases step with
    | kept => rfl
    | started newId q => exact absurd rfl (foreign newId q)
    | heard q _ session opened mine | closed q _ session opened mine =>
      exact absurd (by simp [Event.userRows, opened, mine, key]) free
    | updated | reset | rotated => exact absurd (by simp [Event.userRows, key]) free

/-! ## The statements of a transaction -/

/-- A statement that only reads, or sweeps: the transaction after it. -/
inductive Transaction.Read (cfg : Settings) (others : List Transaction) (db : Database)
    (t : Transaction) : Transaction → Prop
  | sweeps (swept : List Id) (next : Statement) (early : ∀ user node, next ≠ .readSessions user node)
      (undecided : ∀ verdict seen, next ≠ .write verdict seen) (mine : t.swept ⊆ swept) :
      Read cfg others db t { t with swept := swept, next := next }
  | locks (free : ∀ o ∈ others, ¬ o.holds t.request.userId) :
      Read cfg others db t
        { t with user := db.users.find? t.request.userId, next := .readNode }
  | passes (user node) (mine : t.user = some user) :
      Read cfg others db t { t with next := .readSessions user node }
  | refuses (verdict) (denied : ∀ user node, verdict ≠ .admitted user node) :
      Read cfg others db t { t with next := .write verdict ∅ }
  | counts (user node) (here : t.next = .readSessions user node) :
      Read cfg others db t { t with
        next := .write (t.limit user node ((t.view db).openIps user.id))
          ((t.view db).openIps user.id) }

/-- **Everything a statement can do**: read and sweep, or commit. -/
theorem Transaction.advance_cases {rest : Option Transaction}
    (h : t.advance cfg others db = some (db', rest)) :
    (∃ t', rest = some t' ∧ db' = db ∧ t.Read cfg others db t') ∨
      ∃ verdict seen, t.next = .write verdict seen ∧ rest = none ∧ db' = t.commit db verdict := by
  unfold advance at h
  split at h
  case h_1 => cases h; exact .inl ⟨_, rfl, rfl, .sweeps _ _ (by simp) (by simp) (by simp)⟩
  case h_2 => cases h; exact .inl ⟨_, rfl, rfl, .sweeps _ _ (by simp) (by simp) (by simp)⟩
  case h_3 =>
    split at h
    · cases h
    · split at h
      · cases h; exact .inl ⟨_, rfl, rfl, .sweeps _ _ (by simp) (by simp) (by simp)⟩
      · cases h; exact .inl ⟨_, rfl, rfl, .sweeps _ _ (by simp) (by simp) (by simp)⟩
  case h_4 =>
    split at h
    · cases h
    · rename_i free
      cases h
      exact .inl ⟨_, rfl, rfl, .locks (by simpa using free)⟩
  case h_5 => cases h; exact .inl ⟨_, rfl, rfl, .sweeps _ _ (by simp) (by simp) (by simp)⟩
  case h_6 =>
    cases h
    refine .inl ⟨_, rfl, rfl, ?_⟩
    unfold route
    split
    · split
      · exact .refuses _ (by simp)
      · split
        · exact .refuses _ (by simp)
        · exact .passes _ _ ‹_›
    · exact .refuses _ (by simp)
  case h_7 => cases h; exact .inl ⟨_, rfl, rfl, .counts _ _ ‹_›⟩
  case h_8 => cases h; exact .inr ⟨_, _, ‹_›, rfl, rfl⟩

/-- **Everything a commit can do**: one that is not an admission opens no session and leaves
the users alone. -/
theorem Transaction.commit_cases (t : Transaction) (db : Database) (verdict : Verdict) :
    ((t.commit db verdict).users = db.users ∧ ∀ uid, Shrinks uid db (t.commit db verdict)) ∨
      ∃ user node, verdict = .admitted user node ∧
        admission t.newId t.now t.request (t.view db) = some (t.commit db verdict) := by
  cases verdict with
  | routeNotFound => exact .inl ⟨rfl, fun _ => shrinks_view⟩
  | notAllowed => exact .inl ⟨rfl, fun _ => shrinks_view⟩
  | ipLimit => exact .inl ⟨rfl, fun _ => shrinks_view⟩
  | admitted user node =>
    cases h : admission t.newId t.now t.request (t.view db) with
    | none => exact .inl ⟨by simp [commit, h], fun _ => shrinks_of_sessions (by simp [commit, h])⟩
    | some db' => exact .inr ⟨user, node, rfl, by simp [commit, h]⟩

/-- What an admission commits: the user's open addresses are those the transaction sees, and
its own; no other user's change. -/
theorem admission_openIps (h : admission t.newId t.now t.request (t.view db) = some db') :
    db'.openIps t.request.userId ⊆
        insert t.request.sourceIp ((t.view db).openIps t.request.userId) ∧
      ∀ uid, uid ≠ t.request.userId → Shrinks uid db db' := by
  have inserted := (admission_eq_some h).2.1
  constructor
  · intro ip hip
    obtain ⟨s, hs, owner, opened, rfl⟩ := mem_openIps.1 hip
    rw [Table.mem_insert inserted] at hs
    rcases hs with hs | rfl
    · exact Finset.mem_insert_of_mem (mem_openIps.2 ⟨s, hs, owner, opened, rfl⟩)
    · exact Finset.mem_insert_self _ _
  · intro uid other s hs owner opened
    rw [Table.mem_insert inserted] at hs
    rcases hs with hs | rfl
    · exact shrinks_view s hs owner opened
    · exact absurd owner.symm other

/-- The row of the admitted user afterwards; no other user's changes. -/
theorem admission_users (h : admission t.newId t.now t.request (t.view db) = some db') :
    (∀ user, db.users.find? t.request.userId = some user →
      db'.users.find? t.request.userId = some (user.start t.now)) ∧
    ∀ uid, uid ≠ t.request.userId → db'.users.find? uid = db.users.find? uid := by
  have users : db'.users = db.users.update (·.id = t.request.userId) (User.start t.now)
      (fun _ => User.start_id) := (admission_eq_some h).1
  constructor
  · intro user found
    rw [users, Table.find?_update, found]
    simp [Table.find?_key found]
  · intro uid other
    rw [users]
    exact Table.find?_update_of_key fun u hu hp => other (hu.symm.trans (of_decide_eq_true hp))

/-! ## The machine -/

/-- The store after a transaction has committed. -/
@[simps plane transactions] def Store.ended (s : Store) (t : Transaction) (verdict : Verdict) : Store where
  plane := { s.plane with db := t.commit s.plane.db verdict }
  transactions := s.others t.newId

/-- **Everything a step can do.** -/
inductive Store.Stepped (cfg : Settings) (s : Store) : Label → Store → Prop
  | other (e : Event) (p' : Plane) (foreign : ∀ newId q, e ≠ .authorize newId q) (free : ¬ s.blocks e)
      (step : (Model.plane cfg).step s.plane e = some p') :
      Stepped cfg s (.other e) { s with plane := p' }
  | begins (newId q) (fresh : newId ∉ s.plane.issued) : Stepped cfg s (.begins newId q)
      { plane := { s.plane with issued := newId :: s.plane.issued }
        transactions := { newId := newId, request := q, now := s.plane.now } :: s.transactions }
  | reads (t t' : Transaction) (found : s.transactions.find? (·.newId = t.newId) = some t)
      (read : t.Read cfg (s.others t.newId) s.plane.db t') :
      Stepped cfg s (.advance t.newId) { s with transactions := t' :: s.others t.newId }
  | commits (t : Transaction) (verdict seen)
      (found : s.transactions.find? (·.newId = t.newId) = some t)
      (next : t.next = .write verdict seen) :
      Stepped cfg s (.advance t.newId) (s.ended t verdict)
  | abort (newId : Id) : Stepped cfg s (.abort newId) { s with transactions := s.others newId }

theorem mem_others {newId : Id} :
    t ∈ s.others newId ↔ t ∈ s.transactions ∧ t.newId ≠ newId := by
  simp [Store.others]

theorem Store.step_inv {x : Label} (h : (store cfg).step s x = some s') : Stepped cfg s x s' := by
  cases x with
  | other e =>
    have foreign : ∀ newId q, e ≠ .authorize newId q := by
      rintro newId q rfl
      cases h
    have here : (if s.blocks e then none
        else ((Model.plane cfg).step s.plane e).map fun p => { s with plane := p }) = some s' := by
      cases e with
      | authorize newId q => exact absurd rfl (foreign newId q)
      | _ => exact h
    split at here
    · cases here
    · obtain ⟨p', step, rfl⟩ := Option.map_eq_some_iff.1 here
      exact .other e p' foreign ‹_› step
  | begins newId q =>
    simp only [store, Store.step] at h
    split at h
    · cases h
    · cases h; exact .begins newId q ‹_›
  | advance newId =>
    obtain ⟨t, found, h⟩ := Option.bind_eq_some_iff.1 h
    obtain ⟨⟨db, rest⟩, advanced, rfl⟩ := Option.map_eq_some_iff.1 h
    obtain rfl : t.newId = newId := by simpa using List.find?_some found
    rcases Transaction.advance_cases advanced with
      ⟨t', rfl, rfl, read⟩ | ⟨verdict, seen, next, rfl, rfl⟩
    · exact .reads t t' found read
    · exact .commits t verdict seen found next
  | abort newId => cases h; exact .abort newId

end Arena.Model
