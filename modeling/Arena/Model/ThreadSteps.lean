import Arena.Model.Frames
import Arena.Model.Threads

/-!
# Locks, and what they make of a request

What a request has read under its locks stays what the database holds, so that the commit of a
`heartbeat` or a `close` does what the request does as one step at that moment.
-/

namespace Arena.Model

open Arena.Lib

variable {cfg : Settings} {now : Instant} {db db' eb eb' : Database} {s s' : Threads} {c : Charge}
  {session : ConnectionSession} {user : User} {w : Work}

/-! ## Columns -/

@[simp] theorem written_self {α : Type} [DecidableEq α] {loaded assigned : α} :
    written loaded assigned loaded = assigned := by
  unfold written; split <;> simp_all

/-- A column that is assigned what was loaded. -/
@[simp] theorem written_same {α : Type} [DecidableEq α] {loaded current : α} :
    written loaded loaded current = current := by
  simp [written]

/-- Over the row that was loaded, an `UPDATE` writes the row that was assigned. -/
theorem User.flush_loaded {loaded assigned : User} (same : assigned.id = loaded.id) :
    User.flush loaded assigned loaded = assigned := by
  cases loaded; cases assigned
  cases same
  simp [User.flush]

theorem flushUser_users {loaded assigned : User} : (db.flushUser loaded assigned).users =
    db.users.update (·.id = loaded.id) (User.flush loaded assigned) (fun _ => User.flush_id) := rfl

/-! ## Charges as one step -/

def Charge.up : Charge → ℕ
  | .heartbeat p => p.uplinkDelta
  | .close p => p.uplinkDelta

def Charge.down : Charge → ℕ
  | .heartbeat p => p.downlinkDelta
  | .close p => p.downlinkDelta

/-- What a request that charges a session makes of its row. -/
def Charge.recorded (now : Instant) (user : User) : Charge → ConnectionSession → ConnectionSession
  | .heartbeat p => ConnectionSession.heard p.uplinkDelta p.downlinkDelta now
      (userAllowed (user.addTraffic p.uplinkDelta p.downlinkDelta) now)
  | .close p => ConnectionSession.closed p.uplinkDelta p.downlinkDelta now p.reason

/-- The request as one step, on a session that is not open. -/
theorem charge_absent (absent : db.openSession c.sessionId = none) : c.event.commit cfg now db = db := by
  cases c with
  | heartbeat p =>
    have none_open : db.openSession p.sessionId = none := absent
    simp [Charge.event, Event.commit, heartbeat, none_open]
  | close p =>
    rcases close_cases now p db with ⟨-, same⟩ | ⟨session, user, sid, charges⟩
    · exact same
    · have isOpen := charges.opened rfl
      rw [sid] at isOpen
      exact absurd (isOpen.symm.trans absent) (by simp)

/-- The request as one step, on an open session. -/
theorem charge_event (opened : db.openSession c.sessionId = some session)
    (owner : db.users.find? session.userId = some user) :
    Charges db (c.event.commit cfg now db) session user c.up c.down (c.recorded now user) := by
  -- the session and the user that a case names are these
  have these : ∀ {db' : Database} {session' user' up down f},
      Charges db db' session' user' up down f → session'.id = c.sessionId →
        session' = session ∧ user' = user := by
    intro db' session' user' up down f charges sid
    have found := charges.opened rfl
    rw [sid] at found
    obtain rfl : session' = session := Option.some.inj (found.symm.trans opened)
    exact ⟨rfl, Option.some.inj (charges.owner.symm.trans owner)⟩
  cases c with
  | heartbeat p =>
    rcases heartbeat_cases (Prod.mk.eta (p := heartbeat now p db)).symm with
      ⟨absent, -⟩ | ⟨session', user', verdict, sid, rfl, charges, -⟩
    · exact absurd (absent.symm.trans opened) (by simp)
    · obtain ⟨rfl, rfl⟩ := these charges sid
      exact charges
  | close p =>
    rcases close_cases now p db with ⟨absent, -⟩ | ⟨session', user', sid, charges⟩
    · exact absurd (absent.symm.trans opened) (by simp)
    · obtain ⟨rfl, rfl⟩ := these charges sid
      exact charges

/-- The commit of the statements, over the rows that were read. -/
theorem charge_commit (opened : db.openSession c.sessionId = some session)
    (owner : db.users.find? session.userId = some user) :
    Charges db (c.commit now session (some user) db) session user c.up c.down
      (c.recorded now user) := by
  obtain ⟨found, isOpen⟩ := openSession_eq_some_iff.1 opened
  have sid := Table.find?_key found
  have uid := Table.find?_key owner
  have found' : db.sessions.find? session.id = some session := sid ▸ found
  have owner' : db.users.find? user.id = some user := uid ▸ owner
  have users : (db.users.update (·.id = user.id) (User.flush user (user.addTraffic c.up c.down))
      fun _ => rfl) =
      db.users.update (·.id = session.userId) (User.addTraffic c.up c.down) fun _ => User.addTraffic_id := by
    rw [← uid]
    exact Table.update_key_congr owner' (User.flush_loaded rfl)
  -- the session row, by what the flush makes of the row that was read
  have sessions : ∀ {assigned : ConnectionSession} {f : ConnectionSession → ConnectionSession}
      {keeps : ∀ s, (f s).id = s.id}, ConnectionSession.flush session assigned session = f session →
      db.sessions.update (·.id = session.id) (ConnectionSession.flush session assigned) (fun _ => rfl) =
        db.sessions.update (·.id = session.id) f keeps :=
    fun same => Table.update_key_congr found' same
  cases c with
  | heartbeat p =>
    refine ⟨found', isOpen, owner, users, fun _ => ConnectionSession.heard_id, sessions ?_, rfl, rfl⟩
    simp only [Charge.recorded, ConnectionSession.heard]
    split <;> simp [ConnectionSession.flush, ConnectionSession.addTraffic, ConnectionSession.block]
  | close p =>
    refine ⟨found', isOpen, owner, users, fun _ => ConnectionSession.closed_id, sessions ?_, rfl, rfl⟩
    simp [Charge.recorded, ConnectionSession.closed, ConnectionSession.flush,
      ConnectionSession.addTraffic, ConnectionSession.closeAt]

/-! ## The inversion of a statement -/

/-- **Everything the next statement of a request can do**, by what the request is. -/
inductive Advanced (s : Threads) (w : Work) : Threads → Prop
  | locked (c : Charge) (session : ConnectionSession)
      (task : w.task = .charge c .lockSession)
      (free : s.sessionHeld w.request c.sessionId = false)
      (opened : s.plane.db.openSession c.sessionId = some session) :
      Advanced s w (s.goOn w.request (.charge c (.lockUser session)))
  | ended (c : Charge) (task : w.task = .charge c .lockSession)
      (absent : s.plane.db.openSession c.sessionId = none) :
      Advanced s w (s.finish w.request s.plane.db)
  | read (c : Charge) (session : ConnectionSession) (user : Option User)
      (task : w.task = .charge c (.lockUser session))
      (free : s.userHeld w.request session.userId = false)
      (owner : s.plane.db.users.find? session.userId = user) :
      Advanced s w (s.goOn w.request (.charge c (.write session user)))
  | orphan (c : Charge) (session : ConnectionSession)
      (task : w.task = .charge c (.lockUser session))
      (owner : s.plane.db.users.find? session.userId = none) :
      Advanced s w (s.finish w.request s.plane.db)
  | charged (c : Charge) (session : ConnectionSession) (user : Option User)
      (task : w.task = .charge c (.write session user)) :
      Advanced s w (s.finish w.request (c.commit s.plane.now session user s.plane.db))
  | refused (admin op loaded err) (task : w.task = .edit admin op loaded)
      (assigned : op.assign loaded = .error err) : Advanced s w (s.finish w.request s.plane.db)
  | kept (admin op loaded) (task : w.task = .edit admin op loaded)
      (assigned : op.assign loaded = .ok loaded) :
      Advanced s w { s.finish w.request (s.plane.db.addAudit (op.audit admin loaded.id)) with
        replies := ⟨op, loaded⟩ :: s.replies }
  | gone (admin op loaded assigned) (task : w.task = .edit admin op loaded)
      (assigns : op.assign loaded = .ok assigned) (differs : assigned ≠ loaded)
      (absent : s.plane.db.users.find? loaded.id = none) :
      Advanced s w (s.finish w.request s.plane.db)
  | wrote (admin op loaded assigned current) (task : w.task = .edit admin op loaded)
      (assigns : op.assign loaded = .ok assigned) (differs : assigned ≠ loaded)
      (free : s.userHeld w.request loaded.id = false)
      (found : s.plane.db.users.find? loaded.id = some current) :
      Advanced s w { s.finish w.request ((s.plane.db.flushUser loaded assigned).addAudit
          (op.audit admin loaded.id)) with replies := ⟨op, assigned⟩ :: s.replies }

theorem advance_inv {request : ℕ} (step : (threads cfg).step s (.advance request) = some s') :
    ∃ w, s.work.find? request = some w ∧ Advanced s w s' := by
  obtain ⟨w, found, step⟩ := Option.bind_eq_some_iff.1 step
  refine ⟨w, found, ?_⟩
  have key : w.request = request := Table.find?_key found
  subst key
  split at step
  · rename_i c next task
    cases next with
    | lockSession =>
      simp only [Threads.advanceCharge] at step
      split at step
      · cases step
      · rename_i free
        split at step
        · rename_i absent
          cases step
          exact .ended c task absent
        · rename_i session opened
          cases step
          exact .locked c session task (by simpa using free) opened
    | lockUser session =>
      simp only [Threads.advanceCharge] at step
      split at step
      · cases step
      · rename_i free
        split at step
        · rename_i owner
          cases step
          exact .orphan _ session task owner
        · cases step
          exact .read _ session _ task (by simpa using free) rfl
    | write session user =>
      cases step
      exact .charged c session user task
  · rename_i admin op loaded task
    simp only [Threads.commitEdit] at step
    split at step
    · rename_i err assigned
      cases step
      exact .refused admin op loaded err task assigned
    · rename_i assigned assigns
      split at step
      · rename_i same
        subst same
        cases step
        exact .kept admin op _ task assigns
      · rename_i differs
        split at step
        · cases step
        · rename_i free
          split at step
          · rename_i absent
            cases step
            exact .gone admin op loaded assigned task assigns differs absent
          · rename_i current found
            cases step
            exact .wrote admin op loaded assigned current task assigns differs (by simpa using free) found

/-- **Everything a step can do**, by its label. -/
inductive ThreadStep (cfg : Settings) (s : Threads) : Threads.Label → Threads → Prop
  | other (e : Event) (p : Plane) (whole : Threads.splits e = false)
      (moved : (plane cfg).step s.plane e = some p) (spares : s.spares p.db) :
      ThreadStep cfg s (.other e) { s with plane := p }
  | arrives (request : ℕ) (c : Charge) (work : Table Work.request)
      (inserted : s.work.insert? ⟨request, .charge c .lockSession⟩ = some work) :
      ThreadStep cfg s (.charge request c) { s with work := work }
  | notFound (request : ℕ) (admin : String) (userId : Id) (op : UserEdit)
      (absent : s.plane.db.users.find? userId = none) : ThreadStep cfg s (.edit request admin userId op) s
  | reads (request : ℕ) (admin : String) (op : UserEdit) (loaded : User) (work : Table Work.request)
      (present : s.plane.db.users.find? loaded.id = some loaded)
      (inserted : s.work.insert? ⟨request, .edit admin op loaded⟩ = some work) :
      ThreadStep cfg s (.edit request admin loaded.id op) { s with work := work }
  | advances (request : ℕ) (w : Work) (found : s.work.find? request = some w) (s' : Threads)
      (advanced : Advanced s w s') : ThreadStep cfg s (.advance request) s'

theorem threads_step {l : Threads.Label} (step : (threads cfg).step s l = some s') :
    ThreadStep cfg s l s' := by
  cases l with
  | other e =>
    simp only [threads, Threads.step] at step
    split at step
    · cases step
    · rename_i whole
      obtain ⟨p, moved, step⟩ := Option.bind_eq_some_iff.1 step
      split at step
      · rename_i spares
        cases step
        exact .other e p (by simpa using whole) moved spares
      · cases step
  | charge request c =>
    obtain ⟨work, inserted, rfl⟩ := Option.map_eq_some_iff.1 step
    exact .arrives request c work inserted
  | edit request admin userId op =>
    simp only [threads, Threads.step] at step
    split at step
    · rename_i absent
      cases step
      exact .notFound request admin userId op absent
    · rename_i loaded present
      obtain ⟨work, inserted, rfl⟩ := Option.map_eq_some_iff.1 step
      obtain rfl : loaded.id = userId := Table.find?_key present
      exact .reads request admin op loaded work present inserted
  | advance request =>
    obtain ⟨w, found, advanced⟩ := advance_inv step
    exact .advances request w found s' advanced

/-! ## The requests in flight -/

/-- What a request that goes on is, as long as its next task does not change it. -/
theorem goOn_map {β : Type} {g : Work → β} {request : ℕ} {task : Task}
    (found : s.work.find? request = some w) (same : g ⟨request, task⟩ = g w) :
    (s.goOn request task).work.rows.map g = s.work.rows.map g := by
  simp only [Threads.goOn, Table.update, List.map_map]
  refine List.map_congr_left fun x hx => ?_
  by_cases this : x.request = request
  · obtain rfl : x = w := Table.eq_of_key_eq hx (Table.find?_mem found)
      (this.trans (Table.find?_key found).symm)
    simp [this, same]
  · simp [this]

/-- The request that ends, and the others. -/
theorem finish_perm {request : ℕ} (found : s.work.find? request = some w) (db : Database) :
    s.work.rows.Perm (w :: (s.finish request db).work.rows) := Table.perm_delete_key found

/-! ## What a request has read -/

/-- What the task has read under its locks is what the database holds. -/
def Task.Reads (db : Database) : Task → Prop
  | .charge c (.lockUser session) => db.openSession c.sessionId = some session
  | .charge c (.write session user) => db.openSession c.sessionId = some session ∧
      ∃ owner, user = some owner ∧ db.users.find? session.userId = some owner
  | _ => True

/-- The two databases agree on the rows that the request holds. -/
structure Work.Spared (w : Work) (db db' : Database) : Prop where
  session : ∀ i, w.session = some i → db'.sessions.find? i = db.sessions.find? i
  user : ∀ i, w.user = some i → db'.users.find? i = db.users.find? i

theorem Work.Spared.refl : w.Spared db db := ⟨fun _ _ => rfl, fun _ _ => rfl⟩

/-- An open session has its identifier. -/
theorem openSession_id {i : Id} (opened : db.openSession i = some session) : session.id = i :=
  Table.find?_key (openSession_eq_some_iff.1 opened).1

/-- **The frame lemma**: what a request has read depends on the rows that it holds. -/
theorem Work.Spared.reads (spared : w.Spared db db') (reads : w.task.Reads db) : w.task.Reads db' := by
  have opens : ∀ {i : Id} {session : ConnectionSession}, w.session = some session.id →
      db.openSession i = some session → db'.openSession i = some session := by
    intro i session holds opened
    obtain rfl := openSession_id opened
    obtain ⟨found, isOpen⟩ := openSession_eq_some_iff.1 opened
    exact openSession_eq_some_iff.2 ⟨(spared.session _ holds).trans found, isOpen⟩
  obtain ⟨request, task⟩ := w
  cases task with
  | edit => trivial
  | charge c next =>
    cases next with
    | lockSession => trivial
    | lockUser session => exact opens rfl reads
    | write session user =>
      obtain ⟨opened, owner, rfl, found⟩ := reads
      refine ⟨opens rfl opened, owner, rfl, ?_⟩
      have uid := Table.find?_key found
      exact uid ▸ (spared.user owner.id rfl).trans (uid ▸ found)

/-- No two requests hold one row, of the rows that `holds` says. -/
def Sole (holds : Work → Option Id) (rows : List Work) : Prop :=
  ∀ w ∈ rows, ∀ w' ∈ rows, ∀ i, holds w = some i → holds w' = some i → w.request = w'.request

/-- **The invariant of the locks**: what a request has read is current, and no row is held by
two requests. -/
structure Held (s : Threads) : Prop where
  reads : ∀ w ∈ s.work.rows, w.task.Reads s.plane.db
  sessions : Sole Work.session s.work.rows
  users : Sole Work.user s.work.rows

theorem held_initial (plane : Plane) : Held (.initial plane) :=
  ⟨by simp [Threads.initial], by simp [Threads.initial, Sole], by simp [Threads.initial, Sole]⟩

/-- A request arrives; it holds nothing. -/
theorem Held.insert {work : Table Work.request} (held : Held s) (inserted : s.work.insert? w = some work)
    (reads : ∀ db, w.task.Reads db) (session : w.session = none) (user : w.user = none) :
    Held { s with work := work } := by
  have sole : ∀ {holds : Work → Option Id}, holds w = none → Sole holds s.work.rows →
      Sole holds work.rows := by
    intro holds nothing sole a memA b memB i holdsA holdsB
    rw [Table.mem_insert inserted] at memA memB
    rcases memA with memA | rfl
    · rcases memB with memB | rfl
      · exact sole a memA b memB i holdsA holdsB
      · simp [nothing] at holdsB
    · simp [nothing] at holdsA
  refine ⟨fun w' mem => ?_, sole session held.sessions, sole user held.users⟩
  rw [Table.mem_insert inserted] at mem
  rcases mem with mem | rfl
  · exact held.reads w' mem
  · exact reads _

/-- A request ends, and what it wrote spares the others. -/
theorem Held.finish {request : ℕ} (held : Held s)
    (spares : ∀ w ∈ s.work.rows, w.request ≠ request → w.Spared s.plane.db db') :
    Held (s.finish request db') := by
  have others : ∀ {w : Work}, w ∈ (s.finish request db').work.rows →
      w ∈ s.work.rows ∧ w.request ≠ request := by
    intro w mem
    simpa [Threads.finish] using Table.mem_delete.1 mem
  constructor
  · intro w mem
    obtain ⟨mem, other⟩ := others mem
    exact (spares w mem other).reads (held.reads w mem)
  · exact fun w mem w' mem' => held.sessions w (others mem).1 w' (others mem').1
  · exact fun w mem w' mem' => held.users w (others mem).1 w' (others mem').1

/-- A request goes on with a task whose reads are current and whose rows nobody else holds. -/
theorem Held.goOn {request : ℕ} {task : Task} (held : Held s) (reads : task.Reads s.plane.db)
    (session : ∀ i, (Work.mk request task).session = some i →
      ∀ w ∈ s.work.rows, w.session = some i → w.request = request)
    (user : ∀ i, (Work.mk request task).user = some i →
      ∀ w ∈ s.work.rows, w.user = some i → w.request = request) : Held (s.goOn request task) := by
  -- a row afterwards is this request at its next task, or another request
  have rows : ∀ {w : Work}, w ∈ (s.goOn request task).work.rows →
      w = ⟨request, task⟩ ∨ (w ∈ s.work.rows ∧ w.request ≠ request) := by
    intro w mem
    simp only [Threads.goOn, Table.mem_update] at mem
    obtain ⟨w₀, mem₀, rfl⟩ := mem
    by_cases this : w₀.request = request
    · subst this
      exact .inl (by simp)
    · exact .inr (by simpa [this] using mem₀)
  have sole : ∀ {holds : Work → Option Id}, Sole holds s.work.rows →
      (∀ i, holds ⟨request, task⟩ = some i → ∀ w ∈ s.work.rows, holds w = some i →
        w.request = request) → Sole holds (s.goOn request task).work.rows := by
    intro holds sole mine w mem w' mem' i holdsW holdsW'
    rcases rows mem with rfl | ⟨mem, -⟩
    · rcases rows mem' with rfl | ⟨mem', -⟩
      · rfl
      · exact (mine i holdsW w' mem' holdsW').symm
    · rcases rows mem' with rfl | ⟨mem', -⟩
      · exact mine i holdsW' w mem holdsW
      · exact sole w mem w' mem' i holdsW holdsW'
  refine ⟨fun w mem => ?_, sole held.sessions session, sole held.users user⟩
  rcases rows mem with rfl | ⟨mem, -⟩
  · exact reads
  · exact held.reads w mem

/-- Of the rows that nobody else holds, no other request holds one. -/
theorem not_sessionHeld {request : ℕ} {i : Id} (free : s.sessionHeld request i = false)
    (mem : w ∈ s.work.rows) (holds : w.session = some i) : w.request = request := by
  by_contra other
  simp only [Threads.sessionHeld, List.any_eq_false, Bool.and_eq_true, decide_eq_true_eq, not_and] at free
  exact free w mem other holds

theorem not_userHeld {request : ℕ} {i : Id} (free : s.userHeld request i = false)
    (mem : w ∈ s.work.rows) (holds : w.user = some i) : w.request = request := by
  by_contra other
  simp only [Threads.userHeld, List.any_eq_false, Bool.and_eq_true, decide_eq_true_eq, not_and] at free
  exact free w mem other holds

/-- A charge spares the requests that hold neither of its rows. -/
theorem Charges.spared {up down : ℕ} {f : ConnectionSession → ConnectionSession}
    (charges : Charges db db' session user up down f) (otherSession : w.session ≠ some session.id)
    (otherUser : w.user ≠ some user.id) : w.Spared db db' := by
  have uid := Table.find?_key charges.owner
  constructor
  · intro i holds
    rw [charges.sessions]
    refine Table.find?_update_of_key fun r key => ?_
    rw [decide_eq_true_eq]
    exact fun same => otherSession (holds.trans (congrArg some (key.symm.trans same)))
  · intro i holds
    rw [charges.users]
    refine Table.find?_update_of_key fun r key => ?_
    rw [decide_eq_true_eq]
    exact fun same => otherUser (holds.trans (congrArg some (key.symm.trans (same.trans uid.symm))))

/-- The `UPDATE` of a user spares the requests that do not hold its row. -/
theorem flushUser_spared {loaded assigned : User} (other : w.user ≠ some loaded.id) :
    w.Spared db (db.flushUser loaded assigned) := by
  refine ⟨fun _ _ => rfl, fun i holds => ?_⟩
  rw [flushUser_users]
  refine Table.find?_update_of_key fun r key => ?_
  rw [decide_eq_true_eq]
  exact fun same => other (holds.trans (congrArg some (key.symm.trans same)))

/-- The statements of the requests in flight keep the locks. -/
theorem Held.advanced {request : ℕ} (held : Held s) (found : s.work.find? request = some w)
    (advanced : Advanced s w s') : Held s' := by
  have mem := Table.find?_mem found
  have key := Table.find?_key found
  have reads := held.reads w mem
  have unchanged : Held (s.finish w.request s.plane.db) := held.finish fun _ _ _ => .refl
  cases advanced with
  | locked c session task free opened =>
    refine held.goOn opened (fun i holds w' mem' holds' => ?_) fun i holds => by cases holds
    obtain rfl : session.id = i := Option.some.inj holds
    exact not_sessionHeld free mem' (openSession_id opened ▸ holds')
  | ended => exact unchanged
  | read c session user task free owner =>
    rw [task] at reads
    obtain ⟨u, present⟩ := session_user (openSession_eq_some_iff.1 reads).1
    have uid := Table.find?_key present
    obtain rfl : user = some u := owner.symm.trans present
    refine held.goOn ⟨reads, u, rfl, present⟩ (fun i holds w' mem' holds' => ?_)
      fun i holds w' mem' holds' => ?_
    · exact held.sessions w' mem' w mem i holds' (by rw [Work.session, task]; exact holds)
    · obtain rfl : u.id = i := Option.some.inj holds
      exact not_userHeld free mem' (uid ▸ holds')
  | orphan => exact unchanged
  | charged c session user task =>
    rw [task] at reads
    obtain ⟨opened, u, rfl, owner⟩ := reads
    refine held.finish fun w' mem' other => (charge_commit opened owner).spared ?_ ?_
    · exact fun holds => other (held.sessions w' mem' w mem _ holds (by rw [Work.session, task]))
    · exact fun holds => other (held.users w' mem' w mem _ holds (by rw [Work.user, task]; rfl))
  | refused => exact unchanged
  | kept admin op loaded task assigned =>
    have ends : Held (s.finish w.request (s.plane.db.addAudit (op.audit admin loaded.id))) :=
      held.finish fun _ _ _ => ⟨fun _ _ => rfl, fun _ _ => rfl⟩
    exact ⟨ends.reads, ends.sessions, ends.users⟩
  | gone => exact unchanged
  | wrote admin op loaded assigned current task assigns differs free =>
    have ends : Held (s.finish w.request ((s.plane.db.flushUser loaded assigned).addAudit
        (op.audit admin loaded.id))) := by
      refine held.finish fun w' mem' other => ?_
      have spared : w'.Spared s.plane.db (s.plane.db.flushUser loaded assigned) :=
        flushUser_spared fun holds => other (not_userHeld free mem' holds)
      exact ⟨spared.session, spared.user⟩
    exact ⟨ends.reads, ends.sessions, ends.users⟩

/-- **The step lemma** of the locks. -/
theorem held_step {l : Threads.Label} (held : Held s) (step : (threads cfg).step s l = some s') :
    Held s' := by
  cases threads_step step with
  | other e p whole moved spares =>
    refine ⟨fun w mem => ?_, held.sessions, held.users⟩
    have spared := List.all_eq_true.1 spares w mem
    simp only [Bool.and_eq_true, Option.all_eq_true, decide_eq_true_eq] at spared
    exact Work.Spared.reads ⟨spared.1, spared.2⟩ (held.reads w mem)
  | arrives request c work inserted => exact held.insert inserted (fun _ => trivial) rfl rfl
  | notFound => exact held
  | reads request admin op loaded work present inserted =>
    exact held.insert inserted (fun _ => trivial) rfl rfl
  | advances request w found _ advanced => exact held.advanced found advanced

end Arena.Model
