import Mathlib.Data.List.Permutation
import Arena.Model.ThreadSteps

/-!
# Usage resets beside traffic

`heartbeat` and `close` lock the user before they read its counters; `reset_usage` reads them
without a lock and assigns zero to both, and the `UPDATE` at its commit leaves out a counter
that it read as zero. A counter that it read as zero and that has grown since stays, while the
other one is set to zero: no order of the requests gives that. `reset_serialisable`: as long as
no reset meets such a counter, the requests leave the users and the sessions as some order of
them does, one after another.
-/

namespace Arena.Reset

open Arena.Lib Arena.Model

variable {cfg : Settings} {now : Instant} {db db' eb : Database} {s s' : Threads} {w : Work}

/-- Resets and requests that charge sessions, and the passing of time. -/
def IsTraffic : Threads.Label → Bool
  | .other (.tick _) | .charge .. | .edit _ _ _ .resetUsage | .advance _ => true
  | _ => false

/-- The request that a label begins. -/
def begins : Threads.Label → Option Event
  | .charge _ c => some c.event
  | .edit _ admin userId op => some (.admin admin (op.on userId))
  | _ => none

/-- The requests one after another, each served at an instant of its own. -/
def serial (cfg : Settings) (db : Database) (order : List (Instant × Event)) : Database :=
  order.foldl (fun db r => r.2.commit cfg r.1 db) db

/-- The row still has zero where the reset read zero; or the reset read two zeros, and writes
nothing. -/
def resetsWhole (loaded current : User) : Bool :=
  loaded.resetUsage = loaded ||
    ((loaded.usedUpBytes ≠ 0 || current.usedUpBytes = 0) &&
      (loaded.usedDownBytes ≠ 0 || current.usedDownBytes = 0))

/-- A reset that commits now sets both counters to zero. -/
def wholeReset (s : Threads) : Threads.Label → Bool
  | .advance request => match s.work.find? request with
    | some ⟨_, .edit _ .resetUsage loaded⟩ =>
      (s.plane.db.users.find? loaded.id).all (resetsWhole loaded)
    | _ => true
  | _ => true

/-! ## Databases that agree on users and sessions -/

structure Agree (db eb : Database) : Prop where
  users : db.users = eb.users
  sessions : db.sessions = eb.sessions

theorem Agree.openSession (agree : Agree db eb) (i : Id) : db.openSession i = eb.openSession i := by
  simp only [Database.openSession, agree.sessions]

/-- Two charges with the same deltas, on databases that agree. -/
theorem Agree.charges {eb' : Database} {session : ConnectionSession} {user : User} {up down : ℕ}
    {f : ConnectionSession → ConnectionSession} (agree : Agree db eb)
    (charges : Charges db db' session user up down f)
    (charges' : Charges eb eb' session user up down f) : Agree db' eb' := by
  constructor
  · rw [charges.users, charges'.users, agree.users]
  · rw [charges.sessions, charges'.sessions, agree.sessions]

/-- A reset as one step. -/
theorem resetUsage_commit (cfg : Settings) (now : Instant) (db : Database) (admin : String) (i : Id) :
    Agree ((Event.admin admin (.resetUsage i)).commit cfg now db)
      (db.updateUsers (·.id = i) User.resetUsage fun _ => User.resetUsage_id) := by
  simp only [Event.commit, AdminOp.commit, Model.resetUsage]
  cases found : db.users.find? i with
  | none =>
    -- there is no row to assign to
    have absent : ∀ r, db.users.find? i = some r → r.resetUsage = r := by simp [found]
    have same : db.users.update (·.id = i) User.resetUsage (fun _ => User.resetUsage_id) = db.users :=
      Table.update_key_id absent
    have refused : getUser db i = .error (notFound "کاربر پیدا نشد") := by simp [getUser, found]
    rw [refused]
    exact ⟨same.symm, rfl⟩
  | some user =>
    rw [getUser_eq_ok.2 found]
    exact ⟨rfl, rfl⟩

/-- A reset of a user whose counters are zero, or of one that does not exist. -/
theorem resetUsage_idle {admin : String} {i : Id} (agree : Agree db eb)
    (zero : ∀ user, db.users.find? i = some user → user.resetUsage = user) :
    Agree db ((Event.admin admin (.resetUsage i)).commit cfg now eb) := by
  obtain ⟨users, sessions⟩ := resetUsage_commit cfg now eb admin i
  refine ⟨?_, agree.sessions.trans sessions.symm⟩
  rw [users, Database.updateUsers_users, ← agree.users]
  exact (Table.update_key_id zero).symm

/-- The `UPDATE` of a reset, over a row that it resets whole. -/
theorem flush_resetUsage {loaded current : User} (differs : loaded.resetUsage ≠ loaded)
    (whole : resetsWhole loaded current) :
    User.flush loaded loaded.resetUsage current = current.resetUsage := by
  simp only [resetsWhole, differs, decide_false, Bool.false_or, Bool.and_eq_true, Bool.or_eq_true,
    decide_eq_true_eq] at whole
  obtain ⟨up, down⟩ := whole
  have upWritten : written loaded.usedUpBytes 0 current.usedUpBytes = 0 := by
    unfold written; split <;> grind
  have downWritten : written loaded.usedDownBytes 0 current.usedDownBytes = 0 := by
    unfold written; split <;> grind
  simp [User.flush, User.resetUsage, upWritten, downWritten]

/-! ## The order in which the requests took effect -/

/-- A request in flight that has not taken effect. A reset that reads two zeros takes effect
there; any other request does so as it ends. -/
def unplaced (w : Work) : Option Event :=
  match w.task with
  | .edit _ .resetUsage loaded => if loaded.resetUsage = loaded then none else some w.event
  | _ => some w.event

/-- The database is what some order of the requests makes, the ones that wait left out. -/
def Explained (cfg : Settings) (db₀ : Database) (begun : List Event) (db : Database)
    (waiting : List Event) : Prop :=
  ∃ order : List (Instant × Event), Agree db (serial cfg db₀ order) ∧
    (order.map Prod.snd ++ waiting).Perm begun

variable {db₀ : Database} {begun waiting waiting' : List Event} {e : Event}

theorem Explained.arrives (before : Explained cfg db₀ begun db waiting) :
    Explained cfg db₀ (begun ++ [e]) db (waiting ++ [e]) := by
  obtain ⟨order, agree, same⟩ := before
  refine ⟨order, agree, ?_⟩
  rw [← List.append_assoc]
  exact same.append_right [e]

/-- A request that waited takes effect. -/
theorem Explained.served (before : Explained cfg db₀ begun db waiting)
    (first : waiting.Perm (e :: waiting'))
    (serves : ∀ eb, Agree db eb → Agree db' (e.commit cfg now eb)) :
    Explained cfg db₀ begun db' waiting' := by
  obtain ⟨order, agree, same⟩ := before
  refine ⟨order ++ [(now, e)], ?_, ?_⟩
  · rw [serial, List.foldl_append]
    exact serves _ agree
  · rw [List.map_append, List.append_assoc]
    exact ((first.append_left _).symm).trans same

/-- A request takes effect as it arrives. -/
theorem Explained.arrivesServed (now : Instant) (before : Explained cfg db₀ begun db waiting)
    (serves : ∀ eb, Agree db eb → Agree db' (e.commit cfg now eb)) :
    Explained cfg db₀ (begun ++ [e]) db' waiting :=
  before.arrives.served (List.perm_append_singleton e waiting) serves

theorem Explained.same (before : Explained cfg db₀ begun db waiting) (agree : Agree db' db)
    (same : waiting.Perm waiting') : Explained cfg db₀ begun db' waiting' := by
  obtain ⟨order, agree', perm⟩ := before
  exact ⟨order, ⟨agree.users.trans agree'.users, agree.sessions.trans agree'.sessions⟩,
    (same.symm.append_left _).trans perm⟩

/-- The requests that wait, after one that ended. -/
theorem unplaced_finish {request : ℕ} (found : s.work.find? request = some w) (db : Database) :
    (s.work.rows.filterMap unplaced).Perm
      ((unplaced w).toList ++ (s.finish request db).work.rows.filterMap unplaced) := by
  have split := (finish_perm found db).filterMap unplaced
  cases waits : unplaced w <;> simpa [List.filterMap_cons, waits] using split

/-- The requests that wait, after one went on as a charge. -/
theorem unplaced_goOn {request : ℕ} {c : Charge} {next next' : ChargeStatement}
    (found : s.work.find? request = some w) (task : w.task = .charge c next) :
    (s.goOn request (.charge c next')).work.rows.filterMap unplaced =
      s.work.rows.filterMap unplaced := by
  have same : unplaced ⟨request, .charge c next'⟩ = unplaced w := by simp [unplaced, task, Work.event]
  have mapped := congrArg (List.filterMap id) (goOn_map found same)
  simpa only [List.filterMap_map, Function.id_comp] using mapped

/-- **The invariant**: the locks hold, and the database is explained by the requests begun. -/
structure Ordered (cfg : Settings) (db₀ : Database) (begun : List Event) (s : Threads) : Prop where
  held : Held s
  resets : ∀ w ∈ s.work.rows, ∀ admin op loaded, w.task = .edit admin op loaded → op = .resetUsage
  explained : Explained cfg db₀ begun s.plane.db (s.work.rows.filterMap unplaced)

theorem ordered_initial (plane : Plane) : Ordered cfg plane.db [] (.initial plane) :=
  ⟨held_initial plane, by simp [Threads.initial], [], ⟨rfl, rfl⟩, .refl _⟩

/-- A statement of a request in flight. -/
theorem Ordered.advanced {request : ℕ} (before : Ordered cfg db₀ begun s)
    (found : s.work.find? request = some w) (whole : wholeReset s (.advance request))
    (advanced : Advanced s w s') :
    Explained cfg db₀ begun s'.plane.db (s'.work.rows.filterMap unplaced) := by
  obtain ⟨held, resets, explained⟩ := before
  have mem := Table.find?_mem found
  obtain rfl : w.request = request := Table.find?_key found
  have reads := held.reads w mem
  -- a request that waits is served as it ends
  have ends : ∀ {db' : Database}, unplaced w = some w.event →
      (∀ eb, Agree s.plane.db eb → Agree db' (w.event.commit cfg s.plane.now eb)) →
      Explained cfg db₀ begun db' ((s.finish w.request db').work.rows.filterMap unplaced) :=
    fun waits serves => explained.served (by simpa [waits] using unplaced_finish found _) serves
  cases advanced with
  | locked c session task => exact unplaced_goOn found task ▸ explained
  | read c session user task => exact unplaced_goOn found task ▸ explained
  | ended c task absent =>
    refine ends (by simp [unplaced, task]) fun eb agree => ?_
    have same : w.event.commit cfg s.plane.now eb = eb := by
      simp only [Work.event, task]
      exact charge_absent (agree.openSession _ ▸ absent)
    exact same.symm ▸ agree
  | orphan c session task owner =>
    -- the foreign key
    rw [task] at reads
    obtain ⟨u, present⟩ := session_user (openSession_eq_some_iff.1 reads).1
    exact absurd (owner.symm.trans present) (by simp)
  | charged c session user task =>
    rw [task] at reads
    obtain ⟨opened, u, rfl, owner⟩ := reads
    refine ends (by simp [unplaced, task]) fun eb agree => ?_
    simp only [Work.event, task]
    exact agree.charges (charge_commit opened owner)
      (charge_event (agree.openSession _ ▸ opened) (agree.users ▸ owner))
  | refused admin op loaded err task assigned =>
    obtain rfl := resets w mem admin op loaded task
    cases assigned
  | kept admin op loaded task assigned =>
    obtain rfl := resets w mem admin op loaded task
    have idle : loaded.resetUsage = loaded := by simpa [UserEdit.assign] using assigned
    have placed : unplaced w = none := by simp [unplaced, task, idle]
    exact explained.same ⟨rfl, rfl⟩ (by simpa [placed] using unplaced_finish found _)
  | gone admin op loaded assigned task assigns differs absent =>
    obtain rfl := resets w mem admin op loaded task
    obtain rfl : loaded.resetUsage = assigned := by simpa [UserEdit.assign] using assigns
    refine ends (by simp [unplaced, task, differs]) fun eb agree => ?_
    simp only [Work.event, task]
    exact resetUsage_idle agree fun user present => absurd (absent.symm.trans present) (by simp)
  | wrote admin op loaded assigned current task assigns differs free found' =>
    obtain rfl := resets w mem admin op loaded task
    obtain rfl : loaded.resetUsage = assigned := by simpa [UserEdit.assign] using assigns
    have sets : resetsWhole loaded current := by
      obtain ⟨request, _⟩ := w
      obtain rfl := task
      simpa [wholeReset, found, found'] using whole
    refine ends (by simp [unplaced, task, differs]) fun eb agree => ?_
    simp only [Work.event, task]
    obtain ⟨users, sessions⟩ := resetUsage_commit cfg s.plane.now eb admin loaded.id
    have write : (s.plane.db.flushUser loaded loaded.resetUsage).users =
        eb.users.update (·.id = loaded.id) User.resetUsage fun _ => User.resetUsage_id := by
      rw [flushUser_users, ← agree.users]
      exact Table.update_key_congr found' (flush_resetUsage differs sets)
    exact ⟨write.trans users.symm, agree.sessions.trans sessions.symm⟩

/-- The edits in flight were in flight before. -/
theorem edit_advanced {admin : String} {op : UserEdit} {loaded : User} {w' : Work}
    (advanced : Advanced s w s') (mem : w' ∈ s'.work.rows) (task : w'.task = .edit admin op loaded) :
    w' ∈ s.work.rows := by
  have ended : w' ∈ (s.work.delete (·.request = w.request)).rows → w' ∈ s.work.rows :=
    fun mem => (Table.mem_delete.1 mem).1
  have wentOn : ∀ {c : Charge} {next : ChargeStatement},
      w' ∈ (s.goOn w.request (.charge c next)).work.rows → w' ∈ s.work.rows := by
    intro c next mem
    simp only [Threads.goOn, Table.mem_update] at mem
    obtain ⟨w₀, mem₀, rfl⟩ := mem
    by_cases this : w₀.request = w.request
    · simp [this] at task
    · simpa [this] using mem₀
  cases advanced with
  | locked | read => exact wentOn mem
  | _ => exact ended mem

/-- A reset or a charge arrives. -/
theorem resets_insert {work : Table Work.request} (inserted : s.work.insert? w = some work)
    (before : ∀ w ∈ s.work.rows, ∀ admin op loaded, w.task = .edit admin op loaded → op = .resetUsage)
    (new : ∀ admin op loaded, w.task = .edit admin op loaded → op = .resetUsage) :
    ∀ w ∈ work.rows, ∀ admin op loaded, w.task = .edit admin op loaded → op = .resetUsage := by
  intro w' mem
  rcases (Table.mem_insert inserted).1 mem with mem | rfl
  · exact before w' mem
  · exact new

/-- **The step lemma.** -/
theorem ordered_step {l : Threads.Label} (before : Ordered cfg db₀ begun s) (traffic : IsTraffic l)
    (whole : wholeReset s l) (step : (threads cfg).step s l = some s') :
    Ordered cfg db₀ (begun ++ (begins l).toList) s' := by
  have held := held_step before.held step
  cases threads_step step with
  | other e p _ moved =>
    -- only time passes
    cases e <;> simp only [IsTraffic, Bool.false_eq_true] at traffic
    obtain ⟨-, rfl⟩ := plane_step.1 moved
    exact ⟨held, before.resets, by simpa [begins, Event.commit] using before.explained⟩
  | arrives request c work inserted =>
    have rows := (Table.insert?_eq_some_iff.1 inserted).2
    refine ⟨held, resets_insert inserted before.resets fun _ _ _ task => ?_, ?_⟩
    · cases task
    · simp only [rows, List.filterMap_append]
      exact before.explained.arrives
  | notFound request admin userId op absent =>
    cases op with
    | update | rotateSubscription => cases traffic
    | resetUsage =>
      exact ⟨held, before.resets, before.explained.arrivesServed s.plane.now fun eb agree =>
        resetUsage_idle agree fun user present => absurd (absent.symm.trans present) (by simp)⟩
  | reads request admin op loaded work present inserted =>
    cases op with
    | update | rotateSubscription => cases traffic
    | resetUsage =>
      have rows := (Table.insert?_eq_some_iff.1 inserted).2
      refine ⟨held, resets_insert inserted before.resets fun _ _ _ task => ?_, ?_⟩
      · cases task
        rfl
      · simp only [rows, List.filterMap_append]
        by_cases idle : loaded.resetUsage = loaded
        · -- it reads two zeros
          simp only [unplaced, idle, if_true, List.filterMap_cons, List.filterMap_nil, List.append_nil]
          refine before.explained.arrivesServed s.plane.now fun eb agree =>
            resetUsage_idle agree fun user found => ?_
          obtain rfl : loaded = user := Option.some.inj (present.symm.trans found)
          exact idle
        · have waits : unplaced ⟨request, .edit admin .resetUsage loaded⟩ =
              some (.admin admin (.resetUsage loaded.id)) := by
            simp [unplaced, idle, Work.event, UserEdit.on]
          simp only [List.filterMap_cons, waits, List.filterMap_nil]
          exact before.explained.arrives
  | advances request w found _ advanced =>
    exact ⟨held, fun w' mem admin op loaded task =>
      before.resets w' (edit_advanced advanced mem task) admin op loaded task,
      by simpa [begins] using before.advanced found whole advanced⟩

/-- **The run lemma.** -/
theorem ordered_run {p₀ : Plane} {labels : List Threads.Label} (traffic : ∀ l ∈ labels, IsTraffic l)
    (whole : (threads cfg).Along (fun s l => wholeReset s l) (.initial p₀) labels)
    (run : (threads cfg).run (.initial p₀) labels = some s) :
    Ordered cfg p₀.db (labels.filterMap begins) s := by
  refine Machine.history_invariant (I := fun labels => Ordered cfg p₀.db (labels.filterMap begins))
    (ordered_initial p₀) (fun {labels l t t'} _ before ok step => ?_)
    ((Machine.along_of_mem traffic (Threads.initial p₀)).and whole) run
  have begun : (labels ++ [l]).filterMap begins = labels.filterMap begins ++ (begins l).toList := by
    cases ready : begins l <;> simp [List.filterMap_append, ready]
  exact begun ▸ ordered_step before ok.1 ok.2 step

/-- **Resets that reset whole are serialisable with traffic**: when every request has ended, the
users and the sessions are those of the same requests one after another, in some order. -/
theorem reset_serialisable (cfg : Settings) (p₀ : Plane) (labels : List Threads.Label) (s : Threads)
    (traffic : ∀ l ∈ labels, IsTraffic l)
    (whole : (threads cfg).Along (fun s l => wholeReset s l) (.initial p₀) labels)
    (run : (threads cfg).run (.initial p₀) labels = some s) (done : s.work.rows = []) :
    ∃ order : List (Instant × Event), (order.map Prod.snd).Perm (labels.filterMap begins) ∧
      s.plane.db.users = (serial cfg p₀.db order).users ∧
      s.plane.db.sessions = (serial cfg p₀.db order).sessions := by
  obtain ⟨order, agree, same⟩ := (ordered_run traffic whole run).explained
  rw [done, List.filterMap_nil, List.append_nil] at same
  exact ⟨order, same, agree.users, agree.sessions⟩

/-! ## A heartbeat beside a reset -/

/-- The two counters of a user. -/
def counters (db : Database) (i : Id) : Option (ℕ × ℕ) :=
  (db.users.find? i).map fun u => (u.usedUpBytes, u.usedDownBytes)

def beat : GatewayHeartbeat := { sessionId := "session", uplinkDelta := 50, downlinkDelta := 70 }

/-- A reset reads the user, a heartbeat runs, and the reset commits. -/
def resetBesideBeat : List Threads.Label :=
  [.edit 1 "admin" "user" .resetUsage, .charge 2 (.heartbeat beat), .advance 2, .advance 2, .advance 2,
    .advance 1]

/-- Both counters have grown before the reset reads them. -/
theorem reset_serialisable_first_connection :
    ∃ p₀ s order, (plane {}).run (.initial 0) firstConnection = some p₀ ∧
      (threads {}).run (.initial p₀) resetBesideBeat = some s ∧
      counters p₀.db "user" = some (120, 880) ∧ counters s.plane.db "user" = some (0, 0) ∧
      (order.map Prod.snd).Perm [.admin "admin" (.resetUsage "user"), .heartbeat beat] ∧
      s.plane.db.users = (serial {} p₀.db order).users := by
  obtain ⟨p₀, reached, facts⟩ := (Option.any_eq_true _ _).1
    (by decide +kernel : ((plane {}).run (.initial 0) firstConnection).any fun p₀ =>
      counters p₀.db "user" = some (120, 880) &&
      (threads {}).Along (fun s l => wholeReset s l) (.initial p₀) resetBesideBeat &&
      (((threads {}).run (.initial p₀) resetBesideBeat).any fun s =>
        s.work.rows.isEmpty && counters s.plane.db "user" = some (0, 0)))
  simp only [Bool.and_eq_true, Option.any_eq_true, decide_eq_true_eq,
    List.isEmpty_iff] at facts
  obtain ⟨⟨before, whole⟩, s, run, done, after⟩ := facts
  obtain ⟨order, same, users, -⟩ := reset_serialisable {} p₀ resetBesideBeat s
    (by simp [resetBesideBeat, IsTraffic]) whole run done
  exact ⟨p₀, s, order, reached, run, before, after, same, users⟩

theorem counters_reset (cfg : Settings) (now : Instant) {admin : String} {i : Id} :
    counters ((Event.admin admin (.resetUsage i)).commit cfg now db) i =
      (counters db i).map fun _ => (0, 0) := by
  rw [counters, (resetUsage_commit cfg now db admin i).users, Database.updateUsers_users, Table.find?_update, counters]
  cases found : db.users.find? i with
  | none => rfl
  | some user => simp [Table.find?_key found, User.resetUsage]

theorem counters_charge {c : Charge} {session : ConnectionSession}
    (opened : db.openSession c.sessionId = some session) :
    counters (c.event.commit cfg now db) session.userId =
      (counters db session.userId).map fun (up, down) => (up + c.up, down + c.down) := by
  obtain ⟨user, owner⟩ := session_user (openSession_eq_some_iff.1 opened).1
  rw [counters, (charge_event opened owner).users, Table.find?_update, counters, owner]
  simp [Table.find?_key owner]

/-- Two requests are served in either order. -/
theorem two_served {a b : Event} {order : List (Instant × Event)}
    (same : (order.map Prod.snd).Perm [a, b]) :
    (∃ t t', order = [(t, a), (t', b)]) ∨ ∃ t t', order = [(t, b), (t', a)] := by
  have served : ∀ {x y : Event}, order.map Prod.snd = [x, y] → ∃ t t', order = [(t, x), (t', y)] := by
    intro x y pair
    obtain ⟨⟨t, _⟩, rest, rfl, rfl, pair'⟩ := List.map_eq_cons_iff.1 pair
    obtain ⟨⟨t', _⟩, rest', rfl, rfl, nil⟩ := List.map_eq_cons_iff.1 pair'
    obtain rfl := List.map_eq_nil_iff.1 nil
    exact ⟨t, t', rfl⟩
  exact (List.perm_pair.1 same).imp served served

/-- A connection that has only downloaded. -/
def downloads : List Event :=
  firstConnection.take 3 ++ [.heartbeat { sessionId := "session", downlinkDelta := 100 }]

/-- The reset reads no upload and 100 bytes of download, and sets only the download to zero. The
upload of the heartbeat stays, and its download is lost. -/
theorem reset_splits_counters :
    ¬ ∀ (p₀ : Plane) (labels : List Threads.Label) (s : Threads),
      (plane {}).Reaches (.initial 0) p₀ → (∀ l ∈ labels, IsTraffic l) →
      (threads {}).run (.initial p₀) labels = some s → s.work.rows = [] →
      ∃ order : List (Instant × Event), (order.map Prod.snd).Perm (labels.filterMap begins) ∧
        ∀ i, counters s.plane.db i = counters (serial {} p₀.db order) i := by
  intro claim
  obtain ⟨p₀, reached, facts⟩ := (Option.any_eq_true _ _).1
    (by decide +kernel : ((plane {}).run (.initial 0) downloads).any fun p₀ =>
      counters p₀.db "user" = some (0, 100) &&
      ((p₀.db.openSession "session").any fun session => session.userId = "user") &&
      (((threads {}).run (.initial p₀) resetBesideBeat).any fun s =>
        s.work.rows.isEmpty && counters s.plane.db "user" = some (50, 0)))
  simp only [Bool.and_eq_true, Option.any_eq_true, decide_eq_true_eq,
    List.isEmpty_iff] at facts
  obtain ⟨⟨before, session, opened, mine⟩, s, run, done, after⟩ := facts
  obtain ⟨order, same, counts⟩ := claim p₀ resetBesideBeat s ⟨_, reached⟩
    (by simp [resetBesideBeat, IsTraffic]) run done
  have counts := (counts "user").symm.trans after
  have heard : ∀ {db : Database} (now : Instant), db.sessions = p₀.db.sessions →
      counters ((Charge.heartbeat beat).event.commit {} now db) "user" =
        (counters db "user").map fun (up, down) => (up + 50, down + 70) := by
    intro db now sessions
    have opened' : db.openSession "session" = some session := by
      rw [Database.openSession, sessions]
      exact opened
    exact mine ▸ counters_charge opened'
  rcases two_served same with ⟨t, t', rfl⟩ | ⟨t, t', rfl⟩
  · have reset := resetUsage_commit {} t p₀.db "admin" "user"
    have final := (heard t' reset.sessions).symm.trans counts
    rw [counters_reset, before] at final
    exact absurd final (by decide)
  · have final := (counters_reset {} t').symm.trans counts
    rw [show counters ((Charge.heartbeat beat).event.commit {} t p₀.db) "user" = _ from heard t rfl,
      before] at final
    exact absurd final (by decide)

end Arena.Reset
