import Arena.Model.Patches
import Arena.Model.Responses
import Arena.Model.ThreadSteps
import Arena.Model.UserRow
import Arena.Tokens

/-!
# Subscription rotations side by side

`rotate_subscription` reads the user without a lock, adds one to the version it read and writes
that. Two requests that read the same version write the same version: it grows by one, and both
responses show the same URL. `rotation_revokes`: as long as every rotation commits over the
version that it read, each one adds one to the version, the URLs are pairwise distinct, and no
token of an earlier version is accepted from then on.
-/

namespace Arena.Rotation

open Arena.Lib Arena.Model

variable {cfg : Settings} {uid : Id} {s s' : Threads} {l : Threads.Label} {w : Work} {db : Database}

/-- A response to a rotation for this user. -/
def rotates (uid : Id) (r : EditReply) : Bool :=
  match r.op with
  | .rotateSubscription => r.user.id = uid
  | _ => false

/-- The responses to rotations for this user, the latest first. -/
def answered (uid : Id) (s : Threads) : List EditReply := s.replies.filter (rotates uid)

/-- A rotation for this user, in flight. -/
def rotating (uid : Id) (w : Work) : Bool :=
  match w.task with
  | .edit _ .rotateSubscription loaded => loaded.id = uid
  | _ => false

def inFlight (uid : Id) (s : Threads) : ℕ := s.work.rows.countP (rotating uid)

/-- A rotation for this user arrives. -/
def asks (uid : Id) : Threads.Label → Bool
  | .edit _ _ userId .rotateSubscription => userId = uid
  | _ => false

/-- A rotation that commits now finds the version that it read. -/
def currentRotation (s : Threads) : Threads.Label → Bool
  | .advance request => match s.work.find? request with
    | some ⟨_, .edit _ .rotateSubscription loaded⟩ =>
      (s.plane.db.users.find? loaded.id).all (·.subscriptionVersion = loaded.subscriptionVersion)
    | _ => true
  | _ => true

/-- The version of the user, while the user exists. -/
def version (s : Threads) (uid : Id) : Option ℕ :=
  (s.plane.db.users.find? uid).map User.subscriptionVersion

/-! ## What a step does to a version -/

/-- **Everything a step can do** to the version of a user and to its rotations. -/
inductive VersionStep (uid : Id) (s : Threads) (l : Threads.Label) (s' : Threads) : Prop
  | kept (v : ℕ) (before : version s uid = some v) (after : version s' uid = some v)
      (same : answered uid s' = answered uid s)
      (flight : inFlight uid s' = inFlight uid s + (asks uid l).toNat)
  | rotated (loaded : User) (mine : loaded.id = uid) (v : ℕ) (before : version s uid = some v)
      (current : currentRotation s l → v = loaded.subscriptionVersion)
      (after : version s' uid = some (loaded.subscriptionVersion + 1))
      (reply : answered uid s' = ⟨.rotateSubscription, loaded.rotate⟩ :: answered uid s)
      (flight : inFlight uid s' + 1 = inFlight uid s) (quiet : asks uid l = false)
  | absent (after : version s' uid = none) (same : answered uid s' = answered uid s)
  | created (before : version s uid = none) (new : uid ∉ s.plane.issued)
      (drawn : uid ∈ s'.plane.issued) (same : answered uid s' = answered uid s)

/-- A step that leaves the version. -/
theorem VersionStep.of_same (versions : version s' uid = version s uid)
    (same : answered uid s' = answered uid s)
    (flight : (version s uid).isSome → inFlight uid s' = inFlight uid s + (asks uid l).toNat) :
    VersionStep uid s l s' := by
  cases before : version s uid with
  | none => exact .absent (versions.trans before) same
  | some v => exact .kept v before (versions.trans before) same (flight (by simp [before]))

theorem inFlight_goOn {request : ℕ} {c : Charge} {next next' : ChargeStatement}
    (found : s.work.find? request = some w) (task : w.task = .charge c next) :
    inFlight uid (s.goOn request (.charge c next')) = inFlight uid s := by
  have same : rotating uid ⟨request, .charge c next'⟩ = rotating uid w := by simp [rotating, task]
  have mapped := congrArg (List.countP id) (goOn_map found same)
  simpa only [List.countP_map, Function.id_comp, inFlight] using mapped

theorem inFlight_finish {request : ℕ} (uid : Id) (found : s.work.find? request = some w) (db : Database) :
    inFlight uid (s.finish request db) + (rotating uid w).toNat = inFlight uid s := by
  rw [inFlight, inFlight, (finish_perm found db).countP_eq, List.countP_cons]
  cases rotating uid w <;> rfl

/-- The `UPDATE` of a user that leaves the version, or of another user. -/
theorem flushUser_version {loaded assigned : User}
    (keeps : loaded.id = uid → assigned.subscriptionVersion = loaded.subscriptionVersion) :
    ((db.flushUser loaded assigned).users.find? uid).map User.subscriptionVersion =
      (db.users.find? uid).map User.subscriptionVersion := by
  rw [flushUser_users, Table.find?_update]
  cases found : db.users.find? uid with
  | none => rfl
  | some u =>
    by_cases mine : u.id = loaded.id
    · have kept := keeps (mine.symm.trans (Table.find?_key found))
      simp [mine, User.flush, kept]
    · simp [mine]

/-- A charge leaves every version. -/
theorem charge_version {c : Charge} {now : Instant} {session : ConnectionSession} {user : Option User} :
    ((c.commit now session user db).users.find? uid).map User.subscriptionVersion =
      (db.users.find? uid).map User.subscriptionVersion := by
  cases c <;> cases user <;> first | rfl | exact flushUser_version fun _ => rfl

theorem patchUser_keeps {p : UserUpdate} {loaded assigned : User} (h : patchUser p loaded = .ok assigned) :
    assigned.id = loaded.id ∧ assigned.subscriptionVersion = loaded.subscriptionVersion := by
  obtain ⟨-, rfl⟩ := patchUser_eq_ok.1 h
  exact ⟨rfl, rfl⟩

theorem assign_id {op : UserEdit} {loaded assigned : User} (assigns : op.assign loaded = .ok assigned) :
    assigned.id = loaded.id := by
  cases op with
  | update p => exact (patchUser_keeps assigns).1
  | resetUsage | rotateSubscription => cases assigns; rfl

/-- `update_user` and `reset_usage` leave the version. -/
theorem assign_version {op : UserEdit} {loaded assigned : User} (assigns : op.assign loaded = .ok assigned)
    (other : op ≠ .rotateSubscription) : assigned.subscriptionVersion = loaded.subscriptionVersion := by
  cases op with
  | update p => exact (patchUser_keeps assigns).2
  | resetUsage => cases assigns; rfl
  | rotateSubscription => exact absurd rfl other

/-- A request that is not a rotation for this user ends. -/
theorem ends_otherwise {request : ℕ} {db' : Database} {replies : List EditReply} (uid : Id)
    (found : s.work.find? request = some w) (other : rotating uid w = false)
    (versions : (db'.users.find? uid).map User.subscriptionVersion = version s uid)
    (same : replies.filter (rotates uid) = answered uid s) :
    VersionStep uid s (.advance request) { s.finish request db' with replies := replies } := by
  refine .of_same versions same fun _ => ?_
  have counts := inFlight_finish uid found db'
  rw [other] at counts
  exact counts

theorem advanced_version {request : ℕ} (uid : Id) (found : s.work.find? request = some w)
    (advanced : Advanced s w s') : VersionStep uid s (.advance request) s' := by
  obtain rfl : w.request = request := Table.find?_key found
  -- an edit of another kind, and its response
  have others : ∀ {admin : String} {op : UserEdit} {loaded : User}, w.task = .edit admin op loaded →
      (op = .rotateSubscription → loaded.id ≠ uid) → rotating uid w = false := by
    intro admin op loaded task other
    cases op <;> simp_all [rotating]
  have unlogged : ∀ {op : UserEdit} {assigned : User}, (op = .rotateSubscription → assigned.id ≠ uid) →
      (⟨op, assigned⟩ :: s.replies : List EditReply).filter (rotates uid) = answered uid s := by
    intro op assigned other
    cases op <;> simp_all [answered, rotates]
  cases advanced with
  | locked c session task | read c session user task =>
    exact .of_same rfl rfl fun _ => inFlight_goOn found task
  | ended c task | orphan c session task =>
    exact ends_otherwise uid found (by simp [rotating, task]) rfl rfl
  | charged c session user task =>
    exact ends_otherwise uid found (by simp [rotating, task]) charge_version rfl
  | refused admin op loaded err task assigned =>
    have other : op ≠ .rotateSubscription := by rintro rfl; cases assigned
    exact ends_otherwise uid found (others task fun h => absurd h other) rfl rfl
  | kept admin op loaded task assigned =>
    have other : op ≠ .rotateSubscription := by
      rintro rfl
      have same := congrArg User.subscriptionVersion (Except.ok.inj assigned)
      simp [User.rotate] at same
    exact ends_otherwise uid found (others task fun h => absurd h other) rfl
      (unlogged fun h => absurd h other)
  | gone admin op loaded assigned task assigns differs absent =>
    by_cases mine : loaded.id = uid
    · subst mine
      exact .absent (by simp [version, Threads.finish, absent]) rfl
    · exact ends_otherwise uid found (others task fun _ => mine) rfl rfl
  | wrote admin op loaded assigned current task assigns differs free found' =>
    by_cases mine : op = .rotateSubscription ∧ loaded.id = uid
    · obtain ⟨rfl, rfl⟩ := mine
      obtain rfl : loaded.rotate = assigned := Except.ok.inj assigns
      refine .rotated loaded rfl current.subscriptionVersion (by simp [version, found']) ?_ ?_ ?_ ?_ rfl
      · intro fits
        obtain ⟨request, _⟩ := w
        obtain rfl := task
        simpa [currentRotation, found, found'] using fits
      · have write : (s.plane.db.flushUser loaded loaded.rotate).users.find? loaded.id =
            some (User.flush loaded loaded.rotate current) := by
          rw [flushUser_users, Table.find?_update, found']
          simp [Table.find?_key found']
        have grown : (User.flush loaded loaded.rotate current).subscriptionVersion =
            loaded.subscriptionVersion + 1 := by simp [User.flush, User.rotate, written]
        exact (congrArg (Option.map User.subscriptionVersion) write).trans (congrArg some grown)
      · simp [answered, rotates]
      · have counts := inFlight_finish loaded.id found
          ((s.plane.db.flushUser loaded loaded.rotate).addAudit
            (UserEdit.rotateSubscription.audit admin loaded.id))
        have this : rotating loaded.id w = true := by simp [rotating, task]
        rw [this] at counts
        exact counts
    · have other : op = .rotateSubscription → loaded.id ≠ uid := fun h same => mine ⟨h, same⟩
      have same : assigned.id = loaded.id := assign_id assigns
      refine ends_otherwise uid found (others task other) ?_ (unlogged (same ▸ other))
      refine flushUser_version fun mine => ?_
      exact assign_version assigns fun h => other h mine

/-- A request of another kind, start-up and the passing of time. -/
theorem plane_version {p : Plane} {e : Event} (uid : Id) (whole : Threads.splits e = false)
    (step : (plane cfg).step s.plane e = some p) :
    VersionStep uid s (.other e) { s with plane := p } := by
  obtain ⟨fresh, rfl⟩ := plane_step.1 step
  have change := user_change cfg s.plane.now s.plane.db uid e
  generalize before : s.plane.db.users.find? uid = row at change
  generalize after : (e.commit cfg s.plane.now s.plane.db).users.find? uid = row' at change
  have versions : version s uid = row.map User.subscriptionVersion := by rw [version, before]
  cases change with
  | absent => exact .absent (by simp [version, after]) rfl
  | deleted => exact .absent (by simp [version, after]) rfl
  | created name material p =>
    exact .created versions (fresh uid (by simp [Event.draws, AdminOp.draws]))
      (by simp [Event.draws, AdminOp.draws]) rfl
  | moved _ u u' step =>
    have same : u'.subscriptionVersion = u.subscriptionVersion := by
      cases step with
      | kept | heard | closed | reset | updated => rfl
      | started => unfold User.start; split <;> rfl
      | rotated => cases whole
    exact .of_same (by simp [version, before, after, same]) rfl fun _ => rfl

/-- **The step lemma** for a version. -/
theorem version_step (uid : Id) (step : (threads cfg).step s l = some s') : VersionStep uid s l s' := by
  cases threads_step step with
  | other e p whole moved => exact plane_version uid whole moved
  | arrives request c work inserted =>
    refine .of_same rfl rfl fun _ => ?_
    simp [inFlight, (Table.insert?_eq_some_iff.1 inserted).2, rotating, asks]
  | notFound request admin userId op absent =>
    refine .of_same rfl rfl fun present => ?_
    -- the request is for another user
    have other : userId ≠ uid := by
      rintro rfl
      simp [version, absent] at present
    cases op <;> simp [asks, other]
  | reads request admin op loaded work present inserted =>
    refine .of_same rfl rfl fun _ => ?_
    simp only [inFlight, (Table.insert?_eq_some_iff.1 inserted).2, List.countP_append]
    cases op with
    | update | resetUsage => simp [rotating, asks]
    | rotateSubscription => by_cases mine : loaded.id = uid <;> simp [rotating, asks, mine]
  | advances request w found _ advanced => exact advanced_version uid found advanced

/-- Identifiers stay drawn. -/
theorem issued_step {i : Id} (step : (threads cfg).step s l = some s') (drawn : i ∈ s.plane.issued) :
    i ∈ s'.plane.issued := by
  cases threads_step step with
  | other e p whole moved =>
    obtain ⟨-, rfl⟩ := plane_step.1 moved
    simp [drawn]
  | arrives | notFound | reads => exact drawn
  | advances request w found _ advanced => cases advanced <;> exact drawn

/-- The users there are have identifiers that were drawn. -/
theorem drawn_run {t₀ : Instant} {labels : List Threads.Label}
    (run : (threads cfg).run (.initial (.initial t₀)) labels = some s)
    (present : (version s uid).isSome) : uid ∈ s.plane.issued := by
  refine Machine.run_invariant (I := fun s => (version s uid).isSome → uid ∈ s.plane.issued)
    (fun before step present => ?_) (fun present => ?_) ⟨labels, run⟩ present
  · cases version_step uid step with
    | kept v was => exact issued_step step (before (by simp [was]))
    | rotated loaded mine v was => exact issued_step step (before (by simp [was]))
    | absent after => simp [after] at present
    | created _ _ drawn => exact drawn
  · simp [version, Threads.initial, Plane.initial, Table.find?] at present

/-! ## Runs -/

/-- **The invariant** of a run that starts with version `v₀` in `s₀`, after some rotations were
asked for. -/
structure Counted (uid : Id) (s₀ : Threads) (v₀ asked : ℕ) (new : List EditReply) (s : Threads) : Prop where
  drawn : uid ∈ s.plane.issued
  replies : answered uid s = new ++ answered uid s₀
  grown : ∀ v, version s uid = some v →
    v = v₀ + new.length ∧ new.length + inFlight uid s = inFlight uid s₀ + asked
  apart : new.Pairwise fun r r' => r'.user.subscriptionVersion < r.user.subscriptionVersion
  bounded : ∀ r ∈ new, r.user.subscriptionVersion ≤ v₀ + new.length

theorem counted_step {s₀ : Threads} {v₀ asked : ℕ} {new : List EditReply}
    (before : Counted uid s₀ v₀ asked new s) (current : currentRotation s l)
    (step : (threads cfg).step s l = some s') :
    ∃ new', Counted uid s₀ v₀ (asked + (asks uid l).toNat) new' s' := by
  obtain ⟨drawn, replies, grown, apart, bounded⟩ := before
  have drawn' := issued_step step drawn
  cases version_step uid step with
  | kept v was after same flight =>
    refine ⟨new, drawn', same.trans replies, fun v' now => ?_, apart, bounded⟩
    obtain rfl : v = v' := Option.some.inj (after.symm.trans now)
    obtain ⟨sum, counts⟩ := grown v was
    exact ⟨sum, by omega⟩
  | absent after same =>
    exact ⟨new, drawn', same.trans replies, fun v now => by simp [after] at now, apart, bounded⟩
  | created _ fresh => exact absurd drawn fresh
  | rotated loaded mine v was fits after reply flight quiet =>
    obtain rfl := fits current
    obtain ⟨sum, counts⟩ := grown _ was
    have shown : loaded.rotate.subscriptionVersion = v₀ + (new.length + 1) := by
      simp only [User.rotate]
      omega
    refine ⟨⟨.rotateSubscription, loaded.rotate⟩ :: new, drawn', by rw [reply, replies]; rfl,
      fun v' now => ?_, ?_, fun r mem => ?_⟩
    · obtain rfl : loaded.subscriptionVersion + 1 = v' := Option.some.inj (after.symm.trans now)
      rw [quiet, List.length_cons]
      exact ⟨by omega, by simp only [Bool.toNat_false]; omega⟩
    · refine List.pairwise_cons.2 ⟨fun r mem => ?_, apart⟩
      have le := bounded r mem
      exact shown ▸ Nat.lt_succ_of_le le
    · rw [List.length_cons]
      rcases List.mem_cons.1 mem with rfl | mem
      · exact shown.le
      · have le := bounded r mem
        omega

/-- **The run lemma.** -/
theorem counted_run {s₀ : Threads} {v₀ : ℕ} {labels : List Threads.Label} (drawn : uid ∈ s₀.plane.issued)
    (start : version s₀ uid = some v₀)
    (current : (threads cfg).Along (fun s l => currentRotation s l) s₀ labels)
    (run : (threads cfg).run s₀ labels = some s) :
    ∃ new, Counted uid s₀ v₀ (labels.countP (asks uid)) new s := by
  refine Machine.history_invariant
    (I := fun labels s => ∃ new, Counted uid s₀ v₀ (labels.countP (asks uid)) new s) ?_
    (fun {labels l t t'} _ before current step => ?_) current run
  · refine ⟨[], drawn, rfl, fun v now => ?_, .nil, by simp⟩
    obtain rfl : v₀ = v := Option.some.inj (start.symm.trans now)
    simp
  · obtain ⟨new, before⟩ := before
    have asked : (labels ++ [l]).countP (asks uid) = labels.countP (asks uid) + (asks uid l).toNat := by
      cases this : asks uid l <;> simp [this]
    exact asked ▸ counted_step before current step

/-- A version that has been passed stays passed, with the user or without. -/
theorem passed_run {floor : ℕ} {labels : List Threads.Label} (drawn : uid ∈ s.plane.issued)
    (passed : ∀ v, version s uid = some v → floor ≤ v)
    (current : (threads cfg).Along (fun s l => currentRotation s l) s labels)
    (run : (threads cfg).run s labels = some s') : ∀ v, version s' uid = some v → floor ≤ v := by
  refine (Machine.along_invariant
    (I := fun s => uid ∈ s.plane.issued ∧ ∀ v, version s uid = some v → floor ≤ v)
    (fun before current step => ⟨issued_step step before.1, fun v now => ?_⟩) ⟨drawn, passed⟩ current run).2
  obtain ⟨drawn, passed⟩ := before
  cases version_step uid step with
  | kept v₀ was after => exact (Option.some.inj (after.symm.trans now)) ▸ passed v₀ was
  | absent after => simp [after] at now
  | created _ fresh => exact absurd drawn fresh
  | rotated loaded mine v₀ was fits after =>
    obtain rfl : loaded.subscriptionVersion + 1 = v := Option.some.inj (after.symm.trans now)
    exact (passed v₀ was).trans (fits current ▸ Nat.le_succ _)

/-! ## URLs and tokens -/

/-- Two responses show different subscription URLs, whatever their public URLs are. -/
def DifferentUrls (r r' : EditReply) : Prop :=
  ∀ (cfg : Settings) (site : Site) (now now' : Instant) (q q' : Request) (db db' : Database)
    (reply reply' : UserReply), serialize cfg site now q db r.user = .ok reply →
    serialize cfg site now' q' db' r'.user = .ok reply' →
    reply.subscriptionUrl ≠ reply'.subscriptionUrl

/-- `GET /sub/{token}` answers 404 to the tokens of this version of the user. -/
def Rejects (db : Database) (uid : Id) (v : ℕ) : Prop :=
  ∀ (mac : Mac) (secret token : String) (now : Instant) (base : PublicEndpoint) (raw : Bool),
    signSubscription mac secret uid v = .ok token →
    subscriptionRoute mac secret now db base raw token = .error ⟨404, "سابسکریپشن معتبر نیست"⟩

theorem rejects_of_other {v : ℕ} (other : ∀ u, db.users.find? uid = some u → u.subscriptionVersion ≠ v) :
    Rejects db uid v := by
  intro mac secret token now base raw signed
  have nobody : (db.users.find? uid).filter (fun u => (u.subscriptionVersion : ℤ) = v) = none := by
    rw [Option.filter_eq_none_iff]
    intro u found
    simpa using other u found
  simp only [subscriptionRoute, Tokens.verify_of_sign signed, bind, Except.bind, subscription, nobody]

/-- **Rotations that commit over the version they read revoke**: the version has grown by the
number of rotations that answered, which are the ones that were asked for when none is in flight;
their URLs are pairwise distinct; and no token of an earlier version is accepted in any later
state. -/
theorem rotation_revokes (cfg : Settings) (t₀ : Instant) (first labels : List Threads.Label)
    (s₀ s : Threads) (u₀ : User) (reached : (threads cfg).run (.initial (.initial t₀)) first = some s₀)
    (found : s₀.plane.db.users.find? u₀.id = some u₀)
    (current : (threads cfg).Along (fun s l => currentRotation s l) s₀ labels)
    (run : (threads cfg).run s₀ labels = some s) :
    ∃ new : List EditReply, answered u₀.id s = new ++ answered u₀.id s₀ ∧
      (∀ u, s.plane.db.users.find? u₀.id = some u →
        u.subscriptionVersion = u₀.subscriptionVersion + new.length ∧
          new.length + inFlight u₀.id s = inFlight u₀.id s₀ + labels.countP (asks u₀.id)) ∧
      new.Pairwise DifferentUrls ∧
      ∀ later s', (threads cfg).Along (fun s l => currentRotation s l) s later →
        (threads cfg).run s later = some s' →
        ∀ v < u₀.subscriptionVersion + new.length, Rejects s'.plane.db u₀.id v := by
  have start : version s₀ u₀.id = some u₀.subscriptionVersion := by simp [version, found]
  obtain ⟨new, drawn, replies, grown, apart, -⟩ := counted_run (drawn_run reached (by simp [start])) start current run
  refine ⟨new, replies, fun u present => grown _ (by simp [version, present]), ?_, ?_⟩
  · refine apart.imp fun {r r'} less => ?_
    intro cfg site now now' q q' db db' reply reply' shown shown' same
    exact less.ne' (subscriptionUrl_version shown shown' same)
  · intro later s' current' rest v earlier
    refine rejects_of_other fun u present => ?_
    have passed := passed_run drawn (fun v now => (grown v now).1.ge) current' rest u.subscriptionVersion
      (by simp [version, present])
    omega

/-- The installation of the tests, with its node and its user. -/
def installed : List Threads.Label := (firstConnection.take 2).map .other

def disabled : UserUpdate := { UserUpdate.nothing with active := .set false }

/-- Two rotations one after the other, and beside them a request that disables the user. -/
def rotatedTwice : List Threads.Label :=
  [.edit 1 "admin" "user" .rotateSubscription, .edit 2 "admin" "user" (.update disabled),
    .advance 1, .advance 2, .edit 3 "admin" "user" .rotateSubscription, .advance 3]

/-- The version has grown by two, and the first token is rejected. -/
theorem rotation_revokes_twice :
    ∃ (s₀ s : Threads) (u₀ u : User), (threads {}).run (.initial (.initial 0)) installed = some s₀ ∧
      (threads {}).run s₀ rotatedTwice = some s ∧ s.work.rows = [] ∧
      s.plane.db.users.find? u₀.id = some u ∧ u.subscriptionVersion = u₀.subscriptionVersion + 2 ∧
      Rejects s.plane.db u₀.id u₀.subscriptionVersion := by
  obtain ⟨s₀, reached, facts⟩ := (Option.any_eq_true _ _).1
    (by decide +kernel : ((threads {}).run (.initial (.initial 0)) installed).any fun s₀ =>
      (threads {}).Along (fun s l => currentRotation s l) s₀ rotatedTwice &&
      inFlight "user" s₀ = 0 && rotatedTwice.countP (asks "user") = 2 &&
      ((s₀.plane.db.users.find? "user").any fun u₀ => u₀.id = "user") &&
      (((threads {}).run s₀ rotatedTwice).any fun s =>
        s.work.rows.isEmpty && (s.plane.db.users.find? "user").isSome))
  simp only [Bool.and_eq_true, Option.any_eq_true, decide_eq_true_eq,
    List.isEmpty_iff, Option.isSome_iff_exists] at facts
  obtain ⟨⟨⟨⟨current, quiet⟩, asked⟩, u₀, found, mine⟩, s, run, done, u, present⟩ := facts
  rw [← mine] at found present quiet asked
  obtain ⟨new, -, grown, -, rejects⟩ :=
    rotation_revokes {} 0 installed rotatedTwice s₀ s u₀ reached found current run
  obtain ⟨sum, counts⟩ := grown u present
  have ended : inFlight u₀.id s = 0 := by simp [inFlight, done]
  have two : new.length = 2 := by omega
  exact ⟨s₀, s, u₀, u, reached, run, done, present, by omega,
    rejects [] s trivial rfl u₀.subscriptionVersion (by omega)⟩

/-- Two rotations that read the same version. -/
def rotatedAtOnce : List Threads.Label :=
  [.edit 1 "admin" "user" .rotateSubscription, .edit 2 "admin" "user" .rotateSubscription,
    .advance 1, .advance 2]

/-- Both requests have answered, and the version has grown by one. -/
theorem rotation_lost :
    ¬ ∀ (t₀ : Instant) (first labels : List Threads.Label) (s₀ s : Threads) (u₀ : User),
      (threads {}).run (.initial (.initial t₀)) first = some s₀ →
      s₀.plane.db.users.find? u₀.id = some u₀ → (threads {}).run s₀ labels = some s →
      ∃ new : List EditReply, answered u₀.id s = new ++ answered u₀.id s₀ ∧
        (∀ u, s.plane.db.users.find? u₀.id = some u →
          u.subscriptionVersion = u₀.subscriptionVersion + new.length ∧
            new.length + inFlight u₀.id s = inFlight u₀.id s₀ + labels.countP (asks u₀.id)) ∧
        new.Pairwise DifferentUrls ∧
        ∀ later s', (threads {}).run s later = some s' →
          ∀ v < u₀.subscriptionVersion + new.length, Rejects s'.plane.db u₀.id v := by
  intro claim
  obtain ⟨s₀, reached, facts⟩ := (Option.any_eq_true _ _).1
    (by decide +kernel : ((threads {}).run (.initial (.initial 0)) installed).any fun s₀ =>
      inFlight "user" s₀ = 0 && rotatedAtOnce.countP (asks "user") = 2 &&
      ((s₀.plane.db.users.find? "user").any fun u₀ => u₀.id = "user" && u₀.subscriptionVersion = 1) &&
      (((threads {}).run s₀ rotatedAtOnce).any fun s => s.work.rows.isEmpty &&
        (s.plane.db.users.find? "user").any fun u => u.subscriptionVersion = 2))
  simp only [Bool.and_eq_true, Option.any_eq_true, decide_eq_true_eq,
    List.isEmpty_iff] at facts
  obtain ⟨⟨⟨quiet, asked⟩, u₀, found, mine, one⟩, s, run, done, u, present, two⟩ := facts
  rw [← mine] at found present quiet asked
  obtain ⟨new, -, grown, -⟩ := claim 0 installed rotatedAtOnce s₀ s u₀ reached found run
  obtain ⟨sum, counts⟩ := grown u present
  have ended : inFlight u₀.id s = 0 := by simp [inFlight, done]
  omega

end Arena.Rotation
