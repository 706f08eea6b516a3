import Arena.Failures
import Arena.Model.Patches
import Arena.Model.Storage
import Arena.Model.Urls

/-!
# What `PATCH /users/{user_id}` stores

An edit is exact when it ends in a client error and changes nothing, or stores the supplied values
and nothing else in a row within the bounds of `UserCreate`. `UserUpdate` accepts more: `null` for
a column that refuses it, `NaN`, a NUL character or an unpaired surrogate, a name that is empty once
it is trimmed. No answer of `update_user` to an existing user is a client error.
-/

namespace Arena.ExactPatch

open Arena.Lib Arena.Model Arena.Failures

/-- A field after an edit: the supplied value, converted, or the value it had. -/
def Took {α β : Type} (p : Patch α) (convert : α → β) (old new : β) : Prop :=
  match p with
  | .unset => new = old
  | .null => False
  | .set v => new = convert v

/-- A field that `null` clears, after an edit. -/
def TookNullable {α : Type} (p : Patch α) (old new : Option α) : Prop :=
  match p with
  | .unset => new = old
  | .null => new = none
  | .set v => new = some v

/-- The supplied fields have their values and every other column is as before. -/
structure Edited (p : UserUpdate) (before row : User) : Prop where
  name : Took p.name stripSpaces before.name row.name
  note : Took p.note stripSpaces before.note row.note
  active : Took p.active id before.active row.active
  quota : Took p.quotaGb quotaBytes64 before.quotaBytes row.quotaBytes
  validity : Took p.validityDays id before.validityDays row.validityDays
  expiry : TookNullable p.expiresAt before.expiresAt row.expiresAt
  maxIps : Took p.maxIps id before.maxIps row.maxIps
  speed : Took p.speedMbps speedLimit64 before.speedLimitBps row.speedLimitBps
  others : row =
    { before with
      name := row.name
      note := row.note
      active := row.active
      quotaBytes := row.quotaBytes
      validityDays := row.validityDays
      expiresAt := row.expiresAt
      maxIps := row.maxIps
      speedLimitBps := row.speedLimitBps }

/-- A name that `UserCreate` takes. -/
def BoundedName (name : String) : Prop := 1 ≤ name.length ∧ name.length ≤ 120

/-- A limit that `UserCreate` takes. -/
def BoundedMaxIps (maxIps : ℕ) : Prop := 1 ≤ maxIps ∧ maxIps ≤ 100

instance : DecidablePred BoundedName := fun _ => inferInstanceAs (Decidable (_ ∧ _))
instance : DecidablePred BoundedMaxIps := fun _ => inferInstanceAs (Decidable (_ ∧ _))

/-- The bounds of `UserCreate`; the quota and the validity are natural numbers. -/
structure Bounded (row : User) : Prop where
  name : BoundedName row.name
  maxIps : BoundedMaxIps row.maxIps

section

variable (cfg : Settings) (site : Site) (admin : String) (around : Surroundings) (db : Database)
  (userId : Id) (body : UserBody)

/-- The request ends in a client error and the row is as it was, or it is answered and the row is
edited exactly. -/
def PatchExact : Prop :=
  ∃ db' result, storeUpdateUser cfg site admin around userId body db = some (db', result) ∧
    match result with
    | .error e => 400 ≤ e.status ∧ e.status < 500 ∧ db'.users.find? userId = db.users.find? userId
    | .ok _ => ∃ before row, db.users.find? userId = some before ∧ db'.users.find? userId = some row ∧
        Edited body.update before row ∧ Bounded row

/-- Xray takes the keys that the edit committed. -/
def Synchronised : Prop :=
  ∀ committed, updateUser admin userId body.converted db = .ok committed →
    reconcile cfg around committed = some .returned

end

/-- What an exact edit needs of the body, of the row before it and of the origin of the request. -/
structure Harmless (cfg : Settings) (site : Site) (request : Request) (body : UserBody)
    (before : User) : Prop where
  identifier : isParameter before.id
  numbers : body.quotaIsNan = false ∧ body.speedIsNan = false
  nulls : body.update.refused = false
  encodable : body.encodable
  nameText : ∀ v, body.update.name = .set v → isParameter v
  noteText : ∀ v, body.update.note = .set v → isParameter v
  named : ∀ v, body.update.name = .set v → ∃ c ∈ v.toList, isSpace c = false
  keptName : body.update.name = .unset → BoundedName before.name
  keptMaxIps : body.update.maxIps = .unset → BoundedMaxIps before.maxIps
  origin : ∃ url, publicBaseUrl cfg site.urlsplit request = .ok url
  version : ∃ token, signSubscription site.mac site.secret before.id before.subscriptionVersion = .ok token

/-! ## Trimmed texts -/

/-- Trimming drops no NUL character. -/
theorem isParameter_stripSpaces {text : String} : isParameter (stripSpaces text) = isParameter text := by
  have kept : isSpace '\x00' = false := by decide
  simp only [isParameter, stripSpaces, String.toList_ofList, mem_strip kept]

theorem boundedName_stripSpaces {v : String} (short : v.length ≤ 120) :
    BoundedName (stripSpaces v) ↔ ∃ c ∈ v.toList, isSpace c = false := by
  have length : (stripSpaces v).length = (strip isSpace v.toList).length := by
    rw [stripSpaces, String.length_ofList]
  have le : (strip isSpace v.toList).length ≤ v.length := length_strip_le
  rw [BoundedName, length, Nat.one_le_iff_ne_zero, ne_eq, List.length_eq_zero_iff, strip_eq_nil_iff]
  constructor
  · rintro ⟨kept, -⟩
    push Not at kept
    simpa using kept
  · rintro ⟨c, mem, kept⟩
    exact ⟨fun all => by simp [all c mem] at kept, le.trans short⟩

/-! ## The row -/

variable {cfg : Settings} {site : Site} {admin : String} {around : Surroundings} {db : Database}
  {body : UserBody} {p : UserUpdate} {before row : User} {mac : Mac} {secret : String}
  {tables : UnicodeTables}

theorem took_getD {α β : Type} {q : Patch α} {convert : α → β} {old : β} (given : q.isNull = false) :
    Took q convert old ((q.map convert).getD old) := by
  cases q with
  | null => cases given
  | unset | set => rfl

theorem took_self {α : Type} {q : Patch α} {old : α} (given : q.isNull = false) :
    Took q id old (q.getD old) := by
  cases q with
  | null => cases given
  | unset | set => rfl

theorem tookNullable {α : Type} {q : Patch α} {old : Option α} : TookNullable q old (q.nullable old) := by
  cases q <;> rfl

theorem map_map {α β γ : Type} {q : Patch α} {f : α → β} {g : β → γ} :
    (q.map f).map g = q.map (g ∘ f) := by
  cases q <;> rfl

theorem refused_converted : body.converted.refused = body.update.refused := by
  simp only [UserUpdate.refused, UserBody.converted, Patch.isNull_map]

/-- **The row that is stored** is the edited one. -/
theorem edited_apply (given : body.update.refused = false) :
    Edited body.update before (body.converted.apply before) := by
  have quotas : quotaBytesOf ∘ (fun v => (quotaBytes64 v : ℚ) / 1024 ^ 3) = quotaBytes64 :=
    funext fun _ => quotaBytesOf_converted
  have speeds : speedLimitOf ∘ (fun v => (speedLimit64 v : ℚ) * 8 / 1000000) = speedLimit64 :=
    funext fun _ => speedLimitOf_converted
  simp only [UserUpdate.refused, Bool.or_eq_false_iff] at given
  obtain ⟨⟨⟨⟨⟨⟨quota, speed⟩, name⟩, note⟩, active⟩, validity⟩, maxIps⟩ := given
  exact
    { name := took_getD name
      note := took_getD note
      active := took_self active
      quota := by
        simp only [UserUpdate.apply, UserBody.converted, map_map, quotas]
        exact took_getD quota
      validity := took_self validity
      expiry := tookNullable
      maxIps := took_self maxIps
      speed := by
        simp only [UserUpdate.apply, UserBody.converted, map_map, speeds]
        exact took_getD speed
      others := rfl }

theorem boundedName_apply (given : p.name.isNull = false) :
    BoundedName (p.apply before).name ↔
      (∀ v, p.name = .set v → ∃ c ∈ v.toList, isSpace c = false) ∧
        (p.name = .unset → BoundedName before.name) := by
  cases name : p.name with
  | null => simp [name, Patch.isNull] at given
  | unset => simp [UserUpdate.apply, name, Patch.map, Patch.getD]
  | set v =>
    have stored : (p.apply before).name = stripSpaces v := by
      simp [UserUpdate.apply, name, Patch.map, Patch.getD]
    rw [stored, boundedName_stripSpaces (p.nameLength v name).2]
    simp

theorem boundedMaxIps_apply (given : p.maxIps.isNull = false) :
    BoundedMaxIps (p.apply before).maxIps ↔ (p.maxIps = .unset → BoundedMaxIps before.maxIps) := by
  cases maxIps : p.maxIps with
  | null => simp [maxIps, Patch.isNull] at given
  | unset => simp [UserUpdate.apply, maxIps, Patch.getD]
  | set v => simpa [UserUpdate.apply, maxIps, Patch.getD, BoundedMaxIps] using p.maxIpsRange v maxIps

theorem storable_iff : p.storable = true ↔
    (∀ v, p.name = .set v → isParameter v) ∧ ∀ v, p.note = .set v → isParameter v := by
  simp only [UserUpdate.storable, Bool.and_eq_true, Patch.all_iff, isParameter_stripSpaces]

/-! ## The response -/

/-- A site that splits its URLs with the tables. -/
def siteOf (mac : Mac) (secret : String) (tables : UnicodeTables) : Site := ⟨mac, secret, urlsplit tables⟩

theorem userReply_ok_iff {committed : Database} (found : committed.users.find? before.id = some row) :
    (∃ reply, userReply cfg site around committed before.id = .ok reply) ↔
      (∃ url, publicBaseUrl cfg site.urlsplit around.request = .ok url) ∧
        ∃ token, signSubscription site.mac site.secret row.id row.subscriptionVersion = .ok token := by
  have user := getUser_eq_ok.2 found
  constructor
  · rintro ⟨reply, shown⟩
    obtain ⟨user', found', shown⟩ := bind_eq_ok.1 shown
    obtain rfl := Except.ok.inj (user.symm.trans found')
    obtain ⟨data, shown, -⟩ := bind_eq_ok.1 shown
    obtain ⟨url, origin, shown⟩ := bind_eq_ok.1 shown
    obtain ⟨token, signed, -⟩ := bind_eq_ok.1 shown
    exact ⟨⟨url, origin⟩, token, signed⟩
  · rintro ⟨⟨url, origin⟩, token, signed⟩
    exact ⟨_, bind_eq_ok.2 ⟨row, user, bind_eq_ok.2
      ⟨_, bind_eq_ok.2 ⟨url, origin, bind_eq_ok.2 ⟨token, signed, rfl⟩⟩, rfl⟩⟩⟩

/-- A response that is not built is a server error. -/
theorem userReply_error {committed : Database} (found : committed.users.find? before.id = some row) :
    ∀ e, userReply cfg (siteOf mac secret tables) around committed before.id = .error e →
      e = internalError := by
  refine bind_error_of (fun e missing => ?_) fun user _ => ?_
  · cases (getUser_eq_ok.2 found).symm.trans missing
  refine bind_error_of ?_ fun data _ e done => ?_
  · refine bind_error_of publicBaseUrl_error fun url _ => ?_
    refine bind_error_of (fun e lost => ?_) fun token _ e done => ?_
    · unfold signSubscription at lost
      split at lost
      · exact (Except.error.inj lost).symm
      · cases lost
    · cases done
  · cases done

/-! ## The request -/

/-- An edit of a row that is there fails with a server error. -/
theorem updateUser_error (found : db.users.find? before.id = some before) :
    ∀ e, updateUser admin before.id p db = .error e → e = internalError := by
  refine bind_error_of (fun e missing => ?_) fun user _ => ?_
  · cases (getUser_eq_ok.2 found).symm.trans missing
  · exact bind_error_of patchUser_error fun _ _ e done => nomatch done

theorem updateUser_ok (admin : String) (found : db.users.find? before.id = some before) (given : p.refused = false) :
    ∃ committed, updateUser admin before.id p db = .ok committed ∧
      committed.users.find? before.id = some (p.apply before) :=
  ⟨_, bind_eq_ok.2 ⟨before, getUser_eq_ok.2 found,
      bind_eq_ok.2 ⟨_, patchUser_eq_ok.2 ⟨given, rfl⟩, rfl⟩⟩,
    by simp [Database.addAudit, Table.find?_update, found]⟩

theorem refused_of_updateUser {committed : Database}
    (made : updateUser admin before.id p db = .ok committed) : p.refused = false := by
  obtain ⟨user, -, made⟩ := bind_eq_ok.1 made
  obtain ⟨row, patched, -⟩ := bind_eq_ok.1 made
  exact (patchUser_eq_ok.1 patched).1

/-- What an edit needs to be stored. -/
structure Stored (body : UserBody) (before : User) : Prop where
  identifier : isParameter before.id
  numbers : body.quotaIsNan = false ∧ body.speedIsNan = false
  nulls : body.update.refused = false
  texts : body.update.storable
  encodable : body.encodable

/-- An edit that is not stored ends in a server error. -/
theorem storeUpdateUser_refused (found : db.users.find? before.id = some before)
    (bad : ¬ Stored body before) :
    storeUpdateUser cfg site admin around before.id body db = some (db, .error internalError) := by
  unfold storeUpdateUser
  split
  · rfl
  rename_i parameter
  split
  · rfl
  rename_i numbers
  simp only [found, Option.isSome_some, Bool.true_and, Bool.or_eq_true, not_or, Bool.not_eq_true] at numbers
  simp only [AdminOp.handle, AdminOp.commit]
  cases made : updateUser admin before.id body.converted db with
  | error e => rw [updateUser_error found e made]
  | ok committed =>
    have lost : (body.update.storable && body.encodable) = false := by
      by_contra stored
      rw [Bool.not_eq_false, Bool.and_eq_true] at stored
      have given := (@refused_converted body).symm.trans (refused_of_updateUser made)
      exact bad ⟨by simpa using parameter, numbers, given, stored.1, stored.2⟩
    simp [lost]

/-- An edit that is stored ends as `reconcile` does: with the edited row in its response where that
returns and the response can be built, with a server error where it raises. -/
theorem storeUpdateUser_stored (cfg : Settings) (site : Site) (admin : String) (around : Surroundings)
    (found : db.users.find? before.id = some before) (stored : Stored body before) :
    ∃ committed, updateUser admin before.id body.converted db = .ok committed ∧
      committed.users.find? before.id = some (body.converted.apply before) ∧
      storeUpdateUser cfg site admin around before.id body db =
        (reconcile cfg around committed).map fun outcome =>
          (committed, if outcome = .returned then userReply cfg site around committed before.id
            else Except.error internalError) := by
  obtain ⟨parameter, numbers, given, texts, encodable⟩ := stored
  obtain ⟨committed, made, edited⟩ := updateUser_ok admin found (refused_converted.trans given)
  refine ⟨committed, made, edited, ?_⟩
  -- `reconcile` does not depend on what the database takes
  have synced : reconcile cfg { around with stored := true } committed = reconcile cfg around committed := rfl
  simp only [storeUpdateUser, parameter, numbers, Bool.not_true, Bool.or_self, Bool.and_false,
    Bool.false_eq_true, if_false, AdminOp.handle, AdminOp.commit, made, texts, encodable, Bool.and_self,
    AdminOp.sync, AdminOp.reconciles, if_true, synced]
  cases reconcile cfg around committed with
  | none => rfl
  | some outcome => cases outcome <;> rfl

theorem stored_of_harmless {request : Request} (harmless : Harmless cfg site request body before) :
    Stored body before :=
  ⟨harmless.identifier, harmless.numbers, harmless.nulls,
    storable_iff.2 ⟨harmless.nameText, harmless.noteText⟩, harmless.encodable⟩

/-- A row is within the bounds after an edit that is not refused. -/
theorem bounded_apply (given : p.refused = false) : Bounded (p.apply before) ↔
    (∀ v, p.name = .set v → ∃ c ∈ v.toList, isSpace c = false) ∧
      (p.name = .unset → BoundedName before.name) ∧ (p.maxIps = .unset → BoundedMaxIps before.maxIps) := by
  simp only [UserUpdate.refused, Bool.or_eq_false_iff] at given
  obtain ⟨⟨⟨⟨⟨-, name⟩, -⟩, -⟩, -⟩, maxIps⟩ := given
  constructor
  · rintro ⟨boundedName, boundedMaxIps⟩
    obtain ⟨named, kept⟩ := (boundedName_apply name).1 boundedName
    exact ⟨named, kept, (boundedMaxIps_apply maxIps).1 boundedMaxIps⟩
  · rintro ⟨named, kept, keptMaxIps⟩
    exact ⟨(boundedName_apply name).2 ⟨named, kept⟩, (boundedMaxIps_apply maxIps).2 keptMaxIps⟩

/-- A harmless edit that Xray takes is exact. -/
theorem exact_of_harmless (found : db.users.find? before.id = some before)
    (harmless : Harmless cfg site around.request body before)
    (synced : Synchronised cfg admin around db before.id body) :
    PatchExact cfg site admin around db before.id body := by
  obtain ⟨committed, made, edited, ended⟩ :=
    storeUpdateUser_stored cfg site admin around found (stored_of_harmless harmless)
  obtain ⟨reply, shown⟩ := (userReply_ok_iff edited).2 ⟨harmless.origin, harmless.version⟩
  rw [synced committed made, shown] at ended
  refine ⟨committed, .ok reply, ended, before, _, found, edited, edited_apply harmless.nulls, ?_⟩
  exact (bounded_apply (refused_converted.trans harmless.nulls)).2
    ⟨harmless.named, harmless.keptName, harmless.keptMaxIps⟩

/-- An exact edit is stored, Xray takes it, and its response is built from a row within the bounds. -/
theorem answered_of_exact (found : db.users.find? before.id = some before)
    (exact : PatchExact cfg (siteOf mac secret tables) admin around db before.id body) :
    Stored body before ∧ Synchronised cfg admin around db before.id body ∧
      Bounded (body.converted.apply before) ∧ ∃ committed reply,
        committed.users.find? before.id = some (body.converted.apply before) ∧
        userReply cfg (siteOf mac secret tables) around committed before.id = .ok reply := by
  obtain ⟨db', result, ended, outcome⟩ := exact
  by_cases stored : Stored body before
  · obtain ⟨committed, made, edited, ended'⟩ :=
      storeUpdateUser_stored cfg (siteOf mac secret tables) admin around found stored
    rw [ended, eq_comm, Option.map_eq_some_iff] at ended'
    obtain ⟨answer, synced, ended'⟩ := ended'
    obtain ⟨rfl, rfl⟩ := Prod.mk.inj ended'
    cases answer with
    | raised => exact absurd outcome.2.1 (by decide)
    | returned =>
      have taken : Synchronised cfg admin around db before.id body := fun other made' =>
        Except.ok.inj (made.symm.trans made') ▸ synced
      rw [if_pos rfl] at outcome
      cases shown : userReply cfg (siteOf mac secret tables) around committed before.id with
      | error e =>
        rw [shown, userReply_error edited e shown] at outcome
        exact absurd outcome.2.1 (by decide)
      | ok reply =>
        rw [shown] at outcome
        obtain ⟨-, row, -, there, -, bounded⟩ := outcome
        obtain rfl := Option.some.inj (edited.symm.trans there)
        exact ⟨stored, taken, bounded, committed, reply, edited, shown⟩
  · rw [storeUpdateUser_refused found stored] at ended
    obtain ⟨-, rfl⟩ := Prod.mk.inj (Option.some.inj ended)
    exact absurd outcome.2.1 (by decide)

/-- Only such an edit is exact. -/
theorem harmless_of_exact (found : db.users.find? before.id = some before)
    (exact : PatchExact cfg (siteOf mac secret tables) admin around db before.id body) :
    Harmless cfg (siteOf mac secret tables) around.request body before ∧
      Synchronised cfg admin around db before.id body := by
  obtain ⟨stored, taken, bounded, committed, reply, edited, shown⟩ := answered_of_exact found exact
  obtain ⟨origin, version⟩ := (userReply_ok_iff edited).1 ⟨reply, shown⟩
  obtain ⟨named, kept, keptMaxIps⟩ := (bounded_apply (refused_converted.trans stored.nulls)).1 bounded
  obtain ⟨nameText, noteText⟩ := storable_iff.1 stored.texts
  exact ⟨⟨stored.identifier, stored.numbers, stored.nulls, stored.encodable, nameText, noteText,
    named, kept, keptMaxIps, origin, version⟩, taken⟩

/-- **When an edit is exact**: the body holds neither `NaN`, nor `null` but for the expiry, nor a text
that no column takes, nor a blank name; the name and the limit that the row keeps are within the
bounds; the response can be built; and Xray takes the keys. -/
theorem patch_exact_iff (cfg : Settings) (mac : Mac) (secret : String) (tables : UnicodeTables)
    (admin : String) (around : Surroundings) (db : Database) (before : User) (body : UserBody)
    (mem : before ∈ db.users.rows) :
    PatchExact cfg (siteOf mac secret tables) admin around db before.id body ↔
      Harmless cfg (siteOf mac secret tables) around.request body before ∧
        Synchronised cfg admin around db before.id body :=
  have found := Table.find?_of_mem mem
  ⟨harmless_of_exact found, fun ⟨harmless, synced⟩ => exact_of_harmless found harmless synced⟩

/-! ## The user of the tests -/

def testSite : Site := siteOf (fun _ message => message) "secret" asciiTables

/-- `xray_enabled` is off. -/
def noXray : Surroundings :=
  { request := {}, stored := true, runtime := none, answers := [], loadedAt := 0, repliedAt := 0 }

/-- The user of the tests after its first connection. -/
theorem test_row : ∃ s before, (plane {}).run (.initial 0) firstConnection = some s ∧
    before ∈ s.db.users.rows ∧ before.id = "user" ∧ BoundedName before.name ∧ BoundedMaxIps before.maxIps ∧
    before.subscriptionVersion = 1 := by
  obtain ⟨s, run, facts⟩ := (Option.any_eq_true _ _).1 (by decide +kernel :
    ((plane {}).run (.initial 0) firstConnection).any fun s => (s.db.users.find? "user").any fun row =>
      BoundedName row.name && BoundedMaxIps row.maxIps && row.subscriptionVersion == 1)
  obtain ⟨row, found, facts⟩ := (Option.any_eq_true _ _).1 facts
  simp only [Bool.and_eq_true, decide_eq_true_eq, beq_iff_eq] at facts
  exact ⟨s, row, run, Table.find?_mem found, Table.find?_key found, facts.1.1, facts.1.2, facts.2⟩

def deactivated : UserBody := { update := { UserUpdate.nothing with active := .set false } }

theorem harmless_deactivated {before : User} (id : before.id = "user") (name : BoundedName before.name)
    (maxIps : BoundedMaxIps before.maxIps) (version : before.subscriptionVersion = 1) :
    Harmless {} testSite {} deactivated before where
  identifier := id ▸ by decide
  numbers := ⟨rfl, rfl⟩
  nulls := rfl
  encodable := rfl
  nameText := nofun
  noteText := nofun
  named := nofun
  keptName _ := name
  keptMaxIps _ := maxIps
  origin := ⟨"http://testserver", toOption_eq_some.1 (by decide +kernel)⟩
  version := by
    rw [id, version]
    exact ⟨"user.1.dXNlci4x", toOption_eq_some.1 (by decide +kernel)⟩

theorem patch_exact_deactivated : ∃ s before, (plane {}).run (.initial 0) firstConnection = some s ∧
    before ∈ s.db.users.rows ∧ PatchExact {} testSite "admin" noXray s.db before.id deactivated := by
  obtain ⟨s, before, run, mem, id, name, maxIps, version⟩ := test_row
  exact ⟨s, before, run, mem, (patch_exact_iff {} _ _ _ "admin" noXray s.db before deactivated mem).2
    ⟨harmless_deactivated id name maxIps version, fun _ _ => rfl⟩⟩

def nullQuota : UserBody :=
  { update := { UserUpdate.nothing with quotaGb := .null, quotaRange := by rintro _ ⟨⟩ } }

def blankName : UserBody :=
  { update := { UserUpdate.nothing with name := .set " ", nameLength := by rintro _ ⟨⟩; decide } }

/-- `null` for the quota raises, and a blank name is stored empty. -/
theorem accepted_not_exact : ∃ s before, (plane {}).run (.initial 0) firstConnection = some s ∧
    before ∈ s.db.users.rows ∧
    ¬ PatchExact {} testSite "admin" noXray s.db before.id nullQuota ∧
    ¬ PatchExact {} testSite "admin" noXray s.db before.id blankName := by
  obtain ⟨s, before, run, mem, -⟩ := test_row
  have found := Table.find?_of_mem mem
  refine ⟨s, before, run, mem, fun exact => ?_, fun exact => ?_⟩
  · have given := (harmless_of_exact found exact).1.nulls
    exact absurd given (by decide)
  · obtain ⟨c, there, kept⟩ := (harmless_of_exact found exact).1.named " " rfl
    obtain rfl := List.mem_singleton.1 there
    exact absurd kept (by decide)

end Arena.ExactPatch
