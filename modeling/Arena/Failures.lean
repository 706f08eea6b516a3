import Arena.Model.Frames
import Arena.Model.Handlers

/-!
# What a failed request leaves behind

An administrative request that fails before its commit, or in it, leaves the database as it was.
One that fails afterwards leaves what it committed: the synchronisation of Xray raised, or the
response could not be built. `failed_operation` says which failure is which.
-/

namespace Arena.Failures

open Arena.Lib Arena.Model

variable {cfg : Settings} {site : Site} {admin : String} {around : Surroundings} {db db' : Database}
  {op : AdminOp} {result : Except HttpError Reply} {e : HttpError}

/-- **Everything a handler can do.** -/
inductive Handled (cfg : Settings) (site : Site) (admin : String) (around : Surroundings)
    (db : Database) (op : AdminOp) : Database → Except HttpError Reply → Prop
  | refused (e : HttpError) (refused : op.commit admin db = .error e) :
      Handled cfg site admin around db op db (.error e)
  | notStored (committed : Database) (made : op.commit admin db = .ok committed)
      (lost : around.stored = false) :
      Handled cfg site admin around db op db (.error internalError)
  | notSynced (committed : Database) (made : op.commit admin db = .ok committed)
      (stored : around.stored)
      (raised : op.sync cfg around committed = some .raised) :
      Handled cfg site admin around db op committed (.error internalError)
  | replied (committed : Database) (made : op.commit admin db = .ok committed)
      (stored : around.stored)
      (synced : op.sync cfg around committed = some .returned) :
      Handled cfg site admin around db op committed (op.reply cfg site around db committed)

theorem handle_inv (h : op.handle cfg site admin around db = some (db', result)) :
    Handled cfg site admin around db op db' result := by
  unfold AdminOp.handle at h
  split at h
  · rename_i refused
    cases h
    exact .refused _ refused
  · rename_i committed made
    split at h
    · rename_i lost
      cases h
      exact .notStored committed made (by simpa using lost)
    · rename_i stored
      split at h
      · cases h
      · rename_i raised
        cases h
        exact .notSynced _ made (by simpa using stored) raised
      · rename_i synced
        cases h
        exact .replied _ made (by simpa using stored) synced

/-- The user that the response shows is there after the commit. -/
theorem shownUser_found {i : Id} (made : op.commit admin db = .ok db') (shows : op.shownUser = some i) :
    ∃ user, getUser db' i = .ok user := by
  -- an assignment to a user that was read
  have updated : ∀ {user : User} {j : Id} {f : User → User} (keeps : ∀ u, (f u).id = u.id),
      getUser db j = .ok user → db'.users = db.users.update (·.id = j) f keeps →
        ∃ user, getUser db' j = .ok user := by
    intro user j f keeps found users
    have present : (db'.users.find? j).isSome := by simp [users, getUser_eq_ok.1 found]
    obtain ⟨user', found'⟩ := Option.isSome_iff_exists.1 present
    exact ⟨user', getUser_eq_ok.2 found'⟩
  cases op with
  | createUser newId material p =>
    obtain rfl : newId = i := Option.some.inj shows
    cases commit_inv made with
    | createUser _ _ _ users =>
      refine ⟨newUser newId p, getUser_eq_ok.2 ?_⟩
      rw [Table.find?_insert users]
      exact if_pos rfl
  | updateUser userId p =>
    obtain rfl : userId = i := Option.some.inj shows
    simp only [AdminOp.commit, updateUser, bind_eq_ok] at made
    obtain ⟨user, found, row, -, h⟩ := made
    cases h
    exact updated (fun _ => User.assign_id) found rfl
  | resetUsage userId =>
    obtain rfl : userId = i := Option.some.inj shows
    simp only [AdminOp.commit, resetUsage, bind_eq_ok] at made
    obtain ⟨user, found, h⟩ := made
    cases h
    exact updated (fun _ => User.resetUsage_id) found rfl
  | rotateSubscription userId =>
    obtain rfl : userId = i := Option.some.inj shows
    simp only [AdminOp.commit, rotateSubscription, bind_eq_ok] at made
    obtain ⟨user, found, h⟩ := made
    cases h
    exact updated (fun _ => User.rotate_id) found rfl
  | _ => cases shows

/-- The node that the response shows is there after the commit. -/
theorem shownNode_found {i : Id} (made : op.commit admin db = .ok db') (shows : op.shownNode = some i) :
    ∃ node, getNode db' i = .ok node := by
  cases op with
  | createNode newId p =>
    obtain rfl : newId = i := Option.some.inj shows
    cases commit_inv made with
    | createNode _ _ users nodes =>
      refine ⟨newNode newId p, getNode_eq_ok.2 ?_⟩
      rw [Table.find?_insert nodes]
      exact if_pos rfl
  | updateNode nodeId p =>
    obtain rfl : nodeId = i := Option.some.inj shows
    cases commit_inv made with
    | updateNode _ _ node row found patched users nodes =>
      have present : (db'.nodes.find? nodeId).isSome := by simp [nodes, found]
      obtain ⟨node', found'⟩ := Option.isSome_iff_exists.1 present
      exact ⟨node', getNode_eq_ok.2 found'⟩
  | _ => cases shows

/-- **What the response itself fails on**: it shows a user, and the public URL was rejected or the
version has too many digits; or it shows a node whose metadata cannot be rendered. -/
def ResponseFails (cfg : Settings) (site : Site) (around : Surroundings) (op : AdminOp) (db : Database)
    (e : HttpError) : Prop :=
  (∃ i user, op.shownUser = some i ∧ getUser db i = .ok user ∧
    (publicBaseUrl cfg site.urlsplit around.request = .error e ∨
      signSubscription site.mac site.secret user.id user.subscriptionVersion = .error e)) ∨
  ∃ i node, op.shownNode = some i ∧ getNode db i = .ok node ∧ node.renders = false ∧ e = internalError

theorem userReply_error {i : Id} (made : op.commit admin db = .ok db') (shows : op.shownUser = some i)
    (failed : userReply cfg site around db' i = .error e) : ResponseFails cfg site around op db' e := by
  obtain ⟨user, found⟩ := shownUser_found made shows
  refine .inl ⟨i, user, shows, found, ?_⟩
  simp only [userReply, found, serialize, bind, Except.bind] at failed
  cases base : publicBaseUrl cfg site.urlsplit around.request with
  | error err =>
    simp only [base] at failed
    exact .inl (congrArg _ (Except.error.inj failed))
  | ok url =>
    cases signed : signSubscription site.mac site.secret user.id user.subscriptionVersion with
    | error err =>
      simp only [base, signed] at failed
      exact .inr (congrArg _ (Except.error.inj failed))
    | ok token => simp [base, signed] at failed

theorem nodeReply_error {i : Id} (made : op.commit admin db = .ok db') (shows : op.shownNode = some i)
    (failed : nodeReply db' i = .error e) : ResponseFails cfg site around op db' e := by
  obtain ⟨node, found⟩ := shownNode_found made shows
  simp only [nodeReply, found, bind, Except.bind] at failed
  split at failed
  · cases failed
  · rename_i unrendered
    exact .inr ⟨i, node, shows, found, by simpa using unrendered, (Except.error.inj failed).symm⟩

theorem reply_error (made : op.commit admin db = .ok db')
    (failed : op.reply cfg site around db db' = .error e) : ResponseFails cfg site around op db' e := by
  cases op with
  | createUser | updateUser | resetUsage | rotateSubscription => exact userReply_error made rfl failed
  | createNode | updateNode => exact nodeReply_error made rfl failed
  | attachNode | detachNode | deleteUser | disableNode => cases failed

/-- **A failed request** leaves the database as it was, unless it had committed. After its commit
it fails only in the synchronisation of Xray or in building its response; then it leaves what the
same request leaves when it succeeds. -/
theorem failed_operation (cfg : Settings) (site : Site) (admin : String) (around : Surroundings)
    (op : AdminOp) (db db' : Database) (e : HttpError)
    (failed : op.handle cfg site admin around db = some (db', .error e)) :
    ((∀ committed, op.commit admin db = .ok committed → around.stored = false) → db' = db) ∧
    ∀ committed, op.commit admin db = .ok committed → around.stored →
      db' = committed ∧
      (op.sync cfg around committed = some .raised ∨ ResponseFails cfg site around op committed e) ∧
      ∀ around' succeeded r, op.handle cfg site admin around' db = some (succeeded, .ok r) →
        db' = succeeded := by
  -- a success is a commit
  have success : ∀ {committed : Database}, op.commit admin db = .ok committed →
      ∀ around' succeeded r, op.handle cfg site admin around' db = some (succeeded, .ok r) →
        committed = succeeded := by
    intro committed made around' succeeded r ok
    generalize result : (Except.ok r : Except HttpError Reply) = reply at ok
    cases handle_inv ok with
    | refused | notStored | notSynced => cases result
    | replied _ made' => exact Except.ok.inj (made.symm.trans made')
  generalize result : (Except.error e : Except HttpError Reply) = reply at failed
  cases handle_inv failed with
  | refused e refused =>
    exact ⟨fun _ => rfl, fun committed made => by simp [refused] at made⟩
  | notStored committed made lost =>
    exact ⟨fun _ => rfl, fun _ _ stored => by simp [lost] at stored⟩
  | notSynced committed made stored raised =>
    refine ⟨fun lost => by simp [lost _ made] at stored, fun committed' made' _ => ?_⟩
    obtain rfl : db' = committed' := Except.ok.inj (made.symm.trans made')
    exact ⟨rfl, .inl raised, success made⟩
  | replied committed made stored synced =>
    refine ⟨fun lost => by simp [lost _ made] at stored, fun committed' made' _ => ?_⟩
    obtain rfl : db' = committed' := Except.ok.inj (made.symm.trans made')
    exact ⟨rfl, .inr (reply_error made result.symm), success made⟩

/-! ## A user created while Xray is down -/

def secondUser : AdminOp :=
  .createUser "second" (fun node => ⟨"second-" ++ node, "uuid-second", "", "", none, ""⟩) testUser

/-- Xray is not running, and it rejects the configuration of the restart. -/
def xrayDown : Surroundings :=
  { request := {}, stored := true, runtime := some .new, answers := [.acquired, .rejected], loadedAt := 0,
    repliedAt := 0 }

def anySite : Site := ⟨fun _ message => message, "", fun _ => .error internalError⟩

/-- The request fails and the new user is committed. -/
theorem secondUser_fails : ∃ s db', (plane {}).run (.initial 0) firstConnection = some s ∧
    secondUser.handle {} anySite "admin" xrayDown s.db = some (db', .error internalError) ∧
    s.db.users.find? "second" = none ∧ (db'.users.find? "second").isSome := by
  obtain ⟨s, run, facts⟩ := (Option.any_eq_true _ _).1
    (by decide +kernel : ((plane {}).run (.initial 0) firstConnection).any fun s =>
      (s.db.users.find? "second").isNone &&
      (secondUser.handle {} anySite "admin" xrayDown s.db).any fun ended =>
        (ended.1.users.find? "second").isSome &&
        match ended.2 with
        | .error e => e = internalError
        | .ok _ => false)
  simp only [Bool.and_eq_true, Option.any_eq_true, Option.isNone_iff_eq_none] at facts
  obtain ⟨absent, ⟨db', result⟩, ended, present, failed⟩ := facts
  split at failed
  · rename_i e error
    obtain rfl := of_decide_eq_true failed
    obtain rfl : result = .error internalError := error
    exact ⟨s, db', run, ended, absent, present⟩
  · cases failed

/-- What the failed request leaves is what the same request leaves without Xray. -/
theorem failed_operation_secondUser : ∃ s db', (plane {}).run (.initial 0) firstConnection = some s ∧
    secondUser.handle {} anySite "admin" xrayDown s.db = some (db', .error internalError) ∧
    ∀ around succeeded r,
      secondUser.handle {} anySite "admin" around s.db = some (succeeded, .ok r) → db' = succeeded := by
  obtain ⟨s, db', run, failed, absent, present⟩ := secondUser_fails
  obtain ⟨unchanged, committed⟩ :=
    failed_operation {} anySite "admin" xrayDown secondUser s.db db' internalError failed
  cases made : secondUser.commit "admin" s.db with
  | error e =>
    -- the user would not be there
    rw [unchanged fun _ made' => by simp [made] at made', absent] at present
    cases present
  | ok db'' => exact ⟨s, db', run, failed, (committed db'' made rfl).2.2⟩

/-- The request failed and the users are not the same as before. -/
theorem failure_after_commit :
    ¬ ∀ (cfg : Settings) (site : Site) (admin : String) (around : Surroundings) (op : AdminOp)
        (s : Plane) (db' : Database) (e : HttpError), (plane cfg).Reaches (.initial 0) s →
      op.handle cfg site admin around s.db = some (db', .error e) →
      db'.users = s.db.users ∧ db'.nodes = s.db.nodes ∧ db'.accessKeys = s.db.accessKeys := by
  intro claim
  obtain ⟨s, db', run, failed, absent, present⟩ := secondUser_fails
  have same := (claim {} anySite "admin" xrayDown secondUser s db' internalError ⟨_, run⟩ failed).1
  rw [same, absent] at present
  cases present

end Arena.Failures
