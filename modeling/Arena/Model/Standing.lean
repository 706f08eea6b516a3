import Arena.Model.UserRow

/-!
# Denial lasts until an administrator ends it

`user_allowed` reads the account and the clock. Gateway requests only add traffic, start an
allowed user's validity period, and let time pass: none of them turns a denied user into an
allowed one. Only creating the user, updating it and resetting its usage can.
-/

namespace Arena.Model

open Arena.Lib

variable {cfg : Settings} {uid : Id} {now : Instant} {db db' : Database} {s s' : Plane} {e : Event}

/-- There is such a user, and `user_allowed` accepts it. -/
def Database.allows (db : Database) (uid : Id) (now : Instant) : Prop :=
  ∃ user, db.users.find? uid = some user ∧ (userAllowed user now).1

/-- The requests that can end a denial of this user. -/
def Readmits (uid : Id) : Event → Prop
  | .admin _ (.createUser newId ..) => newId = uid
  | .admin _ (.updateUser userId _) => userId = uid
  | .admin _ (.resetUsage userId) => userId = uid
  | _ => False

/-- More traffic does not make a user allowed. -/
theorem allowed_of_addTraffic {u : User} {up down : ℕ}
    (h : (userAllowed (u.addTraffic up down) now).1) : (userAllowed u now).1 := by
  have grows : u.usedBytes ≤ (u.addTraffic up down).usedBytes := by
    simp only [User.usedBytes, User.addTraffic_usedUpBytes, User.addTraffic_usedDownBytes]
    omega
  have active : (u.addTraffic up down).active = u.active := rfl
  exact userAllowed_mono le_rfl active rfl rfl grows h

/-- An instant later does not make a user allowed. -/
theorem allows_earlier {now' : Instant} (later : now ≤ now') (h : db.allows uid now') :
    db.allows uid now := by
  obtain ⟨user, found, allowed⟩ := h
  exact ⟨user, found, userAllowed_mono later rfl rfl rfl le_rfl allowed⟩

/-- **The step lemma**: an event that ends no denial of this user leaves a denied user
denied. -/
theorem denial_step (step : (plane cfg).step s e = some s') (other : ¬ Readmits uid e)
    (allowed : s'.db.allows uid s'.now) : s.db.allows uid s.now := by
  obtain ⟨-, rfl⟩ := plane_step.1 step
  have now_le : s.now ≤ s.now + e.elapsed := by simp
  obtain ⟨user, after, ok⟩ : (e.commit cfg s.now s.db).allows uid s.now := allows_earlier now_le allowed
  have change := user_change cfg s.now s.db uid e
  generalize before : s.db.users.find? uid = was at change
  generalize (e.commit cfg s.now s.db).users.find? uid = is at change after
  cases change with
  | absent | deleted => cases after
  | created name material p => exact absurd rfl other
  | moved e u u' step =>
    obtain rfl := Option.some.inj after
    refine ⟨u, before, ?_⟩
    cases step with
    | kept | rotated => exact ok
    -- an admitted request starts the user it found allowed
    | started newId p u mine found => exact found
    | heard | closed => exact allowed_of_addTraffic ok
    | updated | reset => exact absurd (Table.find?_key before) other

/-- **The run lemma**: a denied user stays denied until an administrator ends it. -/
theorem denial_run {es : List Event} (run : (plane cfg).run s es = some s')
    (other : ∀ e ∈ es, ¬ Readmits uid e) (denied : ¬ s.db.allows uid s.now) :
    ¬ s'.db.allows uid s'.now := by
  have along : (plane cfg).Along (fun _ e => ¬ Readmits uid e) s es := Machine.along_of_mem other s
  have keep : ∀ {s e s'}, ¬ s.db.allows uid s.now → ¬ Readmits uid e →
      (plane cfg).step s e = some s' → ¬ s'.db.allows uid s'.now :=
    fun before quiet step allowed => before (denial_step step quiet allowed)
  exact Machine.along_invariant (I := fun s => ¬ s.db.allows uid s.now) keep denied along run

end Arena.Model
