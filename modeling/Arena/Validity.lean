import Arena.Model.Patches
import Arena.Model.UserRow

/-!
# When an edit of the validity takes effect

The first connection stores `expires_at` from the validity of that moment, and `user_expiry`
prefers the stored instant. `update_user` changes `validity_days` and leaves `expires_at`: the
edit takes effect on a user that has not connected, or that connected with no validity, and on
no other.
-/

namespace Arena.Validity

open Arena.Lib Arena.Model

variable {cfg : Settings} {now : Instant} {db : Database} {s s' : Plane} {e : Event}
  {u u' row : User} {p : UserUpdate}

/-- The expiry of a started user follows from its start and its validity. -/
def Effective (u : User) : Prop := ∀ start, u.startsAt = some start →
  userExpiry u = if u.validityDays = 0 then none else some (start + days u.validityDays)

/-- The event is no `PATCH` that supplies `expires_at`. -/
def LeavesExpiry : Event → Prop
  | .admin _ (.updateUser _ p) => p.expiresAt = .unset
  | _ => True

/-- The event is no `PATCH` without a refused `null` that gives a user whose expiry is stored
another validity. -/
def KeepsValidity (db : Database) : Event → Prop
  | .admin _ (.updateUser userId p) => p.refused = false → ∀ u ∈ db.users.rows, u.id = userId →
      u.expiresAt.isSome → p.validityDays.getD u.validityDays = u.validityDays
  | _ => True

instance (db : Database) : DecidablePred (KeepsValidity db)
  | .admin _ (.updateUser userId p) => inferInstanceAs (Decidable (p.refused = false →
      ∀ u ∈ db.users.rows, u.id = userId → u.expiresAt.isSome →
        p.validityDays.getD u.validityDays = u.validityDays))
  | .tick _ | .start .. | .authorize .. | .heartbeat _ | .close _ => isTrue trivial
  | .admin _ (.createUser ..) | .admin _ (.resetUsage _) | .admin _ (.rotateSubscription _) |
    .admin _ (.attachNode ..) | .admin _ (.detachNode ..) | .admin _ (.deleteUser _) |
    .admin _ (.createNode ..) | .admin _ (.updateNode ..) | .admin _ (.disableNode _) =>
    isTrue trivial

/-- The stored expiry, where there is one, is the start and the validity. -/
def Dated (u : User) : Prop := ∀ expiry, u.expiresAt = some expiry →
  ∃ start, u.startsAt = some start ∧ u.validityDays ≠ 0 ∧ expiry = start + days u.validityDays

theorem Dated.effective (dated : Dated u) : Effective u := by
  intro start started
  cases stored : u.expiresAt with
  | none => simp [userExpiry, stored, started]
  | some expiry =>
    obtain ⟨start', started', valid, rfl⟩ := dated expiry stored
    obtain rfl : start = start' := Option.some.inj (started.symm.trans started')
    simp [userExpiry, stored, valid]

/-- A stored expiry that the validity explains is the one of the validity. -/
theorem Dated.of_effective {expiry start : Instant} (effective : Effective u)
    (stored : u.expiresAt = some expiry) (started : u.startsAt = some start) :
    u.validityDays ≠ 0 ∧ expiry = start + days u.validityDays := by
  have said := effective start started
  simp only [userExpiry, stored] at said
  split at said
  · cases said
  · rename_i valid
    exact ⟨valid, Option.some.inj said⟩

/-- A `PATCH` without `expires_at` leaves it. -/
theorem apply_expiresAt (leaves : p.expiresAt = .unset) : (p.apply u).expiresAt = u.expiresAt := by
  simp [UserUpdate.apply, leaves, Patch.nullable]

/-- A `PATCH` that keeps the validity of a user whose expiry is stored. -/
theorem Dated.patched (dated : Dated u) (leaves : p.expiresAt = .unset)
    (same : u.expiresAt.isSome → p.validityDays.getD u.validityDays = u.validityDays) :
    Dated (p.apply u) := by
  intro expiry stored
  have stored₀ : u.expiresAt = some expiry := (apply_expiresAt leaves).symm.trans stored
  have validity : (p.apply u).validityDays = u.validityDays := same (by simp [stored₀])
  obtain ⟨start, started, valid, rfl⟩ := dated expiry stored₀
  rw [validity]
  exact ⟨start, started, valid, rfl⟩

theorem days_injective {m n : ℕ} (h : days m = days n) : m = n := by
  simp only [days] at h
  omega

/-- **The step lemma** for one row. -/
theorem dated_step {uid : Id} (before : ∀ u, db.users.find? uid = some u → Dated u)
    (leaves : LeavesExpiry e) (keeps : KeepsValidity db e) :
    ∀ u', (e.commit cfg now db).users.find? uid = some u' → Dated u' := by
  intro u' after
  have change := user_change cfg now db uid e
  rw [after] at change
  generalize was : db.users.find? uid = found at change
  cases change with
  | created name material p => simp [Dated, newUser]
  | moved _ u _ step =>
    have dated := before u was
    cases step with
    | kept => exact dated
    | started newId p _ mine allowed =>
      intro expiry stored
      cases started : u.startsAt with
      | some start =>
        simp only [User.start, started] at stored ⊢
        exact started ▸ dated expiry stored
      | none =>
        have unstored : u.expiresAt = none := by
          by_contra h
          obtain ⟨x, hx⟩ := Option.ne_none_iff_exists'.1 h
          obtain ⟨start, started', -⟩ := dated x hx
          simp [started] at started'
        simp only [User.start, started] at stored ⊢
        split at stored
        · simp [unstored] at stored
        · rename_i valid
          exact ⟨now, rfl, valid, (Option.some.inj stored).symm⟩
    | heard => exact dated
    | closed => exact dated
    | updated name p _ row patched =>
      obtain ⟨accepted, rfl⟩ := patchUser_eq_ok.1 patched
      exact dated.patched leaves (keeps accepted u (Table.find?_mem was) rfl)
    | reset => exact dated
    | rotated => exact dated

/-- Each user has a stored expiry only from its start. -/
def Inv (s : Plane) : Prop := ∀ uid u, s.db.users.find? uid = some u → Dated u

theorem inv_step (before : Inv s) (ok : LeavesExpiry e ∧ KeepsValidity s.db e)
    (step : (plane cfg).step s e = some s') : Inv s' := by
  obtain ⟨-, rfl⟩ := plane_step.1 step
  exact fun uid => dated_step (before uid) ok.1 ok.2

/-- An accepted `PATCH` leaves the user's expiry in effect exactly when the condition holds. -/
theorem effective_iff_keeps {name : String} (inv : Inv s) (leaves : p.expiresAt = .unset)
    (accepted : p.refused = false) (found : s.db.users.find? u.id = some u) :
    Effective (p.apply u) ↔ KeepsValidity s.db (.admin name (.updateUser u.id p)) := by
  have kept : (p.apply u).expiresAt = u.expiresAt := apply_expiresAt leaves
  constructor
  · intro effective _ u₁ mem same stored
    obtain rfl : u₁ = u := Table.eq_of_key_eq mem (Table.find?_mem found) same
    obtain ⟨expiry, stored⟩ := Option.isSome_iff_exists.1 stored
    obtain ⟨start, started, -, rfl⟩ := inv u₁.id u₁ found expiry stored
    have said := (Dated.of_effective effective (kept.trans stored) started).2
    exact (days_injective (add_left_cancel said)).symm
  · intro keeps
    have dated : Dated u := inv u.id u found
    exact (dated.patched leaves (keeps accepted u (Table.find?_mem found) rfl)).effective

/-- **When validity edits take effect.** In every run whose requests never supply `expires_at`
and never give another validity to a user whose expiry is stored, the expiry of each started
user, in each state, is its start plus its current validity. And the first accepted request
that does give one leaves a started user of whom that is false. -/
theorem validity_edits (cfg : Settings) (start : Instant) (es : List Event) (s : Plane)
    (run : (plane cfg).run (.initial start) es = some s)
    (leaves : ∀ e ∈ es, LeavesExpiry e)
    (keeps : (plane cfg).Along (fun s e => KeepsValidity s.db e) (.initial start) es) :
    (∀ u ∈ s.db.users.rows, Effective u) ∧
    ∀ (name : String) (u : User) (p : UserUpdate) (s' : Plane), u ∈ s.db.users.rows →
      p.expiresAt = .unset → p.refused = false →
      (plane cfg).step s (.admin name (.updateUser u.id p)) = some s' →
      ((∀ u ∈ s'.db.users.rows, Effective u) ↔
        KeepsValidity s.db (.admin name (.updateUser u.id p))) := by
  have along := (Machine.along_of_mem (m := plane cfg) leaves (.initial start)).and keeps
  have init : Inv (.initial start) := by
    intro uid u found
    simp [Plane.initial, Table.find?] at found
  have inv : Inv s := Machine.along_invariant inv_step init along run
  refine ⟨fun u mem => (inv u.id u (Table.find?_of_mem mem)).effective, ?_⟩
  intro name u p s' mem unset accepted step
  have found := Table.find?_of_mem mem
  constructor
  · intro effective
    obtain ⟨-, rfl⟩ := plane_step.1 step
    refine (effective_iff_keeps inv unset accepted found).1 (effective _ ?_)
    have patched : patchUser p u = .ok (p.apply u) := patchUser_eq_ok.2 ⟨accepted, rfl⟩
    simp only [Event.commit, AdminOp.commit, updateUser, getUser, found, patched, bind, Except.bind,
      Except.toOption, Option.getD_some, Database.addAudit_users, Database.updateUsers_users,
      Table.mem_update]
    exact ⟨u, mem, by simp⟩
  · intro keeps u' mem
    have leaves : LeavesExpiry (.admin name (.updateUser u.id p)) := unset
    exact (inv_step inv ⟨leaves, keeps⟩ step u'.id u' (Table.find?_of_mem mem)).effective

def thirtyDays : UserUpdate :=
  { UserUpdate.nothing with validityDays := .set 30, validityRange := by rintro _ ⟨⟩; decide }

def sixtyDays : UserUpdate :=
  { UserUpdate.nothing with validityDays := .set 60, validityRange := by rintro _ ⟨⟩; decide }

/-- A user of 14 days, edited to 30 before its first connection. -/
def editedFirst : List Event :=
  [.admin "admin" (.createNode "node" testNode), .admin "admin" (.createUser "user" testKeys testUser),
    .admin "admin" (.updateUser "user" thirtyDays), .tick 1000000,
    .authorize "session" { userId := "user", nodeId := "node", sourceIp := "203.0.113.10" }]

/-- The edit before the connection counts; the one to 60 days after it does not. -/
theorem validity_edits_once :
    ∃ s s' u, (plane {}).run (.initial 0) editedFirst = some s ∧ s.db.users.find? "user" = some u ∧
      Effective u ∧ (plane {}).step s (.admin "admin" (.updateUser "user" sixtyDays)) = some s' ∧
      ¬ ∀ u ∈ s'.db.users.rows, Effective u := by
  obtain ⟨s, run, facts⟩ := (Option.any_eq_true _ _).1
    (by decide +kernel : ((plane {}).run (.initial 0) editedFirst).any fun s =>
      (s.db.users.find? "user").any fun u =>
        ((plane {}).step s (.admin "admin" (.updateUser u.id sixtyDays))).isSome &&
        !decide (KeepsValidity s.db (.admin "admin" (.updateUser u.id sixtyDays))))
  simp only [Bool.and_eq_true, Option.any_eq_true, Bool.not_eq_true',
    decide_eq_false_iff_not, Option.isSome_iff_exists] at facts
  obtain ⟨u, found, ⟨s', step⟩, changes⟩ := facts
  have mem := Table.find?_mem found
  obtain ⟨effective, next⟩ := validity_edits {} 0 editedFirst s run
    (by simp [editedFirst, LeavesExpiry, thirtyDays, UserUpdate.nothing]) (by decide +kernel)
  refine ⟨s, s', u, run, found, effective u mem, Table.find?_key found ▸ step, ?_⟩
  exact fun all => changes ((next "admin" u sixtyDays s' mem rfl rfl step).1 all)

/-- An edit after the first connection changes the validity and leaves the expiry. -/
theorem late_edit_ignored :
    ¬ ∀ (cfg : Settings) (start : Instant) (es : List Event) (s : Plane),
      (plane cfg).run (.initial start) es = some s → (∀ e ∈ es, LeavesExpiry e) →
      ∀ u ∈ s.db.users.rows, Effective u := by
  intro claim
  obtain ⟨s, run, facts⟩ := (Option.any_eq_true _ _).1
    (by decide +kernel : ((plane {}).run (.initial 0)
      (firstConnection ++ [.admin "admin" (.updateUser "user" sixtyDays)])).any fun s =>
        (s.db.users.find? "user").any fun u => u.startsAt = some 0 && u.validityDays = 60 &&
          userExpiry u = some (days 14))
  simp only [Bool.and_eq_true, Option.any_eq_true, decide_eq_true_eq] at facts
  obtain ⟨u, found, ⟨⟨started, validity⟩, expiry⟩⟩ := facts
  have said := claim {} 0 _ s run (by simp [firstConnection, LeavesExpiry, sixtyDays, UserUpdate.nothing]) u
    (Table.find?_mem found) 0 started
  rw [validity, expiry] at said
  exact absurd said (by decide)

end Arena.Validity
