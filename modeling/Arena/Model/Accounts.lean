import Arena.Model.Schema

/-!
# Accounts

The account policy of `backend/app/services/accounts.py`: when a user expires, how many
days remain, and whether the user is allowed at an instant.
-/

namespace Arena.Model

/-- The verdicts of `user_allowed`. -/
inductive Reason where
  | allowed | userDisabled | expired | quotaExceeded
  deriving DecidableEq

def Reason.text : Reason → String
  | .allowed => "allowed"
  | .userDisabled => "user_disabled"
  | .expired => "expired"
  | .quotaExceeded => "quota_exceeded"

/-- `user_expiry`. A `validity_days` of 0 is false in Python. -/
def userExpiry (user : User) : Option Instant :=
  match user.expiresAt with
  | some e => some e
  | none => match user.startsAt with
    | some start => if user.validityDays = 0 then none else some (start + days user.validityDays)
    | none => none

/-- `user_allowed`. -/
def userAllowed (user : User) (now : Instant) : Bool × Reason :=
  if !user.active then (false, .userDisabled)
  else if (userExpiry user).any (· ≤ now) then (false, .expired)
  else if user.quotaBytes ≠ 0 ∧ user.quotaBytes ≤ user.usedBytes then (false, .quotaExceeded)
  else (true, .allowed)

/-- `days_remaining`, over exact time: `(seconds + 86399) // 86400` on a fractional number
of seconds, cut off at 0. -/
def daysRemaining (user : User) (now : Instant) : Option ℤ :=
  match userExpiry user with
  | none => if user.startsAt.isNone ∧ user.validityDays ≠ 0 then some user.validityDays else none
  | some expiry => some (max 0 ((expiry - now + 86399000000) / 86400000000))

/-- `user_allowed` as the three conditions it checks. -/
theorem userAllowed_iff {user : User} {now : Instant} :
    (userAllowed user now).1 = true ↔ user.active ∧ (∀ e ∈ userExpiry user, now < e) ∧
      (user.quotaBytes = 0 ∨ user.usedBytes < user.quotaBytes) := by
  unfold userAllowed
  cases user.active <;> cases userExpiry user <;> simp <;> grind

/-- A user denied at an instant is denied later on, and with more bytes used. -/
theorem userAllowed_mono {user user' : User} {now now' : Instant} (later : now ≤ now')
    (active : user'.active = user.active) (expiry : userExpiry user' = userExpiry user)
    (quota : user'.quotaBytes = user.quotaBytes) (used : user.usedBytes ≤ user'.usedBytes)
    (h : (userAllowed user' now').1 = true) : (userAllowed user now).1 = true := by
  rw [userAllowed_iff, active, expiry, quota] at h
  rw [userAllowed_iff]
  refine ⟨h.1, fun e he => lt_of_le_of_lt later (h.2.1 e he), ?_⟩
  rcases h.2.2 with free | below
  · exact .inl free
  · exact .inr (lt_of_le_of_lt used below)

end Arena.Model
