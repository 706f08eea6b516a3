import Arena.Model.Accounts

/-!
# The days that are shown

`days_remaining` adds 86399 to the seconds that are left and divides by 86400. On whole
seconds that is the ceiling in days; an expiry has microseconds, and what is left of a day
within its last second is rounded down.
-/

namespace Arena.Remaining

open Arena.Lib Arena.Model

variable {user : User} {now expiry : Instant}

/-- The time from `now` to an expiry, in days. -/
def daysTo (expiry now : Instant) : ℚ := ((expiry - now : ℤ) : ℚ) / ((86400000000 : ℕ) : ℚ)

/-- The expiry is ahead, by a number of whole days and a positive fraction of a second. -/
def LastSecond (expiry now : Instant) : Prop :=
  now < expiry ∧ 0 < (expiry - now) % 86400000000 ∧ (expiry - now) % 86400000000 < 1000000

/-- What is shown agrees with the expiry, and with its enforcement. -/
structure Agrees (user : User) (now expiry : Instant) : Prop where
  ceiling : daysRemaining user now = some (max 0 ⌈daysTo expiry now⌉)
  zero : user.active → (daysRemaining user now = some 0 ↔ (userAllowed user now).2 = .expired)

/-! ## The ceiling -/

theorem ceil_daysTo : ⌈daysTo expiry now⌉ = -(-(expiry - now) / 86400000000) :=
  Rat.ceil_intCast_div_natCast (expiry - now) 86400000000

/-- The integer division is the ceiling outside the last second of a day. -/
theorem rounded_eq_ceiling : max 0 ((expiry - now + 86399000000) / 86400000000) =
    max 0 ⌈daysTo expiry now⌉ ↔ ¬ LastSecond expiry now := by
  have arithmetic (left : ℤ) : max 0 ((left + 86399000000) / 86400000000) =
      max 0 (-(-left / 86400000000)) ↔
        ¬ (0 < left ∧ 0 < left % 86400000000 ∧ left % 86400000000 < 1000000) := by omega
  rw [ceil_daysTo, arithmetic, LastSecond, Int.sub_pos]

/-- The ceiling is 0 from the expiry on, and positive before. -/
theorem ceiling_zero : max 0 ⌈daysTo expiry now⌉ = 0 ↔ expiry ≤ now := by
  have arithmetic (left : ℤ) : max 0 (-(-left / 86400000000)) = 0 ↔ left ≤ 0 := by omega
  rw [ceil_daysTo, arithmetic, sub_nonpos]

/-! ## The two functions -/

theorem daysRemaining_of_expiry (now : Instant) (expires : userExpiry user = some expiry) :
    daysRemaining user now = some (max 0 ((expiry - now + 86399000000) / 86400000000)) := by
  simp [daysRemaining, expires]

/-- An active user is refused as expired from the expiry on. -/
theorem userAllowed_expired (expires : userExpiry user = some expiry) (active : user.active) :
    (userAllowed user now).2 = .expired ↔ expiry ≤ now := by
  simp only [userAllowed, active, Bool.not_true, Bool.false_eq_true, if_false, expires,
    Option.any_some, decide_eq_true_eq]
  split
  · simp [*]
  · split <;> simp [*]

/-- **The days that are shown** are the ceiling of the time that is left, and 0 exactly when the
user is refused as expired, unless that time is some whole days and less than a second. -/
theorem days_agree_iff (user : User) (now expiry : Instant)
    (expires : userExpiry user = some expiry) : Agrees user now expiry ↔ ¬ LastSecond expiry now := by
  have shown := daysRemaining_of_expiry now expires
  constructor
  · intro agrees
    rw [← rounded_eq_ceiling]
    exact Option.some.inj (shown.symm.trans agrees.ceiling)
  · intro whole
    have exact_ceiling := rounded_eq_ceiling.2 whole
    refine ⟨by rw [shown, exact_ceiling], fun active => ?_⟩
    rw [userAllowed_expired expires active, shown, exact_ceiling, Option.some.injEq, ceiling_zero]

/-- The user of the tests, with a validity of 30 days from the epoch, on the first day. -/
theorem days_agree_first : userExpiry { id := "u", startsAt := some 0 : User } = some (days 30) ∧
    Agrees { id := "u", startsAt := some 0 } 1 (days 30) :=
  ⟨rfl, (days_agree_iff _ _ _ rfl).2 (by unfold LastSecond; decide)⟩

/-- A microsecond before the expiry a user is shown 0 days and is let in. -/
theorem last_second_shown_zero : ¬ ∀ (user : User) (now expiry : Instant),
    userExpiry user = some expiry → Agrees user now expiry := by
  intro claim
  have agrees := claim { id := "u", expiresAt := some 1 } 0 1 rfl
  have refused := (agrees.zero rfl).1 (by decide)
  exact absurd refused (by decide)

end Arena.Remaining
