import Arena.Model.Limiter

/-!
# Whether `Wait` returns

`Wait` sleeps for as long as the missing tokens need at the bucket's rate, and `refill` keeps
no more than one second of tokens. A chunk of at most one second is let through in the third
round at the latest; a longer one never is, however often the loop sleeps.
-/

namespace Arena.Progress

open Arena.Lib Arena.Model

variable {b b' : Bucket} {bytes ns : ℤ} {now now' : ℚ} {late : ℕ → ℚ} {fuel : ℕ}

/-- The loop of `Wait` on a bucket that nobody else uses, for at most `fuel` rounds; the timer of
round `i` fires `late i` seconds after the wait that the round computed. -/
def waitLoop (bytes : ℤ) : ℕ → (ℕ → ℚ) → ℚ → Bucket → Option Bucket
  | 0, _, _, _ => none
  | fuel + 1, late, now, b =>
    match b.attempt bytes now with
    | (b, .sleep ns) =>
      waitLoop bytes fuel (fun i => late (i + 1)) (now + ns / 1000000000 + late 0) b
    | (b, _) => some b

/-- `Wait` returns nil after finitely many rounds, however late the timers fire. -/
def Returns (bytes : ℤ) (now : ℚ) (b : Bucket) : Prop :=
  ∀ late : ℕ → ℚ, (∀ i, 0 ≤ late i) → ∃ fuel, (waitLoop bytes fuel late now b).isSome

/-! ## One round -/

@[simp] theorem refill_rate : (b.refill now).rate = b.rate := rfl
@[simp] theorem refill_last : (b.refill now).last = some now := rfl

/-- A refill keeps at most one second of tokens. -/
theorem refill_tokens_le (positive : 0 < b.rate) : (b.refill now).tokens ≤ b.rate := by
  simp only [Bucket.refill, positive, if_true]
  split
  · exact le_rfl
  · rename_i below
    exact not_lt.1 below

/-- What a refill adds to a bucket that was filled before. -/
theorem refill_tokens (positive : 0 < b.rate) (read : b.last = some now) :
    (b.refill now').tokens = min (b.rate : ℚ) (b.tokens + (now' - now) * b.rate) := by
  simp only [Bucket.refill, positive, if_true, read, Option.getD_some]
  exact (min_def_lt _ _).symm

/-- A round at a positive rate, by the tokens after its refill. -/
theorem attempt_cases (bytes : ℤ) (now : ℚ) (positive : 0 < b.rate) :
    ((bytes : ℚ) ≤ (b.refill now).tokens ∧ (b.attempt bytes now).2 = .granted) ∨
    ((b.refill now).tokens < bytes ∧ b.attempt bytes now = (b.refill now,
      .sleep (max 1000000 ⌊(bytes - (b.refill now).tokens) / b.rate * 1000000000⌋))) := by
  have limited : ¬ b.rate ≤ 0 := not_le.2 positive
  by_cases enough : (bytes : ℚ) ≤ (b.refill now).tokens
  · exact .inl ⟨enough, by simp [Bucket.attempt, limited, enough]⟩
  · exact .inr ⟨not_le.1 enough, by simp [Bucket.attempt, limited, enough]⟩

/-- A granted round ends the loop. -/
theorem waitLoop_granted (granted : (b.attempt bytes now).2 = .granted) :
    (waitLoop bytes (fuel + 1) late now b).isSome := by
  unfold waitLoop
  split
  · rename_i slept
    rw [slept] at granted
    cases granted
  · rfl

/-- A round that sleeps goes on to the next one. -/
theorem waitLoop_sleep (slept : b.attempt bytes now = (b', .sleep ns)) :
    waitLoop bytes (fuel + 1) late now b =
      waitLoop bytes fuel (fun i => late (i + 1)) (now + ns / 1000000000 + late 0) b' := by
  rw [waitLoop, slept]

/-! ## A chunk of more than a second -/

/-- Every round finds at most one second of tokens. -/
theorem waitLoop_stuck (positive : 0 < b.rate) (long : b.rate < bytes) :
    waitLoop bytes fuel late now b = none := by
  induction fuel generalizing late now b with
  | zero => rfl
  | succ fuel ih =>
    rcases attempt_cases bytes now positive with ⟨enough, -⟩ | ⟨-, slept⟩
    · have : (bytes : ℚ) ≤ b.rate := enough.trans (refill_tokens_le positive)
      exact absurd (by exact_mod_cast this) (not_le.2 long)
    · rw [waitLoop_sleep slept]
      exact ih positive long

/-! ## A chunk of at most a second -/

/-- A sleep lasts at least a millisecond, and falls short of what the missing tokens need by less
than a nanosecond. -/
theorem sleep_bounds {missing rate : ℚ} (h : ns = max 1000000 ⌊missing / rate * 1000000000⌋) :
    1 / 1000 ≤ (ns : ℚ) / 1000000000 ∧ missing / rate - 1 / 1000000000 < ns / 1000000000 := by
  have least : (1000000 : ℤ) ≤ ns := h ▸ le_max_left _ _
  have floor : ⌊missing / rate * 1000000000⌋ ≤ ns := h ▸ le_max_right _ _
  have least' : (1000000 : ℚ) ≤ ns := by exact_mod_cast least
  have floor' : ((⌊missing / rate * 1000000000⌋ : ℤ) : ℚ) ≤ ns := by exact_mod_cast floor
  have below := Int.lt_floor_add_one (missing / rate * 1000000000)
  constructor
  · linarith
  · linarith

/-- A round that sleeps leaves the next one short of less than a nanosecond's tokens. -/
theorem short_after_sleep (positive : 0 < b.rate) (fits : bytes ≤ b.rate)
    (read : b.last = some now) (later : now + ns / 1000000000 ≤ now')
    (waited : ns = max 1000000 ⌊(bytes - b.tokens) / b.rate * 1000000000⌋) :
    (bytes : ℚ) - (b.refill now').tokens < b.rate / 1000000000 := by
  have rate : (0 : ℚ) < b.rate := by exact_mod_cast positive
  have fits' : (bytes : ℚ) ≤ b.rate := by exact_mod_cast fits
  have gained := (sleep_bounds waited).2
  have arrived : (bytes - b.tokens) - b.rate / 1000000000 < (now' - now) * b.rate := by
    have : (bytes - b.tokens) / b.rate - 1 / 1000000000 < now' - now := by linarith
    calc (bytes - b.tokens) - b.rate / 1000000000
        = ((bytes - b.tokens) / b.rate - 1 / 1000000000) * b.rate := by field_simp
      _ < (now' - now) * b.rate := mul_lt_mul_of_pos_right this rate
  rw [refill_tokens positive read]
  rcases le_total (b.rate : ℚ) (b.tokens + (now' - now) * b.rate) with above | below
  · rw [min_eq_left above]
    have : (0 : ℚ) < b.rate / 1000000000 := by positivity
    linarith
  · rw [min_eq_right below]
    linarith

/-- A millisecond is enough for what is then missing. -/
theorem granted_after_short (positive : 0 < b.rate) (fits : bytes ≤ b.rate)
    (read : b.last = some now) (short : (bytes : ℚ) - b.tokens < b.rate / 1000000000)
    (later : now + 1 / 1000 ≤ now') : (bytes : ℚ) ≤ (b.refill now').tokens := by
  have rate : (0 : ℚ) < b.rate := by exact_mod_cast positive
  have fits' : (bytes : ℚ) ≤ b.rate := by exact_mod_cast fits
  have arrived : 1 / 1000 * (b.rate : ℚ) ≤ (now' - now) * b.rate :=
    mul_le_mul_of_nonneg_right (by linarith) rate.le
  rw [refill_tokens positive read]
  refine le_min fits' ?_
  linarith

/-- **The third round at the latest** lets a chunk of at most one second through. -/
theorem waitLoop_three (positive : 0 < b.rate) (fits : bytes ≤ b.rate) (lateness : ∀ i, 0 ≤ late i) :
    (waitLoop bytes 3 late now b).isSome := by
  rcases attempt_cases bytes now positive with ⟨-, granted⟩ | ⟨-, slept⟩
  · exact waitLoop_granted granted
  rw [waitLoop_sleep slept]
  -- the second round, after a sleep for the missing tokens
  generalize waited : max 1000000 ⌊(bytes - (b.refill now).tokens) / b.rate * 1000000000⌋ = ns
  have second : now + ns / 1000000000 ≤ now + ns / 1000000000 + late 0 := by
    linarith [lateness 0]
  generalize now + (ns : ℚ) / 1000000000 + late 0 = now₁ at second ⊢
  have short := short_after_sleep (b := b.refill now) positive fits rfl second waited.symm
  have positive₁ : 0 < (b.refill now).rate := positive
  rcases attempt_cases bytes now₁ positive₁ with ⟨-, granted⟩ | ⟨-, slept₁⟩
  · exact waitLoop_granted granted
  rw [waitLoop_sleep slept₁]
  -- the third, after at least a millisecond more
  generalize waited₁ : max 1000000 ⌊(bytes - ((b.refill now).refill now₁).tokens) /
    (b.refill now).rate * 1000000000⌋ = ns₁
  have third : now₁ + 1 / 1000 ≤ now₁ + ns₁ / 1000000000 + late 1 := by
    linarith [lateness 1, (sleep_bounds waited₁.symm).1]
  generalize now₁ + (ns₁ : ℚ) / 1000000000 + late 1 = now₂ at third
  have positive₂ : 0 < ((b.refill now).refill now₁).rate := positive
  have enough := granted_after_short positive₂ fits rfl short third
  rcases attempt_cases bytes now₂ positive₂ with ⟨-, granted⟩ | ⟨missing, -⟩
  · exact waitLoop_granted granted
  · exact absurd enough (not_le.2 missing)

/-- **When `Wait` makes progress.** At every positive rate, from every balance and at every
instant, `Wait` returns if and only if the chunk is at most one second of tokens. -/
theorem wait_returns_iff (b : Bucket) (bytes : ℤ) (now : ℚ) (positive : 1 ≤ b.rate) :
    Returns bytes now b ↔ bytes ≤ b.rate := by
  have positive : 0 < b.rate := positive
  constructor
  · intro returns
    by_contra long
    obtain ⟨fuel, returned⟩ := returns (fun _ => 0) fun _ => le_rfl
    rw [waitLoop_stuck positive (not_le.1 long)] at returned
    cases returned
  · intro fits late lateness
    exact ⟨3, waitLoop_three positive fits lateness⟩

/-- The chunk of a full buffer at 8 Mbit/s, on an empty bucket. -/
theorem wait_returns_iff_full_buffer : Returns 32768 0 ⟨1000000, 0, some 0⟩ :=
  (wait_returns_iff ⟨1000000, 0, some 0⟩ 32768 0 (by decide)).2 (by decide)

/-- At 0.1 Mbit/s a full buffer never goes through, even on a full bucket. -/
theorem full_buffer_stuck :
    ¬ ∀ (b : Bucket) (bytes : ℤ) (now : ℚ), 1 ≤ b.rate → 1 ≤ bytes → bytes ≤ 32768 →
      Returns bytes now b := by
  intro claim
  obtain ⟨fuel, returned⟩ := claim (.new 12500 0) 32768 0 (by decide) (by decide) le_rfl
    (fun _ => 0) fun _ => le_rfl
  rw [waitLoop_stuck (by decide) (by decide)] at returned
  cases returned

end Arena.Progress
