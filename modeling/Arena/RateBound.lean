import Arena.Lib.Metering
import Arena.Model.Limiter

/-!
# The limit on a user's traffic

The level of a bucket, what a refill now would leave in it, pays for every chunk that `Wait`
lets through and grows no faster than the rate. Reconnecting and changing the rate never raise
it, so a window of time sees at most one second's burst and the rate.
-/

namespace Arena.RateBound

open Arena.Lib Arena.Model

variable {R now now' : ℚ} {b : Bucket} {rate bytes : ℤ} {s s' : Limiter} {e : LimiterEvent}
  {user : Id}

/-! ## Buckets -/

/-- A bucket with a rate within the limit and its tokens in range, last read by now. -/
structure Fair (R now : ℚ) (b : Bucket) : Prop where
  positive : 0 < b.rate
  capped : (b.rate : ℚ) ≤ R
  nonneg : 0 ≤ b.tokens
  full : b.tokens ≤ b.rate
  read : ∃ last ≤ now, b.last = some last

/-- The tokens after a refill now. -/
def level (now : ℚ) (b : Bucket) : ℚ := (b.refill now).tokens

theorem Fair.rate_pos (fair : Fair R now b) : (0 : ℚ) < b.rate := by exact_mod_cast fair.positive

theorem Fair.level_eq (fair : Fair R now b) {last : ℚ} (read : b.last = some last) :
    level now' b = min (b.rate : ℚ) (b.tokens + (now' - last) * b.rate) := by
  simp only [level, Bucket.refill, fair.positive, if_true, read, Option.getD_some]
  split
  · rename_i above
    rw [min_eq_left above.le]
  · rename_i below
    rw [min_eq_right (not_lt.1 below)]

theorem Fair.later (fair : Fair R now b) (later : now ≤ now') : Fair R now' b := by
  obtain ⟨last, before, read⟩ := fair.read
  exact ⟨fair.positive, fair.capped, fair.nonneg, fair.full, last, before.trans later, read⟩

theorem Fair.level_nonneg (fair : Fair R now b) : 0 ≤ level now b := by
  obtain ⟨last, before, read⟩ := fair.read
  rw [fair.level_eq read]
  exact le_min fair.rate_pos.le
    (add_nonneg fair.nonneg (mul_nonneg (sub_nonneg.2 before) fair.rate_pos.le))

theorem Fair.level_le (fair : Fair R now b) : level now b ≤ b.rate := by
  obtain ⟨last, before, read⟩ := fair.read
  rw [fair.level_eq read]
  exact min_le_left _ _

theorem Fair.refill (fair : Fair R now b) : Fair R now (b.refill now) :=
  ⟨fair.positive, fair.capped, fair.level_nonneg, fair.level_le, now, le_rfl, rfl⟩

/-- A second refill at the same time adds nothing. -/
theorem Fair.level_self (fair : Fair R now b) (read : b.last = some now) : level now b = b.tokens := by
  rw [fair.level_eq read, sub_self, zero_mul, add_zero, min_eq_right fair.full]

/-- Time adds at most the rate. -/
theorem Fair.level_grows (fair : Fair R now b) (later : now ≤ now') :
    level now' b ≤ level now b + R * (now' - now) := by
  obtain ⟨last, before, read⟩ := fair.read
  have growth : (b.rate : ℚ) * (now' - now) ≤ R * (now' - now) :=
    mul_le_mul_of_nonneg_right fair.capped (sub_nonneg.2 later)
  have added : 0 ≤ (b.rate : ℚ) * (now' - now) := mul_nonneg fair.rate_pos.le (sub_nonneg.2 later)
  rw [fair.level_eq read, fair.level_eq read]
  rcases le_total (b.rate : ℚ) (b.tokens + (now - last) * b.rate) with above | below
  · rw [min_eq_left above]
    exact (min_le_left _ _).trans (by linarith)
  · rw [min_eq_right below]
    refine (min_le_right _ _).trans ?_
    linarith

theorem fair_new (positive : 0 < rate) (capped : (rate : ℚ) ≤ R) : Fair R now (Bucket.new rate now) := by
  have tokens : (0 : ℚ) ≤ rate := by exact_mod_cast positive.le
  exact ⟨positive, capped, tokens, le_rfl, now, le_rfl, rfl⟩

theorem setRate_tokens (positive : 0 < rate) :
    (b.setRate rate now).tokens = min (rate : ℚ) (level now b) := by
  simp only [Bucket.setRate, positive.ne', if_false]
  exact (min_def_lt _ _).symm

theorem Fair.setRate (fair : Fair R now b) (positive : 0 < rate) (capped : (rate : ℚ) ≤ R) :
    Fair R now (b.setRate rate now) := by
  have tokens : (0 : ℚ) ≤ rate := by exact_mod_cast positive.le
  refine ⟨positive, capped, ?_, ?_, now, le_rfl, rfl⟩
  · rw [setRate_tokens positive]
    exact le_min tokens fair.level_nonneg
  · rw [setRate_tokens positive]
    exact min_le_left _ _

/-- Changing the rate adds no tokens. -/
theorem Fair.level_setRate (fair : Fair R now b) (positive : 0 < rate) (capped : (rate : ℚ) ≤ R) :
    level now (b.setRate rate now) ≤ level now b := by
  rw [(fair.setRate positive capped).level_self rfl, setRate_tokens positive]
  exact min_le_right _ _

/-- A round of `Wait` pays for what it lets through. -/
theorem Fair.attempt (fair : Fair R now b) (some_bytes : 0 < bytes) :
    Fair R now (b.attempt bytes now).1 ∧
      (((b.attempt bytes now).2.through bytes : ℤ) : ℚ) + level now (b.attempt bytes now).1 =
        level now b := by
  have filled := fair.refill
  have limited : ¬ (b.refill now).rate ≤ 0 := not_le.2 filled.positive
  have cost : (0 : ℚ) < bytes := by exact_mod_cast some_bytes
  simp only [Bucket.attempt, limited, if_false]
  split
  · rename_i enough
    have paid : Fair R now { b.refill now with tokens := (b.refill now).tokens - bytes } :=
      ⟨filled.positive, filled.capped, by simpa using enough,
        (sub_le_self _ cost.le).trans filled.full, filled.read⟩
    refine ⟨paid, ?_⟩
    rw [paid.level_self rfl]
    simp [Bucket.Outcome.through, level]
  · refine ⟨filled, ?_⟩
    rw [filled.level_self rfl]
    simp [Bucket.Outcome.through, level]

/-! ## Steps -/

/-- Calls in progress ask for some bytes. -/
def Waits (s : Limiter) : Prop := ∀ call w, s.sleeping call = some w → 0 < w.bytes

theorem round_eq_some {call : ℕ} {owner : Id} (waits : Waits s)
    (round : s.round e = some (call, owner, bytes, b)) : s.buckets owner = some b ∧ 0 < bytes := by
  cases e with
  | wait c u n =>
    simp only [Limiter.round, Option.ite_none_right_eq_some, Option.map_eq_some_iff,
      Prod.mk.injEq] at round
    obtain ⟨⟨positive, -⟩, b', found, -, rfl, rfl, rfl⟩ := round
    exact ⟨found, positive⟩
  | wake c =>
    simp only [Limiter.round, Option.bind_eq_some_iff, Option.ite_none_right_eq_some,
      Option.map_eq_some_iff, Prod.mk.injEq] at round
    obtain ⟨w, asleep, -, b', found, -, rfl, rfl, rfl⟩ := round
    exact ⟨found, waits c w asleep⟩
  | _ => cases round

/-- What a step does to the bucket of a user. -/
inductive Touched (user : Id) (s s' : Limiter) (e : LimiterEvent) : Prop
  | left (kept : s'.buckets user = s.buckets user) (nothing : s.granted user e = 0)
      (forward : s.clock ≤ s'.clock)
  | opened (rate : ℤ) (passed : e.rateFor user = some rate) (absent : s.buckets user = none)
      (new : s'.buckets user = some (Bucket.new rate s.clock)) (nothing : s.granted user e = 0)
      (still : s'.clock = s.clock)
  | rated (rate : ℤ) (b : Bucket) (passed : e.rateFor user = some rate)
      (found : s.buckets user = some b) (set : s'.buckets user = some (b.setRate rate s.clock))
      (nothing : s.granted user e = 0) (still : s'.clock = s.clock)
  | tried (bytes : ℤ) (b : Bucket) (positive : 0 < bytes) (found : s.buckets user = some b)
      (left : s'.buckets user = some (b.attempt bytes s.clock).1)
      (through : s.granted user e = ((b.attempt bytes s.clock).2.through bytes : ℤ))
      (still : s'.clock = s.clock)

/-- A round of the loop touches the bucket of its owner. -/
theorem touched_of_round (waits : Waits s) (step : (s.round e).map s.runRound = some s') :
    Touched user s s' e := by
  obtain ⟨⟨call, owner, bytes, b⟩, round, rfl⟩ := Option.map_eq_some_iff.1 step
  obtain ⟨found, positive⟩ := round_eq_some waits round
  by_cases mine : owner = user
  · subst mine
    exact .tried bytes b positive found (by simp [Limiter.runRound, Limiter.setBucket])
      (by simp [Limiter.granted, round]) rfl
  · exact .left (by simp [Limiter.runRound, Limiter.setBucket, Function.update_of_ne (Ne.symm mine)])
      (by simp [Limiter.granted, round, mine]) le_rfl

/-- **The inversion lemma** for the bucket of a user. -/
theorem touched (user : Id) (waits : Waits s) (step : limiter.step s e = some s') :
    Touched user s s' e := by
  cases e with
  | tick elapsed =>
    simp only [limiter, Limiter.step, Option.ite_none_right_eq_some, Option.some.injEq] at step
    obtain ⟨forward, rfl⟩ := step
    exact .left rfl rfl (by simpa using forward)
  | forUser owner rate =>
    obtain rfl : s.forUser owner rate = s' := Option.some.inj step
    by_cases mine : owner = user
    · subst mine
      cases found : s.buckets owner with
      | none =>
        exact .opened rate (by simp [LimiterEvent.rateFor]) found
          (by simp [Limiter.forUser, found, Limiter.setBucket]) rfl
          (by simp [Limiter.forUser, found, Limiter.setBucket])
      | some b =>
        exact .rated rate b (by simp [LimiterEvent.rateFor]) found
          (by simp [Limiter.forUser, found, Limiter.setBucket]) rfl
          (by simp [Limiter.forUser, found, Limiter.setBucket])
    · cases found : s.buckets owner <;>
        exact .left (by simp [Limiter.forUser, found, Limiter.setBucket,
          Function.update_of_ne (Ne.symm mine)]) rfl
          (by simp [Limiter.forUser, found, Limiter.setBucket])
  | setRate owner rate =>
    obtain ⟨b, found, rfl⟩ := Option.map_eq_some_iff.1 step
    by_cases mine : owner = user
    · subst mine
      exact .rated rate b (by simp [LimiterEvent.rateFor]) found (by simp [Limiter.setBucket]) rfl rfl
    · exact .left (by simp [Limiter.setBucket, Function.update_of_ne (Ne.symm mine)]) rfl le_rfl
  | wait call owner bytes =>
    by_cases nothing : bytes ≤ 0
    · obtain rfl : s = s' := by simpa [limiter, Limiter.step, nothing] using step
      refine .left rfl ?_ le_rfl
      simp [Limiter.granted, Limiter.round, not_lt.2 nothing]
    · exact touched_of_round waits (by simpa [limiter, Limiter.step, nothing] using step)
  | wake call => exact touched_of_round waits step
  | cancel call =>
    obtain ⟨w, -, rfl⟩ := Option.map_eq_some_iff.1 step
    exact .left rfl rfl le_rfl

theorem waits_step (waits : Waits s) (step : limiter.step s e = some s') : Waits s' := by
  -- a round leaves its call asleep for its own bytes, or not at all
  have round : (s.round e).map s.runRound = some s' → Waits s' := by
    intro step c w asleep
    obtain ⟨⟨call, owner, bytes, b⟩, round, rfl⟩ := Option.map_eq_some_iff.1 step
    obtain ⟨-, positive⟩ := round_eq_some waits round
    by_cases same : c = call
    · subst same
      simp only [Limiter.runRound, Function.update_self] at asleep
      split at asleep
      · cases asleep
        exact positive
      · cases asleep
    · simp only [Limiter.runRound, Function.update_of_ne same] at asleep
      exact waits c w asleep
  cases e with
  | tick elapsed =>
    simp only [limiter, Limiter.step, Option.ite_none_right_eq_some, Option.some.injEq] at step
    obtain ⟨-, rfl⟩ := step
    exact waits
  | forUser owner rate =>
    obtain rfl : s.forUser owner rate = s' := Option.some.inj step
    have same : (s.forUser owner rate).sleeping = s.sleeping := by
      unfold Limiter.forUser
      split <;> rfl
    exact fun c w asleep => waits c w (same ▸ asleep)
  | setRate owner rate =>
    obtain ⟨b, -, rfl⟩ := Option.map_eq_some_iff.1 step
    exact waits
  | wait call owner bytes =>
    by_cases nothing : bytes ≤ 0
    · obtain rfl : s = s' := by simpa [limiter, Limiter.step, nothing] using step
      exact waits
    · exact round (by simpa [limiter, Limiter.step, nothing] using step)
  | wake call => exact round step
  | cancel call =>
    obtain ⟨w, -, rfl⟩ := Option.map_eq_some_iff.1 step
    intro c w' asleep
    by_cases same : c = call
    · simp [same] at asleep
    · simp only [Function.update_of_ne same] at asleep
      exact waits c w' asleep

/-! ## Runs -/

/-- The calls in progress ask for some bytes, and the user's bucket is fair. -/
structure Inv (R : ℚ) (user : Id) (s : Limiter) : Prop where
  waits : Waits s
  fair : ∀ b, s.buckets user = some b → Fair R s.clock b

/-- The credit of a user: a full second's burst before the first connection. -/
def credit (R : ℚ) (user : Id) (s : Limiter) : ℚ :=
  match s.buckets user with
  | none => R
  | some b => level s.clock b

/-- The event passes no rate for the user outside the limit. -/
def Within (R : ℚ) (user : Id) (e : LimiterEvent) : Prop :=
  ∀ rate, e.rateFor user = some rate → 0 < rate ∧ (rate : ℚ) ≤ R

/-- The limiter is metered at the highest rate passed. -/
theorem metered (positive : 0 ≤ R) (user : Id) :
    Metered limiter (Inv R user) (Within R user) Limiter.clock (credit R user)
      (Limiter.granted user) R where
  keep := by
    intro s e s' inv within step
    refine ⟨waits_step inv.waits step, fun b found => ?_⟩
    cases touched user inv.waits step with
    | left kept nothing forward => exact (inv.fair b (kept ▸ found)).later forward
    | opened rate passed absent new nothing still =>
      obtain rfl : Bucket.new rate s.clock = b := Option.some.inj (new.symm.trans found)
      obtain ⟨low, high⟩ := within rate passed
      exact still ▸ fair_new low high
    | rated rate b₀ passed found₀ set nothing still =>
      obtain rfl : b₀.setRate rate s.clock = b := Option.some.inj (set.symm.trans found)
      obtain ⟨low, high⟩ := within rate passed
      exact still ▸ (inv.fair b₀ found₀).setRate low high
    | tried bytes b₀ positive found₀ left through still =>
      obtain rfl : (b₀.attempt bytes s.clock).1 = b := Option.some.inj (left.symm.trans found)
      exact still ▸ ((inv.fair b₀ found₀).attempt positive).1
  bounds := by
    intro s inv
    unfold credit
    cases found : s.buckets user with
    | none => exact ⟨positive, le_rfl⟩
    | some b =>
      have fair := inv.fair b found
      exact ⟨fair.level_nonneg, fair.level_le.trans fair.capped⟩
  forward := by
    intro s e s' inv within step
    cases touched user inv.waits step with
    | left kept nothing forward => exact forward
    | opened rate passed absent new nothing still => exact still.ge
    | rated rate b passed found set nothing still => exact still.ge
    | tried bytes b positive found left through still => exact still.ge
  still := by
    intro s e s' inv within step
    cases touched user inv.waits step with
    | left kept nothing forward => exact .inl nothing
    | opened rate passed absent new nothing still => exact .inr still
    | rated rate b passed found set nothing still => exact .inr still
    | tried bytes b positive found left through still => exact .inr still
  pays := by
    intro s e s' inv within step
    cases touched user inv.waits step with
    | left kept nothing forward =>
      simp only [credit, kept, nothing, zero_add]
      cases found : s.buckets user with
      | none =>
        have grown : 0 ≤ R * (s'.clock - s.clock) := mul_nonneg positive (sub_nonneg.2 forward)
        simpa using grown
      | some b => exact (inv.fair b found).level_grows forward
    | opened rate passed absent new nothing still =>
      obtain ⟨low, high⟩ := within rate passed
      have fair : Fair R s.clock (Bucket.new rate s.clock) := fair_new low high
      simp only [credit, absent, new, nothing, still, sub_self, mul_zero, add_zero, zero_add]
      exact fair.level_le.trans fair.capped
    | rated rate b passed found set nothing still =>
      obtain ⟨low, high⟩ := within rate passed
      simp only [credit, found, set, nothing, still, sub_self, mul_zero, add_zero, zero_add]
      exact (inv.fair b found).level_setRate low high
    | tried bytes b positive found left through still =>
      simp only [credit, found, left, through, still, sub_self, mul_zero, add_zero]
      exact ((inv.fair b found).attempt positive).2.le

/-- **The limit on a user's traffic.** In every run whose calls pass only rates in `(0, R]` for
the user, the tokens of its bucket are between 0 and its rate in every state, and no window of
time sees more bytes let through than one burst and the rate. -/
theorem rate_bound (R : ℚ) (user : Id) (start : ℚ) (es : List LimiterEvent) (s : Limiter)
    (positive : 0 < R) (run : limiter.run (.initial start) es = some s)
    (rates : ∀ e ∈ es, ∀ rate, e.rateFor user = some rate → 0 < rate ∧ (rate : ℚ) ≤ R) :
    (∀ b, s.buckets user = some b → 0 ≤ b.tokens ∧ b.tokens ≤ b.rate) ∧
    ∀ from_time to_time, from_time ≤ to_time →
      limiter.total (Metered.within Limiter.clock (Limiter.granted user) from_time to_time)
        (.initial start) es ≤ R + R * (to_time - from_time) := by
  have met := metered positive.le user
  have init : Inv R user (.initial start) := by
    constructor
    · intro call w asleep
      cases asleep
    · intro b found
      cases found
  have along : limiter.Along (fun _ e => Within R user e) (.initial start) es :=
    Machine.along_of_mem rates _
  have inv : Inv R user s := Machine.along_invariant met.keep init along run
  refine ⟨fun b found => ?_, fun a b window => met.total_within init rates run window⟩
  have fair := inv.fair b found
  exact ⟨fair.nonneg, fair.full⟩

/-- Two connections of one user, the second of which lowers the rate and has to sleep. -/
def twoConnections : List LimiterEvent :=
  [.forUser "user" 100, .wait 0 "user" 60, .forUser "user" 50, .wait 1 "user" 60, .tick 1, .wake 1,
    .setRate "user" 100, .tick 1, .wake 1]

theorem rate_bound_two_connections :
    (limiter.run (.initial 0) twoConnections).isSome ∧
      limiter.total (Metered.within Limiter.clock (Limiter.granted "user") 0 2) (.initial 0)
        twoConnections ≤ 100 + 100 * (2 - 0) := by
  obtain ⟨s, run⟩ := Option.isSome_iff_exists.1
    (by decide +kernel : (limiter.run (.initial 0) twoConnections).isSome)
  have rates : ∀ e ∈ twoConnections, ∀ rate, e.rateFor "user" = some rate →
      0 < rate ∧ (rate : ℚ) ≤ 100 := by
    intro e mem rate passed
    simp only [twoConnections, List.mem_cons, List.not_mem_nil, or_false] at mem
    rcases mem with rfl | rfl | rfl | rfl | rfl | rfl | rfl | rfl | rfl <;>
      simp [LimiterEvent.rateFor] at passed <;> subst passed <;> norm_num
  obtain ⟨-, bound⟩ := rate_bound 100 "user" 0 twoConnections s (by norm_num) run rates
  exact ⟨by simp [run], bound 0 2 (by norm_num)⟩

end Arena.RateBound
