import Arena.Model.Frames
import Arena.Model.Limiter
import Arena.Model.Patches

/-!
# A limit that is stored as 0

`create_user` and `update_user` cut `quota_gb` and `speed_mbps` down to whole bytes, and 0 is
the value that `user_allowed` and `Wait` take for no limit. The schemas accept every positive
number: one below a byte, or below a byte a second, becomes no limit at all.
-/

namespace Arena.Truncation

open Arena.Lib Arena.Model

variable {cfg : Settings} {now : Instant} {newId : Id} {admin : String} {db db' : Database}
  {u v row : User} {b : Bucket} {quotaGb speedMbps : ℚ} {limit : ℕ} {rate bytes : ℤ} {t : ℚ}

/-- Whatever happens to a user with this row's quota: once its bytes reach `quota_gb`, the verdict
on it is `quota_exceeded`, unless it is disabled or expired. -/
def QuotaHolds (quotaGb : ℚ) (row : User) : Prop :=
  ∀ (v : User) (now : Instant), v.quotaBytes = row.quotaBytes → v.active →
    (∀ e ∈ userExpiry v, now < e) → quotaGb * 1024 ^ 3 ≤ v.usedBytes →
    userAllowed v now = (false, .quotaExceeded)

/-- The buckets to which the gateway applies a `speed_limit_bps`: `ForUser` for a connection and
`SetRate` after a heartbeat. -/
inductive Applied (limit : ℕ) : Bucket → Prop
  | connected (s : Limiter) (user : Id) (b : Bucket)
      (bucket : (s.forUser user limit).buckets user = some b) : Applied limit b
  | heard (b : Bucket) (t : ℚ) : Applied limit (b.setRate limit t)

/-- No round of `Wait` takes the limit for no limit. -/
def Limits (limit : ℕ) : Prop :=
  ∀ b, Applied limit b → ∀ bytes t, (b.attempt bytes t).2 ≠ .unlimited

/-- The values of `speed_limit_bps` that the gateway is sent for a user. -/
inductive Sent (v : User) : ℕ → Prop
  | authorized (cfg now newId p db reply) (mem : v ∈ db.users.rows) (mine : v.id = p.userId)
      (ok : (authorize cfg now newId p db).2 = .ok reply) : Sent v reply.speedLimitBps
  | heard (now p db session reply) (mem : v ∈ db.users.rows) (mine : v.id = session.userId)
      (found : db.openSession p.sessionId = some session)
      (ok : (heartbeat now p db).2 = .ok reply) : Sent v reply.speedLimitBps

/-- Whatever the gateway is sent for a user with this row's limit makes `Wait` limit it. -/
def SpeedHolds (row : User) : Prop :=
  ∀ v : User, v.speedLimitBps = row.speedLimitBps → ∀ limit, Sent v limit → Limits limit

/-! ## Truncation -/

/-- A positive number of bytes is cut down to 0 exactly when it is less than one byte. -/
theorem floor_pos_iff {q : ℚ} : 0 < ⌊q⌋.toNat ↔ 1 ≤ q := by
  rw [Int.pos_iff_toNat_pos.symm, Int.floor_pos]

theorem quotaBytesOf_pos_iff : 0 < quotaBytesOf quotaGb ↔ 1 / 1024 ^ 3 ≤ quotaGb := by
  rw [quotaBytesOf, floor_pos_iff, div_le_iff₀ (by positivity)]

theorem speedLimitOf_pos_iff : 0 < speedLimitOf speedMbps ↔ 8 / 1000000 ≤ speedMbps := by
  rw [speedLimitOf, floor_pos_iff, le_div_iff₀ (by positivity), div_le_iff₀ (by positivity), one_mul]

/-- What is stored is never more than what was given. -/
theorem quotaBytesOf_le (positive : 0 < quotaGb) : (quotaBytesOf quotaGb : ℚ) ≤ quotaGb * 1024 ^ 3 := by
  have nonneg : 0 ≤ ⌊quotaGb * 1024 ^ 3⌋ := Int.floor_nonneg.2 (by positivity)
  have stored : ((quotaBytesOf quotaGb : ℤ) : ℚ) = ⌊quotaGb * 1024 ^ 3⌋ := by
    rw [quotaBytesOf, Int.toNat_of_nonneg nonneg]
  calc (quotaBytesOf quotaGb : ℚ) = ⌊quotaGb * 1024 ^ 3⌋ := by exact_mod_cast stored
    _ ≤ quotaGb * 1024 ^ 3 := Int.floor_le _

/-! ## The quota -/

theorem userAllowed_exceeded (active : v.active) (current : ∀ e ∈ userExpiry v, now < e)
    (limited : v.quotaBytes ≠ 0) (used : v.quotaBytes ≤ v.usedBytes) :
    userAllowed v now = (false, .quotaExceeded) := by
  unfold userAllowed
  have unexpired : ¬ (userExpiry v).any (· ≤ now) := by
    rw [Option.any_eq_true]
    rintro ⟨e, expiry, past⟩
    exact absurd (current e expiry) (not_lt.2 (of_decide_eq_true past))
  simp [active, unexpired, limited, used]

/-- A quota that was stored for a positive number holds unless it was cut down to 0. -/
theorem quotaHolds_iff (positive : 0 < quotaGb) (stored : row.quotaBytes = quotaBytesOf quotaGb) :
    QuotaHolds quotaGb row ↔ 1 / 1024 ^ 3 ≤ quotaGb := by
  rw [← quotaBytesOf_pos_iff]
  constructor
  · intro holds
    by_contra zero
    -- one byte used, on an account that is active and does not expire
    let v : User := { row with active := true, startsAt := none, expiresAt := none, usedUpBytes := 1 }
    have small : quotaGb * 1024 ^ 3 < 1 := by
      by_contra large
      exact zero (floor_pos_iff.2 (not_lt.1 large))
    have used : (1 : ℚ) ≤ v.usedBytes := by
      have : 1 ≤ v.usedBytes := Nat.le_add_right _ _
      exact_mod_cast this
    have denied := holds v 0 rfl rfl (by simp [v, userExpiry]) (small.le.trans used)
    have unlimited : row.quotaBytes = 0 := by omega
    simp [userAllowed, v, userExpiry, unlimited] at denied
  · intro kept v now same active current reached
    refine userAllowed_exceeded active current (by omega) ?_
    have below : (v.quotaBytes : ℚ) ≤ v.usedBytes := by
      rw [same, stored]
      exact (quotaBytesOf_le positive).trans reached
    exact_mod_cast below

/-! ## The speed limit -/

theorem setRate_rate : (b.setRate rate t).rate = rate := rfl

/-- The rate of a bucket is the limit that was applied to it. -/
theorem Applied.rate_eq (applied : Applied limit b) : b.rate = limit := by
  cases applied with
  | connected s user b bucket =>
    unfold Limiter.forUser at bucket
    split at bucket <;>
      · simp only [Limiter.setBucket, Function.update_self, Option.some.injEq] at bucket
        subst bucket
        rfl
  | heard b t => rfl

theorem attempt_unlimited_iff : (b.attempt bytes t).2 = .unlimited ↔ b.rate ≤ 0 := by
  have same : (b.refill t).rate = b.rate := rfl
  simp only [Bucket.attempt, same]
  split
  · simp_all
  · split <;> simp_all

theorem limits_iff : Limits limit ↔ 0 < limit := by
  constructor
  · intro limits
    by_contra zero
    refine limits _ (.heard ⟨0, 0, none⟩ 0) 1 0 (attempt_unlimited_iff.2 ?_)
    rw [setRate_rate]
    omega
  · intro positive b applied bytes t unlimited
    have := attempt_unlimited_iff.1 unlimited
    rw [applied.rate_eq] at this
    omega

/-! ## What is sent -/

/-- What is sent is the limit of the user's row. -/
theorem Sent.eq (sent : Sent v limit) : limit = v.speedLimitBps := by
  cases sent with
  | authorized cfg now newId p db reply mem mine ok =>
    rcases authorize_cases (Prod.mk.eta (p := authorize cfg now newId p db)).symm with
      ⟨event, err, -, refused, -⟩ | ⟨-, refused⟩ | ⟨user, node, verdict, -, said⟩
    · rw [refused] at ok; cases ok
    · rw [refused] at ok; cases ok
    · obtain ⟨owner, -⟩ := decideRoute_admitted_iff.1 verdict
      rw [finishStaleSessions_users, ← mine, Table.find?_of_mem mem] at owner
      rw [said] at ok
      cases ok
      cases owner
      rfl
  | heard now p db session reply mem mine found ok =>
    unfold heartbeat at ok
    rw [found] at ok
    dsimp only at ok
    rw [← mine, Table.find?_of_mem mem] at ok
    dsimp only at ok
    split at ok <;> exact (Except.ok.inj ok) ▸ rfl

def noLimit : UserUpdate :=
  { UserUpdate.nothing with speedMbps := .set 0, speedRange := by rintro _ ⟨⟩; decide }

/-- A user whose limit is 0 is sent it, in a run that ends with a heartbeat. -/
theorem sent_zero : ∃ v : User, v.speedLimitBps = 0 ∧ Sent v 0 := by
  obtain ⟨s, -, facts⟩ := (Option.any_eq_true _ _).1
    (by decide +kernel : ((plane {}).run (.initial 0)
      (firstConnection ++ [.admin "admin" (.updateUser "user" noLimit)])).any fun s =>
        (s.db.openSession "session").any fun session =>
          (s.db.users.find? session.userId).any fun v => decide (v.speedLimitBps = 0) &&
            ((heartbeat 0 { sessionId := "session" } s.db).2.toOption.any fun reply =>
              decide (reply.speedLimitBps = 0)))
  simp only [Option.any_eq_true, Bool.and_eq_true, decide_eq_true_eq] at facts
  obtain ⟨session, opened, v, owner, unlimited, reply, said, zero⟩ := facts
  exact ⟨v, unlimited, zero ▸ .heard 0 _ s.db session reply (Table.find?_mem owner)
    (Table.find?_key owner) opened (toOption_eq_some.1 said)⟩

/-- A speed limit that was stored holds unless it was cut down to 0. -/
theorem speedHolds_iff (stored : row.speedLimitBps = speedLimitOf speedMbps) :
    SpeedHolds row ↔ 8 / 1000000 ≤ speedMbps := by
  rw [← speedLimitOf_pos_iff, ← stored]
  constructor
  · intro holds
    by_contra zero
    obtain ⟨v, unlimited, sent⟩ := sent_zero
    exact absurd (limits_iff.1 (holds v (by omega) 0 sent)) (lt_irrefl 0)
  · intro positive v same limit sent
    rw [sent.eq, same]
    exact limits_iff.2 positive

/-! ## The commits -/

theorem createUser_stores {material : Id → KeyMaterial} {p : UserCreate}
    (committed : createUser admin newId material p db = .ok db') :
    db'.users.find? newId = some (newUser newId p) := by
  have commits : AdminOp.commit admin (.createUser newId material p) db = .ok db' := committed
  cases commit_inv commits with
  | createUser _ _ _ users =>
    rw [Table.find?_insert users]
    simp [newUser]

theorem updateUser_stores {userId : Id} {p : UserUpdate}
    (committed : updateUser admin userId p db = .ok db') :
    ∃ u row, db.users.find? userId = some u ∧ db'.users.find? userId = some row ∧ row = p.apply u := by
  have commits : AdminOp.commit admin (.updateUser userId p) db = .ok db' := committed
  cases commit_inv commits with
  | updateUser _ _ user row found patched users =>
    obtain ⟨-, rfl⟩ := patchUser_eq_ok.1 patched
    refine ⟨user, _, found, ?_, rfl⟩
    rw [users, Table.find?_update, found]
    simp [Table.find?_key found]

/-- **When a positive limit limits.** After a `create_user` and after an `update_user` that gave
one, a positive `quota_gb` is enforced exactly from one byte up, and a positive `speed_mbps`
exactly from one byte a second up. -/
theorem positive_limits (admin : String) (db db' : Database) :
    (∀ (newId : Id) (material : Id → KeyMaterial) (p : UserCreate),
      createUser admin newId material p db = .ok db' →
      ∃ row, db'.users.find? newId = some row ∧
        (0 < p.quotaGb → (QuotaHolds p.quotaGb row ↔ 1 / 1024 ^ 3 ≤ p.quotaGb)) ∧
        (0 < p.speedMbps → (SpeedHolds row ↔ 8 / 1000000 ≤ p.speedMbps))) ∧
    ∀ (userId : Id) (p : UserUpdate), updateUser admin userId p db = .ok db' →
      ∃ row, db'.users.find? userId = some row ∧
        (∀ quotaGb, p.quotaGb = .set quotaGb → 0 < quotaGb →
          (QuotaHolds quotaGb row ↔ 1 / 1024 ^ 3 ≤ quotaGb)) ∧
        ∀ speedMbps, p.speedMbps = .set speedMbps → 0 < speedMbps →
          (SpeedHolds row ↔ 8 / 1000000 ≤ speedMbps) := by
  constructor
  · intro newId material p committed
    exact ⟨_, createUser_stores committed, fun positive => quotaHolds_iff positive rfl,
      fun _ => speedHolds_iff rfl⟩
  · intro userId p committed
    obtain ⟨u, row, -, found, rfl⟩ := updateUser_stores committed
    refine ⟨_, found, fun quotaGb given positive => quotaHolds_iff positive ?_,
      fun speedMbps given _ => speedHolds_iff ?_⟩
    · simp [UserUpdate.apply, given, Patch.map, Patch.getD]
    · simp [UserUpdate.apply, given, Patch.map, Patch.getD]

/-- A tenth of a byte, and a tenth of a byte a second. -/
def tiny : UserUpdate :=
  { UserUpdate.nothing with
    quotaGb := .set (1 / 10 / 1024 ^ 3)
    quotaRange := by rintro _ ⟨⟩; norm_num
    speedMbps := .set (8 / 10000000)
    speedRange := by rintro _ ⟨⟩; norm_num }

/-- The installation of the tests, whose user has a gibibyte and 8 Mbit/s. -/
theorem positive_limits_tested :
    ∃ db db', createUser "admin" "user" testKeys testUser db = .ok db' ∧
      ∃ row, db'.users.find? "user" = some row ∧ QuotaHolds 1 row ∧ SpeedHolds row := by
  obtain ⟨db', committed⟩ := Option.isSome_iff_exists.1
    (by decide +kernel : (createUser "admin" "user" testKeys testUser .empty).toOption.isSome)
  have created : createUser "admin" "user" testKeys testUser .empty = .ok db' :=
    toOption_eq_some.1 committed
  obtain ⟨row, found, quota, speed⟩ :=
    (positive_limits "admin" .empty db').1 "user" testKeys testUser created
  exact ⟨.empty, db', created, row, found, (quota (by decide)).2 (by decide +kernel),
    (speed (by decide)).2 (by decide +kernel)⟩

/-- A quota of a tenth of a byte is no quota, and a limit of a tenth of a byte a second no
limit. -/
theorem tiny_limits_unlimited :
    ¬ ∀ (admin : String) (userId : Id) (p : UserUpdate) (db db' : Database) (row : User),
      updateUser admin userId p db = .ok db' → db'.users.find? userId = some row →
      (∀ quotaGb, p.quotaGb = .set quotaGb → 0 < quotaGb → QuotaHolds quotaGb row) ∧
      ∀ speedMbps, p.speedMbps = .set speedMbps → 0 < speedMbps → SpeedHolds row := by
  intro claim
  obtain ⟨s, -, facts⟩ := (Option.any_eq_true _ _).1
    (by decide +kernel : ((plane {}).run (.initial 0) firstConnection).any fun s =>
      (updateUser "admin" "user" tiny s.db).toOption.any fun db' =>
        (db'.users.find? "user").any fun row => decide (row.quotaBytes = 0))
  simp only [Option.any_eq_true, decide_eq_true_eq] at facts
  obtain ⟨db', committed, row, found, zero⟩ := facts
  have updated : updateUser "admin" "user" tiny s.db = .ok db' := toOption_eq_some.1 committed
  obtain ⟨quota, -⟩ := claim "admin" "user" tiny s.db db' row updated found
  have holds := quota (1 / 10 / 1024 ^ 3) rfl (by norm_num)
  have enforced := (quotaHolds_iff (by norm_num) (by rw [zero]; decide +kernel)).1 holds
  norm_num at enforced

end Arena.Truncation
