import Arena.Model.Client
import Arena.Model.Plane

/-!
# What a subscription reports

The answer of `GET /sub/{token}`, read by a client: the body is the document, the title is the
user's, and the header `Subscription-Userinfo` tells the limits that `user_allowed` enforces. The
header counts seconds and writes zero for no expiry, so a client takes an account for expired up to
a second early, and an expiry in the first second of the epoch for none. From 2242 on, binary64 has
too few bits for the microseconds of an expiry, and rounds some of them up to the next second.
-/

namespace Arena.Userinfo

open Arena.Lib Arena.Model

variable {now clock : Instant} {db : Database} {base : PublicEndpoint} {raw : Bool} {uid : Id}
  {version : ℤ} {reply : SubscriptionReply} {user : User}

/-! ## The header -/

/-- What the header tells of a user. -/
def infoOf (user : User) : Userinfo where
  upload := user.usedUpBytes
  download := user.usedDownBytes
  total := user.quotaBytes
  expire := expiryEpoch user

/-- The fields of the header. -/
def infoFields (user : User) : List (String × String) :=
  [("upload", toString user.usedUpBytes), ("download", toString user.usedDownBytes),
    ("total", toString user.quotaBytes), ("expire", toString (expiryEpoch user))]

theorem writeFields_four {a b c d : String × String} : writeFields [a, b, c, d] =
    a.1 ++ "=" ++ a.2 ++ "; " ++ (b.1 ++ "=" ++ b.2) ++ "; " ++ (c.1 ++ "=" ++ c.2) ++ "; " ++
      (d.1 ++ "=" ++ d.2) :=
  rfl

theorem infoFields_text : writeFields (infoFields user) =
    "upload=" ++ toString user.usedUpBytes ++ "; download=" ++ toString user.usedDownBytes ++
      "; total=" ++ toString user.quotaBytes ++ "; expire=" ++ toString (expiryEpoch user) := by
  rw [infoFields, writeFields_four]
  generalize toString user.usedUpBytes = up, toString user.usedDownBytes = down
  generalize toString user.quotaBytes = quota, toString (expiryEpoch user) = expire
  apply String.toList_inj.1
  simp

theorem infoFields_plain : ∀ f ∈ infoFields user, PlainField f := by
  have plain : ∀ {name text : String}, '=' ∉ name.toList → (∀ c ∈ name.toList, c ≠ ';' ∧ isSpace c = false) →
      (∀ c ∈ text.toList, c ≠ ';' ∧ isSpace c = false) → PlainField (name, text) :=
    fun equals ends value => ⟨equals, ends, value⟩
  intro f mem
  simp only [infoFields, List.mem_cons, List.not_mem_nil, or_false] at mem
  rcases mem with rfl | rfl | rfl | rfl
  · exact plain (by decide +kernel) (forall_mem_of_check (by decide +kernel)) natText_ends
  · exact plain (by decide +kernel) (forall_mem_of_check (by decide +kernel)) natText_ends
  · exact plain (by decide +kernel) (forall_mem_of_check (by decide +kernel)) natText_ends
  · exact plain (by decide +kernel) (forall_mem_of_check (by decide +kernel)) intText_ends

/-- **The header is read back.** -/
theorem userinfo_eq (h : reply.headers.lookup "Subscription-Userinfo" = some (writeFields (infoFields user))) :
    reply.userinfo = some (infoOf user) := by
  have read := readFields_writeFields (List.cons_ne_nil _ _) (@infoFields_plain user)
  have upload : (infoFields user).lookup "upload" = some (toString user.usedUpBytes) := rfl
  have download : (infoFields user).lookup "download" = some (toString user.usedDownBytes) := rfl
  have total : (infoFields user).lookup "total" = some (toString user.quotaBytes) := rfl
  have expire : (infoFields user).lookup "expire" = some (toString (expiryEpoch user)) := rfl
  simp only [SubscriptionReply.userinfo, h, Option.bind_eq_bind, Option.bind_some, infoFields] at read ⊢
  simp only [read]
  simp only [infoFields] at upload download total expire
  simp only [upload, download, total, expire, Option.bind_some, readDecimal_toString, readInteger_toString]
  rfl

/-! ## What a client makes of it -/

theorem denies_infoOf : (infoOf user).denies clock = true ↔
    (user.quotaBytes ≠ 0 ∧ user.quotaBytes ≤ user.usedBytes) ∨
      (expiryEpoch user ≠ 0 ∧ expiryEpoch user ≤ clock / 1000000) := by
  rw [Userinfo.denies]
  simp only [Bool.or_eq_true, Bool.and_eq_true, decide_eq_true_eq]
  exact Iff.rfl

/-- An expiry that the header can tell: from one second after the epoch, and before `2 ^ 33` seconds. -/
def Expressible (e : Instant) : Prop := 1000000 ≤ e ∧ e < 2 ^ 33 * 1000000

/-- Before `2 ^ 33` seconds no microsecond is rounded up to the next second. -/
theorem truncate_seconds {m : ℕ} (before : m < 2 ^ 33 * 1000000) :
    truncate (binary64 ((m : ℚ) / 1000000)) = (m / 1000000 : ℕ) := by
  have parts : (m : ℚ) = 1000000 * (m / 1000000 : ℕ) + (m % 1000000 : ℕ) := by
    exact_mod_cast (Nat.div_add_mod m 1000000).symm
  have below : ((m % 1000000 : ℕ) : ℚ) ≤ 999999 := by
    exact_mod_cast Nat.le_of_lt_succ (Nat.mod_lt m (by norm_num))
  have fraction : (0 : ℚ) ≤ (m % 1000000 : ℕ) := Nat.cast_nonneg _
  rw [truncate, if_pos (binary64_nonneg (by positivity))]
  refine floor_binary64 (k := 20) ?_ ?_ ?_
  · rw [le_div_iff₀ (by norm_num)]
    linarith
  · -- a microsecond is more than `1 / 2 ^ 20` seconds
    rw [div_le_iff₀ (by norm_num)]
    linarith
  · have seconds : m / 1000000 < 2 ^ 33 := Nat.div_lt_of_lt_mul (by rwa [mul_comm])
    calc (m / 1000000 + 1) * 2 ^ 20 ≤ 2 ^ 33 * 2 ^ 20 := Nat.mul_le_mul_right _ seconds
      _ = 2 ^ 53 := by norm_num

/-- An expiry as the header shows it. -/
theorem expiryEpoch_eq {e : Instant} (expires : e ∈ userExpiry user) (shown : Expressible e) :
    expiryEpoch user = e / 1000000 := by
  obtain ⟨later, before⟩ := shown
  obtain ⟨m, rfl⟩ := Int.eq_ofNat_of_zero_le (le_trans (by decide) later : (0 : ℤ) ≤ e)
  rw [expiryEpoch, Option.mem_def.1 expires, Option.map_some, Option.getD_some, Int.cast_natCast,
    truncate_seconds (Int.ofNat_lt.1 before), Int.natCast_div]
  rfl

theorem expiryEpoch_none (never : userExpiry user = none) : expiryEpoch user = 0 := by
  rw [expiryEpoch, never]
  rfl

/-- Whole seconds tell two instants apart, but for a second. -/
theorem lt_of_seconds {e clock : ℤ} (ahead : ¬ e / 1000000 ≤ clock / 1000000) : clock < e := by omega

theorem lt_second_of_seconds {e clock : ℤ} (reached : e / 1000000 ≤ clock / 1000000) :
    e < clock + 1000000 := by
  omega

theorem seconds_ne_zero {e : ℤ} (later : 1000000 ≤ e) : e / 1000000 ≠ 0 := by omega

/-- **A client lets through only what the panel does.** -/
theorem allowed_of_not_denied (shown : ∀ e ∈ userExpiry user, Expressible e) (active : user.active)
    (quiet : (infoOf user).denies clock = false) : (userAllowed user clock).1 = true := by
  rw [← Bool.not_eq_true, denies_infoOf, not_or] at quiet
  obtain ⟨quota, expiry⟩ := quiet
  refine userAllowed_iff.2 ⟨active, fun e here => ?_, by omega⟩
  rw [expiryEpoch_eq here (shown e here)] at expiry
  exact lt_of_seconds fun reached => expiry ⟨seconds_ne_zero (shown e here).1, reached⟩

/-- **It stops early by less than a second.** -/
theorem expires_of_denied (shown : ∀ e ∈ userExpiry user, Expressible e)
    (allowed : (userAllowed user clock).1 = true) (denied : (infoOf user).denies clock = true) :
    ∃ e ∈ userExpiry user, clock < e ∧ e < clock + 1000000 := by
  obtain ⟨-, ahead, quota⟩ := userAllowed_iff.1 allowed
  rcases denies_infoOf.1 denied with spent | expired
  · omega
  · cases expires : userExpiry user with
    | none => exact absurd (expiryEpoch_none expires) expired.1
    | some e =>
      have here : e ∈ userExpiry user := expires
      rw [expiryEpoch_eq here (shown e here)] at expired
      exact ⟨e, rfl, ahead e here, lt_second_of_seconds expired.2⟩

/-! ## The answer -/

/-- The body and the headers of an answer, as they are written for a user. -/
structure WrittenFor (user : User) (raw : Bool) (document : String) (reply : SubscriptionReply) : Prop where
  body : reply.body = if raw then document else b64encode (utf8 document)
  title : reply.headers.lookup "Profile-Title" = some ("base64:" ++ b64encode (utf8 ("ARENA - " ++ user.name)))
  userinfo : reply.headers.lookup "Subscription-Userinfo" = some (writeFields (infoFields user))

theorem subscription_written (served : subscription now db base raw uid version = .ok reply) :
    ∃ user document, db.users.find? uid = some user ∧ user.subscriptionVersion = version ∧
      subscriptionDocument now user (servedKeys now db user) (some base) = .ok document ∧
      WrittenFor user raw document reply := by
  unfold subscription at served
  split at served
  · cases served
  · rename_i user found
    obtain ⟨found, current⟩ := Option.filter_eq_some_iff.1 found
    obtain ⟨document, rendered, same⟩ := bind_eq_ok.1 served
    obtain rfl := Except.ok.inj same
    exact ⟨user, document, found, by simpa using current, rendered, rfl, rfl,
      congrArg some infoFields_text.symm⟩

theorem document_eq {document : String} (written : WrittenFor user raw document reply) :
    reply.document raw = some document := by
  rw [SubscriptionReply.document, written.body]
  cases raw with
  | true => rfl
  | false =>
    show (b64decode (b64encode (utf8 document)).toList).bind utf8Decode = some document
    rw [b64decode_b64encode, Option.bind_some, utf8Decode_utf8]

theorem title_eq {document : String} (written : WrittenFor user raw document reply) :
    reply.title = some ("ARENA - " ++ user.name) := by
  simp only [SubscriptionReply.title, written.title, Option.bind_eq_bind, Option.bind_some,
    String.toList_append, afterPrefix_append, b64decode_b64encode, utf8Decode_utf8]

/-- **A subscription reports the account.** What a client reads off the answer of `GET /sub/{token}`
is the document of the token's user, with that user's links if the account is allowed and none if
not, the user's name and its counters. From these counters it takes the account for denied whenever
the panel does, as long as the user is not disabled and the header can tell the expiry, and at most
a second early. -/
theorem subscription_reports (now : Instant) (db : Database) (base : PublicEndpoint) (raw : Bool) (uid : Id)
    (version : ℤ) (reply : SubscriptionReply)
    (served : subscription now db base raw uid version = .ok reply) :
    ∃ user document, db.users.find? uid = some user ∧ user.subscriptionVersion = version ∧
      subscriptionDocument now user (if (userAllowed user now).1 then db.keysOf uid else []) (some base) =
        .ok document ∧
      reply.document raw = some document ∧ reply.title = some ("ARENA - " ++ user.name) ∧
      reply.userinfo = some (infoOf user) ∧
      ((∀ e ∈ userExpiry user, Expressible e) → ∀ clock,
        (user.active → (infoOf user).denies clock = false → (userAllowed user clock).1 = true) ∧
        ((userAllowed user clock).1 = true → (infoOf user).denies clock = true →
          ∃ e ∈ userExpiry user, clock < e ∧ e < clock + 1000000)) := by
  obtain ⟨user, document, found, current, rendered, written⟩ := subscription_written served
  rw [servedKeys, Table.find?_key found] at rendered
  exact ⟨user, document, found, current, rendered, document_eq written, title_eq written,
    userinfo_eq written.userinfo, fun shown clock =>
      ⟨fun active quiet => allowed_of_not_denied shown active quiet, expires_of_denied shown⟩⟩

/-- The public URL of a panel behind TLS. -/
def panel : PublicEndpoint := ⟨"https://panel.example", "panel.example", "panel.example", 443, .tls⟩

/-- The first connection's user, after its traffic. -/
theorem subscription_reports_first_connection :
    ∃ s reply user, (plane {}).run (.initial 0) firstConnection = some s ∧
      subscription s.now s.db panel false "user" 1 = .ok reply ∧ reply.userinfo = some (infoOf user) ∧
      s.db.users.find? "user" = some user ∧ user.usedUpBytes = 120 ∧ user.usedDownBytes = 880 := by
  obtain ⟨s, run, facts⟩ := (Option.any_eq_true _ _).1
    (by decide +kernel : ((plane {}).run (.initial 0) firstConnection).any fun s =>
      (subscription s.now s.db panel false "user" 1).isOk &&
        (s.db.users.find? "user").any fun user => user.usedUpBytes = 120 && user.usedDownBytes = 880)
  simp only [Bool.and_eq_true, Option.any_eq_true, decide_eq_true_eq] at facts
  obtain ⟨answered, user, found, up, down⟩ := facts
  cases served : subscription s.now s.db panel false "user" 1 with
  | error e =>
    rw [served] at answered
    cases answered
  | ok reply =>
    obtain ⟨user', document, found', -, -, -, -, info, -⟩ := subscription_reports _ _ _ _ _ _ _ served
    obtain rfl : user' = user := Option.some.inj (found'.symm.trans found)
    exact ⟨s, reply, user', run, served, info, found, up, down⟩

end Arena.Userinfo
