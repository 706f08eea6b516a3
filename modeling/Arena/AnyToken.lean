import Arena.Model.Storage

/-!
# What the subscription endpoint does with any text

`verify_subscription` guards the split and `int`, and nothing after them. `compare_digest` takes
ASCII texts only: a token whose last part is not ASCII raises there, and anyone can send one.
-/

namespace Arena.AnyToken

open Arena.Lib Arena.Model

variable {mac : Mac} {secret token : String} {now : Instant} {db : Database}
  {base : PublicEndpoint} {raw : Bool}

/-- The response to an unknown token. -/
def notFound : HttpError := ⟨404, "سابسکریپشن معتبر نیست"⟩

/-- The token names a user and a version, with the signature of both: the version may be in any
numeral that `int` reads. -/
def Signed (mac : Mac) (secret token userId : String) (version : ℤ) : Prop :=
  ∃ numeral text, '.' ∉ numeral.toList ∧ readInt numeral = some version ∧ writeInt version = some text ∧
    token = userId ++ "." ++ numeral ++ "." ++ signature mac secret (userId ++ "." ++ text)

/-- The token is signed for a user of the table and the user's version. -/
def Bears (mac : Mac) (secret : String) (db : Database) (token : String) : Prop :=
  ∃ user ∈ db.users.rows, Signed mac secret token user.id user.subscriptionVersion

/-- The token is the one that the server shows for a user of the table. -/
def Issued (mac : Mac) (secret : String) (db : Database) (token : String) : Prop :=
  ∃ user ∈ db.users.rows, signSubscription mac secret user.id user.subscriptionVersion = .ok token

/-- The token is verified without an exception, and answered with 404 unless it is one that the
server stands by. -/
structure Survives (mac : Mac) (secret : String) (now : Instant) (db : Database)
    (base : PublicEndpoint) (raw : Bool) (mine : String → Prop) (token : String) : Prop where
  total : ∃ verified, verifySubscription mac secret token = .ok verified
  refused : ¬ mine token → storeSubscription mac secret now db base raw token = .error notFound

/-- The part after the last dot is ASCII, or the token is refused before it is looked at; and the
user of a signed token, unless it is one of the table, has no NUL character. -/
structure Harmless (mac : Mac) (secret : String) (db : Database) (token : String) : Prop where
  ascii : ∀ userId numeral supplied, splitToken token = some (userId, numeral, supplied) →
    (readInt numeral).isSome → supplied.toList.all (·.toNat < 128)
  parameter : ∀ userId version, Signed mac secret token userId version →
    Bears mac secret db token ∨ isParameter userId

/-! ## Verification -/

theorem verify_of_split (mac : Mac) (secret : String) {userId numeral supplied : String} {version : ℤ}
    (parts : splitToken token = some (userId, numeral, supplied)) (read : readInt numeral = some version) :
    ∃ text, writeInt version = some text ∧ verifySubscription mac secret token =
      (compareDigest (signature mac secret (userId ++ "." ++ text)) supplied).map fun same =>
        if same then some (userId, version) else none := by
  obtain ⟨text, written⟩ := writeInt_of_readInt read
  refine ⟨text, written, ?_⟩
  simp only [verifySubscription, parts, read, signSubscription_of_writeInt written, bind, Except.bind,
    cutLast_signed, Option.map_some, Option.getD_some, String.ofList_toList]
  cases compareDigest (signature mac secret (userId ++ "." ++ text)) supplied <;> rfl

/-- **Verification raises** exactly on a token that is split, has a number, and ends in a part that
is not ASCII. -/
theorem verify_total_iff : (∃ verified, verifySubscription mac secret token = .ok verified) ↔
    ∀ userId numeral supplied, splitToken token = some (userId, numeral, supplied) →
      (readInt numeral).isSome → supplied.toList.all (·.toNat < 128) := by
  constructor
  · rintro ⟨verified, total⟩ userId numeral supplied parts read
    obtain ⟨version, read⟩ := Option.isSome_iff_exists.1 read
    obtain ⟨text, -, verify⟩ := verify_of_split mac secret parts read
    by_contra other
    rw [verify, compareDigest, if_neg other] at total
    cases total
  · intro ascii
    cases parts : splitToken token with
    | none => exact ⟨none, by simp only [verifySubscription, parts]⟩
    | some split =>
      obtain ⟨userId, numeral, supplied⟩ := split
      cases read : readInt numeral with
      | none => exact ⟨none, by simp only [verifySubscription, parts, read]⟩
      | some version =>
        obtain ⟨text, -, verify⟩ := verify_of_split mac secret parts read
        rw [verify, compareDigest, if_pos (ascii _ _ _ parts (by simp [read]))]
        exact ⟨_, rfl⟩

/-- What is verified is a signed token's. -/
theorem verify_iff_signed {userId : String} {version : ℤ} :
    verifySubscription mac secret token = .ok (some (userId, version)) ↔
      Signed mac secret token userId version := verifySubscription_eq_some

/-! ## The document of a served user -/

theorem proxyEndpoint_error {node : Node} {origin : Option PublicEndpoint} {e : HttpError}
    (h : proxyEndpoint node origin = .error e) : e = internalError := by
  rcases bind_eq_error h with h | ⟨_, h⟩
  · rcases bind_eq_error h with h | ⟨_, h⟩
    · unfold Json.get? at h
      split at h <;> cases h
      rfl
    · cases h
  · cases h

theorem proxyUri_error {user : User} {node : Node} {key : AccessKey} {origin : Option PublicEndpoint}
    {e : HttpError} (h : proxyUri user node key origin = .error e) : e = internalError := by
  have failed : proxyEndpoint node origin = .error e := by
    unfold proxyUri vlessUri vmessUri at h
    split at h
    · cases h
    · split at h
      · rcases bind_eq_error (map_eq_error h) with h | ⟨_, h⟩
        · exact h
        · cases h
      · rcases bind_eq_error (map_eq_error h) with h | ⟨_, h⟩
        · exact h
        · cases h
      · cases h
  exact proxyEndpoint_error failed

/-- A document fails with a server error only. -/
theorem subscriptionDocument_error {user : User} {keys : List (AccessKey × Node)}
    {origin : Option PublicEndpoint} {e : HttpError}
    (h : subscriptionDocument now user keys origin = .error e) : e = internalError := by
  have links : proxyLinks user origin keys = .error e := by
    rcases bind_eq_error h with h | ⟨_, h⟩
    · exact h
    · cases h
  clear h
  induction keys with
  | nil => cases links
  | cons k keys ih =>
    rcases bind_eq_error links with h | ⟨_, h⟩
    · exact proxyUri_error h
    · rcases bind_eq_error h with h | ⟨_, h⟩
      · exact ih h
      · cases h

/-! ## The endpoint -/

/-- The user of a token, while the version is the user's. -/
theorem found_iff {userId : String} {version : ℤ} :
    ((db.users.find? userId).filter fun u => u.subscriptionVersion = version).isSome ↔
      ∃ user ∈ db.users.rows, user.id = userId ∧ (user.subscriptionVersion : ℤ) = version := by
  constructor
  · intro some
    obtain ⟨user, there⟩ := Option.isSome_iff_exists.1 some
    obtain ⟨found, current⟩ := Option.filter_eq_some_iff.1 there
    exact ⟨user, Table.find?_mem found, Table.find?_key found, by simpa using current⟩
  · rintro ⟨user, mem, rfl, current⟩
    rw [Table.find?_of_mem mem]
    simp [current]

theorem subscription_notFound {userId : String} {version : ℤ} :
    subscription now db base raw userId version = .error notFound ↔
      ¬ ∃ user ∈ db.users.rows, user.id = userId ∧ (user.subscriptionVersion : ℤ) = version := by
  rw [← found_iff]
  unfold subscription
  split
  · rename_i nobody
    simp [nobody, notFound]
  · rename_i user there
    simp only [there, Option.isSome_some, not_true, iff_false]
    intro h
    rcases bind_eq_error h with h | ⟨_, h⟩
    · exact absurd (subscriptionDocument_error h) (by simp [notFound, internalError])
    · cases h

theorem storeSubscription_of_none (verified : verifySubscription mac secret token = .ok none) :
    storeSubscription mac secret now db base raw token = .error notFound := by
  simp [storeSubscription, subscriptionRoute, verified, bind, Except.bind, notFound]

theorem storeSubscription_of_some {userId : String} {version : ℤ}
    (verified : verifySubscription mac secret token = .ok (some (userId, version))) :
    storeSubscription mac secret now db base raw token =
      if isParameter userId then subscription now db base raw userId version
      else .error internalError := by
  cases parameter : isParameter userId <;>
    simp [storeSubscription, subscriptionRoute, verified, bind, Except.bind, parameter]

/-- **A verified token that is not 404** is signed for a user of the table, or for a text with a
NUL character. -/
theorem storeSubscription_notFound {userId : String} {version : ℤ}
    (verified : verifySubscription mac secret token = .ok (some (userId, version))) :
    storeSubscription mac secret now db base raw token = .error notFound ↔
      isParameter userId ∧
        ¬ ∃ user ∈ db.users.rows, user.id = userId ∧ (user.subscriptionVersion : ℤ) = version := by
  cases parameter : isParameter userId
  · simp [storeSubscription_of_some verified, parameter, notFound, internalError]
  · simp only [storeSubscription_of_some verified, parameter, if_true, subscription_notFound, true_and]

theorem Issued.bears (issued : Issued mac secret db token) : Bears mac secret db token := by
  obtain ⟨user, mem, signed⟩ := issued
  obtain ⟨text, written, rfl⟩ := signSubscription_eq_ok.1 signed
  exact ⟨user, mem, text, text, writeInt_clean written, readInt_of_writeInt written, written, rfl⟩

/-- A signed token and a row give a token of the row. -/
theorem bears_of_signed {userId : String} {version : ℤ} (signed : Signed mac secret token userId version)
    (there : ∃ user ∈ db.users.rows, user.id = userId ∧ (user.subscriptionVersion : ℤ) = version) :
    Bears mac secret db token := by
  obtain ⟨user, mem, rfl, rfl⟩ := there
  exact ⟨user, mem, signed⟩

theorem Harmless.refused (harmless : Harmless mac secret db token) (stranger : ¬ Bears mac secret db token) :
    storeSubscription mac secret now db base raw token = .error notFound := by
  obtain ⟨verified, total⟩ := verify_total_iff.2 harmless.ascii
  cases verified with
  | none => exact storeSubscription_of_none total
  | some pair =>
    obtain ⟨userId, version⟩ := pair
    have signed := verify_iff_signed.1 total
    exact (storeSubscription_notFound total).2
      ⟨(harmless.parameter userId version signed).resolve_left stranger,
        fun there => stranger (bears_of_signed signed there)⟩

/-- A token that is refused unless it is one of the server's is harmless. -/
theorem Survives.harmless {mine : String → Prop} (bears : mine token → Bears mac secret db token)
    (survives : Survives mac secret now db base raw mine token) : Harmless mac secret db token where
  ascii := verify_total_iff.1 survives.total
  parameter userId version signed := by
    by_cases own : mine token
    · exact .inl (bears own)
    · exact .inr ((storeSubscription_notFound (verify_iff_signed.2 signed)).1 (survives.refused own)).1

end Arena.AnyToken
