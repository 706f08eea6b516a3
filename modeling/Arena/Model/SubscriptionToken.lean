import Arena.Lib.Numerals
import Arena.Model.Profiles

/-!
# Subscription tokens

`sign_subscription` and `verify_subscription` of `backend/app/security.py`, and `GET
/sub/{token}` from its token on. `mac` is HMAC-SHA256, of which nothing is assumed.
-/

namespace Arena.Model

open Arena.Lib

/-- A message authentication code: of a key and a message. -/
abbrev Mac := List UInt8 → List UInt8 → List UInt8

/-- The truncated signature of a payload, as text. -/
def signature (mac : Mac) (secret payload : String) : String :=
  b64urlUnpadded ((mac (utf8 secret) (utf8 payload)).take 18)

/-- `sign_subscription`; `str` of a version with too many digits raises. -/
def signSubscription (mac : Mac) (secret userId : String) (version : ℤ) : Except HttpError String :=
  match writeInt version with
  | none => .error internalError
  | some text =>
    let payload := userId ++ "." ++ text
    .ok (payload ++ "." ++ signature mac secret payload)

/-- `user_id, version_raw, supplied = token.rsplit(".", 2)`, or the `ValueError`. -/
def splitToken (token : String) : Option (String × String × String) :=
  match cutLast '.' token.toList with
  | none => none
  | some (front, supplied) => match cutLast '.' front with
    | none => none
    | some (userId, versionRaw) =>
      some (String.ofList userId, String.ofList versionRaw, String.ofList supplied)

/-- `hmac.compare_digest` of an ASCII text with another text. -/
def compareDigest (expected supplied : String) : Except HttpError Bool :=
  if supplied.toList.all (·.toNat < 128) then .ok (expected = supplied) else .error internalError

/-- `verify_subscription`. -/
def verifySubscription (mac : Mac) (secret token : String) : Except HttpError (Option (String × ℤ)) :=
  match splitToken token with
  | none => .ok none
  | some (userId, versionRaw, supplied) => match readInt versionRaw with
    | none => .ok none
    | some version => do
      let signed ← signSubscription mac secret userId version
      let expected := ((cutLast '.' signed.toList).map Prod.snd).getD []
      let same ← compareDigest (String.ofList expected) supplied
      .ok (if same then some (userId, version) else none)

/-- `GET /sub/{token}`. -/
def subscriptionRoute (mac : Mac) (secret : String) (now : Instant) (db : Database)
    (base : PublicEndpoint) (raw : Bool) (token : String) : Except HttpError SubscriptionReply := do
  let verified ← verifySubscription mac secret token
  match verified with
  | none => .error ⟨404, "سابسکریپشن معتبر نیست"⟩
  | some (userId, version) => subscription now db base raw userId version

variable {mac : Mac} {secret userId token : String} {version : ℤ}

theorem splitToken_eq_some_iff {versionRaw supplied : String} :
    splitToken token = some (userId, versionRaw, supplied) ↔
      token = userId ++ "." ++ versionRaw ++ "." ++ supplied ∧ '.' ∉ versionRaw.toList ∧
        '.' ∉ supplied.toList := by
  unfold splitToken
  constructor
  · intro h
    split at h
    · cases h
    · rename_i front last cut
      split at h
      · cases h
      · rename_i u w cut'
        simp only [Option.some.injEq, Prod.mk.injEq] at h
        obtain ⟨rfl, rfl, rfl⟩ := h
        obtain ⟨whole, clean⟩ := cutLast_eq_some_iff.1 cut
        obtain ⟨rfl, clean'⟩ := cutLast_eq_some_iff.1 cut'
        refine ⟨String.toList_inj.1 ?_, by simpa using clean', by simpa using clean⟩
        simp [whole]
  · rintro ⟨rfl, clean', clean⟩
    have outer : cutLast '.' (userId ++ "." ++ versionRaw ++ "." ++ supplied).toList =
        some ((userId ++ "." ++ versionRaw).toList, supplied.toList) :=
      cutLast_eq_some_iff.2 ⟨by simp, clean⟩
    have inner : cutLast '.' (userId ++ "." ++ versionRaw).toList =
        some (userId.toList, versionRaw.toList) := cutLast_eq_some_iff.2 ⟨by simp, clean'⟩
    rw [outer]
    simp only [inner, String.ofList_toList]

theorem signature_clean {payload : String} : '.' ∉ (signature mac secret payload).toList :=
  fun mem => (mem_b64urlUnpadded mem).1 rfl

theorem splitToken_signed {numeral payload : String} (clean : '.' ∉ numeral.toList) :
    splitToken (userId ++ "." ++ numeral ++ "." ++ signature mac secret payload) =
      some (userId, numeral, signature mac secret payload) :=
  splitToken_eq_some_iff.2 ⟨rfl, clean, signature_clean⟩

theorem writeInt_clean {text : String} (written : writeInt version = some text) :
    '.' ∉ text.toList := by
  intro mem
  rcases mem_writeInt written '.' mem with digit | minus
  · exact absurd digit (by decide)
  · exact absurd minus (by decide)

theorem signature_ascii {payload : String} :
    (signature mac secret payload).toList.all (·.toNat < 128) := by
  simp only [List.all_eq_true, decide_eq_true_eq]
  exact fun c mem => (mem_b64urlUnpadded mem).2

theorem signSubscription_of_writeInt {text : String} (written : writeInt version = some text) :
    signSubscription mac secret userId version =
      .ok (userId ++ "." ++ text ++ "." ++ signature mac secret (userId ++ "." ++ text)) := by
  simp [signSubscription, written]

/-- A token is made of the user, the version as `str` writes it, and the signature of both. -/
theorem signSubscription_eq_ok :
    signSubscription mac secret userId version = .ok token ↔ ∃ text, writeInt version = some text ∧
      token = userId ++ "." ++ text ++ "." ++ signature mac secret (userId ++ "." ++ text) := by
  unfold signSubscription
  cases writeInt version <;> simp [eq_comm]

/-- The part of a token after its last dot is the signature. -/
theorem cutLast_signed {payload : String} :
    cutLast '.' (payload ++ "." ++ signature mac secret payload).toList =
      some (payload.toList, (signature mac secret payload).toList) :=
  cutLast_eq_some_iff.2 ⟨by simp, signature_clean⟩

theorem compareDigest_true {expected supplied : String}
    (h : compareDigest expected supplied = .ok true) : expected = supplied := by
  unfold compareDigest at h
  split at h
  · simpa using h
  · cases h

/-- **What `verify_subscription` accepts**: any numeral of the version, with the signature of
the version as `str` writes it. -/
theorem verifySubscription_eq_some :
    verifySubscription mac secret token = .ok (some (userId, version)) ↔
      ∃ numeral text, '.' ∉ numeral.toList ∧ readInt numeral = some version ∧
        writeInt version = some text ∧
        token = userId ++ "." ++ numeral ++ "." ++ signature mac secret (userId ++ "." ++ text) := by
  unfold verifySubscription
  constructor
  · intro h
    split at h
    · cases h
    · rename_i u numeral supplied parts
      obtain ⟨rfl, clean, -⟩ := splitToken_eq_some_iff.1 parts
      split at h
      · cases h
      · rename_i v read
        obtain ⟨text, written⟩ := writeInt_of_readInt read
        simp only [signSubscription_of_writeInt written, bind, Except.bind, cutLast_signed,
          Option.map_some, Option.getD_some, String.ofList_toList] at h
        cases compared : compareDigest (signature mac secret (u ++ "." ++ text)) supplied with
        | error => simp [compared] at h
        | ok same =>
          cases same with
          | false => simp [compared] at h
          | true =>
            simp only [compared, if_true, Except.ok.injEq, Option.some.injEq, Prod.mk.injEq] at h
            obtain ⟨rfl, rfl⟩ := h
            exact ⟨numeral, text, clean, read, written, by rw [compareDigest_true compared]⟩
  · rintro ⟨numeral, text, clean, read, written, rfl⟩
    simp only [splitToken_signed clean, read, signSubscription_of_writeInt written, bind, Except.bind, cutLast_signed,
      Option.map_some, Option.getD_some, String.ofList_toList, compareDigest, signature_ascii]
    simp

end Arena.Model
