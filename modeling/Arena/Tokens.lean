import Arena.Model.SubscriptionToken

/-!
# Which subscription tokens are accepted

`verify_subscription` reads the version with `int` and signs it again as `str` writes it. The
signature covers the version as a number, so any numeral of it is accepted, and a signed token
is the accepted one whose numeral is that of `str`.
-/

namespace Arena.Tokens

open Arena.Lib Arena.Model

variable {mac : Mac} {secret userId token : String} {version version' : ℤ}

/-- A signed token is accepted. -/
theorem verify_of_sign (signed : signSubscription mac secret userId version = .ok token) :
    verifySubscription mac secret token = .ok (some (userId, version)) := by
  obtain ⟨text, written, rfl⟩ := signSubscription_eq_ok.1 signed
  exact verifySubscription_eq_some.2 ⟨text, text, writeInt_clean written, readInt_of_writeInt written, written, rfl⟩

/-- A signed token is an accepted one whose numeral is that of `str`. -/
theorem sign_iff_canonical : signSubscription mac secret userId version = .ok token ↔
    verifySubscription mac secret token = .ok (some (userId, version)) ∧
      ∃ text supplied, writeInt version = some text ∧ splitToken token = some (userId, text, supplied) := by
  constructor
  · intro signed
    have accepted := verify_of_sign signed
    obtain ⟨text, written, rfl⟩ := signSubscription_eq_ok.1 signed
    exact ⟨accepted, text, _, written, splitToken_signed (writeInt_clean written)⟩
  · rintro ⟨accepted, text, supplied, written, parts⟩
    obtain ⟨numeral, text', clean, -, written', rfl⟩ := verifySubscription_eq_some.1 accepted
    obtain rfl : text = text' := Option.some.inj (written.symm.trans written')
    rw [splitToken_signed clean] at parts
    simp only [Option.some.injEq, Prod.mk.injEq, true_and] at parts
    obtain ⟨rfl, -⟩ := parts
    exact signSubscription_of_writeInt written

/-- **The tokens that `verify_subscription` accepts** for a user and a version: the user, any
numeral without a dot that `int` reads as the version, and the signature of the user and the
version as `str` writes it. Signed tokens are accepted, and are those with the numeral of
`str`. -/
theorem verify_subscription_accepts (mac : Mac) (secret userId token : String) (version : ℤ) :
    (verifySubscription mac secret token = .ok (some (userId, version)) ↔
      ∃ numeral text, '.' ∉ numeral.toList ∧ readInt numeral = some version ∧
        writeInt version = some text ∧
        token = userId ++ "." ++ numeral ++ "." ++ signature mac secret (userId ++ "." ++ text)) ∧
    (signSubscription mac secret userId version = .ok token ↔
      verifySubscription mac secret token = .ok (some (userId, version)) ∧
        ∃ text supplied, writeInt version = some text ∧
          splitToken token = some (userId, text, supplied)) :=
  ⟨verifySubscription_eq_some, sign_iff_canonical⟩

/-- A version with a leading zero is accepted, and no signed token has one. -/
theorem leading_zero_accepted :
    ¬ ∀ (mac : Mac) (secret userId token : String) (version : ℤ),
      verifySubscription mac secret token = .ok (some (userId, version)) ↔
        signSubscription mac secret userId version = .ok token := by
  intro claim
  have accepted : (verifySubscription (fun _ m => m) "" "user.01.dXNlci4x").toOption =
      some (some ("user", 1)) := by decide +kernel
  have signed : (signSubscription (fun _ m => m) "" "user" 1).toOption = some "user.1.dXNlci4x" := by
    decide +kernel
  have ok : verifySubscription (fun _ m => m) "" "user.01.dXNlci4x" = .ok (some ("user", 1)) := by
    cases h : verifySubscription (fun _ m => m) "" "user.01.dXNlci4x" with
    | error => simp [h, Except.toOption] at accepted
    | ok => simpa [h, Except.toOption] using accepted
  rw [(claim _ _ _ _ _).1 ok] at signed
  exact absurd signed (by decide)

end Arena.Tokens
