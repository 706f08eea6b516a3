import Arena.Lib.Decoding
import Arena.Lib.Fields
import Arena.Model.Formats

/-!
# What a client reads

Readers of a proxy client, for what the panel writes beside the links: the deep link that imports a
subscription, the URL under `/sub/`, and the body and the headers of the answer there.
-/

namespace Arena.Model

open Arena.Lib

/-! ## The deep link -/

/-- The text after a prefix. -/
def afterPrefix (pre s : List Char) : Option (List Char) := if pre <+: s then some (s.drop pre.length) else none

theorem afterPrefix_append {pre s : List Char} : afterPrefix pre (pre ++ s) = some s := by
  rw [afterPrefix, if_pos (List.prefix_append pre s), List.drop_left]

/-- The URL and the name that `hiddify://import/` carries. -/
def readDeepLink (link : String) : Option (String × String) := do
  let text ← afterPrefix "hiddify://import/".toList link.toList
  let (url, name) := cutFirst '#' text
  let url ← unquote url
  let name ← unquote (name.getD [])
  some (url, name)

theorem deepLinkText {scheme url name : String} :
    (scheme ++ url ++ "#" ++ name).toList = scheme.toList ++ (url.toList ++ '#' :: name.toList) := by
  simp

/-- **Round trip** of the deep link. -/
theorem readDeepLink_hiddifyDeepLink {url name : String} :
    readDeepLink (hiddifyDeepLink url name) = some (url, "ARENA - " ++ name) := by
  have text : (hiddifyDeepLink url name).toList =
      "hiddify://import/".toList ++ ((quote url).toList ++ '#' :: (quote ("ARENA - " ++ name)).toList) :=
    deepLinkText
  have cut : cutFirst '#' ((quote url).toList ++ '#' :: (quote ("ARENA - " ++ name)).toList) =
      ((quote url).toList, some (quote ("ARENA - " ++ name)).toList) :=
    cutFirst_append fun mem => absurd (quote_quoted _ mem) (by decide)
  simp only [readDeepLink, text, afterPrefix_append, cut, Option.bind_eq_bind, Option.bind_some,
    Option.getD_some, unquote_quote]

/-! ## The subscription's URL -/

/-- The parameter of the route `/sub/{token}`, in a URL of this site. -/
def urlToken (base : PublicEndpoint) (url : String) : Option String := do
  let path ← afterPrefix base.baseUrl.toList url.toList
  let rest ← afterPrefix "/sub/".toList path
  let token := rest.takeWhile fun c => c ≠ '?' && c ≠ '#'
  if token = [] ∨ '/' ∈ token then none else unquote token

/-- Letters, digits and hyphens, as in a UUID. -/
def PlainId (i : Id) : Prop := ∀ c ∈ i.toList, c.isAlphanum = true ∨ c = '-'

variable {mac : Mac} {secret : String} {base : PublicEndpoint} {uid : Id} {version : ℤ} {token : String}

/-- A token shows no delimiter of a URL. -/
theorem token_plain (plain : PlainId uid) (signed : signSubscription mac secret uid version = .ok token) :
    ∀ c ∈ token.toList, c ∉ ['?', '#', '/', '%'] := by
  obtain ⟨text, written, rfl⟩ := signSubscription_eq_ok.1 signed
  intro c mem
  simp only [String.toList_append, List.mem_append] at mem
  rcases mem with (((mem | mem) | mem) | mem) | mem
  · rcases plain c mem with known | rfl
    · intro bad
      simp only [List.mem_cons, List.not_mem_nil, or_false] at bad
      rcases bad with rfl | rfl | rfl | rfl <;> exact absurd known (by decide)
    · decide
  · obtain rfl : c = '.' := by simpa using mem
    decide
  · rcases mem_writeInt written c mem with digit | rfl
    · intro bad
      simp only [List.mem_cons, List.not_mem_nil, or_false] at bad
      rcases bad with rfl | rfl | rfl | rfl <;> exact absurd digit (by decide)
    · decide
  · obtain rfl : c = '.' := by simpa using mem
    decide
  · obtain ⟨n, digit⟩ := mem_base64Unpadded (by simpa [signature, b64urlUnpadded] using mem)
    have all : ∀ m : Fin 64, base64Digit '-' '_' m ∉ ['?', '#', '/', '%'] := by decide
    by_cases small : n < 64
    · exact digit ▸ all ⟨n, small⟩
    · rw [← digit, base64Digit_last small]
      decide

/-- **The token is read off its URL.** -/
theorem urlToken_url (plain : PlainId uid) (signed : signSubscription mac secret uid version = .ok token) :
    urlToken base (base.baseUrl ++ "/sub/" ++ token) = some token := by
  have clean := token_plain plain signed
  have none : ∀ c ∈ token.toList, (c ≠ '?' && c ≠ '#') = true := fun c mem => by
    have kept := clean c mem
    simp only [List.mem_cons, not_or] at kept
    simp [kept.1, kept.2.1]
  have taken : (token.toList.takeWhile fun c => c ≠ '?' && c ≠ '#') = token.toList :=
    List.takeWhile_eq_self_iff.2 none
  have ne : token.toList ≠ [] := by
    obtain ⟨text, -, rfl⟩ := signSubscription_eq_ok.1 signed
    simp
  have slash : '/' ∉ token.toList := fun mem => clean _ mem (by simp)
  have percent : '%' ∉ token.toList := fun mem => clean _ mem (by simp)
  have url : (base.baseUrl ++ "/sub/" ++ token).toList =
      base.baseUrl.toList ++ ("/sub/".toList ++ token.toList) := by
    rw [String.toList_append, String.toList_append, List.append_assoc]
  simp only [urlToken, url, afterPrefix_append, Option.bind_eq_bind, Option.bind_some, taken]
  rw [if_neg (not_or.2 ⟨ne, slash⟩), unquote_plain percent, String.ofList_toList]

/-! ## The answer -/

/-- The document in a body, which is base64 or raw. -/
def SubscriptionReply.document (reply : SubscriptionReply) (raw : Bool) : Option String :=
  if raw then some reply.body else (b64decode reply.body.toList).bind utf8Decode

/-- The header `Profile-Title`. -/
def SubscriptionReply.title (reply : SubscriptionReply) : Option String := do
  let text ← reply.headers.lookup "Profile-Title"
  let digits ← afterPrefix "base64:".toList text.toList
  (b64decode digits).bind utf8Decode

/-- What `Subscription-Userinfo` tells: bytes, and seconds since the epoch. -/
structure Userinfo where
  upload : ℕ
  download : ℕ
  total : ℕ
  expire : ℤ

/-- The header `Subscription-Userinfo`. -/
def SubscriptionReply.userinfo (reply : SubscriptionReply) : Option Userinfo := do
  let fields := readFields (← reply.headers.lookup "Subscription-Userinfo")
  let upload ← fields.lookup "upload"
  let download ← fields.lookup "download"
  let total ← fields.lookup "total"
  let expire ← fields.lookup "expire"
  some
    { upload := ← readDecimal upload.toList
      download := ← readDecimal download.toList
      total := ← readDecimal total.toList
      expire := ← readInteger expire.toList }

/-- What a client that has read the header takes for spent or expired, at a time of its clock. A zero
stands for no limit. -/
def Userinfo.denies (info : Userinfo) (clock : Instant) : Bool :=
  (info.total ≠ 0 && info.total ≤ info.upload + info.download) ||
    (info.expire ≠ 0 && info.expire ≤ clock / 1000000)

end Arena.Model
