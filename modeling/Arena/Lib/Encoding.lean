import Mathlib.Data.List.Basic

/-!
# Text encodings

Percent-encoding (`urllib.parse.quote` with no safe characters, `urlencode`), base64 and JSON
string literals, over the UTF-8 bytes of a text.
-/

namespace Arena.Lib

/-- The UTF-8 bytes of a text. -/
def utf8 (s : String) : List UInt8 := s.toList.flatMap String.utf8EncodeChar

/-- The digit of a number below 16. -/
def hexDigit (upper : Bool) (n : ℕ) : Char :=
  if n < 10 then Char.ofNat (48 + n) else Char.ofNat ((if upper then 55 else 87) + n)

/-! ## Percent-encoding -/

/-- The bytes that `quote` never encodes: letters, digits and `_.-~`. -/
def unreserved (b : UInt8) : Bool :=
  let n := b.toNat
  (65 ≤ n && n ≤ 90) || (97 ≤ n && n ≤ 122) || (48 ≤ n && n ≤ 57) || n == 95 || n == 46 ||
    n == 45 || n == 126

def quoteByte (b : UInt8) : List Char :=
  if unreserved b then [Char.ofNat b.toNat]
  else ['%', hexDigit true (b.toNat / 16), hexDigit true (b.toNat % 16)]

/-- `quote(s, safe="")`. -/
def quote (s : String) : String := String.ofList ((utf8 s).flatMap quoteByte)

/-- `quote_plus(s)`: a space becomes a plus sign. -/
def quotePlus (s : String) : String :=
  String.ofList ((utf8 s).flatMap fun b => if b.toNat = 32 then ['+'] else quoteByte b)

/-- `urlencode(params)`. -/
def urlencode (params : List (String × String)) : String :=
  "&".intercalate (params.map fun p => quotePlus p.1 ++ "=" ++ quotePlus p.2)

/-! ## Base64 -/

/-- The base64 digit of a number below 64, for the two last digits of an alphabet. -/
def base64Digit (digit62 digit63 : Char) (n : ℕ) : Char :=
  if n < 26 then Char.ofNat (65 + n)
  else if n < 52 then Char.ofNat (71 + n)
  else if n < 62 then Char.ofNat (n - 4)
  else if n = 62 then digit62
  else digit63

/-- Base64 without padding. -/
def base64Unpadded (digit62 digit63 : Char) : List UInt8 → List Char
  | [] => []
  | [a] =>
    let n := a.toNat * 16
    [n / 64, n % 64].map (base64Digit digit62 digit63)
  | [a, b] =>
    let n := (a.toNat * 256 + b.toNat) * 4
    [n / 4096, n / 64 % 64, n % 64].map (base64Digit digit62 digit63)
  | a :: b :: c :: rest =>
    let n := (a.toNat * 256 + b.toNat) * 256 + c.toNat
    [n / 262144, n / 4096 % 64, n / 64 % 64, n % 64].map (base64Digit digit62 digit63) ++
      base64Unpadded digit62 digit63 rest

/-- `base64.b64encode`. -/
def b64encode (bytes : List UInt8) : String :=
  let digits := base64Unpadded '+' '/' bytes
  String.ofList (digits ++ List.replicate ((4 - digits.length % 4) % 4) '=')

/-- `base64.urlsafe_b64encode` with its padding stripped. -/
def b64urlUnpadded (bytes : List UInt8) : String := String.ofList (base64Unpadded '-' '_' bytes)

theorem mem_base64Unpadded {x y c : Char} {bytes : List UInt8} (h : c ∈ base64Unpadded x y bytes) :
    ∃ n, base64Digit x y n = c := by
  induction bytes using base64Unpadded.induct with
  | case1 => simp [base64Unpadded] at h
  | case2 a =>
    obtain ⟨n, -, digit⟩ := List.mem_map.1 h
    exact ⟨n, digit⟩
  | case3 a b =>
    obtain ⟨n, -, digit⟩ := List.mem_map.1 h
    exact ⟨n, digit⟩
  | case4 a b c rest ih =>
    rcases List.mem_append.1 h with here | later
    · obtain ⟨n, -, digit⟩ := List.mem_map.1 here
      exact ⟨n, digit⟩
    · exact ih later

theorem base64Digit_last {x y : Char} {n : ℕ} (large : ¬ n < 64) : base64Digit x y n = y := by
  simp only [base64Digit]
  rw [if_neg (by omega), if_neg (by omega), if_neg (by omega), if_neg (by omega)]

/-- The alphabet of `urlsafe_b64encode` is ASCII and has no dot. -/
theorem base64url_alphabet (n : ℕ) :
    base64Digit '-' '_' n ≠ '.' ∧ (base64Digit '-' '_' n).toNat < 128 := by
  by_cases small : n < 64
  · have all : ∀ m : Fin 64, base64Digit '-' '_' m ≠ '.' ∧ (base64Digit '-' '_' m).toNat < 128 := by
      decide
    exact all ⟨n, small⟩
  · rw [base64Digit_last small]
    decide

theorem mem_b64urlUnpadded {c : Char} {bytes : List UInt8} (h : c ∈ (b64urlUnpadded bytes).toList) :
    c ≠ '.' ∧ c.toNat < 128 := by
  obtain ⟨n, rfl⟩ := mem_base64Unpadded (by simpa [b64urlUnpadded] using h)
  exact base64url_alphabet n

/-! ## JSON strings -/

/-- One character of a string literal that `json.dumps(.., ensure_ascii=False)` writes. -/
def jsonChar (c : Char) : List Char :=
  if c = '"' then ['\\', '"']
  else if c = '\\' then ['\\', '\\']
  else if c = '\n' then ['\\', 'n']
  else if c = '\r' then ['\\', 'r']
  else if c = '\t' then ['\\', 't']
  else if c.toNat = 8 then ['\\', 'b']
  else if c.toNat = 12 then ['\\', 'f']
  else if c.toNat < 32 then
    ['\\', 'u', '0', '0', hexDigit false (c.toNat / 16), hexDigit false (c.toNat % 16)]
  else [c]

def jsonString (s : String) : String := String.ofList ('"' :: s.toList.flatMap jsonChar ++ ['"'])

/-- `json.dumps` of an object whose values are strings. -/
def jsonObject (members : List (String × String)) : String :=
  "\x7b" ++ ", ".intercalate (members.map fun m => jsonString m.1 ++ ": " ++ jsonString m.2) ++ "\x7d"

example : quotePlus "a b/é" = "a+b%2F%C3%A9" := by decide +kernel

example : b64encode (utf8 "ARENA") = "QVJFTkE=" := by decide +kernel

end Arena.Lib
