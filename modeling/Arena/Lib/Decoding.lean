import Arena.Lib.Encoding
import Arena.Lib.Text

/-!
# Reading text encodings

Readers for what `Arena.Lib.Encoding` writes: UTF-8, percent-encoding with its queries, base64
with and without padding, and JSON objects of strings. Each reader takes more texts than its writer makes.
-/

namespace Arena.Lib

/-! ## UTF-8 -/

/-- `bytes.decode()`, or the `UnicodeDecodeError`. -/
def utf8Decode (bytes : List UInt8) : Option String := String.fromUTF8? bytes.toByteArray

@[simp] theorem utf8Decode_utf8 {s : String} : utf8Decode (utf8 s) = some s := by
  have bytes : (utf8 s).toByteArray = s.toByteArray := by
    rw [← String.utf8Encode_toList]
    rfl
  rw [utf8Decode, bytes, String.fromUTF8?, dif_pos s.isValidUTF8]
  rfl

/-! ## Percent-encoding -/

/-- The value of a hexadecimal digit. -/
def hexValue (c : Char) : Option ℕ :=
  let n := c.toNat
  if 48 ≤ n ∧ n ≤ 57 then some (n - 48)
  else if 65 ≤ n ∧ n ≤ 70 then some (n - 55)
  else if 97 ≤ n ∧ n ≤ 102 then some (n - 87)
  else none

theorem hexValue_hexDigit (upper : Bool) {n : ℕ} (small : n < 16) : hexValue (hexDigit upper n) = some n := by
  have all : ∀ upper : Bool, ∀ m : Fin 16, hexValue (hexDigit upper m) = some m.val := by decide
  exact all upper ⟨n, small⟩

/-- The bytes that a percent-encoded text stands for. -/
def percentDecode : List Char → Option (List UInt8)
  | [] => some []
  | c :: rest =>
    if c = '%' then
      match rest with
      | high :: low :: rest =>
        (hexValue high).bind fun h => (hexValue low).bind fun l =>
          (percentDecode rest).map (UInt8.ofNat (h * 16 + l) :: ·)
      | _ => none
    else (percentDecode rest).map (String.utf8EncodeChar c ++ ·)

/-- `unquote`, of UTF-8. -/
def unquote (s : List Char) : Option String := (percentDecode s).bind utf8Decode

/-- `unquote_plus`. -/
def unquotePlus (s : List Char) : Option String := unquote (s.map fun c => if c = '+' then ' ' else c)

/-- A literal byte is an ASCII character that means itself. -/
theorem unreserved_spec : ∀ b : Fin 256, unreserved (UInt8.ofNat b) = true →
    Char.ofNat b ≠ '%' ∧ Char.ofNat b ≠ '+' ∧
      String.utf8EncodeChar (Char.ofNat b) = [UInt8.ofNat b] := by
  decide +kernel

theorem percentDecode_literal {c : Char} {rest : List Char} (literal : c ≠ '%') :
    percentDecode (c :: rest) = (percentDecode rest).map (String.utf8EncodeChar c ++ ·) := by
  conv_lhs => unfold percentDecode
  exact if_neg literal

/-- What is not percent-encoded is decoded to itself. -/
theorem unquote_plain {s : List Char} (plain : '%' ∉ s) : unquote s = some (String.ofList s) := by
  have bytes : percentDecode s = some (utf8 (String.ofList s)) := by
    rw [utf8, String.toList_ofList]
    induction s with
    | nil => rfl
    | cons c s ih =>
      simp only [List.mem_cons, not_or] at plain
      rw [percentDecode_literal (Ne.symm plain.1), ih plain.2, Option.map_some, List.flatMap_cons]
  rw [unquote, bytes, Option.bind_some, utf8Decode_utf8]

theorem percentDecode_escape {high low : Char} {h l : ℕ} {rest : List Char} (first : hexValue high = some h)
    (second : hexValue low = some l) :
    percentDecode ('%' :: high :: low :: rest) = (percentDecode rest).map (UInt8.ofNat (h * 16 + l) :: ·) := by
  rw [percentDecode, if_pos rfl, first, second, Option.bind_some, Option.bind_some]

theorem percentDecode_quoteByte {b : UInt8} {rest : List Char} :
    percentDecode (quoteByte b ++ rest) = (percentDecode rest).map (b :: ·) := by
  have bound := b.toNat_lt
  unfold quoteByte
  split
  · rename_i plain
    obtain ⟨literal, -, bytes⟩ := unreserved_spec ⟨b.toNat, bound⟩ (by simpa using plain)
    rw [List.singleton_append, percentDecode_literal literal, bytes, UInt8.ofNat_toNat]
    rfl
  · have whole : b.toNat / 16 * 16 + b.toNat % 16 = b.toNat := by omega
    have first := hexValue_hexDigit true (show b.toNat / 16 < 16 by omega)
    have second := hexValue_hexDigit true (show b.toNat % 16 < 16 by omega)
    rw [List.cons_append, List.cons_append, List.singleton_append, percentDecode_escape first second, whole,
      UInt8.ofNat_toNat]

theorem percentDecode_flatMap {bytes : List UInt8} : percentDecode (bytes.flatMap quoteByte) = some bytes := by
  induction bytes with
  | nil => rfl
  | cons b bytes ih => rw [List.flatMap_cons, percentDecode_quoteByte, ih, Option.map_some]

/-- **Round trip** of `quote`. -/
theorem unquote_quote {s : String} : unquote (quote s).toList = some s := by
  rw [quote, String.toList_ofList, unquote, percentDecode_flatMap, Option.bind_some, utf8Decode_utf8]

/-- A percent-encoded text shows no delimiter of a URI and breaks no line. -/
def isQuoted (c : Char) : Bool := c.isAlphanum || c = '_' || c = '.' || c = '-' || c = '~' || c = '%'

theorem quoteByte_quoted {b : UInt8} : ∀ c ∈ quoteByte b, isQuoted c = true := by
  have all : ∀ n : Fin 256, (quoteByte (UInt8.ofNat n)).all isQuoted = true := by decide +kernel
  have here := all ⟨b.toNat, b.toNat_lt⟩
  rw [UInt8.ofNat_toNat] at here
  simpa using here

theorem quote_quoted {s : String} : ∀ c ∈ (quote s).toList, isQuoted c = true := by
  intro c mem
  rw [quote, String.toList_ofList] at mem
  obtain ⟨b, -, here⟩ := List.mem_flatMap.1 mem
  exact quoteByte_quoted c here

/-! ## Queries -/

/-- The bytes that `quote_plus` writes, as `quote` would write them but for the plus signs. -/
theorem quotePlus_unplus {s : String} :
    ((quotePlus s).toList.map fun c => if c = '+' then ' ' else c) =
      (utf8 s).flatMap fun b => if b.toNat = 32 then [' '] else quoteByte b := by
  rw [quotePlus, String.toList_ofList, List.map_flatMap]
  congr 1
  funext b
  split
  · rfl
  · rw [List.map_congr_left (g := id), List.map_id]
    intro c mem
    rw [if_neg, id]
    rintro rfl
    exact absurd (quoteByte_quoted _ mem) (by decide)

theorem unquotePlus_quotePlus {s : String} : unquotePlus (quotePlus s).toList = some s := by
  have bytes : ∀ bytes : List UInt8,
      percentDecode (bytes.flatMap fun b => if b.toNat = 32 then [' '] else quoteByte b) = some bytes := by
    intro bytes
    induction bytes with
    | nil => rfl
    | cons b bytes ih =>
      rw [List.flatMap_cons]
      split
      · rename_i space
        have same : b = 32 := UInt8.toNat_inj.1 space
        rw [List.singleton_append, percentDecode_literal (by decide), ih, same]
        rfl
      · rw [percentDecode_quoteByte, ih, Option.map_some]
  rw [unquotePlus, quotePlus_unplus, unquote, bytes, Option.bind_some, utf8Decode_utf8]

/-- `parse_qsl(s, keep_blank_values=True)`. -/
def parseQuery (s : List Char) : Option (List (String × String)) :=
  ((s.splitOn '&').filter (· ≠ [])).mapM fun field =>
    let (name, value) := cutFirst '=' field
    (unquotePlus name).bind fun name => (unquotePlus (value.getD [])).map fun value => (name, value)

theorem quotePlus_quoted {s : String} : ∀ c ∈ (quotePlus s).toList, isQuoted c = true ∨ c = '+' := by
  intro c mem
  rw [quotePlus, String.toList_ofList] at mem
  obtain ⟨b, -, here⟩ := List.mem_flatMap.1 mem
  split at here
  · exact .inr (List.mem_singleton.1 here)
  · exact .inl (quoteByte_quoted c here)

/-- No character outside of the quoted ones is in a text of `quote_plus`. -/
theorem notMem_quotePlus {s : String} {c : Char} (h : isQuoted c = false) (plus : c ≠ '+') :
    c ∉ (quotePlus s).toList := by
  intro mem
  rcases quotePlus_quoted c mem with quoted | same
  · exact absurd (h.symm.trans quoted) (by decide)
  · exact plus same

/-- One field of a query. -/
def queryField (p : String × String) : List Char := (quotePlus p.1).toList ++ '=' :: (quotePlus p.2).toList

theorem urlencode_toList {params : List (String × String)} :
    (urlencode params).toList = ['&'].intercalate (params.map queryField) := by
  have field : String.toList ∘ (fun p : String × String => quotePlus p.1 ++ "=" ++ quotePlus p.2) = queryField := by
    funext p
    simp [queryField]
  rw [urlencode, String.toList_intercalate, List.map_map, field]
  rfl

theorem queryField_quoted {p : String × String} :
    ∀ c ∈ queryField p, isQuoted c = true ∨ c = '+' ∨ c = '=' := by
  intro c mem
  rcases List.mem_append.1 mem with mem | mem
  · exact (quotePlus_quoted c mem).imp_right .inl
  · rcases List.mem_cons.1 mem with same | mem
    · exact .inr (.inr same)
    · exact (quotePlus_quoted c mem).imp_right .inl

theorem splitOn_urlencode {params : List (String × String)} (ne : params ≠ []) :
    (urlencode params).toList.splitOn '&' = params.map queryField := by
  rw [urlencode_toList]
  refine List.splitOn_intercalate '&' ?_ (by simpa using ne)
  intro field mem amp
  obtain ⟨p, -, rfl⟩ := List.mem_map.1 mem
  rcases queryField_quoted _ amp with h | h | h <;> exact absurd h (by decide)

/-- **Round trip** of `urlencode`. -/
theorem parseQuery_urlencode {params : List (String × String)} :
    parseQuery (urlencode params).toList = some params := by
  by_cases ne : params = []
  · rw [ne]
    rfl
  have full : (params.map queryField).filter (· ≠ []) = params.map queryField :=
    List.filter_eq_self.2 fun field mem => by
      obtain ⟨p, -, rfl⟩ := List.mem_map.1 mem
      simp [queryField]
  rw [parseQuery, splitOn_urlencode ne, full]
  clear ne full
  induction params with
  | nil => rfl
  | cons p params ih =>
    have cut : cutFirst '=' (queryField p) = ((quotePlus p.1).toList, some (quotePlus p.2).toList) :=
      cutFirst_append (notMem_quotePlus (by decide) (by decide))
    rw [List.map_cons, List.mapM_cons, cut, ih]
    simp only [unquotePlus_quotePlus, Option.getD_some, Option.bind_some, Option.map_some]
    rfl

theorem urlencode_quoted {params : List (String × String)} :
    ∀ c ∈ (urlencode params).toList, isQuoted c = true ∨ c = '+' ∨ c = '=' ∨ c = '&' := by
  intro c mem
  rw [urlencode_toList] at mem
  rcases mem_intercalate mem with amp | ⟨field, there, mem⟩
  · exact .inr (.inr (.inr (List.mem_singleton.1 amp)))
  · obtain ⟨p, -, rfl⟩ := List.mem_map.1 there
    exact (queryField_quoted c mem).imp_right (.imp_right .inl)

/-! ## Base64 -/

/-- The value of a base64 digit. -/
def base64Value (digit62 digit63 c : Char) : Option ℕ :=
  let n := c.toNat
  if 65 ≤ n ∧ n ≤ 90 then some (n - 65)
  else if 97 ≤ n ∧ n ≤ 122 then some (n - 71)
  else if 48 ≤ n ∧ n ≤ 57 then some (n + 4)
  else if c = digit62 then some 62
  else if c = digit63 then some 63
  else none

/-- The bytes of groups of four digits, the last of which may lack one or two. -/
def base64Bytes : List ℕ → Option (List UInt8)
  | [] => some []
  | [_] => none
  | [a, b] => some [UInt8.ofNat ((a * 64 + b) / 16)]
  | [a, b, c] =>
    let n := (a * 64 + b) * 64 + c
    some [UInt8.ofNat (n / 1024), UInt8.ofNat (n / 4)]
  | a :: b :: c :: d :: rest =>
    let n := ((a * 64 + b) * 64 + c) * 64 + d
    (base64Bytes rest).map ([UInt8.ofNat (n / 65536), UInt8.ofNat (n / 256), UInt8.ofNat n] ++ ·)

/-- Base64 without padding, read. -/
def base64Decode (digit62 digit63 : Char) (s : List Char) : Option (List UInt8) :=
  (s.mapM (base64Value digit62 digit63)).bind base64Bytes

/-- Each digit of an alphabet is read as itself. -/
def DigitsRead (digit62 digit63 : Char) : Prop :=
  ∀ n : Fin 64, base64Value digit62 digit63 (base64Digit digit62 digit63 n) = some n.val

instance (digit62 digit63 : Char) : Decidable (DigitsRead digit62 digit63) :=
  inferInstanceAs (Decidable (∀ _ : Fin 64, _))

theorem DigitsRead.value {x y : Char} (read : DigitsRead x y) {n : ℕ} (small : n < 64) :
    base64Value x y (base64Digit x y n) = some n :=
  read ⟨n, small⟩

/-- Reading in groups of four digits. -/
theorem base64Decode_group {x y a b c d : Char} {p q r s : ℕ} {rest : List Char}
    (ha : base64Value x y a = some p) (hb : base64Value x y b = some q) (hc : base64Value x y c = some r)
    (hd : base64Value x y d = some s) :
    base64Decode x y (a :: b :: c :: d :: rest) = (base64Decode x y rest).map
      ([UInt8.ofNat ((((p * 64 + q) * 64 + r) * 64 + s) / 65536),
        UInt8.ofNat ((((p * 64 + q) * 64 + r) * 64 + s) / 256),
        UInt8.ofNat (((p * 64 + q) * 64 + r) * 64 + s)] ++ ·) := by
  simp only [base64Decode, List.mapM_cons, ha, hb, hc, hd, Option.bind_eq_bind, Option.bind_some]
  cases rest.mapM (base64Value x y) with
  | none => rfl
  | some values => rfl

theorem byte_eq {n : ℕ} {b : UInt8} (same : n % 256 = b.toNat) : UInt8.ofNat n = b :=
  UInt8.toNat_inj.1 (UInt8.toNat_ofNat'.trans same)

/-- **Round trip** of base64, without its padding. -/
theorem base64Decode_unpadded {x y : Char} (read : DigitsRead x y) {bytes : List UInt8} :
    base64Decode x y (base64Unpadded x y bytes) = some bytes := by
  induction bytes using base64Unpadded.induct with
  | case1 => rfl
  | case2 a =>
    have ha := a.toNat_lt
    have first := read.value (show a.toNat * 16 / 64 < 64 by omega)
    have second := read.value (show a.toNat * 16 % 64 < 64 by omega)
    have whole : (a.toNat * 16 / 64 * 64 + a.toNat * 16 % 64) / 16 % 256 = a.toNat := by omega
    simp [base64Unpadded, base64Decode, first, second, base64Bytes, byte_eq whole]
  | case3 a b =>
    have ha := a.toNat_lt
    have hb := b.toNat_lt
    let n := (a.toNat * 256 + b.toNat) * 4
    have first := read.value (show n / 4096 < 64 by omega)
    have second := read.value (show n / 64 % 64 < 64 by omega)
    have third := read.value (show n % 64 < 64 by omega)
    have whole : (n / 4096 * 64 + n / 64 % 64) * 64 + n % 64 = n := by omega
    have byteA : UInt8.ofNat (n / 1024) = a := byte_eq (by omega)
    have byteB : UInt8.ofNat (n / 4) = b := byte_eq (by omega)
    show base64Decode x y ([n / 4096, n / 64 % 64, n % 64].map (base64Digit x y)) = some [a, b]
    simp only [base64Decode, List.map_cons, List.map_nil, List.mapM_cons, List.mapM_nil, first, second, third,
      Option.bind_eq_bind, Option.bind_some, Option.pure_def, base64Bytes, whole, byteA, byteB]
  | case4 a b c rest ih =>
    have ha := a.toNat_lt
    have hb := b.toNat_lt
    have hc := c.toNat_lt
    let n := (a.toNat * 256 + b.toNat) * 256 + c.toNat
    have first := read.value (show n / 262144 < 64 by omega)
    have second := read.value (show n / 4096 % 64 < 64 by omega)
    have third := read.value (show n / 64 % 64 < 64 by omega)
    have fourth := read.value (show n % 64 < 64 by omega)
    have whole : ((n / 262144 * 64 + n / 4096 % 64) * 64 + n / 64 % 64) * 64 + n % 64 = n := by omega
    have byteA : UInt8.ofNat (n / 65536) = a := byte_eq (by omega)
    have byteB : UInt8.ofNat (n / 256) = b := byte_eq (by omega)
    have byteC : UInt8.ofNat n = c := byte_eq (by omega)
    show base64Decode x y ([n / 262144, n / 4096 % 64, n / 64 % 64, n % 64].map (base64Digit x y) ++
      base64Unpadded x y rest) = some (a :: b :: c :: rest)
    simp only [List.map_cons, List.map_nil, List.cons_append, List.nil_append]
    rw [base64Decode_group first second third fourth, ih, whole, byteA, byteB, byteC]
    rfl

theorem base64Decode_b64url {bytes : List UInt8} :
    base64Decode '-' '_' (b64urlUnpadded bytes).toList = some bytes := by
  rw [b64urlUnpadded, String.toList_ofList]
  exact base64Decode_unpadded (by decide)

/-! ### Padding -/

/-- `base64.b64decode` of a text whose last group of four is filled up with `=`. -/
def b64decode (s : List Char) : Option (List UInt8) :=
  let digits := rstrip (· == '=') s
  if s.length % 4 = 0 ∧ s.length ≤ digits.length + 2 then base64Decode '+' '/' digits else none

theorem length_base64Unpadded_mod {x y : Char} {bytes : List UInt8} :
    (base64Unpadded x y bytes).length % 4 ≠ 1 := by
  induction bytes using base64Unpadded.induct with
  | case1 | case2 | case3 => simp [base64Unpadded]
  | case4 a b c rest ih =>
    simp only [base64Unpadded, List.length_append, List.length_map, List.length_cons, List.length_nil]
    omega

theorem padding_notMem {bytes : List UInt8} : '=' ∉ base64Unpadded '+' '/' bytes := by
  intro mem
  obtain ⟨n, digit⟩ := mem_base64Unpadded mem
  by_cases small : n < 64
  · have all : ∀ m : Fin 64, base64Digit '+' '/' m ≠ '=' := by decide
    exact all ⟨n, small⟩ digit
  · rw [base64Digit_last small] at digit
    exact absurd digit (by decide)

/-- **Round trip** of `b64encode`. -/
theorem b64decode_b64encode {bytes : List UInt8} : b64decode (b64encode bytes).toList = some bytes := by
  have group := @length_base64Unpadded_mod '+' '/' bytes
  have decoded : base64Decode '+' '/' (base64Unpadded '+' '/' bytes) = some bytes :=
    base64Decode_unpadded (by decide)
  have clean := @padding_notMem bytes
  rw [b64encode, String.toList_ofList]
  generalize base64Unpadded '+' '/' bytes = digits at group decoded clean
  have stripped : rstrip (· == '=') (digits ++ List.replicate ((4 - digits.length % 4) % 4) '=') = digits := by
    rw [rstrip_append_of_all (by simp)]
    by_cases ne : digits = []
    · rw [ne]
      rfl
    · refine rstrip_of_last ne ?_
      simp only [beq_iff_eq]
      exact fun last => clean (last ▸ List.getLast_mem ne)
  rw [b64decode, stripped, if_pos, decoded]
  rw [List.length_append, List.length_replicate]
  omega

theorem b64url_quoted {bytes : List UInt8} : ∀ c ∈ (b64urlUnpadded bytes).toList, isQuoted c = true := by
  intro c mem
  obtain ⟨n, rfl⟩ := mem_base64Unpadded (by simpa [b64urlUnpadded] using mem)
  by_cases small : n < 64
  · have all : ∀ m : Fin 64, isQuoted (base64Digit '-' '_' m) = true := by decide
    exact all ⟨n, small⟩
  · rw [base64Digit_last small]
    decide

/-! ## JSON objects of strings -/

/-- JSON's white space. -/
def isJsonSpace (c : Char) : Bool := c = ' ' || c = '\t' || c = '\n' || c = '\r'

def skipJsonSpace (s : List Char) : List Char := lstrip isJsonSpace s

/-- What an escape of one character stands for. -/
def jsonEscape (c : Char) : Option Char :=
  if c = '"' ∨ c = '\\' ∨ c = '/' then some c
  else if c = 'b' then some (Char.ofNat 8)
  else if c = 'f' then some (Char.ofNat 12)
  else if c = 'n' then some '\n'
  else if c = 'r' then some '\r'
  else if c = 't' then some '\t'
  else none

/-- Four hexadecimal digits and what follows them. -/
def readHex4 : List Char → Option (ℕ × List Char)
  | a :: b :: c :: d :: rest =>
    (hexValue a).bind fun a => (hexValue b).bind fun b => (hexValue c).bind fun c => (hexValue d).map fun d =>
      (((a * 16 + b) * 16 + c) * 16 + d, rest)
  | _ => none

/-- The digits of `\u` and, for a character above the first plane, a second escape with its low
surrogate. A surrogate on its own is no character. -/
def readUnicodeEscape (s : List Char) : Option (Char × List Char) :=
  (readHex4 s).bind fun (n, rest) =>
    if n < 0xD800 ∨ 0xDFFF < n then some (Char.ofNat n, rest)
    else if n < 0xDC00 then
      match rest with
      | '\\' :: 'u' :: rest =>
        (readHex4 rest).bind fun (m, rest) =>
          if 0xDC00 ≤ m ∧ m ≤ 0xDFFF then
            some (Char.ofNat (0x10000 + (n - 0xD800) * 0x400 + (m - 0xDC00)), rest)
          else none
      | _ => none
    else none

/-- One character inside a string literal and what follows it. -/
def readJsonChar : List Char → Option (Char × List Char)
  | [] => none
  | c :: rest =>
    if c = '\\' then
      match rest with
      | [] => none
      | e :: rest => if e = 'u' then readUnicodeEscape rest else (jsonEscape e).map fun c => (c, rest)
    else if c = '"' ∨ c.toNat < 32 then none
    else some (c, rest)

/-- The characters up to the closing quotation mark. -/
def readJsonBody : ℕ → List Char → Option (List Char × List Char)
  | 0, _ => none
  | fuel + 1, s =>
    if s.head? = some '"' then some ([], s.tail)
    else
      (readJsonChar s).bind fun (c, rest) =>
        (readJsonBody fuel rest).map fun (text, rest) => (c :: text, rest)

/-- A string literal, after white space. -/
def readJsonString (s : List Char) : Option (String × List Char) :=
  match skipJsonSpace s with
  | '"' :: rest => (readJsonBody (rest.length + 1) rest).map fun (text, rest) => (String.ofList text, rest)
  | _ => none

/-- Members up to the closing brace; there is at least one. -/
def readJsonMembers : ℕ → List Char → Option (List (String × String) × List Char)
  | 0, _ => none
  | fuel + 1, s =>
    (readJsonString s).bind fun (name, rest) =>
      match skipJsonSpace rest with
      | ':' :: rest =>
        (readJsonString rest).bind fun (value, rest) =>
          match skipJsonSpace rest with
          | ',' :: rest => (readJsonMembers fuel rest).map fun (more, rest) => ((name, value) :: more, rest)
          | '\x7d' :: rest => some ([(name, value)], rest)
          | _ => none
      | _ => none

/-- The members of an object whose values are strings, in order. -/
def readJsonObject (s : List Char) : Option (List (String × String)) :=
  match skipJsonSpace s with
  | '\x7b' :: rest =>
    let read := match skipJsonSpace rest with
      | '\x7d' :: rest => some ([], rest)
      | rest => readJsonMembers (rest.length + 1) rest
    read.bind fun (members, rest) => if skipJsonSpace rest = [] then some members else none
  | _ => none

theorem readJsonChar_jsonChar {c : Char} {rest : List Char} :
    readJsonChar (jsonChar c ++ rest) = some (c, rest) := by
  have itself : Char.ofNat c.toNat = c := Char.ofNat_toNat c
  unfold jsonChar
  split_ifs with quotation backslash newline carriage tab backspace feed control
  · rw [quotation]; rfl
  · rw [backslash]; rfl
  · rw [newline]; rfl
  · rw [carriage]; rfl
  · rw [tab]; rfl
  · rw [← itself, backspace]; rfl
  · rw [← itself, feed]; rfl
  · have third := hexValue_hexDigit false (show c.toNat / 16 < 16 by omega)
    have fourth := hexValue_hexDigit false (show c.toNat % 16 < 16 by omega)
    have value : c.toNat / 16 * 16 + c.toNat % 16 = c.toNat := by omega
    have zero : hexValue '0' = some 0 := rfl
    have plane : c.toNat < 0xD800 := by omega
    simp only [List.cons_append, List.nil_append, readJsonChar]
    simp [readUnicodeEscape, readHex4, zero, third, fourth, value, plane, itself]
  · rw [List.singleton_append, readJsonChar.eq_def]
    exact (if_neg backslash).trans (if_neg fun bad => bad.elim quotation control)

theorem head?_jsonChar {c : Char} {rest : List Char} : (jsonChar c ++ rest).head? ≠ some '"' := by
  unfold jsonChar
  split_ifs with quotation <;> simp
  exact quotation

/-- A way to write the characters of a string literal, each of which reads back. -/
structure WritesJson (w : Char → List Char) : Prop where
  reads : ∀ c rest, readJsonChar (w c ++ rest) = some (c, rest)
  /-- What is written does not look like the end of the literal. -/
  goesOn : ∀ c rest, (w c ++ rest).head? ≠ some '"'

theorem writesJson_jsonChar : WritesJson jsonChar :=
  ⟨fun _ _ => readJsonChar_jsonChar, fun _ _ => head?_jsonChar⟩

theorem WritesJson.ne_nil {w : Char → List Char} (writes : WritesJson w) (c : Char) : w c ≠ [] := by
  intro empty
  have opens := writes.goesOn c ['"']
  rw [empty] at opens
  exact opens rfl

theorem readJsonBody_chars {w : Char → List Char} (writes : WritesJson w) {text : List Char} {fuel : ℕ}
    {rest : List Char} (enough : text.length < fuel) :
    readJsonBody fuel (text.flatMap w ++ '"' :: rest) = some (text, rest) := by
  induction text generalizing fuel with
  | nil =>
    obtain ⟨fuel, rfl⟩ := Nat.exists_eq_succ_of_ne_zero (Nat.ne_of_gt enough)
    rfl
  | cons c text ih =>
    obtain ⟨fuel, rfl⟩ := Nat.exists_eq_succ_of_ne_zero (Nat.ne_of_gt (Nat.zero_lt_of_lt enough))
    rw [List.flatMap_cons, List.append_assoc, readJsonBody, if_neg (writes.goesOn c _), writes.reads]
    simp only [Option.bind_some, ih (Nat.lt_of_succ_lt_succ enough), Option.map_some]

theorem length_le_chars {w : Char → List Char} (writes : WritesJson w) (text : List Char) :
    text.length ≤ (text.flatMap w).length := by
  induction text with
  | nil => simp
  | cons c text ih =>
    have some_char := List.length_pos_iff.2 (writes.ne_nil c)
    rw [List.flatMap_cons, List.length_append, List.length_cons]
    omega

/-- **Round trip** of a string literal. -/
theorem readJsonString_chars {w : Char → List Char} (writes : WritesJson w) {s : String} {rest : List Char} :
    readJsonString ('"' :: (s.toList.flatMap w ++ '"' :: rest)) = some (s, rest) := by
  have enough : s.toList.length < (s.toList.flatMap w ++ '"' :: rest).length + 1 := by
    have shorter := length_le_chars writes s.toList
    rw [List.length_append, List.length_cons]
    omega
  rw [readJsonString]
  simp only [skipJsonSpace, lstrip, List.dropWhile_cons]
  rw [if_neg (by decide)]
  simp only [readJsonBody_chars writes enough, Option.map_some, String.ofList_toList]

theorem readJsonString_jsonString {s : String} {rest : List Char} :
    readJsonString ((jsonString s).toList ++ rest) = some (s, rest) := by
  have opened : (jsonString s).toList ++ rest = '"' :: (s.toList.flatMap jsonChar ++ '"' :: rest) := by
    simp [jsonString]
  rw [opened, readJsonString_chars writesJson_jsonChar]

theorem readJsonString_space {s : List Char} : readJsonString (' ' :: s) = readJsonString s := rfl

theorem readJsonMembers_space {fuel : ℕ} {s : List Char} :
    readJsonMembers fuel (' ' :: s) = readJsonMembers fuel s := by
  cases fuel <;> rfl

/-- One member of an object, as `json.dumps` writes it. -/
def jsonMember (m : String × String) : List Char := (jsonString m.1).toList ++ ':' :: ' ' :: (jsonString m.2).toList

theorem jsonObject_toList {members : List (String × String)} :
    (jsonObject members).toList = '\x7b' :: ([',', ' '].intercalate (members.map jsonMember) ++ ['\x7d']) := by
  have member : String.toList ∘ (fun m : String × String => jsonString m.1 ++ ": " ++ jsonString m.2) =
      jsonMember := by
    funext m
    simp [jsonMember]
  rw [jsonObject, String.toList_append, String.toList_append, String.toList_intercalate, List.map_map, member]
  rfl

/-- Reading one member leaves what follows its value. -/
theorem readJsonMembers_jsonMember {fuel : ℕ} {m : String × String} {rest : List Char} :
    readJsonMembers (fuel + 1) (jsonMember m ++ rest) =
      match skipJsonSpace rest with
      | ',' :: rest => (readJsonMembers fuel rest).map fun (more, rest) => (m :: more, rest)
      | '\x7d' :: rest => some ([m], rest)
      | _ => none := by
  have opened : jsonMember m ++ rest =
      (jsonString m.1).toList ++ (':' :: ' ' :: ((jsonString m.2).toList ++ rest)) := by
    simp [jsonMember]
  have colon : skipJsonSpace (':' :: ' ' :: ((jsonString m.2).toList ++ rest)) =
      ':' :: ' ' :: ((jsonString m.2).toList ++ rest) := rfl
  rw [opened, readJsonMembers, readJsonString_jsonString]
  simp only [Option.bind_some, colon, readJsonString_space, readJsonString_jsonString]

theorem readJsonMembers_jsonMembers {members : List (String × String)} (ne : members ≠ []) {fuel : ℕ}
    {rest : List Char} (enough : members.length ≤ fuel) :
    readJsonMembers fuel ([',', ' '].intercalate (members.map jsonMember) ++ '\x7d' :: rest) =
      some (members, rest) := by
  induction members generalizing fuel with
  | nil => exact absurd rfl ne
  | cons m members ih =>
    obtain ⟨fuel, rfl⟩ := Nat.exists_eq_succ_of_ne_zero (Nat.ne_of_gt (Nat.zero_lt_of_lt enough))
    by_cases last : members = []
    · rw [last, List.map_singleton, List.intercalate_singleton, readJsonMembers_jsonMember]
      rfl
    · have joined : [',', ' '].intercalate ((m :: members).map jsonMember) ++ '\x7d' :: rest =
          jsonMember m ++ (',' :: ' ' :: ([',', ' '].intercalate (members.map jsonMember) ++ '\x7d' :: rest)) := by
        rw [List.map_cons, List.intercalate_cons_of_ne_nil (by simpa using last)]
        simp
      rw [joined, readJsonMembers_jsonMember]
      have comma : skipJsonSpace (',' :: ' ' :: ([',', ' '].intercalate (members.map jsonMember) ++ '\x7d' :: rest)) =
          ',' :: ' ' :: ([',', ' '].intercalate (members.map jsonMember) ++ '\x7d' :: rest) := rfl
      simp only [comma, readJsonMembers_space, ih last (Nat.le_of_succ_le_succ enough), Option.map_some]

theorem length_le_jsonMembers (members : List (String × String)) :
    members.length ≤ ([',', ' '].intercalate (members.map jsonMember)).length := by
  induction members with
  | nil => simp
  | cons m members ih =>
    have some_char : 1 ≤ (jsonMember m).length := by
      simp only [jsonMember, List.length_append, List.length_cons]
      omega
    by_cases last : members = []
    · simpa [last] using some_char
    · rw [List.map_cons, List.intercalate_cons_of_ne_nil (by simpa using last)]
      simp only [List.length_append, List.length_cons]
      omega

theorem jsonMembers_head {m : String × String} {members : List (String × String)} :
    ∃ text, [',', ' '].intercalate ((m :: members).map jsonMember) = '"' :: text := by
  have opened : ∃ text, jsonMember m = '"' :: text := by simp [jsonMember, jsonString]
  obtain ⟨text, opened⟩ := opened
  by_cases last : members = []
  · simp [last, opened]
  · rw [List.map_cons, List.intercalate_cons_of_ne_nil (by simpa using last), opened]
    simp

/-- **Round trip** of `json.dumps` on an object of strings. -/
theorem readJsonObject_jsonObject {members : List (String × String)} :
    readJsonObject (jsonObject members).toList = some members := by
  cases members with
  | nil => rfl
  | cons m members =>
    obtain ⟨text, head⟩ := @jsonMembers_head m members
    have enough := length_le_jsonMembers (m :: members)
    rw [head] at enough
    have read : readJsonMembers (('"' :: text ++ ['\x7d']).length + 1) ('"' :: text ++ ['\x7d']) =
        some (m :: members, []) := by
      rw [← head]
      refine readJsonMembers_jsonMembers (List.cons_ne_nil m members) ?_
      rw [head, List.length_append]
      omega
    rw [jsonObject_toList, head]
    show ((readJsonMembers (('"' :: text ++ ['\x7d']).length + 1) ('"' :: text ++ ['\x7d'])).bind
      fun (members, rest) => if skipJsonSpace rest = [] then some members else none) = _
    rw [read]
    rfl

example : readJsonObject "\x7b \"a\" : \"\\u00e9\\n\" \x7d".toList = some [("a", "é\n")] := by decide +kernel

end Arena.Lib
