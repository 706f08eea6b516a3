import Mathlib.Data.List.Forall2
import Arena.Lib.Decoding
import Arena.Lib.Fields

/-!
# JSON documents

What `json.dumps` writes for a value, in any of its styles, and what `json.loads` reads. How a
number is written is a parameter. An object is read as a dictionary is filled: of two members with
one name the later value stays, at the place of the earlier one.
-/

namespace Arena.Lib

variable {ν α : Type}

inductive JsonValue (ν : Type) where
  | null
  | bool (b : Bool)
  | num (n : ν)
  | str (s : String)
  | arr (items : List (JsonValue ν))
  | obj (members : List (String × JsonValue ν))

namespace JsonValue

/-- `value[name]` of a dictionary. -/
def field (name : String) : JsonValue ν → Option (JsonValue ν)
  | .obj members => members.lookup name
  | _ => none

def asString : JsonValue ν → Option String
  | .str s => some s
  | _ => none

def asNumber : JsonValue ν → Option ν
  | .num n => some n
  | _ => none

def asArray : JsonValue ν → Option (List (JsonValue ν))
  | .arr items => some items
  | _ => none

end JsonValue

/-! ## Numbers -/

def isNumberChar (c : Char) : Bool := c.isDigit || c = '-' || c = '+' || c = '.' || c = 'e' || c = 'E'

/-- How numbers are written and read; those in `Valid` keep their value. -/
structure NumberFormat (ν : Type) where
  text : ν → List Char
  read : List Char → Option ν
  Valid : ν → Prop
  read_text : ∀ n, Valid n → read (text n) = some n
  token : ∀ n, ∀ c ∈ text n, isNumberChar c = true
  ne_nil : ∀ n, text n ≠ []

/-- An integer of a JSON document: it has no leading zeros. -/
def readJsonInteger (s : List Char) : Option ℤ :=
  let digits := if s.head? = some '-' then s.tail else s
  if digits.head? = some '0' ∧ digits.tail ≠ [] then none else readInteger s

/-- A positive number has no leading zero. -/
theorem head?_toDigits {n : ℕ} (pos : 0 < n) : (Nat.toDigits 10 n).head? ≠ some '0' := by
  induction n using Nat.strong_induction_on with
  | _ n ih =>
    by_cases small : n < 10
    · rw [Nat.toDigits_of_lt_base small]
      interval_cases n <;> decide
    · have fewer := ih (n / 10) (by omega) (by omega)
      rw [Nat.toDigits_of_base_le (by decide) (by omega), List.head?_append_of_ne_nil _ Nat.toDigits_ne_nil]
      exact fewer

theorem readJsonInteger_toString {z : ℤ} : readJsonInteger (toString z).toList = some z := by
  rw [readJsonInteger, readInteger_toString]
  refine if_neg fun leading => ?_
  cases z with
  | ofNat n =>
    have noMinus : (Nat.toDigits 10 n).head? ≠ some '-' := fun minus =>
      absurd (toDigits_isDigit _ (List.mem_of_head? minus)) (by decide)
    rw [toList_ofNat, if_neg noMinus] at leading
    rcases Nat.eq_zero_or_pos n with rfl | pos
    · exact leading.2 rfl
    · exact head?_toDigits pos leading.1
  | negSucc n =>
    rw [toList_negSucc] at leading
    exact head?_toDigits (Nat.succ_pos n) leading.1

theorem intText_token {z : ℤ} : ∀ c ∈ (toString z).toList, isNumberChar c = true := by
  have digit : ∀ n : ℕ, ∀ c ∈ Nat.toDigits 10 n, isNumberChar c = true := by
    intro n c mem
    simp [isNumberChar, toDigits_isDigit c mem]
  cases z with
  | ofNat n =>
    rw [toList_ofNat]
    exact digit n
  | negSucc n =>
    rw [toList_negSucc]
    exact List.forall_mem_cons.2 ⟨rfl, digit (n + 1)⟩

theorem intText_ne_nil {z : ℤ} : (toString z).toList ≠ [] := by
  cases z with
  | ofNat n =>
    rw [toList_ofNat]
    exact Nat.toDigits_ne_nil
  | negSucc n =>
    rw [toList_negSucc]
    exact List.cons_ne_nil _ _

/-! ## Characters outside of ASCII -/

def hex4 (n : ℕ) : List Char :=
  [hexDigit false (n / 4096), hexDigit false (n / 256 % 16), hexDigit false (n / 16 % 16),
    hexDigit false (n % 16)]

/-- One character of a string literal that `json.dumps(.., ensure_ascii=True)` writes. -/
def asciiChar (c : Char) : List Char :=
  if 127 ≤ c.toNat then
    if c.toNat < 0x10000 then '\\' :: 'u' :: hex4 c.toNat
    else
      '\\' :: 'u' :: (hex4 (0xD800 + (c.toNat - 0x10000) / 0x400) ++
        '\\' :: 'u' :: hex4 (0xDC00 + (c.toNat - 0x10000) % 0x400))
  else jsonChar c

theorem readHex4_hex4 {n : ℕ} {rest : List Char} (small : n < 0x10000) :
    readHex4 (hex4 n ++ rest) = some (n, rest) := by
  have first := hexValue_hexDigit false (show n / 4096 < 16 by omega)
  have second := hexValue_hexDigit false (show n / 256 % 16 < 16 by omega)
  have third := hexValue_hexDigit false (show n / 16 % 16 < 16 by omega)
  have fourth := hexValue_hexDigit false (show n % 16 < 16 by omega)
  have value : ((n / 4096 * 16 + n / 256 % 16) * 16 + n / 16 % 16) * 16 + n % 16 = n := by omega
  simp only [hex4, List.cons_append, List.nil_append, readHex4, first, second, third, fourth,
    Option.bind_some, Option.map_some, value]

/-- The code points that are no characters lie between the two planes of a surrogate pair. -/
theorem char_range (c : Char) : c.toNat < 0xD800 ∨ (0xDFFF < c.toNat ∧ c.toNat < 0x110000) := c.valid

/-- A character of the first plane. -/
theorem readUnicodeEscape_hex4 {n : ℕ} {rest : List Char} (small : n < 0x10000)
    (outside : n < 0xD800 ∨ 0xDFFF < n) :
    readUnicodeEscape (hex4 n ++ rest) = some (Char.ofNat n, rest) := by
  rw [readUnicodeEscape, readHex4_hex4 small]
  exact if_pos outside

/-- A surrogate pair. -/
theorem readUnicodeEscape_pair {high low : ℕ} {rest : List Char} (leads : 0xD800 ≤ high) (led : high < 0xDC00)
    (trails : 0xDC00 ≤ low) (trailed : low ≤ 0xDFFF) :
    readUnicodeEscape (hex4 high ++ '\\' :: 'u' :: (hex4 low ++ rest)) =
      some (Char.ofNat (0x10000 + (high - 0xD800) * 0x400 + (low - 0xDC00)), rest) := by
  have inside : ¬ (high < 0xD800 ∨ 0xDFFF < high) := by omega
  rw [readUnicodeEscape, readHex4_hex4 (by omega)]
  refine (if_neg inside).trans ((if_pos led).trans ?_)
  simp only [readHex4_hex4 (show low < 0x10000 by omega), Option.bind_some, if_pos (And.intro trails trailed)]

theorem readJsonChar_escape {s : List Char} : readJsonChar ('\\' :: 'u' :: s) = readUnicodeEscape s := rfl

theorem readJsonChar_asciiChar {c : Char} {rest : List Char} :
    readJsonChar (asciiChar c ++ rest) = some (c, rest) := by
  have itself : Char.ofNat c.toNat = c := Char.ofNat_toNat c
  have range := char_range c
  unfold asciiChar
  generalize c.toNat = n at itself range
  split_ifs with beyond plane
  · rw [List.cons_append, List.cons_append, readJsonChar_escape, readUnicodeEscape_hex4 plane (by omega), itself]
  · -- the halves of the number above the first plane, ten bits each
    have value : 0x10000 + (0xD800 + (n - 0x10000) / 0x400 - 0xD800) * 0x400 +
        (0xDC00 + (n - 0x10000) % 0x400 - 0xDC00) = n := by omega
    have pair := @readUnicodeEscape_pair (0xD800 + (n - 0x10000) / 0x400) (0xDC00 + (n - 0x10000) % 0x400) rest
      (by omega) (by omega) (by omega) (by omega)
    rw [value, itself] at pair
    rw [List.cons_append, List.cons_append, List.append_assoc, readJsonChar_escape]
    exact pair
  · exact readJsonChar_jsonChar

theorem head?_asciiChar {c : Char} {rest : List Char} : (asciiChar c ++ rest).head? ≠ some '"' := by
  unfold asciiChar
  split_ifs with beyond plane
  · simp
  · simp
  · exact head?_jsonChar

theorem writesJson_asciiChar : WritesJson asciiChar :=
  ⟨fun _ _ => readJsonChar_asciiChar, fun _ _ => head?_asciiChar⟩

/-! ## Writing -/

/-- The arguments of `json.dumps`; `comma` and `colon` hold what follows these two characters. -/
structure JsonStyle where
  ascii : Bool
  comma : List Char
  colon : List Char
  indent : Option ℕ
  blankComma : comma.all isJsonSpace = true
  blankColon : colon.all isJsonSpace = true

namespace JsonStyle

def char (style : JsonStyle) : Char → List Char := if style.ascii then asciiChar else jsonChar

/-- A string literal. -/
def string (style : JsonStyle) (s : String) : List Char := '"' :: s.toList.flatMap style.char ++ ['"']

/-- The new line of an indented document. -/
def gap (style : JsonStyle) (depth : ℕ) : List Char :=
  match style.indent with
  | none => []
  | some n => '\n' :: List.replicate (n * depth) ' '

/-- Parts between brackets. -/
def enclose (style : JsonStyle) (opening closing : Char) (depth : ℕ) (parts : List (List Char)) : List Char :=
  if parts = [] then [opening, closing]
  else
    opening :: style.gap (depth + 1) ++
      (',' :: (style.comma ++ style.gap (depth + 1))).intercalate parts ++ style.gap depth ++ [closing]

/-- `json.dumps(value, indent=n)`. -/
def indented (ascii : Bool) (n : ℕ) : JsonStyle := ⟨ascii, [], [' '], some n, rfl, rfl⟩

end JsonStyle

mutual

/-- `json.dumps`, at some depth of the document. -/
def JsonValue.write (format : NumberFormat ν) (style : JsonStyle) (depth : ℕ) : JsonValue ν → List Char
  | .null => ['n', 'u', 'l', 'l']
  | .bool true => ['t', 'r', 'u', 'e']
  | .bool false => ['f', 'a', 'l', 's', 'e']
  | .num n => format.text n
  | .str s => style.string s
  | .arr items => style.enclose '[' ']' depth (writeItems format style depth items)
  | .obj members => style.enclose '\x7b' '\x7d' depth (writeMembers format style depth members)

def writeItems (format : NumberFormat ν) (style : JsonStyle) (depth : ℕ) : List (JsonValue ν) → List (List Char)
  | [] => []
  | v :: vs => v.write format style (depth + 1) :: writeItems format style depth vs

def writeMembers (format : NumberFormat ν) (style : JsonStyle) (depth : ℕ) :
    List (String × JsonValue ν) → List (List Char)
  | [] => []
  | (name, v) :: ms =>
    (style.string name ++ ':' :: (style.colon ++ v.write format style (depth + 1))) ::
      writeMembers format style depth ms

end

/-! ## Reading -/

/-- Parts up to the closing bracket; there is at least one. -/
def readParts (part : List Char → Option (α × List Char)) (closing : Char) :
    ℕ → List Char → Option (List α × List Char)
  | 0, _ => none
  | fuel + 1, s =>
    (part s).bind fun (x, rest) =>
      match skipJsonSpace rest with
      | [] => none
      | c :: rest =>
        if c = ',' then (readParts part closing fuel rest).map fun (xs, rest) => (x :: xs, rest)
        else if c = closing then some ([x], rest)
        else none

/-- What follows an opening bracket. -/
def readEnclosed (part : List Char → Option (α × List Char)) (closing : Char) (s : List Char) :
    Option (List α × List Char) :=
  match skipJsonSpace s with
  | [] => none
  | c :: rest => if c = closing then some ([], rest) else readParts part closing (rest.length + 1) (c :: rest)

def readMember (value : List Char → Option (α × List Char)) (s : List Char) : Option ((String × α) × List Char) :=
  (readJsonString s).bind fun (name, rest) =>
    match skipJsonSpace rest with
    | ':' :: rest => (value rest).map fun (x, rest) => ((name, x), rest)
    | _ => none

/-- `d[name] = x` for each member in turn. -/
def dictOf (members : List (String × α)) : List (String × α) :=
  members.foldl (fun d m =>
    if d.any (·.1 = m.1) then d.map fun m' => if m'.1 = m.1 then m else m' else d ++ [m]) []

/-- A number. -/
def readNumber (format : NumberFormat ν) (s : List Char) : Option (JsonValue ν × List Char) :=
  (format.read (s.takeWhile isNumberChar)).map fun n => (.num n, s.dropWhile isNumberChar)

def readValue (format : NumberFormat ν) : ℕ → List Char → Option (JsonValue ν × List Char)
  | 0, _ => none
  | fuel + 1, s =>
    match skipJsonSpace s with
    | '"' :: rest => (readJsonString ('"' :: rest)).map fun (text, rest) => (.str text, rest)
    | '[' :: rest => (readEnclosed (readValue format fuel) ']' rest).map fun (items, rest) => (.arr items, rest)
    | '\x7b' :: rest =>
      (readEnclosed (readMember (readValue format fuel)) '\x7d' rest).map fun (members, rest) =>
        (.obj (dictOf members), rest)
    | 'n' :: 'u' :: 'l' :: 'l' :: rest => some (.null, rest)
    | 't' :: 'r' :: 'u' :: 'e' :: rest => some (.bool true, rest)
    | 'f' :: 'a' :: 'l' :: 's' :: 'e' :: rest => some (.bool false, rest)
    | s => readNumber format s

/-- `json.loads`. -/
def readJson (format : NumberFormat ν) (s : List Char) : Option (JsonValue ν) :=
  (readValue format (s.length + 1) s).bind fun (v, rest) => if skipJsonSpace rest = [] then some v else none

/-! ## Blanks -/

theorem skipJsonSpace_blanks {blanks s : List Char} (blank : ∀ c ∈ blanks, isJsonSpace c = true) :
    skipJsonSpace (blanks ++ s) = skipJsonSpace s := List.dropWhile_append_of_pos blank

theorem skipJsonSpace_cons {c : Char} {s : List Char} (solid : isJsonSpace c = false) :
    skipJsonSpace (c :: s) = c :: s := List.dropWhile_cons_of_neg (by simp [solid])

theorem readJsonString_blanks {blanks s : List Char} (blank : ∀ c ∈ blanks, isJsonSpace c = true) :
    readJsonString (blanks ++ s) = readJsonString s := by
  rw [readJsonString, skipJsonSpace_blanks blank, ← readJsonString]

theorem readMember_blanks {value : List Char → Option (α × List Char)} {blanks s : List Char}
    (blank : ∀ c ∈ blanks, isJsonSpace c = true) : readMember value (blanks ++ s) = readMember value s := by
  rw [readMember, readJsonString_blanks blank, ← readMember]

theorem readValue_blanks {format : NumberFormat ν} {fuel : ℕ} {blanks s : List Char}
    (blank : ∀ c ∈ blanks, isJsonSpace c = true) :
    readValue format fuel (blanks ++ s) = readValue format fuel s := by
  cases fuel with
  | zero => rfl
  | succ fuel => rw [readValue, skipJsonSpace_blanks blank, ← readValue]

theorem JsonStyle.gap_blank {style : JsonStyle} {depth : ℕ} : ∀ c ∈ style.gap depth, isJsonSpace c = true := by
  intro c mem
  unfold JsonStyle.gap at mem
  split at mem
  · cases mem
  · rcases List.mem_cons.1 mem with rfl | mem
    · rfl
    · rw [List.eq_of_mem_replicate mem]
      rfl

/-! ## Parts between brackets -/

/-- A number that stands before this text ends there. -/
def Ends (rest : List Char) : Prop := ∀ c ∈ rest.head?, isNumberChar c = false

theorem ends_cons {c : Char} {rest : List Char} (other : isNumberChar c = false) : Ends (c :: rest) := by
  intro d here
  rw [← Option.some.inj here]
  exact other

theorem ends_blanks {blanks rest : List Char} (blank : ∀ c ∈ blanks, isJsonSpace c = true) (ends : Ends rest) :
    Ends (blanks ++ rest) := by
  cases blanks with
  | nil => exact ends
  | cons c blanks =>
    refine ends_cons ?_
    have space := blank c List.mem_cons_self
    simp only [isJsonSpace, Bool.or_eq_true, decide_eq_true_eq] at space
    rcases space with ((rfl | rfl) | rfl) | rfl <;> rfl

/-- A text that is no blank and no end of an array or an object from its first character on. -/
def Opens (text : List Char) : Prop :=
  ∃ c t, text = c :: t ∧ isJsonSpace c = false ∧ c ≠ ']' ∧ c ≠ '\x7d'

/-- What the reader of parts makes of the text of one part. -/
structure ReadsPart (part : List Char → Option (α × List Char)) (x : α) (text : List Char) : Prop where
  opens : Opens text
  reads : ∀ rest, Ends rest → part (text ++ rest) = some (x, rest)

section Parts

variable {part : List Char → Option (α × List Char)} {closing : Char} {lead gap tail rest : List Char}
  {xs : List α} {texts : List (List Char)}

/-- The parts of a list that was written with a comma and some blanks between them. -/
theorem readParts_intercalate
    (skips : ∀ blanks s, (∀ c ∈ blanks, isJsonSpace c = true) → part (blanks ++ s) = part s)
    (blankLead : ∀ c ∈ lead, isJsonSpace c = true) (blankGap : ∀ c ∈ gap, isJsonSpace c = true)
    (blankTail : ∀ c ∈ tail, isJsonSpace c = true) (solid : isJsonSpace closing = false)
    (other : isNumberChar closing = false) (noComma : closing ≠ ',')
    (reads : List.Forall₂ (ReadsPart part) xs texts) (ne : texts ≠ []) {fuel : ℕ} (enough : texts.length ≤ fuel) :
    readParts part closing fuel (lead ++ (',' :: gap).intercalate texts ++ tail ++ closing :: rest) =
      some (xs, rest) := by
  induction reads generalizing fuel lead with
  | nil => exact absurd rfl ne
  | @cons x text xs texts first reads ih =>
    obtain ⟨fuel, rfl⟩ := Nat.exists_eq_succ_of_ne_zero (Nat.ne_of_gt (Nat.zero_lt_of_lt enough))
    by_cases last : texts = []
    · subst last
      cases reads
      rw [List.intercalate_singleton, List.append_assoc, List.append_assoc, readParts, skips _ _ blankLead,
        first.reads _ (ends_blanks blankTail (ends_cons other))]
      simp only [Option.bind_some, skipJsonSpace_blanks blankTail, skipJsonSpace_cons solid, if_neg noComma,
        if_true]
    · have joined : lead ++ (',' :: gap).intercalate (text :: texts) ++ tail ++ closing :: rest =
          lead ++ (text ++ ',' :: (gap ++ (',' :: gap).intercalate texts ++ tail ++ closing :: rest)) := by
        rw [List.intercalate_cons_of_ne_nil last]
        simp
      rw [joined, readParts, skips _ _ blankLead, first.reads _ (ends_cons rfl)]
      simp only [Option.bind_some, skipJsonSpace_cons (show isJsonSpace ',' = false from rfl), if_true,
        ih blankGap last (Nat.le_of_succ_le_succ enough), Option.map_some]

theorem length_le_intercalate (opens : ∀ t ∈ texts, t ≠ []) :
    texts.length ≤ ((',' :: gap).intercalate texts).length := by
  induction texts with
  | nil => simp
  | cons t texts ih =>
    have pos := List.length_pos_iff.2 (opens t List.mem_cons_self)
    by_cases last : texts = []
    · subst last
      rw [List.intercalate_singleton]
      exact pos
    · have more := ih fun t mem => opens t (List.mem_cons_of_mem _ mem)
      rw [List.intercalate_cons_of_ne_nil last]
      simp only [List.length_append, List.length_cons]
      omega

theorem mem_length_intercalate {t : List Char} (mem : t ∈ texts) :
    t.length ≤ ((',' :: gap).intercalate texts).length := by
  induction texts with
  | nil => cases mem
  | cons u texts ih =>
    by_cases last : texts = []
    · subst last
      rw [List.mem_singleton.1 mem, List.intercalate_singleton]
    · rw [List.intercalate_cons_of_ne_nil last]
      simp only [List.length_append, List.length_cons]
      rcases List.mem_cons.1 mem with rfl | mem
      · omega
      · have more := ih mem
        omega

/-- A part is shorter than what it stands in. -/
theorem mem_length_enclose {style : JsonStyle} {opening : Char} {depth : ℕ} {t : List Char} (mem : t ∈ texts) :
    t.length < (style.enclose opening closing depth texts).length := by
  have inner : t.length ≤ ((',' :: (style.comma ++ style.gap (depth + 1))).intercalate texts).length :=
    mem_length_intercalate mem
  rw [JsonStyle.enclose, if_neg (List.ne_nil_of_mem mem)]
  simp only [List.length_append, List.length_cons, List.length_nil]
  omega

theorem Opens.append {t rest : List Char} (opens : Opens t) : Opens (t ++ rest) := by
  obtain ⟨c, t, rfl, solid, noBracket, noBrace⟩ := opens
  exact ⟨c, t ++ rest, rfl, solid, noBracket, noBrace⟩

theorem Opens.ne_nil {t : List Char} (opens : Opens t) : t ≠ [] := by
  obtain ⟨c, t, rfl, -⟩ := opens
  exact List.cons_ne_nil c t

theorem opens_intercalate (opens : ∀ t ∈ texts, Opens t) (ne : texts ≠ []) :
    Opens ((',' :: gap).intercalate texts) := by
  obtain ⟨t, texts, rfl⟩ := List.exists_cons_of_ne_nil ne
  have first := opens t List.mem_cons_self
  by_cases last : texts = []
  · subst last
    rwa [List.intercalate_singleton]
  · rw [List.intercalate_cons_of_ne_nil last, List.append_assoc]
    exact first.append

theorem readsPart_opens (reads : List.Forall₂ (ReadsPart part) xs texts) : ∀ t ∈ texts, Opens t := by
  induction reads with
  | nil => simp
  | cons first _ ih => exact List.forall_mem_cons.2 ⟨first.opens, ih⟩

/-- **Round trip** of what stands between brackets. -/
theorem readEnclosed_enclose {style : JsonStyle} {opening : Char} {depth : ℕ}
    (skips : ∀ blanks s, (∀ c ∈ blanks, isJsonSpace c = true) → part (blanks ++ s) = part s)
    (bracket : closing = ']' ∨ closing = '\x7d') (reads : List.Forall₂ (ReadsPart part) xs texts) :
    ∃ inner, style.enclose opening closing depth texts ++ rest = opening :: inner ∧
      readEnclosed part closing inner = some (xs, rest) := by
  have solid : isJsonSpace closing = false := by rcases bracket with rfl | rfl <;> rfl
  have other : isNumberChar closing = false := by rcases bracket with rfl | rfl <;> rfl
  have noComma : closing ≠ ',' := by rcases bracket with rfl | rfl <;> decide
  by_cases empty : texts = []
  · subst empty
    cases reads
    refine ⟨closing :: rest, by simp [JsonStyle.enclose], ?_⟩
    rw [readEnclosed, skipJsonSpace_cons solid]
    exact if_pos rfl
  · obtain ⟨gap, gapIs⟩ : ∃ gap, gap = style.comma ++ style.gap (depth + 1) := ⟨_, rfl⟩
    have blankGap : ∀ c ∈ gap, isJsonSpace c = true := by
      intro c mem
      exact (List.mem_append.1 (gapIs ▸ mem)).elim (List.all_eq_true.1 style.blankComma c) (style.gap_blank c)
    have opens := readsPart_opens reads
    obtain ⟨c, body, text, starts, noBracket, noBrace⟩ : Opens ((',' :: gap).intercalate texts) :=
      opens_intercalate opens empty
    have noClose : c ≠ closing := by rcases bracket with rfl | rfl <;> assumption
    have count : texts.length ≤ ((',' :: gap).intercalate texts).length :=
      length_le_intercalate fun t mem => (opens t mem).ne_nil
    rw [text] at count
    have enough : texts.length ≤ (body ++ style.gap depth ++ closing :: rest).length + 1 := by
      simp only [List.length_append, List.length_cons] at count ⊢
      omega
    have parts : readParts part closing ((body ++ style.gap depth ++ closing :: rest).length + 1)
        ([] ++ (',' :: gap).intercalate texts ++ style.gap depth ++ closing :: rest) = some (xs, rest) :=
      readParts_intercalate skips (by simp) blankGap style.gap_blank solid other noComma reads empty enough
    rw [text] at parts
    refine ⟨style.gap (depth + 1) ++ c :: (body ++ style.gap depth ++ closing :: rest), ?_, ?_⟩
    · rw [JsonStyle.enclose, if_neg empty, ← gapIs, text]
      simp
    · rw [readEnclosed, skipJsonSpace_blanks style.gap_blank, skipJsonSpace_cons starts]
      exact (if_neg noClose).trans parts

end Parts

/-! ## Values -/

/-- A value as a dictionary holds it: the names of an object are distinct; and its numbers can be
written. -/
inductive JsonValue.Clean (format : NumberFormat ν) : JsonValue ν → Prop
  | null : Clean format .null
  | bool (b : Bool) : Clean format (.bool b)
  | num {n : ν} (valid : format.Valid n) : Clean format (.num n)
  | str (s : String) : Clean format (.str s)
  | arr {items : List (JsonValue ν)} (values : ∀ v ∈ items, Clean format v) : Clean format (.arr items)
  | obj {members : List (String × JsonValue ν)} (names : (members.map Prod.fst).Nodup)
      (values : ∀ m ∈ members, Clean format m.2) : Clean format (.obj members)

namespace JsonValue

variable {format : NumberFormat ν}

@[simp] theorem clean_bool {b : Bool} : (bool b).Clean format := .bool b

@[simp] theorem clean_str {s : String} : (str s).Clean format := .str s

@[simp] theorem clean_num {n : ν} : (num n).Clean format ↔ format.Valid n :=
  ⟨fun clean => by cases clean; assumption, .num⟩

@[simp] theorem clean_arr {items : List (JsonValue ν)} : (arr items).Clean format ↔ ∀ v ∈ items, v.Clean format :=
  ⟨fun clean => by cases clean; assumption, .arr⟩

@[simp] theorem clean_obj {members : List (String × JsonValue ν)} :
    (obj members).Clean format ↔ (members.map Prod.fst).Nodup ∧ ∀ m ∈ members, m.2.Clean format :=
  ⟨fun clean => by cases clean; exact ⟨‹_›, ‹_›⟩, fun h => .obj h.1 h.2⟩

end JsonValue

section Values

variable {format : NumberFormat ν} {style : JsonStyle} {depth fuel : ℕ} {rest : List Char}

theorem writeItems_eq_map {vs : List (JsonValue ν)} :
    writeItems format style depth vs = vs.map fun v => v.write format style (depth + 1) := by
  induction vs with
  | nil => rfl
  | cons v vs ih => rw [writeItems, ih, List.map_cons]

theorem writeMembers_eq_map {ms : List (String × JsonValue ν)} :
    writeMembers format style depth ms = ms.map fun m =>
      style.string m.1 ++ ':' :: (style.colon ++ m.2.write format style (depth + 1)) := by
  induction ms with
  | nil => rfl
  | cons m ms ih => rw [writeMembers, ih, List.map_cons]

theorem JsonStyle.writesJson (style : JsonStyle) : WritesJson style.char := by
  unfold JsonStyle.char
  split
  · exact writesJson_asciiChar
  · exact writesJson_jsonChar

theorem readJsonString_string {s : String} :
    readJsonString (style.string s ++ rest) = some (s, rest) := by
  have opened : style.string s ++ rest = '"' :: (s.toList.flatMap style.char ++ '"' :: rest) := by
    simp [JsonStyle.string]
  rw [opened, readJsonString_chars style.writesJson]

/-- The names in a dictionary are distinct already. -/
theorem dictOf_of_nodup {members : List (String × α)} (names : (members.map Prod.fst).Nodup) :
    dictOf members = members := by
  have fills : ∀ d : List (String × α), ((d ++ members).map Prod.fst).Nodup →
      members.foldl (fun d m =>
        if d.any (·.1 = m.1) then d.map fun m' => if m'.1 = m.1 then m else m' else d ++ [m]) d =
        d ++ members := by
    clear names
    induction members with
    | nil => simp
    | cons m members ih =>
      intro d names
      have fresh : ¬ d.any (·.1 = m.1) = true := by
        simp only [List.map_append, List.map_cons, List.nodup_append] at names
        simp only [List.any_eq_true, decide_eq_true_eq, not_exists, not_and]
        exact fun m' mem same => names.2.2 m'.1 (List.mem_map_of_mem mem) m.1 List.mem_cons_self same
      rw [List.foldl_cons, if_neg fresh, ih _ (by simpa using names)]
      simp
  exact fills [] names

theorem readNumber_text {n : ν} (valid : format.Valid n) (ends : Ends rest) :
    readNumber format (format.text n ++ rest) = some (.num n, rest) := by
  have stop : rest.takeWhile isNumberChar = [] ∧ rest.dropWhile isNumberChar = rest := by
    cases rest with
    | nil => exact ⟨rfl, rfl⟩
    | cons c rest =>
      have other : isNumberChar c = false := ends c rfl
      simp [other]
  rw [readNumber, List.takeWhile_append_of_pos (format.token n), List.dropWhile_append_of_pos (format.token n),
    stop.1, stop.2, List.append_nil, format.read_text n valid, Option.map_some]

theorem numberChar_solid {c : Char} (digit : isNumberChar c = true) :
    isJsonSpace c = false ∧ c ≠ ']' ∧ c ≠ '\x7d' := by
  refine ⟨?_, by rintro rfl; exact absurd digit (by decide), by rintro rfl; exact absurd digit (by decide)⟩
  by_contra space
  simp only [isJsonSpace, Bool.not_eq_false, Bool.or_eq_true, decide_eq_true_eq] at space
  rcases space with ((rfl | rfl) | rfl) | rfl <;> exact absurd digit (by decide)

/-- The first character of a number. -/
theorem text_cons {n : ν} : ∃ c t, format.text n = c :: t ∧ isNumberChar c = true := by
  obtain ⟨c, t, text⟩ := List.exists_cons_of_ne_nil (format.ne_nil n)
  exact ⟨c, t, text, format.token n c (by rw [text]; exact List.mem_cons_self)⟩

theorem opens_text {n : ν} : Opens (format.text n) := by
  obtain ⟨c, t, text, digit⟩ := @text_cons ν format n
  exact ⟨c, t, text, numberChar_solid digit⟩

/-- A number is none of the values that begin with a letter, a quotation mark or a bracket. -/
theorem readValue_num {n : ν} (valid : format.Valid n) (ends : Ends rest) :
    readValue format (fuel + 1) (format.text n ++ rest) = some (.num n, rest) := by
  obtain ⟨c, t, text, digit⟩ := @text_cons ν format n
  have read := readNumber_text valid ends
  rw [text, List.cons_append] at read ⊢
  rw [readValue, skipJsonSpace_cons (numberChar_solid digit).1]
  split
  all_goals first
    | exact read
    | rename_i same
      obtain ⟨rfl, -⟩ := List.cons.inj same
      exact absurd digit (by decide)

theorem readsPart_member {name : String} {v : JsonValue ν}
    (reads : ReadsPart (readValue format fuel) v (v.write format style depth)) :
    ReadsPart (readMember (readValue format fuel)) (name, v)
      (style.string name ++ ':' :: (style.colon ++ v.write format style depth)) where
  opens := ⟨'"', _, rfl, rfl, by decide, by decide⟩
  reads rest ends := by
    rw [List.append_assoc, readMember, readJsonString_string]
    simp only [Option.bind_some, List.cons_append, skipJsonSpace_cons (show isJsonSpace ':' = false from rfl)]
    rw [List.append_assoc, readValue_blanks (List.all_eq_true.1 style.blankColon), reads.reads rest ends]
    rfl

theorem opens_enclose {opening closing : Char} {parts : List (List Char)}
    (bracket : opening = '[' ∨ opening = '\x7b') : Opens (style.enclose opening closing depth parts) := by
  have starts : ∃ t, style.enclose opening closing depth parts = opening :: t := by
    unfold JsonStyle.enclose
    split
    · exact ⟨_, rfl⟩
    · simp
  obtain ⟨t, text⟩ := starts
  refine ⟨opening, t, text, ?_⟩
  rcases bracket with rfl | rfl <;> exact ⟨rfl, by decide, by decide⟩

theorem readsPart_arr {items : List (JsonValue ν)}
    (parts : List.Forall₂ (ReadsPart (readValue format fuel)) items (writeItems format style depth items)) :
    ReadsPart (readValue format (fuel + 1)) (.arr items) (JsonValue.write format style depth (.arr items)) where
  opens := opens_enclose (.inl rfl)
  reads rest _ := by
    obtain ⟨inner, text, read⟩ := readEnclosed_enclose (fun _ _ => readValue_blanks) (.inl rfl) parts
    rw [JsonValue.write, text, readValue, skipJsonSpace_cons rfl]
    exact (congrArg (Option.map _) read).trans rfl

theorem readsPart_obj {members : List (String × JsonValue ν)} (names : (members.map Prod.fst).Nodup)
    (parts : List.Forall₂ (ReadsPart (readMember (readValue format fuel))) members
      (writeMembers format style depth members)) :
    ReadsPart (readValue format (fuel + 1)) (.obj members) (JsonValue.write format style depth (.obj members)) where
  opens := opens_enclose (.inr rfl)
  reads rest _ := by
    obtain ⟨inner, text, read⟩ := readEnclosed_enclose (fun _ _ => readMember_blanks) (.inr rfl) parts
    rw [JsonValue.write, text, readValue, skipJsonSpace_cons rfl]
    have dict := congrArg (fun ms => some (JsonValue.obj ms, rest)) (dictOf_of_nodup names)
    exact (congrArg (Option.map _) read).trans dict

/-- A written value reads back, whatever follows it: by induction on the value, with fuel for its depth. -/
theorem readsPart_write {v : JsonValue ν} (clean : v.Clean format)
    (enough : (v.write format style depth).length ≤ fuel) :
    ReadsPart (readValue format (fuel + 1)) v (v.write format style depth) := by
  induction clean generalizing depth fuel with
  | null => exact ⟨⟨'n', _, rfl, rfl, by decide, by decide⟩, fun rest _ => rfl⟩
  | bool b =>
    cases b with
    | true => exact ⟨⟨'t', _, rfl, rfl, by decide, by decide⟩, fun rest _ => rfl⟩
    | false => exact ⟨⟨'f', _, rfl, rfl, by decide, by decide⟩, fun rest _ => rfl⟩
  | num valid => exact ⟨opens_text, fun rest ends => readValue_num valid ends⟩
  | str s =>
    refine ⟨⟨'"', _, rfl, rfl, by decide, by decide⟩, fun rest _ => ?_⟩
    have read := @readJsonString_string style rest s
    rw [JsonValue.write, readValue]
    exact (congrArg (Option.map _) read).trans rfl
  | @arr items values ih =>
    refine readsPart_arr ?_
    rw [writeItems_eq_map, List.forall₂_map_right_iff, List.forall₂_same]
    intro v mem
    have shorter : (v.write format style (depth + 1)).length < fuel := by
      refine Nat.lt_of_lt_of_le (mem_length_enclose ?_) enough
      rw [writeItems_eq_map]
      exact List.mem_map_of_mem mem
    obtain ⟨fuel, rfl⟩ := Nat.exists_eq_succ_of_ne_zero (Nat.ne_of_gt (Nat.zero_lt_of_lt shorter))
    exact ih v mem (Nat.le_of_lt_succ shorter)
  | @obj members names values ih =>
    refine readsPart_obj names ?_
    rw [writeMembers_eq_map, List.forall₂_map_right_iff, List.forall₂_same]
    intro m mem
    have shorter :
        (style.string m.1 ++ ':' :: (style.colon ++ m.2.write format style (depth + 1))).length < fuel := by
      refine Nat.lt_of_lt_of_le (mem_length_enclose ?_) enough
      rw [writeMembers_eq_map]
      exact List.mem_map_of_mem mem
    simp only [List.length_append, List.length_cons] at shorter
    obtain ⟨fuel, rfl⟩ := Nat.exists_eq_succ_of_ne_zero (Nat.ne_of_gt (Nat.zero_lt_of_lt shorter))
    exact readsPart_member (ih m mem (by omega))

/-- **Round trip**: a document reads back in every style. -/
theorem readJson_write {v : JsonValue ν} (clean : v.Clean format) (blank : rest.all isJsonSpace = true) :
    readJson format (v.write format style 0 ++ rest) = some v := by
  have ends : Ends rest := by
    have none : Ends [] := by simp [Ends]
    simpa using ends_blanks (List.all_eq_true.1 blank) none
  have read : readValue format ((v.write format style 0 ++ rest).length + 1) (v.write format style 0 ++ rest) =
      some (v, rest) := (readsPart_write clean (by simp)).reads rest ends
  have done : skipJsonSpace rest = [] := List.dropWhile_eq_nil_iff.2 (List.all_eq_true.1 blank)
  rw [readJson, read]
  exact if_pos done

end Values

end Arena.Lib
