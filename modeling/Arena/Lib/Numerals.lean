import Mathlib.Tactic.IntervalCases
import Arena.Lib.Text

/-!
# Reading and writing integers

Python's `int` of a text and `str` of an integer. `int` strips white space, reads a sign and
takes any Unicode decimal digit, with single underscores between digits; both refuse more than
`intMaxStrDigits` digits. So many texts read as one integer, and `str` writes one of them.
-/

namespace Arena.Lib

/-- `sys.get_int_max_str_digits()`. -/
def intMaxStrDigits : ℕ := 4300

/-- The digits zero of Unicode 15.0; the other digits of each script follow its zero. -/
def decimalZeros : List ℕ :=
  [0x30, 0x660, 0x6F0, 0x7C0, 0x966, 0x9E6, 0xA66, 0xAE6, 0xB66, 0xBE6, 0xC66, 0xCE6, 0xD66, 0xDE6,
    0xE50, 0xED0, 0xF20, 0x1040, 0x1090, 0x17E0, 0x1810, 0x1946, 0x19D0, 0x1A80, 0x1A90, 0x1B50,
    0x1BB0, 0x1C40, 0x1C50, 0xA620, 0xA8D0, 0xA900, 0xA9D0, 0xA9F0, 0xAA50, 0xABF0, 0xFF10, 0x104A0,
    0x10D30, 0x11066, 0x110F0, 0x11136, 0x111D0, 0x112F0, 0x11450, 0x114D0, 0x11650, 0x116C0,
    0x11730, 0x118E0, 0x11950, 0x11C50, 0x11D50, 0x11DA0, 0x11F50, 0x16A60, 0x16AC0, 0x16B50, 0x1D7CE,
    0x1D7D8, 0x1D7E2, 0x1D7EC, 0x1D7F6, 0x1E140, 0x1E2F0, 0x1E4F0, 0x1E950, 0x1FBF0]

/-- The value of a decimal digit. -/
def decimalDigit (c : Char) : Option ℕ :=
  (decimalZeros.find? fun z => z ≤ c.toNat && c.toNat < z + 10).map (c.toNat - ·)

/-- The white space that `int` strips: in ASCII that of C, elsewhere `str.isspace`. -/
def isNumeralSpace (c : Char) : Bool :=
  let n := c.toNat
  if n < 128 then (9 ≤ n && n ≤ 13) || n == 32 else isSpace c

/-- Digits, with single underscores between them. -/
def readDigits : List Char → Option (List ℕ)
  | [] => none
  | [c] => (decimalDigit c).map ([·])
  | c :: '_' :: rest => (decimalDigit c).bind fun d => (readDigits rest).map (d :: ·)
  | c :: next :: rest => (decimalDigit c).bind fun d => (readDigits (next :: rest)).map (d :: ·)

/-- The number that digits write. -/
def digitsValue (digits : List ℕ) : ℕ := digits.foldl (fun n d => 10 * n + d) 0

/-- A sign, if there is one, and the rest. -/
def takeSign : List Char → Bool × List Char
  | '-' :: rest => (true, rest)
  | '+' :: rest => (false, rest)
  | rest => (false, rest)

/-- `int(text)`, or the `ValueError`. -/
def readInt (text : String) : Option ℤ :=
  let (negative, numeral) := takeSign (strip isNumeralSpace text.toList)
  match readDigits numeral with
  | none => none
  | some digits =>
    if intMaxStrDigits < digits.length then none
    else some (if negative then -(digitsValue digits : ℤ) else digitsValue digits)

/-- `str(v)`, or the `ValueError`. -/
def writeInt (v : ℤ) : Option String :=
  if intMaxStrDigits < (Nat.toDigits 10 v.natAbs).length then none else some (toString v)

example : readInt " +0_1 " = some 1 := by decide +kernel

/-! ## What `str` writes -/

theorem decimalDigit_of_isDigit {c : Char} (h : c.isDigit) : decimalDigit c = some (c.toNat - 48) := by
  obtain ⟨low, high⟩ : 48 ≤ c.toNat ∧ c.toNat ≤ 57 := Char.isDigit_iff_toNat.1 h
  have below : c.toNat < 58 := by omega
  simp [decimalDigit, decimalZeros, low, below]

theorem readDigits_of_isDigit {s : List Char} (ne : s ≠ []) (all : ∀ c ∈ s, c.isDigit) :
    readDigits s = some (s.map fun c => c.toNat - 48) := by
  induction s with
  | nil => exact absurd rfl ne
  | cons c s ih =>
    have here := decimalDigit_of_isDigit (all c (by simp))
    cases s with
    | nil => simp [readDigits, here]
    | cons next rest =>
      have digit : next ≠ '_' := by
        rintro rfl
        exact absurd (all '_' (by simp)) (by decide)
      rw [readDigits, here, ih (by simp) fun a ha => all a (by simp [ha])]
      · rfl
      · exact digit

theorem digitsValue_toDigits {n : ℕ} :
    digitsValue ((Nat.toDigits 10 n).map fun c => c.toNat - 48) = n := by
  have value := Nat.ofDigitChars_ten_toDigits (n := n)
  rw [Nat.ofDigitChars_eq_foldl] at value
  simpa [digitsValue, List.foldl_map] using value

theorem isNumeralSpace_of_isDigit {c : Char} (h : c.isDigit) : isNumeralSpace c = false := by
  obtain ⟨low, high⟩ : 48 ≤ c.toNat ∧ c.toNat ≤ 57 := Char.isDigit_iff_toNat.1 h
  have ascii : c.toNat < 128 := by omega
  simp [isNumeralSpace, ascii]
  omega

theorem toDigits_isDigit {n : ℕ} : ∀ c ∈ Nat.toDigits 10 n, c.isDigit :=
  fun _ => Nat.isDigit_of_mem_toDigits (by decide) (by decide)

theorem strip_digits {s : List Char} (ne : s ≠ []) (all : ∀ c ∈ s, c.isDigit) :
    strip isNumeralSpace s = s :=
  strip_of_ends ne (by simp [isNumeralSpace_of_isDigit (all _ (List.head_mem ne))])
    (by simp [isNumeralSpace_of_isDigit (all _ (List.getLast_mem ne))])

theorem strip_minus_digits {s : List Char} (ne : s ≠ []) (all : ∀ c ∈ s, c.isDigit) :
    strip isNumeralSpace ('-' :: s) = '-' :: s := by
  refine strip_of_ends (by simp) (by simp [isNumeralSpace]) ?_
  rw [List.getLast_cons ne]
  simp [isNumeralSpace_of_isDigit (all _ (List.getLast_mem ne))]

theorem takeSign_digits {s : List Char} (all : ∀ c ∈ s, c.isDigit) : takeSign s = (false, s) := by
  cases s with
  | nil => rfl
  | cons c s =>
    have digit := all c (by simp)
    have minus : c ≠ '-' := by rintro rfl; exact absurd digit (by decide)
    have plus : c ≠ '+' := by rintro rfl; exact absurd digit (by decide)
    unfold takeSign
    split <;> simp_all

theorem toList_ofNat {n : ℕ} : (toString (Int.ofNat n)).toList = Nat.toDigits 10 n := Nat.toList_repr

theorem toList_negSucc {n : ℕ} :
    (toString (Int.negSucc n)).toList = '-' :: Nat.toDigits 10 (n + 1) := by
  show ("-" ++ Nat.repr (n + 1)).toList = _
  rw [String.toList_append, Nat.toList_repr]
  rfl

/-- **Round trip**: `int` reads what `str` writes. -/
theorem readInt_of_writeInt {v : ℤ} {text : String} (h : writeInt v = some text) :
    readInt text = some v := by
  unfold writeInt at h
  split at h
  · cases h
  · rename_i short
    cases h
    cases v with
    | ofNat n =>
      have digits := readDigits_of_isDigit Nat.toDigits_ne_nil (toDigits_isDigit (n := n))
      simp only [readInt, toList_ofNat, strip_digits Nat.toDigits_ne_nil toDigits_isDigit,
        takeSign_digits toDigits_isDigit, digits, List.length_map, digitsValue_toDigits]
      rw [if_neg (by simpa using short)]
      rfl
    | negSucc n =>
      have digits := readDigits_of_isDigit Nat.toDigits_ne_nil (toDigits_isDigit (n := n + 1))
      simp only [readInt, toList_negSucc, strip_minus_digits Nat.toDigits_ne_nil toDigits_isDigit, takeSign,
        digits, List.length_map, digitsValue_toDigits]
      rw [if_neg (by simpa using short)]
      rfl

/-- What `str` writes is digits, after a sign. -/
theorem mem_writeInt {v : ℤ} {text : String} (h : writeInt v = some text) :
    ∀ c ∈ text.toList, c.isDigit ∨ c = '-' := by
  unfold writeInt at h
  split at h
  · cases h
  · cases h
    intro c mem
    cases v with
    | ofNat n =>
      rw [toList_ofNat] at mem
      exact .inl (toDigits_isDigit c mem)
    | negSucc n =>
      rw [toList_negSucc] at mem
      rcases List.mem_cons.1 mem with sign | mem
      · exact .inr sign
      · exact .inl (toDigits_isDigit c mem)

/-! ## What `int` reads -/

theorem decimalDigit_lt {c : Char} {d : ℕ} (h : decimalDigit c = some d) : d < 10 := by
  obtain ⟨z, found, rfl⟩ := Option.map_eq_some_iff.1 h
  have range := List.find?_some found
  simp only [Bool.and_eq_true, decide_eq_true_eq] at range
  omega

theorem readDigits_lt {s : List Char} {digits : List ℕ} (h : readDigits s = some digits) :
    ∀ d ∈ digits, d < 10 := by
  induction s using readDigits.induct generalizing digits with
  | case1 => cases h
  | case2 c =>
    obtain ⟨d, here, rfl⟩ := Option.map_eq_some_iff.1 h
    simpa using decimalDigit_lt here
  | case3 c rest ih =>
    simp only [readDigits, Option.bind_eq_some_iff, Option.map_eq_some_iff] at h
    obtain ⟨d, here, ds, more, rfl⟩ := h
    simpa using ⟨decimalDigit_lt here, ih more⟩
  | case4 c next rest digit ih =>
    rw [readDigits] at h
    · simp only [Option.bind_eq_some_iff, Option.map_eq_some_iff] at h
      obtain ⟨d, here, ds, more, rfl⟩ := h
      simpa using ⟨decimalDigit_lt here, ih more⟩
    · exact digit

theorem digitsValue_lt {digits : List ℕ} (h : ∀ d ∈ digits, d < 10) :
    digitsValue digits < 10 ^ digits.length := by
  have from_any : ∀ n, digits.foldl (fun n d => 10 * n + d) n < (n + 1) * 10 ^ digits.length := by
    induction digits with
    | nil => simp
    | cons d digits ih =>
      intro n
      have step := ih (fun a ha => h a (by simp [ha])) (10 * n + d)
      have small : d < 10 := h d (by simp)
      calc (d :: digits).foldl (fun n d => 10 * n + d) n
          < (10 * n + d + 1) * 10 ^ digits.length := step
        _ ≤ ((n + 1) * 10) * 10 ^ digits.length := Nat.mul_le_mul_right _ (by omega)
        _ = (n + 1) * 10 ^ (d :: digits).length := by rw [List.length_cons, Nat.pow_succ', Nat.mul_assoc]
  simpa [digitsValue] using from_any 0

/-- `str` writes every integer that `int` reads. -/
theorem writeInt_of_readInt {v : ℤ} {text : String} (h : readInt text = some v) :
    ∃ canonical, writeInt v = some canonical := by
  unfold readInt at h
  simp only at h
  split at h
  · cases h
  · rename_i digits read
    split at h
    · cases h
    · rename_i short
      have size : v.natAbs = digitsValue digits := by
        have value := Option.some.inj h
        split at value <;> omega
      have bound : v.natAbs < 10 ^ intMaxStrDigits :=
        size ▸ (digitsValue_lt (readDigits_lt read)).trans_le
          (Nat.pow_le_pow_right (by decide) (by omega))
      have fits : ¬ intMaxStrDigits < (Nat.toDigits 10 v.natAbs).length := by
        rw [not_lt]
        exact (Nat.length_toDigits_le_iff (by decide) (by decide)).2 bound
      exact ⟨_, by rw [writeInt, if_neg fits]⟩

end Arena.Lib
