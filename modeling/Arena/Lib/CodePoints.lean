import Mathlib.Data.List.Basic

/-!
# Texts with surrogates

A text as a list of code points, which is what a JSON escape can make: a surrogate may stand in it
alone. Only the texts without surrogates are `String`s, and only they have an encoding in UTF-8.
-/

namespace Arena.Lib

/-- A code point, the surrogates among them. -/
structure CodePoint where
  val : ℕ
  small : val < 0x110000
  deriving DecidableEq

abbrev CodePoints := List CodePoint

namespace CodePoint

def ofChar (c : Char) : CodePoint where
  val := c.toNat
  small := by
    have valid : c.toNat.isValidChar := c.valid
    unfold Nat.isValidChar at valid
    omega

/-- The character, unless the code point is a surrogate. -/
def char? (p : CodePoint) : Option Char := if p.val.isValidChar then some (Char.ofNat p.val) else none

@[simp] theorem char?_ofChar {c : Char} : (ofChar c).char? = some c := by
  have valid : (ofChar c).val.isValidChar := c.valid
  rw [char?, if_pos valid]
  exact congrArg some (Char.ofNat_toNat c)

theorem char?_eq_some_iff {p : CodePoint} {c : Char} : p.char? = some c ↔ p = ofChar c := by
  constructor
  · intro read
    unfold char? at read
    split at read
    · rename_i valid
      obtain rfl := Option.some.inj read
      obtain ⟨n, small⟩ := p
      rw [ofChar, mk.injEq, Char.ofNat, dif_pos valid]
      rfl
    · cases read
  · rintro rfl
    exact char?_ofChar

theorem char?_eq_none_iff {p : CodePoint} : p.char? = none ↔ 0xD800 ≤ p.val ∧ p.val < 0xE000 := by
  have small := p.small
  simp only [char?, ite_eq_right_iff, reduceCtorEq, imp_false, Nat.isValidChar]
  omega

end CodePoint

namespace CodePoints

def ofString (s : String) : CodePoints := s.toList.map CodePoint.ofChar

/-- The text, unless it has a surrogate: what `str.encode` can encode. -/
def string? (t : CodePoints) : Option String := (t.mapM CodePoint.char?).map String.ofList

@[simp] theorem string?_ofString {s : String} : (ofString s).string? = some s := by
  have each : (ofString s).mapM CodePoint.char? = some s.toList := by
    rw [ofString]
    induction s.toList with
    | nil => rfl
    | cons c cs ih => simp [ih]
  rw [string?, each, Option.map_some, String.ofList_toList]

theorem mapM_char? {t : CodePoints} {cs : List Char} (each : t.mapM CodePoint.char? = some cs) :
    t = cs.map CodePoint.ofChar := by
  induction t generalizing cs with
  | nil =>
    obtain rfl : [] = cs := by simpa using each
    rfl
  | cons p t ih =>
    obtain ⟨c, first, cs', rest, rfl⟩ : ∃ c, p.char? = some c ∧ ∃ cs', t.mapM CodePoint.char? = some cs' ∧
        c :: cs' = cs := by simpa [List.mapM_cons, Option.bind_eq_some_iff] using each
    rw [List.map_cons, ← ih rest, ← CodePoint.char?_eq_some_iff.1 first]

theorem string?_eq_some_iff {t : CodePoints} {s : String} : t.string? = some s ↔ t = ofString s := by
  constructor
  · intro read
    obtain ⟨cs, each, rfl⟩ := Option.map_eq_some_iff.1 read
    rw [ofString, String.toList_ofList, ← mapM_char? each]
  · rintro rfl
    exact string?_ofString

theorem mapM_char?_eq_none_iff {t : CodePoints} : t.mapM CodePoint.char? = none ↔ ∃ p ∈ t, p.char? = none := by
  induction t with
  | nil => simp
  | cons p t ih =>
    rw [List.mapM_cons]
    cases first : p.char? with
    | none => simp [first]
    | some c => cases rest : t.mapM CodePoint.char? <;> simp [first, ← ih, rest]

/-- The text has no surrogate. -/
def encodable (t : CodePoints) : Bool := t.all fun p => !(0xD800 ≤ p.val && p.val < 0xE000)

theorem string?_eq_none_iff {t : CodePoints} : t.string? = none ↔ t.encodable = false := by
  rw [string?, Option.map_eq_none_iff, mapM_char?_eq_none_iff, encodable, List.all_eq_false]
  simp [CodePoint.char?_eq_none_iff]

@[simp] theorem encodable_ofString {s : String} : (ofString s).encodable = true := by
  rw [← Bool.not_eq_false, ← string?_eq_none_iff, string?_ofString]
  nofun

theorem encodable_iff {t : CodePoints} : t.encodable = true ↔ ∃ s, t = ofString s := by
  constructor
  · intro encoded
    cases read : t.string? with
    | none => exact absurd (string?_eq_none_iff.1 read) (by simp [encoded])
    | some s => exact ⟨s, string?_eq_some_iff.1 read⟩
  · rintro ⟨s, rfl⟩
    exact encodable_ofString

@[simp] theorem length_ofString {s : String} : (ofString s).length = s.length := by
  rw [ofString, List.length_map, String.length_toList]

end CodePoints

end Arena.Lib
