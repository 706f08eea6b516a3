import Arena.Lib.Uri

/-!
# Fields of a header

`name=value; name=value`, as a server writes the parameters of a header and a client reads them,
and the integers among the values.
-/

namespace Arena.Lib

/-! ## Integers -/

/-- A decimal integer, with a minus sign or none. -/
def readInteger (s : List Char) : Option ℤ :=
  match s with
  | '-' :: digits => (readDecimal digits).map fun n : ℕ => -(n : ℤ)
  | digits => (readDecimal digits).map fun n : ℕ => (n : ℤ)

theorem readInteger_toDigits {n : ℕ} : readInteger (Nat.toDigits 10 n) = some (n : ℤ) := by
  unfold readInteger
  split
  · rename_i digits minus
    have digit : '-'.isDigit = true := toDigits_isDigit (n := n) _ (by rw [minus]; exact List.mem_cons_self)
    exact absurd digit (by decide)
  · rw [readDecimal_toDigits, Option.map_some]

theorem readInteger_toString {z : ℤ} : readInteger (toString z).toList = some z := by
  cases z with
  | ofNat n =>
    have digits : (toString (Int.ofNat n)).toList = Nat.toDigits 10 n := Nat.toList_repr
    rw [digits, readInteger_toDigits]
    rfl
  | negSucc n =>
    have digits : (toString (Int.negSucc n)).toList = '-' :: Nat.toDigits 10 (n + 1) :=
      String.toList_append.trans (congrArg (['-'] ++ ·) Nat.toList_repr)
    rw [digits, readInteger, readDecimal_toDigits, Option.map_some]
    rfl

/-! ## Fields -/

def writeFields (fields : List (String × String)) : String :=
  "; ".intercalate (fields.map fun f => f.1 ++ "=" ++ f.2)

/-- The fields between the semicolons, without the spaces around them. -/
def readFields (s : String) : List (String × String) :=
  (s.toList.splitOn ';').map fun field =>
    let (name, value) := cutFirst '=' (strip isSpace field)
    (String.ofList name, String.ofList (value.getD []))

/-- A field whose parts show where they end. -/
structure PlainField (f : String × String) : Prop where
  name : '=' ∉ f.1.toList
  nameEnds : ∀ c ∈ f.1.toList, c ≠ ';' ∧ isSpace c = false
  valueEnds : ∀ c ∈ f.2.toList, c ≠ ';' ∧ isSpace c = false

/-- A digit neither ends a field nor is stripped from it. -/
theorem digit_ends {c : Char} (digit : c.isDigit = true) : c ≠ ';' ∧ isSpace c = false := by
  obtain ⟨low, high⟩ : 48 ≤ c.toNat ∧ c.toNat ≤ 57 := Char.isDigit_iff_toNat.1 digit
  refine ⟨by rintro rfl; exact absurd digit (by decide), ?_⟩
  simp only [isSpace, Bool.or_eq_false_iff, Bool.and_eq_false_iff, decide_eq_false_iff_not, beq_eq_false_iff_ne]
  omega

theorem natText_ends {n : ℕ} : ∀ c ∈ (toString n).toList, c ≠ ';' ∧ isSpace c = false := by
  intro c mem
  have digits : (toString n).toList = Nat.toDigits 10 n := Nat.toList_repr
  exact digit_ends (toDigits_isDigit c (digits ▸ mem))

theorem intText_ends {z : ℤ} : ∀ c ∈ (toString z).toList, c ≠ ';' ∧ isSpace c = false := by
  cases z with
  | ofNat n => exact @natText_ends n
  | negSucc n =>
    have digits : (toString (Int.negSucc n)).toList = '-' :: Nat.toDigits 10 (n + 1) :=
      String.toList_append.trans (congrArg (['-'] ++ ·) Nat.toList_repr)
    intro c mem
    rcases List.mem_cons.1 (digits ▸ mem) with rfl | mem
    · exact ⟨by decide, by decide +kernel⟩
    · exact digit_ends (toDigits_isDigit c mem)

/-- One field, as it is written. -/
def fieldText (f : String × String) : List Char := f.1.toList ++ '=' :: f.2.toList

theorem PlainField.ends {f : String × String} (plain : PlainField f) :
    ∀ c ∈ fieldText f, c ≠ ';' ∧ isSpace c = false := by
  intro c mem
  rcases List.mem_append.1 mem with mem | mem
  · exact plain.nameEnds c mem
  · rcases List.mem_cons.1 mem with rfl | mem
    · exact ⟨by decide, by decide +kernel⟩
    · exact plain.valueEnds c mem

theorem fieldText_ne {f : String × String} : fieldText f ≠ [] := by simp [fieldText]

theorem PlainField.strip_eq {f : String × String} (plain : PlainField f) :
    strip isSpace (fieldText f) = fieldText f := by
  refine strip_of_ends fieldText_ne ?_ ?_
  · rw [(plain.ends _ (List.head_mem _)).2]
    decide
  · rw [(plain.ends _ (List.getLast_mem _)).2]
    decide

/-- The space after a semicolon is stripped. -/
theorem PlainField.strip_space {f : String × String} (plain : PlainField f) :
    strip isSpace (' ' :: fieldText f) = fieldText f := by
  have dropped : lstrip isSpace (' ' :: fieldText f) = lstrip isSpace (fieldText f) :=
    List.dropWhile_cons_of_pos (by decide +kernel)
  rw [strip, dropped]
  exact plain.strip_eq

/-- The space of each separator goes to the text that follows it. -/
theorem intercalate_space {part : List Char} {parts : List (List Char)} :
    [';', ' '].intercalate (part :: parts) = [';'].intercalate (part :: parts.map (' ' :: ·)) := by
  induction parts generalizing part with
  | nil => rfl
  | cons next parts ih =>
    rw [List.intercalate_cons_of_ne_nil (by simp), ih, List.map_cons,
      List.intercalate_cons_of_ne_nil (List.cons_ne_nil _ _)]
    by_cases last : parts = []
    · simp [last]
    · rw [List.intercalate_cons_of_ne_nil (by simpa using last),
        List.intercalate_cons_of_ne_nil (by simpa using last)]
      simp

theorem writeFields_toList {fields : List (String × String)} :
    (writeFields fields).toList = [';', ' '].intercalate (fields.map fieldText) := by
  have field : String.toList ∘ (fun f : String × String => f.1 ++ "=" ++ f.2) = fieldText := by
    funext f
    simp [fieldText]
  rw [writeFields, String.toList_intercalate, List.map_map, field]
  rfl

theorem PlainField.cut {f : String × String} (plain : PlainField f) :
    cutFirst '=' (fieldText f) = (f.1.toList, some f.2.toList) :=
  cutFirst_append plain.name

/-- **Round trip** of the fields. -/
theorem readFields_writeFields {fields : List (String × String)} (ne : fields ≠ [])
    (plain : ∀ f ∈ fields, PlainField f) : readFields (writeFields fields) = fields := by
  obtain ⟨first, rest, rfl⟩ := List.exists_cons_of_ne_nil ne
  have parts : (writeFields (first :: rest)).toList.splitOn ';' =
      fieldText first :: (rest.map fieldText).map (' ' :: ·) := by
    rw [writeFields_toList, List.map_cons, intercalate_space]
    refine List.splitOn_intercalate ';' (fun part mem => ?_) (List.cons_ne_nil _ _)
    rcases List.mem_cons.1 mem with rfl | mem
    · exact fun semicolon => ((plain first (by simp)).ends _ semicolon).1 rfl
    · simp only [List.mem_map, exists_exists_and_eq_and] at mem
      obtain ⟨f, there, rfl⟩ := mem
      intro semicolon
      rcases List.mem_cons.1 semicolon with bad | semicolon
      · exact absurd bad (by decide)
      · exact ((plain f (by simp [there])).ends _ semicolon).1 rfl
  rw [readFields, parts, List.map_cons, (plain first (by simp)).strip_eq, (plain first (by simp)).cut]
  simp only [Option.getD_some, String.ofList_toList, List.map_map]
  congr 1
  have each : ∀ f ∈ rest, ((fun field : List Char =>
      (String.ofList (cutFirst '=' (strip isSpace field)).1,
        String.ofList ((cutFirst '=' (strip isSpace field)).2.getD []))) ∘ (' ' :: ·) ∘ fieldText) f = id f := by
    intro f there
    have plain := plain f (by simp [there])
    simp only [Function.comp_apply, plain.strip_space, plain.cut, Option.getD_some, String.ofList_toList,
      id_eq]
  exact (List.map_congr_left each).trans (List.map_id rest)

end Arena.Lib
