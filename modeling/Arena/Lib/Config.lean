import Arena.Lib.Text

/-!
# Configuration files of sections and settings

The line-oriented format of WireGuard's configuration files: `#` begins a comment, a line in
brackets begins a section, and every other line that is not blank is a setting `key = value` of
the section it is in. A line that is none of these makes the file invalid.

Readers differ in what ends a line, the line feed alone or also a carriage return and others, and
in what counts as white space. Both are parameters.
-/

namespace Arena.Lib

/-- The printable characters of ASCII but the space. -/
def isGraphic (c : Char) : Bool := 33 ≤ c.toNat && c.toNat ≤ 126

/-- What a reader of such files takes for the end of a line and for white space. -/
structure ConfigReader where
  isBreak : Char → Bool
  isBlank : Char → Bool
  newline : isBreak '\n' = true
  space : isBreak ' ' = false ∧ isBlank ' ' = true
  graphic : ∀ c, isGraphic c = true → isBreak c = false ∧ isBlank c = false

/-- The white space of the C locale. -/
def isCSpace (c : Char) : Bool := c = ' ' || (9 ≤ c.toNat && c.toNat ≤ 13)

theorem isCSpace_graphic {c : Char} (h : isGraphic c = true) : isCSpace c = false := by
  simp only [isGraphic, Bool.and_eq_true, decide_eq_true_eq] at h
  simp only [isCSpace, Bool.or_eq_false_iff, decide_eq_false_iff_not, Bool.and_eq_false_iff]
  refine ⟨?_, by omega⟩
  rintro rfl
  exact absurd h.1 (by decide)

/-- A reader whose lines end with a line feed. -/
def lineFeeds : ConfigReader where
  isBreak c := c = '\n'
  isBlank := isCSpace
  newline := rfl
  space := ⟨rfl, rfl⟩
  graphic c h := by
    refine ⟨decide_eq_false ?_, isCSpace_graphic h⟩
    rintro rfl
    exact absurd h (by decide)

/-- A reader whose lines end with a line feed, a carriage return, or both; between the two of a
pair it sees an empty line. -/
def universalNewlines : ConfigReader where
  isBreak c := c = '\n' || c = '\r'
  isBlank := isCSpace
  newline := rfl
  space := ⟨rfl, rfl⟩
  graphic c h := by
    refine ⟨?_, isCSpace_graphic h⟩
    rw [Bool.or_eq_false_iff, decide_eq_false_iff_not, decide_eq_false_iff_not]
    constructor <;> rintro rfl <;> exact absurd h (by decide)

inductive ConfigLine where
  | blank
  | header (name : List Char)
  | setting (key value : List Char)
  | malformed
  deriving DecidableEq

variable {r : ConfigReader}

abbrev Setting := List Char × List Char

abbrev ConfigSection := List Char × List Setting

/-- A line without its comment and the white space around it. -/
def lineContent (r : ConfigReader) (line : List Char) : List Char :=
  strip r.isBlank (line.takeWhile (· ≠ '#'))

def parseLine (r : ConfigReader) (line : List Char) : ConfigLine :=
  let text := lineContent r line
  if text = [] then .blank
  else if text.head? = some '[' ∧ text.getLast? = some ']' then .header text.tail.dropLast
  else
    match text.dropWhile (· ≠ '=') with
    | [] => .malformed
    | _ :: value =>
      .setting (strip r.isBlank (text.takeWhile (· ≠ '='))) (strip r.isBlank value)

/-- The settings before the first section, and the sections. -/
def parseLines : List ConfigLine → Option (List Setting × List ConfigSection)
  | [] => some ([], [])
  | .blank :: lines => parseLines lines
  | .header name :: lines => (parseLines lines).map fun (own, sections) => ([], (name, own) :: sections)
  | .setting key value :: lines =>
    (parseLines lines).map fun (own, sections) => ((key, value) :: own, sections)
  | .malformed :: _ => none

/-- The sections of a file; a setting outside of any makes it invalid. -/
def parseConfig (r : ConfigReader) (text : List Char) : Option (List ConfigSection) :=
  match parseLines ((text.splitOnP r.isBreak).map (parseLine r)) with
  | some ([], sections) => some sections
  | _ => none

/-! ## Values -/

/-- A text that a setting can have as its value. -/
def IsPlain (r : ConfigReader) (value : List Char) : Prop :=
  (∀ c ∈ value, r.isBreak c = false) ∧ '#' ∉ value ∧ strip r.isBlank value = value

instance (value : List Char) : Decidable (IsPlain r value) :=
  decidable_of_iff ((value.all fun c => !r.isBreak c) = true ∧ '#' ∉ value ∧ strip r.isBlank value = value)
    (by simp [IsPlain])

/-- The value of a setting that was read is plain. -/
theorem parseLine_plain {line key value : List Char} (whole : ∀ c ∈ line, r.isBreak c = false)
    (read : parseLine r line = .setting key value) : IsPlain r value := by
  simp only [parseLine] at read
  split at read
  · cases read
  split at read
  · cases read
  split at read
  · cases read
  rename_i value' cut
  cases read
  -- the value is a part of the line before its comment
  have part : ∀ c ∈ strip r.isBlank value', c ∈ line.takeWhile (· ≠ '#') := by
    intro c mem
    have inside : c ∈ (lineContent r line).dropWhile (· ≠ '=') := by
      rw [cut]
      exact List.mem_cons_of_mem _ (mem_of_mem_strip mem)
    exact mem_of_mem_strip ((List.dropWhile_suffix _).subset inside)
  refine ⟨fun c mem => ?_, fun mem => ?_, strip_strip⟩
  · exact whole c ((List.takeWhile_prefix _).subset (part c mem))
  · simpa using List.mem_takeWhile_imp (part _ mem)

theorem parseLines_plain {lines : List (List Char)} {own : List Setting}
    {sections : List ConfigSection} (whole : ∀ line ∈ lines, ∀ c ∈ line, r.isBreak c = false)
    (read : parseLines (lines.map (parseLine r)) = some (own, sections)) :
    (∀ setting ∈ own, IsPlain r setting.2) ∧
      ∀ part ∈ sections, ∀ setting ∈ part.2, IsPlain r setting.2 := by
  induction lines generalizing own sections with
  | nil => cases read; simp
  | cons line lines ih =>
    have rest := fun l h => whole l (List.mem_cons_of_mem _ h)
    rw [List.map_cons] at read
    cases kind : parseLine r line with
    | blank =>
      rw [kind] at read
      exact ih rest read
    | header name =>
      rw [kind] at read
      obtain ⟨⟨own', sections'⟩, readRest, same⟩ := Option.map_eq_some_iff.1 read
      cases same
      obtain ⟨plain, plains⟩ := ih rest readRest
      refine ⟨by simp, fun part mem => ?_⟩
      rcases List.mem_cons.1 mem with rfl | mem
      · exact plain
      · exact plains part mem
    | setting key value =>
      rw [kind] at read
      obtain ⟨⟨own', sections'⟩, readRest, same⟩ := Option.map_eq_some_iff.1 read
      cases same
      obtain ⟨plain, plains⟩ := ih rest readRest
      refine ⟨fun setting mem => ?_, plains⟩
      rcases List.mem_cons.1 mem with rfl | mem
      · exact parseLine_plain (whole line (by simp)) kind
      · exact plain setting mem
    | malformed =>
      rw [kind] at read
      cases read

/-- **Every value that a file gives is plain.** -/
theorem parseConfig_plain {text : List Char} {sections : List ConfigSection}
    (read : parseConfig r text = some sections) :
    ∀ part ∈ sections, ∀ setting ∈ part.2, IsPlain r setting.2 := by
  unfold parseConfig at read
  split at read
  · rename_i sections' lines
    cases read
    exact (parseLines_plain (fun line => false_of_mem_splitOnP) lines).2
  · cases read

/-! ## Lines of a section -/

theorem parseLines_settings {settings : List Setting} {lines : List ConfigLine} :
    parseLines ((settings.map fun s => .setting s.1 s.2) ++ lines) =
      (parseLines lines).map fun (own, sections) => (settings ++ own, sections) := by
  induction settings with
  | nil => simp
  | cons setting settings ih =>
    rw [List.map_cons, List.cons_append, parseLines, ih, Option.map_map]
    rfl

/-- Lines that give nothing are blank. -/
theorem parseLines_eq_nil_iff {lines : List ConfigLine} :
    parseLines lines = some ([], []) ↔ ∀ line ∈ lines, line = .blank := by
  induction lines with
  | nil => simp [parseLines]
  | cons line lines ih =>
    cases line with
    | blank => simp [parseLines, ih]
    | header name => simp [parseLines]
    | setting key value => simp [parseLines]
    | malformed => simp [parseLines]

/-! ## Writing sections and settings -/

def headerLine (name : List Char) : List Char := '[' :: (name ++ [']'])

theorem headerLine_unbroken {name : List Char} (letters : name.all isGraphic) :
    ∀ c ∈ headerLine name, r.isBreak c = false := by
  intro c mem
  simp only [headerLine, List.mem_cons, List.mem_append, List.not_mem_nil, or_false] at mem
  rcases mem with rfl | mem | rfl
  · exact (r.graphic '[' (by decide)).1
  · exact (r.graphic c (List.all_eq_true.1 letters c mem)).1
  · exact (r.graphic ']' (by decide)).1

/-- A section that is begun is read back. -/
theorem parseLine_header {name : List Char} (uncommented : '#' ∉ name) :
    parseLine r (headerLine name) = .header name := by
  have clean : (headerLine name).takeWhile (· ≠ '#') = headerLine name := by
    rw [List.takeWhile_eq_self_iff]
    intro c mem
    simp only [headerLine, List.mem_cons, List.mem_append, List.not_mem_nil, or_false] at mem
    rcases mem with rfl | mem | rfl
    · decide
    · simpa using ne_of_mem_of_not_mem mem uncommented
    · decide
  have content : lineContent r (headerLine name) = headerLine name := by
    rw [lineContent, clean]
    refine strip_of_ends (by simp [headerLine]) ?_ ?_
    · simpa [headerLine] using (r.graphic '[' (by decide)).2
    · simpa [headerLine] using (r.graphic ']' (by decide)).2
  have closed : (headerLine name).getLast? = some ']' := by
    rw [headerLine, ← List.cons_append, List.getLast?_concat]
  rw [parseLine, content, if_neg (by simp [headerLine]), if_pos ⟨rfl, closed⟩]
  simp [headerLine]

/-- A name that a setting can have. -/
def isKey (key : List Char) : Bool :=
  key ≠ [] && key.all fun c => isGraphic c && c ≠ '#' && c ≠ '=' && c ≠ '['

def settingLine (key value : List Char) : List Char := key ++ ' ' :: '=' :: ' ' :: value

theorem isKey_iff {key : List Char} :
    isKey key ↔ key ≠ [] ∧ ∀ c ∈ key, isGraphic c = true ∧ c ≠ '#' ∧ c ≠ '=' ∧ c ≠ '[' := by
  simp [isKey, and_assoc]

/-- The line of a plain setting is one line. -/
theorem settingLine_unbroken {key value : List Char} (named : isKey key) (plain : IsPlain r value) :
    ∀ c ∈ settingLine key value, r.isBreak c = false := by
  intro c mem
  simp only [settingLine, List.mem_append, List.mem_cons] at mem
  rcases mem with mem | rfl | rfl | rfl | mem
  · exact (r.graphic c ((isKey_iff.1 named).2 c mem).1).1
  · exact r.space.1
  · exact (r.graphic '=' (by decide)).1
  · exact r.space.1
  · exact plain.1 c mem

/-- The content of a setting's line, where the blank before an empty value is lost. -/
theorem lineContent_setting {key value : List Char} (named : isKey key) (plain : IsPlain r value) :
    lineContent r (settingLine key value) =
      key ++ ' ' :: '=' :: (if value = [] then [] else ' ' :: value) := by
  obtain ⟨ne, letters⟩ := isKey_iff.1 named
  obtain ⟨-, uncommented, trimmed⟩ := plain
  have clean : (settingLine key value).takeWhile (· ≠ '#') = settingLine key value := by
    rw [List.takeWhile_eq_self_iff]
    intro c mem
    simp only [settingLine, List.mem_append, List.mem_cons] at mem
    rcases mem with mem | rfl | rfl | rfl | mem
    · simpa using (letters c mem).2.1
    · decide
    · decide
    · decide
    · simpa using ne_of_mem_of_not_mem mem uncommented
  have equals : r.isBlank '=' = false := (r.graphic '=' (by decide)).2
  have first : lstrip r.isBlank (settingLine key value) = settingLine key value := by
    refine lstrip_of_head (by simp [settingLine]) ?_
    simp only [settingLine, List.head_append_of_ne_nil ne]
    simpa using (r.graphic _ (letters _ (List.head_mem ne)).1).2
  rw [lineContent, clean, strip, first]
  split
  · rename_i empty
    subst empty
    have split : settingLine key [] = (key ++ [' ', '=']) ++ [' '] := by simp [settingLine]
    rw [split, rstrip_append_of_all (by simp [r.space.2])]
    exact rstrip_of_last (by simp) (by simp [equals])
  · rename_i some_value
    have last : ¬ r.isBlank (value.getLast some_value) :=
      List.rdropWhile_eq_self_iff.1 (rstrip_of_strip trimmed) some_value
    exact rstrip_of_last (by simp [settingLine]) (by simpa [settingLine, some_value] using last)

/-- **A setting that is written is read back.** -/
theorem parseLine_setting {key value : List Char} (named : isKey key) (plain : IsPlain r value) :
    parseLine r (settingLine key value) = .setting key value := by
  have content := lineContent_setting named plain
  obtain ⟨ne, letters⟩ := isKey_iff.1 named
  generalize written : (if value = [] then [] else ' ' :: value) = given at content
  have before : ∀ c ∈ key ++ [' '], c ≠ '=' := by
    intro c mem
    rcases List.mem_append.1 mem with mem | mem
    · exact (letters c mem).2.2.1
    · rw [List.mem_singleton.1 mem]; decide
  have split : key ++ ' ' :: '=' :: given = (key ++ [' ']) ++ '=' :: given := by simp
  have cutKey : (key ++ ' ' :: '=' :: given).takeWhile (· ≠ '=') = key ++ [' '] := by
    rw [split, List.takeWhile_append_of_pos (by simpa using before)]
    simp
  have cutValue : (key ++ ' ' :: '=' :: given).dropWhile (· ≠ '=') = '=' :: given := by
    rw [split, List.dropWhile_append_of_pos (by simpa using before)]
    simp
  have bracket : (key ++ ' ' :: '=' :: given).head? ≠ some '[' := by
    rw [List.head?_append_of_ne_nil _ ne, List.head?_eq_some_head ne]
    simpa using (letters _ (List.head_mem ne)).2.2.2
  have trimmedKey : strip r.isBlank (key ++ [' ']) = key := by
    have blank : ∀ c ∈ key, ¬ r.isBlank c :=
      fun c mem => by simpa using (r.graphic c (letters c mem).1).2
    rw [strip, lstrip_of_head (by simp) (by
      rw [List.head_append_of_ne_nil ne]; exact blank _ (List.head_mem ne)),
      rstrip_append_of_all (by simp [r.space.2])]
    exact rstrip_of_last ne (blank _ (List.getLast_mem ne))
  have trimmedValue : strip r.isBlank given = value := by
    rw [← written]
    split
    · rename_i empty
      rw [empty]; rfl
    · have dropped : lstrip r.isBlank (' ' :: value) = lstrip r.isBlank value :=
        List.dropWhile_cons_of_pos r.space.2
      rw [strip, dropped, ← strip, plain.2.2]
  simp only [parseLine, content, cutKey, cutValue, bracket, false_and, if_false, trimmedKey,
    trimmedValue, List.append_eq_nil_iff, ne]

end Arena.Lib
