import Mathlib.Algebra.Order.Field.Rat
import Arena.Lib.Decoding
import Arena.Lib.Uri
import Arena.Model.Profiles

/-!
# The information line

The first line of a subscription is a profile that connects nowhere; its label shows the used
bytes, the quota and the days that remain. `human_bytes` writes both byte counts, and for it 0
means no limit: that is what 0 means for a quota, and not for a count.
-/

namespace Arena.InfoLine

open Arena.Lib Arena.Model

variable {now : Instant} {user : User}

/-- The label of a profile: what follows the `#`, decoded. -/
def profileLabel (uri : String) : Option String :=
  (readUri uri.toList).bind fun uri => unquote uri.fragment

/-- The parts that a label shows. -/
structure Shown where
  used : List Char
  total : List Char
  days : List Char

/-- `ARENA | used/total | days`. -/
def readLabel (label : String) : Option Shown :=
  match label.toList.splitOn '|' with
  | [_, volume, days] =>
    match volume.splitOn '/' with
    | [used, total] => some ⟨strip isSpace used, strip isSpace total, strip isSpace days⟩
    | _ => none
  | _ => none

/-- A decimal number, with a fraction after a point or without one. -/
def readNumber (s : List Char) : Option ℚ :=
  match cutFirst '.' s with
  | (whole, none) => (readDecimal whole).map fun n : ℕ => (n : ℚ)
  | (whole, some fraction) => (readDecimal whole).bind fun n : ℕ =>
    (readDecimal fraction).map fun f : ℕ => (n : ℚ) + f / 10 ^ fraction.length

/-- A number of GB. -/
def readGb (s : List Char) : Option ℚ :=
  match cutLast ' ' s with
  | some (number, ['G', 'B']) => readNumber number
  | _ => none

def unlimited : List Char := "unlimited".toList

/-- The text is a number of GB within 0.05 GB of a number of bytes. -/
def Near (s : List Char) (bytes : ℕ) : Prop :=
  ∃ gb, readGb s = some gb ∧ |gb - bytes / 1024 ^ 3| ≤ 1 / 20

/-- The label of the profile says what the user's row says. -/
structure TellsTruth (now : Instant) (user : User) (shown : Shown) : Prop where
  used : Near shown.used user.usedBytes
  used_limited : shown.used ≠ unlimited
  total_unlimited : shown.total = unlimited ↔ user.quotaBytes = 0
  total : user.quotaBytes ≠ 0 → Near shown.total user.quotaBytes
  days : shown.days = unlimited ↔
    userExpiry user = none ∧ ¬ (user.startsAt = none ∧ user.validityDays ≠ 0)

/-! ## Tenths -/

/-- The tenths are the nearest. -/
theorem tenthsOfGb_near (bytes : ℕ) :
    2 * (tenthsOfGb bytes * 2 ^ 30) ≤ 2 * (bytes * 10) + 2 ^ 30 ∧
      2 * (bytes * 10) ≤ 2 * (tenthsOfGb bytes * 2 ^ 30) + 2 ^ 30 := by
  have whole := Nat.div_add_mod (bytes * 10) (2 ^ 30)
  have rest := Nat.mod_lt (bytes * 10) (by decide : 0 < 2 ^ 30)
  unfold tenthsOfGb
  dsimp only
  split <;> omega

theorem tenths_within (bytes : ℕ) : |(tenthsOfGb bytes : ℚ) / 10 - bytes / 1024 ^ 3| ≤ 1 / 20 := by
  obtain ⟨above, below⟩ := tenthsOfGb_near bytes
  have above : (2 * (tenthsOfGb bytes * 2 ^ 30) : ℚ) ≤ 2 * (bytes * 10) + 2 ^ 30 := by
    exact_mod_cast above
  have below : (2 * (bytes * 10) : ℚ) ≤ 2 * (tenthsOfGb bytes * 2 ^ 30) + 2 ^ 30 := by
    exact_mod_cast below
  rw [abs_le]
  constructor <;> linarith

/-- A number of tenths without a trailing zero. -/
def tenthsText (tenths : ℕ) : List Char :=
  Nat.toDigits 10 (tenths / 10) ++
    if tenths % 10 = 0 then [] else '.' :: Nat.toDigits 10 (tenths % 10)

theorem digit_ne {n : ℕ} {c d : Char} (mem : c ∈ Nat.toDigits 10 n) (other : d.isDigit = false) : c ≠ d := by
  rintro rfl
  exact absurd ((toDigits_isDigit c mem).symm.trans other) (by decide)

theorem toDigits_digit {n : ℕ} (small : n < 10) (ne : n ≠ 0) :
    ∃ c, Nat.toDigits 10 n = [c] ∧ c ≠ '0' ∧ c ≠ '.' := by
  interval_cases n <;> first | exact absurd rfl ne | exact ⟨_, rfl, by decide, by decide⟩

/-- What `rstrip("0").rstrip(".")` leaves of one place after the point. -/
theorem rstrip_tenths (tenths : ℕ) : rstrip (· == '.') (rstrip (· == '0')
    (Nat.toDigits 10 (tenths / 10) ++ '.' :: Nat.toDigits 10 (tenths % 10))) = tenthsText tenths := by
  have wholeEnd : rstrip (· == '.') (Nat.toDigits 10 (tenths / 10)) = Nat.toDigits 10 (tenths / 10) :=
    rstrip_of_last Nat.toDigits_ne_nil (by simpa using digit_ne (List.getLast_mem _) (by decide))
  unfold tenthsText
  split
  · rename_i zero
    have digit : Nat.toDigits 10 (tenths % 10) = ['0'] := by rw [zero]; rfl
    have split : Nat.toDigits 10 (tenths / 10) ++ '.' :: ['0'] =
        (Nat.toDigits 10 (tenths / 10) ++ ['.']) ++ ['0'] := by simp
    rw [digit, split, rstrip_append_of_all (by simp),
      rstrip_of_last (s := Nat.toDigits 10 (tenths / 10) ++ ['.']) (by simp) (by simp),
      rstrip_append_of_all (by simp), wholeEnd, List.append_nil]
  · rename_i tenth
    obtain ⟨c, digit, zero, point⟩ := toDigits_digit (Nat.mod_lt tenths (by decide)) tenth
    rw [digit, rstrip_of_last (s := _ ++ '.' :: [c]) (by simp) (by simpa using zero),
      rstrip_of_last (s := _ ++ '.' :: [c]) (by simp) (by simpa using point)]

theorem humanBytes_toList {bytes : ℕ} (some : bytes ≠ 0) :
    (humanBytes bytes).toList = tenthsText (tenthsOfGb bytes) ++ ' ' :: ['G', 'B'] := by
  have written : (toString (tenthsOfGb bytes / 10) ++ "." ++ toString (tenthsOfGb bytes % 10)).toList =
      Nat.toDigits 10 (tenthsOfGb bytes / 10) ++ '.' :: Nat.toDigits 10 (tenthsOfGb bytes % 10) := by
    rw [String.toList_append, String.toList_append]
    show (Nat.repr _).toList ++ ['.'] ++ (Nat.repr _).toList = _
    rw [Nat.toList_repr, Nat.toList_repr, List.append_assoc]
    rfl
  rw [humanBytes, if_neg some]
  dsimp only
  rw [String.toList_append, String.toList_ofList, written, rstrip_tenths]
  rfl

theorem readNumber_tenthsText (tenths : ℕ) : readNumber (tenthsText tenths) = some ((tenths : ℚ) / 10) := by
  have noPoint : '.' ∉ Nat.toDigits 10 (tenths / 10) := fun mem => digit_ne mem (by decide) rfl
  have value : (tenths : ℚ) = 10 * (tenths / 10 : ℕ) + (tenths % 10 : ℕ) := by
    exact_mod_cast (Nat.div_add_mod tenths 10).symm
  rw [readNumber, tenthsText]
  by_cases zero : tenths % 10 = 0
  · rw [if_pos zero, List.append_nil, cutFirst_of_notMem noPoint]
    simp only [readDecimal_toDigits, Option.map_some, Option.some.injEq]
    rw [value, zero]
    simp
  · obtain ⟨c, digit, -, -⟩ := toDigits_digit (Nat.mod_lt tenths (by decide)) zero
    rw [if_neg zero, cutFirst_append noPoint]
    simp only [readDecimal_toDigits, Option.map_some, Option.bind_some, Option.some.injEq]
    rw [value, digit]
    simp only [List.length_singleton, pow_one]
    ring

/-- **A byte count that is not 0** is shown as a number of GB near it. -/
theorem humanBytes_near {bytes : ℕ} (some : bytes ≠ 0) : Near (humanBytes bytes).toList bytes := by
  refine ⟨tenthsOfGb bytes / 10, ?_, tenths_within bytes⟩
  have cut : cutLast ' ' (tenthsText (tenthsOfGb bytes) ++ ' ' :: ['G', 'B']) =
      Option.some (tenthsText (tenthsOfGb bytes), ['G', 'B']) :=
    cutLast_eq_some_iff.2 ⟨rfl, by decide⟩
  rw [humanBytes_toList some, readGb, cut]
  exact readNumber_tenthsText _

theorem humanBytes_zero : (humanBytes 0).toList = unlimited := rfl

theorem unlimited_not_near {bytes : ℕ} : ¬ Near unlimited bytes := by
  rintro ⟨gb, read, -⟩
  have nothing : readGb unlimited = none := by decide +kernel
  exact absurd (nothing.symm.trans read) (by simp)

/-- The word `unlimited` is what `human_bytes` writes for 0. -/
theorem humanBytes_unlimited {bytes : ℕ} : (humanBytes bytes).toList = unlimited ↔ bytes = 0 := by
  constructor
  · intro word
    by_contra some
    exact unlimited_not_near (word ▸ humanBytes_near some)
  · rintro rfl
    rfl

/-! ## The label -/

/-- A text that is read back from between the separators of a label. -/
structure PartText (s : List Char) : Prop where
  ne : s ≠ []
  bare : strip isSpace s = s
  clean : ∀ c ∈ s, c ≠ '|' ∧ c ≠ '/'

/-- What `info_profile` writes for the days that remain. -/
def daysText (now : Instant) (user : User) : String :=
  match daysRemaining user now with
  | none => "unlimited"
  | some days => toString days ++ " days"

/-- The label before it is quoted. -/
def infoLabel (now : Instant) (user : User) : String :=
  "ARENA | " ++ humanBytes user.usedBytes ++ "/" ++ humanBytes user.quotaBytes ++ " | " ++
    daysText now user

theorem partText_unlimited : PartText unlimited :=
  ⟨by decide +kernel, by decide +kernel, forall_mem_of_check (by decide +kernel)⟩

theorem isSpace_of_isDigit {c : Char} (digit : c.isDigit) : isSpace c = false := by
  obtain ⟨low, high⟩ : 48 ≤ c.toNat ∧ c.toNat ≤ 57 := Char.isDigit_iff_toNat.1 digit
  simp [isSpace]
  omega

/-- A numeral and a unit. -/
theorem partText_append {c : Char} {number suffix : List Char} (head : c.isDigit)
    (filled : suffix ≠ []) (last : ¬ isSpace (suffix.getLast filled))
    (clean : ∀ a ∈ number, a ≠ '|' ∧ a ≠ '/') (clean' : ∀ a ∈ suffix, a ≠ '|' ∧ a ≠ '/') :
    PartText (c :: number ++ suffix) where
  ne := by simp
  bare := by
    refine strip_of_ends (by simp) (by simp [isSpace_of_isDigit head]) ?_
    rwa [List.getLast_append_of_ne_nil _ filled]
  clean a mem := by
    rcases List.mem_append.1 mem with mem | mem
    · rcases List.mem_cons.1 mem with rfl | mem
      · constructor <;> rintro rfl <;> exact absurd head (by decide)
      · exact clean a mem
    · exact clean' a mem

theorem clean_of_isDigit {s : List Char} (digits : ∀ c ∈ s, c.isDigit) : ∀ c ∈ s, c ≠ '|' ∧ c ≠ '/' := by
  intro c mem
  constructor <;> rintro rfl <;> exact absurd (digits _ mem) (by decide)

theorem partText_humanBytes {bytes : ℕ} : PartText (humanBytes bytes).toList := by
  by_cases none : bytes = 0
  · rw [none]
    exact partText_unlimited
  · rw [humanBytes_toList none, tenthsText]
    obtain ⟨c, rest, digits⟩ := List.exists_cons_of_ne_nil (Nat.toDigits_ne_nil (b := 10)
      (n := tenthsOfGb bytes / 10))
    have all := toDigits_isDigit (n := tenthsOfGb bytes / 10)
    rw [digits] at all ⊢
    refine @partText_append c (rest ++ _) _ (all c (by simp)) (by simp) (by decide) ?_ (by simp)
    intro a mem
    rcases List.mem_append.1 mem with mem | mem
    · exact clean_of_isDigit all a (by simp [mem])
    · split at mem
      · cases mem
      · rcases List.mem_cons.1 mem with rfl | mem
        · decide
        · exact clean_of_isDigit toDigits_isDigit a mem

theorem daysRemaining_nonneg {days : ℤ} (h : daysRemaining user now = some days) : 0 ≤ days := by
  unfold daysRemaining at h
  split at h
  · split at h
    · obtain rfl := Option.some.inj h
      omega
    · cases h
  · obtain rfl := Option.some.inj h
    exact le_max_left _ _

theorem daysText_some {days : ℕ} (h : daysRemaining user now = some (days : ℤ)) :
    (daysText now user).toList = Nat.toDigits 10 days ++ " days".toList := by
  rw [daysText, h]
  dsimp only
  rw [String.toList_append]
  exact congrArg (· ++ _) toList_ofNat

theorem daysText_none (h : daysRemaining user now = none) : (daysText now user).toList = unlimited := by
  rw [daysText, h]
  rfl

theorem partText_daysText : PartText (daysText now user).toList := by
  cases left : daysRemaining user now with
  | none => exact daysText_none left ▸ partText_unlimited
  | some days =>
    obtain ⟨days, rfl⟩ := Int.eq_ofNat_of_zero_le (daysRemaining_nonneg left)
    obtain ⟨c, rest, digits⟩ := List.exists_cons_of_ne_nil (Nat.toDigits_ne_nil (b := 10) (n := days))
    have all := toDigits_isDigit (n := days)
    rw [daysText_some left]
    rw [digits] at all ⊢
    exact partText_append (all c (by simp)) (by decide +kernel) (by decide +kernel)
      (fun a mem => clean_of_isDigit all a (by simp [mem])) (forall_mem_of_check (by decide +kernel))

/-- The days are without a limit when there is no expiry and no validity that waits for a
first connection. -/
theorem daysText_unlimited : (daysText now user).toList = unlimited ↔
    userExpiry user = none ∧ ¬ (user.startsAt = none ∧ user.validityDays ≠ 0) := by
  have none_iff : daysRemaining user now = none ↔
      userExpiry user = none ∧ ¬ (user.startsAt = none ∧ user.validityDays ≠ 0) := by
    unfold daysRemaining
    split <;> simp_all
  rw [← none_iff]
  constructor
  · intro word
    cases left : daysRemaining user now with
    | none => rfl
    | some days =>
      obtain ⟨days, rfl⟩ := Int.eq_ofNat_of_zero_le (daysRemaining_nonneg left)
      rw [daysText_some left] at word
      have blank : ' ' ∈ Nat.toDigits 10 days ++ " days".toList := by
        rw [List.mem_append]
        exact .inr (by decide +kernel)
      rw [word] at blank
      exact absurd blank (by decide +kernel)
  · exact daysText_none

theorem strip_padded {s : List Char} (before after : List Char) (ne : s ≠ []) (bare : strip isSpace s = s)
    (pre : ∀ c ∈ before, isSpace c = true) (post : ∀ c ∈ after, isSpace c = true) :
    strip isSpace (before ++ s ++ after) = s := by
  have front := lstrip_of_strip bare
  have opened : lstrip isSpace (before ++ s ++ after) = s ++ after := by
    rw [List.append_assoc, lstrip, List.dropWhile_append_of_pos pre]
    show lstrip isSpace (s ++ after) = s ++ after
    rw [lstrip_append (front.symm ▸ ne), front]
  rw [strip, opened, rstrip_append_of_all post, rstrip_of_strip bare]

theorem readLabel_parts {first used total days : List Char} (start : '|' ∉ first) (hu : PartText used)
    (ht : PartText total) (hd : PartText days) :
    readLabel (String.ofList (first ++ '|' :: ((' ' :: used ++ '/' :: (total ++ [' '])) ++
      '|' :: ' ' :: days))) = some ⟨used, total, days⟩ := by
  have bar {s : List Char} (part : PartText s) : '|' ∉ s := fun mem => (part.clean _ mem).1 rfl
  have slash {s : List Char} (part : PartText s) : '/' ∉ s := fun mem => (part.clean _ mem).2 rfl
  have volume : '|' ∉ ' ' :: used ++ '/' :: (total ++ [' ']) := by simp [bar hu, bar ht]
  have before : '/' ∉ ' ' :: used := by simp [slash hu]
  have after : '/' ∉ total ++ [' '] := by simp [slash ht]
  have last : '|' ∉ ' ' :: days := by simp [bar hd]
  have space : ∀ c ∈ [' '], isSpace c = true := by simp [isSpace]
  rw [readLabel, String.toList_ofList, List.splitOn_append_cons_self_of_not_mem start,
    List.splitOn_append_cons_self_of_not_mem volume, List.splitOn_eq_singleton last]
  simp only [List.splitOn_append_cons_self_of_not_mem before, List.splitOn_eq_singleton after]
  have used' : strip isSpace (' ' :: used) = used := by
    simpa using strip_padded [' '] [] hu.ne hu.bare space (by simp)
  have total' : strip isSpace (total ++ [' ']) = total := by
    simpa using strip_padded [] [' '] ht.ne ht.bare (by simp) space
  have days' : strip isSpace (' ' :: days) = days := by
    simpa using strip_padded [' '] [] hd.ne hd.bare space (by simp)
  rw [used', total', days']

/-! ## The line -/

theorem profileLabel_eq {front label : String} {scheme userinfo host query : List Char} {port : ℕ}
    (hs : ':' ∉ scheme) (hu : ∀ c ∈ userinfo, endsAuthority c = false)
    (hh : ∀ c ∈ host, endsAuthority c = false ∧ c ≠ '@') (hq : '#' ∉ query) (text : HostText host host)
    (written : front.toList = scheme ++ ':' :: '/' :: '/' :: (userinfo ++ '@' ::
      (host ++ ':' :: Nat.toDigits 10 port) ++ '?' :: (query ++ ['#']))) :
    profileLabel (front ++ quote label) = some label := by
  have whole : (front ++ quote label).toList = scheme ++ ':' :: '/' :: '/' :: (userinfo ++ '@' ::
      (host ++ ':' :: Nat.toDigits 10 port) ++ '?' :: (query ++ '#' :: (quote label).toList)) := by
    rw [String.toList_append, written]
    simp
  simp only [profileLabel, whole, readUri_eq hs hu hh hq text, Option.bind_some, unquote_quote]

/-- The label is read back from the profile. -/
theorem profileLabel_infoProfile : profileLabel (infoProfile now user) = some (infoLabel now user) := by
  have host : ∀ c ∈ "127.0.0.1".toList, endsAuthority c = false ∧ c ≠ '@' :=
    forall_mem_of_check (by decide +kernel)
  have userinfo : ∀ c ∈ infoUuid.toList, endsAuthority c = false := forall_mem_of_check (by decide +kernel)
  have text : HostText "127.0.0.1".toList "127.0.0.1".toList := .bare (by decide +kernel) (by decide +kernel)
  have scheme : ':' ∉ "vless".toList := by decide +kernel
  have query : '#' ∉ "encryption=none&security=none&type=tcp".toList := by decide +kernel
  have written : ("vless://" ++ infoUuid ++
      "@127.0.0.1:1?encryption=none&security=none&type=tcp#").toList = "vless".toList ++ ':' :: '/' :: '/' ::
        (infoUuid.toList ++ '@' :: ("127.0.0.1".toList ++ ':' :: Nat.toDigits 10 1) ++
          '?' :: ("encryption=none&security=none&type=tcp".toList ++ ['#'])) := by decide +kernel
  exact profileLabel_eq scheme userinfo host query text written

/-- What a label shows. -/
theorem readLabel_infoLabel : readLabel (infoLabel now user) = some
    ⟨(humanBytes user.usedBytes).toList, (humanBytes user.quotaBytes).toList,
      (daysText now user).toList⟩ := by
  have label : infoLabel now user = String.ofList ("ARENA ".toList ++ '|' ::
      ((' ' :: (humanBytes user.usedBytes).toList ++ '/' :: ((humanBytes user.quotaBytes).toList ++ [' '])) ++
        '|' :: ' ' :: (daysText now user).toList)) := by
    rw [← String.toList_inj, String.toList_ofList, infoLabel]
    rw [String.toList_append, String.toList_append, String.toList_append, String.toList_append,
      String.toList_append]
    show 'A' :: 'R' :: 'E' :: 'N' :: 'A' :: ' ' :: '|' :: ' ' :: _ ++ ['/'] ++ _ ++ [' ', '|', ' '] ++ _ = _
    simp only [List.append_assoc, List.cons_append, List.nil_append]
    rfl
  rw [label, readLabel_parts (by decide +kernel) partText_humanBytes partText_humanBytes partText_daysText]

/-- **The information line** is read back, and what it shows is true of every user who has used
some bytes, and of no other. -/
theorem info_line_truth_iff (now : Instant) (user : User) :
    ∃ label shown, profileLabel (infoProfile now user) = some label ∧ readLabel label = some shown ∧
      (TellsTruth now user shown ↔ user.usedBytes ≠ 0) := by
  refine ⟨_, _, profileLabel_infoProfile, readLabel_infoLabel, ?_⟩
  constructor
  · intro truth nothing
    exact truth.used_limited (humanBytes_unlimited.2 nothing)
  · intro used
    exact
      { used := humanBytes_near used
        used_limited := fun word => used (humanBytes_unlimited.1 word)
        total_unlimited := humanBytes_unlimited
        total := humanBytes_near
        days := daysText_unlimited }

/-- A new user has used nothing, and the line says that without a limit. -/
theorem unused_shown_unlimited : ¬ ∀ (now : Instant) (user : User),
    ∃ label shown, profileLabel (infoProfile now user) = some label ∧ readLabel label = some shown ∧
      TellsTruth now user shown := by
  intro claim
  obtain ⟨label, shown, decoded, read, truth⟩ := claim 0 { id := "u", quotaBytes := 1 }
  obtain rfl := Option.some.inj (profileLabel_infoProfile.symm.trans decoded)
  obtain rfl := Option.some.inj (readLabel_infoLabel.symm.trans read)
  exact truth.used_limited humanBytes_zero

end Arena.InfoLine
