import Arena.Model.Urls

/-!
# Parsing a URL that was built

`public_endpoint` builds a URL out of the parts of another one, and the URL is parsed again. The
second parse sees the host in lower case, in brackets where it has a colon. An address in brackets
stays one in lower case; a host without a colon that has a bracket of its own is no host any more.
-/

namespace Arena.Model

open Arena.Lib

/-- What a second parse takes from the Unicode tables: lower case is stable, keeps the delimiters and
treats an ASCII prefix as ASCII does; NFKC makes a delimiter of single characters only, and of none
that lower-casing makes. -/
structure CaseTables extends UnicodeTables where
  lower_lower : ∀ s, lower (lower s) = lower s
  lower_keeps : ∀ s, ∀ c ∈ ['%', ':', '[', ']', '\t', '\r'], c ∈ lower s ↔ c ∈ s
  lower_prefix : ∀ a s, (∀ c ∈ a, c.toNat < 128) →
    ∃ r, lower (a ++ s) = a.map Char.toLower ++ r ∧ (r = [] ↔ s = [])
  nfkc_ascii : ∀ c, c.toNat < 128 → nfkc [c] = [c]
  nfkc_delimiter : ∀ s, ∀ c ∈ ['/', '?', '#', '@', ':'], c ∈ nfkc s ↔ ∃ d ∈ s, c ∈ nfkc [d]
  lower_nfkc : ∀ s, ∀ d ∈ lower s, ∀ c ∈ ['/', '?', '#', '@', ':'], c ∈ nfkc [d] → d ∈ s

/-! ## Characters -/

/-- What is checked on the ASCII characters. -/
theorem forall_ascii {P : Char → Prop} (check : ∀ i : Fin 128, P (Char.ofNat i)) :
    ∀ c : Char, c.toNat < 128 → P c :=
  fun c ascii => Char.ofNat_toNat c ▸ check ⟨c.toNat, ascii⟩

theorem isHex_lt {c : Char} (hex : isHex c = true) : c.toNat < 128 := by
  have value : c.val.toNat = c.toNat := rfl
  simp only [isHex, isDigit, Bool.or_eq_true, Bool.and_eq_true, decide_eq_true_eq, Char.le_def,
    UInt32.le_iff_toNat_le] at hex
  simp only [Char.reduceVal, UInt32.reduceToNat] at hex
  omega

theorem isHex_toLower {c : Char} (hex : isHex c = true) : isHex c.toLower = true ∧ c.toLower ≠ 'v' :=
  @forall_ascii (fun c => isHex c = true → isHex c.toLower = true ∧ c.toLower ≠ 'v') (by decide +kernel) c
    (isHex_lt hex) hex

theorem toLower_digit {c : Char} (digit : isDigit c = true) : c.toLower = c :=
  @forall_ascii (fun c => isDigit c = true → c.toLower = c) (by decide +kernel) c
    (isHex_lt (by simp [isHex, digit])) digit

/-- Below the capitals nothing is changed and nothing is made. -/
theorem toLower_eq_iff {c d : Char} (small : d.toNat < 65) : c.toLower = d ↔ c = d := by
  constructor
  · exact fun lowered => eq_of_toLower lowered (by omega)
  · rintro rfl
    exact @forall_ascii (fun c => c.toNat < 65 → c.toLower = c) (by decide +kernel) c (by omega) small

theorem toLower_toLower (c : Char) : c.toLower.toLower = c.toLower := by
  by_cases ascii : c.toNat < 128
  · exact @forall_ascii (fun c => c.toLower.toLower = c.toLower) (by decide +kernel) c ascii
  · have kept : c.toLower = c := by
      refine dif_neg fun upper => ascii ?_
      have high : c.val.toNat ≤ 90 := UInt32.le_iff_toNat_le.1 upper.2
      have value : c.val.toNat = c.toNat := rfl
      omega
    rw [kept, kept]

/-! ## Addresses in lower case -/

variable {s part host raw : List Char} {parts : List (List Char)}

theorem isIpv6Hextet_lower (hextet : isIpv6Hextet part = true) :
    isIpv6Hextet (part.map Char.toLower) = true := by
  have hex := isIpv6Hextet_chars hextet
  simp only [isIpv6Hextet, Bool.and_eq_true, decide_eq_true_eq, List.all_eq_true] at hextet ⊢
  refine ⟨⟨by simpa using hextet.1.1, fun c mem => ?_⟩, by simpa using hextet.2⟩
  obtain ⟨d, there, rfl⟩ := List.mem_map.1 mem
  exact (isHex_toLower (hex d there)).1

theorem map_eq_nils {f : Char → Char} {l : List (List Char)} : l.map (List.map f) = [[]] ↔ l = [[]] := by
  rw [List.map_eq_singleton_iff]
  constructor
  · rintro ⟨part, rfl, empty⟩
    rw [List.map_eq_nil_iff.1 empty]
  · rintro rfl
    exact ⟨[], rfl, rfl⟩

/-- The empty parts stay where they are, and the others stay hextets. -/
theorem isIpv6Parts_lower (number : isIpv6Parts parts = true) :
    isIpv6Parts (parts.map (List.map Char.toLower)) = true := by
  have empty (i : ℕ) : (parts.map (List.map Char.toLower))[i]? = some [] ↔ parts[i]? = some [] := by
    rw [List.getElem?_map, Option.map_eq_some_iff]
    constructor
    · rintro ⟨part, there, none⟩
      rw [there, List.map_eq_nil_iff.1 none]
    · intro there
      exact ⟨[], there, rfl⟩
  have all {l : List (List Char)} (hextets : l.all isIpv6Hextet = true) :
      (l.map (List.map Char.toLower)).all isIpv6Hextet = true := by
    simp only [List.all_map, List.all_eq_true] at hextets ⊢
    exact fun part mem => isIpv6Hextet_lower (hextets part mem)
  simp only [isIpv6Parts, List.length_map, empty, Bool.and_eq_true] at number ⊢
  refine ⟨number.1, ?_⟩
  replace number := number.2
  split at number
  · simp only [Bool.and_eq_true] at number ⊢
    exact ⟨number.1, all number.2⟩
  · rename_i skip inner
    simp only [Bool.and_eq_true, ← List.map_take, ← List.map_drop, map_eq_nils] at number ⊢
    have moved {l : List (List Char)} : (if l = [[]] then [] else l.map (List.map Char.toLower)) =
        (if l = [[]] then [] else l).map (List.map Char.toLower) := by
      split <;> rfl
    rw [moved, moved, ← List.map_append, List.length_map]
    exact ⟨number.1, all number.2⟩
  · cases number

theorem isIPv4_lower (dotted : isIPv4 s = true) : s.map Char.toLower = s := by
  refine (List.map_congr_left fun c mem => ?_).trans (List.map_id s)
  rcases isIPv4_chars dotted c mem with digit | rfl
  · exact toLower_digit digit
  · decide

/-- **An IPv6 address in lower case** is one. -/
theorem isIpv6Number_lower (number : isIpv6Number s = true) :
    isIpv6Number (s.map Char.toLower) = true := by
  have cut := splitOn_map (fun c => @toLower_eq_iff c ':' (by decide)) s
  have ne := List.splitOn_ne_nil ':' s
  obtain ⟨front, last, parts⟩ : ∃ front last, s.splitOn ':' = front ++ [last] :=
    ⟨_, _, (List.dropLast_append_getLast ne).symm⟩
  have dot : '.' ∈ last.map Char.toLower ↔ '.' ∈ last := by
    simp only [List.mem_map, toLower_eq_iff (show ('.' : Char).toNat < 65 by decide), exists_eq_right]
  rw [parts, List.map_append] at cut
  simp only [isIpv6Number, parts, cut, List.map_cons, List.map_nil, List.getLast?_append, List.getLast?_singleton,
    Option.some_or, Option.getD_some, List.dropLast_concat, dot, Bool.and_eq_true, List.length_append,
    List.length_map] at number ⊢
  refine ⟨number.1, ?_⟩
  replace number := number.2
  split at number
  · rename_i dotted
    simp only [Bool.and_eq_true] at number
    have lowered := isIpv6Parts_lower number.2
    rw [List.map_append] at lowered
    simp only [dotted, if_true, isIPv4_lower number.1, Bool.and_eq_true]
    exact ⟨number.1, lowered⟩
  · rename_i plain
    have lowered := isIpv6Parts_lower number
    rw [List.map_append] at lowered
    simp only [plain, if_false]
    exact lowered

/-! ## The host in lower case -/

/-- The property `hostname` as a function of the host: the zone of an address is left. -/
def loweredHost (tables : UnicodeTables) (raw : List Char) : List Char :=
  tables.lower (cutFirst '%' raw).1 ++ (cutFirst '%' raw).2.elim [] ('%' :: ·)

theorem hostName_eq {tables : UnicodeTables} {netloc : List Char} : hostName tables netloc =
    if (hostInfo netloc).1 = [] then none
    else some (String.ofList (loweredHost tables (hostInfo netloc).1)) := by
  unfold hostName loweredHost
  dsimp only
  cases cut : cutFirst '%' (hostInfo netloc).1 with
  | mk address zone => cases zone <;> simp

section Lowered

variable {tables : CaseTables}

/-- The delimiters are where they were. -/
theorem mem_loweredHost {c : Char} (delimiter : c ∈ ['%', ':', '[', ']', '\t', '\r']) :
    c ∈ loweredHost tables.toUnicodeTables raw ↔ c ∈ raw := by
  obtain ⟨-, whole⟩ := cutFirst_spec (Prod.mk.eta (p := cutFirst '%' raw)).symm
  conv_rhs => rw [whole]
  rw [loweredHost, List.mem_append, List.mem_append, tables.lower_keeps _ c delimiter]

theorem isIpvFuture_iff : isIpvFuture raw = true ↔ ∃ hex rest, raw = 'v' :: (hex ++ '.' :: rest) ∧
    (∀ c ∈ hex, isHex c = true) ∧ hex ≠ [] ∧ rest ≠ [] := by
  constructor
  · intro future
    unfold isIpvFuture at future
    split at future
    · rename_i tail
      simp only [Bool.and_eq_true, decide_eq_true_eq] at future
      obtain ⟨filled, future⟩ := future
      split at future
      · rename_i c rest after
        refine ⟨tail.takeWhile isHex, c :: rest, ?_, fun c mem => List.mem_takeWhile_imp mem, filled, by simp⟩
        rw [← after, List.takeWhile_append_dropWhile]
      · cases future
    · cases future
  · rintro ⟨hex, rest, rfl, all, filled, more⟩
    obtain ⟨c, rest, rfl⟩ := List.exists_cons_of_ne_nil more
    have dot : isHex '.' = false := by decide
    simp [isIpvFuture, List.takeWhile_append_of_pos all, List.dropWhile_append_of_pos all, dot, filled]

/-- A literal of a future version stays one in lower case: its version is ASCII. -/
theorem isIpvFuture_lowered (future : isIpvFuture raw = true) :
    isIpvFuture (loweredHost tables.toUnicodeTables raw) = true := by
  obtain ⟨hex, rest, rfl, all, filled, more⟩ := isIpvFuture_iff.1 future
  have shape : 'v' :: (hex ++ '.' :: rest) = ('v' :: hex ++ ['.']) ++ rest := by simp
  have ascii : ∀ c ∈ 'v' :: hex ++ ['.'], c.toNat < 128 := by
    intro c mem
    simp only [List.cons_append, List.mem_cons, List.mem_append, List.not_mem_nil, or_false] at mem
    rcases mem with rfl | mem | rfl
    · decide
    · exact isHex_lt (all c mem)
    · decide
  have percent : '%' ∉ 'v' :: hex ++ ['.'] := by
    simp only [List.cons_append, List.mem_cons, List.mem_append, List.not_mem_nil, or_false, not_or]
    exact ⟨by decide, fun mem => absurd (all _ mem) (by decide), by decide⟩
  obtain ⟨tail, lowered, empty⟩ := tables.lower_prefix _ (cutFirst '%' rest).1 ascii
  obtain ⟨-, whole⟩ := cutFirst_spec (Prod.mk.eta (p := cutFirst '%' rest)).symm
  rw [shape, loweredHost, cutFirst_append_left percent, lowered]
  refine isIpvFuture_iff.2 ⟨hex.map Char.toLower, tail ++ (cutFirst '%' rest).2.elim [] ('%' :: ·),
    by simp, fun c mem => ?_, by simpa using filled, fun none => ?_⟩
  · obtain ⟨d, there, rfl⟩ := List.mem_map.1 mem
    exact (isHex_toLower (all d there)).1
  · obtain ⟨front, zone⟩ := List.append_eq_nil_iff.1 none
    rw [whole, empty.1 front, zone] at more
    exact more rfl

theorem isIpv6Address_iff : isIpv6Address raw = true ↔ '/' ∉ raw ∧ isIpv6Number (cutFirst '%' raw).1 = true ∧
    ∀ scope, (cutFirst '%' raw).2 = some scope → scope ≠ [] ∧ '%' ∉ scope := by
  unfold isIpv6Address
  cases cut : cutFirst '%' raw with
  | mk address zone => cases zone <;> simp [and_assoc]

theorem cutFirst_loweredHost : cutFirst '%' (loweredHost tables.toUnicodeTables raw) =
    (tables.lower (cutFirst '%' raw).1, (cutFirst '%' raw).2) := by
  obtain ⟨clean, -⟩ := cutFirst_spec (Prod.mk.eta (p := cutFirst '%' raw)).symm
  have percent : '%' ∉ tables.lower (cutFirst '%' raw).1 :=
    fun mem => clean ((tables.lower_keeps _ '%' (by simp)).1 mem)
  unfold loweredHost
  cases (cutFirst '%' raw).2 with
  | none => rw [Option.elim_none, List.append_nil, cutFirst_of_notMem percent]
  | some zone => exact cutFirst_append percent

theorem loweredHost_loweredHost : loweredHost tables.toUnicodeTables (loweredHost tables.toUnicodeTables raw) =
    loweredHost tables.toUnicodeTables raw := by
  conv_lhs => rw [loweredHost, cutFirst_loweredHost, tables.lower_lower]
  rfl

/-- An address stays one in lower case, and its scope stays. -/
theorem isIpv6Address_lowered (address : isIpv6Address raw = true) :
    isIpv6Address (loweredHost tables.toUnicodeTables raw) = true ∧
      (loweredHost tables.toUnicodeTables raw).head? ≠ some 'v' := by
  obtain ⟨slash, number, scope⟩ := isIpv6Address_iff.1 address
  have chars := isIpv6Number_chars number
  have ascii : ∀ c ∈ (cutFirst '%' raw).1, c.toNat < 128 := by
    intro c mem
    rcases chars c mem with hex | rfl | rfl
    · exact isHex_lt hex
    · decide
    · decide
  obtain ⟨tail, lowered, empty⟩ := tables.lower_prefix _ [] ascii
  rw [List.append_nil, empty.2 rfl, List.append_nil] at lowered
  obtain ⟨-, whole⟩ := cutFirst_spec (Prod.mk.eta (p := cutFirst '%' raw)).symm
  refine ⟨isIpv6Address_iff.2 ⟨fun mem => slash ?_, ?_, ?_⟩, ?_⟩
  · rw [whole, List.mem_append]
    refine (List.mem_append.1 mem).imp_left fun front => ?_
    exact tables.lower_delimiter _ _ front (by simp)
  · rw [cutFirst_loweredHost, lowered]
    exact isIpv6Number_lower number
  · rw [cutFirst_loweredHost]
    exact scope
  · cases first : (cutFirst '%' raw).1 with
    | nil =>
      rw [first] at number
      exact absurd number (by decide)
    | cons c rest =>
      have kept : c.toLower ≠ 'v' := by
        rcases chars c (by simp [first]) with hex | rfl | rfl
        · exact (isHex_toLower hex).2
        · decide
        · decide
      rw [loweredHost, lowered, first]
      simpa using kept

/-- **A checked literal** is checked in lower case too. -/
theorem checkBracketedHost_lowered (checked : checkBracketedHost raw = true) :
    checkBracketedHost (loweredHost tables.toUnicodeTables raw) = true := by
  unfold checkBracketedHost at checked
  split at checked
  · have future := @isIpvFuture_lowered raw tables checked
    obtain ⟨hex, rest, shape, -⟩ := isIpvFuture_iff.1 future
    rw [checkBracketedHost, if_pos (by rw [shape]; rfl), future]
  · obtain ⟨address, head⟩ := @isIpv6Address_lowered raw tables checked
    rw [checkBracketedHost, if_neg head, address]

end Lowered

/-! ## The network location -/

variable {tables : UnicodeTables} {scheme authority rest : String}

theorem splitScheme_written (known : scheme = "http" ∨ scheme = "https") (rest : List Char) :
    splitScheme (scheme.toList ++ ':' :: rest) = (scheme.toList, rest) := by
  have colon : ':' ∉ scheme.toList := by rcases known with rfl | rfl <;> decide
  rw [splitScheme, cutFirst_append colon]
  rcases known with rfl | rfl <;> rfl

theorem cleanedUrl_written (known : scheme = "http" ∨ scheme = "https") (inside : Inside authority.toList) :
    cleanedUrl (scheme ++ "://" ++ authority ++ rest) =
      scheme.toList ++ ':' :: '/' :: '/' :: (authority.toList ++ rest.toList.filter fun c => c ∉ ['\t', '\r', '\n']) := by
  have kept : authority.toList.filter (fun c => c ∉ ['\t', '\r', '\n']) = authority.toList := by
    exact List.filter_eq_self.2 fun c mem => decide_eq_true (inside c mem).2
  have whole : (scheme ++ "://" ++ authority ++ rest).toList =
      scheme.toList ++ ':' :: '/' :: '/' :: (authority.toList ++ rest.toList) := by
    simp
  have front : lstrip isC0OrSpace (scheme.toList ++ ':' :: '/' :: '/' :: (authority.toList ++ rest.toList)) =
      scheme.toList ++ ':' :: '/' :: '/' :: (authority.toList ++ rest.toList) := by
    rcases known with rfl | rfl <;> rfl
  have letters : scheme.toList.filter (fun c => c ∉ ['\t', '\r', '\n']) = scheme.toList := by
    rcases known with rfl | rfl <;> rfl
  rw [cleanedUrl, whole, front, List.filter_append, letters, List.filter_cons_of_pos (by decide),
    List.filter_cons_of_pos (by decide), List.filter_cons_of_pos (by decide), List.filter_append, kept]

/-- The authority of a URL that was built is its network location, whatever path follows. -/
theorem splitNetloc_written {rest : List Char} (inside : Inside authority.toList)
    (path : rest = [] ∨ rest.head? = some '/') :
    (splitNetloc (authority.toList ++ rest)).1 = authority.toList := by
  have all : ∀ c ∈ authority.toList, (!endsAuthority c) = true := by
    intro c mem
    rw [(inside c mem).1]
    rfl
  rw [splitNetloc, List.takeWhile_append_of_pos all]
  rcases path with rfl | path
  · simp
  · cases rest with
    | nil => cases path
    | cons c rest =>
      obtain rfl : c = '/' := Option.some.inj path
      simp [endsAuthority]

section Written

variable (known : scheme = "http" ∨ scheme = "https") (inside : Inside authority.toList)
  (path : rest = "" ∨ rest.toList.head? = some '/')
include known inside path

theorem split_written : ∃ tail, splitScheme (cleanedUrl (scheme ++ "://" ++ authority ++ rest)) =
      (scheme.toList, '/' :: '/' :: tail) ∧ (splitNetloc tail).1 = authority.toList := by
  refine ⟨_, by rw [cleanedUrl_written known inside, splitScheme_written known], splitNetloc_written inside ?_⟩
  rcases path with rfl | path
  · exact .inl rfl
  · cases text : rest.toList with
    | nil => exact .inl rfl
    | cons c tail =>
      rw [text] at path
      obtain rfl : c = '/' := Option.some.inj path
      exact .inr rfl

/-- **A URL that was built is split** into what it was built of. -/
theorem urlsplit_written (located : Located tables authority.toList) :
    urlsplit tables (scheme ++ "://" ++ authority ++ rest) =
      .ok ⟨scheme, hostName tables authority.toList, portNumber authority.toList⟩ := by
  obtain ⟨tail, cut, netloc⟩ := split_written known inside path
  have balanced : ¬ (('[' ∈ authority.toList ∧ ']' ∉ authority.toList) ∨
      (']' ∈ authority.toList ∧ '[' ∉ authority.toList)) := by
    have := located.balanced
    tauto
  have checked : ¬ ('[' ∈ authority.toList ∧ checkBracketedNetloc authority.toList = false) := by
    rintro ⟨opening, refused⟩
    cases refused.symm.trans (located.bracketed opening)
  unfold urlsplit
  dsimp only
  rw [show splitScheme (List.filter _ (lstrip isC0OrSpace _)) = _ from cut]
  simp only [netloc]
  rw [if_neg balanced, if_neg checked, if_neg (by simp [located.normal]), String.ofList_toList]

/-- A bracket without its other half is refused. -/
theorem urlsplit_unbalanced (odd : ¬ ('[' ∈ authority.toList ↔ ']' ∈ authority.toList)) :
    urlsplit tables (scheme ++ "://" ++ authority ++ rest) = .error internalError := by
  obtain ⟨tail, cut, netloc⟩ := split_written known inside path
  unfold urlsplit
  dsimp only
  rw [show splitScheme (List.filter _ (lstrip isC0OrSpace _)) = _ from cut]
  simp only [netloc]
  rw [if_pos (by tauto)]

end Written

end Arena.Model
