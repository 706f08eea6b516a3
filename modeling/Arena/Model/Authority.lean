import Arena.Model.Reparse
import Mathlib.Algebra.Ring.Nat

/-!
# The authority that `public_endpoint` builds

The host in lower case and a port that is not the default one, with brackets round a host that has a
colon. As a network location it passes the checks of `urlsplit` and gives its two parts back, unless
the host has a bracket and no colon.
-/

namespace Arena.Model

open Arena.Lib

variable {tables : CaseTables} {netloc raw : List Char} {scheme host : String} {port : ℕ}

theorem portNumber_le {n : ℕ} (given : portNumber netloc = .ok (some n)) : n ≤ 65535 := by
  unfold portNumber at given
  dsimp only at given
  split_ifs at given
  · cases given
  · split at given
    · split_ifs at given with range
      cases given
      omega
    · cases given

/-! ## The built authority -/

/-- The port as it is shown. -/
def portText (scheme : String) (port : ℕ) : List Char :=
  if port = defaultPort scheme then [] else Nat.toDigits 10 port

theorem authorityOf_toList : (authorityOf scheme host port).toList =
    (if ':' ∈ host.toList then '[' :: (host.toList ++ [']']) else host.toList) ++
      if port = defaultPort scheme then [] else ':' :: Nat.toDigits 10 port := by
  have display : (displayHost host).toList =
      if ':' ∈ host.toList then '[' :: (host.toList ++ [']']) else host.toList := by
    unfold displayHost
    split <;> simp_all
  unfold authorityOf
  split
  · rw [display, List.append_nil]
  · rw [String.toList_append, String.toList_append, display, Nat.toString_eq_repr, Nat.toList_repr]
    simp

/-- The characters of an authority. -/
theorem mem_authorityOf {c : Char} (mem : c ∈ (authorityOf scheme host port).toList) :
    c ∈ host.toList ∨ c ∈ ['[', ']', ':'] ∨ c.isDigit = true := by
  rw [authorityOf_toList, List.mem_append] at mem
  rcases mem with mem | mem
  · split at mem
    · simp only [List.mem_cons, List.mem_append, List.not_mem_nil, or_false] at mem ⊢
      tauto
    · exact .inl mem
  · split at mem
    · cases mem
    · rcases List.mem_cons.1 mem with rfl | mem
      · simp
      · exact .inr (.inr (toDigits_isDigit c mem))

/-- What a host must be to come back: it has no user's separator, and its brackets stand in others. -/
structure Reparsed (host : List Char) : Prop where
  user : '@' ∉ host
  closing : ':' ∈ host → ']' ∉ host
  opening : ':' ∉ host → '[' ∉ host

theorem hostAndPort_authorityOf (plain : Reparsed host.toList) :
    hostAndPort (authorityOf scheme host port).toList = (authorityOf scheme host port).toList := by
  have clean : '@' ∉ (authorityOf scheme host port).toList := by
    intro mem
    rcases mem_authorityOf mem with mem | mem | mem
    · exact plain.user mem
    · exact absurd mem (by decide)
    · exact absurd mem (by decide)
  rw [hostAndPort, cutLast_eq_none_iff.2 clean]
  rfl

/-- **The parts of an authority come back.** -/
theorem hostInfo_authorityOf (plain : Reparsed host.toList) :
    hostInfo (authorityOf scheme host port).toList = (host.toList, portText scheme port) := by
  have digits {c : Char} (other : c.isDigit = false) : c ∉ Nat.toDigits 10 port :=
    fun mem => by simp [toDigits_isDigit c mem] at other
  rw [hostInfo, hostAndPort_authorityOf plain, authorityOf_toList]
  by_cases colon : ':' ∈ host.toList
  · have opened (tail : List Char) : cutFirst '[' ('[' :: (host.toList ++ [']']) ++ tail) =
        ([], some (host.toList ++ ']' :: tail)) := by
      simp [cutFirst]
    rw [if_pos colon, opened, portText]
    dsimp only
    rw [cutFirst_append (plain.closing colon)]
    split
    · rfl
    · simp [cutFirst]
  · have opening := plain.opening colon
    rw [if_neg colon, portText]
    by_cases default : port = defaultPort scheme
    · rw [if_pos default, if_pos default, List.append_nil, cutFirst_of_notMem opening]
      dsimp only
      rw [cutFirst_of_notMem colon]
      rfl
    · rw [if_neg default, if_neg default]
      have none : '[' ∉ host.toList ++ ':' :: Nat.toDigits 10 port := by
        simp [opening, digits (c := '[') (by decide)]
      rw [cutFirst_of_notMem none]
      dsimp only
      rw [cutFirst_append colon]
      rfl

/-- The shown port is read back. -/
theorem portNumber_authorityOf (plain : Reparsed host.toList) (small : port ≤ 65535) (positive : port ≠ 0) :
    ∃ given, portNumber (authorityOf scheme host port).toList = .ok given ∧ portOf scheme given = port := by
  rw [portNumber, hostInfo_authorityOf plain]
  dsimp only
  unfold portText
  by_cases default : port = defaultPort scheme
  · exact ⟨none, by rw [if_pos default]; rfl, by rw [default]; rfl⟩
  · have short : (Nat.toDigits 10 port).length ≤ 4300 :=
      (Nat.length_toDigits_le_iff (by decide) (by decide)).2 (by
        calc port ≤ 65535 := small
          _ < 10 ^ 5 := by decide
          _ ≤ 10 ^ 4300 := Nat.pow_le_pow_right (by decide) (by decide))
    have read : readInt (String.ofList (Nat.toDigits 10 port)) = some (port : ℤ) := by
      refine readInt_of_writeInt ?_
      rw [writeInt, Int.natAbs_natCast, if_neg (by simpa [intMaxStrDigits] using short)]
      rfl
    have digits : (Nat.toDigits 10 port).all Char.isDigit = true := List.all_eq_true.2 toDigits_isDigit
    refine ⟨some port, ?_, if_neg positive⟩
    rw [if_neg default, if_neg Nat.toDigits_ne_nil, if_pos digits, read]
    dsimp only
    rw [if_pos (by omega)]
    rfl

/-! ## The checks -/

/-- NFKC makes no delimiter of the character. -/
def NoDelimiter (tables : CaseTables) (d : Char) : Prop := ∀ c ∈ ['/', '?', '#', '@', ':'], c ∉ tables.nfkc [d]

/-- A location is checked when none of its characters but the ignored ones makes a delimiter. -/
theorem checkNetloc_iff (inside : Inside netloc) : checkNetloc tables.toUnicodeTables netloc = true ↔
    ∀ d ∈ netloc, d ∉ ['@', ':', '#', '?'] → NoDelimiter tables d := by
  constructor
  · intro checked d mem other c delimiter made
    have kept : d ∈ netloc.filter fun c => c ∉ ['@', ':', '#', '?'] := List.mem_filter.2 ⟨mem, by simpa using other⟩
    have whole := (tables.nfkc_delimiter _ c delimiter).2 ⟨d, kept, made⟩
    simp only [checkNetloc, Bool.or_eq_true, List.all_eq_true, decide_eq_true_eq] at checked
    have absent : c ∉ netloc.filter fun c => c ∉ ['@', ':', '#', '?'] := by
      intro there
      obtain ⟨there, ignored⟩ := List.mem_filter.1 there
      have slash := (endsAuthority_eq_false.1 (inside c there).1).1
      simp_all
    rcases checked with (ascii | same) | clean
    · rw [tables.nfkc_ascii d (ascii d mem)] at made
      exact absent (List.mem_singleton.1 made ▸ kept)
    · exact absent (same ▸ whole)
    · exact clean c whole delimiter
  · intro each
    simp only [checkNetloc, Bool.or_eq_true, List.all_eq_true, decide_eq_true_eq]
    refine .inr fun c made delimiter => ?_
    obtain ⟨d, kept, made⟩ := (tables.nfkc_delimiter _ c delimiter).1 made
    obtain ⟨mem, other⟩ := List.mem_filter.1 kept
    exact each d mem (of_decide_eq_true other) c delimiter made

/-! ## The host in lower case -/

/-- A host whose brackets, if it has any, stand in brackets again. -/
def Clean (raw : List Char) : Prop := ':' ∈ raw ∨ ('[' ∉ raw ∧ ']' ∉ raw)

instance : DecidablePred Clean := fun _ => inferInstanceAs (Decidable (_ ∨ _))

theorem mem_of_loweredHost {c : Char} (delimiter : c ∈ ['/', '?', '#', '@', ':', '[', ']', '\n'])
    (mem : c ∈ loweredHost tables.toUnicodeTables raw) : c ∈ raw := by
  obtain ⟨-, whole⟩ := cutFirst_spec (Prod.mk.eta (p := cutFirst '%' raw)).symm
  rw [whole, List.mem_append]
  exact (List.mem_append.1 mem).imp_left fun front => tables.lower_delimiter _ c front delimiter

/-- The authority that is built for a network location. -/
def rebuilt (tables : UnicodeTables) (scheme : String) (netloc : List Char) (port : ℕ) : String :=
  authorityOf scheme (String.ofList (loweredHost tables (hostInfo netloc).1)) port

theorem rebuilt_toList : (rebuilt tables.toUnicodeTables scheme netloc port).toList =
    (if ':' ∈ (hostInfo netloc).1 then
      '[' :: (loweredHost tables.toUnicodeTables (hostInfo netloc).1 ++ [']'])
    else loweredHost tables.toUnicodeTables (hostInfo netloc).1) ++
      if port = defaultPort scheme then [] else ':' :: Nat.toDigits 10 port := by
  rw [rebuilt, authorityOf_toList, String.toList_ofList]
  simp only [@mem_loweredHost _ tables ':' (by simp)]

section Host

variable (inside : Inside netloc) (located : Located tables.toUnicodeTables netloc)

include located in
theorem reparsed_lowered (clean : Clean (hostInfo netloc).1) :
    Reparsed (String.ofList (loweredHost tables.toUnicodeTables (hostInfo netloc).1)).toList := by
  rw [String.toList_ofList]
  refine ⟨fun mem => ?_, fun colon close => ?_, fun colon opened => ?_⟩
  · exact (hostInfo_subset _ (mem_of_loweredHost (by simp) mem)).2 rfl
  · have colon := (mem_loweredHost (by simp)).1 colon
    have close := (mem_loweredHost (by simp)).1 close
    rcases hostInfo_cases located.bracketed with ⟨bracketed, -⟩ | ⟨-, plain⟩
    · exact bracketed close
    · exact plain colon
  · have colon := mt (mem_loweredHost (by simp)).2 colon
    have opened := (mem_loweredHost (by simp)).1 opened
    exact (clean.resolve_left colon).1 opened

include inside in
theorem inside_rebuilt : Inside (rebuilt tables.toUnicodeTables scheme netloc port).toList := by
  intro c mem
  rcases mem_authorityOf mem with mem | mem | digit
  · rw [String.toList_ofList] at mem
    have kept {d : Char} (there : d ∈ (hostInfo netloc).1) := inside d (hostInfo_subset d there).1
    refine ⟨endsAuthority_eq_false.2 ⟨?_, ?_, ?_⟩, fun bad => ?_⟩
    · rintro rfl
      cases (kept (mem_of_loweredHost (by simp) mem)).1
    · rintro rfl
      cases (kept (mem_of_loweredHost (by simp) mem)).1
    · rintro rfl
      cases (kept (mem_of_loweredHost (by simp) mem)).1
    · simp only [List.mem_cons, List.not_mem_nil, or_false] at bad
      rcases bad with rfl | rfl | rfl
      · exact (kept ((mem_loweredHost (by simp)).1 mem)).2 (by simp)
      · exact (kept ((mem_loweredHost (by simp)).1 mem)).2 (by simp)
      · exact (kept (mem_of_loweredHost (by simp) mem)).2 (by simp)
  · simp only [List.mem_cons, List.not_mem_nil, or_false] at mem
    rcases mem with rfl | rfl | rfl <;> decide
  · refine ⟨(noDelimiter_of_isDigit digit).1, fun bad => ?_⟩
    simp only [List.mem_cons, List.not_mem_nil, or_false] at bad
    rcases bad with rfl | rfl | rfl <;> exact absurd digit (by decide)

include inside located in
/-- The characters of the built authority make no delimiter that those of the parsed one do not. -/
theorem normal_rebuilt :
    checkNetloc tables.toUnicodeTables (rebuilt tables.toUnicodeTables scheme netloc port).toList = true := by
  have before := (checkNetloc_iff inside).1 located.normal
  refine (checkNetloc_iff (inside_rebuilt inside)).2 fun d mem other => ?_
  rcases mem_authorityOf mem with mem | mem | digit
  · rw [String.toList_ofList] at mem
    obtain ⟨-, whole⟩ := cutFirst_spec (Prod.mk.eta (p := cutFirst '%' (hostInfo netloc).1)).symm
    have kept (there : d ∈ (hostInfo netloc).1) := before d (hostInfo_subset d there).1 other
    rcases List.mem_append.1 mem with front | zone
    · intro c delimiter made
      have there := tables.lower_nfkc _ d front c delimiter made
      exact kept (by rw [whole]; exact List.mem_append_left _ there) c delimiter made
    · exact kept (by rw [whole]; exact List.mem_append_right _ zone)
  · intro c delimiter made
    simp only [List.mem_cons, List.not_mem_nil, or_false] at mem
    rcases mem with rfl | rfl | rfl
    · rw [tables.nfkc_ascii _ (by decide)] at made
      exact absurd (List.mem_singleton.1 made ▸ delimiter) (by decide)
    · rw [tables.nfkc_ascii _ (by decide)] at made
      exact absurd (List.mem_singleton.1 made ▸ delimiter) (by decide)
    · exact other (by simp)
  · intro c delimiter made
    obtain ⟨-, high⟩ : 48 ≤ d.toNat ∧ d.toNat ≤ 57 := Char.isDigit_iff_toNat.1 digit
    rw [tables.nfkc_ascii d (by omega)] at made
    obtain rfl := List.mem_singleton.1 made
    simp only [List.mem_cons, List.not_mem_nil, or_false] at delimiter
    rcases delimiter with rfl | rfl | rfl | rfl | rfl <;> exact absurd digit (by decide)

/-- Without a colon the brackets of the authority are those of the host. -/
theorem bracket_rebuilt {c : Char} (bracket : c ∈ ['[', ']']) (colon : ':' ∉ (hostInfo netloc).1) :
    c ∈ (rebuilt tables.toUnicodeTables scheme netloc port).toList ↔ c ∈ (hostInfo netloc).1 := by
  simp only [List.mem_cons, List.not_mem_nil, or_false] at bracket
  have tail : c ∉ if port = defaultPort scheme then [] else ':' :: Nat.toDigits 10 port := by
    split
    · simp
    · intro mem
      rcases List.mem_cons.1 mem with rfl | mem
      · rcases bracket with bad | bad <;> cases bad
      · have digit := toDigits_isDigit c mem
        rcases bracket with rfl | rfl <;> exact absurd digit (by decide)
  rw [rebuilt_toList, if_neg colon, List.mem_append, mem_loweredHost (by rcases bracket with rfl | rfl <;> simp)]
  exact or_iff_left tail

include inside located in
/-- **The built authority passes the checks.** -/
theorem located_rebuilt (clean : Clean (hostInfo netloc).1) :
    Located tables.toUnicodeTables (rebuilt tables.toUnicodeTables scheme netloc port).toList := by
  have plain := reparsed_lowered located clean
  by_cases colon : ':' ∈ (hostInfo netloc).1
  · have checked : checkBracketedHost (hostInfo netloc).1 = true := by
      rcases hostInfo_cases located.bracketed with ⟨-, checked⟩ | ⟨-, none⟩
      · exact checked
      · exact absurd colon none
    have closing : ']' ∉ loweredHost tables.toUnicodeTables (hostInfo netloc).1 := by
      have closing := plain.closing
      rw [String.toList_ofList] at closing
      exact closing ((mem_loweredHost (by simp)).2 colon)
    refine ⟨?_, fun _ => ?_, normal_rebuilt inside located⟩
    · rw [rebuilt_toList, if_pos colon]
      simp
    · have opened (tail : List Char) : cutFirst '[' ('[' ::
          (loweredHost tables.toUnicodeTables (hostInfo netloc).1 ++ [']']) ++ tail) =
          ([], some (loweredHost tables.toUnicodeTables (hostInfo netloc).1 ++ ']' :: tail)) := by
        simp [cutFirst]
      have user := @hostAndPort_authorityOf scheme _ port plain
      rw [checkBracketedNetloc, rebuilt, user, ← rebuilt, rebuilt_toList, if_pos colon, opened]
      dsimp only
      rw [cutFirst_append closing]
      dsimp only
      rw [checkBracketedHost_lowered checked]
      by_cases default : port = defaultPort scheme <;> simp [default]
  · obtain ⟨opening, closing⟩ := clean.resolve_left colon
    have noOpening := mt (@bracket_rebuilt tables netloc scheme port _ (by simp) colon).1 opening
    have noClosing := mt (@bracket_rebuilt tables netloc scheme port _ (by simp) colon).1 closing
    exact ⟨⟨fun mem => absurd mem noOpening, fun mem => absurd mem noClosing⟩,
      fun mem => absurd mem noOpening, normal_rebuilt inside located⟩

include located in
/-- A bracket in a host without a colon stands alone in the built authority. -/
theorem odd_rebuilt (unclean : ¬ Clean (hostInfo netloc).1) :
    ¬ ('[' ∈ (rebuilt tables.toUnicodeTables scheme netloc port).toList ↔
      ']' ∈ (rebuilt tables.toUnicodeTables scheme netloc port).toList) := by
  obtain ⟨colon, brackets⟩ := not_or.1 unclean
  rw [bracket_rebuilt (by simp) colon, bracket_rebuilt (by simp) colon]
  rcases hostInfo_cases located.bracketed with ⟨closing, -⟩ | ⟨opening, -⟩
  · tauto
  · tauto

/-- **The built URL is split** into the parts that it was built of, with any path. -/
theorem urlsplit_rebuilt {rest : String} (known : scheme = "http" ∨ scheme = "https")
    (inside : Inside netloc) (located : Located tables.toUnicodeTables netloc)
    (clean : Clean (hostInfo netloc).1)
    (filled : loweredHost tables.toUnicodeTables (hostInfo netloc).1 ≠ []) (small : port ≤ 65535)
    (positive : port ≠ 0) (path : rest = "" ∨ rest.toList.head? = some '/') :
    ∃ parsed given, urlsplit tables.toUnicodeTables
        (scheme ++ "://" ++ rebuilt tables.toUnicodeTables scheme netloc port ++ rest) = .ok parsed ∧
      parsed.scheme = scheme ∧
      parsed.hostname = some (String.ofList (loweredHost tables.toUnicodeTables (hostInfo netloc).1)) ∧
      parsed.port = .ok given ∧ portOf scheme given = port := by
  have plain := reparsed_lowered located clean
  obtain ⟨given, read, same⟩ := @portNumber_authorityOf scheme _ port plain small positive
  rw [← rebuilt] at read
  refine ⟨_, given, urlsplit_written known (inside_rebuilt inside) path (located_rebuilt inside located clean),
    rfl, ?_, read, same⟩
  have host : (hostInfo (rebuilt tables.toUnicodeTables scheme netloc port).toList).1 =
      loweredHost tables.toUnicodeTables (hostInfo netloc).1 := by
    rw [rebuilt, hostInfo_authorityOf plain, String.toList_ofList]
  simp only [hostName_eq, host, if_neg filled, loweredHost_loweredHost]

end Host

end Arena.Model
