import Arena.Lib.Uri
import Arena.Model.ClientAddress
import Arena.Model.Endpoints

/-!
# Splitting URLs

`urlsplit` of Python's `urllib.parse`, as far as `backend/app/public_url.py` reads its result:
the scheme, the host and the port. Two tables of Unicode are parameters: `str.lower` and the
normal form NFKC.
-/

namespace Arena.Model

open Arena.Lib

/-- What `urlsplit` takes from the Unicode tables. Lower-casing makes no delimiter of a URL out of
another character, and changes an ASCII character as ASCII does. -/
structure UnicodeTables where
  lower : List Char → List Char
  nfkc : List Char → List Char
  lower_delimiter : ∀ s, ∀ c ∈ lower s, c ∈ ['/', '?', '#', '@', ':', '[', ']', '\n'] → c ∈ s
  lower_head : ∀ c s, c.toNat < 128 → (lower (c :: s)).head? = some c.toLower

theorem eq_of_toLower {c d : Char} (lowered : c.toLower = d) (small : d.toNat < 97) : c = d := by
  by_cases upper : c.val ≥ 'A'.val ∧ c.val ≤ 'Z'.val
  · have low : 65 ≤ c.val.toNat := UInt32.le_iff_toNat_le.1 upper.1
    have high : c.val.toNat ≤ 90 := UInt32.le_iff_toNat_le.1 upper.2
    have value : d.toNat = (c.val + 32).toNat :=
      congrArg Char.toNat (lowered.symm.trans (dif_pos upper))
    rw [UInt32.toNat_add] at value
    have bound : (c.val.toNat + 32) % 4294967296 = c.val.toNat + 32 := Nat.mod_eq_of_lt (by omega)
    have : d.toNat = c.val.toNat + 32 := value.trans bound
    omega
  · have kept : c.toLower = c := dif_neg upper
    exact kept.symm.trans lowered

/-- The tables of ASCII. -/
def asciiTables : UnicodeTables where
  lower s := s.map Char.toLower
  nfkc s := s
  lower_delimiter := by
    intro s c mem delimiter
    obtain ⟨d, there, lowered⟩ := List.mem_map.1 mem
    have small : c.toNat < 97 := by
      simp only [List.mem_cons, List.not_mem_nil, or_false] at delimiter
      rcases delimiter with rfl | rfl | rfl | rfl | rfl | rfl | rfl | rfl <;> decide
    rwa [← eq_of_toLower lowered small]
  lower_head _ _ _ := rfl

/-! ## `ipaddress.IPv6Address` -/

/-- `_parse_hextet`. -/
def isIpv6Hextet (s : List Char) : Bool := s ≠ [] && s.all isHex && s.length ≤ 4

/-- The parts between the colons, one of which may be empty for a run of zeros; next to it, an end
of the text may be empty too. -/
def isIpv6Parts (parts : List (List Char)) : Bool :=
  let inner := (List.range parts.length).filter fun i => 1 ≤ i && i + 1 < parts.length && parts[i]? = some []
  parts.length ≤ 9 &&
    match inner with
    | [] => parts.length = 8 && parts.all isIpv6Hextet
    | [skip] =>
      let high := if parts.take skip = [[]] then [] else parts.take skip
      let low := if parts.drop (skip + 1) = [[]] then [] else parts.drop (skip + 1)
      (high ++ low).length < 8 && (high ++ low).all isIpv6Hextet
    | _ => false

/-- `_ip_int_from_string` returns. -/
def isIpv6Number (s : List Char) : Bool :=
  let parts := s.splitOn ':'
  3 ≤ parts.length &&
    if '.' ∈ parts.getLast?.getD [] then
      -- a dotted address is two hextets; their values do not matter here
      isIPv4 (parts.getLast?.getD []) && isIpv6Parts (parts.dropLast ++ [['0'], ['0']])
    else isIpv6Parts parts

/-- `ip_address(s)` is an IPv6 address, with a scope or not. -/
def isIpv6Address (s : List Char) : Bool :=
  '/' ∉ s &&
    match cutFirst '%' s with
    | (address, none) => isIpv6Number address
    | (address, some scope) => isIpv6Number address && scope ≠ [] && '%' ∉ scope

example : isIpv6Address "::ffff:192.0.2.1%eth0".toList = true := by decide +kernel

example : isIpv6Address "2001:db8::1::".toList = false := by decide +kernel

/-! ## `urlsplit` -/

/-- `_WHATWG_C0_CONTROL_OR_SPACE`. -/
def isC0OrSpace (c : Char) : Bool := c.toNat ≤ 32

/-- `scheme_chars`. -/
def isSchemeChar (c : Char) : Bool := c.isAlphanum || c = '+' || c = '-' || c = '.'

/-- The scheme, in lower case, and what follows its colon. -/
def splitScheme (url : List Char) : List Char × List Char :=
  match cutFirst ':' url with
  | (scheme, some rest) =>
    if (scheme.head?.map Char.isAlpha).getD false && scheme.all isSchemeChar then
      (scheme.map Char.toLower, rest)
    else ([], url)
  | _ => ([], url)

/-- The network location and what follows it. -/
def splitNetloc (url : List Char) : List Char × List Char :=
  (url.takeWhile fun c => !endsAuthority c, url.dropWhile fun c => !endsAuthority c)

/-- What follows the last `@` of a network location. -/
def hostAndPort (netloc : List Char) : List Char := ((cutLast '@' netloc).map Prod.snd).getD netloc

/-- `_check_bracketed_host`, for the syntax of a future version. -/
def isIpvFuture (s : List Char) : Bool :=
  match s with
  | 'v' :: rest =>
    rest.takeWhile isHex ≠ [] &&
      match rest.dropWhile isHex with
      | '.' :: _ :: _ => true
      | _ => false
  | _ => false

/-- `_check_bracketed_host`. -/
def checkBracketedHost (hostname : List Char) : Bool :=
  if hostname.head? = some 'v' then isIpvFuture hostname else isIpv6Address hostname

/-- `_check_bracketed_netloc`. -/
def checkBracketedNetloc (netloc : List Char) : Bool :=
  match cutFirst '[' (hostAndPort netloc) with
  | (before, some bracketed) =>
    let (hostname, port) := cutFirst ']' bracketed
    before = [] && (port.getD []).head?.getD ':' = ':' && checkBracketedHost hostname
  | (_, none) => checkBracketedHost (cutFirst ':' (hostAndPort netloc)).1

/-- `_checknetloc`. -/
def checkNetloc (tables : UnicodeTables) (netloc : List Char) : Bool :=
  let n := netloc.filter fun c => c ∉ ['@', ':', '#', '?']
  netloc.all (fun c => c.toNat < 128) || n = tables.nfkc n ||
    (tables.nfkc n).all fun c => c ∉ ['/', '?', '#', '@', ':']

/-- `_hostinfo`: the host and the text of the port. -/
def hostInfo (netloc : List Char) : List Char × List Char :=
  match cutFirst '[' (hostAndPort netloc) with
  | (_, some bracketed) =>
    let (hostname, rest) := cutFirst ']' bracketed
    (hostname, ((cutFirst ':' (rest.getD [])).2).getD [])
  | (_, none) =>
    let (hostname, port) := cutFirst ':' (hostAndPort netloc)
    (hostname, port.getD [])

/-- The property `hostname`: in lower case, but for the zone of an address. -/
def hostName (tables : UnicodeTables) (netloc : List Char) : Option String :=
  let hostname := (hostInfo netloc).1
  if hostname = [] then none
  else
    match cutFirst '%' hostname with
    | (address, none) => some (String.ofList (tables.lower address))
    | (address, some zone) => some (String.ofList (tables.lower address ++ '%' :: zone))

/-- The property `port`. -/
def portNumber (netloc : List Char) : Except HttpError (Option ℕ) :=
  let port := (hostInfo netloc).2
  if port = [] then .ok none
  else if port.all Char.isDigit then
    match readInt (String.ofList port) with
    | some n => if 0 ≤ n ∧ n ≤ 65535 then .ok (some n.toNat) else .error internalError
    | none => .error internalError
  else .error internalError

/-- `urlsplit(url)`; a `ValueError` is handled by nobody. -/
def urlsplit (tables : UnicodeTables) : UrlSplit := fun url =>
  let url := (lstrip isC0OrSpace url.toList).filter fun c => c ∉ ['\t', '\r', '\n']
  let (scheme, url) := splitScheme url
  match url with
  | '/' :: '/' :: rest =>
    let netloc := (splitNetloc rest).1
    if ('[' ∈ netloc ∧ ']' ∉ netloc) ∨ (']' ∈ netloc ∧ '[' ∉ netloc) then .error internalError
    else if '[' ∈ netloc ∧ checkBracketedNetloc netloc = false then .error internalError
    else if checkNetloc tables netloc = false then .error internalError
    else
      .ok
        { scheme := String.ofList scheme
          hostname := hostName tables netloc
          port := portNumber netloc }
  | _ => .ok { scheme := String.ofList scheme, hostname := none, port := .ok none }

/-! ## The network location -/

/-- The text that `urlsplit` splits. -/
def cleanedUrl (url : String) : List Char :=
  (lstrip isC0OrSpace url.toList).filter fun c => c ∉ ['\t', '\r', '\n']

/-- The network location of a URL. -/
def netlocOf (url : String) : List Char :=
  match (splitScheme (cleanedUrl url)).2 with
  | '/' :: '/' :: rest => (splitNetloc rest).1
  | _ => []

/-- What `urlsplit` checks of a network location. -/
structure Located (tables : UnicodeTables) (netloc : List Char) : Prop where
  balanced : '[' ∈ netloc ↔ ']' ∈ netloc
  bracketed : '[' ∈ netloc → checkBracketedNetloc netloc = true
  normal : checkNetloc tables netloc = true

/-- No delimiter ends the text, and nothing is removed from it. -/
def Inside (netloc : List Char) : Prop :=
  ∀ c ∈ netloc, endsAuthority c = false ∧ c ∉ ['\t', '\r', '\n']

theorem mem_of_mem_splitScheme {url : List Char} : ∀ c ∈ (splitScheme url).2, c ∈ url := by
  intro c mem
  unfold splitScheme at mem
  split at mem
  · rename_i scheme rest cut
    obtain ⟨-, whole⟩ := cutFirst_spec cut
    split at mem
    · rw [whole]
      exact List.mem_append_right _ (List.mem_cons_of_mem _ mem)
    · exact mem
  · exact mem

/-- **What a URL with a host is split into.** -/
theorem urlsplit_named {tables : UnicodeTables} {url : String} {parsed : SplitUrl}
    (split : urlsplit tables url = .ok parsed) (named : parsed.hostname.getD "" ≠ "") :
    Inside (netlocOf url) ∧ Located tables (netlocOf url) ∧ parsed.hostname = hostName tables (netlocOf url) ∧
      parsed.port = portNumber (netlocOf url) := by
  unfold urlsplit at split
  dsimp only at split
  split at split
  · rename_i rest located
    have found : (splitScheme (cleanedUrl url)).2 = '/' :: '/' :: rest := located
    have netloc : netlocOf url = (splitNetloc rest).1 := by simp only [netlocOf, found]
    split_ifs at split with unbalanced unchecked normal
    cases split
    rw [netloc]
    refine ⟨fun c mem => ⟨?_, ?_⟩, ⟨?_, fun inside => ?_, by simpa using normal⟩, rfl, rfl⟩
    · simpa using List.mem_takeWhile_imp mem
    · have given : c ∈ rest := (List.takeWhile_prefix _).subset mem
      have original := mem_of_mem_splitScheme c (by rw [located]; simp [given])
      exact of_decide_eq_true (List.mem_filter.1 original).2
    · tauto
    · by_contra refused
      exact unchecked ⟨inside, by simpa using refused⟩
  · cases split
    exact absurd rfl named

/-! ## The host of a URL -/

variable {s netloc hostname : List Char} {parts : List (List Char)} {part : List Char} {tables : UnicodeTables}

theorem mem_of_splitOn (sep : Char) {c : Char} (mem : c ∈ s) : c = sep ∨ ∃ part ∈ s.splitOn sep, c ∈ part := by
  have joined : [sep].intercalate (s.splitOn sep) = s := List.intercalate_splitOn sep
  rw [← joined] at mem
  exact (mem_intercalate mem).imp_left List.mem_singleton.1

theorem isIpv6Hextet_chars (hextet : isIpv6Hextet part = true) : ∀ c ∈ part, isHex c = true := by
  simp only [isIpv6Hextet, Bool.and_eq_true, List.all_eq_true] at hextet
  exact hextet.1.2

theorem isIPv4_chars (dotted : isIPv4 part = true) : ∀ c ∈ part, isDigit c = true ∨ c = '.' := by
  intro c mem
  simp only [isIPv4, Bool.and_eq_true, List.all_eq_true] at dotted
  obtain dot | ⟨octet, there, mem⟩ := mem_of_splitOn '.' mem
  · exact .inr dot
  · have digits := dotted.2 octet there
    simp only [isOctet, Bool.and_eq_true, List.all_eq_true] at digits
    exact .inl (digits.1.1.2 c mem)

/-- A part of an IPv6 address is empty or hexadecimal. -/
theorem isIpv6Parts_mem (number : isIpv6Parts parts = true) (mem : part ∈ parts) :
    part = [] ∨ isIpv6Hextet part = true := by
  simp only [isIpv6Parts, Bool.and_eq_true] at number
  obtain ⟨-, number⟩ := number
  split at number
  · simp only [Bool.and_eq_true, List.all_eq_true] at number
    exact .inr (number.2 part mem)
  · rename_i skip inner
    have empty : skip ∈ [skip] := by simp
    rw [← inner] at empty
    simp only [List.mem_filter, Bool.and_eq_true, decide_eq_true_eq] at empty
    obtain ⟨-, -, empty⟩ := empty
    simp only [Bool.and_eq_true, List.all_eq_true] at number
    obtain ⟨-, hextets⟩ := number
    -- the parts are those before the empty one, the empty one and those after it
    obtain ⟨short, none⟩ := List.getElem?_eq_some_iff.1 empty
    have whole : parts = parts.take skip ++ [] :: parts.drop (skip + 1) := by
      rw [← none, ← List.drop_eq_getElem_cons short, List.take_append_drop]
    rw [whole] at mem
    rcases List.mem_append.1 mem with mem | mem
    · by_cases end_empty : parts.take skip = [[]]
      · rw [end_empty] at mem
        exact .inl (List.mem_singleton.1 mem)
      · refine .inr (hextets part (List.mem_append_left _ ?_))
        rwa [if_neg end_empty]
    · rcases List.mem_cons.1 mem with rfl | mem
      · exact .inl rfl
      · by_cases end_empty : parts.drop (skip + 1) = [[]]
        · rw [end_empty] at mem
          exact .inl (List.mem_singleton.1 mem)
        · refine .inr (hextets part (List.mem_append_right _ ?_))
          rwa [if_neg end_empty]
  · cases number

theorem isIpv6Parts_chars (number : isIpv6Parts parts = true) (mem : part ∈ parts) :
    ∀ c ∈ part, isHex c = true := by
  rcases isIpv6Parts_mem number mem with rfl | hextet
  · simp
  · exact isIpv6Hextet_chars hextet

/-- The characters of an IPv6 address, its scope apart. -/
theorem isIpv6Number_chars (number : isIpv6Number s = true) :
    ∀ c ∈ s, isHex c = true ∨ c = ':' ∨ c = '.' := by
  intro c mem
  simp only [isIpv6Number, Bool.and_eq_true] at number
  obtain ⟨-, number⟩ := number
  obtain colon | ⟨part, there, mem⟩ := mem_of_splitOn ':' mem
  · exact .inr (.inl colon)
  split at number
  · simp only [Bool.and_eq_true] at number
    obtain ⟨dotted, number⟩ := number
    have ne := List.splitOn_ne_nil ':' s
    rw [List.getLast?_eq_getLast_of_ne_nil ne] at dotted
    rw [← List.dropLast_append_getLast ne] at there
    rcases List.mem_append.1 there with there | last
    · exact .inl (isIpv6Parts_chars number (List.mem_append_left _ there) c mem)
    · rw [List.mem_singleton.1 last] at mem
      exact (isIPv4_chars dotted c mem).imp (fun digit => by simp [isHex, digit]) .inr
  · exact .inl (isIpv6Parts_chars number there c mem)

theorem hostAndPort_spec (netloc : List Char) : '@' ∉ hostAndPort netloc ∧ ∀ c ∈ hostAndPort netloc, c ∈ netloc := by
  unfold hostAndPort
  cases cut : cutLast '@' netloc with
  | none => exact ⟨cutLast_eq_none_iff.1 cut, fun c mem => mem⟩
  | some parts =>
    obtain ⟨user, host⟩ := parts
    obtain ⟨whole, clean⟩ := cutLast_eq_some_iff.1 cut
    exact ⟨clean, fun c mem => by rw [whole]; exact List.mem_append_right _ (List.mem_cons_of_mem _ mem)⟩

/-- What a link can show of a host: it has no delimiter of a URI but colons and brackets, it is no
literal in brackets, and it can be put in brackets where it has a colon. -/
structure PublicHost (host : List Char) : Prop where
  plain : ∀ c ∈ host, c ∉ ['/', '?', '#', '@', '\n']
  head : host.head? ≠ some '['
  closing : ':' ∈ host → ']' ∉ host

/-- **Where the host stands**: between brackets, checked, or in front of the colon. -/
theorem hostInfo_cases (checked : '[' ∈ netloc → checkBracketedNetloc netloc = true) :
    (']' ∉ (hostInfo netloc).1 ∧ checkBracketedHost (hostInfo netloc).1 = true) ∨
      ('[' ∉ (hostInfo netloc).1 ∧ ':' ∉ (hostInfo netloc).1) := by
  obtain ⟨-, part⟩ := hostAndPort_spec netloc
  unfold hostInfo
  cases cut : cutFirst '[' (hostAndPort netloc) with
  | mk before bracketed =>
    obtain ⟨noBracket, whole⟩ := cutFirst_spec cut
    cases bracketed with
    | some bracketed =>
      have inside : '[' ∈ netloc := part _ (by rw [whole]; simp)
      have check := checked inside
      rw [checkBracketedNetloc, cut] at check
      cases close : cutFirst ']' bracketed with
      | mk hostname port =>
        simp only [close, Bool.and_eq_true] at check ⊢
        exact .inl ⟨(cutFirst_spec close).1, check.2⟩
    | none =>
      simp only [Option.elim_none, List.append_nil] at whole
      cases colon : cutFirst ':' (hostAndPort netloc) with
      | mk hostname port =>
        obtain ⟨noColon, rest⟩ := cutFirst_spec colon
        refine .inr ⟨fun mem => noBracket ?_, noColon⟩
        rw [← whole, rest]
        exact List.mem_append_left _ mem

theorem hostInfo_subset : ∀ c ∈ (hostInfo netloc).1, c ∈ netloc ∧ c ≠ '@' := by
  obtain ⟨noUser, part⟩ := hostAndPort_spec netloc
  suffices sub : ∀ c ∈ (hostInfo netloc).1, c ∈ hostAndPort netloc from
    fun c mem => ⟨part c (sub c mem), fun user => noUser (user ▸ sub c mem)⟩
  intro c mem
  unfold hostInfo at mem
  cases cut : cutFirst '[' (hostAndPort netloc) with
  | mk before bracketed =>
    obtain ⟨-, whole⟩ := cutFirst_spec cut
    rw [cut] at mem
    cases bracketed with
    | some bracketed =>
      obtain ⟨-, inner⟩ := cutFirst_spec (Prod.mk.eta (p := cutFirst ']' bracketed)).symm
      rw [whole, Option.elim_some, inner]
      simp [show c ∈ (cutFirst ']' bracketed).1 from mem]
    | none =>
      obtain ⟨-, inner⟩ := cutFirst_spec (Prod.mk.eta (p := cutFirst ':' (hostAndPort netloc))).symm
      rw [inner]
      exact List.mem_append_left _ mem

/-- The host of a network location before it is lower-cased. -/
theorem hostInfo_spec (inside : Inside netloc) (checked : '[' ∈ netloc → checkBracketedNetloc netloc = true) :
    (∀ c ∈ (hostInfo netloc).1, c ∉ ['/', '?', '#', '@', '\n']) ∧
      (':' ∈ (hostInfo netloc).1 → ']' ∉ (hostInfo netloc).1) ∧
      ('[' ∈ (hostInfo netloc).1 → checkBracketedHost (hostInfo netloc).1 = true) := by
  refine ⟨fun c mem bad => ?_, fun colon => ?_, fun opening => ?_⟩
  · obtain ⟨there, noUser⟩ := hostInfo_subset c mem
    obtain ⟨noEnd, kept⟩ := inside c there
    have noDelimiter := endsAuthority_eq_false.1 noEnd
    simp_all
  · rcases hostInfo_cases checked with ⟨closing, -⟩ | ⟨-, none⟩
    · exact closing
    · exact absurd colon none
  · rcases hostInfo_cases checked with ⟨-, check⟩ | ⟨none, -⟩
    · exact check
    · exact absurd opening none

/-- Lower-casing all but the zone keeps the shape of a host. -/
theorem publicHost_of_lower {address zone : List Char}
    (plain : ∀ c ∈ address ++ zone, c ∉ ['/', '?', '#', '@', '\n'])
    (closing : ':' ∈ address ++ zone → ']' ∉ address ++ zone)
    (head : '[' ∈ address → ∃ c rest, address = c :: rest ∧ c.toNat < 128 ∧ c.toLower ≠ '[')
    (percent : zone.head? ≠ some '[') :
    PublicHost (tables.lower address ++ zone) := by
  have back : ∀ c ∈ tables.lower address ++ zone, c ∈ ['/', '?', '#', '@', ':', '[', ']', '\n'] →
      c ∈ address ++ zone := by
    intro c mem delimiter
    rcases List.mem_append.1 mem with mem | mem
    · exact List.mem_append_left _ (tables.lower_delimiter address c mem delimiter)
    · exact List.mem_append_right _ mem
  refine ⟨fun c mem bad => plain c (back c mem ?_) bad, ?_, fun colon close => ?_⟩
  · simp only [List.mem_cons, List.not_mem_nil, or_false] at bad ⊢
    tauto
  · intro opening
    cases lowered : tables.lower address with
    | nil =>
      rw [lowered] at opening
      exact percent opening
    | cons c rest =>
      rw [lowered] at opening
      have same : c = '[' := Option.some.inj opening
      have inside : '[' ∈ address := tables.lower_delimiter address '[' (by simp [lowered, same]) (by simp)
      obtain ⟨d, more, rfl, ascii, other⟩ := head inside
      have first := tables.lower_head d more ascii
      rw [lowered, same] at first
      exact other (Option.some.inj first).symm
  · exact closing (back _ colon (by simp)) (back _ close (by simp))

/-- An opening bracket before the zone stands in an address of a future version. -/
theorem checkBracketedHost_head {address : List Char} {zone : Option (List Char)}
    (cut : cutFirst '%' hostname = (address, zone)) (check : checkBracketedHost hostname = true)
    (inside : '[' ∈ address) : ∃ c rest, address = c :: rest ∧ c.toNat < 128 ∧ c.toLower ≠ '[' := by
  obtain ⟨-, whole⟩ := cutFirst_spec cut
  obtain ⟨c, rest, rfl⟩ := List.exists_cons_of_ne_nil (List.ne_nil_of_mem inside)
  unfold checkBracketedHost at check
  split at check
  · rename_i future
    rw [whole] at future
    have letter : c = 'v' := Option.some.inj future
    exact ⟨c, rest, rfl, letter ▸ by decide, letter ▸ by decide⟩
  · simp only [isIpv6Address, cut, Bool.and_eq_true] at check
    have number : isIpv6Number (c :: rest) = true := by
      cases zone with
      | none => exact check.2
      | some zone =>
        simp only [Bool.and_eq_true] at check
        exact check.2.1.1
    exact absurd (isIpv6Number_chars number _ inside) (by decide)

theorem hostName_spec (inside : Inside netloc) (checked : '[' ∈ netloc → checkBracketedNetloc netloc = true)
    {host : String} (named : hostName tables netloc = some host) : PublicHost host.toList := by
  obtain ⟨plain, closing, bracket⟩ := hostInfo_spec inside checked
  unfold hostName at named
  dsimp only at named
  split at named
  · cases named
  · cases cut : cutFirst '%' (hostInfo netloc).1 with
    | mk address zone =>
      have head := fun inside : '[' ∈ address =>
        checkBracketedHost_head cut (bracket (by rw [(cutFirst_spec cut).2]; simp [inside])) inside
      obtain ⟨-, whole⟩ := cutFirst_spec cut
      rw [whole] at plain closing
      rw [cut] at named
      cases zone with
      | none =>
        obtain rfl := Option.some.inj named
        rw [String.toList_ofList, ← List.append_nil (tables.lower address)]
        exact publicHost_of_lower plain closing head (by simp)
      | some zone =>
        obtain rfl := Option.some.inj named
        rw [String.toList_ofList]
        exact publicHost_of_lower plain closing head (by simp)

/-- What `urlsplit` and `public_endpoint` raise nobody handles. -/
theorem urlsplit_error {url : String} : ∀ e, urlsplit tables url = .error e → e = internalError := by
  intro e h
  unfold urlsplit at h
  dsimp only at h
  split at h
  · split_ifs at h <;> exact (Except.error.inj h).symm
  · cases h

theorem portNumber_error : ∀ e, portNumber netloc = .error e → e = internalError := by
  intro e h
  unfold portNumber at h
  dsimp only at h
  split_ifs at h
  · split at h
    · split_ifs at h
      exact (Except.error.inj h).symm
    · exact (Except.error.inj h).symm
  · exact (Except.error.inj h).symm

theorem urlsplit_port {url : String} {parsed : SplitUrl} (split : urlsplit tables url = .ok parsed) :
    ∀ e, parsed.port = .error e → e = internalError := by
  unfold urlsplit at split
  dsimp only at split
  split at split
  · split_ifs at split
    cases split
    exact portNumber_error
  · cases split
    exact fun e h => nomatch h

theorem publicEndpoint_error {url : String} :
    ∀ e, publicEndpoint (urlsplit tables) url = .error e → e = internalError := by
  refine bind_error_of urlsplit_error fun parsed split e h => ?_
  dsimp only at h
  split at h
  · exact (Except.error.inj h).symm
  · refine bind_error_of (urlsplit_port split) (fun given _ e done => ?_) e h
    cases done

theorem publicBaseUrl_error {cfg : Settings} {request : Request} :
    ∀ e, publicBaseUrl cfg (urlsplit tables) request = .error e → e = internalError :=
  bind_error_of publicEndpoint_error fun _ _ _ done => nomatch done

/-- **The host that `public_endpoint` gives** can be shown in a link. -/
theorem publicEndpoint_host {url : String} {base : PublicEndpoint}
    (accepted : publicEndpoint (urlsplit tables) url = .ok base) : PublicHost base.host.toList := by
  obtain ⟨parsed, given, split, -, named, -, rfl⟩ := publicEndpoint_eq_ok.1 accepted
  obtain ⟨inside, located, hostname, -⟩ := urlsplit_named split named
  cases host : parsed.hostname with
  | none => exact absurd (by rw [host]; rfl) named
  | some name => exact hostName_spec inside located.bracketed (hostname.symm.trans host)

end Arena.Model
