import Arena.Lib.Numerals

/-!
# URIs with an authority

A reader of `scheme://userinfo@host:port/path?query#fragment`, cut as the generic syntax of URIs says: a
host in brackets is a literal and is read without them. The path is dropped; nothing is decoded.
-/

namespace Arena.Lib

structure Uri where
  scheme : List Char
  userinfo : List Char
  host : List Char
  port : ℕ
  query : List Char
  fragment : List Char

/-- A decimal numeral. -/
def readDecimal (s : List Char) : Option ℕ :=
  if s ≠ [] ∧ s.all Char.isDigit = true then some (digitsValue (s.map fun c => c.toNat - 48)) else none

/-- `host:port`, where the host may be in brackets. -/
def readHostPort (s : List Char) : Option (List Char × ℕ) :=
  match s with
  | '[' :: literal =>
    match cutFirst ']' literal with
    | (host, some (':' :: port)) => (readDecimal port).map fun n => (host, n)
    | _ => none
  | _ =>
    match cutFirst ':' s with
    | (host, some port) => (readDecimal port).map fun n => (host, n)
    | _ => none

/-- A URI whose authority has user information and a port. -/
def readUri (s : List Char) : Option Uri :=
  match cutFirst ':' s with
  | (scheme, some ('/' :: '/' :: rest)) =>
    let (rest, fragment) := cutFirst '#' rest
    let (rest, query) := cutFirst '?' rest
    let (authority, _) := cutFirst '/' rest
    (cutLast '@' authority).bind fun (userinfo, hostPort) =>
      (readHostPort hostPort).map fun (host, port) =>
        { scheme, userinfo, host, port, query := query.getD [], fragment := fragment.getD [] }
  | _ => none

/-- How a host is shown in a URI: as it is, or in brackets. -/
inductive HostText : List Char → List Char → Prop where
  | bare {host : List Char} (head : host.head? ≠ some '[') (colon : ':' ∉ host) : HostText host host
  | literal {host : List Char} (closing : ']' ∉ host) : HostText ('[' :: host ++ [']']) host

variable {shown host userinfo scheme query fragment : List Char} {port : ℕ}

theorem readDecimal_toDigits {n : ℕ} : readDecimal (Nat.toDigits 10 n) = some n := by
  have digits : (Nat.toDigits 10 n).all Char.isDigit = true := List.all_eq_true.2 toDigits_isDigit
  rw [readDecimal, if_pos ⟨Nat.toDigits_ne_nil, digits⟩, digitsValue_toDigits]

theorem readDecimal_toString {n : ℕ} : readDecimal (toString n).toList = some n := by
  have digits : (toString n).toList = Nat.toDigits 10 n := Nat.toList_repr
  rw [digits, readDecimal_toDigits]

theorem readHostPort_of_hostText (text : HostText shown host) :
    readHostPort (shown ++ ':' :: Nat.toDigits 10 port) = some (host, port) := by
  cases text with
  | bare head colon =>
    have cut : cutFirst ':' (shown ++ ':' :: Nat.toDigits 10 port) = (shown, some (Nat.toDigits 10 port)) :=
      cutFirst_append colon
    unfold readHostPort
    split
    · rename_i literal opened
      cases shown with
      | nil => exact absurd opened (by simp)
      | cons c rest => exact absurd (List.cons.inj opened).1 (by simpa using head)
    · rw [cut]
      simp only [readDecimal_toDigits, Option.map_some]
  | literal closing =>
    have cut : cutFirst ']' (host ++ ']' :: ':' :: Nat.toDigits 10 port) =
        (host, some (':' :: Nat.toDigits 10 port)) := cutFirst_append closing
    have same : '[' :: host ++ [']'] ++ ':' :: Nat.toDigits 10 port =
        '[' :: (host ++ ']' :: ':' :: Nat.toDigits 10 port) := by simp
    rw [same, readHostPort, cut]
    simp only [readDecimal_toDigits, Option.map_some]

/-- The characters that end an authority. -/
def endsAuthority (c : Char) : Bool := c = '/' || c = '?' || c = '#'

theorem endsAuthority_eq_false {c : Char} : endsAuthority c = false ↔ c ≠ '/' ∧ c ≠ '?' ∧ c ≠ '#' := by
  simp [endsAuthority, and_assoc]

theorem noDelimiter_of_isDigit {c : Char} (digit : c.isDigit = true) : endsAuthority c = false ∧ c ≠ '@' := by
  rw [endsAuthority_eq_false]
  refine ⟨⟨?_, ?_, ?_⟩, ?_⟩ <;> rintro rfl <;> exact absurd digit (by decide)

/-- **A URI is read back**: no part ends the one it stands in. -/
theorem readUri_eq (hs : ':' ∉ scheme) (hu : ∀ c ∈ userinfo, endsAuthority c = false)
    (hh : ∀ c ∈ shown, endsAuthority c = false ∧ c ≠ '@') (hq : '#' ∉ query) (text : HostText shown host) :
    readUri (scheme ++ ':' :: '/' :: '/' :: (userinfo ++ '@' :: (shown ++ ':' :: Nat.toDigits 10 port) ++
      '?' :: (query ++ '#' :: fragment))) = some { scheme, userinfo, host, port, query, fragment } := by
  have hostPort : ∀ c ∈ shown ++ ':' :: Nat.toDigits 10 port, endsAuthority c = false ∧ c ≠ '@' := by
    intro c mem
    rcases List.mem_append.1 mem with mem | mem
    · exact hh c mem
    · rcases List.mem_cons.1 mem with rfl | mem
      · decide
      · exact noDelimiter_of_isDigit (toDigits_isDigit c mem)
  have authority : ∀ c, endsAuthority c = true → c ∉ userinfo ++ '@' :: (shown ++ ':' :: Nat.toDigits 10 port) := by
    intro c ends mem
    rcases List.mem_append.1 mem with mem | mem
    · exact absurd (ends.symm.trans (hu c mem)) (by decide)
    · rcases List.mem_cons.1 mem with rfl | mem
      · exact absurd ends (by decide)
      · exact absurd (ends.symm.trans (hostPort c mem).1) (by decide)
  have cutFragment : cutFirst '#' (userinfo ++ '@' :: (shown ++ ':' :: Nat.toDigits 10 port) ++
      '?' :: (query ++ '#' :: fragment)) =
      (userinfo ++ '@' :: (shown ++ ':' :: Nat.toDigits 10 port) ++ '?' :: query, some fragment) := by
    have clean : '#' ∉ userinfo ++ '@' :: (shown ++ ':' :: Nat.toDigits 10 port) ++ '?' :: query := by
      intro mem
      rcases List.mem_append.1 mem with mem | mem
      · exact authority '#' rfl mem
      · exact hq ((List.mem_cons.1 mem).resolve_left (by decide))
    rw [← cutFirst_append clean]
    simp
  have cutQuery : cutFirst '?' (userinfo ++ '@' :: (shown ++ ':' :: Nat.toDigits 10 port) ++ '?' :: query) =
      (userinfo ++ '@' :: (shown ++ ':' :: Nat.toDigits 10 port), some query) :=
    cutFirst_append (authority '?' rfl)
  have cutUser : cutLast '@' (userinfo ++ '@' :: (shown ++ ':' :: Nat.toDigits 10 port)) =
      some (userinfo, shown ++ ':' :: Nat.toDigits 10 port) :=
    cutLast_eq_some_iff.2 ⟨rfl, fun mem => (hostPort '@' mem).2 rfl⟩
  rw [readUri, cutFirst_append hs]
  simp only [cutFragment, cutQuery, cutFirst_of_notMem (authority '/' rfl), cutUser, Option.bind_some,
    readHostPort_of_hostText text, Option.map_some, Option.getD_some]

end Arena.Lib
