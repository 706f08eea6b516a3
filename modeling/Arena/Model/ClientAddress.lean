import Arena.Lib.Text

/-!
# The client's address

`sourceIP` of `gateway/cmd/arena-gateway/main.go`, with what it uses of Go's library: the first
line of a header, `strings.TrimSpace`, the texts that `net.ParseIP` accepts and
`net.SplitHostPort`. Text is a list of characters.
-/

namespace Arena.Model

open Arena.Lib

/-! ## IP addresses as text -/

def isDigit (c : Char) : Bool := '0' ≤ c && c ≤ '9'

def isHex (c : Char) : Bool := isDigit c || ('a' ≤ c && c ≤ 'f') || ('A' ≤ c && c ≤ 'F')

def decimal (s : List Char) : ℕ := s.foldl (fun n c => 10 * n + (c.toNat - 48)) 0

/-- One field of a dotted address: at most 255, without a leading zero. -/
def isOctet (s : List Char) : Bool :=
  s ≠ [] && s.all isDigit && (s.length = 1 || s.head? ≠ some '0') && decimal s ≤ 255

/-- `netip.parseIPv4`. -/
def isIPv4 (s : List Char) : Bool := (s.splitOn '.').length = 4 && (s.splitOn '.').all isOctet

/-- One field of an IPv6 address. -/
def isHextet (s : List Char) : Bool := 1 ≤ s.length && s.length ≤ 4

/-- All eight groups are given, or fewer and an ellipsis. -/
def groupsComplete (left : ℕ) (ellipsis : Bool) : Bool := if left = 0 then !ellipsis else ellipsis

/-- The loop of `netip.parseIPv6`, with the number of groups left and whether the ellipsis was
read. -/
def isIPv6Groups : ℕ → Bool → List Char → Bool
  | 0, _, _ => false
  | left + 1, ellipsis, s =>
    isHextet (s.takeWhile isHex) &&
      match s.dropWhile isHex with
      | [] => groupsComplete left ellipsis
      | '.' :: _ =>
        -- a dotted address in the place of the last two groups
        (ellipsis || left = 1) && 1 ≤ left && isIPv4 s && groupsComplete (left - 1) ellipsis
      | ':' :: ':' :: rest =>
        !ellipsis && if rest = [] then groupsComplete left true else isIPv6Groups left true rest
      | ':' :: rest => rest ≠ [] && isIPv6Groups left ellipsis rest
      | _ => false

/-- `netip.parseIPv6` of a text without a zone. -/
def isIPv6 : List Char → Bool
  | [':', ':'] => true
  | ':' :: ':' :: rest => isIPv6Groups 8 true rest
  | s => isIPv6Groups 8 false s

/-- `net.ParseIP(s) != nil`; it refuses a zone. -/
def isIP (s : List Char) : Bool :=
  match s.find? fun c => c = '.' || c = ':' || c = '%' with
  | some '.' => isIPv4 s
  | some ':' => '%' ∉ s && isIPv6 s
  | _ => false

/-! ## Requests -/

/-- The characters that `strings.TrimSpace` removes (`unicode.IsSpace`). -/
def isGoSpace (c : Char) : Bool := isSpace c && !(28 ≤ c.toNat && c.toNat ≤ 31)

/-- `strings.TrimSpace`. -/
def trimSpace (s : List Char) : List Char := strip isGoSpace s

/-- A request, as far as `sourceIP` reads it: the lines of each header, in order, and the remote
address of the connection. -/
structure HttpRequest where
  header : String → List (List Char)
  remoteAddr : List Char

/-- `Header.Get`: the first line of a header. -/
def HttpRequest.get (r : HttpRequest) (name : String) : List Char := (r.header name).headD []

/-- `net.SplitHostPort`, the host. -/
def splitHost (hostport : List Char) : Option (List Char) :=
  match cutLast ':' hostport with
  | none => none
  | some (before, port) =>
    match before with
    | '[' :: inner =>
      let host := inner.takeWhile (· ≠ ']')
      if inner = host ++ [']'] ∧ '[' ∉ inner ++ port ∧ ']' ∉ port then some host else none
    | _ => if ':' ∈ before ∨ '[' ∈ before ++ port ∨ ']' ∈ before ++ port then none else some before

/-- The host of the connection's remote address, or the address. -/
def HttpRequest.remoteHost (r : HttpRequest) : List Char := (splitHost r.remoteAddr).getD r.remoteAddr

structure GatewayConfig where
  trustProxyHeaders : Bool := true
  trustedProxyHops : ℤ := 1
  trustCloudflare : Bool := false

/-- The entry that the trusted hops point at. -/
def forwardedEntry (hops : ℤ) (forwarded : List (List Char)) : Option (List Char) :=
  let index := forwarded.length - hops
  if 0 ≤ index ∧ index < forwarded.length then forwarded[index.toNat]? else none

/-- `sourceIP`. -/
def sourceIP (cfg : GatewayConfig) (r : HttpRequest) : List Char :=
  if cfg.trustProxyHeaders then
    if isIP (trimSpace (r.get "X-Arena-Client-IP")) then trimSpace (r.get "X-Arena-Client-IP")
    else if cfg.trustCloudflare && isIP (trimSpace (r.get "CF-Connecting-IP")) then
      trimSpace (r.get "CF-Connecting-IP")
    else
      match forwardedEntry cfg.trustedProxyHops ((r.get "X-Forwarded-For").splitOn ',') with
      | some entry => if isIP (trimSpace entry) then trimSpace entry else r.remoteHost
      | none => r.remoteHost
  else r.remoteHost

example : sourceIP {} ⟨fun name => if name = "X-Forwarded-For" then
    ["203.0.113.99, 192.0.2.44".toList] else [], "198.51.100.7:4711".toList⟩ = "192.0.2.44".toList := by
  decide +kernel

end Arena.Model
