import Arena.Lib.Encoding
import Arena.Lib.Text
import Mathlib.Algebra.Ring.Nat

/-!
# IP networks

The networks of Python's `ipaddress`: their usable hosts, in order, and the text of an address.
A network carries that it is one: its prefix is not longer than its addresses and its own
address has no bits outside of the prefix.
-/

namespace Arena.Lib

inductive IpVersion where
  | v4 | v6
  deriving DecidableEq

/-- `max_prefixlen`. -/
def IpVersion.bits : IpVersion → ℕ
  | .v4 => 32
  | .v6 => 128

structure Network where
  version : IpVersion
  address : ℕ
  prefixlen : ℕ
  short : prefixlen ≤ version.bits
  aligned : address % 2 ^ (version.bits - prefixlen) = 0
  inside : address < 2 ^ version.bits
  deriving DecidableEq

namespace Network

variable {network : Network} {h : ℕ}

/-- The number of its addresses. -/
def size (network : Network) : ℕ := 2 ^ (network.version.bits - network.prefixlen)

/-- `hosts()`: neither the network's own address nor, for IPv4, the broadcast address, but every
address of a network of one or two. -/
def hosts (network : Network) : List ℕ :=
  if network.prefixlen = network.version.bits then [network.address]
  else if network.prefixlen + 1 = network.version.bits then [network.address, network.address + 1]
  else
    match network.version with
    | .v4 => List.range' (network.address + 1) (network.size - 2)
    | .v6 => List.range' (network.address + 1) (network.size - 1)

/-- No host is listed twice. -/
theorem hosts_nodup : network.hosts.Nodup := by
  unfold hosts
  split
  · simp
  · split
    · simp
    · split
      · exact List.nodup_range'
      · exact List.nodup_range'

end Network

/-! ## Addresses as text -/

/-- `'%x'` of a part of 16 bits. -/
def hextetText (n : ℕ) : String :=
  String.ofList ((([n / 4096 % 16, n / 256 % 16, n / 16 % 16].dropWhile (· = 0)) ++ [n % 16]).map
    (hexDigit false))

/-- The parts of an IPv6 address. -/
def hextets (n : ℕ) : List ℕ := (List.range 8).map fun i => n / 65536 ^ (7 - i) % 65536

/-- The start and the length of the first longest run of zeros, from the index, the length of the
run there and the best one before it. -/
def zeroRun : ℕ → ℕ → ℕ × ℕ → List ℕ → ℕ × ℕ
  | _, _, best, [] => best
  | i, run, best, n :: rest =>
    if n = 0 then zeroRun (i + 1) (run + 1) (if best.2 < run + 1 then (i - run, run + 1) else best) rest
    else zeroRun (i + 1) 0 best rest

/-- `_compress_hextets`. -/
def compressHextets (parts : List ℕ) : List String :=
  let (start, length) := zeroRun 0 0 (0, 0) parts
  let texts := parts.map hextetText
  if 1 < length then
    (if start = 0 then [""] else []) ++ texts.take start ++ [""] ++ texts.drop (start + length) ++
      (if start + length = parts.length then [""] else [])
  else texts

/-- `str` of an address. -/
def IpVersion.text : IpVersion → ℕ → String
  | .v4, n => ".".intercalate
      [toString (n / 16777216 % 256), toString (n / 65536 % 256), toString (n / 256 % 256), toString (n % 256)]
  | .v6, n => ":".intercalate (compressHextets (hextets n))

example : IpVersion.v6.text 0x20010db8000000000001000000000001 = "2001:db8::1:0:0:1" := by decide +kernel

/-! ## Characters of an address -/

theorem slash_notMem_hextetText {n : ℕ} : '/' ∉ (hextetText n).toList := by
  have digit : ∀ d < 16, hexDigit false d ≠ '/' := by decide
  rw [hextetText, String.toList_ofList]
  intro mem
  obtain ⟨d, mem, same⟩ := List.mem_map.1 mem
  refine digit d ?_ same
  rcases List.mem_append.1 mem with mem | mem
  · have digits := (List.dropWhile_suffix _).subset mem
    simp only [List.mem_cons, List.not_mem_nil, or_false] at digits
    omega
  · rw [List.mem_singleton.1 mem]
    omega

theorem slash_notMem_compressHextets {parts : List ℕ} : ∀ text ∈ compressHextets parts, '/' ∉ text.toList := by
  have texts : ∀ text ∈ parts.map hextetText, '/' ∉ text.toList := by
    intro text mem
    obtain ⟨n, -, rfl⟩ := List.mem_map.1 mem
    exact slash_notMem_hextetText
  have empty : '/' ∉ ("" : String).toList := by decide
  intro text mem
  simp only [compressHextets] at mem
  split at mem
  · simp only [List.mem_append] at mem
    rcases mem with (((mem | mem) | mem) | mem) | mem
    · split at mem
      · exact List.mem_singleton.1 mem ▸ empty
      · cases mem
    · exact texts text (List.mem_of_mem_take mem)
    · exact List.mem_singleton.1 mem ▸ empty
    · exact texts text (List.mem_of_mem_drop mem)
    · split at mem
      · exact List.mem_singleton.1 mem ▸ empty
      · cases mem
  · exact texts text mem

theorem slash_notMem_decimal {n : ℕ} : '/' ∉ (toString n).toList := by
  intro mem
  have digit := Nat.isDigit_of_mem_toDigits (by decide) (by decide) (Nat.toList_repr (n := n) ▸ mem)
  exact absurd digit (by decide)

/-- No address has the slash that comes before a prefix length. -/
theorem IpVersion.slash_notMem_text {version : IpVersion} {n : ℕ} : '/' ∉ (version.text n).toList := by
  cases version with
  | v4 =>
    rw [text, String.toList_intercalate]
    intro mem
    rcases mem_intercalate mem with mem | ⟨part, there, mem⟩
    · exact absurd mem (by decide)
    · simp only [List.map_cons, List.map_nil, List.mem_cons, List.not_mem_nil, or_false] at there
      rcases there with rfl | rfl | rfl | rfl <;> exact slash_notMem_decimal mem
  | v6 =>
    rw [text, String.toList_intercalate]
    intro mem
    rcases mem_intercalate mem with mem | ⟨part, there, mem⟩
    · exact absurd mem (by decide)
    · obtain ⟨text, compressed, rfl⟩ := List.mem_map.1 there
      exact slash_notMem_compressHextets text compressed mem

end Arena.Lib
