import Mathlib.Order.Lattice
import Arena.Model.ClientAddress

/-!
# What a client can do with `X-Forwarded-For`

A trusted proxy appends its entry to the last line of the header or as a further line, which
HTTP takes for the same list. `sourceIP` reads the first line only, so that its count from the
right starts at the proxies' entries exactly when one line arrives.
-/

namespace Arena.ForwardedFor

open Arena.Lib Arena.Model

/-- How a proxy appends its entry. -/
inductive Append where
  | sameLine | newLine

/-- The lines after one proxy. -/
def append (lines : List (List Char)) : Append × List Char → List (List Char)
  | (.newLine, entry) => lines ++ [entry]
  | (.sameLine, entry) =>
    match lines.getLast? with
    | none => [entry]
    | some last => lines.dropLast ++ [last ++ ',' :: ' ' :: entry]

/-- The lines that arrive. -/
def arrive (client : List (List Char)) (proxies : List (Append × List Char)) : List (List Char) :=
  proxies.foldl append client

/-- How many lines arrive, from the number of lines of the client and what the proxies do. -/
def lineCount (m : ℕ) (modes : List Append) : ℕ :=
  modes.foldl (fun n mode => match mode with | .sameLine => max n 1 | .newLine => n + 1) m

/-- The request with these lines of the two headers. -/
def HttpRequest.with (r : HttpRequest) (forwarded cloudflare : List (List Char)) : HttpRequest :=
  { r with header := fun name => if name = "X-Forwarded-For" then forwarded
      else if name = "CF-Connecting-IP" then cloudflare else r.header name }

/-- The gateway's configuration with `k` trusted hops. -/
def hops (k : ℕ) : GatewayConfig := { trustedProxyHops := k }

/-- The `k`-th entry from the right of the list that the lines mean, when it is an address, and
the remote host when it is not. -/
def trustedAddress (k : ℕ) (lines : List (List Char)) (remoteHost : List Char) : List Char :=
  match (([','].intercalate lines).splitOn ',').reverse[k - 1]? with
  | some entry => if isIP (trimSpace entry) then trimSpace entry else remoteHost
  | none => remoteHost

/-- What the client sent makes no difference, and the address is the one that the trusted hops
say. -/
def Unspoofed (r : HttpRequest) (client cloudflare : List (List Char))
    (proxies : List (Append × List Char)) : Prop :=
  let k := proxies.length
  let arrived := HttpRequest.with r (arrive client proxies) cloudflare
  sourceIP (hops k) arrived = sourceIP (hops k) (HttpRequest.with r (arrive [] proxies) []) ∧
    sourceIP (hops k) arrived = trustedAddress k (arrive client proxies) r.remoteHost

variable {r : HttpRequest} {client lines cloudflare : List (List Char)}
  {proxies : List (Append × List Char)} {line entry : List Char} {mode : Append}
  {modes : List Append} {k m : ℕ}

/-! ## The list that lines mean -/

/-- The entries of a line, trimmed. -/
def entries (line : List Char) : List (List Char) := (line.splitOn ',').map trimSpace

/-- The entries of the lines. -/
def held (lines : List (List Char)) : List (List Char) := lines.flatMap entries

theorem trimSpace_blank : trimSpace (' ' :: entry) = trimSpace entry := rfl

theorem entries_of_whole (whole : ',' ∉ entry) : entries entry = [trimSpace entry] := by
  rw [entries, List.splitOn_eq_singleton whole, List.map_singleton]

theorem entries_append (whole : ',' ∉ entry) :
    entries (line ++ ',' :: ' ' :: entry) = entries line ++ [trimSpace entry] := by
  have blank : ',' ∉ ' ' :: entry := by simpa using whole
  rw [entries, List.splitOn_append_cons_self, List.splitOn_eq_singleton blank, List.map_append,
    List.map_singleton, trimSpace_blank, entries]

/-- Joining lines with commas and splitting the list gives the entries of the lines. -/
theorem held_eq (ne : lines ≠ []) :
    (([','].intercalate lines).splitOn ',').map trimSpace = held lines := by
  rw [splitOn_intercalate_flatMap ne, List.map_flatMap]
  rfl

theorem held_append (whole : ',' ∉ entry) :
    held (append lines (mode, entry)) = held lines ++ [trimSpace entry] := by
  cases mode with
  | newLine => simp [append, held, entries_of_whole whole]
  | sameLine =>
    rcases List.eq_nil_or_concat' lines with rfl | ⟨before, last, rfl⟩
    · simp [append, held, entries_of_whole whole]
    · simp [append, held, entries_append whole]

/-- **The run lemma**: the proxies' entries are the last of the list. -/
theorem held_arrive (whole : ∀ proxy ∈ proxies, ',' ∉ proxy.2) :
    held (arrive client proxies) = held client ++ proxies.map fun proxy => trimSpace proxy.2 := by
  induction proxies generalizing client with
  | nil => simp [arrive]
  | cons proxy proxies ih =>
    rw [arrive, List.foldl_cons, ← arrive, ih fun p h => whole p (by simp [h]),
      held_append (whole proxy (by simp))]
    simp

theorem append_ne_nil : append lines (mode, entry) ≠ [] := by
  cases mode with
  | newLine => simp [append]
  | sameLine =>
    simp only [append]
    split <;> simp

theorem arrive_ne_nil (client : List (List Char)) (ne : proxies ≠ []) : arrive client proxies ≠ [] := by
  obtain ⟨before, ⟨mode, entry⟩, rfl⟩ := (List.eq_nil_or_concat' proxies).resolve_left ne
  rw [arrive, List.foldl_append]
  exact append_ne_nil

/-- The `k`-th entry from the right is the one of the first proxy. -/
theorem trustedAddress_arrive {remoteHost : List Char} {proxy : Append × List Char}
    (whole : ∀ p ∈ proxy :: proxies, ',' ∉ p.2) :
    trustedAddress (proxy :: proxies).length (arrive client (proxy :: proxies)) remoteHost =
      if isIP (trimSpace proxy.2) then trimSpace proxy.2 else remoteHost := by
  have last : ((([','].intercalate (arrive client (proxy :: proxies))).splitOn ',').map
      trimSpace).reverse[proxies.length]? = some (trimSpace proxy.2) := by
    rw [held_eq (arrive_ne_nil client (by simp)), held_arrive whole, List.reverse_append,
      List.getElem?_append_left (by simp)]
    simp
  rw [← List.map_reverse, List.getElem?_map, Option.map_eq_some_iff] at last
  obtain ⟨entry, here, same⟩ := last
  simp only [trustedAddress, List.length_cons, Nat.add_sub_cancel, here, same]

/-! ## What `sourceIP` reads -/

theorem get_forwarded : (HttpRequest.with r lines cloudflare).get "X-Forwarded-For" = lines.headD [] := by
  simp [HttpRequest.with, HttpRequest.get]

/-- Without the ingress header and without trust in Cloudflare, the first line decides. -/
theorem sourceIP_with (absent : r.header "X-Arena-Client-IP" = []) :
    sourceIP (hops k) (HttpRequest.with r lines cloudflare) =
      match forwardedEntry k ((lines.headD []).splitOn ',') with
      | some entry => if isIP (trimSpace entry) then trimSpace entry else r.remoteHost
      | none => r.remoteHost := by
  have ingress : (HttpRequest.with r lines cloudflare).get "X-Arena-Client-IP" = [] := by
    simp [HttpRequest.with, HttpRequest.get, absent]
  have empty : isIP (trimSpace []) = false := by decide
  simp only [sourceIP, hops, ingress, empty, get_forwarded]
  rfl

/-- The entry that the hops point at, from the trimmed entries of the line. -/
theorem forwardedEntry_trimmed {i : ℕ} (there : (entries line).length = i + k) (positive : 1 ≤ k) :
    (forwardedEntry k (line.splitOn ',')).map trimSpace = (entries line)[i]? := by
  have long : (line.splitOn ',').length = i + k := by simpa [entries] using there
  have index : (((line.splitOn ',').length : ℤ) - k).toNat = i := by omega
  have inside : 0 ≤ ((line.splitOn ',').length : ℤ) - k ∧
      ((line.splitOn ',').length : ℤ) - k < (line.splitOn ',').length := by omega
  simp only [forwardedEntry, inside, and_self, if_true, index, entries, List.getElem?_map]

theorem forwardedEntry_short (short : (entries line).length < k) :
    forwardedEntry k (line.splitOn ',') = none := by
  have len : (line.splitOn ',').length < k := by simpa [entries] using short
  have outside : ¬ (0 ≤ ((line.splitOn ',').length : ℤ) - k ∧
      ((line.splitOn ',').length : ℤ) - k < (line.splitOn ',').length) := by omega
  simp only [forwardedEntry, outside, if_false]

/-- What `sourceIP` answers when the first line has enough entries. -/
theorem sourceIP_entry {i : ℕ} {value : List Char} (absent : r.header "X-Arena-Client-IP" = [])
    (first : lines.headD [] = line) (there : (entries line).length = i + k) (positive : 1 ≤ k)
    (here : (entries line)[i]? = some value) :
    sourceIP (hops k) (HttpRequest.with r lines cloudflare) =
      if isIP value then value else r.remoteHost := by
  rw [sourceIP_with absent, first]
  have found := (forwardedEntry_trimmed there positive).trans here
  obtain ⟨entry, read, rfl⟩ := Option.map_eq_some_iff.1 found
  rw [read]

/-! ## How many lines arrive -/

theorem length_append : (append lines (mode, entry)).length =
    match mode with | .sameLine => max lines.length 1 | .newLine => lines.length + 1 := by
  cases mode with
  | newLine => simp [append]
  | sameLine =>
    rcases List.eq_nil_or_concat' lines with rfl | ⟨before, last, rfl⟩
    · rfl
    · simp [append]

theorem length_arrive (client : List (List Char)) (proxies : List (Append × List Char)) :
    (arrive client proxies).length =
    lineCount client.length (proxies.map Prod.fst) := by
  induction proxies generalizing client with
  | nil => rfl
  | cons proxy proxies ih =>
    obtain ⟨mode, entry⟩ := proxy
    rw [arrive, List.foldl_cons, ← arrive, ih, length_append]
    cases mode <;> rfl

theorem lineCount_mono {n : ℕ} (le : m ≤ n) : lineCount m modes ≤ lineCount n modes := by
  induction modes generalizing m n with
  | nil => exact le
  | cons mode modes ih =>
    cases mode with
    | sameLine => exact ih (sup_le_sup_right le 1)
    | newLine => exact ih (Nat.succ_le_succ le)

/-! ## One line -/

/-- When one line arrives, it has all that was sent before and the proxies' entries. -/
theorem sourceIP_one_line (cloudflare : List (List Char)) {proxy : Append × List Char}
    (absent : r.header "X-Arena-Client-IP" = []) (whole : ∀ p ∈ proxy :: proxies, ',' ∉ p.2)
    (one : (arrive client (proxy :: proxies)).length = 1) :
    sourceIP (hops (proxy :: proxies).length)
        (HttpRequest.with r (arrive client (proxy :: proxies)) cloudflare) =
      if isIP (trimSpace proxy.2) then trimSpace proxy.2 else r.remoteHost := by
  obtain ⟨line, only⟩ := List.length_eq_one_iff.1 one
  have all : entries line = held client ++ (proxy :: proxies).map fun p => trimSpace p.2 := by
    rw [← held_arrive whole, only]
    simp [held]
  have first : (arrive client (proxy :: proxies)).headD [] = line := by rw [only]; rfl
  refine sourceIP_entry absent first (i := (held client).length) (by simp [all]) (by simp) ?_
  rw [all, List.getElem?_append_right le_rfl]
  simp

/-- The header is not spoofed when one line arrives. -/
theorem unspoofed_of_one_line (absent : r.header "X-Arena-Client-IP" = []) (ne : proxies ≠ [])
    (whole : ∀ p ∈ proxies, ',' ∉ p.2)
    (one : lineCount client.length (proxies.map Prod.fst) = 1) :
    Unspoofed r client cloudflare proxies := by
  obtain ⟨proxy, proxies, rfl⟩ := List.exists_cons_of_ne_nil ne
  have arrived := sourceIP_one_line cloudflare absent whole ((length_arrive _ _).trans one)
  have alone : (arrive [] (proxy :: proxies)).length = 1 := by
    have least := List.length_pos_of_ne_nil (arrive_ne_nil [] ne)
    have most : (arrive [] (proxy :: proxies)).length ≤ 1 := by
      rw [length_arrive, ← one]
      exact lineCount_mono (Nat.zero_le _)
    omega
  exact ⟨arrived.trans (sourceIP_one_line [] absent whole alone).symm,
    arrived.trans (trustedAddress_arrive whole).symm⟩

/-! ## Several lines -/

/-- While more lines are appended, the first one stays. -/
theorem headD_arrive_of_two {first second : List Char} :
    (arrive (first :: second :: lines) proxies).headD [] = first := by
  induction proxies generalizing second lines with
  | nil => rfl
  | cons proxy proxies ih =>
    obtain ⟨mode, entry⟩ := proxy
    rw [arrive, List.foldl_cons, ← arrive]
    cases mode with
    | newLine => exact ih
    | sameLine =>
      rcases List.eq_nil_or_concat' lines with rfl | ⟨before, last, rfl⟩
      · exact ih
      · have split : append (first :: second :: (before ++ [last])) (.sameLine, entry) =
            first :: second :: (before ++ [last ++ ',' :: ' ' :: entry]) := by
          have last? : (first :: second :: (before ++ [last])).getLast? = some last := by
            rw [← List.cons_append, ← List.cons_append, List.getLast?_concat]
          have drop : (first :: second :: (before ++ [last])).dropLast = first :: second :: before := by
            rw [← List.cons_append, ← List.cons_append, List.dropLast_concat]
          simp [append, last?, drop]
        rw [split]
        exact ih

/-- The first line gets the entries of proxies up to the first that begins a further line. -/
theorem headD_arrive (first : List Char) (same : ∀ p ∈ proxies, p.2 = entry) (whole : ',' ∉ entry) :
    ∃ j ≤ proxies.length, entries ((arrive [first] proxies).headD []) =
        entries first ++ List.replicate j (trimSpace entry) ∧
      (j = proxies.length → (arrive [first] proxies).length = 1) := by
  induction proxies generalizing first with
  | nil => exact ⟨0, le_rfl, by simp [arrive], fun _ => rfl⟩
  | cons proxy proxies ih =>
    obtain ⟨mode, e⟩ := proxy
    obtain rfl : e = entry := same (mode, e) (by simp)
    cases mode with
    | newLine =>
      refine ⟨0, Nat.zero_le _, ?_, by simp⟩
      have stays : (arrive [first] ((.newLine, e) :: proxies)).headD [] = first := by
        rw [arrive, List.foldl_cons, ← arrive]
        exact headD_arrive_of_two
      rw [stays, List.replicate_zero, List.append_nil]
    | sameLine =>
      obtain ⟨j, le, all, one⟩ := @ih (first ++ ',' :: ' ' :: e) fun p h => same p (by simp [h])
      refine ⟨j + 1, by simpa using le, ?_, fun full => one (by simpa using full)⟩
      rw [entries_append whole, List.append_assoc] at all
      exact all

/-! ## What a client sends to be somebody else -/

/-- The address of the proxies' entries, and the one that the client claims. -/
def real : List Char := "192.0.2.44".toList
def forged : List Char := "203.0.113.99".toList

/-- A line of `k` claims. -/
def bait (k : ℕ) : List Char := [','].intercalate (List.replicate k forged)

/-- A request from the last proxy. -/
def fromProxy : HttpRequest := ⟨fun _ => [], "198.51.100.7:4711".toList⟩

theorem held_claims : held (List.replicate k forged) = List.replicate k forged := by
  have one : entries forged = [forged] := by decide +kernel
  induction k with
  | zero => rfl
  | succ k ih => rw [List.replicate_succ, held, List.flatMap_cons, ← held, ih, one]; rfl

theorem entries_bait (positive : 1 ≤ k) : entries (bait k) = List.replicate k forged := by
  have ne : List.replicate k forged ≠ [] := by
    simp only [ne_eq, List.replicate_eq_nil_iff]
    omega
  rw [entries, bait, held_eq ne, held_claims]

theorem real_address : isIP (trimSpace real) ∧ trimSpace real = real ∧ ',' ∉ real := by decide +kernel

theorem remoteHost_fromProxy : fromProxy.remoteHost = "198.51.100.7".toList := by decide +kernel

/-- A first line of claims, with fewer of the proxies' entries than there are hops, answers with
a claim. -/
theorem sourceIP_bait {j : ℕ} {first : List Char} (positive : 1 ≤ k) (short : j < k)
    (read : lines.headD [] = first)
    (all : entries first = List.replicate k forged ++ List.replicate j real) :
    sourceIP (hops k) (HttpRequest.with fromProxy lines cloudflare) = forged := by
  have claim : (entries first)[j]? = some forged := by
    rw [all, List.getElem?_append_left (by simpa using short)]
    simp [short]
  rw [sourceIP_entry rfl read (by simp [all, Nat.add_comm]) positive claim, if_pos (by decide +kernel)]

/-- A first line with too few entries answers with the last proxy. -/
theorem sourceIP_short {first : List Char} (read : lines.headD [] = first)
    (short : (entries first).length < k) :
    sourceIP (hops k) (HttpRequest.with fromProxy lines cloudflare) = fromProxy.remoteHost := by
  rw [sourceIP_with rfl, read, forwardedEntry_short short]

/-- What proxies append that all saw the real address. -/
def honest (modes : List Append) : List (Append × List Char) := modes.map fun mode => (mode, real)

theorem honest_entries (modes : List Append) : ∀ p ∈ honest modes, p.2 = real := by
  intro p mem
  obtain ⟨mode, -, rfl⟩ := List.mem_map.1 mem
  rfl

theorem honest_whole (modes : List Append) : ∀ p ∈ honest modes, ',' ∉ p.2 := fun p mem =>
  honest_entries modes p mem ▸ real_address.2.2

@[simp] theorem honest_length : (honest modes).length = modes.length := by simp [honest]
@[simp] theorem honest_modes : (honest modes).map Prod.fst = modes := by
  rw [honest, List.map_map]
  exact List.map_id modes

/-- Between its claims and honest proxies, a client whose header arrives as several lines is
somebody else. -/
theorem sourceIP_several (ne : modes ≠ []) (several : lineCount m modes ≠ 1) :
    sourceIP (hops modes.length) (HttpRequest.with fromProxy
      (arrive (List.replicate m (bait modes.length)) (honest modes)) []) ≠ real := by
  have positive : 1 ≤ modes.length := List.length_pos_of_ne_nil ne
  have other : forged ≠ real := by decide +kernel
  have claims := entries_bait positive
  have count := length_arrive (List.replicate m (bait modes.length)) (honest modes)
  rw [List.length_replicate, honest_modes] at count
  match m, several, count with
  | 0, several, count =>
    -- the first proxy begins the line, and not all the others continue it
    obtain ⟨mode, modes, rfl⟩ := List.exists_cons_of_ne_nil ne
    have begun : arrive [] (honest (mode :: modes)) = arrive [real] (honest modes) := by
      cases mode <;> rfl
    obtain ⟨j, le, all, one⟩ := headD_arrive real (honest_entries modes)
      real_address.2.2
    have short : j ≠ (honest modes).length := fun full => several (count ▸ begun ▸ one full)
    rw [List.replicate_zero, begun, sourceIP_short rfl ?_, remoteHost_fromProxy]
    · decide +kernel
    · rw [all, entries_of_whole real_address.2.2]
      rw [honest_length] at le short
      simp only [List.length_append, List.length_replicate, List.length_cons, List.length_nil]
      omega
  | 1, several, count =>
    obtain ⟨j, le, all, one⟩ := headD_arrive (bait modes.length) (honest_entries modes)
      real_address.2.2
    have short : j ≠ modes.length := fun full => several (count ▸ one (by simpa using full))
    rw [claims, real_address.2.1] at all
    rw [honest_length] at le
    exact (sourceIP_bait positive (by omega) rfl all).trans_ne other
  | m + 2, several, count =>
    have first : (arrive (List.replicate (m + 2) (bait modes.length)) (honest modes)).headD [] =
        bait modes.length := headD_arrive_of_two
    exact (sourceIP_bait (j := 0) positive (by omega) first (by simp [claims])).trans_ne other

/-- **Several lines can be spoofed**, or hide the address when the client sends none. -/
theorem spoofed_of_lines (ne : modes ≠ []) (several : lineCount m modes ≠ 1) :
    ¬ Unspoofed fromProxy (List.replicate m (bait modes.length)) [] (honest modes) := by
  obtain ⟨valid, plain, -⟩ := real_address
  rintro ⟨-, trusted⟩
  obtain ⟨mode, rest, rfl⟩ := List.exists_cons_of_ne_nil ne
  have first : trustedAddress (honest (mode :: rest)).length
      (arrive (List.replicate m (bait (mode :: rest).length)) (honest (mode :: rest)))
      fromProxy.remoteHost = real := by
    have whole : ∀ p ∈ (mode, real) :: honest rest, ',' ∉ p.2 := honest_whole (mode :: rest)
    exact (trustedAddress_arrive whole).trans (by rw [if_pos valid, plain])
  rw [first, honest_length] at trusted
  exact sourceIP_several ne several trusted

/-- **When `X-Forwarded-For` cannot be spoofed.** For each number of lines that a client sends and
each way in which the `k ≥ 1` trusted proxies append, the client's lines and its
`CF-Connecting-IP` never matter, whatever they contain, exactly when one line arrives. -/
theorem forwarded_for_unspoofed_iff (m : ℕ) (modes : List Append) (ne : modes ≠ []) :
    (∀ (r : HttpRequest) (client cloudflare : List (List Char)) (proxies : List (Append × List Char)),
      r.header "X-Arena-Client-IP" = [] → client.length = m → proxies.map Prod.fst = modes →
      (∀ p ∈ proxies, ',' ∉ p.2) → Unspoofed r client cloudflare proxies) ↔ lineCount m modes = 1 := by
  constructor
  · intro unspoofed
    by_contra several
    exact spoofed_of_lines ne several (unspoofed fromProxy _ [] _ rfl (by simp) honest_modes (honest_whole modes))
  · rintro one r client cloudflare proxies absent rfl rfl whole
    exact unspoofed_of_one_line absent (by simpa using ne) whole one

/-- One proxy that appends to the client's line. -/
theorem forwarded_for_unspoofed_iff_test :
    Unspoofed fromProxy [forged] [forged] [(.sameLine, real)] :=
  (forwarded_for_unspoofed_iff 1 [.sameLine] (by simp)).2 rfl fromProxy [forged] [forged]
    [(.sameLine, real)] rfl rfl rfl (by simpa using real_address.2.2)

/-- A proxy that appends a further line leaves the choice to the client. -/
theorem further_line_spoofed :
    ¬ ∀ (r : HttpRequest) (client cloudflare : List (List Char)) (proxies : List (Append × List Char)),
      r.header "X-Arena-Client-IP" = [] → proxies ≠ [] → (∀ p ∈ proxies, ',' ∉ p.2) →
      Unspoofed r client cloudflare proxies := by
  intro claim
  have trusted := (claim fromProxy [forged] [] [(.newLine, real)] rfl (by simp)
    (by simpa using real_address.2.2)).2
  have answer : sourceIP (hops 1) (HttpRequest.with fromProxy [forged, real] []) = forged := by
    decide +kernel
  have right : trustedAddress 1 [forged, real] fromProxy.remoteHost = real := by decide +kernel
  exact absurd (answer.symm.trans (trusted.trans right)) (by decide +kernel)

end Arena.ForwardedFor
