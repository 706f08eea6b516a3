import Arena.Model.Authority

/-!
# The public origin, parsed twice

`public_base_url` gives a URL that `public_endpoint` built, and `_proxy_endpoint` parses that again.
The second parse gives what the first one gave for every host but one with a bracket and no colon,
which is shown without brackets of its own: a literal of a future version, or a text behind one.
-/

namespace Arena.Origin

open Arena.Lib Arena.Model

/-- The text that `public_base_url` parses. -/
def originText (cfg : Settings) (r : Request) : String :=
  if cfg.publicUrl ≠ "" ∧ cfg.publicUrl.toLower ≠ "auto" then cfg.publicUrl else r.origin cfg

/-- `_proxy_endpoint`, from the URL: an adaptive node parses it. -/
def proxyEndpointAt (split : UrlSplit) (node : Node) (baseUrl : String) : Except HttpError ProxyEndpoint := do
  let flag ← node.adaptiveFlag
  if flag || node.host.toLower = "auto" then
    let origin ← publicEndpoint split baseUrl
    .ok origin.proxyEndpoint
  else .ok node.fixedEndpoint

def Adaptive (node : Node) : Prop :=
  ∃ flag, node.adaptiveFlag = .ok flag ∧ (flag = true ∨ node.host.toLower = "auto")

def schemeOf (security : Security) : String := if security = .tls then "https" else "http"

/-- What holds of an endpoint that a text gave. -/
structure Normal (split : UrlSplit) (u : String) (base : PublicEndpoint) : Prop where
  /-- The base URL gives the same endpoint. -/
  fixed : publicEndpoint split base.baseUrl = .ok base
  /-- The authority under its scheme gives the host and the port. -/
  authority : ∃ parsed given, split (schemeOf base.security ++ "://" ++ base.authority) = .ok parsed ∧
    parsed.hostname = some base.host ∧ parsed.port = .ok given ∧
    portOf (schemeOf base.security) given = base.port
  /-- For every request with this origin, an adaptive node's links go where the subscription URL goes. -/
  links : ∀ cfg request node token, originText cfg request = u → Adaptive node →
    ∃ url shown endpoint, publicBaseUrl cfg split request = .ok url ∧
      publicEndpoint split (url ++ "/sub/" ++ token) = .ok shown ∧
      proxyEndpointAt split node url = .ok endpoint ∧ endpoint.host = shown.host ∧
      endpoint.port = shown.port ∧ endpoint.security = shown.security

variable {tables : CaseTables} {u : String} {base : PublicEndpoint} {split : UrlSplit}

/-- The endpoint that a link is written from, where the base URL is accepted. -/
theorem proxyEndpointAt_eq {url : String} (accepted : publicEndpoint split url = .ok base) (node : Node) :
    proxyEndpointAt split node url = proxyEndpoint node (some base) := by
  unfold proxyEndpointAt proxyEndpoint
  rw [accepted]
  cases node.adaptiveFlag with
  | error e => rfl
  | ok flag =>
    dsimp only [bind, Except.bind]
    split <;> rfl

theorem proxyEndpoint_adaptive {node : Node} (adaptive : Adaptive node) :
    proxyEndpoint node (some base) = .ok base.proxyEndpoint := by
  obtain ⟨flag, read, follows⟩ := adaptive
  exact bind_eq_ok.2 ⟨flag, read, by simp [follows]⟩

/-- The parts that an accepted text is built from. -/
structure Parts (tables : CaseTables) (u : String) (base : PublicEndpoint) (scheme : String) (port : ℕ) : Prop where
  known : scheme = "http" ∨ scheme = "https"
  inside : Inside (netlocOf u)
  located : Located tables.toUnicodeTables (netlocOf u)
  filled : loweredHost tables.toUnicodeTables (hostInfo (netlocOf u)).1 ≠ []
  small : port ≤ 65535
  positive : port ≠ 0
  built : base = endpointOf scheme
    (String.ofList (loweredHost tables.toUnicodeTables (hostInfo (netlocOf u)).1)) port

theorem parts_of_accepted (accepted : publicEndpoint (urlsplit tables.toUnicodeTables) u = .ok base) :
    ∃ scheme port, Parts tables u base scheme port := by
  obtain ⟨parsed, given, split, known, named, read, built⟩ := publicEndpoint_eq_ok.1 accepted
  obtain ⟨inside, located, hostname, port⟩ := urlsplit_named split named
  have filled : (hostInfo (netlocOf u)).1 ≠ [] := by
    intro none
    rw [hostname, hostName_eq, if_pos none] at named
    exact named rfl
  rw [hostname, hostName_eq, if_neg filled, Option.getD_some] at named built
  rw [port] at read
  have default : defaultPort parsed.scheme ≤ 65535 ∧ defaultPort parsed.scheme ≠ 0 := by
    unfold defaultPort
    split <;> decide
  refine ⟨parsed.scheme, _, known, inside, located, fun empty => named (by rw [empty]), ?_, ?_, built⟩
  · unfold portOf
    split
    · exact default.1
    · cases given with
      | none => simp
      | some n => exact portNumber_le read
  · unfold portOf
    split
    · exact default.2
    · assumption

/-- **The endpoint of a built URL** is the one that it was built from. -/
theorem Parts.again {scheme rest : String} {port : ℕ} (parts : Parts tables u base scheme port)
    (clean : Clean (hostInfo (netlocOf u)).1) (path : rest = "" ∨ rest.toList.head? = some '/') :
    publicEndpoint (urlsplit tables.toUnicodeTables) (base.baseUrl ++ rest) = .ok base := by
  obtain ⟨parsed, given, split, same, hostname, read, back⟩ := urlsplit_rebuilt parts.known parts.inside
    parts.located clean parts.filled parts.small parts.positive path
  rw [parts.built]
  refine publicEndpoint_eq_ok.2 ⟨parsed, given, split, by rw [same]; exact parts.known, ?_, read, ?_⟩
  · rw [hostname, Option.getD_some]
    intro empty
    have back := congrArg String.toList empty
    rw [String.toList_ofList] at back
    exact parts.filled back
  · rw [same, hostname, Option.getD_some, back]

/-- The text that `_proxy_endpoint` parses is a base URL. -/
theorem publicBaseUrl_originText {cfg : Settings} {request : Request} (same : originText cfg request = u)
    (accepted : publicEndpoint split u = .ok base) : publicBaseUrl cfg split request = .ok base.baseUrl :=
  bind_eq_ok.2 ⟨base, by rw [← same] at accepted; exact accepted, rfl⟩

/-- **Every accepted spelling is a fixed point after one pass**, unless the host has a bracket and no colon. -/
theorem origin_normal_iff (tables : CaseTables) (u : String) (base : PublicEndpoint)
    (accepted : publicEndpoint (urlsplit tables.toUnicodeTables) u = .ok base) :
    Normal (urlsplit tables.toUnicodeTables) u base ↔ Clean (hostInfo (netlocOf u)).1 := by
  obtain ⟨scheme, port, parts⟩ := parts_of_accepted accepted
  constructor
  · intro normal
    by_contra unclean
    obtain ⟨parsed, given, located, -⟩ := publicEndpoint_eq_ok.1 normal.fixed
    have odd := @odd_rebuilt tables (netlocOf u) scheme port parts.located unclean
    have refused := @urlsplit_unbalanced tables.toUnicodeTables scheme _ "" parts.known
      (inside_rebuilt parts.inside) (.inl rfl) odd
    rw [String.append_empty] at refused
    rw [parts.built] at located
    cases refused.symm.trans located
  · intro clean
    have fixed := parts.again clean (.inl rfl)
    rw [String.append_empty] at fixed
    refine ⟨fixed, ?_, fun cfg request node token same adaptive => ?_⟩
    · obtain ⟨parsed, given, located, -, hostname, read, back⟩ := urlsplit_rebuilt parts.known parts.inside
        parts.located clean parts.filled parts.small parts.positive (.inl rfl)
      rw [String.append_empty] at located
      have same : schemeOf base.security = scheme := by
        rw [parts.built]
        rcases parts.known with rfl | rfl <;> rfl
      rw [same, parts.built]
      exact ⟨parsed, given, located, hostname, read, back⟩
    · refine ⟨base.baseUrl, base, base.proxyEndpoint, publicBaseUrl_originText same accepted, ?_, ?_, rfl, rfl, rfl⟩
      · rw [String.append_assoc]
        exact parts.again clean (.inr (by simp))
      · rw [proxyEndpointAt_eq fixed, proxyEndpoint_adaptive adaptive]

/-- The tables of ASCII. -/
def asciiCaseTables : CaseTables where
  toUnicodeTables := asciiTables
  lower_lower s := by
    change (s.map Char.toLower).map Char.toLower = s.map Char.toLower
    rw [List.map_map]
    exact List.map_congr_left fun c _ => toLower_toLower c
  lower_keeps s c delimiter := by
    have fixed : c.toNat < 97 ∧ c.toLower = c := by
      simp only [List.mem_cons, List.not_mem_nil, or_false] at delimiter
      rcases delimiter with rfl | rfl | rfl | rfl | rfl | rfl <;> decide
    constructor
    · intro mem
      obtain ⟨d, there, lowered⟩ := List.mem_map.1 mem
      rwa [← eq_of_toLower lowered fixed.1]
    · exact fun mem => List.mem_map.2 ⟨c, mem, fixed.2⟩
  lower_prefix a s _ := ⟨s.map Char.toLower, List.map_append, List.map_eq_nil_iff⟩
  nfkc_ascii _ _ := rfl
  nfkc_delimiter s c _ := by
    change c ∈ s ↔ ∃ d ∈ s, c ∈ [d]
    simp
  lower_nfkc s d mem c delimiter made := by
    obtain rfl := List.mem_singleton.1 made
    refine asciiTables.lower_delimiter s c mem ?_
    simp only [List.mem_cons, List.not_mem_nil, or_false] at delimiter ⊢
    tauto

/-- User info, capitals, a zone and a path: the host comes back. -/
theorem origin_normal_zone : ∃ base,
    publicEndpoint (urlsplit asciiTables) "HTTPS://User@[2001:DB8::1%Eth0]:8443/x" = .ok base ∧
      Normal (urlsplit asciiTables) "HTTPS://User@[2001:DB8::1%Eth0]:8443/x" base := by
  cases given : publicEndpoint (urlsplit asciiTables) "HTTPS://User@[2001:DB8::1%Eth0]:8443/x" with
  | error e =>
    have accepted : (publicEndpoint (urlsplit asciiTables) "HTTPS://User@[2001:DB8::1%Eth0]:8443/x").isOk = true := by
      decide +kernel
    rw [given] at accepted
    cases accepted
  | ok base =>
    exact ⟨base, rfl, (origin_normal_iff asciiCaseTables _ base given).2 (by decide +kernel)⟩

/-- A literal of a future version with a bracket in it: its base URL is refused. -/
theorem future_not_normal :
    ¬ ∀ (tables : CaseTables) (u : String) (base : PublicEndpoint),
      publicEndpoint (urlsplit tables.toUnicodeTables) u = .ok base →
        Normal (urlsplit tables.toUnicodeTables) u base := by
  intro claim
  have input : ((publicEndpoint (urlsplit asciiTables) "http://[v1.[x]").toOption.any fun base =>
      base.baseUrl = "http://v1.[x" ∧ (publicEndpoint (urlsplit asciiTables) base.baseUrl).isOk = false) = true := by
    decide +kernel
  obtain ⟨base, accepted, facts⟩ := (Option.any_eq_true _ _).1 input
  obtain ⟨-, refused⟩ := of_decide_eq_true facts
  have fixed : publicEndpoint (urlsplit asciiTables) base.baseUrl = .ok base :=
    (claim asciiCaseTables _ base (toOption_eq_some.1 accepted)).fixed
  rw [fixed] at refused
  cases refused

end Arena.Origin
