import Arena.Lib.Decoding
import Arena.Model.Links
import Arena.Model.Urls

/-!
# What a client reads off a subscription

A reader of the two kinds of links, and the round trip: each line of a subscription document is
one link, and reading the link gives the fields that it was made of. A link of VLESS does not
tell a host in brackets from the same host without them.
-/

namespace Arena.Subscriptions

open Arena.Lib Arena.Model

/-! ## Reading links -/

/-- What a link tells. -/
structure ProxyLink where
  protocol : Protocol
  credential : String
  host : String
  port : ℕ
  security : Security
  sni : Option String
  websocketHost : String
  path : String
  fingerprint : String
  alpn : String
  label : String

/-- What the parts of a link of VLESS over WebSocket tell. -/
def vlessLink (uri : Uri) (params : List (String × String)) (label : String) : Option ProxyLink := do
  let security ← params.lookup "security"
  let network ← params.lookup "type"
  let websocketHost ← params.lookup "host"
  let path ← params.lookup "path"
  let fingerprint ← params.lookup "fp"
  let alpn ← params.lookup "alpn"
  if uri.scheme = "vless".toList ∧ network = "ws" then
    some
      { protocol := .vless
        credential := String.ofList uri.userinfo
        host := String.ofList uri.host
        port := uri.port
        security := if security = "tls" then .tls else .none
        sni := params.lookup "sni"
        websocketHost, path, fingerprint, alpn, label }
  else none

/-- A link of VLESS: a URI with a query and a percent-encoded fragment. -/
def decodeVless (link : List Char) : Option ProxyLink :=
  (readUri link).bind fun uri => (parseQuery uri.query).bind fun params =>
    (unquote uri.fragment).bind fun label => vlessLink uri params label

/-- What the members of a link of VMess over WebSocket tell. -/
def vmessLink (members : List (String × String)) : Option ProxyLink := do
  let label ← members.lookup "ps"
  let host ← members.lookup "add"
  let numeral ← members.lookup "port"
  let port ← readDecimal numeral.toList
  let credential ← members.lookup "id"
  let network ← members.lookup "net"
  let websocketHost ← members.lookup "host"
  let path ← members.lookup "path"
  let tls ← members.lookup "tls"
  let fingerprint ← members.lookup "fp"
  let alpn ← members.lookup "alpn"
  if network = "ws" then
    some
      { protocol := .vmess
        security := if tls = "tls" then .tls else .none
        sni := members.lookup "sni"
        credential, host, port, websocketHost, path, fingerprint, alpn, label }
  else none

/-- What follows the scheme of a link of VMess: the base64 of a JSON object. -/
def decodeVmess (text : List Char) : Option ProxyLink :=
  (base64Decode '-' '_' text).bind fun bytes => (utf8Decode bytes).bind fun json =>
    (readJsonObject json.toList).bind vmessLink

/-- A link of either kind. -/
def decodeLink (link : String) : Option ProxyLink :=
  if "vmess://".toList <+: link.toList then decodeVmess (link.toList.drop 8) else decodeVless link.toList

/-! ## What is read -/

/-- A host without the brackets around it. -/
def bareHost (host : List Char) : List Char :=
  match host with
  | '[' :: rest => if rest.getLast? = some ']' then rest.dropLast else host
  | _ => host

/-- What the link of a key tells. -/
def linkOf (user : User) (node : Node) (key : AccessKey) (endpoint : ProxyEndpoint) : ProxyLink where
  protocol := node.protocol
  credential := key.credential
  host := if node.protocol = .vless then String.ofList (bareHost endpoint.host.toList) else endpoint.host
  port := endpoint.port
  security := endpoint.security
  sni := if node.protocol = .vless ∧ endpoint.security ≠ .tls then none else some endpoint.sni
  websocketHost := endpoint.websocketHost
  path := publicWsPath node user
  fingerprint := node.fingerprint.text
  alpn := node.alpn
  label := linkName user node

variable {user : User} {node : Node} {key : AccessKey} {base : Option PublicEndpoint}
  {endpoint : ProxyEndpoint} {uri : String}

/-- The members of a link of VMess. -/
def vmessMembers (user : User) (node : Node) (key : AccessKey) (endpoint : ProxyEndpoint) :
    List (String × String) :=
  [("v", "2"), ("ps", linkName user node), ("add", endpoint.host), ("port", toString endpoint.port),
    ("id", key.credential), ("aid", "0"), ("scy", "auto"), ("net", "ws"), ("type", "none"),
    ("host", endpoint.websocketHost), ("path", publicWsPath node user),
    ("tls", if endpoint.security = .tls then "tls" else ""), ("sni", endpoint.sni), ("alpn", node.alpn),
    ("fp", node.fingerprint.text)]

theorem vmessUri_eq (rendered : vmessUri user node key base = .ok uri) :
    ∃ endpoint, proxyEndpoint node base = .ok endpoint ∧ uri.toList = "vmess://".toList ++
      (b64urlUnpadded (utf8 (jsonObject (vmessMembers user node key endpoint)))).toList := by
  obtain ⟨endpoint, found, rendered⟩ := bind_eq_ok.1 rendered
  obtain rfl := Except.ok.inj rendered
  exact ⟨endpoint, found, String.toList_append⟩

theorem security_tls {security : Security} :
    (if (if security = .tls then "tls" else "") = "tls" then Security.tls else .none) = security := by
  cases security <;> rfl

theorem decodeVmess_eq {members : List (String × String)} :
    decodeVmess (b64urlUnpadded (utf8 (jsonObject members))).toList = vmessLink members := by
  rw [decodeVmess, base64Decode_b64url, Option.bind_some, utf8Decode_utf8, Option.bind_some,
    readJsonObject_jsonObject, Option.bind_some]

theorem vmessLink_eq (vmess : node.protocol = .vmess) :
    vmessLink (vmessMembers user node key endpoint) = some (linkOf user node key endpoint) := by
  have label : (vmessMembers user node key endpoint).lookup "ps" = some (linkName user node) := rfl
  have host : (vmessMembers user node key endpoint).lookup "add" = some endpoint.host := rfl
  have numeral : (vmessMembers user node key endpoint).lookup "port" = some (toString endpoint.port) := rfl
  have credential : (vmessMembers user node key endpoint).lookup "id" = some key.credential := rfl
  have network : (vmessMembers user node key endpoint).lookup "net" = some "ws" := rfl
  have websocketHost : (vmessMembers user node key endpoint).lookup "host" = some endpoint.websocketHost := rfl
  have path : (vmessMembers user node key endpoint).lookup "path" = some (publicWsPath node user) := rfl
  have tls : (vmessMembers user node key endpoint).lookup "tls" =
      some (if endpoint.security = .tls then "tls" else "") := rfl
  have sni : (vmessMembers user node key endpoint).lookup "sni" = some endpoint.sni := rfl
  have alpn : (vmessMembers user node key endpoint).lookup "alpn" = some node.alpn := rfl
  have fingerprint : (vmessMembers user node key endpoint).lookup "fp" = some node.fingerprint.text := rfl
  simp only [vmessLink, label, host, numeral, credential, network, websocketHost, path, tls, sni, alpn,
    fingerprint, Option.bind_eq_bind, Option.bind_some, readDecimal_toString, security_tls]
  simp [linkOf, vmess]

/-- **A link of VMess is read back.** -/
theorem decodeLink_vmessUri (vmess : node.protocol = .vmess)
    (rendered : vmessUri user node key base = .ok uri) :
    ∃ endpoint, proxyEndpoint node base = .ok endpoint ∧
      decodeLink uri = some (linkOf user node key endpoint) := by
  obtain ⟨endpoint, found, text⟩ := vmessUri_eq rendered
  refine ⟨endpoint, found, ?_⟩
  have dropped : uri.toList.drop 8 =
      (b64urlUnpadded (utf8 (jsonObject (vmessMembers user node key endpoint)))).toList := by
    rw [text]
    exact List.drop_left' rfl
  rw [decodeLink, if_pos (by rw [text]; exact List.prefix_append _ _), dropped, decodeVmess_eq,
    vmessLink_eq vmess]

/-! ## VLESS -/

/-- The parameters of a link of VLESS. -/
def vlessParams (user : User) (node : Node) (endpoint : ProxyEndpoint) : List (String × String) :=
  [("encryption", "none"), ("security", endpoint.security.text), ("type", "ws"),
    ("host", endpoint.websocketHost), ("path", publicWsPath node user),
    ("fp", node.fingerprint.text), ("alpn", node.alpn)] ++
      if endpoint.security = .tls then [("sni", endpoint.sni)] else []

/-- How a link of VLESS shows a host. -/
def shownHost (host : List Char) : List Char :=
  if host.contains ':' && host.head? != some '[' then '[' :: host ++ [']'] else host

theorem shownHost_eq {host : String} :
    (if host.toList.contains ':' && host.toList.head? != some '[' then "[" ++ host ++ "]" else host).toList =
      shownHost host.toList := by
  unfold shownHost
  split
  · simp
  · rfl

theorem uriText {scheme userinfo host port query fragment : String} :
    (scheme ++ userinfo ++ "@" ++ host ++ ":" ++ port ++ "?" ++ query ++ "#" ++ fragment).toList =
      scheme.toList ++ (userinfo.toList ++ '@' :: (host.toList ++ ':' :: port.toList) ++
        '?' :: (query.toList ++ '#' :: fragment.toList)) := by
  simp

theorem vlessUri_eq (rendered : vlessUri user node key base = .ok uri) :
    ∃ endpoint, proxyEndpoint node base = .ok endpoint ∧
      uri.toList = "vless".toList ++ ':' :: '/' :: '/' :: (key.credential.toList ++ '@' ::
        (shownHost endpoint.host.toList ++ ':' :: Nat.toDigits 10 endpoint.port) ++
          '?' :: ((urlencode (vlessParams user node endpoint)).toList ++ '#' ::
            (quote (linkName user node)).toList)) := by
  obtain ⟨endpoint, found, rendered⟩ := bind_eq_ok.1 rendered
  obtain rfl := Except.ok.inj rendered
  refine ⟨endpoint, found, ?_⟩
  have digits : (toString endpoint.port).toList = Nat.toDigits 10 endpoint.port := Nat.toList_repr
  rw [uriText, shownHost_eq, digits]
  rfl

theorem vlessLink_eq {uri : Uri} (vless : node.protocol = .vless) (scheme : uri.scheme = "vless".toList)
    (userinfo : uri.userinfo = key.credential.toList) (host : uri.host = bareHost endpoint.host.toList)
    (port : uri.port = endpoint.port) :
    vlessLink uri (vlessParams user node endpoint) (linkName user node) = some (linkOf user node key endpoint) := by
  have security : (vlessParams user node endpoint).lookup "security" = some endpoint.security.text := rfl
  have network : (vlessParams user node endpoint).lookup "type" = some "ws" := rfl
  have websocketHost : (vlessParams user node endpoint).lookup "host" = some endpoint.websocketHost := rfl
  have path : (vlessParams user node endpoint).lookup "path" = some (publicWsPath node user) := rfl
  have fingerprint : (vlessParams user node endpoint).lookup "fp" = some node.fingerprint.text := rfl
  have alpn : (vlessParams user node endpoint).lookup "alpn" = some node.alpn := rfl
  have sni : (vlessParams user node endpoint).lookup "sni" =
      if endpoint.security = .tls then some endpoint.sni else none := by
    unfold vlessParams
    split <;> rfl
  have tls : (if endpoint.security.text = "tls" then Security.tls else .none) = endpoint.security := by
    cases endpoint.security <;> rfl
  simp only [vlessLink, security, network, websocketHost, path, fingerprint, alpn, sni, scheme, userinfo, host,
    port, Option.bind_eq_bind, Option.bind_some, tls]
  simp [linkOf, vless]

/-- **A link of VLESS is read back**, where its credential and its host end neither themselves nor
a part after them. -/
theorem decodeLink_vlessUri (vless : node.protocol = .vless)
    (credential : ∀ c ∈ key.credential.toList, endsAuthority c = false)
    (host : ∀ endpoint, proxyEndpoint node base = .ok endpoint →
      (∀ c ∈ shownHost endpoint.host.toList, endsAuthority c = false ∧ c ≠ '@') ∧
        HostText (shownHost endpoint.host.toList) (bareHost endpoint.host.toList))
    (rendered : vlessUri user node key base = .ok uri) :
    ∃ endpoint, proxyEndpoint node base = .ok endpoint ∧
      decodeLink uri = some (linkOf user node key endpoint) := by
  obtain ⟨endpoint, found, text⟩ := vlessUri_eq rendered
  refine ⟨endpoint, found, ?_⟩
  obtain ⟨plain, shown⟩ := host endpoint found
  have scheme : ':' ∉ "vless".toList := by decide +kernel
  have query : '#' ∉ (urlencode (vlessParams user node endpoint)).toList := by
    intro mem
    rcases urlencode_quoted _ mem with h | h | h | h <;> exact absurd h (by decide)
  have other : ¬ "vmess://".toList <+: uri.toList := by
    rw [text]
    rintro ⟨rest, same⟩
    have second : some 'm' = some 'l' := congrArg (fun s => s[1]?) same
    exact absurd second (by decide)
  have read : readUri uri.toList = some
      { scheme := "vless".toList, userinfo := key.credential.toList, host := bareHost endpoint.host.toList,
        port := endpoint.port, query := (urlencode (vlessParams user node endpoint)).toList,
        fragment := (quote (linkName user node)).toList } := by
    rw [text]
    exact readUri_eq scheme credential plain query shown
  rw [decodeLink, if_neg other, decodeVless, read, Option.bind_some, parseQuery_urlencode, Option.bind_some,
    unquote_quote, Option.bind_some]
  exact vlessLink_eq vless rfl rfl rfl rfl

/-! ## Hosts -/

/-- A DNS name or an address. -/
def PlainHost (host : List Char) : Prop := ∀ c ∈ host, c ∉ ['/', '?', '#', '@', '[', ']', '\n']

/-- The host of a node, in brackets or not. -/
def IsHost (host : List Char) : Prop := PlainHost host ∨ ∃ inner, PlainHost inner ∧ host = '[' :: inner ++ [']']

/-- What a link of VLESS can show: it ends nothing, and the host is found in what is shown. -/
structure LinkHost (host : List Char) : Prop where
  plain : ∀ c ∈ host, c ∉ ['/', '?', '#', '@', '\n']
  shown : HostText (shownHost host) (bareHost host)

theorem linkHost_of_publicHost {host : List Char} (shape : PublicHost host) : LinkHost host := by
  refine ⟨shape.plain, ?_⟩
  have bare : bareHost host = host := by
    unfold bareHost
    split
    · rename_i rest
      exact absurd rfl shape.head
    · rfl
  rw [bare]
  by_cases colon : ':' ∈ host
  · have shown : shownHost host = '[' :: host ++ [']'] := by
      simp [shownHost, colon, shape.head]
    rw [shown]
    exact .literal (shape.closing colon)
  · have shown : shownHost host = host := by simp [shownHost, colon]
    rw [shown]
    exact .bare shape.head colon

theorem linkHost_of_isHost {host : List Char} (valid : IsHost host) : LinkHost host := by
  rcases valid with plain | ⟨inner, plain, rfl⟩
  · refine linkHost_of_publicHost ⟨fun c mem bad => plain c mem ?_, fun opening => ?_, fun _ closing => ?_⟩
    · simp only [List.mem_cons, List.not_mem_nil, or_false] at bad ⊢
      tauto
    · exact plain _ (List.mem_of_mem_head? opening) (by simp)
    · exact plain _ closing (by simp)
  · have shown : shownHost ('[' :: inner ++ [']']) = '[' :: inner ++ [']'] := by simp [shownHost]
    have bare : bareHost ('[' :: inner ++ [']']) = inner := by simp [bareHost]
    refine ⟨fun c mem bad => ?_, ?_⟩
    · simp only [List.mem_append, List.mem_cons, List.not_mem_nil, or_false] at mem bad
      rcases mem with (rfl | mem) | rfl
      · exact absurd bad (by decide)
      · refine plain c mem ?_
        simp only [List.mem_cons, List.not_mem_nil, or_false]
        tauto
      · exact absurd bad (by decide)
    · rw [shown, bare]
      exact .literal fun closing => plain _ closing (by simp)

theorem LinkHost.shown_plain {host : List Char} (valid : LinkHost host) :
    ∀ c ∈ shownHost host, c ∉ ['/', '?', '#', '@', '\n'] := by
  unfold shownHost
  split
  · intro c mem
    simp only [List.mem_append, List.mem_cons, List.not_mem_nil, or_false] at mem
    rcases mem with (rfl | mem) | rfl
    · decide
    · exact valid.plain c mem
    · decide
  · exact valid.plain

/-! ## Documents -/

/-- The keys that have a link. -/
def hasLink (k : AccessKey × Node) : Bool := k.2.enabled && k.1.enabled && k.2.protocol.isProxy

/-- A key with a link, as the code makes it: the node's metadata are an object, the credential of
VLESS is a UUID or any text that ends no part of a URI, and the host of a node that is not adaptive
is a name or an address. -/
structure LinkKey (key : AccessKey) (node : Node) : Prop where
  metadata : node.metadata.isObject = true
  credential : node.protocol = .vless → ∀ c ∈ key.credential.toList, c ∉ ['/', '?', '#', '\n']
  host : node.adaptiveFlag = .ok false → node.host.toLower ≠ "auto" → IsHost node.host.toList

variable {origin : PublicEndpoint} {now : Instant} {keys : List (AccessKey × Node)}

theorem LinkKey.linkHost (valid : LinkKey key node) (shape : PublicHost origin.host.toList)
    (found : proxyEndpoint node (some origin) = .ok endpoint) : LinkHost endpoint.host.toList := by
  obtain ⟨flag, flagged, found⟩ := bind_eq_ok.1 found
  obtain rfl := Except.ok.inj found
  by_cases adaptive : (flag || node.host.toLower = "auto") = true
  · rw [if_pos adaptive]
    exact linkHost_of_publicHost shape
  · rw [if_neg adaptive]
    simp only [Bool.or_eq_true, decide_eq_true_eq, not_or, Bool.not_eq_true] at adaptive
    exact linkHost_of_isHost (valid.host (adaptive.1 ▸ flagged) adaptive.2)

/-- A link is one line, and the fields that it was made of are read off it. -/
structure ReadBack (user : User) (origin : PublicEndpoint) (k : AccessKey × Node) (link : String) : Prop where
  line : '\n' ∉ link.toList
  fields : ∃ endpoint, proxyEndpoint k.2 (some origin) = .ok endpoint ∧
    decodeLink link = some (linkOf user k.2 k.1 endpoint)

theorem readBack_vmess (vmess : node.protocol = .vmess)
    (rendered : vmessUri user node key (some origin) = .ok uri) : ReadBack user origin (key, node) uri := by
  refine ⟨?_, decodeLink_vmessUri vmess rendered⟩
  obtain ⟨endpoint, -, text⟩ := vmessUri_eq rendered
  rw [text, List.mem_append]
  rintro (mem | mem)
  · exact absurd mem (by decide +kernel)
  · exact absurd (b64url_quoted _ mem) (by decide)

theorem readBack_vless (vless : node.protocol = .vless) (valid : LinkKey key node)
    (shape : PublicHost origin.host.toList) (rendered : vlessUri user node key (some origin) = .ok uri) :
    ReadBack user origin (key, node) uri := by
  have credential := valid.credential vless
  constructor
  · obtain ⟨endpoint, found, text⟩ := vlessUri_eq rendered
    have shown := (valid.linkHost shape found).shown_plain
    have scheme : '\n' ∉ "vless".toList := by decide +kernel
    have userinfo : '\n' ∉ key.credential.toList := fun mem => credential _ mem (by simp)
    have host : '\n' ∉ shownHost endpoint.host.toList := fun mem => shown _ mem (by simp)
    have port : '\n' ∉ Nat.toDigits 10 endpoint.port := fun mem => absurd (toDigits_isDigit _ mem) (by decide)
    have query : '\n' ∉ (urlencode (vlessParams user node endpoint)).toList := by
      intro mem
      rcases urlencode_quoted _ mem with h | h | h | h <;> exact absurd h (by decide)
    have fragment : '\n' ∉ (quote (linkName user node)).toList := fun mem =>
      absurd (quote_quoted _ mem) (by decide)
    rw [text]
    simp only [List.mem_append, List.mem_cons, not_or]
    exact ⟨scheme, by decide, by decide, by decide, ⟨userinfo, by decide, host, by decide, port⟩, by decide,
      query, by decide, fragment⟩
  · refine decodeLink_vlessUri vless (fun c mem => ?_) (fun endpoint found => ?_) rendered
    · have clean := credential c mem
      simp only [List.mem_cons, not_or] at clean
      exact endsAuthority_eq_false.2 ⟨clean.1, clean.2.1, clean.2.2.1⟩
    · have valid := valid.linkHost shape found
      refine ⟨fun c mem => ?_, valid.shown⟩
      have clean := valid.shown_plain c mem
      simp only [List.mem_cons, not_or] at clean
      exact ⟨endsAuthority_eq_false.2 ⟨clean.1, clean.2.1, clean.2.2.1⟩, clean.2.2.2.1⟩

/-- A key has a link where it should, and the link is read back. -/
theorem proxyUri_readBack (user : User) (valid : hasLink (key, node) = true → LinkKey key node)
    (shape : PublicHost origin.host.toList) :
    ∃ own, proxyUri user node key (some origin) = .ok own ∧
      List.Forall₂ (ReadBack user origin) ([(key, node)].filter hasLink) own.toList := by
  obtain ⟨own, rendered⟩ := (@proxyUri_ok_iff user node key (some origin)).2 fun on active proxy =>
    (valid (by simp [hasLink, on, active, proxy])).metadata
  refine ⟨own, rendered, ?_⟩
  cases proxyUri_cases user node key (some origin) with
  | hidden off answer =>
    obtain rfl := Except.ok.inj (answer.symm.trans rendered)
    have none : hasLink (key, node) = false := by simpa [hasLink, and_assoc] using off
    simp [none]
  | vless on active protocol answer =>
    obtain ⟨uri, link, rfl⟩ := map_some_eq_ok.1 (answer.symm.trans rendered)
    have served : hasLink (key, node) = true := by simp [hasLink, on, active, protocol, Protocol.isProxy]
    rw [List.filter_singleton, served]
    exact .cons (readBack_vless protocol (valid served) shape link) .nil
  | vmess on active protocol answer =>
    obtain ⟨uri, link, rfl⟩ := map_some_eq_ok.1 (answer.symm.trans rendered)
    have served : hasLink (key, node) = true := by simp [hasLink, on, active, protocol, Protocol.isProxy]
    rw [List.filter_singleton, served]
    exact .cons (readBack_vmess protocol link) .nil

theorem proxyLinks_readBack (user : User)
    (valid : ∀ key node, (key, node) ∈ keys → hasLink (key, node) = true → LinkKey key node)
    (shape : PublicHost origin.host.toList) :
    ∃ links, proxyLinks user (some origin) keys = .ok links ∧
      List.Forall₂ (ReadBack user origin) (keys.filter hasLink) (links.map Prod.snd) := by
  induction keys with
  | nil => exact ⟨[], rfl, .nil⟩
  | cons k keys ih =>
    obtain ⟨key, node⟩ := k
    obtain ⟨own, here, read⟩ := proxyUri_readBack user (valid key node (by simp)) shape
    obtain ⟨links, rest, more⟩ := ih fun key node mem => valid key node (by simp [mem])
    refine ⟨_, proxyLinks_cons_eq_ok.2 ⟨own, links, here, rest, rfl⟩, ?_⟩
    have texts : (own.toList.map fun uri => (key, uri)).map Prod.snd = own.toList := by
      cases own <;> rfl
    rw [List.map_append, texts, ← List.singleton_append, List.filter_append]
    exact List.rel_append read more

theorem infoProfile_line : '\n' ∉ (infoProfile now user).toList := by
  unfold infoProfile
  dsimp only
  rw [String.toList_append, String.toList_append, String.toList_append]
  simp only [List.mem_append, not_or]
  exact ⟨⟨⟨by decide +kernel, by decide +kernel⟩, by decide +kernel⟩, fun mem =>
    absurd (quote_quoted _ mem) (by decide)⟩

/-- A document of lines is cut back into them; nothing follows the last one. -/
theorem splitOn_lines {lines : List String} (ne : lines ≠ []) (line : ∀ l ∈ lines, '\n' ∉ l.toList) :
    ("\n".intercalate lines ++ "\n").toList.splitOn '\n' = lines.map String.toList ++ [[]] := by
  have parts : (['\n'].intercalate (lines.map String.toList)).splitOn '\n' = lines.map String.toList := by
    refine List.splitOn_intercalate '\n' (fun part mem => ?_) (by simpa using ne)
    obtain ⟨l, there, rfl⟩ := List.mem_map.1 mem
    exact line l there
  have joined : ("\n".intercalate lines ++ "\n").toList = ['\n'].intercalate (lines.map String.toList) ++ '\n' :: [] := by
    rw [String.toList_append, String.toList_intercalate]
    rfl
  rw [joined, List.splitOn_append_cons_self, parts, List.splitOn_nil]

/-- **The round trip of a subscription.** -/
theorem subscription_round_trip {tables : UnicodeTables} {baseUrl : String}
    (accepted : publicEndpoint (urlsplit tables) baseUrl = .ok origin)
    (valid : ∀ key node, (key, node) ∈ keys → hasLink (key, node) = true → LinkKey key node) :
    ∃ document links, subscriptionDocument now user keys (some origin) = .ok document ∧
      document.toList.splitOn '\n' = (infoProfile now user).toList :: links.map String.toList ++ [[]] ∧
      List.Forall₂ (fun (key, node) link => ∃ endpoint, proxyEndpoint node (some origin) = .ok endpoint ∧
        decodeLink link = some (linkOf user node key endpoint)) (keys.filter hasLink) links := by
  have shape := publicEndpoint_host accepted
  obtain ⟨links, rendered, read⟩ := proxyLinks_readBack user valid shape
  have each : List.Forall₂ (fun link k => '\n' ∉ link.toList ∧ ReadBack user origin k link)
      (links.map Prod.snd) (keys.filter hasLink) := read.flip.imp fun link k back => ⟨back.line, back⟩
  have lines := (List.forall₂_and_left _ _).1 each
  refine ⟨_, links.map Prod.snd, bind_eq_ok.2 ⟨links, rendered, rfl⟩, ?_, read.imp fun k link h => h.fields⟩
  refine splitOn_lines (List.cons_ne_nil _ _) fun line mem => ?_
  rcases List.mem_cons.1 mem with rfl | mem
  · exact infoProfile_line
  · exact lines.1 line mem

/-- A node with a fixed host and names of its own for TLS. -/
def literalNode (host : String) : Node where
  id := "node"
  name := "Tehran #1"
  slug := "literal"
  host := host
  sni := "panel.example.com"
  websocketHost := "panel.example.com"

def literalKey : AccessKey where
  id := "key"
  userId := "user"
  nodeId := "node"
  credential := "6f1c1b0e-93f4-4f0a-9a55-0d3d1f7f2f11"

def literalUser : User := { id := "user", name := "Wire/User é" }

theorem literal_accepted :
    ∃ origin, publicEndpoint (urlsplit asciiTables) "https://panel.example.com" = .ok origin := by
  have accepted : (publicEndpoint (urlsplit asciiTables) "https://panel.example.com").isOk = true := by
    decide +kernel
  cases given : publicEndpoint (urlsplit asciiTables) "https://panel.example.com" with
  | ok origin => exact ⟨origin, rfl⟩
  | error e =>
    rw [given] at accepted
    cases accepted

theorem literal_valid {host : String} (address : host = "[2001:db8::1]" ∨ host = "2001:db8::1") :
    ∀ key node, (key, node) ∈ [(literalKey, literalNode host)] → hasLink (key, node) = true →
      LinkKey key node := by
  intro key node mem _
  obtain ⟨rfl, rfl⟩ := Prod.mk.inj (List.mem_singleton.1 mem)
  refine ⟨rfl, fun _ => forall_mem_of_check (by decide +kernel), fun _ _ => ?_⟩
  rcases address with rfl | rfl
  · exact .inr ⟨"2001:db8::1".toList, forall_mem_of_check (by decide +kernel), by decide +kernel⟩
  · exact .inl (forall_mem_of_check (by decide +kernel))

/-- The link of a node at an IPv6 address, on a public URL. -/
theorem subscription_round_trip_literal :
    ∃ origin, publicEndpoint (urlsplit asciiTables) "https://panel.example.com" = .ok origin ∧
      ∃ document links, subscriptionDocument 0 literalUser [(literalKey, literalNode "2001:db8::1")] (some origin) =
          .ok document ∧
        document.toList.splitOn '\n' = (infoProfile 0 literalUser).toList :: links.map String.toList ++ [[]] ∧
        List.Forall₂ (fun (key, node) link => ∃ endpoint, proxyEndpoint node (some origin) = .ok endpoint ∧
          decodeLink link = some (linkOf literalUser node key endpoint))
            ([(literalKey, literalNode "2001:db8::1")].filter hasLink) links := by
  obtain ⟨origin, accepted⟩ := literal_accepted
  exact ⟨origin, accepted, subscription_round_trip accepted (literal_valid (.inr rfl))⟩

theorem proxyEndpoint_fixed (flag : node.adaptiveFlag = .ok false) (host : node.host.toLower ≠ "auto") :
    proxyEndpoint node base = .ok node.fixedEndpoint := by
  refine bind_eq_ok.2 ⟨false, flag, ?_⟩
  dsimp only
  rw [if_neg (by simpa using host)]
  rfl

theorem literal_fixed {host : String} (address : host = "[2001:db8::1]" ∨ host = "2001:db8::1") :
    proxyEndpoint (literalNode host) base = .ok (literalNode host).fixedEndpoint := by
  refine proxyEndpoint_fixed rfl ?_
  rcases address with rfl | rfl <;> decide +kernel

theorem literal_same : vlessUri literalUser (literalNode "[2001:db8::1]") literalKey base =
    vlessUri literalUser (literalNode "2001:db8::1") literalKey base := by
  unfold vlessUri
  rw [literal_fixed (.inl rfl), literal_fixed (.inr rfl)]
  rfl

/-- **Brackets are lost**: no reader tells the host of a link of VLESS as the node has it. -/
theorem brackets_are_lost :
    ¬ ∃ decode : String → Option ProxyLink,
      ∀ (tables : UnicodeTables) (baseUrl : String) (origin : PublicEndpoint) (now : Instant) (user : User)
        (keys : List (AccessKey × Node)), publicEndpoint (urlsplit tables) baseUrl = .ok origin →
        (∀ key node, (key, node) ∈ keys → hasLink (key, node) = true → LinkKey key node) →
        ∃ document links, subscriptionDocument now user keys (some origin) = .ok document ∧
          document.toList.splitOn '\n' = (infoProfile now user).toList :: links.map String.toList ++ [[]] ∧
          List.Forall₂ (fun (_, node) link => ∃ endpoint, proxyEndpoint node (some origin) = .ok endpoint ∧
            (decode link).map ProxyLink.host = some endpoint.host) (keys.filter hasLink) links := by
  rintro ⟨decode, claim⟩
  obtain ⟨origin, accepted⟩ := literal_accepted
  obtain ⟨document, links, rendered, lines, read⟩ :=
    claim _ _ origin 0 literalUser _ accepted (literal_valid (.inl rfl))
  obtain ⟨document', links', rendered', lines', read'⟩ :=
    claim _ _ origin 0 literalUser _ accepted (literal_valid (.inr rfl))
  have own : proxyUri literalUser (literalNode "[2001:db8::1]") literalKey (some origin) =
      proxyUri literalUser (literalNode "2001:db8::1") literalKey (some origin) :=
    congrArg (Except.map some) literal_same
  have same : document = document' := by
    refine Except.ok.inj (rendered.symm.trans (Eq.trans ?_ rendered'))
    simp only [subscriptionDocument, proxyLinks, own]
  -- the two documents are one, so that both nodes have the same link
  rw [← same, lines] at lines'
  have texts := List.append_cancel_right (List.cons.inj lines').2
  obtain rfl : links = links' := List.map_injective_iff.2 (fun _ _ => String.toList_inj.1) texts
  obtain ⟨link, _, ⟨endpoint, found, host⟩, -, rfl⟩ := List.forall₂_cons_left_iff.1 read
  obtain ⟨link', _, ⟨endpoint', found', host'⟩, -, one⟩ := List.forall₂_cons_left_iff.1 read'
  obtain rfl : link = link' := (List.cons.inj one).1
  have hosts : endpoint.host = endpoint'.host := Option.some.inj (host.symm.trans host')
  rw [← Except.ok.inj ((literal_fixed (.inl rfl)).symm.trans found),
    ← Except.ok.inj ((literal_fixed (.inr rfl)).symm.trans found')] at hosts
  exact absurd hosts (by decide +kernel)

end Arena.Subscriptions
