import Arena.Model.Endpoints
import Arena.Model.Links
import Arena.Model.RowProperties
import Arena.Model.Urls

/-!
# Placeholders in links

`auto` stands for the public origin: as a node's host, and as the WebSocket host of a default node.
`_proxy_endpoint` resolves it where the metadata have the flag or the host is the placeholder. On
any other node a placeholder in the two remaining columns goes into the link as it is, and a partial
update can leave one there.
-/

namespace Arena.Placeholder

open Arena.Lib Arena.Model

variable {cfg : Settings} {now : Instant} {tables : UnicodeTables} {db : Database} {s s' : Plane}
  {e : Event} {n row : Node} {p : NodeUpdate} {base : PublicEndpoint}

/-- The names that a link shows: the host, the WebSocket host and the SNI, which a VLESS link has
only with TLS. -/
def names (protocol : Protocol) (endpoint : ProxyEndpoint) : List String :=
  [endpoint.host, endpoint.websocketHost] ++
    if protocol = .vless ∧ endpoint.security ≠ .tls then [] else [endpoint.sni]

/-- No link of the node shows the placeholder, for any user, key and accepted base URL of another
host. -/
def Resolved (tables : UnicodeTables) (n : Node) : Prop :=
  ∀ url base user key uri, publicEndpoint (urlsplit tables) url = .ok base → base.host ≠ "auto" →
    proxyUri user n key (some base) = .ok (some uri) →
      ∃ endpoint, proxyEndpoint n (some base) = .ok endpoint ∧ "auto" ∉ names n.protocol endpoint

/-- The metadata are an object without the flag. -/
def unflagged (metadata : Json) : Bool :=
  match metadata.get? "adaptive_endpoint" with
  | .ok flag => !(flag.map Json.truthy).getD false
  | .error _ => false

/-- The columns of a node with links that is not adaptive and has a placeholder in a name it
shows. -/
def exposes (enabled : Bool) (protocol : Protocol) (security : Security) (metadata : Json)
    (host sni websocketHost : String) : Bool :=
  enabled && protocol.isProxy && unflagged metadata && host.toLower ≠ "auto" &&
    (websocketHost = "auto" ||
      sni = "auto" && (websocketHost = "" || !(protocol = .vless && security ≠ .tls)))

/-- The metadata after an update. -/
def metadataOf (given : Patch (List (String × Json))) (old : Json) : Json :=
  match given with
  | .unset => old
  | .null => .null
  | .set members => .obj members

/-- The event is no accepted `create_node` or `update_node` after which, by the columns it gives and
those that the row has, the node has links, is not adaptive and has a placeholder where it shows. -/
def KeepsResolved (db : Database) : Event → Prop
  | .admin _ (.createNode _ p) => (validateNode p).toOption = some () →
      (∀ n ∈ db.nodes.rows, n.slug ≠ p.slug) →
      exposes p.enabled p.protocol p.security (.obj p.metadata) (stripSpaces p.host) (stripSpaces p.sni)
        (stripSpaces p.websocketHost) = false
  | .admin _ (.updateNode nodeId p) => p.refused = false → (db.nodes.find? nodeId).all fun n =>
      !exposes (p.enabled.getD n.enabled) n.protocol (p.security.getD n.security)
        (metadataOf p.metadata n.metadata) ((p.host.map stripSpaces).getD n.host)
        ((p.sni.map stripSpaces).getD n.sni) ((p.websocketHost.map stripSpaces).getD n.websocketHost)
  | _ => True

instance (db : Database) : DecidablePred (KeepsResolved db)
  | .admin _ (.createNode _ p) => inferInstanceAs (Decidable (_ → (∀ n ∈ db.nodes.rows, n.slug ≠ p.slug) → _))
  | .admin _ (.updateNode ..) => inferInstanceAs (Decidable (_ → _))
  | .tick _ | .start .. | .authorize .. | .heartbeat _ | .close _ => isTrue trivial
  | .admin _ (.createUser ..) | .admin _ (.updateUser ..) | .admin _ (.resetUsage _) |
    .admin _ (.rotateSubscription _) | .admin _ (.attachNode ..) | .admin _ (.detachNode ..) |
    .admin _ (.deleteUser _) | .admin _ (.disableNode _) => isTrue trivial

/-! ## The names of an endpoint -/

theorem mem_names {protocol : Protocol} {endpoint : ProxyEndpoint} {name : String} :
    name ∈ names protocol endpoint ↔ name = endpoint.host ∨ name = endpoint.websocketHost ∨
      ¬ (protocol = .vless ∧ endpoint.security ≠ .tls) ∧ name = endpoint.sni := by
  unfold names
  split <;> simp [*]

/-- The origin shows no placeholder unless it is the host. -/
theorem names_origin {protocol : Protocol} {split : UrlSplit} {url : String}
    (accepted : publicEndpoint split url = .ok base) (host : base.host ≠ "auto") :
    "auto" ∉ names protocol base.proxyEndpoint := by
  have authority : base.authority ≠ "auto" := by
    obtain ⟨parsed, given, -, -, -, -, rfl⟩ := publicEndpoint_eq_ok.1 accepted
    exact authorityOf_ne host
  have sni : base.proxyEndpoint.sni ≠ "auto" := by
    unfold PublicEndpoint.proxyEndpoint
    split
    · exact host
    · exact (by decide : "" ≠ "auto")
  rw [mem_names]
  rintro (same | same | ⟨-, same⟩)
  · exact host same.symm
  · exact authority same.symm
  · exact sni same.symm

/-- What a fixed endpoint shows, when the host is no placeholder. -/
theorem names_fixed (host : n.host ≠ "auto") : "auto" ∈ names n.protocol n.fixedEndpoint ↔
    n.websocketHost = "auto" ∨
      n.sni = "auto" ∧ (n.websocketHost = "" ∨ ¬ (n.protocol = .vless ∧ n.security ≠ .tls)) := by
  have sni : "auto" = n.fixedEndpoint.sni ↔ n.sni = "auto" := by
    simp only [Node.fixedEndpoint, orText]
    split
    · rename_i none
      simp [none, host.symm]
    · exact eq_comm
  have websocketHost : "auto" = n.fixedEndpoint.websocketHost ↔
      n.websocketHost = "auto" ∨ (n.websocketHost = "" ∧ n.sni = "auto") := by
    have fallback : n.fixedEndpoint.websocketHost = orText n.websocketHost n.fixedEndpoint.sni := rfl
    rw [fallback, orText]
    split
    · rename_i none
      simp [none, sni]
    · rename_i given
      simp [given, eq_comm]
  have shown : "auto" ≠ n.fixedEndpoint.host := host.symm
  have security : n.fixedEndpoint.security = n.security := rfl
  rw [mem_names, sni, websocketHost, security]
  tauto

/-! ## Rows -/

/-- The row has links, is not adaptive and has a placeholder in a name it shows. -/
def Exposed (n : Node) : Prop :=
  exposes n.enabled n.protocol n.security n.metadata n.host n.sni n.websocketHost = true

theorem unflagged_iff : unflagged n.metadata = true ↔ n.adaptiveFlag = .ok false := by
  unfold unflagged Node.adaptiveFlag
  cases n.metadata.get? "adaptive_endpoint" with
  | error e => simp [bind, Except.bind]
  | ok flag => simp [bind, Except.bind]

theorem exposed_iff : Exposed n ↔ n.enabled ∧ n.protocol.isProxy ∧ n.adaptiveFlag = .ok false ∧
    n.host.toLower ≠ "auto" ∧ "auto" ∈ names n.protocol n.fixedEndpoint := by
  have host : n.host.toLower ≠ "auto" → n.host ≠ "auto" := by
    rintro other same
    exact other (by rw [same]; decide +kernel)
  rw [← unflagged_iff]
  by_cases other : n.host.toLower = "auto"
  · simp [Exposed, exposes, other]
  · rw [names_fixed (host other)]
    simp only [Exposed, exposes, Bool.and_eq_true, Bool.or_eq_true, decide_eq_true_eq, Bool.not_eq_true',
      decide_eq_false_iff_not, Bool.and_eq_false_iff]
    tauto

/-- The columns of an updated row. -/
theorem exposed_apply : Exposed (p.apply n) ↔
    exposes (p.enabled.getD n.enabled) n.protocol (p.security.getD n.security)
      (metadataOf p.metadata n.metadata) ((p.host.map stripSpaces).getD n.host)
      ((p.sni.map stripSpaces).getD n.sni) ((p.websocketHost.map stripSpaces).getD n.websocketHost) = true := by
  have metadata : (p.apply n).metadata = metadataOf p.metadata n.metadata := by
    unfold NodeUpdate.apply metadataOf
    cases p.metadata <;> rfl
  rw [Exposed, metadata]
  rfl

/-- An adaptive node resolves every placeholder. -/
theorem not_exposed_of_flag (flag : n.adaptiveFlag = .ok true) : ¬ Exposed n := by
  intro exposed
  obtain ⟨-, -, unset, -⟩ := exposed_iff.1 exposed
  cases flag.symm.trans unset

/-- Start-up gives a row the flag or leaves it. -/
theorem reseed_cases (reseeded : n.reseed = .ok row) : row.adaptiveFlag = .ok true ∨ row = n := by
  obtain ⟨flagged, stored, adaptive, read, rfl⟩ := reseed_eq_ok.1 reseeded
  cases adaptive with
  | true => exact .inl ((adaptiveFlag_congr rfl).trans read)
  | false =>
    -- a row that had no flag would have it now
    have kept : flagged = n.metadata := by
      cases metadata : n.metadata with
      | obj members =>
        rw [metadata, Json.withAdaptiveFlag] at stored
        split at stored
        · exact (Except.ok.inj stored).symm
        · rename_i absent
          rw [← Except.ok.inj stored, Node.adaptiveFlag, Json.get?, List.lookup_append, absent] at read
          cases read
      | _ => simp [metadata, Json.withAdaptiveFlag] at stored
    exact .inr (by rw [kept]; rfl)

/-- Some URL is accepted with a host that is no placeholder. -/
theorem accepts_other (tables : UnicodeTables) :
    ∃ base, publicEndpoint (urlsplit tables) "http://b" = .ok base ∧ base.host ≠ "auto" := by
  have parsed : urlsplit tables "http://b" =
      .ok ⟨"http", some (String.ofList (tables.lower ['b'])), .ok none⟩ := rfl
  have first : (tables.lower ['b']).head? = some 'b' := tables.lower_head 'b' [] (by decide)
  have head {host : String} (same : String.ofList (tables.lower ['b']) = host) :
      host.toList.head? = some 'b' := by
    rw [← same, String.toList_ofList, first]
  refine ⟨_, publicEndpoint_eq_ok.2 ⟨_, none, parsed, .inl rfl, fun empty => ?_, rfl, rfl⟩, fun same => ?_⟩
  · exact absurd (head empty) (by decide)
  · exact absurd (head same) (by decide)

/-- **The links of a row** show a placeholder exactly when the row is exposed. -/
theorem resolved_iff : Resolved tables n ↔ ¬ Exposed n := by
  constructor
  · intro resolved exposed
    obtain ⟨enabled, proxy, flag, host, shown⟩ := exposed_iff.1 exposed
    obtain ⟨base, accepted, other⟩ := accepts_other tables
    have fixed : proxyEndpoint n (some base) = .ok n.fixedEndpoint :=
      bind_eq_ok.2 ⟨false, flag, by simp [host]⟩
    have object := proxyEndpoint_ok_iff.1 ⟨_, fixed⟩
    obtain ⟨uri, link⟩ := (@proxyUri_isSome_iff { id := "" } n ⟨"", "", "", "", [], true⟩ (some base)).2
      ⟨enabled, rfl, proxy, object⟩
    obtain ⟨endpoint, read, clean⟩ := resolved _ base _ _ uri accepted other link
    obtain rfl := Except.ok.inj (fixed.symm.trans read)
    exact clean shown
  · intro hidden url base user key uri accepted host link
    obtain ⟨enabled, -, proxy, object⟩ := proxyUri_isSome_iff.1 ⟨uri, link⟩
    obtain ⟨endpoint, read⟩ := (@proxyEndpoint_ok_iff n (some base)).2 object
    refine ⟨endpoint, read, ?_⟩
    obtain ⟨flag, adaptive, made⟩ := bind_eq_ok.1 read
    obtain rfl := Except.ok.inj made
    by_cases follows : flag = true ∨ n.host.toLower = "auto"
    · simpa [follows] using names_origin accepted host
    · obtain ⟨unset, named⟩ := not_or.1 follows
      intro shown
      refine hidden (exposed_iff.2 ⟨enabled, proxy, ?_, named, by simpa [unset, named] using shown⟩)
      rw [adaptive, Bool.eq_false_of_not_eq_true unset]

/-! ## Runs -/

/-- No row is exposed. -/
def NoneExposed (db : Database) : Prop := ∀ n ∈ db.nodes.rows, ¬ Exposed n

theorem hidden_kept : RowsKept cfg fun n => ¬ Exposed n where
  default _ _ _ _ := not_exposed_of_flag rfl
  reseed before reseeded := by
    rcases reseed_cases reseeded with flag | rfl
    · exact not_exposed_of_flag flag
    · exact before
  disable _ exposed := nomatch (exposed_iff.1 exposed).1

/-- The condition, by the columns. -/
theorem stores_hidden_iff : StoresOnly (fun n => ¬ Exposed n) db e ↔ KeepsResolved db e := by
  cases e with
  | admin name op =>
    cases op with
    | createNode newId p =>
      simp only [StoresOnly, KeepsResolved, toOption_eq_some, Exposed, newNode, Bool.not_eq_true]
    | updateNode nodeId p =>
      simp only [StoresOnly, KeepsResolved, exposed_apply]
      refine imp_congr_right fun _ => ?_
      cases db.nodes.find? nodeId <;> simp
    | _ => rfl
  | _ => rfl

structure Inv (s : Plane) : Prop where
  hidden : NoneExposed s.db
  drawn : ∀ n ∈ s.db.nodes.rows, n.id ∈ s.issued

/-- The condition is exact: a step that breaks it commits an exposed row. -/
theorem noneExposed_iff_keeps (inv : Inv s) (step : (plane cfg).step s e = some s') :
    NoneExposed s'.db ↔ KeepsResolved s.db e :=
  (hidden_kept.step_iff inv.hidden inv.drawn step).trans stores_hidden_iff

theorem inv_step (inv : Inv s) (keeps : KeepsResolved s.db e) (step : (plane cfg).step s e = some s') :
    Inv s' :=
  ⟨(noneExposed_iff_keeps inv step).2 keeps, nodes_drawn_step inv.drawn step⟩

/-- **When no placeholder leaks.** In every run whose requests expose no node, no link of a node in
any state shows a placeholder; and the next step keeps it so exactly when it is such a request. -/
theorem no_placeholder_leaks (cfg : Settings) (tables : UnicodeTables) (start : Instant) (es : List Event)
    (s : Plane) (run : (plane cfg).run (.initial start) es = some s)
    (keeps : (plane cfg).Along (fun s e => KeepsResolved s.db e) (.initial start) es) :
    (∀ n ∈ s.db.nodes.rows, Resolved tables n) ∧
    ∀ e s', (plane cfg).step s e = some s' →
      ((∀ n ∈ s'.db.nodes.rows, Resolved tables n) ↔ KeepsResolved s.db e) := by
  have init : Inv (.initial start) := ⟨by simp [NoneExposed, Plane.initial], by simp [Plane.initial]⟩
  have inv : Inv s := Machine.along_invariant inv_step init keeps run
  refine ⟨fun n mem => resolved_iff.2 (inv.hidden n mem), fun e s' step => ?_⟩
  rw [← noneExposed_iff_keeps inv step]
  exact forall₂_congr fun n _ => resolved_iff

/-- The default node, no longer adaptive and with a host of its own. -/
def fixedHost : NodeUpdate :=
  { NodeUpdate.nothing with
    host := .set "edge.example.com"
    metadata := .set [("adaptive_endpoint", .bool false)]
    hostLength := by rintro _ ⟨⟩; decide }

/-- The same with a WebSocket host of its own. -/
def fixedHosts : NodeUpdate :=
  { fixedHost with websocketHost := .set "edge.example.com", websocketHostLength := by rintro _ ⟨⟩; decide }

/-- The edit that gives both hosts leaves no placeholder, and the one that gives one of them does. -/
theorem no_placeholder_leaks_hosts : ∃ s s',
    (plane {}).run (.initial 0) [.start "vless" "vmess", .admin "admin" (.updateNode "vless" fixedHosts)] =
      some s ∧
    (∃ n ∈ s.db.nodes.rows, n.host = "edge.example.com" ∧ Resolved asciiTables n) ∧
    (plane {}).step s (.admin "admin" (.updateNode "vmess" fixedHost)) = some s' ∧
    ¬ ∀ n ∈ s'.db.nodes.rows, Resolved asciiTables n := by
  obtain ⟨s, run, facts⟩ := (Option.any_eq_true _ _).1 (by decide +kernel :
    ((plane {}).run (.initial 0)
      [.start "vless" "vmess", .admin "admin" (.updateNode "vless" fixedHosts)]).any fun s =>
        (s.db.nodes.find? "vless").any (fun n => n.host = "edge.example.com") &&
          ((plane {}).step s (.admin "admin" (.updateNode "vmess" fixedHost))).isSome &&
          !decide (KeepsResolved s.db (.admin "admin" (.updateNode "vmess" fixedHost))))
  simp only [Bool.and_eq_true, Option.any_eq_true, Bool.not_eq_true', decide_eq_false_iff_not,
    decide_eq_true_eq, Option.isSome_iff_exists] at facts
  obtain ⟨⟨⟨n, found, host⟩, s', step⟩, breaks⟩ := facts
  obtain ⟨rows, exact_step⟩ := no_placeholder_leaks {} asciiTables 0 _ s run (by decide +kernel)
  have mem := Table.find?_mem found
  exact ⟨s, s', run, ⟨n, mem, host, rows n mem⟩, step, fun all => breaks ((exact_step _ s' step).1 all)⟩

/-- A default node that is switched off the public origin and given a host keeps the WebSocket host
`auto`. -/
theorem websocket_host_leaks : ¬ ∀ (cfg : Settings) (tables : UnicodeTables) (start : Instant)
    (es : List Event) (s : Plane), (plane cfg).run (.initial start) es = some s →
    ∀ n ∈ s.db.nodes.rows, Resolved tables n := by
  intro claim
  obtain ⟨s, run, facts⟩ := (Option.any_eq_true _ _).1 (by decide +kernel :
    ((plane {}).run (.initial 0)
      [.start "vless" "vmess", .admin "admin" (.updateNode "vless" fixedHost)]).any fun s =>
        (s.db.nodes.find? "vless").any fun n =>
          exposes n.enabled n.protocol n.security n.metadata n.host n.sni n.websocketHost)
  obtain ⟨n, found, exposed⟩ := (Option.any_eq_true _ _).1 facts
  exact resolved_iff.1 (claim {} asciiTables 0 _ s run n (Table.find?_mem found)) exposed

end Arena.Placeholder
