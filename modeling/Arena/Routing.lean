import Arena.Model.Origins
import Arena.Model.Profiles
import Arena.Model.Routes

/-!
# Links and routes

A link carries the path `public_ws_path`; the ingress and the gateway route it by the fixed
prefix `/edge/` and `routeIDs` reads the two identifiers back. The prefix in the link is the
node's stored path, which an administrator and the setting `gateway_public_path` choose: the
two sides agree exactly on the nodes whose path is `/edge`, up to slashes at its end.
-/

namespace Arena.Routing

open Arena.Lib Arena.Model

/-- What the text of a UUID looks like, as far as routing depends on it. -/
structure IsUuid (i : Id) : Prop where
  length : i.toList.length = 36
  digits : ∀ c ∈ i.toList, c ∈ "0123456789abcdef-".toList

/-- The path matcher `/edge/*` of the ingress matches the clean paths under `/edge/`. -/
def IngressRule (ingress : String → Prop) : Prop :=
  ∀ path : String, cleanPath path.toList = path.toList → "/edge/".toList <+: path.toList →
    ingress path

/-- The path is `/edge`, up to slashes at its end. -/
def EdgePath (path : String) : Prop := rstrip (· == '/') path.toList = "/edge".toList

instance (path : String) : Decidable (EdgePath path) := inferInstanceAs (Decidable (_ = _))

/-- The link's path takes a connection of this user to this node. -/
structure Routed (ingress : String → Prop) (node : Node) (user : User) : Prop where
  ingress : ingress (publicWsPath node user)
  handled : edgeHandles (publicWsPath node user)
  parsed : routeIDs (publicWsPath node user) = (node.id, user.id, true)

variable {ingress : String → Prop} {node : Node} {user : User} {i : Id}

/-! ## Identifiers -/

theorem IsUuid.plain (h : IsUuid i) : PlainElement i.toList where
  nonempty e := by have := h.length; simp [e] at this
  here e := by have := h.length; simp [e] at this
  up e := by have := h.length; simp [e] at this
  whole slash := by have := h.digits '/' slash; revert this; decide

theorem IsUuid.ne_edge (h : IsUuid i) : i.toList ≠ "edge".toList := by
  intro e
  have := h.length
  rw [e] at this
  exact absurd this (by decide)

theorem IsUuid.rstrip_append (h : IsUuid i) (s : List Char) :
    rstrip (· == '/') (s ++ i.toList) = s ++ i.toList := by
  have ne := h.plain.nonempty
  refine rstrip_of_last (by simp [ne]) ?_
  rw [List.getLast_append_of_ne_nil _ ne]
  simp only [beq_iff_eq]
  exact fun last => h.plain.whole (last ▸ List.getLast_mem ne)

/-! ## The path of a link -/

theorem publicWsPath_toList : (publicWsPath node user).toList =
    rstrip (· == '/') node.path.toList ++ '/' :: (node.id.toList ++ '/' :: user.id.toList) := by
  simp [publicWsPath]

theorem publicWsPath_of_edge (h : EdgePath node.path) : (publicWsPath node user).toList =
    joinPath ["edge".toList, node.id.toList, user.id.toList] := by
  rw [publicWsPath_toList, h]
  simp [joinPath, List.intercalate, List.intersperse]

/-- **Encoder and decoder agree** on a node whose path is `/edge`. -/
theorem routed_of_edge (rule : IngressRule ingress) (hn : IsUuid node.id) (hu : IsUuid user.id)
    (h : EdgePath node.path) : Routed ingress node user := by
  have path : (publicWsPath node user).toList =
      joinPath ["edge".toList, node.id.toList, user.id.toList] := publicWsPath_of_edge h
  have clean : cleanPath (publicWsPath node user).toList = (publicWsPath node user).toList := by
    rw [path]
    refine cleanPath_joinPath (by simp) ?_
    have edge : PlainElement "edge".toList := ⟨by decide, by decide, by decide, by decide⟩
    simp only [List.mem_cons, List.not_mem_nil, or_false, forall_eq_or_imp, forall_eq]
    exact ⟨edge, hn.plain, hu.plain⟩
  have split : (publicWsPath node user).toList =
      "/edge/".toList ++ (node.id.toList ++ '/' :: user.id.toList) := by
    rw [path]
    simp [joinPath, List.intercalate, List.intersperse]
  have under : "/edge/".toList <+: (publicWsPath node user).toList := by
    rw [split]
    exact List.prefix_append _ _
  refine ⟨rule _ clean under, ?_, ?_⟩
  · simp only [edgeHandles, clean, beq_self_eq_true, Bool.true_and]
    exact List.isPrefixOf_iff_prefix.2 under
  · have whole : strip (· == '/') (node.id.toList ++ '/' :: user.id.toList) =
        node.id.toList ++ '/' :: user.id.toList := by
      have first : ¬ (node.id.toList.head hn.plain.nonempty == '/') = true := by
        simp only [beq_iff_eq]
        exact fun head => hn.plain.whole (head ▸ List.head_mem hn.plain.nonempty)
      have kept : lstrip (· == '/') (node.id.toList ++ '/' :: user.id.toList) =
          node.id.toList ++ '/' :: user.id.toList := by
        refine lstrip_of_head (by simp) ?_
        rwa [List.head_append_of_ne_nil hn.plain.nonempty]
      have cons : node.id.toList ++ '/' :: user.id.toList =
          (node.id.toList ++ ['/']) ++ user.id.toList := by simp
      rw [strip, kept, cons, hu.rstrip_append]
    have elements : (node.id.toList ++ '/' :: user.id.toList).splitOn '/' =
        [node.id.toList, user.id.toList] := by
      rw [List.splitOn_append_cons_self, List.splitOn_eq_singleton hn.plain.whole,
        List.splitOn_eq_singleton hu.plain.whole]
      rfl
    rw [routeIDs, split, trimPrefix_append, whole, elements]
    simp [hn.plain.nonempty, hu.plain.nonempty]

/-- What `routeIDs` accepts has exactly two elements. -/
theorem two_elements_of_parsed {path : String} {a b : String} (h : routeIDs path = (a, b, true)) :
    ((strip (· == '/') (trimPrefix "/edge/".toList path.toList)).splitOn '/').length = 2 := by
  unfold routeIDs at h
  split at h
  · rename_i elements
    rw [elements]
    rfl
  · simp at h

/-- The elements of a link's path that lies under `/edge/`, counted from both ends. -/
theorem elements_of_under (hn : IsUuid node.id) (hu : IsUuid user.id) {R rest : List Char}
    (path : "/edge/".toList ++ rest = R ++ '/' :: (node.id.toList ++ '/' :: user.id.toList)) :
    [] :: "edge".toList :: rest.splitOn '/' =
      R.splitOn '/' ++ [node.id.toList, user.id.toList] := by
  have both := congrArg (List.splitOn '/') path
  have lhs : "/edge/".toList ++ rest = "/edge".toList ++ '/' :: rest := by simp
  have first : "/edge".toList.splitOn '/' = [[], "edge".toList] := by decide
  rw [lhs] at both
  iterate 3 rw [List.splitOn_append_cons_self] at both
  rw [first, List.splitOn_eq_singleton hn.plain.whole, List.splitOn_eq_singleton hu.plain.whole]
    at both
  exact both

/-- An element before the two identifiers makes three. -/
theorem three_elements (hn : IsUuid node.id) (hu : IsUuid user.id) {T : List Char}
    (stays : lstrip (· == '/') T ≠ []) :
    ((strip (· == '/') (T ++ '/' :: (node.id.toList ++ '/' :: user.id.toList))).splitOn '/').length
      ≠ 2 := by
  have stripped : strip (· == '/') (T ++ '/' :: (node.id.toList ++ '/' :: user.id.toList)) =
      lstrip (· == '/') T ++ '/' :: (node.id.toList ++ '/' :: user.id.toList) := by
    have cons : lstrip (· == '/') T ++ '/' :: (node.id.toList ++ '/' :: user.id.toList) =
        (lstrip (· == '/') T ++ '/' :: (node.id.toList ++ ['/'])) ++ user.id.toList := by simp
    rw [strip, lstrip_append stays, cons, hu.rstrip_append]
  have some_element := List.length_pos_of_ne_nil (List.splitOn_ne_nil '/' (lstrip (· == '/') T))
  rw [stripped, List.splitOn_append_cons_self, List.splitOn_append_cons_self,
    List.splitOn_eq_singleton hn.plain.whole, List.splitOn_eq_singleton hu.plain.whole]
  simp only [List.length_append, List.length_singleton]
  omega

/-- A path under `/edge/` that `routeIDs` takes apart begins with the node's path `/edge`: a
shorter one makes a prefix of the identifiers, a longer one leaves a third element. -/
theorem edge_of_routed (hn : IsUuid node.id) (hu : IsUuid user.id) (h : Routed ingress node user) :
    EdgePath node.path := by
  have under : "/edge/".toList <+: (publicWsPath node user).toList :=
    List.isPrefixOf_iff_prefix.1 (Bool.and_eq_true_iff.1 h.handled).2
  obtain ⟨rest, path⟩ := under
  have two := two_elements_of_parsed h.parsed
  rw [← path, trimPrefix_append] at two
  have no_slash : rstrip (· == '/') (rstrip (· == '/') node.path.toList) =
      rstrip (· == '/') node.path.toList := List.rdropWhile_idempotent _ _
  rw [publicWsPath_toList] at path
  rw [EdgePath]
  generalize rstrip (· == '/') node.path.toList = R at path no_slash ⊢
  have ends := elements_of_under hn hu path
  have joined : ['/'].intercalate (R.splitOn '/') = R := List.intercalate_splitOn '/'
  match elements : R.splitOn '/' with
  | [] => exact absurd elements (List.splitOn_ne_nil '/' R)
  | [x] =>
    have second : node.id.toList = "edge".toList := by simp_all
    exact absurd second hn.ne_edge
  | [x, y] =>
    obtain ⟨rfl, rfl⟩ : x = [] ∧ y = "edge".toList := by simp_all
    rw [← joined, elements]
    rfl
  | x :: y :: z :: zs =>
    obtain ⟨rfl, rfl⟩ : x = [] ∧ y = "edge".toList := by simp_all
    set T := ['/'].intercalate (z :: zs) with hT
    have R_eq : "/edge".toList ++ '/' :: T = R := by
      rw [← joined, elements, hT]
      simp [List.intercalate, List.intersperse]
    have rest_eq : rest = T ++ '/' :: (node.id.toList ++ '/' :: user.id.toList) := by
      rw [← R_eq] at path
      simpa using path
    have stays : lstrip (· == '/') T ≠ [] := by
      rw [← R_eq] at no_slash
      simpa [lstrip] using lstrip_ne_nil_of_rstrip no_slash (List.cons_ne_nil '/' T)
    rw [rest_eq] at two
    exact absurd two (three_elements hn hu stays)

/-- **Every link that is handed out can be routed exactly when its node's path is `/edge`.**
In every state that a fresh installation reaches while drawing UUIDs, a link is taken by the
ingress and by the gateway's handler, and `routeIDs` reads the node and the user back from it,
if and only if the node's stored path is `/edge` up to slashes at its end; and where the
setting and the administrators store no other path, every link is routed. -/
theorem routed_iff_edge_path (ingress : String → Prop) (rule : IngressRule ingress)
    (cfg : Settings) (start : Instant) (es : List Event) (s : Plane)
    (run : (plane cfg).run (.initial start) es = some s)
    (uuids : ∀ e ∈ es, ∀ i ∈ e.draws, IsUuid i) :
    (∀ node ∈ s.db.nodes.rows, ∀ user ∈ s.db.users.rows,
      Routed ingress node user ↔ EdgePath node.path) ∧
    ((∀ e ∈ es, ∀ v ∈ e.paths cfg, EdgePath v) →
      ∀ node ∈ s.db.nodes.rows, ∀ user ∈ s.db.users.rows, Routed ingress node user) := by
  obtain ⟨users, nodes⟩ := run_identified run uuids ⟨by simp [Plane.initial, Database.empty],
    by simp [Plane.initial, Database.empty]⟩
  constructor
  · intro node hn user hu
    exact ⟨edge_of_routed (nodes node hn) (users user hu),
      routed_of_edge rule (nodes node hn) (users user hu)⟩
  · intro stored node hn user hu
    have path := run_paths run stored (by simp [Plane.initial, Database.empty]) node hn
    exact routed_of_edge rule (nodes node hn) (users user hu) path

/-- A fresh installation, a user on its default nodes, and a node that an administrator
created under another path. -/
def fooNode : List Event :=
  [.start "11111111-1111-4111-8111-111111111111" "22222222-2222-4222-8222-222222222222",
    .admin "admin" (.createNode "33333333-3333-4333-8333-333333333333"
      { testNode with
        name := "Foo", slug := "foo", path := "/foo"
        nameLength := by decide, slugPattern := by decide, pathLength := by decide }),
    .admin "admin" (.createUser "44444444-4444-4444-8444-444444444444" testKeys testUser)]

/-- The ingress matcher on paths that are clean already: a prefix, in either case. -/
def prefixRule (path : String) : Prop :=
  "/edge/".toList.isPrefixOf (path.toList.map Char.toLower)

theorem prefixRule_ingress : IngressRule prefixRule := by
  intro path _ under
  obtain ⟨rest, eq⟩ := under
  have lower : "/edge/".toList.map Char.toLower = "/edge/".toList := by decide
  rw [prefixRule, ← eq, List.map_append, lower]
  exact List.isPrefixOf_iff_prefix.2 (List.prefix_append _ _)

theorem fooNode_uuids : ∀ e ∈ fooNode, ∀ i ∈ e.draws, IsUuid i := by
  have all : fooNode.all fun e => e.draws.all fun i =>
      i.toList.length == 36 && i.toList.all fun c => "0123456789abcdef-".toList.contains c := by
    decide +kernel
  intro e he i hi
  have here := List.all_eq_true.1 (List.all_eq_true.1 all e he) i hi
  simp only [Bool.and_eq_true, beq_iff_eq, List.all_eq_true, List.contains_iff_mem] at here
  exact ⟨here.1, here.2⟩

/-- The default nodes of that installation are routed. -/
theorem routed_iff_edge_path_fooNode :
    ∃ s node user, (plane {}).run (.initial 0) fooNode = some s ∧ node ∈ s.db.nodes.rows ∧
      user ∈ s.db.users.rows ∧ node.protocol = .vless ∧ Routed prefixRule node user := by
  obtain ⟨s, run⟩ := Option.isSome_iff_exists.1
    (by decide +kernel : ((plane {}).run (.initial 0) fooNode).isSome)
  have rows : ((plane {}).run (.initial 0) fooNode).all (fun s => s.db.users.rows.any fun _ =>
      s.db.nodes.rows.any fun n => n.protocol = .vless && EdgePath n.path) := by decide +kernel
  simp only [run, Option.all_some, List.any_eq_true, Bool.and_eq_true, decide_eq_true_eq] at rows
  obtain ⟨user, hu, node, hn, vless, path⟩ := rows
  have routes := routed_iff_edge_path prefixRule prefixRule_ingress {} 0 fooNode s run fooNode_uuids
  exact ⟨s, node, user, run, hn, hu, vless, (routes.1 node hn user hu).2 path⟩

/-- The link of the node at `/foo` does not reach the gateway. -/
theorem foo_path_unrouted :
    ¬ ∀ (ingress : String → Prop) (cfg : Settings) (start : Instant) (es : List Event) (s : Plane),
      IngressRule ingress → (plane cfg).run (.initial start) es = some s →
      (∀ e ∈ es, ∀ i ∈ e.draws, IsUuid i) →
      ∀ node ∈ s.db.nodes.rows, ∀ user ∈ s.db.users.rows,
        node.protocol = .vless ∨ node.protocol = .vmess → Routed ingress node user := by
  intro claim
  obtain ⟨s, run⟩ := Option.isSome_iff_exists.1
    (by decide +kernel : ((plane {}).run (.initial 0) fooNode).isSome)
  have rows : ((plane {}).run (.initial 0) fooNode).all (fun s => s.db.users.rows.any fun u =>
      s.db.nodes.rows.any fun n => n.protocol = .vless && !edgeHandles (publicWsPath n u)) := by
    decide +kernel
  simp only [run, Option.all_some, List.any_eq_true, Bool.and_eq_true, decide_eq_true_eq,
    Bool.not_eq_true'] at rows
  obtain ⟨user, hu, node, hn, vless, unhandled⟩ := rows
  have routed := claim prefixRule {} 0 fooNode s prefixRule_ingress run fooNode_uuids node hn user hu
    (.inl vless)
  rw [routed.handled] at unhandled
  cases unhandled

end Arena.Routing
