import Arena.Model.NodeSteps
import Arena.Model.UserRow

/-!
# Where rows come from

A row has its identifier from the event that created it. A node has its path from start-up,
`create_node` or `update_node`; every other event keeps it.
-/

namespace Arena.Model

open Arena.Lib

variable {cfg : Settings} {now : Instant} {db db' : Database} {s s' : Plane} {e : Event}

/-- The paths that an event may store in a node. -/
def Event.paths (cfg : Settings) : Event → List String
  | .start .. => [normalizePath cfg.gatewayPublicPath]
  | .admin _ (.createNode _ p) => [normalizePath p.path]
  | .admin _ (.updateNode _ p) => match p.path with
    | .set value => [patchPath value]
    | _ => []
  | _ => []

/-- The row has its identifier and its path from a row before or from the event. -/
def Descends (cfg : Settings) (db : Database) (e : Event) (n : Node) : Prop :=
  (∃ n₀ ∈ db.nodes.rows, n.id = n₀.id ∧ (n.path = n₀.path ∨ n.path ∈ e.paths cfg)) ∨
    (n.id ∈ e.draws ∧ n.path ∈ e.paths cfg)

theorem descends_of_mem {n : Node} (h : n ∈ db.nodes.rows) : Descends cfg db e n :=
  .inl ⟨n, h, rfl, .inl rfl⟩

/-- **The step lemma** for node rows. -/
theorem commit_descends {n : Node} (h : n ∈ (e.commit cfg now db).nodes.rows) : Descends cfg db e n := by
  cases commit_nodeRow h with
  | kept _ _ mem => exact descends_of_mem mem
  | added vlessId vmessId newId name slug protocol drawn =>
    exact .inr ⟨by simpa [Event.draws, defaultNode] using drawn, by simp [Event.paths, defaultNode]⟩
  | reseeded vlessId vmessId n₀ _ mem reseeded =>
    exact .inl ⟨n₀, mem, reseed_id reseeded, .inl (reseed_path reseeded)⟩
  | created name newId p =>
    exact .inr ⟨by simp [Event.draws, AdminOp.draws, newNode], by simp [Event.paths, newNode]⟩
  | patched name nodeId p n₀ found =>
    refine .inl ⟨n₀, Table.find?_mem found, rfl, ?_⟩
    cases given : p.path with
    | unset | null => exact .inl (by simp [NodeUpdate.apply, given, Patch.map, Patch.getD])
    | set value => exact .inr (by simp [Event.paths, NodeUpdate.apply, given, Patch.map, Patch.getD])
  | disabled name nodeId n₀ mem => exact .inl ⟨n₀, mem, rfl, .inl rfl⟩

/-! ## Identifiers -/

/-- The identifiers of users and nodes have the property. -/
def Identified (P : Id → Prop) (db : Database) : Prop :=
  (∀ u ∈ db.users.rows, P u.id) ∧ ∀ n ∈ db.nodes.rows, P n.id

/-- A user row has its identifier from a row before or from the event. -/
theorem commit_user_id {u : User} (h : u ∈ (e.commit cfg now db).users.rows) :
    (∃ u₀ ∈ db.users.rows, u.id = u₀.id) ∨ u.id ∈ e.draws := by
  have change := user_change cfg now db u.id e
  have after := Table.find?_of_mem h
  generalize before : db.users.find? u.id = was at change
  generalize (e.commit cfg now db).users.find? u.id = is at change after
  cases change with
  | absent | deleted => cases after
  | moved _ u₀ _ => exact .inl ⟨u₀, Table.find?_mem before, (Table.find?_key before).symm⟩
  | created name material p => exact .inr (by simp [Event.draws, AdminOp.draws])

/-- Node rows have drawn identifiers. -/
theorem nodes_drawn_step (drawn : ∀ n ∈ s.db.nodes.rows, n.id ∈ s.issued)
    (step : (plane cfg).step s e = some s') : ∀ n ∈ s'.db.nodes.rows, n.id ∈ s'.issued := by
  obtain ⟨-, rfl⟩ := plane_step.1 step
  intro n mem
  rcases commit_descends mem with ⟨n₀, mem₀, same, -⟩ | ⟨new, -⟩
  · exact List.mem_append_right _ (same ▸ drawn n₀ mem₀)
  · exact List.mem_append_left _ new

/-- **The run lemma**: what holds of every drawn identifier holds of every user and node. -/
theorem run_identified {P : Id → Prop} {es : List Event} (run : (plane cfg).run s es = some s')
    (draws : ∀ e ∈ es, ∀ i ∈ e.draws, P i) (init : Identified P s.db) : Identified P s'.db := by
  have along : (plane cfg).Along (fun _ e => ∀ i ∈ e.draws, P i) s es := Machine.along_of_mem draws s
  have keep : ∀ {s e s'}, Identified P s.db → (∀ i ∈ e.draws, P i) →
      (plane cfg).step s e = some s' → Identified P s'.db := by
    intro s e s' before fresh step
    obtain ⟨-, rfl⟩ := plane_step.1 step
    constructor
    · intro u hu
      rcases commit_user_id hu with ⟨u₀, h₀, same⟩ | drawn
      · exact same ▸ before.1 u₀ h₀
      · exact fresh _ drawn
    · intro n hn
      rcases commit_descends hn with ⟨n₀, h₀, same, -⟩ | ⟨drawn, -⟩
      · exact same ▸ before.2 n₀ h₀
      · exact fresh _ drawn
  exact Machine.along_invariant (I := fun s => Identified P s.db) keep init along run

/-- **The run lemma** for paths: what holds of every path an event stores holds of the path
of every node. -/
theorem run_paths {P : String → Prop} {es : List Event} (run : (plane cfg).run s es = some s')
    (stored : ∀ e ∈ es, ∀ v ∈ e.paths cfg, P v) (init : ∀ n ∈ s.db.nodes.rows, P n.path) :
    ∀ n ∈ s'.db.nodes.rows, P n.path := by
  have along : (plane cfg).Along (fun _ e => ∀ v ∈ e.paths cfg, P v) s es :=
    Machine.along_of_mem stored s
  have keep : ∀ {s e s'}, (∀ n ∈ s.db.nodes.rows, P n.path) → (∀ v ∈ e.paths cfg, P v) →
      (plane cfg).step s e = some s' → ∀ n ∈ s'.db.nodes.rows, P n.path := by
    intro s e s' before fits step n hn
    obtain ⟨-, rfl⟩ := plane_step.1 step
    rcases commit_descends hn with ⟨n₀, h₀, -, path | path⟩ | ⟨-, path⟩
    · exact path ▸ before n₀ h₀
    · exact fits _ path
    · exact fits _ path
  exact Machine.along_invariant (I := fun s => ∀ n ∈ s.db.nodes.rows, P n.path) keep init along run

end Arena.Model
