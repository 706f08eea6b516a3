import Arena.Model.Patches
import Arena.Model.Startup

/-!
# What an event does to a node row

A row after a commit is one from before, one that start-up, `update_node` or `disable_node` made of
one from before, or a new one. What each of the ways keeps, every run keeps.
-/

namespace Arena.Model

open Arena.Lib

/-- **Where a node row comes from**, by what the event is. -/
inductive NodeRow (cfg : Settings) (db : Database) : Event → Node → Prop
  | kept (e n) (mem : n ∈ db.nodes.rows) : NodeRow cfg db e n
  | added (vlessId vmessId newId name slug protocol) (drawn : newId = vlessId ∨ newId = vmessId) :
      NodeRow cfg db (.start vlessId vmessId) (defaultNode cfg newId name slug protocol)
  | reseeded (vlessId vmessId n row) (mem : n ∈ db.nodes.rows) (reseeded : n.reseed = .ok row) :
      NodeRow cfg db (.start vlessId vmessId) row
  | created (name newId p) (valid : validateNode p = .ok ()) (free : ∀ n ∈ db.nodes.rows, n.slug ≠ p.slug) :
      NodeRow cfg db (.admin name (.createNode newId p)) (newNode newId p)
  | patched (name nodeId p n) (found : db.nodes.find? nodeId = some n) (accepted : p.refused = false) :
      NodeRow cfg db (.admin name (.updateNode nodeId p)) (p.apply n)
  | disabled (name nodeId n) (mem : n ∈ db.nodes.rows) :
      NodeRow cfg db (.admin name (.disableNode nodeId)) n.disable

variable {cfg : Settings} {now : Instant} {db db' : Database} {e : Event} {n : Node} {newId : Id}
  {name slug : String} {protocol : Protocol}

/-- The second round finds what the first one made of a row, which another round leaves. -/
theorem seedDatabase_nodeRow {vlessId vmessId : Id}
    (seeded : seedDatabase cfg vlessId vmessId db = .ok db') (mem : n ∈ db'.nodes.rows) :
    NodeRow cfg db (.start vlessId vmessId) n := by
  obtain ⟨mid, first, second, -⟩ := seedDatabase_steps seeded
  have early {n₀ : Node} (mem : n₀ ∈ mid.nodes.rows) : NodeRow cfg db (.start vlessId vmessId) n₀ := by
    rcases first.source mem with mem | rfl | ⟨n₁, mem, reseeded⟩
    · exact .kept _ _ mem
    · exact .added _ _ _ _ _ _ (.inl rfl)
    · exact .reseeded _ _ n₁ _ mem reseeded
  rcases second.source mem with mem | rfl | ⟨n₀, mem, reseeded⟩
  · exact early mem
  · exact .added _ _ _ _ _ _ (.inr rfl)
  · rcases first.source mem with there | rfl | ⟨n₁, there, earlier⟩
    · exact .reseeded _ _ n₀ _ there reseeded
    · obtain rfl := Except.ok.inj (defaultNode_reseed.symm.trans reseeded)
      exact .added _ _ _ _ _ _ (.inl rfl)
    · obtain rfl := Except.ok.inj ((reseed_reseed earlier).symm.trans reseeded)
      exact .reseeded _ _ n₁ _ there earlier

theorem createNode_eq_ok {admin : String} {newId : Id} {p : NodeCreate} :
    (∃ db', createNode admin newId p db = .ok db') ↔ validateNode p = .ok () ∧
      (∀ n ∈ db.nodes.rows, n.slug ≠ p.slug) ∧ (db.insertNode? (newNode newId p)).isSome := by
  constructor
  · rintro ⟨db', made⟩
    obtain ⟨valid, free, mid, -, inserted, -⟩ := createNode_inv made
    exact ⟨valid, free, by simp [inserted]⟩
  · simp only [createNode, bind_eq_ok]
    rintro ⟨valid, free, inserted⟩
    obtain ⟨mid, inserted⟩ := Option.isSome_iff_exists.1 inserted
    have open_slug : ¬ db.nodes.rows.any (·.slug = p.slug) := by simpa using free
    exact ⟨_, (), valid, by rw [if_neg open_slug, inserted]⟩

/-- **The step lemma** for node rows. -/
theorem commit_nodeRow (mem : n ∈ (e.commit cfg now db).nodes.rows) : NodeRow cfg db e n := by
  generalize made : e.commit cfg now db = db' at mem
  cases made ▸ commit_changed cfg now db e with
  | same _ same => exact .kept _ _ (same ▸ mem)
  | seeded vlessId vmessId seeded => exact seedDatabase_nodeRow seeded mem
  | refused newId p _ nodes => exact .kept _ _ (nodes ▸ mem)
  | admitted newId p user node _ committed =>
    exact .kept _ _ ((admission_eq_some committed).2.2.1 ▸ mem)
  | heard p session user verdict _ charges => exact .kept _ _ (charges.nodes ▸ mem)
  | closed p session user _ charges => exact .kept _ _ (charges.nodes ▸ mem)
  | administered name op done committed =>
    cases committed with
    | createUser newId material p _ nodes => exact .kept _ _ (nodes ▸ mem)
    | updateUser userId p user row _ _ _ nodes => exact .kept _ _ (nodes ▸ mem)
    | resetUsage userId _ nodes => exact .kept _ _ (nodes ▸ mem)
    | rotateSubscription userId _ nodes => exact .kept _ _ (nodes ▸ mem)
    | attachNode userId nodeId material _ nodes => exact .kept _ _ (nodes ▸ mem)
    | detachNode userId nodeId _ nodes => exact .kept _ _ (nodes ▸ mem)
    | deleteUser userId _ nodes => exact .kept _ _ (nodes ▸ mem)
    | createNode newId p _ nodes =>
      rcases (Table.mem_insert nodes).1 mem with mem | rfl
      · exact .kept _ _ mem
      · obtain ⟨valid, free, -⟩ := createNode_eq_ok.1 ⟨_, done⟩
        exact .created name newId p valid free
    | updateNode nodeId p node row found patched _ nodes =>
      rw [nodes, Table.mem_update] at mem
      obtain ⟨n₀, mem, rfl⟩ := mem
      split
      · rename_i same
        obtain rfl : n₀ = node := Table.eq_of_key_eq mem (Table.find?_mem found)
          ((of_decide_eq_true same).trans (Table.find?_key found).symm)
        obtain ⟨accepted, rfl⟩ := patchNode_eq_ok.1 patched
        rw [Node.assign_apply]
        exact .patched name nodeId p n₀ found accepted
      · exact .kept _ _ mem
    | disableNode nodeId _ nodes =>
      rw [nodes, Table.mem_update] at mem
      obtain ⟨n₀, mem, rfl⟩ := mem
      split
      · exact .disabled name nodeId n₀ mem
      · exact .kept _ _ mem

/-! ## The rows that are committed -/

/-- An accepted `create_node` commits its row. -/
theorem created_mem {p : NodeCreate} (valid : validateNode p = .ok ())
    (free : ∀ n ∈ db.nodes.rows, n.slug ≠ p.slug) (fresh : ∀ n ∈ db.nodes.rows, n.id ≠ newId) :
    newNode newId p ∈ ((Event.admin name (.createNode newId p)).commit cfg now db).nodes.rows := by
  have inserted : (db.insertNode? (newNode newId p)).isSome :=
    Database.insertNode?_isSome (Table.find?_eq_none_iff.2 fresh) free
  obtain ⟨db', made⟩ : ∃ db', createNode name newId p db = .ok db' :=
    createNode_eq_ok.2 ⟨valid, free, inserted⟩
  have made' : (AdminOp.createNode newId p).commit name db = .ok db' := made
  simp only [Event.commit, made', Except.toOption, Option.getD_some]
  cases commit_inv made' with
  | createNode _ _ _ nodes =>
    rw [(Table.insert?_eq_some_iff.1 nodes).2]
    simp

/-- An accepted `update_node` commits its row. -/
theorem patched_mem {nodeId : Id} {p : NodeUpdate} (found : db.nodes.find? nodeId = some n)
    (accepted : p.refused = false) :
    p.apply n ∈ ((Event.admin name (.updateNode nodeId p)).commit cfg now db).nodes.rows := by
  obtain ⟨db', made⟩ : ∃ db', updateNode name nodeId p db = .ok db' :=
    ⟨_, bind_eq_ok.2 ⟨n, getNode_eq_ok.2 found, bind_eq_ok.2
      ⟨p.apply n, patchNode_eq_ok.2 ⟨accepted, rfl⟩, rfl⟩⟩⟩
  have made' : (AdminOp.updateNode nodeId p).commit name db = .ok db' := made
  simp only [Event.commit, made', Except.toOption, Option.getD_some]
  cases commit_inv made' with
  | updateNode _ _ node row found' patched _ nodes =>
    obtain rfl : n = node := Option.some.inj (found.symm.trans found')
    obtain ⟨-, rfl⟩ := patchNode_eq_ok.1 patched
    rw [nodes, Table.mem_update]
    exact ⟨n, Table.find?_mem found, by simp [Table.find?_key found]⟩

end Arena.Model
