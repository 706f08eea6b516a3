import Arena.Model.Origins

/-!
# A property of every node row

Where start-up and `disable_node` keep a property, a step keeps it of every row exactly when what
its `create_node` or `update_node` stores has it.
-/

namespace Arena.Model

open Arena.Lib

/-- Start-up and `disable_node` leave only rows with the property. -/
structure RowsKept (cfg : Settings) (P : Node → Prop) : Prop where
  default (newId : Id) (name slug : String) (protocol : Protocol) : P (defaultNode cfg newId name slug protocol)
  reseed {n row : Node} (before : P n) (reseeded : n.reseed = .ok row) : P row
  disable {n : Node} (before : P n) : P n.disable

/-- The row that an accepted `create_node` or `update_node` stores has the property. -/
def StoresOnly (P : Node → Prop) (db : Database) : Event → Prop
  | .admin _ (.createNode newId p) =>
      validateNode p = .ok () → (∀ n ∈ db.nodes.rows, n.slug ≠ p.slug) → P (newNode newId p)
  | .admin _ (.updateNode nodeId p) =>
      p.refused = false → ∀ n, db.nodes.find? nodeId = some n → P (p.apply n)
  | _ => True

variable {cfg : Settings} {now : Instant} {db : Database} {s s' : Plane} {e : Event} {P : Node → Prop}

/-- **The step lemma.** -/
theorem RowsKept.commit (kept : RowsKept cfg P) (before : ∀ n ∈ db.nodes.rows, P n) (stores : StoresOnly P db e) :
    ∀ n ∈ (e.commit cfg now db).nodes.rows, P n := by
  intro n mem
  cases commit_nodeRow mem with
  | kept _ _ there => exact before n there
  | added vlessId vmessId newId name slug protocol => exact kept.default newId name slug protocol
  | reseeded _ _ n₀ _ there reseeded => exact kept.reseed (before n₀ there) reseeded
  | created name newId p valid free => exact stores valid free
  | patched name nodeId p n₀ found accepted => exact stores accepted n₀ found
  | disabled name nodeId n₀ there => exact kept.disable (before n₀ there)

/-- The condition is exact: what a step stores is a row afterwards. -/
theorem RowsKept.step_iff (kept : RowsKept cfg P) (before : ∀ n ∈ s.db.nodes.rows, P n)
    (drawn : ∀ n ∈ s.db.nodes.rows, n.id ∈ s.issued) (step : (plane cfg).step s e = some s') :
    (∀ n ∈ s'.db.nodes.rows, P n) ↔ StoresOnly P s.db e := by
  obtain ⟨new, rfl⟩ := plane_step.1 step
  refine ⟨fun after => ?_, kept.commit before⟩
  change ∀ n ∈ (e.commit cfg s.now s.db).nodes.rows, P n at after
  cases e with
  | admin name op =>
    cases op with
    | createNode newId p =>
      intro valid free
      have unused : newId ∉ s.issued := new newId (by simp [Event.draws, AdminOp.draws])
      have fresh : ∀ n ∈ s.db.nodes.rows, n.id ≠ newId := fun n mem same => unused (same ▸ drawn n mem)
      exact after _ (created_mem valid free fresh)
    | updateNode nodeId p =>
      intro accepted n found
      exact after _ (patched_mem found accepted)
    | _ => trivial
  | _ => trivial

end Arena.Model
