import Arena.Model.Auth
import Arena.Model.Links
import Arena.Model.Seed

/-!
# An installation and its start-up

`seed_database` of `backend/app/main.py` as a whole, in its one transaction: the configured
administrator and the two default nodes. `nodes.updated_at` stands beside the table: the column
is written by every `UPDATE` of its row (`onupdate`), and a flush updates the rows that have a
column to write.
-/

namespace Arena.Model

open Arena.Lib

/-- `INSERT INTO admins`. -/
def AuthDb.insertAdmin? (db : AuthDb) (admin : Admin) : Option AuthDb :=
  match h : db.admins.insert? admin with
  | none => none
  | some admins =>
    if taken : admin.username ∈ db.admins.rows.map Admin.username then none
    else some
      { db with
        admins := admins
        usernames := by
          rw [(Table.insert?_eq_some_iff.1 h).2, List.map_append, List.nodup_append]
          refine ⟨db.usernames, by simp, ?_⟩
          rintro a ha b hb rfl
          simp only [List.map_cons, List.map_nil, List.mem_singleton] at hb
          exact taken (hb ▸ ha)
        owner := fun s hs => by
          obtain ⟨a, ha⟩ := Option.isSome_iff_exists.1 (db.owner s hs)
          simp [Table.find?_insert_of_isSome h ha] }

structure Installation where
  auth : AuthDb
  db : Database
  /-- `nodes.updated_at`, of the node with an identifier. -/
  updatedAt : Id → Instant

/-- What a run of `seed_database` draws: identifiers, the salted hash of the configured password
and the time of its flush. -/
structure SeedDraw where
  adminId : Id
  passwordHash : String
  vlessId : Id
  vmessId : Id
  now : Instant

/-- The administrator of the settings, if there is none of that name. -/
def seedAdmin (username : String) (draw : SeedDraw) (db : AuthDb) : Except HttpError AuthDb :=
  if db.admins.rows.any (·.username = username) then .ok db
  else match db.insertAdmin? ⟨draw.adminId, username, draw.passwordHash⟩ with
    | none => .error internalError
    | some db => .ok (db.addAudit (authEvent "system" "admin.seeded" "admin" draw.adminId))

/-- `"adaptive_endpoint" in metadata`. -/
def Json.hasFlag : Json → Bool
  | .obj members => (members.lookup "adaptive_endpoint").isSome
  | _ => false

/-- The row has a column to write: one that start-up assigned another value. -/
def Node.assigned (node row : Node) : Bool :=
  node.metadata.hasFlag ≠ row.metadata.hasFlag || node.host ≠ row.host || node.port ≠ row.port ||
    node.security ≠ row.security || node.sni ≠ row.sni || node.websocketHost ≠ row.websocketHost

/-- `nodes.updated_at` after a flush: `default` for a new row, `onupdate` for a written one. -/
def flushTime (now : Instant) (before after : Table Node.id) (updatedAt : Id → Instant) (id : Id) :
    Instant :=
  match before.find? id, after.find? id with
  | some node, some row => if node.assigned row then now else updatedAt id
  | none, some _ => now
  | _, none => updatedAt id

/-- `seed_database`. -/
def seedInstallation (cfg : Settings) (username : String) (draw : SeedDraw) (s : Installation) :
    Except HttpError Installation := do
  let auth ← seedAdmin username draw s.auth
  let db ← seedDatabase cfg draw.vlessId draw.vmessId s.db
  .ok ⟨auth, db, flushTime draw.now s.db.nodes db.nodes s.updatedAt⟩

/-- The slugs of the default nodes. -/
def isDefaultSlug (slug : String) : Bool := slug = "arena-vless" || slug = "arena-vmess"

variable {cfg : Settings} {db db' : Database} {auth auth' : AuthDb} {node n row : Node} {newId : Id}
  {name slug username : String} {protocol : Protocol} {draw : SeedDraw}

/-! ## A default node -/

theorem reseed_eq_ok : node.reseed = .ok row ↔ ∃ flagged, node.metadata.withAdaptiveFlag = .ok flagged ∧
    ∃ adaptive, Node.adaptiveFlag { node with metadata := flagged } = .ok adaptive ∧
      row = if adaptive then Node.makeAdaptive { node with metadata := flagged }
        else { node with metadata := flagged } := by
  simp only [Node.reseed, bind_eq_ok, Except.ok.injEq]
  constructor
  · rintro ⟨flagged, stored, adaptive, read, rfl⟩
    exact ⟨flagged, stored, adaptive, read, rfl⟩
  · rintro ⟨flagged, stored, adaptive, read, rfl⟩
    exact ⟨flagged, stored, adaptive, read, rfl⟩

theorem withAdaptiveFlag_hasFlag {value flagged : Json} (stored : value.withAdaptiveFlag = .ok flagged) :
    flagged.hasFlag := by
  cases value with
  | obj members =>
    simp only [Json.withAdaptiveFlag, Except.ok.injEq] at stored
    subst stored
    split
    · rename_i flag known
      simp [Json.hasFlag, known]
    · simp [Json.hasFlag, List.lookup_append]
  | _ => cases stored

theorem withAdaptiveFlag_of_hasFlag {value : Json} (flag : value.hasFlag) :
    value.withAdaptiveFlag = .ok value := by
  cases value with
  | obj members =>
    obtain ⟨known, there⟩ := Option.isSome_iff_exists.1 flag
    rw [Json.withAdaptiveFlag, there]
  | _ => cases flag

/-- Start-up assigns the columns of an endpoint only. -/
theorem reseed_columns (reseeded : node.reseed = .ok row) : row =
    { node with
      metadata := row.metadata
      host := row.host
      port := row.port
      security := row.security
      sni := row.sni
      websocketHost := row.websocketHost } := by
  obtain ⟨flagged, -, adaptive, -, rfl⟩ := reseed_eq_ok.1 reseeded
  cases adaptive <;> rfl

theorem assign_reseed (reseeded : node.reseed = .ok row) : Node.assign row node = row := by
  rw [reseed_columns reseeded]
  rfl

theorem reseed_slug (reseeded : node.reseed = .ok row) : row.slug = node.slug := by
  rw [reseed_columns reseeded]

theorem reseed_id (reseeded : node.reseed = .ok row) : row.id = node.id := by
  rw [reseed_columns reseeded]

theorem reseed_path (reseeded : node.reseed = .ok row) : row.path = node.path := by
  rw [reseed_columns reseeded]

theorem adaptiveFlag_congr {node' : Node} (same : node'.metadata = node.metadata) :
    node'.adaptiveFlag = node.adaptiveFlag := by
  rw [Node.adaptiveFlag, Node.adaptiveFlag, same]

/-- **A row that start-up has stored stays** at the next start. -/
theorem reseed_reseed (reseeded : node.reseed = .ok row) : row.reseed = .ok row := by
  obtain ⟨flagged, stored, adaptive, read, made⟩ := reseed_eq_ok.1 reseeded
  have metadata : row.metadata = flagged := by
    rw [made]
    split <;> rfl
  have kept : row.metadata.withAdaptiveFlag = .ok flagged :=
    metadata ▸ withAdaptiveFlag_of_hasFlag (metadata ▸ withAdaptiveFlag_hasFlag stored)
  have same : Node.adaptiveFlag { row with metadata := flagged } = .ok adaptive :=
    (adaptiveFlag_congr rfl).trans read
  refine reseed_eq_ok.2 ⟨flagged, kept, adaptive, same, ?_⟩
  rw [made]
  cases adaptive <;> rfl

/-- A fixed endpoint, marked so, is left alone. -/
theorem reseed_fixed (flag : node.metadata.hasFlag) (fixed : node.adaptiveFlag = .ok false) :
    node.reseed = .ok node :=
  reseed_eq_ok.2 ⟨_, withAdaptiveFlag_of_hasFlag flag, false, fixed, rfl⟩

theorem reseed_object (object : node.metadata.isObject) : ∃ row, node.reseed = .ok row := by
  cases metadata : node.metadata with
  | obj members =>
    have stored : ∃ known, node.metadata.withAdaptiveFlag = .ok (.obj known) := by
      rw [metadata, Json.withAdaptiveFlag]
      split
      · exact ⟨_, rfl⟩
      · exact ⟨_, rfl⟩
    obtain ⟨known, stored⟩ := stored
    obtain ⟨flag, read⟩ : ∃ flag, Node.adaptiveFlag { node with metadata := .obj known } = .ok flag :=
      ⟨_, bind_eq_ok.2 ⟨_, rfl, rfl⟩⟩
    exact ⟨_, reseed_eq_ok.2 ⟨_, stored, flag, read, rfl⟩⟩
  | _ => simp [Json.isObject, metadata] at object

theorem defaultNode_reseed :
    (defaultNode cfg newId name slug protocol).reseed = .ok (defaultNode cfg newId name slug protocol) :=
  reseed_eq_ok.2 ⟨_, withAdaptiveFlag_of_hasFlag rfl, true, rfl, rfl⟩

/-! ## One round of the loop -/

/-- **Everything a round can do**: it adds the default node, or stores what start-up makes of the
one that is there. -/
inductive SeedStep (cfg : Settings) (newId : Id) (name slug : String) (protocol : Protocol)
    (before after : Table Node.id) : Prop
  | added (free : ∀ n ∈ before.rows, n.slug ≠ slug)
      (inserted : before.insert? (defaultNode cfg newId name slug protocol) = some after)
  | stored (node row : Node) (mem : node ∈ before.rows) (mine : node.slug = slug)
      (reseeded : node.reseed = .ok row)
      (written : after = before.update (·.id = node.id) (Node.assign row) fun _ => Node.assign_id)

theorem seedNode_cases (seeded : seedNode cfg newId name slug protocol db = .ok db') :
    SeedStep cfg newId name slug protocol db.nodes db'.nodes := by
  unfold seedNode at seeded
  split at seeded
  · rename_i free
    split at seeded
    · cases seeded
    · rename_i mid inserted
      cases seeded
      exact .added (by simpa using free) (Database.insertNode?_eq_some inserted).1
  · rename_i node found
    obtain ⟨row, reseeded, made⟩ := bind_eq_ok.1 seeded
    cases made
    exact .stored node row (List.mem_of_find?_eq_some found) (by simpa using List.find?_some found)
      reseeded rfl

section Step

variable {before after : Table Node.id} (step : SeedStep cfg newId name slug protocol before after)
include step

/-- A round leaves the rows of other slugs. -/
theorem SeedStep.other (mem : n ∈ before.rows) (other : n.slug ≠ slug) : after.find? n.id = some n := by
  cases step with
  | added free inserted => exact Table.find?_insert_of_isSome inserted (Table.find?_of_mem mem)
  | stored node row there mine reseeded written =>
    have apart : ¬ n.id = node.id := fun same => other (Table.eq_of_key_eq mem there same ▸ mine)
    rw [written, Table.find?_update, Table.find?_of_mem mem, Option.map_some, if_neg (by simpa using apart)]

/-- A round stores what start-up makes of the default node. -/
theorem SeedStep.default (mem : n ∈ before.rows) (mine : n.slug = slug)
    (slugs : (before.rows.map Node.slug).Nodup) :
    ∃ row, n.reseed = .ok row ∧ after.find? n.id = some row := by
  cases step with
  | added free inserted => exact absurd mine (free n mem)
  | stored node row there mine' reseeded written =>
    obtain rfl : n = node := List.inj_on_of_nodup_map slugs mem there (mine.trans mine'.symm)
    refine ⟨row, reseeded, ?_⟩
    rw [written, Table.find?_update, Table.find?_of_mem mem, Option.map_some, if_pos (by simp),
      assign_reseed reseeded]

/-- After a round the default node is there, as the next start leaves it. -/
theorem SeedStep.settled : ∃ n ∈ after.rows, n.slug = slug ∧ n.reseed = .ok n := by
  cases step with
  | added free inserted =>
    exact ⟨_, (Table.mem_insert inserted).2 (.inr rfl), rfl, defaultNode_reseed⟩
  | stored node row there mine reseeded written =>
    refine ⟨row, ?_, (reseed_slug reseeded).trans mine, reseed_reseed reseeded⟩
    rw [written, Table.mem_update]
    exact ⟨node, there, by rw [if_pos (by simp), assign_reseed reseeded]⟩

/-- Where a row after a round comes from. -/
theorem SeedStep.source (mem : n ∈ after.rows) : n ∈ before.rows ∨
    n = defaultNode cfg newId name slug protocol ∨ ∃ n₀ ∈ before.rows, n₀.reseed = .ok n := by
  cases step with
  | added free inserted =>
    rcases (Table.mem_insert inserted).1 mem with mem | rfl
    · exact .inl mem
    · exact .inr (.inl rfl)
  | stored node row there mine reseeded written =>
    rw [written, Table.mem_update] at mem
    obtain ⟨n₀, mem, rfl⟩ := mem
    split
    · rename_i same
      obtain rfl : n₀ = node := Table.eq_of_key_eq mem there (of_decide_eq_true same)
      exact .inr (.inr ⟨n₀, mem, by rw [assign_reseed reseeded, reseeded]⟩)
    · exact .inl mem

end Step

/-! ## Both rounds -/

/-- A row as start-up leaves it. -/
def Node.afterStart (n : Node) : Except HttpError Node := if isDefaultSlug n.slug then n.reseed else .ok n

/-- A settled default row makes a round do nothing. -/
theorem seedNode_settled (cfg : Settings) (newId : Id) (name : String) (protocol : Protocol)
    (mem : n ∈ db.nodes.rows) (mine : n.slug = slug) (settled : n.reseed = .ok n) :
    ∃ db', seedNode cfg newId name slug protocol db = .ok db' ∧ db'.nodes = db.nodes := by
  unfold seedNode
  split
  · rename_i free
    exact absurd mine (by simpa using List.find?_eq_none.1 free n mem)
  · rename_i node found
    have named : node.slug = slug := by simpa using List.find?_some found
    obtain rfl : n = node := List.inj_on_of_nodup_map db.slugs mem (List.mem_of_find?_eq_some found)
      (mine.trans named.symm)
    refine ⟨_, bind_eq_ok.2 ⟨n, settled, rfl⟩, ?_⟩
    rw [Database.updateNodes_nodes]
    refine Table.update_key_id fun r here => ?_
    obtain rfl : r = n := Table.eq_of_key_eq (Table.find?_mem here) mem (Table.find?_key here)
    exact assign_reseed settled

theorem seedDatabase_steps {vlessId vmessId : Id} (seeded : seedDatabase cfg vlessId vmessId db = .ok db') :
    ∃ mid : Database, SeedStep cfg vlessId "ARENA VLESS" "arena-vless" .vless db.nodes mid.nodes ∧
      SeedStep cfg vmessId "ARENA VMess" "arena-vmess" .vmess mid.nodes db'.nodes ∧
      (mid.nodes.rows.map Node.slug).Nodup := by
  obtain ⟨mid, first, second⟩ := bind_eq_ok.1 seeded
  exact ⟨mid, seedNode_cases first, seedNode_cases second, mid.slugs⟩

/-- **What start-up makes of each row.** -/
theorem seedDatabase_row {vlessId vmessId : Id} (seeded : seedDatabase cfg vlessId vmessId db = .ok db')
    (mem : n ∈ db.nodes.rows) : ∃ row, n.afterStart = .ok row ∧ db'.nodes.find? n.id = some row := by
  obtain ⟨mid, first, second, slugs⟩ := seedDatabase_steps seeded
  by_cases vless : n.slug = "arena-vless"
  · obtain ⟨row, reseeded, found⟩ := first.default mem vless db.slugs
    have kept := second.other (Table.find?_mem found) (by simp [reseed_slug reseeded, vless])
    exact ⟨row, by simpa [Node.afterStart, isDefaultSlug, vless] using reseeded,
      reseed_id reseeded ▸ kept⟩
  · have still := first.other mem vless
    by_cases vmess : n.slug = "arena-vmess"
    · obtain ⟨row, reseeded, found⟩ := second.default (Table.find?_mem still) vmess slugs
      exact ⟨row, by simpa [Node.afterStart, isDefaultSlug, vmess] using reseeded, found⟩
    · exact ⟨n, by simp [Node.afterStart, isDefaultSlug, vless, vmess],
        second.other (Table.find?_mem still) vmess⟩

/-- After a start both defaults are there, as the next start leaves them. -/
theorem seedDatabase_settled {vlessId vmessId : Id} (seeded : seedDatabase cfg vlessId vmessId db = .ok db')
    (default : isDefaultSlug slug) : ∃ n ∈ db'.nodes.rows, n.slug = slug ∧ n.reseed = .ok n := by
  obtain ⟨mid, first, second, -⟩ := seedDatabase_steps seeded
  simp only [isDefaultSlug, Bool.or_eq_true, decide_eq_true_eq] at default
  rcases default with rfl | rfl
  · obtain ⟨n, mem, mine, settled⟩ := first.settled
    exact ⟨n, Table.find?_mem (second.other mem (by simp [mine])), mine, settled⟩
  · exact second.settled

/-- Where both defaults are settled, a start changes no node. -/
theorem seedDatabase_of_settled (cfg : Settings) (vlessId vmessId : Id)
    (settled : ∀ slug, isDefaultSlug slug → ∃ n ∈ db.nodes.rows, n.slug = slug ∧ n.reseed = .ok n) :
    ∃ db', seedDatabase cfg vlessId vmessId db = .ok db' ∧ db'.nodes = db.nodes := by
  obtain ⟨vless, mem, mine, still⟩ := settled "arena-vless" rfl
  obtain ⟨mid, first, nodes⟩ := seedNode_settled cfg vlessId "ARENA VLESS" .vless mem mine still
  obtain ⟨vmess, mem, mine, still⟩ := settled "arena-vmess" rfl
  obtain ⟨db', second, nodes'⟩ := seedNode_settled cfg vmessId "ARENA VMess" .vmess (nodes ▸ mem) mine still
  exact ⟨db', bind_eq_ok.2 ⟨mid, first, second⟩, nodes'.trans nodes⟩

/-- A start succeeds on metadata that are objects, with new identifiers. -/
theorem seedNode_isOk (cfg : Settings) (name : String) (protocol : Protocol)
    (objects : ∀ n ∈ db.nodes.rows, n.metadata.isObject) (fresh : db.nodes.find? newId = none) :
    ∃ db', seedNode cfg newId name slug protocol db = .ok db' := by
  unfold seedNode
  cases found : db.nodes.rows.find? (·.slug = slug) with
  | none =>
    have free : ∀ n ∈ db.nodes.rows, n.slug ≠ slug := by simpa using found
    obtain ⟨mid, inserted⟩ := Option.isSome_iff_exists.1
      (@Database.insertNode?_isSome db (defaultNode cfg newId name slug protocol) fresh free)
    exact ⟨mid, by simp [inserted]⟩
  | some node =>
    obtain ⟨row, reseeded⟩ := reseed_object (objects node (List.mem_of_find?_eq_some found))
    exact ⟨_, bind_eq_ok.2 ⟨row, reseeded, rfl⟩⟩

theorem reseed_isObject (reseeded : node.reseed = .ok row) : row.metadata.isObject := by
  obtain ⟨flagged, stored, adaptive, -, rfl⟩ := reseed_eq_ok.1 reseeded
  have object : flagged.isObject := by
    cases metadata : node.metadata with
    | obj members =>
      rw [metadata] at stored
      simp only [Json.withAdaptiveFlag, Except.ok.injEq] at stored
      subst stored
      split <;> rfl
    | _ => simp [metadata, Json.withAdaptiveFlag] at stored
  cases adaptive <;> exact object

/-- **A start succeeds** on metadata that are objects, with new identifiers. -/
theorem seedDatabase_isOk {vlessId vmessId : Id} (cfg : Settings)
    (objects : ∀ n ∈ db.nodes.rows, n.metadata.isObject) (vless : db.nodes.find? vlessId = none)
    (vmess : db.nodes.find? vmessId = none) (distinct : vlessId ≠ vmessId) :
    ∃ db', seedDatabase cfg vlessId vmessId db = .ok db' := by
  obtain ⟨mid, first⟩ : ∃ mid, seedNode cfg vlessId "ARENA VLESS" "arena-vless" .vless db = .ok mid :=
    seedNode_isOk cfg "ARENA VLESS" .vless objects vless
  have step := seedNode_cases first
  have still : ∀ n ∈ mid.nodes.rows, n.metadata.isObject := by
    intro n mem
    rcases step.source mem with mem | rfl | ⟨n₀, -, reseeded⟩
    · exact objects n mem
    · rfl
    · exact reseed_isObject reseeded
  have fresh : mid.nodes.find? vmessId = none := by
    refine Table.find?_eq_none_iff.2 fun n mem same => ?_
    rcases step.source mem with mem | rfl | ⟨n₀, mem, reseeded⟩
    · exact Table.find?_eq_none_iff.1 vmess n mem same
    · exact distinct same
    · exact Table.find?_eq_none_iff.1 vmess n₀ mem ((reseed_id reseeded).symm.trans same)
  obtain ⟨db', second⟩ : ∃ db', seedNode cfg vmessId "ARENA VMess" "arena-vmess" .vmess mid = .ok db' :=
    seedNode_isOk cfg "ARENA VMess" .vmess still fresh
  exact ⟨db', bind_eq_ok.2 ⟨mid, first, second⟩⟩

/-! ## The administrator -/

theorem insertAdmin?_eq_some {admin : Admin} (h : auth.insertAdmin? admin = some auth') :
    auth.admins.insert? admin = some auth'.admins ∧ auth'.sessions = auth.sessions := by
  unfold AuthDb.insertAdmin? at h
  split at h
  · cases h
  · split at h
    · cases h
    · cases h
      exact ⟨‹_›, rfl⟩

theorem insertAdmin?_isSome {admin : Admin} (fresh : auth.admins.find? admin.id = none)
    (free : ∀ a ∈ auth.admins.rows, a.username ≠ admin.username) : (auth.insertAdmin? admin).isSome := by
  have fits := Table.insert?_isSome fresh
  unfold AuthDb.insertAdmin?
  split
  · simp_all
  · rw [dif_neg (by simpa using free)]
    rfl

/-- **What start-up does to the administrators**: nothing, or one more of the configured name. -/
theorem seedAdmin_cases (seeded : seedAdmin username draw auth = .ok auth') :
    (auth' = auth ∧ ∃ a ∈ auth.admins.rows, a.username = username) ∨
      auth.admins.insert? ⟨draw.adminId, username, draw.passwordHash⟩ = some auth'.admins := by
  unfold seedAdmin at seeded
  split at seeded
  · rename_i known
    cases seeded
    exact .inl ⟨rfl, by simpa using known⟩
  · split at seeded
    · cases seeded
    · rename_i mid inserted
      cases seeded
      exact .inr (insertAdmin?_eq_some inserted).1

theorem seedAdmin_isOk (username : String) (fresh : auth.admins.find? draw.adminId = none) :
    ∃ auth', seedAdmin username draw auth = .ok auth' := by
  unfold seedAdmin
  split
  · exact ⟨_, rfl⟩
  · rename_i free
    have free : ∀ a ∈ auth.admins.rows, a.username ≠ username := by simpa using free
    obtain ⟨mid, inserted⟩ := Option.isSome_iff_exists.1
      (@insertAdmin?_isSome auth ⟨draw.adminId, username, draw.passwordHash⟩ fresh free)
    exact ⟨_, by rw [inserted]⟩

theorem seedAdmin_of_known (draw : SeedDraw) (known : ∃ a ∈ auth.admins.rows, a.username = username) :
    seedAdmin username draw auth = .ok auth := by
  obtain ⟨a, mem, named⟩ := known
  rw [seedAdmin, if_pos (List.any_eq_true.2 ⟨a, mem, by simpa using named⟩)]

end Arena.Model
