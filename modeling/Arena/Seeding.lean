import Arena.Model.Startup

/-!
# What a start changes

`seed_database` runs at every start, over rows that administrators have edited since the last
one. A row that it leaves is one that it leaves again: the flag is stored with the first round,
and the endpoint it assigns depends on nothing else.
-/

namespace Arena.Seeding

open Arena.Lib Arena.Model

variable {cfg : Settings} {username : String} {draw : SeedDraw} {s s' : Installation} {n row : Node}

/-- The drawn identifiers are new. -/
structure Fresh (draw : SeedDraw) (s : Installation) : Prop where
  admin : s.auth.admins.find? draw.adminId = none
  vless : s.db.nodes.find? draw.vlessId = none
  vmess : s.db.nodes.find? draw.vmessId = none
  distinct : draw.vlessId ≠ draw.vmessId

/-- The stored `adaptive_endpoint` is false, as Python reads it. -/
def Fixed (n : Node) : Prop := n.metadata.hasFlag ∧ n.adaptiveFlag = .ok false

/-- The row is as it was. -/
def Unchanged (s s' : Installation) (n : Node) : Prop :=
  s'.db.nodes.find? n.id = some n ∧ s'.updatedAt n.id = s.updatedAt n.id

/-- The row differs in its metadata and its endpoint at most. -/
def SameButEndpoint (n row : Node) : Prop :=
  row = { n with
    metadata := row.metadata
    host := row.host
    port := row.port
    security := row.security
    sni := row.sni
    websocketHost := row.websocketHost }

/-- The metadata and the endpoint may have changed, and nothing else. -/
def EndpointChanged (s s' : Installation) (_ : Instant) (n : Node) : Prop :=
  ∃ row, s'.db.nodes.find? n.id = some row ∧ SameButEndpoint n row ∧
    s'.updatedAt n.id = s.updatedAt n.id

/-- The metadata and the endpoint may have changed, and with them the time of the last change. -/
def EndpointFlushed (s s' : Installation) (now : Instant) (n : Node) : Prop :=
  ∃ row, s'.db.nodes.find? n.id = some row ∧ SameButEndpoint n row ∧
    (row = n ∧ s'.updatedAt n.id = s.updatedAt n.id ∨ row ≠ n ∧ s'.updatedAt n.id = now)

/-- What a start does to an installation, where it does `adaptive` to an adaptive default node. -/
structure Seeded (cfg : Settings) (username : String) (now : Instant) (s s' : Installation)
    (adaptive : Installation → Installation → Instant → Node → Prop) : Prop where
  admins : ∀ a ∈ s.auth.admins.rows, s'.auth.admins.find? a.id = some a
  others : ∀ n ∈ s.db.nodes.rows, isDefaultSlug n.slug = false → Unchanged s s' n
  fixed : ∀ n ∈ s.db.nodes.rows, isDefaultSlug n.slug → Fixed n → Unchanged s s' n
  adaptive : ∀ n ∈ s.db.nodes.rows, isDefaultSlug n.slug → ¬ Fixed n → adaptive s s' now n
  once : ∀ slug, isDefaultSlug slug → ∃! n, n ∈ s'.db.nodes.rows ∧ n.slug = slug
  again : ∀ draw', ∃ s'', seedInstallation cfg username draw' s' = .ok s'' ∧
    s''.auth.admins = s'.auth.admins ∧ s''.db.nodes = s'.db.nodes ∧ s''.updatedAt = s'.updatedAt

/-! ## The time of the last change -/

theorem assigned_self : n.assigned n = false := by simp [Node.assigned]

/-- A stored row differs where a column is written. -/
theorem assigned_iff (reseeded : n.reseed = .ok row) : n.assigned row = true ↔ row ≠ n := by
  constructor
  · rintro written rfl
    rw [assigned_self] at written
    cases written
  · intro other
    by_contra same
    refine other ?_
    simp only [Node.assigned, Bool.not_eq_true, Bool.or_eq_false_iff, decide_eq_false_iff_not,
      not_not] at same
    obtain ⟨⟨⟨⟨⟨flag, host⟩, port⟩, security⟩, sni⟩, websocketHost⟩ := same
    obtain ⟨flagged, stored, adaptive, -, made⟩ := reseed_eq_ok.1 reseeded
    have known : flagged.hasFlag := withAdaptiveFlag_hasFlag stored
    have metadata : row.metadata = flagged := by
      rw [made]
      split <;> rfl
    have kept : n.metadata.withAdaptiveFlag = .ok n.metadata :=
      withAdaptiveFlag_of_hasFlag (by rw [flag, metadata, known])
    have unchanged : n.metadata = row.metadata :=
      metadata ▸ Except.ok.inj (kept.symm.trans stored)
    rw [reseed_columns reseeded, ← unchanged, ← host, ← port, ← security, ← sni, ← websocketHost]

theorem flushTime_row (now : Instant) {before after : Table Node.id} (updatedAt : Id → Instant)
    (mem : n ∈ before.rows) (found : after.find? n.id = some row) :
    flushTime now before after updatedAt n.id = if n.assigned row then now else updatedAt n.id := by
  simp only [flushTime, Table.find?_of_mem mem, found]

theorem flushTime_same {now : Instant} {table : Table Node.id} {updatedAt : Id → Instant} :
    flushTime now table table updatedAt = updatedAt := by
  funext id
  unfold flushTime
  cases table.find? id with
  | none => rfl
  | some n => simp [assigned_self]

/-! ## A start -/

theorem seedInstallation_eq_ok : seedInstallation cfg username draw s = .ok s' ↔
    ∃ auth, seedAdmin username draw s.auth = .ok auth ∧
      ∃ db, seedDatabase cfg draw.vlessId draw.vmessId s.db = .ok db ∧
        s' = ⟨auth, db, flushTime draw.now s.db.nodes db.nodes s.updatedAt⟩ := by
  simp only [seedInstallation, bind_eq_ok, Except.ok.injEq, eq_comm (b := s')]

section Start

variable {auth : AuthDb} {db : Database} (admin : seedAdmin username draw s.auth = .ok auth)
  (nodes : seedDatabase cfg draw.vlessId draw.vmessId s.db = .ok db)

include admin in
/-- An administrator stays. -/
theorem admin_kept {a : Admin} (mem : a ∈ s.auth.admins.rows) : auth.admins.find? a.id = some a := by
  rcases seedAdmin_cases admin with ⟨rfl, -⟩ | inserted
  · exact Table.find?_of_mem mem
  · exact Table.find?_insert_of_isSome inserted (Table.find?_of_mem mem)

include nodes in
/-- A row that start-up leaves. -/
theorem unchanged_of_afterStart (mem : n ∈ s.db.nodes.rows) (left : n.afterStart = .ok n) :
    Unchanged s ⟨auth, db, flushTime draw.now s.db.nodes db.nodes s.updatedAt⟩ n := by
  obtain ⟨row, made, found⟩ := seedDatabase_row nodes mem
  obtain rfl := Except.ok.inj (left.symm.trans made)
  exact ⟨found, (flushTime_row draw.now s.updatedAt mem found).trans (by simp [assigned_self])⟩

include nodes in
/-- A default row. -/
theorem flushed_of_default (mem : n ∈ s.db.nodes.rows) (default : isDefaultSlug n.slug) :
    EndpointFlushed s ⟨auth, db, flushTime draw.now s.db.nodes db.nodes s.updatedAt⟩ draw.now n := by
  obtain ⟨row, made, found⟩ := seedDatabase_row nodes mem
  rw [Node.afterStart, if_pos default] at made
  refine ⟨row, found, reseed_columns made, ?_⟩
  have time := flushTime_row draw.now s.updatedAt mem found
  by_cases written : n.assigned row = true
  · exact .inr ⟨(assigned_iff made).1 written, time.trans (if_pos written)⟩
  · exact .inl ⟨not_not.1 fun other => written ((assigned_iff made).2 other), time.trans (if_neg written)⟩

include nodes in
/-- Each default is there once. -/
theorem default_once {slug : String} (default : isDefaultSlug slug) :
    ∃! n, n ∈ db.nodes.rows ∧ n.slug = slug := by
  obtain ⟨n, mem, mine, -⟩ := seedDatabase_settled nodes default
  refine ⟨n, ⟨mem, mine⟩, fun other ⟨mem', mine'⟩ => ?_⟩
  exact List.inj_on_of_nodup_map db.slugs mem' mem (mine'.trans mine.symm)

include admin nodes in
/-- The next start changes no administrator and no node. -/
theorem start_again (time : Id → Instant) (draw' : SeedDraw) :
    ∃ s'', seedInstallation cfg username draw' ⟨auth, db, time⟩ = .ok s'' ∧
      s''.auth.admins = auth.admins ∧ s''.db.nodes = db.nodes ∧ s''.updatedAt = time := by
  have known : ∃ a ∈ auth.admins.rows, a.username = username := by
    rcases seedAdmin_cases admin with ⟨rfl, known⟩ | inserted
    · exact known
    · exact ⟨_, (Table.mem_insert inserted).2 (.inr rfl), rfl⟩
  obtain ⟨db', again, same⟩ := seedDatabase_of_settled cfg draw'.vlessId draw'.vmessId fun slug default =>
    seedDatabase_settled nodes default
  refine ⟨_, seedInstallation_eq_ok.2 ⟨auth, seedAdmin_of_known draw' known, db', again, rfl⟩, rfl, same, ?_⟩
  simp only [same, flushTime_same]

end Start

/-- **A start is idempotent.** With metadata that are objects, and new identifiers, it succeeds; it
keeps every administrator, every node that is not a default and every default that is fixed; of
an adaptive default it changes the metadata and the endpoint, and `updated_at` if one of these
changes; each default is there once; and another start changes no administrator and no node.
The columns take the texts of the settings: on PostgreSQL an administrator's name has at most 80
characters and a path at most 255, while SQLite takes any. -/
theorem seed_idempotent (cfg : Settings) (username : String) (draw : SeedDraw) (s : Installation)
    (objects : ∀ n ∈ s.db.nodes.rows, n.metadata.isObject) (fresh : Fresh draw s) :
    ∃ s', seedInstallation cfg username draw s = .ok s' ∧
      Seeded cfg username draw.now s s' EndpointFlushed := by
  obtain ⟨auth, admin⟩ := seedAdmin_isOk username fresh.admin
  obtain ⟨db, nodes⟩ := seedDatabase_isOk cfg objects fresh.vless fresh.vmess fresh.distinct
  refine ⟨_, seedInstallation_eq_ok.2 ⟨auth, admin, db, nodes, rfl⟩, ?_⟩
  constructor
  case admins => exact fun a mem => admin_kept admin mem
  case others =>
    intro n mem other
    exact unchanged_of_afterStart nodes mem (by simp [Node.afterStart, other])
  case fixed =>
    intro n mem default fixed
    refine unchanged_of_afterStart nodes mem ?_
    rw [Node.afterStart, if_pos default, reseed_fixed fixed.1 fixed.2]
  case adaptive => exact fun n mem default _ => flushed_of_default nodes mem default
  case once => exact fun slug default => default_once nodes default
  case again => exact start_again admin nodes _

/-- An installation whose VLESS default is adaptive and has been given a host. -/
def edited : Installation where
  auth := ⟨⟨[], .nil⟩, ⟨[], .nil⟩, [], .nil, nofun⟩
  db := (Database.empty.insertNode?
    { id := "n", slug := "arena-vless", host := "edge.example.com", metadata := .obj [] }).getD .empty
  updatedAt _ := 0

/-- The draws of a start at the instant 1. -/
def firstDraw : SeedDraw := ⟨"admin", "hash", "vless", "vmess", 1⟩

theorem edited_objects : ∀ n ∈ edited.db.nodes.rows, n.metadata.isObject :=
  forall_mem_of_check (by decide +kernel)

theorem edited_fresh : Fresh firstDraw edited :=
  ⟨rfl, Option.isNone_iff_eq_none.1 (by decide +kernel), Option.isNone_iff_eq_none.1 (by decide +kernel), by decide⟩

theorem seed_idempotent_edited : Fresh firstDraw edited ∧
    ∃ s', seedInstallation {} "admin" firstDraw edited = .ok s' ∧
      Seeded {} "admin" 1 edited s' EndpointFlushed :=
  ⟨edited_fresh, seed_idempotent {} "admin" firstDraw edited edited_objects edited_fresh⟩

/-- A start that gives an adaptive default its endpoint back moves its `updated_at`. -/
theorem updated_at_moves : ¬ ∀ (cfg : Settings) (username : String) (draw : SeedDraw) (s : Installation),
    (∀ n ∈ s.db.nodes.rows, n.metadata.isObject) → Fresh draw s →
      ∃ s', seedInstallation cfg username draw s = .ok s' ∧
        Seeded cfg username draw.now s s' EndpointChanged := by
  intro claim
  obtain ⟨s', started, seeded⟩ := claim {} "admin" firstDraw edited edited_objects edited_fresh
  have moved : (seedInstallation {} "admin" firstDraw edited).toOption.any fun s' => s'.updatedAt "n" = 1 := by
    decide +kernel
  rw [started] at moved
  obtain ⟨n, mem, facts⟩ := List.any_eq_true.1 (by decide +kernel : (edited.db.nodes.rows.any fun n =>
    n.id = "n" && isDefaultSlug n.slug && !n.metadata.hasFlag) = true)
  simp only [Bool.and_eq_true, decide_eq_true_eq, Bool.not_eq_true'] at facts
  obtain ⟨⟨named, default⟩, bare⟩ := facts
  obtain ⟨row, -, -, still⟩ := seeded.adaptive n mem default fun fixed => by simp [fixed.1] at bare
  rw [named] at still
  simp [Except.toOption, still, edited] at moved

end Arena.Seeding
