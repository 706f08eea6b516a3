import Arena.Model.Frames

/-!
# What a partial update assigns

`PATCH` is accepted when no column that refuses `NULL` is given as `null`, and then stores the
given values over the old ones.
-/

namespace Arena.Model

open Arena.Lib

namespace Patch

variable {α β : Type} {f : α → β} {p : Patch α} {old v : α}

/-- The field is given as `null`. -/
def isNull : Patch α → Bool
  | .null => true
  | _ => false

/-- The given value, or the old one. -/
def getD (old : α) : Patch α → α
  | .set value => value
  | _ => old

@[simp] theorem isNull_map : (p.map f).isNull = p.isNull := by cases p <;> rfl

theorem required_eq_ok : p.required old = .ok v ↔ p.isNull = false ∧ v = p.getD old := by
  cases p <;> simp [required, isNull, getD, eq_comm]

theorem required_error : ∀ e, p.required old = .error e → e = internalError := by
  intro e h
  cases p with
  | null => exact (Except.error.inj h).symm
  | unset | set => cases h

end Patch

/-- A column of the user that refuses `NULL` is given as `null`. -/
def UserUpdate.refused (p : UserUpdate) : Bool :=
  p.quotaGb.isNull || p.speedMbps.isNull || p.name.isNull || p.note.isNull || p.active.isNull ||
    p.validityDays.isNull || p.maxIps.isNull

/-- The row that an accepted `PATCH` of a user stores. -/
def UserUpdate.apply (p : UserUpdate) (u : User) : User :=
  { u with
    name := (p.name.map stripSpaces).getD u.name
    note := (p.note.map stripSpaces).getD u.note
    active := p.active.getD u.active
    quotaBytes := (p.quotaGb.map quotaBytesOf).getD u.quotaBytes
    validityDays := p.validityDays.getD u.validityDays
    expiresAt := p.expiresAt.nullable u.expiresAt
    maxIps := p.maxIps.getD u.maxIps
    speedLimitBps := (p.speedMbps.map speedLimitOf).getD u.speedLimitBps }

theorem patchUser_eq_ok {p : UserUpdate} {u row : User} :
    patchUser p u = .ok row ↔ p.refused = false ∧ row = p.apply u := by
  simp only [patchUser, bind_eq_ok, Patch.required_eq_ok, Patch.isNull_map, UserUpdate.refused,
    Bool.or_eq_false_iff]
  constructor
  · rintro ⟨_, ⟨hq, rfl⟩, _, ⟨hs, rfl⟩, _, ⟨hn, rfl⟩, _, ⟨ht, rfl⟩, _, ⟨ha, rfl⟩, _, ⟨hv, rfl⟩, _,
      ⟨hi, rfl⟩, done⟩
    cases done
    exact ⟨⟨⟨⟨⟨⟨⟨hq, hs⟩, hn⟩, ht⟩, ha⟩, hv⟩, hi⟩, rfl⟩
  · rintro ⟨⟨⟨⟨⟨⟨⟨hq, hs⟩, hn⟩, ht⟩, ha⟩, hv⟩, hi⟩, rfl⟩
    exact ⟨_, ⟨hq, rfl⟩, _, ⟨hs, rfl⟩, _, ⟨hn, rfl⟩, _, ⟨ht, rfl⟩, _, ⟨ha, rfl⟩, _, ⟨hv, rfl⟩, _,
      ⟨hi, rfl⟩, rfl⟩

theorem patchUser_error {p : UserUpdate} {u : User} :
    ∀ e, patchUser p u = .error e → e = internalError := by
  refine bind_error_of Patch.required_error fun quotaBytes _ => ?_
  refine bind_error_of Patch.required_error fun speedLimitBps _ => ?_
  refine bind_error_of Patch.required_error fun name _ => ?_
  refine bind_error_of Patch.required_error fun note _ => ?_
  refine bind_error_of Patch.required_error fun active _ => ?_
  refine bind_error_of Patch.required_error fun validityDays _ => ?_
  refine bind_error_of Patch.required_error fun maxIps _ => ?_
  exact fun e h => nomatch h

@[simp] theorem User.assign_apply {p : UserUpdate} {u : User} :
    User.assign (p.apply u) u = p.apply u := rfl

/-- A column of the node that refuses `NULL` is given as `null`; `metadata` is not one. -/
def NodeUpdate.refused (p : NodeUpdate) : Bool :=
  p.alpn.isNull || p.path.isNull || p.name.isNull || p.enabled.isNull || p.host.isNull ||
    p.port.isNull || p.security.isNull || p.sni.isNull || p.websocketHost.isNull ||
    p.fingerprint.isNull

/-- The row that an accepted `PATCH` of a node stores. -/
def NodeUpdate.apply (p : NodeUpdate) (n : Node) : Node :=
  { n with
    name := (p.name.map stripSpaces).getD n.name
    enabled := p.enabled.getD n.enabled
    host := (p.host.map stripSpaces).getD n.host
    port := p.port.getD n.port
    security := p.security.getD n.security
    sni := (p.sni.map stripSpaces).getD n.sni
    websocketHost := (p.websocketHost.map stripSpaces).getD n.websocketHost
    path := (p.path.map patchPath).getD n.path
    fingerprint := p.fingerprint.getD n.fingerprint
    alpn := (p.alpn.map joinAlpn).getD n.alpn
    metadata := match p.metadata with
      | .unset => n.metadata
      | .null => .null
      | .set members => .obj members
    renders := match p.metadata with
      | .unset => n.renders
      | .null => true
      | .set _ => p.metadataRenders }

theorem patchNode_eq_ok {p : NodeUpdate} {n row : Node} :
    patchNode p n = .ok row ↔ p.refused = false ∧ row = p.apply n := by
  simp only [patchNode, bind_eq_ok, Patch.required_eq_ok, Patch.isNull_map, NodeUpdate.refused,
    Bool.or_eq_false_iff]
  constructor
  · rintro ⟨_, ⟨ha, rfl⟩, _, ⟨hp, rfl⟩, _, ⟨hn, rfl⟩, _, ⟨he, rfl⟩, _, ⟨hh, rfl⟩, _, ⟨ht, rfl⟩, _,
      ⟨hs, rfl⟩, _, ⟨hi, rfl⟩, _, ⟨hw, rfl⟩, _, ⟨hf, rfl⟩, done⟩
    cases done
    exact ⟨⟨⟨⟨⟨⟨⟨⟨⟨⟨ha, hp⟩, hn⟩, he⟩, hh⟩, ht⟩, hs⟩, hi⟩, hw⟩, hf⟩, rfl⟩
  · rintro ⟨⟨⟨⟨⟨⟨⟨⟨⟨⟨ha, hp⟩, hn⟩, he⟩, hh⟩, ht⟩, hs⟩, hi⟩, hw⟩, hf⟩, rfl⟩
    exact ⟨_, ⟨ha, rfl⟩, _, ⟨hp, rfl⟩, _, ⟨hn, rfl⟩, _, ⟨he, rfl⟩, _, ⟨hh, rfl⟩, _, ⟨ht, rfl⟩, _,
      ⟨hs, rfl⟩, _, ⟨hi, rfl⟩, _, ⟨hw, rfl⟩, _, ⟨hf, rfl⟩, rfl⟩

@[simp] theorem Node.assign_apply {p : NodeUpdate} {n : Node} :
    Node.assign (p.apply n) n = p.apply n := rfl

/-! ## A `PATCH` that leaves every field out -/

theorem Patch.unset_name : ∀ v, (.unset : Patch String) = .set v → 1 ≤ v.length ∧ v.length ≤ 120 := nofun
theorem Patch.unset_note : ∀ v, (.unset : Patch String) = .set v → v.length ≤ 2000 := nofun
theorem Patch.unset_quota : ∀ v, (.unset : Patch ℚ) = .set v → 0 ≤ v ∧ v ≤ 1000000 := nofun
theorem Patch.unset_validity : ∀ v, (.unset : Patch ℕ) = .set v → v ≤ 3650 := nofun
theorem Patch.unset_maxIps : ∀ v, (.unset : Patch ℕ) = .set v → 1 ≤ v ∧ v ≤ 100 := nofun
theorem Patch.unset_speed : ∀ v, (.unset : Patch ℚ) = .set v → 0 ≤ v ∧ v ≤ 100000 := nofun

def UserUpdate.nothing : UserUpdate where
  nameLength := Patch.unset_name
  noteLength := Patch.unset_note
  quotaRange := Patch.unset_quota
  validityRange := Patch.unset_validity
  maxIpsRange := Patch.unset_maxIps
  speedRange := Patch.unset_speed

theorem Patch.unset_endpoint : ∀ v, (.unset : Patch String) = .set v → v.length ≤ 255 := nofun
theorem Patch.unset_host : ∀ v, (.unset : Patch String) = .set v → 1 ≤ v.length ∧ v.length ≤ 255 := nofun
theorem Patch.unset_port : ∀ v, (.unset : Patch ℕ) = .set v → 1 ≤ v ∧ v ≤ 65535 := nofun

def NodeUpdate.nothing : NodeUpdate where
  nameLength := Patch.unset_name
  hostLength := Patch.unset_host
  portRange := Patch.unset_port
  sniLength := Patch.unset_endpoint
  websocketHostLength := Patch.unset_endpoint
  pathLength := Patch.unset_endpoint

end Arena.Model
