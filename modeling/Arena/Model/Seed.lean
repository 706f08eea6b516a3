import Arena.Model.Profiles

/-!
# Start-up

The node part of `seed_database` in `backend/app/main.py`, run at every start.
-/

namespace Arena.Model

/-- The row that `seed_database` adds for a missing default. -/
def defaultNode (cfg : Settings) (newId : Id) (name slug : String) (protocol : Protocol) : Node where
  id := newId
  name := name
  slug := slug
  protocol := protocol
  host := "auto"
  websocketHost := "auto"
  path := normalizePath cfg.gatewayPublicPath
  metadata := .obj [("adaptive_endpoint", .bool true)]

/-- A default node that lacks the flag gets it. -/
def Json.withAdaptiveFlag : Json → Except HttpError Json
  | .obj members => .ok (match members.lookup "adaptive_endpoint" with
    | some _ => .obj members
    | none => .obj (members ++ [("adaptive_endpoint", .bool true)]))
  | _ => .error internalError

/-- An adaptive default node goes back to the placeholder endpoint. -/
def Node.makeAdaptive (n : Node) : Node :=
  { n with host := "auto", port := 443, security := .tls, sni := "", websocketHost := "auto" }

/-- What `seed_database` stores for a default node that exists. -/
def Node.reseed (node : Node) : Except HttpError Node := do
  let metadata ← node.metadata.withAdaptiveFlag
  let node := { node with metadata := metadata }
  let adaptive ← node.adaptiveFlag
  .ok (if adaptive then node.makeAdaptive else node)

/-- One round of the loop over the defaults. -/
def seedNode (cfg : Settings) (newId : Id) (name slug : String) (protocol : Protocol)
    (db : Database) : Except HttpError Database :=
  match db.nodes.rows.find? (·.slug = slug) with
  | none =>
    match db.insertNode? (defaultNode cfg newId name slug protocol) with
    | none => .error internalError
    | some db => .ok db
  | some node => do
    let row ← node.reseed
    .ok (db.updateNodes (·.id = node.id) (Node.assign row) (fun _ => Node.assign_id)
      fun _ => Node.assign_slug)

/-- `seed_database`. -/
def seedDatabase (cfg : Settings) (vlessId vmessId : Id) (db : Database) :
    Except HttpError Database := do
  let db ← seedNode cfg vlessId "ARENA VLESS" "arena-vless" .vless db
  seedNode cfg vmessId "ARENA VMess" "arena-vmess" .vmess db

end Arena.Model
