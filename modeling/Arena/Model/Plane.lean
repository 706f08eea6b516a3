import Arena.Lib.Runs
import Arena.Model.Effects
import Arena.Model.Seed

/-!
# The control plane as a machine

A `Plane` is the database, the clock and the identifiers drawn so far (`uuid4` draws no
identifier twice). Its events are the requests of gateways and administrators, one
transaction each, start-up, and the passing of time; the sweep of stale sessions is part
of `authorize`.
-/

namespace Arena.Model

open Arena.Lib

/-- The administrative requests, with the random values they draw. -/
inductive AdminOp where
  | createUser (newId : Id) (material : Id → KeyMaterial) (p : UserCreate)
  | updateUser (userId : Id) (p : UserUpdate)
  | resetUsage (userId : Id)
  | rotateSubscription (userId : Id)
  | attachNode (userId nodeId : Id) (material : KeyMaterial)
  | detachNode (userId nodeId : Id)
  | deleteUser (userId : Id)
  | createNode (newId : Id) (p : NodeCreate)
  | updateNode (nodeId : Id) (p : NodeUpdate)
  | disableNode (nodeId : Id)

/-- The transaction of an administrative request. -/
def AdminOp.commit (admin : String) : AdminOp → Database → Except HttpError Database
  | .createUser newId material p => Model.createUser admin newId material p
  | .updateUser userId p => Model.updateUser admin userId p
  | .resetUsage userId => Model.resetUsage admin userId
  | .rotateSubscription userId => Model.rotateSubscription admin userId
  | .attachNode userId nodeId material => Model.attachNode admin userId nodeId material
  | .detachNode userId nodeId => Model.detachNode admin userId nodeId
  | .deleteUser userId => Model.deleteUser admin userId
  | .createNode newId p => Model.createNode admin newId p
  | .updateNode nodeId p => Model.updateNode admin nodeId p
  | .disableNode nodeId => Model.disableNode admin nodeId

/-- The user or node identifier that a request draws. -/
def AdminOp.draws : AdminOp → List Id
  | .createUser newId .. => [newId]
  | .createNode newId _ => [newId]
  | _ => []

inductive Event where
  | tick (microseconds : ℕ)
  | start (vlessId vmessId : Id)
  | authorize (newId : Id) (p : GatewayAuthorize)
  | heartbeat (p : GatewayHeartbeat)
  | close (p : GatewayClose)
  | admin (name : String) (op : AdminOp)

/-- The identifiers an event draws. -/
def Event.draws : Event → List Id
  | .start vlessId vmessId => [vlessId, vmessId]
  | .authorize newId _ => [newId]
  | .admin _ op => op.draws
  | _ => []

structure Plane where
  db : Database
  now : Instant
  issued : List Id

/-- A fresh installation at an instant. -/
def Plane.initial (now : Instant) : Plane := ⟨.empty, now, []⟩

/-- The database an event commits. -/
def Event.commit (cfg : Settings) (now : Instant) : Event → Database → Database
  | .tick _, db => db
  | .start vlessId vmessId, db => (seedDatabase cfg vlessId vmessId db).toOption.getD db
  | .authorize newId p, db => (Model.authorize cfg now newId p db).1
  | .heartbeat p, db => (Model.heartbeat now p db).1
  | .close p, db => Model.close now p db
  | .admin name op, db => (op.commit name db).toOption.getD db

def Event.elapsed : Event → ℕ
  | .tick microseconds => microseconds
  | _ => 0

/-- One event; the identifiers it draws must be new. -/
def Plane.step (cfg : Settings) (s : Plane) (e : Event) : Option Plane :=
  if e.draws.all (· ∉ s.issued) then
    some ⟨e.commit cfg s.now s.db, s.now + e.elapsed, e.draws ++ s.issued⟩
  else none

/-- The control plane. -/
def plane (cfg : Settings) : Machine Plane Event := ⟨Plane.step cfg⟩

theorem plane_step {cfg : Settings} {s s' : Plane} {e : Event} :
    (plane cfg).step s e = some s' ↔ (∀ i ∈ e.draws, i ∉ s.issued) ∧
      s' = ⟨e.commit cfg s.now s.db, s.now + e.elapsed, e.draws ++ s.issued⟩ := by
  simp only [plane, Plane.step, List.all_eq_true, decide_eq_true_eq]
  split
  · simp_all [eq_comm]
  · simp_all

/-! ## The installation of the tests

The node and the user of `test_user_subscription_and_gateway_policy_flow`, with the keys that
the user gets. -/

def testNode : NodeCreate := { name := "ARENA VLESS", slug := "arena-vless", host := "auto" }

def testUser : UserCreate := { name := "Phase One", quotaGb := 1, validityDays := 14, speedMbps := 8 }

def testKeys (node : Id) : KeyMaterial := ⟨"key-" ++ node, "uuid-" ++ node, "", "", none, ""⟩

/-- The first connection of that test, as a run: a node, a user with a key on it, an
authorized session and one heartbeat. -/
def firstConnection : List Event :=
  [.admin "admin" (.createNode "node" testNode), .admin "admin" (.createUser "user" testKeys testUser),
    .authorize "session" { userId := "user", nodeId := "node", sourceIp := "203.0.113.10" },
    .heartbeat { sessionId := "session", uplinkDelta := 120, downlinkDelta := 880 }]

end Arena.Model
