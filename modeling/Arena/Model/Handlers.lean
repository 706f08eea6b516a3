import Arena.Model.Panel
import Arena.Model.Responses

/-!
# The administrative handlers, to their responses

A handler commits, has `reconcile` synchronise Xray with what it committed, and builds its
response. An exception before the commit or by it rolls the transaction back: `get_db` closes the
session. Nothing undoes a commit.
-/

namespace Arena.Model

open Arena.Lib

/-- The runtime as a machine. -/
def xray (cfg : Settings) : Machine XrayRuntime XrayRuntime.Label := ⟨XrayRuntime.step cfg⟩

/-- What a request meets besides the database. -/
structure Surroundings where
  request : Request
  /-- The database takes the transaction. -/
  stored : Bool
  /-- The runtime, with `xray_enabled`. -/
  runtime : Option XrayRuntime
  /-- How the steps of the runtime end, until `reconcile` does. -/
  answers : List XrayRuntime.Label
  /-- The clock as `reconcile` loads the keys. -/
  loadedAt : Instant
  /-- The clock as the response is built. -/
  repliedAt : Instant

/-- `reconcile`; `none` while it has not ended. -/
def reconcile (cfg : Settings) (around : Surroundings) (db : Database) : Option Outcome :=
  match around.runtime with
  | none => some .returned
  | some runtime =>
    ((xray cfg).run (runtime.call ⟨db, around.loadedAt⟩) around.answers).bind fun r =>
      if r.lock.Idle then r.lock.latest.map Prod.snd else none

/-- The synchronisation after a commit. -/
def AdminOp.sync (cfg : Settings) (around : Surroundings) (db : Database) (op : AdminOp) :
    Option Outcome :=
  if op.reconciles then reconcile cfg around db else some .returned

inductive Reply where
  | user (data : UserReply)
  | node (data : NodeData)
  | ok
  | deleted (rows : ℕ)

/-- The user that a response shows. -/
def AdminOp.shownUser : AdminOp → Option Id
  | .createUser newId .. => some newId
  | .updateUser userId _ | .resetUsage userId | .rotateSubscription userId => some userId
  | _ => none

/-- The node that a response shows. -/
def AdminOp.shownNode : AdminOp → Option Id
  | .createNode newId _ => some newId
  | .updateNode nodeId _ => some nodeId
  | _ => none

/-- The response with a user. -/
def userReply (cfg : Settings) (site : Site) (around : Surroundings) (db : Database) (userId : Id) :
    Except HttpError Reply := do
  let user ← getUser db userId
  let data ← serialize cfg site around.repliedAt around.request db user
  .ok (.user data)

/-- The response with a node, which raises when it cannot be rendered. -/
def nodeReply (db : Database) (nodeId : Id) : Except HttpError Reply := do
  let node ← getNode db nodeId
  if node.renders then .ok (.node (serializeNode node)) else .error internalError

/-- The response after the commit that led from one database to the other. -/
def AdminOp.reply (cfg : Settings) (site : Site) (around : Surroundings) (before db : Database) :
    AdminOp → Except HttpError Reply
  | .createUser newId .. => userReply cfg site around db newId
  | .updateUser userId _ => userReply cfg site around db userId
  | .resetUsage userId => userReply cfg site around db userId
  | .rotateSubscription userId => userReply cfg site around db userId
  | .attachNode .. | .deleteUser _ | .disableNode _ => .ok .ok
  | .detachNode userId nodeId => .ok (.deleted
      (before.accessKeys.rows.countP fun k => k.userId = userId && k.nodeId = nodeId))
  | .createNode newId _ => nodeReply db newId
  | .updateNode nodeId _ => nodeReply db nodeId

/-- The handler: what is committed when it ends, and its response; `none` while `reconcile` has
not ended. -/
def AdminOp.handle (cfg : Settings) (site : Site) (admin : String) (around : Surroundings)
    (db : Database) (op : AdminOp) : Option (Database × Except HttpError Reply) :=
  match op.commit admin db with
  | .error e => some (db, .error e)
  | .ok committed =>
    if !around.stored then some (db, .error internalError)
    else match op.sync cfg around committed with
      | none => none
      | some .raised => some (committed, .error internalError)
      | some .returned => some (committed, op.reply cfg site around db committed)

end Arena.Model
