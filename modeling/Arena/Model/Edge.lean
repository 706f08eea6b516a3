import Mathlib.Logic.Function.Basic
import Mathlib.Tactic.Simps.Basic
import Arena.Model.SessionRow
import Arena.Model.Traffic

/-!
# One gateway connection

`handleWebSocket` of `gateway/cmd/arena-gateway/main.go` after a successful `authorize`: the
two relay goroutines, the heartbeat goroutine and the handler itself, with the control plane
and whatever else it does. A step is one atomic operation of one goroutine, one request handled
by the control plane, or one other event of the control plane.

A request is handled at most once, at any time after it was sent; the client may see an error
before or after that (a lost response, a time-out, a body that does not decode, its own
cancelled context). A request that the client gave up on may still be on its way.
-/

namespace Arena.Model

open Arena.Lib

/-- The bytes of a message that `relay` writes, between `Write` and `counter.Add`. -/
inductive Relay where
  | off
  | running
  | adding (n : ℕ)
  | stopped

/-- Where `heartbeatLoop` is; `posting` has the reply once the request was handled. -/
inductive Beat where
  | off
  | idle
  | swapped (up : ℕ)
  | posting (up down : ℕ) (reply : Option (Except HttpError HeartbeatReply))
  | addingUp (up down : ℕ)
  | addingDown (down : ℕ)
  | stopped

/-- Where `handleWebSocket` is; `closing` knows whether the request was handled. -/
inductive Main where
  | connecting
  | waiting
  | cancelled (reason : String)
  | swapped (reason : String) (up : ℕ)
  | closing (reason : String) (up down : ℕ) (handled : Bool)
  | returned

/-- A request whose client gave up on it. -/
inductive Abandoned where
  | heartbeat (up down : ℕ)
  | close (up down : ℕ) (reason : String)

/-- The connection: its session and its user. -/
structure Route where
  session : Id
  user : Id

structure Edge where
  plane : Plane
  /-- The counters shared by the goroutines. -/
  counter : Direction → ℕ := fun _ => 0
  relay : Direction → Relay := fun _ => .off
  beat : Beat := .off
  main : Main := .connecting
  /-- `ctx` is cancelled. -/
  cancelled : Bool := false
  failures : ℕ := 0
  /-- When the ticker fires next. -/
  due : Instant := 0
  abandoned : List Abandoned := []
  /-- The bytes that `writer.Write` reported. -/
  written : Direction → ℕ := fun _ => 0
  /-- What this connection's requests added to its user's usage. -/
  credited : Direction → ℕ := fun _ => 0

inductive Move where
  | other (e : Event)
  | established
  | unavailable (reason : String)
  | write (d : Direction) (n : ℕ)
  | add (d : Direction)
  | relayStop (d : Direction)
  | tick
  | swapDown
  | beatHandled
  | beatReplied
  | beatFailed (late : Bool)
  | addUp
  | addDown
  | beatDone
  | cancel (reason : String)
  | closeUp
  | closeDown
  | closeHandled
  | closeDone (late : Bool)
  | lateHandled (i : ℕ)

/-- `auth.HeartbeatSeconds`. -/
def heartbeatInterval : ℤ := seconds 15

namespace Route

def heartbeat (c : Route) (up down : ℕ) : GatewayHeartbeat :=
  { sessionId := c.session, uplinkDelta := up, downlinkDelta := down }

def close (c : Route) (up down : ℕ) (reason : String) : GatewayClose :=
  { sessionId := c.session, uplinkDelta := up, downlinkDelta := down, reason := reason }

def event (c : Route) : Abandoned → Event
  | .heartbeat up down => .heartbeat (c.heartbeat up down)
  | .close up down reason => .close (c.close up down reason)

end Route

namespace Edge

variable (cfg : Settings) (c : Route)

/-- The control plane handles a request of this connection. -/
@[simps]
def serve (s : Edge) (e : Event) : Edge :=
  { s with
    plane := ⟨e.commit cfg s.plane.now s.plane.db, s.plane.now, s.plane.issued⟩
    credited := fun d => s.credited d + (balance d c.user (e.commit cfg s.plane.now s.plane.db) -
      balance d c.user s.plane.db) }

/-- `counter.Swap(0)`. -/
@[simps]
def swap (s : Edge) (d : Direction) : Edge := { s with counter := Function.update s.counter d 0 }

/-- `counter.Add(n)`. -/
@[simps]
def addBack (s : Edge) (d : Direction) (n : ℕ) : Edge :=
  { s with counter := Function.update s.counter d (s.counter d + n) }

@[simps]
def setRelay (s : Edge) (d : Direction) (r : Relay) : Edge :=
  { s with relay := Function.update s.relay d r }

/-- A request the client gave up on before it was handled may still be on its way. -/
@[simps]
def abandon (s : Edge) (late : Bool) (r : Abandoned) : Edge :=
  { s with abandoned := if late then s.abandoned ++ [r] else s.abandoned }

/-- One failed heartbeat more; the third in a row cancels the connection. -/
@[simps]
def fail (s : Edge) : Edge :=
  { s with
    failures := s.failures + 1
    cancelled := s.cancelled || decide (3 ≤ s.failures + 1)
    beat := if 3 ≤ s.failures + 1 then .stopped else .idle }

/-- The steps of the relay goroutines. -/
def relayStep (s : Edge) : Move → Option Edge
  | .write d n => match s.relay d with
    | .running => some
        { s.setRelay d (.adding n) with written := Function.update s.written d (s.written d + n) }
    | _ => none
  | .add d => match s.relay d with
    | .adding n => some ((s.setRelay d .running).addBack d n)
    | _ => none
  | .relayStop d => match s.relay d with
    | .running => some (s.setRelay d .stopped)
    | _ => none
  | _ => none

/-- The steps of `heartbeatLoop`. -/
def beatStep (s : Edge) : Move → Option Edge
  | .tick => match s.beat with
    | .idle =>
      if s.due ≤ s.plane.now then
        some { s.swap .up with beat := .swapped (s.counter .up), due := s.due + heartbeatInterval }
      else none
    | _ => none
  | .swapDown => match s.beat with
    | .swapped up => some { s.swap .down with beat := .posting up (s.counter .down) none }
    | _ => none
  | .beatHandled => match s.beat with
    | .posting up down none =>
      let p := c.heartbeat up down
      some { s.serve cfg c (.heartbeat p) with
        beat := .posting up down (some (heartbeat s.plane.now p s.plane.db).2) }
    | _ => none
  | .beatReplied => match s.beat with
    | .posting _ _ (some (.ok reply)) =>
      if reply.terminate then some { s with failures := 0, cancelled := true, beat := .stopped }
      else some { s with failures := 0, beat := .idle }
    | .posting up down (some (.error _)) => some { s with beat := .addingUp up down }
    | _ => none
  | .beatFailed late => match s.beat with
    | .posting up down reply =>
      some { s.abandon (late && reply.isNone) (.heartbeat up down) with beat := .addingUp up down }
    | _ => none
  | .addUp => match s.beat with
    | .addingUp up down => some { s.addBack .up up with beat := .addingDown down }
    | _ => none
  | .addDown => match s.beat with
    | .addingDown down => some (s.addBack .down down).fail
    | _ => none
  | .beatDone => match s.beat with
    | .idle => if s.cancelled then some { s with beat := .stopped } else none
    | _ => none
  | _ => none

/-- The steps of the handler. -/
def mainStep (s : Edge) : Move → Option Edge
  | .established => match s.main with
    | .connecting => some
        { s with
          main := .waiting
          relay := fun _ => .running
          beat := .idle
          due := s.plane.now + heartbeatInterval }
    | _ => none
  | .unavailable reason => match s.main with
    | .connecting => some { s with main := .closing reason 0 0 false }
    | _ => none
  | .cancel reason => match s.main, s.relay .up, s.relay .down with
    | .waiting, .stopped, _ => some { s with main := .cancelled reason, cancelled := true }
    | .waiting, _, .stopped => some { s with main := .cancelled reason, cancelled := true }
    | _, _, _ => none
  | .closeUp => match s.main with
    | .cancelled reason => some { s.swap .up with main := .swapped reason (s.counter .up) }
    | _ => none
  | .closeDown => match s.main with
    | .swapped reason up =>
      some { s.swap .down with main := .closing reason up (s.counter .down) false }
    | _ => none
  | .closeHandled => match s.main with
    | .closing reason up down false =>
      some { s.serve cfg c (.close (c.close up down reason)) with
        main := .closing reason up down true }
    | _ => none
  | .closeDone late => match s.main with
    | .closing reason up down handled =>
      some { s.abandon (late && !handled) (.close up down reason) with main := .returned }
    | _ => none
  | _ => none

/-- The steps of the control plane and of the network. -/
def outerStep (s : Edge) : Move → Option Edge
  | .other e =>
    if e.addresses c.session then none
    else (Plane.step cfg s.plane e).map fun plane => { s with plane := plane }
  | .lateHandled i => match s.abandoned[i]? with
    | some r => some { s.serve cfg c (c.event r) with abandoned := s.abandoned.eraseIdx i }
    | none => none
  | _ => none

/-- One step. -/
def step (s : Edge) (m : Move) : Option Edge :=
  match m with
  | .write .. | .add _ | .relayStop _ => s.relayStep m
  | .tick | .swapDown | .beatHandled | .beatReplied | .beatFailed _ | .addUp | .addDown | .beatDone =>
    s.beatStep cfg c m
  | .established | .unavailable _ | .cancel _ | .closeUp | .closeDown | .closeHandled | .closeDone _ =>
    s.mainStep cfg c m
  | .other _ | .lateHandled _ => s.outerStep cfg c m

end Edge

/-- The connection and the control plane. -/
def edge (cfg : Settings) (c : Route) : Machine Edge Move := ⟨Edge.step cfg c⟩

/-- A connection whose `authorize` was just answered: nothing of it has run, its session is open
and empty. -/
structure Edge.Fresh (c : Route) (s : Edge) : Prop where
  start : ∃ plane, s = { plane := plane }
  drawn : c.session ∈ s.plane.issued
  row : ∃ row, s.plane.db.sessions.find? c.session = some row ∧ row.userId = c.user ∧ row.isOpen ∧
    row.lastSeenAt = s.plane.now ∧ row.uplinkBytes = 0 ∧ row.downlinkBytes = 0

end Arena.Model
