import Arena.Model.EdgeSteps

/-!
# All connections of all gateways

The control plane with every connection that a gateway holds: each one takes the steps of
`Arena.Model.Edge`, in any order, and the requests of one are other events to the rest. A
connection begins with an `authorize` whose reply reached its gateway. One that stops taking
steps is a gateway that died.
-/

namespace Arena.Model

open Arena.Lib

/-- The control plane and the connections. Of an `Edge` in the list only the parts that are the
connection's own count; its control plane is the one of the fleet. -/
structure Fleet where
  plane : Plane
  conns : List (Route × Edge) := []

def Fleet.initial (now : Instant) : Fleet := { plane := .initial now }

/-- A connection beside the control plane as it is now. -/
@[simps]
def Fleet.view (s : Fleet) (x : Edge) : Edge := { x with plane := s.plane }

inductive FleetMove where
  /-- A gateway's `authorize`; `lost` when no reply reaches it. -/
  | connect (newId : Id) (p : GatewayAuthorize) (lost : Bool)
  | move (i : ℕ) (m : Move)
  /-- An event of the control plane that is no gateway's request. -/
  | control (e : Event)

/-- The requests that only gateways make. -/
def Event.isGateway : Event → Bool
  | .authorize .. | .heartbeat _ | .close _ => true
  | _ => false

/-- The connection's own steps. -/
def Move.isOwn : Move → Bool
  | .other _ => false
  | _ => true

def Fleet.step (cfg : Settings) (s : Fleet) : FleetMove → Option Fleet
  | .connect newId p lost => (Plane.step cfg s.plane (.authorize newId p)).map fun plane =>
    match (authorize cfg s.plane.now newId p s.plane.db).2, lost with
    | .ok _, false => ⟨plane, s.conns ++ [(⟨newId, p.userId⟩, { plane := plane })]⟩
    | _, _ => { s with plane := plane }
  | .move i m =>
    if m.isOwn then s.conns[i]?.bind fun conn =>
      (Edge.step cfg conn.1 (s.view conn.2) m).map fun x => ⟨x.plane, s.conns.set i (conn.1, x)⟩
    else none
  | .control e =>
    if e.isGateway then none
    else (Plane.step cfg s.plane e).map fun plane => { s with plane := plane }

def fleet (cfg : Settings) : Machine Fleet FleetMove := ⟨Fleet.step cfg⟩

namespace Fleet

variable {cfg : Settings} {s s' : Fleet}

/-- **Everything a step can do.** -/
inductive Stepped (cfg : Settings) (s : Fleet) : FleetMove → Fleet → Prop
  | connected (newId p plane) (reply : AuthorizeReply)
      (step : (Model.plane cfg).step s.plane (.authorize newId p) = some plane)
      (admitted : (authorize cfg s.plane.now newId p s.plane.db).2 = .ok reply) :
      Stepped cfg s (.connect newId p false)
        ⟨plane, s.conns ++ [(⟨newId, p.userId⟩, { plane := plane })]⟩
  | refused (newId p lost plane)
      (step : (Model.plane cfg).step s.plane (.authorize newId p) = some plane) :
      Stepped cfg s (.connect newId p lost) { s with plane := plane }
  | moved (i m c x y) (here : s.conns[i]? = some (c, x)) (own : m.isOwn)
      (step : (edge cfg c).step (s.view x) m = some y) :
      Stepped cfg s (.move i m) ⟨y.plane, s.conns.set i (c, y)⟩
  | controlled (e plane) (other : e.isGateway = false)
      (step : (Model.plane cfg).step s.plane e = some plane) :
      Stepped cfg s (.control e) { s with plane := plane }

theorem step_inv {m : FleetMove} (h : (fleet cfg).step s m = some s') : Stepped cfg s m s' := by
  cases m with
  | connect newId p lost =>
    obtain ⟨plane, step, rfl⟩ := Option.map_eq_some_iff.1 h
    split
    · rename_i admitted
      exact .connected newId p plane _ step admitted
    · exact .refused newId p _ plane step
  | move i m =>
    simp only [fleet, Fleet.step] at h
    split at h
    · rename_i own
      obtain ⟨⟨c, x⟩, here, h⟩ := Option.bind_eq_some_iff.1 h
      obtain ⟨y, step, rfl⟩ := Option.map_eq_some_iff.1 h
      exact .moved i m c x y here own step
    · cases h
  | control e =>
    simp only [fleet, Fleet.step] at h
    split at h
    · cases h
    · rename_i other
      obtain ⟨plane, step, rfl⟩ := Option.map_eq_some_iff.1 h
      exact .controlled e plane (by simpa using other) step

end Fleet

/-! ## A connection's own steps -/

namespace Edge

variable {cfg : Settings} {c : Route} {s s' : Edge} {m : Move}

/-- A step of a connection's own leaves the control plane alone, or has it handle one of its
requests. -/
theorem Stepped.plane (h : Stepped cfg c s m s') (own : m.isOwn) :
    s'.plane = s.plane ∨ ∃ r, (Model.plane cfg).step s.plane (c.event r) = some s'.plane := by
  have served : ∀ r : Abandoned, (Model.plane cfg).step s.plane (c.event r) =
      some ⟨(c.event r).commit cfg s.plane.now s.plane.db, s.plane.now, s.plane.issued⟩ := by
    intro r
    refine plane_step.2 ⟨?_, ?_⟩ <;> cases r <;> simp [Route.event, Event.draws, Event.elapsed]
  cases h with
  | other e p foreign step => cases own
  | beatHandled up down here => exact .inr ⟨.heartbeat up down, served (.heartbeat up down)⟩
  | closeHandled reason up down here => exact .inr ⟨.close up down reason, served (.close up down reason)⟩
  | lateHandled i r here => exact .inr ⟨r, served r⟩
  | _ => exact .inl rfl

end Edge

end Arena.Model
