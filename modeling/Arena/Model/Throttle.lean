import Arena.Model.Fleet
import Arena.Model.Limiter

/-!
# The connections and the limiters

Every connection of the fleet with the registry of its gateway: `handleWebSocket` asks for the bucket
of its user, a heartbeat that is answered sets the rate, and `relay` waits for the bytes that it read
before it writes them. The clocks of all processes run alike, a gateway's in seconds.
-/

namespace Arena.Model

open Arena.Lib

/-- Where `relay` is with the bytes in its buffer. -/
inductive Pass where
  | idle
  | waiting (n : ℕ)
  | granted (n : ℕ)

/-- What `handleWebSocket` and its two `relay` know of the limiter. -/
structure Line where
  /-- The process whose registry it is. -/
  gateway : ℕ
  user : Id
  /-- `auth.SpeedLimitBPS`. -/
  limit : ℕ
  pass : Direction → Pass := fun _ => .idle

/-- The fleet, a line for each of its connections, and the registry of each gateway. -/
structure Throttle where
  fleet : Fleet
  lines : List Line := []
  limiters : ℕ → Limiter

/-- The time in seconds. -/
def clockOf (now : Instant) : ℚ := ((now : ℤ) : ℚ) / 1000000

def Throttle.initial (now : Instant) : Throttle := ⟨.initial now, [], fun _ => .initial (clockOf now)⟩

/-- The `Wait` of one direction of a connection. -/
def callOf (i : ℕ) : Direction → ℕ
  | .up => 2 * i
  | .down => 2 * i + 1

/-- The size of the buffer of `relay`. -/
def bufferSize : ℕ := 32 * 1024

namespace Line

/-- What a step of the connection calls. -/
def events (l : Line) (i : ℕ) (x : Edge) : Move → List LimiterEvent
  | .established => [.forUser l.user l.limit]
  | .relayStop d => match l.pass d with
    | .waiting _ => [.cancel (callOf i d)]
    | _ => []
  | .beatReplied => match x.beat with
    | .posting _ _ (some (.ok reply)) => [.setRate l.user reply.speedLimitBps]
    | _ => []
  | _ => []

/-- `relay` writes what `Wait` let through, and does not return in between. -/
def allows (l : Line) : Move → Bool
  | .write d n => match l.pass d with
    | .granted k => n ≤ k
    | _ => false
  | .relayStop d => match l.pass d with
    | .granted _ => false
    | _ => true
  | _ => true

def setPass (l : Line) (d : Direction) (p : Pass) : Line := { l with pass := Function.update l.pass d p }

/-- The line after a step of the connection. -/
def after (l : Line) : Move → Line
  | .write d _ | .relayStop d => l.setPass d .idle
  | _ => l

end Line

inductive ThrottleMove where
  /-- A gateway's `authorize`; `lost` when no reply reaches it. -/
  | connect (gateway : ℕ) (newId : Id) (p : GatewayAuthorize) (lost : Bool)
  | move (i : ℕ) (m : Move)
  | control (e : Event)
  /-- `relay` read some bytes and calls `Wait`. -/
  | wait (i : ℕ) (d : Direction) (n : ℕ)
  /-- The timer of its `Wait` fires. -/
  | wake (i : ℕ) (d : Direction)

/-- What the fleet does. -/
def ThrottleMove.fleet : ThrottleMove → List FleetMove
  | .connect _ newId p lost => [.connect newId p lost]
  | .move i m => [.move i m]
  | .control e => [.control e]
  | .wait .. | .wake .. => []

/-- Time passes. -/
def Limiter.later (s : Limiter) (microseconds : ℕ) : Limiter :=
  { s with clock := s.clock + (microseconds : ℚ) / 1000000 }

namespace Throttle

/-- A round of `Wait` is over: the call sleeps, or let the bytes through. -/
def settle (s : Throttle) (i : ℕ) (d : Direction) (n : ℕ) (l : Line) (limiter : Limiter) : Throttle :=
  { s with
    lines := s.lines.set i (l.setPass d (if (limiter.sleeping (callOf i d)).isSome then .waiting n else .granted n))
    limiters := Function.update s.limiters l.gateway limiter }

def step (cfg : Settings) (s : Throttle) : ThrottleMove → Option Throttle
  | .connect gateway newId p lost => (Fleet.step cfg s.fleet (.connect newId p lost)).map fun fleet =>
    match (authorize cfg s.fleet.plane.now newId p s.fleet.plane.db).2, lost with
    | .ok reply, false =>
      { s with fleet := fleet, lines := s.lines ++ [⟨gateway, p.userId, reply.speedLimitBps, fun _ => .idle⟩] }
    | _, _ => { s with fleet := fleet }
  | .move i m => s.lines[i]?.bind fun l => s.fleet.conns[i]?.bind fun conn =>
    if l.allows m then
      (Fleet.step cfg s.fleet (.move i m)).bind fun fleet =>
        (limiter.run (s.limiters l.gateway) (l.events i conn.2 m)).map fun limiter =>
          ⟨fleet, s.lines.set i (l.after m), Function.update s.limiters l.gateway limiter⟩
    else none
  | .control e => (Fleet.step cfg s.fleet (.control e)).map fun fleet =>
    { s with fleet := fleet, limiters := fun g => (s.limiters g).later e.elapsed }
  | .wait i d n => s.lines[i]?.bind fun l => s.fleet.conns[i]?.bind fun conn =>
    match conn.2.relay d, l.pass d with
    | .running, .idle =>
      if 0 < n ∧ n ≤ bufferSize then
        (limiter.step (s.limiters l.gateway) (.wait (callOf i d) l.user n)).map (s.settle i d n l)
      else none
    | _, _ => none
  | .wake i d => s.lines[i]?.bind fun l =>
    match l.pass d with
    | .waiting n => (limiter.step (s.limiters l.gateway) (.wake (callOf i d))).map (s.settle i d n l)
    | _ => none

end Throttle

def throttle (cfg : Settings) : Machine Throttle ThrottleMove := ⟨Throttle.step cfg⟩

namespace Throttle

variable {cfg : Settings} {s s' : Throttle} {m : ThrottleMove}

/-- **Everything a step can do.** -/
inductive Stepped (cfg : Settings) (s : Throttle) : ThrottleMove → Throttle → Prop
  | connected (gateway newId p plane reply)
      (step : (Model.plane cfg).step s.fleet.plane (.authorize newId p) = some plane)
      (admitted : (authorize cfg s.fleet.plane.now newId p s.fleet.plane.db).2 = .ok reply) :
      Stepped cfg s (.connect gateway newId p false)
        { s with
          fleet := ⟨plane, s.fleet.conns ++ [(⟨newId, p.userId⟩, { plane := plane })]⟩
          lines := s.lines ++ [⟨gateway, p.userId, reply.speedLimitBps, fun _ => .idle⟩] }
  | refused (gateway newId p lost plane)
      (step : (Model.plane cfg).step s.fleet.plane (.authorize newId p) = some plane) :
      Stepped cfg s (.connect gateway newId p lost) { s with fleet := { s.fleet with plane := plane } }
  | moved (i mv l c x y limiter) (line : s.lines[i]? = some l) (here : s.fleet.conns[i]? = some (c, x))
      (allowed : l.allows mv = true) (own : mv.isOwn)
      (step : (edge cfg c).step (s.fleet.view x) mv = some y)
      (calls : Model.limiter.run (s.limiters l.gateway) (l.events i x mv) = some limiter) :
      Stepped cfg s (.move i mv) ⟨⟨y.plane, s.fleet.conns.set i (c, y)⟩, s.lines.set i (l.after mv),
        Function.update s.limiters l.gateway limiter⟩
  | controlled (e plane) (other : e.isGateway = false)
      (step : (Model.plane cfg).step s.fleet.plane e = some plane) :
      Stepped cfg s (.control e)
        { s with
          fleet := { s.fleet with plane := plane }
          limiters := fun g => (s.limiters g).later e.elapsed }
  | waited (i d n l c x limiter) (line : s.lines[i]? = some l) (here : s.fleet.conns[i]? = some (c, x))
      (running : x.relay d = .running) (idle : l.pass d = .idle) (positive : 0 < n) (fits : n ≤ bufferSize)
      (round : Model.limiter.step (s.limiters l.gateway) (.wait (callOf i d) l.user n) = some limiter) :
      Stepped cfg s (.wait i d n) (s.settle i d n l limiter)
  | woken (i d n l limiter) (line : s.lines[i]? = some l) (asleep : l.pass d = .waiting n)
      (round : Model.limiter.step (s.limiters l.gateway) (.wake (callOf i d)) = some limiter) :
      Stepped cfg s (.wake i d) (s.settle i d n l limiter)

theorem step_inv (h : (throttle cfg).step s m = some s') : Stepped cfg s m s' := by
  cases m with
  | connect gateway newId p lost =>
    obtain ⟨fleet, ran, rfl⟩ := Option.map_eq_some_iff.1 h
    obtain ⟨plane, step, rfl⟩ := Option.map_eq_some_iff.1 ran
    split
    · rename_i admitted
      simp only [admitted]
      exact .connected gateway newId p plane _ step admitted
    · rename_i other
      split
      · exact absurd rfl (other _ ‹_›)
      · exact .refused gateway newId p _ plane step
  | move i m =>
    obtain ⟨l, line, h⟩ := Option.bind_eq_some_iff.1 h
    obtain ⟨⟨c, x⟩, here, h⟩ := Option.bind_eq_some_iff.1 h
    obtain ⟨allowed, h⟩ := Option.ite_none_right_eq_some.1 h
    obtain ⟨fleet, ran, h⟩ := Option.bind_eq_some_iff.1 h
    obtain ⟨limiter, calls, rfl⟩ := Option.map_eq_some_iff.1 h
    have stepped : (Model.fleet cfg).step s.fleet (.move i m) = some fleet := ran
    cases Fleet.step_inv stepped with
    | moved i m c' x' y here' own step =>
      obtain ⟨rfl, rfl⟩ := Prod.mk.inj (Option.some.inj (here'.symm.trans here))
      exact .moved i m l c' x' y limiter line here allowed own step calls
  | control e =>
    obtain ⟨fleet, ran, rfl⟩ := Option.map_eq_some_iff.1 h
    have stepped : (Model.fleet cfg).step s.fleet (.control e) = some fleet := ran
    cases Fleet.step_inv stepped with
    | controlled e plane other step => exact .controlled e plane other step
  | wait i d n =>
    obtain ⟨l, line, h⟩ := Option.bind_eq_some_iff.1 h
    obtain ⟨⟨c, x⟩, here, h⟩ := Option.bind_eq_some_iff.1 h
    split at h
    · rename_i running idle
      obtain ⟨⟨positive, fits⟩, h⟩ := Option.ite_none_right_eq_some.1 h
      obtain ⟨limiter, round, rfl⟩ := Option.map_eq_some_iff.1 h
      exact .waited i d n l c x limiter line here running idle positive fits round
    · cases h
  | wake i d =>
    obtain ⟨l, line, h⟩ := Option.bind_eq_some_iff.1 h
    split at h
    · rename_i n asleep
      obtain ⟨limiter, round, rfl⟩ := Option.map_eq_some_iff.1 h
      exact .woken i d n l limiter line asleep round
    · cases h

/-- The limiters aside, it is the fleet. -/
theorem fleet_step (h : (throttle cfg).step s m = some s') :
    (Model.fleet cfg).run s.fleet m.fleet = some s'.fleet := by
  have one : ∀ {fm : FleetMove} {t : Fleet}, Fleet.step cfg s.fleet fm = some t →
      (Model.fleet cfg).run s.fleet [fm] = some t := fun step => Machine.run_cons.2 ⟨_, step, rfl⟩
  cases m with
  | connect gateway newId p lost =>
    obtain ⟨fleet, ran, rfl⟩ := Option.map_eq_some_iff.1 h
    split <;> exact one ran
  | move i m =>
    obtain ⟨l, line, h⟩ := Option.bind_eq_some_iff.1 h
    obtain ⟨conn, here, h⟩ := Option.bind_eq_some_iff.1 h
    obtain ⟨-, h⟩ := Option.ite_none_right_eq_some.1 h
    obtain ⟨fleet, ran, h⟩ := Option.bind_eq_some_iff.1 h
    obtain ⟨limiter, -, rfl⟩ := Option.map_eq_some_iff.1 h
    exact one ran
  | control e =>
    obtain ⟨fleet, ran, rfl⟩ := Option.map_eq_some_iff.1 h
    exact one ran
  | wait i d n => cases step_inv h with
    | waited => rfl
  | wake i d => cases step_inv h with
    | woken => rfl

end Throttle

end Arena.Model
