import Arena.Fleet
import Arena.Lib.Simulation
import Arena.RateBound
import Arena.Model.Throttle

/-!
# The limit on a user's connections

`Arena.RateBound` bounds what the calls of `Wait` let through; here `relay` makes these calls, with the
rates that the control plane answered. What a gateway's connections of a user write, with what they
were granted and still hold, is paid for by the user's bucket there.
-/

namespace Arena.SpeedLimit

open Arena.Lib Arena.Model Throttle

variable {cfg : Settings} {s s' : Throttle} {m : ThrottleMove} {R : ℚ} {uid : Id} {g i call n : ℕ}
  {d : Direction} {l l' : Line} {c : Route} {x y : Edge} {mv : Move} {a a' : Limiter} {e : LimiterEvent}

/-! ## Calls of `Wait` -/

/-- Who sleeps in a call, and for how much. -/
def asleep (a : Limiter) (call : ℕ) : Option (Id × ℤ) := (a.sleeping call).map fun w => (w.user, w.bytes)

/-- A round of a call: it sleeps on, or is over with its bytes let through. -/
structure Rounded (a : Limiter) (e : LimiterEvent) (a' : Limiter) (call : ℕ) (user : Id) (n : ℕ) : Prop where
  others : ∀ other, other ≠ call → a'.sleeping other = a.sleeping other
  mine : asleep a' call = if (a'.sleeping call).isSome then some (user, (n : ℤ)) else none
  granted : ∀ uid, a.granted uid e = if (a'.sleeping call).isSome ∨ user ≠ uid then 0 else (n : ℚ)

theorem rounded {user : Id} {b : Bucket} (round : a.round e = some (call, user, (n : ℤ), b))
    (step : (a.round e).map a.runRound = some a') : Rounded a e a' call user n := by
  rw [round] at step
  obtain rfl := Option.some.inj step
  refine ⟨fun other ne => Function.update_of_ne ne .., ?_, fun uid => ?_⟩
  · simp only [asleep, Limiter.runRound, Function.update_self]
    split <;> rfl
  · simp only [Limiter.granted, round, Limiter.runRound, Function.update_self]
    by_cases mine : user = uid
    · cases (b.attempt n a.clock).2 <;> simp [mine, Bucket.Outcome.through]
    · simp [mine]

theorem rounded_wait {user : Id} (positive : 0 < n) (step : limiter.step a (.wait call user n) = some a') :
    Rounded a (.wait call user n) a' call user n := by
  have some_bytes : ¬ (n : ℤ) ≤ 0 := by omega
  have step : (a.round (.wait call user n)).map a.runRound = some a' := (if_neg some_bytes).symm.trans step
  obtain ⟨⟨call', user', bytes, b⟩, round, -⟩ := Option.map_eq_some_iff.1 step
  have same : call' = call ∧ user' = user ∧ bytes = n := by
    simp only [Limiter.round, Option.ite_none_right_eq_some, Option.map_eq_some_iff, Prod.mk.injEq] at round
    obtain ⟨-, -, -, rfl, rfl, rfl, -⟩ := round
    exact ⟨rfl, rfl, rfl⟩
  obtain ⟨rfl, rfl, rfl⟩ := same
  exact rounded round step

theorem rounded_wake {user : Id} (sleeps : asleep a call = some (user, (n : ℤ)))
    (step : limiter.step a (.wake call) = some a') : Rounded a (.wake call) a' call user n := by
  have step : (a.round (.wake call)).map a.runRound = some a' := step
  obtain ⟨⟨call', user', bytes, b⟩, round, -⟩ := Option.map_eq_some_iff.1 step
  have same : call' = call ∧ user' = user ∧ bytes = n := by
    obtain ⟨w, found, fields⟩ := Option.map_eq_some_iff.1 sleeps
    simp only [Limiter.round, found, Option.bind_some, Option.ite_none_right_eq_some, Option.map_eq_some_iff,
      Prod.mk.injEq] at round fields
    obtain ⟨-, -, -, rfl, rfl, rfl, -⟩ := round
    exact ⟨rfl, fields⟩
  obtain ⟨rfl, rfl, rfl⟩ := same
  exact rounded round step

theorem callOf_inj {j : ℕ} {d' : Direction} (same : callOf i d = callOf j d') : i = j ∧ d = d' := by
  cases d <;> cases d' <;> simp only [callOf] at same <;> first | omega | exact ⟨by omega, rfl⟩

/-! ## Lines -/

/-- The call that a line has asleep. -/
def lineAsleep (l : Line) (d : Direction) : Option (Id × ℤ) :=
  match l.pass d with
  | .waiting n => some (l.user, (n : ℤ))
  | _ => none

theorem lineAsleep_congr (user : l'.user = l.user) (pass : l'.pass d = l.pass d) :
    lineAsleep l' d = lineAsleep l d := by
  rw [lineAsleep, lineAsleep, user, pass]

theorem lineAsleep_idle (idle : l.pass d = .idle) : lineAsleep l d = none := by
  rw [lineAsleep, idle]

theorem setPass_pass {p : Pass} {d' : Direction} :
    (l.setPass d p).pass d' = if d' = d then p else l.pass d' := by
  simp [Line.setPass, Function.update_apply]

@[simp] theorem setPass_user {p : Pass} : (l.setPass d p).user = l.user := rfl

@[simp] theorem setPass_gateway {p : Pass} : (l.setPass d p).gateway = l.gateway := rfl

@[simp] theorem setPass_limit {p : Pass} : (l.setPass d p).limit = l.limit := rfl

@[simp] theorem after_user : (l.after mv).user = l.user := by cases mv <;> rfl

@[simp] theorem after_gateway : (l.after mv).gateway = l.gateway := by cases mv <;> rfl

@[simp] theorem after_limit : (l.after mv).limit = l.limit := by cases mv <;> rfl

/-- The bytes that a line was granted and still holds. -/
def Pass.held : Pass → ℕ
  | .granted n => n
  | _ => 0

def lineHeld (l : Line) : ℕ := Pass.held (l.pass .up) + Pass.held (l.pass .down)

theorem lineHeld_setPass (l : Line) (d : Direction) (p : Pass) :
    lineHeld (l.setPass d p) + Pass.held (l.pass d) = lineHeld l + Pass.held p := by
  cases d <;> simp [lineHeld, setPass_pass] <;> omega

/-- What a step of a connection calls, one by one. -/
inductive Called (l : Line) (i : ℕ) (x : Edge) : Move → List LimiterEvent → Prop
  | nothing (mv : Move) (pass : (l.after mv).pass = l.pass ∨ ∃ d, (l.after mv).pass = Function.update l.pass d .idle ∧
      lineAsleep l d = none) : Called l i x mv []
  | forUser : Called l i x .established [.forUser l.user l.limit]
  | cancel (d : Direction) (n : ℕ) (waits : l.pass d = .waiting n) : Called l i x (.relayStop d) [.cancel (callOf i d)]
  | setRate (up down : ℕ) (reply : HeartbeatReply) (replied : x.beat = .posting up down (some (.ok reply))) :
      Called l i x .beatReplied [.setRate l.user reply.speedLimitBps]

theorem called (allowed : l.allows mv = true) : Called l i x mv (l.events i x mv) := by
  cases mv with
  | established => exact .forUser
  | write d n =>
    refine .nothing _ (.inr ⟨d, rfl, ?_⟩)
    simp only [Line.allows] at allowed
    split at allowed
    · rename_i granted
      simp [lineAsleep, granted]
    · cases allowed
  | relayStop d =>
    simp only [Line.events]
    cases waits : l.pass d with
    | waiting n => exact .cancel d n waits
    | idle | granted => exact .nothing _ (.inr ⟨d, rfl, by simp [lineAsleep, waits]⟩)
  | beatReplied =>
    simp only [Line.events]
    split
    · exact .setRate _ _ _ ‹_›
    · exact .nothing _ (.inl rfl)
  | _ => exact .nothing _ (.inl rfl)

/-! ## The limiter of a line -/

theorem kept_step (waits : RateBound.Waits a) (step : limiter.step a e = some a') (user : Id)
    (there : (a.buckets user).isSome) : (a'.buckets user).isSome := by
  cases RateBound.touched user waits step with
  | left kept nothing forward => exact kept ▸ there
  | opened rate passed absent new nothing still => simp [new]
  | rated rate b passed found set nothing still => simp [set]
  | tried bytes b positive found left through still => simp [left]

def takesTime : LimiterEvent → Bool
  | .tick _ => true
  | _ => false

theorem clock_step (step : limiter.step a e = some a') (timeless : takesTime e = false) :
    a'.clock = a.clock := by
  have round : (a.round e).map a.runRound = some a' → a'.clock = a.clock := by
    intro step
    obtain ⟨⟨call, user, bytes, b⟩, -, rfl⟩ := Option.map_eq_some_iff.1 step
    rfl
  cases e with
  | tick elapsed => cases timeless
  | forUser user rate =>
    obtain rfl : a.forUser user rate = a' := Option.some.inj step
    unfold Limiter.forUser
    split <;> rfl
  | setRate user rate =>
    obtain ⟨b, -, rfl⟩ := Option.map_eq_some_iff.1 step
    rfl
  | wait call user bytes =>
    by_cases nothing : bytes ≤ 0
    · obtain rfl : a = a' := Option.some.inj ((if_pos nothing).symm.trans step)
      rfl
    · exact round ((if_neg nothing).symm.trans step)
  | wake call => exact round step
  | cancel call =>
    obtain ⟨w, -, rfl⟩ := Option.map_eq_some_iff.1 step
    rfl

/-- A line and its limiter after a step of theirs. -/
structure Turned (a a' : Limiter) (i : ℕ) (l l' : Line) : Prop where
  user : l'.user = l.user
  gateway : l'.gateway = l.gateway
  others : ∀ call, (∀ d, call ≠ callOf i d) → a'.sleeping call = a.sleeping call
  mine : ∀ d, asleep a' (callOf i d) = lineAsleep l' d
  kept : ∀ user, (a.buckets user).isSome → (a'.buckets user).isSome
  clock : a'.clock = a.clock
  waits : RateBound.Waits a'

theorem turned_settle {user : Id} (waits : RateBound.Waits a) (mine : ∀ d, asleep a (callOf i d) = lineAsleep l d)
    (isUser : user = l.user) (step : limiter.step a e = some a') (timeless : takesTime e = false)
    (round : Rounded a e a' (callOf i d) user n) :
    Turned a a' i l (l.setPass d (if (a'.sleeping (callOf i d)).isSome then .waiting n else .granted n)) := by
  refine ⟨rfl, rfl, fun call other => round.others call (other d), fun d' => ?_,
    fun user there => kept_step waits step user there, clock_step step timeless, RateBound.waits_step waits step⟩
  by_cases same : d' = d
  · subst same
    rw [round.mine, lineAsleep, setPass_pass, if_pos rfl, setPass_user, isUser]
    split <;> rfl
  · have other : callOf i d' ≠ callOf i d := fun equal => same (callOf_inj equal).2
    rw [asleep, round.others _ other, ← asleep, mine]
    exact (lineAsleep_congr setPass_user (setPass_pass.trans (if_neg same))).symm

/-- The calls of a step take no time, and open what was not there. -/
theorem turned_called {events : List LimiterEvent} (waits : RateBound.Waits a)
    (mine : ∀ d, asleep a (callOf i d) = lineAsleep l d) (called : Called l i x mv events)
    (run : limiter.run a events = some a') : Turned a a' i l (l.after mv) := by
  cases called with
  | nothing mv pass =>
    obtain rfl := Option.some.inj run
    refine ⟨after_user, after_gateway, fun _ _ => rfl, fun d => (mine d).trans ?_, fun _ there => there, rfl, waits⟩
    rcases pass with same | ⟨d', same, awake⟩
    · exact (lineAsleep_congr after_user (congrFun same d)).symm
    · by_cases here : d = d'
      · subst here
        exact awake.trans (lineAsleep_idle (same ▸ Function.update_self ..)).symm
      · exact (lineAsleep_congr after_user (same ▸ Function.update_of_ne here ..)).symm
  | forUser =>
    obtain ⟨b, step, last⟩ := Machine.run_cons.1 run
    obtain rfl := Option.some.inj last
    have sleeping : b.sleeping = a.sleeping := by
      obtain rfl : a.forUser l.user l.limit = b := Option.some.inj step
      unfold Limiter.forUser
      split <;> rfl
    refine ⟨rfl, rfl, fun call _ => congrFun sleeping call, fun d => ?_,
      fun user there => kept_step waits step user there, clock_step step rfl, RateBound.waits_step waits step⟩
    rw [asleep, sleeping]
    exact mine d
  | cancel d n sleeps =>
    obtain ⟨b, step, last⟩ := Machine.run_cons.1 run
    obtain rfl := Option.some.inj last
    have kept := fun user there => kept_step waits step user there
    have clock := clock_step step rfl
    have waits' := RateBound.waits_step waits step
    obtain ⟨w, -, rfl⟩ := Option.map_eq_some_iff.1 step
    refine ⟨rfl, rfl, fun call other => Function.update_of_ne (other d) .., fun d' => ?_, kept, clock, waits'⟩
    by_cases same : d' = d
    · subst same
      simp [asleep, lineAsleep, Line.after, setPass_pass]
    · have other : callOf i d' ≠ callOf i d := fun equal => same (callOf_inj equal).2
      refine (congrArg (Option.map _) (Function.update_of_ne other ..)).trans ((mine d').trans ?_)
      exact (lineAsleep_congr setPass_user (setPass_pass.trans (if_neg same))).symm
  | setRate up down reply replied =>
    obtain ⟨b, step, last⟩ := Machine.run_cons.1 run
    obtain rfl := Option.some.inj last
    have kept := fun user there => kept_step waits step user there
    have clock := clock_step step rfl
    have waits' := RateBound.waits_step waits step
    obtain ⟨bucket, -, rfl⟩ := Option.map_eq_some_iff.1 step
    exact ⟨rfl, rfl, fun _ _ => rfl, mine, kept, clock, waits'⟩

/-! ## Lines and connections -/

/-- The call that a gateway has asleep for a connection. -/
def asleepAt (lines : List Line) (g i : ℕ) (d : Direction) : Option (Id × ℤ) :=
  lines[i]?.bind fun l => if l.gateway = g then lineAsleep l d else none

/-- The goroutines of a connection were started. -/
def Started (x : Edge) : Prop := x.beat ≠ .off ∨ ∃ d, x.relay d ≠ .off

/-- The bytes that are in the buffer. -/
def Pass.size : Pass → ℕ
  | .idle => 0
  | .waiting n | .granted n => n

/-- **The lines go with the connections, and the limiters with the lines.** -/
structure Joined (s : Throttle) : Prop where
  steady : Fleet.Steady s.fleet
  users : s.lines.map (·.user) = s.fleet.conns.map fun conn => conn.1.user
  calls : ∀ g i d, asleep (s.limiters g) (callOf i d) = asleepAt s.lines g i d
  waits : ∀ g, RateBound.Waits (s.limiters g)
  clock : ∀ g, (s.limiters g).clock = clockOf s.fleet.plane.now
  opened : ∀ (i : ℕ) (l : Line) (c : Route) (x : Edge), s.lines[i]? = some l → s.fleet.conns[i]? = some (c, x) →
    Started x → ((s.limiters l.gateway).buckets l.user).isSome
  fits : ∀ l ∈ s.lines, ∀ d, Pass.size (l.pass d) ≤ bufferSize

theorem Joined.mine (joined : Joined s) (line : s.lines[i]? = some l) (d : Direction) :
    asleep (s.limiters l.gateway) (callOf i d) = lineAsleep l d := by
  rw [joined.calls, asleepAt, line, Option.bind_some, if_pos rfl]

theorem Joined.user (joined : Joined s) (line : s.lines[i]? = some l) (here : s.fleet.conns[i]? = some (c, x)) :
    l.user = c.user := by
  have same := congrArg (fun users : List Id => users[i]?) joined.users
  simpa [line, here] using same

/-- What keeps a limiter of the others as it was. -/
theorem Joined.turned {fleet : Fleet} (joined : Joined s) (line : s.lines[i]? = some l)
    (turned : Turned (s.limiters l.gateway) a' i l l') (steady : Fleet.Steady fleet)
    (users : fleet.conns.map (fun conn => conn.1.user) = s.fleet.conns.map fun conn => conn.1.user)
    (now : fleet.plane.now = s.fleet.plane.now)
    (started : ∀ (j : ℕ) (c : Route) (y : Edge), fleet.conns[j]? = some (c, y) → Started y →
      (∃ x, s.fleet.conns[j]? = some (c, x) ∧ Started x) ∨ j = i ∧ (a'.buckets l.user).isSome)
    (fits : ∀ d, Pass.size (l'.pass d) ≤ bufferSize) :
    Joined ⟨fleet, s.lines.set i l', Function.update s.limiters l.gateway a'⟩ where
  steady := steady
  users := (Fleet.map_set_same _ line turned.user).trans (joined.users.trans users.symm)
  calls := by
    obtain ⟨lt, -⟩ := List.getElem?_eq_some_iff.1 line
    refine (Function.forall_update_iff _ fun g a => ∀ j d, asleep a (callOf j d) = asleepAt _ g j d).2 ⟨?_, ?_⟩
    · intro j d
      by_cases here : j = i
      · subst here
        rw [turned.mine, asleepAt, List.getElem?_set_self lt, Option.bind_some, if_pos turned.gateway]
      · have other : ∀ d', callOf j d ≠ callOf i d' := fun d' same => here (callOf_inj same).1
        rw [asleep, turned.others _ other, ← asleep, joined.calls, asleepAt, asleepAt,
          List.getElem?_set_ne (Ne.symm here)]
    · intro g ne j d
      rw [joined.calls, asleepAt, asleepAt]
      by_cases here : j = i
      · subst here
        have away : ¬ l'.gateway = g := fun same => ne (same ▸ turned.gateway)
        rw [line, List.getElem?_set_self lt, Option.bind_some, Option.bind_some, if_neg (Ne.symm ne), if_neg away]
      · rw [List.getElem?_set_ne (Ne.symm here)]
  waits := (Function.forall_update_iff _ fun _ a => RateBound.Waits a).2 ⟨turned.waits, fun g _ => joined.waits g⟩
  clock := by
    refine (Function.forall_update_iff _ fun _ (a : Limiter) => a.clock = clockOf _).2 ⟨?_, fun g _ => ?_⟩
    · rw [turned.clock, joined.clock, now]
    · rw [joined.clock, now]
  opened := by
    intro j k c y there here begun
    obtain ⟨lt, -⟩ := List.getElem?_eq_some_iff.1 line
    have kept : ∀ g user, ((s.limiters g).buckets user).isSome →
        ((Function.update s.limiters l.gateway a' g).buckets user).isSome := by
      intro g user opened
      by_cases same : g = l.gateway
      · subst same
        rw [Function.update_self]
        exact turned.kept user opened
      · rw [Function.update_of_ne same]
        exact opened
    by_cases mine : j = i
    · subst mine
      obtain rfl : l' = k := by simpa [List.getElem?_set_self lt] using there
      rw [turned.user, turned.gateway]
      rcases started j c y here begun with ⟨x, before, begun'⟩ | ⟨-, opened⟩
      · exact kept _ _ (joined.opened j l c x line before begun')
      · simpa using opened
    · rw [List.getElem?_set_ne (Ne.symm mine)] at there
      rcases started j c y here begun with ⟨x, before, begun'⟩ | ⟨same, -⟩
      · exact kept _ _ (joined.opened j k c x there before begun')
      · exact absurd same mine
  fits := by
    intro k mem
    rcases List.mem_or_eq_of_mem_set mem with old | rfl
    · exact joined.fits k old
    · exact fits

theorem steady_run {f f' : Fleet} {ms : List FleetMove} (steady : Fleet.Steady f)
    (run : (fleet cfg).run f ms = some f') : Fleet.Steady f' := by
  have step : ∀ {f m f'}, Fleet.Steady f → (fleet cfg).step f m = some f' → Fleet.Steady f' :=
    fun steady step => Fleet.steady_step steady (Fleet.step_inv step)
  exact Machine.run_invariant step steady ⟨ms, run⟩

/-- Only `established` starts goroutines. -/
theorem started_before (h : Edge.Stepped cfg c x mv y) (begun : Started y) : Started x ∨ mv = .established := by
  have off : ∀ {z : Edge}, z.beat = x.beat → z.relay = x.relay → Started z → Started x := by
    intro z beat relay begun
    rwa [Started, beat, relay] at begun
  have beats : x.beat ≠ .off → Started x := .inl
  have relays : ∀ d, x.relay d ≠ .off → Started x := fun d there => .inr ⟨d, there⟩
  cases h with
  | established here => exact .inr rfl
  | write d n here => exact .inl (relays d (by simp [here]))
  | add d n here => exact .inl (relays d (by simp [here]))
  | relayStop d here => exact .inl (relays d (by simp [here]))
  | tick here due => exact .inl (beats (by simp [here]))
  | swapDown up here => exact .inl (beats (by simp [here]))
  | beatHandled up down here => exact .inl (beats (by simp [here]))
  | terminated up down reply here ends => exact .inl (beats (by simp [here]))
  | continued up down reply here goes => exact .inl (beats (by simp [here]))
  | refused up down err here => exact .inl (beats (by simp [here]))
  | beatFailed late up down reply here => exact .inl (beats (by simp [here]))
  | addUp up down here => exact .inl (beats (by simp [here]))
  | addDown down here => exact .inl (beats (by simp [here]))
  | beatDone here done => exact .inl (beats (by simp [here]))
  | _ => exact .inl (off rfl rfl begun)

/-- A connection's own step takes no time. -/
theorem now_of_own (h : Edge.Stepped cfg c x mv y) (own : mv.isOwn) : y.plane.now = x.plane.now := by
  rcases h.plane own with same | ⟨r, served⟩
  · rw [same]
  · obtain ⟨-, after⟩ := plane_step.1 served
    rw [after]
    cases r <;> simp [Route.event, Event.elapsed]

theorem size_after (line : ∀ d, Pass.size (l.pass d) ≤ bufferSize) : Pass.size ((l.after mv).pass d) ≤ bufferSize := by
  have idle : ∀ d', Pass.size ((l.setPass d' .idle).pass d) ≤ bufferSize := by
    intro d'
    rw [setPass_pass]
    split
    · exact Nat.zero_le _
    · exact line d
  cases mv with
  | write d' n | relayStop d' => exact idle d'
  | _ => exact line d

/-- The bucket of a user whose connection is established. -/
theorem opened_called (calls : limiter.run a (l.events i x .established) = some a') :
    (a'.buckets l.user).isSome := by
  obtain ⟨b, step, last⟩ := Machine.run_cons.1 calls
  obtain rfl := Option.some.inj last
  obtain rfl : a.forUser l.user l.limit = b := Option.some.inj step
  unfold Limiter.forUser
  split <;> simp [Limiter.setBucket]

theorem joined_settle {user : Id} (joined : Joined s) (line : s.lines[i]? = some l) (isUser : user = l.user)
    (step : limiter.step (s.limiters l.gateway) e = some a') (timeless : takesTime e = false)
    (round : Rounded (s.limiters l.gateway) e a' (callOf i d) user n) (fits : n ≤ bufferSize) :
    Joined (s.settle i d n l a') := by
  have turned := turned_settle (joined.waits l.gateway) (joined.mine line) isUser step timeless round
  refine joined.turned line turned joined.steady rfl rfl (fun j c y here begun => .inl ⟨y, here, begun⟩) ?_
  intro d'
  rw [setPass_pass]
  split
  · split <;> exact fits
  · exact joined.fits l (List.mem_of_getElem? line) d'

/-- **The step lemma** of `Joined`. -/
theorem joined_step (joined : Joined s) (h : (throttle cfg).step s m = some s') : Joined s' := by
  have steady := steady_run joined.steady (fleet_step h)
  cases step_inv h with
  | connected gateway newId p plane reply step admitted =>
    obtain ⟨-, rfl⟩ := plane_step.1 step
    have lengths : s.lines.length = s.fleet.conns.length := by simpa using congrArg List.length joined.users
    refine ⟨steady, by simp [joined.users], fun g i d => ?_, joined.waits, fun g => ?_, fun i l c x line here => ?_, ?_⟩
    · rw [joined.calls, asleepAt, asleepAt, List.getElem?_append]
      split
      · rfl
      · rename_i beyond
        rw [List.getElem?_eq_none (not_lt.1 beyond)]
        cases rest : i - s.lines.length <;> simp [lineAsleep]
    · simp [joined.clock, Event.elapsed]
    · intro begun
      rcases lt_or_ge i s.lines.length with old | new
      · rw [List.getElem?_append_left old] at line
        rw [List.getElem?_append_left (lengths ▸ old)] at here
        exact joined.opened i l c x line here begun
      · -- a connection that is only authorized
        rw [List.getElem?_append_right (lengths ▸ new)] at here
        obtain ⟨lt, found⟩ := List.getElem?_eq_some_iff.1 here
        have same : ({ plane := _ } : Edge) = x := (Prod.mk.inj (by simpa using found)).2
        subst same
        rcases begun with beat | ⟨d, relay⟩
        · exact absurd rfl beat
        · exact absurd rfl relay
    · intro l mem d
      rcases List.mem_append.1 mem with old | new
      · exact joined.fits l old d
      · obtain rfl := List.mem_singleton.1 new
        exact Nat.zero_le _
  | refused gateway newId p lost plane step =>
    obtain ⟨-, rfl⟩ := plane_step.1 step
    exact ⟨steady, joined.users, joined.calls, joined.waits, fun g => by simp [joined.clock, Event.elapsed],
      joined.opened, joined.fits⟩
  | moved i mv l c x y a' line here allowed own step calls =>
    have stepped := Edge.step_inv step
    have turned := turned_called (joined.waits l.gateway) (joined.mine line) (called allowed) calls
    refine joined.turned line turned steady (Fleet.map_set_same _ here rfl) (now_of_own stepped own) ?_
      fun d => size_after (joined.fits l (List.mem_of_getElem? line))
    intro j c' y' there begun
    by_cases mine : j = i
    · subst mine
      obtain ⟨lt, -⟩ := List.getElem?_eq_some_iff.1 here
      obtain ⟨rfl, rfl⟩ : c = c' ∧ y = y' := by simpa [List.getElem?_set_self lt] using there
      rcases started_before stepped begun with before | rfl
      · exact .inl ⟨x, here, before⟩
      · exact .inr ⟨rfl, opened_called calls⟩
    · rw [List.getElem?_set_ne (Ne.symm mine)] at there
      exact .inl ⟨y', there, begun⟩
  | controlled e plane other step =>
    obtain ⟨-, rfl⟩ := plane_step.1 step
    refine ⟨steady, joined.users, joined.calls, joined.waits, fun g => ?_, joined.opened, joined.fits⟩
    simp only [Limiter.later, joined.clock, clockOf, Int.cast_add, Int.cast_natCast, add_div]
  | waited i d n l c x a' line here running idle positive fits round =>
    exact joined_settle joined line rfl round rfl (rounded_wait positive round) fits
  | woken i d n l a' line waits round =>
    have sleeps : asleep (s.limiters l.gateway) (callOf i d) = some (l.user, (n : ℤ)) := by
      rw [joined.mine line, lineAsleep, waits]
    have fits : Pass.size (l.pass d) ≤ bufferSize := joined.fits l (List.mem_of_getElem? line) d
    rw [waits] at fits
    exact joined_settle joined line rfl round rfl (rounded_wake sleeps round) fits

theorem joined_initial (start : Instant) : Joined (.initial start) where
  steady := Fleet.steady_initial start
  users := rfl
  calls _ _ _ := rfl
  waits _ := nofun
  clock _ := by simp only [Throttle.initial, Limiter.initial, Fleet.initial, Plane.initial]
  opened i l c x line := by simp [Throttle.initial] at line
  fits l mem := by simp [Throttle.initial] at mem

/-! ## Rates -/

/-- A limit, and not over `R`. -/
def InRange (R : ℚ) (limit : ℕ) : Prop := 0 < limit ∧ (limit : ℚ) ≤ R

/-- The control plane limits the user to `R` at most. -/
def Capped (R : ℚ) (uid : Id) (p : Plane) : Prop :=
  ∀ user, p.db.users.find? uid = some user → InRange R user.speedLimitBps

theorem inRange_of_authorize {newId : Id} {now : Instant} {db : Database} {p : GatewayAuthorize}
    {reply : AuthorizeReply} (capped : ∀ user, db.users.find? p.userId = some user → InRange R user.speedLimitBps)
    (admitted : (authorize cfg now newId p db).2 = .ok reply) : InRange R reply.speedLimitBps := by
  rcases authorize_cases (Prod.mk.eta (p := authorize cfg now newId p db)).symm with
    ⟨-, err, -, refused, -⟩ | ⟨-, refused⟩ | ⟨user, node, verdict, -, answered⟩
  · rw [refused] at admitted
    cases admitted
  · rw [refused] at admitted
    cases admitted
  · obtain rfl := Except.ok.inj (answered.symm.trans admitted)
    exact capped user (decideRoute_admitted_iff.1 verdict).1

theorem inRange_of_heartbeat {up down : ℕ} {reply : HeartbeatReply} (sound : Delivery.Sound c x)
    (capped : Capped R c.user x.plane)
    (answered : (heartbeat x.plane.now (c.heartbeat up down) x.plane.db).2 = .ok reply) :
    InRange R reply.speedLimitBps := by
  rcases heartbeat_cases (Prod.mk.eta (p := heartbeat x.plane.now (c.heartbeat up down) x.plane.db)).symm with
    ⟨-, -, refused⟩ | ⟨row, user, verdict, sid, -, charges, answer⟩
  · rw [refused] at answered
    cases answered
  · obtain rfl := Except.ok.inj (answer.symm.trans answered)
    have mine : row.userId = c.user :=
      sound.owner row (by rw [Edge.row, ← show row.id = c.session from sid]; exact charges.found)
    exact capped user (mine ▸ charges.owner)

/-- A reply is on its way, or is the control plane's answer now. -/
theorem reply_before (h : Edge.Stepped cfg c x mv y) {up down : ℕ} {reply : HeartbeatReply}
    (replied : y.beat = .posting up down (some (.ok reply))) :
    x.beat = .posting up down (some (.ok reply)) ∨
      (heartbeat x.plane.now (c.heartbeat up down) x.plane.db).2 = .ok reply := by
  cases h with
  | beatHandled up' down' here =>
    obtain ⟨rfl, rfl, answered⟩ : up' = up ∧ down' = down ∧ _ = Except.ok reply := by simpa using replied
    exact .inr answered
  | addDown down' here =>
    simp only [Edge.fail_beat] at replied
    split at replied <;> cases replied
  | _ => first | cases replied | exact .inl replied

/-- No rate over `R` reaches the user's buckets. -/
structure Limited (R : ℚ) (uid : Id) (s : Throttle) : Prop where
  limits : ∀ l ∈ s.lines, l.user = uid → InRange R l.limit
  replies : ∀ conn ∈ s.fleet.conns, conn.1.user = uid → ∀ up down reply,
    conn.2.beat = .posting up down (some (.ok reply)) → InRange R reply.speedLimitBps
  fair : ∀ g, RateBound.Inv R uid (s.limiters g)

theorem within_of_none (none : e.rateFor uid = none) : RateBound.Within R uid e := by
  intro rate passed
  rw [none] at passed
  cases passed

theorem within_called {events : List LimiterEvent} (called : Called l i x mv events)
    (limit : l.user = uid → InRange R l.limit)
    (replies : l.user = uid → ∀ up down reply, x.beat = .posting up down (some (.ok reply)) →
      InRange R reply.speedLimitBps) : ∀ e ∈ events, RateBound.Within R uid e := by
  have inRange : ∀ {limit : ℕ} {rate : ℤ}, (l.user = uid → InRange R limit) →
      (if l.user = uid then some (limit : ℤ) else none) = some rate → 0 < rate ∧ (rate : ℚ) ≤ R := by
    intro limit rate inRange passed
    obtain ⟨mine, same⟩ := Option.ite_none_right_eq_some.1 passed
    obtain rfl := Option.some.inj same
    obtain ⟨low, high⟩ := inRange mine
    exact ⟨by exact_mod_cast low, by exact_mod_cast high⟩
  intro e mem
  cases called with
  | nothing => cases mem
  | forUser =>
    obtain rfl := List.mem_singleton.1 mem
    exact fun rate passed => inRange limit passed
  | cancel d n waits =>
    obtain rfl := List.mem_singleton.1 mem
    exact within_of_none rfl
  | setRate up down reply replied =>
    obtain rfl := List.mem_singleton.1 mem
    exact fun rate passed => inRange (fun mine => replies mine _ _ _ replied) passed

/-- **The step lemma** of `Limited`. -/
theorem limited_step (positive : 0 ≤ R) (joined : Joined s) (limited : Limited R uid s)
    (capped : Capped R uid s.fleet.plane) (h : Throttle.Stepped cfg s m s') : Limited R uid s' := by
  have met := RateBound.metered positive uid
  have settled : ∀ {i d n l e a'}, s.lines[i]? = some l → RateBound.Within R uid e →
      limiter.step (s.limiters l.gateway) e = some a' → Limited R uid (s.settle i d n l a') := by
    intro i d n l e a' line within step
    refine ⟨fun k mem mine => ?_, limited.replies, ?_⟩
    · rcases List.mem_or_eq_of_mem_set mem with old | rfl
      · exact limited.limits k old mine
      · exact limited.limits l (List.mem_of_getElem? line) mine
    · exact (Function.forall_update_iff _ fun _ a => RateBound.Inv R uid a).2
        ⟨met.keep (limited.fair _) within step, fun g _ => limited.fair g⟩
  cases h with
  | connected gateway newId p plane reply step admitted =>
    refine ⟨fun l mem mine => ?_, fun conn mem mine up down answer replied => ?_, limited.fair⟩
    · rcases List.mem_append.1 mem with old | new
      · exact limited.limits l old mine
      · obtain rfl := List.mem_singleton.1 new
        exact inRange_of_authorize (fun user found => capped user (mine ▸ found)) admitted
    · rcases List.mem_append.1 mem with old | new
      · exact limited.replies conn old mine up down answer replied
      · obtain rfl := List.mem_singleton.1 new
        cases replied
  | refused gateway newId p lost plane step => exact ⟨limited.limits, limited.replies, limited.fair⟩
  | moved i mv l c x y a' line here allowed own step calls =>
    have inList : (c, x) ∈ s.fleet.conns := List.mem_of_getElem? here
    refine ⟨fun k mem mine => ?_, fun conn mem mine up down answer replied => ?_, ?_⟩
    · rcases List.mem_or_eq_of_mem_set mem with old | rfl
      · exact limited.limits k old mine
      · rw [after_limit]
        exact limited.limits l (List.mem_of_getElem? line) (after_user.symm.trans mine)
    · rcases List.mem_or_eq_of_mem_set mem with old | rfl
      · exact limited.replies conn old mine up down answer replied
      · rcases reply_before (Edge.step_inv step) replied with before | answered
        · exact limited.replies _ inList mine up down answer before
        · exact inRange_of_heartbeat (joined.steady.sound i c x here).1 (mine ▸ capped) answered
    · have within := within_called (called (i := i) (x := x) allowed)
        (limited.limits l (List.mem_of_getElem? line))
        fun mine => limited.replies _ inList ((joined.user line here).symm.trans mine)
      have kept : RateBound.Inv R uid a' :=
        Machine.along_invariant met.keep (limited.fair _) (Machine.along_of_mem within _) calls
      exact (Function.forall_update_iff _ fun _ a => RateBound.Inv R uid a).2 ⟨kept, fun g _ => limited.fair g⟩
  | controlled e plane other step =>
    refine ⟨limited.limits, limited.replies, fun g => ?_⟩
    have ticked : limiter.step (s.limiters g) (.tick ((e.elapsed : ℚ) / 1000000)) =
        some ((s.limiters g).later e.elapsed) := if_pos (by positivity)
    exact met.keep (limited.fair g) (within_of_none rfl) ticked
  | waited i d n l c x a' line here running idle some_bytes fits round => exact settled line (within_of_none rfl) round
  | woken i d n l a' line waits round => exact settled line (within_of_none rfl) round

/-! ## Bytes -/

/-- What the user's connections at a gateway were granted and still hold. -/
def held (g : ℕ) (uid : Id) (lines : List Line) : ℕ :=
  (lines.map fun l => if l.gateway = g ∧ l.user = uid then lineHeld l else 0).sum

/-- The bytes that a move writes. -/
def size : Move → ℕ
  | .write _ n => n
  | _ => 0

/-- The bytes that a step of one of the user's connections at a gateway writes. -/
def wrote (g : ℕ) (uid : Id) (s : Throttle) : ThrottleMove → ℚ
  | .move i mv => match s.lines[i]? with
    | some l => if l.gateway = g ∧ l.user = uid then size mv else 0
    | none => 0
  | _ => 0

theorem held_set (g : ℕ) (uid : Id) {lines : List Line} (line : lines[i]? = some l) (gateway : l'.gateway = l.gateway)
    (user : l'.user = l.user) :
    held g uid (lines.set i l') + (if l.gateway = g ∧ l.user = uid then lineHeld l else 0) =
      held g uid lines + if l.gateway = g ∧ l.user = uid then lineHeld l' else 0 := by
  have sum := Fleet.sum_map_set (fun l : Line => if l.gateway = g ∧ l.user = uid then lineHeld l else 0) l' line
  simpa only [held, gateway, user] using sum

/-- `relay` writes of what it holds. -/
theorem lineHeld_after (allowed : l.allows mv = true) : size mv + lineHeld (l.after mv) ≤ lineHeld l := by
  cases mv with
  | write d n =>
    have taken := lineHeld_setPass l d .idle
    simp only [Line.allows] at allowed
    split at allowed
    · rename_i k granted
      have enough : n ≤ k := of_decide_eq_true allowed
      rw [granted] at taken
      simp only [Pass.held, size, Line.after] at taken ⊢
      omega
    · cases allowed
  | relayStop d =>
    have taken := lineHeld_setPass l d .idle
    simp only [Pass.held, size, Line.after] at taken ⊢
    omega
  | _ => simp [size, Line.after]

theorem held_le (fits : ∀ l ∈ s.lines, ∀ d, Pass.size (l.pass d) ≤ bufferSize) :
    held g uid s.lines ≤ 2 * bufferSize * s.lines.countP fun l => l.gateway = g ∧ l.user = uid := by
  have each : ∀ p : Pass, Pass.held p ≤ Pass.size p := fun p => by cases p <;> simp [Pass.held, Pass.size]
  unfold held
  generalize s.lines = lines at fits ⊢
  induction lines with
  | nil => simp
  | cons l lines ih =>
    have rest := ih fun k mem => fits k (List.mem_cons_of_mem l mem)
    have up := (each (l.pass .up)).trans (fits l List.mem_cons_self .up)
    have down := (each (l.pass .down)).trans (fits l List.mem_cons_self .down)
    simp only [List.map_cons, List.sum_cons, List.countP_cons]
    by_cases mine : l.gateway = g ∧ l.user = uid
    · have more : lineHeld l ≤ 2 * bufferSize := by
        unfold lineHeld
        omega
      simp only [mine, and_self, if_true, decide_true, Nat.mul_add, Nat.mul_one]
      omega
    · simp only [mine, if_false, decide_false, Bool.false_eq_true, Nat.add_zero, Nat.zero_add]
      exact rest

/-- The credit of the user's bucket, less what time brought. -/
def budget (R : ℚ) (uid : Id) (a : Limiter) : ℚ := RateBound.credit R uid a - R * a.clock

theorem budget_step (positive : 0 ≤ R) (inv : RateBound.Inv R uid a) (within : RateBound.Within R uid e)
    (step : limiter.step a e = some a') : a.granted uid e + budget R uid a' ≤ budget R uid a := by
  have pays := (RateBound.metered positive uid).pays inv within step
  unfold budget
  linarith

theorem budget_called {events : List LimiterEvent} (positive : 0 ≤ R) (inv : RateBound.Inv R uid a)
    (called : Called l i x mv events) (within : ∀ e ∈ events, RateBound.Within R uid e)
    (run : limiter.run a events = some a') : budget R uid a' ≤ budget R uid a := by
  have one : ∀ {e}, RateBound.Within R uid e → a.granted uid e = 0 → limiter.run a [e] = some a' →
      budget R uid a' ≤ budget R uid a := by
    intro e within nothing run
    obtain ⟨b, step, last⟩ := Machine.run_cons.1 run
    obtain rfl := Option.some.inj last
    have pays := budget_step positive inv within step
    rwa [nothing, zero_add] at pays
  cases called with
  | nothing => exact (Option.some.inj run) ▸ le_rfl
  | forUser | cancel | setRate => exact one (within _ List.mem_cons_self) rfl run

/-- What the user holds at the gateway, and may be granted. -/
def potential (R : ℚ) (g : ℕ) (uid : Id) (s : Throttle) : ℚ :=
  held g uid s.lines + budget R uid (s.limiters g)

/-- A step of one line and its limiter. -/
theorem potential_set (g w : ℕ) {f : Fleet} (line : s.lines[i]? = some l) (gateway : l'.gateway = l.gateway)
    (user : l'.user = l.user) (others : budget R uid a' ≤ budget R uid (s.limiters l.gateway))
    (mine : l.user = uid →
      (w : ℚ) + lineHeld l' + budget R uid a' ≤ lineHeld l + budget R uid (s.limiters l.gateway)) :
    (if l.gateway = g ∧ l.user = uid then (w : ℚ) else 0) +
        potential R g uid ⟨f, s.lines.set i l', Function.update s.limiters l.gateway a'⟩ ≤
      potential R g uid s := by
  have sum := held_set g uid line gateway user
  unfold potential
  by_cases here : l.gateway = g
  · subst here
    simp only [Function.update_self, true_and] at sum ⊢
    by_cases own : l.user = uid
    · have paid := mine own
      simp only [own, if_true] at sum ⊢
      have sum' : (held l.gateway uid (s.lines.set i l') : ℚ) + lineHeld l =
          held l.gateway uid s.lines + lineHeld l' := by exact_mod_cast sum
      linarith
    · simp only [own, if_false, Nat.add_zero] at sum ⊢
      rw [sum]
      linarith
  · simp only [here, false_and, if_false, Nat.add_zero, Function.update_of_ne (Ne.symm here)] at sum ⊢
    rw [sum, zero_add]

theorem potential_settle {user : Id} (positive : 0 ≤ R) (inv : RateBound.Inv R uid (s.limiters l.gateway))
    (line : s.lines[i]? = some l) (isUser : user = l.user) (within : RateBound.Within R uid e)
    (step : limiter.step (s.limiters l.gateway) e = some a')
    (round : Rounded (s.limiters l.gateway) e a' (callOf i d) user n) (free : Pass.held (l.pass d) = 0) :
    potential R g uid (s.settle i d n l a') ≤ potential R g uid s := by
  have pays := budget_step positive inv within step
  rw [round.granted] at pays
  have others : budget R uid a' ≤ budget R uid (s.limiters l.gateway) := by
    split at pays
    · linarith
    · have some_bytes : (0 : ℚ) ≤ n := n.cast_nonneg
      linarith
  have mine : l.user = uid → ((0 : ℕ) : ℚ) + lineHeld (l.setPass d
      (if (a'.sleeping (callOf i d)).isSome then .waiting n else .granted n)) + budget R uid a' ≤
        lineHeld l + budget R uid (s.limiters l.gateway) := by
    intro mine
    have taken := lineHeld_setPass l d (if (a'.sleeping (callOf i d)).isSome then .waiting n else .granted n)
    rw [free, Nat.add_zero] at taken
    rw [taken]
    by_cases sleeps : (a'.sleeping (callOf i d)).isSome
    · simpa [sleeps, Pass.held] using others
    · simp only [sleeps, isUser, mine, ne_eq, not_true, or_false, if_false, Bool.false_eq_true, Pass.held,
        Nat.cast_add, Nat.cast_zero, zero_add] at pays ⊢
      linarith
  have set := potential_set g 0 (f := s.fleet) line setPass_gateway setPass_user others mine
  simpa [settle] using set

/-- **The step lemma** of the potential: it pays for what a step writes. -/
theorem potential_step (positive : 0 ≤ R) (joined : Joined s) (limited : Limited R uid s)
    (h : Throttle.Stepped cfg s m s') : wrote g uid s m + potential R g uid s' ≤ potential R g uid s := by
  cases h with
  | connected gateway newId p plane reply step admitted =>
    have idle : lineHeld ⟨gateway, p.userId, reply.speedLimitBps, fun _ => .idle⟩ = 0 := rfl
    have same : held g uid (s.lines ++ [⟨gateway, p.userId, reply.speedLimitBps, fun _ => .idle⟩]) =
        held g uid s.lines := by simp [held, idle]
    simp only [wrote, potential, same, zero_add]
    exact le_rfl
  | refused gateway newId p lost plane step =>
    simp only [wrote, potential, zero_add]
    exact le_rfl
  | moved i mv l c x y a' line here allowed own step calls =>
    have inList : (c, x) ∈ s.fleet.conns := List.mem_of_getElem? here
    have isCalled : Called l i x mv _ := called allowed
    have within := within_called isCalled (limited.limits l (List.mem_of_getElem? line))
      fun mine => limited.replies _ inList ((joined.user line here).symm.trans mine)
    have paid := budget_called positive (limited.fair _) isCalled within calls
    have writes : (size mv : ℚ) + lineHeld (l.after mv) ≤ lineHeld l := by
      exact_mod_cast lineHeld_after allowed
    simp only [wrote, line]
    exact potential_set g (size mv) line after_gateway after_user paid fun _ => by linarith
  | controlled e plane other step =>
    have ticked : limiter.step (s.limiters g) (.tick ((e.elapsed : ℚ) / 1000000)) =
        some ((s.limiters g).later e.elapsed) := if_pos (by positivity)
    have paid := budget_step positive (limited.fair g) (within_of_none rfl) ticked
    have nothing : (s.limiters g).granted uid (.tick ((e.elapsed : ℚ) / 1000000)) = 0 := rfl
    simp only [wrote, potential, zero_add]
    linarith
  | waited i d n l c x a' line here running idle some_bytes fits round =>
    have settled := potential_settle (g := g) positive (limited.fair _) line rfl (within_of_none rfl) round
      (rounded_wait some_bytes round) (by simp [idle, Pass.held])
    simpa [wrote] using settled
  | woken i d n l a' line waits round =>
    have sleeps : asleep (s.limiters l.gateway) (callOf i d) = some (l.user, (n : ℤ)) := by
      rw [joined.mine line, lineAsleep, waits]
    have settled := potential_settle (g := g) positive (limited.fair _) line rfl (within_of_none rfl) round
      (rounded_wake sleeps round) (by simp [waits, Pass.held])
    simpa [wrote] using settled

/-! ## Steps that do not wait -/

theorem run_called {events : List LimiterEvent} (called : Called l i x mv events)
    (mine : ∀ d, asleep a (callOf i d) = lineAsleep l d) (opened : Started x → (a.buckets l.user).isSome) :
    (limiter.run a events).isSome := by
  have one : ∀ {e a'}, limiter.step a e = some a' → (limiter.run a [e]).isSome := fun step =>
    Option.isSome_iff_exists.2 ⟨_, Machine.run_cons.2 ⟨_, step, rfl⟩⟩
  cases called with
  | nothing => rfl
  | forUser => exact one rfl
  | cancel d n waits =>
    have sleeps := mine d
    rw [lineAsleep, waits] at sleeps
    obtain ⟨w, found, -⟩ := Option.map_eq_some_iff.1 sleeps
    exact one (Option.map_eq_some_iff.2 ⟨w, found, rfl⟩)
  | setRate up down reply replied =>
    obtain ⟨b, found⟩ := Option.isSome_iff_exists.1 (opened (.inl (by simp [replied])))
    exact one (Option.map_eq_some_iff.2 ⟨b, found, rfl⟩)

/-- The limiters hold up nothing but `relay` between its read and its write. -/
def Unhindered (cfg : Settings) (s : Throttle) : Prop :=
  (∀ i mv l, s.lines[i]? = some l → l.allows mv = true → (Fleet.step cfg s.fleet (.move i mv)).isSome →
    ((throttle cfg).step s (.move i mv)).isSome) ∧
  ∀ i d n l c x, s.lines[i]? = some l → s.fleet.conns[i]? = some (c, x) → x.relay d = .running →
    l.pass d = .idle → 0 < n → n ≤ bufferSize → ((throttle cfg).step s (.wait i d n)).isSome

theorem unhindered (joined : Joined s) : Unhindered cfg s := by
  refine ⟨fun i mv l line allowed possible => ?_, fun i d n l c x line here running idle positive fits => ?_⟩
  · obtain ⟨f, ran⟩ := Option.isSome_iff_exists.1 possible
    have stepped : (fleet cfg).step s.fleet (.move i mv) = some f := ran
    cases Fleet.step_inv stepped with
    | moved i mv c x y here own step =>
      obtain ⟨a', calls⟩ := Option.isSome_iff_exists.1 (run_called (called (x := x) allowed) (joined.mine line)
        (joined.opened i l c x line here))
      simp only [throttle, Throttle.step, line, here, Option.bind_some, allowed, if_true, ran, calls]
      rfl
  · obtain ⟨b, opened⟩ := Option.isSome_iff_exists.1
      (joined.opened i l c x line here (.inr ⟨d, by simp [running]⟩))
    have awake : (s.limiters l.gateway).sleeping (callOf i d) = none := by
      have none := joined.mine line d
      rw [lineAsleep_idle idle] at none
      exact Option.map_eq_none_iff.1 none
    simp [throttle, Throttle.step, line, here, running, idle, positive, fits, limiter, Limiter.step,
      Limiter.round, awake, opened, positive.ne']

/-! ## Runs -/

/-- **The run lemma.** -/
theorem joined_run {ms : List ThrottleMove} (joined : Joined s) (run : (throttle cfg).run s ms = some s') :
    (fleet cfg).run s.fleet (ms.flatMap ThrottleMove.fleet) = some s'.fleet ∧ Joined s' := by
  have step : ∀ {s : Throttle} {f : Fleet} {m s'}, (s.fleet = f ∧ Joined s) → True →
      (throttle cfg).step s m = some s' →
      ∃ f', (fleet cfg).run f m.fleet = some f' ∧ (s'.fleet = f' ∧ Joined s') := by
    rintro s f m s' ⟨rfl, joined⟩ - h
    exact ⟨_, fleet_step h, rfl, joined_step joined h⟩
  obtain ⟨f, ran, rfl, joined'⟩ := Machine.simulation step ⟨rfl, joined⟩
    (Machine.along_of_forall (fun _ _ => trivial) _ _) run
  exact ⟨Machine.image_flatMap run ▸ ran, joined'⟩

theorem limited_initial (start : Instant) : Limited R uid (.initial start) where
  limits l mem := by simp [Throttle.initial] at mem
  replies conn mem := by simp [Throttle.initial, Fleet.initial] at mem
  fair g := by
    constructor
    · intro call w asleep
      cases asleep
    · intro b found
      cases found

/-- **The limit on a user's connections.** While the control plane limits the user to at most `R`, what
all its connections at one gateway write in any stretch of time is at most one burst and the rate, with
what `relay` was granted before, which fits into the buffers. The fleet does nothing else than without the
limiters, and they hold up nothing but a `relay` between its read and its write. -/
theorem speed_limit (cfg : Settings) (start : Instant) (R : ℚ) (uid : Id) (g : ℕ)
    (before later : List ThrottleMove) (s t : Throttle) (positive : 0 < R)
    (first : (throttle cfg).run (.initial start) before = some s) (rest : (throttle cfg).run s later = some t)
    (capped : (throttle cfg).Along (fun s _ => Capped R uid s.fleet.plane) (.initial start) (before ++ later)) :
    (throttle cfg).total (wrote g uid) s later + held g uid t.lines ≤
        held g uid s.lines + (R + R * (clockOf t.fleet.plane.now - clockOf s.fleet.plane.now)) ∧
      held g uid s.lines ≤ 2 * bufferSize * (s.lines.countP fun l => l.gateway = g ∧ l.user = uid) ∧
      (fleet cfg).run (.initial start) ((before ++ later).flatMap ThrottleMove.fleet) = some t.fleet ∧
      Unhindered cfg t := by
  have keep : ∀ {s m s'}, (Joined s ∧ Limited R uid s) → Capped R uid s.fleet.plane →
      (throttle cfg).step s m = some s' → Joined s' ∧ Limited R uid s' := fun inv capped step =>
    ⟨joined_step inv.1 step, limited_step positive.le inv.1 inv.2 capped (step_inv step)⟩
  have pays : ∀ {s m s'}, (Joined s ∧ Limited R uid s) → Capped R uid s.fleet.plane →
      (throttle cfg).step s m = some s' → wrote g uid s m + potential R g uid s' ≤ potential R g uid s :=
    fun inv _ step => potential_step positive.le inv.1 inv.2 (step_inv step)
  obtain ⟨joined, limited⟩ := Machine.along_invariant keep ⟨joined_initial start, limited_initial start⟩
    capped.left first
  obtain ⟨joined', limited'⟩ := Machine.along_invariant keep ⟨joined, limited⟩ (capped.right first) rest
  have paid := Machine.run_potential keep pays ⟨joined, limited⟩ (capped.right first) rest
  have whole := (Machine.run_append first).trans rest
  refine ⟨?_, held_le joined.fits, (joined_run (joined_initial start) whole).1, unhindered joined'⟩
  have met := RateBound.metered positive.le uid
  have most := (met.bounds (limited.fair g)).2
  have least := (met.bounds (limited'.fair g)).1
  simp only [potential, budget, joined.clock, joined'.clock] at paid
  linarith

/-- Two connections of the test's user; one was granted what it read. -/
def twoEstablished : List ThrottleMove :=
  [.control (.admin "admin" (.createNode "node" testNode)),
    .control (.admin "admin" (.createUser "user" testKeys testUser)),
    .connect 0 "session" { userId := "user", nodeId := "node", sourceIp := "203.0.113.10" } false,
    .connect 0 "second" { userId := "user", nodeId := "node", sourceIp := "203.0.113.10" } false,
    .move 0 .established, .move 1 .established, .wait 0 .up 1000]

/-- They write, and a heartbeat of the first sets the rate again. -/
def twoWrite : List ThrottleMove :=
  [.wait 1 .up 32768, .move 0 (.write .up 1000), .move 1 (.write .up 32768), .move 0 (.add .up),
    .control (.tick 15000000), .move 0 .tick, .move 0 .swapDown, .move 0 .beatHandled, .move 0 .beatReplied,
    .wait 0 .up 500]

/-- The first kilobyte was granted before, the rest is within the limit of a megabyte a second. -/
theorem speed_limit_two : ∃ s t, (throttle {}).run (.initial 0) twoEstablished = some s ∧
    (throttle {}).run s twoWrite = some t ∧
    (throttle {}).total (wrote 0 "user") s twoWrite + held 0 "user" t.lines ≤
      1000 + (1000000 + 1000000 * (clockOf t.fleet.plane.now - clockOf s.fleet.plane.now)) := by
  obtain ⟨s, first, facts⟩ := (Option.any_eq_true _ _).1
    (by decide +kernel : ((throttle {}).run (.initial 0) twoEstablished).any fun s =>
      held 0 "user" s.lines = 1000 && ((throttle {}).run s twoWrite).isSome)
  obtain ⟨granted, rest⟩ := Bool.and_eq_true_iff.1 facts
  obtain ⟨t, rest⟩ := Option.isSome_iff_exists.1 rest
  have checked : (throttle {}).Along (fun s _ => (s.fleet.plane.db.users.find? "user").all (fun user =>
      0 < user.speedLimitBps && user.speedLimitBps ≤ 1000000) = true) (.initial 0) (twoEstablished ++ twoWrite) := by
    decide +kernel
  have capped := checked.mono fun s _ all => show Capped 1000000 "user" s.fleet.plane from fun user found => by
    rw [found] at all
    obtain ⟨low, high⟩ := Bool.and_eq_true_iff.1 all
    exact ⟨of_decide_eq_true low, by exact_mod_cast of_decide_eq_true high⟩
  have limited := (speed_limit {} 0 1000000 "user" 0 twoEstablished twoWrite s t (by norm_num) first rest capped).1
  rw [of_decide_eq_true granted] at limited
  exact ⟨s, t, first, rest, by exact_mod_cast limited⟩

end Arena.SpeedLimit
