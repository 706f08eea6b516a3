import Arena.Delivery
import Arena.Ledger
import Arena.Model.Fleet

/-!
# Conservation of traffic over the fleet

`Arena.Delivery` follows the bytes of one connection, with the rest of the world as its
environment. `fleet_connection` is the link: each connection of the fleet is a run of `edge`,
whose own moves are the ones the fleet made of it, so that whatever holds of `edge` holds of it.
`fleet_conservation` adds the accounts up: what all connections of a user wrote is charged to the
user, or still in the gateways' hands, but for the bytes that a step counted twice or dropped.
-/

namespace Arena.Fleet

open Arena.Lib Arena.Model

variable {cfg : Settings} {s s' : Fleet} {m : FleetMove} {i : ℕ} {c : Route} {x : Edge}

/-! ## The connections are separate -/

/-- What keeps connections apart: each has a session of its own, that was drawn. -/
structure Separate (s : Fleet) : Prop where
  sessions : (s.conns.map fun conn => conn.1.session).Nodup
  drawn : ∀ conn ∈ s.conns, conn.1.session ∈ s.plane.issued

/-- The event is no request of this session. -/
theorem foreign_of_gateway {e : Event} (other : e.isGateway = false) (i : Id) : ¬ e.addresses i := by
  cases e with
  | tick | start | admin => simp [Event.addresses]
  | authorize | heartbeat | close => simp [Event.isGateway] at other

theorem foreign_of_session {c c' : Route} (ne : c'.session ≠ c.session) (r : Abandoned) :
    ¬ (c'.event r).addresses c.session := by
  cases r <;> simpa [Route.event, Route.heartbeat, Route.close, Event.addresses] using ne

theorem issued_of_step {p p' : Plane} {e : Event} (step : (plane cfg).step p e = some p') {i : Id}
    (mem : i ∈ p.issued) : i ∈ p'.issued := by
  obtain ⟨-, rfl⟩ := plane_step.1 step
  exact List.mem_append_right _ mem

/-- One entry of a list changes in what the map leaves out. -/
theorem map_set_same {α β : Type} (f : α → β) {l : List α} {a b : α} (here : l[i]? = some a) (same : f b = f a) :
    (l.set i b).map f = l.map f := by
  obtain ⟨lt, found⟩ := List.getElem?_eq_some_iff.1 here
  have lt' : i < (l.map f).length := by simpa using lt
  have there : f b = (l.map f).get ⟨i, lt'⟩ := by simp [found, same]
  rw [List.map_set, there, List.get_eq_getElem, List.set_getElem_self]

theorem separate_step (separate : Separate s) (h : Fleet.Stepped cfg s m s') : Separate s' := by
  cases h with
  | connected newId p plane reply step admitted =>
    have new : newId ∉ s.plane.issued := (plane_step.1 step).1 newId (by simp [Event.draws])
    refine ⟨?_, fun conn mem => ?_⟩
    · rw [List.map_append, List.nodup_append]
      refine ⟨separate.sessions, by simp, ?_⟩
      rintro a ha b hb rfl
      obtain ⟨conn, mem, rfl⟩ := List.mem_map.1 ha
      simp only [List.map_cons, List.map_nil, List.mem_singleton] at hb
      exact new (hb ▸ separate.drawn conn mem)
    · rcases List.mem_append.1 mem with mem | mem
      · exact issued_of_step step (separate.drawn conn mem)
      · obtain rfl := List.mem_singleton.1 mem
        obtain ⟨-, rfl⟩ := plane_step.1 step
        simp [Event.draws]
  | refused newId p lost plane step =>
    exact ⟨separate.sessions, fun conn mem => issued_of_step step (separate.drawn conn mem)⟩
  | controlled e plane other step =>
    exact ⟨separate.sessions, fun conn mem => issued_of_step step (separate.drawn conn mem)⟩
  | moved j mv c x y here own step =>
    have same : (s.conns.set j (c, y)).map (fun conn => conn.1.session) =
        s.conns.map fun conn => conn.1.session := map_set_same _ here rfl
    refine ⟨same ▸ separate.sessions, fun conn mem => ?_⟩
    have before : conn.1.session ∈ s.plane.issued := by
      obtain ⟨old, mem', same⟩ : ∃ old ∈ s.conns, old.1.session = conn.1.session := by
        have mem := List.mem_map_of_mem (f := fun conn : Route × Edge => conn.1.session) mem
        simpa [same] using mem
      exact same ▸ separate.drawn old mem'
    rcases (Edge.step_inv step).plane own with same | ⟨r, served⟩
    · rw [same]
      exact before
    · exact issued_of_step served before

theorem session_ne {j : ℕ} {c' : Route} {x' : Edge} (separate : Separate s)
    (here : s.conns[i]? = some (c, x)) (there : s.conns[j]? = some (c', x')) (ne : j ≠ i) :
    c'.session ≠ c.session := by
  intro same
  have hi : (s.conns.map fun conn => conn.1.session)[i]? = some c.session := by simp [here]
  have hj : (s.conns.map fun conn => conn.1.session)[j]? = some c.session := by simp [there, same]
  obtain ⟨lt, -⟩ := List.getElem?_eq_some_iff.1 hj
  exact ne ((List.getElem?_inj lt separate.sessions).1 (hj.trans hi.symm))

/-! ## One connection of the fleet -/

/-- The move that the fleet's step makes of this connection. -/
def ownMove (i : ℕ) : FleetMove → Option Move
  | .move j m => if j = i then some m else none
  | _ => none

/-- A connection after a step of the fleet: its own step, another event for it, or nothing. -/
inductive ConnStep (cfg : Settings) (s s' : Fleet) (i : ℕ) (c : Route) (x y : Edge) : FleetMove → Prop
  | own (m : Move) (own : m.isOwn) (step : (edge cfg c).step (s.view x) m = some (s'.view y)) :
      ConnStep cfg s s' i c x y (.move i m)
  | other (m : FleetMove) (e : Event) (none : ownMove i m = none) (foreign : ¬ e.addresses c.session)
      (same : y = x) (step : (plane cfg).step s.plane e = some s'.plane) : ConnStep cfg s s' i c x y m
  | still (m : FleetMove) (none : ownMove i m = none) (same : y = x) (plane : s'.plane = s.plane) :
      ConnStep cfg s s' i c x y m

/-- **The inversion lemma** for one connection. -/
theorem conn_step (separate : Separate s) (here : s.conns[i]? = some (c, x))
    (h : Fleet.Stepped cfg s m s') : ∃ y, s'.conns[i]? = some (c, y) ∧ ConnStep cfg s s' i c x y m := by
  cases h with
  | connected newId p plane reply step admitted =>
    refine ⟨x, ?_, .other _ _ rfl (by simp [Event.addresses]) rfl step⟩
    obtain ⟨lt, -⟩ := List.getElem?_eq_some_iff.1 here
    rw [List.getElem?_append_left lt]
    exact here
  | refused newId p lost plane step =>
    exact ⟨x, here, .other _ _ rfl (by simp [Event.addresses]) rfl step⟩
  | controlled e plane other step =>
    exact ⟨x, here, .other _ _ rfl (foreign_of_gateway other _) rfl step⟩
  | moved j mv c' x' y there own step =>
    by_cases mine : j = i
    · subst mine
      obtain ⟨rfl, rfl⟩ := Prod.mk.inj (Option.some.inj (there.symm.trans here))
      obtain ⟨lt, -⟩ := List.getElem?_eq_some_iff.1 here
      exact ⟨y, by simp [lt], .own mv own step⟩
    · have none : ownMove i (.move j mv) = none := if_neg mine
      refine ⟨x, by rw [List.getElem?_set_ne mine]; exact here, ?_⟩
      rcases (Edge.step_inv step).plane own with same | ⟨r, served⟩
      · exact .still _ none rfl same
      · exact .other _ _ none (foreign_of_session (session_ne separate here there mine) r) rfl served

/-- Where a connection that is new in the list comes from. -/
theorem conn_new (h : Fleet.Stepped cfg s m s') (here : s'.conns[i]? = some (c, x)) :
    (∃ y, s.conns[i]? = some (c, y)) ∨
      s.conns[i]? = none ∧ ownMove i m = none ∧ Edge.Fresh c (s'.view x) := by
  cases h with
  | connected newId p plane reply step admitted =>
    rcases Nat.lt_or_ge i s.conns.length with old | new
    · rw [List.getElem?_append_left old] at here
      exact .inl ⟨x, here⟩
    · refine .inr ⟨List.getElem?_eq_none new, rfl, ?_⟩
      rw [List.getElem?_append_right new] at here
      obtain ⟨lt, found⟩ := List.getElem?_eq_some_iff.1 here
      obtain ⟨rfl, rfl⟩ : (⟨newId, p.userId⟩ : Route) = c ∧ ({ plane := plane } : Edge) = x := by
        simpa using found
      exact Edge.fresh_of_authorize step admitted
  | refused newId p lost plane step => exact .inl ⟨x, here⟩
  | controlled e plane other step => exact .inl ⟨x, here⟩
  | moved j mv c' x' y there own step =>
    by_cases mine : j = i
    · subst mine
      obtain ⟨lt, -⟩ := List.getElem?_eq_some_iff.1 there
      have same : (c', y) = (c, x) := by simpa [lt] using here
      obtain ⟨rfl, -⟩ := Prod.mk.inj same
      exact .inl ⟨x', there⟩
    · rw [List.getElem?_set_ne mine] at here
      exact .inl ⟨x, here⟩

/-- The connection's run so far: from fresh, with the moves that the fleet made of it, and with
the fleet's control plane at the end. -/
def Tracked (cfg : Settings) (i : ℕ) (c : Route) (ms : List FleetMove) (s : Fleet) (x : Edge) : Prop :=
  ∃ s₀ ms', Edge.Fresh c s₀ ∧ (edge cfg c).run s₀ ms' = some (s.view x) ∧
    ms'.filter Move.isOwn = ms.filterMap (ownMove i)

/-- Every connection is tracked, and no move was made of one that is not there. -/
structure Inv (cfg : Settings) (ms : List FleetMove) (s : Fleet) : Prop where
  separate : Separate s
  tracked : ∀ (i : ℕ) (c : Route) (x : Edge), s.conns[i]? = some (c, x) → Tracked cfg i c ms s x
  unmoved : ∀ i : ℕ, s.conns[i]? = none → ms.filterMap (ownMove i) = []

theorem inv_step {ms : List FleetMove} (before : Inv cfg ms s) (step : (fleet cfg).step s m = some s') :
    Inv cfg (ms ++ [m]) s' := by
  have h := Fleet.step_inv step
  refine ⟨separate_step before.separate h, fun i c x here => ?_, fun i missing => ?_⟩
  · rcases conn_new h here with ⟨y, there⟩ | ⟨missing, none, fresh⟩
    · obtain ⟨s₀, ms', fresh, run, own⟩ := before.tracked i c y there
      obtain ⟨z, after, conn⟩ := conn_step before.separate there h
      obtain rfl : x = z := by simpa using (Prod.mk.inj (Option.some.inj (here.symm.trans after))).2
      cases conn with
      | own mv isOwn stepped =>
        refine ⟨s₀, ms' ++ [mv], fresh, Machine.run_snoc.2 ⟨_, run, stepped⟩, ?_⟩
        simp [own, isOwn, ownMove]
      | other _ e none foreign same stepped =>
        subst same
        refine ⟨s₀, ms' ++ [.other e], fresh, Machine.run_snoc.2 ⟨_, run, ?_⟩, ?_⟩
        · have served : Plane.step cfg s.plane e = some s'.plane := stepped
          simp [edge, Edge.step, Edge.outerStep, foreign, served, Fleet.view]
        · simp [own, none, Move.isOwn]
      | still _ none same plane =>
        subst same
        refine ⟨s₀, ms', fresh, ?_, by simp [own, none]⟩
        rw [run, Fleet.view, Fleet.view, plane]
    · exact ⟨s'.view x, [], fresh, rfl, by simp [none, before.unmoved i missing]⟩
  · have absent : s.conns[i]? = none ∧ ownMove i m = none := by
      rcases there : s.conns[i]? with - | ⟨c, x⟩
      · refine ⟨rfl, ?_⟩
        cases h with
        | moved j mv c x y here own step =>
          refine if_neg fun mine => ?_
          rw [mine, there] at here
          cases here
        | _ => rfl
      · obtain ⟨y, after, -⟩ := conn_step before.separate there h
        simp [missing] at after
    simp [before.unmoved i absent.1, absent.2]

/-- **Each connection of the fleet is a run of `edge`**, from the state in which its `authorize`
left it, that ends with its own state and the fleet's control plane. Its own moves are the ones
that the fleet made of it, in that order; what lies between them are events of the control plane
that address other sessions. -/
theorem fleet_connection (cfg : Settings) (start : Instant) (ms : List FleetMove) (s : Fleet)
    (run : (fleet cfg).run (.initial start) ms = some s) (i : ℕ) (c : Route) (x : Edge)
    (here : s.conns[i]? = some (c, x)) :
    ∃ s₀ ms', Edge.Fresh c s₀ ∧ (edge cfg c).run s₀ ms' = some (s.view x) ∧
      ms'.filter Move.isOwn = ms.filterMap (ownMove i) := by
  have init : Inv cfg [] (.initial start) :=
    ⟨⟨by simp [Fleet.initial], by simp [Fleet.initial]⟩, by simp [Fleet.initial], by simp⟩
  have along : (fleet cfg).Along (fun _ _ => True) (.initial start) ms :=
    Machine.along_of_forall (fun _ _ => trivial) _ _
  have inv : Inv cfg ms s := Machine.history_invariant (I := Inv cfg) init
    (fun _ before _ step => inv_step before step) along run
  exact inv.tracked i c x here

/-! ## The accounts of a user -/

/-- The sum of a quantity over the connections of a user. -/
def ofUser (uid : Id) (f : Edge → ℕ) (s : Fleet) : ℕ :=
  (s.conns.map fun conn => if conn.1.user = uid then f conn.2 else 0).sum

/-- What a move of one of the user's connections weighs. -/
def atMove (uid : Id) (w : Route → Edge → Move → ℕ) (s : Fleet) : FleetMove → ℕ
  | .move i m => match s.conns[i]? with
    | some (c, x) => if c.user = uid then w c (s.view x) m else 0
    | none => 0
  | _ => 0

/-- The bytes that a step of one of the user's connections writes, counts twice and drops. -/
def wrote (d : Direction) (uid : Id) : Fleet → FleetMove → ℕ :=
  atMove uid fun _ _ m => Delivery.wrote d m

def doubled (d : Direction) (uid : Id) : Fleet → FleetMove → ℕ :=
  atMove uid fun c x m => Delivery.duplicated c d x m

def dropped (d : Direction) (uid : Id) : Fleet → FleetMove → ℕ :=
  atMove uid fun c x m => Delivery.discarded c d x m

variable {uid : Id} {d : Direction} {p p' : Plane}

theorem ofUser_append (plane' : Plane) {f : Edge → ℕ} {plane : Plane} {conns : List (Route × Edge)} :
    ofUser uid f ⟨plane, conns ++ [(c, x)]⟩ =
      ofUser uid f ⟨plane', conns⟩ + if c.user = uid then f x else 0 := by
  simp [ofUser]

/-- One entry of a list changes, and the sum by as much. -/
theorem sum_map_set {α : Type} (f : α → ℕ) {l : List α} {a : α} (b : α) (here : l[i]? = some a) :
    ((l.set i b).map f).sum + f a = (l.map f).sum + f b := by
  induction l generalizing i with
  | nil => simp at here
  | cons first l ih =>
    cases i with
    | zero =>
      obtain rfl : first = a := by simpa using here
      simp only [List.set_cons_zero, List.map_cons, List.sum_cons]
      omega
    | succ i =>
      have rest := ih (i := i) (by simpa using here)
      simp only [List.set_cons_succ, List.map_cons, List.sum_cons] at rest ⊢
      omega

theorem ofUser_set (uid : Id) (f : Edge → ℕ) (y : Edge) (here : s.conns[i]? = some (c, x)) :
    ofUser uid f ⟨y.plane, s.conns.set i (c, y)⟩ + (if c.user = uid then f x else 0) =
      ofUser uid f s + if c.user = uid then f y else 0 :=
  sum_map_set (fun conn : Route × Edge => if conn.1.user = uid then f conn.2 else 0) (c, y) here

/-- A request of a connection charges its user and nobody else. -/
theorem served_balance (cfg : Settings) (sound : Delivery.Sound c x) (r : Abandoned) (d : Direction) :
    ∃ k, ∀ uid, balance d uid ((c.event r).commit cfg x.plane.now x.plane.db) =
      balance d uid x.plane.db + if c.user = uid then k else 0 := by
  cases r with
  | heartbeat up down =>
    rcases heartbeat_cases
        (Prod.mk.eta (p := heartbeat x.plane.now (c.heartbeat up down) x.plane.db)).symm with
      ⟨-, same, -⟩ | ⟨row, user, verdict, sid, -, charges, -⟩
    · exact ⟨0, fun uid => by simp [Route.event, Event.commit, same]⟩
    · have mine : row.userId = c.user :=
        sound.owner row (by rw [Edge.row, ← show row.id = c.session from sid]; exact charges.found)
      exact ⟨_, fun uid => by rw [← mine]; exact charges.balance⟩
  | close up down reason =>
    rcases close_cases x.plane.now (c.close up down reason) x.plane.db with
      ⟨-, same⟩ | ⟨row, user, sid, charges⟩
    · exact ⟨0, fun uid => by simp [Route.event, Event.commit, same]⟩
    · have mine : row.userId = c.user :=
        sound.owner row (by rw [Edge.row, ← show row.id = c.session from sid]; exact charges.found)
      exact ⟨_, fun uid => by rw [← mine]; exact charges.balance⟩

/-- A connection's step credits it with what it charges to its user. -/
theorem credit_step {mv : Move} {y : Edge} (sound : Delivery.Sound c x) (own : mv.isOwn)
    (h : Edge.Stepped cfg c x mv y) (uid : Id) :
    balance d uid y.plane.db + (if c.user = uid then x.credited d else 0) =
      balance d uid x.plane.db + if c.user = uid then y.credited d else 0 := by
  have served : ∀ r : Abandoned,
      balance d uid (x.serve cfg c (c.event r)).plane.db + (if c.user = uid then x.credited d else 0) =
        balance d uid x.plane.db +
          if c.user = uid then (x.serve cfg c (c.event r)).credited d else 0 := by
    intro r
    obtain ⟨k, charges⟩ := served_balance cfg sound r d
    have here := charges uid
    by_cases mine : c.user = uid
    · subst mine
      simp only [if_true] at here ⊢
      simp only [Edge.serve_credited, Edge.serve_plane_db, here]
      omega
    · simpa [mine] using here
  cases h with
  | other e p foreign step => cases own
  | beatHandled up down here => exact served (.heartbeat up down)
  | closeHandled reason up down here => exact served (.close up down reason)
  | lateHandled i r here => exact served r
  | _ => rfl

/-- The books of all connections. -/
structure Steady (s : Fleet) : Prop where
  separate : Separate s
  sound : ∀ (i : ℕ) (c : Route) (x : Edge), s.conns[i]? = some (c, x) →
    Delivery.Sound c (s.view x) ∧ Delivery.Setup (s.view x)

theorem steady_initial (start : Instant) : Steady (.initial start) :=
  ⟨⟨by simp [Fleet.initial], by simp [Fleet.initial]⟩, by simp [Fleet.initial]⟩

theorem steady_step (steady : Steady s) (h : Fleet.Stepped cfg s m s') : Steady s' := by
  refine ⟨separate_step steady.separate h, fun i c x here => ?_⟩
  rcases conn_new h here with ⟨y, there⟩ | ⟨-, -, fresh⟩
  · obtain ⟨sound, setup⟩ := steady.sound i c y there
    obtain ⟨z, after, conn⟩ := conn_step steady.separate there h
    obtain rfl : x = z := by simpa using (Prod.mk.inj (Option.some.inj (here.symm.trans after))).2
    cases conn with
    | own mv isOwn step =>
      have stepped := Edge.step_inv step
      exact ⟨Delivery.sound_step sound stepped, Delivery.setup_step setup stepped⟩
    | other _ e none foreign same step =>
      subst same
      exact ⟨Delivery.other_sound sound step foreign, setup⟩
    | still _ none same plane =>
      subst same
      have view : s'.view x = s.view x := by rw [Fleet.view, Fleet.view, plane]
      rw [view]
      exact ⟨sound, setup⟩
  · have bounded := Delivery.bounded_of_fresh fresh
    exact ⟨bounded.sound, bounded.setup⟩

/-- The books of all connections, and the user's identifier. -/
structure Books (uid : Id) (s : Fleet) : Prop extends Steady s where
  drawn : Ledger.Drawn uid s.plane

/-- The administrator's reset of this user's usage. -/
def ResetsUsage (uid : Id) (m : FleetMove) : Prop := ∃ e, Ledger.Resets uid e ∧ m = .control e

/-- The control plane takes one step at most. -/
theorem plane_of_step (h : Fleet.Stepped cfg s m s') (reset : ¬ ResetsUsage uid m) :
    s'.plane = s.plane ∨
      ∃ e, (plane cfg).step s.plane e = some s'.plane ∧ ¬ Ledger.Resets uid e := by
  cases h with
  | connected newId p plane reply step admitted => exact .inr ⟨_, step, by simp [Ledger.Resets]⟩
  | refused newId p lost plane step => exact .inr ⟨_, step, by simp [Ledger.Resets]⟩
  | controlled e plane other step => exact .inr ⟨e, step, fun resets => reset ⟨e, resets, rfl⟩⟩
  | moved j mv c x y here own step =>
    rcases (Edge.step_inv step).plane own with same | ⟨r, served⟩
    · exact .inl same
    · exact .inr ⟨_, served, by cases r <;> simp [Ledger.Resets, Route.event]⟩

theorem books_step (books : Books uid s) (reset : ¬ ResetsUsage uid m)
    (h : Fleet.Stepped cfg s m s') : Books uid s' := by
  refine ⟨steady_step books.toSteady h, ?_⟩
  rcases plane_of_step h reset with same | ⟨e, step, other⟩
  · rw [same]
    exact books.drawn
  · exact (Ledger.step_books (d := .up) books.drawn other step).1

/-- A user that is there was there before, or is new. -/
theorem alive_before (books : Books uid s) (reset : ¬ ResetsUsage uid m)
    (h : Fleet.Stepped cfg s m s') (alive : Ledger.NotDeleted uid s'.plane) :
    Ledger.NotDeleted uid s.plane := by
  rcases plane_of_step h reset with same | ⟨e, step, other⟩
  · exact same ▸ alive
  · exact ((Ledger.step_books (d := .up) books.drawn other step).2 alive).1

/-- What the user used, and what its connections hold. -/
def account (d : Direction) (uid : Id) (s : Fleet) : ℕ :=
  balance d uid s.plane.db + ofUser uid (Delivery.held d) s

/-- An event that is no connection's request moves no counter. -/
theorem balance_of_quiet {e : Event} (drawn : Ledger.Drawn uid p) (reset : ¬ Ledger.Resets uid e)
    (quiet : Ledger.charged d uid p e = 0) (step : (plane cfg).step p e = some p')
    (alive : Ledger.NotDeleted uid p') : balance d uid p'.db = balance d uid p.db := by
  have books := ((Ledger.step_books (d := d) drawn reset step).2 alive).2.1
  rwa [quiet, Nat.add_zero] at books

/-- **The account of one step.** -/
theorem account_step (books : Books uid s) (reset : ¬ ResetsUsage uid m)
    (h : Fleet.Stepped cfg s m s') (alive : Ledger.NotDeleted uid s'.plane) :
    account d uid s' + dropped d uid s m = account d uid s + (wrote d uid s m + doubled d uid s m) := by
  cases h with
  | connected newId p plane reply step admitted =>
    have same : balance d uid plane.db = balance d uid s.plane.db :=
      balance_of_quiet books.drawn (by simp [Ledger.Resets]) rfl step alive
    have nothing : Delivery.held d { plane := plane } = 0 := rfl
    simp only [account, same, ofUser_append s.plane, nothing, ite_self, Nat.add_zero]
    rfl
  | refused newId p lost plane step =>
    have same : balance d uid plane.db = balance d uid s.plane.db :=
      balance_of_quiet books.drawn (by simp [Ledger.Resets]) rfl step alive
    simp only [account, same]
    rfl
  | controlled e plane other step =>
    have quiet : Ledger.charged d uid s.plane e = 0 := by
      cases e with
      | tick | start | admin => rfl
      | authorize | heartbeat | close => cases other
    have same : balance d uid plane.db = balance d uid s.plane.db :=
      balance_of_quiet books.drawn (fun resets => reset ⟨e, resets, rfl⟩) quiet step alive
    simp only [account, same]
    rfl
  | moved i mv c x y here own step =>
    obtain ⟨sound, setup⟩ := books.sound i c x here
    have stepped := Edge.step_inv step
    have credit := credit_step (d := d) sound own stepped uid
    have sum := ofUser_set uid (Delivery.held d) y here
    have ledger := Delivery.ledger_step sound setup stepped d
    have before : Delivery.held d (s.view x) = Delivery.held d x := rfl
    simp only [account, wrote, doubled, dropped, atMove, here]
    simp only [Fleet.view_credited, Fleet.view_plane] at credit ledger
    rw [before] at ledger
    by_cases mine : c.user = uid
    · simp only [mine, if_true] at credit sum ⊢
      omega
    · simp only [mine, if_false] at credit sum ⊢
      omega

theorem written_step (h : Fleet.Stepped cfg s m s') :
    ofUser uid (fun x => x.written d) s' = ofUser uid (fun x => x.written d) s + wrote d uid s m := by
  cases h with
  | connected newId p plane reply step admitted =>
    rw [ofUser_append s.plane]
    simp [wrote, atMove]
  | refused newId p lost plane step => rfl
  | controlled e plane other step => rfl
  | moved i mv c x y here own step =>
    have sum := ofUser_set uid (fun x => x.written d) y here
    have written := Delivery.written_step (Edge.step_inv step) d
    simp only [Fleet.view_written] at written
    simp only [wrote, atMove, here]
    by_cases mine : c.user = uid
    · simp only [mine, if_true] at sum ⊢
      omega
    · simp only [mine, if_false] at sum ⊢
      omega

/-- **Conservation of traffic.** Whatever the gateways, their connections and the control plane
do, in any order: as long as nobody resets a user's usage, what the user was charged, with what
its connections still hold and what their steps dropped, is what its connections wrote and what
their steps counted twice. -/
theorem fleet_conservation (cfg : Settings) (start : Instant) (ms : List FleetMove) (s : Fleet)
    (uid : Id) (d : Direction) (run : (fleet cfg).run (.initial start) ms = some s)
    (reset : ∀ m ∈ ms, ¬ ResetsUsage uid m) (present : (s.plane.db.users.find? uid).isSome) :
    balance d uid s.plane.db + ofUser uid (Delivery.held d) s +
        (fleet cfg).total (dropped d uid) (.initial start) ms =
      ofUser uid (fun x => x.written d) s + (fleet cfg).total (doubled d uid) (.initial start) ms := by
  have along : (fleet cfg).Along (fun _ m => ¬ ResetsUsage uid m) (.initial start) ms :=
    Machine.along_of_mem reset _
  have init : Books uid (.initial start) :=
    ⟨steady_initial start, by simp [Ledger.Drawn, Fleet.initial, Plane.initial, Table.find?]⟩
  have empty : account d uid (.initial start) = 0 := rfl
  have keep : ∀ {s m s'}, Books uid s → ¬ ResetsUsage uid m → (fleet cfg).step s m = some s' →
      Books uid s' := fun books reset step => books_step books reset (Fleet.step_inv step)
  have back : ∀ {s m s'}, Books uid s → ¬ ResetsUsage uid m → (fleet cfg).step s m = some s' →
      Ledger.NotDeleted uid s'.plane → Ledger.NotDeleted uid s.plane :=
    fun books reset step alive => alive_before books reset (Fleet.step_inv step) alive
  have entry : ∀ {s m s'}, Books uid s → ¬ ResetsUsage uid m → (fleet cfg).step s m = some s' →
      Ledger.NotDeleted uid s'.plane → account d uid s' + dropped d uid s m =
        account d uid s + (wrote d uid s m + doubled d uid s m) :=
    fun books reset step alive => account_step books reset (Fleet.step_inv step) alive
  have accounts := (Machine.run_balance keep back entry init along run (.inl present)).2
  have post : ∀ {s m s'}, True → ¬ ResetsUsage uid m → (fleet cfg).step s m = some s' → True →
      ofUser uid (fun x => x.written d) s' = ofUser uid (fun x => x.written d) s + wrote d uid s m :=
    fun _ _ step _ => written_step (Fleet.step_inv step)
  have written := (Machine.run_total (fun _ _ _ => trivial) (fun _ _ _ _ => trivial) post
    trivial along run trivial).2
  have none_written : ofUser uid (fun x => x.written d) (.initial start) = 0 := rfl
  rw [Machine.total_add, empty, account] at accounts
  rw [none_written] at written
  omega

/-- Two connections of the test's user: one is recorded and ends, the other still counts. -/
def twoConnections : List FleetMove :=
  [.control (.admin "admin" (.createNode "node" testNode)),
    .control (.admin "admin" (.createUser "user" testKeys testUser)),
    .connect "session" { userId := "user", nodeId := "node", sourceIp := "203.0.113.10" } false,
    .connect "second" { userId := "user", nodeId := "node", sourceIp := "203.0.113.10" } false,
    .move 0 .established, .move 1 .established, .move 0 (.write .up 1000), .move 1 (.write .up 500),
    .move 0 (.add .up), .control (.tick 15000000), .move 0 .tick, .move 0 .swapDown,
    .move 0 .beatHandled, .move 0 .beatReplied]

/-- The first of them, as a run of `edge`. -/
theorem fleet_connection_first :
    ∃ s x s₀ ms', (fleet {}).run (.initial 0) twoConnections = some s ∧ s.conns[0]? = some (firstRoute, x) ∧
      Edge.Fresh firstRoute s₀ ∧ (edge {} firstRoute).run s₀ ms' = some (s.view x) ∧
      ms'.filter Move.isOwn = [.established, .write .up 1000, .add .up, .tick, .swapDown, .beatHandled,
        .beatReplied] := by
  obtain ⟨s, run, facts⟩ := (Option.any_eq_true _ _).1
    (by decide +kernel : ((fleet {}).run (.initial 0) twoConnections).any fun s =>
      s.conns[0]?.any fun conn => conn.1.session = "session" && conn.1.user = "user")
  obtain ⟨⟨⟨session, user⟩, x⟩, here, fields⟩ := (Option.any_eq_true _ _).1 facts
  obtain ⟨rfl, rfl⟩ : session = "session" ∧ user = "user" := by simpa using fields
  obtain ⟨s₀, ms', fresh, run', own⟩ := fleet_connection {} 0 twoConnections s run 0 _ x here
  exact ⟨s, x, s₀, ms', run, here, fresh, run', own⟩

/-- Their account: 1500 bytes were written, 1000 of them are charged. -/
theorem fleet_conservation_two :
    ∃ s, (fleet {}).run (.initial 0) twoConnections = some s ∧
      1000 + ofUser "user" (Delivery.held .up) s +
        (fleet {}).total (dropped .up "user") (.initial 0) twoConnections =
      1500 + (fleet {}).total (doubled .up "user") (.initial 0) twoConnections := by
  obtain ⟨s, run, facts⟩ := (Option.any_eq_true _ _).1
    (by decide +kernel : ((fleet {}).run (.initial 0) twoConnections).any fun s =>
      (s.plane.db.users.find? "user").isSome && balance .up "user" s.plane.db = 1000 &&
        ofUser "user" (fun x => x.written .up) s = 1500)
  simp only [Bool.and_eq_true, decide_eq_true_eq] at facts
  have conserved := fleet_conservation {} 0 twoConnections s "user" .up run
    (by simp [twoConnections, ResetsUsage, Ledger.Resets]) facts.1.1
  rw [facts.1.2, facts.2] at conserved
  exact ⟨s, run, conserved⟩

end Arena.Fleet
