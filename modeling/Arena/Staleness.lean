import Mathlib.Tactic.Linarith
import Arena.Delivery

/-!
# Two clocks on one connection

The gateway gives a connection up after three failed heartbeats in a row, the control plane
ends its session when it has not heard of it for `session_stale_seconds`. The gateway is the
later of the two by the time a failing `post` takes and by the time between `authorize` and the
start of the ticker: the session of a connection that still relays is always open exactly when
the limit leaves room for both.
-/

namespace Arena.Staleness

open Arena.Lib Arena.Model Arena.Delivery

variable {cfg : Settings} {c : Route} {setup delay : ℕ} {start : Instant} {s s' : Edge} {m : Move}

/-- The instant by which the connection has made its next step: it is set up within `setup` of
`authorize`, the ticker is served when it fires, and an attempt takes at most `delay`. -/
def deadline (setup delay : ℕ) (start : Instant) (s : Edge) : Option Instant :=
  match s.main, s.beat with
  | .connecting, _ => some (start + setup)
  | .waiting, .idle => some s.due
  | .waiting, .off => none
  | .waiting, .stopped => none
  | .waiting, _ => some (s.due - heartbeatInterval + delay)
  | _, _ => none

/-- The clock does not run past the deadline, and the connection's user is not deleted. -/
def Prompt (c : Route) (setup delay : ℕ) (start : Instant) (s : Edge) : Move → Prop
  | .other e => (∀ b ∈ deadline setup delay start s, s.plane.now + e.elapsed ≤ b) ∧
      ∀ name, e ≠ .admin name (.deleteUser c.user)
  | _ => True

/-- The connection relays: its context is not cancelled. -/
structure Relaying (s : Edge) : Prop where
  main : s.main = .waiting
  context : s.cancelled = false

/-- The connection relays or is being set up. -/
def Alive (s : Edge) : Prop := (s.main = .connecting ∨ s.main = .waiting) ∧ s.cancelled = false

/-- How long ago the control plane heard of the connection, by where its heartbeat goroutine
is. -/
structure Timely (setup delay : ℕ) (start : Instant) (s : Edge) (seen : Instant) : Prop where
  past : seen ≤ s.plane.now
  failures : s.failures ≤ 2
  connecting : s.main = .connecting → start ≤ seen ∧ s.failures = 0 ∧ s.plane.now ≤ start + setup
  idle : s.main = .waiting → s.beat = .idle →
    s.plane.now ≤ s.due ∧ s.due ≤ seen + setup + 15000000 * (s.failures + 1)
  busy : s.main = .waiting → s.beat ≠ .idle →
    s.plane.now + 15000000 ≤ s.due + delay ∧ s.due ≤ s.plane.now + 15000000 ∧
      s.due ≤ seen + setup + 15000000 * (s.failures + 2)
  answered : ∀ up down reply, s.beat = .posting up down (some (.ok reply)) →
    s.due ≤ seen + 15000000

/-- The invariant of a connection whose steps are prompt. -/
structure Kept (c : Route) (setup delay : ℕ) (start : Instant) (s : Edge) : Prop where
  sound : Sound c s
  off : Setup s
  running : s.main = .waiting → s.beat ≠ .off ∧ (s.beat = .stopped → s.cancelled = true)
  /-- No close request is on its way before the handler returns. -/
  noClose : s.main = .connecting ∨ s.main = .waiting →
    ∀ r ∈ s.abandoned, ∃ up down, r = .heartbeat up down
  alive : Alive s → ∃ r, s.row c = some r ∧ r.isOpen ∧ Timely setup delay start s r.lastSeenAt

/-- The control plane heard of a connection that is alive within 45 s, the set-up and one
attempt. -/
theorem Timely.recent {seen : Instant} (h : Timely setup delay start s seen)
    (live : s.main = .connecting ∨ s.main = .waiting) :
    s.plane.now ≤ seen + (45000000 + setup + delay) := by
  have few : (s.failures : ℤ) ≤ 2 := by exact_mod_cast h.failures
  rcases live with main | main
  · obtain ⟨after, -, now⟩ := h.connecting main
    have : (0 : ℤ) ≤ delay := Int.natCast_nonneg _
    linarith
  · have nonneg : (0 : ℤ) ≤ delay := Int.natCast_nonneg _
    by_cases beat : s.beat = .idle
    · obtain ⟨now, due⟩ := h.idle main beat
      linarith
    · obtain ⟨now, -, due⟩ := h.busy main beat
      linarith

/-! ## One step -/

theorem running_step
    (running : s.main = .waiting → s.beat ≠ .off ∧ (s.beat = .stopped → s.cancelled = true))
    (h : Edge.Stepped cfg c s m s') :
    s'.main = .waiting → s'.beat ≠ .off ∧ (s'.beat = .stopped → s'.cancelled = true) := by
  intro waiting
  cases h with
  | other e p foreign step => exact running waiting
  | lateHandled i r here => exact running waiting
  | established here => simp
  | unavailable reason here => cases waiting
  | cancel reason d here stopped => cases waiting
  | closeUp reason here => cases waiting
  | closeDown reason up here => cases waiting
  | closeHandled reason up down here => cases waiting
  | closeDone late reason up down handled here => cases waiting
  | write d n here => exact running waiting
  | add d n here => exact running waiting
  | relayStop d here => exact running waiting
  | addDown down here =>
    simp only [Edge.fail_beat, Edge.fail_cancelled]
    split <;> simp_all
  | beatDone here done => exact ⟨by simp, fun _ => done⟩
  | _ => simp

theorem noClose_step
    (noClose : s.main = .connecting ∨ s.main = .waiting →
      ∀ r ∈ s.abandoned, ∃ up down, r = .heartbeat up down)
    (h : Edge.Stepped cfg c s m s') : s'.main = .connecting ∨ s'.main = .waiting →
      ∀ r ∈ s'.abandoned, ∃ up down, r = .heartbeat up down := by
  intro early
  cases h with
  | established here => exact noClose (.inl here)
  | unavailable | cancel | closeUp | closeDown | closeHandled | closeDone => simp at early
  | lateHandled i r here => exact fun x mem => noClose early x (List.mem_of_mem_eraseIdx mem)
  | beatFailed late up down reply here =>
    intro r mem
    rcases Edge.mem_abandon mem with mem | ⟨-, rfl⟩
    · exact noClose early r mem
    · exact ⟨up, down, rfl⟩
  | _ => exact noClose early

/-- A step only takes liveness away. -/
theorem alive_before (alive : Alive s') (h : Edge.Stepped cfg c s m s') : Alive s := by
  obtain ⟨early, context⟩ := alive
  cases h with
  | established here => exact ⟨.inl here, context⟩
  | unavailable | cancel | closeUp | closeDown | closeHandled | closeDone => simp at early
  | terminated up down reply here ends => simp at context
  | addDown down here =>
    simp only [Edge.fail_cancelled, Bool.or_eq_false_iff] at context
    exact ⟨early, context.1⟩
  | _ => exact ⟨early, context⟩

/-- A heartbeat that is handled while the session is open is recorded now. -/
theorem beat_recorded {r : ConnectionSession} (found : s.row c = some r) (isOpen : r.isOpen)
    (up down : ℕ) :
    ∃ r' reply, (s.serve cfg c (.heartbeat (c.heartbeat up down))).row c = some r' ∧ r'.isOpen ∧
      r'.lastSeenAt = s.plane.now ∧
      (heartbeat s.plane.now (c.heartbeat up down) s.plane.db).2 = .ok reply := by
  rcases Edge.serve_heartbeat cfg c s up down with
    ⟨missing, -⟩ | ⟨x, verdict, reply, here, -, row, -, ok⟩
  · have recording : (s.plane.db.openSession c.session).isSome :=
      Edge.openSession_isSome_iff.2 ⟨r, found, isOpen⟩
    simp [missing] at recording
  · obtain rfl : x = r := Option.some.inj (here.symm.trans found)
    exact ⟨_, reply, row, by simpa using isOpen, by simp, ok⟩

/-- **The control plane keeps the session** of a connection that is alive, when the limit
leaves room for the set-up and for one attempt. -/
theorem other_keeps {e : Event} {p : Plane} (kept : Kept c setup delay start s)
    (room : 45000000 + (setup : ℤ) + delay ≤ seconds cfg.sessionStaleSeconds)
    (prompt : Prompt c setup delay start s (.other e)) (foreign : ¬ e.addresses c.session)
    (step : (plane cfg).step s.plane e = some p) (alive : Alive s) :
    ∃ r, Edge.row c { s with plane := p } = some r ∧ r.isOpen ∧
      Timely setup delay start { s with plane := p } r.lastSeenAt := by
  obtain ⟨r, found, isOpen, timely⟩ := kept.alive alive
  have row := row_step step kept.sound.drawn foreign
  obtain ⟨-, rfl⟩ := plane_step.1 step
  obtain ⟨early, context⟩ := alive
  obtain ⟨clock, noDelete⟩ := prompt
  have forward : (0 : ℤ) ≤ e.elapsed := Int.natCast_nonneg _
  have after : Timely setup delay start { s with plane := ⟨e.commit cfg s.plane.now s.plane.db,
      s.plane.now + e.elapsed, e.draws ++ s.plane.issued⟩ } r.lastSeenAt := by
    refine ⟨?_, timely.failures, fun main => ?_, fun main beat => ?_, fun main beat => ?_,
      timely.answered⟩
    · have := timely.past
      show r.lastSeenAt ≤ s.plane.now + e.elapsed
      linarith
    · have main : s.main = .connecting := main
      obtain ⟨seen, none_failed, -⟩ := timely.connecting main
      exact ⟨seen, none_failed, clock _ (by simp [deadline, main])⟩
    · have main : s.main = .waiting := main
      have beat : s.beat = .idle := beat
      exact ⟨clock _ (by simp [deadline, main, beat]), (timely.idle main beat).2⟩
    · have main : s.main = .waiting := main
      have beat : s.beat ≠ .idle := beat
      obtain ⟨-, due, late⟩ := timely.busy main beat
      have limit : s.plane.now + e.elapsed ≤ s.due - heartbeatInterval + delay := by
        refine clock _ ?_
        have started := kept.running main
        cases here : s.beat with
        | off => exact absurd here started.1
        | idle => exact absurd here beat
        | stopped => simp [started.2 here] at context
        | _ => simp [deadline, main, here]
      have interval : heartbeatInterval = 15000000 := rfl
      rw [interval] at limit
      refine ⟨?_, ?_, late⟩
      · show s.plane.now + e.elapsed + 15000000 ≤ s.due + delay
        linarith
      · show s.due ≤ s.plane.now + e.elapsed + 15000000
        linarith
  cases row with
  | kept _ same => exact ⟨r, same.trans found, isOpen, after⟩
  | swept newId p row was stale ended =>
    obtain rfl : row = r := Option.some.inj (was.symm.trans found)
    have recent := timely.recent early
    simp only [ConnectionSession.isStale, Bool.and_eq_true, decide_eq_true_eq] at stale
    linarith [stale.2]
  | deleted name row was gone =>
    exact absurd (by rw [kept.sound.owner row was]) (noDelete name)

/-- The bounds outlive a step that moves neither the clock nor the failures, and that changes
the heartbeat goroutine's place within an attempt. -/
theorem Timely.within {seen seen' : Instant} (h : Timely setup delay start s seen)
    (busy : s.beat ≠ .idle) (main : s.main = .waiting) (later : seen ≤ seen')
    (past : seen' ≤ s.plane.now) {t : Edge} (clock : t.plane.now = s.plane.now)
    (due : t.due = s.due) (failures : t.failures = s.failures) (still : t.main = .waiting)
    (busy' : t.beat ≠ .idle)
    (answered : ∀ up down reply, t.beat = .posting up down (some (.ok reply)) →
      s.due ≤ seen' + 15000000) : Timely setup delay start t seen' := by
  obtain ⟨now, early, late⟩ := h.busy main busy
  refine ⟨by rw [clock]; exact past, by rw [failures]; exact h.failures, fun connecting => ?_,
    fun _ idle => absurd idle busy', fun _ _ => ?_, fun up down reply here => ?_⟩
  · simp [still] at connecting
  · rw [clock, due, failures]
    exact ⟨now, early, by linarith⟩
  · rw [due]
    exact answered up down reply here

/-- The same, of a step that records no reply: the row is as it was. -/
theorem Timely.during {seen : Instant} (h : Timely setup delay start s seen)
    (busy : s.beat ≠ .idle) (main : s.main = .waiting) {t : Edge}
    (clock : t.plane.now = s.plane.now) (due : t.due = s.due) (failures : t.failures = s.failures)
    (still : t.main = .waiting) (busy' : t.beat ≠ .idle)
    (unanswered : ∀ up down reply, t.beat ≠ .posting up down (some (.ok reply))) :
    Timely setup delay start t seen :=
  h.within busy main le_rfl h.past clock due failures still busy' fun up down reply here =>
    absurd here (unanswered up down reply)

/-- The bounds outlive a step of another goroutine, and a later row. -/
theorem Timely.later {seen seen' : Instant} (h : Timely setup delay start s seen)
    (later : seen ≤ seen') (past : seen' ≤ s.plane.now) {t : Edge}
    (clock : t.plane.now = s.plane.now) (due : t.due = s.due) (failures : t.failures = s.failures)
    (main : t.main = s.main) (beat : t.beat = s.beat) : Timely setup delay start t seen' := by
  refine ⟨by rw [clock]; exact past, by rw [failures]; exact h.failures, ?_, ?_, ?_, ?_⟩
  · rw [main, failures, clock]
    intro connecting
    obtain ⟨after, rest⟩ := h.connecting connecting
    exact ⟨le_trans after later, rest⟩
  · rw [main, beat, clock, due, failures]
    intro waiting idle
    obtain ⟨now, late⟩ := h.idle waiting idle
    exact ⟨now, by linarith⟩
  · rw [main, beat, clock, due, failures]
    intro waiting busy
    obtain ⟨now, early, late⟩ := h.busy waiting busy
    exact ⟨now, early, by linarith⟩
  · rw [beat, due]
    intro up down reply here
    have := h.answered up down reply here
    linarith

/-- **The step lemma**: a prompt step keeps the session of a living connection open. -/
theorem alive_step (kept : Kept c setup delay start s)
    (room : 45000000 + (setup : ℤ) + delay ≤ seconds cfg.sessionStaleSeconds)
    (short : (delay : ℤ) ≤ seconds 8) (prompt : Prompt c setup delay start s m)
    (h : Edge.Stepped cfg c s m s') (alive' : Alive s') :
    ∃ r, s'.row c = some r ∧ r.isOpen ∧ Timely setup delay start s' r.lastSeenAt := by
  have alive := alive_before alive' h
  obtain ⟨r, found, isOpen, timely⟩ := kept.alive alive
  have eight : seconds 8 = 8000000 := rfl
  rw [eight] at short
  have nonneg : (0 : ℤ) ≤ setup := Int.natCast_nonneg _
  have waiting : s.beat ≠ .off → s.main = .waiting := by
    intro on
    rcases alive.1 with main | main
    · exact absurd (kept.off main).2 on
    · exact main
  cases h with
  | other e p foreign step => exact other_keeps kept room prompt foreign step alive
  | established here =>
    obtain ⟨seen, none_failed, now⟩ := timely.connecting here
    refine ⟨r, found, isOpen, timely.past, timely.failures, by simp, fun _ _ => ?_, by simp, by simp⟩
    simp only [none_failed, heartbeatInterval, seconds]
    constructor
    · norm_num
    · push_cast
      linarith
  | tick here due =>
    have main := waiting (by simp [here])
    obtain ⟨now, late⟩ := timely.idle main here
    refine ⟨r, found, isOpen, timely.past, timely.failures, by simp [main], by simp, fun _ _ => ?_,
      by simp⟩
    have interval : heartbeatInterval = 15000000 := rfl
    simp only [interval, Edge.swap_plane, Edge.swap_failures]
    have : (0 : ℤ) ≤ delay := Int.natCast_nonneg _
    refine ⟨by linarith, by linarith, by linarith⟩
  | swapDown up here =>
    have main := waiting (by simp [here])
    exact ⟨r, found, isOpen, timely.during (by simp [here]) main rfl rfl rfl main (by simp) (by simp)⟩
  | beatHandled up down here =>
    obtain ⟨r', reply, row, isOpen', seen, ok⟩ := @beat_recorded cfg c s r found isOpen up down
    have main := waiting (by simp [here])
    obtain ⟨-, due, -⟩ := timely.busy main (by simp [here])
    refine ⟨r', row, isOpen', timely.within (by simp [here]) main (by rw [seen]; exact timely.past)
      (by rw [seen]) rfl rfl rfl main (by simp) fun _ _ _ _ => ?_⟩
    rw [seen]
    exact due
  | continued up down reply here goes =>
    have main := waiting (by simp [here])
    have recent := timely.answered up down reply here
    obtain ⟨now, -, -⟩ := timely.busy main (by simp [here])
    refine ⟨r, found, isOpen, timely.past, by simp, by simp [main], fun _ _ => ?_, by simp, by simp⟩
    simp only [Nat.cast_zero]
    exact ⟨by linarith, by linarith⟩
  | refused up down err here =>
    have main := waiting (by simp [here])
    exact ⟨r, found, isOpen, timely.during (by simp [here]) main rfl rfl rfl main (by simp) (by simp)⟩
  | beatFailed late up down reply here =>
    have main := waiting (by simp [here])
    exact ⟨r, found, isOpen, timely.during (by simp [here]) main rfl rfl rfl main (by simp) (by simp)⟩
  | addUp up down here =>
    have main := waiting (by simp [here])
    exact ⟨r, found, isOpen, timely.during (by simp [here]) main rfl rfl rfl main (by simp) (by simp)⟩
  | addDown down here =>
    have main := waiting (by simp [here])
    obtain ⟨now, -, late⟩ := timely.busy main (by simp [here])
    -- the third failure would have cancelled the connection
    have few : ¬ 3 ≤ s.failures + 1 := by
      have context := alive'.2
      simp only [Edge.fail_cancelled, Bool.or_eq_false_iff, decide_eq_false_iff_not] at context
      exact context.2
    refine ⟨r, found, isOpen, timely.past, ?_, by simp [main], fun _ _ => ?_, ?_, ?_⟩
    · simp only [Edge.fail_failures, Edge.addBack_failures]
      omega
    · simp only [Edge.fail_plane, Edge.addBack_plane, Edge.fail_due, Edge.addBack_due,
        Edge.fail_failures, Edge.addBack_failures, Nat.cast_add, Nat.cast_one]
      exact ⟨by linarith, by linarith⟩
    · simp [few]
    · simp [few]
  | lateHandled i x here =>
    obtain ⟨up, down, rfl⟩ := kept.noClose alive.1 x (List.mem_of_getElem? here)
    obtain ⟨r', reply, row, isOpen', seen, -⟩ := @beat_recorded cfg c s r found isOpen up down
    exact ⟨r', row, isOpen', timely.later (by rw [seen]; exact timely.past) (by rw [seen])
      rfl rfl rfl rfl rfl⟩
  | terminated up down reply here ends => exact absurd alive'.2 (by simp)
  | beatDone here done => exact absurd alive.2 (by simp [done])
  | cancel reason d here stopped => exact absurd alive'.2 (by simp)
  | unavailable reason here => exact absurd alive'.1 (by simp)
  | closeUp reason here => exact absurd alive'.1 (by simp)
  | closeDown reason up here => exact absurd alive'.1 (by simp)
  | closeHandled reason up down here => exact absurd alive'.1 (by simp)
  | closeDone late reason up down handled here => exact absurd alive'.1 (by simp)
  | write d n here => exact ⟨r, found, isOpen, timely.later le_rfl timely.past rfl rfl rfl rfl rfl⟩
  | add d n here => exact ⟨r, found, isOpen, timely.later le_rfl timely.past rfl rfl rfl rfl rfl⟩
  | relayStop d here => exact ⟨r, found, isOpen, timely.later le_rfl timely.past rfl rfl rfl rfl rfl⟩

theorem kept_step (kept : Kept c setup delay start s)
    (room : 45000000 + (setup : ℤ) + delay ≤ seconds cfg.sessionStaleSeconds)
    (short : (delay : ℤ) ≤ seconds 8) (prompt : Prompt c setup delay start s m)
    (step : (edge cfg c).step s m = some s') : Kept c setup delay start s' := by
  have h := Edge.step_inv step
  exact ⟨sound_step kept.sound h, setup_step kept.off h, running_step kept.running h,
    noClose_step kept.noClose h, alive_step kept room short prompt h⟩

theorem kept_of_fresh (fresh : Edge.Fresh c s) : Kept c setup delay s.plane.now s := by
  have bounded := bounded_of_fresh fresh
  obtain ⟨⟨plane, rfl⟩, -, r, found, -, isOpen, seen, -⟩ := fresh
  have seen : r.lastSeenAt = plane.now := seen
  refine ⟨bounded.sound, bounded.setup, by simp, by simp, fun _ => ⟨r, found, isOpen, ?_⟩⟩
  have nonneg : (0 : ℤ) ≤ setup := Int.natCast_nonneg _
  refine ⟨seen.le, by simp, fun _ => ⟨seen.ge, rfl, ?_⟩, by simp, by simp, by simp⟩
  show plane.now ≤ plane.now + setup
  linarith

/-- **A connection that relays is counted**, when the limit leaves room for the set-up and for
one attempt beyond three heartbeat intervals. -/
theorem relaying_open (room : 45000000 + (setup : ℤ) + delay ≤ seconds cfg.sessionStaleSeconds)
    (short : (delay : ℤ) ≤ seconds 8) {ms : List Move} (fresh : Edge.Fresh c s)
    (run : (edge cfg c).run s ms = some s')
    (prompt : (edge cfg c).Along (Prompt c setup delay s.plane.now) s ms) (live : Relaying s') :
    ∃ r, s'.row c = some r ∧ r.isOpen := by
  have kept : Kept c setup delay s.plane.now s' := Machine.along_invariant
    (I := Kept c setup delay s.plane.now)
    (fun before prompt step => kept_step before room short prompt step) (kept_of_fresh fresh) prompt run
  obtain ⟨r, found, isOpen, -⟩ := kept.alive ⟨.inr live.main, live.context⟩
  exact ⟨r, found, isOpen⟩

/-! ## No room -/

/-- The first connection `t` after its `authorize`, waiting for its ticker with `n` failures. -/
def waitingAt (t : ℤ) (n : ℕ) : Edge :=
  { plane := { firstEdge.plane with now := t }
    main := .waiting
    relay := fun _ => .running
    beat := .idle
    due := t + heartbeatInterval
    failures := n }

/-- The heartbeat of `waitingAt t n` on its way for `delay`. -/
def postingAt (t : ℤ) (n delay : ℕ) : Edge :=
  { waitingAt t n with
    plane := { firstEdge.plane with now := t + 15000000 + delay }
    beat := .posting 0 0 none
    due := t + heartbeatInterval + heartbeatInterval }

/-- An attempt that fails at once. -/
def failedAttempt : List Move :=
  [.other (.tick 15000000), .tick, .swapDown, .beatFailed false, .addUp, .addDown]

/-- An attempt that is still on its way after `delay`. -/
def slowAttempt (delay : ℕ) : List Move :=
  [.other (.tick 15000000), .tick, .swapDown, .other (.tick delay)]

theorem run_established : (edge cfg firstRoute).run firstEdge [.other (.tick setup), .established] =
    some (waitingAt (firstEdge.plane.now + setup) 0) := by
  simp [Machine.run, edge, Edge.step, Edge.outerStep, Edge.mainStep, Plane.step, Event.addresses,
    Event.draws, Event.commit, Event.elapsed, waitingAt, firstEdge]

theorem prompt_established : (edge cfg firstRoute).Along
    (Prompt firstRoute setup delay firstEdge.plane.now) firstEdge [.other (.tick setup), .established] := by
  simp [Machine.Along, edge, Edge.step, Edge.outerStep, Plane.step, Event.addresses, Event.draws,
    Event.elapsed, Prompt, deadline, firstEdge]

theorem run_failedAttempt {t : ℤ} {n : ℕ} (few : n < 2) :
    (edge cfg firstRoute).run (waitingAt t n) failedAttempt =
      some (waitingAt (t + 15000000) (n + 1)) := by
  have few : ¬ 2 ≤ n := by omega
  simp [failedAttempt, Machine.run, edge, Edge.step, Edge.outerStep, Edge.beatStep, Plane.step,
    Event.addresses, Event.draws, Event.commit, Event.elapsed, waitingAt, heartbeatInterval, seconds,
    Edge.swap, Edge.addBack, Edge.abandon, Edge.fail, few]

theorem prompt_failedAttempt {t : ℤ} {n : ℕ} : (edge cfg firstRoute).Along
    (Prompt firstRoute setup delay start) (waitingAt t n) failedAttempt := by
  simp [failedAttempt, Machine.Along, Prompt, deadline, waitingAt, heartbeatInterval, seconds,
    Event.elapsed]

theorem run_slowAttempt {t : ℤ} {n : ℕ} : (edge cfg firstRoute).run (waitingAt t n) (slowAttempt delay) =
    some (postingAt t n delay) := by
  simp [slowAttempt, Machine.run, edge, Edge.step, Edge.outerStep, Edge.beatStep, Plane.step,
    Event.addresses, Event.draws, Event.commit, Event.elapsed, waitingAt, postingAt, heartbeatInterval,
    seconds, Edge.swap]

theorem prompt_slowAttempt {t : ℤ} {n : ℕ} : (edge cfg firstRoute).Along
    (Prompt firstRoute setup delay start) (waitingAt t n) (slowAttempt delay) := by
  simp [slowAttempt, Machine.Along, edge, Edge.step, Edge.outerStep, Edge.beatStep, Plane.step,
    Event.addresses, Event.draws, Event.commit, Event.elapsed, waitingAt, heartbeatInterval, seconds,
    Edge.swap, Prompt, deadline]

/-- A request of somebody else, whose `authorize` sweeps. -/
def stranger : GatewayAuthorize := { userId := "nobody", nodeId := "node", sourceIp := "198.51.100.1" }

/-- The sweep of another request ends the session of the first connection once it is stale. -/
theorem swept_row {now : Instant} {r : ConnectionSession} (found : firstEdge.row firstRoute = some r)
    (stale : r.isStale cfg now) :
    (authorize cfg now "other" stranger firstEdge.plane.db).1.sessions.find? firstRoute.session =
      some (r.finish now) := by
  have nobody : (firstEdge.plane.db.users.find? "nobody").isNone := by decide +kernel
  have missing : firstEdge.plane.db.users.find? stranger.userId = none := Option.isNone_iff_eq_none.1 nobody
  have verdict : decideRoute now stranger (finishStaleSessions cfg now firstEdge.plane.db) =
      .routeNotFound := by
    simp [decideRoute, missing]
  have found : firstEdge.plane.db.sessions.find? firstRoute.session = some r := found
  simp [authorize, verdict, finishStaleSessions_find?, found, stale]

/-- The moves of a connection whose heartbeats fail, the last of them slowly, and a stranger. -/
def slowDeath (setup delay : ℕ) : List Move :=
  ([.other (.tick setup), .established] ++ failedAttempt ++ failedAttempt ++ slowAttempt delay) ++
    [.other (.authorize "other" stranger)]

/-- **Without that room** a prompt connection still relays when its session is swept. -/
theorem no_room (short : seconds cfg.sessionStaleSeconds < 45000000 + (setup : ℤ) + delay) :
    ∃ s' r, (edge cfg firstRoute).run firstEdge (slowDeath setup delay) = some s' ∧
      (edge cfg firstRoute).Along (Prompt firstRoute setup delay firstEdge.plane.now) firstEdge
        (slowDeath setup delay) ∧
      Relaying s' ∧ s'.row firstRoute = some r ∧ r.isOpen = false := by
  obtain ⟨-, -, r, found, -, isOpen, seen, -⟩ := firstEdge_fresh
  set base := firstEdge.plane.now with hbase
  have run₀ : (edge cfg firstRoute).run firstEdge [.other (.tick setup), .established] =
      some (waitingAt (base + setup) 0) := run_established
  have run₁ := (Machine.run_append run₀).trans (@run_failedAttempt cfg (base + setup) 0 (by omega))
  have run₂ := (Machine.run_append run₁).trans
    (@run_failedAttempt cfg (base + setup + 15000000) 1 (by omega))
  have run₃ := (Machine.run_append run₂).trans
    (@run_slowAttempt cfg delay (base + setup + 15000000 + 15000000) 2)
  have prompt₁ := prompt_established.append run₀ (@prompt_failedAttempt cfg setup delay base _ _)
  have prompt₂ := prompt₁.append run₁ (@prompt_failedAttempt cfg setup delay base _ _)
  have prompt₃ := prompt₂.append run₂ (@prompt_slowAttempt cfg setup delay base _ _)
  set now : Instant := base + setup + 15000000 + 15000000 + 15000000 + delay with hnow
  have stale : r.isStale cfg now := by
    simp only [ConnectionSession.isStale, isOpen, Bool.true_and, decide_eq_true_eq]
    rw [seen]
    linarith
  have fresh : "other" ∉ firstEdge.plane.issued := by decide +kernel
  have sweep : (edge cfg firstRoute).step (postingAt (base + setup + 15000000 + 15000000) 2 delay)
      (.other (.authorize "other" stranger)) =
        some { postingAt (base + setup + 15000000 + 15000000) 2 delay with
          plane := ⟨(authorize cfg now "other" stranger firstEdge.plane.db).1, now + 0,
            "other" :: firstEdge.plane.issued⟩ } := by
    simp [edge, Edge.step, Edge.outerStep, Event.addresses, Plane.step, Event.draws, Event.commit,
      Event.elapsed, postingAt, waitingAt, fresh, hnow]
  refine ⟨_, r.finish now, Machine.run_snoc.2 ⟨_, run₃, sweep⟩, ?_, ⟨rfl, rfl⟩, swept_row found stale, rfl⟩
  refine prompt₃.append run₃ (Machine.Along.cons ⟨fun b due => ?_, by simp⟩ sweep trivial)
  have due : b = now := by
    simp only [deadline, postingAt, waitingAt, Option.mem_def, Option.some.injEq] at due
    rw [← due, hnow]
    simp only [heartbeatInterval, seconds]
    push_cast
    ring
  rw [due]
  simp [Event.elapsed, postingAt, hnow]

/-- **The two time-outs agree exactly when the limit leaves room**: that every prompt
connection that still relays has an open session, so that its address is counted, means
`session_stale_seconds` is at least three heartbeat intervals, the set-up and one failing
`post` together. -/
theorem relaying_counted_iff (cfg : Settings) (setup delay : ℕ) (short : (delay : ℤ) ≤ seconds 8) :
    (∀ (c : Route) (s s' : Edge) (ms : List Move), s.Fresh c → (edge cfg c).run s ms = some s' →
      (edge cfg c).Along (Prompt c setup delay s.plane.now) s ms → Relaying s' →
      ∃ r, s'.row c = some r ∧ r.isOpen) ↔
    3 * heartbeatInterval + setup + delay ≤ seconds cfg.sessionStaleSeconds := by
  have three : 3 * heartbeatInterval = 45000000 := rfl
  rw [three]
  constructor
  · intro counted
    by_contra short
    obtain ⟨s', r, run, prompt, live, found, ended⟩ := no_room (not_le.1 short)
    obtain ⟨r', found', isOpen⟩ := counted firstRoute firstEdge s' _ firstEdge_fresh run prompt live
    obtain rfl : r = r' := Option.some.inj (found.symm.trans found')
    rw [ended] at isOpen
    cases isOpen
  · intro room c s s' ms fresh run prompt live
    exact relaying_open room short fresh run prompt live

/-- With a limit of 60 s there is room for a set-up of 5 s and for a `post` of 8 s: the
session is open when the first heartbeat has failed. -/
theorem relaying_counted_sixty : ∃ s' r,
    (edge { sessionStaleSeconds := 60 } firstRoute).run firstEdge
      ([.other (.tick 5000000), .established] ++ failedAttempt) = some s' ∧
    Relaying s' ∧ s'.row firstRoute = some r ∧ r.isOpen := by
  have run : (edge { sessionStaleSeconds := 60 } firstRoute).run firstEdge
      ([.other (.tick 5000000), .established] ++ failedAttempt) =
      some (waitingAt (firstEdge.plane.now + 5000000 + 15000000) 1) :=
    (Machine.run_append run_established).trans (run_failedAttempt (by decide))
  have prompt := (@prompt_established { sessionStaleSeconds := 60 } 5000000 8000000).append
    run_established prompt_failedAttempt
  have relaying : Relaying (waitingAt (firstEdge.plane.now + 5000000 + 15000000) 1) := ⟨rfl, rfl⟩
  obtain ⟨r, found, isOpen⟩ :=
    (relaying_counted_iff { sessionStaleSeconds := 60 } 5000000 8000000 (by decide)).2 (by decide)
      firstRoute firstEdge _ _ firstEdge_fresh run prompt relaying
  exact ⟨_, r, run, relaying, found, isOpen⟩

/-- With the default settings the session of a connection whose third heartbeat takes 8 s to
fail is swept while it relays. -/
theorem default_limit_too_short :
    ¬ ∀ (c : Route) (s s' : Edge) (ms : List Move), s.Fresh c → (edge {} c).run s ms = some s' →
      (edge {} c).Along (Prompt c 0 8000000 s.plane.now) s ms → Relaying s' →
      ∃ r, s'.row c = some r ∧ r.isOpen := by
  intro claim
  obtain ⟨s', r, run, prompt, live, found, ended⟩ := @no_room {} 0 8000000 (by decide)
  obtain ⟨r', found', isOpen⟩ := claim firstRoute firstEdge s' _ firstEdge_fresh run prompt live
  obtain rfl : r = r' := Option.some.inj (found.symm.trans found')
  rw [ended] at isOpen
  cases isOpen

end Arena.Staleness
