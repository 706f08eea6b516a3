import Arena.Delivery

/-!
# What is recorded when a connection is over

The handler takes what the counters hold when the first relay stops, and reports it once. The
other relay and the heartbeat goroutine may still add to a counter after that, a heartbeat that
was recorded may still be given up, and the close request may find the session ended: these
are the ways in which a connection that loses no message ends with another amount recorded than
the relays wrote.
-/

namespace Arena.Shutdown

open Arena.Lib Arena.Model Arena.Delivery

variable {cfg : Settings} {c : Route} {d : Direction} {s s' : Edge} {m : Move}

/-- The handler is past its last `Swap` of this counter. -/
def past (d : Direction) : Main → Bool
  | .swapped .. => d = .up
  | .closing .. => true
  | .returned => true
  | _ => false

/-- What a step adds to a counter. -/
def adds (d : Direction) (s : Edge) : Move → ℕ
  | .add d' => if d' = d then pending (s.relay d) else 0
  | .addUp => match s.beat with
    | .addingUp up _ => d.pick up 0
    | _ => 0
  | .addDown => match s.beat with
    | .addingDown down => d.pick 0 down
    | _ => 0
  | _ => 0

/-- What a step adds to a counter that nobody will read again. -/
def stranded (d : Direction) (s : Edge) (m : Move) : ℕ := if past d s.main then adds d s m else 0

/-- A step of a connection that loses no message: a heartbeat fails only by the gateway's own
`cancel()`, the close request is handled, and nobody deletes the user. -/
def Orderly (c : Route) (s : Edge) : Move → Bool
  | .beatFailed _ => s.cancelled
  | .closeDone _ => match s.main with
    | .closing _ _ _ handled => handled
    | _ => true
  | .other (.admin _ (.deleteUser userId)) => userId ≠ c.user
  | _ => true

/-- Nothing is recorded twice, stranded in a counter or dropped by the step. -/
def Clean (c : Route) (s : Edge) (m : Move) : Prop :=
  ∀ d, duplicated c d s m = 0 ∧ stranded d s m = 0 ∧ discarded c d s m = 0

instance : Decidable (Clean c s m) := inferInstanceAs (Decidable (∀ _, _))

/-- The handler has returned and every goroutine has stopped. -/
structure Stopped (s : Edge) : Prop where
  main : s.main = .returned
  relay : ∀ d, s.relay d = .off ∨ s.relay d = .stopped
  beat : s.beat = .off ∨ s.beat = .stopped

/-- The invariant of a connection that loses no message and whose steps are clean. -/
structure Exact (c : Route) (s : Edge) : Prop where
  sound : Sound c s
  setup : Setup s
  account : ∀ d, s.credited d + held d s = s.written d
  /-- A counter is empty before the relays start and after its last `Swap`. -/
  drained : ∀ d, s.main = .connecting ∨ past d s.main = true → s.counter d = 0
  /-- No close request was given up. -/
  noLateClose : ∀ r ∈ s.abandoned, ∀ d, lateHeld d r = 0
  exists_row : ∃ r, s.row c = some r

/-! ## One step -/

/-- Handling a request of the connection keeps the session's row. -/
theorem serve_row (h : ∃ r, s.row c = some r) (r : Abandoned) :
    ∃ x, (s.serve cfg c (c.event r)).row c = some x := by
  obtain ⟨x, found⟩ := h
  cases r with
  | heartbeat up down =>
    rcases Edge.serve_heartbeat cfg c s up down with ⟨-, row, -⟩ | ⟨y, verdict, reply, -, -, row, -⟩
    · exact ⟨x, row.trans found⟩
    · exact ⟨_, row⟩
  | close up down reason =>
    rcases Edge.serve_close cfg c s up down reason with ⟨-, row, -⟩ | ⟨y, -, -, row, -⟩
    · exact ⟨x, row.trans found⟩
    · exact ⟨_, row⟩

/-- The session's row is there as long as its user is not deleted. -/
theorem row_stays (sound : Sound c s) (h : ∃ r, s.row c = some r) (orderly : Orderly c s m)
    (step : Edge.Stepped cfg c s m s') : ∃ r, s'.row c = some r := by
  cases step with
  | other e p foreign step =>
    obtain ⟨r, found⟩ := h
    cases row_step step sound.drawn foreign with
    | kept _ same => exact ⟨r, same.trans found⟩
    | swept newId p row was _ ended => exact ⟨_, ended⟩
    | deleted name row was gone =>
      have mine := sound.owner row was
      simp [Orderly, mine] at orderly
  | beatHandled up down here => exact serve_row h (.heartbeat up down)
  | closeHandled reason up down here => exact serve_row h (.close up down reason)
  | lateHandled i r here => exact serve_row h r
  | _ => exact h

/-- No close request is given up before it was handled. -/
theorem noLateClose_step (h : ∀ r ∈ s.abandoned, ∀ d, lateHeld d r = 0) (orderly : Orderly c s m)
    (step : Edge.Stepped cfg c s m s') : ∀ r ∈ s'.abandoned, ∀ d, lateHeld d r = 0 := by
  cases step with
  | beatFailed late up down reply here =>
    intro r mem d
    rcases Edge.mem_abandon mem with mem | ⟨-, rfl⟩
    · exact h r mem d
    · rfl
  | closeDone late reason up down handled here =>
    have handled : handled = true := by simpa [Orderly, here] using orderly
    intro r mem d
    rcases Edge.mem_abandon mem with mem | ⟨given, -⟩
    · exact h r mem d
    · simp [handled] at given
  | lateHandled i r here => exact fun x mem d => h x (List.mem_of_mem_eraseIdx mem) d
  | _ => exact h

/-- A step that strands nothing leaves an empty counter empty. -/
theorem drained_step (setup : Setup s)
    (h : ∀ d, s.main = .connecting ∨ past d s.main = true → s.counter d = 0)
    (clean : ∀ d, stranded d s m = 0) (step : Edge.Stepped cfg c s m s') (d : Direction) :
    s'.main = .connecting ∨ past d s'.main = true → s'.counter d = 0 := by
  intro ending
  cases step with
  | add d' n here =>
    have before := h d ending
    have clean := clean d
    rcases ending with connecting | swapped
    · have off := (setup connecting).1 d'
      simp [here] at off
    · have last : past d s.main = true := swapped
      by_cases same : d = d'
      · subst same
        simp only [stranded, last, if_true, adds, here, pending] at clean
        simp [before, clean]
      · simp [Function.update_of_ne same, before]
  | addUp up down here | addDown down here =>
    have before := h d ending
    have clean := clean d
    rcases ending with connecting | swapped
    · have off := (setup connecting).2
      simp [here] at off
    · have last : past d s.main = true := swapped
      simp only [stranded, last, if_true, adds, here] at clean
      cases d <;> simp_all
  | tick here due =>
    have before := h d ending
    cases d <;> simp [before]
  | swapDown up here =>
    have before := h d ending
    cases d <;> simp [before]
  | unavailable reason here => exact h d (.inl here)
  | cancel reason d' here stopped => simp [past] at ending
  | established here => simp [past] at ending
  | closeUp reason here =>
    have up : d = .up := by simpa [past] using ending
    subst up
    simp
  | closeDown reason up here =>
    cases d with
    | up =>
      have before := h .up (.inr (by simp [here, past]))
      simpa using before
    | down => simp
  | closeHandled reason up down here => exact h d (.inr (by simp [here, past]))
  | closeDone late reason up down handled here => exact h d (.inr (by simp [here, past]))
  | _ => exact h d ending

theorem exact_step (before : Exact c s) (orderly : Orderly c s m) (clean : Clean c s m)
    (step : (edge cfg c).step s m = some s') : Exact c s' := by
  have h := Edge.step_inv step
  refine ⟨sound_step before.sound h, setup_step before.setup h, fun d => ?_,
    drained_step before.setup before.drained (fun d => (clean d).2.1) h,
    noLateClose_step before.noLateClose orderly h, row_stays before.sound before.exists_row orderly h⟩
  have account := ledger_step before.sound before.setup h d
  have written := written_step h d
  have so_far := before.account d
  obtain ⟨once, -, kept⟩ := clean d
  omega

theorem exact_of_fresh (fresh : Edge.Fresh c s) : Exact c s := by
  have bounded := bounded_of_fresh fresh
  obtain ⟨⟨plane, rfl⟩, -, row, found, -⟩ := fresh
  exact ⟨bounded.sound, bounded.setup, fun d => by simp [held, pending, beatHeld, mainHeld],
    fun d _ => rfl, by simp, row, found⟩

/-- When everything has stopped, nothing is in anybody's hands. -/
theorem held_of_stopped (exact : Exact c s) (stopped : Stopped s) (d : Direction) : held d s = 0 := by
  have counter : s.counter d = 0 := exact.drained d (.inr (by rw [stopped.main]; rfl))
  have relay : pending (s.relay d) = 0 := by rcases stopped.relay d with h | h <;> rw [h] <;> rfl
  have beat : beatHeld d s.beat = 0 := by rcases stopped.beat with h | h <;> rw [h] <;> rfl
  have late : (s.abandoned.map (lateHeld d)).sum = 0 := by
    refine List.sum_eq_zero fun n mem => ?_
    obtain ⟨r, hr, rfl⟩ := List.mem_map.1 mem
    exact exact.noLateClose r hr d
  simp [held, counter, relay, beat, late, stopped.main, mainHeld]

/-! ## A whole connection -/

/-- **No lost traffic, where every step is clean.** A connection that loses no message, whose
recorded heartbeats are not given up, that adds nothing to a counter after the handler's last
`Swap` of it and whose close request finds the session open (or carries nothing), ends with
exactly the bytes recorded that its relays wrote. -/
theorem no_lost_traffic (cfg : Settings) (c : Route) (s s' : Edge) (ms : List Move)
    (fresh : Edge.Fresh c s) (run : (edge cfg c).run s ms = some s')
    (orderly : (edge cfg c).Along (fun s m => Orderly c s m) s ms)
    (clean : (edge cfg c).Along (Clean c) s ms) (stopped : Stopped s') :
    ∃ r, s'.row c = some r ∧ r.uplinkBytes = s'.written .up ∧ r.downlinkBytes = s'.written .down := by
  have both : (edge cfg c).Along (fun s m => Orderly c s m ∧ Clean c s m) s ms := orderly.and clean
  have exact : Exact c s' := Machine.along_invariant (I := Exact c)
    (fun before ok step => exact_step before ok.1 ok.2 step) (exact_of_fresh fresh) both run
  obtain ⟨r, found⟩ := exact.exists_row
  have recorded : ∀ d, bytes d r = s'.written d := fun d => by
    have account := exact.account d
    rw [held_of_stopped exact stopped d] at account
    rw [exact.sound.credited d r found]
    exact account
  exact ⟨r, found, recorded .up, recorded .down⟩

/-- A connection whose relay is counted before the handler closes. -/
def countedBeforeClose : List Move :=
  [.established, .write .up 1000, .add .up, .relayStop .up, .cancel "client_closed", .closeUp,
    .closeDown, .closeHandled, .closeDone false, .relayStop .down, .beatDone]

/-- The other relay has written and is counted only after the handler's last `Swap`. -/
def countedAfterClose : List Move :=
  [.established, .write .up 1000, .relayStop .down, .cancel "client_closed", .closeUp, .closeDown,
    .closeHandled, .closeDone false, .add .up, .relayStop .up, .beatDone]

/-- `Stopped`, evaluated. -/
theorem stopped_of_check {s : Edge} (main : (match s.main with | .returned => true | _ => false) = true)
    (relay : ∀ d, (match s.relay d with | .stopped => true | _ => false) = true)
    (beat : (match s.beat with | .stopped => true | _ => false) = true) : Stopped s := by
  refine ⟨?_, fun d => .inr ?_, .inr ?_⟩
  · split at main <;> simp_all
  · have := relay d
    split at this <;> simp_all
  · split at beat <;> simp_all

/-- The amounts agree on a connection that is counted before it closes. -/
theorem no_lost_traffic_counted :
    ∃ s' r, (edge {} firstRoute).run firstEdge countedBeforeClose = some s' ∧
      s'.row firstRoute = some r ∧ r.uplinkBytes = s'.written .up ∧ s'.written .up = 1000 := by
  obtain ⟨s', run⟩ := Option.isSome_iff_exists.1
    (by decide +kernel : ((edge {} firstRoute).run firstEdge countedBeforeClose).isSome)
  have ends : ((edge {} firstRoute).run firstEdge countedBeforeClose).all fun s =>
      s.written .up = 1000 && (match s.main with | .returned => true | _ => false) &&
        decide (∀ d, (match s.relay d with | .stopped => true | _ => false) = true) &&
        (match s.beat with | .stopped => true | _ => false) := by decide +kernel
  simp only [run, Option.all_some, Bool.and_eq_true, decide_eq_true_eq] at ends
  obtain ⟨⟨⟨written, main⟩, relay⟩, beat⟩ := ends
  obtain ⟨r, found, up, -⟩ := no_lost_traffic {} firstRoute firstEdge s' countedBeforeClose
    firstEdge_fresh run (by decide +kernel) (by decide +kernel) (stopped_of_check main relay beat)
  exact ⟨s', r, run, found, up, written⟩

/-- What is counted after the last `Swap` is never recorded. -/
theorem late_count_lost :
    ¬ ∀ (cfg : Settings) (c : Route) (s s' : Edge) (ms : List Move), s.Fresh c →
      (edge cfg c).run s ms = some s' → (edge cfg c).Along (fun s m => Orderly c s m) s ms →
      Stopped s' →
      ∃ r, s'.row c = some r ∧ r.uplinkBytes = s'.written .up ∧ r.downlinkBytes = s'.written .down := by
  intro claim
  obtain ⟨s', run⟩ := Option.isSome_iff_exists.1
    (by decide +kernel : ((edge {} firstRoute).run firstEdge countedAfterClose).isSome)
  have ends : ((edge {} firstRoute).run firstEdge countedAfterClose).all fun s =>
      s.written .up = 1000 && (s.row firstRoute).all (fun r => r.uplinkBytes = 0) &&
        (match s.main with | .returned => true | _ => false) &&
        decide (∀ d, (match s.relay d with | .stopped => true | _ => false) = true) &&
        (match s.beat with | .stopped => true | _ => false) := by decide +kernel
  simp only [run, Option.all_some, Bool.and_eq_true, decide_eq_true_eq] at ends
  obtain ⟨⟨⟨⟨written, nothing⟩, main⟩, relay⟩, beat⟩ := ends
  obtain ⟨r, found, up, -⟩ := claim {} firstRoute firstEdge s' countedAfterClose firstEdge_fresh run
    (by decide +kernel) (stopped_of_check main relay beat)
  simp only [found, Option.all_some, decide_eq_true_eq] at nothing
  omega

end Arena.Shutdown
