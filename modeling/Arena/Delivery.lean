import Arena.Model.EdgeSteps

/-!
# From the relay to the ledger

The bytes that a relay wrote pass through a shared counter, a request's payload and the
control plane. `Stepped.ledger` is the account of one step: what is recorded and what is still
in somebody's hands changes by what was written, plus what a step duplicates, less what a step
discards. A step duplicates when a heartbeat that was recorded is added back; it discards when
a payload is dropped. Whatever is added to a counter after the last `Swap` stays there.
-/

namespace Arena.Delivery

open Arena.Lib Arena.Model

/-! ## Where bytes are -/

def pending : Relay → ℕ
  | .adding n => n
  | _ => 0

/-- The payload of a heartbeat in the goroutine's hands: not recorded, or to be added back. -/
def beatHeld (d : Direction) : Beat → ℕ
  | .swapped up => d.pick up 0
  | .posting _ _ (some (.ok _)) => 0
  | .posting up down _ => d.pick up down
  | .addingUp up down => d.pick up down
  | .addingDown down => d.pick 0 down
  | _ => 0

/-- The payload of the close request in the handler's hands. -/
def mainHeld (d : Direction) : Main → ℕ
  | .swapped _ up => d.pick up 0
  | .closing _ up down false => d.pick up down
  | _ => 0

/-- The payload of a close request that may still arrive. An abandoned heartbeat holds nothing:
its payload was added back. -/
def lateHeld (d : Direction) : Abandoned → ℕ
  | .close up down _ => d.pick up down
  | .heartbeat _ _ => 0

/-- The bytes that were written and are neither recorded nor dropped. -/
def held (d : Direction) (s : Edge) : ℕ :=
  s.counter d + pending (s.relay d) + beatHeld d s.beat + mainHeld d s.main +
    (s.abandoned.map (lateHeld d)).sum

/-! ## What a step does to them -/

variable (c : Route)

/-- The bytes that a step writes. -/
def wrote (d : Direction) : Move → ℕ
  | .write d' n => if d' = d then n else 0
  | _ => 0

/-- The session is open: a request for it is recorded. -/
def isRecording (s : Edge) : Bool := (s.plane.db.openSession c.session).isSome

/-- The bytes that a step counts twice: a heartbeat was recorded, and its `post` failed. -/
def duplicated (d : Direction) (s : Edge) : Move → ℕ
  | .beatFailed _ => match s.beat with
    | .posting up down (some (.ok _)) => d.pick up down
    | _ => 0
  | .lateHandled i => match s.abandoned[i]? with
    | some (.heartbeat up down) => if isRecording c s then d.pick up down else 0
    | _ => 0
  | _ => 0

/-- The bytes that a step drops: the payload of a close that finds the session ended or that
never arrives. -/
def discarded (d : Direction) (s : Edge) : Move → ℕ
  | .closeHandled => match s.main with
    | .closing _ up down false => if isRecording c s then 0 else d.pick up down
    | _ => 0
  | .closeDone late => match s.main with
    | .closing _ up down false => if late then 0 else d.pick up down
    | _ => 0
  | .lateHandled i => match s.abandoned[i]? with
    | some (.close up down _) => if isRecording c s then 0 else d.pick up down
    | _ => 0
  | _ => 0

/-- The books of a connection: as long as there is a session, it is the user's, and its bytes
are what its requests added to the user's usage. -/
structure Sound (c : Route) (s : Edge) : Prop where
  drawn : c.session ∈ s.plane.issued
  owner : ∀ r, s.row c = some r → r.userId = c.user
  credited : ∀ d r, s.row c = some r → bytes d r = s.credited d

/-- No goroutine runs before the connection is established. -/
def Setup (s : Edge) : Prop := s.main = .connecting → (∀ d, s.relay d = .off) ∧ s.beat = .off

variable {c} {cfg : Settings} {d : Direction} {s s' : Edge} {m : Move}

theorem isRecording_iff : isRecording c s = true ↔ ∃ r, s.row c = some r ∧ r.isOpen :=
  Edge.openSession_isSome_iff

/-- Taking one request out of those that may still arrive. -/
theorem sum_eraseIdx {f : Abandoned → ℕ} {l : List Abandoned} {i : ℕ} {r : Abandoned}
    (h : l[i]? = some r) : f r + ((l.eraseIdx i).map f).sum = (l.map f).sum := by
  obtain ⟨lt, rfl⟩ := List.getElem?_eq_some_iff.1 h
  have perm := (List.getElem_cons_eraseIdx_perm lt).map f
  simpa using perm.sum_eq

/-! ## A request handled -/

/-- A heartbeat that is handled credits its payload exactly when the session is open; only
then is the reply a success. -/
theorem heartbeat_credits (sound : Sound c s) (up down : ℕ) :
    (isRecording c s = true ∧
      (∀ d, (s.serve cfg c (.heartbeat (c.heartbeat up down))).credited d =
        s.credited d + d.pick up down) ∧
      ∃ reply, (heartbeat s.plane.now (c.heartbeat up down) s.plane.db).2 = .ok reply) ∨
    (isRecording c s = false ∧
      (∀ d, (s.serve cfg c (.heartbeat (c.heartbeat up down))).credited d = s.credited d) ∧
      ∃ err, (heartbeat s.plane.now (c.heartbeat up down) s.plane.db).2 = .error err) := by
  rcases Edge.serve_heartbeat cfg c s up down with
    ⟨missing, -, credited, refused⟩ | ⟨r, verdict, reply, found, isOpen, -, credited, ok⟩
  · exact .inr ⟨by simp [isRecording, missing], credited, refused⟩
  · refine .inl ⟨isRecording_iff.2 ⟨r, found, isOpen⟩, fun d => ?_, reply, ok⟩
    rw [credited d, if_pos (sound.owner r found)]

/-- A close that is handled credits its payload exactly when the session is open. -/
theorem close_credits (sound : Sound c s) (up down : ℕ) (reason : String) (d : Direction) :
    (s.serve cfg c (.close (c.close up down reason))).credited d =
      s.credited d + if isRecording c s then d.pick up down else 0 := by
  rcases Edge.serve_close cfg c s up down reason with
    ⟨missing, -, credited⟩ | ⟨r, found, isOpen, -, credited⟩
  · rw [credited d]
    simp [isRecording, missing]
  · rw [credited d, if_pos (sound.owner r found), if_pos (isRecording_iff.2 ⟨r, found, isOpen⟩)]

/-- Handling a request keeps the books. -/
theorem serve_sound (sound : Sound c s) (r : Abandoned) : Sound c (s.serve cfg c (c.event r)) := by
  cases r with
  | heartbeat up down =>
    rcases Edge.serve_heartbeat cfg c s up down with
      ⟨-, row, credited, -⟩ | ⟨x, verdict, reply, found, -, row, credited, -⟩
    · refine ⟨sound.drawn, fun y hy => sound.owner y (row ▸ hy), fun d y hy => ?_⟩
      exact (sound.credited d y (row ▸ hy)).trans (credited d).symm
    · have mine := sound.owner x found
      have after : ∀ y, (s.serve cfg c (c.event (.heartbeat up down))).row c = some y →
          y = x.heard up down s.plane.now verdict := fun y hy => Option.some.inj (hy.symm.trans row)
      refine ⟨sound.drawn, fun y hy => by rw [after y hy]; simpa using mine, fun d y hy => ?_⟩
      rw [after y hy, bytes_heard, sound.credited d x found]
      exact ((credited d).trans (by rw [if_pos mine])).symm
  | close up down reason =>
    rcases Edge.serve_close cfg c s up down reason with
      ⟨-, row, credited⟩ | ⟨x, found, -, row, credited⟩
    · refine ⟨sound.drawn, fun y hy => sound.owner y (row ▸ hy), fun d y hy => ?_⟩
      exact (sound.credited d y (row ▸ hy)).trans (credited d).symm
    · have mine := sound.owner x found
      have after : ∀ y, (s.serve cfg c (c.event (.close up down reason))).row c = some y →
          y = x.closed up down s.plane.now reason := fun y hy => Option.some.inj (hy.symm.trans row)
      refine ⟨sound.drawn, fun y hy => by rw [after y hy]; simpa using mine, fun d y hy => ?_⟩
      rw [after y hy, bytes_closed, sound.credited d x found]
      exact ((credited d).trans (by rw [if_pos mine])).symm

/-- An event that is no request of the connection keeps the books. -/
theorem other_sound (sound : Sound c s) {e : Event} {p : Plane}
    (step : (plane cfg).step s.plane e = some p) (foreign : ¬ e.addresses c.session) :
    Sound c { s with plane := p } := by
  have row := row_step step sound.drawn foreign
  obtain ⟨-, rfl⟩ := plane_step.1 step
  have before : ∀ r, Edge.row c { s with plane := ⟨e.commit cfg s.plane.now s.plane.db,
      s.plane.now + e.elapsed, e.draws ++ s.plane.issued⟩ } = some r →
      ∃ r₀, s.row c = some r₀ ∧ r.userId = r₀.userId ∧ ∀ d, bytes d r = bytes d r₀ := by
    intro r found
    cases row with
    | kept _ same => exact ⟨r, same.symm.trans found, rfl, fun _ => rfl⟩
    | swept newId p r₀ was _ ended =>
      obtain rfl : r = r₀.finish s.plane.now := Option.some.inj (found.symm.trans ended)
      exact ⟨r₀, was, rfl, fun _ => bytes_finish⟩
    | deleted name r₀ was gone => cases found.symm.trans gone
  refine ⟨List.mem_append_right _ sound.drawn, fun r found => ?_, fun d r found => ?_⟩
  · obtain ⟨r₀, was, user, -⟩ := before r found
    exact user.trans (sound.owner r₀ was)
  · obtain ⟨r₀, was, -, same⟩ := before r found
    exact (same d).trans (sound.credited d r₀ was)

/-! ## One step -/

theorem sound_step (sound : Sound c s) (h : Edge.Stepped cfg c s m s') : Sound c s' := by
  have same : ∀ {t : Edge}, t.plane = s.plane → t.credited = s.credited → Sound c t := by
    intro t plane credited
    refine ⟨plane ▸ sound.drawn, fun r found => ?_, fun d r found => ?_⟩
    · exact sound.owner r (by rw [Edge.row, ← plane]; exact found)
    · rw [credited]
      exact sound.credited d r (by rw [Edge.row, ← plane]; exact found)
  have served : ∀ {t : Edge} (r : Abandoned), t.plane = (s.serve cfg c (c.event r)).plane →
      t.credited = (s.serve cfg c (c.event r)).credited → Sound c t := by
    intro t r plane credited
    have after := @serve_sound c cfg s sound r
    refine ⟨plane ▸ after.drawn, fun x found => ?_, fun d x found => ?_⟩
    · exact after.owner x (by rw [Edge.row, ← plane]; exact found)
    · rw [credited]
      exact after.credited d x (by rw [Edge.row, ← plane]; exact found)
  cases h with
  | other e p foreign step => exact other_sound sound step foreign
  | beatHandled up down here => exact served (.heartbeat up down) rfl rfl
  | closeHandled reason up down here => exact served (.close up down reason) rfl rfl
  | lateHandled i r here => exact served r rfl rfl
  | _ => exact same rfl rfl

theorem setup_step (setup : Setup s) (h : Edge.Stepped cfg c s m s') : Setup s' := by
  intro connecting
  cases h with
  | other e p foreign step => exact setup connecting
  | lateHandled i r here => exact setup connecting
  | write d n here =>
    have off := (setup connecting).1 d
    simp [here] at off
  | add d n here =>
    have off := (setup connecting).1 d
    simp [here] at off
  | relayStop d here =>
    have off := (setup connecting).1 d
    simp [here] at off
  | established here => cases connecting
  | unavailable reason here => cases connecting
  | cancel reason d here stopped => cases connecting
  | closeUp reason here => cases connecting
  | closeDown reason up here => cases connecting
  | closeHandled reason up down here => cases connecting
  | closeDone late reason up down handled here => cases connecting
  | _ =>
    have off := (setup connecting).2
    simp_all

/-- **The account of one step.** -/
theorem ledger_step (sound : Sound c s) (setup : Setup s) (h : Edge.Stepped cfg c s m s')
    (d : Direction) : s'.credited d + held d s' + discarded c d s m =
      s.credited d + held d s + wrote d m + duplicated c d s m := by
  cases h with
  | other e p foreign step => rfl
  | established here =>
    have off := setup here
    simp [held, here, off.1, off.2, pending, beatHeld, mainHeld, wrote, duplicated, discarded]
  | unavailable reason here =>
    cases d <;> simp [held, here, mainHeld, wrote, duplicated, discarded]
  | write d' n here =>
    by_cases same : d' = d
    · subst same
      simp [held, here, pending, wrote, duplicated, discarded]
      omega
    · have other : d ≠ d' := fun e => same e.symm
      simp [held, wrote, duplicated, discarded, Function.update_of_ne other, same]
  | add d' n here | relayStop d' here =>
    by_cases same : d' = d
    · subst same
      simp [held, here, pending, wrote, duplicated, discarded]
    · have other : d ≠ d' := fun e => same e.symm
      simp [held, wrote, duplicated, discarded, Function.update_of_ne other]
  | tick here due =>
    cases d <;> simp [held, here, beatHeld, wrote, duplicated, discarded]
    omega
  | swapDown up here =>
    cases d <;> simp [held, here, beatHeld, wrote, duplicated, discarded]
    omega
  | beatHandled up down here =>
    rcases @heartbeat_credits c cfg s sound up down with
      ⟨-, credits, reply, ok⟩ | ⟨-, credits, err, refused⟩
    · have credited := credits d
      simp only [Edge.serve_credited] at credited
      simp [held, here, beatHeld, wrote, duplicated, discarded, ok, credited]
      omega
    · have credited := credits d
      simp only [Edge.serve_credited] at credited
      simp [held, here, beatHeld, wrote, duplicated, discarded, refused, credited]
  | terminated up down reply here ends =>
    simp [held, here, beatHeld, wrote, duplicated, discarded]
  | continued up down reply here goes =>
    simp [held, here, beatHeld, wrote, duplicated, discarded]
  | refused up down err here =>
    simp [held, here, beatHeld, wrote, duplicated, discarded]
  | beatFailed late up down reply here =>
    rcases reply with - | err | reply
    · cases late <;> simp [held, here, beatHeld, lateHeld, wrote, duplicated, discarded]
    · simp [held, here, beatHeld, wrote, duplicated, discarded]
    · simp [held, here, beatHeld, wrote, duplicated, discarded]
      omega
  | addUp up down here =>
    cases d <;> simp [held, here, beatHeld, wrote, duplicated, discarded]
    omega
  | addDown down here =>
    have before : beatHeld d s.beat = d.pick 0 down := by rw [here]; rfl
    have after : beatHeld d ((s.addBack .down down).fail).beat = 0 := by
      simp only [Edge.fail_beat]
      split <;> rfl
    simp only [held, before, after, wrote, duplicated, discarded]
    cases d <;> simp
    omega
  | beatDone here done => simp [held, here, beatHeld, wrote, duplicated, discarded]
  | cancel reason d' here stopped => simp [held, here, mainHeld, wrote, duplicated, discarded]
  | closeUp reason here =>
    cases d <;> simp [held, here, mainHeld, wrote, duplicated, discarded]
    omega
  | closeDown reason up here =>
    cases d <;> simp [held, here, mainHeld, wrote, duplicated, discarded]
    omega
  | closeHandled reason up down here =>
    have credited := @close_credits c cfg s sound up down reason d
    simp only [Edge.serve_credited] at credited
    cases recording : isRecording c s <;>
      simp [held, here, mainHeld, wrote, duplicated, discarded, credited, recording]
    · omega
    · omega
  | closeDone late reason up down handled here =>
    cases handled <;> cases late <;>
      simp [held, here, mainHeld, lateHeld, wrote, duplicated, discarded]
    · omega
    · omega
  | lateHandled i r here =>
    have taken := sum_eraseIdx (f := lateHeld d) here
    cases r with
    | heartbeat up down =>
      rcases @heartbeat_credits c cfg s sound up down with
        ⟨recording, credits, -⟩ | ⟨recording, credits, -⟩
      · have credited := credits d
        simp only [Edge.serve_credited] at credited
        simp only [lateHeld, Nat.zero_add] at taken
        simp [held, here, wrote, duplicated, discarded, Route.event, credited, recording, taken]
        omega
      · have credited := credits d
        simp only [Edge.serve_credited] at credited
        simp only [lateHeld, Nat.zero_add] at taken
        simp [held, here, wrote, duplicated, discarded, Route.event, credited, recording, taken]
    | close up down reason =>
      have credited := @close_credits c cfg s sound up down reason d
      simp only [Edge.serve_credited] at credited
      simp only [lateHeld] at taken
      cases recording : isRecording c s <;>
        simp [held, here, wrote, duplicated, discarded, Route.event, credited, recording] <;> omega

theorem written_step (h : Edge.Stepped cfg c s m s') (d : Direction) :
    s'.written d = s.written d + wrote d m := by
  cases h with
  | write d' n here =>
    by_cases same : d' = d
    · subst same
      simp [wrote]
    · have other : d ≠ d' := fun e => same e.symm
      simp [wrote, Function.update_of_ne other, same]
  | _ => rfl

/-! ## No double charging -/

/-- The invariant of a connection whose steps duplicate nothing. -/
structure Bounded (c : Route) (s : Edge) : Prop where
  sound : Sound c s
  setup : Setup s
  bound : ∀ d, s.credited d + held d s ≤ s.written d

theorem bounded_of_fresh (fresh : Edge.Fresh c s) : Bounded c s := by
  obtain ⟨⟨plane, rfl⟩, drawn, row, found, owner, -, -, up, down⟩ := fresh
  have only : ∀ r, Edge.row c { plane := plane } = some r → r = row :=
    fun r h => Option.some.inj (h.symm.trans found)
  refine ⟨⟨drawn, fun r h => by rw [only r h]; exact owner, fun d r h => ?_⟩,
    fun _ => ⟨fun _ => rfl, rfl⟩, fun d => ?_⟩
  · rw [only r h]
    cases d <;> simp [bytes, up, down]
  · simp [held, pending, beatHeld, mainHeld]

theorem bounded_step (before : Bounded c s) (once : ∀ d, duplicated c d s m = 0)
    (step : (edge cfg c).step s m = some s') : Bounded c s' := by
  have h := Edge.step_inv step
  refine ⟨sound_step before.sound h, setup_step before.setup h, fun d => ?_⟩
  have account := ledger_step before.sound before.setup h d
  have written := written_step h d
  have bound := before.bound d
  have none_twice := once d
  omega

/-- **No double charging, exactly when no recorded heartbeat is reported as failed.** In every
run of a connection whose steps duplicate nothing, the session has at most the bytes that the
relays wrote, and the same amount was added to its user's usage. -/
theorem no_double_charge (cfg : Settings) (c : Route) (s s' : Edge) (ms : List Move)
    (fresh : Edge.Fresh c s) (run : (edge cfg c).run s ms = some s')
    (once : (edge cfg c).Along (fun s m => ∀ d, duplicated c d s m = 0) s ms) :
    (∀ d, s'.credited d ≤ s'.written d) ∧
      ∀ r, s'.row c = some r →
        (r.uplinkBytes ≤ s'.written .up ∧ r.uplinkBytes = s'.credited .up) ∧
        (r.downlinkBytes ≤ s'.written .down ∧ r.downlinkBytes = s'.credited .down) := by
  have after : Bounded c s' := Machine.along_invariant (I := Bounded c)
    (fun before once step => bounded_step before once step) (bounded_of_fresh fresh) once run
  have credited : ∀ d, s'.credited d ≤ s'.written d := fun d => by
    have := after.bound d
    omega
  refine ⟨credited, fun r found => ?_⟩
  have up : r.uplinkBytes = s'.credited .up := after.sound.credited .up r found
  have down : r.downlinkBytes = s'.credited .down := after.sound.credited .down r found
  exact ⟨⟨up ▸ credited .up, up⟩, ⟨down ▸ credited .down, down⟩⟩

/-- One message, counted, and one heartbeat that the control plane records. -/
def recordedBeat : List Move :=
  [.established, .write .up 1000, .add .up, .other (.tick 15000000), .tick, .swapDown, .beatHandled]

/-- The bounds on a connection whose heartbeat is answered. -/
theorem no_double_charge_answered :
    ∃ s', (edge {} firstRoute).run firstEdge (recordedBeat ++ [.beatReplied]) = some s' ∧
      s'.credited .up ≤ s'.written .up ∧ s'.written .up = 1000 := by
  obtain ⟨s', run⟩ := Option.isSome_iff_exists.1 (by decide +kernel :
    ((edge {} firstRoute).run firstEdge (recordedBeat ++ [.beatReplied])).isSome)
  have written : ((edge {} firstRoute).run firstEdge (recordedBeat ++ [.beatReplied])).all
      fun s => s.written .up = 1000 := by decide +kernel
  rw [run] at written
  have once : (edge {} firstRoute).Along (fun s m => ∀ d, duplicated firstRoute d s m = 0) firstEdge
      (recordedBeat ++ [.beatReplied]) := by decide +kernel
  have bounds := no_double_charge {} firstRoute firstEdge s' _ firstEdge_fresh run once
  exact ⟨s', run, bounds.1 .up, by simpa using written⟩

/-- The reply of the recorded heartbeat is lost, and the next heartbeat carries it again. -/
def lostReply : List Move :=
  recordedBeat ++ [.beatFailed false, .addUp, .addDown, .other (.tick 15000000), .tick, .swapDown,
    .beatHandled, .beatReplied]

/-- A lost reply is charged twice. -/
theorem lost_reply_charged_twice :
    ¬ ∀ (cfg : Settings) (c : Route) (s s' : Edge) (ms : List Move), s.Fresh c →
      (edge cfg c).run s ms = some s' →
      ∀ r, s'.row c = some r → r.uplinkBytes ≤ s'.written .up ∧ r.downlinkBytes ≤ s'.written .down := by
  intro claim
  obtain ⟨s', run⟩ := Option.isSome_iff_exists.1
    (by decide +kernel : ((edge {} firstRoute).run firstEdge lostReply).isSome)
  have twice : ((edge {} firstRoute).run firstEdge lostReply).all fun s =>
      s.written .up = 1000 && (s.row firstRoute).any fun r => r.uplinkBytes = 2000 := by decide +kernel
  simp only [run, Option.all_some, Bool.and_eq_true, decide_eq_true_eq, Option.any_eq_true] at twice
  obtain ⟨written, r, found, bytes⟩ := twice
  have bound := (claim {} firstRoute firstEdge s' lostReply firstEdge_fresh run r found).1
  omega

end Arena.Delivery
