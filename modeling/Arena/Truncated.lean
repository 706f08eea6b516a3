import Arena.Model.Copying

/-!
# Whether `relay` forges messages

On every way out after an error `relay` closes the writer of the message it is in, and closing
a writer completes the message: the destination gets what was written so far as a whole message.
Apart from that, messages arrive whole and in order, and every written byte is counted.
-/

namespace Arena.Truncated

open Arena.Lib Arena.Model

variable {s s' : RelayState} {e : RelayEvent} {type : MessageType} {readErr : ReadErr}

/-- The destination's messages are the first ones of the source's, and the counter has what was
written. -/
def Faithful (s : RelayState) : Prop :=
  s.completed <+: s.received ∧ s.counter + s.uncounted = s.written

/-- The event does not close the writer after an error, or that completes no message, or the
message was read to its end and written whole. -/
def ClosesWhole (s : RelayState) (e : RelayEvent) : Prop :=
  match s.phase, e with
  | .aborting type, .close true => s.received = s.completed ++ [⟨type, s.sent⟩]
  | _, _ => True

instance (s : RelayState) (e : RelayEvent) : Decidable (ClosesWhole s e) := by
  unfold ClosesWhole
  split <;> infer_instance

/-! ## The invariant -/

/-- The source has given the destination's messages and, after its end, the current one. -/
def Ahead (s : RelayState) (type : MessageType) (readErr : ReadErr) : Prop :=
  s.received = s.completed ++ readErr.completes type s.read

/-- What holds at each call of `relay`. -/
def AtCall (s : RelayState) : RelayPhase → Prop
  | .idle => s.received = s.completed
  | .opening _ => s.received = s.completed ∧ s.read = [] ∧ s.sent = []
  | .reading _ => s.received = s.completed ∧ s.read = s.sent
  | .waiting type chunk readErr | .writing type chunk readErr =>
    Ahead s type readErr ∧ s.read = s.sent ++ chunk
  | .adding type _ writeErr readErr => Ahead s type readErr ∧ (writeErr = false → s.read = s.sent)
  | .closing type => Ahead s type .eof ∧ s.read = s.sent
  | .aborting type => ∃ readErr, Ahead s type readErr
  | .returned => s.completed <+: s.received

structure Inv (s : RelayState) : Prop where
  call : AtCall s s.phase
  counted : s.counter + s.uncounted = s.written

theorem Inv.faithful (inv : Inv s) : Faithful s := by
  refine ⟨?_, inv.counted⟩
  have call := inv.call
  cases phase : s.phase <;> rw [phase] at call
  case idle => exact call ▸ List.prefix_rfl
  case opening => exact call.1 ▸ List.prefix_rfl
  case reading => exact call.1 ▸ List.prefix_rfl
  case waiting => exact call.1 ▸ List.prefix_append _ _
  case writing => exact call.1 ▸ List.prefix_append _ _
  case adding => exact call.1 ▸ List.prefix_append _ _
  case closing => exact call.1 ▸ List.prefix_append _ _
  case aborting => exact call.choose_spec ▸ List.prefix_append _ _
  case returned => exact call

/-- What holds after a chunk. -/
theorem after_atCall (ahead : Ahead s type readErr) (same : s.read = s.sent) :
    AtCall s (.after type readErr) := by
  cases readErr with
  | none => exact ⟨by simpa [Ahead, ReadErr.completes] using ahead, same⟩
  | eof => exact ⟨ahead, same⟩
  | failed => exact ⟨.failed, ahead⟩

theorem uncounted_after {s : RelayState} (type : MessageType) (readErr : ReadErr)
    (phase : s.phase = .after type readErr) : s.uncounted = 0 := by
  cases readErr <;> simp [RelayState.uncounted, phase, RelayPhase.after]

/-- **The step lemma**, one case for each call. -/
theorem inv_step (inv : Inv s) (whole : ClosesWhole s e) (step : relay.step s e = some s') : Inv s' := by
  obtain ⟨call, counted⟩ := inv
  obtain ⟨phase, read, sent, received, completed, written, counter⟩ := s
  cases phase with
  | idle =>
    cases e with
    | reader type =>
      obtain rfl : received = completed := call
      cases type with
      | none => cases step; exact ⟨List.prefix_rfl, counted⟩
      | some type => cases step; exact ⟨⟨rfl, rfl, rfl⟩, counted⟩
    | _ => cases step
  | opening type =>
    cases e with
    | writer ok =>
      obtain ⟨rfl, rfl, rfl⟩ : received = completed ∧ read = [] ∧ sent = [] := call
      cases ok with
      | false => cases step; exact ⟨List.prefix_rfl, counted⟩
      | true => cases step; exact ⟨⟨rfl, rfl⟩, counted⟩
    | _ => cases step
  | reading type =>
    cases e with
    | read chunk readErr =>
      obtain ⟨rfl, rfl⟩ : received = completed ∧ read = sent := call
      obtain ⟨-, made⟩ := Option.ite_none_right_eq_some.1 step
      cases made
      by_cases empty : chunk = []
      · subst empty
        refine ⟨?_, ?_⟩
        · exact after_atCall (s := ⟨_, _, _, _, _, _, _⟩) rfl (List.append_nil _)
        · rw [uncounted_after type readErr rfl]
          exact counted
      · simp only [empty, if_false]
        exact ⟨⟨rfl, rfl⟩, counted⟩
    | _ => cases step
  | waiting type chunk readErr =>
    cases e with
    | wait ok =>
      cases ok with
      | false => cases step; exact ⟨⟨readErr, call.1⟩, counted⟩
      | true => cases step; exact ⟨call, counted⟩
    | _ => cases step
  | writing type chunk readErr =>
    cases e with
    | write n ok =>
      obtain ⟨⟨-, full⟩, made⟩ := Option.ite_none_right_eq_some.1 step
      cases made
      obtain ⟨ahead, split⟩ := call
      refine ⟨⟨ahead, fun succeeded => ?_⟩, ?_⟩
      · have all : n = chunk.length := full (by simpa using succeeded)
        subst all
        simpa using split
      · simp only [RelayState.uncounted] at counted ⊢
        omega
    | _ => cases step
  | adding type n writeErr readErr =>
    cases e with
    | add =>
      cases step
      obtain ⟨ahead, same⟩ := call
      cases writeErr with
      | true => exact ⟨⟨readErr, ahead⟩, counted⟩
      | false =>
        refine ⟨after_atCall (s := ⟨_, _, _, _, _, _, _⟩) ahead (same rfl), ?_⟩
        rw [uncounted_after type readErr rfl]
        exact counted
    | _ => cases step
  | closing type =>
    cases e with
    | close ok =>
      cases step
      obtain ⟨ahead, same⟩ : received = completed ++ [(⟨type, read⟩ : Message)] ∧ read = sent := call
      subst same
      cases ok with
      | false => exact ⟨ahead ▸ List.prefix_append _ _, counted⟩
      | true => exact ⟨ahead, counted⟩
    | _ => cases step
  | aborting type =>
    cases e with
    | close ok =>
      cases step
      obtain ⟨readErr, ahead⟩ : ∃ readErr : ReadErr,
          received = completed ++ readErr.completes type read := call
      cases ok with
      | false => exact ⟨ahead ▸ List.prefix_append _ _, counted⟩
      | true =>
        have same : received = completed ++ [(⟨type, sent⟩ : Message)] := whole
        exact ⟨same ▸ List.prefix_rfl, counted⟩
    | _ => cases step
  | returned => cases e <;> cases step

/-- Completing a message after an error that was not read to its end, or not written whole, is
forging one. -/
theorem faithful_iff_whole (inv : Inv s) (step : relay.step s e = some s') :
    Faithful s' ↔ ClosesWhole s e := by
  refine ⟨fun faithful => ?_, fun whole => (inv_step inv whole step).faithful⟩
  unfold ClosesWhole
  split
  · rename_i type phase
    obtain ⟨readErr, ahead⟩ : ∃ readErr, Ahead s type readErr := by
      have call := inv.call
      rwa [phase] at call
    simp only [relay, RelayState.step, phase, if_true, Option.some.injEq] at step
    subst step
    have front := faithful.1
    rw [Ahead] at ahead
    simp only at front
    cases readErr with
    | eof =>
      -- the same number of messages, so the same messages
      refine (front.eq_of_length ?_).symm
      simp [ahead, ReadErr.completes]
    | none | failed =>
      have longer := front.length_le
      simp only [ahead, ReadErr.completes, List.append_nil, List.length_append,
        List.length_singleton] at longer
      omega
  · trivial

/-- **When `relay` forges no message.** In every run in which no writer is closed after an error
over a message that was not read to its end and written whole, or closing it fails, the
destination's messages are in each state the first ones of the source's and every written byte
is counted. And the first such close ends in a state of which that is false. -/
theorem relay_faithful (es : List RelayEvent) (s : RelayState) (run : relay.run {} es = some s)
    (whole : relay.Along ClosesWhole {} es) :
    Faithful s ∧ ∀ e s', relay.step s e = some s' → (Faithful s' ↔ ClosesWhole s e) := by
  have init : Inv {} := ⟨rfl, rfl⟩
  have inv : Inv s := Machine.along_invariant inv_step init whole run
  exact ⟨inv.faithful, fun e s' step => faithful_iff_whole inv step⟩

/-- A message of two chunks, up to the second `Read`. -/
def halfway : List RelayEvent :=
  [.reader (some .text), .writer true, .read [104, 101] .none, .wait true, .write 2 true, .add]

/-- The message read to its end and copied. -/
theorem relay_faithful_whole :
    ∃ s, relay.run {} (halfway ++ [.read [121] .eof, .wait true, .write 1 true, .add, .close true]) =
      some s ∧ s.completed = [⟨.text, [104, 101, 121]⟩] ∧ Faithful s := by
  obtain ⟨s, run, completed⟩ := (Option.any_eq_true _ _).1
    (by decide +kernel : (relay.run {} (halfway ++
      [.read [121] .eof, .wait true, .write 1 true, .add, .close true])).any fun s =>
        decide (s.completed = [⟨.text, [104, 101, 121]⟩]))
  exact ⟨s, run, of_decide_eq_true completed, (relay_faithful _ s run (by decide +kernel)).1⟩

/-- A source that fails in the middle of a message: its first part arrives as a message. -/
theorem half_message_forged :
    ¬ ∀ (es : List RelayEvent) (s : RelayState), relay.run {} es = some s → Faithful s := by
  intro claim
  obtain ⟨s, run, facts⟩ := (Option.any_eq_true _ _).1
    (by decide +kernel : (relay.run {} (halfway ++ [.read [] .failed, .close true])).any fun s =>
      decide (s.completed = [⟨.text, [104, 101]⟩]) && decide (s.received = []))
  simp only [Bool.and_eq_true, decide_eq_true_eq] at facts
  have front := (claim _ s run).1
  rw [facts.1, facts.2] at front
  exact absurd front (by decide)

end Arena.Truncated
