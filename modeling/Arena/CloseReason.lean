import Arena.Model.EdgeSteps

/-!
# Whose reason an ended session shows

A heartbeat that orders termination writes why into the session's row, which stays open. What
ends the row afterwards writes a reason of its own over it: the close request the one that the
gateway derived from its relay, the sweep its time-out. The gateway decodes the reason of the
heartbeat and does not look at it.
-/

namespace Arena.CloseReason

open Arena.Lib Arena.Model

variable {cfg : Settings} {c : Route} {s s' : Edge} {m : Move}

/-- The reasons that `handleWebSocket` sends. -/
def gatewayReasons : List String :=
  ["upstream_unavailable", "upgrade_failed", "client_closed", "transport_closed"]

/-- The reasons of the gateway and of the sweep. -/
def endReasons : List String := "heartbeat_timeout" :: gatewayReasons

/-- The step gives a close request only a reason that the handler has at this point. -/
def Honest : Move → Prop
  | .unavailable reason => reason = "upstream_unavailable" ∨ reason = "upgrade_failed"
  | .cancel reason => reason = "client_closed" ∨ reason = "transport_closed"
  | _ => True

instance : DecidablePred Honest
  | .unavailable _ | .cancel _ => inferInstanceAs (Decidable (_ ∨ _))
  | .other _ | .established | .write .. | .add _ | .relayStop _ | .tick | .swapDown | .beatHandled |
    .beatReplied | .beatFailed _ | .addUp | .addDown | .beatDone | .closeUp | .closeDown | .closeHandled |
    .closeDone _ | .lateHandled _ => inferInstanceAs (Decidable True)

/-- A heartbeat has ordered termination of the open session. -/
structure Ordered (r : ConnectionSession) (reason : Reason) : Prop where
  isOpen : r.isOpen
  blocked : r.status = .blocked
  closeReason : r.closeReason = reason.text
  denied : reason ≠ .allowed

/-- The reason that the handler will send, once it has one. -/
def mainReason : Main → Option String
  | .cancelled reason | .swapped reason _ | .closing reason .. => some reason
  | _ => none

/-- The reason of a request that was given up. -/
def lateReason : Abandoned → Option String
  | .close _ _ reason => some reason
  | .heartbeat .. => none

/-- What a connection will write, or has written, when it ends. -/
structure Inv (c : Route) (s : Edge) : Prop where
  drawn : c.session ∈ s.plane.issued
  main : ∀ reason ∈ mainReason s.main, reason ∈ gatewayReasons
  late : ∀ r ∈ s.abandoned, ∀ reason ∈ lateReason r, reason ∈ gatewayReasons
  ended : ∀ r, s.row c = some r → r.isOpen = false → r.closeReason ∈ endReasons

/-! ## Steps -/

theorem inv_of_fresh (fresh : s.Fresh c) : Inv c s := by
  obtain ⟨⟨plane, rfl⟩, drawn, row, found, -, opened, -⟩ := fresh
  refine ⟨drawn, by simp [mainReason], by simp, fun r here ended => ?_⟩
  cases found.symm.trans here
  rw [opened] at ended
  cases ended

/-- A request that is handled ends the session with its own reason, or not at all. -/
theorem ended_serve (ended : ∀ r, s.row c = some r → r.isOpen = false → r.closeReason ∈ endReasons)
    (a : Abandoned) (own : ∀ reason ∈ lateReason a, reason ∈ gatewayReasons) :
    ∀ r, (s.serve cfg c (c.event a)).row c = some r → r.isOpen = false → r.closeReason ∈ endReasons := by
  intro r here shut
  cases a with
  | heartbeat up down =>
    rcases Edge.serve_heartbeat cfg c s up down with ⟨-, row, -⟩ | ⟨x, verdict, reply, -, opened, row, -⟩
    · exact ended r (row.symm.trans here) shut
    · cases row.symm.trans here
      rw [ConnectionSession.heard_isOpen, opened] at shut
      cases shut
  | close up down reason =>
    rcases Edge.serve_close cfg c s up down reason with ⟨-, row, -⟩ | ⟨x, -, -, row, -⟩
    · exact ended r (row.symm.trans here) shut
    · cases row.symm.trans here
      exact List.mem_cons_of_mem _ (own reason rfl)

theorem drawn_serve {e : Event} (drawn : c.session ∈ s.plane.issued) :
    c.session ∈ (s.serve cfg c e).plane.issued := drawn

/-- **The step lemma.** -/
theorem Inv.step (inv : Inv c s) (honest : Honest m) (h : (edge cfg c).step s m = some s') : Inv c s' := by
  obtain ⟨drawn, main, late, ended⟩ := inv
  have given {a : Abandoned} {given : Bool} (own : ∀ reason ∈ lateReason a, reason ∈ gatewayReasons) :
      ∀ r ∈ (s.abandon given a).abandoned, ∀ reason ∈ lateReason r, reason ∈ gatewayReasons := by
    intro r mem
    rcases Edge.mem_abandon mem with mem | ⟨-, rfl⟩
    · exact late r mem
    · exact own
  cases Edge.step_inv h with
  | other e p foreign step =>
    refine ⟨?_, main, late, fun r here shut => ?_⟩
    · obtain ⟨-, rfl⟩ := plane_step.1 step
      exact List.mem_append_right _ drawn
    · cases row_step step drawn foreign with
      | kept _ same => exact ended r (same.symm.trans here) shut
      | swept newId q row was stale finished =>
        cases finished.symm.trans here
        exact List.mem_cons_self
      | deleted name row was gone => cases gone.symm.trans here
  | established => exact ⟨drawn, by simp [mainReason], late, ended⟩
  | unavailable reason here =>
    refine ⟨drawn, fun r mem => ?_, late, ended⟩
    obtain rfl : reason = r := by simpa [mainReason] using mem
    rcases honest with rfl | rfl <;> decide
  | beatHandled up down here =>
    exact ⟨drawn_serve drawn, main, late, ended_serve ended (.heartbeat up down) (by simp [lateReason])⟩
  | beatFailed given' up down reply here => exact ⟨drawn, main, given (by simp [lateReason]), ended⟩
  | cancel reason d here =>
    refine ⟨drawn, fun r mem => ?_, late, ended⟩
    obtain rfl : reason = r := by simpa [mainReason] using mem
    rcases honest with rfl | rfl <;> decide
  | closeUp reason here => exact ⟨drawn, fun r mem => main r (by rw [here]; exact mem), late, ended⟩
  | closeDown reason up here => exact ⟨drawn, fun r mem => main r (by rw [here]; exact mem), late, ended⟩
  | closeHandled reason up down here =>
    have own : ∀ r ∈ lateReason (.close up down reason), r ∈ gatewayReasons := fun r mem =>
      main r (by rw [here]; exact mem)
    exact ⟨drawn_serve drawn, fun r mem => main r (by rw [here]; exact mem), late,
      ended_serve ended (.close up down reason) own⟩
  | closeDone given' reason up down handled here =>
    have own : ∀ r ∈ lateReason (.close up down reason), r ∈ gatewayReasons := fun r mem =>
      main r (by rw [here]; exact mem)
    exact ⟨drawn, by simp [mainReason], given own, ended⟩
  | lateHandled i a here =>
    have mem := List.mem_of_getElem? here
    exact ⟨drawn_serve drawn, main, fun r rest => late r (List.mem_of_mem_eraseIdx rest),
      ended_serve ended a (late a mem)⟩
  | write | add | relayStop | tick | swapDown | terminated | continued | refused | addUp | addDown | beatDone =>
    exact ⟨drawn, main, late, ended⟩

/-! ## Runs -/

/-- No verdict of `user_allowed` is a reason of the gateway or of the sweep. -/
theorem text_notMem_endReasons (reason : Reason) : reason.text ∉ endReasons := by
  cases reason <;> decide

/-- **The reason of a policy termination is lost**: in every run of a connection in which a
heartbeat has ordered termination and the session has ended afterwards, the ended session shows a
reason of the gateway or of the sweep, and never the one of the heartbeat. -/
theorem policy_reason_lost (cfg : Settings) (c : Route) (s₀ s₁ s₂ : Edge) (before after : List Move)
    (reason : Reason) (r₁ r₂ : ConnectionSession) (fresh : s₀.Fresh c)
    (honest : ∀ m ∈ before ++ after, Honest m) (run₁ : (edge cfg c).run s₀ before = some s₁)
    (ordered : s₁.row c = some r₁ ∧ Ordered r₁ reason) (run₂ : (edge cfg c).run s₁ after = some s₂)
    (ended : s₂.row c = some r₂ ∧ r₂.isOpen = false) :
    r₂.closeReason ∈ endReasons ∧ r₂.closeReason ≠ r₁.closeReason := by
  have run : (edge cfg c).run s₀ (before ++ after) = some s₂ := (Machine.run_append run₁).trans run₂
  have along := Machine.along_of_mem (m := edge cfg c) honest s₀
  have inv : Inv c s₂ :=
    Machine.along_invariant (fun inv ok h => Inv.step inv ok h) (inv_of_fresh fresh) along run
  have shown := inv.ended r₂ ended.1 ended.2
  have written := ordered.2.closeReason
  exact ⟨shown, fun same => text_notMem_endReasons reason (written ▸ same ▸ shown)⟩

/-- The connection of the tests uses up its quota, and its first heartbeat is told to terminate. -/
def exceeded : List Move :=
  [.established, .write .up (2 ^ 30), .add .up, .other (.tick 15000000), .tick, .swapDown, .beatHandled]

/-- The heartbeat cancels the relays, and the handler closes the session. -/
def closing : List Move :=
  [.beatReplied, .relayStop .up, .cancel "client_closed", .closeUp, .closeDown, .closeHandled]

theorem closing_honest : ∀ m ∈ exceeded ++ closing, Honest m := forall_mem_of_check (by decide +kernel)

/-- The run, with what its rows show on the way and in the end. -/
theorem closing_run : ∃ s₁ s₂ r₁ r₂, (edge {} firstRoute).run firstEdge exceeded = some s₁ ∧
    (s₁.row firstRoute = some r₁ ∧ Ordered r₁ .quotaExceeded) ∧
    (edge {} firstRoute).run s₁ closing = some s₂ ∧
    (s₂.row firstRoute = some r₂ ∧ r₂.isOpen = false) ∧ r₂.closeReason = "client_closed" := by
  obtain ⟨s₁, run₁, facts⟩ := (Option.any_eq_true _ _).1 (by decide +kernel :
    ((edge {} firstRoute).run firstEdge exceeded).any fun s₁ =>
      ((s₁.row firstRoute).any fun r₁ => r₁.isOpen && r₁.status = .blocked &&
        r₁.closeReason = Reason.quotaExceeded.text) &&
      ((edge {} firstRoute).run s₁ closing).any fun s₂ =>
        (s₂.row firstRoute).any fun r₂ => !r₂.isOpen && r₂.closeReason = "client_closed")
  obtain ⟨before, after⟩ := Bool.and_eq_true_iff.1 facts
  obtain ⟨r₁, row₁, facts₁⟩ := (Option.any_eq_true _ _).1 before
  obtain ⟨s₂, run₂, rest⟩ := (Option.any_eq_true _ _).1 after
  obtain ⟨r₂, row₂, facts₂⟩ := (Option.any_eq_true _ _).1 rest
  simp only [Bool.and_eq_true, decide_eq_true_eq, Bool.not_eq_true'] at facts₁ facts₂
  exact ⟨s₁, s₂, r₁, r₂, run₁, ⟨row₁, facts₁.1.1, facts₁.1.2, facts₁.2, by decide⟩, run₂,
    ⟨row₂, facts₂.1⟩, facts₂.2⟩

theorem policy_reason_lost_quota : ∃ r₁ r₂ : ConnectionSession, Ordered r₁ .quotaExceeded ∧ r₂.isOpen = false ∧
    r₂.closeReason ∈ endReasons ∧ r₂.closeReason ≠ r₁.closeReason := by
  obtain ⟨s₁, s₂, r₁, r₂, run₁, ordered, run₂, ended, -⟩ := closing_run
  exact ⟨r₁, r₂, ordered.2, ended.2, policy_reason_lost {} firstRoute firstEdge s₁ s₂ exceeded closing
    .quotaExceeded r₁ r₂ firstEdge_fresh closing_honest run₁ ordered run₂ ended⟩

/-- A session that was terminated for its quota ends as closed by the client. -/
theorem quota_shown_client_closed : ¬ ∀ (cfg : Settings) (c : Route) (s₀ s₁ s₂ : Edge)
    (before after : List Move) (reason : Reason) (r₁ r₂ : ConnectionSession), s₀.Fresh c →
      (∀ m ∈ before ++ after, Honest m) → (edge cfg c).run s₀ before = some s₁ →
      (s₁.row c = some r₁ ∧ Ordered r₁ reason) → (edge cfg c).run s₁ after = some s₂ →
      (s₂.row c = some r₂ ∧ r₂.isOpen = false) → r₂.closeReason = reason.text := by
  intro claim
  obtain ⟨s₁, s₂, r₁, r₂, run₁, ordered, run₂, ended, shown⟩ := closing_run
  have kept := claim {} firstRoute firstEdge s₁ s₂ exceeded closing .quotaExceeded r₁ r₂ firstEdge_fresh
    closing_honest run₁ ordered run₂ ended
  rw [shown] at kept
  exact absurd kept (by decide)

end Arena.CloseReason
