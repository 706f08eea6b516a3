import Mathlib.Algebra.Order.Ring.Defs
import Mathlib.Tactic.Linarith
import Mathlib.Tactic.Ring
import Arena.Lib.Runs

/-!
# Metered machines

A machine with a clock grants amounts. It is metered at a rate when some level of credit, never
negative and never over one unit of time's worth, pays for every grant and grows no faster than
the rate. Then no window of time sees more granted than the credit at its start and the growth
in it, whatever else the machine does.
-/

namespace Arena.Lib

/-- **The potential rule**: what the steps weigh is paid for by a quantity that they lower. -/
theorem Machine.run_potential {σ ε M : Type*} [AddCommMonoid M] [PartialOrder M] [IsOrderedAddMonoid M]
    {m : Machine σ ε} {ok : σ → ε → Prop} {I : σ → Prop} {Φ : σ → M} {w : σ → ε → M}
    (keep : ∀ {s e s'}, I s → ok s e → m.step s e = some s' → I s')
    (pays : ∀ {s e s'}, I s → ok s e → m.step s e = some s' → w s e + Φ s' ≤ Φ s)
    {s s' : σ} {es : List ε} (init : I s) (along : m.Along ok s es) (run : m.run s es = some s') :
    m.total w s es + Φ s' ≤ Φ s := by
  induction es generalizing s with
  | nil => cases run; simp [total]
  | cons e es ih =>
    obtain ⟨t, step, rest⟩ := run_cons.1 run
    have later := ih (keep init along.1 step) (along.2 t step) rest
    simp only [total, step]
    calc w s e + m.total w t es + Φ s' = w s e + (m.total w t es + Φ s') := add_assoc _ _ _
      _ ≤ w s e + Φ t := add_le_add_right later _
      _ ≤ Φ s := pays init along.1 step

variable {σ ε K : Type*} [Field K] [LinearOrder K] [IsStrictOrderedRing K]

/-- The level pays for the grants of the steps that meet `ok`, from states of the invariant. -/
structure Metered (m : Machine σ ε) (I : σ → Prop) (ok : ε → Prop) (clock level : σ → K)
    (grant : σ → ε → K) (rate : K) : Prop where
  keep {s e s'} : I s → ok e → m.step s e = some s' → I s'
  bounds {s} : I s → 0 ≤ level s ∧ level s ≤ rate
  forward {s e s'} : I s → ok e → m.step s e = some s' → clock s ≤ clock s'
  /-- A grant takes no time. -/
  still {s e s'} : I s → ok e → m.step s e = some s' → grant s e = 0 ∨ clock s' = clock s
  pays {s e s'} : I s → ok e → m.step s e = some s' →
    grant s e + level s' ≤ level s + rate * (clock s' - clock s)

namespace Metered

variable {m : Machine σ ε} {I : σ → Prop} {ok : ε → Prop} {clock level : σ → K}
  {grant : σ → ε → K} {rate a b : K} {s s' : σ} {es : List ε}

/-- The grants of a step that fall into a window of time. -/
def within (clock : σ → K) (grant : σ → ε → K) (a b : K) (s : σ) (e : ε) : K :=
  if a ≤ clock s ∧ clock s ≤ b then grant s e else 0

omit [LinearOrder K] [IsStrictOrderedRing K] in
theorem total_cons {w : σ → ε → K} {e : ε} {t : σ} (step : m.step s e = some t) :
    m.total w s (e :: es) = w s e + m.total w t es := by
  simp [Machine.total, step]

omit [IsStrictOrderedRing K] in
/-- After the window nothing falls into it. -/
theorem total_after (met : Metered m I ok clock level grant rate) (init : I s)
    (all : ∀ e ∈ es, ok e) (run : m.run s es = some s') (after : b < clock s) :
    m.total (within clock grant a b) s es = 0 := by
  induction es generalizing s with
  | nil => rfl
  | cons e es ih =>
    obtain ⟨t, step, rest⟩ := Machine.run_cons.1 run
    have here : ok e := all e (by simp)
    have later : b < clock t := after.trans_le (met.forward init here step)
    have nothing : within clock grant a b s e = 0 := by simp [within, after.not_ge]
    rw [total_cons step, nothing, ih (met.keep init here step) (fun e h => all e (by simp [h])) rest later,
      add_zero]

/-- From inside the window, the level and what grows until its end. -/
theorem total_inside (met : Metered m I ok clock level grant rate) (init : I s)
    (all : ∀ e ∈ es, ok e) (run : m.run s es = some s') (opened : a ≤ clock s) (inside : clock s ≤ b) :
    m.total (within clock grant a b) s es ≤ level s + rate * (b - clock s) := by
  have credit : ∀ {s}, I s → clock s ≤ b → 0 ≤ level s + rate * (b - clock s) := by
    intro s init inside
    obtain ⟨nonneg, capped⟩ := met.bounds init
    exact add_nonneg nonneg (mul_nonneg (nonneg.trans capped) (sub_nonneg.2 inside))
  induction es generalizing s with
  | nil => exact credit init inside
  | cons e es ih =>
    obtain ⟨t, step, rest⟩ := Machine.run_cons.1 run
    have here : ok e := all e (by simp)
    have kept := met.keep init here step
    have forward := met.forward init here step
    have all' : ∀ e ∈ es, ok e := fun e h => all e (by simp [h])
    have counted : within clock grant a b s e = grant s e := if_pos ⟨opened, inside⟩
    rw [total_cons step, counted]
    by_cases still_inside : clock t ≤ b
    · have later := ih kept all' rest (opened.trans forward) still_inside
      have pays := met.pays init here step
      calc grant s e + m.total (within clock grant a b) t es
          ≤ grant s e + level t + rate * (b - clock t) := by linarith
        _ ≤ level s + rate * (clock t - clock s) + rate * (b - clock t) := by linarith
        _ = level s + rate * (b - clock s) := by ring
    · -- the step left the window, so it took time and granted nothing
      have left : b < clock t := not_le.1 still_inside
      have nothing : grant s e = 0 :=
        (met.still init here step).resolve_right fun same => absurd (same ▸ inside) still_inside
      rw [nothing, met.total_after kept all' rest left, add_zero]
      exact credit init inside

/-- **The window rule.** -/
theorem total_within (met : Metered m I ok clock level grant rate) (init : I s)
    (all : ∀ e ∈ es, ok e) (run : m.run s es = some s') (window : a ≤ b) :
    m.total (within clock grant a b) s es ≤ rate + rate * (b - a) := by
  have positive : 0 ≤ rate := (met.bounds init).1.trans (met.bounds init).2
  have room : 0 ≤ rate + rate * (b - a) :=
    add_nonneg positive (mul_nonneg positive (sub_nonneg.2 window))
  induction es generalizing s with
  | nil => exact room
  | cons e es ih =>
    rcases lt_or_ge (clock s) a with before | opened
    · obtain ⟨t, step, rest⟩ := Machine.run_cons.1 run
      have here : ok e := all e (by simp)
      have nothing : within clock grant a b s e = 0 := if_neg fun h => absurd h.1 before.not_ge
      rw [total_cons step, nothing, zero_add]
      exact ih (met.keep init here step) (fun e h => all e (by simp [h])) rest
    · rcases le_or_gt (clock s) b with inside | after
      · have within_window := met.total_inside init all run opened inside
        have capped := (met.bounds init).2
        have shorter : rate * (b - clock s) ≤ rate * (b - a) :=
          mul_le_mul_of_nonneg_left (by linarith) positive
        linarith
      · rw [met.total_after init all run after]
        exact room

end Metered

end Arena.Lib
