import Mathlib.Algebra.BigOperators.Group.List.Basic
import Mathlib.Data.List.Induction
import Mathlib.Tactic.Abel

/-!
# Runs of a labelled machine

A `Machine` is a partial step function: the label of a step names every choice the
environment makes, so a run is a list of labels and a concrete run can be evaluated.
`run_invariant` and `along_invariant` are the induction over a run, done once, and
`history_invariant` is the one for a property of the labels so far and the state;
`run_total` is the same induction for a quantity that each step changes by a known
amount (a ledger and the postings that explain its balance).
-/

namespace Arena.Lib

/-- A partial step function over labels; `none` means that the step is not enabled. -/
structure Machine (σ ε : Type*) where
  step : σ → ε → Option σ

namespace Machine

variable {σ ε : Type*} (m : Machine σ ε)

/-- The state a list of labels leads to, when every step of it is enabled. -/
def run : σ → List ε → Option σ
  | s, [] => some s
  | s, e :: es => (m.step s e).bind fun s' => run s' es

/-- Some run leads from one state to the other. -/
def Reaches (s s' : σ) : Prop := ∃ es, m.run s es = some s'

/-- Each step of the run from `s` along `es` meets `ok`, a condition on the state
before the step and its label. -/
def Along (ok : σ → ε → Prop) : σ → List ε → Prop
  | _, [] => True
  | s, e :: es => ok s e ∧ ∀ s', m.step s e = some s' → Along ok s' es

/-- `Along` can be evaluated on a concrete run. -/
instance decidableAlong (ok : σ → ε → Prop) [∀ s e, Decidable (ok s e)] :
    ∀ (s : σ) (es : List ε), Decidable (m.Along ok s es)
  | _, [] => inferInstanceAs (Decidable True)
  | s, e :: es =>
    have rest : Decidable (∀ s', m.step s e = some s' → m.Along ok s' es) :=
      match m.step s e with
      | none => isTrue fun _ h => by cases h
      | some t => match decidableAlong ok t es with
        | isTrue h => isTrue fun s' hs => by cases hs; exact h
        | isFalse h => isFalse fun all => h (all t rfl)
    inferInstanceAs (Decidable (_ ∧ _))

/-- The sum of a weight over the steps of a run. -/
def total {M : Type*} [AddCommMonoid M] (w : σ → ε → M) : σ → List ε → M
  | _, [] => 0
  | s, e :: es => match m.step s e with
    | none => 0
    | some s' => w s e + total w s' es

variable {m}

@[simp] theorem run_nil (s : σ) : m.run s [] = some s := rfl

theorem run_cons {s s' : σ} {e : ε} {es : List ε} :
    m.run s (e :: es) = some s' ↔ ∃ t, m.step s e = some t ∧ m.run t es = some s' := by
  simp [run, Option.bind_eq_some_iff]

theorem run_append {s t : σ} {es fs : List ε} (h : m.run s es = some t) :
    m.run s (es ++ fs) = m.run t fs := by
  induction es generalizing s with
  | nil => cases h; rfl
  | cons e es ih =>
    obtain ⟨u, hu, ht⟩ := run_cons.1 h
    simp only [List.cons_append, run, hu, Option.bind_some]
    exact ih ht

theorem run_snoc {s s' : σ} {es : List ε} {e : ε} :
    m.run s (es ++ [e]) = some s' ↔ ∃ t, m.run s es = some t ∧ m.step t e = some s' := by
  induction es generalizing s with
  | nil => simp [run]
  | cons a es ih => simp only [List.cons_append, run_cons, ih]; grind

/-- **The invariant rule**, for runs whose steps all meet `ok`. -/
theorem along_invariant {ok : σ → ε → Prop} {I : σ → Prop}
    (step : ∀ {s e s'}, I s → ok s e → m.step s e = some s' → I s') {s s' : σ} {es : List ε}
    (init : I s) (along : m.Along ok s es) (run : m.run s es = some s') : I s' := by
  induction es generalizing s with
  | nil => cases run; exact init
  | cons e es ih =>
    obtain ⟨t, ht, rest⟩ := run_cons.1 run
    exact ih (step init along.1 ht) (along.2 t ht) rest

/-- A condition on the labels alone, met by each label of the list. -/
theorem along_of_mem {ok : ε → Prop} {es : List ε} (h : ∀ e ∈ es, ok e) (s : σ) :
    m.Along (fun _ e => ok e) s es := by
  induction es generalizing s with
  | nil => trivial
  | cons e es ih =>
    exact ⟨h e (by simp), fun s' _ => ih (fun a ha => h a (by simp [ha])) s'⟩

theorem along_of_forall {ok : σ → ε → Prop} (h : ∀ s e, ok s e) (s : σ) (es : List ε) :
    m.Along ok s es := by
  induction es generalizing s with
  | nil => trivial
  | cons e es ih => exact ⟨h s e, fun s' _ => ih s'⟩

theorem Along.mono {ok ok' : σ → ε → Prop} (h : ∀ s e, ok s e → ok' s e) {s : σ} {es : List ε}
    (along : m.Along ok s es) : m.Along ok' s es := by
  induction es generalizing s with
  | nil => trivial
  | cons e es ih => exact ⟨h s e along.1, fun s' hs => ih (along.2 s' hs)⟩

theorem Along.and {ok ok' : σ → ε → Prop} {s : σ} {es : List ε} (h : m.Along ok s es)
    (h' : m.Along ok' s es) : m.Along (fun s e => ok s e ∧ ok' s e) s es := by
  induction es generalizing s with
  | nil => trivial
  | cons e es ih => exact ⟨⟨h.1, h'.1⟩, fun s' hs => ih (h.2 s' hs) (h'.2 s' hs)⟩

/-- A prefix of a run whose steps meet `ok` is such a run. -/
theorem Along.left {ok : σ → ε → Prop} {s : σ} {es fs : List ε}
    (along : m.Along ok s (es ++ fs)) : m.Along ok s es := by
  induction es generalizing s with
  | nil => trivial
  | cons e es ih => exact ⟨along.1, fun s' hs => ih (along.2 s' hs)⟩

/-- The rest of a run whose steps meet `ok` is such a run. -/
theorem Along.right {ok : σ → ε → Prop} {s t : σ} {es fs : List ε}
    (along : m.Along ok s (es ++ fs)) (run : m.run s es = some t) : m.Along ok t fs := by
  induction es generalizing s with
  | nil => cases run; exact along
  | cons e es ih =>
    obtain ⟨u, hu, rest⟩ := run_cons.1 run
    exact ih (along.2 u hu) rest

/-- A run in two parts whose steps meet `ok`. -/
theorem Along.append {ok : σ → ε → Prop} {s t : σ} {es fs : List ε} (first : m.Along ok s es)
    (run : m.run s es = some t) (second : m.Along ok t fs) : m.Along ok s (es ++ fs) := by
  induction es generalizing s with
  | nil => cases run; exact second
  | cons e es ih =>
    obtain ⟨u, hu, rest⟩ := run_cons.1 run
    refine ⟨first.1, fun s' hs => ?_⟩
    obtain rfl : u = s' := Option.some.inj (hu.symm.trans hs)
    exact ih (first.2 u hu) rest

/-- One step that meets `ok`, and the rest of the run. -/
theorem Along.cons {ok : σ → ε → Prop} {s t : σ} {e : ε} {es : List ε} (here : ok s e)
    (step : m.step s e = some t) (rest : m.Along ok t es) : m.Along ok s (e :: es) := by
  refine ⟨here, fun s' hs => ?_⟩
  obtain rfl : t = s' := Option.some.inj (step.symm.trans hs)
  exact rest

/-- **The invariant rule**, for all runs. -/
theorem run_invariant {I : σ → Prop} (step : ∀ {s e s'}, I s → m.step s e = some s' → I s')
    {s s' : σ} (init : I s) (reach : m.Reaches s s') : I s' := by
  obtain ⟨es, run⟩ := reach
  have along : m.Along (fun _ _ => True) s es := along_of_forall (fun _ _ => trivial) s es
  exact along_invariant (fun hs _ => step hs) init along run

/-- **The invariant rule with the labels so far**, for a property of the state and of the run that
led to it. -/
theorem history_invariant {ok : σ → ε → Prop} {s : σ} {I : List ε → σ → Prop} (init : I [] s)
    (step : ∀ {es e t t'}, m.run s es = some t → I es t → ok t e → m.step t e = some t' →
      I (es ++ [e]) t')
    {s' : σ} {es : List ε} (along : m.Along ok s es) (run : m.run s es = some s') : I es s' := by
  induction es using List.reverseRecOn generalizing s' with
  | nil => cases run; exact init
  | append_singleton es e ih =>
    obtain ⟨t, first, last⟩ := run_snoc.1 run
    exact step first (ih along.left first) (along.right first).1 last

section Ledger

variable {M : Type*} [AddCommMonoid M]

/-- The total of a run in two parts. -/
theorem total_append {w : σ → ε → M} {s t : σ} {es fs : List ε} (run : m.run s es = some t) :
    m.total w s (es ++ fs) = m.total w s es + m.total w t fs := by
  induction es generalizing s with
  | nil => cases run; simp [total]
  | cons e es ih =>
    obtain ⟨u, hu, rest⟩ := run_cons.1 run
    simp only [List.cons_append, total, hu, ih rest, add_assoc]

theorem total_snoc {w : σ → ε → M} {s t t' : σ} {es : List ε} {e : ε} (run : m.run s es = some t)
    (step : m.step t e = some t') : m.total w s (es ++ [e]) = m.total w s es + w t e := by
  rw [total_append run]
  simp [total, step]

theorem total_add {w w' : σ → ε → M} (s : σ) (es : List ε) :
    m.total (fun s e => w s e + w' s e) s es = m.total w s es + m.total w' s es := by
  induction es generalizing s with
  | nil => simp [total]
  | cons e es ih =>
    cases step : m.step s e with
    | none => simp [total, step]
    | some t =>
      simp only [total, step, ih]
      abel

/-- **The ledger rule with losses**: each step into a live state changes the quantity by what it
gains less what it loses. -/
theorem run_balance {ok : σ → ε → Prop} {I live : σ → Prop} {Φ : σ → M} {gain loss : σ → ε → M}
    (keep : ∀ {s e s'}, I s → ok s e → m.step s e = some s' → I s')
    (back : ∀ {s e s'}, I s → ok s e → m.step s e = some s' → live s' → live s)
    (post : ∀ {s e s'}, I s → ok s e → m.step s e = some s' → live s' →
      Φ s' + loss s e = Φ s + gain s e)
    {s s' : σ} {es : List ε} (init : I s) (along : m.Along ok s es)
    (run : m.run s es = some s') (alive : live s') :
    live s ∧ Φ s' + m.total loss s es = Φ s + m.total gain s es := by
  induction es generalizing s with
  | nil => cases run; exact ⟨alive, by simp [total]⟩
  | cons e es ih =>
    obtain ⟨t, ht, rest⟩ := run_cons.1 run
    obtain ⟨live_t, sum⟩ := ih (keep init along.1 ht) (along.2 t ht) rest
    refine ⟨back init along.1 ht live_t, ?_⟩
    have here := post init along.1 ht live_t
    simp only [total, ht]
    calc Φ s' + (loss s e + m.total loss t es) = Φ s' + m.total loss t es + loss s e := by abel
      _ = Φ t + loss s e + m.total gain t es := by rw [sum]; abel
      _ = Φ s + (gain s e + m.total gain t es) := by rw [here]; abel

/-- **The ledger rule**: along steps that meet `ok` from states of the invariant `I`, a
quantity that each step into a live state changes by the step's weight has changed by the
sum of the weights, when the run ends live. A state is live only after live states, so a
quantity that is lost with its owner is still accounted for while the owner is there. -/
theorem run_total {ok : σ → ε → Prop} {I live : σ → Prop} {Φ : σ → M} {w : σ → ε → M}
    (keep : ∀ {s e s'}, I s → ok s e → m.step s e = some s' → I s')
    (back : ∀ {s e s'}, I s → ok s e → m.step s e = some s' → live s' → live s)
    (post : ∀ {s e s'}, I s → ok s e → m.step s e = some s' → live s' → Φ s' = Φ s + w s e)
    {s s' : σ} {es : List ε} (init : I s) (along : m.Along ok s es)
    (run : m.run s es = some s') (alive : live s') : live s ∧ Φ s' = Φ s + m.total w s es := by
  induction es generalizing s with
  | nil => cases run; exact ⟨alive, by simp [total]⟩
  | cons e es ih =>
    obtain ⟨t, ht, rest⟩ := run_cons.1 run
    obtain ⟨live_t, sum⟩ := ih (keep init along.1 ht) (along.2 t ht) rest
    refine ⟨back init along.1 ht live_t, ?_⟩
    rw [sum, post init along.1 ht live_t]
    simp only [total, ht]
    abel

end Ledger

end Machine

end Arena.Lib
