import Mathlib.Data.Option.Basic
import Arena.Lib.Runs

/-!
# Forward simulation

Two levels of one system, or two histories of it: a relation between the states that each
step of the first keeps while the second takes the steps in the image of its label, which may
be none. `simulation` is the induction over the run. `image` depends on the state before the
step, as a label of the second machine may name what the first one computed.

`Parallel` is the same for two computations that may raise: the same exception, or related
results.
-/

namespace Arena.Lib

namespace Machine

variable {σ τ ε δ : Type*} {m : Machine σ ε} {n : Machine τ δ}

/-- The labels of the second machine, for a run of the first. -/
def image (m : Machine σ ε) (f : σ → ε → List δ) : σ → List ε → List δ
  | _, [] => []
  | s, e :: es => f s e ++ match m.step s e with
    | none => []
    | some s' => image m f s' es

/-- **The simulation rule**, for runs whose steps all meet `ok`. -/
theorem simulation {R : σ → τ → Prop} {ok : σ → ε → Prop} {f : σ → ε → List δ}
    (step : ∀ {s t e s'}, R s t → ok s e → m.step s e = some s' →
      ∃ t', n.run t (f s e) = some t' ∧ R s' t')
    {s s' : σ} {t : τ} {es : List ε} (init : R s t) (along : m.Along ok s es)
    (run : m.run s es = some s') : ∃ t', n.run t (m.image f s es) = some t' ∧ R s' t' := by
  induction es generalizing s t with
  | nil => cases run; exact ⟨t, rfl, init⟩
  | cons e es ih =>
    obtain ⟨u, hu, rest⟩ := run_cons.1 run
    obtain ⟨v, first, related⟩ := step init along.1 hu
    obtain ⟨t', second, last⟩ := ih related (along.2 u hu) rest
    refine ⟨t', ?_, last⟩
    simp only [image, hu]
    rw [run_append first]
    exact second

/-- Labels whose image does not depend on the state. -/
theorem image_flatMap {f : ε → List δ} {s s' : σ} {es : List ε} (run : m.run s es = some s') :
    m.image (fun _ e => f e) s es = es.flatMap f := by
  induction es generalizing s with
  | nil => rfl
  | cons e es ih =>
    obtain ⟨u, hu, rest⟩ := run_cons.1 run
    simp only [image, hu, ih rest, List.flatMap_cons]

/-- A run is read off its image, when each label is read off its own. -/
theorem flatMap_image {f : σ → ε → List δ} {g : δ → List ε} (back : ∀ s e, (f s e).flatMap g = [e]) {s s' : σ}
    {es : List ε} (run : m.run s es = some s') : (m.image f s es).flatMap g = es := by
  induction es generalizing s with
  | nil => rfl
  | cons e es ih =>
    obtain ⟨u, hu, rest⟩ := run_cons.1 run
    simp only [image, hu, List.flatMap_append, back, ih rest, List.singleton_append]

/-- Labels that the second machine shares with the first, but for those it leaves out. -/
theorem image_filter {p : ε → Bool} {s s' : σ} {es : List ε} (run : m.run s es = some s') :
    m.image (fun _ e => if p e then [e] else []) s es = es.filter p := by
  induction es generalizing s with
  | nil => rfl
  | cons e es ih =>
    obtain ⟨u, hu, rest⟩ := run_cons.1 run
    simp only [image, hu, ih rest]
    by_cases kept : p e <;> simp [kept]

end Machine

/-! ## Computations that may fail -/

/-- Two statements that are accepted together. -/
theorem rel_of_isSome {α β : Type*} {R : α → β → Prop} {x : Option α} {y : Option β}
    (same : x.isSome ↔ y.isSome) (related : ∀ a b, x = some a → y = some b → R a b) :
    Option.Rel R x y := by
  cases x with
  | none => cases y with
    | none => exact .none
    | some b => simp at same
  | some a => cases y with
    | none => simp at same
    | some b => exact .some (related a b rfl rfl)

theorem rel_cases {α β : Type*} {R : α → β → Prop} {x : Option α} {y : Option β}
    (h : Option.Rel R x y) :
    (x = none ∧ y = none) ∨ ∃ a b, x = some a ∧ y = some b ∧ R a b := by
  cases h with
  | none => exact .inl ⟨rfl, rfl⟩
  | some related => exact .inr ⟨_, _, rfl, rfl, related⟩

/-- The same exception, or related results. -/
inductive Parallel {ε α β : Type} (R : α → β → Prop) : Except ε α → Except ε β → Prop
  | ok {a : α} {b : β} (related : R a b) : Parallel R (.ok a) (.ok b)
  | error (e : ε) : Parallel R (.error e) (.error e)

namespace Parallel

variable {ε α β α' β' : Type} {R : α → β → Prop} {S : α' → β' → Prop}

theorem of_eq {x y : Except ε α} (h : x = y) : Parallel Eq x y := by
  subst h
  cases x with
  | error e => exact .error e
  | ok a => exact .ok rfl

theorem bind {x : Except ε α} {y : Except ε β} {f : α → Except ε α'} {g : β → Except ε β'}
    (first : Parallel R x y) (rest : ∀ a b, R a b → Parallel S (f a) (g b)) :
    Parallel S (x >>= f) (y >>= g) := by
  cases first with
  | ok related => exact rest _ _ related
  | error e => exact .error e

/-- What both leave when an exception leaves everything as it was. -/
theorem getD {x y : Except ε α} {R : α → α → Prop} {a b : α} (h : Parallel R x y) (old : R a b) :
    R (x.toOption.getD a) (y.toOption.getD b) := by
  cases h with
  | ok related => exact related
  | error e => exact old

end Parallel

end Arena.Lib
