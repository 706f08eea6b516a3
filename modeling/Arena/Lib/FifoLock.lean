import Mathlib.Data.List.Basic

/-!
# A lock whose waiters enter in the order they came

`α` is what a call brings, `σ` where the holder stands in its critical section, `β` how a
call ended. The calls that still matter are the latest to end, the holder and the waiters;
`newest` is the last of them, and only a new call changes it: whoever enters the lock, and
however it leaves, the newest call is the one that ends last.
-/

namespace Arena.Lib

structure FifoLock (α σ β : Type*) where
  waiting : List α
  holder : Option (α × σ)
  latest : Option (α × β)

namespace FifoLock

variable {α σ β : Type*} {l l' : FifoLock α σ β} {a : α}

/-- Nobody has called yet. -/
def free : FifoLock α σ β := ⟨[], none, none⟩

/-- Nobody holds the lock or waits for it. -/
def Idle (l : FifoLock α σ β) : Prop := l.holder = none ∧ l.waiting = []

instance (l : FifoLock α σ β) : Decidable l.Idle :=
  inferInstanceAs (Decidable (l.holder = none ∧ l.waiting = []))

/-- A call that joins the queue. -/
def enqueue (a : α) (l : FifoLock α σ β) : FifoLock α σ β := { l with waiting := l.waiting ++ [a] }

/-- The holder goes on to another point of its critical section. -/
def move (x : σ) (l : FifoLock α σ β) : FifoLock α σ β :=
  { l with holder := l.holder.map fun h => (h.1, x) }

/-- The first waiter enters. -/
def acquire (x : σ) (l : FifoLock α σ β) : FifoLock α σ β :=
  match l.waiting with
  | [] => l
  | a :: rest => { l with waiting := rest, holder := some (a, x) }

/-- The holder leaves. -/
def release (b : β) (l : FifoLock α σ β) : FifoLock α σ β :=
  match l.holder with
  | none => l
  | some h => { l with holder := none, latest := some (h.1, b) }

/-- The calls that still matter, oldest first. -/
def calls (l : FifoLock α σ β) : List α :=
  l.latest.toList.map Prod.fst ++ l.holder.toList.map Prod.fst ++ l.waiting

def newest (l : FifoLock α σ β) : Option α := l.calls.getLast?

section Holder

variable {x y : σ} {b : β} {rest : List α}

theorem holder_acquire (waits : l.waiting = a :: rest) : (l.acquire x).holder = some (a, x) := by
  simp [acquire, waits]

theorem holder_move (held : l.holder = some (a, y)) : (l.move x).holder = some (a, x) := by
  simp [move, held]

@[simp] theorem holder_release : (l.release b).holder = none := by
  cases h : l.holder <;> simp [release, h]

theorem latest_release (held : l.holder = some (a, y)) : (l.release b).latest = some (a, b) := by
  simp [release, held]

end Holder

/-! ## Two levels of one lock -/

section Map

variable {α' σ' : Type*} {f : α → α'} {g : σ → σ'} {x y : σ} {b : β}

/-- The lock with other calls and other places. -/
def map (f : α → α') (g : σ → σ') (l : FifoLock α σ β) : FifoLock α' σ' β :=
  ⟨l.waiting.map f, l.holder.map (Prod.map f g), l.latest.map (Prod.map f id)⟩

theorem map_enqueue : (l.enqueue a).map f g = (l.map f g).enqueue (f a) := by simp [map, enqueue]

theorem map_move : (l.move x).map f g = (l.map f g).move (g x) := by
  cases l.holder <;> simp [map, move, Function.comp_def]

theorem map_acquire : (l.acquire x).map f g = (l.map f g).acquire (g x) := by
  cases waits : l.waiting <;> simp [map, acquire, waits]

theorem map_release : (l.release b).map f g = (l.map f g).release b := by
  cases held : l.holder <;> simp [map, release, held]

theorem move_move : (l.move x).move y = l.move y := by
  simp [move, Function.comp_def]

theorem move_self (held : l.holder = some (a, x)) : l.move x = l := by
  cases l
  simp_all [move]

end Map

@[simp] theorem newest_enqueue : (l.enqueue a).newest = some a := by
  have last : (l.enqueue a).calls = l.calls ++ [a] := by simp [calls, enqueue]
  simp [newest, last]

@[simp] theorem newest_move {x : σ} : (l.move x).newest = l.newest := by
  have same : (l.move x).calls = l.calls := by
    cases h : l.holder <;> simp [calls, move, h]
  rw [newest, same, newest]

/-- Entering a free lock changes no order. -/
theorem newest_acquire {x : σ} (free : l.holder = none) : (l.acquire x).newest = l.newest := by
  have same : (l.acquire x).calls = l.calls := by
    cases h : l.waiting <;> simp [calls, acquire, h, free]
  rw [newest, same, newest]

/-- The call that ends takes the place of the one that ended before it. -/
@[simp] theorem newest_release {b : β} : (l.release b).newest = l.newest := by
  cases h : l.holder with
  | none => simp [release, h]
  | some held =>
    have after : (l.release b).calls = held.1 :: l.waiting := by simp [calls, release, h]
    have before : l.calls = l.latest.toList.map Prod.fst ++ held.1 :: l.waiting := by
      simp [calls, h]
    rw [newest, after, newest, before, List.getLast?_append]
    cases hw : (held.1 :: l.waiting).getLast? with
    | none => simp at hw
    | some last => rfl

/-- On an idle lock the newest call is the latest to have ended. -/
theorem newest_of_idle (idle : l.Idle) : l.newest = l.latest.map Prod.fst := by
  obtain ⟨free, nobody⟩ := idle
  cases h : l.latest <;> simp [newest, calls, free, nobody, h]

end FifoLock

end Arena.Lib
