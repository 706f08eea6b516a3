import Mathlib.Data.Rat.Floor
import Mathlib.Logic.Function.Basic
import Arena.Lib.Runs
import Arena.Model.Schema

/-!
# The gateway's rate limiter

`gateway/internal/limiter/limiter.go` over exact arithmetic: a `Bucket` per user, shared by the
user's connections through the `Registry`, and the loop of `Wait`, which tries, sleeps and tries
again. Each method holds the bucket's lock from reading the clock on, so that their bodies are
steps of one machine. Time is in seconds, sleeps are in nanoseconds.
-/

namespace Arena.Model

open Arena.Lib

structure Bucket where
  rate : ℤ
  tokens : ℚ
  /-- `none` is the zero `Time`. -/
  last : Option ℚ

namespace Bucket

/-- `New`. -/
def new (rate : ℤ) (now : ℚ) : Bucket := ⟨rate, rate, some now⟩

/-- `refill`. -/
def refill (now : ℚ) (b : Bucket) : Bucket :=
  let last := b.last.getD now
  let tokens := b.tokens + (now - last) * b.rate
  { b with
    tokens := if 0 < b.rate then (if b.rate < tokens then b.rate else tokens) else b.tokens
    last := some now }

/-- `SetRate`. -/
def setRate (rate : ℤ) (now : ℚ) (b : Bucket) : Bucket :=
  let b := b.refill now
  { b with
    rate := rate
    tokens := if rate = 0 then 0 else if rate < b.tokens then rate else b.tokens }

/-- How one round of the loop in `Wait` ends. -/
inductive Outcome where
  | unlimited | granted
  | sleep (nanoseconds : ℤ)

/-- One round of the loop in `Wait`. -/
def attempt (bytes : ℤ) (now : ℚ) (b : Bucket) : Bucket × Outcome :=
  let b := b.refill now
  if b.rate ≤ 0 then (b, .unlimited)
  else if bytes ≤ b.tokens then ({ b with tokens := b.tokens - bytes }, .granted)
  else
    let missing := bytes - b.tokens
    (b, .sleep (max 1000000 ⌊missing / b.rate * 1000000000⌋))

/-- The bytes that a round lets through. -/
def Outcome.through (bytes : ℤ) : Outcome → ℤ
  | .sleep _ => 0
  | _ => bytes

end Bucket

/-- A call of `Wait` that sleeps. -/
structure WaitCall where
  user : Id
  bytes : ℤ
  wakeAt : ℚ

/-- The registry with its buckets, and the calls of `Wait` in progress. -/
structure Limiter where
  clock : ℚ
  buckets : Id → Option Bucket
  sleeping : ℕ → Option WaitCall

/-- `NewRegistry`. -/
def Limiter.initial (clock : ℚ) : Limiter := ⟨clock, fun _ => none, fun _ => none⟩

inductive LimiterEvent where
  | tick (elapsed : ℚ)
  | forUser (user : Id) (rate : ℤ)
  | setRate (user : Id) (rate : ℤ)
  /-- A connection of the user calls `Wait`. -/
  | wait (call : ℕ) (user : Id) (bytes : ℤ)
  /-- The timer of a call fires. -/
  | wake (call : ℕ)
  /-- The context of a call is done. -/
  | cancel (call : ℕ)

namespace Limiter

def setBucket (s : Limiter) (user : Id) (b : Bucket) : Limiter :=
  { s with buckets := Function.update s.buckets user (some b) }

/-- `ForUser`. -/
def forUser (s : Limiter) (user : Id) (rate : ℤ) : Limiter :=
  match s.buckets user with
  | none => s.setBucket user (Bucket.new rate s.clock)
  | some b => s.setBucket user (b.setRate rate s.clock)

/-- The round of the loop that an event makes, with the bucket it is about. -/
def round (s : Limiter) : LimiterEvent → Option (ℕ × Id × ℤ × Bucket)
  | .wait call user bytes =>
    if 0 < bytes ∧ (s.sleeping call).isNone then
      (s.buckets user).map fun b => (call, user, bytes, b)
    else none
  | .wake call => (s.sleeping call).bind fun w =>
    if w.wakeAt ≤ s.clock then (s.buckets w.user).map fun b => (call, w.user, w.bytes, b) else none
  | _ => none

/-- A call that must sleep stays in progress. -/
def runRound (s : Limiter) : ℕ × Id × ℤ × Bucket → Limiter
  | (call, user, bytes, b) =>
    { s.setBucket user (b.attempt bytes s.clock).1 with
      sleeping := Function.update s.sleeping call (match (b.attempt bytes s.clock).2 with
        | .sleep nanoseconds => some ⟨user, bytes, s.clock + nanoseconds / 1000000000⟩
        | _ => none) }

def step (s : Limiter) (e : LimiterEvent) : Option Limiter :=
  match e with
  | .tick elapsed => if 0 ≤ elapsed then some { s with clock := s.clock + elapsed } else none
  | .forUser user rate => some (s.forUser user rate)
  | .setRate user rate => (s.buckets user).map fun b => s.setBucket user (b.setRate rate s.clock)
  | .wait _ _ bytes => if bytes ≤ 0 then some s else (s.round e).map s.runRound
  | .wake _ => (s.round e).map s.runRound
  | .cancel call => (s.sleeping call).map fun _ =>
    { s with sleeping := Function.update s.sleeping call none }

/-- The bytes of a user that an event lets through. -/
def granted (user : Id) (s : Limiter) (e : LimiterEvent) : ℚ :=
  match s.round e with
  | some (_, owner, bytes, b) =>
    if owner = user then ((b.attempt bytes s.clock).2.through bytes : ℤ) else 0
  | none => 0

end Limiter

def limiter : Machine Limiter LimiterEvent := ⟨Limiter.step⟩

/-- The rate that an event passes for a user. -/
def LimiterEvent.rateFor (user : Id) : LimiterEvent → Option ℤ
  | .forUser owner rate | .setRate owner rate => if owner = user then some rate else none
  | _ => none

end Arena.Model
