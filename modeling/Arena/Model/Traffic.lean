import Mathlib.Data.Fintype.Defs
import Arena.Model.Effects

/-!
# The two directions of traffic

Every counter comes as an uplink and a downlink half. A direction selects one of them, so
that each fact about traffic is stated and proved once.
-/

namespace Arena.Model

open Arena.Lib

inductive Direction where
  | up | down
  deriving DecidableEq

instance : Fintype Direction := ⟨{.up, .down}, fun d => by cases d <;> simp⟩

/-- The half of a pair of counters. -/
def Direction.pick (d : Direction) (up down : ℕ) : ℕ :=
  match d with
  | .up => up
  | .down => down

@[simp] theorem pick_up (a b : ℕ) : Direction.pick .up a b = a := rfl
@[simp] theorem pick_down (a b : ℕ) : Direction.pick .down a b = b := rfl

def used (d : Direction) (u : User) : ℕ := d.pick u.usedUpBytes u.usedDownBytes

def bytes (d : Direction) (s : ConnectionSession) : ℕ := d.pick s.uplinkBytes s.downlinkBytes

def delta (d : Direction) (p : GatewayHeartbeat) : ℕ := d.pick p.uplinkDelta p.downlinkDelta

/-- What a user has used; 0 when there is no such user. -/
def balance (d : Direction) (uid : Id) (db : Database) : ℕ :=
  ((db.users.find? uid).map (used d)).getD 0

variable {d : Direction} {uid : Id} {db db' : Database}

@[simp] theorem used_addTraffic {u : User} {up down : ℕ} :
    used d (u.addTraffic up down) = used d u + d.pick up down := by cases d <;> rfl

@[simp] theorem used_start {u : User} {now : Instant} : used d (u.start now) = used d u := by
  cases d <;> simp [used, Direction.pick]

@[simp] theorem bytes_finish {s : ConnectionSession} {now : Instant} :
    bytes d (s.finish now) = bytes d s := by cases d <;> rfl

@[simp] theorem bytes_heard {s : ConnectionSession} {up down : ℕ} {now : Instant}
    {verdict : Bool × Reason} :
    bytes d (s.heard up down now verdict) = bytes d s + d.pick up down := by
  cases d <;> simp [bytes, Direction.pick]

@[simp] theorem bytes_closed {s : ConnectionSession} {up down : ℕ} {now : Instant} {why : String} :
    bytes d (s.closed up down now why) = bytes d s + d.pick up down := by
  cases d <;> simp [bytes, Direction.pick]

@[simp] theorem bytes_newSession {newId : Id} {now : Instant} {p : GatewayAuthorize} :
    bytes d (newSession newId now p) = 0 := by cases d <;> rfl

/-! ## One statement -/

/-- An update of the users that moves no counter of this one moves no balance. -/
theorem balance_update {p : User → Bool} {f : User → User} {keeps : ∀ u, (f u).id = u.id}
    (users : db'.users = db.users.update p f keeps)
    (same : ∀ u, db.users.find? uid = some u → p u → used d (f u) = used d u) :
    balance d uid db' = balance d uid db := by
  unfold balance
  rw [users, Table.find?_update, Option.map_map]
  cases h : db.users.find? uid with
  | none => rfl
  | some u =>
    simp only [Option.map_some, Option.getD_some, Function.comp]
    split
    · exact same u h ‹_›
    · rfl

theorem balance_of_users (users : db'.users = db.users) : balance d uid db' = balance d uid db := by
  rw [balance, users, balance]

/-- A charge adds to the balance of the session's user and to no other. -/
theorem Charges.balance {session : ConnectionSession} {user : User} {up down : ℕ}
    {f : ConnectionSession → ConnectionSession} (h : Charges db db' session user up down f) :
    balance d uid db' = balance d uid db + (if session.userId = uid then d.pick up down else 0) := by
  by_cases mine : session.userId = uid
  · subst mine
    have same := Table.find?_key h.owner
    simp [Model.balance, h.users, Table.find?_update, h.owner, same]
  · rw [if_neg mine, Nat.add_zero]
    refine balance_update h.users fun u hu hp => ?_
    exact absurd ((of_decide_eq_true hp).symm.trans (Table.find?_key hu)) mine

end Arena.Model
