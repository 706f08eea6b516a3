import Mathlib.Algebra.BigOperators.Group.List.Basic
import Mathlib.Algebra.GroupWithZero.Nat
import Mathlib.Algebra.Order.Group.Nat
import Mathlib.Data.List.Nodup

/-!
# Tables with a primary key

A `Table key` is a list of rows whose keys are pairwise distinct, and carries that fact:
the operations below are the statements a database offers (`SELECT` by key, `UPDATE ..
WHERE`, `INSERT`, `DELETE .. WHERE`), and none of them can break the primary key. Row
order is insertion order and nothing depends on it.

`sumWhere` is `SELECT sum(..) WHERE ..`; its lemmas say how each statement changes it.
-/

namespace Arena.Lib

variable {κ ρ : Type*} [DecidableEq κ]

/-- Rows with pairwise distinct keys. -/
structure Table (key : ρ → κ) where
  rows : List ρ
  keyed : (rows.map key).Nodup

namespace Table

variable {key : ρ → κ}

/-- The row with this primary key. -/
def find? (t : Table key) (k : κ) : Option ρ := t.rows.find? fun r => key r = k

/-- `UPDATE .. SET f WHERE p`, for an assignment `f` that leaves the key alone. -/
def update (t : Table key) (p : ρ → Bool) (f : ρ → ρ) (keeps : ∀ r, key (f r) = key r) :
    Table key where
  rows := t.rows.map fun r => if p r then f r else r
  keyed := by
    have h : (key ∘ fun r => if p r then f r else r) = key := by
      funext r; simp only [Function.comp]; split <;> simp [keeps]
    simpa [h] using t.keyed

/-- `INSERT`, which the primary key refuses when the key is taken. -/
def insert? (t : Table key) (r : ρ) : Option (Table key) :=
  if h : key r ∈ t.rows.map key then none
  else some ⟨t.rows ++ [r], by simpa [List.nodup_append] using ⟨t.keyed, fun a ha e => h (by simpa using ⟨a, ha, e⟩)⟩⟩

/-- `DELETE .. WHERE p`. -/
def delete (t : Table key) (p : ρ → Bool) : Table key where
  rows := t.rows.filter fun r => !p r
  keyed := t.keyed.sublist (List.filter_sublist.map key)

/-- `SELECT sum(g) .. WHERE q`. -/
def sumWhere (t : Table key) (q : ρ → Bool) (g : ρ → ℕ) : ℕ := ((t.rows.filter q).map g).sum

variable {t t' : Table key} {k : κ} {r r' : ρ} {p q : ρ → Bool} {f : ρ → ρ} {g : ρ → ℕ}
  {keeps : ∀ r, key (f r) = key r}

/-! ## Rows -/

theorem find?_eq_some_iff : t.find? k = some r ↔ r ∈ t.rows ∧ key r = k := by
  constructor
  · intro h
    exact ⟨List.mem_of_find?_eq_some h, by simpa using List.find?_some h⟩
  · rintro ⟨hr, rfl⟩
    obtain ⟨r', found⟩ := Option.isSome_iff_exists.1
      (List.find?_isSome (p := fun x => decide (key x = key r)).2 ⟨r, hr, by simp⟩)
    have same : key r' = key r := by simpa using List.find?_some found
    have eq := List.inj_on_of_nodup_map t.keyed (List.mem_of_find?_eq_some found) hr same
    rwa [eq] at found

theorem find?_mem (h : t.find? k = some r) : r ∈ t.rows := (find?_eq_some_iff.1 h).1

theorem find?_key (h : t.find? k = some r) : key r = k := (find?_eq_some_iff.1 h).2

theorem find?_of_mem (h : r ∈ t.rows) : t.find? (key r) = some r := find?_eq_some_iff.2 ⟨h, rfl⟩

theorem find?_eq_none_iff : t.find? k = none ↔ ∀ r ∈ t.rows, key r ≠ k := by
  simp [find?]

omit [DecidableEq κ] in
theorem eq_of_key_eq (h : r ∈ t.rows) (h' : r' ∈ t.rows) (hk : key r = key r') : r = r' :=
  List.inj_on_of_nodup_map t.keyed h h' hk

/-! ## `UPDATE` -/

omit [DecidableEq κ] in
theorem mem_update : r ∈ (t.update p f keeps).rows ↔ ∃ r₀ ∈ t.rows, (if p r₀ then f r₀ else r₀) = r := by
  simp [update]

theorem find?_update :
    (t.update p f keeps).find? k = (t.find? k).map fun r => if p r then f r else r := by
  simp only [find?, update, List.find?_map]
  congr 1
  congr 1
  funext r
  simp only [Function.comp]
  split <;> simp [keeps]

/-- An assignment to rows of other keys. -/
theorem find?_update_of_key (h : ∀ r, key r = k → ¬ p r) :
    (t.update p f keeps).find? k = t.find? k := by
  rw [find?_update]
  cases found : t.find? k with
  | none => rfl
  | some r => simp [h r (find?_key found)]

@[simp] theorem update_isSome : ((t.update p f keeps).find? k).isSome = (t.find? k).isSome := by
  simp [find?_update]

omit [DecidableEq κ] in
@[ext] theorem ext_rows (h : t.rows = t'.rows) : t = t' := by
  cases t; cases t'; cases h; rfl

omit [DecidableEq κ] in
/-- Two assignments to the same rows are one. -/
theorem update_update {f' : ρ → ρ} {keeps' : ∀ r, key (f' r) = key r} (same : ∀ r, p r → p (f r)) :
    (t.update p f keeps).update p f' keeps' =
      t.update p (fun r => f' (f r)) (fun r => (keeps' _).trans (keeps r)) := by
  apply ext_rows
  simp only [update, List.map_map]
  refine List.map_congr_left fun r _ => ?_
  by_cases h : p r <;> simp [h, same]

/-- Two assignments to one row that agree on it. -/
theorem update_key_congr {f' : ρ → ρ} {keeps' : ∀ r, key (f' r) = key r} (hr : t.find? k = some r)
    (same : f r = f' r) :
    t.update (fun x => key x = k) f keeps = t.update (fun x => key x = k) f' keeps' := by
  apply ext_rows
  refine List.map_congr_left fun x hx => ?_
  by_cases h : key x = k
  · obtain rfl : x = r := eq_of_key_eq hx (find?_mem hr) (h.trans (find?_key hr).symm)
    simp [h, same]
  · simp [h]

/-- An assignment that leaves the one row it is about. -/
theorem update_key_id (hr : ∀ r, t.find? k = some r → f r = r) :
    t.update (fun x => key x = k) f keeps = t := by
  apply ext_rows
  conv_rhs => rw [← List.map_id t.rows]
  refine List.map_congr_left fun x hx => ?_
  by_cases h : key x = k
  · simp [h, hr x (h ▸ find?_of_mem hx)]
  · simp [h]

omit [DecidableEq κ] in
/-- The rows of a group, after an assignment that moves no row out of its group. -/
theorem filter_update {q : ρ → Bool} (same : ∀ r, q (f r) = q r) :
    (t.update p f keeps).rows.filter q = (t.rows.filter q).map fun r => if p r then f r else r := by
  have commute : (q ∘ fun r => if p r then f r else r) = q := by
    funext r
    by_cases hp : p r <;> simp [hp, same]
  rw [update, List.filter_map, commute]

omit [DecidableEq κ] in
/-- An assignment to rows outside a group. -/
theorem filter_update_of_disjoint {q : ρ → Bool} (same : ∀ r, q (f r) = q r)
    (outside : ∀ r ∈ t.rows, p r → q r = false) :
    (t.update p f keeps).rows.filter q = t.rows.filter q := by
  rw [filter_update same]
  refine (List.map_congr_left fun r mem => ?_).trans (List.map_id _)
  obtain ⟨mem, mine⟩ := List.mem_filter.1 mem
  have other : ¬ p r := fun hp => by simp [outside r mem hp] at mine
  exact if_neg other

/-! ## `INSERT` -/

theorem insert?_eq_some_iff :
    t.insert? r = some t' ↔ t.find? (key r) = none ∧ t'.rows = t.rows ++ [r] := by
  have hm : key r ∈ t.rows.map key ↔ ¬ t.find? (key r) = none := by
    rw [find?_eq_none_iff]; simp
  unfold insert?
  by_cases h : key r ∈ t.rows.map key
  · simp [h, hm.1 h]
  · have hn : t.find? (key r) = none := by simpa [h] using hm
    obtain ⟨rows, keyed⟩ := t'
    simp [h, hn, eq_comm]

theorem mem_insert (h : t.insert? r = some t') : r' ∈ t'.rows ↔ r' ∈ t.rows ∨ r' = r := by
  rw [(insert?_eq_some_iff.1 h).2, List.mem_append, List.mem_singleton]

theorem insert?_isSome (fresh : t.find? (key r) = none) : (t.insert? r).isSome := by
  unfold insert?
  rw [dif_neg (by simpa using find?_eq_none_iff.1 fresh)]
  rfl

theorem find?_insert (h : t.insert? r = some t') :
    t'.find? k = if key r = k then some r else t.find? k := by
  obtain ⟨fresh, rows⟩ := insert?_eq_some_iff.1 h
  unfold find? at *
  rw [rows, List.find?_append]
  by_cases e : key r = k
  · subst e; simp [fresh]
  · simp [e]

theorem find?_insert_of_isSome (h : t.insert? r = some t') (hk : t.find? k = some r') :
    t'.find? k = some r' := by
  have ne : key r ≠ k := by
    rintro rfl
    simp [(insert?_eq_some_iff.1 h).1] at hk
  simp [find?_insert h, ne, hk]

/-! ## `DELETE` -/

omit [DecidableEq κ] in
theorem mem_delete : r ∈ (t.delete p).rows ↔ r ∈ t.rows ∧ p r = false := by
  simp [delete]

theorem find?_delete : (t.delete p).find? k = (t.find? k).filter fun r => !p r := by
  apply Option.ext
  intro r
  rw [find?_eq_some_iff, mem_delete, Option.filter_eq_some_iff, find?_eq_some_iff]
  simp [and_right_comm]

omit [DecidableEq κ] in
/-- Deleting rows outside a group. -/
theorem filter_delete_of_disjoint {q : ρ → Bool} (outside : ∀ r, q r → p r = false) :
    (t.delete p).rows.filter q = t.rows.filter q := by
  rw [delete, List.filter_filter]
  refine List.filter_congr fun r _ => ?_
  by_cases mine : q r
  · simp [mine, outside r mine]
  · simp [mine]

/-- One row and the others. -/
theorem perm_delete_key (hr : t.find? k = some r) :
    t.rows.Perm (r :: (t.delete fun x => key x = k).rows) := by
  obtain ⟨mem, rfl⟩ := find?_eq_some_iff.1 hr
  obtain ⟨rows, keyed⟩ := t
  simp only [delete] at *
  clear hr
  induction rows with
  | nil => simp at mem
  | cons a rows ih =>
    simp only [List.map_cons, List.nodup_cons, List.mem_map, not_exists, not_and] at keyed
    rcases List.mem_cons.1 mem with rfl | mem
    · -- its key does not occur further on
      have rest : rows.filter (fun x => !decide (key x = key r)) = rows :=
        List.filter_eq_self.2 fun x hx => by simp [keyed.1 x hx]
      simp [rest]
    · have ne : key a ≠ key r := fun h => keyed.1 r mem h.symm
      rw [List.filter_cons_of_pos (by simp [ne])]
      exact ((ih keyed.2 mem).cons a).trans (List.Perm.swap r a _)

/-! ## Sums -/

omit [DecidableEq κ] in
theorem sumWhere_update_of_eq (hq : ∀ r ∈ t.rows, p r → q (f r) = q r)
    (hg : ∀ r ∈ t.rows, p r → g (f r) = g r) : (t.update p f keeps).sumWhere q g = t.sumWhere q g := by
  obtain ⟨rows, keyed⟩ := t
  simp only [sumWhere, update] at *
  clear keyed
  induction rows with
  | nil => rfl
  | cons a rows ih =>
    have ha : q (if p a then f a else a) = q a ∧ g (if p a then f a else a) = g a := by
      by_cases h : p a <;> simp [h, hq a (by simp), hg a (by simp)]
    have ih := ih (fun r hr => hq r (by simp [hr])) (fun r hr => hg r (by simp [hr]))
    simp only [List.map_cons, List.filter_cons, ha.1]
    split
    · simp [ha.2, ih]
    · exact ih

/-- A row has its share of the sum. -/
theorem sumWhere_delete_key (hr : t.find? k = some r) :
    t.sumWhere q g = (if q r then g r else 0) + (t.delete fun x => key x = k).sumWhere q g := by
  have rows := ((perm_delete_key hr).filter q).map g
  rw [sumWhere, rows.sum_nat, List.filter_cons]
  split
  · rw [List.map_cons, List.sum_cons, sumWhere]
  · rw [Nat.zero_add, sumWhere]

/-- An assignment to one row leaves the others. -/
theorem delete_update_key (hp : ∀ x, p x ↔ key x = k) :
    (t.update p f keeps).delete (fun x => key x = k) = t.delete fun x => key x = k := by
  apply ext_rows
  simp only [delete, update, List.filter_map]
  have keyed : (fun x => !decide (key x = k)) ∘ (fun x => if p x then f x else x) = fun x => !decide (key x = k) := by
    funext x
    simp only [Function.comp_apply]
    split <;> simp [keeps]
  rw [keyed]
  conv_rhs => rw [← List.map_id (List.filter _ _)]
  refine List.map_congr_left fun x hx => if_neg fun h => ?_
  simp [(hp x).1 h] at hx

/-- One updated row moves its old share of the sum to its new one. -/
theorem sumWhere_update_key (hr : t.find? k = some r) (hp : ∀ x, p x ↔ key x = k) :
    (t.update p f keeps).sumWhere q g + (if q r then g r else 0) =
      t.sumWhere q g + (if q (f r) then g (f r) else 0) := by
  have updated : (t.update p f keeps).find? k = some (f r) := by
    rw [find?_update, hr, Option.map_some, if_pos ((hp r).2 (find?_key hr))]
  rw [sumWhere_delete_key updated, sumWhere_delete_key hr, delete_update_key hp]
  omega

/-- An assignment to one row that adds to its summand. -/
theorem sumWhere_update_key_add {a : ℕ} (hr : t.find? k = some r) (hp : ∀ x, p x ↔ key x = k)
    (hq : q (f r) = q r) (hg : g (f r) = g r + a) :
    (t.update p f keeps).sumWhere q g = t.sumWhere q g + (if q r then a else 0) := by
  have moved : (t.update p f keeps).sumWhere q g + (if q r then g r else 0) =
      t.sumWhere q g + (if q r then g r + a else 0) := by
    rw [sumWhere_update_key hr hp, hq, hg]
  split at moved <;> simp_all
  omega

theorem sumWhere_insert (h : t.insert? r = some t') :
    t'.sumWhere q g = t.sumWhere q g + (if q r then g r else 0) := by
  rw [sumWhere, (insert?_eq_some_iff.1 h).2, List.filter_append, List.map_append, List.sum_append]
  by_cases hq : q r <;> simp [sumWhere, hq]

omit [DecidableEq κ] in
theorem sumWhere_delete_of_disjoint (h : ∀ r ∈ t.rows, q r → p r = false) :
    (t.delete p).sumWhere q g = t.sumWhere q g := by
  simp only [sumWhere, delete, List.filter_filter]
  congr 2
  apply List.filter_congr
  intro r hr
  by_cases hq : q r
  · simp [h r hr hq, hq]
  · simp [hq]

end Table

end Arena.Lib
