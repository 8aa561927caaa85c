import ShardLedger.Table
import Mathlib.Algebra.Order.BigOperators.Group.List
import Mathlib.Algebra.Order.Group.Nat
import Mathlib.Tactic.Abel
/-
Totals over tables.

A measure of the values of a table has a total, the sum over its entries.  What a write does to the
total is exact: the new value is added and the value that stood at the key, if there was one, is taken
away.  Everything said of the supply of a ledger comes down to this one equation, since each move of
value is one or two writes.
-/

set_option autoImplicit false

namespace ShardLedger

universe u v

namespace Table

variable {κ : Type u} {α : Type v} [Ord κ] [Std.TransOrd κ]

/-- **The total of a measure** over the values of a table. -/
def total (t : Table κ α) (f : α → Nat) : Nat :=
  (t.values.map f).sum

/-! ## 1. What a write does -/

/-- The entries of a list measure what they did before a write, with the value written in place of
the value found.  The induction follows the walk of the write: it stops in front of the first larger
key, where the look-up finds nothing because all later keys are larger still. -/
theorem sum_put {M : Type} [AddCommMonoid M] {k : κ} {v : α} {es : List (κ × α)} (f : α → M)
    (h : Ascending es) :
    ((put k v es).map fun e => f e.2).sum + ((find? k es).map f).getD 0
      = (es.map fun e => f e.2).sum + f v := by
  induction es with
  | nil => simp [put, find?]
  | cons e es ih =>
    obtain ⟨he, hes⟩ := List.pairwise_cons.mp h
    rw [put]
    cases hc : compare k e.1 with
    | lt =>
      -- The key is smaller than all that is left, so nothing is replaced.
      have hnone : find? k (e :: es) = none := by
        refine find?_eq_none_of_forall_lt fun x hx => ?_
        rcases List.mem_cons.mp hx with rfl | hx
        · exact hc
        · exact Std.TransCmp.lt_trans hc (he x hx)
      rw [hnone]
      simp only [List.map_cons, List.sum_cons, Option.map_none, Option.getD_none]
      abel
    | eq =>
      rw [find?, if_pos hc]
      simp only [List.map_cons, List.sum_cons, Option.map_some, Option.getD_some]
      abel
    | gt =>
      -- The write and the look-up both go on behind this entry.
      have hne : ¬ compare k e.1 = .eq := by rw [hc]; decide
      have ih := ih hes
      rw [find?, if_neg hne]
      simp only [List.map_cons, List.sum_cons]
      rw [add_assoc, ih, add_assoc]

/-- A write adds the value written and takes away the value it replaces. -/
theorem total_set (t : Table κ α) (f : α → Nat) (k : κ) (v : α) :
    (t.set k v).total f + ((t.get? k).map f).getD 0 = t.total f + f v := by
  have h := sum_put (k := k) (v := v) f t.ascending
  simp only [total, values, set, get?, List.map_map, Function.comp_def] at h ⊢
  exact h

/-- The values of a table add up to what they did before a write, with the value written in place of
the one found. -/
theorem sum_values_set {M : Type} [AddCommMonoid M] (t : Table κ M) (k : κ) (v : M) :
    (t.set k v).values.sum + (t.get? k).getD 0 = t.values.sum + v := by
  have h := sum_put (k := k) (v := v) id t.ascending
  rw [Option.map_id_fun, id_def] at h
  exact h

/-- Writing at a key that is not there only adds. -/
theorem total_set_of_none {t : Table κ α} {k : κ} (h : t.get? k = none) (f : α → Nat) (v : α) :
    (t.set k v).total f = t.total f + f v := by
  have hs := total_set t f k v
  rw [h] at hs
  simpa using hs

/-- Replacing a value changes the total by the difference. -/
theorem total_set_of_some {t : Table κ α} {k : κ} {w : α} (h : t.get? k = some w) (f : α → Nat)
    (v : α) : (t.set k v).total f + f w = t.total f + f v := by
  have hs := total_set t f k v
  rw [h] at hs
  simpa using hs

/-- A change of the value at a key changes the total by the difference. -/
theorem total_adjust_of_some {t : Table κ α} {k : κ} {w : α}
    (h : t.get? k = some w) (f : α → Nat) (g : α → α) :
    (t.adjust k g).total f + f w = t.total f + f (g w) := by
  unfold adjust
  rw [h]
  exact total_set_of_some h f (g w)

/-- A change that keeps the measure keeps the total. -/
theorem total_adjust_of_eq {f : α → Nat} {g : α → α} (hg : ∀ a, f (g a) = f a) (t : Table κ α)
    (k : κ) : (t.adjust k g).total f = t.total f := by
  unfold adjust
  cases h : t.get? k with
  | none => rfl
  | some w =>
    have hs := total_set_of_some h f (g w)
    rw [hg w] at hs
    exact Nat.add_right_cancel hs

/-! ## 2. A part is no more than the whole -/

omit [Std.TransOrd κ] in
/-- No value measures more than all values together. -/
theorem le_total [Std.LawfulEqOrd κ] {t : Table κ α} {k : κ} {v : α} (h : t.get? k = some v)
    (f : α → Nat) : f v ≤ t.total f := by
  have hm : v ∈ t.values := List.mem_map.mpr ⟨(k, v), mem_of_find? h, rfl⟩
  exact List.le_sum_of_mem (List.mem_map_of_mem hm)

end Table

end ShardLedger
