/-
# The order of quantities

Between whole numbers the order of quantities is that of the integers, and so is the comparison of
values that are whole numbers.
-/
import Mathlib.Tactic.Common
import Keyscope.Value.Numeric

namespace Keyscope

theorem Quantity.le_whole (m n : Int) : (Quantity.whole m).le (.whole n) = decide (m ≤ n) := by
  rw [le, show lt (.whole n) (.whole m) = decide (n < m) from rfl]
  by_cases h : m ≤ n
  · rw [decide_eq_true h, decide_eq_false (Int.not_lt.mpr h)]
    rfl
  · rw [decide_eq_false h, decide_eq_true (Int.not_le.mp h)]
    rfl

/-- A comparison with a value is one with its quantity. -/
theorem Value.le_int {v : Value} {q : Quantity} (h : v.quantity? = some q) (n : Int) :
    (Value.int n).le v = .ok ((Quantity.whole n).le q) := by
  rw [le, compare, h]
  rfl

/-- A value that can be compared with a whole number has a quantity. -/
theorem Value.quantity_of_le {v : Value} {n : Int} {b : Bool} (h : v.le (.int n) = .ok b) :
    ∃ q, v.quantity? = some q ∧ q.le (.whole n) = b := by
  rw [le, compare] at h
  cases hv : v.quantity? with
  | none =>
    rw [hv] at h
    cases h
  | some q =>
    rw [hv] at h
    exact ⟨q, rfl, Except.ok.inj h⟩

end Keyscope
