/-
# Numbers on a line

A number is a point on the line of the rationals with an end on either side, and a NaN is none
(`Quantity.point?`).  Quantities are compared as their points are (`lt_iff`, `le_iff`): a NaN is neither
smaller nor larger than anything, nor is it the same.

So "not smaller or equal" says "larger" of two points and nothing of a NaN (`le_eq_false_iff`).  A rule
that is put as the first one lets every NaN pass.
-/
import Mathlib.Algebra.Order.Field.Power
import Mathlib.Algebra.Order.Ring.Rat
import Mathlib.Data.Rat.Cast.Order
import Mathlib.Order.WithBot
import Keyscope.Number.Quantity

namespace Keyscope

/-- The rationals, with an end on either side. -/
abbrev Line := WithBot (WithTop ℚ)

/-! ## 1. Points -/

namespace Binary64

/-- The rational `± m · 2 ^ q`. -/
def rational (negative : Bool) (m : Nat) (q : Int) : ℚ :=
  ((if negative then -(m : Int) else m : Int) : ℚ) * 2 ^ q

/-- The point that a real number is, unless it is a NaN. -/
def point? : Binary64 → Option Line
  | nan => none
  | infinite true => some ⊥
  | infinite false => some ⊤
  | finite negative m q => some ((rational negative m q : WithTop ℚ) : Line)

end Binary64

/-- The point that a quantity is, unless it is a NaN. -/
def Quantity.point? : Quantity → Option Line
  | whole n => some (((n : ℚ) : WithTop ℚ) : Line)
  | real x => x.point?

/-! ## 2. Order -/

@[simp] theorem rational_lt_top (r : ℚ) : ((r : WithTop ℚ) : Line) < ⊤ :=
  WithBot.coe_lt_coe.mpr (WithTop.coe_lt_top r)

theorem cast_twoTo {e : Int} (h : 0 ≤ e) : ((twoTo e : Nat) : ℚ) = 2 ^ e := by
  obtain ⟨n, rfl⟩ := Int.eq_ofNat_of_zero_le h
  rw [twoTo, Int.toNat_natCast, zpow_natCast]
  exact Nat.cast_pow 2 n

namespace Binary64

theorem isNaN_iff {x : Binary64} : x.isNaN = true ↔ x.point? = none := by
  cases x with
  | infinite s => cases s <;> simp [isNaN, point?]
  | _ => simp [isNaN, point?]

/-- Two numbers brought to the smaller one of their scales. -/
theorem scaledLt_iff {a p b q : Int} :
    scaledLt a p b q = true ↔ (a : ℚ) * 2 ^ p < b * 2 ^ q := by
  have hscale : ∀ (n e : Int), min p q ≤ e →
      (n : ℚ) * 2 ^ e = ((n * twoTo (e - min p q) : Int) : ℚ) * 2 ^ min p q := by
    intro n e he
    rw [Int.cast_mul, Int.cast_natCast, cast_twoTo (Int.sub_nonneg.mpr he), mul_assoc,
      ← zpow_add₀ (two_ne_zero : (2 : ℚ) ≠ 0), Int.sub_add_cancel]
  have hpos : (0 : ℚ) < 2 ^ min p q := zpow_pos two_pos _
  rw [hscale a p (Int.min_le_left p q), hscale b q (Int.min_le_right p q),
    mul_lt_mul_iff_left₀ hpos, Int.cast_lt, scaledLt, decide_eq_true_iff]

theorem lt_iff {x y : Binary64} :
    x.lt y = true ↔ ∃ a b, x.point? = some a ∧ y.point? = some b ∧ a < b := by
  cases x with
  | nan => simp [lt, point?]
  | infinite s =>
    cases y with
    | nan => simp [lt, point?]
    | infinite t => cases s <;> cases t <;> simp [lt, point?]
    | finite t n q => cases s <;> simp [lt, point?]
  | finite s m p =>
    cases y with
    | nan => simp [lt, point?]
    | infinite t => cases t <;> simp [lt, point?]
    | finite t n q =>
      rw [lt, scaledLt_iff]
      simp [point?, rational]

end Binary64

namespace Quantity

theorem wholeLt_iff {n : Int} {x : Binary64} :
    wholeLt n x = true ↔ ∃ b, x.point? = some b ∧ (((n : ℚ) : WithTop ℚ) : Line) < b := by
  cases x with
  | nan => simp [wholeLt, Binary64.point?]
  | infinite s => cases s <;> simp [wholeLt, Binary64.point?]
  | finite s m q =>
    rw [wholeLt, Binary64.scaledLt_iff]
    simp [Binary64.point?, Binary64.rational]

theorem ltWhole_iff {x : Binary64} {n : Int} :
    ltWhole x n = true ↔ ∃ a, x.point? = some a ∧ a < (((n : ℚ) : WithTop ℚ) : Line) := by
  cases x with
  | nan => simp [ltWhole, Binary64.point?]
  | infinite s => cases s <;> simp [ltWhole, Binary64.point?]
  | finite s m q =>
    rw [ltWhole, Binary64.scaledLt_iff]
    simp [Binary64.point?, Binary64.rational]

/-- **Quantities are in the order of their points.** -/
theorem lt_iff {a b : Quantity} :
    a.lt b = true ↔ ∃ x y, a.point? = some x ∧ b.point? = some y ∧ x < y := by
  cases a with
  | whole m =>
    cases b with
    | whole n => simp [lt, point?]
    | real y => simp [lt, point?, wholeLt_iff]
  | real x =>
    cases b with
    | whole n => simp [lt, point?, ltWhole_iff]
    | real y => simp [lt, point?, Binary64.lt_iff]

theorem isNaN_iff {a : Quantity} : a.isNaN = true ↔ a.point? = none := by
  cases a with
  | whole n => simp [isNaN, point?]
  | real x =>
    have hreal : (real x).isNaN = x.isNaN := by cases x <;> rfl
    rw [hreal, Binary64.isNaN_iff, point?]

theorem le_iff {a b : Quantity} :
    a.le b = true ↔ ∃ x y, a.point? = some x ∧ b.point? = some y ∧ x ≤ y := by
  have hle : a.le b = true ↔ a.point? ≠ none ∧ b.point? ≠ none ∧ ¬ b.lt a = true := by
    rw [le, Ne, Ne, ← isNaN_iff, ← isNaN_iff]
    simp only [Bool.and_eq_true, Bool.not_eq_true', Bool.not_eq_true, and_assoc]
  rw [hle, lt_iff]
  cases a.point? with
  | none => simp
  | some x =>
    cases b.point? with
    | none => simp
    | some y => simp

/-- **What is not smaller or equal is larger, or one of the two is a NaN.** -/
theorem le_eq_false_iff {a b : Quantity} :
    a.le b = false ↔ ∀ x y, a.point? = some x → b.point? = some y → y < x := by
  rw [← Bool.not_eq_true, le_iff]
  simp only [not_exists, not_and, not_le]

end Quantity

end Keyscope
