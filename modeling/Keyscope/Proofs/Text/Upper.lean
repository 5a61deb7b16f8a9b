/-
# Large letters stay

A text in large letters is its own large form (`Text.upper_upper`).  The large form of a letter is
looked up in a table of runs and in one of longer forms.  What the tables give is in none of them: it
is enough to compare the ends of runs, and not every letter of them (`UpperRun.misses`), and this is
computed for all pairs.
-/
import Mathlib.Data.List.Basic
import Keyscope.Text.Upper

namespace Keyscope

namespace CodePoint

/-! ## 1. Code points that are in no table -/

/-- A run has none of the code points from `a` to `b` in steps: it ends in front of them or starts
behind them, or it has every second code point and they are the other ones.  The comparisons are those
that are computed on numbers themselves, for there are many pairs. -/
def UpperRun.misses (r : UpperRun) (a b step : Nat) : Bool :=
  b.blt r.first || r.last.blt a ||
    (r.step.beq 2 && (step.beq 2 || a.beq b) && ((a + r.first) % 2).beq 1)

theorem UpperRun.not_covers {r : UpperRun} {a b step n : Nat} (h : r.misses a b step = true)
    (ha : a ≤ n) (hb : n ≤ b) (hstep : (n - a) % step = 0) : r.covers n = false := by
  simp only [misses, Bool.or_eq_true, Nat.blt_eq, Bool.and_eq_true, Nat.beq_eq] at h
  simp only [covers, Bool.and_eq_false_iff, decide_eq_false_iff_not, beq_eq_false_iff_ne]
  rcases h with (h | h) | ⟨⟨hr, hsecond⟩, hother⟩
  · omega
  · omega
  · rw [hr]
    rcases hsecond with rfl | rfl <;> omega

/-- No code point from `a` to `b` in steps is in a table. -/
def areLarge (a b step : Nat) : Bool :=
  b.blt 0x110000 && upperExpansions.toList.all (fun e => b.blt e.1 || e.1.blt a) &&
    upperRuns.toList.all (·.misses a b step)

theorem upper_ofNat {a b step n : Nat} (h : areLarge a b step = true) (ha : a ≤ n) (hb : n ≤ b)
    (hstep : (n - a) % step = 0) : (ofNat n).upper = [ofNat n] := by
  simp only [areLarge, Bool.and_eq_true, Nat.blt_eq, List.all_eq_true, Bool.or_eq_true] at h
  obtain ⟨⟨hlast, hexpansions⟩, hruns⟩ := h
  have hval : (ofNat n).val = n := by simp [ofNat, Nat.lt_of_le_of_lt hb hlast]
  have hexpansion : upperExpansions.find? (fun e => e.1 == (ofNat n).val) = none := by
    rw [← Array.find?_toList, List.find?_eq_none]
    intro e he
    have := hexpansions e he
    simp only [hval, beq_iff_eq]
    omega
  have hrun : upperRuns.find? (fun r => r.covers (ofNat n).val) = none := by
    rw [← Array.find?_toList, List.find?_eq_none, hval]
    intro r hr
    simp [UpperRun.not_covers (hruns r hr) ha hb hstep]
  simp only [upper, hexpansion, hrun]

/-! ## 2. What the tables give -/

theorem areLarge_expansions :
    (upperExpansions.toList.all fun e => e.2.all fun n => areLarge n n 1) = true := by
  decide +kernel

theorem areLarge_runs : (upperRuns.toList.all fun r => decide (0 ≤ r.first + r.shift) &&
    areLarge (Int.toNat (r.first + r.shift)) (Int.toNat (r.last + r.shift)) r.step) = true := by
  decide +kernel

/-- The large form of a code point is its own large form. -/
theorem upper_upper (c : CodePoint) : c.upper.flatMap upper = c.upper := by
  cases hexpansion : upperExpansions.find? fun e => e.1 == c.val with
  | some e =>
    have hlarge := List.all_eq_true.mp areLarge_expansions e
      (Array.mem_toList_iff.mpr (Array.mem_of_find?_eq_some hexpansion))
    have hform : c.upper = e.2.map ofNat := by simp only [upper, hexpansion]
    rw [hform, List.flatMap_map, List.map_eq_flatMap]
    refine List.flatMap_congr fun n hn => ?_
    exact upper_ofNat (List.all_eq_true.mp hlarge n hn) (Nat.le_refl n) (Nat.le_refl n) (Nat.mod_one _)
  | none =>
    cases hrun : upperRuns.find? fun r => r.covers c.val with
    | some r =>
      have hlarge := List.all_eq_true.mp areLarge_runs r
        (Array.mem_toList_iff.mpr (Array.mem_of_find?_eq_some hrun))
      have hcovers := Array.find?_some hrun
      have hform : c.upper = [ofNat (Int.toNat (c.val + r.shift))] := by
        simp only [upper, hexpansion, hrun]
      simp only [Bool.and_eq_true, decide_eq_true_eq] at hlarge
      simp only [UpperRun.covers, Bool.and_eq_true, decide_eq_true_eq, beq_iff_eq] at hcovers
      obtain ⟨⟨hfirst, hlast⟩, hstep⟩ := hcovers
      have hsteps : Int.toNat (c.val + r.shift) - Int.toNat (r.first + r.shift) = c.val - r.first := by
        omega
      rw [hform, List.flatMap_singleton]
      exact upper_ofNat hlarge.2 (by omega) (by omega) (by rw [hsteps, hstep])
    | none =>
      have hform : c.upper = [c] := by simp only [upper, hexpansion, hrun]
      rw [hform, List.flatMap_singleton, hform]

end CodePoint

/-- **Large letters stay.** -/
theorem Text.upper_upper (t : Text) : t.upper.upper = t.upper := by
  rw [upper, upper, List.flatMap_assoc]
  exact List.flatMap_congr fun c _ => c.upper_upper

end Keyscope
