/-
# The order of texts

`Text.before` walks down two texts to their first difference.  That is the lexicographic order of
code points (`before_iff_lt`), so everything the library knows of linear orders holds of sorted
texts: `Text.sort` rearranges (`sort_perm`), and texts that are all different come out strictly
ascending (`sort_strict`).  Pairs are ordered by their first texts, and by the second ones where these
are equal (`pairLe_iff`).

What is sorted in a linear order does not depend on the order in which it comes (`sort_congr`,
`sortPairs_congr`).  For pairs that needs both texts: an order of the first ones alone would leave pairs
with one first text as they came.
-/
import Mathlib.Data.List.Lex
import Mathlib.Data.Prod.Lex
import Mathlib.Order.Fin.Basic
import Keyscope.Text.Basic

namespace Keyscope

namespace Text

/-! ## 1. Sorting in a linear order -/

section Linear

variable {α β : Type} [LinearOrder β] {order : α → α → Bool} {key : α → β}

/-- What is sorted ascends. -/
theorem mergeSort_ascending (h : ∀ a b, order a b = true ↔ key a ≤ key b) (l : List α) :
    (l.mergeSort order).Pairwise fun a b => key a ≤ key b := by
  have hsorted : (l.mergeSort order).Pairwise fun a b => order a b = true := by
    refine List.pairwise_mergeSort ?_ ?_ l
    · intro a b c hab hbc
      rw [h] at *
      exact le_trans hab hbc
    · intro a b
      rw [Bool.or_eq_true, h, h]
      exact le_total (key a) (key b)
  exact hsorted.imp fun {a b} hab => (h a b).mp hab

/-- The order in which things arrive does not matter, if no two of them are alike. -/
theorem mergeSort_congr (h : ∀ a b, order a b = true ↔ key a ≤ key b)
    (hkey : ∀ a b, key a = key b → a = b) {l m : List α} (hperm : l.Perm m) :
    l.mergeSort order = m.mergeSort order :=
  List.Perm.eq_of_pairwise (fun a b _ _ hab hba => hkey a b (le_antisymm hab hba))
    (mergeSort_ascending h l) (mergeSort_ascending h m)
    ((List.mergeSort_perm l order).trans (hperm.trans (List.mergeSort_perm m order).symm))

end Linear

/-! ## 2. Texts -/

/-- **The order of texts is the lexicographic order of their code points.** -/
theorem before_iff_lt : ∀ (t u : Text), before t u = true ↔ t < u
  | [], [] => by simp [before]
  | [], d :: u => by simp [before]
  | c :: t, [] => by simp [before]
  | c :: t, d :: u => by
    have ih := before_iff_lt t u
    simp only [before, Bool.or_eq_true, Bool.and_eq_true, decide_eq_true_eq, ih,
      List.cons_lt_cons_iff, Fin.lt_def]

theorem le_iff (t u : Text) : le t u = true ↔ t ≤ u := by
  simp only [le, Bool.not_eq_true', Bool.eq_false_iff, ne_eq, before_iff_lt, not_lt]

/-- Sorting rearranges: no text is lost and none is made up. -/
theorem sort_perm (ts : List Text) : (sort ts).Perm ts := List.mergeSort_perm ts le

@[simp] theorem mem_sort {t : Text} {ts : List Text} : t ∈ sort ts ↔ t ∈ ts :=
  (sort_perm ts).mem_iff

theorem nodup_sort {ts : List Text} : (sort ts).Nodup ↔ ts.Nodup := (sort_perm ts).nodup_iff

/-- Sorted texts ascend. -/
theorem sort_ascending (ts : List Text) : (sort ts).Pairwise (· ≤ ·) := mergeSort_ascending le_iff ts

/-- The order in which texts arrive does not matter. -/
theorem sort_congr {ts us : List Text} (h : ts.Perm us) : sort ts = sort us :=
  mergeSort_congr le_iff (fun _ _ => id) h

/-- **Different texts come out strictly ascending.** -/
theorem sort_strict {ts : List Text} (h : ts.Nodup) : (sort ts).Pairwise (· < ·) := by
  have hne : (sort ts).Pairwise (· ≠ ·) := nodup_sort.mpr h
  exact (sort_ascending ts).imp₂ (fun _ _ hle hne => lt_of_le_of_ne hle hne) hne

/-! ## 3. Pairs of texts -/

/-- **The order of pairs is the lexicographic order**: by the first text, then by the second. -/
theorem pairLe_iff (a b : Text × Text) : pairLe a b = true ↔ toLex a ≤ toLex b := by
  rw [Prod.Lex.toLex_le_toLex, pairLe, Bool.or_eq_true, Bool.and_eq_true, before_iff_lt, le_iff, le_iff]
  constructor
  · rintro (hlt | ⟨hle, hsecond⟩)
    · exact .inl hlt
    · rcases lt_or_eq_of_le hle with hlt | heq
      · exact .inl hlt
      · exact .inr ⟨heq, hsecond⟩
  · rintro (hlt | ⟨heq, hsecond⟩)
    · exact .inl hlt
    · exact .inr ⟨le_of_eq heq, hsecond⟩

theorem sortPairs_perm (ps : List (Text × Text)) : (sortPairs ps).Perm ps :=
  List.mergeSort_perm ps pairLe

/-- Sorted pairs ascend. -/
theorem sortPairs_ascending (ps : List (Text × Text)) :
    (sortPairs ps).Pairwise fun a b => a.1 < b.1 ∨ a.1 = b.1 ∧ a.2 ≤ b.2 :=
  (mergeSort_ascending pairLe_iff ps).imp fun {_ _} h => Prod.Lex.toLex_le_toLex.mp h

/-- The order in which pairs arrive does not matter. -/
theorem sortPairs_congr {ps qs : List (Text × Text)} (h : ps.Perm qs) : sortPairs ps = sortPairs qs :=
  mergeSort_congr pairLe_iff (fun _ _ hab => toLex.injective hab) h

end Text

end Keyscope
