/-
# Decimal texts

The text of a number is made of digits (`Decimal.isAsciiDigit_of_mem_ofNat`), and they spell the number
(`Decimal.value_ofNat`).  So a number can be told from its text, also where the text stands in a longer
one.
-/
import Mathlib.Algebra.Ring.Nat
import Keyscope.Number.Decimal

namespace Keyscope

theorem CodePoint.isAsciiDigit_iff {c : CodePoint} :
    c.isAsciiDigit = true ↔ 48 ≤ c.val ∧ c.val ≤ 57 := by
  rw [isAsciiDigit, Bool.and_eq_true, decide_eq_true_eq, decide_eq_true_eq]

namespace Decimal

/-- Only digits are in the text of a number. -/
theorem isAsciiDigit_of_mem_ofNat {n : Nat} {c : CodePoint} (h : c ∈ ofNat n) :
    c.isAsciiDigit = true := by
  obtain ⟨d, hd, rfl⟩ := List.mem_map.mp h
  have hdigit : d.isDigit = true := Nat.isDigit_of_mem_toDigits (by decide) (by decide) hd
  have hrange : 48 ≤ d.toNat ∧ d.toNat ≤ 57 := by
    simpa [Char.isDigit, UInt32.le_iff_toNat_le] using hdigit
  exact CodePoint.isAsciiDigit_iff.mpr hrange

/-- In front of the digits of a whole number there may be a minus sign. -/
theorem digit_or_minus_of_mem_ofInt {n : Int} {c : CodePoint} (h : c ∈ ofInt n) :
    c.isAsciiDigit = true ∨ c = '-' := by
  rw [ofInt, List.mem_append] at h
  rcases h with h | h
  · cases hsign : decide (n < 0) with
    | false =>
      rw [hsign] at h
      cases h
    | true =>
      rw [hsign] at h
      exact .inr (List.mem_singleton.mp h)
  · exact .inl (isAsciiDigit_of_mem_ofNat h)

theorem ofNat_ne_nil (n : Nat) : ofNat n ≠ [] := fun h =>
  Nat.toDigits_ne_nil (List.map_eq_nil_iff.mp h)

/-- **The text of a number spells it.** -/
theorem value_ofNat (n : Nat) : value (ofNat n) = n := by
  have hdigits : value (ofNat n) = Nat.ofDigitChars 10 (Nat.toDigits 10 n) 0 := by
    rw [value, ofNat, List.foldl_map, Nat.ofDigitChars_eq_foldl]
    rfl
  rw [hdigits, Nat.ofDigitChars_ten_toDigits]

theorem ofNat_injective : Function.Injective ofNat := fun m n h => by
  rw [← value_ofNat m, h, value_ofNat]

/-- A number below a power of ten has at most as many digits. -/
theorem length_ofNat_le {n d : Nat} (hd : 0 < d) (h : n < 10 ^ d) : (ofNat n).length ≤ d := by
  rw [ofNat, List.length_map]
  exact (Nat.length_toDigits_le_iff (by decide) hd).mpr h

end Decimal

end Keyscope
