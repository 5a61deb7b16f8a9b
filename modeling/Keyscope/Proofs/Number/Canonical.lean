/-
# Numbers that come up

Every number that is read or calculated comes out of a rounding, so it is a number of the format
(`Binary64.IsCanonical`), or an infinity, or a NaN.  Its whole part is therefore bounded
(`Binary64.natAbs_lt_of_truncate?`), whatever it was read from.
-/
import Keyscope.Number.Numeral
import Keyscope.Proofs.Number.Nearest

namespace Keyscope

theorem twoTo_pos (e : Int) : 0 < twoTo e := Nat.two_pow_pos _

theorem tenTo_natCast (s : Nat) : tenTo s = 10 ^ s := rfl

theorem tenTo_pos (e : Int) : 0 < tenTo e := Nat.pow_pos (by decide)

namespace Binary64

/-! ## 1. Calculated numbers -/

theorem isCanonical_ofDecimal (negative : Bool) (m : Nat) (e : Int) :
    (ofDecimal negative m e).IsCanonical := by
  unfold ofDecimal
  split
  · exact isCanonical_ofRatio _ _ Nat.one_pos
  · exact isCanonical_ofRatio _ _ (tenTo_pos _)

theorem isCanonical_ofInt (n : Int) : (ofInt n).IsCanonical := isCanonical_ofRatio _ _ Nat.one_pos

theorem ratio_pos {m : Nat} (hm : m ≠ 0) (q : Int) : 0 < (ratio m q).1 := by
  unfold ratio
  split
  · exact Nat.mul_pos (Nat.pos_of_ne_zero hm) (twoTo_pos q)
  · exact Nat.pos_of_ne_zero hm

theorem ratio_den_pos (m : Nat) (q : Int) : 0 < (ratio m q).2 := by
  unfold ratio
  split
  · exact Nat.one_pos
  · exact twoTo_pos _

theorem isCanonical_div (x y : Binary64) : (x / y).IsCanonical := by
  show (div x y).IsCanonical
  cases x with
  | nan => trivial
  | infinite s =>
    cases y with
    | _ => trivial
  | finite s m p =>
    cases y with
    | nan => trivial
    | infinite t => exact canonical_zero
    | finite t n q =>
      simp only [div]
      split
      · trivial
      · rename_i hn
        exact isCanonical_ofRatio _ _ (Nat.mul_pos (ratio_den_pos m p) (ratio_pos hn q))

/-! ## 2. Numbers that are read -/

/-- **The whole part of a number of the format is bounded.** -/
theorem natAbs_lt_of_truncate? {x : Binary64} (h : x.IsCanonical) {n : Int}
    (hn : x.truncate? = some n) : n.natAbs < 2 ^ 1024 := by
  cases x with
  | nan => cases hn
  | infinite s => cases hn
  | finite s m q =>
    have hbound : (ratio m q).1 < 2 ^ 1024 := by
      unfold ratio
      split
      · have hexponent : 53 + q.toNat ≤ 1024 := by
          have := h.first
          omega
        have hpow : 2 ^ 53 * twoTo q ≤ 2 ^ 1024 := by
          rw [twoTo, Nat.pow_eq, ← Nat.pow_add]
          exact pow_le_pow_right₀ one_le_two hexponent
        exact Nat.lt_of_lt_of_le (Nat.mul_lt_mul_of_pos_right h.size (twoTo_pos q)) hpow
      · exact Nat.lt_trans h.size (pow_lt_pow_right₀ one_lt_two (by decide))
    have hwhole : (ratio m q).1 / (ratio m q).2 < 2 ^ 1024 :=
      Nat.lt_of_le_of_lt (Nat.div_le_self _ _) hbound
    simp only [truncate?, Option.some.injEq] at hn
    rw [← hn]
    split
    · rwa [Int.natAbs_neg, Int.natAbs_natCast]
    · rwa [Int.natAbs_natCast]

end Binary64

namespace Numeral

open Binary64 (IsCanonical)

theorem isCanonical_realOf (negative : Bool) (digits : Text) (e : Int) :
    (realOf negative digits e).IsCanonical := by
  simp only [realOf]
  split
  · exact Binary64.isCanonical_ofRatio _ _ Nat.one_pos
  · simp only [realOfDigits]
    split
    · exact Binary64.isCanonical_ofRatio _ _ Nat.one_pos
    · split
      · trivial
      · split
        · exact Binary64.isCanonical_ofDecimal _ _ _
        · exact Binary64.isCanonical_ofDecimal _ _ _

theorem isCanonical_unsigned? {negative : Bool} {t : Text} {x : Binary64}
    (h : unsigned? negative t = some x) : x.IsCanonical := by
  simp only [unsigned?, Option.ite_none_left_eq_some, Option.map_eq_some_iff] at h
  obtain ⟨-, e, -, rfl⟩ := h
  exact isCanonical_realOf _ _ _

/-- **A number that is read is one of the format.** -/
theorem isCanonical_realOfPlain {t : Text} {x : Binary64} (h : realOfPlain t = some x) :
    x.IsCanonical := by
  obtain ⟨u, -, h⟩ := Option.bind_eq_some_iff.mp h
  dsimp only at h
  split at h
  · obtain rfl := Option.some.inj h
    trivial
  · split at h
    · obtain rfl := Option.some.inj h
      trivial
    · exact isCanonical_unsigned? h

theorem isCanonical_real {t : Text} {x : Binary64} (h : real t = some x) : x.IsCanonical :=
  isCanonical_realOfPlain h

end Numeral

end Keyscope
