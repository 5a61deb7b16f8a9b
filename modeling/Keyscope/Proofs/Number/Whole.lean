/-
# Whole numbers as floating point numbers

The text of a whole number is read as a floating point number (`Numeral.real_ofInt`).  That one has no
fraction, so nothing is lost when it is made a whole number again (`Binary64.truncate?_ofInt`); what is
lost is lost by rounding to the format.

The whole numbers of the format are those of which 53 binary digits count (`Binary64.Representable`).  A
number is rounded to one that is as near as any (`Binary64.isNearest_nearestInt`), so it is the same
afterwards if and only if it is one of these (`Binary64.IsNearest.eq_iff`).
-/
import Mathlib.Algebra.Ring.Nat
import Mathlib.Data.List.TakeWhile
import Mathlib.Tactic.Common
import Keyscope.Proofs.Number.Numeral

namespace Keyscope

/-! ## 1. Rounding a quotient -/

/-- **No multiple is closer than the one that a quotient is rounded to.** -/
theorem roundDiv_nearest {d : Nat} (hd : 0 < d) (n k : Nat) :
    ((n : Int) - (roundDiv n d * d : Nat)).natAbs ≤ ((n : Int) - (k * d : Nat)).natAbs := by
  have hn : n / d * d + n % d = n := Nat.div_add_mod' n d
  have hrest : n % d < d := Nat.mod_lt n hd
  have hnext : (n / d + 1) * d = n / d * d + d := Nat.succ_mul (n / d) d
  -- a multiple is below the quotient or above it
  have hside : k * d ≤ n / d * d ∨ n / d * d + d ≤ k * d := by
    rcases Nat.lt_or_ge (n / d) k with h | h
    · rw [← hnext]
      exact .inr (Nat.mul_le_mul_right d h)
    · exact .inl (Nat.mul_le_mul_right d h)
  simp only [roundDiv]
  split
  · rw [hnext]
    omega
  · omega

namespace Binary64

/-! ## 2. Numbers of the format -/

/-- **A whole number of the format**, as far as these go: no more than 53 binary digits count. -/
def Representable (n : Int) : Prop := ∃ m e : Nat, m ≤ 2 ^ 53 ∧ n.natAbs = m * 2 ^ e

/-- A whole number of the format that is as near as any. -/
structure IsNearest (n r : Int) : Prop where
  representable : Representable r
  closest : ∀ k, Representable k → (n - r).natAbs ≤ (n - k).natAbs

theorem representable_of_le {n : Int} (h : n.natAbs ≤ 2 ^ 53) : Representable n :=
  ⟨n.natAbs, 0, h, (Nat.mul_one _).symm⟩

/-- What is nearest to a number is the number itself if that is one of the format, and only then. -/
theorem IsNearest.eq_iff {n r : Int} (h : IsNearest n r) : r = n ↔ Representable n := by
  constructor
  · rintro rfl
    exact h.representable
  · intro hn
    have := h.closest n hn
    omega

/-- How many binary digits of a number do not count. -/
def spare (n : Nat) : Nat := n.log2 - 52

/-- The magnitude of the format that a magnitude is rounded to. -/
def nearest (n : Nat) : Nat := roundDiv n (2 ^ spare n) * 2 ^ spare n

theorem lt_two_pow_spare (n : Nat) : n < 2 ^ 53 * 2 ^ spare n := by
  rw [← Nat.pow_add]
  exact Nat.lt_of_lt_of_le Nat.lt_log2_self (Nat.pow_le_pow_right (by decide) (by rw [spare]; omega))

theorem representable_nearest (n : Nat) : Representable (nearest n) := by
  have hquotient : n / 2 ^ spare n < 2 ^ 53 :=
    (Nat.div_lt_iff_lt_mul (Nat.two_pow_pos _)).mpr (lt_two_pow_spare n)
  have hround := roundDiv_le n (2 ^ spare n)
  exact ⟨roundDiv n (2 ^ spare n), spare n, by omega, Int.natAbs_natCast _⟩

/-- **No magnitude of the format is closer than the one that a magnitude is rounded to.** -/
theorem nearest_closest (n : Nat) {m e : Nat} (hm : m ≤ 2 ^ 53) :
    ((n : Int) - nearest n).natAbs ≤ ((n : Int) - (m * 2 ^ e : Nat)).natAbs := by
  have hmultiple := roundDiv_nearest (Nat.two_pow_pos (spare n)) n
  by_cases he : spare n ≤ e
  · -- a multiple of the same power of two
    have hk : m * 2 ^ e = m * 2 ^ (e - spare n) * 2 ^ spare n := by
      rw [Nat.mul_assoc, ← Nat.pow_add, Nat.sub_add_cancel he]
    rw [hk]
    exact hmultiple _
  · -- too small to have so many digits: `2 ^ 52` times the power lies between
    have hbelow : m * 2 ^ e ≤ 2 ^ 52 * 2 ^ spare n := by
      calc m * 2 ^ e ≤ 2 ^ 53 * 2 ^ e := Nat.mul_le_mul_right _ hm
        _ = 2 ^ 52 * 2 ^ (e + 1) := by rw [Nat.pow_succ 2 e]; omega
        _ ≤ 2 ^ 52 * 2 ^ spare n :=
          Nat.mul_le_mul_left _ (Nat.pow_le_pow_right (by decide) (Nat.lt_of_not_le he))
    have habove : 2 ^ 52 * 2 ^ spare n ≤ n := by
      have hlog : 52 + spare n = n.log2 := by
        rw [spare] at he ⊢
        omega
      have hne : n ≠ 0 := by
        rintro rfl
        exact he (Nat.zero_le e)
      rw [← Nat.pow_add, hlog]
      exact Nat.log2_self_le hne
    have := hmultiple (2 ^ 52)
    rw [nearest]
    omega

/-! ## 3. Rounding to the format -/

/-- The magnitude with a sign. -/
def signed (negative : Bool) (n : Nat) : Int := if negative then -(n : Int) else n

theorem twoTo_natCast (s : Nat) : twoTo s = 2 ^ s := rfl

theorem truncate?_finite (negative : Bool) (m s : Nat) :
    (finite negative m s).truncate? = some (signed negative (m * 2 ^ s)) := by
  have hratio : ratio m s = (m * 2 ^ s, 1) := by
    rw [ratio, if_pos (Int.natCast_nonneg s), twoTo_natCast]
  rw [truncate?, hratio]
  simp only [Nat.div_one]
  rfl

theorem truncate?_finite_neg (negative : Bool) (m s : Nat) :
    (finite negative (m * 2 ^ (s + 1)) (-(s + 1 : Nat))).truncate? = some (signed negative m) := by
  have hratio : ratio (m * 2 ^ (s + 1)) (-(s + 1 : Nat)) = (m * 2 ^ (s + 1), 2 ^ (s + 1)) := by
    rw [ratio, if_neg (by omega), Int.neg_neg, twoTo_natCast]
  rw [truncate?, hratio]
  simp only [Nat.mul_div_cancel _ (Nat.two_pow_pos (s + 1))]
  rfl

theorem binaryExponent_one {n : Nat} (hn : n ≠ 0) : binaryExponent n 1 = n.log2 := by
  have hone : (Nat.log2 1 : Int) = 0 := by decide
  have hreaches : 1 * twoTo (n.log2 : Int) ≤ n := by
    rw [Nat.one_mul, twoTo_natCast]
    exact Nat.log2_self_le hn
  simp only [binaryExponent, hone, Int.sub_zero, Int.natCast_nonneg, if_true, hreaches]

variable {n : Nat} (negative : Bool)

/-- What comes of a significand and an exponent: rounding may give it one digit more, and then the exponent
grows. -/
theorem ofRatio_eq {d m : Nat} {q : Int} (hn : n ≠ 0) (hq : max (binaryExponent n d - 52) (-1074) = q)
    (hm : (if 0 ≤ q then roundDiv n (d * twoTo q) else roundDiv (n * twoTo (-q)) d) = m) (hsize : q < 971) :
    ofRatio negative n d =
      if m = 2 ^ 53 then finite negative (2 ^ 52) (q + 1) else finite negative m q := by
  have htwo : twoTo 53 = 2 ^ 53 := rfl
  rw [ofRatio, if_neg hn]
  simp only [hq, hm, htwo]
  split
  · exact if_neg (Int.not_lt.mpr hsize)
  · exact if_neg (Int.not_lt.mpr (Int.le_of_lt hsize))

/-- A number of few digits is scaled up. -/
theorem ofRatio_one_of_lt (hn : n ≠ 0) {s : Nat} (hs : n.log2 + (s + 1) = 52) :
    ofRatio negative n 1 = finite negative (n * 2 ^ (s + 1)) (-(s + 1 : Nat)) := by
  have hsmall : n * 2 ^ (s + 1) < 2 ^ 53 := by
    calc n * 2 ^ (s + 1) < 2 ^ (n.log2 + 1) * 2 ^ (s + 1) :=
          Nat.mul_lt_mul_of_pos_right Nat.lt_log2_self (Nat.two_pow_pos _)
      _ = 2 ^ 53 := by rw [← Nat.pow_add, Nat.add_right_comm, hs]
  have hround : roundDiv (n * 2 ^ (s + 1)) 1 = n * 2 ^ (s + 1) := by
    simpa using roundDiv_mul Nat.one_pos (n * 2 ^ (s + 1))
  rw [@ofRatio_eq n negative 1 (n * 2 ^ (s + 1)) (-(s + 1 : Nat)) hn, if_neg (Nat.ne_of_lt hsmall)]
  · rw [binaryExponent_one hn]
    omega
  · rw [if_neg (by omega), Int.neg_neg, twoTo_natCast, hround]
  · omega

/-- A number of many digits is rounded behind those that count. -/
theorem ofRatio_one_of_le (hlog : 52 ≤ n.log2) {b : Nat} (hb : b ≤ 1023) (hn : n < 2 ^ b) :
    ofRatio negative n 1 =
      if roundDiv n (2 ^ spare n) = 2 ^ 53 then finite negative (2 ^ 52) (spare n + 1)
      else finite negative (roundDiv n (2 ^ spare n)) (spare n) := by
  have hne : n ≠ 0 := by
    rintro rfl
    exact absurd hlog (by decide)
  have hspare : (spare n : Int) = n.log2 - 52 := Int.ofNat_sub hlog
  have hsize : n.log2 < b := (Nat.log2_lt hne).mpr hn
  refine ofRatio_eq negative hne ?_ ?_ (by omega)
  · rw [binaryExponent_one hne]
    omega
  · rw [if_pos (Int.natCast_nonneg _), Nat.one_mul, twoTo_natCast]

/-- **A whole number is rounded to a whole number**, as long as it is not beyond the format. -/
theorem truncate?_ofRatio_one {b : Nat} (hb : b ≤ 1023) (hn : n < 2 ^ b) :
    (ofRatio negative n 1).truncate? = some (signed negative (nearest n)) := by
  by_cases hzero : n = 0
  · subst hzero
    simp [ofRatio, truncate?, ratio, nearest, roundDiv, signed]
  rcases Nat.lt_or_ge n.log2 52 with hlog | hlog
  · obtain ⟨s, hs⟩ : ∃ s, n.log2 + (s + 1) = 52 := ⟨51 - n.log2, by omega⟩
    have hspare : spare n = 0 := Nat.sub_eq_zero_of_le (Nat.le_of_lt hlog)
    have hsame : nearest n = n := by
      rw [nearest, hspare]
      simpa using roundDiv_mul Nat.one_pos n
    rw [ofRatio_one_of_lt negative hzero hs, truncate?_finite_neg, hsame]
  · rw [ofRatio_one_of_le negative hlog hb hn]
    split
    · rename_i hcarry
      have hgrown : 2 ^ 52 * 2 ^ (spare n + 1) = 2 ^ 53 * 2 ^ spare n := by
        rw [Nat.pow_succ]
        omega
      rw [nearest, hcarry, ← hgrown]
      exact truncate?_finite negative (2 ^ 52) (spare n + 1)
    · exact truncate?_finite negative _ _

/-- The number of the format that a whole number is rounded to. -/
def nearestInt (n : Int) : Int := signed (n < 0) (nearest n.natAbs)

/-- A whole number that is made a real one and back is rounded. -/
theorem truncate?_ofInt {n : Int} {b : Nat} (hb : b ≤ 1023) (hn : n.natAbs < 2 ^ b) :
    (ofInt n).truncate? = some (nearestInt n) :=
  truncate?_ofRatio_one _ hb hn

theorem natAbs_signed (n : Nat) : (signed negative n).natAbs = n := by
  cases negative <;> simp [signed]

/-- **A whole number is rounded to one of the format that is as near as any.** -/
theorem isNearest_nearestInt (n : Int) : IsNearest n (nearestInt n) := by
  refine ⟨?_, ?_⟩
  · obtain ⟨m, e, hm, hvalue⟩ := representable_nearest n.natAbs
    exact ⟨m, e, hm, (natAbs_signed _ _).trans hvalue⟩
  · rintro k ⟨m, e, hm, hk⟩
    have hclosest := @nearest_closest n.natAbs m e hm
    rw [← hk] at hclosest
    -- the number and what it becomes have the same sign
    by_cases hsign : n < 0
    · rw [nearestInt, decide_eq_true hsign, signed, if_pos rfl]
      omega
    · rw [nearestInt, decide_eq_false hsign, signed, if_neg Bool.false_ne_true]
      omega

end Binary64

/-! ## 4. The text of a whole number -/

/-- Nothing is dropped from the ends of a text that has nothing to drop. -/
theorem Text.trim_eq_self {p : CodePoint → Bool} {t : Text} (h : ∀ c ∈ t, p c = false) :
    trim p t = t := by
  have hdrop : ∀ u : Text, (∀ c ∈ u, p c = false) → u.dropWhile p = u := fun u hu =>
    List.dropWhile_eq_self_iff.mpr fun hlength => by simp [hu _ (List.getElem_mem hlength)]
  rw [trim, hdrop t h, hdrop t.reverse fun c hc => h c (List.mem_reverse.mp hc), List.reverse_reverse]

/-- Zeros in front do not count. -/
theorem Decimal.value_dropZeros : ∀ ds : Text, value (ds.dropWhile (· = ('0' : CodePoint))) = value ds
  | [] => rfl
  | c :: ds => by
    by_cases hc : c = '0'
    · subst hc
      exact value_dropZeros ds
    · rw [List.dropWhile_cons_of_neg (by simpa using hc)]

namespace Numeral

theorem dropUnderscores_eq : ∀ {t : Text}, ('_' : CodePoint) ∉ t → ∀ afterDigit : Bool,
    dropUnderscores afterDigit t = some t
  | [], _, _ => rfl
  | c :: t, h, afterDigit => by
    rw [List.mem_cons, not_or] at h
    rw [dropUnderscores.eq_def]
    simp only [if_neg (Ne.symm h.1), dropUnderscores_eq h.2, Option.map_some]

/-- The number that digits spell, where there are not very many of them. -/
theorem realOf_digits (negative : Bool) {ds : Text} (h : ds.length ≤ 400) :
    realOf negative ds 0 = .ofRatio negative (Decimal.value ds) 1 := by
  rw [realOf, ← Decimal.value_dropZeros ds]
  have hlength : (ds.dropWhile (· = ('0' : CodePoint))).length ≤ ds.length :=
    (List.dropWhile_sublist _).length_le
  generalize ds.dropWhile (· = ('0' : CodePoint)) = rest at *
  cases rest with
  | nil => rfl
  | cons c rest =>
    have hten : tenTo 0 = 1 := rfl
    have hshort : (c :: rest).length ≤ 400 := Nat.le_trans hlength h
    simp only [List.isEmpty_cons, Bool.false_eq_true, if_false, realOfDigits]
    rw [if_neg (by omega), if_neg (by omega), if_pos (Nat.le_trans hshort (by decide)), Binary64.ofDecimal,
      if_pos (Int.le_refl 0), hten, Nat.mul_one]

/-- Digits alone are a number without a point and without an exponent. -/
theorem unsigned?_digits (negative : Bool) {ds : Text} (hne : ds ≠ [])
    (hds : ∀ c ∈ ds, c.isAsciiDigit = true) : unsigned? negative ds = some (realOf negative ds 0) := by
  have htake : ds.takeWhile CodePoint.isAsciiDigit = ds := List.takeWhile_eq_self_iff.mpr hds
  have hdrop : ds.dropWhile CodePoint.isAsciiDigit = [] := List.dropWhile_eq_nil_iff.mpr hds
  have hsome : ds.isEmpty = false := by simpa using hne
  simp only [unsigned?, htake, hdrop, hsome, Bool.false_and, Bool.false_eq_true, if_false, exponent?,
    Option.map_some, List.append_nil, List.length_nil]
  rfl

theorem sign_ofInt (n : Int) : sign (Decimal.ofInt n) = (decide (n < 0), Decimal.ofNat n.natAbs) := by
  rw [Decimal.ofInt]
  cases hsign : decide (n < 0) with
  | true => rfl
  | false =>
    obtain ⟨c, ds, hds⟩ := List.exists_cons_of_ne_nil (Decimal.ofNat_ne_nil n.natAbs)
    have hc : c ∈ Decimal.ofNat n.natAbs := by rw [hds]; exact List.mem_cons_self
    rw [hds]
    exact sign_cons_digit (Decimal.isAsciiDigit_of_mem_ofNat hc) ds

theorem asciiLower_ofNat (n : Nat) : Text.asciiLower (Decimal.ofNat n) = Decimal.ofNat n := by
  refine (List.map_congr_left fun c hc => ?_).trans (List.map_id _)
  have hdigit := CodePoint.isAsciiDigit_iff.mp (Decimal.isAsciiDigit_of_mem_ofNat hc)
  rw [CodePoint.asciiLower, if_neg (by omega)]
  rfl

/-- The text of a whole number stays as it is before it is read. -/
theorem plain_ofInt (n : Int) : plain (Decimal.ofInt n) = Decimal.ofInt n := by
  refine if_pos (List.all_eq_true.mpr fun c hc => ?_)
  rcases Decimal.digit_or_minus_of_mem_ofInt hc with hdigit | rfl
  · rw [CodePoint.isAsciiDigit_iff] at hdigit
    exact decide_eq_true (by omega)
  · rfl

theorem stripAscii_ofInt (n : Int) : Text.stripAscii (Decimal.ofInt n) = Decimal.ofInt n := by
  refine Text.trim_eq_self fun c hc => ?_
  rcases Decimal.digit_or_minus_of_mem_ofInt hc with hdigit | rfl
  · exact CodePoint.isAsciiBlank_of_isAsciiDigit hdigit
  · rfl

theorem underscore_not_mem_ofInt (n : Int) : ('_' : CodePoint) ∉ Decimal.ofInt n := fun hc => by
  rcases Decimal.digit_or_minus_of_mem_ofInt hc with hdigit | hminus
  · exact absurd hdigit (by decide)
  · exact absurd hminus (by decide)

/-- **The text of a whole number is read as that number**, rounded to the format. -/
theorem real_ofInt {n : Int} {d : Nat} (hd : 0 < d) (hd' : d ≤ 400) (hn : n.natAbs < 10 ^ d) :
    real (Decimal.ofInt n) = some (Binary64.ofInt n) := by
  have hdigits : ∀ c ∈ Decimal.ofNat n.natAbs, c.isAsciiDigit = true := fun c hc =>
    Decimal.isAsciiDigit_of_mem_ofNat hc
  -- the words for numbers that are not finite are not made of digits
  have hword : ∀ w : Text, w.all CodePoint.isAsciiDigit = false → Decimal.ofNat n.natAbs ≠ w := by
    rintro w hw rfl
    rw [List.all_eq_true.mpr hdigits] at hw
    cases hw
  rw [real, plain_ofInt, realOfPlain, stripAscii_ofInt, dropUnderscores_eq (underscore_not_mem_ofInt n),
    Option.bind_some, sign_ofInt]
  simp only [asciiLower_ofNat]
  rw [if_neg (not_or.mpr ⟨hword _ rfl, hword _ rfl⟩), if_neg (hword _ rfl),
    unsigned?_digits _ (Decimal.ofNat_ne_nil _) hdigits,
    realOf_digits _ (Nat.le_trans (Decimal.length_ofNat_le hd hn) hd'), Decimal.value_ofNat, Binary64.ofInt]

end Numeral

end Keyscope
