/-
# The number of the format that is nearest to a quotient

A quotient is counted in units of the last place, and the count is rounded to a whole number
(`Binary64.isRounded_scaled`).  The place is the one at which 53 binary digits are left, and no place
below the last of the format (`Binary64.place`).  So the result has its full number of digits or stands
in that last place (`Binary64.isCanonical_ofRatio`), unless it is too large for the format
(`Binary64.ofRatio_eq_infinite`).

Read backwards: the quotients that become a given number are those between the middles to its two
neighbours, and the middles themselves if its last digit is even (`Binary64.RoundsTo`,
`Binary64.ofRatio_eq_finite`).  The neighbour below a power of two is only half as far away, because
there the place changes.
-/
import Mathlib.Data.Int.Log
import Mathlib.Data.Rat.Floor
import Mathlib.Tactic.FieldSimp
import Mathlib.Tactic.Linarith
import Mathlib.Tactic.NormNum
import Mathlib.Tactic.Positivity
import Keyscope.Proofs.Number.Line

namespace Keyscope

/-! ## 1. Rounding to a whole number -/

/-- A whole number that is nearest to a rational one; of two it is the even one. -/
structure IsRounded (v : ℚ) (k : Nat) : Prop where
  close : |v - k| ≤ 1 / 2
  even : |v - k| = 1 / 2 → k % 2 = 0

variable {v : ℚ} {k l n d : Nat} {q : Int}

theorem isRounded_iff : IsRounded v k ↔
    (k : ℚ) - 1 / 2 ≤ v ∧ v ≤ k + 1 / 2 ∧ (v = k - 1 / 2 ∨ v = k + 1 / 2 → k % 2 = 0) := by
  have hhalf : |v - k| = 1 / 2 ↔ v = k - 1 / 2 ∨ v = k + 1 / 2 := by
    rw [abs_eq (by norm_num), or_comm, sub_eq_iff_eq_add, sub_eq_iff_eq_add]
    ring_nf
  constructor
  · rintro ⟨hclose, heven⟩
    rw [abs_le] at hclose
    exact ⟨by linarith, by linarith, fun h => heven (hhalf.mpr h)⟩
  · rintro ⟨hlow, hhigh, heven⟩
    exact ⟨abs_le.mpr ⟨by linarith, by linarith⟩, fun h => heven (hhalf.mp h)⟩

/-- **There is only one.**  Two that are nearest are next to each other, and then they are both even. -/
theorem IsRounded.unique (h : IsRounded v k) (h' : IsRounded v l) : k = l := by
  obtain ⟨hlow, hhigh, heven⟩ := isRounded_iff.mp h
  obtain ⟨hlow', hhigh', heven'⟩ := isRounded_iff.mp h'
  have hkl : (k : ℚ) ≤ l + 1 := by linarith
  have hlk : (l : ℚ) ≤ k + 1 := by linarith
  have hkl : k ≤ l + 1 := by exact_mod_cast hkl
  have hlk : l ≤ k + 1 := by exact_mod_cast hlk
  by_contra hne
  rcases Nat.lt_or_gt_of_ne hne with hlt | hlt
  · obtain rfl : l = k + 1 := by omega
    push_cast at hlow' hhigh' heven'
    have hmiddle : v = k + 1 / 2 := by linarith
    have := heven (.inr hmiddle)
    have := heven' (.inl (by linarith))
    omega
  · obtain rfl : k = l + 1 := by omega
    push_cast at hlow hhigh heven
    have hmiddle : v = l + 1 / 2 := by linarith
    have := heven' (.inr hmiddle)
    have := heven (.inl (by linarith))
    omega

theorem isRounded_roundDiv (hd : 0 < d) (n : Nat) : IsRounded ((n : ℚ) / d) (roundDiv n d) := by
  have hdq : (0 : ℚ) < d := by exact_mod_cast hd
  have hsplit : (n : ℚ) = (n / d : Nat) * d + (n % d : Nat) := by
    exact_mod_cast (Nat.div_add_mod' n d).symm
  have hrest : ((n % d : Nat) : ℚ) < d := by exact_mod_cast Nat.mod_lt n hd
  rw [isRounded_iff, sub_le_iff_le_add, div_le_iff₀ hdq, ← sub_le_iff_le_add, le_div_iff₀ hdq,
    div_eq_iff hdq.ne', div_eq_iff hdq.ne']
  simp only [roundDiv]
  generalize n / d = k at *
  generalize n % d = r at *
  rw [hsplit]
  split
  · rename_i hup
    have hhalf : (d : ℚ) ≤ 2 * r := by exact_mod_cast (by omega : d ≤ 2 * r)
    push_cast
    refine ⟨by linarith, by linarith, fun hmiddle => ?_⟩
    have hhalf : (2 * r : ℚ) = d := by
      rcases hmiddle with hmiddle | hmiddle
      · linarith
      · linarith
    have hhalf : 2 * r = d := by exact_mod_cast hhalf
    omega
  · rename_i hdown
    have hhalf : (2 * r : ℚ) ≤ d := by exact_mod_cast (by omega : 2 * r ≤ d)
    have hr : (0 : ℚ) ≤ r := Nat.cast_nonneg r
    refine ⟨by linarith, by linarith, fun hmiddle => ?_⟩
    have hhalf : (2 * r : ℚ) = d := by
      rcases hmiddle with hmiddle | hmiddle
      · linarith
      · linarith
    have hhalf : 2 * r = d := by exact_mod_cast hhalf
    omega

namespace Binary64

/-! ## 2. The last place -/

theorem quotient_pos (hn : n ≠ 0) (hd : d ≠ 0) : (0 : ℚ) < n / d :=
  div_pos (by exact_mod_cast Nat.pos_of_ne_zero hn) (by exact_mod_cast Nat.pos_of_ne_zero hd)

/-- The lengths of the two leave two candidates for the exponent of a quotient. -/
theorem log_between (hn : n ≠ 0) (hd : d ≠ 0) :
    (n.log2 : Int) - d.log2 - 1 ≤ Int.log 2 ((n : ℚ) / d) ∧
      Int.log 2 ((n : ℚ) / d) < (n.log2 : Int) - d.log2 + 1 := by
  have hv := quotient_pos hn hd
  have hdq : (0 : ℚ) < d := by exact_mod_cast Nat.pos_of_ne_zero hd
  have hnlow : (2 : ℚ) ^ (n.log2 : Int) ≤ n := by exact_mod_cast Nat.log2_self_le hn
  have hnhigh : (n : ℚ) < 2 ^ ((n.log2 : Int) + 1) := by exact_mod_cast Nat.lt_log2_self (n := n)
  have hdlow : (2 : ℚ) ^ (d.log2 : Int) ≤ d := by exact_mod_cast Nat.log2_self_le hd
  have hdhigh : (d : ℚ) < 2 ^ ((d.log2 : Int) + 1) := by exact_mod_cast Nat.lt_log2_self (n := d)
  constructor
  · rw [← Int.zpow_le_iff_le_log one_lt_two hv, le_div_iff₀ hdq]
    refine (mul_le_mul_of_nonneg_left hdhigh.le (by positivity)).trans ?_
    rw [Nat.cast_two, ← zpow_add₀ two_ne_zero]
    exact (zpow_le_zpow_right₀ one_le_two (by omega)).trans hnlow
  · rw [← Int.lt_zpow_iff_log_lt one_lt_two hv, div_lt_iff₀ hdq]
    refine hnhigh.trans_le ?_
    refine le_trans ?_ (mul_le_mul_of_nonneg_left hdlow (by positivity))
    rw [Nat.cast_two, ← zpow_add₀ two_ne_zero]
    exact zpow_le_zpow_right₀ one_le_two (by omega)

/-- A comparison of whole numbers tells whether a quotient reaches a power of two. -/
theorem reaches_iff (hn : n ≠ 0) (hd : d ≠ 0) (e : Int) :
    (if 0 ≤ e then d * twoTo e ≤ n else d ≤ n * twoTo (-e)) ↔ e ≤ Int.log 2 ((n : ℚ) / d) := by
  have hdq : (0 : ℚ) < d := by exact_mod_cast Nat.pos_of_ne_zero hd
  rw [← Int.zpow_le_iff_le_log one_lt_two (quotient_pos hn hd), le_div_iff₀ hdq, Nat.cast_two]
  split
  · rename_i he
    rw [← cast_twoTo he, mul_comm]
    exact_mod_cast Iff.rfl
  · rename_i he
    have hscale : (d : ℚ) ≤ n * 2 ^ (-e) ↔ 2 ^ e * (d : ℚ) ≤ n := by
      rw [zpow_neg, ← div_eq_mul_inv, le_div_iff₀ (by positivity), mul_comm]
    rw [← hscale, ← cast_twoTo (by omega : 0 ≤ -e)]
    exact_mod_cast Iff.rfl

/-- The exponent of the leading binary digit. -/
theorem binaryExponent_eq (hn : n ≠ 0) (hd : d ≠ 0) :
    binaryExponent n d = Int.log 2 ((n : ℚ) / d) := by
  obtain ⟨hlow, hhigh⟩ := log_between hn hd
  simp only [binaryExponent, reaches_iff hn hd]
  split
  · omega
  · omega

/-- The exponent of the last digit that is kept of a positive number. -/
def place (v : ℚ) : Int := max (Int.log 2 v - 52) (-1074)

/-- A quotient counted in units of a place, and rounded. -/
def scaled (n d : Nat) (q : Int) : Nat :=
  if 0 ≤ q then roundDiv n (d * twoTo q) else roundDiv (n * twoTo (-q)) d

theorem isRounded_scaled (hd : 0 < d) (n : Nat) (q : Int) :
    IsRounded ((n : ℚ) / d / 2 ^ q) (scaled n d q) := by
  unfold scaled
  split
  · rename_i hq
    have h := isRounded_roundDiv (Nat.mul_pos hd (Nat.two_pow_pos q.toNat)) n
    rwa [Nat.cast_mul, show ((2 ^ q.toNat : Nat) : ℚ) = 2 ^ q from cast_twoTo hq, ← div_div] at h
  · rename_i hq
    have h := isRounded_roundDiv hd (n * twoTo (-q))
    rwa [Nat.cast_mul, cast_twoTo (by omega), zpow_neg, mul_div_right_comm, ← div_eq_mul_inv] at h

/-- A number of units of a place, which may be one too many for the format. -/
def carried (negative : Bool) (m : Nat) (q : Int) : Binary64 :=
  if m = 2 ^ 53 then if 971 < q + 1 then infinite negative else finite negative (2 ^ 52) (q + 1)
  else if 971 < q then infinite negative else finite negative m q

/-- **A quotient is rounded in its last place.** -/
theorem ofRatio_eq_carried (negative : Bool) (hn : n ≠ 0) (hd : 0 < d) {m : Nat}
    (hm : IsRounded ((n : ℚ) / d / 2 ^ place ((n : ℚ) / d)) m) :
    ofRatio negative n d = carried negative m (place ((n : ℚ) / d)) := by
  obtain rfl := (isRounded_scaled hd n _).unique hm
  have hplace : max (Int.log 2 ((n : ℚ) / d) - 52) (-1074) = place ((n : ℚ) / d) := rfl
  have hscaled : ∀ q, (if 0 ≤ q then roundDiv n (d * twoTo q) else roundDiv (n * twoTo (-q)) d) =
    scaled n d q := fun _ => rfl
  simp only [ofRatio, if_neg hn, binaryExponent_eq hn hd.ne', hplace, hscaled]
  have htwo : twoTo 53 = 2 ^ 53 ∧ twoTo 52 = 2 ^ 52 := ⟨rfl, rfl⟩
  rw [htwo.1, htwo.2, carried]
  split <;> rfl

theorem carried_eq_infinite {negative : Bool} {m : Nat} :
    (∃ s, carried negative m q = infinite s) ↔ 971 < q ∨ m = 2 ^ 53 ∧ q = 971 := by
  rw [carried]
  split
  · split
    · exact iff_of_true ⟨_, rfl⟩ (by omega)
    · exact iff_of_false (by simp) (by omega)
  · split
    · exact iff_of_true ⟨_, rfl⟩ (by omega)
    · exact iff_of_false (by simp) (by omega)

/-- **A number stands in a place or a later one if it fills the digits there.** -/
theorem le_place_iff (hv : 0 < v) {e : Int} (he : -1074 < e) : e ≤ place v ↔ 2 ^ 52 * 2 ^ e ≤ v := by
  have h := Int.zpow_le_iff_le_log (x := (52 : Nat) + e) one_lt_two hv
  rw [Nat.cast_two, zpow_add₀ two_ne_zero, zpow_natCast] at h
  rw [h, place]
  omega

/-- Fifty-three digits reach to the last place. -/
theorem div_place_lt (v : ℚ) : v / 2 ^ place v < 2 ^ 53 := by
  rw [div_lt_iff₀ (by positivity), ← zpow_natCast, ← zpow_add₀ two_ne_zero]
  refine (Int.lt_zpow_succ_log_self one_lt_two v).trans_le ?_
  rw [Nat.cast_two]
  refine zpow_le_zpow_right₀ one_le_two ?_
  have := le_max_left (Int.log 2 v - 52) (-1074)
  rw [place]
  push_cast
  omega

/-- They are all needed unless that is the last place of the format. -/
theorem le_div_place (hv : 0 < v) (h : place v ≠ -1074) : 2 ^ 52 ≤ v / 2 ^ place v := by
  have hlast : -1074 < place v := lt_of_le_of_ne (le_max_right _ _) h.symm
  rw [le_div_iff₀ (by positivity)]
  exact (le_place_iff hv hlast).mp le_rfl

/-! ## 3. Numbers of the format -/

/-- **A significand and an exponent of the format.**  The significand has fifty-three digits unless it
stands in the last place. -/
structure Canonical (m : Nat) (q : Int) : Prop where
  size : m < 2 ^ 53
  last : -1074 ≤ q
  first : q ≤ 971
  full : 2 ^ 52 ≤ m ∨ q = -1074

/-- A number of the format; infinities and NaN are. -/
def IsCanonical : Binary64 → Prop
  | finite _ m q => Canonical m q
  | _ => True

theorem canonical_zero : Canonical 0 (-1074) := ⟨by decide, by decide, by decide, .inr rfl⟩

/-- **What a quotient is rounded to is a number of the format.** -/
theorem isCanonical_ofRatio (negative : Bool) (n : Nat) (hd : 0 < d) :
    (ofRatio negative n d).IsCanonical := by
  by_cases hn : n = 0
  · rw [ofRatio, if_pos hn]
    exact canonical_zero
  have hv := quotient_pos hn hd.ne'
  have hm := isRounded_scaled hd n (place ((n : ℚ) / d))
  rw [ofRatio_eq_carried negative hn hd hm]
  generalize scaled n d (place ((n : ℚ) / d)) = m at hm
  generalize (n : ℚ) / d = v at *
  obtain ⟨hlow, hhigh, -⟩ := isRounded_iff.mp hm
  have hsize : m ≤ 2 ^ 53 := by
    have hlt := div_place_lt v
    have : (m : ℚ) < (2 ^ 53 + 1 : Nat) := by
      push_cast
      linarith
    have : m < 2 ^ 53 + 1 := by exact_mod_cast this
    omega
  have hlast : -1074 ≤ place v := le_max_right _ _
  unfold carried
  split
  · split
    · trivial
    · exact ⟨by decide, by omega, by omega, .inl (Nat.le_refl _)⟩
  · split
    · trivial
    · refine ⟨by omega, hlast, by omega, ?_⟩
      by_cases hplace : place v = -1074
      · exact .inr hplace
      · have hfull := le_div_place hv hplace
        have : ((2 ^ 52 : Nat) : ℚ) < (m + 1 : Nat) := by
          push_cast
          linarith
        have : 2 ^ 52 < m + 1 := by exact_mod_cast this
        exact .inl (by omega)

/-! ## 4. Beyond the format -/

/-- The middle between the largest number of the format and the power of two above it. -/
def limit : Nat := (2 ^ 54 - 1) * 2 ^ 970

/-- **A quotient becomes infinite from that middle on.** -/
theorem ofRatio_eq_infinite (negative : Bool) (n : Nat) (hd : 0 < d) :
    (∃ s, ofRatio negative n d = infinite s) ↔ (limit : ℚ) ≤ n / d := by
  have hlimit : (limit : ℚ) = (2 ^ 53 - 1 / 2) * 2 ^ (971 : Int) := by
    rw [limit, Nat.cast_mul, Nat.cast_pow, Nat.cast_two,
      show (971 : Int) = (970 : Nat) + 1 from rfl, zpow_add_one₀ two_ne_zero, zpow_natCast]
    generalize (2 : ℚ) ^ 970 = unit
    push_cast
    ring
  by_cases hn : n = 0
  · subst hn
    rw [ofRatio, if_pos rfl, hlimit, Nat.cast_zero, zero_div]
    exact iff_of_false (by simp) (by norm_num)
  have hv := quotient_pos hn hd.ne'
  have hm := isRounded_scaled hd n (place ((n : ℚ) / d))
  rw [ofRatio_eq_carried negative hn hd hm, carried_eq_infinite, hlimit]
  generalize scaled n d (place ((n : ℚ) / d)) = m at hm
  generalize (n : ℚ) / d = v at *
  have hbeyond := le_place_iff hv (e := 972) (by decide)
  have hlast := le_place_iff hv (e := 971) (by decide)
  have hq : (0 : ℚ) < 2 ^ (971 : Int) := by positivity
  rw [show (972 : Int) = 971 + 1 from rfl, zpow_add_one₀ two_ne_zero] at hbeyond
  have hm : place v = 971 → IsRounded (v / 2 ^ (971 : Int)) m := fun hplace => hplace ▸ hm
  generalize (2 : ℚ) ^ (971 : Int) = unit at *
  constructor
  · rintro (hplace | ⟨rfl, hplace⟩)
    · have := hbeyond.mp hplace
      linarith
    · have hlow := (isRounded_iff.mp (hm hplace)).1
      rw [le_div_iff₀ hq] at hlow
      exact_mod_cast hlow
  · intro hlow
    by_cases hplace : 971 < place v
    · exact .inl hplace
    · have hbelow := not_le.mp (mt hbeyond.mpr hplace)
      have hplace : place v = 971 := by
        have := hlast.mpr (by linarith)
        omega
      refine .inr ⟨(hm hplace).unique ?_, hplace⟩
      rw [isRounded_iff, le_div_iff₀ hq, div_le_iff₀ hq]
      push_cast
      exact ⟨hlow, by linarith, fun _ => by decide⟩

/-! ## 5. What becomes of a number -/

/-- The middle between a number and the one below it, in units of its last place. -/
def below (m : Nat) (q : Int) : ℚ := if m = 2 ^ 52 ∧ -1074 < q then m - 1 / 4 else m - 1 / 2

/-- **A rational number is rounded to a number of the format.**  It is between the middles to the two
neighbours, or one of them if the last digit is even. -/
structure RoundsTo (v : ℚ) (m : Nat) (q : Int) : Prop where
  low : below m q * 2 ^ q ≤ v
  high : v ≤ (m + 1 / 2) * 2 ^ q
  even : v = below m q * 2 ^ q ∨ v = (m + 1 / 2) * 2 ^ q → m % 2 = 0

theorem below_le (m : Nat) (q : Int) : (m : ℚ) - 1 / 2 ≤ below m q := by
  unfold below
  split <;> linarith

theorem RoundsTo.isRounded {m : Nat} (h : RoundsTo v m q) : IsRounded (v / 2 ^ q) m := by
  have hq : (0 : ℚ) < 2 ^ q := by positivity
  have hbelow := mul_le_mul_of_nonneg_right (below_le m q) hq.le
  rw [isRounded_iff, le_div_iff₀ hq, div_le_iff₀ hq, div_eq_iff hq.ne', div_eq_iff hq.ne']
  refine ⟨hbelow.trans h.low, h.high, fun hmiddle => h.even ?_⟩
  rcases hmiddle with hmiddle | hmiddle
  · exact .inl (le_antisymm (hmiddle.trans_le hbelow) h.low)
  · exact .inr hmiddle

theorem RoundsTo.pos {m : Nat} (h : RoundsTo v m q) (hm : m ≠ 0) : 0 < v := by
  have hmq : (1 : ℚ) ≤ m := by exact_mod_cast Nat.one_le_iff_ne_zero.mpr hm
  exact lt_of_lt_of_le (mul_pos (by linarith [below_le m q]) (by positivity)) h.low

/-- The middle above a number of the format has no more digits than the number. -/
theorem RoundsTo.place_le {m : Nat} (h : RoundsTo v m q) (hm : m ≠ 0) (hcanonical : Canonical m q) :
    place v ≤ q := by
  have hsize : (m : ℚ) + 1 ≤ 2 ^ 53 := by exact_mod_cast hcanonical.size
  have hupper : v < 2 ^ (53 + q) := by
    rw [zpow_add₀ two_ne_zero]
    refine h.high.trans_lt (mul_lt_mul_of_pos_right ?_ (by positivity))
    exact lt_of_lt_of_le (by linarith) hsize
  have hlog : Int.log 2 v < 53 + q := by
    rw [← Int.lt_zpow_iff_log_lt one_lt_two (h.pos hm)]
    exact_mod_cast hupper
  exact max_le (by omega) hcanonical.last

/-- The middle below a number of the format has as many digits, unless the number is a power of two. -/
theorem RoundsTo.eq_power {m : Nat} (h : RoundsTo v m q) (hcanonical : Canonical m q) (hq : -1074 < q)
    (hlower : v < 2 ^ 52 * 2 ^ q) : m = 2 ^ 52 := by
  have hunit : (0 : ℚ) < 2 ^ q := by positivity
  have hlt : ((m : ℚ) - 1 / 2) * 2 ^ q < 2 ^ 52 * 2 ^ q :=
    ((mul_le_mul_of_nonneg_right (below_le m q) hunit.le).trans h.low).trans_lt hlower
  have hlt : (m : ℚ) < (2 ^ 52 + 1 : Nat) := by
    have := lt_of_mul_lt_mul_right hlt hunit.le
    push_cast
    linarith
  have hlt : m < 2 ^ 52 + 1 := by exact_mod_cast hlt
  rcases hcanonical.full with hfull | hfull
  · omega
  · omega

/-- **Below a power of two a number is counted in the place before**, and carried up from there. -/
theorem RoundsTo.isRounded_before (h : RoundsTo v (2 ^ 52) q) (hq : -1074 < q)
    (hlower : v < 2 ^ 52 * 2 ^ q) : place v = q - 1 ∧ IsRounded (v / 2 ^ (q - 1)) (2 ^ 53) := by
  have hunit : (0 : ℚ) < 2 ^ q := by positivity
  have hv : 0 < v := h.pos (by decide)
  have hlow := h.low
  rw [below, if_pos ⟨rfl, hq⟩] at hlow
  push_cast at hlow
  constructor
  · have hplace := (le_place_iff hv hq).not.mpr (not_le.mpr hlower)
    have hlog : 51 + q ≤ Int.log 2 v := by
      rw [← Int.zpow_le_iff_le_log one_lt_two hv, Nat.cast_two, zpow_add₀ two_ne_zero]
      refine le_trans (mul_le_mul_of_nonneg_right ?_ hunit.le) hlow
      norm_num
    have hge : 51 + q - 52 ≤ place v := le_max_of_le_left (by omega)
    omega
  · have hstep : (2 : ℚ) ^ q = 2 ^ (q - 1) * 2 := by
      rw [← zpow_add_one₀ two_ne_zero, sub_add_cancel]
    have hunit' : (0 : ℚ) < 2 ^ (q - 1) := by positivity
    rw [hstep] at hlow hlower
    rw [isRounded_iff, le_div_iff₀ hunit', div_le_iff₀ hunit']
    push_cast
    exact ⟨by linarith, by linarith, fun _ => by decide⟩

/-- **What is between the middles becomes the number**: it is counted in the same place, or, below a
power of two, in the next one, where rounding carries it up. -/
theorem ofRatio_eq_finite (negative : Bool) {m : Nat} (hm : m ≠ 0) (hcanonical : Canonical m q)
    (hd : 0 < d) (h : RoundsTo ((n : ℚ) / d) m q) : ofRatio negative n d = finite negative m q := by
  have hv := h.pos hm
  have hn : n ≠ 0 := by
    rintro rfl
    simp at hv
  have hle := h.place_le hm hcanonical
  have hfirst := hcanonical.first
  by_cases hplace : place ((n : ℚ) / d) = q
  · have hcount := h.isRounded
    rw [← hplace] at hcount
    rw [ofRatio_eq_carried negative hn hd hcount, hplace, carried,
      if_neg (Nat.ne_of_lt hcanonical.size), if_neg (by omega)]
  · have hq : -1074 < q := by
      have hge : -1074 ≤ place ((n : ℚ) / d) := le_max_right _ _
      omega
    have hlower := not_le.mp (mt (le_place_iff hv hq).mpr (by omega))
    obtain rfl := h.eq_power hcanonical hq hlower
    obtain ⟨hbefore, hcount⟩ := h.isRounded_before hq hlower
    rw [← hbefore] at hcount
    rw [ofRatio_eq_carried negative hn hd hcount, hbefore, carried, if_pos rfl, sub_add_cancel,
      if_neg (by omega)]

end Binary64

end Keyscope
