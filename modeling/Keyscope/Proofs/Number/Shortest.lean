/-
# The shortest decimal of a number is read as that number

The decimals that are tried stand on grids, of which each is ten times finer than the one before.  A
decimal is taken if the number is what it is rounded to (`Shortest.readsAs_iff`), and on a grid only the
two neighbours of the number are looked at (`Shortest.roundsTo_of_onGrid?`).

The search comes to an end with seventeen digits (`Shortest.exists_onGrid`).  If neither neighbour were
rounded to the number, then the step of the grid would be as wide as all that is rounded to it; but that
step is smaller than the number by sixteen digits, and the number has no more than fifty-three binary ones.
-/
import Keyscope.Number.Shortest
import Keyscope.Proofs.Number.Canonical
import Keyscope.Proofs.Number.Decimal

namespace Keyscope

/-! ## 1. Scales -/

theorem cast_tenTo {e : Int} (h : 0 ≤ e) : ((tenTo e : Nat) : ℚ) = 10 ^ e := by
  obtain ⟨n, rfl⟩ := Int.eq_ofNat_of_zero_le h
  rw [tenTo, Int.toNat_natCast, zpow_natCast]
  exact Nat.cast_pow 10 n

theorem tenTo_of_nonpos {e : Int} (h : e ≤ 0) : tenTo e = 1 := by
  rw [tenTo, Int.toNat_eq_zero.mpr h, Nat.pow_eq, Nat.pow_zero]

theorem twoTo_of_nonpos {e : Int} (h : e ≤ 0) : twoTo e = 1 := by
  rw [twoTo, Int.toNat_eq_zero.mpr h, Nat.pow_eq, Nat.pow_zero]

/-- A power of ten is a quotient of two scales. -/
theorem zpow_mul_tenTo (e : Int) : (10 : ℚ) ^ e * tenTo (-e) = tenTo e := by
  rcases le_total 0 e with h | h
  · rw [tenTo_of_nonpos (by omega : -e ≤ 0), cast_tenTo h, Nat.cast_one, mul_one]
  · rw [tenTo_of_nonpos h, cast_tenTo (by omega), zpow_neg, Nat.cast_one,
      mul_inv_cancel₀ (by positivity)]

theorem zpow_mul_twoTo (e : Int) : (2 : ℚ) ^ e * twoTo (-e) = twoTo e := by
  rcases le_total 0 e with h | h
  · rw [twoTo_of_nonpos (by omega : -e ≤ 0), cast_twoTo h, Nat.cast_one, mul_one]
  · rw [twoTo_of_nonpos h, cast_twoTo (by omega), zpow_neg, Nat.cast_one,
      mul_inv_cancel₀ (by positivity)]

namespace Binary64

/-- A number is the quotient of its numerator and denominator. -/
theorem ratio_div (m : Nat) (q : Int) : ((ratio m q).1 : ℚ) / (ratio m q).2 = m * 2 ^ q := by
  unfold ratio
  split
  · rename_i hq
    rw [Nat.cast_mul, cast_twoTo hq, Nat.cast_one, div_one]
  · rename_i hq
    rw [cast_twoTo (by omega), zpow_neg, div_inv_eq_mul]

end Binary64

namespace Shortest

open Binary64 (Canonical RoundsTo below ratio)

variable {m c : Nat} {q x e : Int}

/-! ## 2. What a decimal is rounded to -/

/-- Numbers at a binary and a decimal scale are compared as what they are. -/
theorem compareScaled_iff (a : Nat) (i : Int) (b : Nat) (j : Int) :
    (compareScaled a i b j = .lt ↔ (a : ℚ) * 2 ^ i < b * 10 ^ j) ∧
    (compareScaled a i b j = .gt ↔ (b : ℚ) * 10 ^ j < a * 2 ^ i) ∧
    (compareScaled a i b j = .eq ↔ (a : ℚ) * 2 ^ i = b * 10 ^ j) := by
  have hscale : (0 : ℚ) < twoTo (-i) * tenTo (-j) := by
    exact_mod_cast Nat.mul_pos (twoTo_pos _) (tenTo_pos _)
  have hleft : ((a * twoTo i * tenTo (-j) : Nat) : ℚ) = a * 2 ^ i * (twoTo (-i) * tenTo (-j)) := by
    rw [Nat.cast_mul, Nat.cast_mul, ← zpow_mul_twoTo i]
    ring
  have hright : ((b * tenTo j * twoTo (-i) : Nat) : ℚ) = b * 10 ^ j * (twoTo (-i) * tenTo (-j)) := by
    rw [Nat.cast_mul, Nat.cast_mul, ← zpow_mul_tenTo j]
    ring
  rw [← mul_lt_mul_iff_left₀ hscale, ← hleft, ← hright, Nat.cast_lt,
    ← mul_lt_mul_iff_left₀ (b := (b : ℚ) * 10 ^ j) hscale, ← hleft, ← hright, Nat.cast_lt,
    ← mul_left_inj' hscale.ne', ← hleft, ← hright, Nat.cast_inj]
  exact ⟨Nat.compare_eq_lt, Nat.compare_eq_gt, Nat.compare_eq_eq⟩

/-- The lower middle in quarters. -/
theorem below_eq (hm : m ≠ 0) (q : Int) :
    ((if m = twoTo 52 ∧ -1074 < q then 4 * m - 1 else 4 * m - 2 : Nat) : ℚ) * 2 ^ (q - 2) =
      below m q * 2 ^ q := by
  have htwo : twoTo 52 = 2 ^ 52 := rfl
  have hq : (2 : ℚ) ^ q = 2 ^ (q - 2) * 4 := by
    rw [← sub_add_cancel q 2, zpow_add₀ two_ne_zero, sub_add_cancel]
    norm_num
  rw [below, htwo, hq]
  split
  · rw [Nat.cast_sub (by omega)]
    push_cast
    ring
  · rw [Nat.cast_sub (by omega)]
    push_cast
    ring

theorem above_eq (m : Nat) (q : Int) :
    ((4 * m + 2 : Nat) : ℚ) * 2 ^ (q - 2) = (m + 1 / 2) * 2 ^ q := by
  have hq : (2 : ℚ) ^ q = 2 ^ (q - 2) * 4 := by
    rw [← sub_add_cancel q 2, zpow_add₀ two_ne_zero, sub_add_cancel]
    norm_num
  rw [hq]
  push_cast
  ring

/-- **A decimal reads as the number it is rounded to.** -/
theorem readsAs_iff (hm : m ≠ 0) : readsAs m q c x = true ↔ RoundsTo ((c : ℚ) * 10 ^ x) m q := by
  obtain ⟨hlt, -, heq⟩ := compareScaled_iff
    (if m = twoTo 52 ∧ -1074 < q then 4 * m - 1 else 4 * m - 2) (q - 2) c x
  obtain ⟨-, hgt, heq'⟩ := compareScaled_iff (4 * m + 2) (q - 2) c x
  rw [below_eq hm] at hlt heq
  rw [above_eq] at hgt heq'
  simp only [readsAs, Bool.and_eq_true, Bool.or_eq_true, beq_iff_eq, hlt, heq, hgt, heq']
  constructor
  · rintro ⟨hlow | ⟨heven, hlow⟩, hhigh | ⟨heven', hhigh⟩⟩
    · exact ⟨hlow.le, hhigh.le, by rintro (h | h) <;> linarith⟩
    · exact ⟨hlow.le, hhigh.ge, fun _ => heven'⟩
    · exact ⟨hlow.le, hhigh.le, fun _ => heven⟩
    · exact ⟨hlow.le, hhigh.ge, fun _ => heven⟩
  · intro h
    refine ⟨?_, ?_⟩
    · rcases h.low.lt_or_eq with hlow | hlow
      · exact .inl hlow
      · exact .inr ⟨h.even (.inl hlow.symm), hlow⟩
    · rcases h.high.lt_or_eq with hhigh | hhigh
      · exact .inl hhigh
      · exact .inr ⟨h.even (.inr hhigh), hhigh.symm⟩

theorem below_lt (m : Nat) (q : Int) : below m q < m := by
  unfold below
  split <;> linarith

/-- A number is rounded to itself. -/
theorem roundsTo_self (m : Nat) (q : Int) : RoundsTo ((m : ℚ) * 2 ^ q) m q := by
  have hq : (0 : ℚ) < 2 ^ q := by positivity
  have hlow := mul_lt_mul_of_pos_right (below_lt m q) hq
  have hhigh : (m : ℚ) * 2 ^ q < (m + 1 / 2) * 2 ^ q := mul_lt_mul_of_pos_right (by linarith) hq
  refine ⟨hlow.le, hhigh.le, ?_⟩
  rintro (h | h) <;> linarith

/-! ## 3. Grids -/

/-- The point of a grid below or at a number, and the next one behind it. -/
structure Below (v : ℚ) (x : Int) (c : Nat) : Prop where
  low : (c : ℚ) * 10 ^ x ≤ v
  high : v < (c + 1) * 10 ^ x

theorem floorOnGrid_spec {n d : Nat} (hd : 0 < d) (x : Int) :
    Below ((n : ℚ) / d) x (floorOnGrid n d x).1 ∧
      ((floorOnGrid n d x).2 = true → ((floorOnGrid n d x).1 : ℚ) * 10 ^ x = n / d) := by
  have hb : 0 < d * tenTo x := Nat.mul_pos hd (tenTo_pos x)
  have hbq : (0 : ℚ) < (d * tenTo x : Nat) := by exact_mod_cast hb
  have hten : (0 : ℚ) < tenTo (-x) := by exact_mod_cast tenTo_pos _
  have hdq : (0 : ℚ) < d := by exact_mod_cast hd
  -- a number of steps of the grid is one of `b` on the scale of `a`
  have hscale : ∀ k : ℚ, k * 10 ^ x ≤ n / d ↔ k * (d * tenTo x : Nat) ≤ (n * tenTo (-x) : Nat) := by
    intro k
    rw [le_div_iff₀ hdq, ← mul_le_mul_iff_left₀ hten, Nat.cast_mul, Nat.cast_mul, ← zpow_mul_tenTo x]
    ring_nf
  refine ⟨⟨?_, ?_⟩, fun hexact => ?_⟩
  · rw [hscale, floorOnGrid]
    exact_mod_cast Nat.div_mul_le_self _ _
  · rw [← not_le, hscale, not_le, floorOnGrid]
    exact_mod_cast Nat.lt_mul_of_div_lt (Nat.lt_succ_self _) hb
  · have hmod : n * tenTo (-x) % (d * tenTo x) = 0 := by simpa [floorOnGrid] using hexact
    have hwhole : ((floorOnGrid n d x).1 : ℚ) * (d * tenTo x : Nat) = (n * tenTo (-x) : Nat) := by
      exact_mod_cast Nat.div_mul_cancel (Nat.dvd_of_mod_eq_zero hmod)
    rw [Nat.cast_mul, Nat.cast_mul, ← zpow_mul_tenTo x] at hwhole
    rw [eq_div_iff hdq.ne', ← mul_left_inj' hten.ne']
    linarith

/-- **A decimal that is taken stands next to the number**, and the number is what it is rounded to. -/
theorem roundsTo_of_onGrid? (hm : m ≠ 0) {k : Nat} (h : onGrid? m q e k = some (c, x)) :
    x = e - k ∧ RoundsTo ((c : ℚ) * 10 ^ x) m q ∧ ((c : ℚ) - 1) * 10 ^ x ≤ m * 2 ^ q := by
  obtain ⟨hnear, hexact⟩ := floorOnGrid_spec (n := (ratio m q).1) (Binary64.ratio_den_pos m q) (e - k)
  rw [Binary64.ratio_div] at hnear hexact
  have hten : (0 : ℚ) < 10 ^ (e - k : Int) := by positivity
  -- it is one of the two points, and the number is what that is rounded to
  have htaken : ∀ {c' : Nat}, c' = (floorOnGrid (ratio m q).1 (ratio m q).2 (e - k)).1 ∨
      c' = (floorOnGrid (ratio m q).1 (ratio m q).2 (e - k)).1 + 1 →
      RoundsTo ((c' : ℚ) * 10 ^ (e - k : Int)) m q → some (c', e - k) = some (c, x) →
      x = e - k ∧ RoundsTo ((c : ℚ) * 10 ^ x) m q ∧ ((c : ℚ) - 1) * 10 ^ x ≤ m * 2 ^ q := by
    rintro c' hc' hrounds hsome
    obtain ⟨rfl, rfl⟩ := Prod.mk.inj (Option.some.inj hsome)
    refine ⟨rfl, hrounds, le_trans (mul_le_mul_of_nonneg_right ?_ hten.le) hnear.low⟩
    rcases hc' with rfl | rfl
    · linarith
    · push_cast
      linarith
  simp only [onGrid?] at h
  generalize floorOnGrid (ratio m q).1 (ratio m q).2 (e - k) = grid at *
  obtain ⟨f, exact⟩ := grid
  dsimp only at *
  split at h
  · rename_i hyes
    exact htaken (.inl rfl) (hexact hyes ▸ roundsTo_self m q) h
  · split at h
    · cases h
    · rename_i hfloor _
      exact htaken (.inl rfl) ((readsAs_iff hm).mp hfloor) h
    · rename_i _ hnext
      exact htaken (.inr rfl) ((readsAs_iff hm).mp hnext) h
    · rename_i hfloor hnext
      have hfloor := (readsAs_iff hm).mp hfloor
      have hnext := (readsAs_iff hm).mp hnext
      split at h
      · exact htaken (.inl rfl) hfloor h
      · exact htaken (.inr rfl) hnext h
      · split at h
        · exact htaken (.inl rfl) hfloor h
        · exact htaken (.inr rfl) hnext h

/-- What is not rounded to a number stays outside of the middles around it. -/
theorem outside_of_not_roundsTo {v : ℚ} (h : ¬ RoundsTo v m q) :
    v ≤ below m q * 2 ^ q ∨ (m + 1 / 2) * 2 ^ q ≤ v := by
  by_contra hinside
  rw [not_or, not_le, not_le] at hinside
  exact h ⟨hinside.1.le, hinside.2.le, by rintro (h | h) <;> linarith⟩

/-- A step of seventeen digits is narrower than what is between the middles around a number. -/
theorem step_lt {step : ℚ} (hcanonical : Canonical m q) (hstep : step * 10 ^ 16 ≤ m * 2 ^ q) :
    step < (m + 1 / 2 - below m q) * 2 ^ q := by
  have hq : (0 : ℚ) < 2 ^ q := by positivity
  by_contra hle
  have hwide : (m + 1 / 2 - below m q) * 10 ^ 16 * 2 ^ q ≤ m * 2 ^ q := by linarith
  have hwide := le_of_mul_le_mul_right hwide hq
  have hsize : (m : ℚ) < 2 ^ 53 := by exact_mod_cast hcanonical.size
  -- below a power of two there is only three quarters of the width, but the number is smaller
  rw [below] at hwide
  split at hwide
  · rename_i hpower
    rw [hpower.1] at hwide
    norm_num at hwide
  · linarith

/-- **Seventeen digits suffice.** -/
theorem exists_onGrid (hm : m ≠ 0) (hcanonical : Canonical m q) (he : (10 : ℚ) ^ (e - 1) ≤ m * 2 ^ q) :
    ∃ p, onGrid? m q e 17 = some p := by
  obtain ⟨hnear, -⟩ := floorOnGrid_spec (n := (ratio m q).1) (Binary64.ratio_den_pos m q) (e - (17 : Nat))
  rw [Binary64.ratio_div] at hnear
  have hq : (0 : ℚ) < 2 ^ q := by positivity
  have hstep : (10 : ℚ) ^ (e - (17 : Nat) : Int) * 10 ^ 16 ≤ m * 2 ^ q := by
    refine le_trans (le_of_eq ?_) he
    rw [← zpow_natCast, ← zpow_add₀ (by norm_num)]
    congr 1
    omega
  simp only [onGrid?]
  generalize floorOnGrid (ratio m q).1 (ratio m q).2 (e - (17 : Nat)) = grid at *
  obtain ⟨f, exact⟩ := grid
  dsimp only at *
  split
  · exact ⟨_, rfl⟩
  · split
    · rename_i hfloor hnext
      exfalso
      rw [← Bool.not_eq_true, readsAs_iff hm] at hfloor hnext
      obtain ⟨hbehind, hahead⟩ := hnear
      generalize (10 : ℚ) ^ (e - (17 : Nat) : Int) = step at *
      have hmiddle : (m : ℚ) * 2 ^ q < (m + 1 / 2) * 2 ^ q := mul_lt_mul_of_pos_right (by linarith) hq
      have hlow := mul_lt_mul_of_pos_right (below_lt m q) hq
      have hfloor : (f : ℚ) * step ≤ below m q * 2 ^ q :=
        (outside_of_not_roundsTo hfloor).resolve_right (by linarith)
      rw [Nat.cast_succ] at hnext
      have hnext : (m + 1 / 2) * 2 ^ q ≤ ((f : ℚ) + 1) * step :=
        (outside_of_not_roundsTo hnext).resolve_left (by linarith)
      -- the step from one point to the other is as wide as what is between the middles
      have hnarrow := step_lt hcanonical hstep
      linarith
    · exact ⟨_, rfl⟩
    · exact ⟨_, rfl⟩
    · split
      · exact ⟨_, rfl⟩
      · exact ⟨_, rfl⟩
      · exact ⟨_, rfl⟩

/-! ## 4. The search -/

/-- A number of digits places a whole number between two powers of ten. -/
theorem tenTo_length {n : Nat} (hn : 0 < n) :
    1 ≤ (Nat.toDigits 10 n).length ∧ 10 ^ ((Nat.toDigits 10 n).length - 1) ≤ n ∧
      n < 10 ^ (Nat.toDigits 10 n).length := by
  have hpos : 0 < (Nat.toDigits 10 n).length := List.length_pos_of_ne_nil Nat.toDigits_ne_nil
  have hhigh := (Nat.length_toDigits_le_iff (n := n) (by decide : 1 < 10) hpos).mp (Nat.le_refl _)
  refine ⟨hpos, ?_, hhigh⟩
  by_contra hlow
  rw [Nat.not_le] at hlow
  by_cases hone : (Nat.toDigits 10 n).length = 1
  · rw [hone] at hlow
    simp at hlow
    omega
  · have := (Nat.length_toDigits_le_iff (by decide : 1 < 10) (by omega)).mpr hlow
    omega

/-- The whole part of a quotient tells how many digits it has. -/
theorem quotient_between {n d L : Nat} (hd : 0 < d) (hL : 1 ≤ L) (hlow : 10 ^ (L - 1) ≤ n / d)
    (hhigh : n / d < 10 ^ L) : (10 : ℚ) ^ (L - 1 : Int) ≤ n / d ∧ (n : ℚ) / d < 10 ^ (L : Int) := by
  have hdq : (0 : ℚ) < d := by exact_mod_cast hd
  constructor
  · rw [le_div_iff₀ hdq, show (L : Int) - 1 = (L - 1 : Nat) by omega, zpow_natCast]
    exact_mod_cast (Nat.le_div_iff_mul_le hd).mp hlow
  · rw [div_lt_iff₀ hdq, zpow_natCast]
    exact_mod_cast (Nat.div_lt_iff_lt_mul hd).mp hhigh

/-- **The exponent places a quotient between two powers of ten.** -/
theorem decimalExponent_spec {n d : Nat} (hn : 0 < n) (hd : 0 < d) :
    (10 : ℚ) ^ (decimalExponent n d - 1) ≤ n / d ∧ (n : ℚ) / d < 10 ^ decimalExponent n d := by
  have hnq : (0 : ℚ) < n := by exact_mod_cast hn
  have hdq : (0 : ℚ) < d := by exact_mod_cast hd
  unfold decimalExponent
  split
  · rename_i hle
    obtain ⟨hL, hlow, hhigh⟩ := tenTo_length (Nat.div_pos hle hd)
    exact quotient_between hd hL hlow hhigh
  · rename_i hlt
    obtain ⟨hL, hlow, hhigh⟩ := tenTo_length (Nat.div_pos (by omega : n ≤ d) hn)
    obtain ⟨hlow, hhigh⟩ := quotient_between hn hL hlow hhigh
    generalize (Nat.toDigits 10 (d / n)).length = L at *
    have hexact : n * tenTo (L - 1) = d ↔ (10 : ℚ) ^ (L - 1 : Int) = d / n := by
      rw [← cast_tenTo (by omega), eq_div_iff hnq.ne', mul_comm]
      exact_mod_cast Iff.rfl
    have hlast : (10 : ℚ) ^ (1 - L : Int) = (10 ^ (L - 1 : Int))⁻¹ := by rw [← zpow_neg, neg_sub]
    have hten : (0 : ℚ) < 10 ^ (L - 1 : Int) := by positivity
    have hdn : (0 : ℚ) < d / n := div_pos hdq hnq
    rw [← inv_div (d : ℚ) n]
    dsimp only
    split
    · rename_i h
      rw [hexact] at h
      rw [← h, ← hlast]
      exact ⟨zpow_le_zpow_right₀ (by norm_num) (by omega),
        zpow_lt_zpow_right₀ (by norm_num) (by omega)⟩
    · rename_i h
      rw [hexact] at h
      rw [hlast, sub_right_comm, sub_self, zero_sub, zpow_neg]
      exact ⟨(inv_le_inv₀ (by positivity) hdn).mpr hhigh.le,
        (inv_lt_inv₀ hdn hten).mpr (lt_of_le_of_ne hlow h)⟩

/-- **The search comes to an end.**  The number is what the decimal is rounded to, and the decimal has no
more than seventeen digits. -/
theorem decimal_spec (hm : m ≠ 0) (hcanonical : Canonical m q) (h : decimal m q = (c, x)) :
    RoundsTo ((c : ℚ) * 10 ^ x) m q ∧ c ≤ 10 ^ 17 := by
  have hspec := decimalExponent_spec (Binary64.ratio_pos hm q) (Binary64.ratio_den_pos m q)
  rw [Binary64.ratio_div] at hspec
  obtain ⟨last, hlast⟩ := exists_onGrid hm hcanonical hspec.1
  simp only [decimal] at h
  generalize decimalExponent (ratio m q).1 (ratio m q).2 = e at *
  cases hfound : (List.range 17).findSome? fun k => onGrid? m q e (k + 1) with
  | none => exact absurd (List.findSome?_eq_none_iff.mp hfound 16 (by decide)) (by simp [hlast])
  | some p =>
    rw [hfound, Option.getD_some] at h
    obtain ⟨k, hk, hgrid⟩ := List.exists_of_findSome?_eq_some hfound
    rw [h] at hgrid
    obtain ⟨rfl, hrounds, hnear⟩ := roundsTo_of_onGrid? hm hgrid
    refine ⟨hrounds, ?_⟩
    -- it is next to the number, which has that many digits in front of the grid
    have hstep : (0 : ℚ) < 10 ^ (e - (k + 1 : Nat) : Int) := by positivity
    have hdigits : (10 : ℚ) ^ e = 10 ^ (k + 1) * 10 ^ (e - (k + 1 : Nat) : Int) := by
      rw [← zpow_natCast, ← zpow_add₀ (by norm_num)]
      congr 1
      omega
    have hlt := lt_of_le_of_lt hnear (hdigits ▸ hspec.2)
    have hlt : (c : ℚ) < (10 ^ (k + 1) + 1 : Nat) := by
      push_cast
      linarith [lt_of_mul_lt_mul_right hlt hstep.le]
    have hlt : c < 10 ^ (k + 1) + 1 := by exact_mod_cast hlt
    exact Nat.le_trans (Nat.le_of_lt_succ hlt)
      (Nat.pow_le_pow_right (by decide) (List.mem_range.mp hk))

end Shortest

end Keyscope
