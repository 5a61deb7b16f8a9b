/-
# What is written of a number is read as that number

A finite number is written as a literal behind a sign.  Its layout moves the point and adds zeros or an
exponent, but none of this changes the value of the digits at their scale (`Shortest.exists_literal`).
That value is the one of the shortest decimal, which is rounded to the number, so the number is read
back from its text (`Binary64.exists_literal`).
-/
import Keyscope.Proofs.Number.Literal

namespace Keyscope

/-! ## 1. Digits of a number -/

theorem Text.length_replicate (n : Nat) (c : CodePoint) : (replicate n c).length = n :=
  List.length_replicate

/-- What is dropped at the end of a text is so many times the same. -/
theorem Text.exists_dropped (c : CodePoint) (t : Text) :
    ∃ k, t = (t.reverse.dropWhile (· = c)).reverse ++ replicate k c := by
  have hsame : t.reverse.takeWhile (· = c) =
      List.replicate (t.reverse.takeWhile (· = c)).length c :=
    List.eq_replicate_of_mem fun d hd => by simpa using List.mem_takeWhile_imp hd
  refine ⟨(t.reverse.takeWhile (· = c)).length, ?_⟩
  rw [replicate, ← List.reverse_replicate, ← hsame, ← List.reverse_append,
    List.takeWhile_append_dropWhile, List.reverse_reverse]

namespace Decimal

theorem exists_ofNat {n : Nat} (hn : n ≠ 0) : ∃ d ds, ofNat n = d :: ds ∧ d ≠ '0' := by
  obtain ⟨d, ds, hds⟩ := List.exists_cons_of_ne_nil (ofNat_ne_nil n)
  refine ⟨d, ds, hds, ?_⟩
  rintro rfl
  -- without a zero in front the number would have fewer digits
  have hdigits : ∀ c ∈ ds, c.isAsciiDigit = true := fun c hc =>
    isAsciiDigit_of_mem_ofNat (n := n) (by rw [hds]; exact List.mem_cons_of_mem _ hc)
  have hvalue : n = value ds := by rw [← value_ofNat n, hds]; rfl
  have hlt : n < 10 ^ ds.length := hvalue ▸ value_lt hdigits
  rcases Nat.eq_zero_or_pos ds.length with hlength | hlength
  · rw [hlength] at hlt
    omega
  · have hle := length_ofNat_le hlength hlt
    rw [hds, List.length_cons] at hle
    omega

theorem value_padded (width n : Nat) : value (padded width n) = n := by
  rw [padded, value_append, value_zeros, value_ofNat, Nat.zero_mul, Nat.zero_add]

theorem isAsciiDigit_of_mem_padded {width n : Nat} {c : CodePoint} (h : c ∈ padded width n) :
    c.isAsciiDigit = true := by
  rw [padded, List.mem_append] at h
  rcases h with h | h
  · obtain rfl := List.eq_of_mem_replicate h
    rfl
  · exact isAsciiDigit_of_mem_ofNat h

end Decimal

theorem Numeral.exponentValue_eq {ds : Text} (h : ds.length ≤ 20) : exponentValue ds = Decimal.value ds := by
  have hdrop := Nat.le_trans (List.dropWhile_sublist (· = ('0' : CodePoint))).length_le h
  rw [exponentValue, List.take_of_length_le hdrop, Decimal.value_dropZeros]

namespace Shortest

open Numeral (Literal)
open Binary64 (Canonical RoundsTo)

variable {c : Nat} {x point : Int} {digits : Text}

/-! ## 2. Digits that count -/

/-- Digits to be laid out do not start with a zero. -/
structure Significant (digits : Text) : Prop where
  leading : ∃ d ds, digits = d :: ds ∧ d ≠ '0'
  digits : ∀ d ∈ digits, d.isAsciiDigit = true

/-- The number `0.digits · 10 ^ point`. -/
def valueAt (digits : Text) (point : Int) : ℚ :=
  Decimal.value digits * 10 ^ (point - digits.length)

/-- Without the zeros at its end, a decimal is the same number. -/
theorem significant_spec (hc : c ≠ 0) (h : significant c x = (digits, point)) :
    Significant digits ∧ digits.length ≤ (Decimal.ofNat c).length ∧
      valueAt digits point = c * 10 ^ x := by
  obtain ⟨rfl, rfl⟩ := Prod.mk.inj h
  obtain ⟨k, hk⟩ := Text.exists_dropped '0' (Decimal.ofNat c)
  generalize ((Decimal.ofNat c).reverse.dropWhile (· = ('0' : CodePoint))).reverse = digits at *
  have hvalue : c = Decimal.value digits * 10 ^ k := by
    conv_lhs => rw [← Decimal.value_ofNat c, hk, Decimal.value_append, Decimal.value_zeros]
    rw [Nat.add_zero, Text.length_replicate]
  obtain ⟨d, ds, hds, hd⟩ := Decimal.exists_ofNat hc
  refine ⟨⟨?_, fun d hd => ?_⟩, ?_, ?_⟩
  · cases digits with
    | nil => exact absurd (hvalue.trans (Nat.zero_mul _)) hc
    | cons d' ds' =>
      rw [hk] at hds
      exact ⟨d', ds', rfl, (List.cons.inj hds).1 ▸ hd⟩
  · exact Decimal.isAsciiDigit_of_mem_ofNat (n := c) (by rw [hk]; exact List.mem_append_left _ hd)
  · rw [hk, List.length_append]
    exact Nat.le_add_right _ _
  · have hlength : ((Decimal.ofNat c).length : Int) = digits.length + k := by
      conv_lhs => rw [hk, List.length_append, Text.length_replicate]
      exact Nat.cast_add _ _
    have hten : (10 : ℚ) ≠ 0 := by norm_num
    conv_rhs => rw [hvalue]
    rw [valueAt, hlength, add_assoc, add_sub_cancel_left, zpow_add₀ hten, zpow_natCast]
    push_cast
    ring

/-! ## 3. Layouts -/

/-- **A literal stands for a number**: its digits are those of the number, with zeros in front of them
or `j` zeros behind them. -/
structure Spells (l : Literal) (digits : Text) (point : Int) (j : Nat) : Prop where
  value : Decimal.value l.digits = Decimal.value digits * 10 ^ j
  scale : l.scale + j = point - digits.length
  length : l.digits.length ≤ digits.length + 20

theorem Spells.value_eq {l : Literal} {j : Nat} (h : Spells l digits point j) :
    (Decimal.value l.digits : ℚ) * 10 ^ l.scale = valueAt digits point := by
  rw [valueAt, ← h.scale, zpow_add₀ (by norm_num), zpow_natCast, h.value]
  push_cast
  ring

/-- A number below one has zeros behind the point. -/
theorem exists_small (h : Significant digits) (hlow : -4 ≤ point - 1) (hhigh : point ≤ 0) :
    ∃ l : Literal, layout.write digits point = l.text ∧ Spells l digits point 0 := by
  obtain ⟨d, ds, hcons, -⟩ := h.leading
  have hne : Text.replicate (-point).toNat '0' ++ digits ≠ [] := by
    rw [hcons]
    exact List.append_ne_nil_of_right_ne_nil _ (List.cons_ne_nil _ _)
  refine ⟨⟨['0'], Text.replicate (-point).toNat '0' ++ digits, none, .inl rfl, ?_, ?_, nofun, .inl hne⟩,
    ?_, ?_, ?_, ?_⟩
  · exact List.forall_mem_singleton.mpr rfl
  · intro c hc
    rcases List.mem_append.mp hc with hc | hc
    · rw [List.eq_of_mem_replicate hc]
      rfl
    · exact h.digits c hc
  · have hrange : layout.leastPositional ≤ point - 1 ∧ point - 1 < layout.leastLarge :=
      ⟨hlow, show point - 1 < 16 by omega⟩
    rw [Literal.text, Literal.pointText_cons _ hne, Literal.exponentText, List.append_nil, Layout.write,
      if_pos hrange, if_pos hhigh, List.append_assoc]
    rfl
  · have hzero : Decimal.value ['0'] = 0 := rfl
    rw [Literal.digits, Decimal.value_append, Decimal.value_append, Decimal.value_zeros, hzero]
    ring
  · show (0 : Int) - (Text.replicate (-point).toNat '0' ++ digits).length + 0 = point - digits.length
    rw [List.length_append, Text.length_replicate]
    omega
  · rw [Literal.digits, List.length_append, List.length_append, Text.length_replicate,
      List.length_singleton]
    omega

/-- One that is not so large has so many digits in front of its point, and zeros where they end. -/
theorem write_positional (hlow : 0 < point) (hhigh : point - 1 < 16) :
    layout.write digits point = digits.take point.toNat ++
      Text.replicate (point.toNat - (digits.take point.toNat).length) '0' ++ ('.' : CodePoint) ::
        if (digits.drop point.toNat).isEmpty then ['0'] else digits.drop point.toNat := by
  have hrange : layout.leastPositional ≤ point - 1 ∧ point - 1 < layout.leastLarge :=
    ⟨show -4 ≤ point - 1 by omega, hhigh⟩
  rw [Layout.write, if_pos hrange, if_neg (by omega)]
  dsimp only
  rw [List.append_assoc _ _ (ite _ _ _)]
  rfl

/-- If they end in front of the point, it has zeros in front of it and one behind it. -/
theorem exists_ended (h : Significant digits) (hlow : 0 < point) (hhigh : point - 1 < 16)
    (hlength : digits.length ≤ point.toNat) :
    ∃ (l : Literal) (j : Nat), layout.write digits point = l.text ∧ Spells l digits point j := by
  obtain ⟨d, ds, hcons, hd⟩ := h.leading
  have hdigits : ∀ c ∈ digits ++ Text.replicate (point.toNat - digits.length) '0',
      c.isAsciiDigit = true := by
    intro c hc
    rcases List.mem_append.mp hc with hc | hc
    · exact h.digits c hc
    · rw [List.eq_of_mem_replicate hc]
      rfl
  have hleading : ∃ c ds, digits ++ Text.replicate (point.toNat - digits.length) '0' = c :: ds ∧ c ≠ '0' :=
    ⟨d, ds ++ Text.replicate _ _, by rw [hcons]; rfl, hd⟩
  refine ⟨⟨_, ['0'], none, .inr hleading, hdigits, List.forall_mem_singleton.mpr rfl, nofun,
    .inl (List.cons_ne_nil _ _)⟩, point.toNat - digits.length + 1, ?_, ?_, ?_, ?_⟩
  · rw [write_positional hlow hhigh, List.drop_eq_nil_iff.mpr hlength, List.take_of_length_le hlength]
    exact (List.append_nil _).symm
  · have hzero : Decimal.value ['0'] = 0 := rfl
    rw [Literal.digits, Decimal.value_append, Decimal.value_append, Decimal.value_zeros, hzero,
      Text.length_replicate, Nat.add_zero, Nat.add_zero, Nat.mul_assoc, ← Nat.pow_add]
    rfl
  · show (0 : Int) - (1 : Nat) + (point.toNat - digits.length + 1 : Nat) = point - digits.length
    omega
  · rw [Literal.digits, List.length_append, List.length_append, Text.length_replicate,
      List.length_singleton]
    omega

/-- If there are more, it has its point between them. -/
theorem exists_between (h : Significant digits) (hlow : 0 < point) (hhigh : point - 1 < 16)
    (hlength : point.toNat < digits.length) :
    ∃ l : Literal, layout.write digits point = l.text ∧ Spells l digits point 0 := by
  have hend : digits.drop point.toNat ≠ [] := by
    rw [Ne, List.drop_eq_nil_iff]
    omega
  have hleading : ∃ c ds, digits.take point.toNat = c :: ds ∧ c ≠ '0' := by
    obtain ⟨d, ds, hcons, hd⟩ := h.leading
    rw [hcons, show point.toNat = point.toNat - 1 + 1 by omega, List.take_succ_cons]
    exact ⟨d, _, rfl, hd⟩
  refine ⟨⟨_, digits.drop point.toNat, none, .inr hleading, fun c hc => h.digits c (List.mem_of_mem_take hc),
    fun c hc => h.digits c (List.mem_of_mem_drop hc), nofun, .inl hend⟩, ?_, ?_, ?_, ?_⟩
  · have hnone : Text.replicate (point.toNat - (digits.take point.toNat).length) '0' = [] := by
      rw [List.length_take_of_le hlength.le, Nat.sub_self]
      rfl
    rw [write_positional hlow hhigh, if_neg (by simpa using hlength), hnone, List.append_nil, Literal.text,
      Literal.pointText_cons _ hend, Literal.exponentText, List.append_nil]
  · rw [Literal.digits, List.take_append_drop, Nat.pow_zero, Nat.mul_one]
  · show (0 : Int) - (digits.drop point.toNat).length + 0 = point - digits.length
    rw [List.length_drop]
    omega
  · rw [Literal.digits, List.take_append_drop]
    omega

/-- So it has its point between the digits, or behind zeros. -/
theorem exists_positional (h : Significant digits) (hlow : 0 < point) (hhigh : point - 1 < 16) :
    ∃ (l : Literal) (j : Nat), layout.write digits point = l.text ∧ Spells l digits point j := by
  rcases Nat.lt_or_ge point.toNat digits.length with hlength | hlength
  · obtain ⟨l, hl⟩ := exists_between h hlow hhigh hlength
    exact ⟨l, 0, hl⟩
  · exact exists_ended h hlow hhigh hlength

/-- Any other one has an exponent. -/
theorem exists_exponential (h : Significant digits) (hpoint : point.natAbs ≤ 1000)
    (hrange : ¬ (layout.leastPositional ≤ point - 1 ∧ point - 1 < layout.leastLarge)) :
    ∃ l : Literal, layout.write digits point = l.text ∧ Spells l digits point 0 := by
  obtain ⟨d, ds, rfl, hd⟩ := h.leading
  have hlength : (Decimal.padded 2 (point - 1).natAbs).length ≤ 20 := by
    have hshort : (Decimal.ofNat (point - 1).natAbs).length ≤ 4 :=
      Decimal.length_ofNat_le (by decide) (by omega)
    rw [Decimal.padded, List.length_append, Text.length_replicate]
    omega
  have hne : Decimal.padded 2 (point - 1).natAbs ≠ [] :=
    List.append_ne_nil_of_right_ne_nil _ (Decimal.ofNat_ne_nil _)
  refine ⟨⟨[d], ds, some (decide (point - 1 < 0), Decimal.padded 2 (point - 1).natAbs), .inr ⟨d, [], rfl, hd⟩,
    List.forall_mem_singleton.mpr (h.digits d List.mem_cons_self),
    fun c hc => h.digits c (List.mem_cons_of_mem _ hc), ?_, .inr (Option.some_ne_none _)⟩, ?_, ?_, ?_, ?_⟩
  · rintro p ⟨⟩
    exact ⟨hne, fun c => Decimal.isAsciiDigit_of_mem_padded⟩
  · rw [Layout.write, if_neg hrange]
    have hfraction : (if (d :: ds).length ≤ 1 then [] else ('.' : CodePoint) :: (d :: ds).drop 1) =
        if ds.isEmpty then [] else ('.' : CodePoint) :: ds := by
      cases ds <;> rfl
    dsimp only [Literal.text, Literal.pointText, Literal.exponentText]
    rw [hfraction, List.append_assoc, List.append_assoc]
    by_cases hsign : point - 1 < 0
    · rw [if_pos hsign, decide_eq_true hsign]
      rfl
    · rw [if_neg hsign, decide_eq_false hsign]
      rfl
  · rw [Literal.digits, Nat.pow_zero, Nat.mul_one]
    rfl
  · show (if decide (point - 1 < 0) = true then
        -(Numeral.exponentValue (Decimal.padded 2 (point - 1).natAbs) : Int)
      else Numeral.exponentValue (Decimal.padded 2 (point - 1).natAbs)) - ds.length + 0 =
        point - (ds.length + 1 : Nat)
    rw [Numeral.exponentValue_eq hlength, Decimal.value_padded]
    by_cases hsign : point - 1 < 0
    · rw [if_pos (decide_eq_true hsign)]
      omega
    · rw [if_neg (by simpa using hsign)]
      omega
  · exact Nat.le_add_right _ _

/-- **However a number is laid out, that is a literal for it.** -/
theorem exists_literal (h : Significant digits) (hpoint : point.natAbs ≤ 1000) :
    ∃ (l : Literal) (j : Nat), layout.write digits point = l.text ∧ Spells l digits point j := by
  by_cases hrange : layout.leastPositional ≤ point - 1 ∧ point - 1 < layout.leastLarge
  · by_cases hsmall : point ≤ 0
    · obtain ⟨l, hl⟩ := exists_small h hrange.1 hsmall
      exact ⟨l, 0, hl⟩
    · exact exists_positional h (by omega) hrange.2
  · obtain ⟨l, hl⟩ := exists_exponential h hpoint hrange
    exact ⟨l, 0, hl⟩

/-- A number in the range of the format does not have its point far away. -/
theorem point_le (h : Significant digits)
    (hvalue : (10 : ℚ) ^ (-400 : Int) < valueAt digits point ∧ valueAt digits point < 10 ^ (400 : Int)) :
    point.natAbs ≤ 1000 := by
  obtain ⟨d, ds, rfl, hd⟩ := h.leading
  have hten : (10 : ℚ) ≠ 0 := by norm_num
  have hscale : (0 : ℚ) < 10 ^ (point - (d :: ds).length) := by positivity
  have hlow : (10 : ℚ) ^ (point - 1) ≤ valueAt (d :: ds) point := by
    have hle : 10 ^ ds.length ≤ Decimal.value (d :: ds) :=
      Decimal.le_value (h.digits d List.mem_cons_self) hd
    have hsplit : point - 1 = ds.length + (point - (d :: ds).length) := by
      rw [List.length_cons]
      omega
    rw [hsplit, zpow_add₀ hten, zpow_natCast, valueAt]
    exact mul_le_mul_of_nonneg_right (by exact_mod_cast hle) hscale.le
  have hhigh : valueAt (d :: ds) point < 10 ^ point := by
    have hsplit : point = (d :: ds).length + (point - (d :: ds).length) := by omega
    conv_rhs => rw [hsplit, zpow_add₀ hten, zpow_natCast]
    exact mul_lt_mul_of_pos_right (by exact_mod_cast Decimal.value_lt h.digits) hscale
  have hleast := (zpow_lt_zpow_iff_right₀ (by norm_num)).mp (hvalue.1.trans hhigh)
  have hmost := (zpow_lt_zpow_iff_right₀ (by norm_num)).mp (hlow.trans_lt hvalue.2)
  omega

end Shortest

/-! ## 4. Numbers -/

namespace Binary64

open Numeral (Literal)

/-- **The text of a number is a literal behind a sign, and it is read as that number.** -/
theorem exists_literal (s : Bool) {m : Nat} {q : Int} (h : Canonical m q) :
    ∃ l : Literal, (finite s m q).toText = Decimal.sign s ++ l.text ∧ l.read s = finite s m q := by
  by_cases hm : m = 0
  · subst hm
    obtain rfl : q = -1074 := h.full.resolve_left (by decide)
    refine ⟨⟨['0'], ['0'], none, .inl rfl, List.forall_mem_singleton.mpr rfl,
      List.forall_mem_singleton.mpr rfl, nofun, .inl (List.cons_ne_nil _ _)⟩, rfl, rfl⟩
  · cases hdecimal : Shortest.decimal m q with
    | mk c x =>
      cases hdigits : Shortest.significant c x with
      | mk digits point =>
        obtain ⟨hrounds, hsize⟩ := Shortest.decimal_spec hm h hdecimal
        have hbetween := Numeral.between_of_roundsTo hm h hrounds
        have hc : c ≠ 0 := by
          rintro rfl
          have hpos : (0 : ℚ) < 10 ^ (-400 : Int) := by positivity
          rw [Nat.cast_zero, zero_mul] at hbetween
          exact absurd hbetween.1 hpos.not_gt
        obtain ⟨hsignificant, hlength, hvalue⟩ := Shortest.significant_spec hc hdigits
        rw [← hvalue] at hrounds hbetween
        obtain ⟨l, j, hwrite, hspells⟩ :=
          Shortest.exists_literal hsignificant (Shortest.point_le hsignificant hbetween)
        refine ⟨l, ?_, ?_⟩
        · rw [toText, if_neg hm, hdecimal]
          dsimp only
          rw [hdigits]
          dsimp only
          rw [hwrite]
        · rw [← hspells.value_eq] at hrounds
          have hshort : (Decimal.ofNat c).length ≤ 18 :=
            Decimal.length_ofNat_le (by decide) (Nat.lt_of_le_of_lt hsize (by decide))
          exact l.read_eq_finite s (by have := hspells.length; unfold Numeral.enoughDigits; omega)
            hm h hrounds

end Binary64

end Keyscope
