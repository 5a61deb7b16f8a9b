/-
# Literals

The text of a real number has digits in front of a point and behind it, and an exponent
(`Numeral.Literal`).  It is read as the number that its digits spell at its scale
(`Numeral.Literal.realOfPlain_text`), and nothing about zeros in front, about the place of the point or
about the exponent changes what that is: only the value of the digits at the scale counts.  If that
value is rounded to a number of the format, then the literal is read as that number
(`Numeral.Literal.read_eq_finite`).
-/
import Keyscope.Proofs.Number.Shortest
import Keyscope.Proofs.Number.Whole
import Keyscope.Proofs.Json.Reader

namespace Keyscope

/-! ## 1. Digits -/

namespace Decimal

theorem foldl_digits_eq : ∀ (ds : Text) (n : Nat), ds.foldl (fun n c => 10 * n + (c.val - 48)) n =
    n * 10 ^ ds.length + value ds
  | [], n => (Nat.mul_one n).symm
  | c :: ds, n => by
    rw [value, List.foldl_cons, List.foldl_cons, foldl_digits_eq ds, foldl_digits_eq ds,
      List.length_cons]
    ring

theorem value_append (ds es : Text) : value (ds ++ es) = value ds * 10 ^ es.length + value es := by
  rw [value, List.foldl_append]
  exact foldl_digits_eq es _

theorem value_zeros : ∀ n : Nat, value (Text.replicate n '0') = 0
  | 0 => rfl
  | n + 1 => value_zeros n

theorem value_lt {ds : Text} (h : ∀ d ∈ ds, d.isAsciiDigit = true) : value ds < 10 ^ ds.length := by
  have hlt := Numeral.foldl_digits_lt 0 h
  rwa [Nat.zero_add, Nat.one_mul] at hlt

/-- A first digit that is not zero counts. -/
theorem le_value {c : CodePoint} {ds : Text} (hc : c.isAsciiDigit = true) (hzero : c ≠ '0') :
    10 ^ ds.length ≤ value (c :: ds) := by
  have hdigit := CodePoint.isAsciiDigit_iff.mp hc
  have hne : c.val ≠ 48 := fun h => hzero (Fin.ext h)
  have hone : 1 ≤ value [c] := by
    show 1 ≤ 10 * 0 + (c.val - 48)
    omega
  rw [← List.singleton_append, value_append]
  exact Nat.le_add_right_of_le (Nat.le_mul_of_pos_left _ hone)

end Decimal

namespace Numeral

open Binary64 (Canonical RoundsTo below)

/-! ## 2. The number of digits at a scale -/

theorem two_zpow_le (n : Nat) : (2 : ℚ) ^ (3 * n : Int) ≤ 10 ^ (n : Int) := by
  rw [zpow_mul, zpow_natCast, zpow_natCast]
  exact pow_le_pow_left₀ (by norm_num) (by norm_num) n

/-- What is rounded to a number of the format is not far outside its range. -/
theorem between_of_roundsTo {v : ℚ} {m : Nat} {q : Int} (hm : m ≠ 0) (hcanonical : Canonical m q)
    (h : RoundsTo v m q) : (10 : ℚ) ^ (-400 : Int) < v ∧ v < 10 ^ (400 : Int) := by
  have hq : (0 : ℚ) < 2 ^ q := by positivity
  have hone : (1 : ℚ) ≤ m := by exact_mod_cast Nat.one_le_iff_ne_zero.mpr hm
  have hsize : (m : ℚ) + 1 ≤ 2 ^ (53 : Int) := by exact_mod_cast hcanonical.size
  have hlast := hcanonical.last
  have hfirst := hcanonical.first
  have hscale := two_zpow_le 400
  constructor
  · calc (10 : ℚ) ^ (-400 : Int) ≤ 2 ^ (-(3 * (400 : Nat)) : Int) := by
          rw [zpow_neg, zpow_neg]
          exact inv_anti₀ (by positivity) hscale
      _ < 2 ^ (-1 + q) := zpow_lt_zpow_right₀ one_lt_two (by omega)
      _ = 1 / 2 * 2 ^ q := by rw [zpow_add₀ two_ne_zero, zpow_neg_one, one_div]
      _ ≤ below m q * 2 ^ q :=
        mul_le_mul_of_nonneg_right (by linarith [Binary64.below_le m q]) hq.le
      _ ≤ v := h.low
  · calc v ≤ (m + 1 / 2) * 2 ^ q := h.high
      _ ≤ 2 ^ (53 : Int) * 2 ^ q := mul_le_mul_of_nonneg_right (by linarith) hq.le
      _ = 2 ^ (53 + q) := (zpow_add₀ two_ne_zero _ _).symm
      _ < 2 ^ (3 * (400 : Nat) : Int) := zpow_lt_zpow_right₀ one_lt_two (by omega)
      _ ≤ 10 ^ (400 : Int) := hscale

/-- **Digits at a scale are read as the number that their value is rounded to.** -/
theorem realOf_eq_finite (negative : Bool) {ds : Text} (hds : ∀ d ∈ ds, d.isAsciiDigit = true)
    (hlength : ds.length ≤ enoughDigits) {e : Int} {m : Nat} {q : Int} (hm : m ≠ 0)
    (hcanonical : Canonical m q) (h : RoundsTo ((Decimal.value ds : ℚ) * 10 ^ e) m q) :
    realOf negative ds e = .finite negative m q := by
  have hbetween := between_of_roundsTo hm hcanonical h
  have hdrop : (ds.dropWhile (· = ('0' : CodePoint))).Sublist ds := List.dropWhile_sublist _
  have hhead := List.head?_dropWhile_not (· = ('0' : CodePoint)) ds
  have hlength := Nat.le_trans hdrop.length_le hlength
  have hds : ∀ d ∈ ds.dropWhile (· = ('0' : CodePoint)), d.isAsciiDigit = true := fun d hd =>
    hds d (hdrop.subset hd)
  rw [← Decimal.value_dropZeros] at h hbetween
  rw [realOf]
  generalize ds.dropWhile (· = ('0' : CodePoint)) = rest at *
  have hten : (10 : ℚ) ≠ 0 := by norm_num
  have he : (0 : ℚ) < 10 ^ e := by positivity
  cases rest with
  | nil =>
    have hpos : (0 : ℚ) < 10 ^ (-400 : Int) := by positivity
    have hzero : Decimal.value [] = 0 := rfl
    rw [hzero, Nat.cast_zero, zero_mul] at hbetween
    exact absurd hbetween.1 hpos.not_gt
  | cons c rest =>
    have hc : c ≠ '0' := by simpa using hhead
    have hlow : (10 : ℚ) ^ ((c :: rest).length + e - 1) ≤ Decimal.value (c :: rest) * 10 ^ e := by
      have hle : 10 ^ rest.length ≤ Decimal.value (c :: rest) :=
        Decimal.le_value (hds c List.mem_cons_self) hc
      rw [List.length_cons, Nat.cast_succ, add_right_comm, add_sub_cancel_right, zpow_add₀ hten,
        zpow_natCast]
      exact mul_le_mul_of_nonneg_right (by exact_mod_cast hle) he.le
    have hhigh : (Decimal.value (c :: rest) : ℚ) * 10 ^ e < 10 ^ ((c :: rest).length + e) := by
      rw [zpow_add₀ hten, zpow_natCast]
      exact mul_lt_mul_of_pos_right (by exact_mod_cast Decimal.value_lt hds) he
    have hleast := (zpow_lt_zpow_iff_right₀ (by norm_num)).mp (hbetween.1.trans hhigh)
    have hmost := (zpow_lt_zpow_iff_right₀ (by norm_num)).mp (hlow.trans_lt hbetween.2)
    rw [if_neg (by simp), realOfDigits, if_neg (by omega), if_neg (by omega), if_pos hlength,
      Binary64.ofDecimal]
    split
    · rename_i hsign
      refine Binary64.ofRatio_eq_finite negative hm hcanonical Nat.one_pos ?_
      rwa [Nat.cast_mul, cast_tenTo hsign, Nat.cast_one, div_one]
    · rename_i hsign
      refine Binary64.ofRatio_eq_finite negative hm hcanonical (tenTo_pos _) ?_
      rwa [cast_tenTo (by omega), zpow_neg, div_inv_eq_mul]

/-- Digits end where something else begins. -/
theorem span_digits {ds : Text} (hds : ∀ d ∈ ds, d.isAsciiDigit = true) (rest : Text)
    (hrest : ∀ c ∈ rest.head?, c.isAsciiDigit = false) :
    (ds ++ rest).takeWhile CodePoint.isAsciiDigit = ds ∧
      (ds ++ rest).dropWhile CodePoint.isAsciiDigit = rest := by
  rw [List.takeWhile_append_of_pos hds, List.dropWhile_append_of_pos hds]
  cases rest with
  | nil => exact ⟨List.append_nil ds, rfl⟩
  | cons c rest =>
    have hc : ¬ c.isAsciiDigit = true := by simp [hrest c rfl]
    rw [List.takeWhile_cons_of_neg hc, List.dropWhile_cons_of_neg hc, List.append_nil]
    exact ⟨rfl, rfl⟩

/-! ## 3. Literals -/

/-- Digits in front of a point, digits behind it, and an exponent with a sign.  Without digits behind it
there is no point; then there is an exponent. -/
structure Literal where
  whole : Text
  fraction : Text
  exponent : Option (Bool × Text)
  /-- A zero in front stands alone. -/
  leading : whole = ['0'] ∨ ∃ c ds, whole = c :: ds ∧ c ≠ '0'
  digits_whole : ∀ c ∈ whole, c.isAsciiDigit = true
  digits_fraction : ∀ c ∈ fraction, c.isAsciiDigit = true
  digits_exponent : ∀ p ∈ exponent, p.2 ≠ [] ∧ ∀ c ∈ p.2, c.isAsciiDigit = true
  isReal : fraction ≠ [] ∨ exponent ≠ none

namespace Literal

variable (l : Literal)

/-- A point and the digits behind it. -/
def pointText : Text := if l.fraction.isEmpty then [] else '.' :: l.fraction

def exponentText : Text :=
  match l.exponent with
  | none => []
  | some (negative, ds) => 'e' :: (if negative then '-' else '+') :: ds

def text : Text := l.whole ++ l.pointText ++ l.exponentText

/-- All digits that count. -/
def digits : Text := l.whole ++ l.fraction

/-- The number of the exponent. -/
def power : Int :=
  match l.exponent with
  | none => 0
  | some (negative, ds) => if negative then -(exponentValue ds : Int) else exponentValue ds

/-- The power of ten of the last digit. -/
def scale : Int := l.power - l.fraction.length

/-- The number that a literal behind a sign is read as. -/
def read (negative : Bool) : Binary64 := realOf negative l.digits l.scale

theorem isAsciiDigit_of_mem_digits {c : CodePoint} (h : c ∈ l.digits) : c.isAsciiDigit = true :=
  (List.mem_append.mp h).elim (l.digits_whole c) (l.digits_fraction c)

theorem exists_whole : ∃ c ds, l.whole = c :: ds ∧ c.isAsciiDigit = true := by
  have hdigits := l.digits_whole
  rcases l.leading with h | ⟨c, ds, h, -⟩ <;> rw [h] at hdigits ⊢
  · exact ⟨_, _, rfl, hdigits _ List.mem_cons_self⟩
  · exact ⟨_, _, rfl, hdigits _ List.mem_cons_self⟩

/-- What a literal is made of: digits, a point, signs and the letter of an exponent. -/
theorem mem_text {c : CodePoint} (h : c ∈ l.text) :
    c.isAsciiDigit = true ∨ c = '.' ∨ c = 'e' ∨ c = '-' ∨ c = '+' := by
  rw [text, List.mem_append, List.mem_append] at h
  rcases h with (h | h) | h
  · exact .inl (l.digits_whole c h)
  · unfold pointText at h
    split at h
    · cases h
    · rcases List.mem_cons.mp h with rfl | h
      · exact .inr (.inl rfl)
      · exact .inl (l.digits_fraction c h)
  · have hdigits := l.digits_exponent
    unfold exponentText at h
    split at h
    · cases h
    · rename_i negative ds hexponent
      rcases List.mem_cons.mp h with rfl | h
      · exact .inr (.inr (.inl rfl))
      rcases List.mem_cons.mp h with rfl | h
      · cases negative
        · exact .inr (.inr (.inr (.inr rfl)))
        · exact .inr (.inr (.inr (.inl rfl)))
      · exact .inl ((hdigits _ hexponent).2 c h)

/-- The exponent is read up to the end. -/
theorem exponent?_exponentText : exponent? l.exponentText = some l.power := by
  have hdigits := l.digits_exponent
  unfold exponentText power
  cases hexponent : l.exponent with
  | none => rfl
  | some p =>
    obtain ⟨negative, ds⟩ := p
    obtain ⟨hne, hds⟩ := hdigits _ hexponent
    have hsign : sign ((if negative then ('-' : CodePoint) else '+') :: ds) = (negative, ds) := by
      cases negative <;> rfl
    have hempty : ds.isEmpty = false := by simpa using hne
    have hall : ds.all CodePoint.isAsciiDigit = true := List.all_eq_true.mpr hds
    rw [exponent?, if_pos (Or.inl rfl)]
    simp only [hsign, hempty, hall, Bool.not_true, Bool.or_self, Bool.false_eq_true, if_false]

/-- Behind the digits there is an exponent or nothing. -/
theorem head_exponentText {c : CodePoint} (h : c ∈ l.exponentText.head?) : c = 'e' := by
  unfold exponentText at h
  split at h
  · cases h
  · exact (Option.mem_some_iff.mp h).symm

theorem pointText_nil (h : l.fraction = []) : l.pointText = [] := by rw [pointText, h]; rfl

theorem pointText_cons (h : l.fraction ≠ []) : l.pointText = ('.' : CodePoint) :: l.fraction :=
  if_neg (by simpa using h)

/-- Without a sign, the digits that count are read at their scale. -/
theorem unsigned?_text (negative : Bool) : unsigned? negative l.text = some (l.read negative) := by
  obtain ⟨c, ds, hwhole, -⟩ := l.exists_whole
  have hnonempty : l.whole.isEmpty = false := by rw [hwhole]; rfl
  have hexponent := l.exponent?_exponentText
  have hletter : ∀ c ∈ l.exponentText.head?, c.isAsciiDigit = false := fun c hc => by
    rw [l.head_exponentText hc]
    rfl
  rw [text, List.append_assoc, read, digits, scale]
  by_cases hfraction : l.fraction = []
  · obtain ⟨htake, hdrop⟩ := span_digits l.digits_whole l.exponentText hletter
    rw [l.pointText_nil hfraction, hfraction, List.nil_append]
    simp only [unsigned?, htake, hdrop, hnonempty, Bool.false_and, Bool.false_eq_true, if_false]
    cases hrest : l.exponentText with
    | nil =>
      rw [hrest] at hexponent
      simp only [hexponent, Option.map_some]
    | cons c u =>
      obtain rfl : c = 'e' := l.head_exponentText (by rw [hrest]; rfl)
      rw [hrest] at hexponent
      have hpoint : CodePoint.ofChar 'e' ≠ '.' := by decide
      simp only [if_neg hpoint, hexponent, Option.map_some]
  · obtain ⟨htake, hdrop⟩ := span_digits l.digits_whole
      (('.' : CodePoint) :: (l.fraction ++ l.exponentText)) fun c hc => by
        rw [← Option.mem_some_iff.mp hc]
        rfl
    obtain ⟨htake', hdrop'⟩ := span_digits l.digits_fraction l.exponentText hletter
    rw [l.pointText_cons hfraction, List.cons_append]
    simp only [unsigned?, htake, hdrop, if_true, htake', hdrop', hnonempty, Bool.false_and,
      Bool.false_eq_true, if_false, hexponent, Option.map_some]

/-- **A literal behind a sign is read as the number that it spells.** -/
theorem realOfPlain_text (negative : Bool) :
    realOfPlain (Decimal.sign negative ++ l.text) = some (l.read negative) := by
  have hmem : ∀ c ∈ Decimal.sign negative ++ l.text,
      c.isAsciiDigit = true ∨ c = '.' ∨ c = 'e' ∨ c = '-' ∨ c = '+' := by
    intro c hc
    rcases List.mem_append.mp hc with hc | hc
    · cases negative with
      | false => cases hc
      | true => exact .inr (.inr (.inr (.inl (List.mem_singleton.mp hc))))
    · exact l.mem_text hc
  have hstrip : Text.stripAscii (Decimal.sign negative ++ l.text) = Decimal.sign negative ++ l.text := by
    refine Text.trim_eq_self fun c hc => ?_
    rcases hmem c hc with h | rfl | rfl | rfl | rfl
    · exact CodePoint.isAsciiBlank_of_isAsciiDigit h
    all_goals rfl
  have hunderscore : ('_' : CodePoint) ∉ Decimal.sign negative ++ l.text := fun hc => by
    rcases hmem _ hc with h | h | h | h | h <;> exact absurd h (by decide)
  obtain ⟨c, ds, hwhole, hc⟩ := l.exists_whole
  have htext : ∃ rest, l.text = c :: rest := ⟨ds ++ l.pointText ++ l.exponentText, by
    rw [text, hwhole]
    rfl⟩
  obtain ⟨rest, htext⟩ := htext
  have hsign : sign (Decimal.sign negative ++ l.text) = (negative, l.text) := by
    cases negative with
    | true => rfl
    | false =>
      rw [htext]
      exact sign_cons_digit hc rest
  -- the words for numbers that are not finite do not start with a digit
  have hword : ∀ w : Text, w.head?.all CodePoint.isAsciiDigit = false → Text.asciiLower l.text ≠ w := by
    rintro w hw rfl
    have hsame : c.asciiLower = c := if_neg (by
      rw [CodePoint.isAsciiDigit_iff] at hc
      omega)
    rw [htext, Text.asciiLower, List.map_cons, hsame, List.head?_cons, Option.all_some, hc] at hw
    cases hw
  rw [realOfPlain, hstrip, dropUnderscores_eq hunderscore, Option.bind_some, hsign]
  dsimp only
  rw [if_neg (not_or.mpr ⟨hword _ rfl, hword _ rfl⟩), if_neg (hword _ rfl), l.unsigned?_text]

/-- **A literal is read as the number that the value of its digits is rounded to.** -/
theorem read_eq_finite (negative : Bool) (hlength : l.digits.length ≤ enoughDigits) {m : Nat} {q : Int}
    (hm : m ≠ 0) (hcanonical : Canonical m q)
    (h : RoundsTo ((Decimal.value l.digits : ℚ) * 10 ^ l.scale) m q) :
    l.read negative = .finite negative m q :=
  realOf_eq_finite negative (fun _ => l.isAsciiDigit_of_mem_digits) hlength hm hcanonical h

end Literal

end Numeral

end Keyscope
