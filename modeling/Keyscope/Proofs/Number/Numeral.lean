/-
# Texts of digits

A text is taken for a number if it is made of digits in the wide sense, superscripts and circled
digits among them.  What reads numbers knows only decimal digits, of any script, and no more than 4300
of them.  So a text of digits need not be a number: it is one if and only if its digits are decimal and
not too many, and then it is the number that they spell (`Value.toInteger_digits`).

What is read is an ASCII form of the text.  A decimal digit has the ASCII digit of its value there, and
a digit of another kind ends the text with a mark (`Numeral.fold_decimal`, `Numeral.fold_other`).
-/
import Mathlib.Tactic.Common
import Keyscope.Proofs.Number.Decimal
import Keyscope.Proofs.Text.Codec
import Keyscope.Value.Numeric

namespace Keyscope

namespace CodePoint

/-! ## 1. Digits -/

/-- A decimal digit of any script. -/
def isDecimal (c : CodePoint) : Bool := c.decimalDigit?.isSome

/-- The value of a decimal digit; what is none counts as zero. -/
def digitValue (c : CodePoint) : Nat := c.decimalDigit?.getD 0

/-- The ASCII digit of the same value. -/
def asciiDigit (c : CodePoint) : CodePoint := .ofNat (48 + c.digitValue)

theorem isDigit_of_isDecimal {c : CodePoint} (h : c.isDecimal = true) : c.isDigit = true := by
  rw [isDigit, Bool.or_eq_true]
  exact .inl h

theorem decimalDigit?_of_isDecimal {c : CodePoint} (h : c.isDecimal = true) :
    c.decimalDigit? = some c.digitValue := by
  obtain ⟨d, hd⟩ := Option.isSome_iff_exists.mp h
  rw [digitValue, hd]
  rfl

theorem digitValue_lt (c : CodePoint) : c.digitValue < 10 := by
  unfold digitValue decimalDigit?
  cases hzero : decimalZeros.find? fun z => z ≤ c.val && c.val < z + 10 with
  | none => exact Nat.succ_pos 9
  | some z =>
    have hrun := List.find?_some hzero
    simp only [Bool.and_eq_true, decide_eq_true_eq] at hrun
    simp only [Option.map_some, Option.getD_some]
    omega

theorem val_asciiDigit (c : CodePoint) : c.asciiDigit.val = 48 + c.digitValue :=
  Utf8.val_ofNat (by have := c.digitValue_lt; omega)

theorem isAsciiDigit_asciiDigit (c : CodePoint) : c.asciiDigit.isAsciiDigit = true := by
  have := c.digitValue_lt
  rw [isAsciiDigit_iff, val_asciiDigit]
  omega

theorem isAsciiBlank_of_isAsciiDigit {c : CodePoint} (h : c.isAsciiDigit = true) :
    c.isAsciiBlank = false := by
  rw [isAsciiDigit_iff] at h
  simp only [isAsciiBlank, Bool.or_eq_false_iff, Bool.and_eq_false_iff, decide_eq_false_iff_not,
    beq_eq_false_iff_ne]
  omega

/-- The blanks of Unicode. -/
def blanks : List Nat :=
  [9, 10, 11, 12, 13, 28, 29, 30, 31, 32, 0x85, 0xA0, 0x1680, 0x2000, 0x2001, 0x2002, 0x2003, 0x2004,
    0x2005, 0x2006, 0x2007, 0x2008, 0x2009, 0x200A, 0x2028, 0x2029, 0x202F, 0x205F, 0x3000]

theorem val_mem_blanks {c : CodePoint} (h : c.isBlank = true) : c.val ∈ blanks := by
  simp only [isBlank, Bool.or_eq_true, Bool.and_eq_true, decide_eq_true_eq, beq_iff_eq] at h
  simp only [blanks, List.mem_cons]
  omega

/-- No blank is in a table of digits. -/
theorem isDigit_blanks : (blanks.all fun n => !(ofNat n).isDigit) = true := by decide +kernel

theorem isBlank_of_isDigit {c : CodePoint} (h : c.isDigit = true) : c.isBlank = false := by
  cases hblank : c.isBlank with
  | false => rfl
  | true =>
    have hnone := List.all_eq_true.mp isDigit_blanks c.val (val_mem_blanks hblank)
    rw [Utf8.ofNat_val, h] at hnone
    cases hnone

/-- An ASCII character that is in a table of digits is a decimal digit, and its own ASCII digit. -/
theorem isDigit_ascii : ((List.range 128).all fun n => !(ofNat n).isDigit ||
    (ofNat n).isDecimal && (ofNat n).asciiDigit = ofNat n) = true := by decide +kernel

theorem asciiDigit_of_isDigit {c : CodePoint} (hascii : c.val < 128) (h : c.isDigit = true) :
    c.isDecimal = true ∧ c.asciiDigit = c := by
  have htable := List.all_eq_true.mp isDigit_ascii c.val (List.mem_range.mpr hascii)
  simpa [Utf8.ofNat_val, h] using htable

end CodePoint

/-- The number that decimal digits spell. -/
def Text.decimalValue (t : Text) : Nat := t.foldl (fun n c => 10 * n + c.digitValue) 0

namespace Numeral

/-! ## 2. The ASCII form -/

theorem fold_cons_decimal {c : CodePoint} (h : c.isDecimal = true) (t : Text) :
    fold (c :: t) = c.asciiDigit :: fold t := by
  have hdigit := CodePoint.isDigit_of_isDecimal h
  rw [fold]
  split
  · rw [(CodePoint.asciiDigit_of_isDigit (by omega) hdigit).2]
  · rw [CodePoint.isBlank_of_isDigit hdigit, CodePoint.decimalDigit?_of_isDecimal h]
    rfl

theorem fold_cons_other {c : CodePoint} (h : c.isDigit = true) (hother : c.isDecimal = false)
    (t : Text) : fold (c :: t) = ['?'] := by
  have hlarge : ¬ c.val < 127 := fun hascii => by
    rw [(CodePoint.asciiDigit_of_isDigit (by omega) h).1] at hother
    cases hother
  rw [fold, if_neg hlarge, CodePoint.isBlank_of_isDigit h, Option.not_isSome_iff_eq_none.mp
    (Bool.eq_false_iff.mp hother)]
  rfl

/-- Decimal digits become ASCII digits. -/
theorem fold_decimal : ∀ {t : Text}, (∀ c ∈ t, c.isDecimal = true) →
    fold t = t.map CodePoint.asciiDigit
  | [], _ => rfl
  | c :: t, h => by
    rw [List.forall_mem_cons] at h
    rw [fold_cons_decimal h.1, fold_decimal h.2, List.map_cons]

/-- The first digit that is not decimal ends the text. -/
theorem fold_other : ∀ {t : Text}, (∀ c ∈ t, c.isDigit = true) →
    (∃ c ∈ t, c.isDecimal = false) →
    ∃ ds : Text, (∀ d ∈ ds, d.isAsciiDigit = true) ∧ fold t = ds ++ [('?' : CodePoint)]
  | [], _, hother => by simp at hother
  | c :: t, h, hother => by
    rw [List.forall_mem_cons] at h
    cases hc : c.isDecimal with
    | false => exact ⟨[], by simp, fold_cons_other h.1 hc t⟩
    | true =>
      obtain ⟨d, hd, hnone⟩ := hother
      have hrest : d ∈ t := by
        rcases List.mem_cons.mp hd with rfl | hd
        · rw [hc] at hnone
          cases hnone
        · exact hd
      obtain ⟨ds, hds, hfold⟩ := fold_other h.2 ⟨d, hrest, hnone⟩
      refine ⟨c.asciiDigit :: ds, ?_, by rw [fold_cons_decimal hc, hfold]; rfl⟩
      exact List.forall_mem_cons.mpr ⟨c.isAsciiDigit_asciiDigit, hds⟩

/-- A text of digits is read in its ASCII form, also where it is in ASCII already. -/
theorem plain_digits {t : Text} (h : ∀ c ∈ t, c.isDigit = true) : plain t = fold t := by
  unfold plain
  split
  · rename_i hascii
    have hsame : ∀ c ∈ t, c.isDecimal = true ∧ c.asciiDigit = c := fun c hc =>
      CodePoint.asciiDigit_of_isDigit (by simpa using List.all_eq_true.mp hascii c hc) (h c hc)
    rw [fold_decimal fun c hc => (hsame c hc).1]
    exact ((List.map_congr_left fun c hc => (hsame c hc).2).trans (List.map_id t)).symm
  · rfl

/-! ## 3. Whole numbers -/

/-- A digit is no sign. -/
theorem sign_cons_digit {c : CodePoint} (h : c.isAsciiDigit = true) (t : Text) :
    sign (c :: t) = (false, c :: t) := by
  have hminus : c ≠ '-' := by
    rintro rfl
    exact absurd h (by decide)
  have hplus : c ≠ '+' := by
    rintro rfl
    exact absurd h (by decide)
  rw [sign, if_neg hminus, if_neg hplus]

theorem isDigitRun_digits : ∀ {ds : Text}, ds ≠ [] → (∀ d ∈ ds, d.isAsciiDigit = true) →
    isDigitRun ds = true
  | [], hne, _ => absurd rfl hne
  | [d], _, h => h d (List.mem_singleton.mpr rfl)
  | c :: d :: ds, _, h => by
    rw [List.forall_mem_cons] at h
    have hd : d ≠ '_' := by
      rintro rfl
      exact absurd (h.2 _ (List.mem_cons_self ..)) (by decide)
    rw [isDigitRun, h.1, if_neg hd, Bool.true_and]
    exact isDigitRun_digits (List.cons_ne_nil d ds) h.2

/-- What is read in ASCII digits, alone or with a mark behind them. -/
theorem integerOf_digits {ds rest : Text} (hne : ds ≠ []) (hds : ∀ d ∈ ds, d.isAsciiDigit = true)
    (hrest : rest = [] ∨ rest = [('?' : CodePoint)]) :
    integerOf (ds ++ rest) =
      if maxDigits < ds.length then .error (.tooLong ds.length)
      else if rest.isEmpty then .ok (Decimal.value ds) else .error .malformed := by
  have hrun : ∀ d ∈ ds, inRun d = true := fun d hd => by rw [inRun, hds d hd, Bool.true_or]
  have htake : (ds ++ rest).takeWhile inRun = ds := by
    rw [List.takeWhile_append_of_pos hrun]
    rcases hrest with rfl | rfl
    · exact List.append_nil ds
    · exact List.append_nil ds
  have hdrop : (ds ++ rest).dropWhile inRun = rest := by
    rw [List.dropWhile_append_of_pos hrun]
    rcases hrest with rfl | rfl
    · rfl
    · rfl
  have hstart : sign ((ds ++ rest).dropWhile CodePoint.isAsciiBlank) = (false, ds ++ rest) := by
    obtain ⟨c, cs, rfl⟩ := List.exists_cons_of_ne_nil hne
    have hc := hds c (List.mem_cons_self ..)
    rw [List.cons_append, List.dropWhile_cons, CodePoint.isAsciiBlank_of_isAsciiDigit hc,
      if_neg Bool.false_ne_true, sign_cons_digit hc]
  have hfilter : ds.filter CodePoint.isAsciiDigit = ds := List.filter_eq_self.mpr hds
  unfold integerOf
  rw [hstart]
  dsimp only
  rw [htake, hdrop, hfilter, isDigitRun_digits hne hds]
  rcases hrest with rfl | rfl
  · rfl
  · rfl

/-- With a mark behind its digits, a text is no whole number. -/
theorem integerOf_mark {ds : Text} (hds : ∀ d ∈ ds, d.isAsciiDigit = true) :
    ∃ r, integerOf (ds ++ [('?' : CodePoint)]) = .error r := by
  by_cases hne : ds = []
  · subst hne
    exact ⟨.malformed, rfl⟩
  · rw [integerOf_digits hne hds (.inr rfl)]
    split
    · exact ⟨_, rfl⟩
    · exact ⟨_, rfl⟩

theorem value_asciiDigits (t : Text) :
    Decimal.value (t.map CodePoint.asciiDigit) = t.decimalValue := by
  rw [Decimal.value, List.foldl_map, Text.decimalValue]
  simp only [CodePoint.val_asciiDigit, Nat.add_sub_cancel_left]

end Numeral

/-- What is no whole number fails, however it is shown. -/
theorem Value.integerOr_error (shown : Text) (r : Numeral.Refusal) :
    ∃ f, integerOr shown (.error r) = .error f := by
  cases r with
  | malformed => exact ⟨_, rfl⟩
  | tooLong digits => exact ⟨_, rfl⟩

/-- **A text of digits is a whole number** if and only if its digits are decimal and there are at most
4300 of them. -/
theorem Value.toInteger_digits {t : Text} (h : t.isDigits = true) {n : Int} :
    (Value.text t).toInteger = .ok n ↔
      (∀ c ∈ t, c.isDecimal = true) ∧ t.length ≤ Numeral.maxDigits ∧ n = t.decimalValue := by
  obtain ⟨hne, hdigits⟩ : t ≠ [] ∧ ∀ c ∈ t, c.isDigit = true := by simpa [Text.isDigits] using h
  rw [toInteger, Numeral.integer, Numeral.plain_digits hdigits]
  by_cases hdecimal : ∀ c ∈ t, c.isDecimal = true
  · have hascii : ∀ d ∈ t.map CodePoint.asciiDigit, d.isAsciiDigit = true := by
      simpa using fun c _ => c.isAsciiDigit_asciiDigit
    have hread := Numeral.integerOf_digits (by simpa using hne) hascii (.inl rfl)
    rw [List.append_nil, List.length_map, Numeral.value_asciiDigits] at hread
    rw [Numeral.fold_decimal hdecimal, hread]
    by_cases hlong : Numeral.maxDigits < t.length
    · rw [if_pos hlong]
      refine iff_of_false (fun h => ?_) fun h => absurd h.2.1 (Nat.not_le.mpr hlong)
      cases h
    · rw [if_neg hlong]
      constructor
      · intro h
        exact ⟨hdecimal, Nat.not_lt.mp hlong, (Except.ok.inj h).symm⟩
      · rintro ⟨-, -, rfl⟩
        rfl
  · obtain ⟨ds, hds, hfold⟩ := Numeral.fold_other hdigits (by simpa using hdecimal)
    obtain ⟨r, hr⟩ := Numeral.integerOf_mark hds
    rw [hfold, hr]
    obtain ⟨f, hf⟩ := integerOr_error (Quoted.text t) r
    refine iff_of_false (fun h => ?_) fun h => hdecimal h.1
    cases hf.symm.trans h

/-! ## 4. Texts that are mistaken for numbers -/

namespace Text

/-- A text is not mistaken for a number: if it is made of digits, then they are decimal and not too
many. -/
def Unmistaken (t : Text) : Prop :=
  t.isDigits = true → (∀ c ∈ t, c.isDecimal = true) ∧ t.length ≤ Numeral.maxDigits

-- of the digits themselves, an instance for all code points would be found
instance (t : Text) : Decidable t.Unmistaken :=
  decidable_of_iff
    (t.isDigits = true → t.all CodePoint.isDecimal = true ∧ t.length ≤ Numeral.maxDigits)
    (by rw [Unmistaken, List.all_eq_true])

/-- The number that a text spells, if it is made of decimal digits and not of too many. -/
def number? (t : Text) : Option Nat :=
  if t.isDigits && t.all CodePoint.isDecimal && t.length ≤ Numeral.maxDigits then some t.decimalValue
  else none

variable {t : Text} {n : Int}

theorem number?_of_not_digits (h : t.isDigits = false) : t.number? = none := by
  rw [number?, h]
  rfl

theorem unmistaken_of_not_digits (h : t.isDigits = false) : t.Unmistaken := fun hdigits => by
  rw [h] at hdigits
  cases hdigits

/-- What can be read was not mistaken for a number. -/
theorem unmistaken_of_toInteger (h : (Value.text t).toInteger = .ok n) : t.Unmistaken := fun hdigits =>
  have hn := (Value.toInteger_digits hdigits).mp h
  ⟨hn.1, hn.2.1⟩

/-- A text of digits that is not mistaken for a number is read as the number that it spells. -/
theorem Unmistaken.toInteger (h : t.Unmistaken) (hdigits : t.isDigits = true) :
    ∃ n, t.number? = some n ∧ (Value.text t).toInteger = .ok n := by
  obtain ⟨hdecimal, hlength⟩ := h hdigits
  refine ⟨t.decimalValue, ?_, (Value.toInteger_digits hdigits).mpr ⟨hdecimal, hlength, rfl⟩⟩
  rw [number?, hdigits, List.all_eq_true.mpr hdecimal, decide_eq_true hlength]
  rfl

end Text

end Keyscope
