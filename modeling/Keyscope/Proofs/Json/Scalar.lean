/-
# Numbers and words in a document

A number in a document ends where nothing can belong to it any more (`Json.Stops`).  Up to there, what is
written of a whole number is read as that number (`Json.number_ofInt`), and so is what is written of a
real one, as long as it is finite (`Json.number_literal`).  For those that are not there are words.  A
reader that knows these reads them, and one that does not refuses them (`Json.scalar_nonfinite`).
-/
import Keyscope.Json.Writer
import Keyscope.Proofs.Number.Written

namespace Keyscope

namespace Json

/-! ## 1. Numbers -/

/-- Nothing that could belong to a number follows. -/
def Stops (rest : Text) : Prop :=
  ∀ c ∈ rest.head?, c.isAsciiDigit = false ∧ c ≠ '.' ∧ c ≠ 'e' ∧ c ≠ 'E'

open Numeral (Literal)

variable {rest : Text}

/-- Digits in front, of which the first one is not a zero unless it is all there is. -/
theorem wholeDigits_append {ds : Text} (hleading : ds = ['0'] ∨ ∃ c es, ds = c :: es ∧ c ≠ '0')
    (hds : ∀ c ∈ ds, c.isAsciiDigit = true) (hrest : ∀ c ∈ rest.head?, c.isAsciiDigit = false) :
    wholeDigits (ds ++ rest) = (ds, rest) := by
  rcases hleading with rfl | ⟨c, es, rfl, hc⟩
  · rfl
  · obtain ⟨htake, hdrop⟩ := Numeral.span_digits hds rest hrest
    rw [List.cons_append] at htake hdrop ⊢
    rw [wholeDigits, if_neg hc, digits, htake, hdrop]

theorem fraction_none (h : ∀ c ∈ rest.head?, c ≠ '.') : fraction rest = ([], rest) := by
  cases rest with
  | nil => rfl
  | cons c u =>
    have hc : decide (c = '.') = false := decide_eq_false (h c rfl)
    simp only [fraction, hc, Bool.false_and, Bool.false_eq_true, if_false]

theorem exponent_none (h : Stops rest) : exponent rest = ([], rest) := by
  cases rest with
  | nil => rfl
  | cons c u =>
    obtain ⟨-, -, he, hE⟩ := h c rfl
    rw [exponent.eq_def]
    exact if_neg (not_or.mpr ⟨he, hE⟩)

variable (l : Literal)

theorem exponent_literal (h : Stops rest) : exponent (l.exponentText ++ rest) = (l.exponentText, rest) := by
  have hdigits := l.digits_exponent
  unfold Literal.exponentText
  cases hexponent : l.exponent with
  | none => exact exponent_none h
  | some p =>
    obtain ⟨negative, ds⟩ := p
    obtain ⟨hne, hds⟩ := hdigits _ hexponent
    obtain ⟨htake, hdrop⟩ := Numeral.span_digits hds rest fun c hc => (h c hc).1
    have hempty : ds.isEmpty = false := by simpa using hne
    have hmark : ∀ c : CodePoint, c = '+' ∨ c = '-' →
        exponent (('e' : CodePoint) :: c :: ds ++ rest) = (('e' : CodePoint) :: c :: ds, rest) := by
      intro c hc
      rw [exponent.eq_def]
      simp only [List.cons_append, true_or, if_true, if_pos hc, digits, htake, hdrop, hempty,
        Bool.false_eq_true, if_false, List.nil_append]
    cases negative with
    | true => exact hmark _ (.inr rfl)
    | false => exact hmark _ (.inl rfl)

/-- What follows the point. -/
theorem head_exponentText (h : Stops rest) {c : CodePoint} (hc : c ∈ (l.exponentText ++ rest).head?) :
    c.isAsciiDigit = false ∧ c ≠ '.' := by
  cases htext : l.exponentText with
  | nil =>
    rw [htext] at hc
    exact ⟨(h c hc).1, (h c hc).2.1⟩
  | cons d u =>
    obtain rfl : d = 'e' := l.head_exponentText (by rw [htext]; rfl)
    rw [htext] at hc
    obtain rfl := Option.mem_some_iff.mp hc
    exact ⟨rfl, by decide⟩

theorem fraction_literal (h : Stops rest) :
    fraction (l.pointText ++ (l.exponentText ++ rest)) = (l.pointText, l.exponentText ++ rest) := by
  by_cases hfraction : l.fraction = []
  · rw [l.pointText_nil hfraction, List.nil_append]
    exact fraction_none fun c hc => (head_exponentText l h hc).2
  · obtain ⟨htake, hdrop⟩ := Numeral.span_digits l.digits_fraction (l.exponentText ++ rest) fun c hc =>
      (head_exponentText l h hc).1
    have hempty : l.fraction.isEmpty = false := by simpa using hfraction
    rw [l.pointText_cons hfraction, List.cons_append, fraction]
    simp only [digits, htake, hdrop, hempty, decide_true, Bool.not_false, Bool.and_self, if_true]

/-- A number behind a sign is read in its parts. -/
theorem number_parts (negative : Bool) {ds f e u v : Text} (hne : ds ≠ [])
    (hsign : ∀ c ∈ ds.head?, c ≠ '-') (hwhole : wholeDigits (ds ++ u) = (ds, u))
    (hfraction : fraction u = (f, v)) (hexponent : exponent v = (e, rest)) :
    number (Decimal.sign negative ++ ds ++ u) =
      if f.isEmpty && e.isEmpty then
        match Numeral.integerOf (Decimal.sign negative ++ ds) with
        | .ok n => .ok (.int n, rest)
        | .error (.tooLong n) => .error (.failure (.integerTextTooLong n))
        | .error .malformed => fault "Expecting value" (Decimal.sign negative ++ ds ++ u)
      else .ok (.real ((Numeral.realOfPlain (Decimal.sign negative ++ ds ++ f ++ e)).getD .nan), rest) := by
  obtain ⟨c, es, rfl⟩ := List.exists_cons_of_ne_nil hne
  cases negative with
  | true =>
    have htext : Decimal.sign true ++ (c :: es) ++ u = ('-' : CodePoint) :: (c :: es ++ u) := rfl
    rw [htext]
    simp only [number, if_true, hwhole, hfraction, hexponent, List.isEmpty_cons, Bool.false_eq_true,
      if_false]
    rfl
  | false =>
    have htext : Decimal.sign false ++ (c :: es) ++ u = c :: (es ++ u) := rfl
    rw [List.cons_append] at hwhole
    rw [htext]
    simp only [number, if_neg (hsign c rfl), hwhole, hfraction, hexponent, List.isEmpty_cons,
      Bool.false_eq_true, if_false]
    rfl

/-- **A literal behind a sign is read as the number that it spells.** -/
theorem number_literal (negative : Bool) (h : Stops rest) :
    number (Decimal.sign negative ++ l.text ++ rest) = .ok (.real (l.read negative), rest) := by
  obtain ⟨c, ds, hwhole, hc⟩ := l.exists_whole
  have hbehind : ∀ c ∈ (l.pointText ++ (l.exponentText ++ rest)).head?, c.isAsciiDigit = false := by
    intro c hc
    by_cases hfraction : l.fraction = []
    · rw [l.pointText_nil hfraction] at hc
      exact (head_exponentText l h hc).1
    · rw [l.pointText_cons hfraction] at hc
      obtain rfl := Option.mem_some_iff.mp hc
      rfl
  have hreal : (l.pointText.isEmpty && l.exponentText.isEmpty) = false := by
    rw [Bool.and_eq_false_iff]
    rcases l.isReal with hfraction | hexponent
    · rw [l.pointText_cons hfraction]
      exact .inl rfl
    · refine .inr ?_
      unfold Literal.exponentText
      split
      · exact absurd ‹_› hexponent
      · rfl
  have htext : Decimal.sign negative ++ l.text ++ rest =
      Decimal.sign negative ++ l.whole ++ (l.pointText ++ (l.exponentText ++ rest)) := by
    simp only [Literal.text, List.append_assoc]
  have hread : Decimal.sign negative ++ l.whole ++ l.pointText ++ l.exponentText =
      Decimal.sign negative ++ l.text := by
    simp only [Literal.text, List.append_assoc]
  rw [htext, number_parts negative (by rw [hwhole]; exact List.cons_ne_nil _ _) ?_
    (wholeDigits_append l.leading l.digits_whole hbehind) (fraction_literal l h) (exponent_literal l h),
    hreal, if_neg Bool.false_ne_true, hread, l.realOfPlain_text, Option.getD_some]
  rw [hwhole]
  rintro d ⟨⟩ rfl
  exact absurd hc (by decide)

/-- The text of a whole number that has one is read as that number. -/
theorem integerOf_ofInt {n : Int} (hn : n.natAbs < tenTo Numeral.maxDigits) :
    Numeral.integerOf (Decimal.ofInt n) = .ok n := by
  have hdigits : ∀ d ∈ Decimal.ofNat n.natAbs, d.isAsciiDigit = true := fun d hd =>
    Decimal.isAsciiDigit_of_mem_ofNat hd
  have hne := Decimal.ofNat_ne_nil n.natAbs
  have hvalue := Decimal.value_ofNat n.natAbs
  have hlength : (Decimal.ofNat n.natAbs).length ≤ Numeral.maxDigits := by
    rw [tenTo_natCast] at hn
    exact Decimal.length_ofNat_le (by decide) hn
  rw [Decimal.ofInt]
  generalize Decimal.ofNat n.natAbs = ds at *
  have hrun : ∀ d ∈ ds, Numeral.inRun d = true := fun d hd => by rw [Numeral.inRun, hdigits d hd, Bool.true_or]
  have htake : ds.takeWhile Numeral.inRun = ds := List.takeWhile_eq_self_iff.mpr hrun
  have hdrop : ds.dropWhile Numeral.inRun = [] := List.dropWhile_eq_nil_iff.mpr hrun
  have hfilter : ds.filter CodePoint.isAsciiDigit = ds := List.filter_eq_self.mpr hdigits
  have hstart : Numeral.sign ((Decimal.sign (n < 0) ++ ds).dropWhile CodePoint.isAsciiBlank) =
      (decide (n < 0), ds) := by
    cases decide (n < 0) with
    | true => rfl
    | false =>
      obtain ⟨c, cs, rfl⟩ := List.exists_cons_of_ne_nil hne
      have hc := hdigits c List.mem_cons_self
      show Numeral.sign ((c :: cs).dropWhile CodePoint.isAsciiBlank) = (false, c :: cs)
      rw [List.dropWhile_cons, CodePoint.isAsciiBlank_of_isAsciiDigit hc, if_neg Bool.false_ne_true,
        Numeral.sign_cons_digit hc]
  unfold Numeral.integerOf
  rw [hstart]
  dsimp only
  rw [htake, hdrop, hfilter, Numeral.isDigitRun_digits hne hdigits, if_neg (by decide), if_neg (by omega),
    hvalue, List.all_nil, if_pos rfl]
  congr 1
  split
  · rename_i hsign
    have := of_decide_eq_true hsign
    omega
  · rename_i hsign
    have := of_decide_eq_false (Bool.not_eq_true _ ▸ hsign)
    omega

/-- **A whole number is read as it is written.** -/
theorem number_ofInt {n : Int} (hn : n.natAbs < tenTo Numeral.maxDigits) (h : Stops rest) :
    number (Decimal.ofInt n ++ rest) = .ok (.int n, rest) := by
  have hdigits : ∀ c ∈ Decimal.ofNat n.natAbs, c.isAsciiDigit = true := fun c hc =>
    Decimal.isAsciiDigit_of_mem_ofNat hc
  have hleading : Decimal.ofNat n.natAbs = ['0'] ∨ ∃ c es, Decimal.ofNat n.natAbs = c :: es ∧ c ≠ '0' := by
    rcases Nat.eq_zero_or_pos n.natAbs with hzero | hpos
    · rw [hzero]
      exact .inl rfl
    · exact .inr (Decimal.exists_ofNat hpos.ne')
  have hread := integerOf_ofInt hn
  rw [Decimal.ofInt] at hread ⊢
  rw [number_parts _ (Decimal.ofNat_ne_nil _) ?_ (wholeDigits_append hleading hdigits fun c hc => (h c hc).1)
    (fraction_none fun c hc => (h c hc).2.1) (exponent_none h), hread]
  · rfl
  · rintro c hc rfl
    exact absurd (hdigits _ (List.mem_of_mem_head? hc)) (by decide)

/-! ## 2. Words -/

/-- The words that a reader knows: those for numbers that are not finite may be among them. -/
def wordsOf (liberal : Bool) : List (String × Value) := if liberal then constants else words

theorem mem_constants {liberal : Bool} {p : String × Value} (h : p ∈ wordsOf liberal) : p ∈ constants := by
  cases liberal with
  | true => exact h
  | false => exact List.mem_append_left _ h

/-- No word is made of digits, with a sign or without one. -/
theorem word?_eq_none {negative : Bool} {c : CodePoint} (hc : c.isAsciiDigit = true) (u : Text)
    {p : String × Value} (hp : p ∈ constants) : word? p.1 (Decimal.sign negative ++ c :: u) = none := by
  have hnot : ¬ Text.ofString p.1 <+: Decimal.sign negative ++ c :: u := by
    have hother : ∀ d : CodePoint, d.isAsciiDigit = false → d ≠ c := by
      rintro d hd rfl
      rw [hc] at hd
      cases hd
    simp only [constants, words, List.cons_append, List.nil_append, List.mem_cons, List.not_mem_nil,
      or_false] at hp
    rintro ⟨v, hv⟩
    cases negative with
    | false => rcases hp with rfl | rfl | rfl | rfl | rfl | rfl <;> exact hother _ rfl (List.cons.inj hv).1
    | true =>
      rcases hp with rfl | rfl | rfl | rfl | rfl | rfl
      iterate 5 exact absurd (List.cons.inj hv).1 (by decide)
      exact hother _ rfl (List.cons.inj (List.cons.inj hv).2).1
  exact if_neg fun h => hnot (List.isPrefixOf_iff_prefix.mp h)

theorem scalar_number {liberal negative : Bool} {c : CodePoint} (hc : c.isAsciiDigit = true) (u : Text) :
    scalar (wordsOf liberal) (Decimal.sign negative ++ c :: u) = number (Decimal.sign negative ++ c :: u) := by
  have hnone : (wordsOf liberal).findSome?
      (fun p => (word? p.1 (Decimal.sign negative ++ c :: u)).map fun rest => (p.2, rest)) = none := by
    refine List.findSome?_eq_none_iff.mpr fun p hp => ?_
    rw [word?_eq_none hc u (mem_constants hp)]
    rfl
  rw [scalar, hnone]

theorem scalar_word {liberal : Bool} {p : String × Value} (hp : p ∈ words) (rest : Text) :
    scalar (wordsOf liberal) (Text.ofString p.1 ++ rest) = .ok (p.2, rest) := by
  simp only [words, List.mem_cons, List.not_mem_nil, or_false] at hp
  rcases hp with rfl | rfl | rfl <;> cases liberal <;> rfl

/-- **A number that is not finite is read by the one who knows the word for it.** -/
theorem scalar_nonfinite {x : Binary64} (hx : x.isFinite = false) (rest : Text) :
    scalar (wordsOf true) (realText x ++ rest) = .ok (.real x, rest) ∧
      ∃ f, scalar (wordsOf false) (realText x ++ rest) = .error f := by
  cases x with
  | nan => exact ⟨rfl, _, rfl⟩
  | infinite s => cases s <;> exact ⟨rfl, _, rfl⟩
  | finite s m q => cases hx

/-- **A finite number is read by everyone.** -/
theorem scalar_finite {liberal : Bool} {s : Bool} {m : Nat} {q : Int} (hcanonical : Binary64.Canonical m q)
    (h : Stops rest) :
    scalar (wordsOf liberal) (realText (.finite s m q) ++ rest) = .ok (.real (.finite s m q), rest) := by
  obtain ⟨l, htext, hread⟩ := Binary64.exists_literal s hcanonical
  obtain ⟨c, ds, hwhole, hc⟩ := l.exists_whole
  have hl : Decimal.sign s ++ l.text ++ rest =
      Decimal.sign s ++ c :: (ds ++ l.pointText ++ l.exponentText ++ rest) := by
    simp only [Numeral.Literal.text, hwhole, List.append_assoc, List.cons_append]
  have hreal : realText (.finite s m q) = (Binary64.finite s m q).toText := rfl
  have hnumber := number_literal l s h
  rw [hl] at hnumber
  rw [hreal, htext, hl, scalar_number hc, hnumber, hread]

theorem scalar_ofInt {liberal : Bool} {n : Int} (hn : n.natAbs < tenTo Numeral.maxDigits) (h : Stops rest) :
    scalar (wordsOf liberal) (Decimal.ofInt n ++ rest) = .ok (.int n, rest) := by
  obtain ⟨c, ds, hds⟩ := List.exists_cons_of_ne_nil (Decimal.ofNat_ne_nil n.natAbs)
  have hc : c.isAsciiDigit = true :=
    Decimal.isAsciiDigit_of_mem_ofNat (n := n.natAbs) (by rw [hds]; exact List.mem_cons_self)
  have hn : Decimal.ofInt n ++ rest = Decimal.sign (n < 0) ++ c :: (ds ++ rest) := by
    rw [Decimal.ofInt, hds, List.append_assoc, List.cons_append]
  have hnumber := number_ofInt ‹_› h
  rw [hn] at hnumber ⊢
  rw [scalar_number hc, hnumber]

end Json

end Keyscope
