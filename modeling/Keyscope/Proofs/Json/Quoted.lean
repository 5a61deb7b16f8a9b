/-
# Texts between quotes

What is written of a text is read as that text (`Json.textFrom_quoted`), one code point after the other:
a code point that stands for itself, a letter behind a backslash, or four digits in base sixteen.  One
beyond the first plane is written as two escapes, which are read as a pair of surrogates.

That has a limit.  Two code points of a text that are themselves such a pair are written the same way as
the one that they stand for, and are read as it.  So it is a text without such a pair that is read back
(`Text.Unpaired`).
-/
import Keyscope.Json.Reader
import Keyscope.Json.Writer
import Keyscope.Proofs.Outcome
import Keyscope.Proofs.Text.Codec

namespace Keyscope

/-! ## 1. Digits in base sixteen -/

namespace Decimal

/-- The digit of a number below sixteen. -/
def hexDigit (d : Nat) : CodePoint := CodePoint.ofChar (Nat.digitChar d)

theorem hexDigit?_hexDigit : ∀ {d : Nat}, d < 16 → (hexDigit d).hexDigit? = some d := by decide

/-- The last digit is the remainder, those in front of it are the quotient. -/
theorem hex_succ {width : Nat} (hwidth : 0 < width) (n : Nat) :
    hex (width + 1) n = hex width (n / 16) ++ [hexDigit (n % 16)] := by
  obtain ⟨w, rfl⟩ := Nat.exists_eq_add_one.mpr hwidth
  rcases Nat.lt_or_ge n 16 with hn | hn
  · rw [Nat.div_eq_of_lt hn, Nat.mod_eq_of_lt hn, hex, hex, Nat.toDigits_of_lt_base hn, Nat.toDigits_zero]
    simp only [List.map_cons, List.map_nil, List.length_singleton, Nat.add_sub_cancel, Text.replicate,
      List.append_assoc]
    rw [List.replicate_succ', List.append_assoc]
    rfl
  · rw [hex, hex, Nat.toDigits_of_base_le (by decide) hn, List.map_append, List.length_append,
      List.map_singleton, List.length_singleton, Nat.add_sub_add_right, ← List.append_assoc]
    rfl

theorem hex_one {n : Nat} (h : n < 16) : hex 1 n = [hexDigit n] := by
  rw [hex, Nat.toDigits_of_lt_base h]
  rfl

end Decimal

namespace Json

open Decimal (hex hexDigit hex_succ hex_one hexDigit?_hexDigit)

/-- **Four digits are read as the number that they are of.** -/
theorem hexDigits_hex {n : Nat} (h : n < 0x10000) (rest : Text) :
    hexDigits 4 (hex 4 n ++ rest) = some (n, rest) := by
  rw [hex_succ (by decide), hex_succ (by decide), hex_succ (by decide), hex_one (by omega)]
  have hlast : ∀ n, n % 16 < 16 := fun n => Nat.mod_lt n (by decide)
  simp only [List.cons_append, List.nil_append, hexDigits, hexDigit?_hexDigit (hlast _),
    hexDigit?_hexDigit (by omega : n / 16 / 16 / 16 < 16)]
  simp only [Nat.pow_eq]
  congr 2
  omega

/-! ## 2. Code points -/

/-- **How a code point is written.** -/
inductive Spelled (c : CodePoint) : Text → Prop
  /-- A letter behind a backslash. -/
  | letter {d : CodePoint} (hd : d ≠ 'u') (h : escaped? d = some c) : Spelled c ['\\', d]
  /-- The code point itself. -/
  | plain (h : 0x1F < c.val) (quote : c ≠ '"') (backslash : c ≠ '\\') : Spelled c [c]
  /-- Its number. -/
  | unit (h : c.val < 0x10000) : Spelled c (unitEscape c.val)
  /-- The numbers of two surrogates. -/
  | pair {high low : Nat} (hhigh : isHighSurrogate high = true) (hlow : isLowSurrogate low = true)
    (h : joinSurrogates high low = c) : Spelled c (unitEscape high ++ unitEscape low)

theorem spelled_escapePoint (c : CodePoint) : Spelled c (escapePoint c) := by
  unfold escapePoint
  split
  · rename_i h
    exact .letter (by decide) (by rw [h]; rfl)
  split
  · rename_i h
    exact .letter (by decide) (by rw [h]; rfl)
  split
  · rename_i h
    exact .letter (by decide) (by rw [h]; rfl)
  split
  · rename_i h
    exact .letter (by decide) (by rw [h]; rfl)
  split
  · rename_i h
    exact .letter (by decide) (by rw [h]; rfl)
  split
  · rename_i h
    exact .letter (d := 'b') (by decide) (congrArg some (Fin.ext h).symm)
  split
  · rename_i h
    exact .letter (d := 'f') (by decide) (congrArg some (Fin.ext h).symm)
  split
  · rename_i h
    exact .plain (by omega) ‹_› ‹_›
  split
  · rename_i h
    exact .unit h
  · rename_i h
    dsimp only
    have hc := c.isLt
    refine .pair ?_ ?_ ?_
    · simp only [isHighSurrogate, Bool.and_eq_true, decide_eq_true_eq]
      omega
    · simp only [isLowSurrogate, Bool.and_eq_true, decide_eq_true_eq]
      omega
    · have hsum : 0x10000 + (0xD800 + (c.val - 0x10000) / 0x400 - 0xD800) * 0x400 +
          (0xDC00 + (c.val - 0x10000) % 0x400 - 0xDC00) = c.val := by omega
      rw [joinSurrogates, hsum, Utf8.ofNat_val]

/-- A surrogate that nothing joins stands for itself. -/
def Alone (high : Nat) (rest : Text) : Prop := lowHalf high rest = .ok (.ofNat high, rest)

theorem alone_of_not_high {n : Nat} (h : isHighSurrogate n = false) (rest : Text) : Alone n rest := by
  unfold Alone lowHalf
  split
  · rw [h, Bool.false_and, Bool.false_and, Bool.false_and, if_neg Bool.false_ne_true]
  · rfl

/-- What starts with no escape for a number is joined to nothing. -/
theorem alone_of_head (n : Nat) {c : CodePoint} (hc : c ≠ '\\') (rest : Text) : Alone n (c :: rest) := by
  unfold Alone lowHalf
  split
  · rename_i heq
    obtain ⟨rfl, -⟩ := List.cons.inj heq
    rw [decide_eq_false hc, Bool.and_false, Bool.false_and, Bool.false_and, if_neg Bool.false_ne_true]
  · rfl

theorem alone_of_letter (n : Nat) {c : CodePoint} (hc : c ≠ 'u') (rest : Text) :
    Alone n ('\\' :: c :: rest) := by
  unfold Alone lowHalf
  dsimp only
  rw [decide_eq_false hc, Bool.and_false, Bool.false_and, if_neg Bool.false_ne_true]

/-- An escape for a number that is no low surrogate is joined to nothing. -/
theorem alone_of_unit (n : Nat) {d : Nat} (hd : d < 0x10000) (hlow : isLowSurrogate d = false) (rest : Text) :
    Alone n (unitEscape d ++ rest) := by
  have hunit : unitEscape d ++ rest = ('\\' : CodePoint) :: ('u' : CodePoint) :: (hex 4 d ++ rest) := rfl
  unfold Alone
  rw [hunit, lowHalf]
  split
  · rw [hexDigits_hex hd]
    dsimp only
    rw [hlow, if_neg Bool.false_ne_true]
  · rfl

/-- **Only a low surrogate is joined** to what was in front of it. -/
theorem Spelled.alone {c : CodePoint} {w : Text} (h : Spelled c w) (hlow : isLowSurrogate c.val = false)
    (n : Nat) (rest : Text) : Alone n (w ++ rest) := by
  cases h with
  | letter hd _ => exact alone_of_letter n hd rest
  | plain _ _ hbackslash => exact alone_of_head n hbackslash rest
  | unit h => exact alone_of_unit n h hlow rest
  | @pair high low hhigh _ _ =>
    have hrange : 0xD800 ≤ high ∧ high ≤ 0xDBFF := by
      simpa [isHighSurrogate] using hhigh
    rw [List.append_assoc]
    refine alone_of_unit n (by omega) ?_ _
    rw [isLowSurrogate, decide_eq_false (by omega), Bool.false_and]

theorem drop_hex {n : Nat} (h : n < 0x10000) (rest : Text) : (hex 4 n ++ rest).drop 4 = rest := by
  refine List.drop_left' ?_
  rw [hex_succ (by decide), hex_succ (by decide), hex_succ (by decide), hex_one (by omega)]
  rfl

/-- The two halves of a pair are joined. -/
theorem lowHalf_pair {high low : Nat} (hhigh : isHighSurrogate high = true)
    (hlow : isLowSurrogate low = true) {rest : Text} (hrest : rest ≠ []) :
    lowHalf high (unitEscape low ++ rest) = .ok (joinSurrogates high low, rest) := by
  have hlows : 0xDC00 ≤ low ∧ low ≤ 0xDFFF := by simpa [isLowSurrogate] using hlow
  have hsize : low < 0x10000 := by omega
  have hunit : unitEscape low ++ rest = ('\\' : CodePoint) :: ('u' : CodePoint) :: (hex 4 low ++ rest) := rfl
  have hmore : rest.isEmpty = false := by simpa using hrest
  rw [hunit, lowHalf, drop_hex hsize, hhigh, decide_eq_true rfl, decide_eq_true rfl, hmore,
    if_pos (by decide), hexDigits_hex hsize]
  dsimp only
  rw [if_pos hlow]

/-! ## 3. Texts -/

theorem unit?_hex {n : Nat} (h : n < 0x10000) {rest : Text} (hrest : rest ≠ []) :
    unit? (hex 4 n ++ rest) = some (n, rest) := by
  rw [unit?, drop_hex h, if_neg (by simpa using hrest), hexDigits_hex h]

variable {opening u t rest : Text} {steps : Nat}

theorem textFrom_plain {c : CodePoint} (h : 0x1F < c.val) (hquote : c ≠ '"') (hbackslash : c ≠ '\\')
    (hu : textFrom opening steps u = .ok (t, rest)) :
    textFrom opening (steps + 1) (c :: u) = .ok (c :: t, rest) := by
  rw [textFrom.eq_def]
  dsimp only
  rw [if_neg hquote, if_neg hbackslash, if_neg (by omega), hu]
  rfl

theorem textFrom_letter {c d : CodePoint} (hd : d ≠ 'u') (h : escaped? d = some c)
    (hu : textFrom opening steps u = .ok (t, rest)) :
    textFrom opening (steps + 1) ('\\' :: d :: u) = .ok (c :: t, rest) := by
  rw [textFrom, if_neg (by decide), if_pos rfl, if_neg hd, h]
  dsimp only
  rw [hu]
  rfl

/-- A number is the code point that it is of, alone or with what it is joined to. -/
theorem textFrom_unit {c : CodePoint} {n : Nat} {v : Text} (hn : n < 0x10000) (hv : v ≠ [])
    (hlow : lowHalf n v = .ok (c, u)) (hu : textFrom opening steps u = .ok (t, rest)) :
    textFrom opening (steps + 1) (unitEscape n ++ v) = .ok (c :: t, rest) := by
  have hunit : unitEscape n ++ v = ('\\' : CodePoint) :: ('u' : CodePoint) :: (hex 4 n ++ v) := rfl
  rw [hunit, textFrom, if_neg (by decide), if_pos rfl, if_pos rfl, unit?_hex hn hv]
  dsimp only
  rw [hlow]
  show (textFrom opening steps u >>= _) = _
  rw [hu]
  rfl

/-- **A code point is read as it is written.** -/
theorem Spelled.read {c : CodePoint} {w : Text} (h : Spelled c w)
    (hu : textFrom opening steps u = .ok (t, rest)) (halone : Alone c.val u) :
    textFrom opening (steps + 1) (w ++ u) = .ok (c :: t, rest) := by
  have hne : u ≠ [] := by
    rintro rfl
    cases steps <;> cases hu
  cases h with
  | letter hd h => exact textFrom_letter hd h hu
  | plain h hquote hbackslash => exact textFrom_plain h hquote hbackslash hu
  | unit h =>
    refine textFrom_unit h hne ?_ hu
    rw [halone, Utf8.ofNat_val]
  | @pair high low hhigh hlow h =>
    have hhighs : 0xD800 ≤ high ∧ high ≤ 0xDBFF := by simpa [isHighSurrogate] using hhigh
    rw [List.append_assoc]
    exact textFrom_unit (by omega) (List.cons_ne_nil _ _) (h ▸ lowHalf_pair hhigh hlow hne) hu

/-- No two code points in a row are a pair of surrogates. -/
def Unpaired (t : Text) : Prop :=
  t.IsChain fun c d => ¬ (isHighSurrogate c.val = true ∧ isLowSurrogate d.val = true)

/-- **What is written of a text is read as that text.** -/
theorem textFrom_quoted (opening rest : Text) : ∀ {t : Text} {steps : Nat}, Unpaired t → t.length < steps →
    textFrom opening steps (t.flatMap escapePoint ++ ('"' : CodePoint) :: rest) = .ok (t, rest)
  | [], steps + 1, _, _ => by
    rw [List.flatMap_nil, List.nil_append, textFrom.eq_def]
    exact if_pos rfl
  | c :: t, steps + 1, h, hsteps => by
    have hrest := textFrom_quoted opening rest h.of_cons (Nat.lt_of_succ_lt_succ hsteps)
    rw [List.flatMap_cons, List.append_assoc]
    refine (spelled_escapePoint c).read hrest ?_
    -- a high surrogate is followed by the end of the text or by no low one
    cases hhigh : isHighSurrogate c.val with
    | false => exact alone_of_not_high hhigh _
    | true =>
      cases t with
      | nil => exact alone_of_head _ (by decide) _
      | cons d t =>
        have hlow : isLowSurrogate d.val = false := by
          simpa [hhigh] using (List.isChain_cons_cons.mp h).1
        rw [List.flatMap_cons, List.append_assoc]
        exact (spelled_escapePoint d).alone hlow _ _

end Json

end Keyscope
