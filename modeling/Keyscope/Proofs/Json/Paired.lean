/-
# What is read has no pairs of surrogates

A document may spell any surrogate by its number, and two of them in a row as a pair.  The reader joins
such a pair to the code point that it stands for, so no text that it gives has one (`textFrom_unpaired`),
as long as the document itself has no surrogates.

That takes a look at two code points at once.  One that is read as a low surrogate was spelled by its
number (`Opens`), and a high surrogate is only left alone if nothing of that kind follows it.

So all texts in a value that is read are such texts (`unpaired_of_parse`), and so is the text of each
part of it (`Value.Unpaired.toText`).
-/
import Keyscope.Proofs.Json.Quoted
import Keyscope.Proofs.Json.Reader
import Keyscope.Proofs.Text.Characters

namespace Keyscope

namespace Json

/-! ## 1. Surrogates -/

theorem isSurrogate_of_high {c : CodePoint} (h : isHighSurrogate c.val = true) : c.isSurrogate = true := by
  simp only [isHighSurrogate, CodePoint.isSurrogate, Bool.and_eq_true, decide_eq_true_eq] at h ⊢
  omega

theorem isSurrogate_of_low {c : CodePoint} (h : isLowSurrogate c.val = true) : c.isSurrogate = true := by
  simp only [isLowSurrogate, CodePoint.isSurrogate, Bool.and_eq_true, decide_eq_true_eq] at h ⊢
  omega

/-- Where there are no surrogates there is no pair. -/
theorem unpaired_of_characters : ∀ {t : Text}, t.Characters → Unpaired t
  | [], _ => .nil
  | [c], _ => .singleton c
  | c :: d :: t, h => by
    rw [Text.characters_cons] at h
    refine .cons_cons (fun hpair => ?_) (unpaired_of_characters h.2)
    rw [isSurrogate_of_high hpair.1] at h
    cases h.1

/-- A code point in front of a text is no part of a pair if it is no high surrogate or no low one follows. -/
theorem Unpaired.cons {c : CodePoint} {t : Text} (h : Unpaired t)
    (hc : isHighSurrogate c.val = true → ∀ d ∈ t.head?, isLowSurrogate d.val = false) :
    Unpaired (c :: t) := by
  cases t with
  | nil => exact .singleton c
  | cons d t =>
    refine .cons_cons (fun hpair => ?_) h
    rw [hc hpair.1 d rfl] at hpair
    cases hpair.2

/-- A pair stands for a code point that is no surrogate. -/
theorem isSurrogate_joinSurrogates {high low : Nat} (hhigh : isHighSurrogate high = true)
    (hlow : isLowSurrogate low = true) : (joinSurrogates high low).isSurrogate = false := by
  simp only [isHighSurrogate, isLowSurrogate, Bool.and_eq_true, decide_eq_true_eq] at hhigh hlow
  have hval : (joinSurrogates high low).val = 0x10000 + (high - 0xD800) * 0x400 + (low - 0xDC00) :=
    Utf8.val_ofNat (by omega)
  simp only [CodePoint.isSurrogate, hval, Bool.and_eq_false_iff, decide_eq_false_iff_not]
  omega

/-- What a letter stands for is no surrogate. -/
theorem isSurrogate_of_escaped? {c d : CodePoint} (h : escaped? d = some c) : c.isSurrogate = false := by
  unfold escaped? at h
  split_ifs at h <;> cases h <;> rfl

/-! ## 2. One code point -/

theorem hexDigit?_lt {c : CodePoint} {d : Nat} (h : c.hexDigit? = some d) : d < 16 := by
  unfold CodePoint.hexDigit? at h
  split_ifs at h with h₁ h₂ h₃ <;>
    simp only [Bool.and_eq_true, decide_eq_true_eq, Option.some.injEq] at * <;> omega

/-- Digits are taken from the front, and bound their number. -/
theorem of_hexDigits : ∀ {n : Nat} {t rest : Text} {k : Nat}, hexDigits n t = some (k, rest) →
    k < 16 ^ n ∧ rest <:+ t
  | 0, t, rest, k, h => by
    obtain ⟨rfl, rfl⟩ := Prod.mk.inj (Option.some.inj h)
    exact ⟨Nat.one_pos, List.suffix_rfl⟩
  | n + 1, [], _, _, h => by cases h
  | n + 1, c :: t, rest, _, h => by
    rw [hexDigits] at h
    split at h
    · rename_i d k left hd hmore
      obtain ⟨rfl, rfl⟩ := Prod.mk.inj (Option.some.inj h)
      obtain ⟨hlt, hsuffix⟩ := of_hexDigits hmore
      have hsixteen := hexDigit?_lt hd
      refine ⟨?_, hsuffix.trans (List.suffix_cons c t)⟩
      calc d * Nat.pow 16 n + k < d * 16 ^ n + 16 ^ n := Nat.add_lt_add_left hlt _
        _ = (d + 1) * 16 ^ n := (Nat.succ_mul d _).symm
        _ ≤ 16 * 16 ^ n := Nat.mul_le_mul_right _ hsixteen
        _ = 16 ^ (n + 1) := (Nat.pow_succ' ..).symm
    · cases h

theorem of_unit? {t rest : Text} {n : Nat} (h : unit? t = some (n, rest)) : n < 0x10000 ∧ rest <:+ t := by
  unfold unit? at h
  split at h
  · cases h
  · exact of_hexDigits h

/-- A text opens with the number of a low surrogate. -/
def Opens (t : Text) : Prop :=
  ∃ u n v, t = ('\\' : CodePoint) :: ('u' : CodePoint) :: u ∧ unit? u = some (n, v) ∧ isLowSurrogate n = true

/-- Behind the backslash and its letter there are four digits, and something behind them. -/
theorem Opens.digits {a b : CodePoint} {u : Text} (h : Opens (a :: b :: u)) :
    a = '\\' ∧ b = 'u' ∧ (u.drop 4).isEmpty = false ∧
      ∃ n v, hexDigits 4 u = some (n, v) ∧ isLowSurrogate n = true := by
  obtain ⟨u', n, v, heq, hunit, hn⟩ := h
  obtain ⟨rfl, htail⟩ := List.cons.inj heq
  obtain ⟨rfl, rfl⟩ := List.cons.inj htail
  unfold unit? at hunit
  split at hunit
  · cases hunit
  · rename_i hmore
    exact ⟨rfl, rfl, Bool.not_eq_true _ ▸ hmore, n, v, hunit, hn⟩

/-- **What follows the number of a code point is joined to it or left alone.** -/
theorem of_lowHalf {n : Nat} {t rest : Text} {c : CodePoint} (h : lowHalf n t = .ok (c, rest)) :
    (c = .ofNat n ∧ rest = t ∧ (isHighSurrogate n = true → ¬ Opens t)) ∨
      (c.isSurrogate = false ∧ rest <:+ t) := by
  unfold lowHalf at h
  split at h
  · rename_i a b u
    split at h
    · rename_i hopens
      split at h
      · cases h
      · rename_i low v hdigits
        split at h
        · rename_i hlow
          obtain ⟨rfl, rfl⟩ := Prod.mk.inj (Except.ok.inj h)
          simp only [Bool.and_eq_true] at hopens
          have hsuffix := (of_hexDigits hdigits).2
          exact .inr ⟨isSurrogate_joinSurrogates hopens.1.1.1 hlow,
            hsuffix.trans ((List.suffix_cons b u).trans (List.suffix_cons a _))⟩
        · rename_i hlow
          obtain ⟨rfl, rfl⟩ := Prod.mk.inj (Except.ok.inj h)
          refine .inl ⟨rfl, rfl, fun _ hopened => ?_⟩
          obtain ⟨-, -, -, m, w, hagain, hm⟩ := hopened.digits
          rw [hdigits] at hagain
          obtain ⟨rfl, -⟩ := Prod.mk.inj (Option.some.inj hagain)
          exact hlow hm
    · rename_i hopens
      obtain ⟨rfl, rfl⟩ := Prod.mk.inj (Except.ok.inj h)
      refine .inl ⟨rfl, rfl, fun hhigh hopened => hopens ?_⟩
      obtain ⟨ha, hb, hmore, -⟩ := hopened.digits
      rw [hhigh, decide_eq_true ha, decide_eq_true hb, hmore]
      rfl
  · rename_i hshort
    obtain ⟨rfl, rfl⟩ := Prod.mk.inj (Except.ok.inj h)
    refine .inl ⟨rfl, rfl, ?_⟩
    rintro - ⟨u', -, -, rfl, -⟩
    exact hshort _ _ _ rfl

/-- **How the reader of a text gets from one code point to the next.** -/
inductive Point : Text → CodePoint → Text → Prop
  | plain (c : CodePoint) (t : Text) : Point (c :: t) c t
  | letter {c d : CodePoint} (h : escaped? d = some c) (t : Text) : Point ('\\' :: d :: t) c t
  | unit {c : CodePoint} {n : Nat} {u v left : Text} (hn : unit? u = some (n, v))
    (hleft : lowHalf n v = .ok (c, left)) : Point ('\\' :: 'u' :: u) c left

/-- A text ends at its closing quote, or has one code point more. -/
theorem textFrom_cases {opening t u rest : Text} {steps : Nat}
    (h : textFrom opening (steps + 1) t = .ok (u, rest)) :
    (u = [] ∧ rest <:+ t) ∨
      ∃ c u' left, u = c :: u' ∧ Point t c left ∧ textFrom opening steps left = .ok (u', rest) := by
  cases t with
  | nil => cases h
  | cons c t =>
    rw [textFrom.eq_def] at h
    dsimp only at h
    split at h
    · obtain ⟨rfl, rfl⟩ := Prod.mk.inj (Except.ok.inj h)
      exact .inl ⟨rfl, List.suffix_cons _ _⟩
    split at h
    · rename_i hbackslash
      subst hbackslash
      split at h
      · cases h
      split at h
      · rename_i hu
        subst hu
        split at h
        · cases h
        · rename_i n v hn
          obtain ⟨⟨point, w⟩, hw, h⟩ := Outcome.exists_of_bind h
          obtain ⟨u', hu', rfl⟩ := exists_of_read h
          exact .inr ⟨point, u', w, rfl, .unit hn hw, hu'⟩
      · split at h
        · cases h
        · rename_i point hpoint
          obtain ⟨u', hu', rfl⟩ := exists_of_read h
          exact .inr ⟨point, u', _, rfl, .letter hpoint _, hu'⟩
    split at h
    · cases h
    · obtain ⟨u', hu', rfl⟩ := exists_of_read h
      exact .inr ⟨c, u', t, rfl, .plain c t, hu'⟩

theorem Point.suffix {t left : Text} {c : CodePoint} (h : Point t c left) : left <:+ t := by
  cases h with
  | plain => exact List.suffix_cons _ _
  | letter => exact (List.suffix_cons _ _).trans (List.suffix_cons _ _)
  | @unit _ _ u v _ hn hleft =>
    have hunit : v <:+ ('\\' : CodePoint) :: ('u' : CodePoint) :: u :=
      (of_unit? hn).2.trans ((List.suffix_cons _ _).trans (List.suffix_cons _ _))
    rcases of_lowHalf hleft with ⟨-, rfl, -⟩ | ⟨-, hsuffix⟩
    · exact hunit
    · exact hsuffix.trans hunit

/-- A surrogate was spelled by its number, and a high one is not followed by a low one. -/
theorem Point.surrogate {t left : Text} {c : CodePoint} (h : Point t c left) (ht : t.Characters)
    (hc : c.isSurrogate = true) :
    (isLowSurrogate c.val = true → Opens t) ∧ (isHighSurrogate c.val = true → ¬ Opens left) := by
  cases h with
  | plain =>
    rw [(Text.characters_cons.mp ht).1] at hc
    cases hc
  | letter hd =>
    rw [isSurrogate_of_escaped? hd] at hc
    cases hc
  | unit hn hleft =>
    rcases of_lowHalf hleft with ⟨rfl, rfl, hopens⟩ | ⟨hother, -⟩
    · have hlt := (of_unit? hn).1
      rw [Utf8.val_ofNat (by omega)]
      exact ⟨fun hlow => ⟨_, _, _, rfl, hn, hlow⟩, hopens⟩
    · rw [hother] at hc
      cases hc

/-- **A text that is read has no pair of surrogates**, and if it starts with a low one then that was spelled
by its number. -/
theorem textFrom_unpaired {opening : Text} : ∀ {steps : Nat} {t u rest : Text},
    textFrom opening steps t = .ok (u, rest) → t.Characters →
      Unpaired u ∧ (∀ d ∈ u.head?, isLowSurrogate d.val = true → Opens t) ∧ rest <:+ t
  | 0, _, _, _, h, _ => by cases h
  | steps + 1, t, u, rest, h, ht => by
    rcases textFrom_cases h with ⟨rfl, hsuffix⟩ | ⟨c, u', left, rfl, hpoint, h⟩
    · exact ⟨.nil, nofun, hsuffix⟩
    · obtain ⟨hunpaired, hopens, hsuffix⟩ := textFrom_unpaired h (ht.of_suffix hpoint.suffix)
      refine ⟨hunpaired.cons fun hhigh d hd => ?_, fun d hd hlow => ?_, hsuffix.trans hpoint.suffix⟩
      · by_contra hlow
        exact (hpoint.surrogate ht (isSurrogate_of_high hhigh)).2 hhigh (hopens d hd (by simpa using hlow))
      · obtain rfl := Option.mem_some_iff.mp hd
        exact (hpoint.surrogate ht (isSurrogate_of_low hlow)).1 hlow

end Json

/-! ## 3. Values -/

namespace Value

/-- **No text in a value has a pair of surrogates**, neither one that is a key. -/
inductive Unpaired : Value → Prop
  | null : Unpaired .null
  | bool (b : Bool) : Unpaired (.bool b)
  | int (n : Int) : Unpaired (.int n)
  | real (x : Binary64) : Unpaired (.real x)
  | text {t : Text} (h : Json.Unpaired t) : Unpaired (.text t)
  | list {vs : List Value} (h : ∀ v ∈ vs, Unpaired v) : Unpaired (.list vs)
  | dict {items : List (Value × Value)} (keys : ∀ item ∈ items, Unpaired item.1)
    (values : ∀ item ∈ items, Unpaired item.2) : Unpaired (.dict items)

namespace Unpaired

variable {v w : Value} {t : Text}

/-- What shows such a value has no surrogates at all. -/
theorem characters_shown (h : v.Unpaired) : ∀ {t : Text}, v.shown = .ok t → t.Characters := by
  have hcomma : Text.Characters ", " := Text.characters_ofString _
  induction h with
  | null =>
    intro t ht
    obtain rfl := Except.ok.inj ht
    exact Text.characters_ofString _
  | bool b =>
    intro t ht
    obtain rfl := Except.ok.inj ht
    cases b <;> exact Text.characters_ofString _
  | int n => exact fun ht => Text.characters_of_simple (Yaml.Writer.simple_integerText ht)
  | real x =>
    intro t ht
    obtain rfl := Except.ok.inj ht
    exact Text.characters_of_simple (Yaml.Writer.simple_toText x)
  | text =>
    intro t ht
    obtain rfl := Except.ok.inj ht
    exact Quoted.characters_text _
  | list _ ih =>
    intro t ht
    rw [shown, shownAll_eq_mapM] at ht
    obtain ⟨ts, hts, ht⟩ := Outcome.exists_of_bind ht
    obtain rfl := Except.ok.inj ht
    have hall : ∀ u ∈ ts, u.Characters := fun u hu => by
      obtain ⟨v, hv, hshown⟩ := Outcome.exists_of_result hts hu
      exact ih v hv hshown
    simp only [Text.characters_append]
    exact ⟨⟨Text.characters_ofString _, hcomma.joinWith hall⟩,
      Text.characters_ofString _⟩
  | dict _ _ ihkeys ihvalues =>
    intro t ht
    rw [shown, shownItems_eq_mapM] at ht
    obtain ⟨ts, hts, ht⟩ := Outcome.exists_of_bind ht
    obtain rfl := Except.ok.inj ht
    have hall : ∀ u ∈ ts, u.Characters := fun u hu => by
      obtain ⟨item, hitem, hentry⟩ := Outcome.exists_of_result hts hu
      obtain ⟨key, hkey, hentry⟩ := Outcome.exists_of_bind hentry
      obtain ⟨value, hvalue, hentry⟩ := Outcome.exists_of_bind hentry
      obtain rfl := Except.ok.inj hentry
      simp only [Text.characters_append]
      exact ⟨⟨ihkeys item hitem hkey, Text.characters_ofString _⟩, ihvalues item hitem hvalue⟩
    simp only [Text.characters_append]
    exact ⟨⟨Text.characters_ofString _, hcomma.joinWith hall⟩,
      Text.characters_ofString _⟩

/-- **The text of such a value is such a text.** -/
theorem toText (h : v.Unpaired) (ht : v.toText = .ok t) : Json.Unpaired t := by
  cases h with
  | text h =>
    obtain rfl := Except.ok.inj ht
    exact h
  | null => exact Json.unpaired_of_characters (Unpaired.null.characters_shown ht)
  | bool b => exact Json.unpaired_of_characters ((Unpaired.bool b).characters_shown ht)
  | int n => exact Json.unpaired_of_characters ((Unpaired.int n).characters_shown ht)
  | real x => exact Json.unpaired_of_characters ((Unpaired.real x).characters_shown ht)
  | list h => exact Json.unpaired_of_characters ((Unpaired.list h).characters_shown ht)
  | dict hkeys hvalues =>
    exact Json.unpaired_of_characters ((Unpaired.dict hkeys hvalues).characters_shown ht)

/-- Its members are such values; those of a text are single code points. -/
theorem members {vs : List Value} (h : v.Unpaired) (hvs : v.members? = some vs) : ∀ w ∈ vs, w.Unpaired := by
  cases h with
  | list h =>
    obtain rfl := Option.some.inj hvs
    exact h
  | dict hkeys _ =>
    obtain rfl := Option.some.inj hvs
    exact List.forall_mem_map.mpr hkeys
  | text h =>
    obtain rfl := Option.some.inj hvs
    exact List.forall_mem_map.mpr fun c _ => .text (.singleton c)
  | _ => cases hvs

theorem parts {vs : List Value} (h : v.Unpaired) (hvs : v.parts = .ok vs) : ∀ w ∈ vs, w.Unpaired :=
  fun w hw => h.members (members_of_parts hvs hw) w hw

theorem field? {items : List (Value × Value)} {name : Text} (h : (Value.dict items).Unpaired)
    (hv : Value.field? name items = some v) : v.Unpaired := by
  obtain ⟨k, hmem⟩ := exists_of_find? hv
  cases h with
  | dict _ hvalues => exact hvalues _ hmem

end Unpaired

end Value

/-! ## 4. Documents -/

namespace Json

variable {t u rest : Text} {v : Value}

theorem suffix_wholeDigits (t : Text) : (wholeDigits t).2 <:+ t := by
  unfold wholeDigits
  split
  · split
    · exact List.suffix_cons _ _
    · exact List.dropWhile_suffix _
  · exact List.suffix_rfl

theorem suffix_fraction (t : Text) : (fraction t).2 <:+ t := by
  unfold fraction digits
  split
  · dsimp only
    split
    · exact (List.dropWhile_suffix _).trans (List.suffix_cons _ _)
    · exact List.suffix_rfl
  · exact List.suffix_rfl

theorem suffix_exponent (t : Text) : (exponent t).2 <:+ t := by
  unfold exponent digits
  split
  · rename_i c u
    split
    · have hmark : ∀ mark v : Text, v <:+ u →
          (if (v.takeWhile CodePoint.isAsciiDigit).isEmpty = true then (([] : Text), c :: u)
            else (c :: mark ++ v.takeWhile CodePoint.isAsciiDigit, v.dropWhile CodePoint.isAsciiDigit)).2 <:+
              c :: u := by
        intro mark v hv
        split
        · exact List.suffix_rfl
        · exact (List.dropWhile_suffix _).trans (hv.trans (List.suffix_cons c u))
      cases u with
      | nil => exact hmark [] [] List.suffix_rfl
      | cons d w =>
        dsimp only
        split
        · exact hmark [d] w (List.suffix_cons d w)
        · exact hmark [] (d :: w) List.suffix_rfl
    · exact List.suffix_rfl
  · exact List.suffix_rfl

/-- A number has no texts, and it is taken from the front. -/
theorem of_number (h : number t = .ok (v, rest)) : v.Unpaired ∧ rest <:+ t := by
  unfold number at h
  split at h
  rename_i mark u hmark
  have hsign : u <:+ t := by
    cases t with
    | nil =>
      obtain ⟨-, rfl⟩ := Prod.mk.inj hmark
      exact List.suffix_rfl
    | cons c t =>
      dsimp only at hmark
      split at hmark <;> obtain ⟨-, rfl⟩ := Prod.mk.inj hmark
      · exact List.suffix_cons c _
      · exact List.suffix_rfl
  have hwhole := suffix_wholeDigits u
  split at h
  split at h
  · cases h
  rename_i ds w hds _
  rw [hds] at hwhole
  have hfraction := suffix_fraction w
  split at h
  rename_i f x hf
  rw [hf] at hfraction
  have hexponent := suffix_exponent x
  split at h
  rename_i e y he
  rw [he] at hexponent
  have hrest : y <:+ t := hexponent.trans (hfraction.trans (hwhole.trans hsign))
  split at h
  · split at h
    · obtain ⟨rfl, rfl⟩ := Prod.mk.inj (Except.ok.inj h)
      exact ⟨.int _, hrest⟩
    · cases h
    · cases h
  · obtain ⟨rfl, rfl⟩ := Prod.mk.inj (Except.ok.inj h)
    exact ⟨.real _, hrest⟩

theorem unpaired_constants : ∀ c ∈ constants, c.2.Unpaired := by
  simp only [constants, words, List.cons_append, List.nil_append, List.forall_mem_cons]
  exact ⟨.null, .bool _, .bool _, .real _, .real _, .real _, List.forall_mem_nil _⟩

theorem unpaired_invariant : Invariant constants Text.Characters Value.Unpaired where
  suffix := Text.Characters.of_suffix
  text h ht := by
    obtain ⟨hunpaired, -, hsuffix⟩ := textFrom_unpaired h ht
    exact ⟨.text hunpaired, ht.of_suffix hsuffix⟩
  scalar h ht := by
    rcases scalar_cases h with ⟨c, hc, rfl, hsuffix⟩ | h
    · exact ⟨unpaired_constants c hc, ht.of_suffix hsuffix⟩
    · obtain ⟨hv, hsuffix⟩ := of_number h
      exact ⟨hv, ht.of_suffix hsuffix⟩
  list := .list
  dict h := .dict (fun item hitem => (h item hitem).1) fun item hitem => (h item hitem).2

/-- **No text in a value that is read has a pair of surrogates**, if the document itself has none. -/
theorem unpaired_of_parse (h : parse t = .ok v) (ht : t.Characters) : v.Unpaired := by
  obtain ⟨rest, h⟩ := document_of_parse h
  exact unpaired_invariant.document h ht

end Json

end Keyscope
