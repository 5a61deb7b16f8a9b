/-
# What is written is printable

Whatever the texts of a dictionary are, writing it gives printable ASCII and line feeds only
(`simple_write`): a text that holds anything else is written between double quotes, with an escape for
each such code point.  So a written file has no code point that could be lost on its way to the disk
and back.

This is about dictionaries with texts as keys and without byte strings, sets and the like (`IsPlain`).
-/
import Mathlib.Tactic.Common
import Mathlib.Data.List.Basic
import Keyscope.Proofs.Outcome
import Keyscope.Yaml.Writer

namespace Keyscope

namespace Value

/-- A null, a truth value, a number or a text. -/
inductive IsScalar : Value → Prop
  | null : IsScalar .null
  | bool (b : Bool) : IsScalar (.bool b)
  | int (n : Int) : IsScalar (.int n)
  | real (x : Binary64) : IsScalar (.real x)
  | text (t : Text) : IsScalar (.text t)

/-- A scalar, or a list or dictionary of such values; the keys are texts. -/
inductive IsPlain : Value → Prop
  | scalar {v : Value} (h : v.IsScalar) : IsPlain v
  | list {vs : List Value} (h : ∀ v ∈ vs, IsPlain v) : IsPlain (.list vs)
  | dict {items : List (Value × Value)} (hkeys : ∀ item ∈ items, ∃ t, item.1 = .text t)
    (hvalues : ∀ item ∈ items, IsPlain item.2) : IsPlain (.dict items)

end Value

namespace Yaml

namespace Writer

/-! ## 1. Simple texts -/

/-- A text of printable ASCII and line feeds. -/
def Simple (t : Text) : Prop := ∀ c ∈ t, isSimple c = true

instance (t : Text) : Decidable (Simple t) := decidable_of_iff (t.all isSimple = true) List.all_eq_true

variable {t u : Text} {c : CodePoint}

@[simp] theorem simple_nil : Simple [] := fun _ h => absurd h List.not_mem_nil

@[simp] theorem simple_cons : Simple (c :: t) ↔ isSimple c = true ∧ Simple t := List.forall_mem_cons

@[simp] theorem simple_append : Simple (t ++ u) ↔ Simple t ∧ Simple u := List.forall_mem_append

theorem Simple.append (ht : Simple t) (hu : Simple u) : Simple (t ++ u) := simple_append.mpr ⟨ht, hu⟩

@[simp] theorem simple_reverse : Simple t.reverse ↔ Simple t := by simp [Simple]

theorem Simple.of_sublist (h : Simple u) (hsub : t.Sublist u) : Simple t := fun c hc => h c (hsub.subset hc)

theorem simple_replicate (n : Nat) (h : isSimple c = true) : Simple (Text.replicate n c) := by
  intro d hd
  rw [List.eq_of_mem_replicate hd]
  exact h

theorem simple_newLine (indent : Nat) : Simple (newLine indent) :=
  .append (by decide) (simple_replicate indent (by decide))

theorem isSimple_of_not_escaped (h : isEscaped c = false) : isSimple c = true := by
  simp only [isEscaped, Bool.or_eq_false_iff, decide_eq_false_iff_not] at h
  simp only [isSimple, Bool.or_eq_true, Bool.and_eq_true, decide_eq_true_eq]
  omega

/-! ## 2. Digits -/

/-- Digits of a number are those below the base. -/
theorem exists_of_mem_toDigits {b : Nat} (hb : 1 < b) (n : Nat) {d : Char} (h : d ∈ Nat.toDigits b n) :
    ∃ k < b, d = Nat.digitChar k := by
  induction n using Nat.strongRecOn with
  | ind n ih =>
    rw [Nat.toDigits_eq_if hb] at h
    split at h
    · rename_i hn
      exact ⟨n, hn, List.mem_singleton.mp h⟩
    · rename_i hn
      rcases List.mem_append.mp h with h | h
      · exact ih (n / b) (Nat.div_lt_self (by omega) hb) h
      · exact ⟨n % b, Nat.mod_lt _ (by omega), List.mem_singleton.mp h⟩

theorem simple_digits {b : Nat} (hb : 1 < b) (hb' : b ≤ 16) (n : Nat) :
    Simple ((Nat.toDigits b n).map CodePoint.ofChar) := by
  intro c hc
  obtain ⟨d, hd, rfl⟩ := List.mem_map.mp hc
  obtain ⟨k, hk, rfl⟩ := exists_of_mem_toDigits hb n hd
  have hall : ∀ k < 16, isSimple (CodePoint.ofChar (Nat.digitChar k)) = true := by decide
  exact hall k (Nat.lt_of_lt_of_le hk hb')

theorem simple_ofNat (n : Nat) : Simple (Decimal.ofNat n) := simple_digits (by decide) (by decide) n

theorem simple_sign (negative : Bool) : Simple (Decimal.sign negative) := by
  cases negative <;> decide

theorem simple_padded (width n : Nat) : Simple (Decimal.padded width n) :=
  (simple_replicate _ (by decide)).append (simple_ofNat n)

theorem simple_hexUpper (width n : Nat) : Simple (Decimal.hexUpper width n) := by
  have hhex : Simple (Decimal.hex width n) :=
    (simple_replicate _ (by decide)).append (simple_digits (by decide) (by decide) n)
  intro c hc
  obtain ⟨d, hd, rfl⟩ := List.mem_map.mp hc
  have hsimple := hhex d hd
  split
  · rename_i hletter
    -- a small letter becomes a large one
    have hval : (CodePoint.ofNat (d.val - 32)).val = d.val - 32 := by
      have hlt : d.val - 32 < 0x110000 := by omega
      simp [CodePoint.ofNat, hlt]
    simp only [isSimple, Bool.or_eq_true, Bool.and_eq_true, decide_eq_true_eq, hval] at hsimple ⊢
    refine .inr ?_
    rcases hsimple with rfl | hsimple
    · exact absurd hletter (by decide)
    · omega
  · exact hsimple

theorem simple_integerText {n : Int} (h : Value.integerText n = .ok t) : Simple t := by
  unfold Value.integerText at h
  split at h
  · obtain rfl := Except.ok.inj h
    exact (simple_sign _).append (simple_ofNat _)
  · cases h

theorem simple_layout (l : Shortest.Layout) {digits : Text} (h : Simple digits) (point : Int) :
    Simple (l.write digits point) := by
  have htake : ∀ n, Simple (digits.take n) := fun n => h.of_sublist (List.take_sublist n digits)
  have hdrop : ∀ n, Simple (digits.drop n) := fun n => h.of_sublist (List.drop_sublist n digits)
  have hzeros : ∀ n, Simple (Text.replicate n '0') := fun n => simple_replicate n (by decide)
  unfold Shortest.Layout.write
  dsimp only
  split
  · split
    · exact (Simple.append (by decide) (hzeros _)).append h
    · have hrest : Simple (if (digits.drop point.toNat).isEmpty then ↑"0" else digits.drop point.toNat) := by
        split
        · decide
        · exact hdrop _
      exact (((htake _).append (hzeros _)).append (by decide)).append hrest
  · have hfraction : Simple (if digits.length ≤ 1 then [] else ('.' : CodePoint) :: digits.drop 1) := by
      split
      · exact simple_nil
      · exact simple_cons.mpr ⟨by decide, hdrop 1⟩
    have hsign : Simple (Text.ofString (if point - 1 < 0 then "-" else "+")) := by split <;> decide
    exact ((((htake 1).append hfraction).append (by decide)).append hsign).append (simple_padded _ _)

theorem simple_toText (x : Binary64) : Simple x.toText := by
  cases x with
  | nan => exact (by decide : Simple "nan")
  | infinite s => exact (simple_sign s).append (by decide)
  | finite s m q =>
    unfold Binary64.toText
    dsimp only
    split
    · exact (simple_sign s).append (by decide)
    · refine (simple_sign s).append (simple_layout _ ?_ _)
      refine simple_reverse.mpr (Simple.of_sublist ?_ (List.dropWhile_sublist _))
      exact simple_reverse.mpr (simple_ofNat _)

theorem simple_splitFirst (d : CodePoint) : ∀ {t : Text}, Simple t →
    Simple (Text.splitFirst d t).1 ∧ ∀ u, (Text.splitFirst d t).2 = some u → Simple u
  | [], h => ⟨h, fun u hu => by cases hu⟩
  | c :: t, h => by
    obtain ⟨hc, ht⟩ := simple_cons.mp h
    have ih := simple_splitFirst d ht
    rw [Text.splitFirst]
    split
    · exact ⟨simple_nil, fun u hu => Option.some.inj hu ▸ ht⟩
    · exact ⟨simple_cons.mpr ⟨hc, ih.1⟩, ih.2⟩

theorem simple_realText (x : Binary64) : Simple (realText x) := by
  cases x with
  | nan => exact (by decide : Simple ".nan")
  | infinite s => exact (simple_sign s).append (by decide)
  | finite s m q =>
    have htext := simple_toText (.finite s m q)
    have hsplit := simple_splitFirst 'e' htext
    unfold realText
    dsimp only
    split
    · exact htext
    · split
      · rename_i digits exponent hparts
        rw [hparts] at hsplit
        exact (hsplit.1.append (by decide)).append (hsplit.2 exponent rfl)
      · rename_i digits hparts
        rw [hparts] at hsplit
        exact hsplit.1

/-! ## 3. Scalars -/

theorem all_simple_of_styleOf (h : styleOf t ≠ .double) : Simple t := by
  unfold styleOf at h
  split at h
  · rename_i hsimple
    simp only [Bool.and_eq_true, List.all_eq_true] at hsimple
    exact hsimple.1.1
  · exact absurd rfl h

theorem simple_plainFrom (indent : Nat) {t : Text} (h : Simple t) (column : Nat)
    (before : Option CodePoint) : Simple (plainFrom indent column before t) := by
  induction t generalizing column before with
  | nil => exact simple_nil
  | cons c t ih =>
    obtain ⟨hc, ht⟩ := simple_cons.mp h
    rw [plainFrom]
    split
    · exact (simple_newLine indent).append (ih ht _ _)
    · exact simple_cons.mpr ⟨hc, ih ht _ _⟩

theorem simple_singleFrom (indent : Nat) {t : Text} (h : Simple t) (column : Nat)
    (before : Option CodePoint) : Simple (singleFrom indent column before t) := by
  induction t generalizing column before with
  | nil => exact simple_nil
  | cons c t ih =>
    obtain ⟨hc, ht⟩ := simple_cons.mp h
    rw [singleFrom]
    split
    · exact (simple_newLine indent).append (ih ht _ _)
    split
    · have hfirst : Simple (if before = some ('\n' : CodePoint) then [] else ↑"\n") := by
        split <;> decide
      have hlast : Simple (if t.head? = some ('\n' : CodePoint) then [] else Text.replicate indent ' ') := by
        split
        · exact simple_nil
        · exact simple_replicate indent (by decide)
      exact ((hfirst.append (by decide)).append hlast).append (ih ht _ _)
    split
    · exact .append (by decide) (ih ht _ _)
    · exact simple_cons.mpr ⟨hc, ih ht _ _⟩

theorem simple_escape (c : CodePoint) : Simple (escape c) := by
  unfold escape
  split
  · rename_i l hl
    have hletters : ∀ e ∈ letters, isSimple (CodePoint.ofChar e.2) = true := by decide
    obtain ⟨before, after, hmem, -⟩ := List.lookup_eq_some_iff.mp hl
    exact .append (by decide) (simple_cons.mpr ⟨hletters (c.val, l) (by simp [hmem]), simple_nil⟩)
  · split
    · exact .append (by decide) (simple_hexUpper _ _)
    split
    · exact .append (by decide) (simple_hexUpper _ _)
    · exact .append (by decide) (simple_hexUpper _ _)

/-- Between double quotes any text is simple.  The code points that wait to be written are so, because
they need no escape. -/
theorem simple_doubleFrom (indent : Nat) (t : Text) (column : Nat) (first : Bool) {pending : Text}
    (h : Simple pending) : Simple (doubleFrom indent column first pending t) := by
  induction t generalizing column first pending with
  | nil => exact simple_reverse.mpr h
  | cons c t ih =>
    have hlead : ∀ b : Prop, [Decidable b] → Simple (if b then ↑"\\" else []) := by
      intro b _
      split <;> decide
    have hpending := simple_reverse.mpr h
    rw [doubleFrom]
    dsimp only
    split
    · have hdata := hpending.append (simple_escape c)
      split
      · exact (((hdata.append (by decide)).append (simple_newLine indent)).append (hlead _)).append
          (ih _ _ simple_nil)
      · exact hdata.append (ih _ _ simple_nil)
    · rename_i hescaped
      have hc : isSimple c = true := isSimple_of_not_escaped (by simpa using hescaped)
      split
      · exact (((hpending.append (by decide)).append (simple_newLine indent)).append (hlead _)).append
          (ih _ _ (simple_cons.mpr ⟨hc, simple_nil⟩))
      · exact ih _ _ (simple_cons.mpr ⟨hc, h⟩)

/-- **Any text is written in a simple one.** -/
theorem simple_scalarText (indent column : Nat) (t : Text) : Simple (scalarText indent column t) := by
  have hall := all_simple_of_styleOf (t := t)
  unfold scalarText
  cases hstyle : styleOf t with
  | plain => exact simple_plainFrom indent (hall (by simp [hstyle])) _ _
  | single =>
    have hin := simple_singleFrom indent (hall (by simp [hstyle])) (column + 1) none
    exact (Simple.append (by decide) hin).append (by decide)
  | double =>
    have hin := simple_doubleFrom indent t (column + 1) true simple_nil
    exact (Simple.append (by decide) hin).append (by decide)

/-- A text on one line is simple, too. -/
theorem simple_lineText (t : Text) : Simple (lineText t) := by
  have hall := all_simple_of_styleOf (t := t)
  unfold lineText
  cases hstyle : styleOf t with
  | plain => exact hall (by simp [hstyle])
  | single =>
    have hin : Simple (t.flatMap doubledQuote) := by
      intro c hc
      obtain ⟨d, hd, hc⟩ := List.mem_flatMap.mp hc
      have hsimple : Simple (doubledQuote d) := by
        unfold doubledQuote
        split
        · decide
        · exact simple_cons.mpr ⟨hall (by simp [hstyle]) d hd, simple_nil⟩
      exact hsimple c hc
    exact (Simple.append (by decide) hin).append (by decide)
  | double =>
    have hin : Simple (t.flatMap escapedOrSelf) := by
      intro c hc
      obtain ⟨d, hd, hc⟩ := List.mem_flatMap.mp hc
      have hsimple : Simple (escapedOrSelf d) := by
        unfold escapedOrSelf
        split
        · exact simple_escape d
        · rename_i hescaped
          exact simple_cons.mpr ⟨isSimple_of_not_escaped (by simpa using hescaped), simple_nil⟩
      exact hsimple c hc
    exact (Simple.append (by decide) hin).append (by decide)

/-! ## 4. Containers -/

/-- Whatever is written of a value, as the value of a key or as an element, is simple. -/
def WritesSimple (v : Value) : Prop :=
  (∀ indent column t, behind indent column v = .ok t → Simple t) ∧
    ∀ indent t, element indent v = .ok t → Simple t

theorem simple_scalar {v : Value} (hv : v.IsScalar) {indent column : Nat}
    (h : scalar indent column v = .ok t) : Simple t := by
  cases hv with
  | null => exact Except.ok.inj h ▸ (by decide : Simple "null")
  | bool b => exact Except.ok.inj h ▸ (by cases b <;> decide : Simple (if b then "true" else "false"))
  | int n => exact simple_integerText h
  | real x => exact Except.ok.inj h ▸ simple_realText x
  | text u => exact Except.ok.inj h ▸ simple_scalarText _ _ u

/-- A scalar stands on the line of its key, or behind its dash. -/
theorem writesSimple_scalar {v : Value} (hv : v.IsScalar) : WritesSimple v := by
  have hbehind : ∀ indent column, behind indent column v =
      do return " " ++ (← scalar (indent + 2) (column + 1) v) := by
    intro indent column
    cases hv <;> simp [behind, call?]
  have helement : ∀ indent, element indent v = scalar indent indent v := by
    intro indent
    cases hv <;> simp [element, call?]
  constructor
  · intro indent column t ht
    rw [hbehind] at ht
    obtain ⟨u, hu, ht⟩ := Outcome.exists_of_bind ht
    obtain rfl := Except.ok.inj ht
    exact .append (by decide) (simple_scalar hv hu)
  · intro indent t ht
    rw [helement] at ht
    exact simple_scalar hv ht

theorem simple_elements {vs : List Value} (h : ∀ v ∈ vs, WritesSimple v) {indent : Nat}
    (helements : elements indent vs = .ok t) : Simple t := by
  induction vs generalizing t with
  | nil =>
    rw [elements] at helements
    exact Except.ok.inj helements ▸ simple_nil
  | cons v vs ih =>
    obtain ⟨hv, hvs⟩ := List.forall_mem_cons.mp h
    rw [elements] at helements
    obtain ⟨text, htext, helements⟩ := Outcome.exists_of_bind helements
    obtain ⟨rest, hrest, helements⟩ := Outcome.exists_of_bind helements
    obtain rfl := Except.ok.inj helements
    have hrest := ih hvs hrest
    have hlast : Simple (if vs.isEmpty then rest else newLine indent ++ rest) := by
      split
      · exact hrest
      · exact (simple_newLine indent).append hrest
    exact (Simple.append (by decide) (hv.2 _ _ htext)).append hlast

theorem simple_entries {items : List (Value × Value)} (hkeys : ∀ item ∈ items, ∃ t, item.1 = .text t)
    (h : ∀ item ∈ items, WritesSimple item.2) {indent : Nat}
    (hentries : entries indent items = .ok t) : Simple t := by
  induction items generalizing t with
  | nil =>
    rw [entries] at hentries
    exact Except.ok.inj hentries ▸ simple_nil
  | cons item items ih =>
    obtain ⟨k, v⟩ := item
    obtain ⟨⟨name, rfl⟩, hnames⟩ := List.forall_mem_cons.mp hkeys
    obtain ⟨hv, hitems⟩ := List.forall_mem_cons.mp h
    rw [entries] at hentries
    obtain ⟨key, hkey, hentries⟩ := Outcome.exists_of_bind hentries
    obtain rfl : shortKey? 5 name (lineText name) = key := Except.ok.inj hkey
    dsimp only at hentries
    have hlast : ∀ rest, entries indent items = .ok rest →
        Simple (if items.isEmpty then rest else newLine indent ++ rest) := by
      intro rest hrest
      have hrest := ih hnames hitems hrest
      split
      · exact hrest
      · exact (simple_newLine indent).append hrest
    split at hentries
    · rename_i key hkey
      have hkey : Simple key := by
        unfold shortKey? at hkey
        split at hkey
        · cases hkey
        · exact Option.some.inj hkey ▸ simple_lineText name
      obtain ⟨value, hvalue, hentries⟩ := Outcome.exists_of_bind hentries
      obtain ⟨entry, hentry, hentries⟩ := Outcome.exists_of_bind hentries
      obtain rfl := Except.ok.inj hentry
      obtain ⟨rest, hrest, hentries⟩ := Outcome.exists_of_bind hentries
      obtain rfl := Except.ok.inj hentries
      exact ((hkey.append (by decide)).append (hv.1 _ _ _ hvalue)).append (hlast rest hrest)
    · obtain ⟨key, hkey, hentries⟩ := Outcome.exists_of_bind hentries
      obtain ⟨value, hvalue, hentries⟩ := Outcome.exists_of_bind hentries
      obtain ⟨entry, hentry, hentries⟩ := Outcome.exists_of_bind hentries
      obtain rfl := Except.ok.inj hentry
      obtain ⟨rest, hrest, hentries⟩ := Outcome.exists_of_bind hentries
      obtain rfl := Except.ok.inj hentries
      have hkey := (writesSimple_scalar (.text name)).2 _ _ hkey
      have hmark : Simple ("? " ++ key ++ newLine indent) :=
        (Simple.append (by decide) hkey).append (simple_newLine indent)
      exact ((hmark.append (by decide)).append (hv.2 _ _ hvalue)).append (hlast rest hrest)

/-- The induction is on how a value is plain. -/
theorem writesSimple {v : Value} (hv : v.IsPlain) : WritesSimple v := by
  induction hv with
  | scalar h => exact writesSimple_scalar h
  | @list vs h ih =>
    cases vs with
    | nil =>
      constructor
      · intro indent column t ht
        rw [behind] at ht
        exact Except.ok.inj ht ▸ (by decide : Simple " []")
      · intro indent t ht
        rw [element] at ht
        exact Except.ok.inj ht ▸ (by decide : Simple "[]")
    | cons v vs =>
      constructor
      · intro indent column t ht
        rw [behind] at ht
        obtain ⟨u, hu, ht⟩ := Outcome.exists_of_bind ht
        obtain rfl := Except.ok.inj ht
        exact (simple_newLine indent).append (simple_elements ih hu)
      · intro indent t ht
        rw [element] at ht
        exact simple_elements ih ht
  | @dict items hkeys h ih =>
    cases items with
    | nil =>
      constructor
      · intro indent column t ht
        rw [behind] at ht
        exact Except.ok.inj ht ▸ (by decide : Simple " \x7b\x7d")
      · intro indent t ht
        rw [element] at ht
        exact Except.ok.inj ht ▸ (by decide : Simple "\x7b\x7d")
    | cons item items =>
      constructor
      · intro indent column t ht
        rw [behind] at ht
        obtain ⟨u, hu, ht⟩ := Outcome.exists_of_bind ht
        obtain rfl := Except.ok.inj ht
        exact (simple_newLine _).append (simple_entries hkeys ih hu)
      · intro indent t ht
        rw [element] at ht
        exact simple_entries hkeys ih ht

end Writer

/-- **What is written is printable ASCII and line feeds.** -/
theorem simple_write {items : List (Value × Value)} (h : (Value.dict items).IsPlain) {t : Text}
    (hwrite : write items = .ok t) : Writer.Simple t := by
  unfold write at hwrite
  split at hwrite
  · exact Except.ok.inj hwrite ▸ (by decide : Writer.Simple "\x7b\x7d\n")
  · obtain ⟨u, hu, hwrite⟩ := Outcome.exists_of_bind hwrite
    obtain rfl := Except.ok.inj hwrite
    cases h with
    | scalar h => cases h
    | dict hkeys hvalues =>
      exact (Writer.simple_entries hkeys (fun item hitem => Writer.writesSimple (hvalues item hitem)) hu).append
        (by decide)

end Yaml

end Keyscope
