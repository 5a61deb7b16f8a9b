/-
# Texts of characters

A text that comes out of well-formed UTF-8 has no surrogates (`Disk.characters_of_readText`), and neither
has one that was written to show what a value is: between quotes, what cannot be printed stands there by
number (`Quoted.characters_text`).
-/
import Keyscope.Proofs.Disk
import Keyscope.Proofs.Yaml.Writer
import Keyscope.Text.Quoted

namespace Keyscope

namespace Text

/-- All code points of a text are characters: none is a surrogate. -/
def Characters (t : Text) : Prop := ∀ c ∈ t, c.isSurrogate = false

variable {t u : Text} {c : CodePoint}

@[simp] theorem characters_nil : Characters [] := fun _ h => absurd h List.not_mem_nil

@[simp] theorem characters_cons : Characters (c :: t) ↔ c.isSurrogate = false ∧ t.Characters :=
  List.forall_mem_cons

@[simp] theorem characters_append : Characters (t ++ u) ↔ t.Characters ∧ u.Characters :=
  List.forall_mem_append

/-- A string holds characters only. -/
theorem characters_ofString (s : String) : Characters (ofString s) :=
  List.forall_mem_map.mpr fun c _ => Utf8.isSurrogate_ofChar c

theorem Characters.of_suffix (h : u.Characters) (hsuffix : t <:+ u) : t.Characters :=
  fun c hc => h c (hsuffix.subset hc)

/-- What is joined of such texts is one. -/
theorem Characters.joinWith {separator : Text} (hseparator : separator.Characters) :
    ∀ {ts : List Text}, (∀ t ∈ ts, t.Characters) → (Text.joinWith separator ts).Characters
  | [], _ => characters_nil
  | [t], h => h t List.mem_cons_self
  | t :: u :: ts, h => by
    rw [List.forall_mem_cons] at h
    rw [Text.joinWith, characters_append, characters_append]
    exact ⟨⟨h.1, hseparator⟩, hseparator.joinWith h.2⟩

theorem Characters.universalNewlines {t : Text} (h : t.Characters) : t.universalNewlines.Characters := by
  fun_induction Text.universalNewlines t with
  | case1 => exact h
  | case2 => exact characters_cons.mpr ⟨rfl, characters_nil⟩
  | case3 c hc d u hd ih =>
    exact characters_cons.mpr ⟨rfl, ih (characters_cons.mp (characters_cons.mp h).2).2⟩
  | case4 c hc d u hd ih => exact characters_cons.mpr ⟨rfl, ih (characters_cons.mp h).2⟩
  | case5 c t hc ih =>
    exact characters_cons.mpr ⟨(characters_cons.mp h).1, ih (characters_cons.mp h).2⟩

/-- Printable ASCII has no surrogates. -/
theorem characters_of_simple (h : Yaml.Writer.Simple t) : t.Characters := by
  intro c hc
  have hsimple := h c hc
  simp only [Yaml.Writer.isSimple, Bool.or_eq_true, Bool.and_eq_true, decide_eq_true_eq] at hsimple
  rcases hsimple with rfl | hsimple
  · rfl
  · simp only [CodePoint.isSurrogate, Bool.and_eq_false_iff, decide_eq_false_iff_not]
    omega

end Text

/-! ## 1. Files -/

namespace Utf8

/-- Pieces that are characters are what is decoded. -/
theorem pieces_of_strictFrom : ∀ {ps : List Piece} {position : Nat} {t : Text},
    strictFrom position ps = .ok t → ps = t.map .char
  | [], _, t, h => by
    obtain rfl := Except.ok.inj h
    rfl
  | .char c :: ps, position, t, h => by
    rw [strictFrom] at h
    cases hrest : strictFrom (position + (Piece.char c).size) ps with
    | error e =>
      rw [hrest] at h
      cases h
    | ok u =>
      rw [hrest] at h
      obtain rfl := Except.ok.inj h
      rw [pieces_of_strictFrom hrest, List.map_cons]

/-- **A text that is decoded has no surrogates.** -/
theorem characters_of_decodeStrict {bs : Bytes} {t : Text} (h : decodeStrict bs = .ok t) : t.Characters := by
  have hsound := pieces_sound bs
  rw [pieces_of_strictFrom h, List.forall_mem_map] at hsound
  exact hsound

end Utf8

theorem Disk.characters_of_readText {d : Disk} {path t : Text} (h : d.readText path = .ok t) :
    t.Characters := by
  obtain ⟨bs, -, h⟩ := Outcome.exists_of_bind h
  split at h
  · rename_i u hu
    obtain rfl := Except.ok.inj h
    exact (Utf8.characters_of_decodeStrict hu).universalNewlines
  · cases h

/-! ## 2. Quoted texts -/

/-- Surrogates are not printable. -/
theorem CodePoint.isSurrogate_of_isPrintable {c : CodePoint} (h : c.isPrintable = true) :
    c.isSurrogate = false := by
  by_contra hsurrogate
  have hplace : unprintableRuns[318]? = some (55292, 63743) := by decide +kernel
  simp only [isSurrogate, Bool.not_eq_false, Bool.and_eq_true, decide_eq_true_eq] at hsurrogate
  rw [isPrintable, if_neg (by omega), Bool.not_eq_true', Array.any_eq_false'] at h
  have hnot := h _ (Array.mem_of_getElem? hplace)
  simp only [Bool.and_eq_true, decide_eq_true_eq] at hnot
  omega

namespace Quoted

open Text (characters_of_simple)
open Yaml.Writer (Simple simple_digits simple_replicate)

theorem characters_numbered (c : CodePoint) : (numbered c).Characters := by
  have hhex : ∀ width, Simple (Decimal.hex width c.val) := fun width =>
    (simple_replicate _ (by decide)).append (simple_digits (by decide) (by decide) _)
  unfold numbered
  split
  · exact characters_of_simple (.append (by decide) (hhex 2))
  split
  · exact characters_of_simple (.append (by decide) (hhex 4))
  · exact characters_of_simple (.append (by decide) (hhex 8))

theorem characters_point {quote : CodePoint} (hquote : quote.isSurrogate = false) (c : CodePoint) :
    (point quote c).Characters := by
  unfold point
  split
  · rename_i h
    rw [Text.characters_cons, Text.characters_cons]
    rcases h with rfl | rfl
    · exact ⟨rfl, hquote, Text.characters_nil⟩
    · exact ⟨rfl, rfl, Text.characters_nil⟩
  split
  · exact Text.characters_ofString _
  split
  · exact Text.characters_ofString _
  split
  · exact Text.characters_ofString _
  split
  · rename_i h
    exact Text.characters_cons.mpr ⟨CodePoint.isSurrogate_of_isPrintable h, Text.characters_nil⟩
  · exact characters_numbered c

/-- **A text between quotes has no surrogates**, whatever is in it. -/
theorem characters_text (t : Text) : (text t).Characters := by
  have hquote : (quoteFor t).isSurrogate = false := by
    unfold quoteFor
    split <;> rfl
  rw [text, Text.characters_append, Text.characters_cons]
  refine ⟨⟨hquote, fun c hc => ?_⟩, Text.characters_cons.mpr ⟨hquote, Text.characters_nil⟩⟩
  obtain ⟨d, -, hc⟩ := List.mem_flatMap.mp hc
  exact characters_point hquote d c hc

end Quoted

end Keyscope
