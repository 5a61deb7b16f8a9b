/-
# Previews that can be read back

A preview has its texts in rows and columns, and the texts may hold what separates these.  Where they do
not, they can be read back from the payload and the count, so different texts have different previews
(`layouts_injective`).

* The rows are the parts between the line feeds (`lines_unlines`).  Only the count tells no rows from one
  empty row.
* The two columns of a row are parted by a tab.  In a hash it is the first one of the row and the value
  may hold others (`firstTab_row`), in a sorted set it is the last one and the member may
  (`lastTab_row`); in a list the first one ends the position of the element, whose digits are no tabs.

What is read is what was laid out: of lists and sorted sets the texts in order (`readList_ofList`,
`readScores_ofSortedSet`), of hashes and sets the texts in ascending order (`readHash_ofHash`,
`readSet_ofSet`).
-/
import Keyscope.Proofs.Number.Decimal
import Keyscope.Proofs.Path
import Keyscope.Proofs.Preview

namespace Keyscope

/-- The text up to the first `c` is the part in front of it. -/
theorem Text.splitFirst_append {c : CodePoint} {t : Text} (h : c ∉ t) (u : Text) :
    splitFirst c (t ++ c :: u) = (t, some u) := by
  induction t with
  | nil => simp [splitFirst]
  | cons d t ih =>
    rw [List.mem_cons, not_or] at h
    rw [List.cons_append, splitFirst, if_neg (Ne.symm h.1), ih h.2]

namespace Preview

variable {v w : Value} {texts : List Text} {pairs : List (Text × Text)} {left right : Text}

/-! ## 1. Rows -/

/-- The rows of a payload. -/
def lines (p : Preview) : List Text := if p.count = 0 then [] else Text.splitAll '\n' p.payload

/-- **Rows without line feeds are read back.** -/
theorem lines_unlines {rows : List Text} (h : ∀ r ∈ rows, ('\n' : CodePoint) ∉ r) :
    lines ⟨Text.unlines rows, rows.length⟩ = rows := by
  cases rows with
  | nil => rfl
  | cons r rows => exact Text.splitAll_joinWith (List.cons_ne_nil r rows) h

/-- There is a line feed in a row only if there is one in its columns. -/
theorem newline_not_mem_row (hleft : ('\n' : CodePoint) ∉ left) (hright : ('\n' : CodePoint) ∉ right) :
    ('\n' : CodePoint) ∉ row left right := by
  have htab : ('\n' : CodePoint) ∉ (↑"\t" : Text) := by decide
  rw [row, List.mem_append, List.mem_append]
  rintro ((h | h) | h)
  · exact hleft h
  · exact htab h
  · exact hright h

theorem lines_rows (h : ∀ p ∈ pairs, ('\n' : CodePoint) ∉ p.1 ∧ ('\n' : CodePoint) ∉ p.2) :
    lines ⟨Text.unlines (pairs.map fun p => row p.1 p.2), pairs.length⟩ =
      pairs.map fun p => row p.1 p.2 := by
  have hlines : ∀ r ∈ pairs.map fun p => row p.1 p.2, ('\n' : CodePoint) ∉ r := by
    intro r hr
    obtain ⟨p, hp, rfl⟩ := List.mem_map.mp hr
    exact newline_not_mem_row (h p hp).1 (h p hp).2
  rw [← List.length_map, lines_unlines hlines]

/-! ## 2. Columns -/

/-- The parts of a row before and behind its first tab. -/
def firstTab (r : Text) : Text × Text :=
  let (left, right) := Text.splitFirst '\t' r
  (left, right.getD [])

/-- The parts of a row before and behind its last tab. -/
def lastTab (r : Text) : Text × Text :=
  let (right, left) := firstTab r.reverse
  (left.reverse, right.reverse)

theorem row_eq (left right : Text) : row left right = left ++ ('\t' : CodePoint) :: right :=
  List.append_assoc left ↑"\t" right

theorem firstTab_row (h : ('\t' : CodePoint) ∉ left) (right : Text) :
    firstTab (row left right) = (left, right) := by
  rw [firstTab, row_eq, Text.splitFirst_append h]
  rfl

theorem lastTab_row (h : ('\t' : CodePoint) ∉ right) (left : Text) :
    lastTab (row left right) = (left, right) := by
  have hreverse : (row left right).reverse = row right.reverse left.reverse := by
    rw [row_eq, row_eq, List.reverse_append, List.reverse_cons, List.append_assoc]
    rfl
  rw [lastTab, hreverse, firstTab_row (by rwa [List.mem_reverse])]
  simp only [List.reverse_reverse]

/-! ## 3. Layouts -/

/-- The texts of the elements of a list. -/
def readList (p : Preview) : List Text := p.lines.map fun r => (firstTab r).2

/-- The texts of the fields and values of a hash. -/
def readHash (p : Preview) : List (Text × Text) := p.lines.map firstTab

/-- The texts of the members and scores of a sorted set. -/
def readScores (p : Preview) : List (Text × Text) := p.lines.map lastTab

/-- What is read row by row is what was written, if each row is read as it was written. -/
theorem map_map_eq {α : Type} {write : α → Text} {read : Text → α} {l : List α}
    (h : ∀ a ∈ l, read (write a) = a) : (l.map write).map read = l := by
  rw [List.map_map]
  exact (List.map_congr_left h).trans (List.map_id l)

/-- **The elements of a list are read back in order**, if there is no line feed in them. -/
theorem readList_ofList (hv : partTexts v = .ok texts) (h : ∀ t ∈ texts, ('\n' : CodePoint) ∉ t) :
    ∃ p, ofList v = .ok p ∧ p.readList = texts := by
  have hlines : ∀ r ∈ texts.mapIdx fun i t => row (Decimal.ofNat i) t, ('\n' : CodePoint) ∉ r := by
    intro r hr
    obtain ⟨i, hi, rfl⟩ := List.mem_mapIdx.mp hr
    exact newline_not_mem_row (fun hc => absurd (Decimal.isAsciiDigit_of_mem_ofNat hc) (by decide))
      (h _ (List.getElem_mem hi))
  refine ⟨⟨Text.unlines (texts.mapIdx fun i t => row (Decimal.ofNat i) t), texts.length⟩, ?_, ?_⟩
  · rw [ofList_eq, hv]
    rfl
  · rw [readList, ← List.length_mapIdx, lines_unlines hlines]
    refine List.ext_getElem? fun i => ?_
    have hposition : ('\t' : CodePoint) ∉ Decimal.ofNat i := fun hc =>
      absurd (Decimal.isAsciiDigit_of_mem_ofNat hc) (by decide)
    rw [List.getElem?_map, List.getElem?_mapIdx, Option.map_map]
    cases texts[i]? with
    | none => rfl
    | some t => exact congrArg (fun r => some r.2) (firstTab_row hposition t)

/-- **The fields and values of a hash are read back in ascending order**, if there is no tab in a field
and no line feed in either. -/
theorem readHash_ofHash (hv : fieldTexts v = .ok pairs)
    (h : ∀ p ∈ pairs, ('\t' : CodePoint) ∉ p.1 ∧ ('\n' : CodePoint) ∉ p.1 ∧ ('\n' : CodePoint) ∉ p.2) :
    ∃ p, ofHash v = .ok p ∧ p.readHash = Text.sortPairs pairs := by
  have hsorted : ∀ p ∈ Text.sortPairs pairs, p ∈ pairs := fun p hp =>
    (Text.sortPairs_perm pairs).mem_iff.mp hp
  refine ⟨⟨Text.unlines ((Text.sortPairs pairs).map fun p => row p.1 p.2), pairs.length⟩, ?_, ?_⟩
  · rw [ofHash_eq, hv]
    rfl
  · rw [readHash, ← (Text.sortPairs_perm pairs).length_eq, lines_rows fun p hp => (h p (hsorted p hp)).2]
    exact map_map_eq fun p hp => firstTab_row (h p (hsorted p hp)).1 p.2

/-- **The members of a set are read back in ascending order**, if there is no line feed in them. -/
theorem readSet_ofSet (hv : partTexts v = .ok texts) (h : ∀ t ∈ texts, ('\n' : CodePoint) ∉ t) :
    ∃ p, ofSet v = .ok p ∧ p.lines = Text.sort texts := by
  refine ⟨⟨Text.unlines (Text.sort texts), texts.length⟩, ?_, ?_⟩
  · rw [ofSet_eq, hv]
    rfl
  · rw [← (Text.sort_perm texts).length_eq]
    exact lines_unlines fun r hr => h r (Text.mem_sort.mp hr)

/-- **The members and scores of a sorted set are read back in order**, if there is no tab in a score and
no line feed in either. -/
theorem readScores_ofSortedSet (hv : scoreTexts v = .ok pairs)
    (h : ∀ p ∈ pairs, ('\n' : CodePoint) ∉ p.1 ∧ ('\t' : CodePoint) ∉ p.2 ∧ ('\n' : CodePoint) ∉ p.2) :
    ∃ p, ofSortedSet v = .ok p ∧ p.readScores = pairs := by
  refine ⟨⟨Text.unlines (pairs.map fun p => row p.1 p.2), pairs.length⟩, ?_, ?_⟩
  · rw [ofSortedSet_eq, hv]
    rfl
  · rw [readScores, lines_rows fun p hp => ⟨(h p hp).1, (h p hp).2.2⟩]
    exact map_map_eq fun p hp => lastTab_row (h p hp).2.1 p.1

/-! ## 4. Different texts, different previews -/

/-- Two previews that are equal are read in the same way. -/
theorem eq_of_read {α : Type} {x y : Except Failure Preview} {read : Preview → α} {a b : α}
    (hx : ∃ p, x = .ok p ∧ read p = a) (hy : ∃ p, y = .ok p ∧ read p = b) (h : x = y) : a = b := by
  obtain ⟨p, rfl, rfl⟩ := hx
  obtain ⟨q, rfl, rfl⟩ := hy
  exact congrArg read (Except.ok.inj h)

/-- **A preview determines the texts of its value**, as long as no text holds what separates it from
others.

Lists with equal previews have the same texts in the same order, where these have no line feeds.  Hashes
have the same fields with the same values, each as often, where no field has a tab and none of both a
line feed.  Sets without line feeds have the same members, each as often.  Sorted sets have the same
members with the same scores in the same order, where no score has a tab and none of both a line
feed; a member may have tabs. -/
theorem layouts_injective :
    (∀ {v w : Value} {ts us : List Text}, partTexts v = .ok ts → partTexts w = .ok us →
      (∀ t ∈ ts ++ us, ('\n' : CodePoint) ∉ t) → ofList v = ofList w → ts = us) ∧
    (∀ {v w : Value} {ps qs : List (Text × Text)}, fieldTexts v = .ok ps → fieldTexts w = .ok qs →
      (∀ p ∈ ps ++ qs,
        ('\t' : CodePoint) ∉ p.1 ∧ ('\n' : CodePoint) ∉ p.1 ∧ ('\n' : CodePoint) ∉ p.2) →
      ofHash v = ofHash w → ps.Perm qs) ∧
    (∀ {v w : Value} {ts us : List Text}, partTexts v = .ok ts → partTexts w = .ok us →
      (∀ t ∈ ts ++ us, ('\n' : CodePoint) ∉ t) → ofSet v = ofSet w → ts.Perm us) ∧
    (∀ {v w : Value} {ps qs : List (Text × Text)}, scoreTexts v = .ok ps → scoreTexts w = .ok qs →
      (∀ p ∈ ps ++ qs,
        ('\n' : CodePoint) ∉ p.1 ∧ ('\t' : CodePoint) ∉ p.2 ∧ ('\n' : CodePoint) ∉ p.2) →
      ofSortedSet v = ofSortedSet w → ps = qs) := by
  refine ⟨?_, ?_, ?_, ?_⟩
  · intro v w ts us hv hw hplain
    rw [List.forall_mem_append] at hplain
    exact eq_of_read (readList_ofList hv hplain.1) (readList_ofList hw hplain.2)
  · intro v w ps qs hv hw hplain hsame
    rw [List.forall_mem_append] at hplain
    have hsorted := eq_of_read (readHash_ofHash hv hplain.1) (readHash_ofHash hw hplain.2) hsame
    exact (Text.sortPairs_perm ps).symm.trans (hsorted ▸ Text.sortPairs_perm qs)
  · intro v w ts us hv hw hplain hsame
    rw [List.forall_mem_append] at hplain
    have hsorted := eq_of_read (readSet_ofSet hv hplain.1) (readSet_ofSet hw hplain.2) hsame
    exact (Text.sort_perm ts).symm.trans (hsorted ▸ Text.sort_perm us)
  · intro v w ps qs hv hw hplain
    rw [List.forall_mem_append] at hplain
    exact eq_of_read (readScores_ofSortedSet hv hplain.1) (readScores_ofSortedSet hw hplain.2)

/-- Values of other kinds with the same previews; there is a tab in a value of the hash and in a member
of the sorted set. -/
theorem layouts_of_other_kinds :
    (ofList (.tuple [.text "a", .text "True"]) = ofList (.list [.bytes [97], .bool true]) ∧
      [(↑"a" : Text), ↑"True"] = [Utf8.decodeLossy [97], ↑"True"]) ∧
    (ofHash (.dict [(.text "b", .bytes [49, 9])]) = ofHash (.dict [(.bytes [98], .text "1\t")]) ∧
      [((↑"b" : Text), Utf8.decodeLossy [49, 9])].Perm [(Utf8.decodeLossy [98], ↑"1\t")]) ∧
    (ofSet (.set [.text "b", .text "a"]) = ofSet (.list [.bytes [98], .bytes [97]]) ∧
      [(↑"b" : Text), ↑"a"].Perm [Utf8.decodeLossy [98], Utf8.decodeLossy [97]]) ∧
    ofSortedSet (.list [.list [.text "a\tb", .text "True"]]) =
        ofSortedSet (.tuple [.tuple [.bytes [97, 9, 98], .bool true]]) ∧
      [((↑"a\tb" : Text), (↑"True" : Text))] = [(Utf8.decodeLossy [97, 9, 98], ↑"True")] := by
  obtain ⟨hlist, hhash, hset, hscores⟩ := layouts_injective
  refine ⟨⟨rfl, ?_⟩, ⟨rfl, ?_⟩, ⟨rfl, ?_⟩, rfl, ?_⟩
  · exact hlist (v := .tuple [.text "a", .text "True"]) (w := .list [.bytes [97], .bool true]) rfl rfl
      (by decide) rfl
  · exact hhash (v := .dict [(.text "b", .bytes [49, 9])]) (w := .dict [(.bytes [98], .text "1\t")])
      rfl rfl (by decide) rfl
  · exact hset (v := .set [.text "b", .text "a"]) (w := .list [.bytes [98], .bytes [97]]) rfl rfl
      (by decide) rfl
  · exact hscores (v := .list [.list [.text "a\tb", .text "True"]])
      (w := .tuple [.tuple [.bytes [97, 9, 98], .bool true]]) rfl rfl (by decide) rfl

end Preview

end Keyscope
