/-
# What is read has a text

A whole number of more than 4300 digits has no text, and neither has a value that it is in.  A document
may well spell one, but then it is not read at all: the reader stops at the same limit
(`Numeral.natAbs_lt_of_integerOf`).  So every value that is read has a text, and so has everything in
it (`Json.showable_of_parse`).

The reader of values, that of elements and that of entries call each other, each time with one step
less.  What is true of texts and scalars that are read, and is kept when a list or an object is made
(`Json.Invariant`), is true of all that they give.  If it is within so many steps then it is with one step
more (`Answers.value_succ`, `Answers.elements_succ`, `Answers.entries_succ`), and so with any number of
them (`Invariant.answers`).
-/
import Keyscope.Json.Reader
import Keyscope.Proofs.Number.Decimal
import Keyscope.Proofs.Value.Parts
import Keyscope.Proofs.Value.Told

namespace Keyscope

/-! ## 1. Whole numbers -/

namespace Numeral

/-- Digits behind a number make it longer by as many places. -/
theorem foldl_digits_lt : ∀ {ds : Text} (n : Nat), (∀ d ∈ ds, d.isAsciiDigit = true) →
    ds.foldl (fun n c => 10 * n + (c.val - 48)) n < (n + 1) * tenTo ds.length
  | [], n, _ => by
    rw [List.foldl_nil]
    exact Nat.lt_of_lt_of_eq (Nat.lt_succ_self n) (Nat.mul_one (n + 1)).symm
  | c :: ds, n, h => by
    rw [List.forall_mem_cons] at h
    have hc : c.val ≤ 57 := (CodePoint.isAsciiDigit_iff.mp h.1).2
    have hrest := foldl_digits_lt (10 * n + (c.val - 48)) h.2
    have hgrown : 10 * n + (c.val - 48) + 1 ≤ (n + 1) * 10 := by omega
    have hten : tenTo (c :: ds).length = 10 * tenTo ds.length := Nat.pow_succ'
    rw [List.foldl_cons, hten]
    calc _ < (10 * n + (c.val - 48) + 1) * tenTo ds.length := hrest
      _ ≤ (n + 1) * 10 * tenTo ds.length := Nat.mul_le_mul_right _ hgrown
      _ = (n + 1) * (10 * tenTo ds.length) := Nat.mul_assoc _ _ _

theorem value_lt_tenTo {ds : Text} (hds : ∀ d ∈ ds, d.isAsciiDigit = true)
    (hlength : ds.length ≤ maxDigits) : Decimal.value ds < tenTo maxDigits := by
  have hvalue := foldl_digits_lt 0 hds
  rw [Nat.zero_add, Nat.one_mul] at hvalue
  exact Nat.lt_of_lt_of_le hvalue (Value.tenTo_le hlength)

/-- **A whole number that is read is not too long to be written.** -/
theorem natAbs_lt_of_integerOf {t : Text} {n : Int} (h : integerOf t = .ok n) :
    n.natAbs < tenTo maxDigits := by
  unfold integerOf at h
  dsimp only at h
  split at h
  · cases h
  split at h
  · cases h
  rename_i hlength
  split at h
  · have hvalue := value_lt_tenTo (fun d hd => (List.mem_filter.mp hd).2) (Nat.le_of_not_lt hlength)
    obtain rfl := Except.ok.inj h
    split
    · rw [Int.natAbs_neg]
      exact hvalue
    · exact hvalue
  · cases h

end Numeral

/-! ## 2. The reader -/

namespace Json

/-- What is made of what was read, with the same text left. -/
theorem exists_of_read {α β : Type} {r : Read (α × Text)} {g : α → β} {b : β} {rest : Text}
    (h : (do let x ← r; return (g x.1, x.2)) = Except.ok (b, rest)) : ∃ a, r = .ok (a, rest) ∧ g a = b := by
  obtain ⟨⟨a, left⟩, hr, h⟩ := Outcome.exists_of_bind h
  obtain ⟨hb, rfl⟩ := Prod.mk.inj (Except.ok.inj h)
  exact ⟨a, hr, hb⟩

/-- **What all values have that are read** from texts of a kind.  What is left of such a text is of that
kind too. -/
structure Invariant (known : List (String × Value)) (OfText : Text → Prop) (OfValue : Value → Prop) :
    Prop where
  suffix : ∀ {t rest}, OfText t → rest <:+ t → OfText rest
  text : ∀ {opening steps t u rest}, textFrom opening steps t = .ok (u, rest) → OfText t →
    OfValue (.text u) ∧ OfText rest
  scalar : ∀ {t v rest}, scalar known t = .ok (v, rest) → OfText t → OfValue v ∧ OfText rest
  list : ∀ {vs}, (∀ v ∈ vs, OfValue v) → OfValue (.list vs)
  dict : ∀ {items : List (Value × Value)}, (∀ item ∈ items, OfValue item.1 ∧ OfValue item.2) →
    OfValue (.dict items)

section

variable {known : List (String × Value)} {OfText : Text → Prop} {OfValue : Value → Prop}

/-- All that is read within so many steps has it. -/
structure Answers (known : List (String × Value)) (OfText : Text → Prop) (OfValue : Value → Prop)
    (steps : Nat) : Prop where
  value : ∀ {depth t v rest}, Json.value known steps depth t = .ok (v, rest) → OfText t →
    OfValue v ∧ OfText rest
  elements : ∀ {depth t vs rest}, Json.elements known steps depth t = .ok (vs, rest) → OfText t →
    (∀ v ∈ vs, OfValue v) ∧ OfText rest
  entries : ∀ {depth t items rest}, Json.entries known steps depth t = .ok (items, rest) → OfText t →
    (∀ item ∈ items, OfValue item.1 ∧ OfValue item.2) ∧ OfText rest

namespace Invariant

variable (kept : Invariant known OfText OfValue)

include kept

theorem tail {c : CodePoint} {t : Text} (h : OfText (c :: t)) : OfText t :=
  kept.suffix h (List.suffix_cons c t)

/-- What follows blanks, and the code point behind them. -/
theorem skip {t : Text} (h : OfText t) : OfText (skipBlanks t) := kept.suffix h (List.dropWhile_suffix _)

theorem skipped {t u : Text} {c : CodePoint} (h : OfText t) (hu : skipBlanks t = c :: u) :
    OfText (c :: u) ∧ OfText u := by
  have hskip := kept.skip h
  rw [hu] at hskip
  exact ⟨hskip, kept.tail hskip⟩

variable {steps depth : Nat} {t rest : Text}

theorem value_succ (h : Answers known OfText OfValue steps) {v : Value}
    (hv : Json.value known (steps + 1) depth t = .ok (v, rest)) (ht : OfText t) :
    OfValue v ∧ OfText rest := by
  cases t with
  | nil => cases hv
  | cons c t =>
    have htail := kept.tail ht
    unfold Json.value at hv
    split at hv
    · obtain ⟨text, htext, rfl⟩ := exists_of_read hv
      exact kept.text htext htail
    split at hv
    · split at hv
      · cases hv
      split at hv
      · rename_i d u hskipped
        obtain ⟨hinside, hbehind⟩ := kept.skipped htail hskipped
        split at hv
        · obtain ⟨rfl, rfl⟩ := Prod.mk.inj (Except.ok.inj hv)
          exact ⟨kept.list (List.forall_mem_nil _), hbehind⟩
        · obtain ⟨vs, hvs, rfl⟩ := exists_of_read hv
          exact (h.elements hvs hinside).imp kept.list id
      · cases hv
    split at hv
    · split at hv
      · cases hv
      split at hv
      · rename_i d u hskipped
        obtain ⟨hinside, hbehind⟩ := kept.skipped htail hskipped
        split at hv
        · obtain ⟨rfl, rfl⟩ := Prod.mk.inj (Except.ok.inj hv)
          exact ⟨kept.dict (List.forall_mem_nil _), hbehind⟩
        · obtain ⟨items, hitems, rfl⟩ := exists_of_read hv
          exact (h.entries hitems hinside).imp (Value.dictOf_of_forall kept.dict) id
      · cases hv
    · exact kept.scalar hv ht

theorem elements_succ (h : Answers known OfText OfValue steps) {vs : List Value}
    (hvs : Json.elements known (steps + 1) depth t = .ok (vs, rest)) (ht : OfText t) :
    (∀ v ∈ vs, OfValue v) ∧ OfText rest := by
  unfold Json.elements at hvs
  obtain ⟨⟨v, left⟩, hv, hvs⟩ := Outcome.exists_of_bind hvs
  obtain ⟨hv, hleft⟩ := h.value hv ht
  dsimp only at hvs
  split at hvs
  · rename_i c u hskipped
    obtain ⟨-, hbehind⟩ := kept.skipped hleft hskipped
    split at hvs
    · obtain ⟨rfl, rfl⟩ := Prod.mk.inj (Except.ok.inj hvs)
      exact ⟨List.forall_mem_singleton.mpr hv, hbehind⟩
    split at hvs
    · obtain ⟨others, hothers, rfl⟩ := exists_of_read hvs
      exact (h.elements hothers (kept.skip hbehind)).imp_left fun hothers =>
        List.forall_mem_cons.mpr ⟨hv, hothers⟩
    · cases hvs
  · cases hvs

theorem entries_succ (h : Answers known OfText OfValue steps) {items : List (Value × Value)}
    (hitems : Json.entries known (steps + 1) depth t = .ok (items, rest)) (ht : OfText t) :
    (∀ item ∈ items, OfValue item.1 ∧ OfValue item.2) ∧ OfText rest := by
  cases t with
  | nil => cases hitems
  | cons c t =>
    unfold Json.entries at hitems
    split at hitems
    · obtain ⟨⟨key, left⟩, hkey, hitems⟩ := Outcome.exists_of_bind hitems
      obtain ⟨hkey, hleft⟩ := kept.text hkey (kept.tail ht)
      dsimp only at hitems
      split at hitems
      · cases hitems
      rename_i d u hcolon
      obtain ⟨-, hbehind⟩ := kept.skipped hleft hcolon
      split at hitems
      · obtain ⟨⟨v, left⟩, hv, hitems⟩ := Outcome.exists_of_bind hitems
        obtain ⟨hv, hleft⟩ := h.value hv (kept.skip hbehind)
        dsimp only at hitems
        split at hitems
        · cases hitems
        rename_i e w hcomma
        obtain ⟨-, hbehind⟩ := kept.skipped hleft hcomma
        split at hitems
        · obtain ⟨rfl, rfl⟩ := Prod.mk.inj (Except.ok.inj hitems)
          exact ⟨List.forall_mem_singleton.mpr ⟨hkey, hv⟩, hbehind⟩
        split at hitems
        · obtain ⟨others, hothers, rfl⟩ := exists_of_read hitems
          exact (h.entries hothers (kept.skip hbehind)).imp_left fun hothers =>
            List.forall_mem_cons.mpr ⟨⟨hkey, hv⟩, hothers⟩
        · cases hitems
      · cases hitems
    · cases hitems

/-- **All answers have it**, however many steps there are. -/
theorem answers : ∀ steps : Nat, Answers known OfText OfValue steps
  | 0 => ⟨nofun, nofun, nofun⟩
  | steps + 1 =>
    ⟨kept.value_succ (answers steps), kept.elements_succ (answers steps), kept.entries_succ (answers steps)⟩

/-- So has the value of a document. -/
theorem document {v : Value} (h : Json.document known t = .ok (v, rest)) (ht : OfText t) : OfValue v := by
  unfold Json.document at h
  split at h
  · cases h
  · obtain ⟨⟨w, left⟩, hvalue, h⟩ := Outcome.exists_of_bind h
    dsimp only at h
    split at h
    · obtain ⟨rfl, -⟩ := Prod.mk.inj (Except.ok.inj h)
      exact ((kept.answers _).value hvalue (kept.skip ht)).1
    · cases h

end Invariant

/-- What is parsed is the value of a document. -/
theorem document_of_parse {t : Text} {v : Value} (h : parse t = .ok v) :
    ∃ rest, document constants t = .ok (v, rest) := by
  unfold parse at h
  split at h
  · rename_i w rest hdocument
    obtain rfl := Except.ok.inj h
    exact ⟨rest, hdocument⟩
  · cases h
  · cases h

end

/-! ## 3. Values that can be shown -/

theorem showable_of_number {t rest : Text} {v : Value} (h : number t = .ok (v, rest)) : v.Showable := by
  unfold number at h
  -- a mark, whole digits, a fraction, an exponent
  split at h
  split at h
  split at h
  · cases h
  split at h
  split at h
  split at h
  · split at h
    · rename_i n hn
      obtain ⟨rfl, -⟩ := Prod.mk.inj (Except.ok.inj h)
      exact Value.showable_int (Numeral.natAbs_lt_of_integerOf hn)
    · cases h
    · cases h
  · obtain ⟨rfl, -⟩ := Prod.mk.inj (Except.ok.inj h)
    exact ⟨_, rfl⟩

/-- The words for values have texts themselves. -/
theorem showable_constants : ∀ c ∈ constants, c.2.Showable := by
  simp only [constants, words, List.cons_append, List.nil_append, List.forall_mem_cons]
  exact ⟨⟨_, rfl⟩, ⟨_, rfl⟩, ⟨_, rfl⟩, ⟨_, rfl⟩, ⟨_, rfl⟩, ⟨_, rfl⟩, nofun⟩

/-- A scalar is a word or a number. -/
theorem scalar_cases {known : List (String × Value)} {t rest : Text} {v : Value}
    (h : scalar known t = .ok (v, rest)) :
    (∃ c ∈ known, c.2 = v ∧ rest <:+ t) ∨ number t = .ok (v, rest) := by
  unfold scalar at h
  split at h
  · rename_i found hfound
    obtain rfl := Except.ok.inj h
    obtain ⟨c, hc, hword⟩ := List.exists_of_findSome?_eq_some hfound
    obtain ⟨left, hleft, hpair⟩ := Option.map_eq_some_iff.mp hword
    obtain ⟨hv, rfl⟩ := Prod.mk.inj hpair
    refine .inl ⟨c, hc, hv, ?_⟩
    unfold word? at hleft
    dsimp only at hleft
    split at hleft
    · obtain rfl := Option.some.inj hleft
      exact List.drop_suffix _ _
    · cases hleft
  · exact .inr h

theorem showable_invariant : Invariant constants (fun _ => True) Value.Showable where
  suffix _ _ := trivial
  text _ _ := ⟨⟨_, rfl⟩, trivial⟩
  scalar h _ := by
    refine ⟨?_, trivial⟩
    rcases scalar_cases h with ⟨c, hc, rfl, -⟩ | h
    · exact showable_constants c hc
    · exact showable_of_number h
  list := Value.showable_list.mpr
  dict := Value.showable_dict.mpr

/-- **A value that is read from a document can be shown.** -/
theorem showable_of_parse {t : Text} {v : Value} (h : parse t = .ok v) : v.Showable := by
  obtain ⟨rest, h⟩ := document_of_parse h
  exact showable_invariant.document h trivial

end Json

end Keyscope
