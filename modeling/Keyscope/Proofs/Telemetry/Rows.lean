/-
# Rows of any columns

Rows from elsewhere than a file need not be texts: a column may be any scalar (`Column`).  Almost all of
these are read.  What is no number becomes a NaN, and whatever is in the place of a text has one.

The exceptions are whole numbers, in two ways.  One that is too large for the format is no number of it,
but a row is refused for it instead of having a NaN there; and one of more than 4300 digits has no text.
A row that has neither is read (`Decodable`, `ofRow_columns`), and a row that has one of them keeps all
other rows from being grouped (`rows_of_columns`).
-/
import Keyscope.Proofs.Number.Nearest
import Keyscope.Proofs.Telemetry.Groups
import Keyscope.Proofs.Value.Told

namespace Keyscope

namespace Connection

/-! ## 1. Columns -/

/-- A column of a row. -/
inductive Column where
  | null
  | bool (b : Bool)
  | int (n : Int)
  | real (x : Binary64)
  | text (t : Text)
  | bytes (bs : Bytes)
  deriving DecidableEq, Repr

namespace Column

def value : Column → Value
  | null => .null
  | bool b => .bool b
  | int n => .int n
  | real x => .real x
  | text t => .text t
  | bytes bs => .bytes bs

/-- The text of a column. -/
def shown : Column → Text
  | null => "None"
  | bool b => if b then "True" else "False"
  | int n => Decimal.ofInt n
  | real x => x.toText
  | text t => t
  | bytes bs => Quoted.bytes bs

/-- The number in a column; what is no number is a NaN. -/
def number : Column → Binary64
  | null => .nan
  | bool b => if b then 1 else 0
  | int n => .ofInt n
  | real x => x
  | text t => (Numeral.real t).getD .nan
  | bytes bs => (Numeral.realOfPlain (Value.latin bs)).getD .nan

/-- Whether a whole number in a column is below a limit; there is none for anything else. -/
def below (limit : Nat) : Column → Bool
  | int n => n.natAbs < limit
  | _ => true

/-- **A column has a text** unless it is a number of too many digits. -/
theorem toText_value (c : Column) : c.value.toText =
    if c.below (tenTo Numeral.maxDigits) then .ok c.shown else .error .integerTooLong := by
  cases c with
  | int n => simp only [value, Value.toText_int, Value.integerText, below, shown, decide_eq_true_eq]
  | _ => rfl

/-- **A whole number is infinite from the limit of the format on.** -/
theorem ofInt_eq_infinite (n : Int) :
    (∃ s, Binary64.ofInt n = .infinite s) ↔ ¬ n.natAbs < Binary64.limit := by
  rw [Binary64.ofInt, Binary64.ofRatio_eq_infinite _ _ Nat.one_pos, Nat.cast_one, div_one, not_lt]
  exact Nat.cast_le

/-- **A column has a number**, be it a NaN, unless it is a whole number too large for the format. -/
theorem number_value (c : Column) : Connection.number c.value =
    if c.below Binary64.limit then .ok c.number else .error .integerTooLarge := by
  cases c with
  | int n =>
    have hinfinite := ofInt_eq_infinite n
    unfold Connection.number
    simp only [value, Value.toReal, number, below, decide_eq_true_eq]
    split_ifs with hbelow
    · cases hx : Binary64.ofInt n with
      | infinite s => exact absurd hbelow (hinfinite.mp ⟨s, hx⟩)
      | _ => rfl
    · obtain ⟨s, hs⟩ := hinfinite.mpr hbelow
      rw [hs]
  | text t => exact Connection.number_text t
  | bytes bs =>
    unfold Connection.number
    simp only [value, Value.toReal, number, below]
    cases Numeral.realOfPlain (Value.latin bs) with
    | none => rfl
    | some x => rfl
  | _ => rfl

/-- What is read of a column is its number. -/
theorem number_of_ok {c : Column} {x : Binary64} (h : c.value.toReal = .ok x) : c.number = x := by
  have hnumber := number_value c
  simp only [Connection.number, h] at hnumber
  split at hnumber
  · exact (Except.ok.inj hnumber).symm
  · cases hnumber

/-- Where nothing is read it is a NaN. -/
theorem number_of_error {c : Column} (h : ∃ e, c.value.toReal = .error e)
    (hbelow : c.below Binary64.limit = true) : c.number = .nan := by
  obtain ⟨e, he⟩ := h
  have hnumber := number_value c
  rw [Connection.number, he, if_pos hbelow] at hnumber
  split at hnumber
  · cases ‹Except.error e = _›
  · cases hnumber
  · exact (Except.ok.inj hnumber).symm

end Column

/-! ## 2. Rows -/

section Rows

/-- A row of columns. -/
def rowOf (row : List Column) : Value := .list (row.map Column.value)

/-- How many columns stand in front of the identity. -/
def shift (row : List Column) : Nat := if columns < row.length then 1 else 0

/-- A column, counted from the identity on. -/
def column (row : List Column) (i : Nat) : Column := row.getD (shift row + i) .null

/-- The connection that a row describes, if it has enough columns. -/
def ofColumns (row : List Column) : Option Connection :=
  if row.length < columns then none
  else
    let text := fun i => (column row i).shown
    let number := fun i => (column row i).number
    some ⟨if columns < row.length then row.head?.map Column.shown else none, text 0, text 1, number 2,
      number 3, number 4, number 5, number 6, number 7, number 8, number 9, number 10, number 11,
      text 12⟩

/-- **What keeps a row from being refused.**  No whole number is too long where there is a text, or too
large where there is a number. -/
structure Decodable (row : List Column) : Prop where
  shard : columns < row.length → (row.getD 0 .null).below (tenTo Numeral.maxDigits) = true
  texts : ∀ i ∈ [0, 1, 12], (column row i).below (tenTo Numeral.maxDigits) = true
  numbers : ∀ i ∈ List.range' 2 10, (column row i).below Binary64.limit = true

variable {row : List Column} {i : Nat}

theorem memberAt_rowOf (h : i < row.length) :
    (rowOf row).memberAt i = .ok (row.getD i .null).value := by
  have hmember : (row.map Column.value)[i]? = some (row.getD i .null).value := by
    rw [List.getElem?_map, List.getElem?_eq_getElem h, List.getD_eq_getElem _ _ h]
    rfl
  simp only [rowOf, Value.memberAt, Value.members?, hmember]

theorem textAt_rowOf (h : i < row.length) : textAt (rowOf row) i =
    if (row.getD i .null).below (tenTo Numeral.maxDigits) then .ok (row.getD i .null).shown
    else .error .integerTooLong := by
  rw [textAt, memberAt_rowOf h]
  exact Column.toText_value _

theorem numberAt_rowOf (h : i < row.length) : numberAt (rowOf row) i =
    if (row.getD i .null).below Binary64.limit then .ok (row.getD i .null).number
    else .error .integerTooLarge := by
  rw [numberAt, memberAt_rowOf h]
  exact Column.number_value _

theorem size_rowOf (row : List Column) : (rowOf row).size = .ok row.length := by
  simp [rowOf, Value.size, Value.members?]

/-- Thirteen columns are there behind the shard, or without one. -/
theorem shift_add_lt (hlong : columns ≤ row.length) (hi : i ≤ 12) : shift row + i < row.length := by
  have hcolumns : columns = 13 := rfl
  unfold shift
  split
  · omega
  · omega

theorem ofRow_short (h : row.length < columns) : ofRow (rowOf row) = .ok none := by
  unfold ofRow
  rw [size_rowOf, Outcome.ok_bind, if_pos h]
  rfl

theorem le_of_mem_texts (h : i ∈ [0, 1, 12]) : i ≤ 12 := by
  simp only [List.mem_cons, List.not_mem_nil, or_false] at h
  omega

theorem le_of_mem_numbers (h : i ∈ List.range' 2 10) : i ≤ 12 := by
  rw [List.mem_range'_1] at h
  omega

/-- A row without such numbers is read. -/
theorem ofRow_decodable (hlong : columns ≤ row.length) (h : Decodable row) :
    ofRow (rowOf row) = .ok (ofColumns row) := by
  have htext : ∀ i ∈ [0, 1, 12], textAt (rowOf row) (shift row + i) = .ok (column row i).shown := by
    intro i hi
    rw [textAt_rowOf (shift_add_lt hlong (le_of_mem_texts hi))]
    exact if_pos (h.texts i hi)
  have hnumber : ∀ i ∈ List.range' 2 10,
      numberAt (rowOf row) (shift row + i) = .ok (column row i).number := by
    intro i hi
    rw [numberAt_rowOf (shift_add_lt hlong (le_of_mem_numbers hi))]
    exact if_pos (h.numbers i hi)
  have hshard : columns < row.length →
      textAt (rowOf row) 0 = .ok (row.getD 0 .null).shown := by
    intro hshard
    rw [textAt_rowOf (by omega), if_pos (h.shard hshard)]
  have hlength : ¬ row.length < columns := by omega
  unfold ofRow ofColumns
  rw [size_rowOf, Outcome.ok_bind, if_neg hlength, if_neg hlength]
  have hfirst : (if columns < row.length then 1 else 0) = shift row := rfl
  have hzero := htext 0 (by decide)
  rw [Nat.add_zero] at hzero
  simp (disch := decide) only [hfirst, hzero, htext, hnumber, Outcome.ok_bind]
  by_cases hshift : columns < row.length
  · have hhead : row.head? = some (row.getD 0 .null) := by
      rw [List.head?_eq_getElem?, List.getD_eq_getElem?_getD, List.getElem?_eq_getElem (by omega)]
      rfl
    simp only [if_pos hshift, hshard hshift, hhead]
    rfl
  · simp only [if_neg hshift]
    rfl

/-- Where a row is read, all of its columns are. -/
theorem exists_read (hlong : columns ≤ row.length) {found : Option Connection}
    (h : ofRow (rowOf row) = .ok found) :
    (columns < row.length → ∃ t, textAt (rowOf row) 0 = .ok t) ∧
      (∀ i ∈ [0, 1, 12], ∃ t, textAt (rowOf row) (shift row + i) = .ok t) ∧
      ∀ i ∈ List.range' 2 10, ∃ x, numberAt (rowOf row) (shift row + i) = .ok x := by
  have hlength : ¬ row.length < columns := by omega
  have hplaces : List.range' 2 10 = [2, 3, 4, 5, 6, 7, 8, 9, 10, 11] := rfl
  simp only [hplaces, List.forall_mem_cons, List.not_mem_nil, false_imp_iff, implies_true, and_true]
  unfold ofRow at h
  rw [size_rowOf, Outcome.ok_bind, if_neg hlength] at h
  unfold shift
  by_cases hshift : columns < row.length
  · simp only [if_pos hshift, Outcome.bind_eq_ok] at h ⊢
    obtain ⟨_, hshard, _, h₀, _, h₁, _, h₂, _, h₃, _, h₄, _, h₅, _, h₆, _, h₇, _, h₈, _, h₉, _, h₁₀, _,
      h₁₁, _, h₁₂, -⟩ := h
    have hshard : ∃ t, textAt (rowOf row) 0 = .ok t := by
      cases ht : textAt (rowOf row) 0 with
      | error e => simp [ht] at hshard
      | ok t => exact ⟨t, rfl⟩
    exact ⟨fun _ => hshard, ⟨⟨_, h₀⟩, ⟨_, h₁⟩, _, h₁₂⟩, ⟨_, h₂⟩, ⟨_, h₃⟩, ⟨_, h₄⟩, ⟨_, h₅⟩, ⟨_, h₆⟩,
      ⟨_, h₇⟩, ⟨_, h₈⟩, ⟨_, h₉⟩, ⟨_, h₁₀⟩, _, h₁₁⟩
  · simp only [if_neg hshift, Outcome.bind_eq_ok] at h ⊢
    obtain ⟨_, -, _, h₀, _, h₁, _, h₂, _, h₃, _, h₄, _, h₅, _, h₆, _, h₇, _, h₈, _, h₉, _, h₁₀, _,
      h₁₁, _, h₁₂, -⟩ := h
    exact ⟨fun hlong => absurd hlong hshift, ⟨⟨_, h₀⟩, ⟨_, h₁⟩, _, h₁₂⟩, ⟨_, h₂⟩, ⟨_, h₃⟩, ⟨_, h₄⟩,
      ⟨_, h₅⟩, ⟨_, h₆⟩, ⟨_, h₇⟩, ⟨_, h₈⟩, ⟨_, h₉⟩, ⟨_, h₁₀⟩, _, h₁₁⟩

/-- So it has no such numbers. -/
theorem Decodable.of_ofRow (hlong : columns ≤ row.length) {found : Option Connection}
    (h : ofRow (rowOf row) = .ok found) : Decodable row := by
  have htext : ∀ {i : Nat}, i < row.length → (∃ t, textAt (rowOf row) i = .ok t) →
      (row.getD i .null).below (tenTo Numeral.maxDigits) = true := by
    rintro i hi ⟨t, ht⟩
    rw [textAt_rowOf hi] at ht
    by_contra hbelow
    cases (if_neg hbelow).symm.trans ht
  obtain ⟨hshard, htexts, hnumbers⟩ := exists_read hlong h
  refine ⟨fun hshift => htext (by omega) (hshard hshift),
    fun i hi => htext (shift_add_lt hlong (le_of_mem_texts hi)) (htexts i hi), fun i hi => ?_⟩
  obtain ⟨x, hx⟩ := hnumbers i hi
  rw [numberAt_rowOf (shift_add_lt hlong (le_of_mem_numbers hi))] at hx
  by_contra hbelow
  cases (if_neg hbelow).symm.trans hx

/-- **A row is read if it is too short for a connection or has no such numbers.** -/
theorem ofRow_ok_iff : (∃ found, ofRow (rowOf row) = .ok found) ↔
    (columns ≤ row.length → Decodable row) := by
  constructor
  · rintro ⟨found, h⟩ hlong
    exact .of_ofRow hlong h
  · intro h
    by_cases hlong : columns ≤ row.length
    · exact ⟨_, ofRow_decodable hlong (h hlong)⟩
    · exact ⟨none, ofRow_short (by omega)⟩

theorem ofRow_eq_ofColumns {found : Option Connection} (h : ofRow (rowOf row) = .ok found) :
    found = ofColumns row := by
  by_cases hlong : columns ≤ row.length
  · rw [ofRow_decodable hlong (.of_ofRow hlong h)] at h
    exact (Except.ok.inj h).symm
  · rw [ofRow_short (by omega)] at h
    rw [ofColumns, if_pos (by omega)]
    exact (Except.ok.inj h).symm

/-- Rows are grouped if each of them is read. -/
theorem groupFrom_ok_iff : ∀ {rows : List Value} {groups : Groups},
    (∃ grouped, groupFrom groups rows = .ok grouped) ↔ ∀ row ∈ rows, ∃ found, ofRow row = .ok found
  | [], groups => by simp [groupFrom]
  | row :: rows, groups => by
    rw [groupFrom, List.forall_mem_cons]
    cases ofRow row with
    | error e => simp
    | ok found =>
      cases found with
      | none => simpa using groupFrom_ok_iff
      | some c => simpa using groupFrom_ok_iff

end Rows

/-- **Rows of scalars are read, except for whole numbers that are too large or too long.**  The number of
a column is what is read of it, or a NaN if it is no number.  A row describes nothing if it has fewer
than thirteen columns.  A longer one is refused if a column of a number holds a whole number beyond the
format, or one of a text has too many digits; all others describe a connection.

One row that is refused keeps all of them from being grouped.  Otherwise the groups hold the connections
of all rows. -/
theorem rows_of_columns (c : Column) (row : List Column) (rows : List (List Column)) :
    ((∀ x, c.value.toReal = .ok x → c.number = x) ∧
      ((∃ e, c.value.toReal = .error e) → c.below Binary64.limit = true → c.number = .nan)) ∧
    ((ofRow (rowOf row) = .ok none ↔ row.length < columns) ∧
      (columns ≤ row.length → Decodable row →
        ∃ c, ofRow (rowOf row) = .ok (some c) ∧ ofColumns row = some c) ∧
      ((∃ e, ofRow (rowOf row) = .error e) ↔ columns ≤ row.length ∧ ¬ Decodable row)) ∧
    ((∃ e, group (rows.map rowOf) = .error e) ↔
      ∃ row ∈ rows, columns ≤ row.length ∧ ¬ Decodable row) ∧
    ((∀ row ∈ rows, columns ≤ row.length → Decodable row) →
      ∃ groups, group (rows.map rowOf) = .ok groups ∧ Grouped (rows.filterMap ofColumns) groups) := by
  refine ⟨⟨fun x => Column.number_of_ok, Column.number_of_error⟩,
    ⟨⟨fun h => ?_, ofRow_short⟩, fun hlong h => ?_, ?_⟩, ?_, fun h => ?_⟩
  · have hfound := ofRow_eq_ofColumns h
    unfold ofColumns at hfound
    by_contra hlong
    rw [if_neg hlong] at hfound
    cases hfound
  · rw [ofRow_decodable hlong h, ofColumns, if_neg (by omega)]
    exact ⟨_, rfl, rfl⟩
  · rw [Outcome.exists_error, ofRow_ok_iff, Classical.not_imp]
  · rw [Outcome.exists_error, group, groupFrom_ok_iff, List.forall_mem_map]
    simp only [ofRow_ok_iff, not_forall, exists_prop]
  · refine Grouped.nil.groupFrom fun row hrow => ?_
    obtain ⟨found, hfound⟩ := ofRow_ok_iff.mpr (h row hrow)
    rw [hfound, ofRow_eq_ofColumns hfound]

/-- A row whose round trip is a whole number beyond the format. -/
def farRow : List Column :=
  .text "i" :: .text "t" :: .int (10 ^ 400) :: List.replicate 9 (.text "1") ++ [.text "up"]

/-- It is refused, where a text that is no number would be read as a NaN. -/
theorem ofRow_farRow : ofRow (rowOf farRow) = .error .integerTooLarge := by
  have hidentity : textAt (rowOf farRow) 0 = .ok "i" := rfl
  have htarget : textAt (rowOf farRow) 1 = .ok "t" := rfl
  have hping : numberAt (rowOf farRow) 2 = .error .integerTooLarge := by
    rw [numberAt_rowOf (by decide)]
    exact if_neg (by decide +kernel)
  have hsize : (rowOf farRow).size = .ok 13 := rfl
  unfold ofRow
  rw [hsize, Outcome.ok_bind, if_neg (by decide)]
  simp only [if_neg (show ¬ columns < 13 by decide), Nat.zero_add, hidentity, htarget, hping,
    Outcome.ok_bind]
  rfl

end Connection

end Keyscope
