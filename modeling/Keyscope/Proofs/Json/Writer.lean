/-
# What can be written

A document is made of constants, numbers and texts, in lists and in objects whose names are texts
(`Json.Writable`).  Such a value can be written, in any layout: only a whole number of more than 4300
digits has no text.
-/
import Keyscope.Json.Writer
import Keyscope.Proofs.Outcome
import Keyscope.Proofs.Value.Told

namespace Keyscope

namespace Json

/-- **A value can be written.** -/
inductive Writable : Value → Prop
  | null : Writable .null
  | bool (b : Bool) : Writable (.bool b)
  | int {n : Int} (h : n.natAbs < tenTo Numeral.maxDigits) : Writable (.int n)
  | real (x : Binary64) : Writable (.real x)
  | text (t : Text) : Writable (.text t)
  | list {vs : List Value} (h : ∀ v ∈ vs, Writable v) : Writable (.list vs)
  | dict {items : List (Text × Value)} (h : ∀ p ∈ items, Writable p.2) :
    Writable (.dict (items.map fun p => (.text p.1, p.2)))

theorem writeEach_eq (l : Layout) (level : Nat) : ∀ vs : List Value,
    writeEach l level vs = vs.mapM (writeAt l level)
  | [] => rfl
  | v :: vs => by rw [writeEach, List.mapM_cons, writeEach_eq l level vs]

/-- An entry of an object under a name. -/
def writeEntry (l : Layout) (level : Nat) (p : Text × Value) : Except Failure Text := do
  return quoted p.1 ++ ": " ++ (← writeAt l level p.2)

theorem writeEntries_eq (l : Layout) (level : Nat) : ∀ items : List (Text × Value),
    writeEntries l level (items.map fun p => (.text p.1, p.2)) = items.mapM (writeEntry l level)
  | [] => rfl
  | p :: items => by
    rw [List.map_cons, writeEntries, writeEntries_eq l level items, List.mapM_cons, writeEntry]
    simp only [nameOf, Outcome.ok_bind, bind_assoc, pure_bind]

/-- A list is written if its members are. -/
theorem writeAt_list {l : Layout} {level : Nat} {vs : List Value} {ts : List Text}
    (h : vs.mapM (writeAt l (level + 1)) = .ok ts) (hne : vs ≠ []) :
    writeAt l level (.list vs) = .ok (l.enclose level "[" "]" ts) := by
  rw [writeAt, writeEach_eq, h]
  · rfl
  · exact hne

/-- An object is written if the values in it are. -/
theorem writeAt_dict {l : Layout} {level : Nat} {items : List (Text × Value)} {ts : List Text}
    (h : items.mapM (writeEntry l (level + 1)) = .ok ts) (hne : items ≠ []) :
    writeAt l level (.dict (items.map fun p => (.text p.1, p.2))) =
      .ok (l.enclose level "\x7b" "\x7d" ts) := by
  rw [writeAt, writeEntries_eq, h]
  · rfl
  · simpa using hne

/-- **Writing succeeds.** -/
theorem Writable.exists_text {v : Value} (h : Writable v) (l : Layout) :
    ∀ level, ∃ t, writeAt l level v = .ok t := by
  induction h with
  | null => exact fun _ => ⟨_, rfl⟩
  | bool b => exact fun _ => ⟨_, rfl⟩
  | int h => exact fun _ => ⟨_, Value.integerText_of_lt h (Nat.le_refl _)⟩
  | real x => exact fun _ => ⟨_, rfl⟩
  | text t => exact fun _ => ⟨_, rfl⟩
  | @list vs _ ih =>
    intro level
    by_cases hne : vs = []
    · exact ⟨"[]", by rw [hne]; rfl⟩
    · obtain ⟨ts, hts⟩ := Outcome.exists_mapM_ok fun v hv => ih v hv (level + 1)
      exact ⟨_, writeAt_list hts hne⟩
  | @dict items _ ih =>
    intro level
    by_cases hne : items = []
    · exact ⟨"\x7b\x7d", by rw [hne]; rfl⟩
    · obtain ⟨ts, hts⟩ := Outcome.exists_mapM_ok (f := writeEntry l (level + 1)) fun p hp => by
        obtain ⟨t, ht⟩ := ih p hp (level + 1)
        exact ⟨quoted p.1 ++ ": " ++ t, by rw [writeEntry, ht]; rfl⟩
      exact ⟨_, writeAt_dict hts hne⟩

theorem Writable.exists_document {v : Value} (h : Writable v) (l : Layout) : ∃ t, write l v = .ok t :=
  h.exists_text l 0

end Json

end Keyscope
