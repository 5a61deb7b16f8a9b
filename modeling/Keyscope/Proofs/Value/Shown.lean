/-
# Texts of values are not empty

A name that is given in a configuration may be a value of any kind, and its text becomes the name.
Only an empty text and an error without a message have an empty text; the first counts as missing,
and documents hold no errors.  So a name that is given is not empty (`Ref.toText_ne_nil`).
-/
import Mathlib.Tactic.Common
import Keyscope.Proofs.Number.Decimal
import Keyscope.Proofs.Outcome
import Keyscope.Value.Graph

namespace Keyscope

/-! ## 1. Numbers and times -/

theorem Text.append_ne_nil_left {t : Text} (h : t ≠ []) (u : Text) : t ++ u ≠ [] :=
  List.append_ne_nil_of_left_ne_nil h u

theorem Text.append_ne_nil_right {u : Text} (t : Text) (h : u ≠ []) : t ++ u ≠ [] :=
  List.append_ne_nil_of_right_ne_nil t h

theorem Decimal.padded_ne_nil (width n : Nat) : Decimal.padded width n ≠ [] :=
  Text.append_ne_nil_right _ (ofNat_ne_nil n)

theorem Decimal.ofInt_ne_nil (n : Int) : Decimal.ofInt n ≠ [] :=
  Text.append_ne_nil_right _ (ofNat_ne_nil _)

theorem Shortest.write_ne_nil (l : Layout) (digits : Text) (point : Int) :
    l.write digits point ≠ [] := by
  unfold Layout.write
  dsimp only
  split
  · split
    · exact Text.append_ne_nil_left (Text.append_ne_nil_left (by decide) _) _
    · exact Text.append_ne_nil_left (Text.append_ne_nil_right _ (by decide)) _
  · exact Text.append_ne_nil_right _ (Decimal.padded_ne_nil _ _)

theorem Binary64.toText_ne_nil (x : Binary64) : x.toText ≠ [] := by
  cases x with
  | nan => exact (by decide : ("nan" : Text) ≠ [])
  | infinite s => exact Text.append_ne_nil_right _ (by decide)
  | finite s m q =>
    unfold toText
    dsimp only
    split
    · exact Text.append_ne_nil_right _ (by decide)
    · exact Text.append_ne_nil_right _ (Shortest.write_ne_nil _ _ _)

theorem Date.toText_ne_nil (d : Date) : d.toText ≠ [] :=
  Text.append_ne_nil_right _ (Decimal.padded_ne_nil _ _)

theorem Moment.toText_ne_nil (m : Moment) : m.toText ≠ [] := by
  unfold toText
  dsimp only
  simp only [List.append_assoc]
  exact Text.append_ne_nil_left m.date.toText_ne_nil _

/-! ## 2. Values -/

namespace Value

theorem integerText_ne_nil {n : Int} {t : Text} (h : integerText n = .ok t) : t ≠ [] := by
  unfold integerText at h
  split at h
  · obtain rfl := Except.ok.inj h
    exact Decimal.ofInt_ne_nil n
  · cases h

/-- What shows a list of parts has a bracket at its end. -/
theorem ne_nil_of_bracketed {α : Type} {parts : Except Failure α} {write : α → Text} {bracket t : Text}
    (hbracket : bracket ≠ []) (h : (do return write (← parts) ++ bracket) = Except.ok t) : t ≠ [] := by
  obtain ⟨_, -, h⟩ := Outcome.exists_of_bind h
  obtain rfl := Except.ok.inj h
  exact Text.append_ne_nil_right _ hbracket

/-- What shows a value, if it is no error, has a quote, a bracket, a digit or a word in it. -/
theorem shown_ne_nil {v : Value} {t : Text} (hv : ∀ e, v ≠ .error e) (h : v.shown = .ok t) :
    t ≠ [] := by
  cases v with
  | null =>
    rw [shown] at h
    obtain rfl := Except.ok.inj h
    decide
  | bool b =>
    rw [shown] at h
    obtain rfl := Except.ok.inj h
    cases b <;> decide
  | int n =>
    rw [shown] at h
    exact integerText_ne_nil h
  | real x =>
    rw [shown] at h
    obtain rfl := Except.ok.inj h
    exact x.toText_ne_nil
  | text u =>
    rw [shown] at h
    obtain rfl := Except.ok.inj h
    exact List.cons_ne_nil _ _
  | bytes bs =>
    rw [shown] at h
    obtain rfl := Except.ok.inj h
    exact List.cons_ne_nil _ _
  | buffer bs =>
    rw [shown] at h
    obtain rfl := Except.ok.inj h
    exact Text.append_ne_nil_right _ (by decide)
  | list vs =>
    rw [shown] at h
    exact ne_nil_of_bracketed (by decide) h
  | tuple vs =>
    rcases vs with _ | ⟨v, _ | ⟨w, vs⟩⟩
    · rw [shown] at h
      · exact ne_nil_of_bracketed (by decide) h
      · simp
    · rw [shown] at h
      exact ne_nil_of_bracketed (by decide) h
    · rw [shown] at h
      · exact ne_nil_of_bracketed (by decide) h
      · simp
  | set vs =>
    cases vs with
    | nil =>
      rw [shown] at h
      obtain rfl := Except.ok.inj h
      decide
    | cons v vs =>
      rw [shown] at h
      · exact ne_nil_of_bracketed (by decide) h
      · simp
  | dict items =>
    rw [shown] at h
    exact ne_nil_of_bracketed (by decide) h
  | error e => exact absurd rfl (hv e)
  | date d =>
    rw [shown] at h
    obtain rfl := Except.ok.inj h
    exact Text.append_ne_nil_right _ (by decide)
  | moment m =>
    rw [shown] at h
    obtain rfl := Except.ok.inj h
    exact Text.append_ne_nil_right _ (by decide)

/-- A value that counts, and is no error, has a text with something in it. -/
theorem toText_ne_nil {v : Value} {t : Text} (hv : ∀ e, v ≠ .error e) (hpresent : v.isPresent = true)
    (h : v.toText = .ok t) : t ≠ [] := by
  cases v with
  | text u =>
    obtain rfl := Except.ok.inj h
    rintro rfl
    cases hpresent
  | error e => exact absurd rfl (hv e)
  | date d =>
    obtain rfl := Except.ok.inj h
    exact d.toText_ne_nil
  | moment m =>
    obtain rfl := Except.ok.inj h
    exact m.toText_ne_nil
  | _ => exact shown_ne_nil hv h

end Value

/-! ## 3. Values of a document -/

/-- What shows a container has brackets. -/
theorem Graph.shownFrom_ne_nil {g : Graph} {depth : Nat} {inside : List Nat} {place : Nat} {t : Text}
    (hg : ∀ v, g.cell place ≠ .leaf v) (h : g.shownFrom depth inside place = .ok t) : t ≠ [] := by
  cases depth with
  | zero => cases h
  | succ depth =>
    rw [shownFrom] at h
    cases hcell : g.cell place with
    | leaf v => exact absurd hcell (hg v)
    | list places =>
      simp only [hcell] at h
      split at h
      · obtain rfl := Except.ok.inj h
        decide
      · exact Value.ne_nil_of_bracketed (by decide) h
    | tuple places =>
      simp only [hcell] at h
      split at h
      · obtain rfl := Except.ok.inj h
        decide
      · obtain ⟨parts, -, h⟩ := Outcome.exists_of_bind h
        obtain rfl := Except.ok.inj h
        refine Text.append_ne_nil_right _ ?_
        split <;> decide
    | dict entries =>
      simp only [hcell] at h
      split at h
      · obtain rfl := Except.ok.inj h
        decide
      · exact Value.ne_nil_of_bracketed (by decide) h

namespace Ref

/-- **A value of a document that counts has a text with something in it.** -/
theorem toText_ne_nil {r : Ref} {t : Text} (hr : ∀ e, r.cell ≠ .leaf (.error e))
    (hpresent : r.isPresent = true) (h : r.toText = .ok t) : t ≠ [] := by
  unfold toText at h
  unfold isPresent at hpresent
  cases hcell : r.cell with
  | leaf v =>
    rw [hcell] at h hpresent
    refine Value.toText_ne_nil (fun e he => ?_) hpresent h
    rw [he] at hcell
    exact hr e hcell
  | _ =>
    rw [hcell] at h
    exact Graph.shownFrom_ne_nil (fun v hv => by cases hcell.symm.trans hv) h

end Ref

end Keyscope
