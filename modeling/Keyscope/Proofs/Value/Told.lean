/-
# Values without a text

A value that is answered need not have a text: a whole number that is too long has none, and neither has
a container that it is in.  Nothing else stands in the way of a text (`Value.shown_error`).  So there is
one failure for all answers that nothing can be told from (`Value.tells_cases`), and where several of
them are read it does not matter which one is read first.
-/
import Keyscope.Proofs.Outcome
import Keyscope.Value.Shown

namespace Keyscope

namespace Value

theorem integerText_error {n : Int} {e : Failure} (h : integerText n = .error e) :
    e = .integerTooLong := by
  unfold integerText at h
  split at h
  · cases h
  · exact (Except.error.inj h).symm

theorem tenTo_le {d e : Nat} (h : d ≤ e) : tenTo d ≤ tenTo e := Nat.pow_le_pow_right (by decide) h

/-- A number of few digits has a text. -/
theorem integerText_of_lt {n : Int} {d : Nat} (hn : n.natAbs < tenTo d) (hd : d ≤ Numeral.maxDigits) :
    integerText n = .ok (Decimal.ofInt n) :=
  if_pos (Nat.lt_of_lt_of_le hn (tenTo_le hd))

theorem toText_int (n : Int) : (int n).toText = integerText n := by
  rw [toText, shown] <;> nofun

mutual

/-- **Only a number that is too long has no text.** -/
theorem shown_error : ∀ (v : Value) {e : Failure}, v.shown = .error e → e = .integerTooLong := by
  intro v e h
  cases v with
  | int n =>
    rw [shown] at h
    exact integerText_error h
  | list vs =>
    rw [shown] at h
    exact shownAll_error vs (Outcome.map_eq_error.mp h)
  | tuple vs =>
    rcases vs with _ | ⟨v, _ | ⟨w, vs⟩⟩
    · rw [shown] at h
      · exact shownAll_error [] (Outcome.map_eq_error.mp h)
      · simp
    · rw [shown] at h
      exact shown_error v (Outcome.map_eq_error.mp h)
    · rw [shown] at h
      · exact shownAll_error (v :: w :: vs) (Outcome.map_eq_error.mp h)
      · simp
  | set vs =>
    cases vs with
    | nil =>
      rw [shown] at h
      cases h
    | cons v vs =>
      rw [shown] at h
      · exact shownAll_error (v :: vs) (Outcome.map_eq_error.mp h)
      · simp
  | dict items =>
    rw [shown] at h
    exact shownItems_error items (Outcome.map_eq_error.mp h)
  | _ =>
    rw [shown] at h
    cases h

theorem shownAll_error : ∀ (vs : List Value) {e : Failure}, shownAll vs = .error e →
    e = .integerTooLong := by
  intro vs e h
  cases vs with
  | nil =>
    rw [shownAll] at h
    cases h
  | cons v vs =>
    rw [shownAll] at h
    rcases Outcome.error_of_bind h with h | ⟨t, -, h⟩
    · exact shown_error v h
    · exact shownAll_error vs (Outcome.map_eq_error.mp h)

theorem shownItems_error : ∀ (items : List (Value × Value)) {e : Failure},
    shownItems items = .error e → e = .integerTooLong := by
  intro items e h
  rcases items with _ | ⟨⟨k, v⟩, items⟩
  · rw [shownItems] at h
    cases h
  · rw [shownItems] at h
    rcases Outcome.error_of_bind h with h | ⟨t, -, h⟩
    · exact shown_error k h
    · rcases Outcome.error_of_bind h with h | ⟨u, -, h⟩
      · exact shown_error v h
      · exact shownItems_error items (Outcome.map_eq_error.mp h)

end

theorem toText_error {v : Value} {e : Failure} (h : v.toText = .error e) : e = .integerTooLong := by
  cases v with
  | text t => cases h
  | error r => cases h
  | date d => cases h
  | moment m => cases h
  | _ => exact shown_error _ h

theorem decoded_error {v : Value} {e : Failure} (h : v.decoded = .error e) :
    e = .integerTooLong := by
  unfold decoded at h
  split at h
  · cases h
  · cases h
  · exact toText_error h

/-- **Something can be told from an answer**: it is null or an error, or it has a text. -/
def Tells (v : Value) : Prop :=
  (v.isNull || v.failure?.isSome) = true ∨ ∃ t, v.decoded = .ok t

/-- An answer is passed over, or it has a text, or nothing can be told from it. -/
theorem tells_cases (v : Value) :
    ((v.isNull || v.failure?.isSome) = true ∧ v.Tells) ∨
    ((v.isNull || v.failure?.isSome) = false ∧ v.Tells ∧ ∃ t, v.decoded = .ok t) ∨
    ((v.isNull || v.failure?.isSome) = false ∧ ¬ v.Tells ∧ v.decoded = .error .integerTooLong) := by
  cases hskipped : v.isNull || v.failure?.isSome with
  | true => exact .inl ⟨rfl, .inl hskipped⟩
  | false =>
    cases hdecoded : v.decoded with
    | ok t => exact .inr (.inl ⟨rfl, .inr ⟨t, hdecoded⟩, t, rfl⟩)
    | error e =>
      refine .inr (.inr ⟨rfl, ?_, by rw [decoded_error hdecoded]⟩)
      rintro (hnone | ⟨t, ht⟩)
      · cases hskipped.symm.trans hnone
      · cases hdecoded.symm.trans ht

end Value

end Keyscope
