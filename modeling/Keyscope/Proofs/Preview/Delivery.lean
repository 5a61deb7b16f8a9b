/-
# The order of delivery

A server delivers the fields of a hash and the members of a set in any order.  The preview does not show
it: the texts are sorted, and texts that are equal cannot be told apart (`delivered_in_any_order`).

Two things could still tell orders apart.  Different byte strings may have one text, so two fields of a
hash may be equal in the preview; their values are compared then.  And a value without a text makes the
whole preview fail, with the failure that is met first; all of them are the same one
(`Alike.mapM_perm`).
-/
import Keyscope.Proofs.Preview
import Keyscope.Proofs.Value.Told

namespace Keyscope

namespace Preview

/-! ## 1. Texts in another order -/

theorem field_error {item : Value × Value} {e : Failure} (h : field item = .error e) :
    e = .integerTooLong := by
  rcases Outcome.error_of_bind h with h | ⟨name, -, h⟩
  · exact Value.decoded_error h
  · exact Value.decoded_error (Outcome.map_eq_error.mp h)

/-- The texts of fields come in the order of the fields. -/
theorem fieldTexts_perm {items others : List (Value × Value)} (h : items.Perm others) :
    Alike List.Perm (fieldTexts (.dict items)) (fieldTexts (.dict others)) := by
  rw [fieldTexts_dict, fieldTexts_dict]
  exact Alike.mapM_perm (fun _ _ => field_error) h

/-- The texts of members come in the order of the members. -/
theorem partTexts_perm {v w : Value} {vs ws : List Value} (hv : v.members? = some vs)
    (hw : w.members? = some ws) (h : vs.Perm ws) : Alike List.Perm (partTexts v) (partTexts w) := by
  rw [partTexts, partTexts, Value.parts_of_members hv, Value.parts_of_members hw]
  exact Alike.mapM_perm (fun _ _ => Value.decoded_error) h

/-! ## 2. Layouts that do not show it -/

theorem ofHash_congr {v w : Value} (h : Alike List.Perm (fieldTexts v) (fieldTexts w)) :
    ofHash v = ofHash w := by
  rw [ofHash_eq, ofHash_eq]
  exact h.bind_eq fun pairs others hperm => by rw [Text.sortPairs_congr hperm, hperm.length_eq]

theorem ofSet_congr {v w : Value} (h : Alike List.Perm (partTexts v) (partTexts w)) :
    ofSet v = ofSet w := by
  rw [ofSet_eq, ofSet_eq]
  exact h.bind_eq fun texts others hperm => by rw [Text.sort_congr hperm, hperm.length_eq]

/-- **Hashes and sets have one preview in whatever order they are delivered.**  That holds of fields,
values and members of any kind.

Where they are byte strings there always is a preview.  Its rows are the texts of the fields with their
values, or those of the members, in ascending order, and there are as many as there are fields or
members, even if some of the texts are equal. -/
theorem delivered_in_any_order :
    (∀ {items others : List (Value × Value)}, items.Perm others →
      ofHash (.dict items) = ofHash (.dict others)) ∧
    (∀ {v w : Value} {vs ws : List Value}, v.members? = some vs → w.members? = some ws → vs.Perm ws →
      ofSet v = ofSet w) ∧
    (∀ fields : List (Bytes × Bytes), ∃ rows : List (Text × Text),
      ofHash (.dict (fields.map fun f => (.bytes f.1, .bytes f.2))) =
        .ok ⟨Text.unlines (rows.map fun p => row p.1 p.2), fields.length⟩ ∧
      rows.Perm (fields.map fun f => (Utf8.decodeLossy f.1, Utf8.decodeLossy f.2)) ∧
      rows.Pairwise fun a b => a.1 < b.1 ∨ a.1 = b.1 ∧ a.2 ≤ b.2) ∧
    ∀ members : List Bytes, ∃ rows : List Text,
      ofSet (.set (members.map .bytes)) = .ok ⟨Text.unlines rows, members.length⟩ ∧
      rows.Perm (members.map Utf8.decodeLossy) ∧ rows.Pairwise (· ≤ ·) := by
  refine ⟨fun h => ofHash_congr (fieldTexts_perm h), fun hv hw h => ofSet_congr (partTexts_perm hv hw h),
    fun fields => ?_, fun members => ?_⟩
  · exact ⟨_, ofHash_bytes fields, Text.sortPairs_perm _, Text.sortPairs_ascending _⟩
  · exact ⟨_, ofSet_bytes (List.Perm.refl members), Text.sort_perm _, Text.sort_ascending _⟩

/-- Two broken byte strings that have one text, as fields with different values and as members. -/
theorem delivered_broken :
    ofHash (.dict [(.bytes [0xFF], .bytes [98]), (.bytes [0xFE], .bytes [97])]) =
      ofHash (.dict [(.bytes [0xFE], .bytes [97]), (.bytes [0xFF], .bytes [98])]) ∧
    ofSet (.set [.bytes [0xFF], .bytes [0xFE]]) = ofSet (.list [.bytes [0xFE], .bytes [0xFF]]) ∧
    ∃ rows : List (Text × Text),
      ofHash (.dict [(.bytes [0xFF], .bytes [98]), (.bytes [0xFE], .bytes [97])]) =
        .ok ⟨Text.unlines (rows.map fun p => row p.1 p.2), 2⟩ ∧
      rows.Perm [([.ofNat 0xFFFD], "b"), ([.ofNat 0xFFFD], "a")] ∧
      rows.Pairwise fun a b => a.1 < b.1 ∨ a.1 = b.1 ∧ a.2 ≤ b.2 := by
  obtain ⟨hhash, hset, hfields, -⟩ := delivered_in_any_order
  exact ⟨hhash (.swap _ _ _), hset rfl rfl (.swap _ _ _), hfields [([0xFF], [98]), ([0xFE], [97])]⟩

end Preview

end Keyscope
