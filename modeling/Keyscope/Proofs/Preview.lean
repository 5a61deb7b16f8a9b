/-
# The layouts of values

`Preview` takes a value apart that may have any shape, turns its parts into texts, and lays the texts
out.  The first two steps may fail and the third one cannot, so a preview is a layout of the texts of
the value (section 1).  A value of the shape that a client delivers has its parts in place, and if these
are byte strings there is nothing to go wrong: the preview is made of their decoded texts (section 2).
-/
import Mathlib.Data.List.Basic
import Keyscope.Preview
import Keyscope.Proofs.Outcome
import Keyscope.Proofs.Text.Order
import Keyscope.Proofs.Value.Parts

namespace Keyscope

namespace Preview

/-! ## 1. Texts, and their layout -/

/-- The texts of the elements of a list, or of the members of a set. -/
def partTexts (v : Value) : Except Failure (List Text) := do (← v.parts).mapM Value.decoded

/-- The texts of the fields and values of a hash. -/
def fieldTexts (v : Value) : Except Failure (List (Text × Text)) := do
  (← if v.isPresent then v.entries else .ok []).mapM field

/-- The texts of a member of a sorted set and of its score. -/
def scoreText (item : Value) : Except Failure (Text × Text) := do
  let member ← item.memberAt 0
  let score ← item.memberAt 1
  return (← member.decoded, ← score.decoded)

/-- The texts of the members and scores of a sorted set. -/
def scoreTexts (v : Value) : Except Failure (List (Text × Text)) := do (← v.parts).mapM scoreText

theorem fieldTexts_dict (items : List (Value × Value)) : fieldTexts (.dict items) = items.mapM field := by
  cases items <;> rfl

theorem ofHash_eq (v : Value) :
    ofHash v = do
      let pairs ← fieldTexts v
      return ⟨Text.unlines ((Text.sortPairs pairs).map fun p => row p.1 p.2), pairs.length⟩ := by
  unfold ofHash fieldTexts
  split
  · rw [bind_assoc]
  · rfl

theorem ofSet_eq (v : Value) :
    ofSet v = do
      let texts ← partTexts v
      return ⟨Text.unlines (Text.sort texts), texts.length⟩ := by
  unfold ofSet partTexts Value.parts
  split
  · rw [bind_assoc]
  · rfl

theorem scored_eq (item : Value) : scored item = do
    let p ← scoreText item
    return row p.1 p.2 := by
  simp only [scored, scoreText, bind_assoc, pure_bind]

theorem ofSortedSet_eq (v : Value) :
    ofSortedSet v = do
      let pairs ← scoreTexts v
      return ⟨Text.unlines (pairs.map fun p => row p.1 p.2), pairs.length⟩ := by
  have hrows : ∀ items : List Value, items.mapM scored = do
      let pairs ← items.mapM scoreText
      return pairs.map fun p => row p.1 p.2 := by
    intro items
    rw [show scored = _ from funext scored_eq]
    exact Outcome.mapM_return scoreText (fun p => row p.1 p.2) items
  unfold ofSortedSet scoreTexts Value.parts
  split
  · simp only [hrows, bind_assoc, pure_bind, List.length_map]
  · rfl

theorem ofList_eq (v : Value) :
    ofList v = do
      let texts ← partTexts v
      return ⟨Text.unlines (texts.mapIdx fun i t => row (Decimal.ofNat i) t), texts.length⟩ := by
  unfold ofList partTexts Value.parts
  split
  · rw [bind_assoc]
  · rfl

/-! ## 2. Byte strings in them -/

/-- Byte strings are displayed with their broken runs replaced. -/
theorem mapM_decoded (parts : List Bytes) :
    (parts.map Value.bytes).mapM Value.decoded = .ok (parts.map Utf8.decodeLossy) := by
  rw [List.mapM_map]
  exact Outcome.mapM_ok fun bs _ => rfl

theorem partTexts_bytes {v : Value} {parts : List Bytes} (h : v.members? = some (parts.map .bytes)) :
    partTexts v = .ok (parts.map Utf8.decodeLossy) := by
  rw [partTexts, Value.parts_of_members h]
  exact mapM_decoded parts

theorem fieldTexts_bytes (fields : List (Bytes × Bytes)) :
    fieldTexts (.dict (fields.map fun f => (.bytes f.1, .bytes f.2))) =
      .ok (fields.map fun f => (Utf8.decodeLossy f.1, Utf8.decodeLossy f.2)) := by
  rw [fieldTexts_dict, List.mapM_map]
  exact Outcome.mapM_ok fun f _ => rfl

theorem ofHash_bytes (fields : List (Bytes × Bytes)) :
    ofHash (.dict (fields.map fun f => (.bytes f.1, .bytes f.2))) =
      .ok ⟨Text.unlines ((Text.sortPairs (fields.map fun f =>
          (Utf8.decodeLossy f.1, Utf8.decodeLossy f.2))).map fun p => row p.1 p.2),
        fields.length⟩ := by
  rw [ofHash_eq, fieldTexts_bytes]
  exact congrArg (fun n => Except.ok (Preview.mk _ n)) (List.length_map _)

/-- The members of a set may be delivered in any order. -/
theorem ofSet_bytes {members vs : List Bytes} (h : vs.Perm members) :
    ofSet (.set (vs.map .bytes)) =
      .ok ⟨Text.unlines (Text.sort (members.map Utf8.decodeLossy)), members.length⟩ := by
  rw [ofSet_eq, partTexts_bytes rfl, ← Text.sort_congr (h.map Utf8.decodeLossy), ← h.length_eq]
  exact congrArg (fun n => Except.ok (Preview.mk _ n)) (List.length_map _)

/-- The scores of a sorted set are delivered as texts. -/
theorem ofSortedSet_bytes (members : List (Bytes × Bytes)) :
    ofSortedSet (.list (members.map fun m => .tuple [.bytes m.1, .text (Utf8.decodeLossy m.2)])) =
      .ok ⟨Text.unlines (members.map fun m => row (Utf8.decodeLossy m.1) (Utf8.decodeLossy m.2)),
        members.length⟩ := by
  have hpairs : scoreTexts
      (.list (members.map fun m => .tuple [.bytes m.1, .text (Utf8.decodeLossy m.2)])) =
      .ok (members.map fun m => (Utf8.decodeLossy m.1, Utf8.decodeLossy m.2)) := by
    rw [scoreTexts, Value.parts_of_members rfl, Outcome.ok_bind, List.mapM_map]
    exact Outcome.mapM_ok fun m _ => rfl
  rw [ofSortedSet_eq, hpairs, Outcome.ok_bind, List.map_map, List.length_map]
  rfl

theorem ofList_bytes (elements : List Bytes) :
    ofList (.list (elements.map .bytes)) =
      .ok ⟨Text.unlines ((elements.map Utf8.decodeLossy).mapIdx fun i t => row (Decimal.ofNat i) t),
        elements.length⟩ := by
  rw [ofList_eq, partTexts_bytes rfl]
  exact congrArg (fun n => Except.ok (Preview.mk _ n)) (List.length_map _)

end Preview

end Keyscope
