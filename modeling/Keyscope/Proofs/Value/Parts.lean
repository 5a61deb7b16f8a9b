/-
# Parts of values

What a value is made of is looked at in two ways: as members, of which a value that counts as missing
has none (`Value.parts`), and as entries of a dictionary, one of which has the value that is found
(`Value.exists_of_find?`).

A value can be shown if and only if its members and entries can (`Value.showable_list`,
`Value.showable_dict`).  So whatever is taken from it can be shown too (`Value.Showable.parts`,
`Value.Showable.field?`).  What all parts have a dictionary has that is put together of them
(`Value.dictOf_of_forall`).
-/
import Mathlib.Tactic.Common
import Keyscope.Proofs.Value.Told
import Keyscope.Value.Access

namespace Keyscope

namespace Value

/-! ## 1. Members and entries -/

/-- The members of a value; one that counts as missing has none. -/
def parts (v : Value) : Except Failure (List Value) := if v.isPresent then v.members else .ok []

theorem members?_of_members {v : Value} {vs : List Value} (h : v.members = .ok vs) : v.members? = some vs := by
  unfold members at h
  split at h
  · rename_i hmembers
    obtain rfl := Except.ok.inj h
    exact hmembers
  · cases h

/-- A value that has members has them all, also if it counts as missing. -/
theorem parts_of_members {v : Value} {vs : List Value} (h : v.members? = some vs) : parts v = .ok vs := by
  unfold parts
  split
  · rw [members, h]
  · rename_i hmissing
    have hnone : vs = [] := by
      cases v <;> simp_all [members?, isPresent]
    rw [hnone]

/-- Nothing else is a part. -/
theorem members_of_parts {v w : Value} {vs : List Value} (h : parts v = .ok vs) (hw : w ∈ vs) :
    v.members? = some vs := by
  unfold parts at h
  split at h
  · exact members?_of_members h
  · obtain rfl := Except.ok.inj h
    cases hw

/-- The value under a key is that of some entry. -/
theorem exists_of_find? {key v : Value} {items : List (Value × Value)}
    (h : find? key items = some v) : ∃ k, (k, v) ∈ items := by
  induction items with
  | nil => cases h
  | cons item items ih =>
    rw [find?] at h
    split at h
    · obtain rfl := Option.some.inj h
      exact ⟨_, List.mem_cons_self⟩
    · obtain ⟨k, hk⟩ := ih h
      exact ⟨k, List.mem_cons_of_mem _ hk⟩

section Entries

variable {P : Value → Prop}

/-- What all keys and values of a dictionary have they have with one more entry. -/
theorem forall_put {key value : Value} (hkey : P key) (hvalue : P value) :
    ∀ {items : List (Value × Value)}, (∀ item ∈ items, P item.1 ∧ P item.2) →
      ∀ item ∈ put key value items, P item.1 ∧ P item.2
  | [], _ => by simpa [put] using ⟨hkey, hvalue⟩
  | (k, v) :: items, h => by
    rw [List.forall_mem_cons] at h
    rw [put]
    split
    · exact List.forall_mem_cons.mpr ⟨⟨h.1.1, hvalue⟩, h.2⟩
    · exact List.forall_mem_cons.mpr ⟨h.1, forall_put hkey hvalue h.2⟩

/-- **What is true of pairs is true of their dictionary**, if it is of any dictionary of such entries. -/
theorem dictOf_of_forall (hdict : ∀ {items : List (Value × Value)},
    (∀ item ∈ items, P item.1 ∧ P item.2) → P (dict items)) {pairs : List (Value × Value)}
    (h : ∀ p ∈ pairs, P p.1 ∧ P p.2) : P (dictOf pairs) := by
  refine hdict (List.foldlRecOn pairs _
    (motive := fun items : List (Value × Value) => ∀ item ∈ items, P item.1 ∧ P item.2) ?_ ?_)
  · exact List.forall_mem_nil _
  · exact fun items hitems p hp => forall_put (h p hp).1 (h p hp).2 hitems

end Entries

/-! ## 2. Values that can be shown -/

/-- A value that can be shown. -/
def Showable (v : Value) : Prop := ∃ t, v.shown = .ok t

/-- What stands for a value is there if the value can be shown. -/
theorem Showable.toText {v : Value} (h : v.Showable) : ∃ t, v.toText = .ok t := by
  cases v with
  | text t => exact ⟨t, rfl⟩
  | error e => exact ⟨e.message, rfl⟩
  | date d => exact ⟨d.toText, rfl⟩
  | moment m => exact ⟨m.toText, rfl⟩
  | _ => exact h

theorem showable_int {n : Int} (h : n.natAbs < tenTo Numeral.maxDigits) : (int n).Showable :=
  ⟨Decimal.ofInt n, by rw [shown, integerText, if_pos h]⟩

theorem shownAll_eq_mapM : ∀ vs : List Value, shownAll vs = vs.mapM shown
  | [] => by rw [shownAll, List.mapM_nil]; rfl
  | v :: vs => by rw [shownAll, List.mapM_cons, shownAll_eq_mapM vs]

theorem shownItems_eq_mapM : ∀ items : List (Value × Value), shownItems items =
    items.mapM fun item => do return (← shown item.1) ++ ": " ++ (← shown item.2)
  | [] => by rw [shownItems, List.mapM_nil]; rfl
  | (k, v) :: items => by
    rw [shownItems, List.mapM_cons, shownItems_eq_mapM items]
    simp only [bind_assoc, pure_bind]

theorem exists_shownAll {vs : List Value} : (∃ ts, shownAll vs = .ok ts) ↔ ∀ v ∈ vs, v.Showable := by
  rw [shownAll_eq_mapM]
  exact ⟨fun ⟨_, h⟩ _ hv => Outcome.exists_of_mapM h hv, Outcome.exists_mapM_ok⟩

theorem showable_list {vs : List Value} : (list vs).Showable ↔ ∀ v ∈ vs, v.Showable := by
  rw [Showable, shown, Outcome.exists_map_ok, exists_shownAll]

theorem showable_tuple {vs : List Value} : (tuple vs).Showable ↔ ∀ v ∈ vs, v.Showable := by
  by_cases hone : ∃ v, vs = [v]
  · obtain ⟨v, rfl⟩ := hone
    rw [Showable, shown, Outcome.exists_map_ok, List.forall_mem_singleton, Showable]
  · rw [Showable, shown, Outcome.exists_map_ok, exists_shownAll]
    exact fun v hv => hone ⟨v, hv⟩

theorem showable_set {vs : List Value} : (set vs).Showable ↔ ∀ v ∈ vs, v.Showable := by
  by_cases hnone : vs = []
  · subst hnone
    exact iff_of_true ⟨_, by rw [shown]⟩ (by simp)
  · rw [Showable, shown, Outcome.exists_map_ok, exists_shownAll]
    exact hnone

theorem showable_dict {items : List (Value × Value)} :
    (dict items).Showable ↔ ∀ item ∈ items, item.1.Showable ∧ item.2.Showable := by
  rw [Showable, shown, Outcome.exists_map_ok, shownItems_eq_mapM]
  constructor
  · rintro ⟨_, h⟩ item hitem
    obtain ⟨_, hentry⟩ := Outcome.exists_of_mapM h hitem
    obtain ⟨k, hk, hentry⟩ := Outcome.exists_of_bind hentry
    obtain ⟨v, hv, -⟩ := Outcome.exists_of_bind hentry
    exact ⟨⟨k, hk⟩, v, hv⟩
  · intro h
    refine Outcome.exists_mapM_ok fun item hitem => ?_
    obtain ⟨⟨k, hk⟩, v, hv⟩ := h item hitem
    rw [hk, hv]
    exact ⟨_, rfl⟩

theorem showable_byte (b : UInt8) : (int b.toNat).Showable :=
  have hbyte : b.toNat < tenTo 3 := Nat.lt_trans b.toNat_lt (by decide)
  showable_int (Nat.lt_of_lt_of_le hbyte (tenTo_le (by decide)))

/-- **Members of what can be shown can be shown.** -/
theorem Showable.members {v w : Value} {vs : List Value} (h : v.Showable) (hvs : v.members? = some vs)
    (hw : w ∈ vs) : w.Showable := by
  cases v with
  | list ws =>
    obtain rfl := Option.some.inj hvs
    exact showable_list.mp h w hw
  | tuple ws =>
    obtain rfl := Option.some.inj hvs
    exact showable_tuple.mp h w hw
  | set ws =>
    obtain rfl := Option.some.inj hvs
    exact showable_set.mp h w hw
  | dict items =>
    obtain rfl := Option.some.inj hvs
    obtain ⟨item, hitem, rfl⟩ := List.mem_map.mp hw
    exact (showable_dict.mp h item hitem).1
  | text t =>
    obtain rfl := Option.some.inj hvs
    obtain ⟨c, -, rfl⟩ := List.mem_map.mp hw
    exact ⟨_, rfl⟩
  | bytes bs | buffer bs =>
    obtain rfl := Option.some.inj hvs
    obtain ⟨b, -, rfl⟩ := List.mem_map.mp hw
    exact showable_byte b
  | _ => cases hvs

theorem Showable.parts {v w : Value} {vs : List Value} (h : v.Showable) (hvs : v.parts = .ok vs)
    (hw : w ∈ vs) : w.Showable :=
  h.members (members_of_parts hvs hw) hw

theorem Showable.field? {items : List (Value × Value)} {name : Text} {v : Value}
    (h : (dict items).Showable) (hv : Value.field? name items = some v) : v.Showable := by
  obtain ⟨k, hmem⟩ := exists_of_find? hv
  exact (showable_dict.mp h _ hmem).2


end Value

end Keyscope
