/-
# Values that a document spells

A document has its values in a graph, and what was written into it is a tree.  A place of the graph
spells a tree (`Graph.spells`) if a scalar is the same one there, and the parts of a container are
spelled one by one.  What is under a name in the tree is then under the same name in the document
(`Ref.exists_field`).
-/
import Mathlib.Data.List.Forall2
import Keyscope.Proofs.Yaml.Writer
import Keyscope.Proofs.Target

namespace Keyscope

/-- Whether two scalars are the same, as they are written. -/
def Value.sameScalar : Value → Value → Bool
  | .null, .null => true
  | .bool a, .bool b => a == b
  | .int a, .int b => a == b
  | .real a, .real b => a == b
  | .text a, .text b => a == b
  | _, _ => false

theorem Value.eq_of_sameScalar {v w : Value} (h : v.sameScalar w = true) : v = w := by
  unfold sameScalar at h
  split at h
  · rfl
  · rw [eq_of_beq h]
  · rw [eq_of_beq h]
  · rw [eq_of_beq h]
  · rw [eq_of_beq h]
  · cases h

namespace Graph

mutual

/-- Whether a place of a graph spells a value. -/
def spells (g : Graph) : Value → Nat → Bool
  | .list vs, place =>
    match g.cell place with
    | .list places => spellsAll g vs places
    | _ => false
  | .dict items, place =>
    match g.cell place with
    | .dict entries => spellsEntries g items entries
    | _ => false
  | v, place => (g.leaf? place).any v.sameScalar

/-- Whether places spell the members of a list. -/
def spellsAll (g : Graph) : List Value → List Nat → Bool
  | [], [] => true
  | v :: vs, place :: places => spells g v place && spellsAll g vs places
  | _, _ => false

/-- Whether places spell the entries of a dictionary. -/
def spellsEntries (g : Graph) : List (Value × Value) → List (Nat × Nat) → Bool
  | [], [] => true
  | (k, v) :: items, e :: entries =>
    (g.leaf? e.1).any k.sameScalar && spells g v e.2 && spellsEntries g items entries
  | _, _ => false

end

variable {g : Graph} {v : Value} {place : Nat}

theorem leaf_of_any (h : (g.leaf? place).any v.sameScalar = true) : g.cell place = .leaf v := by
  unfold leaf? at h
  cases hcell : g.cell place with
  | leaf w =>
    rw [hcell] at h
    rw [Value.eq_of_sameScalar h]
  | _ =>
    rw [hcell] at h
    cases h

theorem leaf_of_spells (hv : v.IsScalar) (h : g.spells v place = true) : g.cell place = .leaf v := by
  cases hv <;> exact leaf_of_any (by simpa only [spells] using h)

theorem forall₂_of_spellsAll {vs : List Value} {places : List Nat} (h : g.spellsAll vs places = true) :
    List.Forall₂ (fun v place => g.spells v place = true) vs places := by
  induction vs generalizing places with
  | nil =>
    cases places with
    | nil => exact .nil
    | cons place places => simp [spellsAll] at h
  | cons v vs ih =>
    cases places with
    | nil => simp [spellsAll] at h
    | cons place places =>
      rw [spellsAll, Bool.and_eq_true] at h
      exact .cons h.1 (ih h.2)

theorem exists_places {vs : List Value} (h : g.spells (.list vs) place = true) :
    ∃ places, g.cell place = .list places ∧
      List.Forall₂ (fun v place => g.spells v place = true) vs places := by
  rw [spells] at h
  split at h
  · rename_i places hcell
    exact ⟨places, hcell, forall₂_of_spellsAll h⟩
  · cases h

theorem forall₂_of_spellsEntries {items : List (Value × Value)} {entries : List (Nat × Nat)}
    (h : g.spellsEntries items entries = true) :
    List.Forall₂ (fun item e => g.cell e.1 = .leaf item.1 ∧ g.spells item.2 e.2 = true) items entries := by
  induction items generalizing entries with
  | nil =>
    cases entries with
    | nil => exact .nil
    | cons e entries => simp [spellsEntries] at h
  | cons item items ih =>
    cases entries with
    | nil => simp [spellsEntries] at h
    | cons e entries =>
      rw [spellsEntries, Bool.and_eq_true, Bool.and_eq_true] at h
      exact .cons ⟨leaf_of_any h.1.1, h.1.2⟩ (ih h.2)

theorem exists_entries {items : List (Value × Value)} (h : g.spells (.dict items) place = true) :
    ∃ entries, g.cell place = .dict entries ∧
      List.Forall₂ (fun item e => g.cell e.1 = .leaf item.1 ∧ g.spells item.2 e.2 = true) items entries := by
  rw [spells] at h
  split at h
  · rename_i entries hcell
    exact ⟨entries, hcell, forall₂_of_spellsEntries h⟩
  · cases h

theorem shownFrom_leaf {depth : Nat} {inside : List Nat} (h : g.cell place = .leaf v) :
    g.shownFrom (depth + 1) inside place = v.shown := by
  rw [shownFrom, h]

end Graph

namespace Ref

variable {r : Ref} {v : Value} {items : List (Value × Value)} {name : Text}

/-- **A value of a document is a tree**, part by part. -/
def Spells (r : Ref) (v : Value) : Prop := r.graph.spells v r.place = true

theorem Spells.isDict (h : r.Spells (.dict items)) : r.isDict = true := by
  obtain ⟨entries, hcell, -⟩ := Graph.exists_entries h
  change r.cell = .dict entries at hcell
  rw [Ref.isDict, hcell]

theorem Spells.isPresent (h : r.Spells (.dict items)) (hitems : items ≠ []) : r.isPresent = true := by
  obtain ⟨entries, hcell, hentries⟩ := Graph.exists_entries h
  change r.cell = .dict entries at hcell
  rw [Ref.isPresent, hcell]
  cases hentries with
  | nil => exact absurd rfl hitems
  | cons _ _ => rfl

/-- The elements of a list that is spelled. -/
theorem Spells.exists_elements {vs : List Value} (h : r.Spells (.list vs)) :
    ∃ parts, r.elements? = some parts ∧ List.Forall₂ (fun part v => part.Spells v) parts vs := by
  obtain ⟨places, hcell, hplaces⟩ := Graph.exists_places h
  change r.cell = .list places at hcell
  refine ⟨places.map r.part, by rw [Ref.elements?, hcell], ?_⟩
  exact List.forall₂_map_left_iff.mpr (hplaces.flip)

/-- **What is under a name in a tree** is under the same name where the tree is spelled. -/
theorem Spells.exists_field (h : r.Spells (.dict items)) (hkeys : ∀ item ∈ items, ∃ t, item.1 = .text t)
    (hv : Value.field? name items = some v) : ∃ part, r.field? name = some part ∧ part.Spells v := by
  obtain ⟨entries, hcell, hentries⟩ := Graph.exists_entries h
  change r.cell = .dict entries at hcell
  rw [Ref.field?, hcell]
  dsimp only
  clear h hcell
  induction hentries with
  | nil => cases hv
  | @cons item e items entries he _ ih =>
    obtain ⟨⟨t, ht⟩, hnames⟩ := List.forall_mem_cons.mp hkeys
    obtain ⟨k, w⟩ := item
    obtain rfl : k = .text t := ht
    have hkey : r.graph.leaf? e.1 = some (.text t) := by rw [Graph.leaf?, he.1]
    rw [Value.field?, Value.find?] at hv
    rw [List.find?_cons, hkey]
    split at hv
    · rename_i hsame
      obtain rfl := Option.some.inj hv
      refine ⟨r.part e.2, ?_, he.2⟩
      simp only [Option.any_some, hsame, Option.map_some]
    · rename_i hsame
      obtain ⟨part, hpart, hspells⟩ := ih hnames hv
      refine ⟨part, ?_, hspells⟩
      simpa only [Option.any_some, hsame] using hpart

/-- A scalar under a name. -/
theorem Spells.hasLeaf (h : r.Spells (.dict items)) (hkeys : ∀ item ∈ items, ∃ t, item.1 = .text t)
    (hscalar : v.IsScalar) (hv : Value.field? name items = some v) : Target.HasLeaf r name v := by
  obtain ⟨part, hpart, hspells⟩ := h.exists_field hkeys hv
  exact ⟨part, hpart, Graph.leaf_of_spells hscalar hspells⟩

/-- **A dictionary of scalars can be shown** if all its keys and values can. -/
theorem Spells.exists_shown (h : r.Spells (.dict items))
    (hitems : ∀ item ∈ items, item.2.IsScalar ∧ (∃ t, item.1.shown = .ok t) ∧
      ∃ t, item.2.shown = .ok t) : ∃ t, r.shown = .ok t := by
  obtain ⟨entries, hcell, hentries⟩ := Graph.exists_entries h
  have hshown : ∀ e ∈ entries, ∃ t, (do
      return (← r.graph.shownFrom 979 [r.place] e.1) ++ ": " ++
        (← r.graph.shownFrom 979 [r.place] e.2) : Except Failure Text) = .ok t := by
    intro e he
    obtain ⟨item, hitem, hkey, hvalue⟩ := Outcome.exists_of_forall₂ hentries he
    obtain ⟨hscalar, ⟨key, hkey'⟩, value, hvalue'⟩ := hitems item hitem
    refine ⟨key ++ ": " ++ value, ?_⟩
    rw [Graph.shownFrom_leaf hkey, Graph.shownFrom_leaf (Graph.leaf_of_spells hscalar hvalue), hkey',
      hvalue']
    rfl
  obtain ⟨texts, htexts⟩ := Outcome.exists_mapM_ok hshown
  refine ⟨"\x7b" ++ Text.joinWith ", " texts ++ "\x7d", ?_⟩
  rw [shown, show Graph.maxShown = 979 + 1 from rfl, Graph.shownFrom, hcell]
  dsimp only
  rw [if_neg (by simp), htexts]
  rfl

end Ref

end Keyscope
