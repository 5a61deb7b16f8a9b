/-
# What documents hold

The graph of a document has containers in cells of their own, and what is in a leaf is a scalar or a
set: it is no error in the place of a value, as replies have them, and no container of another kind
(`hasAtoms_read`).  So the entries of a list in a document hold data only (`hasData_elements`).
-/
import Mathlib.Tactic.Common
import Keyscope.Proofs.Target
import Keyscope.Yaml.Document

namespace Keyscope

/-! ## 1. Leaves -/

/-- A value that is no error and has no parts, except for a set. -/
def Value.isAtom : Value → Bool
  | .list _ | .tuple _ | .dict _ | .error _ => false
  | _ => true

/-- What is in a cell, if it is a leaf, is an atom. -/
def Cell.HasAtom (c : Cell) : Prop := ∀ v, c = .leaf v → v.isAtom = true

theorem Cell.hasAtom_leaf {v : Value} (h : v.isAtom = true) : (Cell.leaf v).HasAtom := by
  rintro _ ⟨⟩
  exact h

namespace Graph

/-- All leaves of a graph are atoms. -/
def HasAtoms (g : Graph) : Prop := ∀ (i : Nat) (c : Cell), g[i]? = some c → c.HasAtom

variable {g : Graph} {c : Cell}

theorem HasAtoms.cell (h : g.HasAtoms) (place : Nat) : (g.cell place).HasAtom := by
  unfold Graph.cell
  rw [Array.getD_eq_getD_getElem?]
  cases hcell : g[place]? with
  | none => exact Cell.hasAtom_leaf rfl
  | some c => exact h place c hcell

theorem HasAtoms.push (h : g.HasAtoms) (hc : c.HasAtom) : HasAtoms (Array.push g c) := by
  intro i d hd
  rw [Array.getElem?_push] at hd
  split at hd
  · exact Option.some.inj hd ▸ hc
  · exact h i d hd

theorem HasAtoms.fill (h : g.HasAtoms) (hc : c.HasAtom) (place : Nat) :
    HasAtoms (Array.modify g place fun _ => c) := by
  intro i d hd
  rw [Array.getElem?_modify] at hd
  split at hd
  · obtain ⟨_, -, rfl⟩ := Option.map_eq_some_iff.mp hd
    exact hc
  · exact h i d hd

end Graph

namespace Yaml

theorem isAtom_time {t : Text} {v : Value} (h : Scalar.time? t = some v) : v.isAtom = true := by
  obtain ⟨p, -, h⟩ := Option.bind_eq_some_iff.mp h
  obtain ⟨date, -, h⟩ := Option.bind_eq_some_iff.mp h
  split at h
  · exact Option.some.inj h ▸ rfl
  · obtain ⟨m, -, h⟩ := Option.bind_eq_some_iff.mp h
    exact Option.some.inj h ▸ rfl

/-- What a scalar stands for is an atom. -/
theorem isAtom_value {tag : Tag} {t : Text} {v : Value} (h : Scalar.value? tag t = some v) :
    v.isAtom = true := by
  unfold Scalar.value? at h
  split at h
  · exact Option.some.inj h ▸ rfl
  · obtain ⟨_, -, rfl⟩ := Option.map_eq_some_iff.mp h
    rfl
  · obtain ⟨_, -, rfl⟩ := Option.map_eq_some_iff.mp h
    rfl
  · obtain ⟨_, -, rfl⟩ := Option.map_eq_some_iff.mp h
    rfl
  · obtain ⟨_, -, rfl⟩ := Option.map_eq_some_iff.mp h
    rfl
  · exact isAtom_time h
  · exact Option.some.inj h ▸ rfl
  · cases h

namespace Build

variable {b b' : Build} {id place : Nat}

/-! ## 2. Nodes that are met -/

theorem isAtom_scalarValue {v : Value} (h : b.scalarValue? id = some v) : v.isAtom = true := by
  obtain ⟨n, -, h⟩ := Option.bind_eq_some_iff.mp h
  split at h
  · cases h
  · obtain ⟨t, -, h⟩ := Option.bind_eq_some_iff.mp h
    exact isAtom_value h

theorem hasAtoms_add (h : b.cells.HasAtoms) {c : Cell} (hc : c.HasAtom) (id : Nat) :
    (b.add id c).2.cells.HasAtoms := h.push hc

theorem hasAtoms_addContainer (h : b.cells.HasAtoms) {c : Cell} (hc : c.HasAtom) (id : Nat) :
    (b.addContainer id c).2.cells.HasAtoms := h.push hc

theorem hasAtoms_meet (h : b.cells.HasAtoms) (hmeet : b.meet id = some (place, b')) :
    b'.cells.HasAtoms := by
  unfold meet at hmeet
  split at hmeet
  · obtain ⟨-, rfl⟩ := Prod.mk.inj (Option.some.inj hmeet)
    exact h
  · obtain ⟨n, -, hmeet⟩ := Option.bind_eq_some_iff.mp hmeet
    have hcontainer : ∀ {c : Cell}, c.HasAtom → some (b.addContainer id c) = some (place, b') →
        b'.cells.HasAtoms := by
      intro c hc hsome
      have hadd := hasAtoms_addContainer h hc id
      rwa [Option.some.inj hsome] at hadd
    split at hmeet
    · exact hcontainer (by rintro v ⟨⟩) hmeet
    · exact hcontainer (by rintro v ⟨⟩) hmeet
    · exact hcontainer (by rintro v ⟨⟩) hmeet
    · exact hcontainer (by rintro v ⟨⟩) hmeet
    · exact hcontainer (Cell.hasAtom_leaf rfl) hmeet
    · split at hmeet
      · obtain ⟨-, rfl⟩ := Prod.mk.inj (Option.some.inj hmeet)
        exact h
      · obtain ⟨v, hv, hmeet⟩ := Option.bind_eq_some_iff.mp hmeet
        have hadd := hasAtoms_add h (Cell.hasAtom_leaf (isAtom_scalarValue hv)) id
        rwa [Option.some.inj hmeet] at hadd

theorem hasAtoms_meetAll {ids places : List Nat} (h : b.cells.HasAtoms)
    (hmeet : meetAll ids b = some (places, b')) : b'.cells.HasAtoms := by
  induction ids generalizing b places with
  | nil =>
    obtain ⟨-, rfl⟩ := Prod.mk.inj (Option.some.inj hmeet)
    exact h
  | cons id ids ih =>
    obtain ⟨⟨place, mid⟩, hfirst, hmeet⟩ := Option.bind_eq_some_iff.mp hmeet
    obtain ⟨⟨rest, last⟩, hrest, hmeet⟩ := Option.bind_eq_some_iff.mp hmeet
    obtain ⟨-, rfl⟩ := Prod.mk.inj (Option.some.inj hmeet)
    exact ih (hasAtoms_meet h hfirst) hrest

theorem hasAtoms_meetEntries {entries done all : List (Nat × Nat)} (h : b.cells.HasAtoms)
    (hmeet : meetEntries entries done b = some (all, b')) : b'.cells.HasAtoms := by
  induction entries generalizing b done with
  | nil =>
    obtain ⟨-, rfl⟩ := Prod.mk.inj (Option.some.inj hmeet)
    exact h
  | cons entry entries ih =>
    obtain ⟨⟨key, mid⟩, hkey, hmeet⟩ := Option.bind_eq_some_iff.mp hmeet
    obtain ⟨leaf, -, hmeet⟩ := Option.bind_eq_some_iff.mp hmeet
    dsimp only at hmeet
    split at hmeet
    · cases hmeet
    · obtain ⟨⟨value, last⟩, hvalue, hmeet⟩ := Option.bind_eq_some_iff.mp hmeet
      exact ih (hasAtoms_meet (hasAtoms_meet h hkey) hvalue) hmeet

theorem hasAtoms_meetPairs {ids places : List Nat} (h : b.cells.HasAtoms)
    (hmeet : meetPairs ids b = some (places, b')) : b'.cells.HasAtoms := by
  induction ids generalizing b places with
  | nil =>
    obtain ⟨-, rfl⟩ := Prod.mk.inj (Option.some.inj hmeet)
    exact h
  | cons id ids ih =>
    obtain ⟨entries, -, hmeet⟩ := Option.bind_eq_some_iff.mp hmeet
    split at hmeet
    · obtain ⟨⟨key, mid⟩, hkey, hmeet⟩ := Option.bind_eq_some_iff.mp hmeet
      obtain ⟨⟨value, next⟩, hvalue, hmeet⟩ := Option.bind_eq_some_iff.mp hmeet
      obtain ⟨⟨rest, last⟩, hrest, hmeet⟩ := Option.bind_eq_some_iff.mp hmeet
      obtain ⟨-, rfl⟩ := Prod.mk.inj (Option.some.inj hmeet)
      refine ih (Graph.HasAtoms.push (hasAtoms_meet (hasAtoms_meet h hkey) hvalue) ?_) hrest
      rintro v ⟨⟩
    · cases hmeet

/-! ## 3. Containers that are filled -/

theorem hasAtoms_entries {entries : List (Nat × Nat)} (h : b.cells.HasAtoms)
    (hentries : b.entries id = some (entries, b')) : b'.cells.HasAtoms := by
  obtain ⟨nodes, -, hentries⟩ := Option.bind_eq_some_iff.mp hentries
  obtain ⟨own, -, hentries⟩ := Option.bind_eq_some_iff.mp hentries
  exact hasAtoms_meetEntries (b := { b with nodes := nodes }) h hentries

theorem hasAtoms_contentOf {c : Cell} (h : b.cells.HasAtoms) (hcontent : b.contentOf id = some (c, b')) :
    c.HasAtom ∧ b'.cells.HasAtoms := by
  unfold contentOf at hcontent
  split at hcontent
  · obtain ⟨⟨entries, last⟩, hentries, hcontent⟩ := Option.bind_eq_some_iff.mp hcontent
    obtain ⟨rfl, rfl⟩ := Prod.mk.inj (Option.some.inj hcontent)
    exact ⟨(by rintro v ⟨⟩), hasAtoms_entries h hentries⟩
  · obtain ⟨⟨entries, last⟩, hentries, hcontent⟩ := Option.bind_eq_some_iff.mp hcontent
    obtain ⟨rfl, rfl⟩ := Prod.mk.inj (Option.some.inj hcontent)
    exact ⟨Cell.hasAtom_leaf rfl, hasAtoms_entries h hentries⟩
  · obtain ⟨ids, -, hcontent⟩ := Option.bind_eq_some_iff.mp hcontent
    obtain ⟨⟨places, last⟩, hmeet, hcontent⟩ := Option.bind_eq_some_iff.mp hcontent
    obtain ⟨rfl, rfl⟩ := Prod.mk.inj (Option.some.inj hcontent)
    exact ⟨(by rintro v ⟨⟩), hasAtoms_meetAll h hmeet⟩
  · obtain ⟨ids, -, hcontent⟩ := Option.bind_eq_some_iff.mp hcontent
    obtain ⟨⟨places, last⟩, hmeet, hcontent⟩ := Option.bind_eq_some_iff.mp hcontent
    obtain ⟨rfl, rfl⟩ := Prod.mk.inj (Option.some.inj hcontent)
    exact ⟨(by rintro v ⟨⟩), hasAtoms_meetPairs h hmeet⟩

theorem hasAtoms_fillFrom {steps i : Nat} (h : b.cells.HasAtoms) (hfill : fillFrom steps i b = some b') :
    b'.cells.HasAtoms := by
  induction steps generalizing i b with
  | zero => cases hfill
  | succ steps ih =>
    rw [fillFrom] at hfill
    split at hfill
    · exact Option.some.inj hfill ▸ h
    · obtain ⟨⟨content, mid⟩, hcontent, hfill⟩ := Option.bind_eq_some_iff.mp hfill
      obtain ⟨hc, hmid⟩ := hasAtoms_contentOf h hcontent
      exact ih (hmid.fill hc _) hfill

end Build

/-- **The leaves of a document are atoms.** -/
theorem hasAtoms_read {t : Text} {r : Ref} (h : read? t = some r) : r.graph.HasAtoms := by
  obtain ⟨tokens, -, h⟩ := Option.bind_eq_some_iff.mp h
  obtain ⟨document, -, h⟩ := Option.bind_eq_some_iff.mp h
  have hatom : ∀ v : Value, v.isAtom = true → Graph.HasAtoms #[.leaf v] := by
    intro v hv
    exact Graph.HasAtoms.push (g := #[]) (fun i c hc => by simp at hc) (Cell.hasAtom_leaf hv)
  cases document with
  | none => exact Option.some.inj h ▸ hatom _ rfl
  | some d =>
    obtain ⟨⟨place, b⟩, hroot, h⟩ := Option.bind_eq_some_iff.mp h
    obtain ⟨last, hlast, h⟩ := Option.bind_eq_some_iff.mp h
    obtain rfl := Option.some.inj h
    exact Build.hasAtoms_fillFrom (Build.hasAtoms_meet (hatom _ rfl) hroot) hlast

end Yaml

/-! ## 4. Entries -/

namespace Ref

variable {r v : Ref} {name : Text} (h : r.graph.HasAtoms)
include h

/-- What a dictionary of a document has under a name is in the same document. -/
theorem graph_of_field? (hv : r.field? name = some v) : v.graph = r.graph := by
  have hatom := h.cell r.place
  unfold field? at hv
  cases hcell : r.cell with
  | leaf w =>
    rw [hcell] at hv
    have hw := hatom w hcell
    cases w with
    | dict items => cases hw
    | _ => cases hv
  | list places =>
    rw [hcell] at hv
    cases hv
  | tuple places =>
    rw [hcell] at hv
    cases hv
  | dict entries =>
    rw [hcell] at hv
    obtain ⟨entry, -, rfl⟩ := Option.map_eq_some_iff.mp hv
    rfl

theorem graph_of_elements? {entries : List Ref} (hentries : r.elements? = some entries) :
    ∀ entry ∈ entries, entry.graph = r.graph := by
  have hatom := h.cell r.place
  unfold elements? at hentries
  cases hcell : r.cell with
  | leaf w =>
    rw [hcell] at hentries
    have hw := hatom w hcell
    cases w with
    | list vs => cases hw
    | _ => cases hentries
  | list places =>
    rw [hcell] at hentries
    obtain rfl := Option.some.inj hentries
    intro entry hentry
    obtain ⟨place, -, rfl⟩ := List.mem_map.mp hentry
    rfl
  | tuple places =>
    rw [hcell] at hentries
    cases hentries
  | dict entries =>
    rw [hcell] at hentries
    cases hentries

/-- A value of a document holds data. -/
theorem hasData_of_hasAtoms : r.HasData := by
  intro name v hv e he
  have hatom := h.cell v.place
  rw [← graph_of_field? h hv] at hatom
  cases hatom (.error e) he

/-- **The elements of a list in a document hold data.** -/
theorem hasData_elements {entries : List Ref} (hentries : (r.field? name).bind elements? = some entries) :
    ∀ entry ∈ entries, entry.HasData := by
  obtain ⟨v, hv, hentries⟩ := Option.bind_eq_some_iff.mp hentries
  have hgraph := graph_of_field? h hv
  have hv : v.graph.HasAtoms := hgraph ▸ h
  intro entry hentry
  refine hasData_of_hasAtoms ?_
  rw [graph_of_elements? hv hentries entry hentry]
  exact hv

end Ref

end Keyscope
