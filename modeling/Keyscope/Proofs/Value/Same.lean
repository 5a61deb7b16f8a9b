/-
# The same value in two documents

A section of a file is a part of the graph of the whole document, so another document has the same
section in other places.  Two values are the same (`Ref.Same`) if their places match: a leaf is the
same leaf, and the parts of a container match one by one.  A container must match only one container,
because a text shows where a container is met again inside itself.

Nothing that is done with a value tells it from one that is the same: not its texts
(`Same.toText_eq`), not its numbers, and not the values under its names (`Same.field?`).
-/
import Mathlib.Data.List.Forall2
import Mathlib.Data.Option.Basic
import Keyscope.Proofs.Outcome
import Keyscope.Target

namespace Keyscope

/-! ## 1. Options that are related -/

section Options

variable {α β γ δ : Type} {R : α → β → Prop} {S : γ → δ → Prop} {x : Option α} {y : Option β}

theorem rel_cases (h : Option.Rel R x y) :
    x = none ∧ y = none ∨ ∃ a b, x = some a ∧ y = some b ∧ R a b := by
  cases h with
  | none => exact .inl ⟨rfl, rfl⟩
  | some hab => exact .inr ⟨_, _, rfl, rfl, hab⟩

theorem rel_bind {f : α → Option γ} {g : β → Option δ} (hfg : ∀ a b, R a b → Option.Rel S (f a) (g b))
    (h : Option.Rel R x y) : Option.Rel S (x.bind f) (y.bind g) := by
  cases h with
  | none => exact .none
  | some hab => exact hfg _ _ hab

theorem bind_eq_of_rel {f : α → Option γ} {g : β → Option γ} (hfg : ∀ a b, R a b → f a = g b)
    (h : Option.Rel R x y) : x.bind f = y.bind g := by
  cases h with
  | none => rfl
  | some hab => exact hfg _ _ hab

end Options

/-! ## 2. Places that match -/

namespace Cell

/-- Whether a cell names other cells. -/
def isContainer : Cell → Bool
  | leaf _ => false
  | _ => true

/-- Two cells are the same leaf, or containers of a kind whose parts are related one by one. -/
inductive Matches (R : Nat → Nat → Prop) : Cell → Cell → Prop
  | leaf (v : Value) : Matches R (leaf v) (leaf v)
  | list {places places' : List Nat} (h : List.Forall₂ R places places') :
      Matches R (list places) (list places')
  | tuple {places places' : List Nat} (h : List.Forall₂ R places places') :
      Matches R (tuple places) (tuple places')
  | dict {entries entries' : List (Nat × Nat)}
      (h : List.Forall₂ (fun x y => R x.1 y.1 ∧ R x.2 y.2) entries entries') :
      Matches R (dict entries) (dict entries')

variable {R : Nat → Nat → Prop} {c c' : Cell}

theorem Matches.isContainer_eq (h : Matches R c c') : c.isContainer = c'.isContainer := by
  cases h <;> rfl

theorem Matches.refl (hR : ∀ place, R place place) (c : Cell) : Matches R c c := by
  have hplaces : ∀ places : List Nat, List.Forall₂ R places places := fun places =>
    List.forall₂_same.mpr fun place _ => hR place
  cases c with
  | leaf v => exact .leaf v
  | list places => exact .list (hplaces places)
  | tuple places => exact .tuple (hplaces places)
  | dict entries => exact .dict (List.forall₂_same.mpr fun x _ => ⟨hR x.1, hR x.2⟩)

end Cell

namespace Graph

/-- **Places of two graphs match**: their cells do, and a container matches one container only. -/
structure Matching (g g' : Graph) (R : Nat → Nat → Prop) : Prop where
  cell : ∀ {a b}, R a b → Cell.Matches R (g.cell a) (g'.cell b)
  left_unique : ∀ {a b c}, R a b → R a c → (g.cell a).isContainer = true → b = c
  right_unique : ∀ {a b c}, R a c → R b c → (g'.cell c).isContainer = true → a = b

namespace Matching

variable {g g' : Graph} {R : Nat → Nat → Prop} {a b : Nat}

theorem refl (g : Graph) : Matching g g Eq where
  cell := by
    rintro a _ rfl
    exact .refl (fun _ => rfl) _
  left_unique := fun hab hac _ => hab.symm.trans hac
  right_unique := fun hac hbc _ => hac.trans hbc.symm

variable (h : Matching g g' R)
include h

theorem leaf?_eq (hab : R a b) : g.leaf? a = g'.leaf? b := by
  have hcell := h.cell hab
  unfold leaf?
  generalize g.cell a = c at hcell
  generalize g'.cell b = c' at hcell
  cases hcell <;> rfl

/-- A container is inside itself on both sides or on none. -/
theorem contains_eq {inside inside' : List Nat} (hinside : List.Forall₂ R inside inside')
    (hab : R a b) (hcontainer : (g.cell a).isContainer = true) :
    inside.contains a = inside'.contains b := by
  induction hinside with
  | nil => rfl
  | @cons c d _ _ hcd _ ih =>
    have hiff : a = c ↔ b = d := by
      constructor
      · rintro rfl
        exact h.left_unique hab hcd hcontainer
      · rintro rfl
        exact h.right_unique hab hcd ((h.cell hab).isContainer_eq ▸ hcontainer)
    have hhead : (a == c) = (b == d) := by
      rw [Bool.eq_iff_iff, beq_iff_eq, beq_iff_eq, hiff]
    rw [List.contains_cons, List.contains_cons, hhead, ih]

/-- The induction is on how many more containers can be shown, for all places and all containers that
they are inside of. -/
theorem shownFrom_eq (depth : Nat) {inside inside' : List Nat}
    (hinside : List.Forall₂ R inside inside') (hab : R a b) :
    g.shownFrom depth inside a = g'.shownFrom depth inside' b := by
  induction depth generalizing inside inside' a b with
  | zero => rfl
  | succ depth ih =>
    have hpart : ∀ x y, R x y → g.shownFrom depth (a :: inside) x = g'.shownFrom depth (b :: inside') y :=
      fun x y hxy => ih (.cons hab hinside) hxy
    have hcontains := h.contains_eq hinside hab
    rw [shownFrom, shownFrom]
    have hcell := h.cell hab
    revert hcontains
    generalize g.cell a = c at hcell
    generalize g'.cell b = c' at hcell
    intro hcontains
    cases hcell with
    | leaf v => rfl
    | list hparts =>
      simp only [hcontains rfl, Outcome.mapM_eq_of_forall₂ hpart hparts]
    | tuple hparts =>
      simp only [hcontains rfl, Outcome.mapM_eq_of_forall₂ hpart hparts]
    | dict hentries =>
      have hitem : ∀ x y : Nat × Nat, R x.1 y.1 ∧ R x.2 y.2 →
          (do return (← g.shownFrom depth (a :: inside) x.1) ++ ": " ++
              (← g.shownFrom depth (a :: inside) x.2) : Except Failure Text) =
            (do return (← g'.shownFrom depth (b :: inside') y.1) ++ ": " ++
              (← g'.shownFrom depth (b :: inside') y.2)) := by
        rintro x y ⟨hkey, hvalue⟩
        rw [hpart _ _ hkey, hpart _ _ hvalue]
      simp only [hcontains rfl, Outcome.mapM_eq_of_forall₂ hitem hentries]

end Matching

end Graph

/-! ## 3. Values that are the same -/

namespace Ref

/-- **Two values are the same**: their places match. -/
def Same (r r' : Ref) : Prop := ∃ R, Graph.Matching r.graph r'.graph R ∧ R r.place r'.place

namespace Same

theorem refl (r : Ref) : Same r r := ⟨Eq, .refl r.graph, rfl⟩

variable {r r' : Ref} (h : Same r r')
include h

/-- The cells of both, for proofs by cases on them. -/
theorem cells : ∃ R c c', Graph.Matching r.graph r'.graph R ∧ r.cell = c ∧ r'.cell = c' ∧
    Cell.Matches R c c' := by
  obtain ⟨R, hR, hplace⟩ := h
  exact ⟨R, _, _, hR, rfl, rfl, hR.cell hplace⟩

theorem kind_eq : r.kind = r'.kind := by
  obtain ⟨R, c, c', -, hr, hr', hcell⟩ := h.cells
  rw [kind, kind, hr, hr']
  cases hcell <;> rfl

theorem shortKind_eq : r.shortKind = r'.shortKind := by
  have hkind := h.kind_eq
  obtain ⟨R, c, c', -, hr, hr', hcell⟩ := h.cells
  rw [shortKind, shortKind, hr, hr', hkind]
  cases hcell <;> rfl

theorem isPresent_eq : r.isPresent = r'.isPresent := by
  obtain ⟨R, c, c', -, hr, hr', hcell⟩ := h.cells
  rw [isPresent, isPresent, hr, hr']
  cases hcell with
  | leaf v => rfl
  | list hparts => cases hparts <;> rfl
  | tuple hparts => cases hparts <;> rfl
  | dict hentries => cases hentries <;> rfl

theorem isDict_eq : r.isDict = r'.isDict := by
  obtain ⟨R, c, c', -, hr, hr', hcell⟩ := h.cells
  rw [isDict, isDict, hr, hr']
  cases hcell <;> rfl

theorem shown_eq : r.shown = r'.shown := by
  obtain ⟨R, hR, hplace⟩ := h
  exact hR.shownFrom_eq Graph.maxShown .nil hplace

theorem toText_eq : r.toText = r'.toText := by
  have hshown := h.shown_eq
  obtain ⟨R, c, c', -, hr, hr', hcell⟩ := h.cells
  rw [toText, toText, hr, hr', hshown]
  cases hcell <;> rfl

theorem toInteger_eq : r.toInteger = r'.toInteger := by
  have hkind := h.kind_eq
  obtain ⟨R, c, c', -, hr, hr', hcell⟩ := h.cells
  rw [toInteger, toInteger, hr, hr', hkind]
  cases hcell <;> rfl

theorem toReal_eq : r.toReal = r'.toReal := by
  have hkind := h.kind_eq
  obtain ⟨R, c, c', -, hr, hr', hcell⟩ := h.cells
  rw [toReal, toReal, hr, hr', hkind]
  cases hcell <;> rfl

/-- Under a name both have the same value, or none. -/
theorem field? (name : Text) : Option.Rel Same (r.field? name) (r'.field? name) := by
  obtain ⟨R, c, c', hR, hr, hr', hcell⟩ := h.cells
  rw [Ref.field?, Ref.field?, hr, hr']
  cases hcell with
  | leaf v =>
    cases v with
    | dict items =>
      dsimp only
      cases Value.field? name items with
      | none => exact .none
      | some v => exact .some (.refl _)
    | _ => exact .none
  | list hparts => exact .none
  | tuple hparts => exact .none
  | dict hentries =>
    dsimp only
    clear hr hr'
    induction hentries with
    | nil => exact .none
    | @cons x y _ _ hxy _ ih =>
      rw [List.find?_cons, List.find?_cons, hR.leaf?_eq hxy.1]
      split
      · exact .some ⟨R, hR, hxy.2⟩
      · exact ih

/-- The elements of a list are the same one by one. -/
theorem elements? : Option.Rel (List.Forall₂ Same) r.elements? r'.elements? := by
  obtain ⟨R, c, c', hR, hr, hr', hcell⟩ := h.cells
  rw [Ref.elements?, Ref.elements?, hr, hr']
  cases hcell with
  | leaf v =>
    cases v with
    | list vs => exact .some (List.forall₂_same.mpr fun part _ => .refl part)
    | _ => exact .none
  | list hparts =>
    refine .some (List.forall₂_map_left_iff.mpr (List.forall₂_map_right_iff.mpr ?_))
    exact hparts.imp fun a b hab => ⟨R, hR, hab⟩
  | tuple hparts => exact .none
  | dict hentries => exact .none

end Same

end Ref

/-! ## 4. Targets -/

namespace Target

variable {r r' : Ref} (h : Ref.Same r r')
include h

theorem entry_eq_of_same (name : Text) : entry name r = entry name r' := by
  rw [entry, entry]
  rcases rel_cases (h.field? name) with ⟨hv, hv'⟩ | ⟨v, v', hv, hv', hsame⟩
  · rw [hv, hv']
  · simp only [hv, hv', hsame.isPresent_eq, hsame.toText_eq]

theorem nameOr_eq_of_same (id : Text) : nameOr id r = nameOr id r' := by
  rw [nameOr, nameOr]
  rcases rel_cases (h.field? "name") with ⟨hv, hv'⟩ | ⟨v, v', hv, hv', hsame⟩
  · rw [hv, hv']
  · simp only [hv, hv', hsame.isPresent_eq, hsame.toText_eq]

theorem portOr_eq_of_same (standard : Int) : portOr standard r = portOr standard r' := by
  rw [portOr, portOr]
  rcases rel_cases (h.field? "port") with ⟨hv, hv'⟩ | ⟨v, v', hv, hv', hsame⟩
  · rw [hv, hv']
  · simp only [hv, hv', hsame.toInteger_eq]

/-- Entries that are the same describe the same target. -/
theorem ofRef_eq_of_same : ofRef r = ofRef r' := by
  simp only [ofRef, h.isDict_eq, h.kind_eq, entry_eq_of_same h, nameOr_eq_of_same h,
    portOr_eq_of_same h]

end Target

end Keyscope
