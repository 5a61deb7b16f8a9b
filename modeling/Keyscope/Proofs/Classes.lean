/-
# Lists by classes

The members of a list fall into classes.  Two things come from that: the classes in the order in which
they come up, each of them once, and the members of a list sorted into their classes, of which none is
lost (`flatMap_filter_perm`).  Where each class is there once, what is listed for it is what is found
(`lookup_of_mem`).
-/
import Mathlib.Data.List.Basic

namespace Keyscope

variable {α κ : Type}

/-! ## 1. Classes in order of first appearance -/

section Names

variable [BEq κ] [LawfulBEq κ]

/-- Each class is there once. -/
theorem nodup_eraseDups (ks : List κ) : ks.eraseDups.Nodup := by
  cases ks with
  | nil => exact List.nodup_nil
  | cons k ks =>
    rw [List.eraseDups_cons, List.nodup_cons]
    refine ⟨?_, nodup_eraseDups _⟩
    simp [List.mem_eraseDups]
termination_by ks.length
decreasing_by
  have := List.length_filter_le (fun k' => !k' == k) ks
  simp only [List.length_cons]
  omega

/-- One more member adds its class at the end, unless the class has come up before. -/
theorem eraseDups_concat (ks : List κ) (k : κ) :
    (ks ++ [k]).eraseDups = if k ∈ ks then ks.eraseDups else ks.eraseDups ++ [k] := by
  rw [List.eraseDups_append, List.cons_removeAll]
  by_cases h : k ∈ ks <;> simp [h, List.removeAll, List.eraseDups_cons]

/-- What is listed under a name is found there, if each name is listed once. -/
theorem lookup_of_mem : ∀ {l : List (κ × α)} {p : κ × α}, (l.map (·.1)).Nodup → p ∈ l →
    l.lookup p.1 = some p.2
  | (k, a) :: l, p, hl, hp => by
    rw [List.map_cons, List.nodup_cons] at hl
    rcases List.mem_cons.mp hp with rfl | hp
    · exact List.lookup_cons_self
    · have hmem : p.1 ∈ l.map (·.1) := List.mem_map_of_mem hp
      have hne : (p.1 == k) = false := by
        rw [beq_eq_false_iff_ne]
        intro hk
        exact hl.1 (hk ▸ hmem)
      rw [List.lookup_cons, hne]
      exact lookup_of_mem hl.2 hp

end Names

/-! ## 2. Members by class -/

/-- The members of a list, class by class, are the members of the list. -/
theorem flatMap_filter_perm [DecidableEq κ] (c : α → κ) : ∀ {ks : List κ} {l : List α},
    ks.Nodup → (∀ x ∈ l, c x ∈ ks) → (ks.flatMap fun k => l.filter fun x => c x = k).Perm l
  | [], l, _, h => by
    obtain rfl : l = [] := List.eq_nil_iff_forall_not_mem.mpr fun x hx => by simpa using h x hx
    rfl
  | k :: ks, l, hks, h => by
    rw [List.nodup_cons] at hks
    have hrest : ∀ k' ∈ ks, (l.filter fun x => c x = k') =
        (l.filter fun x => !decide (c x = k)).filter fun x => c x = k' := by
      intro k' hk'
      rw [List.filter_filter]
      refine List.filter_congr fun x _ => ?_
      have hne : k' ≠ k := fun hsame => hks.1 (hsame ▸ hk')
      by_cases hx : c x = k' <;> simp [hx, hne]
    have hmem : ∀ x ∈ l.filter (fun x => !decide (c x = k)), c x ∈ ks := by
      intro x hx
      rw [List.mem_filter] at hx
      have hne : c x ≠ k := by simpa using hx.2
      exact (List.mem_cons.mp (h x hx.1)).resolve_left hne
    rw [List.flatMap_cons, List.flatMap_congr hrest]
    exact ((flatMap_filter_perm c hks.2 hmem).append_left _).trans (List.filter_append_perm _ l)

end Keyscope
