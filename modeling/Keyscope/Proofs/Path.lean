/-
# Normal paths

A path that is built from parts has these parts (`parts_build`), and it starts as it was built
(`root_build`).  So a normal path is its own normal form (`normal_normal`), and whatever a home is put
into is normal (`normal_of_expandHome`).  A home that does not start at the root could be one that
starts with `~` itself; if all of them start at the root, a path that was expanded stays
(`expandsOnce_of_absolute`).
-/
import Mathlib.Data.List.DropRight
import Keyscope.Proofs.Outcome
import Keyscope.Path

namespace Keyscope

/-! ## 1. Splitting and joining -/

namespace Text

variable {c d : CodePoint} {p t : Text}

theorem splitAll_ne_nil (c : CodePoint) (t : Text) : splitAll c t ≠ [] := by
  cases t with
  | nil => simp [splitAll]
  | cons d t =>
    rw [splitAll]
    split
    · simp
    · split <;> simp

theorem splitAll_cons_self (c : CodePoint) (t : Text) : splitAll c (c :: t) = [] :: splitAll c t := by
  rw [splitAll]
  split
  · rename_i hnil
    exact absurd hnil (splitAll_ne_nil c t)
  · rename_i hparts
    rw [if_pos rfl, hparts]

/-- A code point that does not separate belongs to the first part. -/
theorem exists_splitAll_cons (h : d ≠ c) (t : Text) :
    ∃ part parts, splitAll c t = part :: parts ∧ splitAll c (d :: t) = (d :: part) :: parts := by
  cases hparts : splitAll c t with
  | nil => exact absurd hparts (splitAll_ne_nil c t)
  | cons part parts =>
    refine ⟨part, parts, rfl, ?_⟩
    rw [splitAll, hparts]
    exact if_neg h

theorem not_mem_of_mem_splitAll (hp : p ∈ splitAll c t) : c ∉ p := by
  induction t generalizing p with
  | nil =>
    rw [splitAll, List.mem_singleton] at hp
    simp [hp]
  | cons d t ih =>
    by_cases hd : d = c
    · subst hd
      rw [splitAll_cons_self, List.mem_cons] at hp
      rcases hp with rfl | hp
      · exact List.not_mem_nil
      · exact ih hp
    · obtain ⟨part, parts, hparts, hcons⟩ := exists_splitAll_cons hd t
      rw [hcons, List.mem_cons] at hp
      rcases hp with rfl | hp
      · rw [List.mem_cons, not_or]
        exact ⟨Ne.symm hd, ih (hparts ▸ List.mem_cons_self)⟩
      · exact ih (hparts ▸ List.mem_cons_of_mem _ hp)

/-- A part that is in front of everything that is split. -/
theorem splitAll_append (h : c ∉ p) (t : Text) : splitAll c (p ++ c :: t) = p :: splitAll c t := by
  induction p with
  | nil => exact splitAll_cons_self c t
  | cons d p ih =>
    rw [List.mem_cons, not_or] at h
    obtain ⟨part, parts, hparts, hcons⟩ := exists_splitAll_cons (Ne.symm h.1) (p ++ c :: t)
    rw [ih h.2] at hparts
    obtain ⟨rfl, rfl⟩ := List.cons.inj hparts
    exact hcons

theorem splitAll_of_not_mem (h : c ∉ p) : splitAll c p = [p] := by
  induction p with
  | nil => rfl
  | cons d p ih =>
    rw [List.mem_cons, not_or] at h
    obtain ⟨part, parts, hparts, hcons⟩ := exists_splitAll_cons (Ne.symm h.1) p
    rw [ih h.2] at hparts
    obtain ⟨rfl, rfl⟩ := List.cons.inj hparts
    exact hcons

/-- What was joined is split again. -/
theorem splitAll_joinWith : ∀ {ps : List Text}, ps ≠ [] → (∀ p ∈ ps, c ∉ p) →
    splitAll c (joinWith [c] ps) = ps
  | [], h, _ => absurd rfl h
  | [p], _, h => splitAll_of_not_mem (h p List.mem_cons_self)
  | p :: q :: ps, _, h => by
    have ih := splitAll_joinWith (List.cons_ne_nil q ps) fun r hr => h r (List.mem_cons_of_mem _ hr)
    rw [joinWith, List.append_assoc, List.singleton_append,
      splitAll_append (h p List.mem_cons_self), ih]

/-- Without its last part a joined text is the start of the whole one. -/
theorem joinWith_dropLast_prefix (separator : Text) : ∀ ps : List Text,
    joinWith separator ps.dropLast <+: joinWith separator ps
  | [] => List.prefix_rfl
  | [p] => List.nil_prefix
  | [p, q] => by
    rw [joinWith, List.append_assoc]
    exact List.prefix_append p _
  | p :: q :: r :: ps => by
    have ih := joinWith_dropLast_prefix separator (q :: r :: ps)
    rw [List.dropLast_cons_cons] at ih ⊢
    rw [List.dropLast_cons_cons, joinWith, joinWith]
    exact (List.prefix_append_right_inj _).mpr ih

end Text

namespace Path

/-! ## 2. Parts -/

/-- What can be a part of a path. -/
structure IsPart (p : Text) : Prop where
  ne_nil : p ≠ []
  ne_dot : p ≠ "."
  no_slash : ('/' : CodePoint) ∉ p

variable {p t u : Text} {ps : List Text}

theorem isPart_of_mem_parts (h : p ∈ parts t) : IsPart p := by
  obtain ⟨hsplit, hp⟩ := List.mem_filter.mp h
  simp only [decide_eq_true_eq] at hp
  exact ⟨hp.1, hp.2, Text.not_mem_of_mem_splitAll hsplit⟩

/-- A slash at the front adds no part. -/
theorem parts_slash (t : Text) : parts (('/' : CodePoint) :: t) = parts t := by
  rw [parts, Text.splitAll_cons_self]
  rfl

theorem parts_joinWith (h : ∀ p ∈ ps, IsPart p) : parts (Text.joinWith "/" ps) = ps := by
  cases ps with
  | nil => rfl
  | cons p ps =>
    have hsplit : Text.splitAll '/' (Text.joinWith "/" (p :: ps)) = p :: ps :=
      Text.splitAll_joinWith (List.cons_ne_nil p ps) fun q hq => (h q hq).no_slash
    rw [parts, hsplit, List.filter_eq_self]
    intro q hq
    simp [(h q hq).ne_nil, (h q hq).ne_dot]

/-- Parts that are joined start with no slash. -/
theorem takeWhile_joinWith (h : ∀ p ∈ ps, IsPart p) :
    (Text.joinWith "/" ps).takeWhile (fun c => c = ('/' : CodePoint)) = [] := by
  rcases ps with _ | ⟨p, _ | ⟨q, ps⟩⟩
  · rfl
  all_goals
    have hp := h p List.mem_cons_self
    obtain ⟨c, p, rfl⟩ := List.exists_cons_of_ne_nil hp.ne_nil
    have hc : c ≠ ('/' : CodePoint) := fun hc => hp.no_slash (hc ▸ List.mem_cons_self)
    simp [Text.joinWith, hc]

theorem joinWith_eq_nil (h : ∀ p ∈ ps, IsPart p) (hnil : Text.joinWith "/" ps = []) : ps = [] := by
  have hparts := parts_joinWith h
  rw [hnil] at hparts
  exact hparts.symm

/-! ## 3. Building paths -/

/-- There are three ways to start. -/
theorem root_cases (t : Text) : root t = [] ∨ root t = "/" ∨ root t = "//" := by
  unfold root
  split
  · exact .inl rfl
  · exact .inr (.inr rfl)
  · exact .inr (.inl rfl)

theorem parts_build (h : ∀ p ∈ ps, IsPart p) (t : Text) : parts (build (root t) ps) = ps := by
  unfold build
  rcases root_cases t with hroot | hroot | hroot <;> rw [hroot]
  · dsimp only
    split
    · rename_i hnil
      rw [joinWith_eq_nil h (List.isEmpty_iff.mp hnil)]
      rfl
    · exact parts_joinWith h
  · exact (parts_slash _).trans (parts_joinWith h)
  · exact (parts_slash _).trans ((parts_slash _).trans (parts_joinWith h))

theorem root_build (h : ∀ p ∈ ps, IsPart p) (t : Text) : root (build (root t) ps) = root t := by
  have hjoin := takeWhile_joinWith h
  unfold build
  rcases root_cases t with hroot | hroot | hroot <;> rw [hroot]
  · dsimp only
    split
    · rfl
    · simp [root, hjoin]
  · change root (('/' : CodePoint) :: Text.joinWith "/" ps) = _
    rw [root, List.takeWhile_cons_of_pos (by simp), hjoin]
    rfl
  · change root (('/' : CodePoint) :: ('/' : CodePoint) :: Text.joinWith "/" ps) = _
    rw [root, List.takeWhile_cons_of_pos (by simp), List.takeWhile_cons_of_pos (by simp), hjoin]
    rfl

/-- **A path that was built is normal.** -/
theorem normal_build (h : ∀ p ∈ ps, IsPart p) (t : Text) :
    normal (build (root t) ps) = build (root t) ps := by
  rw [normal, root_build h, parts_build h]

theorem normal_normal (t : Text) : normal (normal t) = normal t :=
  normal_build (fun _ => isPart_of_mem_parts) t

/-- Without its last part a normal path is the start of the whole one, or the present directory. -/
theorem parent_prefix (h : normal t = t) : parent t = "." ∨ parent t <+: t := by
  have hstart : root t ++ Text.joinWith "/" (parts t).dropLast <+: root t ++ Text.joinWith "/" (parts t) :=
    (List.prefix_append_right_inj _).mpr (Text.joinWith_dropLast_prefix "/" (parts t))
  unfold parent build
  dsimp only
  split
  · exact .inl rfl
  · rename_i hparent
    refine .inr ?_
    have ht : root t ++ Text.joinWith "/" (parts t) = t := by
      conv_rhs => rw [← h]
      unfold normal build
      dsimp only
      rw [if_neg]
      intro hnil
      rw [List.isEmpty_iff.mp hnil] at hstart
      exact hparent (List.isEmpty_iff.mpr (List.prefix_nil.mp hstart))
    rwa [ht] at hstart

theorem parts_parent (t : Text) : parts (parent t) = (parts t).dropLast :=
  parts_build (fun _ hp => isPart_of_mem_parts ((List.dropLast_sublist _).subset hp)) t

/-! ## 4. Homes -/

variable {homeOf : Text → Option Text}

/-- Whether a path starts in somebody's home. -/
def InHome (t : Text) : Prop :=
  root t = [] ∧ ∃ first rest, parts t = first :: rest ∧ first.startsWith "~" = true

theorem expandHome_of_not_inHome (h : ¬ InHome t) (homeOf : Text → Option Text) :
    expandHome homeOf t = .ok (normal t) := by
  unfold expandHome
  split
  · rename_i first rest hparts
    exact if_neg fun hhome => h ⟨hhome.1, first, rest, hparts, hhome.2⟩
  · rfl

/-- What a path is expanded to: its normal form, or parts below a home. -/
theorem expandHome_cases (h : expandHome homeOf t = .ok p) : p = normal t ∧ ¬ InHome t ∨
    ∃ user home ps, Path.home homeOf user = .ok home ∧ (∀ q ∈ ps, IsPart q) ∧ p = build (root home) ps := by
  by_cases hhome : InHome t
  · obtain ⟨hroot, first, rest, hparts, hfirst⟩ := hhome
    unfold expandHome at h
    rw [hparts] at h
    dsimp only at h
    rw [if_pos ⟨hroot, hfirst⟩] at h
    obtain ⟨home, hhome, h⟩ := Outcome.exists_of_bind h
    refine .inr ⟨_, home, parts home ++ rest, hhome, fun q hq => ?_, (Except.ok.inj h).symm⟩
    rcases List.mem_append.mp hq with hq | hq
    · exact isPart_of_mem_parts hq
    · exact isPart_of_mem_parts (hparts ▸ List.mem_cons_of_mem _ hq)
  · rw [expandHome_of_not_inHome hhome] at h
    exact .inl ⟨(Except.ok.inj h).symm, hhome⟩

/-- **An expanded path is normal.** -/
theorem normal_of_expandHome (h : expandHome homeOf t = .ok p) : normal p = p := by
  rcases expandHome_cases h with ⟨rfl, -⟩ | ⟨user, home, ps, -, hps, rfl⟩
  · exact normal_normal t
  · exact normal_build hps home

/-- An expanded path is not empty: where nothing else is left of it, it is the present directory. -/
theorem expandHome_ne_nil (h : expandHome homeOf t = .ok p) : p ≠ [] := by
  rw [← normal_of_expandHome h, normal, build]
  split
  · decide
  · rename_i hempty
    exact fun hnil => hempty (List.isEmpty_iff.mpr hnil)

/-- A path that was expanded stays. -/
def ExpandsOnce (homeOf : Text → Option Text) : Prop :=
  ∀ t p, expandHome homeOf t = .ok p → expandHome homeOf p = .ok p

theorem root_slash_ne_nil (t : Text) : root (('/' : CodePoint) :: t) ≠ [] := by
  rw [root, List.takeWhile_cons_of_pos (by simp), List.length_cons]
  split
  · omega
  · decide
  · decide

/-- Slashes at the end of a home do not change where it starts. -/
theorem root_trimmed_ne_nil (t : Text) : root (trimmed (('/' : CodePoint) :: t)) ≠ [] := by
  unfold trimmed
  dsimp only
  split
  · exact root_slash_ne_nil []
  · rename_i hnil
    have hstart : List.rdropWhile (fun c => decide (c = ('/' : CodePoint))) (('/' : CodePoint) :: t) <+:
        ('/' : CodePoint) :: t := List.rdropWhile_prefix _ _
    rcases List.prefix_cons_iff.mp hstart with hempty | ⟨rest, hrest, -⟩
    · exact absurd (List.isEmpty_iff.mpr hempty) hnil
    · rw [List.rdropWhile] at hrest
      rw [hrest]
      exact root_slash_ne_nil rest

theorem root_home_ne_nil (habsolute : ∀ user home, homeOf user = some home → home.startsWith "/" = true)
    {user home : Text} (h : Path.home homeOf user = .ok home) : root home ≠ [] := by
  unfold Path.home at h
  dsimp only at h
  split at h
  · cases h
  split at h
  · cases h
  split at h
  · cases h
  · rename_i whole hwhole
    split at h
    · cases h
    · obtain ⟨rest, hrest⟩ := List.isPrefixOf_iff_prefix.mp (habsolute user whole hwhole)
      obtain rfl := Except.ok.inj h
      rw [← hrest]
      exact root_trimmed_ne_nil rest

/-- **Paths expand once** where all homes start at the root. -/
theorem expandsOnce_of_absolute
    (habsolute : ∀ user home, homeOf user = some home → home.startsWith "/" = true) :
    ExpandsOnce homeOf := by
  intro t p h
  rcases expandHome_cases h with ⟨rfl, hhome⟩ | ⟨user, home, ps, hhome, hps, rfl⟩
  · have hstays : ¬ InHome (normal t) := by
      rintro ⟨hroot, first, rest, hparts, hfirst⟩
      rw [normal, root_build fun _ => isPart_of_mem_parts] at hroot
      rw [normal, parts_build fun _ => isPart_of_mem_parts] at hparts
      exact hhome ⟨hroot, first, rest, hparts, hfirst⟩
    rw [expandHome_of_not_inHome hstays, normal_normal]
  · have hstays : ¬ InHome (build (root home) ps) := by
      rintro ⟨hroot, -⟩
      rw [root_build hps] at hroot
      exact root_home_ne_nil habsolute hhome hroot
    rw [expandHome_of_not_inHome hstays, normal_build hps]

end Path

end Keyscope
