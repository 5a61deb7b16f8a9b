/-
# Files that are written and read again

A path is followed through directories only, and writing changes what is at one place that is none
(`follow_set`).  So a file that was written is where it was written, with what was written in it
(`lookup_write`).

Whatever a file is in is a directory (`lookup_parent`), so what was read can be written again without
making directories (`exists_write`, `ensureDirectories_eq_self`).  A text of ASCII comes back as it was
written (`readText_eq`).
-/
import Mathlib.Data.List.Infix
import Keyscope.Proofs.Outcome
import Keyscope.Proofs.Path
import Keyscope.Proofs.Text.Codec
import Keyscope.Disk

namespace Keyscope

/-! ## 1. Texts -/

theorem Utf8.strictFrom_char (t : Text) (position : Nat) : strictFrom position (t.map .char) = .ok t := by
  induction t generalizing position with
  | nil => rfl
  | cons c t ih =>
    rw [List.map_cons, strictFrom, ih]
    rfl

/-- A text without surrogates is decoded as it was encoded. -/
theorem Utf8.decodeStrict_encoded {t : Text} (h : ∀ c ∈ t, c.isSurrogate = false) :
    decodeStrict (t.flatMap encodePoint) = .ok t := by
  have hpieces := pieces_encode h []
  rw [List.append_nil, show pieces [] = [] from rfl, List.append_nil] at hpieces
  rw [decodeStrict, hpieces, strictFrom_char]

/-- Without carriage returns there is only one kind of line end. -/
theorem Text.universalNewlines_eq : ∀ {t : Text}, (∀ c ∈ t, c.val ≠ 13) → t.universalNewlines = t
  | [], _ => rfl
  | c :: t, h => by
    rw [universalNewlines.eq_def]
    dsimp only
    rw [if_neg (h c List.mem_cons_self),
      universalNewlines_eq fun d hd => h d (List.mem_cons_of_mem _ hd)]

namespace Disk

variable {d d' : Disk} {place mid : List Text} {entry : DiskEntry} {path : Text} {bytes old : Bytes}

/-! ## 2. Places -/

theorem entryAt_set_self (hplace : place ≠ []) : (d.set place entry).entryAt place = some entry := by
  have hnone : (d.entries.filter (·.1 ≠ place)).find? (·.1 = place) = none := by
    rw [List.find?_eq_none]
    intro e he
    simpa using (List.mem_filter.mp he).2
  rw [entryAt, if_neg (by simpa using hplace), set, List.find?_append, hnone]
  simp

theorem entryAt_set_ne {other : List Text} (h : other ≠ place) :
    (d.set place entry).entryAt other = d.entryAt other := by
  have hfilter : (d.entries.filter (·.1 ≠ place)).find? (·.1 = other) = d.entries.find? (·.1 = other) := by
    rw [List.find?_filter]
    congr 1
    funext e
    by_cases he : e.1 = other <;> simp [he, h]
  simp only [entryAt, set, List.find?_append, hfilter]
  simp [h.symm]

/-- The induction is on the parts of the path.  Whatever it goes through is a directory, so it is not
the place that is set. -/
theorem follow_set (hplace : d.entryAt place ≠ some .directory) :
    ∀ {parts : List Text} {from' : List Text}, d.follow from' parts = .ok place →
      (d.set place entry).follow from' parts = .ok place
  | [], _, h => h
  | part :: parts, from', h => by
    rw [follow] at h ⊢
    cases hentry : d.entryAt from' with
    | none =>
      rw [hentry] at h
      cases h
    | some e =>
      cases e with
      | file bytes =>
        rw [hentry] at h
        cases h
      | directory =>
        have hne : from' ≠ place := by
          rintro rfl
          exact hplace hentry
        rw [entryAt_set_ne hne, hentry]
        rw [hentry] at h
        dsimp only at h ⊢
        split at h
        · rename_i hup
          rw [if_pos hup]
          exact follow_set hplace h
        · rename_i hup
          split at h
          · cases h
          · rename_i hlong
            rw [if_neg hup, if_neg hlong]
            exact follow_set hplace h

/-- The last part of a path is in a directory. -/
theorem exists_follow_append : ∀ {parts : List Text} {from' : List Text} {last : Text},
    d.follow from' (parts ++ [last]) = .ok place →
      ∃ mid, d.follow from' parts = .ok mid ∧ d.entryAt mid = some .directory
  | [], from', last, h => by
    refine ⟨from', rfl, ?_⟩
    rw [List.nil_append, follow] at h
    split at h
    · assumption
    · cases h
    · cases h
  | part :: parts, from', last, h => by
    rw [List.cons_append, follow] at h
    split at h
    · rename_i hentry
      rw [follow, hentry]
      dsimp only
      split at h
      · rename_i hup
        rw [if_pos hup]
        exact exists_follow_append h
      · rename_i hup
        split at h
        · cases h
        · rename_i hlong
          rw [if_neg hup, if_neg hlong]
          exact exists_follow_append h
    · cases h
    · cases h

/-! ## 3. Paths -/

/-- A path that can be handed to the system. -/
structure Spellable (path : Text) : Prop where
  no_nul : CodePoint.nul ∉ path
  no_stray : ∀ c ∈ path, ¬ Utf8.IsStray c
  short : (path.flatMap Utf8.pointBytes).length ≤ longestPath

theorem placeOf_eq_ok :
    d.placeOf path = .ok place ↔ Spellable path ∧ d.follow [] (Path.parts path) = .ok place := by
  unfold placeOf
  dsimp only
  cases hnul : path.contains CodePoint.nul with
  | true =>
    refine ⟨fun h => ?_, fun h => absurd (List.contains_iff_mem.mp hnul) h.1.no_nul⟩
    cases h
  | false =>
    have hno_nul : CodePoint.nul ∉ path := fun hmem => by
      rw [List.contains_iff_mem.mpr hmem] at hnul
      cases hnul
    rw [if_neg Bool.false_ne_true]
    rcases Utf8.encodeFrom_cases path 0 with ⟨⟨c, hc, hstray⟩, e, he⟩ | ⟨hstray, hbytes⟩
    · rw [Utf8.encodeEscaped, he]
      refine ⟨fun h => ?_, fun h => absurd hstray (h.1.no_stray c hc)⟩
      cases h
    · rw [Utf8.encodeEscaped, hbytes]
      simp only [pure_bind]
      split
      · rename_i hlong
        refine ⟨fun h => ?_, fun h => absurd h.1.short (Nat.not_le.mpr hlong)⟩
        cases h
      · rename_i hshort
        have hspellable : Spellable path := ⟨hno_nul, hstray, Nat.not_lt.mp hshort⟩
        cases d.follow [] (Path.parts path) with
        | error e =>
          refine ⟨fun h => ?_, fun h => ?_⟩
          · cases h
          · cases h.2
        | ok found =>
          refine ⟨fun h => ⟨hspellable, ?_⟩, fun h => ?_⟩
          · rw [Except.ok.inj h]
          · rw [Except.ok.inj h.2]
            rfl

theorem Spellable.of_prefix {start : Text} (h : Spellable path) (hstart : start <+: path) :
    Spellable start where
  no_nul hmem := h.no_nul (hstart.subset hmem)
  no_stray c hc := h.no_stray c (hstart.subset hc)
  short := by
    obtain ⟨rest, rfl⟩ := hstart
    have hshort := h.short
    rw [List.flatMap_append, List.length_append] at hshort
    omega

theorem spellable_here : Spellable "." where
  no_nul := by decide
  no_stray := by
    intro c hc
    obtain rfl := List.mem_singleton.mp hc
    exact fun h => absurd h.1 (by decide)
  short := by decide

theorem lookup_eq_ok :
    d.lookup path = .ok entry ↔ ∃ place, d.placeOf path = .ok place ∧ d.entryAt place = some entry := by
  unfold lookup
  constructor
  · intro h
    obtain ⟨place, hplace, h⟩ := Outcome.exists_of_bind h
    refine ⟨place, hplace, ?_⟩
    split at h
    · rename_i hentry
      rw [hentry, Except.ok.inj h]
    · cases h
  · rintro ⟨place, hplace, hentry⟩
    rw [hplace, Outcome.ok_bind, hentry]
    rfl

theorem read_eq_ok : d.read path = .ok bytes ↔ d.lookup path = .ok (.file bytes) := by
  unfold read
  constructor
  · intro h
    obtain ⟨entry, hentry, h⟩ := Outcome.exists_of_bind h
    cases entry with
    | directory => cases h
    | file found => rw [hentry, Except.ok.inj h]
  · intro h
    rw [h]
    rfl

/-! ## 4. Writing -/

theorem exists_of_write (h : d.write path bytes = .ok d') :
    ∃ place, d.placeOf path = .ok place ∧ d.entryAt place ≠ some .directory ∧
      d' = d.set place (.file bytes) := by
  unfold write at h
  obtain ⟨place, hplace, h⟩ := Outcome.exists_of_bind h
  refine ⟨place, hplace, ?_⟩
  cases hentry : d.entryAt place with
  | some entry =>
    rw [hentry] at h
    cases entry with
    | directory => cases h
    | file found => exact ⟨by simp, (Except.ok.inj h).symm⟩
  | none =>
    rw [hentry] at h
    cases hin : d.entryAt place.dropLast with
    | none =>
      rw [hin] at h
      cases h
    | some entry =>
      rw [hin] at h
      cases entry with
      | file found => cases h
      | directory => exact ⟨by simp, (Except.ok.inj h).symm⟩

/-- **What was written is there.** -/
theorem lookup_write (h : d.write path bytes = .ok d') : d'.lookup path = .ok (.file bytes) := by
  obtain ⟨place, hplace, hentry, rfl⟩ := exists_of_write h
  obtain ⟨hspellable, hfollow⟩ := placeOf_eq_ok.mp hplace
  have hroot : place ≠ [] := by
    rintro rfl
    exact hentry rfl
  exact lookup_eq_ok.mpr ⟨place, placeOf_eq_ok.mpr ⟨hspellable, follow_set hentry hfollow⟩,
    entryAt_set_self hroot⟩

/-- A file can be written again. -/
theorem exists_write (h : d.lookup path = .ok (.file old)) (bytes : Bytes) :
    ∃ d', d.write path bytes = .ok d' := by
  obtain ⟨place, hplace, hentry⟩ := lookup_eq_ok.mp h
  refine ⟨d.set place (.file bytes), ?_⟩
  rw [write, hplace, Outcome.ok_bind, hentry]
  rfl

/-! ## 5. Directories -/

/-- **What a file is in is a directory.** -/
theorem lookup_parent (hnormal : Path.normal path = path) (h : d.lookup path = .ok (.file bytes)) :
    d.lookup (Path.parent path) = .ok .directory := by
  obtain ⟨place, hplace, hentry⟩ := lookup_eq_ok.mp h
  obtain ⟨hspellable, hfollow⟩ := placeOf_eq_ok.mp hplace
  have hspellable' : Spellable (Path.parent path) := by
    rcases Path.parent_prefix hnormal with hhere | hstart
    · rw [hhere]
      exact spellable_here
    · exact hspellable.of_prefix hstart
  have hparts : Path.parts path ≠ [] := by
    intro hnil
    rw [hnil] at hfollow
    obtain rfl := Except.ok.inj hfollow
    cases hentry
  rw [← List.dropLast_append_getLast hparts] at hfollow
  obtain ⟨mid, hmid, hdirectory⟩ := exists_follow_append hfollow
  rw [← Path.parts_parent] at hmid
  exact lookup_eq_ok.mpr ⟨mid, placeOf_eq_ok.mpr ⟨hspellable', hmid⟩, hdirectory⟩

/-- A directory that is there need not be made. -/
theorem ensureDirectories_eq_self (h : d.lookup path = .ok .directory) (steps : Nat) :
    d.ensureDirectories steps path = .ok d := by
  obtain ⟨place, hplace, hentry⟩ := lookup_eq_ok.mp h
  have hmake : d.makeDirectory path = .error (.fileExists path) := by
    rw [makeDirectory, hplace, Outcome.ok_bind, hentry]
    rfl
  have hensure : d.ensureDirectory path = .ok d := by
    rw [ensureDirectory, hmake]
    dsimp only
    rw [h]
  cases steps with
  | zero => exact hensure
  | succ steps => rw [ensureDirectories, hensure]

/-- The text of a file that was written, if it has no surrogates and no carriage returns. -/
theorem readText_eq {t : Text} (ht : ∀ c ∈ t, c.isSurrogate = false ∧ c.val ≠ 13)
    (h : d.lookup path = .ok (.file (t.flatMap Utf8.encodePoint))) : d.readText path = .ok t := by
  rw [readText, read_eq_ok.mpr h, Outcome.ok_bind, Utf8.decodeStrict_encoded fun c hc => (ht c hc).1]
  exact congrArg Except.ok (Text.universalNewlines_eq fun c hc => (ht c hc).2)

theorem exists?_of_lookup (h : d.lookup path = .ok entry) : d.exists? path = .ok true := by
  rw [exists?, h]

end Disk

end Keyscope
