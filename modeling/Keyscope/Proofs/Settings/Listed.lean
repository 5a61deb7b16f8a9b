/-
# Targets that a file lists

What an entry says of a target may be of any kind: a number for a host, a text for a port, anything
that counts as present for a name.  The target that it describes is tidy all the same (`Tidy`), for its
texts are what is left when the blanks are off, and its port was looked at as a number.  A tidy target is
one that its own entry describes (`tidy_iff`).

The targets of a file are those of its entries, in the order of the list.  A list of entries of tidy
targets is read without a fault (`targetsOf_entries`), so targets that were loaded and are listed again
are loaded again, whatever else is in the file that lists them (`loaded_targets`).
-/
import Keyscope.Proofs.Settings.Faults
import Keyscope.Proofs.Settings.Saved

namespace Keyscope

/-! ## 1. Tidy targets -/

namespace Target

variable {t : Target}

/-- **A target in normal form.** -/
structure Tidy (t : Target) : Prop where
  id_ne : t.id ≠ []
  id : t.id.Unpadded
  host_ne : t.host ≠ []
  host : t.host.Unpadded
  name_ne : t.name ≠ []
  port : 1 ≤ t.port ∧ t.port ≤ 65535
  /-- The target is what its own entry describes. -/
  again : ofValue t.toValue = .ok t

theorem tidy_iff : t.Tidy ↔ t.Normal := by
  constructor
  · intro h
    exact ofValue_toValue_eq_ok_iff.mp h.again
  · intro h
    exact ⟨h.id_ne, Text.unpadded_iff.mpr h.strip_id, h.host_ne, Text.unpadded_iff.mpr h.strip_host,
      h.name_ne, ⟨h.port_pos, h.port_le⟩, ofValue_toValue_eq_ok_iff.mpr h⟩

/-- **What an entry describes is tidy**, of whatever kind its values are. -/
theorem tidy_of_ofRef {r : Ref} (hr : r.HasData) (h : ofRef r = .ok t) : t.Tidy :=
  tidy_iff.mpr ((ofRef_eq_ok.mp h).normal hr)

/-- Any entry of a tidy target describes it. -/
theorem Tidy.ofRef_entry (h : t.Tidy) {r : Ref} (hentry : t.Entry r) : ofRef r = .ok t := by
  have hnormal := tidy_iff.mp h
  rw [hnormal.named.ofRef hentry, hnormal.reread_eq]

end Target

namespace Settings

/-! ## 2. Lists of entries -/

variable {ts : List Target} {entries : List Ref} {file : Ref}

/-- **Entries of tidy targets are read as these**, one by one, and the log says nothing of them. -/
theorem targetsOf_entries (hts : ∀ t ∈ ts, t.Tidy) (h : List.Forall₂ Target.Entry ts entries)
    (log : List LogLine) : (targetsOf entries).run log = (.ok ts, log) := by
  induction h with
  | nil => rfl
  | @cons t entry ts entries hentry _ ih =>
    obtain ⟨ht, hts⟩ := List.forall_mem_cons.mp hts
    rw [targetsOf, ht.ofRef_entry hentry]
    dsimp only
    rw [Session.run_bind_ok (ih hts)]
    rfl

/-- **A file gives these targets.**  Its section on targets says nothing else, and all settings that
are loaded from it have them, whatever they were before and whatever its other sections say. -/
structure Gives (file : Ref) (ts : List Target) : Prop where
  alone : ∀ (s : Settings) (log : List LogLine),
    (applyTargets file s).run log = (.ok { s with targets := ts }, log)
  among : ∀ (e : Environment) (s s' : Settings) (log next : List LogLine),
    dictionary? e.disk s.path = some file → (applyFile e s).run log = (.ok s', next) → s'.targets = ts

/-- A file that lists entries of tidy targets gives these targets. -/
theorem gives_of_entries (hts : ∀ t ∈ ts, t.Tidy)
    (hlist : (file.field? "targets").bind Ref.elements? = some entries)
    (h : List.Forall₂ Target.Entry ts entries) : Gives file ts := by
  have halone : ∀ (s : Settings) (log : List LogLine),
      (applyTargets file s).run log = (.ok { s with targets := ts }, log) := by
    intro s log
    rw [applyTargets, hlist]
    dsimp only
    rw [Session.run_bind_ok (targetsOf_entries hts h log)]
    rfl
  refine ⟨halone, fun e s s' log next hfile hrun => ?_⟩
  obtain ⟨-, rfl, -⟩ := applyFile_eq_ok.mp hrun
  rw [hfile]
  -- the section alone gives the targets of the whole file, from whatever settings
  have hsection := (applyTargets_eq_ok.mp (halone s log)).2.1
  exact (congrArg Settings.targets hsection).symm

/-! ## 3. Targets that were loaded -/

/-- What a file gives for targets is what its list gives, and a file that cannot be used has none. -/
theorem targetsFrom_fileIn {e : Environment} {s s' : Settings} {log next : List LogLine}
    (h : (applyFile e s).run log = (.ok s', next)) :
    TargetsFrom (fileIn e.disk s.path) s.targets s'.targets := by
  obtain ⟨-, rfl, -⟩ := applyFile_eq_ok.mp h
  unfold fileIn
  cases dictionary? e.disk s.path with
  | none => exact .standard rfl
  | some file => exact targetsFrom file s.targets

/-- The targets of a list are those that its entries describe. -/
theorem TargetsFrom.eq_of_list {standard : List Target} (h : TargetsFrom file standard ts)
    (hentries : (file.field? "targets").bind Ref.elements? = some entries) :
    ts = entries.filterMap target? := by
  cases h with
  | listed h => rw [Option.some.inj (h.symm.trans hentries)]
  | standard h => cases h.symm.trans hentries

/-- **Targets are in normal form.**  A dictionary with values of any kind describes a tidy target or
none.  A file that is loaded sets the targets that the entries of its list describe, in their order, and
leaves the targets alone if it has no list.  All targets of the list are tidy, and any file that lists
entries of them, one by one, gives the same targets again. -/
theorem loaded_targets :
    (∀ (r : Ref) (t : Target), r.HasData → Target.ofRef r = .ok t → t.Tidy) ∧
    ∀ (e : Environment) (s s' : Settings) (log next : List LogLine),
      (applyFile e s).run log = (.ok s', next) →
      TargetsFrom (fileIn e.disk s.path) s.targets s'.targets ∧
      ∀ entries, ((fileIn e.disk s.path).field? "targets").bind Ref.elements? = some entries →
        s'.targets = entries.filterMap target? ∧ (∀ t ∈ s'.targets, t.Tidy) ∧
        ∀ (file : Ref) (again : List Ref), (file.field? "targets").bind Ref.elements? = some again →
          List.Forall₂ Target.Entry s'.targets again → Gives file s'.targets := by
  refine ⟨fun r t hr h => Target.tidy_of_ofRef hr h, fun e s s' log next hrun => ?_⟩
  have hfrom := targetsFrom_fileIn hrun
  refine ⟨hfrom, fun entries hentries => ?_⟩
  have hdata := Ref.hasData_elements (exists_file_of_listed hentries).2 hentries
  have htidy : ∀ t ∈ s'.targets, t.Tidy := fun t ht =>
    Target.tidy_iff.mpr (hfrom.normal hentries hdata t ht)
  exact ⟨hfrom.eq_of_list hentries, htidy, fun file again hagain h => gives_of_entries htidy hagain h⟩

/-- The file that lists targets and has nothing else. -/
def listing (ts : List Target) : Ref := .ofValue (.dict [(.text "targets", .list (ts.map Target.toValue))])

/-- What such a file lists are the entries of the targets. -/
theorem elements_listing (ts : List Target) :
    ((listing ts).field? "targets").bind Ref.elements? = some (ts.map fun t => .ofValue t.toValue) ∧
      List.Forall₂ Target.Entry ts (ts.map fun t => .ofValue t.toValue) := by
  constructor
  · change some ((ts.map Target.toValue).map Ref.ofValue) = _
    rw [List.map_map]
    rfl
  · exact List.forall₂_map_right_iff.mpr (List.forall₂_same.mpr fun t _ => t.entry_toValue)

/-- A file of targets with blanks around them, a port in quotes and one that is a truth value, a host
that is a number, and an entry that is no target. -/
def untidy : Environment :=
  withOneFile "targets:\n- id: ' a '\n  host: 5\n  port: '6380'\n- 7\n- id: b\n  host: ' h '\n  name: 0\n  port: true"

/-- The targets of that file, which are tidy. -/
def tidied : List Target := [⟨"a", "a", "5", 6380⟩, ⟨"b", "b", "h", 1⟩]

/-- They are loaded in its order, and their own entries give them again. -/
theorem load_untidy :
    (∃ r, r.HasData ∧ Target.ofRef r = .ok ⟨"a", "a", "5", 6380⟩ ∧
      Target.Tidy ⟨"a", "a", "5", 6380⟩) ∧
    ∃ s next, (applyFile untidy (initial [] onePath)).run [] = (.ok s, next) ∧ s.targets = tidied ∧
      next.length = 1 ∧ (∀ t ∈ tidied, t.Tidy) ∧ Gives (listing tidied) tidied := by
  constructor
  · have hdata := Target.hasData_toValue ⟨"a", "a", "5", 6380⟩
    have htarget : Target.ofRef (.ofValue (Target.toValue ⟨"a", "a", "5", 6380⟩)) =
        .ok ⟨"a", "a", "5", 6380⟩ := by decide +kernel
    exact ⟨_, hdata, htarget, loaded_targets.1 _ _ hdata htarget⟩
  · have hresult : ((applyFile untidy (initial [] onePath)).run []).1.toOption.map (·.targets) =
        some tidied := by decide +kernel
    have hlog : ((applyFile untidy (initial [] onePath)).run []).2.length = 1 := by decide +kernel
    have hlist : (((fileIn untidy.disk onePath).field? "targets").bind Ref.elements?).isSome = true := by
      decide +kernel
    rcases hrun : (applyFile untidy (initial [] onePath)).run [] with ⟨_ | s, next⟩
    · rw [hrun] at hresult
      cases hresult
    · rw [hrun] at hresult hlog
      have htargets : s.targets = tidied := Option.some.inj hresult
      obtain ⟨entries, hentries⟩ := Option.isSome_iff_exists.mp hlist
      obtain ⟨-, hloaded⟩ := loaded_targets.2 _ _ _ _ _ hrun
      obtain ⟨-, htidy, hagain⟩ := hloaded entries hentries
      rw [htargets] at htidy hagain
      obtain ⟨helements, hown⟩ := elements_listing tidied
      exact ⟨s, next, rfl, htargets, hlog, htidy, hagain _ _ helements hown⟩

end Settings

end Keyscope
