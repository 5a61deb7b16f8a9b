/-
# What keeps a file from being loaded

Loading passes over what it cannot read, and says so in the log; but it lets a few failures through.
An infinite number where a whole one is to be, and a whole number that is too large for a real one,
are failures of their own kind and not among those that are passed over.  The level and the place of
rows have no failures that are passed over, and neither has the line in the log that shows an entry.

Every one of these is a `Fault`, and a file without any is mild (`mild_of_no_fault`).  Section 1 says
which numbers they are: what gives no number is beyond all bounds exactly if it is infinite
(`isBeyondBounds_toInteger`) or a whole number too large for a real one (`isBeyondBounds_toReal`).
Section 2 follows this along the fields of a target and of the limits.
-/
import Keyscope.Proofs.Settings.Load

namespace Keyscope

/-! ## 1. Numbers beyond all bounds -/

namespace Value

theorem bounds_integerOr {shown : Text} {result : Except Numeral.Refusal Int} {f : Failure}
    (h : integerOr shown result = .error f) : f.isBeyondBounds = false := by
  unfold integerOr at h
  split at h
  · cases h
  · cases h
    rfl
  · cases h
    rfl

theorem bounds_realOr {shown : Text} {result : Option Binary64} {f : Failure}
    (h : realOr shown result = .error f) : f.isBeyondBounds = false := by
  cases result <;> cases h
  rfl

/-- What gives no whole number is beyond all bounds if and only if it is infinite. -/
theorem isBeyondBounds_toInteger {v : Value} {f : Failure} (h : v.toInteger = .error f) :
    f.isBeyondBounds = true ↔ ∃ negative, v = .real (.infinite negative) := by
  cases v with
  | real x =>
    cases x with
    | nan => cases h; simp [Failure.isBeyondBounds]
    | infinite negative => cases h; simp [Failure.isBeyondBounds]
    | finite => cases h
  | text t => simp [bounds_integerOr h]
  | bytes bs => simp [bounds_integerOr h]
  | buffer bs => simp [bounds_integerOr h]
  | int n => cases h
  | bool b => cases h
  | _ => cases h; simp [Failure.isBeyondBounds]

/-- What gives no real number is beyond all bounds if and only if it is a whole number that is too
large for one. -/
theorem isBeyondBounds_toReal {v : Value} {f : Failure} (h : v.toReal = .error f) :
    f.isBeyondBounds = true ↔ ∃ n negative, v = .int n ∧ Binary64.ofInt n = .infinite negative := by
  cases v with
  | int n =>
    simp only [toReal] at h
    cases hn : Binary64.ofInt n with
    | infinite negative =>
      rw [hn] at h
      cases h
      simp [Failure.isBeyondBounds, hn]
    | nan => rw [hn] at h; cases h
    | finite => rw [hn] at h; cases h
  | text t => simp [bounds_realOr h]
  | bytes bs => simp [bounds_realOr h]
  | buffer bs => simp [bounds_realOr h]
  | real x => cases h
  | bool b => cases h
  | _ => cases h; simp [Failure.isBeyondBounds]

end Value

namespace Ref

variable {r : Ref} {f : Failure}

theorem isBeyondBounds_toInteger (h : r.toInteger = .error f) :
    f.isBeyondBounds = true ↔ ∃ negative, r.cell = .leaf (.real (.infinite negative)) := by
  unfold toInteger at h
  cases hcell : r.cell with
  | leaf v =>
    rw [hcell] at h
    simpa using Value.isBeyondBounds_toInteger h
  | _ =>
    rw [hcell] at h
    cases h
    simp [Failure.isBeyondBounds]

theorem isBeyondBounds_toReal (h : r.toReal = .error f) :
    f.isBeyondBounds = true ↔
      ∃ n negative, r.cell = .leaf (.int n) ∧ Binary64.ofInt n = .infinite negative := by
  unfold toReal at h
  cases hcell : r.cell with
  | leaf v =>
    rw [hcell] at h
    simpa using Value.isBeyondBounds_toReal h
  | _ =>
    rw [hcell] at h
    cases h
    simp [Failure.isBeyondBounds]

end Ref

namespace Settings

/-! ## 2. Faults -/

/-- **What keeps a file from being loaded.** -/
inductive Fault (e : Environment) (file : Ref) : Prop
  /-- The port of a target is infinite. -/
  | port {entry v : Ref} {negative : Bool} (hentry : entry ∈ entriesIn file)
    (hport : entry.field? "port" = some v) (hv : v.cell = .leaf (.real (.infinite negative)))
  /-- A limit that is to be a whole number is infinite. -/
  | limit {r v : Ref} {name : Text} {negative : Bool} (hlimits : sectionOf limitsName file = some r)
    (hname : name ∈ (["max_payload_chars", "max_keys_per_db", "scan_count"].map Text.ofString))
    (hlimit : r.field? name = some v) (hv : v.cell = .leaf (.real (.infinite negative)))
  /-- A number of seconds is a whole number that is too large for a real one. -/
  | seconds {r v : Ref} {name : Text} {n : Int} {negative : Bool}
    (hlimits : sectionOf limitsName file = some r)
    (hname : name ∈ (["probe_connect_timeout", "snapshot_connect_timeout"].map Text.ofString))
    (hlimit : r.field? name = some v) (hv : v.cell = .leaf (.int n))
    (hlarge : Binary64.ofInt n = .infinite negative)
  /-- A text of a target cannot be made: it is nested too deep, or has too long a number in it. -/
  | text {entry v : Ref} {name : Text} {f : Failure} (hentry : entry ∈ entriesIn file)
    (hname : name ∈ (["id", "host", "name"].map Text.ofString)) (hfield : entry.field? name = some v)
    (htext : v.toText = .error f)
  /-- A target that is passed over cannot be shown in the log. -/
  | shown {entry : Ref} {f : Failure} (hentry : entry ∈ entriesIn file) (hshown : entry.shown = .error f)
  /-- The place of rows is no path. -/
  | rowsFile {v : Ref} {f : Failure} (hv : rowsIn? file = some v) (hpath : pathOf e v = .error f)
  /-- The level is no text and cannot be made one. -/
  | level {r v : Ref} {f : Failure} (hlogging : sectionOf "logging" file = some r)
    (hlevel : r.field? "level" = some v) (htext : v.toText = .error f)

/-- A text of a target that cannot be made. -/
theorem exists_of_entry {name : Text} {r : Ref} {f : Failure} (h : Target.entry name r = .error f) :
    ∃ v, r.field? name = some v ∧ v.toText = .error f := by
  unfold Target.entry at h
  split at h
  · rename_i v hv
    split at h
    · exact ⟨v, hv, h⟩
    · cases h
  · cases h

theorem exists_of_nameOr {id : Text} {r : Ref} {f : Failure} (h : Target.nameOr id r = .error f) :
    ∃ v, r.field? "name" = some v ∧ v.toText = .error f := by
  unfold Target.nameOr at h
  split at h
  · rename_i v hv
    split at h
    · exact ⟨v, hv, h⟩
    · cases h
  · cases h

theorem infinite_of_portOr {standard : Int} {r : Ref} {f : Failure}
    (h : Target.portOr standard r = .error f) (hbounds : f.isBeyondBounds = true) :
    ∃ v, r.field? "port" = some v ∧ ∃ negative, v.cell = .leaf (.real (.infinite negative)) := by
  unfold Target.portOr at h
  split at h
  · rename_i v hv
    exact ⟨v, hv, (Ref.isBeyondBounds_toInteger h).mp hbounds⟩
  · cases h

/-- What is beyond all bounds in a target is its port, or one of its texts cannot be made. -/
theorem fault_of_ofRef {e : Environment} {file entry : Ref} {f : Failure}
    (hentry : entry ∈ entriesIn file) (h : Target.ofRef entry = .error f)
    (hbounds : f.isBeyondBounds = true) : Fault e file := by
  have hnot : ∀ {g : Failure}, g.isBeyondBounds = false → f ≠ g := by
    rintro g hg rfl
    rw [hbounds] at hg
    cases hg
  unfold Target.ofRef at h
  split at h
  swap
  · exact absurd (Except.error.inj h).symm (hnot rfl)
  rcases Outcome.error_of_bind h with h | ⟨id, -, h⟩
  · obtain ⟨v, hv, htext⟩ := exists_of_entry h
    exact .text hentry (by simp) hv htext
  rcases Outcome.error_of_bind h with h | ⟨host, -, h⟩
  · obtain ⟨v, hv, htext⟩ := exists_of_entry h
    exact .text hentry (by simp) hv htext
  dsimp only at h
  split at h
  · exact absurd (Except.error.inj h).symm (hnot rfl)
  split at h
  · exact absurd (Except.error.inj h).symm (hnot rfl)
  rcases Outcome.error_of_bind h with h | ⟨port, -, h⟩
  · obtain ⟨v, hv, negative, hcell⟩ := infinite_of_portOr h hbounds
    exact .port hentry hv hcell
  split at h
  · rcases Outcome.error_of_bind h with h | ⟨shown, -, h⟩
    · unfold Value.integerText at h
      split at h
      · cases h
      · exact absurd (Except.error.inj h).symm (hnot rfl)
    · exact absurd (Except.error.inj h).symm (hnot rfl)
  rcases Outcome.error_of_bind h with h | ⟨name, -, h⟩
  · obtain ⟨v, hv, htext⟩ := exists_of_nameOr h
    exact .text hentry (by simp) hv htext
  · cases h

section Limits

variable {e : Environment} {file r : Ref} {name : Text} {f : Failure}

theorem fault_of_integerOr {n : Int} (hlimits : sectionOf limitsName file = some r)
    (hname : name ∈ (["max_payload_chars", "max_keys_per_db", "scan_count"].map Text.ofString))
    (h : integerOr (.int n) name r = .error f) (hbounds : f.isBeyondBounds = true) :
    Fault e file := by
  rcases Outcome.error_of_bind h with h | ⟨_, -, h⟩
  · cases hv : r.field? name with
    | none =>
      rw [hv] at h
      cases h
    | some v =>
      rw [hv] at h
      obtain ⟨negative, hcell⟩ := (Ref.isBeyondBounds_toInteger h).mp hbounds
      exact .limit hlimits hname hv hcell
  · cases h

theorem fault_of_realOr {x : Binary64} (hlimits : sectionOf limitsName file = some r)
    (hname : name ∈ (["probe_connect_timeout", "snapshot_connect_timeout"].map Text.ofString))
    (h : realOr (.real x) name r = .error f) (hbounds : f.isBeyondBounds = true) : Fault e file := by
  rcases Outcome.error_of_bind h with h | ⟨_, -, h⟩
  · cases hv : r.field? name with
    | none =>
      rw [hv] at h
      cases h
    | some v =>
      rw [hv] at h
      obtain ⟨n, negative, hcell, hlarge⟩ := (Ref.isBeyondBounds_toReal h).mp hbounds
      exact .seconds hlimits hname hv hcell hlarge
  · cases h

/-- What is beyond all bounds in limits is one of them. -/
theorem fault_of_limitsOf (hlimits : sectionOf limitsName file = some r)
    (h : limitsOf .standard r = .error f) (hbounds : f.isBeyondBounds = true) : Fault e file := by
  rcases Outcome.error_of_bind h with h | ⟨maxPayload, -, h⟩
  · exact fault_of_integerOr hlimits (by simp) h hbounds
  rcases Outcome.error_of_bind h with h | ⟨maxKeys, -, h⟩
  · exact fault_of_integerOr hlimits (by simp) h hbounds
  rcases Outcome.error_of_bind h with h | ⟨pageSize, -, h⟩
  · exact fault_of_integerOr hlimits (by simp) h hbounds
  rcases Outcome.error_of_bind h with h | ⟨probeLimit, -, h⟩
  · exact fault_of_realOr hlimits (by simp) h hbounds
  rcases Outcome.error_of_bind h with h | ⟨snapshotLimit, -, h⟩
  · exact fault_of_realOr hlimits (by simp) h hbounds
  · cases h

end Limits

/-- **A file without faults is mild.** -/
theorem mild_of_no_fault {e : Environment} {targets : List Target} {path : Text} {file : Ref}
    (h : ¬ Fault e file) : Mild e (initial targets path) file where
  targets := by
    intro entry hentry f hf
    constructor
    · by_contra hbounds
      exact h (fault_of_ofRef hentry hf (by simpa using hbounds))
    · cases hshown : entry.shown with
      | ok shown => exact ⟨shown, rfl⟩
      | error f => exact (h (.shown hentry hshown)).elim
  limits := by
    intro f hf
    by_contra hbounds
    obtain ⟨r, hr, hf⟩ := Option.bind_eq_some_iff.mp hf
    exact h (fault_of_limitsOf hr (Outcome.failure?_eq_some.mp hf) (by simpa using hbounds))
  rowsFile := by
    intro v hv
    cases hpath : pathOf e v with
    | ok path => exact ⟨path, rfl⟩
    | error f => exact (h (.rowsFile hv hpath)).elim
  level := by
    intro v hv
    obtain ⟨r, hr, rfl⟩ := Option.map_eq_some_iff.mp hv
    cases hlevel : r.field? "level" with
    | none => exact ⟨_, rfl⟩
    | some v =>
      cases htext : v.toText with
      | ok level => exact ⟨level, htext⟩
      | error f => exact (h (.level hr hlevel htext)).elim

/-! ## 3. Files that can be loaded -/

/-- **Which files of settings can be loaded.**  Without variables that change them, settings are
loaded from a file if and only if it is mild, if it has a dictionary at all.  Then they are the
initial ones with all that the file gives and that can be used, and the log has a line for whatever
was passed over.  What keeps a file from being loaded is one of few faults. -/
theorem loads_iff_mild {e : Environment} (h : e.Unset variableStart) {given : Option Text}
    {targets : List Target} {path : Text} (htargets : defaultTargets e = .ok targets)
    (hpath : pathFor e given = .ok path) (hexists : e.disk.exists? path = .ok true) :
    ((∃ s log, loaded e given = (.ok s, log)) ↔
      ∀ file, dictionary? e.disk path = some file → Mild e (initial targets path) file) ∧
    (∀ s log, loaded e given = (.ok s, log) →
      s = (dictionary? e.disk path).elim (initial targets path)
        (withFile e (initial targets path)) ∧
      log = fileLines e (initial targets path)) ∧
    ∀ file, dictionary? e.disk path = some file → ¬ Mild e (initial targets path) file →
      Fault e file := by
  refine ⟨⟨?_, fun hmild => ?_⟩, fun s log hs => ?_, fun file _ hmild => ?_⟩
  · rintro ⟨s, log, hs⟩
    exact ((loaded_eq_ok h htargets hpath hexists).mp hs).1
  · exact ⟨_, _, (loaded_eq_ok h htargets hpath hexists).mpr ⟨hmild, rfl, rfl⟩⟩
  · exact ((loaded_eq_ok h htargets hpath hexists).mp hs).2
  · by_contra hfault
    exact hmild (mild_of_no_fault hfault)

/-- The path of the one file below. -/
def onePath : Text := "/config.yaml"

/-- Surroundings without variables, with one file. -/
def withOneFile (text : Text) : Environment :=
  ⟨[], fun _ => none, "/home", ⟨[([("config.yaml" : Text)], .file (text.flatMap Utf8.encodePoint))]⟩,
    fun _ _ => "no settings"⟩

/-- A file with an entry that is no target, and with limits that are none. -/
def partlyReadable : Environment :=
  withOneFile "targets: [5, {id: b, host: h}]\nsnapshot: {scan_count: many}"

/-- What cannot be read in it is passed over with a line each. -/
theorem load_partly :
    ∃ s log, loaded partlyReadable (some onePath) = (.ok s, log) ∧
      s.targets = [⟨"b", "b", "h", 6379⟩] ∧ log.length = 2 ∧
      ∀ file, dictionary? partlyReadable.disk onePath = some file →
        Mild partlyReadable (initial [⟨"internal", "InternalDB", "localhost", 6379⟩] onePath) file := by
  have htargets : (loaded partlyReadable (some onePath)).1.toOption.map (·.targets) =
      some [⟨"b", "b", "h", 6379⟩] := by decide +kernel
  have hlog : (loaded partlyReadable (some onePath)).2.length = 2 := by decide +kernel
  rcases hload : loaded partlyReadable (some onePath) with ⟨_ | s, log⟩
  · rw [hload] at htargets
    cases htargets
  · rw [hload] at htargets hlog
    have hunset : partlyReadable.Unset variableStart := by
      intro entry hentry
      cases hentry
    exact ⟨s, log, rfl, Option.some.inj htargets, hlog,
      (loads_iff_mild hunset (by decide +kernel) (by decide +kernel) (by decide +kernel)).1.mp
        ⟨s, log, hload⟩⟩

/-- A file with a target whose port is infinite, and with another target. -/
def infinitePort : Environment :=
  withOneFile "targets: [{id: a, host: h, port: .inf}, {id: b, host: h}]"

/-- The infinite port is not passed over, whatever the other targets are. -/
theorem load_infinite_port :
    infinitePort.Unset variableStart ∧
      defaultTargets infinitePort = .ok [⟨"internal", "InternalDB", "localhost", 6379⟩] ∧
      pathFor infinitePort (some onePath) = .ok onePath ∧
      infinitePort.disk.exists? onePath = .ok true ∧
      Outcome.failure? (loaded infinitePort (some onePath)).1 = some .infinityToInteger := by
  refine ⟨?_, by decide +kernel, by decide +kernel, by decide +kernel, by decide +kernel⟩
  intro entry hentry
  cases hentry

end Settings

end Keyscope
