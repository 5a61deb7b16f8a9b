/-
# What sections of a file give

Each section of a file gives one kind of setting, and says nothing of the others.  A list of targets
gives those that its entries describe (`TargetsFrom`); limits are given all together or not at all
(`LimitsFrom`); the place of rows and the level are given where their section has them (`RowsFrom`,
`LevelFrom`).  This is all that a file does (`fromFile`).

A setting depends on its own section only, and a target on its own entry: documents that have the same
value there give the same (`Isolated`), whatever the rest of them is.
-/
import Keyscope.Proofs.Settings.Load
import Keyscope.Proofs.Value.Same

namespace Keyscope

/-! ## 1. Limits -/

namespace Ref

/-- The whole number that a value gives, as a value. -/
def integer (r : Ref) : Except Failure Value := do return .int (← r.toInteger)

/-- The real number that a value gives, as a value. -/
def real (r : Ref) : Except Failure Value := do return .real (← r.toReal)

variable {convert : Ref → Except Failure Value} {r : Ref} {name : Text} {standard v : Value}
  {f : Failure}

/-- What a dictionary gives under a name, converted; where it has nothing, what holds already. -/
inductive GivenOr (convert : Ref → Except Failure Value) (r : Ref) (name : Text) (standard : Value) :
    Value → Prop
  | given {part : Ref} {v : Value} (hpart : r.field? name = some part) (hv : convert part = .ok v) :
    GivenOr convert r name standard v
  | standard (h : r.field? name = none) : GivenOr convert r name standard standard

/-- The value of `GivenOr`, if there is one. -/
def givenOr (convert : Ref → Except Failure Value) (r : Ref) (name : Text) (standard : Value) :
    Except Failure Value :=
  match r.field? name with
  | some part => convert part
  | none => .ok standard

theorem givenOr_eq_ok : givenOr convert r name standard = .ok v ↔ GivenOr convert r name standard v := by
  unfold givenOr
  constructor
  · intro h
    split at h
    · rename_i hpart
      exact .given hpart h
    · rename_i hnone
      obtain rfl := Except.ok.inj h
      exact .standard hnone
  · rintro (⟨hpart, hv⟩ | hnone)
    · rw [hpart]
      exact hv
    · rw [hnone]

theorem exists_of_givenOr (h : givenOr convert r name standard = .error f) :
    ∃ part, r.field? name = some part ∧ convert part = .error f := by
  unfold givenOr at h
  split at h
  · rename_i hpart
    exact ⟨_, hpart, h⟩
  · cases h

end Ref

namespace Settings

section Limits

variable {r : Ref} {name : Text} {limit : Value} {l : Limits} {f : Failure}

theorem integerOr_eq {n : Int} (hlimit : limit = .int n) :
    integerOr limit name r = r.givenOr Ref.integer name limit := by
  subst hlimit
  unfold integerOr Ref.givenOr
  cases r.field? name <;> rfl

theorem realOr_eq {x : Binary64} (hlimit : limit = .real x) :
    realOr limit name r = r.givenOr Ref.real name limit := by
  subst hlimit
  unfold realOr Ref.givenOr
  cases r.field? name <;> rfl

/-- Limits that are given, each one or else its default. -/
structure GivenLimits (r : Ref) (l : Limits) : Prop where
  maxPayload : r.GivenOr Ref.integer "max_payload_chars" Limits.standard.maxPayload l.maxPayload
  maxKeys : r.GivenOr Ref.integer "max_keys_per_db" Limits.standard.maxKeys l.maxKeys
  pageSize : r.GivenOr Ref.integer "scan_count" Limits.standard.pageSize l.pageSize
  probeLimit : r.GivenOr Ref.real "probe_connect_timeout" Limits.standard.probeLimit l.probeLimit
  snapshotLimit :
    r.GivenOr Ref.real "snapshot_connect_timeout" Limits.standard.snapshotLimit l.snapshotLimit

/-- What the values under the names of limits are converted to. -/
def conversions : List (Text × (Ref → Except Failure Value)) :=
  [("max_payload_chars", Ref.integer), ("max_keys_per_db", Ref.integer), ("scan_count", Ref.integer),
    ("probe_connect_timeout", Ref.real), ("snapshot_connect_timeout", Ref.real)]

/-- Some limit that is given cannot be converted. -/
def RefusedLimits (r : Ref) : Prop :=
  ∃ name convert part f, (name, convert) ∈ conversions ∧ r.field? name = some part ∧
    convert part = .error f

theorem limitsOf_standard (r : Ref) : limitsOf .standard r = do
    let maxPayload ← r.givenOr Ref.integer "max_payload_chars" Limits.standard.maxPayload
    let maxKeys ← r.givenOr Ref.integer "max_keys_per_db" Limits.standard.maxKeys
    let pageSize ← r.givenOr Ref.integer "scan_count" Limits.standard.pageSize
    let probeLimit ← r.givenOr Ref.real "probe_connect_timeout" Limits.standard.probeLimit
    let snapshotLimit ← r.givenOr Ref.real "snapshot_connect_timeout" Limits.standard.snapshotLimit
    return ⟨maxPayload, maxKeys, pageSize, probeLimit, snapshotLimit⟩ := by
  have hpayload : Limits.standard.maxPayload = .int 4096 := rfl
  have hkeys : Limits.standard.maxKeys = .int 5000 := rfl
  have hpage : Limits.standard.pageSize = .int 500 := rfl
  have hprobe : Limits.standard.probeLimit = .real (.ofRatio false 1 2) := rfl
  have hsnapshot : Limits.standard.snapshotLimit = .real 3 := rfl
  rw [limitsOf, integerOr_eq hpayload, integerOr_eq hkeys, integerOr_eq hpage, realOr_eq hprobe,
    realOr_eq hsnapshot]

theorem limitsOf_eq_ok : limitsOf .standard r = .ok l ↔ GivenLimits r l := by
  rw [limitsOf_standard]
  constructor
  · intro h
    obtain ⟨maxPayload, hpayload, h⟩ := Outcome.exists_of_bind h
    obtain ⟨maxKeys, hkeys, h⟩ := Outcome.exists_of_bind h
    obtain ⟨pageSize, hpage, h⟩ := Outcome.exists_of_bind h
    obtain ⟨probeLimit, hprobe, h⟩ := Outcome.exists_of_bind h
    obtain ⟨snapshotLimit, hsnapshot, h⟩ := Outcome.exists_of_bind h
    obtain rfl := Except.ok.inj h
    exact ⟨Ref.givenOr_eq_ok.mp hpayload, Ref.givenOr_eq_ok.mp hkeys, Ref.givenOr_eq_ok.mp hpage,
      Ref.givenOr_eq_ok.mp hprobe, Ref.givenOr_eq_ok.mp hsnapshot⟩
  · intro h
    rw [Ref.givenOr_eq_ok.mpr h.maxPayload, Ref.givenOr_eq_ok.mpr h.maxKeys,
      Ref.givenOr_eq_ok.mpr h.pageSize, Ref.givenOr_eq_ok.mpr h.probeLimit,
      Ref.givenOr_eq_ok.mpr h.snapshotLimit]
    rfl

theorem refused_of_limitsOf (h : limitsOf .standard r = .error f) : RefusedLimits r := by
  have refused : ∀ {name convert standard}, (name, convert) ∈ conversions →
      r.givenOr convert name standard = .error f → RefusedLimits r := by
    intro name convert standard hmem h
    obtain ⟨part, hpart, hf⟩ := Ref.exists_of_givenOr h
    exact ⟨name, convert, part, f, hmem, hpart, hf⟩
  rw [limitsOf_standard] at h
  rcases Outcome.error_of_bind h with h | ⟨maxPayload, -, h⟩
  · exact refused (by simp [conversions]) h
  rcases Outcome.error_of_bind h with h | ⟨maxKeys, -, h⟩
  · exact refused (by simp [conversions]) h
  rcases Outcome.error_of_bind h with h | ⟨pageSize, -, h⟩
  · exact refused (by simp [conversions]) h
  rcases Outcome.error_of_bind h with h | ⟨probeLimit, -, h⟩
  · exact refused (by simp [conversions]) h
  rcases Outcome.error_of_bind h with h | ⟨snapshotLimit, -, h⟩
  · exact refused (by simp [conversions]) h
  · cases h

end Limits

/-! ## 2. All sections -/

section Sections

variable {e : Environment} {file : Ref} {targets : List Target} {path : Text}

/-- The targets of a file: those that the entries of its list describe, in order, or the ones there
are if it has no list. -/
inductive TargetsFrom (file : Ref) (standard : List Target) : List Target → Prop
  | listed {entries : List Ref} (h : (file.field? "targets").bind Ref.elements? = some entries) :
    TargetsFrom file standard (entries.filterMap target?)
  | standard (h : (file.field? "targets").bind Ref.elements? = none) :
    TargetsFrom file standard standard

/-- The limits of a file: those of a section all of whose values can be converted, and otherwise all
the defaults. -/
inductive LimitsFrom (file : Ref) : Limits → Prop
  | given {r : Ref} {l : Limits} (hsection : sectionOf limitsName file = some r)
    (h : GivenLimits r l) : LimitsFrom file l
  | refused {r : Ref} (hsection : sectionOf limitsName file = some r) (h : RefusedLimits r) :
    LimitsFrom file .standard
  | noSection (h : sectionOf limitsName file = none) : LimitsFrom file .standard

/-- The place of rows of a file. -/
inductive RowsFrom (e : Environment) (file : Ref) : Setting → Prop
  | given {v : Ref} {path : Text} (hv : rowsIn? file = some v) (hpath : pathOf e v = .ok path) :
    RowsFrom e file (.path path)
  | standard (h : rowsIn? file = none) : RowsFrom e file .none

/-- The level of a file, in capitals. -/
inductive LevelFrom (file : Ref) : Value → Prop
  | given {r v : Ref} {t : Text} (hsection : sectionOf "logging" file = some r)
    (hv : r.field? "level" = some v) (ht : v.toText = .ok t) : LevelFrom file (.text t.upper)
  | standard (h : ∀ r, sectionOf "logging" file = some r → r.field? "level" = none) :
    LevelFrom file (.text "INFO")

/-- **The settings of a file**, over the defaults. -/
structure FromFile (e : Environment) (standard : List Target) (file : Ref) (s : Settings) : Prop where
  targets : TargetsFrom file standard s.targets
  limits : LimitsFrom file s.limits
  rowsFile : RowsFrom e file s.rowsFile
  logLevel : LevelFrom file s.logLevel
  others : s.others = []

theorem targetsFrom (file : Ref) (standard : List Target) :
    TargetsFrom file standard (targetsIn file standard) := by
  unfold targetsIn
  cases h : (file.field? "targets").bind Ref.elements? with
  | none => exact .standard h
  | some entries => exact .listed h

theorem limitsFrom (file : Ref) : LimitsFrom file (limitsIn file .standard) := by
  unfold limitsIn
  cases hsection : sectionOf limitsName file with
  | none => exact .noSection hsection
  | some r =>
    rw [Option.bind_some]
    cases hl : limitsOf .standard r with
    | ok l => exact .given hsection (limitsOf_eq_ok.mp hl)
    | error f => exact .refused hsection (refused_of_limitsOf hl)

theorem rowsFrom (h : ∀ v, rowsIn? file = some v → ∃ path, pathOf e v = .ok path) :
    RowsFrom e file (rowsFileIn e file .none) := by
  unfold rowsFileIn
  cases hv : rowsIn? file with
  | none => exact .standard hv
  | some v =>
    obtain ⟨path, hpath⟩ := h v hv
    rw [Option.bind_some, hpath]
    exact .given hv hpath

theorem upper_info : Text.upper "INFO" = "INFO" := by decide +kernel

theorem levelFrom (h : ∀ v, levelIn? file (.text "INFO") = some v → ∃ level, v.toText = .ok level) :
    LevelFrom file (levelIn file (.text "INFO")) := by
  unfold levelIn
  unfold levelIn? at h ⊢
  cases hsection : sectionOf "logging" file with
  | none =>
    refine .standard fun r hr => ?_
    cases hsection.symm.trans hr
  | some r =>
    rw [hsection] at h
    cases hv : r.field? "level" with
    | none =>
      have hstandard : LevelFrom file (.text "INFO") := by
        refine .standard fun r' hr' => ?_
        obtain rfl := Option.some.inj (hsection.symm.trans hr')
        exact hv
      rw [Option.map_some, Option.bind_some, hv]
      change LevelFrom file (.text (Text.upper "INFO"))
      rwa [upper_info]
    | some v =>
      obtain ⟨t, ht⟩ := h v (by rw [Option.map_some, hv]; rfl)
      rw [Option.map_some, Option.bind_some, hv, Option.getD_some, ht]
      exact .given hsection hv ht

/-- **What a mild file gives** is what its sections give. -/
theorem fromFile (h : Mild e (initial targets path) file) :
    FromFile e targets file (withFile e (initial targets path) file) where
  targets := targetsFrom file targets
  limits := limitsFrom file
  rowsFile := rowsFrom h.rowsFile
  logLevel := levelFrom h.level
  others := rfl

/-! ## 3. Files without sections -/

/-- A dictionary with nothing in it. -/
def emptyFile : Ref := .ofValue (.dict [])

theorem sectionOf_emptyFile (name : Text) : sectionOf name emptyFile = some emptyFile := rfl

theorem limitsOf_emptyFile : limitsOf .standard emptyFile = .ok .standard :=
  limitsOf_eq_ok.mpr ⟨.standard rfl, .standard rfl, .standard rfl, .standard rfl, .standard rfl⟩

theorem mild_emptyFile (e : Environment) (targets : List Target) (path : Text) :
    Mild e (initial targets path) emptyFile where
  targets := by
    intro entry hentry
    cases hentry
  limits := by
    intro f hf
    rw [limitsFailure?, sectionOf_emptyFile, Option.bind_some] at hf
    cases (limitsOf_emptyFile.symm.trans (Outcome.failure?_eq_some.mp hf))
  rowsFile := by
    intro v hv
    cases hv
  level := by
    intro v hv
    obtain rfl : Ref.ofValue (.text "INFO") = v := Option.some.inj hv
    exact ⟨"INFO", rfl⟩

/-- An empty file leaves the defaults. -/
theorem withFile_emptyFile (e : Environment) (targets : List Target) (path : Text) :
    withFile e (initial targets path) emptyFile = initial targets path := by
  have hlimits : limitsIn emptyFile .standard = .standard := by
    rw [limitsIn, sectionOf_emptyFile, Option.bind_some, limitsOf_emptyFile]
    rfl
  have hlevel : levelIn emptyFile (.text "INFO") = .text "INFO" := by
    have hlevel? : levelIn? emptyFile (.text "INFO") = some (.ofValue (.text "INFO")) := rfl
    rw [levelIn, hlevel?]
    exact congrArg Value.text upper_info
  have htargets : targetsIn emptyFile targets = targets := rfl
  have hrows : rowsFileIn e emptyFile .none = .none := rfl
  simp only [withFile, initial, hlimits, hlevel, htargets, hrows]

end Sections

/-! ## 4. Sections that are the same -/

section Same

variable {file file' : Ref} {name : Text}

theorem sectionOf_same (h : Option.Rel Ref.Same (file.field? name) (file'.field? name)) :
    Option.Rel Ref.Same (sectionOf name file) (sectionOf name file') := by
  rw [sectionOf, sectionOf]
  rcases rel_cases h with ⟨hr, hr'⟩ | ⟨r, r', hr, hr', hsame⟩
  · rw [hr, hr']
    exact .some (.refl _)
  · simp only [hr, hr', hsame.isDict_eq]
    split
    · exact .some hsame
    · exact .none

/-- Lists of entries that are the same describe the same targets. -/
theorem filterMap_target?_eq {entries entries' : List Ref} (h : List.Forall₂ Ref.Same entries entries') :
    entries.filterMap target? = entries'.filterMap target? := by
  refine filterMap_eq_of_forall₂ (h.imp fun entry entry' hentry => ?_)
  rw [target?, target?, Target.ofRef_eq_of_same hentry]

theorem targetsIn_eq (h : Option.Rel Ref.Same (file.field? "targets") (file'.field? "targets"))
    (standard : List Target) : targetsIn file standard = targetsIn file' standard := by
  have hlists := rel_bind (fun _ _ hr => Ref.Same.elements? hr) h
  rw [targetsIn, targetsIn]
  rcases rel_cases hlists with ⟨hnone, hnone'⟩ | ⟨entries, entries', hlist, hlist', hentries⟩
  · rw [hnone, hnone']
  · rw [hlist, hlist']
    exact filterMap_target?_eq hentries

theorem givenOr_eq {convert : Ref → Except Failure Value} (hconvert : ∀ r r', Ref.Same r r' → convert r = convert r')
    {r r' : Ref} (h : Ref.Same r r') (name : Text) (standard : Value) :
    r.givenOr convert name standard = r'.givenOr convert name standard := by
  rw [Ref.givenOr, Ref.givenOr]
  rcases rel_cases (h.field? name) with ⟨hpart, hpart'⟩ | ⟨part, part', hpart, hpart', hsame⟩
  · rw [hpart, hpart']
  · rw [hpart, hpart']
    exact hconvert _ _ hsame

theorem limitsOf_standard_eq {r r' : Ref} (h : Ref.Same r r') :
    limitsOf .standard r = limitsOf .standard r' := by
  have hinteger : ∀ r r', Ref.Same r r' → r.integer = r'.integer := fun r r' h => by
    rw [Ref.integer, Ref.integer, h.toInteger_eq]
  have hreal : ∀ r r', Ref.Same r r' → r.real = r'.real := fun r r' h => by
    rw [Ref.real, Ref.real, h.toReal_eq]
  simp only [limitsOf_standard, givenOr_eq hinteger h, givenOr_eq hreal h]

theorem limitsIn_eq (h : Option.Rel Ref.Same (file.field? limitsName) (file'.field? limitsName)) :
    limitsIn file .standard = limitsIn file' .standard := by
  rw [limitsIn, limitsIn, bind_eq_of_rel (fun r r' hr => ?_) (sectionOf_same h)]
  rw [limitsOf_standard_eq hr]

theorem pathOf_eq (e : Environment) {r r' : Ref} (h : Ref.Same r r') : pathOf e r = pathOf e r' := by
  have hkind := h.kind_eq
  have hshort := h.shortKind_eq
  obtain ⟨R, c, c', -, hr, hr', hcell⟩ := h.cells
  rw [pathOf, pathOf, hr, hr', hkind, hshort]
  cases hcell <;> rfl

theorem filter_isPresent_same {v v' : Option Ref} (h : Option.Rel Ref.Same v v') :
    Option.Rel Ref.Same (v.filter Ref.isPresent) (v'.filter Ref.isPresent) := by
  cases h with
  | none => exact .none
  | some hv =>
    simp only [Option.filter, hv.isPresent_eq]
    split
    · exact .some hv
    · exact .none

theorem rowsIn?_same (h : Option.Rel Ref.Same (file.field? "telemetry") (file'.field? "telemetry")) :
    Option.Rel Ref.Same (rowsIn? file) (rowsIn? file') :=
  filter_isPresent_same (rel_bind (fun _ _ hr => hr.field? "rows_file") (sectionOf_same h))

theorem rowsFileIn_eq (e : Environment)
    (h : Option.Rel Ref.Same (file.field? "telemetry") (file'.field? "telemetry")) (standard : Setting) :
    rowsFileIn e file standard = rowsFileIn e file' standard := by
  rw [rowsFileIn, rowsFileIn, bind_eq_of_rel (fun v v' hv => ?_) (rowsIn?_same h)]
  rw [pathOf_eq e hv]

theorem levelIn?_same (h : Option.Rel Ref.Same (file.field? "logging") (file'.field? "logging"))
    (standard : Value) : Option.Rel Ref.Same (levelIn? file standard) (levelIn? file' standard) := by
  rw [levelIn?, levelIn?]
  rcases rel_cases (sectionOf_same h) with ⟨hr, hr'⟩ | ⟨r, r', hr, hr', hsame⟩
  · rw [hr, hr']
    exact .none
  · rw [hr, hr', Option.map_some, Option.map_some]
    refine .some ?_
    rcases rel_cases (hsame.field? "level") with ⟨hv, hv'⟩ | ⟨v, v', hv, hv', hlevel⟩
    · rw [hv, hv']
      exact .refl _
    · rw [hv, hv']
      exact hlevel

theorem levelIn_eq (h : Option.Rel Ref.Same (file.field? "logging") (file'.field? "logging"))
    (standard : Value) : levelIn file standard = levelIn file' standard := by
  rw [levelIn, levelIn, bind_eq_of_rel (fun v v' hv => ?_) (levelIn?_same h standard)]
  rw [hv.toText_eq]

end Same

end Settings

end Keyscope
