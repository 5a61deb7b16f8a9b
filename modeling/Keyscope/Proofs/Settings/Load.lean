/-
# Loading a file of settings

Each section of a file stands for itself, so each has one lemma: loading it succeeds if and only if
its values are in bounds, and then the settings have what the section gives and the log has a line
for what was passed over.  A file is loaded section by section, and the four lemmas make one
(`applyFile_eq_ok`).

A value that cannot be read does not stop loading, but one that is beyond all bounds does, and so
does a path or a level that cannot be told.  So a file loads exactly if it is mild (`Mild`), and the
settings are those of the sections that can be used (`loaded_eq_ok`).
-/
import Mathlib.Tactic.Common
import Keyscope.Proofs.Outcome
import Keyscope.Proofs.Session
import Keyscope.Settings.Load

namespace Keyscope

namespace Settings

/-! ## 1. Runs -/

namespace Loading

variable {α : Type}

theorem run_ofExcept (result : Except Failure α) (log : List LogLine) :
    (ofExcept result).run log = (result, log) := rfl

theorem run_ofExcept_eq_ok {result : Except Failure α} {a : α} {log next : List LogLine} :
    (ofExcept result).run log = (.ok a, next) ↔ result = .ok a ∧ next = log :=
  Session.run_ofExcept_eq_ok

theorem run_warn_eq_ok {message : Text} {u : Unit} {log next : List LogLine} :
    (warn message).run log = (.ok u, next) ↔ next = log ++ [⟨.warning, message⟩] := by
  constructor
  · intro h
    cases h
    rfl
  · rintro rfl
    rfl

end Loading

/-! ## 2. Targets -/

/-- The target of an entry, if it describes one. -/
def target? (entry : Ref) : Option Target := (Target.ofRef entry).toOption

theorem target?_eq_some {entry : Ref} {t : Target} :
    target? entry = some t ↔ Target.ofRef entry = .ok t := Outcome.toOption_eq_some

/-- Lists that are related one by one give the same parts. -/
theorem filterMap_eq_of_forall₂ {α β γ : Type} {f : α → Option γ} {g : β → Option γ} {l : List α}
    {m : List β} (h : List.Forall₂ (fun a b => f a = g b) l m) : l.filterMap f = m.filterMap g := by
  induction h with
  | nil => rfl
  | cons hab _ ih => rw [List.filterMap_cons, List.filterMap_cons, hab, ih]

/-- What the log says of an entry, if it describes no target. -/
def skipLine? (entry : Ref) : Option LogLine :=
  match Target.ofRef entry with
  | .ok _ => none
  | .error f => (skipped entry f).toOption.map (⟨.warning, ·⟩)

/-- An entry that describes no target can be passed over: nothing in it is beyond all bounds, and it
can be shown. -/
def Passable (entry : Ref) : Prop :=
  ∀ f, Target.ofRef entry = .error f → f.isBeyondBounds = false ∧ ∃ shown, entry.shown = .ok shown

theorem targetsOf_eq_ok {entries : List Ref} {ts : List Target} {log next : List LogLine} :
    (targetsOf entries).run log = (.ok ts, next) ↔
      (∀ entry ∈ entries, Passable entry) ∧ ts = entries.filterMap target? ∧
        next = log ++ entries.filterMap skipLine? := by
  induction entries generalizing ts log next with
  | nil =>
    rw [targetsOf, Session.run_pure_eq_ok]
    simp
  | cons entry entries ih =>
    simp only [targetsOf, List.forall_mem_cons, List.filterMap_cons]
    cases htarget : Target.ofRef entry with
    | ok t =>
      have hpass : Passable entry := by
        intro f h
        rw [htarget] at h
        cases h
      simp only [Session.run_bind_eq_ok, Session.run_pure_eq_ok, ih, target?, skipLine?, htarget,
        hpass, true_and]
      constructor
      · rintro ⟨us, mid, ⟨hall, rfl, rfl⟩, rfl, rfl⟩
        exact ⟨hall, rfl, rfl⟩
      · rintro ⟨hall, rfl, rfl⟩
        exact ⟨_, _, ⟨hall, rfl, rfl⟩, rfl, rfl⟩
    | error f =>
      have hpass : Passable entry ↔ f.isBeyondBounds = false ∧ ∃ shown, entry.shown = .ok shown := by
        simp [Passable, htarget]
      cases hbounds : f.isBeyondBounds with
      | true =>
        simp only [if_true, Session.run_throw_ne_ok, hpass, hbounds, Bool.true_eq_false, false_and]
      | false =>
        simp only [hpass, hbounds, Bool.false_eq_true, if_false, Session.run_bind_eq_ok,
          Loading.run_ofExcept_eq_ok, Loading.run_warn_eq_ok, ih, target?, skipLine?, htarget,
          true_and]
        constructor
        · rintro ⟨line, _, ⟨hline, rfl⟩, _, _, rfl, hall, rfl, rfl⟩
          obtain ⟨shown, hshown, -⟩ := Outcome.exists_of_bind hline
          refine ⟨⟨⟨shown, hshown⟩, hall⟩, rfl, ?_⟩
          rw [hline, List.append_assoc _ [_]]
          rfl
        · rintro ⟨⟨⟨shown, hshown⟩, hall⟩, rfl, rfl⟩
          have hline : skipped entry f =
              .ok ("Skipping invalid target " ++ shown ++ ": " ++ f.message) := by
            rw [skipped, hshown]
            rfl
          refine ⟨_, _, ⟨hline, rfl⟩, (), _, rfl, hall, rfl, ?_⟩
          rw [hline, List.append_assoc _ [_]]
          rfl

/-- The entries that a file has for targets. -/
def entriesIn (file : Ref) : List Ref := ((file.field? "targets").bind Ref.elements?).getD []

/-- The targets of a file, if it has a list of them, even an empty one. -/
def targetsIn (file : Ref) (standard : List Target) : List Target :=
  match (file.field? "targets").bind Ref.elements? with
  | some entries => entries.filterMap target?
  | none => standard

section Sections

variable {e : Environment} {file : Ref} {s s' : Settings} {log next : List LogLine}

theorem applyTargets_eq_ok : (applyTargets file s).run log = (.ok s', next) ↔
    (∀ entry ∈ entriesIn file, Passable entry) ∧
      s' = { s with targets := targetsIn file s.targets } ∧
      next = log ++ (entriesIn file).filterMap skipLine? := by
  unfold applyTargets entriesIn targetsIn
  cases (file.field? "targets").bind Ref.elements? with
  | none =>
    rw [Session.run_pure_eq_ok]
    simp
  | some entries =>
    simp only [Session.run_bind_eq_ok, Session.run_pure_eq_ok, targetsOf_eq_ok, Option.getD_some]
    constructor
    · rintro ⟨_, _, ⟨hall, rfl, rfl⟩, rfl, rfl⟩
      exact ⟨hall, rfl, rfl⟩
    · rintro ⟨hall, rfl, rfl⟩
      exact ⟨_, _, ⟨hall, rfl, rfl⟩, rfl, rfl⟩

/-! ## 3. The other sections -/

/-- The limits of a file, if all that it gives can be used. -/
def limitsIn (file : Ref) (standard : Limits) : Limits :=
  ((sectionOf limitsName file).bind fun r => (limitsOf standard r).toOption).getD standard

/-- Why the limits of a file cannot be used. -/
def limitsFailure? (file : Ref) (standard : Limits) : Option Failure :=
  (sectionOf limitsName file).bind fun r => Outcome.failure? (limitsOf standard r)

/-- What the log says of limits that cannot be used. -/
def limitsLine (path : Text) (f : Failure) : LogLine :=
  ⟨.warning, "Ignoring invalid snapshot settings in " ++ path ++ ": " ++ f.message⟩

theorem applyLimits_eq_ok : (applyLimits file s).run log = (.ok s', next) ↔
    (∀ f, limitsFailure? file s.limits = some f → f.isBeyondBounds = false) ∧
      s' = { s with limits := limitsIn file s.limits } ∧
      next = log ++ ((limitsFailure? file s.limits).map (limitsLine s.path)).toList := by
  unfold applyLimits limitsFailure? limitsIn
  cases sectionOf limitsName file with
  | none =>
    rw [Session.run_pure_eq_ok]
    simp
  | some r =>
    simp only [Option.bind_some]
    cases limitsOf s.limits r with
    | ok l =>
      rw [Session.run_pure_eq_ok]
      simp [Outcome.failure?, Except.toOption]
    | error f =>
      dsimp only
      cases hbounds : f.isBeyondBounds with
      | true =>
        simp only [if_true, Session.run_throw_ne_ok]
        simp [Outcome.failure?, hbounds]
      | false =>
        simp only [Bool.false_eq_true, if_false, Session.run_bind_eq_ok, Loading.run_warn_eq_ok,
          Session.run_pure_eq_ok]
        simp [Outcome.failure?, hbounds, limitsLine, Except.toOption]

/-- The value that a file has for the place of rows, if it counts. -/
def rowsIn? (file : Ref) : Option Ref :=
  ((sectionOf "telemetry" file).bind (Ref.field? "rows_file")).filter Ref.isPresent

/-- The place of rows in a file, if it has one. -/
def rowsFileIn (e : Environment) (file : Ref) (standard : Setting) : Setting :=
  (((rowsIn? file).bind fun v => (pathOf e v).toOption).map .path).getD standard

theorem applyTelemetry_eq_ok : (applyTelemetry e file s).run log = (.ok s', next) ↔
    (∀ v, rowsIn? file = some v → ∃ path, pathOf e v = .ok path) ∧
      s' = { s with rowsFile := rowsFileIn e file s.rowsFile } ∧ next = log := by
  unfold applyTelemetry rowsFileIn rowsIn?
  cases (sectionOf "telemetry" file).bind (Ref.field? "rows_file") with
  | none =>
    rw [Session.run_pure_eq_ok]
    simp
  | some v =>
    dsimp only
    cases hpresent : v.isPresent with
    | false =>
      simp only [Bool.false_eq_true, if_false, Session.run_pure_eq_ok]
      simp [Option.filter, hpresent]
    | true =>
      simp only [if_true, Session.run_bind_eq_ok, Loading.run_ofExcept_eq_ok, Session.run_pure_eq_ok]
      cases hpath : pathOf e v <;> simp [Option.filter, hpresent, hpath, Except.toOption]

/-- The value that a file has for the level, if it has a section for it. -/
def levelIn? (file : Ref) (standard : Value) : Option Ref :=
  (sectionOf "logging" file).map fun r => (r.field? "level").getD (.ofValue standard)

/-- The level of a file, if it has one. -/
def levelIn (file : Ref) (standard : Value) : Value :=
  (((levelIn? file standard).bind fun v => v.toText.toOption).map (.text ·.upper)).getD standard

theorem applyLogging_eq_ok : (applyLogging file s).run log = (.ok s', next) ↔
    (∀ v, levelIn? file s.logLevel = some v → ∃ level, v.toText = .ok level) ∧
      s' = { s with logLevel := levelIn file s.logLevel } ∧ next = log := by
  unfold applyLogging levelIn levelIn?
  cases sectionOf "logging" file with
  | none =>
    rw [Session.run_pure_eq_ok]
    simp
  | some r =>
    simp only [Session.run_bind_eq_ok, Loading.run_ofExcept_eq_ok, Session.run_pure_eq_ok,
      Option.map_some, Option.bind_some]
    cases hlevel : ((r.field? "level").getD (.ofValue s.logLevel)).toText <;>
      simp [hlevel, Except.toOption]

/-! ## 4. The file -/

/-- **A file is mild**: all that cannot be used in it can be passed over. -/
structure Mild (e : Environment) (s : Settings) (file : Ref) : Prop where
  targets : ∀ entry ∈ entriesIn file, Passable entry
  limits : ∀ f, limitsFailure? file s.limits = some f → f.isBeyondBounds = false
  rowsFile : ∀ v, rowsIn? file = some v → ∃ path, pathOf e v = .ok path
  level : ∀ v, levelIn? file s.logLevel = some v → ∃ level, v.toText = .ok level

/-- The settings with what a file gives. -/
def withFile (e : Environment) (s : Settings) (file : Ref) : Settings :=
  { s with
    targets := targetsIn file s.targets
    limits := limitsIn file s.limits
    rowsFile := rowsFileIn e file s.rowsFile
    logLevel := levelIn file s.logLevel }

/-- What the log says of a file: a line for each entry that is passed over, and one for limits that
cannot be used. -/
def linesFor (s : Settings) (file : Ref) : List LogLine :=
  (entriesIn file).filterMap skipLine? ++
    ((limitsFailure? file s.limits).map (limitsLine s.path)).toList

theorem applySections_eq_ok :
    (do let s ← applyTargets file s
        let s ← applyLimits file s
        let s ← applyTelemetry e file s
        applyLogging file s : Loading Settings).run log = (.ok s', next) ↔
      Mild e s file ∧ s' = withFile e s file ∧ next = log ++ linesFor s file := by
  simp only [Session.run_bind_eq_ok, applyTargets_eq_ok, applyLimits_eq_ok, applyTelemetry_eq_ok,
    applyLogging_eq_ok]
  constructor
  · rintro ⟨_, _, ⟨htargets, rfl, rfl⟩, _, _, ⟨hlimits, rfl, rfl⟩, _, _, ⟨hrows, rfl, rfl⟩, hlevel,
      rfl, rfl⟩
    exact ⟨⟨htargets, hlimits, hrows, hlevel⟩, rfl, List.append_assoc ..⟩
  · rintro ⟨⟨htargets, hlimits, hrows, hlevel⟩, rfl, rfl⟩
    exact ⟨_, _, ⟨htargets, rfl, rfl⟩, _, _, ⟨hlimits, rfl, rfl⟩, _, _, ⟨hrows, rfl, rfl⟩, hlevel,
      rfl, (List.append_assoc ..).symm⟩

/-- The dictionary of a document, if it is one; an empty document counts as one. -/
def dictionaryIn? (document : Option Ref) : Option Ref :=
  document.bind fun r =>
    if r.isPresent then if r.isDict then some r else none else some (.ofValue (.dict []))

/-- What the log says of a file whose document is no dictionary, or which has none. -/
def refusalLine (e : Environment) (path : Text) (document : Option Ref) : LogLine :=
  ⟨.warning, if document.isSome then "Ignoring config file " ++ path ++ ": expected a mapping"
    else unreadable e path⟩

/-- Looking for a dictionary never fails; without one there is a line in the log. -/
theorem run_dictionaryOf (s : Settings) (text : Text) (log : List LogLine) :
    (dictionaryOf e s text).run log = (.ok (dictionaryIn? (Yaml.read? text)), log ++
      (dictionaryIn? (Yaml.read? text)).elim [refusalLine e s.path (Yaml.read? text)]
        fun _ => []) := by
  unfold dictionaryOf dictionaryIn?
  cases Yaml.read? text with
  | none => rfl
  | some r =>
    cases hpresent : r.isPresent with
    | false => simp [hpresent]
    | true =>
      cases hdict : r.isDict with
      | true => simp [hpresent, hdict]
      | false =>
        simp only [hpresent, hdict, Option.bind_some]
        rfl

/-- The document in a file, if there is one. -/
def document? (d : Disk) (path : Text) : Option Ref := (d.readText path).toOption.bind Yaml.read?

/-- The dictionary in a file, if it has one. -/
def dictionary? (d : Disk) (path : Text) : Option Ref := dictionaryIn? (document? d path)

/-- What the log says of a file. -/
def fileLines (e : Environment) (s : Settings) : List LogLine :=
  (dictionary? e.disk s.path).elim [refusalLine e s.path (document? e.disk s.path)] (linesFor s)

/-- **A file is loaded** if and only if its dictionary is mild, if it has one.  Without one the
settings stay. -/
theorem applyFile_eq_ok : (applyFile e s).run log = (.ok s', next) ↔
    (∀ file, dictionary? e.disk s.path = some file → Mild e s file) ∧
      s' = (dictionary? e.disk s.path).elim s (withFile e s) ∧ next = log ++ fileLines e s := by
  unfold applyFile fileLines dictionary? document?
  cases e.disk.readText s.path with
  | error f =>
    simp only [Session.run_bind_eq_ok, Loading.run_warn_eq_ok, Session.run_pure_eq_ok]
    simp [Except.toOption, dictionaryIn?, refusalLine]
  | ok text =>
    dsimp only
    rw [Session.run_bind_ok (run_dictionaryOf s text log)]
    simp only [Except.toOption, Option.bind_some]
    cases dictionaryIn? (Yaml.read? text) with
    | none =>
      rw [Session.run_pure_eq_ok]
      simp
    | some file =>
      rw [applySections_eq_ok]
      simp

end Sections

/-! ## 5. Loading -/

end Settings

/-- No variable has a name that starts so. -/
def Environment.Unset (e : Environment) (start : Text) : Prop :=
  ∀ entry ∈ e.entries, entry.1.startsWith start = false

theorem Environment.get?_of_unset {e : Environment} {start : Text} (h : e.Unset start) {name : String}
    (hname : (name : Text).startsWith start = true) : e.get? name = none := by
  have hlookup : e.entries.lookup (name : Text) = none := by
    rw [List.lookup_eq_none_iff]
    intro entry hentry
    rw [bne_iff_ne]
    rintro hsame
    rw [hsame, h entry hentry] at hname
    cases hname
  rw [get?, hlookup]

namespace Settings

/-- The names of the variables that may change settings start so. -/
def variableStart : Text := "CARTOGRAPH_"

variable {e : Environment}

/-- Without such variables nothing is changed. -/
theorem applyEnvironment_eq_ok_of_unset (h : e.Unset variableStart) {s s' : Settings}
    {log next : List LogLine} :
    (applyEnvironment e s).run log = (.ok s', next) ↔ s' = s ∧ next = log := by
  have hkeys : e.get? "CARTOGRAPH_MAX_KEYS" = none := Environment.get?_of_unset h (by decide)
  have hpayload : e.get? "CARTOGRAPH_MAX_PAYLOAD_CHARS" = none :=
    Environment.get?_of_unset h (by decide)
  have hrows : e.get? "CARTOGRAPH_TELEMETRY_FILE" = none := Environment.get?_of_unset h (by decide)
  have hlevel : e.get? "CARTOGRAPH_LOG_LEVEL" = none := Environment.get?_of_unset h (by decide)
  rw [← Session.run_pure_eq_ok]
  simp only [applyEnvironment, numberOf, hkeys, hpayload, hrows, hlevel]
  rfl

/-- The settings before anything is read. -/
def initial (targets : List Target) (path : Text) : Settings :=
  ⟨targets, .standard, .none, .text "INFO", path, []⟩

/-- **A file of settings is loaded if and only if it is mild.** -/
theorem loaded_eq_ok (h : e.Unset variableStart) {given : Option Text} {targets : List Target}
    {path : Text} (htargets : defaultTargets e = .ok targets) (hpath : pathFor e given = .ok path)
    (hexists : e.disk.exists? path = .ok true) {s : Settings} {log : List LogLine} :
    loaded e given = (.ok s, log) ↔
      (∀ file, dictionary? e.disk path = some file → Mild e (initial targets path) file) ∧
      s = (dictionary? e.disk path).elim (initial targets path) (withFile e (initial targets path)) ∧
      log = fileLines e (initial targets path) := by
  unfold loaded load
  rw [htargets, Session.run_bind_ok (Loading.run_ofExcept (.ok targets) []), hpath,
    Session.run_bind_ok (Loading.run_ofExcept (.ok path) [])]
  dsimp only
  rw [hexists, Session.run_bind_ok (Loading.run_ofExcept (.ok true) []), if_pos rfl,
    Session.run_bind_eq_ok]
  simp only [applyFile_eq_ok, applyEnvironment_eq_ok_of_unset h]
  constructor
  · rintro ⟨_, _, ⟨hmild, rfl, rfl⟩, rfl, rfl⟩
    exact ⟨hmild, rfl, rfl⟩
  · rintro ⟨hmild, rfl, rfl⟩
    exact ⟨_, _, ⟨hmild, rfl, rfl⟩, rfl, rfl⟩

/-- What can be told of settings that are loaded is told of some. -/
theorem exists_loaded_of_map {given : Option Text} {f : Settings → α} {v : α}
    (h : (loaded e given).1.toOption.map f = some v) : ∃ s log, loaded e given = (.ok s, log) ∧ f s = v := by
  obtain ⟨s, hs, hv⟩ := Option.map_eq_some_iff.mp h
  exact ⟨s, _, Prod.ext (Outcome.toOption_eq_some.mp hs) rfl, hv⟩

end Settings

end Keyscope
