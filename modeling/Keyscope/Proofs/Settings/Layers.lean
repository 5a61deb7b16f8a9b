/-
# Three layers of settings

Settings are made of three layers: the defaults, what a file says, and what environment variables say.
`exists_loaded` puts the layers together: settings are loaded if and only if the file is mild and the
variables can be read.  A file that is missing, or cannot be used as a whole, counts as an empty one
(`Unusable`), so it leaves the defaults.

Layers are put over each other setting by setting: what one section of the file says, or one entry of
its targets, never touches what comes of another one (`loaded_layers`).
-/
import Keyscope.Proofs.Settings.Faults
import Keyscope.Proofs.Settings.Overlay
import Keyscope.Proofs.Settings.Sections

namespace Keyscope

namespace Settings

variable {e : Environment} {given : Option Text} {s : Settings} {path : Text}

/-! ## 1. Files that cannot be used -/

/-- The dictionary of a file; a file without one counts as an empty one. -/
def fileIn (d : Disk) (path : Text) : Ref := (dictionary? d path).getD emptyFile

/-- **A file gives no settings**: it is not there, cannot be read, is no document, or is another
document than a dictionary. -/
inductive Unusable (d : Disk) (path : Text) : Prop
  | missing (h : d.exists? path = .ok false)
  | unreadable {f : Failure} (h : d.readText path = .error f)
  | unparseable {text : Text} (htext : d.readText path = .ok text) (h : Yaml.read? text = none)
  | noDictionary {text : Text} {r : Ref} (htext : d.readText path = .ok text)
    (hr : Yaml.read? text = some r) (h : r.isDict = false)

/-- What is not there cannot be read. -/
theorem exists_readText_error {d : Disk} (h : d.exists? path = .ok false) :
    ∃ f, d.readText path = .error f := by
  unfold Disk.exists? at h
  cases hlookup : d.lookup path with
  | ok entry =>
    rw [hlookup] at h
    cases h
  | error f =>
    refine ⟨f, ?_⟩
    rw [Disk.readText, Disk.read, hlookup]
    rfl

theorem dictionary?_of_error {d : Disk} {f : Failure} (h : d.readText path = .error f) :
    dictionary? d path = none := by
  rw [dictionary?, document?, h]
  rfl

theorem dictionary?_of_ok {d : Disk} {text : Text} (h : d.readText path = .ok text) :
    dictionary? d path = dictionaryIn? (Yaml.read? text) := by
  rw [dictionary?, document?, h]
  rfl

theorem fileIn_of_unusable {d : Disk} (h : Unusable d path) : fileIn d path = emptyFile := by
  cases h with
  | missing h =>
    obtain ⟨f, hf⟩ := exists_readText_error h
    rw [fileIn, dictionary?_of_error hf]
    rfl
  | unreadable h =>
    rw [fileIn, dictionary?_of_error h]
    rfl
  | unparseable htext h =>
    rw [fileIn, dictionary?_of_ok htext, h]
    rfl
  | noDictionary htext hr h =>
    rw [fileIn, dictionary?_of_ok htext, hr, dictionaryIn?, Option.bind_some, h]
    split <;> rfl

/-! ## 2. All layers -/

theorem elim_dictionary? (e : Environment) (targets : List Target) (path : Text) :
    (dictionary? e.disk path).elim (initial targets path) (withFile e (initial targets path)) =
      withFile e (initial targets path) (fileIn e.disk path) := by
  unfold fileIn
  cases dictionary? e.disk path with
  | none => exact (withFile_emptyFile e targets path).symm
  | some file => rfl

theorem mild_fileIn {targets : List Target} : Mild e (initial targets path) (fileIn e.disk path) ↔
    ∀ file, dictionary? e.disk path = some file → Mild e (initial targets path) file := by
  unfold fileIn
  cases dictionary? e.disk path with
  | none => simp [mild_emptyFile]
  | some file => simp

/-- **Settings are loaded** if and only if what stands for them can be told, the file is mild, and the
variables can be read. -/
theorem exists_loaded : (∃ log, loaded e given = (.ok s, log)) ↔
    ∃ targets path, defaultTargets e = .ok targets ∧ pathFor e given = .ok path ∧
      (∃ found, e.disk.exists? path = .ok found) ∧
      Mild e (initial targets path) (fileIn e.disk path) ∧
      Overlaid e (withFile e (initial targets path) (fileIn e.disk path)) s := by
  constructor
  · rintro ⟨log, h⟩
    obtain ⟨targets, _, htargets, h⟩ := Session.run_bind_eq_ok.mp h
    obtain ⟨path, _, hpath, h⟩ := Session.run_bind_eq_ok.mp h
    obtain ⟨found, _, hfound, h⟩ := Session.run_bind_eq_ok.mp h
    obtain ⟨htargets, -⟩ := Loading.run_ofExcept_eq_ok.mp htargets
    obtain ⟨hpath, -⟩ := Loading.run_ofExcept_eq_ok.mp hpath
    obtain ⟨hfound, -⟩ := Loading.run_ofExcept_eq_ok.mp hfound
    refine ⟨targets, path, htargets, hpath, ⟨found, hfound⟩, ?_⟩
    cases found with
    | true =>
      rw [if_pos rfl] at h
      obtain ⟨base, _, hbase, h⟩ := Session.run_bind_eq_ok.mp h
      obtain ⟨hmild, rfl, -⟩ := applyFile_eq_ok.mp hbase
      rw [← elim_dictionary?]
      exact ⟨mild_fileIn.mpr hmild, (exists_applyEnvironment _).mp ⟨log, h⟩⟩
    | false =>
      rw [if_neg Bool.false_ne_true] at h
      obtain ⟨base, _, hbase, h⟩ := Session.run_bind_eq_ok.mp h
      obtain ⟨rfl, -⟩ := Session.run_pure_eq_ok.mp hbase
      rw [fileIn_of_unusable (.missing hfound), withFile_emptyFile]
      exact ⟨mild_emptyFile e targets path, (exists_applyEnvironment _).mp ⟨log, h⟩⟩
  · rintro ⟨targets, path, htargets, hpath, ⟨found, hfound⟩, hmild, hover⟩
    unfold loaded load
    rw [htargets, Session.run_bind_ok (Loading.run_ofExcept (.ok targets) []), hpath,
      Session.run_bind_ok (Loading.run_ofExcept (.ok path) [])]
    dsimp only
    rw [hfound, Session.run_bind_ok (Loading.run_ofExcept (.ok found) [])]
    cases found with
    | true =>
      rw [← elim_dictionary?] at hover
      have hfile : (applyFile e (initial targets path)).run [] =
          (.ok ((dictionary? e.disk path).elim (initial targets path) (withFile e (initial targets path))),
            fileLines e (initial targets path)) :=
        applyFile_eq_ok.mpr ⟨mild_fileIn.mp hmild, rfl, rfl⟩
      obtain ⟨log, hlog⟩ := (exists_applyEnvironment _).mpr hover
      rw [if_pos rfl]
      exact ⟨log, (Session.run_bind_ok hfile _).trans hlog⟩
    | false =>
      rw [fileIn_of_unusable (.missing hfound), withFile_emptyFile] at hover
      rw [if_neg Bool.false_ne_true, Session.run_bind_ok (Session.run_pure _ _)]
      exact (exists_applyEnvironment _).mpr hover

/-! ## 3. Layers that do not touch each other -/

/-- Two files give the same where they are the same. -/
structure Isolated (file file' : Ref) (s s' : Settings) : Prop where
  targets : Option.Rel Ref.Same (file.field? "targets") (file'.field? "targets") →
    s.targets = s'.targets
  limits : Option.Rel Ref.Same (file.field? limitsName) (file'.field? limitsName) →
    s.limits = s'.limits
  rowsFile : Option.Rel Ref.Same (file.field? "telemetry") (file'.field? "telemetry") →
    s.rowsFile = s'.rowsFile
  logLevel : Option.Rel Ref.Same (file.field? "logging") (file'.field? "logging") →
    s.logLevel = s'.logLevel
  /-- Changing one entry of the targets changes at most the target that it describes. -/
  entry : ∀ {before after before' after' : List Ref} {entry entry' : Ref},
    (file.field? "targets").bind Ref.elements? = some (before ++ entry :: after) →
    (file'.field? "targets").bind Ref.elements? = some (before' ++ entry' :: after') →
    List.Forall₂ Ref.Same before before' → List.Forall₂ Ref.Same after after' →
    ∃ front back, s.targets = front ++ (target? entry).toList ++ back ∧
      s'.targets = front ++ (target? entry').toList ++ back

section Isolation

variable {disk : Disk} {b b' s s' : Settings}

theorem Overlaid.of_disk (h : Overlaid { e with disk := disk } b s) : Overlaid e b s :=
  ⟨h.maxKeys.of_disk, h.maxPayload.of_disk, h.rowsFile.of_disk, h.logLevel.of_disk, h.rest⟩

theorem Overlaid.limits_eq (h : Overlaid e b s) (h' : Overlaid e b' s') (hlimits : b.limits = b'.limits) :
    s.limits = s'.limits := by
  have hkeys := h.maxKeys
  have hpayload := h.maxPayload
  rw [hlimits] at hkeys hpayload
  calc s.limits = { b.limits with maxKeys := s.limits.maxKeys, maxPayload := s.limits.maxPayload } :=
        congrArg Settings.limits h.rest
    _ = { b'.limits with maxKeys := s'.limits.maxKeys, maxPayload := s'.limits.maxPayload } := by
        rw [hlimits, hkeys.unique h'.maxKeys, hpayload.unique h'.maxPayload]
    _ = s'.limits := (congrArg Settings.limits h'.rest).symm

/-- The targets of a list are those of its entries. -/
theorem targetsIn_around {file entry : Ref} {before after : List Ref} {standard : List Target}
    (h : (file.field? "targets").bind Ref.elements? = some (before ++ entry :: after)) :
    targetsIn file standard =
      before.filterMap target? ++ (target? entry).toList ++ after.filterMap target? := by
  simp only [targetsIn, h, List.filterMap_append, List.filterMap_cons]
  cases target? entry <;> simp

/-- Files that are the same somewhere give the same there, also with variables over them. -/
theorem isolated {file file' : Ref} {targets : List Target}
    (h : Overlaid e (withFile e (initial targets path) file) s)
    (h' : Overlaid e (withFile e (initial targets path) file') s') : Isolated file file' s s' where
  targets hsame := by
    rw [h.targets_eq, h'.targets_eq]
    exact targetsIn_eq hsame targets
  limits hsame := h.limits_eq h' (limitsIn_eq hsame)
  rowsFile hsame := by
    have hrows := h.rowsFile
    rw [withFile, rowsFileIn_eq e hsame] at hrows
    exact hrows.unique h'.rowsFile
  logLevel hsame := by
    have hlevel := h.logLevel
    rw [withFile, levelIn_eq hsame] at hlevel
    exact hlevel.unique h'.logLevel
  entry := by
    intro before after before' after' entry entry' hentries hentries' hbefore hafter
    refine ⟨before.filterMap target?, after.filterMap target?, ?_, ?_⟩
    · rw [h.targets_eq]
      exact targetsIn_around hentries
    · rw [h'.targets_eq, filterMap_target?_eq hbefore, filterMap_target?_eq hafter]
      exact targetsIn_around hentries'

end Isolation

/-! ## 4. Loaded settings -/

/-- **Settings come in layers.**  The default is one target.  What a file says comes over the defaults,
section by section, and what variables say over the file.  A file that gives no settings leaves the
defaults.  With another file, a section that says the same gives the same, and so does an entry of the
targets, whatever the rest of the file is. -/
theorem loaded_layers {log : List LogLine} (h : loaded e given = (.ok s, log)) :
    ∃ internal, defaultTargets e = .ok [internal] ∧ pathFor e given = .ok s.path ∧
      (∃ base, FromFile e [internal] (fileIn e.disk s.path) base ∧ Overlaid e base s) ∧
      (Unusable e.disk s.path → Overlaid e (initial [internal] s.path) s) ∧
      ∀ {disk : Disk} {s' : Settings} {log' : List LogLine},
        loaded { e with disk := disk } given = (.ok s', log') →
        Isolated (fileIn e.disk s.path) (fileIn disk s.path) s s' := by
  obtain ⟨targets, path, htargets, hpath, -, hmild, hover⟩ := exists_loaded.mp ⟨log, h⟩
  obtain rfl : s.path = path := hover.path_eq
  obtain ⟨internal, rfl⟩ : ∃ internal, targets = [internal] := by
    obtain ⟨port, -, hdefault⟩ := Outcome.exists_of_bind htargets
    exact ⟨_, (Except.ok.inj hdefault).symm⟩
  refine ⟨internal, htargets, hpath, ⟨_, fromFile hmild, hover⟩, fun hunusable => ?_, ?_⟩
  · rwa [fileIn_of_unusable hunusable, withFile_emptyFile] at hover
  · intro disk s' log' h'
    obtain ⟨targets', path', htargets', hpath', -, -, hover'⟩ := exists_loaded.mp ⟨log', h'⟩
    obtain rfl : targets' = [internal] := (Except.ok.inj (htargets.symm.trans htargets')).symm
    obtain rfl : path' = s.path := (Except.ok.inj (hpath.symm.trans hpath')).symm
    exact isolated hover hover'.of_disk

/-- A file with targets, limits and a level, and variables over a limit and the level. -/
def layered : Environment :=
  { withOneFile "targets: [{id: a, host: h}, 5]\nsnapshot: {max_keys_per_db: 7, scan_count: 9}\nlogging: {level: debug}" with
    entries := [("CARTOGRAPH_MAX_KEYS", "11"), ("CARTOGRAPH_LOG_LEVEL", "error")] }

/-- The target and the page size are those of the file, and the number of keys and the level are those
of the variables. -/
theorem load_layered :
    ∃ s log, loaded layered (some onePath) = (.ok s, log) ∧ s.targets = [⟨"a", "a", "h", 6379⟩] ∧
      s.limits.pageSize.toInteger.toOption = some 9 ∧
      s.limits.maxKeys.toInteger.toOption = some 11 ∧ s.logLevel.toText.toOption = some "ERROR" ∧
      ∃ internal base, FromFile layered [internal] (fileIn layered.disk s.path) base ∧
        Overlaid layered base s := by
  have hgiven : (loaded layered (some onePath)).1.toOption.map (fun s => (s.targets,
      s.limits.pageSize.toInteger.toOption, s.limits.maxKeys.toInteger.toOption,
      s.logLevel.toText.toOption)) = some (([⟨"a", "a", "h", 6379⟩] : List Target),
        (some 9 : Option Int), (some 11 : Option Int), (some "ERROR" : Option Text)) := by
    decide +kernel
  generalize hload : loaded layered (some onePath) = result at hgiven
  rcases result with ⟨_ | s, log⟩
  · cases hgiven
  · have hgiven := Option.some.inj hgiven
    simp only [Prod.mk.injEq] at hgiven
    obtain ⟨htargets, hpage, hkeys, hlevel⟩ := hgiven
    obtain ⟨internal, -, -, ⟨base, hfile, hover⟩, -, -⟩ := loaded_layers hload
    exact ⟨s, log, rfl, htargets, hpage, hkeys, hlevel, internal, base, hfile, hover⟩

end Settings

end Keyscope
