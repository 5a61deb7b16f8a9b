/-
# Settings that are saved

Settled settings are read as they were written, section by section (`withFile_of_spells`).  What was
saved is what is read, since only printable ASCII is written, and a file that was read can be written
again.  So settings that are saved and loaded again are the same (`saved_loads`), with the same
environment variables or without those that lie over the file, since what they said was saved.

Two things are taken for granted, as far as the settings need them.  What is written of them in YAML is
read as what was written (`Yaml.readsBack`), and a path that was expanded stays (`Path.ExpandsOnce`),
as it does where all homes start at the root.
-/
import Keyscope.Proofs.Disk
import Keyscope.Proofs.Settings.Layers
import Keyscope.Proofs.Settings.Settled
import Keyscope.Proofs.Value.Spelled
import Keyscope.Proofs.Value.Told
import Keyscope.Proofs.Yaml.Document
import Keyscope.Settings.Save

namespace Keyscope

namespace Settings

variable {e : Environment} {s : Settings} {r : Ref}

/-! ## 1. The sections that are written -/

/-- The sections of settings, with what is written for the place of rows. -/
def sectionsWith (s : Settings) (rows : Value) : List (Value × Value) :=
  [(.text "targets", .list (s.targets.map Target.toValue)), (.text "snapshot", dictOf s.limits.fields),
    (.text "telemetry", dictOf [("rows_file", rows)]), (.text "logging", dictOf [("level", s.logLevel)])]

theorem sections_eq {rows : Value} (h : s.rowsFile.textOrNull = .ok rows) :
    s.sections = .ok (s.sectionsWith rows) := by
  rw [sections, h]
  rfl

theorem exists_toValue {rows : Value} (h : s.rowsFile.textOrNull = .ok rows) :
    ∃ dict, s.toValue = .ok dict := by
  rw [toValue, h]
  exact ⟨_, rfl⟩

/-- What is written for a place of rows. -/
inductive WrittenRows : Setting → Value → Prop
  | none : WrittenRows .none .null
  | path (path : Text) : WrittenRows (.path path) (.text path)

theorem SettledRows.exists_written {homeOf : Text → Option Text} {p : Setting} (h : SettledRows homeOf p) :
    ∃ rows, WrittenRows p rows ∧ p.textOrNull = .ok rows := by
  cases h with
  | none => exact ⟨_, .none, rfl⟩
  | path h => exact ⟨_, .path _, rfl⟩

theorem WrittenRows.isScalar {p : Setting} {rows : Value} (h : WrittenRows p rows) : rows.IsScalar := by
  cases h with
  | none => exact .null
  | path path => exact .text path

/-- Fields have names for keys. -/
theorem exists_name_dictOf {fields : List (Text × Value)} :
    ∀ item ∈ fields.map fun f => (Value.text f.1, f.2), ∃ t, item.1 = .text t := by
  intro item hitem
  obtain ⟨field, -, rfl⟩ := List.mem_map.mp hitem
  exact ⟨_, rfl⟩

theorem isPlain_dictOf {fields : List (Text × Value)} (h : ∀ field ∈ fields, field.2.IsScalar) :
    (dictOf fields).IsPlain := by
  refine .dict exists_name_dictOf fun item hitem => ?_
  obtain ⟨field, hfield, rfl⟩ := List.mem_map.mp hitem
  exact .scalar (h field hfield)

theorem isPlain_target (t : Target) : t.toValue.IsPlain := by
  refine .dict (by simp) ?_
  simp [Value.IsPlain.scalar, Value.IsScalar.text, Value.IsScalar.int]

theorem isPlain_sections {homeOf : Text → Option Text} (h : SettledApart homeOf s) {rows : Value}
    (hrows : WrittenRows s.rowsFile rows) : (Value.dict (s.sectionsWith rows)).IsPlain := by
  obtain ⟨maxPayload, maxKeys, pageSize, probeLimit, snapshotLimit, hlimits⟩ := h.limits
  obtain ⟨level, hlevel, -⟩ := h.logLevel
  have htargets : (Value.list (s.targets.map Target.toValue)).IsPlain := by
    refine .list fun v hv => ?_
    obtain ⟨t, -, rfl⟩ := List.mem_map.mp hv
    exact isPlain_target t
  have hlimits : (dictOf s.limits.fields).IsPlain := by
    rw [hlimits]
    exact isPlain_dictOf (by simp [Limits.fields, Limits.ofNumbers, Value.IsScalar.int, Value.IsScalar.real])
  have hlevel : (dictOf [("level", s.logLevel)]).IsPlain := by
    rw [hlevel]
    exact isPlain_dictOf (by simp [Value.IsScalar.text])
  refine .dict (by simp [sectionsWith]) ?_
  simp [sectionsWith, htargets, hlimits, hlevel, isPlain_dictOf, hrows.isScalar]

theorem isPlain_sectionsWith {homeOf : Text → Option Text} (h : Settled homeOf s) {rows : Value}
    (hrows : WrittenRows s.rowsFile rows) : (Value.dict (s.sectionsWith rows)).IsPlain :=
  isPlain_sections h.apart hrows

/-! ## 2. Sections that are read again -/

section Spelled

variable {homeOf : Text → Option Text} {rows : Value} {fields : List (Text × Value)} {name : Text}

/-- A section is found where it is spelled. -/
theorem exists_sectionOf (h : r.Spells (.dict (s.sectionsWith rows)))
    (hfields : Value.field? name (s.sectionsWith rows) = some (dictOf fields)) :
    ∃ part, sectionOf name r = some part ∧ part.Spells (dictOf fields) := by
  obtain ⟨part, hpart, hspells⟩ := h.exists_field (by simp [sectionsWith]) hfields
  refine ⟨part, ?_, hspells⟩
  rw [sectionOf, hpart]
  exact if_pos hspells.isDict

/-- What spells what a target is written as is an entry of it. -/
theorem entry_of_spells {t : Target} (h : r.Spells t.toValue) : t.Entry r := by
  have hkeys : ∀ item ∈ [(Value.text "id", Value.text t.id), (.text "name", .text t.name),
      (.text "host", .text t.host), (.text "port", .int t.port)], ∃ u, item.1 = .text u := by simp
  exact ⟨h.isDict, h.hasLeaf hkeys (.text _) rfl, h.hasLeaf hkeys (.text _) rfl,
    h.hasLeaf hkeys (.text _) rfl, h.hasLeaf hkeys (.int _) rfl⟩

/-- A target is read from its own entry, and its host is read again. -/
theorem ofRef_of_spells {t : Target} (hnamed : t.Named) (h : r.Spells t.toValue) :
    Target.ofRef r = t.reread := hnamed.ofRef (entry_of_spells h)

/-- An entry whose target has no host can be passed over. -/
theorem passable_of_spells {t : Target} (hnamed : t.Named) (h : r.Spells t.toValue) : Passable r := by
  intro f hf
  rw [ofRef_of_spells hnamed h, Target.reread] at hf
  split at hf
  · obtain rfl := Except.error.inj hf
    have hport : t.port.natAbs < tenTo 5 := by
      have hpos := hnamed.port_pos
      have hle := hnamed.port_le
      rw [Target.lastPort] at hle
      rw [show tenTo 5 = 100000 from rfl]
      omega
    refine ⟨rfl, h.exists_shown ?_⟩
    simp [Value.IsScalar.text, Value.IsScalar.int, Value.shown, Value.integerText_of_lt hport (by decide)]
  · cases hf

/-- **Targets are read from their entries**, one by one, and none of them keeps the file from being
read. -/
theorem targets_of_spells (hnamed : ∀ t ∈ s.targets, t.Named)
    (h : r.Spells (.dict (s.sectionsWith rows))) (standard : List Target) :
    targetsIn r standard = s.reread.targets ∧ ∀ entry ∈ entriesIn r, Passable entry := by
  have hlist : Value.field? "targets" (s.sectionsWith rows) =
      some (.list (s.targets.map Target.toValue)) := rfl
  obtain ⟨part, hpart, hspells⟩ := h.exists_field (by simp [sectionsWith]) hlist
  obtain ⟨entries, hentries, hall⟩ := hspells.exists_elements
  rw [List.forall₂_map_right_iff] at hall
  rw [targetsIn, entriesIn, hpart, Option.bind_some, hentries]
  constructor
  · have hboth := (List.forall₂_and_left _ _).mpr ⟨hnamed, hall.flip⟩
    refine (filterMap_eq_of_forall₂ (hboth.imp fun t entry h => ?_)).symm
    rw [target?, ofRef_of_spells h.1 h.2]
  · intro entry hentry
    obtain ⟨t, ht, hentry⟩ := Outcome.exists_of_forall₂ hall.flip hentry
    exact passable_of_spells (hnamed t ht) hentry

theorem integer_of_leaf {n : Int} (h : Target.HasLeaf r name (.int n)) (standard : Value) :
    r.GivenOr Ref.integer name standard (.int n) := by
  obtain ⟨part, hpart, hcell⟩ := h
  refine .given hpart ?_
  rw [Ref.integer, Ref.toInteger, hcell]
  rfl

theorem real_of_leaf {x : Binary64} (h : Target.HasLeaf r name (.real x)) (standard : Value) :
    r.GivenOr Ref.real name standard (.real x) := by
  obtain ⟨part, hpart, hcell⟩ := h
  refine .given hpart ?_
  rw [Ref.real, Ref.toReal, hcell]
  rfl

theorem limits_of_spells (hlimits : AreNumbers s.limits) (h : r.Spells (.dict (s.sectionsWith rows))) :
    limitsIn r .standard = s.limits ∧ limitsFailure? r .standard = none := by
  have hfields : Value.field? limitsName (s.sectionsWith rows) = some (dictOf s.limits.fields) := rfl
  obtain ⟨part, hpart, hspells⟩ := exists_sectionOf h hfields
  obtain ⟨maxPayload, maxKeys, pageSize, probeLimit, snapshotLimit, hlimits⟩ := hlimits
  rw [hlimits] at hspells
  have hgiven : GivenLimits part s.limits := by
    rw [hlimits]
    exact {
      maxPayload := integer_of_leaf (hspells.hasLeaf exists_name_dictOf (.int maxPayload) rfl) _
      maxKeys := integer_of_leaf (hspells.hasLeaf exists_name_dictOf (.int maxKeys) rfl) _
      pageSize := integer_of_leaf (hspells.hasLeaf exists_name_dictOf (.int pageSize) rfl) _
      probeLimit := real_of_leaf (hspells.hasLeaf exists_name_dictOf (.real probeLimit) rfl) _
      snapshotLimit := real_of_leaf (hspells.hasLeaf exists_name_dictOf (.real snapshotLimit) rfl) _ }
  rw [limitsIn, limitsFailure?, hpart, Option.bind_some, Option.bind_some, limitsOf_eq_ok.mpr hgiven]
  exact ⟨rfl, rfl⟩

theorem rowsFile_of_spells (hsettled : SettledRows e.homeOf s.rowsFile) (hrows : WrittenRows s.rowsFile rows)
    (h : r.Spells (.dict (s.sectionsWith rows))) :
    rowsFileIn e r .none = s.rowsFile ∧ ∀ v, rowsIn? r = some v → ∃ path, pathOf e v = .ok path := by
  have hfields : Value.field? "telemetry" (s.sectionsWith rows) =
      some (dictOf [("rows_file", rows)]) := rfl
  obtain ⟨part, hpart, hspells⟩ := exists_sectionOf h hfields
  have hleaf : Target.HasLeaf part "rows_file" rows :=
    hspells.hasLeaf exists_name_dictOf hrows.isScalar rfl
  obtain ⟨v, hv, hcell⟩ := hleaf
  have hfind : rowsIn? r = (some v).filter Ref.isPresent := by rw [rowsIn?, hpart, Option.bind_some, hv]
  generalize s.rowsFile = p at hrows hsettled ⊢
  cases hrows with
  | none =>
    have habsent : v.isPresent = false := by rw [Ref.isPresent, hcell]; rfl
    rw [Option.filter_some_neg (by simp [habsent])] at hfind
    rw [rowsFileIn, hfind]
    exact ⟨rfl, by simp⟩
  | path path =>
    have hpath : Path.expandHome e.homeOf path = .ok path := by
      cases hsettled with
      | path h => exact h
    have hpresent : v.isPresent = true := by
      rw [Ref.isPresent, hcell]
      simpa [Value.isPresent] using Path.expandHome_ne_nil hpath
    rw [Option.filter_some_pos hpresent] at hfind
    have hpathOf : pathOf e v = .ok path := by
      rw [pathOf, hcell]
      exact hpath
    rw [rowsFileIn, hfind, Option.bind_some, hpathOf]
    refine ⟨rfl, fun w hw => ?_⟩
    obtain rfl := Option.some.inj hw
    exact ⟨path, hpathOf⟩

theorem logLevel_of_spells (hlevel : ∃ t : Text, s.logLevel = .text t ∧ t.upper = t)
    (h : r.Spells (.dict (s.sectionsWith rows))) :
    levelIn r (.text "INFO") = s.logLevel ∧
      ∀ v, levelIn? r (.text "INFO") = some v → ∃ level, v.toText = .ok level := by
  have hfields : Value.field? "logging" (s.sectionsWith rows) = some (dictOf [("level", s.logLevel)]) :=
    rfl
  obtain ⟨part, hpart, hspells⟩ := exists_sectionOf h hfields
  obtain ⟨t, hlevel, hupper⟩ := hlevel
  rw [hlevel] at hspells
  have hleaf : Target.HasLeaf part "level" (.text t) := hspells.hasLeaf exists_name_dictOf (.text t) rfl
  obtain ⟨v, hv, hcell⟩ := hleaf
  have htext : v.toText = .ok t := by
    rw [Ref.toText, hcell]
    rfl
  have hfind : levelIn? r (.text "INFO") = some v := by
    rw [levelIn?, hpart, Option.map_some, hv, Option.getD_some]
  rw [levelIn, hfind, Option.bind_some, htext, hlevel]
  refine ⟨congrArg Value.text hupper, fun w hw => ?_⟩
  obtain rfl := Option.some.inj hw
  exact ⟨t, htext⟩

/-- **Settled settings are read as they were written**, but for the hosts of their targets. -/
theorem withFile_eq_reread (hsettled : SettledApart e.homeOf s) (hrows : WrittenRows s.rowsFile rows)
    (h : r.Spells (.dict (s.sectionsWith rows))) (targets : List Target) :
    Mild e (initial targets s.path) r ∧ withFile e (initial targets s.path) r = s.reread := by
  obtain ⟨htargets, hpassable⟩ := targets_of_spells hsettled.targets h targets
  obtain ⟨hlimits, hnone⟩ := limits_of_spells hsettled.limits h
  obtain ⟨hrowsFile, hpath⟩ := rowsFile_of_spells hsettled.rowsFile hrows h
  obtain ⟨hlevel, htext⟩ := logLevel_of_spells hsettled.logLevel h
  refine ⟨⟨hpassable, fun f hf => ?_, hpath, htext⟩, ?_⟩
  · cases hnone.symm.trans hf
  · simp only [withFile, initial, htargets, hlimits, hrowsFile, hlevel, ← hsettled.others]
    rfl

theorem withFile_of_spells (hsettled : Settled e.homeOf s) (hrows : WrittenRows s.rowsFile rows)
    (h : r.Spells (.dict (s.sectionsWith rows))) (targets : List Target) :
    Mild e (initial targets s.path) r ∧ withFile e (initial targets s.path) r = s := by
  obtain ⟨hmild, hsame⟩ := withFile_eq_reread hsettled.apart hrows h targets
  exact ⟨hmild, hsame.trans hsettled.reread_eq⟩

end Spelled

/-! ## 3. Files that are written -/

/-- What was saved is the text of the sections. -/
theorem exists_of_save {d d' : Disk} (h : s.save d = .ok d') :
    ∃ items t, s.sections = .ok items ∧ Yaml.write items = .ok t ∧
      d'.lookup s.path = .ok (.file (t.flatMap Utf8.encodePoint)) := by
  obtain ⟨d₁, -, h⟩ := Outcome.exists_of_bind h
  obtain ⟨items, hitems, h⟩ := Outcome.exists_of_bind h
  obtain ⟨d₂, -, h⟩ := Outcome.exists_of_bind h
  obtain ⟨t, ht, h⟩ := Outcome.exists_of_bind h
  exact ⟨items, t, hitems, ht, Disk.lookup_write h⟩

/-- Settings can be saved where a file is already. -/
theorem exists_save {d : Disk} {old : Bytes} (hnormal : Path.normal s.path = s.path)
    (hfile : d.lookup s.path = .ok (.file old)) {items : List (Value × Value)} {t : Text}
    (hitems : s.sections = .ok items) (ht : Yaml.write items = .ok t) : ∃ d', s.save d = .ok d' := by
  obtain ⟨d₁, hempty⟩ := Disk.exists_write hfile []
  obtain ⟨d₂, hwrite⟩ := Disk.exists_write (Disk.lookup_write hempty) (t.flatMap Utf8.encodePoint)
  refine ⟨d₂, ?_⟩
  rw [save, Disk.ensureDirectories_eq_self (Disk.lookup_parent hnormal hfile), Outcome.ok_bind, hitems,
    Outcome.ok_bind, hempty, Outcome.ok_bind, fileText, ht]
  exact hwrite

/-- The settings that a file with a list of targets gives come of a document on the disk. -/
theorem exists_file_of_listed {d : Disk} {path : Text} {entries : List Ref}
    (h : ((fileIn d path).field? "targets").bind Ref.elements? = some entries) :
    (∃ bytes, d.lookup path = .ok (.file bytes)) ∧ (fileIn d path).graph.HasAtoms := by
  have hne : fileIn d path ≠ emptyFile := by
    intro hempty
    rw [hempty] at h
    cases h
  cases htext : d.readText path with
  | error f =>
    refine absurd ?_ hne
    rw [fileIn, dictionary?_of_error htext]
    rfl
  | ok text =>
    obtain ⟨bytes, hbytes, -⟩ := Outcome.exists_of_bind htext
    refine ⟨⟨bytes, Disk.read_eq_ok.mp hbytes⟩, ?_⟩
    rw [fileIn, dictionary?_of_ok htext] at hne ⊢
    cases hr : Yaml.read? text with
    | none =>
      rw [hr] at hne
      exact absurd rfl hne
    | some r =>
      rw [hr] at hne
      rw [dictionaryIn?, Option.bind_some] at hne ⊢
      split at hne
      · split at hne
        · rename_i hpresent hdict
          rw [if_pos hpresent, if_pos hdict]
          exact Yaml.hasAtoms_read hr
        · exact absurd rfl hne
      · exact absurd rfl hne

/-- A text of printable ASCII is read as it was written. -/
theorem readText_of_simple {d : Disk} {path t : Text} (ht : Yaml.Writer.Simple t)
    (h : d.lookup path = .ok (.file (t.flatMap Utf8.encodePoint))) : d.readText path = .ok t := by
  refine Disk.readText_eq (fun c hc => ?_) h
  have hsimple := ht c hc
  simp only [Yaml.Writer.isSimple, Bool.or_eq_true, decide_eq_true_eq, Bool.and_eq_true] at hsimple
  rcases hsimple with rfl | ⟨hlow, hhigh⟩
  · decide
  · refine ⟨?_, by omega⟩
    simp [CodePoint.isSurrogate]
    omega

/-- The document that spells a dictionary is the dictionary of its file. -/
theorem fileIn_eq {d : Disk} {path t : Text} {items : List (Value × Value)} (hitems : items ≠ [])
    (htext : d.readText path = .ok t) (hr : Yaml.read? t = some r) (h : r.Spells (.dict items)) :
    fileIn d path = r := by
  rw [fileIn, dictionary?_of_ok htext, hr, dictionaryIn?, Option.bind_some, if_pos (h.isPresent hitems),
    if_pos h.isDict]
  rfl

end Settings

/-! ## 4. Saved settings -/

/-- Whether what is written of a dictionary is read as what was written. -/
def Yaml.readsBack (items : List (Value × Value)) : Bool :=
  match write items with
  | .ok t => (read? t).any fun r => r.graph.spells (.dict items) r.place
  | .error _ => false

theorem Yaml.exists_of_readsBack {items : List (Value × Value)} (h : readsBack items = true) :
    ∃ t r, write items = .ok t ∧ read? t = some r ∧ r.Spells (.dict items) := by
  unfold readsBack at h
  split at h
  · rename_i t ht
    obtain ⟨r, hr, hspells⟩ := (Option.any_eq_true _ _).mp h
    exact ⟨t, r, ht, hr, hspells⟩
  · cases h

namespace Settings

variable {e : Environment} {given : Option Text} {s : Settings}

/-- **Saving settings loses nothing.**  Settings that were loaded from a file with a list of targets can
be saved there, and have a dictionary to show.  Wherever they were saved, they are loaded again as they
were, with the variables that lie over the file or without them. -/
theorem saved_loads {log : List LogLine} (h : loaded e given = (.ok s, log)) {entries : List Ref}
    (hentries : ((fileIn e.disk s.path).field? "targets").bind Ref.elements? = some entries)
    (hexpand : Path.ExpandsOnce e.homeOf)
    (hyaml : ∀ items, s.sections = .ok items → Yaml.readsBack items = true) :
    (∃ dict, s.toValue = .ok dict) ∧ (∃ disk, s.save e.disk = .ok disk) ∧
      ∀ {before after : Disk}, s.save before = .ok after →
        ∀ {e' : Environment} {given' : Option Text}, e.Again e' → e'.disk = after →
          GivenAgain e e' given given' s.path → ∃ log', loaded e' given' = (.ok s, log') := by
  obtain ⟨targets, path, htargets, hpath, -, hmild, hover⟩ := exists_loaded.mp ⟨log, h⟩
  obtain rfl : s.path = path := hover.path_eq
  -- the settings are settled, since the file was a document
  obtain ⟨⟨old, hold⟩, hatoms⟩ := exists_file_of_listed hentries
  have hsettled : Settled e.homeOf s :=
    settled hexpand (fromFile hmild) hover hentries (Ref.hasData_elements hatoms hentries)
  obtain ⟨rows, hrows, hnull⟩ := hsettled.rowsFile.exists_written
  have hitems := sections_eq hnull
  obtain ⟨t, r, ht, hr, hspells⟩ := Yaml.exists_of_readsBack (hyaml _ hitems)
  refine ⟨exists_toValue hnull, exists_save (Path.normal_of_expandHome hpath) hold hitems ht, ?_⟩
  intro before after hsave e' given' hagain hdisk hgiven
  -- the file that was saved is the document that spells the sections
  obtain ⟨items', t', hitems', ht', hlookup⟩ := exists_of_save hsave
  obtain rfl : s.sectionsWith rows = items' := Except.ok.inj (hitems.symm.trans hitems')
  obtain rfl : t = t' := Except.ok.inj (ht.symm.trans ht')
  have htext := readText_of_simple (Yaml.simple_write (isPlain_sectionsWith hsettled hrows) ht) hlookup
  have hfile := fileIn_eq (by simp [sectionsWith]) htext hr hspells
  -- so the file gives the settings themselves, and the variables leave them
  rw [← hagain.homeOf] at hsettled
  obtain ⟨hmild', hsame⟩ := withFile_of_spells hsettled hrows hspells targets
  subst hdisk
  refine exists_loaded.mpr ⟨targets, s.path, ?_, pathFor_again hexpand hagain hpath hgiven,
    ⟨true, Disk.exists?_of_lookup hlookup⟩, ?_, ?_⟩
  · rw [defaultTargets_again hagain, htargets]
  · rwa [hfile]
  · rw [hfile, hsame]
    exact hover.again hagain

/-- A number of keys and a level that variables gave are there again without the variables. -/
theorem load_saved :
    ∃ s log disk log', loaded layered (some onePath) = (.ok s, log) ∧
      s.limits.maxKeys.toInteger.toOption = some 11 ∧ s.save layered.disk = .ok disk ∧
      loaded (layered.withoutOverlay disk) (some onePath) = (.ok s, log') := by
  have hgiven : (loaded layered (some onePath)).1.toOption.map (fun s => (s.path,
      s.limits.maxKeys.toInteger.toOption, s.sections.toOption.map Yaml.readsBack)) =
        some (onePath, (some 11 : Option Int), some true) := by
    decide +kernel
  have hlisted : (((fileIn layered.disk onePath).field? "targets").bind Ref.elements?).isSome = true := by
    decide +kernel
  obtain ⟨entries, hentries⟩ := Option.isSome_iff_exists.mp hlisted
  generalize hload : loaded layered (some onePath) = result at hgiven
  rcases result with ⟨_ | s, log⟩
  · cases hgiven
  have hgiven := Option.some.inj hgiven
  simp only [Prod.mk.injEq] at hgiven
  obtain ⟨hpath, hkeys, hback⟩ := hgiven
  have hyaml : ∀ items, s.sections = .ok items → Yaml.readsBack items = true := by
    intro items hitems
    rw [hitems] at hback
    exact Option.some.inj hback
  obtain ⟨-, ⟨disk, hsave⟩, hloads⟩ := saved_loads hload (hpath.symm ▸ hentries)
    (Path.expandsOnce_of_absolute nofun) hyaml
  obtain ⟨log', hlog⟩ := hloads hsave (layered.again_withoutOverlay disk) rfl (.inl (congrArg some hpath.symm))
  exact ⟨s, log, disk, log', rfl, hkeys, hsave, hlog⟩

end Settings

end Keyscope
