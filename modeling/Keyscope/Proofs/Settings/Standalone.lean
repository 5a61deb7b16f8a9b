/-
# The default target, saved and read again

Without a file there is one target, and its host is what a variable says, to the letter.  A target
that is read from an entry has the blanks around its host taken off, and without a host it is none.
The two ways to a target differ in this alone: the default target is what its own entry describes if
and only if there is nothing to take off its host (`defaults_reread`).

So settings without a file that are saved and loaded again have the target of that entry in place of
theirs, and are otherwise the same (`exists_loaded_reread`).  With blanks around the host another one
is asked, and with nothing but blanks there is no target at all.
-/
import Keyscope.Proofs.Settings.Saved
import Keyscope.Proofs.Settings.Variables

namespace Keyscope

/-! ## 1. The default target -/

/-- A variable that has a value has one that is not empty. -/
theorem Environment.get?_ne_nil {e : Environment} {name : String} {t : Text} (h : e.get? name = some t) :
    t ≠ [] := by
  rintro rfl
  unfold get? at h
  split at h
  · cases h
  · rename_i hne
    exact hne h

namespace Settings

/-- The default port is always that of a port. -/
theorem portFor_range (n? : Option Nat) : 1 ≤ portFor n? ∧ portFor n? ≤ 65535 := by
  rw [portFor]
  cases h : n?.filter fun n => 1 ≤ n && n ≤ 65535 with
  | none => decide
  | some n =>
    obtain ⟨-, hport⟩ := Option.filter_eq_some_iff.mp h
    simpa using hport

/-- **The default target** is read again but for its host, and has one. -/
theorem exists_default {e : Environment} {targets : List Target} (h : defaultTargets e = .ok targets) :
    ∃ t, targets = [t] ∧ t.host = (e.get? "INTERNAL_REDIS_SERVICE_NAME").getD "localhost" ∧ t.Named ∧
      t.host ≠ [] := by
  obtain ⟨-, rfl⟩ := defaultTargets_eq_ok.mp h
  obtain ⟨hpos, hle⟩ := portFor_range (e.number? "INTERNAL_REDIS_PORT")
  have hid : (Text.ofString "internal").strip = "internal" := by decide +kernel
  have hhost : (e.get? "INTERNAL_REDIS_SERVICE_NAME").getD "localhost" ≠ [] := by
    cases h : e.get? "INTERNAL_REDIS_SERVICE_NAME" with
    | none => exact List.cons_ne_nil _ _
    | some t => exact Environment.get?_ne_nil h
  exact ⟨_, rfl, rfl, ⟨hid, List.cons_ne_nil _ _, List.cons_ne_nil _ _, Int.natCast_pos.mpr hpos,
    Int.ofNat_le.mpr hle⟩, hhost⟩

/-! ## 2. Saving and loading again -/

variable {e e' : Environment} {given given' : Option Text} {s : Settings} {log : List LogLine}
  {before after : Disk}

/-- **Saved settings are loaded with their targets read again**, and are otherwise the same, if nothing
but hosts is to be read differently. -/
theorem exists_loaded_reread (h : loaded e given = (.ok s, log)) (hnamed : ∀ t ∈ s.targets, t.Named)
    (hexpand : Path.ExpandsOnce e.homeOf)
    (hyaml : ∀ items, s.sections = .ok items → Yaml.readsBack items = true)
    (hsave : s.save before = .ok after) (hagain : e.Again e') (hdisk : e'.disk = after)
    (hgiven : GivenAgain e e' given given' s.path) :
    ∃ log', loaded e' given' = (.ok s.reread, log') := by
  obtain ⟨targets, path, htargets, hpath, -, hmild, hover⟩ := exists_loaded.mp ⟨log, h⟩
  obtain rfl : s.path = path := hover.path_eq
  have hfrom := fromFile hmild
  have hsettled : SettledApart e'.homeOf s := by
    rw [hagain.homeOf]
    exact ⟨hnamed, hover.areNumbers hfrom.limits.areNumbers, hover.settledRows hexpand hfrom.rowsFile,
      hover.settledLevel hfrom.logLevel, (congrArg Settings.others hover.rest).trans hfrom.others⟩
  -- what is on the disk spells the sections that were saved
  obtain ⟨rows, hrows, hnull⟩ := hsettled.rowsFile.exists_written
  have hitems := sections_eq hnull
  obtain ⟨t, r, ht, hr, hspells⟩ := Yaml.exists_of_readsBack (hyaml _ hitems)
  obtain ⟨items, t', hitems', ht', hlookup⟩ := exists_of_save hsave
  obtain rfl : s.sectionsWith rows = items := Except.ok.inj (hitems.symm.trans hitems')
  obtain rfl : t = t' := Except.ok.inj (ht.symm.trans ht')
  have htext := readText_of_simple (Yaml.simple_write (isPlain_sections hsettled hrows) ht) hlookup
  have hfile := fileIn_eq (by simp [sectionsWith]) htext hr hspells
  obtain ⟨hmild', hsame⟩ := withFile_eq_reread hsettled hrows hspells targets
  -- and the variables leave what they gave before
  have hover' := hover.again hagain
  subst hdisk
  refine exists_loaded.mpr ⟨targets, s.path, ?_, pathFor_again hexpand hagain hpath hgiven,
    ⟨true, Disk.exists?_of_lookup hlookup⟩, ?_, ?_⟩
  · rw [defaultTargets_again hagain, htargets]
  · rwa [hfile]
  · rw [hfile, hsame]
    exact ⟨hover'.maxKeys, hover'.maxPayload, hover'.rowsFile, hover'.logLevel, rfl⟩

/-- Settings that a file says nothing about have the default targets. -/
theorem targets_of_unusable (h : loaded e given = (.ok s, log)) (hunusable : Unusable e.disk s.path) :
    defaultTargets e = .ok s.targets := by
  obtain ⟨targets, path, htargets, -, -, -, hover⟩ := exists_loaded.mp ⟨log, h⟩
  obtain rfl : s.path = path := hover.path_eq
  rw [fileIn_of_unusable hunusable, withFile_emptyFile] at hover
  rw [hover.targets_eq]
  exact htargets

/-- **When the default target is read again.**  Wherever there is a default target, its entry describes
the target itself if and only if its host has no blanks around it; otherwise it describes the one
without them, or none if nothing is left.  Settings from the default target and variables alone that
are saved are loaded again in the same surroundings: their target is the one of its entry, if there is
one, and everything else is as it was. -/
theorem defaults_reread {targets : List Target} (htargets : defaultTargets e = .ok targets) :
    ∃ t, targets = [t] ∧ t.host = (e.get? "INTERNAL_REDIS_SERVICE_NAME").getD "localhost" ∧
    (Target.ofValue t.toValue = .ok t ↔ t.host.strip = t.host) ∧
    (t.host.strip ≠ [] → Target.ofValue t.toValue = .ok { t with host := t.host.strip }) ∧
    (t.host.strip = [] → Target.ofValue t.toValue = .error (.targetWithoutHost t.id)) ∧
    ∀ {given : Option Text} {s : Settings} {log : List LogLine}, loaded e given = (.ok s, log) →
      Unusable e.disk s.path → Path.ExpandsOnce e.homeOf →
      (∀ items, s.sections = .ok items → Yaml.readsBack items = true) →
      ∀ {before after : Disk}, s.save before = .ok after →
        ∀ {e' : Environment} {given' : Option Text}, e.Again e' → e'.disk = after →
          GivenAgain e e' given given' s.path →
          ∃ s' log', loaded e' given' = (.ok s', log') ∧
            s' = { s with targets :=
              if t.host.strip = [] then [] else [{ t with host := t.host.strip }] } ∧
            (s'.targets = s.targets ↔ t.host.strip = t.host) := by
  obtain ⟨t, rfl, hhost, hnamed, hne⟩ := exists_default htargets
  refine ⟨t, rfl, hhost, ?_, ?_, ?_, ?_⟩
  · rw [hnamed.ofValue_toValue, Target.reread_eq_ok_iff hne]
  · intro h
    rw [hnamed.ofValue_toValue, Target.reread, if_neg h]
  · intro h
    rw [hnamed.ofValue_toValue, Target.reread, if_pos h]
  intro given s log hload hunusable hexpand hyaml before after hsave e' given' hagain hdisk hgiven
  have hown : s.targets = [t] :=
    Except.ok.inj ((targets_of_unusable hload hunusable).symm.trans htargets)
  obtain ⟨log', hload'⟩ := exists_loaded_reread hload (by simpa [hown] using hnamed) hexpand hyaml hsave
    hagain hdisk hgiven
  have hreread : s.reread = { s with targets :=
      if t.host.strip = [] then [] else [{ t with host := t.host.strip }] } := by
    by_cases hblank : t.host.strip = []
    · simp only [reread, hown, List.filterMap_cons, List.filterMap_nil, Target.reread, if_pos hblank]
      rfl
    · simp only [reread, hown, List.filterMap_cons, List.filterMap_nil, Target.reread, if_neg hblank]
      rfl
  refine ⟨_, log', hload', hreread, ?_⟩
  rw [hreread, hown]
  constructor
  · intro h
    dsimp only at h
    split at h
    · cases h
    · exact congrArg Target.host (List.singleton_inj.mp h)
  · intro h
    simp only [h, hne, if_false]

/-- Surroundings in which the one variable says where the default target is. -/
def withHost (host : Text) : Environment := withVariables [("INTERNAL_REDIS_SERVICE_NAME", host)]

/-- A host without blanks is there again. -/
theorem load_plain_host :
    ∃ s log disk s' log', loaded (withHost "redis") (some onePath) = (.ok s, log) ∧
      s.targets = [⟨"internal", "InternalDB", "redis", 6379⟩] ∧
      s.save (withHost "redis").disk = .ok disk ∧
      loaded ((withHost "redis").withoutOverlay disk) (some onePath) = (.ok s', log') ∧
      s'.targets = s.targets := by
  have hgiven : (loaded (withHost "redis") (some onePath)).1.toOption.map (fun s => (s.path, s.targets,
      (s.save (withHost "redis").disk).toOption.isSome, s.sections.toOption.map Yaml.readsBack)) =
        some (onePath, ([⟨"internal", "InternalDB", "redis", 6379⟩] : List Target), true,
          some true) := by
    decide +kernel
  obtain ⟨s, log, hload, htold⟩ := exists_loaded_of_map hgiven
  simp only [Prod.mk.injEq] at htold
  obtain ⟨hpath, htargets, hsaved, hback⟩ := htold
  have hyaml : ∀ items, s.sections = .ok items → Yaml.readsBack items = true := by
    intro items hitems
    rw [hitems] at hback
    exact Option.some.inj hback
  obtain ⟨disk, hdisk⟩ := Option.isSome_iff_exists.mp hsaved
  have hsave := Outcome.toOption_eq_some.mp hdisk
  have hmissing : (withHost "redis").disk.exists? s.path = .ok false := by
    rw [hpath]
    decide +kernel
  have hdefault : defaultTargets (withHost "redis") =
      .ok [⟨"internal", "InternalDB", "redis", 6379⟩] := by decide +kernel
  obtain ⟨t, ht, -, -, -, -, hreload⟩ := defaults_reread hdefault
  obtain ⟨s', log', hload', -, hsame⟩ := hreload hload (.missing hmissing)
    (Path.expandsOnce_of_absolute nofun) hyaml hsave ((withHost "redis").again_withoutOverlay disk) rfl
    (.inl (congrArg some hpath.symm))
  obtain rfl : ⟨"internal", "InternalDB", "redis", 6379⟩ = t := List.singleton_inj.mp ht
  exact ⟨s, log, disk, s', log', hload, htargets, hsave, hload', hsame.mpr (by decide +kernel)⟩

/-- **A host with blanks around it** is another one when it is read again, and one of blanks is none. -/
theorem load_padded_host :
    defaultTargets (withHost " redis ") = .ok [⟨"internal", "InternalDB", " redis ", 6379⟩] ∧
    Target.ofValue (Target.toValue ⟨"internal", "InternalDB", " redis ", 6379⟩) =
      .ok ⟨"internal", "InternalDB", "redis", 6379⟩ ∧
    ((loaded (withHost " redis ") (some onePath)).1.toOption.bind fun s =>
      (s.save (withHost " redis ").disk).toOption.bind fun disk =>
        (loaded ((withHost " redis ").withoutOverlay disk) (some onePath)).1.toOption.map (·.targets))
      = some [⟨"internal", "InternalDB", "redis", 6379⟩] ∧
    Target.ofValue (Target.toValue ⟨"internal", "InternalDB", " ", 6379⟩) =
      .error (.targetWithoutHost "internal") :=
  ⟨by decide +kernel, rfl, by decide +kernel, rfl⟩

end Settings

end Keyscope
