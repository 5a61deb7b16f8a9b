/-
# Settings that are settled

Loading brings settings in a form that loading does not change any more (`settled`): texts of targets
have no blanks around them, limits are numbers, the level is in capitals, and the place of rows is an
expanded path.  Each of these is a fixed point of what loading does to it.

Variables that say again what they said, or nothing any more, leave such settings as they are
(`Overlaid.again`).
-/
import Keyscope.Proofs.Path
import Keyscope.Proofs.Settings.Overlay
import Keyscope.Proofs.Settings.Sections
import Keyscope.Proofs.Target
import Keyscope.Proofs.Text.Upper

namespace Keyscope

/-! ## 1. The same variables again -/

theorem CodePoint.ofChar_injective : Function.Injective ofChar := by
  intro c d h
  have hval : (ofChar c).val = (ofChar d).val := congrArg Fin.val h
  exact Char.toNat_inj.mp hval

theorem Text.ofString_injective : Function.Injective ofString := fun _ _ h =>
  String.toList_inj.mp (List.map_injective_iff.mpr CodePoint.ofChar_injective h)

namespace Environment

/-- The variables that lie over what a file says, and the one that says which file it is. -/
def overlayNames : List String :=
  ["CARTOGRAPH_MAX_KEYS", "CARTOGRAPH_MAX_PAYLOAD_CHARS", "CARTOGRAPH_TELEMETRY_FILE",
    "CARTOGRAPH_LOG_LEVEL", "CARTOGRAPH_CONFIG"]

/-- **The same surroundings again**, but for the disk: each variable that lies over the file is as it
was or missing, and everything else is as it was. -/
structure Again (e e' : Environment) : Prop where
  homeOf : e'.homeOf = e.homeOf
  startHome : e'.startHome = e.startHome
  overlay : ∀ name ∈ overlayNames, e'.get? name = e.get? name ∨ e'.get? name = none
  other : ∀ name, name ∉ overlayNames → e'.get? name = e.get? name

variable {e e' : Environment} {name : String}

/-- The surroundings without the variables that lie over a file, on another disk. -/
def withoutOverlay (e : Environment) (disk : Disk) : Environment :=
  { e with
    entries := e.entries.filter fun entry => entry.1 ∉ overlayNames.map Text.ofString
    disk := disk }

/-- Names are kept or dropped as such. -/
theorem lookup_filter {p : Text → Bool} {key : Text} (h : p key = true) (entries : List (Text × Text)) :
    (entries.filter fun entry => p entry.1).lookup key = entries.lookup key := by
  induction entries with
  | nil => rfl
  | cons entry entries ih =>
    obtain ⟨name, v⟩ := entry
    by_cases hkey : key = name
    · subst hkey
      simp [h]
    · have hother : (key == name) = false := beq_false_of_ne hkey
      by_cases hp : p name = true <;> simp [List.lookup_cons, hp, ih, hother]

theorem again_withoutOverlay (e : Environment) (disk : Disk) : e.Again (e.withoutOverlay disk) where
  homeOf := rfl
  startHome := rfl
  overlay := by
    intro name hname
    refine .inr ?_
    have hnone : (e.withoutOverlay disk).entries.lookup (name : Text) = none := by
      rw [List.lookup_eq_none_iff]
      intro entry hentry
      rw [bne_iff_ne]
      intro hsame
      have hkept := of_decide_eq_true (List.mem_filter.mp hentry).2
      exact hkept (hsame ▸ List.mem_map_of_mem hname)
    rw [get?, hnone]
  other := by
    intro name hname
    have hkept : (name : Text) ∉ overlayNames.map Text.ofString := by
      rw [List.mem_map_of_injective Text.ofString_injective]
      exact hname
    have hsame := lookup_filter (p := fun key => key ∉ overlayNames.map Text.ofString)
      (decide_eq_true hkept) e.entries
    rw [get?, get?, ← hsame]
    rfl

/-- What a variable said stays, if it says it again or nothing. -/
theorem NumberOver.again {below v : Value} (h : e.NumberOver name below v)
    (hget : e'.get? name = e.get? name ∨ e'.get? name = none) : e'.NumberOver name v v := by
  rcases hget with hget | hget
  · cases h with
    | number ht hdigits hn => exact .number (hget.trans ht) hdigits hn
    | below h => exact .below fun t ht => h t (hget.symm.trans ht)
  · exact .below fun t ht => by cases hget.symm.trans ht

theorem PathOver.again {below p : Setting} (h : e.PathOver name below p) (hhome : e'.homeOf = e.homeOf)
    (hget : e'.get? name = e.get? name ∨ e'.get? name = none) : e'.PathOver name p p := by
  rcases hget with hget | hget
  · cases h with
    | path ht hp => exact .path (hget.trans ht) (hhome ▸ hp)
    | below h => exact .below (hget.trans h)
  · exact .below hget

theorem LevelOver.again {below v : Value} (h : e.LevelOver name below v)
    (hget : e'.get? name = e.get? name ∨ e'.get? name = none) : e'.LevelOver name v v := by
  rcases hget with hget | hget
  · cases h with
    | level ht => exact .level (hget.trans ht)
    | below h => exact .below (hget.trans h)
  · exact .below hget

end Environment

namespace Settings

variable {e e' : Environment} {given given' : Option Text} {s base : Settings}

theorem Overlaid.again (h : Overlaid e base s) (hagain : e.Again e') : Overlaid e' s s where
  maxKeys := h.maxKeys.again (hagain.overlay _ (by decide))
  maxPayload := h.maxPayload.again (hagain.overlay _ (by decide))
  rowsFile := h.rowsFile.again hagain.homeOf (hagain.overlay _ (by decide))
  logLevel := h.logLevel.again (hagain.overlay _ (by decide))
  rest := rfl

theorem defaultTargets_again (hagain : e.Again e') : defaultTargets e' = defaultTargets e := by
  rw [defaultTargets, defaultTargets, hagain.other _ (by decide), hagain.other _ (by decide)]

/-- Settings are asked for as before, or by the path that they have. -/
def GivenAgain (e e' : Environment) (given given' : Option Text) (path : Text) : Prop :=
  given' = some path ∨ given' = given ∧ e'.get? "CARTOGRAPH_CONFIG" = e.get? "CARTOGRAPH_CONFIG"

theorem pathFor_again (hexpand : Path.ExpandsOnce e.homeOf) (hagain : e.Again e') {path : Text}
    (hpath : pathFor e given = .ok path) (hgiven : GivenAgain e e' given given' path) :
    pathFor e' given' = .ok path := by
  rcases hgiven with rfl | ⟨rfl, hconfig⟩
  · rw [pathFor, hagain.homeOf]
    exact hexpand _ _ hpath
  · rw [pathFor, hagain.homeOf, hconfig, defaultPath, hagain.startHome]
    exact hpath

/-! ## 2. Settled settings -/

/-- A place of rows that is nowhere or a path that stays when it is expanded. -/
inductive SettledRows (homeOf : Text → Option Text) : Setting → Prop
  | none : SettledRows homeOf .none
  | path {path : Text} (h : Path.expandHome homeOf path = .ok path) : SettledRows homeOf (.path path)

/-- Limits that are numbers. -/
def AreNumbers (l : Limits) : Prop :=
  ∃ maxPayload maxKeys pageSize probeLimit snapshotLimit,
    l = .ofNumbers maxPayload maxKeys pageSize probeLimit snapshotLimit

/-- **Settings as loading leaves them.** -/
structure Settled (homeOf : Text → Option Text) (s : Settings) : Prop where
  targets : ∀ t ∈ s.targets, t.Normal
  limits : AreNumbers s.limits
  rowsFile : SettledRows homeOf s.rowsFile
  logLevel : ∃ t : Text, s.logLevel = .text t ∧ t.upper = t
  others : s.others = []

/-- Settings as loading leaves them, but for the hosts of their targets. -/
structure SettledApart (homeOf : Text → Option Text) (s : Settings) : Prop where
  targets : ∀ t ∈ s.targets, t.Named
  limits : AreNumbers s.limits
  rowsFile : SettledRows homeOf s.rowsFile
  logLevel : ∃ t : Text, s.logLevel = .text t ∧ t.upper = t
  others : s.others = []

theorem Settled.apart {homeOf : Text → Option Text} (h : Settled homeOf s) : SettledApart homeOf s :=
  ⟨fun t ht => (h.targets t ht).named, h.limits, h.rowsFile, h.logLevel, h.others⟩

/-- Settings whose targets are read again. -/
def reread (s : Settings) : Settings :=
  { s with targets := s.targets.filterMap fun t => t.reread.toOption }

theorem Settled.reread_eq {homeOf : Text → Option Text} (h : Settled homeOf s) : s.reread = s := by
  have htargets : (s.targets.filterMap fun t => t.reread.toOption) = s.targets := by
    refine (List.filterMap_congr fun t ht => ?_).trans List.filterMap_some
    rw [(h.targets t ht).reread_eq]
    rfl
  rw [reread, htargets]

theorem exists_int_of_given {r : Ref} {name : Text} {n : Int} {v : Value}
    (h : r.GivenOr Ref.integer name (.int n) v) : ∃ m, v = .int m := by
  cases h with
  | given hpart hv =>
    obtain ⟨m, -, hv⟩ := Outcome.exists_of_bind hv
    exact ⟨m, (Except.ok.inj hv).symm⟩
  | standard h => exact ⟨n, rfl⟩

theorem exists_real_of_given {r : Ref} {name : Text} {x : Binary64} {v : Value}
    (h : r.GivenOr Ref.real name (.real x) v) : ∃ y, v = .real y := by
  cases h with
  | given hpart hv =>
    obtain ⟨y, -, hv⟩ := Outcome.exists_of_bind hv
    exact ⟨y, (Except.ok.inj hv).symm⟩
  | standard h => exact ⟨x, rfl⟩

/-- Limits are numbers, whether a file gives them or not. -/
theorem LimitsFrom.areNumbers {file : Ref} {l : Limits} (h : LimitsFrom file l) : AreNumbers l := by
  cases h with
  | given hsection h =>
    obtain ⟨maxPayload, hpayload⟩ := exists_int_of_given h.maxPayload
    obtain ⟨maxKeys, hkeys⟩ := exists_int_of_given h.maxKeys
    obtain ⟨pageSize, hpage⟩ := exists_int_of_given h.pageSize
    obtain ⟨probeLimit, hprobe⟩ := exists_real_of_given h.probeLimit
    obtain ⟨snapshotLimit, hsnapshot⟩ := exists_real_of_given h.snapshotLimit
    refine ⟨maxPayload, maxKeys, pageSize, probeLimit, snapshotLimit, ?_⟩
    rw [Limits.ofNumbers, ← hpayload, ← hkeys, ← hpage, ← hprobe, ← hsnapshot]
  | refused => exact ⟨_, _, _, _, _, rfl⟩
  | noSection => exact ⟨_, _, _, _, _, rfl⟩

theorem exists_int_of_over {name : String} {n : Int} {v : Value} (h : e.NumberOver name (.int n) v) :
    ∃ m, v = .int m := by
  cases h with
  | number ht hdigits hm => exact ⟨_, rfl⟩
  | below h => exact ⟨n, rfl⟩

/-- Variables leave numbers. -/
theorem Overlaid.areNumbers (h : Overlaid e base s) (hbase : AreNumbers base.limits) :
    AreNumbers s.limits := by
  obtain ⟨maxPayload, maxKeys, pageSize, probeLimit, snapshotLimit, hbase⟩ := hbase
  have hpayload := h.maxPayload
  have hkeys := h.maxKeys
  rw [hbase] at hpayload hkeys
  obtain ⟨maxPayload', hpayload⟩ := exists_int_of_over hpayload
  obtain ⟨maxKeys', hkeys⟩ := exists_int_of_over hkeys
  refine ⟨maxPayload', maxKeys', pageSize, probeLimit, snapshotLimit, ?_⟩
  rw [congrArg Settings.limits h.rest, hpayload, hkeys, hbase]
  rfl

/-- A path of a file is an expanded one. -/
theorem exists_expandHome {v : Ref} {path : Text} (h : pathOf e v = .ok path) :
    ∃ t, Path.expandHome e.homeOf t = .ok path := by
  unfold pathOf at h
  split at h
  · exact ⟨_, h⟩
  · cases h
  · cases h

theorem RowsFrom.settled (hexpand : Path.ExpandsOnce e.homeOf) {file : Ref} {p : Setting}
    (h : RowsFrom e file p) : SettledRows e.homeOf p := by
  cases h with
  | given hv hpath =>
    obtain ⟨t, ht⟩ := exists_expandHome hpath
    exact .path (hexpand t _ ht)
  | standard h => exact .none

theorem LevelFrom.settled {file : Ref} {v : Value} (h : LevelFrom file v) :
    ∃ t : Text, v = .text t ∧ t.upper = t := by
  cases h with
  | given hsection hv ht => exact ⟨_, rfl, Text.upper_upper _⟩
  | standard h => exact ⟨_, rfl, upper_info⟩

/-- The place of rows is settled, whether a variable gives it or a file. -/
theorem Overlaid.settledRows (hexpand : Path.ExpandsOnce e.homeOf) (h : Overlaid e base s) {file : Ref}
    (hfile : RowsFrom e file base.rowsFile) : SettledRows e.homeOf s.rowsFile := by
  have hrows := h.rowsFile
  generalize s.rowsFile = p at hrows ⊢
  cases hrows with
  | path ht hp => exact .path (hexpand _ _ hp)
  | below h => exact hfile.settled hexpand

/-- The level is in capitals, whether a variable gives it or a file. -/
theorem Overlaid.settledLevel (h : Overlaid e base s) {file : Ref}
    (hfile : LevelFrom file base.logLevel) : ∃ t : Text, s.logLevel = .text t ∧ t.upper = t := by
  have hlevel := h.logLevel
  generalize s.logLevel = v at hlevel ⊢
  cases hlevel with
  | level ht => exact ⟨_, rfl, Text.upper_upper _⟩
  | below h => exact hfile.settled

/-- Targets of a list are normal, since their texts were stripped. -/
theorem TargetsFrom.normal {file : Ref} {standard ts : List Target} (h : TargetsFrom file standard ts)
    {entries : List Ref} (hentries : (file.field? "targets").bind Ref.elements? = some entries)
    (hdata : ∀ entry ∈ entries, entry.HasData) : ∀ t ∈ ts, t.Normal := by
  cases h with
  | standard h => cases h.symm.trans hentries
  | listed h =>
    obtain rfl := Option.some.inj (h.symm.trans hentries)
    intro t ht
    obtain ⟨entry, hentry, htarget⟩ := List.mem_filterMap.mp ht
    have hdescribes := Target.ofRef_eq_ok.mp (target?_eq_some.mp htarget)
    exact hdescribes.normal (hdata entry hentry)

/-- **Loading settles settings.** -/
theorem settled (hexpand : Path.ExpandsOnce e.homeOf) {standard : List Target} {file : Ref}
    (hfile : FromFile e standard file base) (hover : Overlaid e base s)
    {entries : List Ref} (hentries : (file.field? "targets").bind Ref.elements? = some entries)
    (hdata : ∀ entry ∈ entries, entry.HasData) : Settled e.homeOf s where
  targets := hover.targets_eq ▸ hfile.targets.normal hentries hdata
  limits := hover.areNumbers hfile.limits.areNumbers
  rowsFile := hover.settledRows hexpand hfile.rowsFile
  logLevel := hover.settledLevel hfile.logLevel
  others := (congrArg Settings.others hover.rest).trans hfile.others

end Settings

end Keyscope
