/-
# Settings that can be used

Settings are checked rule by rule: a rule that is broken adds a line of words, and settings without
any are used (`problems_eq`).  The rules for whole numbers, targets and the level are broken
exactly where they should be (`Sound`).

The two rules for timeouts are broken by a comparison that holds, so they say of a NaN that nothing is
wrong: timeouts are let pass if they are not in the wrong order (`Unopposed`), and not only if they are
in the right one (`Ordered`).  Where both are numbers the two are the same
(`problems_eq_nil_iff_usable`).
-/
import Keyscope.Proofs.Number.Line
import Keyscope.Proofs.Service
import Keyscope.Proofs.Settings.Layers
import Keyscope.Proofs.Settings.Settled

namespace Keyscope

namespace Settings

/-! ## 1. The rules -/

/-- **What settings must be to be used**, apart from their timeouts, where their limits are these. -/
structure Sound (s : Settings) (maxPayload maxKeys pageSize : Int) : Prop where
  targets : s.targets ≠ []
  ids : (s.targets.map (·.id)).Nodup
  maxPayload : 1 ≤ maxPayload
  maxKeys : 1 ≤ maxKeys
  pageSize : 1 ≤ pageSize
  level : ∃ name ∈ ["DEBUG", "INFO", "WARNING", "ERROR", "CRITICAL"],
    s.logLevel = .text (Text.ofString name)

/-- **What timeouts must be**: a probe has some time, and less than a snapshot. -/
def Ordered (probe snapshot : Binary64) : Prop :=
  ∃ p t, probe.point? = some p ∧ snapshot.point? = some t ∧ 0 < p ∧ p < t

/-- **Settings that can be used**, where their limits are these. -/
structure Usable (s : Settings) (maxPayload maxKeys pageSize : Int) (probe snapshot : Binary64) :
    Prop where
  sound : Sound s maxPayload maxKeys pageSize
  ordered : Ordered probe snapshot

/-- Timeouts of which nothing can be said against: those that can be compared are in the right order. -/
def Unopposed (probe snapshot : Binary64) : Prop :=
  ∀ p, probe.point? = some p → 0 < p ∧ ∀ t, snapshot.point? = some t → p < t

theorem ordered_iff {probe snapshot : Binary64} :
    Ordered probe snapshot ↔
      probe.point? ≠ none ∧ snapshot.point? ≠ none ∧ Unopposed probe snapshot := by
  rw [Ordered, Unopposed]
  cases probe.point? with
  | none => simp
  | some p =>
    cases snapshot.point? with
    | none => simp
    | some t => simp

/-! ## 2. The checks -/

section Numbers

variable {s : Settings} {maxPayload maxKeys pageSize : Int} {probe snapshot : Binary64}

/-- The checks of limits that are numbers. -/
theorem limitProblems_ofNumbers (maxPayload maxKeys pageSize : Int) (probe snapshot : Binary64) :
    limitProblems (.ofNumbers maxPayload maxKeys pageSize probe snapshot) = .ok
      (broken ((Quantity.whole maxPayload).le 0) "snapshot.max_payload_chars must be positive" ++
        broken ((Quantity.whole maxKeys).le 0) "snapshot.max_keys_per_db must be positive" ++
        broken ((Quantity.whole pageSize).le 0) "snapshot.scan_count must be positive" ++
        broken ((Quantity.real probe).le 0) "snapshot.probe_connect_timeout must be positive" ++
        broken ((Quantity.real snapshot).le (.real probe))
          "snapshot.probe_connect_timeout must be shorter than snapshot_connect_timeout") := rfl

/-- Limits that are numbers pass if and only if they are positive and nothing can be said against
the timeouts. -/
theorem limitProblems_eq_nil_iff :
    limitProblems (.ofNumbers maxPayload maxKeys pageSize probe snapshot) = .ok [] ↔
      1 ≤ maxPayload ∧ 1 ≤ maxKeys ∧ 1 ≤ pageSize ∧ Unopposed probe snapshot := by
  have hwhole : ∀ n : Int, (Quantity.whole n).le 0 = false ↔ 1 ≤ n := by
    intro n
    rw [show (0 : Quantity) = .whole 0 from rfl, Quantity.le_whole, decide_eq_false_iff_not]
    omega
  have hzero : ((Quantity.real probe).le 0 = false) ↔ ∀ p, probe.point? = some p → 0 < p := by
    rw [Quantity.le_eq_false_iff]
    simp [Quantity.point?]
  have horder : ((Quantity.real snapshot).le (.real probe) = false) ↔
      ∀ p, probe.point? = some p → ∀ t, snapshot.point? = some t → p < t := by
    rw [Quantity.le_eq_false_iff]
    exact ⟨fun h p hp t ht => h t p ht hp, fun h t p ht hp => h p hp t ht⟩
  have htimeouts : Unopposed probe snapshot ↔ (Quantity.real probe).le 0 = false ∧
      (Quantity.real snapshot).le (.real probe) = false := by
    rw [hzero, horder]
    exact ⟨fun h => ⟨fun p hp => (h p hp).1, fun p hp => (h p hp).2⟩,
      fun h p hp => ⟨h.1 p hp, h.2 p hp⟩⟩
  rw [limitProblems_ofNumbers, htimeouts]
  simp only [Except.ok.injEq, List.append_eq_nil_iff, broken_eq_nil, hwhole, and_assoc]

theorem hasKnownLevel_iff : s.hasKnownLevel = true ↔
    ∃ name ∈ ["DEBUG", "INFO", "WARNING", "ERROR", "CRITICAL"],
      s.logLevel = .text (Text.ofString name) := by
  rw [hasKnownLevel]
  cases s.logLevel with
  | text t => simp [levels]
  | _ => simp

/-- **The checks, rule by rule.** -/
theorem problems_eq {l : Limits} {limits : List Text} {level : Text} (husable : s.usableLimits = .ok l)
    (hlimits : limitProblems l = .ok limits) (hlevel : s.logLevel.toText = .ok level) :
    s.problems = .ok (broken s.targets.isEmpty "at least one target must be configured" ++
      broken (!allDistinct (s.targets.map (·.id))) "target ids must be unique" ++ limits ++
      broken (!s.hasKnownLevel) ("unknown logging.level '" ++ level ++ "'")) := by
  rw [problems, husable, Outcome.ok_bind, hlimits, Outcome.ok_bind]
  cases s.hasKnownLevel with
  | true => rfl
  | false =>
    rw [hlevel]
    rfl

/-- **What is let pass.**  Settings whose limits are numbers have no problems if and only if they are
sound and nothing can be said against their timeouts. -/
theorem problems_eq_nil_iff
    (husable : s.usableLimits = .ok (.ofNumbers maxPayload maxKeys pageSize probe snapshot))
    (hlevel : s.logLevel.HasText) : s.problems = .ok [] ↔
      Sound s maxPayload maxKeys pageSize ∧ Unopposed probe snapshot := by
  obtain ⟨level, hlevel⟩ := hlevel
  obtain ⟨limits, hlimits⟩ :
      ∃ limits, limitProblems (.ofNumbers maxPayload maxKeys pageSize probe snapshot) = .ok limits :=
    ⟨_, limitProblems_ofNumbers ..⟩
  have hnil : limits = [] ↔
      1 ≤ maxPayload ∧ 1 ≤ maxKeys ∧ 1 ≤ pageSize ∧ Unopposed probe snapshot := by
    rw [← limitProblems_eq_nil_iff, hlimits, Except.ok.injEq]
  rw [problems_eq husable hlimits hlevel]
  simp only [Except.ok.injEq, List.append_eq_nil_iff, broken_eq_nil, hnil, Bool.not_eq_false',
    allDistinct_iff, hasKnownLevel_iff, List.isEmpty_eq_false_iff]
  constructor
  · rintro ⟨⟨⟨htargets, hids⟩, hpayload, hkeys, hpage, htimeouts⟩, hname⟩
    exact ⟨⟨htargets, hids, hpayload, hkeys, hpage, hname⟩, htimeouts⟩
  · rintro ⟨⟨htargets, hids, hpayload, hkeys, hpage, hname⟩, htimeouts⟩
    exact ⟨⟨⟨htargets, hids⟩, hpayload, hkeys, hpage, htimeouts⟩, hname⟩

/-- **Which settings are let pass.**  For any targets and any limits that are numbers: the check
always answers.  If neither timeout is a NaN, it finds no problems if and only if the settings can be
used.  In general it finds none if and only if they are sound and nothing can be said against the
timeouts; with a NaN among these they are never such as can be used. -/
theorem problems_eq_nil_iff_usable
    (husable : s.usableLimits = .ok (.ofNumbers maxPayload maxKeys pageSize probe snapshot))
    (hlevel : s.logLevel.HasText) :
    (∃ words, s.problems = .ok words) ∧
    (probe.isNaN = false → snapshot.isNaN = false →
      (s.problems = .ok [] ↔ Usable s maxPayload maxKeys pageSize probe snapshot)) ∧
    (s.problems = .ok [] ↔ Sound s maxPayload maxKeys pageSize ∧ Unopposed probe snapshot) ∧
    (probe.isNaN = true ∨ snapshot.isNaN = true →
      ¬ Usable s maxPayload maxKeys pageSize probe snapshot) := by
  have hpass := problems_eq_nil_iff husable hlevel
  refine ⟨?_, fun hprobe hsnapshot => ?_, hpass, ?_⟩
  · obtain ⟨level, hlevel⟩ := hlevel
    exact ⟨_, problems_eq husable (limitProblems_ofNumbers ..) hlevel⟩
  · have hordered : Ordered probe snapshot ↔ Unopposed probe snapshot := by
      rw [ordered_iff, Ne, Ne, ← Binary64.isNaN_iff, ← Binary64.isNaN_iff, hprobe, hsnapshot]
      simp
    rw [hpass, ← hordered]
    exact ⟨fun h => ⟨h.1, h.2⟩, fun h => ⟨h.sound, h.ordered⟩⟩
  · intro hnan h
    obtain ⟨hprobe, hsnapshot, -⟩ := ordered_iff.mp h.ordered
    rcases hnan with hnan | hnan
    · exact hprobe (Binary64.isNaN_iff.mp hnan)
    · exact hsnapshot (Binary64.isNaN_iff.mp hnan)

end Numbers

/-- The settings for one target can be used. -/
theorem usable_ofOne : Usable ofOne 10 2 100 (.ofRatio false 1 2) 3 := by
  have husable : ofOne.usableLimits = .ok (.ofNumbers 10 2 100 (.ofRatio false 1 2) 3) := rfl
  have hpass := (problems_eq_nil_iff_usable husable ⟨_, rfl⟩).2.1 (by decide) (by decide)
  exact hpass.mp rfl

/-! ## 3. Settings that were loaded -/

/-- **All that is loaded can be checked**: limits are numbers and the level is a text. -/
theorem exists_numbers_of_loaded {e : Environment} {given : Option Text} {s : Settings}
    {log : List LogLine} (h : loaded e given = (.ok s, log)) :
    (∃ maxPayload maxKeys pageSize probe snapshot,
      s.usableLimits = .ok (.ofNumbers maxPayload maxKeys pageSize probe snapshot)) ∧
    s.logLevel.HasText := by
  obtain ⟨targets, path, -, -, -, hmild, hover⟩ := exists_loaded.mp ⟨log, h⟩
  have hfile := fromFile hmild
  obtain ⟨maxPayload, maxKeys, pageSize, probe, snapshot, hlimits⟩ :=
    hover.areNumbers hfile.limits.areNumbers
  obtain ⟨t, ht, -⟩ := hover.settledLevel hfile.logLevel
  have hothers : s.others = [] := (congrArg Settings.others hover.rest).trans hfile.others
  refine ⟨⟨maxPayload, maxKeys, pageSize, probe, snapshot, ?_⟩, t, by rw [ht]; rfl⟩
  rw [usableLimits, hothers, ← hlimits]
  rfl

theorem limits_of_usable {s : Settings} {l : Limits} (h : s.usableLimits = .ok l) : s.limits = l := by
  rw [usableLimits] at h
  split at h
  · cases h
  · exact Except.ok.inj h

/-- A file in which the time for a snapshot is a NaN. -/
def timeless : Environment := withOneFile "snapshot: {snapshot_connect_timeout: .nan}"

/-- It is let pass, although a probe does not give up before a snapshot does. -/
theorem load_timeless :
    ∃ s log maxPayload maxKeys pageSize probe snapshot,
      loaded timeless (some onePath) = (.ok s, log) ∧
      s.usableLimits = .ok (.ofNumbers maxPayload maxKeys pageSize probe snapshot) ∧
      probe.lt snapshot = false ∧ s.problems = .ok [] ∧
      ¬ Usable s maxPayload maxKeys pageSize probe snapshot := by
  have hgiven : (loaded timeless (some onePath)).1.toOption.map (fun s =>
      (s.limits.snapshotLimit.quantity?, s.problems.toOption)) =
        some ((some (.real .nan) : Option Quantity), (some [] : Option (List Text))) := by
    decide +kernel
  obtain ⟨s, log, hload, htold⟩ := exists_loaded_of_map hgiven
  simp only [Prod.mk.injEq] at htold
  obtain ⟨hnan, hproblems⟩ := htold
  obtain ⟨⟨maxPayload, maxKeys, pageSize, probe, snapshot, husable⟩, -⟩ :=
    exists_numbers_of_loaded hload
  rw [limits_of_usable husable] at hnan
  obtain rfl : snapshot = .nan := Quantity.real.inj (Option.some.inj hnan)
  refine ⟨s, log, maxPayload, maxKeys, pageSize, probe, .nan, hload, husable, ?_,
    Outcome.toOption_eq_some.mp hproblems, ?_⟩
  · cases probe <;> rfl
  · rintro ⟨-, p, t, -, ht, -⟩
    cases ht

end Settings

end Keyscope
