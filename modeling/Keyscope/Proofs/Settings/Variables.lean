/-
# Settings without a file

Three variables hold numbers: the port of the one target, how many keys a snapshot has, and how long a
payload is.  A number counts if it is made of decimal digits, and a port only if there is one of that
number; what is not made of digits leaves the default.

A text of digits that is no number, such as a superscript two, is neither: then there are no settings at
all.  Without a file nothing else stands in the way of settings, if the path of the telemetry rows can
be told (`loaded_variables`).
-/
import Keyscope.Proofs.Number.Numeral
import Keyscope.Proofs.Settings.Layers

namespace Keyscope

namespace Environment

/-! ## 1. Numbers in variables -/

/-- What a variable holds is not mistaken for a number. -/
def Unmistaken (e : Environment) (name : String) : Prop := ∀ t, e.get? name = some t → t.Unmistaken

/-- The number in a variable. -/
def number? (e : Environment) (name : String) : Option Nat := (e.get? name).bind Text.number?

variable {e : Environment} {name : String} {below v : Value}

theorem NumberOver.unmistaken (h : e.NumberOver name below v) : e.Unmistaken name := by
  intro t ht
  cases h with
  | number hu _ hn =>
    obtain rfl := Option.some.inj (hu.symm.trans ht)
    exact Text.unmistaken_of_toInteger hn
  | below h => exact Text.unmistaken_of_not_digits (h t ht)

/-- The number in a variable is over any default. -/
theorem Unmistaken.numberOver (h : e.Unmistaken name) (standard : Nat) :
    e.NumberOver name (.int standard) (.int ((e.number? name).getD standard : Nat)) := by
  cases ht : e.get? name with
  | none =>
    rw [number?, ht]
    exact .below fun t h => by cases ht.symm.trans h
  | some t =>
    rw [number?, ht, Option.bind_some]
    cases hdigits : t.isDigits with
    | false =>
      rw [Text.number?_of_not_digits hdigits]
      exact .below fun u hu => by rwa [← Option.some.inj (ht.symm.trans hu)]
    | true =>
      obtain ⟨n, hnumber, hn⟩ := (h t ht).toInteger hdigits
      rw [hnumber]
      exact .number ht hdigits hn

/-- A variable that is missing is as good as an empty text. -/
theorem unmistaken_iff : e.Unmistaken name ↔ ((e.get? name).getD []).Unmistaken := by
  cases ht : e.get? name with
  | none => exact iff_of_true (fun t h => by cases ht.symm.trans h) (Text.unmistaken_of_not_digits rfl)
  | some t =>
    constructor
    · intro h
      exact h t ht
    · intro h u hu
      rwa [← Option.some.inj (ht.symm.trans hu)]

instance (e : Environment) (name : String) : Decidable (e.Unmistaken name) :=
  decidable_of_iff _ unmistaken_iff.symm

theorem number?_eq : e.number? name = ((e.get? name).getD []).number? := by
  rw [number?]
  cases e.get? name with
  | none => rfl
  | some t => rfl

end Environment

namespace Settings

variable {e : Environment} {given : Option Text} {path : Text}

/-! ## 2. The port -/

/-- The port that is given by a number, if it is the number of a port. -/
def portFor (n? : Option Nat) : Nat := (n?.filter fun n => 1 ≤ n && n ≤ 65535).getD 6379

theorem portFor_some (n : Nat) : (portFor (some n) : Int) =
    if 0 < (n : Int) ∧ (n : Int) ≤ Target.lastPort then (n : Int) else Target.defaultPort := by
  have hport : (0 < (n : Int) ∧ (n : Int) ≤ Target.lastPort) ↔ 1 ≤ n ∧ n ≤ 65535 := by
    rw [Target.lastPort]
    omega
  by_cases h : 1 ≤ n ∧ n ≤ 65535
  · rw [if_pos (hport.mpr h), portFor, Option.filter_some, if_pos (by simpa using h)]
    rfl
  · rw [if_neg (mt hport.mp h), portFor, Option.filter_some, if_neg (by simpa using h)]
    rfl

/-- A port is found in a text if and only if the text is not mistaken for a number. -/
theorem portOf_eq_ok {t : Text} {n : Int} :
    portOf t = .ok n ↔ t.Unmistaken ∧ n = portFor t.number? := by
  unfold portOf
  cases hdigits : t.isDigits with
  | false =>
    rw [Text.number?_of_not_digits hdigits, if_neg Bool.false_ne_true]
    constructor
    · intro h
      exact ⟨Text.unmistaken_of_not_digits hdigits, (Except.ok.inj h).symm⟩
    · rintro ⟨-, rfl⟩
      rfl
  | true =>
    rw [if_pos rfl]
    constructor
    · intro h
      obtain ⟨m, hm, h⟩ := Outcome.exists_of_bind h
      have hunmistaken := Text.unmistaken_of_toInteger hm
      obtain ⟨k, hk, hread⟩ := hunmistaken.toInteger hdigits
      obtain rfl := Except.ok.inj (hm.symm.trans hread)
      rw [hk, portFor_some]
      exact ⟨hunmistaken, (Except.ok.inj h).symm⟩
    · rintro ⟨hunmistaken, rfl⟩
      obtain ⟨k, hk, hread⟩ := hunmistaken.toInteger hdigits
      rw [hread, hk, portFor_some]
      rfl

/-- The default target can be told if and only if the port can be. -/
theorem defaultTargets_eq_ok {targets : List Target} :
    defaultTargets e = .ok targets ↔ e.Unmistaken "INTERNAL_REDIS_PORT" ∧
      targets = [⟨"internal", "InternalDB", (e.get? "INTERNAL_REDIS_SERVICE_NAME").getD "localhost",
        portFor (e.number? "INTERNAL_REDIS_PORT")⟩] := by
  rw [defaultTargets, e.unmistaken_iff, e.number?_eq]
  constructor
  · intro h
    obtain ⟨port, hport, h⟩ := Outcome.exists_of_bind h
    obtain ⟨hunmistaken, rfl⟩ := portOf_eq_ok.mp hport
    exact ⟨hunmistaken, (Except.ok.inj h).symm⟩
  · rintro ⟨hunmistaken, rfl⟩
    rw [portOf_eq_ok.mpr ⟨hunmistaken, rfl⟩]
    rfl

/-! ## 3. Everything without a file -/

/-- The names of the variables that hold numbers. -/
def numberNames : List String :=
  ["INTERNAL_REDIS_PORT", "CARTOGRAPH_MAX_KEYS", "CARTOGRAPH_MAX_PAYLOAD_CHARS"]

/-- **Settings without a file.** -/
structure FromVariables (e : Environment) (path : Text) (s : Settings) : Prop where
  targets : s.targets = [⟨"internal", "InternalDB",
    (e.get? "INTERNAL_REDIS_SERVICE_NAME").getD "localhost",
    portFor (e.number? "INTERNAL_REDIS_PORT")⟩]
  maxKeys : s.limits.maxKeys = .int ((e.number? "CARTOGRAPH_MAX_KEYS").getD 5000 : Nat)
  maxPayload : s.limits.maxPayload = .int ((e.number? "CARTOGRAPH_MAX_PAYLOAD_CHARS").getD 4096 : Nat)
  /-- Everything else is a default or comes from a variable that holds no number. -/
  rest : Overlaid e (initial s.targets path) s

/-- The path in a variable, if it can be told, is over any other one. -/
theorem exists_pathOver {name : String} (below : Setting)
    (h : ∀ t, e.get? name = some t → ∃ p, Path.expandHome e.homeOf t = .ok p) :
    ∃ rowsFile, e.PathOver name below rowsFile := by
  cases ht : e.get? name with
  | none => exact ⟨below, .below ht⟩
  | some t =>
    obtain ⟨p, hp⟩ := h t ht
    exact ⟨.path p, .path ht hp⟩

/-- Variables can be put over the defaults if what they hold is not mistaken for a number. -/
theorem exists_overlaid (targets : List Target) (path : Text)
    (hkeys : e.Unmistaken "CARTOGRAPH_MAX_KEYS")
    (hpayload : e.Unmistaken "CARTOGRAPH_MAX_PAYLOAD_CHARS")
    (hrows : ∀ t, e.get? "CARTOGRAPH_TELEMETRY_FILE" = some t →
      ∃ p, Path.expandHome e.homeOf t = .ok p) :
    ∃ s, Overlaid e (initial targets path) s := by
  obtain ⟨rowsFile, hrowsFile⟩ := exists_pathOver (initial targets path).rowsFile hrows
  exact ⟨{ initial targets path with
      limits := { Limits.standard with
        maxKeys := .int ((e.number? "CARTOGRAPH_MAX_KEYS").getD 5000 : Nat)
        maxPayload := .int ((e.number? "CARTOGRAPH_MAX_PAYLOAD_CHARS").getD 4096 : Nat) }
      rowsFile := rowsFile
      logLevel := _ },
    hkeys.numberOver 5000, hpayload.numberOver 4096, hrowsFile, levelOver e _, rfl⟩

/-- Without a file, variables are put over the defaults. -/
theorem exists_loaded_of_missing {s : Settings} (hpath : pathFor e given = .ok path)
    (hmissing : e.disk.exists? path = .ok false) :
    (∃ log, loaded e given = (.ok s, log)) ↔
      ∃ targets, defaultTargets e = .ok targets ∧ Overlaid e (initial targets path) s := by
  have hfile := fileIn_of_unusable (Unusable.missing hmissing)
  rw [exists_loaded]
  constructor
  · rintro ⟨targets, path', htargets, hpath', -, -, hover⟩
    obtain rfl := Except.ok.inj (hpath.symm.trans hpath')
    rw [hfile, withFile_emptyFile] at hover
    exact ⟨targets, htargets, hover⟩
  · rintro ⟨targets, htargets, hover⟩
    refine ⟨targets, path, htargets, hpath, ⟨false, hmissing⟩, ?_⟩
    rw [hfile, withFile_emptyFile]
    exact ⟨mild_emptyFile e targets path, hover⟩

/-- **What variables say without a file.**  If the path of the telemetry rows can be told, then there are
settings if and only if no text in a variable is mistaken for a number.  A number that a variable spells
then counts, also as a port if there is one of that number, and every other text leaves the default. -/
theorem loaded_variables (hpath : pathFor e given = .ok path)
    (hmissing : e.disk.exists? path = .ok false)
    (hrows : ∀ t, e.get? "CARTOGRAPH_TELEMETRY_FILE" = some t →
      ∃ p, Path.expandHome e.homeOf t = .ok p) :
    ((∃ s log, loaded e given = (.ok s, log)) ↔ ∀ name ∈ numberNames, e.Unmistaken name) ∧
      ∀ s log, loaded e given = (.ok s, log) → FromVariables e path s := by
  simp only [numberNames, List.forall_mem_cons]
  refine ⟨⟨?_, ?_⟩, ?_⟩
  · rintro ⟨s, hload⟩
    obtain ⟨targets, htargets, hover⟩ := (exists_loaded_of_missing hpath hmissing).mp hload
    exact ⟨(defaultTargets_eq_ok.mp htargets).1, hover.maxKeys.unmistaken, hover.maxPayload.unmistaken,
      fun _ h => absurd h List.not_mem_nil⟩
  · rintro ⟨hport, hkeys, hpayload, -⟩
    obtain ⟨s, hover⟩ := exists_overlaid _ path hkeys hpayload hrows
    exact ⟨s, (exists_loaded_of_missing hpath hmissing).mpr
      ⟨_, defaultTargets_eq_ok.mpr ⟨hport, rfl⟩, hover⟩⟩
  · intro s log hload
    obtain ⟨targets, htargets, hover⟩ := (exists_loaded_of_missing hpath hmissing).mp ⟨log, hload⟩
    obtain ⟨-, rfl⟩ := defaultTargets_eq_ok.mp htargets
    exact ⟨hover.targets_eq, hover.maxKeys.unique (hover.maxKeys.unmistaken.numberOver 5000),
      hover.maxPayload.unique (hover.maxPayload.unmistaken.numberOver 4096),
      by rwa [hover.targets_eq]⟩

/-- Surroundings with variables only. -/
def withVariables (entries : List (Text × Text)) : Environment :=
  ⟨entries, fun _ => none, "/home", .empty, fun _ _ => "no settings"⟩

/-- A port in digits of another script, a number of keys that is none, and a length. -/
def threeVariables : Environment :=
  withVariables [("INTERNAL_REDIS_PORT", "６３８０"), ("CARTOGRAPH_MAX_KEYS", "7e3"),
    ("CARTOGRAPH_MAX_PAYLOAD_CHARS", "12")]

/-- The port and the length count, and the number of keys is the default. -/
theorem load_three_variables :
    ∃ s log, loaded threeVariables (some onePath) = (.ok s, log) ∧
      s.targets = [⟨"internal", "InternalDB", "localhost", 6380⟩] ∧
      s.limits.maxKeys = .int 5000 ∧ s.limits.maxPayload = .int 12 := by
  have hrows : threeVariables.get? "CARTOGRAPH_TELEMETRY_FILE" = none := by decide +kernel
  have hpath : pathFor threeVariables (some onePath) = .ok onePath := by decide +kernel
  have hmissing : threeVariables.disk.exists? onePath = .ok false := by decide +kernel
  obtain ⟨hloads, hvalues⟩ :=
    loaded_variables hpath hmissing fun t ht => by cases hrows.symm.trans ht
  obtain ⟨s, log, hload⟩ := hloads.mpr (by decide +kernel)
  have hs := hvalues s log hload
  have hhost : threeVariables.get? "INTERNAL_REDIS_SERVICE_NAME" = none := by decide +kernel
  have hport : threeVariables.number? "INTERNAL_REDIS_PORT" = some 6380 := by decide +kernel
  have hkeys : threeVariables.number? "CARTOGRAPH_MAX_KEYS" = none := by decide +kernel
  have hpayload : threeVariables.number? "CARTOGRAPH_MAX_PAYLOAD_CHARS" = some 12 := by
    decide +kernel
  refine ⟨s, log, hload, ?_, ?_, ?_⟩
  · rw [hs.targets, hhost, hport]
    rfl
  · rw [hs.maxKeys, hkeys]
    rfl
  · rw [hs.maxPayload, hpayload]
    rfl

/-- A port that is a superscript two. -/
def superscriptPort : Environment := withVariables [("INTERNAL_REDIS_PORT", "²")]

/-- **The superscript is not passed over**: there are no settings. -/
theorem load_superscript_port :
    pathFor superscriptPort (some onePath) = .ok onePath ∧
      superscriptPort.disk.exists? onePath = .ok false ∧
      loaded superscriptPort (some onePath) = (.error (.malformedInteger (Quoted.text "²")), []) :=
  ⟨by decide +kernel, by decide +kernel, rfl⟩

end Settings

end Keyscope
