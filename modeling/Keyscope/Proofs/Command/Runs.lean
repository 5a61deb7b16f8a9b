/-
# Runs of a command

Before a command runs, arguments are understood twice, those in front of it and those behind it, and the
settings are loaded and checked.  Where all of that goes well (`Run.Asks`), a run of the program is a
run of the command, with what the log says of the settings in front (`Run.Asks.run_program`).

Then the settings have no problems, so there is a service for them (`Run.Asks.exists_service`), and their
targets are those of a file or the default one, so each has an identifier, a name and a port that exists
(`Run.Asks.named`).

The rounds for which the sweep of a run is followed do not matter once the run is over
(`Run.program_more`).
-/
import Keyscope.Command.Run
import Keyscope.Proofs.Service
import Keyscope.Proofs.Settings.Standalone

namespace Keyscope

variable {σ : Type}

/-- **Targets that were loaded have an identifier, a name and a port.** -/
theorem Settings.named_of_loaded {e : Environment} {given : Option Text} {s : Settings}
    {log : List LogLine} (h : loaded e given = (.ok s, log)) : ∀ t ∈ s.targets, t.Named := by
  obtain ⟨internal, hdefault, -, ⟨base, hfile, hover⟩, -⟩ := loaded_layers h
  obtain ⟨_, hinternal, -, hnamed, -⟩ := exists_default hdefault
  obtain rfl := List.singleton_inj.mp hinternal
  have htargets := hfile.targets
  rw [hover.targets_eq]
  generalize base.targets = ts at htargets ⊢
  have hnormal := @TargetsFrom.normal _ _ _ htargets
  cases htargets with
  | listed hentries =>
    have hatoms := (exists_file_of_listed hentries).2
    intro t ht
    exact (hnormal hentries (Ref.hasData_elements hatoms hentries) t ht).named
  | standard _ =>
    intro t ht
    obtain rfl := List.mem_singleton.mp ht
    exact hnamed

/-! ## 1. What a console shows -/

namespace Report

theorem append_assoc (a b c : Report) : a ++ b ++ c = a ++ (b ++ c) :=
  congrArg₂ Report.mk (List.append_assoc ..) (List.append_assoc ..)

@[simp] theorem append_empty (a : Report) : a ++ empty = a :=
  congrArg₂ Report.mk (List.append_nil _) (List.append_nil _)

@[simp] theorem empty_append (a : Report) : empty ++ a = a := rfl

end Report

namespace Console

variable {console : Console}

/-- **A console shows a report**: it refuses none of its events. -/
def Shows (console : Console) (r : Report) : Prop := ∀ e ∈ r.events, console e = .ok ()

theorem shows_plain (r : Report) : plain.Shows r := fun _ _ => rfl

theorem run_showEach : ∀ {es : List Event}, (∀ e ∈ es, console e = .ok ()) → ∀ before : Report,
    (console.showEach es).run before = (.ok (), before ++ ⟨es, []⟩)
  | [], _, before => by
    rw [showEach, Session.run_pure]
    exact congrArg (Prod.mk _) (Report.append_empty before).symm
  | e :: es, h, before => by
    obtain ⟨he, hes⟩ := List.forall_mem_cons.mp h
    rw [showEach, he, Session.ofExcept_ok_bind]
    refine (Session.run_bind_ok (show (modify (· ++ .ofEvent e) : Session Report Unit).run before =
      (.ok (), before ++ .ofEvent e) from rfl) _).trans ?_
    rw [run_showEach hes, Report.append_assoc]
    rfl

/-- **What is shown is all there**, behind what was shown before. -/
theorem run_print {r : Report} (h : console.Shows r) (before : Report) :
    (console.print r).run before = (.ok (), before ++ r) := by
  rw [print, Session.run_bind_ok (run_showEach h before)]
  have hall : before ++ ⟨r.events, []⟩ ++ ⟨[], r.text⟩ = before ++ r := by
    rw [Report.append_assoc]
    exact congrArg (before ++ ·) (congrArg (Report.mk · r.text) (List.append_nil _))
  rw [← hall]
  rfl

end Console

namespace Run

variable {e : Environment} {console : Console} {p : Printer}

/-- The words of a failure are shown behind what was shown before. -/
theorem giveUp_shows {words : Text} (h : console.Shows (p.failureText words)) (before : Report) :
    giveUp e console p before words = .aborted (before ++ p.failureText words) := by
  simp only [giveUp, Console.run_print h]

/-- So is an answer. -/
theorem conclude_shows {r : Report} (h : console.Shows r) (before : Report) :
    conclude e console p before (tell console (.ok r)) = .done (before ++ r) := by
  simp only [conclude, tell, Session.ofExcept_ok_bind, Console.run_print h]

/-! ## 2. What arguments ask for -/

/-- The value of an option in front of a command or behind it. -/
abbrev Values := List (OptionSpec × Options.OptionValue)

/-- The format of a command: its own, or else the one in front of it. -/
def formatOf (own : Values) (c : Context) : Text := (Options.text? own Usage.format).getD c.format

/-- The text that asks for a source; without one it is empty. -/
def sourceOf (own : Values) : Text := (Options.text? own Usage.source).getD []

/-- **Arguments ask for a command.**  All of them are understood, they ask neither for help nor for the
version, and the settings can be used. -/
inductive Asks (e : Environment) (args : List Text) :
    CommandName → Values → Context → List LogLine → Prop
  | intro {values own : Values} {word : Text} {rest : List Text} {name : CommandName} {s : Settings}
    {log : List LogLine}
    (front : understand e Usage.mainOptions false args = .ok (.options values (word :: rest)))
    (command : CommandName.ofText? word = some name)
    (version : Options.isSet values Usage.version = false)
    (settings : settingsFor e values = (.ok s, log))
    (behind : understand e (Usage.optionsOf name) true rest = .ok (.options own [])) :
    Asks e args name own ⟨s, (Options.text? values Usage.mainFormat).getD "table",
      !Options.isSet values Usage.noColor⟩ log

/-- The settings without a file and without variables. -/
def plainSettings : Settings :=
  Settings.initial [⟨"internal", "InternalDB", "localhost", 6379⟩] "/home/.cartograph/config.yaml"

/-- Surroundings without variables. -/
def plainOn (disk : Disk) : Environment := { Settings.withVariables [] with disk := disk }

theorem problems_plain : plainSettings.problems = .ok [] := rfl

set_option maxRecDepth 20000 in
theorem level_plain : ∃ setup, LogSetup.ofValue plainSettings.logLevel = .ok setup := ⟨_, rfl⟩

/-- Without a file of settings these are the settings. -/
theorem settingsFor_plain {disk : Disk} (h : disk.exists? plainSettings.path = .ok false) {values : Values}
    (hconfig : Options.text? values Usage.config = none) (hdebug : Options.isSet values Usage.debug = false) :
    settingsFor (plainOn disk) values = (.ok plainSettings, []) := by
  have htargets : Settings.defaultTargets (plainOn disk) = .ok plainSettings.targets := rfl
  have hpath : Settings.pathFor (plainOn disk) none = .ok plainSettings.path := rfl
  have hloaded : Settings.loaded (plainOn disk) none = (.ok plainSettings, []) := by
    refine (Session.run_bind_ok (Settings.Loading.run_ofExcept_eq_ok.mpr ⟨htargets, rfl⟩) _).trans ?_
    refine (Session.run_bind_ok (Settings.Loading.run_ofExcept_eq_ok.mpr ⟨hpath, rfl⟩) _).trans ?_
    refine (Session.run_bind_ok (Settings.Loading.run_ofExcept_eq_ok.mpr ⟨h, rfl⟩) _).trans ?_
    rfl
  obtain ⟨setup, hlevel⟩ := level_plain
  rw [settingsFor, hconfig, hloaded, hdebug]
  simp only [Bool.false_eq_true, if_false, hlevel, problems_plain]

theorem command_more (e : Environment) (console : Console) (net : Network σ) (rounds more : Nat)
    (c : Context) (name : CommandName) (args : List Text) :
    Session.Continues (command e console net rounds c name args)
      (command e console net (rounds + more) c name args) := by
  unfold command
  rcases understand e (Usage.optionsOf name) true args with r | _ | ⟨values, words⟩
  · exact .refl _
  · exact .refl _
  · dsimp only
    by_cases hwords : (!words.isEmpty) = true
    · rw [if_pos hwords, if_pos hwords]
      exact .refl _
    · rw [if_neg hwords, if_neg hwords]
      cases name with
      | sources => exact .refl _
      | telemetry => exact .refl _
      | snapshot =>
        -- only a listing is followed for rounds
        simp only [snapshot]
        rcases service c none with f | service
        · exact .refl _
        · exact (service.list_more net rounds more _).outcome_bind rfl

/-- **A run that is over stays so.**  The rounds for which sweeps are followed are no part of the
program: with more of them, a run that came to an end is the same. -/
theorem program_more (e : Environment) (console : Console) (net : Network σ) (rounds more : Nat)
    (args : List Text) : Session.Continues (program e console net rounds args)
      (program e console net (rounds + more) args) := by
  unfold program
  rcases understand e Usage.mainOptions false args with r | _ | ⟨values, words⟩
  · exact .refl _
  · exact .refl _
  · dsimp only
    rcases commandOf e words with o | chosen
    · exact .refl _
    · dsimp only
      by_cases hversion : Options.isSet values Usage.version = true
      · rw [if_pos hversion, if_pos hversion]
        exact .refl _
      · rw [if_neg hversion, if_neg hversion]
        rcases settingsFor e values with ⟨o | s, log⟩
        · exact .refl _
        · rcases chosen with _ | ⟨name, args⟩
          · exact .refl _
          · exact (command_more e console net rounds more _ name args).bind rfl

/-- What a command does with its own options. -/
def perform (e : Environment) (console : Console) (net : Network σ) (rounds : Nat) (own : Values)
    (c : Context) : CommandName → Session σ (Option Outcome)
  | .sources => do
    let o ← sources e console net c (formatOf own c) (Options.isSet own Usage.runningOnly)
    return some o
  | .snapshot => snapshot e console net rounds c (formatOf own c) (sourceOf own)
  | .telemetry =>
    return some (telemetry e console c (formatOf own c) (Options.text? own Usage.input))

namespace Asks

variable {e : Environment} {args : List Text} {name : CommandName} {own : Values} {c : Context}
  {log : List LogLine}

/-- **The program runs the command.** -/
theorem run_program (h : Asks e args name own c log) (console : Console) (net : Network σ)
    (rounds : Nat) (s : σ) : (program e console net rounds args).run s =
      (do return (← perform e console net rounds own c name).map (Outcome.withLog · log)).run s := by
  cases h with
  | @intro values own word rest name settings log hfront hcommand hversion hsettings hbehind =>
    have hchosen : commandOf e (word :: rest) = .ok (some (name, rest)) := by
      simp only [commandOf, hcommand]
    simp only [program, hfront, hchosen, hversion, hsettings, command, hbehind]
    cases name <;> rfl

/-- The settings can be used. -/
theorem exists_loaded (h : Asks e args name own c log) :
    c.settings.problems = .ok [] ∧ ∃ given, Settings.loaded e given = (.ok c.settings, log) := by
  cases h with
  | intro _ _ _ hsettings _ =>
    unfold settingsFor at hsettings
    split at hsettings
    · cases hsettings
    · rename_i s log' hloaded
      dsimp only at hsettings
      split at hsettings
      · cases hsettings
      · cases hsettings
      · rename_i hproblems
        cases hsettings
        exact ⟨hproblems, _, hloaded⟩
      · cases hsettings

theorem named (h : Asks e args name own c log) : ∀ t ∈ c.settings.targets, t.Named := by
  obtain ⟨-, given, hloaded⟩ := h.exists_loaded
  exact Settings.named_of_loaded hloaded

/-- **There is a service for them**, with any source of telemetry. -/
theorem exists_service (h : Asks e args name own c log) (telemetry : Option TelemetrySource) :
    ∃ s, service c telemetry = .ok s := by
  obtain ⟨s, hs, -⟩ := Service.list_kept h.exists_loaded.1 telemetry
  exact ⟨s, hs⟩

end Asks

end Run

end Keyscope
