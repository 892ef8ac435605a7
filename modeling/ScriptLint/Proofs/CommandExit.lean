import ScriptLint.Proofs.CommandLine
import ScriptLint.Proofs.Escapes
import ScriptLint.Proofs.Outputs

/-!
# ScriptLint.Proofs.CommandExit

How a command line ends. Most faults end it with a message and an exit code of their own; a few get
past it.

* `Job.Escapes`: the faults that get past a command
* `run_ends`: a command line ends with such a fault, or with one of three exit codes
* `run_garbled`: a file that is no text gets past a command
-/

namespace ScriptLint.Cli

open Engine

variable {w : World} {f : Fault}

/-- Flags of a command that sets up a checker. -/
def Command.checkerFlags? : Command → Option CheckerFlags
  | .check _ flags => some flags
  | .options flags => some flags
  | .listEngines _ => none

/-- The variable for the format of the log holds no name of a format, and no flag goes before it. -/
def Job.Misformats (j : Job) (w : World) (name : String) : Prop :=
  j.log.format = none ∧ w.setting? Log.formatVariable = some name ∧ parse? LogFormat name = none

/-- What a command meets that it does not handle: a checker that cannot be set up, files that are cut
short, an option with too many digits to be listed, and scripts that cannot be listed. -/
inductive Job.Breaks (j : Job) (w : World) : Fault → Prop
  | setup {flags : CheckerFlags} {f : Fault} (hflags : j.command.checkerFlags? = some flags)
    (h : Misbuilds w flags f) : j.Breaks w f
  | files {paths : List Path} {flags : CheckerFlags} {c : Checker} {w' : World} {f : Fault}
    (hcommand : j.command = .check paths flags) (hbuild : buildChecker w flags = (.ok c, w'))
    (h : c.Stops w' paths f) : j.Breaks w f
  | options {flags : CheckerFlags} {c : Checker} {w' : World} (hcommand : j.command = .options flags)
    (hbuild : buildChecker w flags = (.ok c, w'))
    (h : ∃ e ∈ c.store.snapshot, e.2.isWritable = false) : j.Breaks w .unwritable
  | scripts {dir : Option Path} {f : Fault} (hcommand : j.command = .listEngines dir)
    (h : (Loader.create w dir).Stops w ((Loader.create w dir).available w) f) : j.Breaks w f

/-- The faults that get past a command, which starts with an empty log. -/
inductive Job.Escapes (j : Job) (w : World) : Fault → Prop
  | format {name : String} (h : j.Misformats w name) :
    j.Escapes w (.unknownChoice (Named.label LogFormat) name)
  | command {f : Fault} (hformat : ∀ name, ¬ j.Misformats w name)
    (h : j.Breaks { w with journal := [] } f) : j.Escapes w f

theorem buildChecker_breaks {j : Job} {flags : CheckerFlags} {w' : World}
    (hflags : j.command.checkerFlags? = some flags)
    (h : buildChecker w flags = (.error f, w')) : isHandled f = true ∨ j.Breaks w f :=
  (buildChecker_error h).imp_right fun hmisbuilds => .setup hflags hmisbuilds

/-- A command fails with a fault that it handles, or meets what it does not handle, or it has
something to say and leaves one of the two exit codes for checked files. -/
theorem perform_cases (j : Job) (w : World) :
    (∃ f w', j.perform w = (.error f, w') ∧ (isHandled f = true ∨ j.Breaks w f)) ∨
    ∃ o w', j.perform w = (.ok o, w') ∧ (o.exit = exitClean ∨ o.exit = exitFindings) := by
  obtain ⟨log, out, command⟩ := j
  cases command with
  | check paths flags =>
    obtain ⟨⟨r, w'⟩, hbuild⟩ : ∃ built, buildChecker w flags = built := ⟨_, rfl⟩
    simp only [Job.perform, hbuild]
    cases r with
    | error f => exact .inl ⟨f, w', rfl, buildChecker_breaks rfl hbuild⟩
    | ok c =>
      obtain ⟨⟨r, c', w₂⟩, hcheck⟩ : ∃ checked, c.checkFiles w' paths = checked := ⟨_, rfl⟩
      simp only [hcheck]
      cases r with
      | error f =>
        exact .inl ⟨f, w₂, rfl,
          (Checker.checkFiles_error paths hcheck).imp_right fun hstops => .files rfl hbuild hstops⟩
      | ok rs =>
        obtain ⟨o, ho, hexit⟩ := reportsOutput_ok (Checker.checkFiles_shown paths hcheck) out
        exact .inr ⟨o, w₂, congrArg (·, w₂) ho, hexit⟩
  | options flags =>
    obtain ⟨⟨r, w'⟩, hbuild⟩ : ∃ built, buildChecker w flags = built := ⟨_, rfl⟩
    simp only [Job.perform, hbuild]
    cases r with
    | error f => exact .inl ⟨f, w', rfl, buildChecker_breaks rfl hbuild⟩
    | ok c =>
      by_cases hunwritten : ∃ e ∈ c.store.snapshot, e.2.isWritable = false
      · exact .inl ⟨.unwritable, w', congrArg (·, w') (optionsOutput_unwritten hunwritten out),
          .inr (.options rfl hbuild hunwritten)⟩
      · have hwritten : ∀ e ∈ c.store.snapshot, e.2.isWritable = true := fun e he =>
          eq_true_of_ne_false fun h => hunwritten ⟨e, he, h⟩
        obtain ⟨lines, ho⟩ := optionsOutput_ok hwritten out
        exact .inr ⟨_, w', congrArg (·, w') ho, .inl rfl⟩
  | listEngines dir =>
    obtain ⟨⟨r, w'⟩, hrows⟩ : ∃ listed, engineRows (Loader.create w dir) w
        ((Loader.create w dir).available w) = listed := ⟨_, rfl⟩
    simp only [Job.perform, hrows]
    cases r with
    | error f =>
      exact .inl ⟨f, w', rfl,
        (Loader.engineRows_error _ hrows).imp_right fun hstops => .scripts rfl hstops⟩
    | ok rows =>
      obtain ⟨lines, ho⟩ := enginesOutput_ok hrows out
      exact .inr ⟨_, w', congrArg (·, w') ho, .inl rfl⟩

theorem perform_unbuilt {j : Job} {flags : CheckerFlags} {w' : World}
    (hflags : j.command.checkerFlags? = some flags)
    (hbuild : buildChecker w flags = (.error f, w')) : j.perform w = (.error f, w') := by
  rw [Job.perform]
  split
  · rename_i hcommand
    rw [hcommand] at hflags
    cases hflags
    simp only [hbuild]
  · rename_i hcommand
    rw [hcommand] at hflags
    cases hflags
    simp only [hbuild]
  · rename_i hcommand
    rw [hcommand] at hflags
    cases hflags

theorem perform_breaks {j : Job} (h : j.Breaks w f) : ∃ w', j.perform w = (.error f, w') := by
  cases h with
  | setup hflags hmisbuilds =>
    obtain ⟨w', hbuild⟩ := buildChecker_misbuilds hmisbuilds
    exact ⟨w', perform_unbuilt hflags hbuild⟩
  | files hcommand hbuild hstops =>
    obtain ⟨c', w', hcheck⟩ := Checker.checkFiles_stops hstops
    rw [Job.perform, hcommand]
    simp only [hbuild, hcheck]
    exact ⟨_, rfl⟩
  | options hcommand hbuild hunwritten =>
    rw [Job.perform, hcommand]
    simp only [hbuild, optionsOutput_unwritten hunwritten]
    exact ⟨_, rfl⟩
  | scripts hcommand hstops =>
    obtain ⟨w', hrows⟩ := Loader.engineRows_stops hstops
    rw [Job.perform, hcommand]
    simp only [hrows]
    exact ⟨_, rfl⟩

theorem breaks_unhandled {j : Job} (h : j.Breaks w f) : isHandled f = false := by
  cases h with
  | setup _ hmisbuilds => exact hmisbuilds.unhandled
  | files _ _ hstops => exact Checker.stops_unhandled hstops
  | options _ _ _ => rfl
  | scripts _ hstops => exact Loader.stops_unhandled hstops

theorem parse?_choice {name : String} (h : name ∈ formatChoices) :
    ∃ format, parse? LogFormat name = some format := by
  have hall : ∀ n ∈ formatChoices, (parse? LogFormat n).isSome = true := by decide
  exact Option.isSome_iff_exists.1 (hall name h)

/-- Logging is set up unless the variable for the format holds no name of one. -/
theorem chosenFormat_cases {args : List String} {j : Job}
    (hread : Request.read args = .ok (.job j)) :
    (∃ name, j.Misformats w name ∧ Log.chosenFormat w (j.log.format.map .str) =
      .error (.unknownChoice (Named.label LogFormat) name)) ∨
    ((∀ name, ¬ j.Misformats w name) ∧
      ∃ format, Log.chosenFormat w (j.log.format.map .str) = .ok format) := by
  cases hformat : j.log.format with
  | some name =>
    obtain ⟨format, hparse⟩ := parse?_choice (Request.read_format hread hformat)
    refine .inr ⟨?_, format, ?_⟩
    · rintro n ⟨hnone, _⟩
      rw [hformat] at hnone
      cases hnone
    · simp only [Option.map_some, Log.chosenFormat, Value.asText?, Log.formatNamed, hparse]
  | none =>
    have hchosen : Log.chosenFormat w (none.map Value.str) =
        Log.formatNamed ((w.setting? Log.formatVariable).getD "text") := rfl
    rw [hchosen]
    cases hset : w.setting? Log.formatVariable with
    | none =>
      refine .inr ⟨?_, .text, rfl⟩
      rintro n ⟨_, hsome, _⟩
      rw [hset] at hsome
      cases hsome
    | some name =>
      rw [Option.getD_some, Log.formatNamed]
      cases hparse : parse? LogFormat name with
      | none => exact .inl ⟨name, ⟨hformat, hset, hparse⟩, rfl⟩
      | some format =>
        refine .inr ⟨?_, format, rfl⟩
        rintro n ⟨_, hsome, hnone⟩
        rw [hset] at hsome
        cases hsome
        rw [hparse] at hnone
        cases hnone

/-- How a request ends that ends in good order. A command that is carried out leaves one of the two
exit codes for checked files, and one that is not leaves the third and says why. -/
def Request.Ends (w : World) (o : Output) : Request → Prop
  | .version => o.exit = exitClean
  | .job j =>
    (∃ o' w', j.perform { w with journal := [] } = (.ok o', w') ∧ o.out = o'.out ∧
      (o.exit = exitClean ∨ o.exit = exitFindings)) ∨
    (∃ f w', j.perform { w with journal := [] } = (.error f, w') ∧ o.out = "" ∧
      o.exit = exitFailure ∧ ∃ log, o.err = log ++ line ("[jslintr] " ++ f.message))

/-- A level that the flags name is always one, so only the format can keep logging from being set
up. -/
theorem configure_flags (log : LogFlags) {format : LogFormat}
    (h : Log.chosenFormat w (log.format.map .str) = .ok format) :
    ∃ setup, Log.Loggers.unset.configure w (log.format.map .str) (log.level.map .named) =
      (.ok setup, Log.Loggers.unset.adopt setup) := by
  obtain ⟨⟨weight, name⟩, hlevel⟩ : ∃ chosen,
      Log.chosenLevel w (log.level.map .named) = .ok chosen := by
    cases log.level <;> exact ⟨_, rfl⟩
  simp only [Log.Loggers.configure, h, hlevel]
  exact ⟨_, rfl⟩

theorem Job.run_configured {j : Job} {format : LogFormat} (timestamp : String)
    (h : Log.chosenFormat w (j.log.format.map .str) = .ok format) :
    ∃ loggers : Log.Loggers, j.run w timestamp =
      match j.perform { w with journal := [] } with
      | (.ok o, w) => (.ok (o.logged (loggers.lines timestamp w.journal)), w)
      | (.error f, w) =>
        if isHandled f then
          let w := w.log [failureNotice j.command.name f]
          (.ok ((failureOutput f).logged (loggers.lines timestamp w.journal)), w)
        else (.error f, w) := by
  obtain ⟨setup, hsetup⟩ := configure_flags j.log h
  simp only [Job.run, hsetup]
  exact ⟨_, rfl⟩

theorem Job.run_unconfigured {j : Job} (timestamp : String)
    (h : Log.chosenFormat w (j.log.format.map .str) = .error f) :
    j.run w timestamp = (.error f, w) := by
  simp only [Job.run, Log.Loggers.configure, h]

section Run

variable {args : List String} {j : Job} (hread : Request.read args = .ok (.job j))
  (timestamp : String)

include hread

theorem Job.run_escapes (h : j.Escapes w f) : (j.run w timestamp).1 = .error f := by
  obtain ⟨name, hmisformats, hformat⟩ | ⟨hformats, format, hformat⟩ :=
    chosenFormat_cases (w := w) hread
  · rw [Job.run_unconfigured timestamp hformat]
    cases h with
    | format h =>
      obtain ⟨_, hset, _⟩ := hmisformats
      obtain ⟨_, hset', _⟩ := h
      rw [hset] at hset'
      cases hset'
      rfl
    | command hnone _ => exact absurd hmisformats (hnone name)
  · obtain ⟨loggers, hrun⟩ := Job.run_configured timestamp hformat
    cases h with
    | format h => exact absurd h (hformats _)
    | command _ h =>
      obtain ⟨w', hperform⟩ := perform_breaks h
      rw [hrun, hperform]
      simp only [breaks_unhandled h, Bool.false_eq_true, if_false]

theorem Job.escapes_of_run (h : (j.run w timestamp).1 = .error f) : j.Escapes w f := by
  obtain ⟨name, hmisformats, hformat⟩ | ⟨hformats, format, hformat⟩ :=
    chosenFormat_cases (w := w) hread
  · rw [Job.run_unconfigured timestamp hformat] at h
    cases h
    exact .format hmisformats
  · obtain ⟨loggers, hrun⟩ := Job.run_configured timestamp hformat
    rw [hrun] at h
    obtain ⟨e, w', hperform, hbreaks⟩ | ⟨o, w', hperform, _⟩ :=
      perform_cases j { w with journal := [] }
    · rw [hperform] at h
      simp only at h
      split at h
      · cases h
      · rename_i hunhandled
        cases h
        exact .command hformats (hbreaks.resolve_left hunhandled)
    · rw [hperform] at h
      cases h

theorem Job.ends_of_run {o : Output} (h : (j.run w timestamp).1 = .ok o) :
    (Request.job j).Ends w o := by
  obtain ⟨name, _, hformat⟩ | ⟨_, format, hformat⟩ := chosenFormat_cases (w := w) hread
  · rw [Job.run_unconfigured timestamp hformat] at h
    cases h
  · obtain ⟨loggers, hrun⟩ := Job.run_configured timestamp hformat
    rw [hrun] at h
    obtain ⟨e, w', hperform, _⟩ | ⟨o', w', hperform, hexit⟩ :=
      perform_cases j { w with journal := [] }
    · rw [hperform] at h
      simp only at h
      split at h
      · cases h
        exact .inr ⟨e, w', hperform, rfl, rfl, _, rfl⟩
      · cases h
    · rw [hperform] at h
      cases h
      exact .inl ⟨o', w', hperform, rfl, hexit⟩

end Run

/-- How a command line that the grammar takes ends. The faults that get past it are those listed; in
every other case it ends in good order, and with a message where the command failed. -/
theorem run_ends (args : List String) (w : World) (timestamp : String) :
    (∀ f, (run args w timestamp).1 = .error f ↔
      ∃ j, Request.read args = .ok (.job j) ∧ j.Escapes w f) ∧
    (∀ r o, Request.read args = .ok r → (run args w timestamp).1 = .ok o → r.Ends w o) := by
  constructor
  · intro f
    constructor
    · intro h
      rw [run] at h
      split at h
      · cases h
      · cases h
      · rename_i j hread
        exact ⟨j, hread, Job.escapes_of_run hread timestamp h⟩
    · rintro ⟨j, hread, h⟩
      rw [run, hread]
      exact Job.run_escapes hread timestamp h
  · intro r o hread h
    cases r with
    | version =>
      rw [run, hread] at h
      cases h
      rfl
    | job j =>
      rw [run, hread] at h
      exact Job.ends_of_run hread timestamp h

/-- A world with a file to check and a script that is no text. -/
def garbledWorld : World :=
  ⟨⟨1, []⟩, ⟨1, []⟩, [],
    ⟨[(["a.js"], .file (.text "var x;")), (["engines"], .directory),
      (["engines", "jshint.js"], .file (.bytes [255]))]⟩, [], []⟩

/-- A script that is no text gets past a command. -/
theorem run_garbled :
    (∃ r, Request.read ["check", "a.js", "--engine-dir", "engines"] = .ok r) ∧
    (run ["check", "a.js", "--engine-dir", "engines"] garbledWorld "").1 =
      .error (.undecodable ⟨.startByte, 255, 0, 1⟩) :=
  ⟨⟨_, rfl⟩, rfl⟩

end ScriptLint.Cli
