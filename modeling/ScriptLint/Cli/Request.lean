import ScriptLint.Cli.Scan
import ScriptLint.Path

/-!
# ScriptLint.Cli.Request

What a command line asks for. Flags before the name of a command are overruled by the command's own
flags, given or not.

* `Request`: the version, or a command
* `Request.read`: the request of a command line
-/

namespace ScriptLint.Cli

/-- How the command logs. -/
structure LogFlags where
  format : Option String
  level : Option String

/-- How the command sets up a checker. -/
structure CheckerFlags where
  engine : Option String
  options : List String
  config : Option Path
  engineDir : Option Path

inductive Command where
  | check (paths : List Path) (checker : CheckerFlags)
  | options (checker : CheckerFlags)
  | listEngines (engineDir : Option Path)

def Command.name : Command → String
  | .check .. => "check"
  | .options _ => "options"
  | .listEngines _ => "engines"

structure Job where
  log : LogFlags
  out : DataFormat
  command : Command

inductive Request where
  | version
  | job (j : Job)

namespace Request

def logFlags (s : Scanned) : LogFlags := ⟨s.last? logFormatFlag, s.last? logLevelFlag⟩

def pathOf (s : Scanned) (f : Flag) : Option Path := (s.last? f).map Path.parse

def checkerFlags (s : Scanned) : CheckerFlags :=
  ⟨s.last? engineFlag, s.all optionFlag, pathOf s configFlag, pathOf s engineDirFlag⟩

/-- The format that is asked for; only names of formats get through the scan. -/
def outFormat (s : Scanned) : DataFormat :=
  ((s.last? outFlag).bind (parse? DataFormat)).getD .text

def jobOf (s : Scanned) (c : Command) : Job := ⟨logFlags s, outFormat s, c⟩

/-- The job of a command, with the words that belong to nothing. -/
def readCommand (name : String) (args : List String) : Except Stop (Job × List String) :=
  if name = "check" then
    match checkGrammar.scan args with
    | .error e => .error e
    | .ok s =>
      .ok (jobOf s (.check ((s.operands.getD []).map Path.parse) (checkerFlags s)), s.extras)
  else if name = "options" then
    match optionsGrammar.scan args with
    | .error e => .error e
    | .ok s => .ok (jobOf s (.options (checkerFlags s)), s.extras)
  else
    match enginesGrammar.scan args with
    | .error e => .error e
    | .ok s =>
      match listGrammar.scan ((s.operands.getD []).drop 1) with
      | .error e => .error e
      | .ok t => .ok (jobOf t (.listEngines (pathOf t engineDirFlag)), s.extras ++ t.extras)

def unrecognized {α : Type} (words : List String) : Except Stop α :=
  mainGrammar.misuse ("unrecognized arguments: " ++ String.intercalate " " words)

def read (args : List String) : Except Stop Request :=
  match mainGrammar.scan args with
  | .error e => .error e
  | .ok s =>
    match s.operands with
    | none =>
      if !s.extras.isEmpty then unrecognized s.extras
      else if s.version then .ok .version
      else mainGrammar.misuse "No command provided."
    | some words =>
      match readCommand (words.headD "") (words.drop 1) with
      | .error e => .error e
      | .ok (j, extras) =>
        if !(s.extras ++ extras).isEmpty then unrecognized (s.extras ++ extras)
        else if s.version then .ok .version
        else .ok (.job j)

end Request

end ScriptLint.Cli
