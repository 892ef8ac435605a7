import ScriptLint.Checker
import ScriptLint.Cli.Request
import ScriptLint.Log.Setup
import ScriptLint.Options.Assignment
import ScriptLint.Table

/-!
# ScriptLint.Cli.Command

Carrying out a command line.

* `Output`: exit code and texts
* `buildChecker`: the checker that the flags ask for
* `Job.perform`: a command
* `run`: a whole command line
-/

namespace ScriptLint.Cli

open ScriptLint.Engine

/-- What a command leaves: exit code, text for the user and text for the log. -/
structure Output where
  exit : Nat
  out : String
  err : String
  deriving DecidableEq, Repr

def exitClean : Nat := 0
def exitFindings : Nat := 1
def exitFailure : Nat := 2

def release : String := "0.1.0"

def cleanMessage : String := "JSLinty-fresh!"

def line (s : String) : String := s ++ "\n"

def linesText (ls : List String) : String := String.join (ls.map line)

def usingNotice (c : Checker) (count : Nat) (path : Option Path) : Log.Record :=
  Log.entry Log.debug Log.cliLogger
    ("Using " ++ c.variant.text ++ " with " ++ Digits.ofNatText count ++ " option overrides")
    { component := .cli, engine := some c.variant.text, path := path.map Path.text,
      details := [("engine_root", .str c.loader.root.text)] }

/-- Settings with the directory of scripts that the flags name. -/
def flaggedSettings (w : World) (f : CheckerFlags) (settings : Settings) : Except Fault Settings :=
  match f.engineDir with
  | some dir => (w.follow dir).map fun place => { settings with engineDir := some place }
  | none => .ok settings

def buildChecker (w : World) (f : CheckerFlags) : Except Fault Checker × World :=
  match loadConfiguration w f.config none with
  | (.error e, w) => (.error e, w)
  | (.ok loaded, w) =>
    match flaggedSettings w f loaded.settings with
    | .error e => (.error e, w)
    | .ok settings =>
      match Options.readAssignments f.options with
      | .error e => (.error e, w)
      | .ok overrides =>
        let options := loaded.options.layer overrides
        match Checker.create w options (f.engine.map .str) settings none with
        | (.error e, w) => (.error e, w)
        | (.ok c, w) => (.ok c, w.log [usingNotice c options.length loaded.path])

def textEntries (m : Mapping Value) : List (Value × Value) := m.map fun (n, v) => (.str n, v)

def reportRow (r : FileReport) : Table.Row :=
  textEntries [("path", .str r.path.text), ("clean", .bool r.clean),
    ("diagnostics", .list (r.diagnostics.map fun d => .dict (textEntries d.fields)))]

/-- The outcome of checking files: a document of all of them, or the reports of those with
findings. -/
def reportsOutput (rs : List FileReport) (out : DataFormat) : Except Fault Output :=
  let exit := if rs.all FileReport.clean then exitClean else exitFindings
  match out with
  | .json =>
    (Table.render (rs.map reportRow) [] .json).map fun lines => ⟨exit, linesText lines, ""⟩
  | .text =>
    match FileReport.renderBatch? rs with
    | none => .ok ⟨exitClean, line cleanMessage, ""⟩
    | some text => .ok ⟨exitFindings, "", line text⟩

def optionRow (v : Variant) (name : String) (value : Value) : Table.Row :=
  textEntries [("option", .str name), ("value", value),
    ("description", .str (((Options.descriptions v).get? name).getD Options.undeclaredText))]

def optionHeaders : List String := ["option", "value", "description"]

/-- A table that is all there is to say. -/
def tableOutput (rows : List Table.Row) (headers : List String) (out : DataFormat) :
    Except Fault Output :=
  (Table.render rows headers out).map fun lines => ⟨exitClean, linesText lines, ""⟩

def optionsOutput (c : Checker) (out : DataFormat) : Except Fault Output :=
  tableOutput (c.store.snapshot.map fun (n, v) => optionRow c.variant n v) optionHeaders out

/-- The row of an engine's script; the digest of a script that is installed is shortened. -/
def engineRow (l : Loader) (v : Variant) (path : Option Path) (digest : String) : Table.Row :=
  textEntries [("engine", .str v.text), ("entrypoint", .str v.entryPoint),
    ("script", .str ((path.getD (l.pathOf v)).text)), ("installed", .bool path.isSome),
    ("sha256", .str (String.ofList (digest.toList.take 12)))]

def engineHeaders : List String := ["engine", "entrypoint", "installed", "sha256", "script"]

def engineRows (l : Loader) (w : World) :
    List (Variant × Option Path) → Except Fault (List Table.Row) × World
  | [] => (.ok [], w)
  | (v, none) :: rest =>
    match engineRows l w rest with
    | (.ok rows, w) => (.ok (engineRow l v none "" :: rows), w)
    | (.error f, w) => (.error f, w)
  | (v, some path) :: rest =>
    match l.load w (.choice (.variant v)) with
    | (.error f, w) => (.error f, w)
    | (.ok script, w) =>
      match engineRows l w rest with
      | (.ok rows, w) => (.ok (engineRow l v (some path) script.digest :: rows), w)
      | (.error f, w) => (.error f, w)

def Job.perform (j : Job) (w : World) : Except Fault Output × World :=
  match j.command with
  | .check paths flags =>
    match buildChecker w flags with
    | (.error f, w) => (.error f, w)
    | (.ok c, w) =>
      match c.checkFiles w paths with
      | (.error f, _, w) => (.error f, w)
      | (.ok rs, _, w) => (reportsOutput rs j.out, w)
  | .options flags =>
    match buildChecker w flags with
    | (.error f, w) => (.error f, w)
    | (.ok c, w) => (optionsOutput c j.out, w)
  | .listEngines dir =>
    let l := Loader.create w dir
    match engineRows l w (l.available w) with
    | (.error f, w) => (.error f, w)
    | (.ok rows, w) => (tableOutput rows engineHeaders j.out, w)

/-- Whether a fault ends a command in good order: faults of the library and of files do. -/
def isHandled (f : Fault) : Bool :=
  f.faultClass.isPart .general || f.faultClass.isPart .os

def thrownText (f : Fault) : String :=
  if f.message = "" then f.faultClass.name else f.faultClass.name ++ ": " ++ f.message

def failureNotice (name : String) (f : Fault) : Log.Record :=
  ⟨Log.debug, Log.cliLogger, "Command " ++ name ++ " failed", [], some (thrownText f)⟩

def failureOutput (f : Fault) : Output := ⟨exitFailure, "", line ("[jslintr] " ++ f.message)⟩

/-- The output with the lines of the log before the text that the command itself leaves there. -/
def Output.logged (o : Output) (lines : List String) : Output :=
  { o with err := linesText lines ++ o.err }

/-- Carries out a job, logging as its flags ask. `timestamp` stands for the time of every record. -/
def Job.run (j : Job) (w : World) (timestamp : String) : Except Fault Output × World :=
  match Log.Loggers.unset.configure w (j.log.format.map .str) (j.log.level.map .named) with
  | (.error f, _) => (.error f, w)
  | (.ok _, loggers) =>
    match j.perform { w with journal := [] } with
    | (.ok o, w) => (.ok (o.logged (loggers.lines timestamp w.journal)), w)
    | (.error f, w) =>
      if isHandled f then
        let w := w.log [failureNotice j.command.name f]
        (.ok ((failureOutput f).logged (loggers.lines timestamp w.journal)), w)
      else (.error f, w)

/-- What a command line that is not carried out leaves. -/
def Stop.output : Stop → Output
  | .help g => ⟨0, g.help, ""⟩
  | .misuse g message => ⟨exitFailure, "", g.usageText ++ line (g.program ++ ": error: " ++ message)⟩

def run (args : List String) (w : World) (timestamp : String) : Except Fault Output × World :=
  match Request.read args with
  | .error stop => (.ok stop.output, w)
  | .ok .version => (.ok ⟨0, line ("jslintr " ++ release), ""⟩, w)
  | .ok (.job j) => j.run w timestamp

end ScriptLint.Cli
