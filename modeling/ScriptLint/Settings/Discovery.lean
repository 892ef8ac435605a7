import ScriptLint.Settings.Basic
import ScriptLint.Toml.Reader
import ScriptLint.World

/-!
# ScriptLint.Settings.Discovery

Finding the configuration of a project and reading it.

* `projectRoot`: the nearest directory above that holds a configuration file
* `LoadedConfiguration`: settings and options with the file they come from
* `loadConfiguration`: the file named, else the first of the project root that has a configuration,
  else the standard settings
-/

namespace ScriptLint

def configurationNames : List String := ["jslintr.toml", ".jslintr.toml", "pyproject.toml"]

/-- The file that holds the configuration of many tools, each in a table of its own. -/
def sharedName : String := "pyproject.toml"

def hasMarker (w : World) (dir : Path) : Bool :=
  configurationNames.any fun n => w.tree.isThere (dir.child n)

/-- Where the search for a configuration starts: at a place that is given, else where the command
runs. -/
def startPlace (w : World) : Option Path → Except Fault Path
  | some s => w.follow s
  | none => .ok (w.resolve w.cwd)

/-- The nearest directory with a configuration file, at or above a place that exists. -/
def projectRoot (w : World) (start : Option Path) : Except Fault Path :=
  match startPlace w start with
  | .error f => .error f
  | .ok place =>
    let base := if w.tree.isFile place then place.parent else place
    match base.ancestors.find? (hasMarker w) with
    | some dir => .ok dir
    | none =>
      match start with
      | none => .ok base
      | some s => if w.tree.isThere base then .ok base else .error (.startMissing s)

structure LoadedConfiguration where
  settings : Settings
  options : Mapping Value
  path : Option Path

namespace LoadedConfiguration

def standard : LoadedConfiguration := ⟨Settings.standard, [], none⟩

def readDocument (w : World) (file : Path) : Except Fault Value :=
  match w.readText file with
  | .error (.undecodable flaw) => .error (.configUnreadable file (.undecodable flaw))
  | .error (.file issue _) => .error (.configUnreadable file (.file issue))
  | .error f => .error f
  | .ok text =>
    match Toml.read text.toList with
    | .ok v => .ok v
    | .error (.tooManyDigits n) => .error (.tooManyDigits n)
    | .error e => .error (.configUnreadable file (.malformed (e.message text.toList)))

/-- The entry of a mapping, if the value is one and has it. -/
def valueAt? (name : String) : Value → Option Value
  | .dict es => Settings.valueAt? name es
  | _ => none

/-- The library's part of a document: all of it, or its table in the shared file. -/
def payload? (file : Path) (document : Value) : Except Fault (Option Value) :=
  if file.name != sharedName then .ok (some document)
  else
    match (valueAt? "tool" document).bind (valueAt? "jslintr") with
    | none => .ok none
    | some (.dict es) => .ok (some (.dict es))
    | some _ => .error (.configInvalid file .notTable)

def loadedNotice (file : Path) (c : Configuration) : Log.Record :=
  Log.entry Log.debug Log.configLogger ("Loaded configuration from " ++ file.text)
    { component := .config, engine := some c.settings.engine, path := some file.text }

def ofPayload (w : World) (file : Path) (payload : Value) :
    Except Fault LoadedConfiguration × World :=
  match Configuration.read payload with
  | .error ps => (.error (.configInvalid file (.problems ps)), w)
  | .ok c =>
    let w := w.log [loadedNotice file c]
    match c.settingsAt w.cwd (some (w.resolve file.parent)) with
    | .error f => (.error f, w)
    | .ok settings => (.ok ⟨settings, c.options, some (w.resolve file)⟩, w)

/-- The configuration in a file. A file that is not there, and the shared file without a table for
the library, have none. -/
def ofFile (w : World) (file : Path) : Except Fault (Option LoadedConfiguration) × World :=
  if !w.tree.isFile (w.absolute file) then (.ok none, w)
  else
    match readDocument w file with
    | .error f => (.error f, w)
    | .ok document =>
      match payload? file document with
      | .error f => (.error f, w)
      | .ok none => (.ok none, w)
      | .ok (some payload) =>
        match ofPayload w file payload with
        | (.ok c, w) => (.ok (some c), w)
        | (.error f, w) => (.error f, w)

/-- The first configuration in the files of a list. -/
def ofFiles (w : World) : List Path → Except Fault LoadedConfiguration × World
  | [] => (.ok standard, w)
  | file :: files =>
    match ofFile w file with
    | (.error f, w) => (.error f, w)
    | (.ok (some c), w) => (.ok c, w)
    | (.ok none, w) => ofFiles w files

def ofNamed (w : World) (file : Path) : Except Fault LoadedConfiguration × World :=
  match ofFile w file with
  | (.error f, w) => (.error f, w)
  | (.ok (some c), w) => (.ok c, w)
  | (.ok none, w) =>
    if w.tree.isFile (w.absolute file) then (.error (.configInvalid file .noTable), w)
    else (.error (.configUnreadable file .absent), w)

end LoadedConfiguration

/-- The configuration of a project. A file that is named is the only one considered. -/
def loadConfiguration (w : World) (named start : Option Path) :
    Except Fault LoadedConfiguration × World :=
  match named with
  | some p =>
    if p.isAbsolute then LoadedConfiguration.ofNamed w p
    else
      match w.follow p with
      | .error f => (.error f, w)
      | .ok place => LoadedConfiguration.ofNamed w place
  | none =>
    match projectRoot w start with
    | .error f => (.error f, w)
    | .ok root => LoadedConfiguration.ofFiles w (configurationNames.map root.child)

end ScriptLint
