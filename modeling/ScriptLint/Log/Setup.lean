import ScriptLint.Log.Layout
import ScriptLint.World

/-!
# ScriptLint.Log.Setup

Choosing how and what the library logs. The library's own loggers share one level and one handler.

* `Loggers`: handlers and levels
* `Setup`: the choice that was made
* `Loggers.adopt`: putting it into place
* `Loggers.configure`: making it
-/

namespace ScriptLint.Log

/-- Variables that are used where the caller says nothing. -/
def formatVariable : String := "JSLINTR_LOG_FORMAT"
def levelVariable : String := "JSLINTR_LOG_LEVEL"

def childLoggers : List String := [cliLogger, configLogger, engineLogger, sandboxLogger]

/-- Handlers of the root logger by the format they write, and levels. -/
structure Loggers where
  handlers : List LogFormat
  level : Int
  propagates : Bool
  children : List (String × Int)
  deriving DecidableEq, Repr

/-- The loggers before anything is chosen. -/
def Loggers.unset : Loggers := ⟨[], 0, true, childLoggers.map fun n => (n, 0)⟩

inductive LevelChoice where
  | weight (level : Int)
  | named (name : String)

structure Setup where
  format : LogFormat
  level : Int
  levelName : String
  deriving DecidableEq, Repr

/-- The levels that have names to choose them by. -/
def namedLevels : List (String × Int) :=
  [("debug", debug), ("info", info), ("warning", warning), ("error", error)]

def levelNamed (raw : String) : Int × String :=
  match namedLevels.find? fun l => l.1 == fold raw with
  | some (name, level) => (level, name)
  | none => (info, "info")

/-- What the caller says, else the variable unless it is empty, else what holds by itself. -/
def effective (w : World) (given : Option String) (variableName fallback : String) : String :=
  match given with
  | some s => s
  | none => (w.setting? variableName).getD fallback

def formatNamed (name : String) : Except Fault LogFormat :=
  match parse? LogFormat name with
  | some f => .ok f
  | none => .error (.unknownChoice (Named.label LogFormat) name)

/-- The format that is meant: a member of the choice, or a text that names one. -/
def chosenFormat (w : World) : Option Value → Except Fault LogFormat
  | none => formatNamed (effective w none formatVariable "text")
  | some (.choice (.logFormat f)) => .ok f
  | some v =>
    match v.asText? with
    | some name => formatNamed name
    | none => .error (.noAttribute v.kindName "strip")

/-- The level that is meant, with its name. -/
def chosenLevel (w : World) (choice : Option LevelChoice) : Except Fault (Int × String) :=
  match choice with
  | some (.weight level) => (levelName level).map fun name => (level, name.toLower)
  | some (.named name) => .ok (levelNamed (effective w (some name) levelVariable "warning"))
  | none => .ok (levelNamed (effective w none levelVariable "warning"))

namespace Loggers

/-- Takes all handlers off the root logger. -/
def clearHandlers (l : Loggers) : Loggers := { l with handlers := [] }

def addHandler (l : Loggers) (format : LogFormat) : Loggers :=
  { l with handlers := l.handlers ++ [format] }

def setLevel (l : Loggers) (level : Int) : Loggers := { l with level := level }

/-- Keeps records from the loggers above the root logger of the library. -/
def stopPropagation (l : Loggers) : Loggers := { l with propagates := false }

/-- A child logger that is not there yet is made. -/
def setChildLevel (level : Int) (l : Loggers) (name : String) : Loggers :=
  { l with children := Mapping.put name level l.children }

/-- Puts a setup into place: first the handler, then the levels, those of the children last. -/
def adopt (l : Loggers) (s : Setup) : Loggers :=
  childLoggers.foldl (setChildLevel s.level)
    ((l.clearHandlers.addHandler s.format).setLevel s.level).stopPropagation

/-- Sets up the loggers anew; a format that is not known, or a level without a name, leaves them as
they are. -/
def configure (l : Loggers) (w : World) (format : Option Value) (level : Option LevelChoice) :
    Except Fault Setup × Loggers :=
  match chosenFormat w format with
  | .error f => (.error f, l)
  | .ok chosen =>
    match chosenLevel w level with
    | .error f => (.error f, l)
    | .ok (weight, name) =>
      let setup : Setup := ⟨chosen, weight, name⟩
      (.ok setup, l.adopt setup)

end Loggers

/-- Whether a record of a logger is written. A logger without a level takes that of the root. -/
def Loggers.writes (l : Loggers) (r : Record) : Bool :=
  let own := ((l.children.find? fun c => c.1 == r.logger).map Prod.snd).getD 0
  (if own = 0 then l.level else own) ≤ r.level

/-- The lines that the handlers write for the records of a journal. The library's own records all
have a text; a handler writes no line for one that has none. -/
def Loggers.lines (l : Loggers) (timestamp : String) (j : Journal) : List String :=
  (j.filter l.writes).flatMap fun r =>
    l.handlers.flatMap fun
      | .text => [r.line]
      | .json => (r.document timestamp).toOption.toList

end ScriptLint.Log
