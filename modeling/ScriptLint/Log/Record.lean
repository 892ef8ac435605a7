import ScriptLint.Mapping
import ScriptLint.Value

/-!
# ScriptLint.Log.Record

Log records with structured fields.

* `Record`: what is logged
* `Subject`: the structured fields of the library's own records
* `Journal`: records in the order in which they were logged
-/

namespace ScriptLint.Log

def rootLogger : String := "jslintr"
def engineLogger : String := "jslintr.engine"
def sandboxLogger : String := "jslintr.engine.sandbox"
def configLogger : String := "jslintr.config"
def cliLogger : String := "jslintr.cli"

def debug : Int := 10
def info : Int := 20
def warning : Int := 30
def error : Int := 40
def critical : Int := 50

/-- A record. `thrown` is the text of the fault that is logged with it. -/
structure Record where
  level : Int
  logger : String
  message : String
  fields : Mapping Value
  thrown : Option String

abbrev Journal := List Record

/-- Names of the structured fields, in the order in which they are written. -/
def fieldNames : List String :=
  ["component", "engine", "duration_ms", "diagnostics", "skipped", "path", "details"]

/-- Structured fields of a record of the library. A span of time is given as zero: the library has
no clock. -/
structure Subject where
  component : Component
  engine : Option String := none
  timed : Bool := false
  diagnostics : Option Nat := none
  skipped : Option Nat := none
  path : Option String := none
  details : Mapping Value := []

def optionalField (name : String) : Option Value → Mapping Value
  | some v => [(name, v)]
  | none => []

def detailEntries (m : Mapping Value) : List (Value × Value) := m.map fun (n, v) => (.str n, v)

def Subject.fields (s : Subject) : Mapping Value :=
  ("component", .choice (.component s.component))
    :: optionalField "engine" (s.engine.map .str)
    ++ optionalField "duration_ms" (if s.timed then some (.int 0) else none)
    ++ optionalField "diagnostics" (s.diagnostics.map fun n => .int n)
    ++ optionalField "skipped" (s.skipped.map fun n => .int n)
    ++ optionalField "path" (s.path.map .str)
    ++ (if s.details.isEmpty then [] else [("details", .dict (detailEntries s.details))])

def entry (level : Int) (logger message : String) (s : Subject) : Record :=
  ⟨level, logger, message, s.fields, none⟩

end ScriptLint.Log
