import ScriptLint.Engine.Datum
import ScriptLint.Text.Lines
import ScriptLint.Analysis.Lint
import ScriptLint.Analysis.Hint

/-!
# ScriptLint.Engine.Program

What an engine script does when it is evaluated and called.

* `Options`: the option object a script is called with
* `Outcome`: how a call ended
* `Program`: what a script does
* `Program.lint`, `Program.hint`: the two analyzers as programs
* `Program.reporting`, `Program.echo`, …: programs that stand in for analyzers
-/

namespace ScriptLint.Engine

open ScriptLint.Analysis

/-- The option object: its own properties, and those it inherits from the value that was assigned
to its prototype. -/
structure Options where
  own : List (String × Datum)
  inherited : List (String × Datum)

namespace Options

def empty : Options := ⟨[], []⟩

/-- Name of the property that sets the prototype instead of being stored. -/
def prototypeName : String := "__proto__"

/-- Assigns an option. The prototype takes objects only. -/
def assign (o : Options) (name : String) (d : Datum) : Options :=
  if name = prototypeName then
    match d with
    | .obj ps => { o with inherited := ps }
    | .null => { o with inherited := [] }
    | _ => o
  else { o with own := Mapping.put name d o.own }

/-- The value of an option, its own before the inherited one. -/
def get? (o : Options) (name : String) : Option Datum :=
  (Mapping.get? name o.own).or (Mapping.get? name o.inherited)

def isOn (o : Options) (name : String) : Bool := (o.get? name).any Datum.truthy

def switches (o : Options) : Switches := fun s => o.isOn s.name

end Options

inductive Outcome where
  | threw (detail : String)
  /-- It left its errors, or none at all. -/
  | left (errors : Option Datum)
  /-- It left something that no document can hold. -/
  | unwritable

inductive Program where
  /-- It does not get through loading. -/
  | broken (detail : String)
  | inert
  | callable (entry : String) (call : Options → List Char → Outcome)

def count (n : Nat) : Datum := .whole n

def findingRecord (f : Finding) : Datum :=
  .obj [("id", .str "(error)"), ("line", count f.line), ("character", count f.column),
    ("reason", .str f.reason), ("evidence", .str (String.ofList f.evidence))]

/-- A trail of findings as a list of records; giving up is a null. -/
def trailRecords (fs : List (Option Finding)) : Datum :=
  .arr (fs.map fun
    | some f => findingRecord f
    | none => .null)

namespace Program

def lint : Program :=
  .callable (Variant.jslint.entryPoint) fun o source =>
    .left (some (trailRecords (Lint.trail o.switches source)))

def hint : Program :=
  .callable (Variant.jshint.entryPoint) fun o source =>
    .left (some (trailRecords ((Hint.findings o.switches source).map some)))

/-- A program that leaves one document, whatever it is called with. -/
def reporting (entry : String) (errors : Datum) : Program :=
  .callable entry fun _ _ => .left (some errors)

def record (line character : Nat) (reason : String) (evidence : List Char) : Datum :=
  .obj [("line", count line), ("character", count character), ("reason", .str reason),
    ("evidence", .str (String.ofList evidence))]

/-- A program that reports what it was called with. -/
def echo (entry : String) : Program :=
  .callable entry fun o source =>
    .left (some (.arr
      [record 0 (Text.width source) (Datum.obj (Datum.listed o.own)).stringify source]))

/-- A program that reports how often it was called in its context. -/
def counter (entry : String) : Program :=
  .callable entry fun _ source => .left (some (.arr [record 1 0 "call" source]))

def idle (entry : String) : Program := .callable entry fun _ _ => .left none

def unwritable (entry : String) : Program := .callable entry fun _ _ => .unwritable

/-- What the interpreter says in a text: it ends at the first NUL. -/
def spoken (s : String) : String := String.ofList (Text.untilNul s.toList)

/-- What the interpreter says about a thrown error object. -/
def errorDetail (name message : String) : String :=
  if message = "" then spoken name else spoken (name ++ ": " ++ message)

def throwing (entry name message : String) : Program :=
  .callable entry fun _ _ => .threw (errorDetail name message)

/-- What the interpreter says about a value that has no text. -/
def speechless : String := "(Failed obtaining QuickJS error string. Concurrency issue?)"

/-- The text of the trace that comes with a thrown value. Only error objects have one of their
own; null has not even a missing one. -/
def trace : Datum → String
  | .null => ""
  | .obj ps =>
    match Mapping.get? "stack" ps with
    | some d => if d.hasText then d.text else ""
    | none => "undefined"
  | _ => "undefined"

/-- What the interpreter says about a thrown value: its text, and its trace on a line of its own. -/
def valueDetail (d : Datum) : String :=
  if d.hasText then spoken d.text ++ "\n" ++ spoken (trace d) else speechless

def throwingValue (entry : String) (d : Datum) : Program :=
  .callable entry fun _ _ => .threw (valueDetail d)

def unparsable : Program := .broken "SyntaxError: invalid property name"

/-- The value that a script holds as a text, or what it says when it reads the text. -/
def readDatum (text : String) : Except String Datum := Datum.parse text

end Program

end ScriptLint.Engine
