import ScriptLint.Json.Writer

/-!
# ScriptLint.Diagnostic

Findings as the library hands them on. Positions count from zero as the engine reports them; they
are shown from one.

* `Diagnostic`: a finding
* `locator`, `evidenceLine`: its two lines in a report
* `report?`: the lines of a report of a list of findings
* `report`: that report, if its positions can be shown
* `FileReport`, `renderBatch?`: the reports of several files
-/

namespace ScriptLint

structure Diagnostic where
  line : Int
  character : Int
  reason : String
  evidence : String
  deriving DecidableEq, Repr

namespace Diagnostic

def shownInt (i : Int) : String := String.ofList (Digits.ofInt i)

def locator (d : Diagnostic) : String :=
  "Error at line " ++ shownInt (d.line + 1) ++ " character " ++ shownInt (d.character + 1) ++ ": "
    ++ d.reason

def evidenceLine (d : Diagnostic) : String := "  " ++ d.evidence

def reportLines (d : Diagnostic) : List String := [d.locator, d.evidenceLine]

def fields (d : Diagnostic) : Mapping Value :=
  [("line", .int (d.line + 1)), ("character", .int (d.character + 1)), ("reason", .str d.reason),
    ("evidence", .str d.evidence)]

/-- The report of findings in order; without findings there is none. -/
def report? (ds : List Diagnostic) : Option String :=
  if ds.isEmpty then none else some (String.intercalate "\n" (ds.flatMap reportLines))

/-- Whether the positions of a finding can be shown. -/
def isShowable (d : Diagnostic) : Bool :=
  Digits.isWritable (d.line + 1) && Digits.isWritable (d.character + 1)

/-- The report of findings whose positions can all be shown. -/
def report (ds : List Diagnostic) : Except Fault (Option String) :=
  if ds.all isShowable then .ok (report? ds) else .error .unwritable

end Diagnostic

structure FileReport where
  path : Path
  report : Option String
  diagnostics : List Diagnostic

namespace FileReport

def clean (r : FileReport) : Bool := r.report.isNone

/-- The block of a file with findings. -/
def block? (r : FileReport) : Option String :=
  r.report.map fun text => "\nIn [" ++ r.path.text ++ "]:\n" ++ text ++ "\n"

/-- The blocks of the files with findings; when all files are clean there is no text. -/
def renderBatch? (rs : List FileReport) : Option String :=
  match rs.filterMap block? with
  | [] => none
  | blocks => some (String.intercalate "\n" blocks)

end FileReport

end ScriptLint
