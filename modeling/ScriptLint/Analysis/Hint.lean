import ScriptLint.Text.Lines
import ScriptLint.Analysis.Pattern
import ScriptLint.Analysis.Walk

/-!
# ScriptLint.Analysis.Hint

The lenient edition. Its rules form a table that is walked for every line; it never gives up early.

* `LineRule`: a row of the table
* `rules`: the table
* `findings`: everything there is to report
-/

namespace ScriptLint.Analysis.Hint

open ScriptLint.Text

/-- A rule on one masked line: when it applies, and the column and reason of what it found. -/
structure LineRule where
  rule : Rule
  active : Switches → Bool
  check : List Char → Option (Nat × String)

def quoted (cs : List Char) : String := "'" ++ String.ofList cs ++ "'"

/-- A rule whose column is that of the leftmost match. -/
def found {α : Type} (p : Matcher α) (reason : α → String) (code : List Char) :
    Option (Nat × String) :=
  match find p code with
  | some (column, a) => some (column, reason a)
  | none => none

/-- The rules in the order in which they are reported. The body without block is pointed at by its
last occurrence in the line. -/
def rules : List LineRule :=
  [ ⟨.eqeqeq, fun on => on .eqeqeq, found looseEquality
      fun op => "Expected " ++ quoted (op ++ ['=']) ++ " and instead saw " ++ quoted op ++ "."⟩,
    ⟨.evil, fun on => !on .evil, found evalCall fun _ => "eval can be harmful."⟩,
    ⟨.plusplus, fun on => on .plusplus, found increment
      fun op => "Unexpected use of " ++ quoted op ++ "."⟩,
    ⟨.debug, fun on => !on .debug, found (word "debugger")
      fun _ => "Forgotten 'debugger' statement?"⟩,
    ⟨.devel, fun on => !on .devel, found (eitherWord "console" "alert")
      fun name => quoted name.toList ++ " is not defined."⟩,
    ⟨.noarg, fun on => on .noarg, found argumentsCaller fun _ => "Avoid arguments.callee."⟩,
    ⟨.nonew, fun on => on .nonew, fun code =>
      if constructsOnly code then some (0, "Do not use 'new' for side effects.") else none⟩,
    ⟨.boss, fun on => !on .boss, found assignsInCondition
      fun _ => "Expected a conditional expression and instead saw an assignment."⟩,
    ⟨.curly, fun on => on .curly, fun code =>
      match find bodyWithoutBlock code with
      | some (_, name) =>
        some ((lastColumn name 0 code).getD 0,
          "Expected '\x7b' and instead saw " ++ quoted name ++ ".")
      | none => none⟩,
    ⟨.noempty, fun on => on .noempty, found emptyBlock fun _ => "Empty block."⟩ ]

def LineRule.apply (r : LineRule) (on : Switches) (line : Nat) (text code : List Char) :
    List Finding :=
  if r.active on then
    match r.check code with
    | some (column, reason) => [⟨r.rule, line, column, reason, text⟩]
    | none => []
  else []

/-- Findings on one line: `text` as written, `m` masked. A line without code has none. -/
def lineFindings (on : Switches) (line : Nat) (text : List Char) (m : Masked) : List Finding :=
  if m.code = [] then []
  else
    rules.flatMap (·.apply on line text m.code)
      ++ (if on .white && endsInSpace text then
          [⟨.white, line, width m.code, "Trailing whitespace.", text⟩] else [])
      ++ (if !on .asi && !m.inComment && lacksSemicolon m.code then
          [⟨.semicolon, line, width m.code, "Missing semicolon.", text⟩] else [])

def scan (on : Switches) : Bool → Nat → List (List Char) → List Finding := walk mask (lineFindings on)

def findings (on : Switches) (source : List Char) : List Finding :=
  (if on .strict && !declaresStrict source then
      [⟨.strict, 0, 0, "Missing \"use strict\" statement.", (lines source).headD []⟩] else [])
    ++ scan on false 0 (lines source)

end ScriptLint.Analysis.Hint
