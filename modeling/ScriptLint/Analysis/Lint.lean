import ScriptLint.Text.Lines
import ScriptLint.Analysis.Pattern
import ScriptLint.Analysis.Walk

/-!
# ScriptLint.Analysis.Lint

The strict edition. It looks at each rule in a fixed order, line by line, and with `passfail` on
stops at the first line that breaks one.

* `lineFindings`: the rules on one masked line
* `findings`: everything there is to report
* `trail`: what the edition leaves behind; `none` marks that it gave up
-/

namespace ScriptLint.Analysis.Lint

open ScriptLint.Text

/-- A finding if a switch is set as the rule needs it and the pattern was found. -/
def report {α : Type} (active : Bool) (rule : Rule) (line : Nat) (evidence : List Char)
    (found : Option (Nat × α)) (reason : α → String) : List Finding :=
  match active, found with
  | true, some (column, a) => [⟨rule, line, column, reason a, evidence⟩]
  | _, _ => []

def strictFindings (on : Switches) (source : List Char) (first : List Char) : List Finding :=
  if on .strict && !declaresStrict source then
    [⟨.strict, 0, 0, "Missing \"use strict\" statement.", first⟩]
  else []

def quote (cs : List Char) : String := "'" ++ String.ofList cs ++ "'"

/-- Findings on one line: `text` as written, `m` masked. A line without code has none. -/
def lineFindings (on : Switches) (line : Nat) (text : List Char) (m : Masked) : List Finding :=
  if m.code = [] then []
  else
    report (on .eqeqeq) .eqeqeq line text (find looseEither m.code)
        (fun op => "Expected " ++ quote (op ++ ['=']) ++ " and instead saw " ++ quote op ++ ".")
      ++ report (!on .evil) .evil line text (find evalCall m.code) (fun _ => "eval is evil.")
      ++ report (on .plusplus) .plusplus line text (find increment m.code)
        (fun op => "Unexpected " ++ quote op ++ ".")
      ++ report (!on .debug) .debug line text (find (word "debugger") m.code)
        (fun _ => "Unexpected 'debugger'.")
      ++ report (on .nomen) .nomen line text (find danglingName m.code)
        (fun name => "Unexpected dangling '_' in " ++ quote name ++ ".")
      ++ report (on .white && endsInSpace text) .white line text (some (width m.code, ()))
        (fun _ => "Unexpected trailing space.")
      ++ report (!m.inComment && lacksSemicolon m.code) .semicolon line text
        (some (width m.code, ())) (fun _ => "Missing semicolon.")

def scan (on : Switches) : Bool → Nat → List (List Char) → List Finding := walk mask (lineFindings on)

/-- The first finding of lines numbered from `line` on, looking no further than its line. -/
def scanFirst (on : Switches) : Bool → Nat → List (List Char) → Option Finding
  | _, _, [] => none
  | inComment, line, text :: texts =>
    let m := mask inComment text
    match lineFindings on line text m with
    | f :: _ => some f
    | [] => scanFirst on m.inComment (line + 1) texts

def findings (on : Switches) (source : List Char) : List Finding :=
  strictFindings on source ((lines source).headD []) ++ scan on false 0 (lines source)

def firstFinding (on : Switches) (source : List Char) : Option Finding :=
  match strictFindings on source ((lines source).headD []) with
  | f :: _ => some f
  | [] => scanFirst on false 0 (lines source)

/-- What the edition leaves behind. With `passfail` it gives up after its first finding and says
so by a `none`. -/
def trail (on : Switches) (source : List Char) : List (Option Finding) :=
  if on .passfail then
    match firstFinding on source with
    | some f => [some f, none]
    | none => []
  else (findings on source).map some

end ScriptLint.Analysis.Lint
