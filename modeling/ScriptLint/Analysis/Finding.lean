/-!
# ScriptLint.Analysis.Finding

What an analyzer reports, and the switches it consults.

* `Rule`: the rule that was broken
* `Switch`: an option an analyzer looks at; only its truth counts
* `Finding`: a broken rule at a place
-/

namespace ScriptLint.Analysis

inductive Rule where
  | strict | eqeqeq | evil | plusplus | debug | nomen | white | semicolon
  | devel | noarg | nonew | boss | curly | noempty
  deriving DecidableEq, Repr

inductive Switch where
  | strict | eqeqeq | evil | plusplus | debug | nomen | white | passfail
  | devel | noarg | nonew | boss | curly | noempty | asi
  deriving DecidableEq, Repr

namespace Switch

def name : Switch → String
  | .strict => "strict"
  | .eqeqeq => "eqeqeq"
  | .evil => "evil"
  | .plusplus => "plusplus"
  | .debug => "debug"
  | .nomen => "nomen"
  | .white => "white"
  | .passfail => "passfail"
  | .devel => "devel"
  | .noarg => "noarg"
  | .nonew => "nonew"
  | .boss => "boss"
  | .curly => "curly"
  | .noempty => "noempty"
  | .asi => "asi"

end Switch

/-- Which switches are on. -/
abbrev Switches := Switch → Bool

/-- A broken rule. Lines count from zero, columns in UTF-16 code units from zero; the evidence is
the line as it was written. -/
structure Finding where
  rule : Rule
  line : Nat
  column : Nat
  reason : String
  evidence : List Char
  deriving DecidableEq, Repr

end ScriptLint.Analysis
