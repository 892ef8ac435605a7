import ScriptLint.Analysis.Finding
import ScriptLint.Analysis.Mask

/-!
# ScriptLint.Analysis.Walk

The way both editions go through a text: line by line, each line masked from where the block
comments of the lines before it leave off.

* `walk`: the findings of the lines
-/

namespace ScriptLint.Analysis

/-- Findings of lines numbered from `line` on; `check` looks at a line as written and masked. -/
def walk (mask : Bool → List Char → Masked) (check : Nat → List Char → Masked → List Finding) :
    Bool → Nat → List (List Char) → List Finding
  | _, _, [] => []
  | inComment, line, text :: texts =>
    let m := mask inComment text
    check line text m ++ walk mask check m.inComment (line + 1) texts

end ScriptLint.Analysis
