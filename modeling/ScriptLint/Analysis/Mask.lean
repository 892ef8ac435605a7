import ScriptLint.Text.Units
import ScriptLint.Text.Blank

/-!
# ScriptLint.Analysis.Mask

Masking a line: the characters of string contents and comments become spaces, so that rules see
code only and columns stay where they were. A block comment may run on over the line's end.

* `Zone`: what a position is inside of
* `Lint.mask`: the masked line, by looking one character ahead
* `Hint.mask`: the masked line, by an automaton that reads one character at a time
-/

namespace ScriptLint.Analysis

open ScriptLint.Text

/-- What a position of a line is inside of. -/
inductive Zone where
  | code
  | quoted (quote : Char)
  | comment
  deriving DecidableEq, Repr

def Zone.atStart (inComment : Bool) : Zone := if inComment then .comment else .code

def isQuote (c : Char) : Bool := c == '\'' || c == '"'

/-- A line with what is not code blanked out, and whether a block comment is still open. -/
structure Masked where
  code : List Char
  inComment : Bool
  deriving DecidableEq, Repr

/-- Puts `out` in front of a masked line. -/
def Masked.prepend (out : List Char) (m : Masked) : Masked := ⟨out ++ m.code, m.inComment⟩

def Masked.trimmed (m : Masked) : Masked := ⟨trimEnd isBlank m.code, m.inComment⟩

namespace Lint

/-- Blanks a line from zone `z` on. A line comment ends the masked line. -/
def blank : Zone → List Char → Masked
  | z, [] => ⟨[], z == .comment⟩
  | .comment, '*' :: '/' :: cs => (blank .code cs).prepend [' ', ' ']
  | .comment, c :: cs => (blank .comment cs).prepend (blanks c)
  | .quoted _, ['\\'] => ⟨[' ', ' '], false⟩
  | .quoted q, '\\' :: c :: cs => (blank (.quoted q) cs).prepend (' ' :: blanks c)
  | .quoted q, c :: cs =>
    if c = q then (blank .code cs).prepend [c] else (blank (.quoted q) cs).prepend (blanks c)
  | .code, '/' :: '/' :: _ => ⟨[], false⟩
  | .code, '/' :: '*' :: cs => (blank .comment cs).prepend [' ', ' ']
  | .code, c :: cs => (blank (if isQuote c then .quoted c else .code) cs).prepend [c]

def mask (inComment : Bool) (line : List Char) : Masked :=
  (blank (Zone.atStart inComment) line).trimmed

end Lint

namespace Hint

/-- State between two characters of a line. -/
inductive Mode where
  /-- The next character stands for itself. -/
  | at (zone : Zone)
  /-- The next character was taken together with the one before it. -/
  | taken (zone : Zone)
  /-- Nothing after this counts. -/
  | done
  deriving DecidableEq, Repr

/-- What one character leaves in the masked line, and the state after it; `next` is the character
that follows. A taken character was paid for by the one before it. -/
def step : Mode → Char → Option Char → List Char × Mode
  | .done, _, _ => ([], .done)
  | .taken z, _, _ => ([], .at z)
  | .at .comment, c, next =>
    if c = '*' ∧ next = some '/' then ([' ', ' '], .taken .code) else (blanks c, .at .comment)
  | .at (.quoted q), c, next =>
    if c = '\\' then (' ' :: (match next with | some d => blanks d | none => [' ']), .taken (.quoted q))
    else if c = q then ([c], .at .code)
    else (blanks c, .at (.quoted q))
  | .at .code, c, next =>
    if c = '/' ∧ next = some '/' then ([], .done)
    else if c = '/' ∧ next = some '*' then ([' ', ' '], .taken .comment)
    else ([c], .at (if isQuote c then .quoted c else .code))

def Mode.inComment : Mode → Bool
  | .at z => z == .comment
  | .taken z => z == .comment
  | .done => false

def run : Mode → List Char → Masked
  | m, [] => ⟨[], m.inComment⟩
  | m, c :: cs =>
    let (out, m') := step m c cs.head?
    (run m' cs).prepend out

def mask (inComment : Bool) (line : List Char) : Masked :=
  (run (.at (Zone.atStart inComment)) line).trimmed

end Hint

end ScriptLint.Analysis
