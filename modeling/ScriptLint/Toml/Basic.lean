import ScriptLint.Value.Shown
import ScriptLint.Text.Lines

/-!
# ScriptLint.Toml.Basic

What reading a configuration document shares: keys, errors and their places.

* `Key`: the parts of a dotted name
* `Complaint`: what is wrong at a place
* `ReadError.message`: the wording, with line and column
* `Result`: what was read and what is left
-/

namespace ScriptLint.Toml

abbrev Key := List String

def keyText (k : Key) : String := (Value.tuple (k.map .str)).shown

inductive Complaint where
  | statement
  | lineEnd
  | declaredTwice (key : Key)
  | immutable (key : Key)
  | redefined (key : Key)
  | overwritten
  | tableEnd
  | tablesEnd
  | equals
  | keyPart
  | expected (close : String)
  | invalidCharacter (c : Char)
  | illegalCharacter (c : Char)
  | unclosedArray
  | unclosedInline
  | duplicateName (name : String)
  | escape
  | hexValue
  | notScalar
  | unterminated
  | date
  | value
  deriving DecidableEq, Repr

namespace Complaint

def charText (c : Char) : String := Text.quoted (String.singleton c)

def text : Complaint → String
  | .statement => "Invalid statement"
  | .lineEnd => "Expected newline or end of document after a statement"
  | .declaredTwice key => "Cannot declare " ++ keyText key ++ " twice"
  | .immutable key => "Cannot mutate immutable namespace " ++ keyText key
  | .redefined key => "Cannot redefine namespace " ++ keyText key
  | .overwritten => "Cannot overwrite a value"
  | .tableEnd => "Expected ']' at the end of a table declaration"
  | .tablesEnd => "Expected ']]' at the end of an array declaration"
  | .equals => "Expected '=' after a key in a key/value pair"
  | .keyPart => "Invalid initial character for a key part"
  | .expected close => "Expected " ++ Text.quoted close
  | .invalidCharacter c => "Found invalid character " ++ charText c
  | .illegalCharacter c => "Illegal character " ++ charText c
  | .unclosedArray => "Unclosed array"
  | .unclosedInline => "Unclosed inline table"
  | .duplicateName name => "Duplicate inline table key " ++ Text.quoted name
  | .escape => "Unescaped '\\' in a string"
  | .hexValue => "Invalid hex value"
  | .notScalar => "Escaped character is not a Unicode scalar value"
  | .unterminated => "Unterminated string"
  | .date => "Invalid date or datetime"
  | .value => "Invalid value"

end Complaint

inductive ReadError where
  /-- The text breaks a rule where `left` characters are left. -/
  | broken (complaint : Complaint) (left : Nat)
  | tooManyDigits (count : Nat)
  deriving DecidableEq, Repr

abbrev Result (α : Type) := Except ReadError (α × List Char)

def fail {α : Type} (c : Complaint) (rest : List Char) : Result α :=
  .error (.broken c rest.length)

/-- Where in a text an error lies; past its last character there is no line to name. -/
def placeText (left : Nat) (cs : List Char) : String :=
  if left = 0 then "end of document"
  else
    let (line, column) := Text.place (cs.length - left) cs
    "line " ++ Digits.ofNatText line ++ ", column " ++ Digits.ofNatText column

def ReadError.message (cs : List Char) : ReadError → String
  | .broken c left => c.text ++ " (at " ++ placeText left cs ++ ")"
  | .tooManyDigits count => Digits.limitText (some count)

end ScriptLint.Toml
