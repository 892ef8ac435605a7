import ScriptLint.Fault
import ScriptLint.Json.Reader
import ScriptLint.Mapping

/-!
# ScriptLint.Options.Assignment

Options given as `NAME=VALUE`. A value that is a document stands for what the document says, any
other for its own text.

* `readValue`: the value of a text
* `readAssignments`: the options of a list of tokens, later ones on top
-/

namespace ScriptLint.Options

/-- The value of a text. -/
def readValue (raw : String) : Value :=
  match Json.read raw with
  | .ok j => j.toValue
  | .error _ => .str raw

/-- What stands before the first equals sign and what after it. -/
def splitAssignment : List Char → Option (List Char × List Char)
  | [] => none
  | c :: cs =>
    if c = '=' then some ([], cs)
    else
      match splitAssignment cs with
      | some (name, value) => some (c :: name, value)
      | none => none

/-- Name and value of a token; a name must be left when the white space around it is dropped. -/
def readAssignment (token : String) : Except Fault (String × Value) :=
  match splitAssignment token.toList with
  | none => .error (.badAssignment token)
  | some (name, value) =>
    match Text.trim Text.isSpace name with
    | [] => .error (.badAssignment token)
    | c :: cs =>
      .ok (String.ofList (c :: cs), readValue (String.ofList (Text.trim Text.isSpace value)))

def readTokens (done : Mapping Value) : List String → Except Fault (Mapping Value)
  | [] => .ok done
  | token :: rest =>
    match readAssignment token with
    | .error f => .error f
    | .ok (name, value) => readTokens (done.put name value) rest

def readAssignments (tokens : List String) : Except Fault (Mapping Value) := readTokens [] tokens

end ScriptLint.Options
