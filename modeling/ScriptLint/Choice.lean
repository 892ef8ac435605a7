import ScriptLint.Text.Blank

/-!
# ScriptLint.Choice

The closed choices of the library. Each is read from text in any letter case, with white space
around it.

* `Variant`, `Policy`, `LogFormat`, `Component`, `DataFormat`: the choices
* `Named`: members of a choice and their texts
* `parse?`: the member a text names
-/

namespace ScriptLint

/-- An edition of the analyzer. -/
inductive Variant where
  | jslint | jshint
  deriving DecidableEq, Repr

/-- What happens to a record that cannot be read. -/
inductive Policy where
  | skip | fail
  deriving DecidableEq, Repr

inductive LogFormat where
  | text | json
  deriving DecidableEq, Repr

inductive Component where
  | engine | sandbox | config | cli
  deriving DecidableEq, Repr

inductive DataFormat where
  | text | json
  deriving DecidableEq, Repr

/-- A choice with its members in order, their texts, and what a member is called in messages. -/
class Named (α : Type) where
  members : List α
  text : α → String
  label : String

instance : Named Variant where
  members := [.jslint, .jshint]
  text | .jslint => "jslint" | .jshint => "jshint"
  label := "engine variant"

instance : Named Policy where
  members := [.skip, .fail]
  text | .skip => "skip" | .fail => "fail"
  label := "malformed diagnostic policy"

instance : Named LogFormat where
  members := [.text, .json]
  text | .text => "text" | .json => "json"
  label := "log format"

instance : Named Component where
  members := [.engine, .sandbox, .config, .cli]
  text | .engine => "engine" | .sandbox => "sandbox" | .config => "config" | .cli => "cli"
  label := "log component"

instance : Named DataFormat where
  members := [.text, .json]
  text | .text => "text" | .json => "json"
  label := "output format"

/-- Lower case as far as it can lead to an ASCII letter: the ASCII capitals and the kelvin sign. -/
def foldCase (c : Char) : Char := if c = '\u212A' then 'k' else c.toLower

/-- The form in which a text is compared with the members of a choice. -/
def fold (raw : String) : String := String.ofList ((Text.strip raw).toList.map foldCase)

def parse? (α : Type) [Named α] (raw : String) : Option α :=
  (Named.members : List α).find? fun m => Named.text m == fold raw

namespace Variant

def text (v : Variant) : String := Named.text v

def entryPoint : Variant → String
  | .jslint => "JSLINT"
  | .jshint => "JSHINT"

def scriptName (v : Variant) : String := v.text ++ ".js"

def standard : Variant := .jshint

end Variant

end ScriptLint
