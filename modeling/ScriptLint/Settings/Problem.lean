import ScriptLint.Value.Shown

/-!
# ScriptLint.Settings.Problem

What can be wrong with settings, and how it is worded.

* `Mistake`: what is wrong with one value
* `Problem`: a mistake, where it is and the value that was given
* `Problem.summary`: a list of problems as text
-/

namespace ScriptLint

inductive Mistake where
  | notText
  | notInteger
  | notIntegerText
  | integerTooLong
  | hasFraction
  | notFinite
  | notPositive (field : String)
  | unknownChoice (label raw : String)
  | notMember (members : List String)
  | notPath
  | notMapping
  | notConfiguration
  | unknownField
  | keyNotText
  | notDocument
  | tooDeep
  | frozen
  deriving DecidableEq, Repr

namespace Mistake

def code : Mistake → String
  | .notText => "string_type"
  | .notInteger => "int_type"
  | .notIntegerText => "int_parsing"
  | .integerTooLong => "int_parsing_size"
  | .hasFraction => "int_from_float"
  | .notFinite => "finite_number"
  | .notPositive _ => "value_error"
  | .unknownChoice _ _ => "value_error"
  | .notMember _ => "enum"
  | .notPath => "path_type"
  | .notMapping => "dict_type"
  | .notConfiguration => "model_type"
  | .unknownField => "extra_forbidden"
  | .keyNotText => "invalid_key"
  | .notDocument => "invalid-json-value"
  | .tooDeep => "recursion_loop"
  | .frozen => "frozen_instance"

/-- Quoted names of a choice, the last one set off by "or". -/
def alternatives : List String → String
  | [] => ""
  | [m] => Text.quoted m
  | [m, n] => Text.quoted m ++ " or " ++ Text.quoted n
  | m :: ms => Text.quoted m ++ ", " ++ alternatives ms

def unknownText (label raw : String) : String := "Unknown " ++ label ++ " '" ++ raw ++ "'"

def message : Mistake → String
  | .notText => "Input should be a valid string"
  | .notInteger => "Input should be a valid integer"
  | .notIntegerText => "Input should be a valid integer, unable to parse string as an integer"
  | .integerTooLong => "Unable to parse input string as an integer, exceeded maximum size"
  | .hasFraction => "Input should be a valid integer, got a number with a fractional part"
  | .notFinite => "Input should be a finite number"
  | .notPositive field => "Value error, " ++ field ++ " must be a positive integer"
  | .unknownChoice label raw => "Value error, " ++ unknownText label raw
  | .notMember members => "Input should be " ++ alternatives members
  | .notPath => "Input is not a valid path for <class 'pathlib.Path'>"
  | .notMapping => "Input should be a valid dictionary"
  | .notConfiguration => "Input should be a valid dictionary or instance of ConfigModel"
  | .unknownField => "Extra inputs are not permitted"
  | .keyNotText => "Keys should be strings"
  | .notDocument => "input was not a valid JSON value"
  | .tooDeep => "Recursion error - cyclic reference detected"
  | .frozen => "Instance is frozen"

end Mistake

/-- A step of the way to a value: a name or a position. -/
inductive Step where
  | name (s : String)
  | index (i : Int)
  deriving DecidableEq, Repr

def Step.text : Step → String
  | .name s => s
  | .index i => String.ofList (Digits.ofInt i)

structure Problem where
  place : List Step
  mistake : Mistake
  given : Value

namespace Problem

/-- The same problem seen from further out. -/
def within (outer : List Step) (p : Problem) : Problem := { p with place := outer ++ p.place }

/-- The longest front part of at most `limit` bytes. -/
def takeBytes (limit : Nat) : List Char → List Char
  | [] => []
  | c :: cs => if c.utf8Size ≤ limit then c :: takeBytes (limit - c.utf8Size) cs else []

def bytes (cs : List Char) : Nat := cs.foldl (fun n c => n + c.utf8Size) 0

/-- A long text is shown by its first and last bytes only. -/
def abridge (s : String) : String :=
  let cs := s.toList
  if bytes cs ≤ 50 then s
  else
    String.ofList (takeBytes 25 cs) ++ "..." ++ String.ofList (takeBytes 24 cs.reverse).reverse

def text (p : Problem) : String :=
  let place := String.intercalate "." (p.place.map Step.text)
  (if p.place = [] then "" else place ++ "\n") ++ "  " ++ p.mistake.message ++ " [type="
    ++ p.mistake.code ++ ", input_value=" ++ abridge p.given.shownAnyhow ++ ", input_type="
    ++ p.given.kindName ++ "]"

/-- Several problems with the record `subject`. -/
def summary (subject : String) (ps : List Problem) : String :=
  let count := String.ofList (Digits.decimal ps.length)
  let head := count ++ " validation error" ++ (if ps.length = 1 then "" else "s") ++ " for " ++ subject
  String.intercalate "\n" (head :: ps.map text)

end Problem

end ScriptLint
