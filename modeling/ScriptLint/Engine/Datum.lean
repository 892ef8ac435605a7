import ScriptLint.Engine.Numeral
import ScriptLint.Json.Reader
import ScriptLint.Json.Writer

/-!
# ScriptLint.Engine.Datum

Values as a script sees them: every number is binary, and the properties of an object are listed
with array indices first.

* `Datum`: the values
* `Datum.ofJson`: the value of a document
* `Datum.parse`: what a script reads from a text
* `Datum.stringify`: the compact document a script writes
* `Datum.text`, `Datum.hasText`: the text a script makes of a value, and whether it can
* `Datum.truthy`: truth in a condition
-/

namespace ScriptLint

/-- A value of the script language. Integers of at most 53 bits are kept apart: they are exact. -/
inductive Datum where
  | null
  | bool (b : Bool)
  | whole (i : Int)
  | real (x : Binary64)
  | str (s : String)
  | arr (items : List Datum)
  | obj (props : List (String × Datum))

namespace Datum

/-- Greatest integer below which every integer is a binary number. -/
def exactLimit : Nat := 9007199254740992

def ofInt (i : Int) : Datum :=
  if i.natAbs ≤ exactLimit then .whole i else .real (Engine.Numeral.read i)

def ofFloat (x : Binary64) : Datum :=
  match x.toInt? with
  | some i => if i.natAbs ≤ exactLimit then .whole i else .real x
  | none => .real x

/-- The value of a name that is an array index: decimal digits without a leading zero. -/
def index? (name : String) : Option Nat :=
  match name.toList with
  | ['0'] => some 0
  | c :: cs =>
    if c ≠ '0' ∧ (c :: cs).all Char.isDigit ∧ (c :: cs).length ≤ 10
        ∧ Digits.value 10 (c :: cs) < 4294967295 then
      some (Digits.value 10 (c :: cs))
    else none
  | [] => none

/-- Properties in the order in which a script lists them: array indices ascending, then the other
names as they came. -/
def listed (props : List (String × Datum)) : List (String × Datum) :=
  (props.filter fun p => (index? p.1).isSome).mergeSort
      (fun p q => (index? p.1).getD 0 ≤ (index? q.1).getD 0)
    ++ props.filter fun p => (index? p.1).isNone

mutual

/-- The value of a document, whatever numbers are in it. -/
def ofJson : Json → Datum
  | .null => .null
  | .bool b => .bool b
  | .int i => ofInt i
  | .float x => ofFloat x
  | .str s => .str s
  | .arr xs => .arr (ofItems xs)
  | .obj fs => .obj (listed (ofFields fs))

def ofItems : List Json → List Datum
  | [] => []
  | x :: xs => ofJson x :: ofItems xs

def ofFields : List (String × Json) → List (String × Datum)
  | [] => []
  | (n, x) :: fs => (n, ofJson x) :: ofFields fs

end

/-- What a script says about a text that its reader stops at. -/
def syntaxDetail : Json.ReadError → String
  | .refused token => "SyntaxError: unexpected token: '" ++ token ++ "'"
  | _ => "SyntaxError: unexpected token"

/-- The value that a script reads from a text, or what it says about the text. -/
def parse (text : String) : Except String Datum :=
  match Json.readAs .script text with
  | .ok j => .ok (ofJson j)
  | .error e => .error (syntaxDetail e)

def numberText (x : Binary64) : String := Binary64.script.text x

mutual

/-- The compact document of a value; numbers without digits become null. -/
def write : Datum → List Char
  | .null => "null".toList
  | .bool b => if b then "true".toList else "false".toList
  | .whole i => Digits.ofInt i
  | .real x => if x.isFinite then (numberText x).toList else "null".toList
  | .str s => Json.writeString false s
  | .arr xs => '[' :: writeItems xs ++ [']']
  | .obj ps => '\x7b' :: writeProps ps ++ ['\x7d']

def writeItems : List Datum → List Char
  | [] => []
  | [x] => write x
  | x :: xs => write x ++ ',' :: writeItems xs

def writeProps : List (String × Datum) → List Char
  | [] => []
  | [(n, x)] => Json.writeString false n ++ ':' :: write x
  | (n, x) :: ps => Json.writeString false n ++ ':' :: write x ++ ',' :: writeProps ps

end

def stringify (d : Datum) : String := String.ofList (write d)

mutual

/-- The text a script makes of a value; the items of a list are joined by commas, and null items
are empty. -/
def text : Datum → String
  | .null => "null"
  | .bool b => if b then "true" else "false"
  | .whole i => String.ofList (Digits.ofInt i)
  | .real x => numberText x
  | .str s => s
  | .arr xs => itemTexts xs
  | .obj _ => "[object Object]"

def itemTexts : List Datum → String
  | [] => ""
  | [x] => itemText x
  | x :: xs => itemText x ++ "," ++ itemTexts xs

def itemText : Datum → String
  | .null => ""
  | .bool b => if b then "true" else "false"
  | .whole i => String.ofList (Digits.ofInt i)
  | .real x => numberText x
  | .str s => s
  | .arr xs => itemTexts xs
  | .obj _ => "[object Object]"

end

def textName : String := "toString"

mutual

/-- Whether a script can make a text of a value. -/
def hasText : Datum → Bool
  | .arr xs => haveText xs
  | .obj ps => !Mapping.has textName ps
  | _ => true

def haveText : List Datum → Bool
  | [] => true
  | x :: xs => hasText x && haveText xs

end

def truthy : Datum → Bool
  | .null => false
  | .bool b => b
  | .whole i => i != 0
  | .real .nan => false
  | .real x => !x.isZero
  | .str s => s != ""
  | .arr _ => true
  | .obj _ => true

end Datum

end ScriptLint
