import ScriptLint.Decimal.Binary64
import ScriptLint.Decimal.Digits
import ScriptLint.Text.Blank
import ScriptLint.Text.Printable

/-!
# ScriptLint.Decimal.Number

Numbers from text: decimal digits with point and exponent, single underscores between digits, and
the names of the special kinds.

* `Number.parse?`: the number a text spells
* `Number.readInteger`: what a text is as the spelling of an integer
* `Number.integer?`: the integer a text spells, unless it has too many digits
-/

namespace ScriptLint.Number

/-- Digits with single underscores between them, and what follows. -/
def digitRun (afterDigit : Bool) : List Char → List Char × List Char
  | '_' :: c :: cs =>
    if afterDigit && c.isDigit then
      let (ds, rest) := digitRun true cs
      (c :: ds, rest)
    else ([], '_' :: c :: cs)
  | c :: cs =>
    if c.isDigit then
      let (ds, rest) := digitRun true cs
      (c :: ds, rest)
    else ([], c :: cs)
  | [] => ([], [])

/-- An exponent, which must end the text. -/
def exponent? : List Char → Option Int
  | [] => some 0
  | e :: cs =>
    if e = 'e' ∨ e = 'E' then
      let (negative, rest) : Bool × List Char := match cs with
        | '-' :: r => (true, r)
        | '+' :: r => (false, r)
        | r => (false, r)
      match digitRun false rest with
      | (d :: ds, []) =>
        let n : Int := Digits.value 10 (d :: ds)
        some (if negative then -n else n)
      | _ => none
    else none

/-- A number without sign. -/
def magnitude? (negative : Bool) (cs : List Char) : Option Binary64 :=
  let lower := cs.map Char.toLower
  if lower = "nan".toList then some .nan
  else if lower = "inf".toList ∨ lower = "infinity".toList then some (.infinite negative)
  else
    let (whole, rest) := digitRun false cs
    let (fraction, rest) : List Char × List Char := match rest with
      | '.' :: r => digitRun false r
      | r => ([], r)
    if whole = [] ∧ fraction = [] then none
    else
      (exponent? rest).map fun e =>
        Binary64.ofDecimal negative (Digits.value 10 (whole ++ fraction)) (e - fraction.length)

/-- A digit of any script as the ASCII digit of its value. -/
def plainDigit (c : Char) : Char :=
  match Text.decimalDigit? c with
  | some d => Digits.digitChar d
  | none => c

def parse? (s : String) : Option Binary64 :=
  match (Text.trim Text.isWhite s.toList).map plainDigit with
  | '-' :: cs => magnitude? true cs
  | '+' :: cs => magnitude? false cs
  | cs => magnitude? false cs

/-- Digits of any script in groups set off by single underscores, as ASCII digits, and what follows
them. -/
def groupedDigits : Bool → List Char → Option (List Char × List Char)
  | afterDigit, [] => if afterDigit then some ([], []) else none
  | afterDigit, c :: cs =>
    if c = '_' then if afterDigit then groupedDigits false cs else none
    else
      match Text.decimalDigit? c with
      | some d => (groupedDigits true cs).map fun (ds, rest) => (Digits.digitChar d :: ds, rest)
      | none => if afterDigit then some ([], c :: cs) else none

/-- What a text is as the spelling of an integer. -/
inductive Spelling where
  | integer (i : Int)
  /-- It starts with more digits than are converted. -/
  | tooLong (digits : Nat)
  | other
  deriving DecidableEq, Repr

/-- Reads digits after a sign; white space may follow them. -/
def readDigits (negative : Bool) (cs : List Char) : Spelling :=
  match groupedDigits false cs with
  | none => .other
  | some (ds, rest) =>
    if Digits.limit < ds.length then .tooLong ds.length
    else if rest.all Text.isWhite then
      let n : Int := Digits.value 10 ds
      .integer (if negative then -n else n)
    else .other

/-- Reads an integer with a sign and white space around it. -/
def readInteger (s : String) : Spelling :=
  match Text.trimStart Text.isWhite s.toList with
  | '-' :: cs => readDigits true cs
  | '+' :: cs => readDigits false cs
  | cs => readDigits false cs

def integer? (s : String) : Option Int :=
  match readInteger s with
  | .integer i => some i
  | _ => none

end ScriptLint.Number
