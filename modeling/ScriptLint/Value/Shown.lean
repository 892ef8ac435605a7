import ScriptLint.Value
import ScriptLint.Text.Quoted
import ScriptLint.Decimal.Shortest

/-!
# ScriptLint.Value.Shown

The text of a value. Inside lists, tuples and mappings texts are quoted; on its own a text, a path
or a member of a choice stands for itself.

* `Value.shown`: with quotes
* `Value.text`: without quotes at the top
* `Value.isShowable`: whether there is such a text at all
* `Value.shownAnyhow`: what is said of a value in either case
-/

namespace ScriptLint

def Choice.shown (c : Choice) : String :=
  "<" ++ c.family ++ "." ++ c.text.toUpper ++ ": " ++ Text.quoted c.text ++ ">"

namespace Value

mutual

def shown : Value → String
  | .null => "None"
  | .bool b => if b then "True" else "False"
  | .int i => String.ofList (Digits.ofInt i)
  | .float x => Binary64.plain.text x
  | .str s => Text.quoted s
  | .list xs => "[" ++ shownItems xs ++ "]"
  | .tuple [x] => "(" ++ shown x ++ ",)"
  | .tuple xs => "(" ++ shownItems xs ++ ")"
  | .dict es => "\x7b" ++ shownEntries es ++ "\x7d"
  | .choice c => c.shown
  | .path p => "PosixPath(" ++ Text.quoted p.text ++ ")"
  | .moment m => m.shown

def shownItems : List Value → String
  | [] => ""
  | [x] => shown x
  | x :: xs => shown x ++ ", " ++ shownItems xs

def shownEntries : List (Value × Value) → String
  | [] => ""
  | [(k, v)] => shown k ++ ": " ++ shown v
  | (k, v) :: es => shown k ++ ": " ++ shown v ++ ", " ++ shownEntries es

end

def text : Value → String
  | .str s => s
  | .choice c => c.text
  | .path p => p.text
  | v => v.shown

mutual

/-- Whether a value has a text. It has none if there is an integer in it that is not written. -/
def isShowable : Value → Bool
  | .int i => Digits.isWritable i
  | .list xs => itemsShowable xs
  | .tuple xs => itemsShowable xs
  | .dict es => entriesShowable es
  | _ => true

def itemsShowable : List Value → Bool
  | [] => true
  | x :: xs => isShowable x && itemsShowable xs

def entriesShowable : List (Value × Value) → Bool
  | [] => true
  | (k, v) :: es => isShowable k && isShowable v && entriesShowable es

end

def text? (v : Value) : Option String := if v.isShowable then some v.text else none

/-- A value with quotes, or its kind if it has no text. -/
def shownAnyhow (v : Value) : String :=
  if v.isShowable then v.shown else "<unprintable " ++ v.kindName ++ " object>"

end Value

end ScriptLint
