import ScriptLint.Text.Printable
import ScriptLint.Decimal.Digits

/-!
# ScriptLint.Text.Quoted

A text in quotes, as it is shown inside the text of a value.

* `delimiter`: single quotes, unless only those occur in the text
* `quoted`: the text with its quotes; what is not printable is written as an escape
-/

namespace ScriptLint.Text

/-- Single quotes, unless the text has a single quote and no double quote. -/
def delimiter (cs : List Char) : Char :=
  if cs.contains '\'' && !cs.contains '"' then '"' else '\''

/-- An escape by number: two, four or eight digits. -/
def numberEscape (c : Char) : List Char :=
  let n := c.toNat
  if n < 0x100 then '\\' :: 'x' :: Digits.hex 2 n
  else if n < 0x10000 then '\\' :: 'u' :: Digits.hex 4 n
  else '\\' :: 'U' :: Digits.hex 8 n

def quotedChar (delim c : Char) : List Char :=
  if c = delim ∨ c = '\\' then ['\\', c]
  else if c = '\n' then ['\\', 'n']
  else if c = '\r' then ['\\', 'r']
  else if c = '\t' then ['\\', 't']
  else if isPrintable c then [c]
  else numberEscape c

def quotedChars (cs : List Char) : List Char :=
  let d := delimiter cs
  d :: cs.flatMap (quotedChar d) ++ [d]

def quoted (s : String) : String := String.ofList (quotedChars s.toList)

end ScriptLint.Text
