import ScriptLint.Json.Basic

/-!
# ScriptLint.Json.Writer

The written form of a document.

* `Style`: what is escaped, and whether the document is laid out over lines
* `Json.write`: the written form
* `Json.encode`, `Json.literal`, `Json.pretty`: the forms the library uses
* `Value.encode`, `Value.pretty`: the text that is written for a value, if there is one
-/

namespace ScriptLint

namespace Json

structure Style where
  /-- Everything beyond printable ASCII is escaped. -/
  ascii : Bool
  indent : Option Nat

def unitEscape (n : Nat) : List Char := '\\' :: 'u' :: Digits.hex 4 n

def unitEscapes (c : Char) : List Char :=
  let n := c.toNat
  if n < 0x10000 then unitEscape n
  else
    unitEscape (0xD800 + (n - 0x10000) / 0x400) ++ unitEscape (0xDC00 + (n - 0x10000) % 0x400)

/-- The escape that a character has in every style. -/
def shortEscape? (c : Char) : Option (List Char) :=
  if c = '"' then some ['\\', '"']
  else if c = '\\' then some ['\\', '\\']
  else if c = '\n' then some ['\\', 'n']
  else if c = '\r' then some ['\\', 'r']
  else if c = '\t' then some ['\\', 't']
  else if c = '\x08' then some ['\\', 'b']
  else if c = '\x0c' then some ['\\', 'f']
  else none

def writeChar (ascii : Bool) (c : Char) : List Char :=
  match shortEscape? c with
  | some e => e
  | none =>
    if c.toNat < 0x20 then unitEscape c.toNat
    else if ascii && 0x7F ≤ c.toNat then unitEscapes c
    else [c]

def writeString (ascii : Bool) (s : String) : List Char :=
  '"' :: s.toList.flatMap (writeChar ascii) ++ ['"']

def writeNumber (x : Binary64) : List Char := (Binary64.document.text x).toList

/-- Line end and indentation of a level, where the style has them. -/
def Style.newline (st : Style) (level : Nat) : List Char :=
  match st.indent with
  | some k => '\n' :: List.replicate (k * level) ' '
  | none => []

/-- What stands between two items. -/
def Style.separator (st : Style) (level : Nat) : List Char :=
  match st.indent with
  | some _ => ',' :: st.newline level
  | none => [',', ' ']

mutual

def write (st : Style) (level : Nat) : Json → List Char
  | .null => "null".toList
  | .bool b => if b then "true".toList else "false".toList
  | .int i => Digits.ofInt i
  | .float x => writeNumber x
  | .str s => writeString st.ascii s
  | .arr [] => ['[', ']']
  | .arr (x :: xs) =>
    '[' :: st.newline (level + 1) ++ write st (level + 1) x ++ writeItems st (level + 1) xs
      ++ st.newline level ++ [']']
  | .obj [] => ['\x7b', '\x7d']
  | .obj ((n, x) :: fs) =>
    '\x7b' :: st.newline (level + 1) ++ writeString st.ascii n ++ ':' :: ' ' :: write st (level + 1) x
      ++ writeFields st (level + 1) fs ++ st.newline level ++ ['\x7d']

def writeItems (st : Style) (level : Nat) : List Json → List Char
  | [] => []
  | x :: xs => st.separator level ++ write st level x ++ writeItems st level xs

def writeFields (st : Style) (level : Nat) : List (String × Json) → List Char
  | [] => []
  | (n, x) :: fs =>
    st.separator level ++ writeString st.ascii n ++ ':' :: ' ' :: write st level x
      ++ writeFields st level fs

end

/-- On one line, with characters beyond ASCII as they are. -/
def encode (j : Json) : String := String.ofList (write ⟨false, none⟩ 0 j)

/-- Over several lines, two spaces per level. -/
def pretty (j : Json) : String := String.ofList (write ⟨false, some 2⟩ 0 j)

/-- A text as a literal in printable ASCII. -/
def literal (s : String) : String := String.ofList (writeString true s)

end Json

namespace Value

/-- The text of the document that holds what a document holds in place of a value. -/
def written (layout : Json → String) (v : Value) : Except Fault String :=
  match v.normalize with
  | .error f => .error f
  | .ok n =>
    match n.document with
    | .error f => .error f
    | .ok j => .ok (layout j)

/-- The text of an option's value, as it is handed to a script. -/
def encode (v : Value) : Except Fault String := v.written Json.encode

def pretty (v : Value) : Except Fault String := v.written Json.pretty

end Value

end ScriptLint
