import ScriptLint.Toml.Moments
import ScriptLint.Toml.Scalars
import ScriptLint.Toml.Table

/-!
# ScriptLint.Toml.Reader

Reading a configuration document: statements on lines, each a header or a name with its value.

* `readKey`, `readValue`: dotted names and values
* `Document`: what the statements read so far have made
* `readStatement`: one statement
* `read`: the mapping that a text stands for
-/

namespace ScriptLint.Toml

def skipBlanks (cs : List Char) : List Char := cs.dropWhile isBlankChar

/-- A comment runs to the end of its line. -/
def skipComment (cs : List Char) : Except ReadError (List Char) :=
  match cs with
  | '#' :: rest =>
    let body := rest.takeWhile (· != '\n')
    match body.find? isControl with
    | none => .ok (rest.dropWhile (· != '\n'))
    | some c => .error (.broken (.invalidCharacter c) (rest.dropWhile fun d => !isControl d).length)
  | _ => .ok cs

/-- White space, line ends and comments between the items of a list. -/
def skipFill : Nat → List Char → Except ReadError (List Char)
  | 0, cs => .ok cs
  | fuel + 1, cs =>
    match skipComment (cs.dropWhile isFill) with
    | .error e => .error e
    | .ok rest => if rest.length = cs.length then .ok rest else skipFill fuel rest

def isBareChar (c : Char) : Bool := c.isAlphanum || c == '-' || c == '_'

def readKeyPart (cs : List Char) : Result String :=
  match cs with
  | [] => fail .keyPart []
  | c :: rest =>
    if isBareChar c then .ok (String.ofList (cs.takeWhile isBareChar), cs.dropWhile isBareChar)
    else
      let quoted := if c = '\'' then readLiteral rest
        else if c = '"' then readBasicLine rest
        else fail .keyPart cs
      match quoted with
      | .ok (s, rest') => .ok (String.ofList s, rest')
      | .error e => .error e

def readKeyParts : Nat → List Char → Result Key
  | 0, cs => fail .keyPart cs
  | fuel + 1, cs =>
    match readKeyPart cs with
    | .error e => .error e
    | .ok (part, rest) =>
      match skipBlanks rest with
      | '.' :: rest' =>
        match readKeyParts fuel (skipBlanks rest') with
        | .ok (parts, rest'') => .ok (part :: parts, rest'')
        | .error e => .error e
      | rest' => .ok ([part], rest')

def readKey (cs : List Char) : Result Key := readKeyParts (cs.length + 1) cs

def readQuoted (delim : Char) (rest : List Char) : Result Value :=
  let body := match rest with
    | c :: d :: rest' =>
      if c = delim ∧ d = delim then readMultiline delim rest'
      else if delim = '"' then readBasicLine rest else readLiteral rest
    | _ => if delim = '"' then readBasicLine rest else readLiteral rest
  match body with
  | .ok (s, rest') => .ok (.str (String.ofList s), rest')
  | .error e => .error e

/-- A value that is no string, list or inline table. -/
def readPlain (cs : List Char) : Result Value :=
  match cs with
  | 't' :: 'r' :: 'u' :: 'e' :: rest => .ok (.bool true, rest)
  | 'f' :: 'a' :: 'l' :: 's' :: 'e' :: rest => .ok (.bool false, rest)
  | _ =>
    match readMoment? cs with
    | some (.ok (m, rest)) => .ok (.moment m, rest)
    | some (.error e) => .error e
    | none =>
      match readNumber? cs with
      | some r => r
      | none =>
        match readSpecial? cs with
        | some r => .ok r
        | none => fail .value cs

/-- Whether a value holds others and is complete with them. -/
def isCompound : Value → Bool
  | .list _ => true
  | .dict _ => true
  | _ => false

mutual

/-- A value at the start of a text. `fuel` bounds the steps. -/
def readValue : Nat → List Char → Result Value
  | 0, cs => fail .value cs
  | fuel + 1, cs =>
    match cs with
    | '"' :: rest => readQuoted '"' rest
    | '\'' :: rest => readQuoted '\'' rest
    | '[' :: rest =>
      match skipFill (rest.length + 1) rest with
      | .error e => .error e
      | .ok (']' :: rest') => .ok (.list [], rest')
      | .ok rest' =>
        match readItems fuel rest' with
        | .ok (xs, rest'') => .ok (.list xs, rest'')
        | .error e => .error e
    | '\x7b' :: rest =>
      match skipBlanks rest with
      | '\x7d' :: rest' => .ok (.dict [], rest')
      | rest' =>
        match readFields fuel [] [] rest' with
        | .ok (t, rest'') => .ok (t.toValue, rest'')
        | .error e => .error e
    | _ => readPlain cs

/-- The items of a list up to its closing bracket; a comma may follow the last one. -/
def readItems : Nat → List Char → Result (List Value)
  | 0, cs => fail .value cs
  | fuel + 1, cs =>
    match readValue fuel cs with
    | .error e => .error e
    | .ok (x, rest) =>
      match skipFill (rest.length + 1) rest with
      | .error e => .error e
      | .ok (']' :: rest') => .ok ([x], rest')
      | .ok (',' :: rest') =>
        match skipFill (rest'.length + 1) rest' with
        | .error e => .error e
        | .ok (']' :: rest'') => .ok ([x], rest'')
        | .ok rest'' =>
          match readItems fuel rest'' with
          | .ok (xs, rest₃) => .ok (x :: xs, rest₃)
          | .error e => .error e
      | .ok rest' => fail .unclosedArray rest'

def readPair : Nat → List Char → Result (Key × Value)
  | 0, cs => fail .value cs
  | fuel + 1, cs =>
    match readKey cs with
    | .error e => .error e
    | .ok (key, '=' :: rest) =>
      match readValue fuel (skipBlanks rest) with
      | .ok (v, rest') => .ok ((key, v), rest')
      | .error e => .error e
    | .ok (_, rest) => fail .equals rest

/-- The fields of an inline table up to its closing brace, after the fields `t`. Keys in `frozen`
are complete. -/
def readFields : Nat → List Key → Table → List Char → Result Table
  | 0, _, _, cs => fail .value cs
  | fuel + 1, frozen, t, cs =>
    match readPair fuel cs with
    | .error e => .error e
    | .ok ((key, v), rest) =>
      if frozen.any (·.isPrefixOf key) then fail (.immutable key) rest
      else
        match t.insert key v with
        | .error .blocked => fail .overwritten rest
        | .error .taken => fail (.duplicateName (key.getLastD "")) rest
        | .ok u =>
          match skipBlanks rest with
          | '\x7d' :: rest' => .ok (u, rest')
          | ',' :: rest' =>
            readFields fuel (if isCompound v then key :: frozen else frozen) u (skipBlanks rest')
          | rest' => fail .unclosedInline rest'

end

/-- What the statements read so far have made. -/
structure Document where
  table : Table
  marks : Marks
  /-- The key of the last header. -/
  header : Key

namespace Document

def empty : Document := ⟨[], Marks.none, []⟩

/-- Keys of the tables that a dotted name goes through, seen from the whole document. -/
def passed (header key : Key) : List Key :=
  (List.range (key.length - 1)).map fun n => header ++ key.take (n + 1)

/-- A name with its value; `rest` is what follows. -/
def assign (d : Document) (key : Key) (v : Value) (rest : List Char) :
    Except ReadError Document :=
  let whole := d.header ++ key
  match (passed d.header key).find? d.marks.isDeclared with
  | some k => .error (.broken (.redefined k) rest.length)
  | none =>
    if d.marks.isFrozen whole.dropLast then
      .error (.broken (.immutable whole.dropLast) rest.length)
    else
      match d.table.insert whole v with
      | .error _ => .error (.broken .overwritten rest.length)
      | .ok t =>
        let marks := d.marks.postpone (passed d.header key)
        .ok { d with table := t, marks := if isCompound v then marks.freeze whole else marks }

def openTable (d : Document) (key : Key) (rest : List Char) : Except ReadError Document :=
  let marks := d.marks.settle
  if marks.isDeclared key ∨ marks.isFrozen key then
    .error (.broken (.declaredTwice key) rest.length)
  else
    match d.table.openTable key with
    | .error _ => .error (.broken .overwritten rest.length)
    | .ok t => .ok ⟨t, marks.declare key, key⟩

def openListed (d : Document) (key : Key) (rest : List Char) : Except ReadError Document :=
  let marks := d.marks.settle
  if marks.isFrozen key then .error (.broken (.immutable key) rest.length)
  else
    match d.table.openListed key with
    | .error _ => .error (.broken .overwritten rest.length)
    | .ok t => .ok ⟨t, (marks.forget key).declare key, key⟩

end Document

/-- A header after its opening brackets, of which it has `depth`. -/
def readHeader (d : Document) (depth : Nat) (cs : List Char) : Result Document :=
  match readKey (skipBlanks cs) with
  | .error e => .error e
  | .ok (key, rest) =>
    let opened := if depth = 1 then d.openTable key rest else d.openListed key rest
    match opened with
    | .error e => .error e
    | .ok d' =>
      if (List.replicate depth ']').isPrefixOf rest then .ok (d', rest.drop depth)
      else fail (if depth = 1 then .tableEnd else .tablesEnd) rest

def isKeyStart (c : Char) : Bool := isBareChar c || c == '"' || c == '\''

/-- One statement; `cs` is not blank at its start. -/
def readStatement (d : Document) (cs : List Char) : Result Document :=
  match cs with
  | [] => .ok (d, [])
  | '[' :: '[' :: rest => readHeader d 2 rest
  | '[' :: rest => readHeader d 1 rest
  | '#' :: _ => .ok (d, cs)
  | c :: _ =>
    if isKeyStart c then
      match readPair (2 * cs.length + 2) cs with
      | .error e => .error e
      | .ok ((key, v), rest) =>
        match d.assign key v rest with
        | .ok d' => .ok (d', rest)
        | .error e => .error e
    else fail .statement cs

/-- What may follow a statement on its line: blanks and a comment. -/
def readLineEnd (cs : List Char) : Except ReadError (List Char) :=
  match skipComment (skipBlanks cs) with
  | .error e => .error e
  | .ok [] => .ok []
  | .ok ('\n' :: rest) => .ok rest
  | .ok rest => .error (.broken .lineEnd rest.length)

def readStatements : Nat → Document → List Char → Except ReadError Document
  | 0, d, _ => .ok d
  | fuel + 1, d, cs =>
    match skipBlanks cs with
    | [] => .ok d
    | '\n' :: rest => readStatements fuel d rest
    | cs' =>
      match readStatement d cs' with
      | .error e => .error e
      | .ok (d', rest) =>
        match readLineEnd rest with
        | .error e => .error e
        | .ok rest' => readStatements fuel d' rest'

def read (cs : List Char) : Except ReadError Value :=
  match readStatements (cs.length + 1) Document.empty cs with
  | .ok d => .ok d.table.toValue
  | .error e => .error e

end ScriptLint.Toml
