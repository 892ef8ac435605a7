import ScriptLint.Json.Basic
import ScriptLint.Text.Lines

/-!
# ScriptLint.Json.Reader

Reading a document from text. An error remembers how many characters were left where it arose,
which gives its place in the text.

* `Json.Dialect`: what the readers of the library and of the script language take differently
* `Json.readAs`, `Json.read`: the document of a text
* `Json.ReadError`: why a text is none
* `Json.ReadError.message`: the wording, with line, column and offset
-/

namespace ScriptLint

namespace Json

inductive Complaint where
  | expectingValue
  | expectingComma
  | expectingColon
  | expectingName
  | unterminated
  | controlCharacter
  | badEscape
  | badUnitEscape
  | extraData
  | byteOrderMark
  deriving DecidableEq, Repr

namespace Complaint

def text : Complaint → String
  | .expectingValue => "Expecting value"
  | .expectingComma => "Expecting ',' delimiter"
  | .expectingColon => "Expecting ':' delimiter"
  | .expectingName => "Expecting property name enclosed in double quotes"
  | .unterminated => "Unterminated string starting at"
  | .controlCharacter => "Invalid control character at"
  | .badEscape => "Invalid \\escape"
  | .badUnitEscape => "Invalid \\uXXXX escape"
  | .extraData => "Extra data"
  | .byteOrderMark => "Unexpected UTF-8 BOM (decode using utf-8-sig)"

end Complaint

inductive ReadError where
  /-- The text breaks the grammar where `left` characters are left. -/
  | broken (complaint : Complaint) (left : Nat)
  | tooManyDigits (count : Nat)
  /-- A special number is spelled where the dialect has none. -/
  | refused (token : String)
  deriving DecidableEq, Repr

/-- What readers take differently. -/
structure Dialect where
  /-- The three spellings of special numbers are taken. -/
  special : Bool
  /-- Decimal digits that an integer may have at most. -/
  digitLimit : Option Nat
  deriving DecidableEq, Repr

namespace Dialect

def host : Dialect := ⟨true, some Digits.limit⟩

def script : Dialect := ⟨false, none⟩

def refusesDigits (d : Dialect) (count : Nat) : Bool := d.digitLimit.any (· < count)

end Dialect

abbrev Result (α : Type) := Except ReadError (α × List Char)

def fail {α : Type} (c : Complaint) (rest : List Char) : Result α :=
  .error (.broken c rest.length)

def isGap (c : Char) : Bool := c == ' ' || c == '\t' || c == '\n' || c == '\r'

def skipGap (cs : List Char) : List Char := cs.dropWhile isGap

def letterEscape? (c : Char) : Option Char :=
  if c = '"' then some '"'
  else if c = '\\' then some '\\'
  else if c = '/' then some '/'
  else if c = 'b' then some '\x08'
  else if c = 'f' then some '\x0c'
  else if c = 'n' then some '\n'
  else if c = 'r' then some '\r'
  else if c = 't' then some '\t'
  else none

def unit? (a b c d : Char) : Option Nat :=
  match Digits.hexDigit? a, Digits.hexDigit? b, Digits.hexDigit? c, Digits.hexDigit? d with
  | some w, some x, some y, some z => some (((w * 16 + x) * 16 + y) * 16 + z)
  | _, _, _, _ => none

def isHighSurrogate (n : Nat) : Bool := 0xD800 ≤ n && n ≤ 0xDBFF

def isLowSurrogate (n : Nat) : Bool := 0xDC00 ≤ n && n ≤ 0xDFFF

/-- The character of a code unit; half of a pair alone has none and is replaced. -/
def unitChar (n : Nat) : Char := if 0xD800 ≤ n ∧ n ≤ 0xDFFF then '\uFFFD' else Char.ofNat n

def pairChar (high low : Nat) : Char :=
  Char.ofNat (0x10000 + (high - 0xD800) * 0x400 + (low - 0xDC00))

/-- What follows the `u` of an escape: the character and the rest. The string goes on after it,
so at least one more character must follow. `mark` is the text from the `u` on. -/
def readUnits (mark : List Char) : List Char → Result Char
  | a :: b :: c :: d :: rest =>
    if rest = [] then fail .badUnitEscape mark
    else
      match unit? a b c d with
      | none => fail .badUnitEscape mark
      | some high =>
        if isHighSurrogate high then
          match rest with
          | '\\' :: 'u' :: e :: f :: g :: h :: rest' =>
            if rest' = [] then .ok (unitChar high, rest)
            else
              match unit? e f g h with
              | none => fail .badUnitEscape (rest.drop 1)
              | some low =>
                if isLowSurrogate low then .ok (pairChar high low, rest')
                else .ok (unitChar high, rest)
          | _ => .ok (unitChar high, rest)
        else .ok (unitChar high, rest)
  | _ => fail .badUnitEscape mark

/-- One piece of a string: its end, a character and the rest, or an error. `start` is the text from
the opening quote on. -/
inductive Piece where
  | closed (rest : List Char)
  | char (c : Char) (rest : List Char)
  | bad (e : ReadError)

def readPiece (start : List Char) : List Char → Piece
  | [] => .bad (.broken .unterminated start.length)
  | '"' :: rest => .closed rest
  | ['\\'] => .bad (.broken .unterminated start.length)
  | '\\' :: 'u' :: rest =>
    match readUnits ('u' :: rest) rest with
    | .ok (c, rest') => .char c rest'
    | .error e => .bad e
  | '\\' :: c :: rest =>
    match letterEscape? c with
    | some d => .char d rest
    | none => .bad (.broken .badEscape (rest.length + 2))
  | c :: rest =>
    if c.toNat ≤ 0x1F then .bad (.broken .controlCharacter (rest.length + 1)) else .char c rest

theorem readUnits_shorter {mark cs rest : List Char} {c : Char}
    (h : readUnits mark cs = .ok (c, rest)) : rest.length < cs.length := by
  unfold readUnits at h
  repeat' split at h
  all_goals simp_all [fail]
  all_goals grind

/-- Every character of a string takes something of the text. -/
theorem readPiece_shorter {start cs rest : List Char} {c : Char}
    (h : readPiece start cs = .char c rest) : rest.length < cs.length := by
  unfold readPiece at h
  split at h
  case h_4 _ more =>
    split at h
    case h_1 _ d rest' hu =>
      cases h
      have := readUnits_shorter hu
      simp only [List.length_cons]
      omega
    case h_2 => cases h
  all_goals grind

def readChars (start cs : List Char) : Result (List Char) :=
  match _h : readPiece start cs with
  | .closed rest => .ok ([], rest)
  | .bad e => .error e
  | .char c rest =>
    match readChars start rest with
    | .ok (s, rest') => .ok (c :: s, rest')
    | .error e => .error e
termination_by cs.length
decreasing_by exact readPiece_shorter ‹_›

def readString (rest : List Char) : Result String :=
  match readChars ('"' :: rest) rest with
  | .ok (s, rest') => .ok (String.ofList s, rest')
  | .error e => .error e

/-- Fraction and exponent after the digits of a whole part: fraction digits, exponent, rest. -/
def readFraction (cs : List Char) : List Char × List Char :=
  match cs with
  | '.' :: rest =>
    match rest.takeWhile Char.isDigit with
    | [] => ([], cs)
    | ds => (ds, rest.dropWhile Char.isDigit)
  | _ => ([], cs)

def readExponent (cs : List Char) : Option Int × List Char :=
  match cs with
  | c :: rest =>
    if c = 'e' ∨ c = 'E' then
      let (negative, ds) : Bool × List Char :=
        match rest with
        | '-' :: r => (true, r)
        | '+' :: r => (false, r)
        | r => (false, r)
      match ds.takeWhile Char.isDigit with
      | [] => (none, cs)
      | es =>
        let n : Int := Digits.value 10 es
        (some (if negative then -n else n), ds.dropWhile Char.isDigit)
    else (none, cs)
  | [] => (none, cs)

/-- Digits of a whole part: a zero stands alone. -/
def readWhole : List Char → Option (List Char × List Char)
  | '0' :: rest => some (['0'], rest)
  | c :: rest =>
    if c.isDigit then some ((c :: rest).takeWhile Char.isDigit, (c :: rest).dropWhile Char.isDigit)
    else none
  | [] => none

/-- A number: an integer, unless it has a fraction or an exponent. `start` is the text from its
sign on. -/
def readNumber (d : Dialect) (start : List Char) (negative : Bool) (cs : List Char) : Result Json :=
  match readWhole cs with
  | none => fail .expectingValue start
  | some (whole, rest) =>
    let (fraction, rest₁) := readFraction rest
    let (exponent, rest₂) := readExponent rest₁
    if fraction = [] ∧ exponent = none then
      if d.refusesDigits whole.length then .error (.tooManyDigits whole.length)
      else
        let n : Int := Digits.value 10 whole
        .ok (.int (if negative then -n else n), rest₂)
    else
      .ok (.float (Binary64.ofDecimal negative (Digits.value 10 (whole ++ fraction))
        (exponent.getD 0 - fraction.length)), rest₂)

def dropWord? : List Char → List Char → Option (List Char)
  | [], cs => some cs
  | _ :: _, [] => none
  | w :: ws, c :: cs => if w = c then dropWord? ws cs else none

def readWord (w : String) (j : Json) (cs : List Char) : Result Json :=
  match dropWord? w.toList cs with
  | some rest => .ok (j, rest)
  | none => fail .expectingValue cs

/-- A special number spelled as the word `w`; a dialect without such numbers stops at `token`. -/
def readSpecial (d : Dialect) (token w : String) (x : Binary64) (cs : List Char) : Result Json :=
  if d.special then readWord w (.float x) cs else .error (.refused token)

/-- A document that is no list, mapping or string. -/
def readScalar (d : Dialect) (cs : List Char) : Result Json :=
  match cs with
  | 'n' :: _ => readWord "null" .null cs
  | 't' :: _ => readWord "true" (.bool true) cs
  | 'f' :: _ => readWord "false" (.bool false) cs
  | 'N' :: _ => readSpecial d "NaN" "NaN" .nan cs
  | 'I' :: _ => readSpecial d "Infinity" "Infinity" (.infinite false) cs
  | '-' :: 'I' :: _ => readSpecial d "-" "-Infinity" (.infinite true) cs
  | '-' :: rest => readNumber d cs true rest
  | _ => readNumber d cs false cs

mutual

/-- A document at the start of a text. `fuel` bounds the steps. -/
def readValue (d : Dialect) : Nat → List Char → Result Json
  | 0, cs => fail .expectingValue cs
  | fuel + 1, cs =>
    match cs with
    | '"' :: rest =>
      match readString rest with
      | .ok (s, rest') => .ok (.str s, rest')
      | .error e => .error e
    | '[' :: rest =>
      match skipGap rest with
      | ']' :: rest' => .ok (.arr [], rest')
      | rest' =>
        match readItems d fuel rest' with
        | .ok (xs, rest'') => .ok (.arr xs, rest'')
        | .error e => .error e
    | '\x7b' :: rest =>
      match skipGap rest with
      | '\x7d' :: rest' => .ok (.obj [], rest')
      | rest' =>
        match readFields d fuel [] rest' with
        | .ok (fs, rest'') => .ok (.obj fs, rest'')
        | .error e => .error e
    | _ => readScalar d cs

def readItems (d : Dialect) : Nat → List Char → Result (List Json)
  | 0, cs => fail .expectingValue cs
  | fuel + 1, cs =>
    match readValue d fuel cs with
    | .error e => .error e
    | .ok (x, rest) =>
      match skipGap rest with
      | ']' :: rest' => .ok ([x], rest')
      | ',' :: rest' =>
        match readItems d fuel (skipGap rest') with
        | .ok (xs, rest'') => .ok (x :: xs, rest'')
        | .error e => .error e
      | rest' => fail .expectingComma rest'

def readFields (d : Dialect) : Nat → Mapping Json → List Char → Result (Mapping Json)
  | 0, _, cs => fail .expectingName cs
  | fuel + 1, done, cs =>
    match cs with
    | '"' :: afterQuote =>
      match readString afterQuote with
      | .error e => .error e
      | .ok (name, rest) =>
        match skipGap rest with
        | ':' :: afterColon =>
          match readValue d fuel (skipGap afterColon) with
          | .error e => .error e
          | .ok (x, rest') =>
            match skipGap rest' with
            | '\x7d' :: rest'' => .ok (done.put name x, rest'')
            | ',' :: rest'' => readFields d fuel (done.put name x) (skipGap rest'')
            | rest'' => fail .expectingComma rest''
        | rest' => fail .expectingColon rest'
    | _ => fail .expectingName cs

end

def readChars? (d : Dialect) (cs : List Char) : Except ReadError Json :=
  match cs with
  | '\uFEFF' :: _ => .error (.broken .byteOrderMark cs.length)
  | _ =>
    match readValue d (2 * cs.length + 2) (skipGap cs) with
    | .error e => .error e
    | .ok (j, rest) =>
      match skipGap rest with
      | [] => .ok j
      | rest' => .error (.broken .extraData rest'.length)

def readAs (d : Dialect) (s : String) : Except ReadError Json := readChars? d s.toList

def read (s : String) : Except ReadError Json := readAs .host s

def ReadError.message (text : String) : ReadError → String
  | .broken c left =>
    let cs := text.toList
    let offset := cs.length - left
    let (line, column) := Text.place offset cs
    c.text ++ ": line " ++ Digits.ofNatText line ++ " column " ++ Digits.ofNatText column
      ++ " (char " ++ Digits.ofNatText offset ++ ")"
  | .tooManyDigits count => Digits.limitText (some count)
  | .refused token => "unexpected token: '" ++ token ++ "'"

end Json

end ScriptLint
