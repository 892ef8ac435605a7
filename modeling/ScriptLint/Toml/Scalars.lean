import ScriptLint.Decimal.Binary64
import ScriptLint.Toml.Basic

/-!
# ScriptLint.Toml.Scalars

Strings and numbers in a document.

* `readLiteral`: a string in which every character stands for itself
* `readBasic`: a string with escapes
* `readMultiline`: the forms that run over several lines
* `readNumber?`, `readSpecial?`: numbers
-/

namespace ScriptLint.Toml

def isBlankChar (c : Char) : Bool := c == ' ' || c == '\t'

def isFill (c : Char) : Bool := isBlankChar c || c == '\n'

def isControl (c : Char) : Bool := (c.toNat < 32 && c != '\t') || c.toNat == 127

def isForbidden (multiline : Bool) (c : Char) : Bool := isControl c && !(multiline && c == '\n')

/-- What lies before the first `close` in a text, and what after it. -/
def splitAt? (close : List Char) : List Char → Option (List Char × List Char)
  | [] => none
  | c :: cs =>
    if close.isPrefixOf (c :: cs) then some ([], (c :: cs).drop close.length)
    else
      match splitAt? close cs with
      | some (before, rest) => some (c :: before, rest)
      | none => none

/-- The characters up to `close`, which stand for themselves. -/
def readUntil (multiline : Bool) (close cs : List Char) : Result (List Char) :=
  match splitAt? close cs with
  | none => fail (.expected (String.ofList close)) []
  | some (body, rest) =>
    match body.find? (isForbidden multiline) with
    | none => .ok (body, rest)
    | some c => fail (.invalidCharacter c) (cs.dropWhile fun d => !isForbidden multiline d)

def readLiteral (cs : List Char) : Result (List Char) := readUntil false ['\''] cs

def letterEscape? (c : Char) : Option Char :=
  if c = 'b' then some '\x08'
  else if c = 't' then some '\t'
  else if c = 'n' then some '\n'
  else if c = 'f' then some '\x0c'
  else if c = 'r' then some '\r'
  else if c = '"' then some '"'
  else if c = '\\' then some '\\'
  else none

def isScalarValue (n : Nat) : Bool := n ≤ 0xD7FF || (0xE000 ≤ n && n ≤ 0x10FFFF)

def readHex (size : Nat) (cs : List Char) : Result (List Char) :=
  let ds := cs.take size
  if ds.length = size ∧ ds.all fun c => (Digits.hexDigit? c).isSome then
    let n := Digits.value 16 ds
    if isScalarValue n then .ok ([Char.ofNat n], cs.drop size) else fail .notScalar (cs.drop size)
  else fail .hexValue cs

/-- A backslash before a line end: it takes the white space up to the next character with it. -/
def readFold (cs : List Char) : Result (List Char) :=
  match cs.dropWhile isBlankChar with
  | [] => .ok ([], [])
  | '\n' :: rest => .ok ([], rest.dropWhile isFill)
  | rest => fail .escape rest

def readEscape (multiline : Bool) : List Char → Result (List Char)
  | [] => fail .escape []
  | c :: rest =>
    if multiline && isFill c then readFold (c :: rest)
    else if c = 'u' then readHex 4 rest
    else if c = 'U' then readHex 8 rest
    else
      match letterEscape? c with
      | some d => .ok ([d], rest)
      | none => fail .escape rest

/-- The characters of a string with escapes up to its closing quotes; `fuel` bounds their
number. -/
def readBasic (multiline : Bool) : Nat → List Char → Result (List Char)
  | 0, _ => fail .unterminated []
  | fuel + 1, cs =>
    let goOn (s : List Char) (rest : List Char) : Result (List Char) :=
      match readBasic multiline fuel rest with
      | .ok (t, rest') => .ok (s ++ t, rest')
      | .error e => .error e
    match cs with
    | [] => fail .unterminated []
    | '"' :: rest =>
      if multiline then
        match rest with
        | '"' :: '"' :: rest' => .ok ([], rest')
        | _ => goOn ['"'] rest
      else .ok ([], rest)
    | '\\' :: rest =>
      match readEscape multiline rest with
      | .ok (s, rest') => goOn s rest'
      | .error e => .error e
    | c :: rest =>
      if isForbidden multiline c then fail (.illegalCharacter c) cs else goOn [c] rest

def readBasicLine (cs : List Char) : Result (List Char) := readBasic false (cs.length + 1) cs

/-- Up to two quotes right after the closing ones belong to the string. -/
def extraQuotes (delim : Char) (s : List Char) : List Char → List Char × List Char
  | c :: d :: rest =>
    if c = delim then
      if d = delim then (s ++ [c, d], rest) else (s ++ [c], d :: rest)
    else (s, c :: d :: rest)
  | [c] => if c = delim then (s ++ [c], []) else (s, [c])
  | [] => (s, [])

/-- A string over several lines, after its three opening quotes. A line end right after them does
not count. -/
def readMultiline (delim : Char) (cs : List Char) : Result (List Char) :=
  let body := match cs with
    | '\n' :: rest => rest
    | _ => cs
  let closed := if delim = '"' then readBasic true (body.length + 1) body
    else readUntil true [delim, delim, delim] body
  match closed with
  | .error e => .error e
  | .ok (s, rest) => .ok (extraQuotes delim s rest)

/-- Digits with single underscores between them, after a first digit. -/
def moreDigits (ok : Char → Bool) : List Char → List Char × List Char
  | '_' :: c :: cs =>
    if ok c then
      let (ds, rest) := moreDigits ok cs
      (c :: ds, rest)
    else ([], '_' :: c :: cs)
  | c :: cs =>
    if ok c then
      let (ds, rest) := moreDigits ok cs
      (c :: ds, rest)
    else ([], c :: cs)
  | [] => ([], [])

def digits? (ok : Char → Bool) : List Char → Option (List Char × List Char)
  | [] => none
  | c :: cs =>
    if ok c then
      let (ds, rest) := moreDigits ok cs
      some (c :: ds, rest)
    else none

def isBinary (c : Char) : Bool := c == '0' || c == '1'

def isOctal (c : Char) : Bool := '0' ≤ c && c ≤ '7'

def isHex (c : Char) : Bool := (Digits.hexDigit? c).isSome

/-- An integer in base two, eight or sixteen. -/
def readBased? : List Char → Option (Int × List Char)
  | '0' :: c :: cs =>
    let base : Option (Nat × (Char → Bool)) :=
      if c = 'x' then some (16, isHex)
      else if c = 'b' then some (2, isBinary)
      else if c = 'o' then some (8, isOctal)
      else none
    match base with
    | none => none
    | some (b, ok) => (digits? ok cs).map fun (ds, rest) => ((Digits.value b ds : Int), rest)
  | _ => none

/-- The digits of a decimal whole part: a zero stands alone. -/
def readWhole? : List Char → Option (List Char × List Char)
  | '0' :: cs => some (['0'], cs)
  | cs => digits? Char.isDigit cs

def readSign : List Char → Bool × List Char
  | '-' :: cs => (true, cs)
  | '+' :: cs => (false, cs)
  | cs => (false, cs)

def readFraction? : List Char → Option (List Char × List Char)
  | '.' :: cs => digits? Char.isDigit cs
  | _ => none

def readExponent? : List Char → Option (Int × List Char)
  | [] => none
  | c :: cs =>
    if c = 'e' ∨ c = 'E' then
      let (negative, ds) := readSign cs
      (digits? Char.isDigit ds).map fun (es, rest) =>
        let n : Int := Digits.value 10 es
        (if negative then -n else n, rest)
    else none

/-- A decimal integer, or a number with a fraction or an exponent. -/
def readDecimal (negative : Bool) (whole cs : List Char) : Result Value :=
  let fraction := readFraction? cs
  let afterFraction := match fraction with
    | some (_, rest) => rest
    | none => cs
  let exponent := readExponent? afterFraction
  match fraction, exponent with
  | none, none =>
    if Digits.limit < whole.length then .error (.tooManyDigits whole.length)
    else
      let n : Int := Digits.value 10 whole
      .ok (.int (if negative then -n else n), cs)
  | _, _ =>
    let places := (fraction.map Prod.fst).getD []
    let e := (exponent.map Prod.fst).getD 0
    let rest := (exponent.map Prod.snd).getD afterFraction
    .ok (.float (Binary64.ofDecimal negative (Digits.value 10 (whole ++ places))
      (e - places.length)), rest)

def readNumber? (cs : List Char) : Option (Result Value) :=
  match readBased? cs with
  | some (n, rest) => some (.ok (.int n, rest))
  | none =>
    let (negative, unsigned) := readSign cs
    (readWhole? unsigned).map fun (whole, rest) => readDecimal negative whole rest

def readSpecial? (cs : List Char) : Option (Value × List Char) :=
  let (negative, unsigned) := readSign cs
  match unsigned with
  | 'i' :: 'n' :: 'f' :: rest => some (.float (.infinite negative), rest)
  | 'n' :: 'a' :: 'n' :: rest => some (.float .nan, rest)
  | _ => none

end ScriptLint.Toml
