import ScriptLint.Decimal.Places
import ScriptLint.Value.Shown

/-!
# ScriptLint.Log.Arguments

Arguments laid into the message of a record. A directive is a percent sign with flags, a width, a
count of digits and a letter that says how the argument is written.

* `Directive`: one directive
* `ArgumentIssue`: why arguments do not fit a message
* `fill`: the message with its arguments
-/

namespace ScriptLint.Log

inductive ArgumentIssue where
  | tooFew
  | tooMany
  | incomplete
  | unknownLetter (letter : Char) (index : Nat)
  | unclosedKey
  | needsMapping
  | noKey (name : String)
  | needsNumber (letter : Char) (kind : String)
  | needsInteger (letter : Char) (kind : String)
  | needsReal (kind : String)
  | needsChar
  | charRange
  | starNeedsInteger
  | widthTooBig
  | placesTooBig
  /-- A count given as an argument does not fit the kind of integer that counts. -/
  | starTooBig (kind : String)
  /-- There is no room for a text of this width. -/
  | noRoom
  | notANumber
  | infinite
  /-- An integer beyond the greatest binary number. -/
  | tooLarge
  /-- An integer has too many digits to be written. -/
  | unwritable
  deriving DecidableEq, Repr

namespace ArgumentIssue

def letterText (c : Char) : String := "%" ++ String.singleton c

def message : ArgumentIssue → String
  | .tooFew => "not enough arguments for format string"
  | .tooMany => "not all arguments converted during string formatting"
  | .incomplete => "incomplete format"
  | .unknownLetter c i =>
    "unsupported format character '" ++ String.singleton (if c.toNat < 31 ∨ 126 < c.toNat then '?' else c)
      ++ "' (0x" ++ String.ofList (Digits.hex 1 c.toNat) ++ ") at index " ++ Digits.ofNatText i
  | .unclosedKey => "incomplete format key"
  | .needsMapping => "format requires a mapping"
  | .noKey name => Text.quoted name
  | .needsNumber c kind => letterText c ++ " format: a real number is required, not " ++ kind
  | .needsInteger c kind => letterText c ++ " format: an integer is required, not " ++ kind
  | .needsReal kind => "must be real number, not " ++ kind
  | .needsChar => "%c requires int or char"
  | .charRange => "%c arg not in range(0x110000)"
  | .starNeedsInteger => "* wants int"
  | .widthTooBig => "width too big"
  | .placesTooBig => "precision too big"
  | .starTooBig kind => "Python int too large to convert to C " ++ kind
  | .noRoom => ""
  | .notANumber => "cannot convert float NaN to integer"
  | .infinite => "cannot convert float infinity to integer"
  | .tooLarge => "int too large to convert to float"
  | .unwritable => Digits.limitText none

end ArgumentIssue

structure Directive where
  left : Bool := false
  plus : Bool := false
  blank : Bool := false
  alternate : Bool := false
  zeros : Bool := false
  width : Nat := 0
  places : Option Nat := none

namespace Directive

def flag? (d : Directive) (c : Char) : Option Directive :=
  if c = '-' then some { d with left := true }
  else if c = '+' then some { d with plus := true }
  else if c = ' ' then some { d with blank := true }
  else if c = '#' then some { d with alternate := true }
  else if c = '0' then some { d with zeros := true }
  else none

def flags (d : Directive) : List Char → Directive × List Char
  | [] => (d, [])
  | c :: cs =>
    match d.flag? c with
    | some d' => flags d' cs
    | none => (d, c :: cs)

def pad (d : Directive) (cs : List Char) : List Char :=
  if d.left then Digits.padRight ' ' d.width cs else Digits.padLeft ' ' d.width cs

/-- A text argument: its first characters, within the width. -/
def layText (d : Directive) (s : String) : List Char :=
  d.pad (match d.places with
    | some n => s.toList.take n
    | none => s.toList)

def sign (d : Directive) (negative : Bool) : List Char :=
  if negative then ['-'] else if d.plus then ['+'] else if d.blank then [' '] else []

/-- A number: sign, mark of the base, digits. Zeros fill up between the mark and the digits. -/
def layNumber (d : Directive) (negative : Bool) (mark ds : List Char) : List Char :=
  let front := d.sign negative ++ mark
  if d.zeros && !d.left then front ++ Digits.padLeft '0' (d.width - front.length) ds
  else d.pad (front ++ ds)

end Directive

/-- The integer that an argument stands for where digits of any base are wanted. -/
def wholeArgument (letter : Char) (v : Value) : Except ArgumentIssue Int :=
  match v.asInt? with
  | some i => .ok i
  | none => .error (.needsInteger letter v.kindName)

/-- The integer that an argument stands for where decimal digits are wanted. -/
def decimalArgument (letter : Char) : Value → Except ArgumentIssue Int
  | .float .nan => .error .notANumber
  | .float (.infinite _) => .error .infinite
  | .float x => .ok (x.truncate?.getD 0)
  | v =>
    match v.asInt? with
    | some i => .ok i
    | none => .error (.needsNumber letter v.kindName)

/-- The number that an argument stands for where a point is wanted. -/
def realArgument : Value → Except ArgumentIssue Binary64
  | .float x => .ok x
  | v =>
    match v.asInt? with
    | some i =>
      match Binary64.ofInt? i with
      | some x => .ok x
      | none => .error .tooLarge
    | none => .error (.needsReal v.kindName)

def layInt (d : Directive) (base : Nat) (mark : String) (i : Int) : List Char :=
  let ds := Digits.padLeft '0' (d.places.getD 0)
    (Digits.inBase base (Nat.log2 i.natAbs + 1) i.natAbs [])
  d.layNumber (i < 0) (if d.alternate then mark.toList else []) ds

def realDigits (d : Directive) (letter : Char) (m : Nat) (e : Int) : List Char :=
  let (num, den) := Binary64.ratio m e
  let places := d.places.getD 6
  if letter = 'f' then Places.fixed d.alternate num den places
  else if letter = 'e' then Places.scientific d.alternate num den places
  else Places.general d.alternate num den places

def layReal (d : Directive) (letter : Char) : Binary64 → List Char
  | .nan => d.layNumber false [] "nan".toList
  | .infinite negative => d.layNumber negative [] "inf".toList
  | .finite negative m e => d.layNumber negative [] (realDigits d letter m e)

/-- One character, given by itself or by its code point. -/
def charArgument : Value → Except ArgumentIssue Char
  | .str s =>
    match s.toList with
    | [c] => .ok c
    | _ => .error .needsChar
  | v =>
    match v.asInt? with
    | some i =>
      if i < 0 ∨ 0x10FFFF < i then .error .charRange else .ok (Char.ofNat i.toNat)
    | none => .error .needsChar

/-- The text of an argument that has one. -/
def textArgument (text : Value → String) (v : Value) : Except ArgumentIssue String :=
  if v.isShowable then .ok (text v) else .error .unwritable

/-- The integer that an argument stands for, if its decimal digits are written. -/
def writtenArgument (letter : Char) (v : Value) : Except ArgumentIssue Int :=
  match decimalArgument letter v with
  | .ok i => if Digits.isWritable i then .ok i else .error .unwritable
  | .error e => .error e

def asciiText (s : String) : String :=
  String.ofList (s.toList.flatMap fun c => if c.toNat < 128 then [c] else Text.numberEscape c)

def lay (d : Directive) (letter : Char) (index : Nat) (v : Value) :
    Except ArgumentIssue (List Char) :=
  let small := letter.toLower
  if letter = 's' then (textArgument Value.text v).map d.layText
  else if letter = 'r' then (textArgument Value.shown v).map d.layText
  else if letter = 'a' then (textArgument Value.shown v).map fun s => d.layText (asciiText s)
  else if letter = 'c' then
    (charArgument v).map fun c => ({ d with places := none }).layText (String.singleton c)
  else if letter = 'd' ∨ letter = 'i' ∨ letter = 'u' then
    (writtenArgument letter v).map (layInt d 10 "")
  else if letter = 'o' then (wholeArgument letter v).map (layInt d 8 "0o")
  else if letter = 'x' then (wholeArgument letter v).map (layInt d 16 "0x")
  else if letter = 'X' then
    (wholeArgument letter v).map fun i => (layInt d 16 "0X" i).map Char.toUpper
  else if small = 'f' ∨ small = 'e' ∨ small = 'g' then
    (realArgument v).map fun x =>
      let cs := layReal d small x
      if letter.isUpper then cs.map Char.toUpper else cs
  else .error (.unknownLetter letter index)

/-- The arguments that are left, and the mapping that named directives look into. -/
structure Supply where
  left : List Value
  named : Option (List (Value × Value))
  /-- Whether the arguments are one mapping, which need not be used up. -/
  lenient : Bool

namespace Supply

/-- A single mapping that is not empty serves names and, as a whole, one directive. -/
def ofArguments : List Value → Supply
  | [.dict (e :: es)] => ⟨[.dict (e :: es)], some (e :: es), true⟩
  | vs => ⟨vs, none, false⟩

def next (s : Supply) : Except ArgumentIssue (Value × Supply) :=
  match s.left with
  | [] => .error .tooFew
  | v :: vs => .ok (v, { s with left := vs })

end Supply

def lookUp (name : String) : List (Value × Value) → Option Value
  | [] => none
  | (k, v) :: es => if k.sameKey (.str name) then some v else lookUp name es

def readName : Nat → List Char → Option (List Char × List Char)
  | _, [] => none
  | depth, c :: cs =>
    if c = ')' then
      if depth = 0 then some ([], cs)
      else (readName (depth - 1) cs).map fun (n, rest) => (c :: n, rest)
    else (readName (if c = '(' then depth + 1 else depth) cs).map fun (n, rest) => (c :: n, rest)

/-- The argument of a directive with a name, if it has one. -/
def readNamed (s : Supply) (cs : List Char) :
    Except ArgumentIssue (Supply × List Char) :=
  match cs with
  | '(' :: rest =>
    match s.named with
    | none => .error .needsMapping
    | some es =>
      match readName 0 rest with
      | none => .error .unclosedKey
      | some (name, rest') =>
        match lookUp (String.ofList name) es with
        | none => .error (.noKey (String.ofList name))
        | some v => .ok ({ s with left := [v] }, rest')
  | _ => .ok (s, cs)

/-- A number of a directive: digits, or a star for an argument. -/
inductive Count where
  | absent
  | digits (n : Nat)
  | star (i : Int)

def readCount (s : Supply) (cs : List Char) :
    Except ArgumentIssue (Count × Supply × List Char) :=
  match cs with
  | '*' :: rest =>
    match s.next with
    | .error e => .error e
    | .ok (v, s') =>
      match v.asInt? with
      | some i => .ok (.star i, s', rest)
      | none => .error .starNeedsInteger
  | _ =>
    match cs.takeWhile Char.isDigit with
    | [] => .ok (.absent, s, cs)
    | ds => .ok (.digits (Digits.value 10 ds), s, cs.dropWhile Char.isDigit)

/-- Greatest counts of width and of digits, and the greatest width that there is room for. -/
def widthLimit : Nat := 9223372036854775807
def placesLimit : Nat := 2147483647
def roomLimit : Nat := 4294967296

/-- A negative width means that the text stands on the left. -/
def Directive.withWidth (d : Directive) : Count → Except ArgumentIssue Directive
  | .absent => .ok d
  | .digits n =>
    if widthLimit < n then .error .widthTooBig
    else .ok { d with width := n }
  | .star i =>
    if (widthLimit : Int) < i ∨ i < -(widthLimit : Int) - 1 then .error (.starTooBig "ssize_t")
    else .ok { d with left := d.left || i < 0, width := i.natAbs }

/-- A negative count of digits counts as none. -/
def Directive.withPlaces (d : Directive) : Count → Except ArgumentIssue Directive
  | .absent => .ok { d with places := some 0 }
  | .digits n => if placesLimit < n then .error .placesTooBig else .ok { d with places := some n }
  | .star i =>
    if (placesLimit : Int) < i ∨ i < -(placesLimit : Int) - 1 then .error (.starTooBig "int")
    else .ok { d with places := some i.toNat }

def readPlaces (d : Directive) (s : Supply) (cs : List Char) :
    Except ArgumentIssue (Directive × Supply × List Char) :=
  match cs with
  | '.' :: rest =>
    match readCount s rest with
    | .error e => .error e
    | .ok (count, s', rest') => (d.withPlaces count).map fun d' => (d', s', rest')
  | _ => .ok (d, s, cs)

/-- A size mark in front of the letter says nothing. -/
def skipSize : List Char → List Char
  | c :: rest => if c = 'l' ∨ c = 'h' ∨ c = 'L' then rest else c :: rest
  | [] => []

/-- One argument as `lay` writes it, if there is room for it. -/
def layRoomy (d : Directive) (letter : Char) (index : Nat) (v : Value) :
    Except ArgumentIssue (List Char) :=
  if d.width ≤ roomLimit then lay d letter index v
  else
    match lay { d with width := 0 } letter index v with
    | .ok _ => .error .noRoom
    | .error e => .error e

/-- The argument at the letter of a directive; `size` is the length of the message. -/
def readLetter (size : Nat) (d : Directive) (s : Supply) (cs : List Char) :
    Except ArgumentIssue (List Char × Supply × List Char) :=
  match skipSize cs with
  | [] => .error .incomplete
  | letter :: rest =>
    match s.next with
    | .error e => .error e
    | .ok (v, s') => (layRoomy d letter (size - rest.length - 1) v).map fun text => (text, s', rest)

def readDirective (size : Nat) (s : Supply) (cs : List Char) :
    Except ArgumentIssue (List Char × Supply × List Char) :=
  match readNamed s cs with
  | .error e => .error e
  | .ok (s, cs) =>
    let (d, cs) := ({} : Directive).flags cs
    match readCount s cs with
    | .error e => .error e
    | .ok (width, s, cs) =>
      match d.withWidth width with
      | .error e => .error e
      | .ok d =>
        match readPlaces d s cs with
        | .error e => .error e
        | .ok (d, s, cs) => readLetter size d s cs

/-- The rest of a message with the arguments that are left; `fuel` bounds the steps. -/
def fillChars (size : Nat) : Nat → Supply → List Char → Except ArgumentIssue (List Char)
  | 0, _, _ => .ok []
  | fuel + 1, s, cs =>
    match cs with
    | [] => if s.left.isEmpty || s.lenient then .ok [] else .error .tooMany
    | '%' :: '%' :: rest =>
      match fillChars size fuel s rest with
      | .ok more => .ok ('%' :: more)
      | .error e => .error e
    | '%' :: rest =>
      match readDirective size s rest with
      | .error e => .error e
      | .ok (text, s', rest') =>
        match fillChars size fuel s' rest' with
        | .ok more => .ok (text ++ more)
        | .error e => .error e
    | c :: rest =>
      match fillChars size fuel s rest with
      | .ok more => .ok (c :: more)
      | .error e => .error e

/-- A message with its arguments. Without arguments the message stands for itself. -/
def fill (message : String) (arguments : List Value) : Except ArgumentIssue String :=
  if arguments.isEmpty then .ok message
  else
    let cs := message.toList
    match fillChars cs.length (cs.length + 1) (Supply.ofArguments arguments) cs with
    | .ok out => .ok (String.ofList out)
    | .error e => .error e

end ScriptLint.Log
