import ScriptLint.Text.Units
import ScriptLint.Text.Blank

/-!
# ScriptLint.Analysis.Pattern

The patterns the rules look for in a masked line. A matcher looks at one position, given the
character before it; `search` finds the leftmost position it accepts and counts the column.

* `search`: leftmost match
* `looseEquality`, `looseEither`, `evalCall`, `increment`, `word`, `danglingName`, … : the matchers
-/

namespace ScriptLint.Analysis

open ScriptLint.Text

def isWordChar (c : Char) : Bool := c.isAlphanum || c == '_'

def isNameChar (c : Char) : Bool := isWordChar c || c == '$'

def isNameStart (c : Char) : Bool := c.isAlpha || c == '_' || c == '$'

/-- Characters that a pattern's wildcard does not cross. -/
def isLineBreak (c : Char) : Bool := c == '\n' || c == '\r' || c == '\u2028' || c == '\u2029'

def endsWord (prev : Option Char) : Bool := prev.any isWordChar

/-- A word boundary lies between `prev` and `rest`. -/
def atBoundary (prev : Option Char) (rest : List Char) : Bool :=
  endsWord prev != endsWord rest.head?

/-- What follows `w` at the start of a text. -/
def after? : List Char → List Char → Option (List Char)
  | [], cs => some cs
  | _ :: _, [] => none
  | w :: ws, c :: cs => if w = c then after? ws cs else none

/-- What follows the keyword `w`, which starts at a word boundary. -/
def keyword? (w : String) (prev : Option Char) (cs : List Char) : Option (List Char) :=
  if endsWord prev then none else after? w.toList cs

abbrev Matcher (α : Type) := Option Char → List Char → Option α

/-- The leftmost position that `p` accepts, with its column. -/
def search {α : Type} (p : Matcher α) : Option Char → Nat → List Char → Option (Nat × α)
  | prev, col, [] => (p prev []).map (col, ·)
  | prev, col, c :: cs =>
    match p prev (c :: cs) with
    | some a => some (col, a)
    | none => search p (some c) (col + units c) cs

def find {α : Type} (p : Matcher α) (code : List Char) : Option (Nat × α) := search p none 0 code

/-- `==` or `!=` between two characters, of which the first is neither `=` nor `!` and the second
not `=`. -/
def looseEquality : Matcher (List Char)
  | some b, o :: '=' :: c :: _ =>
    if (b = '=' ∨ b = '!') ∨ ¬(o = '=' ∨ o = '!') ∨ c = '=' then none else some [o, '=']
  | _, _ => none

/-- The one of the two that starts with `sign`, between such characters. -/
def looseSign (sign : Char) : Matcher (List Char)
  | some b, o :: '=' :: c :: _ =>
    if b ≠ '=' ∧ b ≠ '!' ∧ o = sign ∧ c ≠ '=' then some [o, '='] else none
  | _, _ => none

/-- One or the other, each by a pattern of its own. -/
def looseEither : Matcher (List Char) := fun prev cs =>
  (looseSign '=' prev cs).or (looseSign '!' prev cs)

def evalCall : Matcher Unit := fun prev cs =>
  match keyword? "eval" prev cs with
  | none => none
  | some rest => if (rest.dropWhile isBlank).head? = some '(' then some () else none

def increment : Matcher (List Char)
  | _, '+' :: '+' :: _ => some ['+', '+']
  | _, '-' :: '-' :: _ => some ['-', '-']
  | _, _ => none

def word (w : String) : Matcher String := fun prev cs =>
  match keyword? w prev cs with
  | none => none
  | some rest => if endsWord rest.head? then none else some w

def eitherWord (v w : String) : Matcher String := fun prev cs =>
  (word v prev cs).or (word w prev cs)

/-- The longest continuation of a name that ends in an underscore after a letter, digit or `$`,
where a word boundary follows; `prev` is the character before it. -/
def danglingTail : Char → List Char → Option (List Char)
  | _, [] => none
  | prev, c :: cs =>
    if isNameChar c then
      match danglingTail c cs with
      | some tail => some (c :: tail)
      | none =>
        if c = '_' ∧ prev ≠ '_' ∧ isNameChar prev ∧ !endsWord cs.head? then some [c] else none
    else none

/-- A name that starts at a word boundary and starts or ends with an underscore. -/
def danglingName : Matcher (List Char)
  | _, [] => none
  | prev, c :: cs =>
    if atBoundary prev (c :: cs) then
      if c = '_' then some (c :: cs.takeWhile isNameChar)
      else if isNameChar c then (danglingTail c cs).map (c :: ·) else none
    else none

def argumentsCaller : Matcher Unit := fun prev cs =>
  match keyword? "arguments" prev cs with
  | some ('.' :: rest) =>
    match eitherWord "callee" "caller" (some '.') rest with
    | some _ => some ()
    | none => none
  | _ => none

/-- A line that starts with `new` and a name. -/
def constructsOnly (code : List Char) : Bool :=
  match after? "new".toList (code.dropWhile isBlank) with
  | some (c :: cs) => isBlank c && (cs.dropWhile isBlank).head?.any isNameChar
  | _ => false

/-- What follows the parenthesis after one of the keywords `ws`. -/
def headOf (ws : List String) (prev : Option Char) (cs : List Char) : Option (List Char) :=
  match ws.findSome? (keyword? · prev cs) with
  | none => none
  | some rest =>
    match rest.dropWhile isBlank with
    | '(' :: body => some body
    | _ => none

/-- Characters that cannot stand before the assignment sign of a condition. -/
def isComparison (c : Char) : Bool := c == '=' || c == '!' || c == '<' || c == '>'

/-- A condition whose first comparison character is a lone `=` after something, where a closing
parenthesis follows the character after it. -/
def assigns (body : List Char) : Bool :=
  match body.takeWhile (!isComparison ·), body.dropWhile (!isComparison ·) with
  | _ :: _, '=' :: c :: rest => c != '=' && rest.contains ')'
  | _, _ => false

/-- An assignment in the condition of `if` or `while`. -/
def assignsInCondition : Matcher Unit := fun prev cs =>
  match headOf ["if", "while"] prev cs with
  | some body => if assigns body then some () else none
  | none => none

/-- The name after the last closing parenthesis that a name follows. -/
def bareBody : List Char → Option (List Char)
  | [] => none
  | c :: cs =>
    if isLineBreak c then none
    else
      match bareBody cs with
      | some name => some name
      | none =>
        if c = ')' ∧ (cs.dropWhile isBlank).head?.any isNameStart then
          some ((cs.dropWhile isBlank).takeWhile isNameChar)
        else none

/-- A statement head whose body is not a block: the name the body starts with. -/
def bodyWithoutBlock : Matcher (List Char) := fun prev cs =>
  match headOf ["if", "while", "for"] prev cs with
  | some body => bareBody body
  | none => none

def emptyBlock : Matcher Unit
  | _, '{' :: cs => if (cs.dropWhile isBlank).head? = some '}' then some () else none
  | _, _ => none

def lastColumn (w : List Char) : Nat → List Char → Option Nat
  | col, [] => if w = [] then some col else none
  | col, c :: cs =>
    match lastColumn w (col + units c) cs with
    | some k => some k
    | none => if w.isPrefixOf (c :: cs) then some col else none

def endsInSpace (line : List Char) : Bool :=
  match line.getLast? with
  | some c => c == ' ' || c == '\t'
  | none => false

/-- Characters after which a line needs no semicolon. -/
def closesStatement (c : Char) : Bool := ";{},([:".toList.contains c

/-- Characters with which a line needs no semicolon. -/
def opensClosing (c : Char) : Bool := "\x7d)]".toList.contains c

/-- A statement that ends at the end of the line without semicolon. -/
def lacksSemicolon (code : List Char) : Bool :=
  !code.getLast?.any closesStatement && !(code.dropWhile isBlank).head?.any opensClosing

def contains (w : List Char) : List Char → Bool
  | [] => w == []
  | c :: cs => w.isPrefixOf (c :: cs) || contains w cs

/-- The text holds the strict mode directive in either kind of quotes. -/
def declaresStrict (source : List Char) : Bool :=
  contains "'use strict'".toList source || contains "\"use strict\"".toList source

end ScriptLint.Analysis
