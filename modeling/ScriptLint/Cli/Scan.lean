import ScriptLint.Cli.Grammar
import ScriptLint.Text.Printable

/-!
# ScriptLint.Cli.Scan

Sorting the words of a command line into flags, their values and operands. Long flags may be
shortened as long as only one flag is meant; the value of a short flag may follow it at once; after
two hyphens every word is an operand.

* `Word`: a word and what it looks like
* `Grammar.classify`: what every word looks like
* `Grammar.scan`: what the words say
* `Stop`: why there is nothing to do
-/

namespace ScriptLint.Cli

/-- Why a command line is not carried out. -/
inductive Stop where
  | help (g : Grammar)
  | misuse (g : Grammar) (message : String)

/-- A flag as it is spelled, with the value that is part of the word. `equals` tells that the two
are set off by an equals sign. -/
structure FlagUse where
  flag : Flag
  equals : Bool
  value : Option String

inductive Look where
  | hyphens
  | operand
  | flag (u : FlagUse)
  /-- Something like a flag that the grammar does not have. -/
  | stranger

structure Word where
  text : String
  look : Look

def Word.isFlagLike (w : Word) : Bool :=
  match w.look with
  | .flag _ => true
  | .stranger => true
  | _ => false

/-- What stands before the first equals sign and, if there is one, what stands after it. -/
def splitEquals : List Char → List Char × Option (List Char)
  | [] => ([], none)
  | c :: cs =>
    if c = '=' then ([], some cs)
    else
      let (before, after) := splitEquals cs
      (c :: before, after)

def isDecimalDigit (c : Char) : Bool := (Text.decimalDigit? c).isSome

/-- A hyphen and a decimal number. -/
def looksNegative (cs : List Char) : Bool :=
  match cs with
  | '-' :: rest =>
    let body := if rest.getLast? = some '\n' then rest.dropLast else rest
    let whole := body.takeWhile isDecimalDigit
    match body.dropWhile isDecimalDigit with
    | [] => !whole.isEmpty
    | '.' :: places => !places.isEmpty && places.all isDecimalDigit
    | _ => false
  | _ => false

namespace Grammar

def misuse {α : Type} (g : Grammar) (message : String) : Except Stop α := .error (.misuse g message)

def misuseOf {α : Type} (g : Grammar) (title message : String) : Except Stop α :=
  g.misuse ("argument " ++ title ++ ": " ++ message)

/-- The flags that a shortened or joined word may mean, each with its spelling. -/
def candidates (g : Grammar) (cs : List Char) : List (String × FlagUse) :=
  match cs with
  | '-' :: '-' :: _ =>
    let (start, value) := splitEquals cs
    (g.spellings.filter fun s => start.isPrefixOf s.1.toList).map fun (n, f) =>
      (n, ⟨f, value.isSome, value.map String.ofList⟩)
  | _ =>
    g.spellings.filterMap fun (n, f) =>
      if n.toList = cs.take 2 then some (n, ⟨f, false, some (String.ofList (cs.drop 2))⟩)
      else if cs.isPrefixOf n.toList then some (n, ⟨f, false, none⟩)
      else none

/-- What a word looks like that starts with a hyphen and is no flag as it stands. -/
def classifyOther (g : Grammar) (word : String) : Except Stop Look :=
  let cs := word.toList
  match g.candidates cs with
  | [(_, u)] => .ok (.flag u)
  | [] => .ok (if looksNegative cs || cs.contains ' ' then .operand else .stranger)
  | several =>
    g.misuse ("ambiguous option: " ++ word ++ " could match "
      ++ String.intercalate ", " (several.map Prod.fst))

def classifyWord (g : Grammar) (word : String) : Except Stop Look :=
  match word.toList with
  | [] => .ok .operand
  | ['-'] => .ok .operand
  | c :: cs =>
    if c = '-' then
      match g.flag? word, splitEquals (c :: cs) with
      | some f, _ => .ok (.flag ⟨f, false, none⟩)
      | none, (name, some value) =>
        match g.flag? (String.ofList name) with
        | some f => .ok (.flag ⟨f, true, some (String.ofList value)⟩)
        | none => g.classifyOther word
      | none, (_, none) => g.classifyOther word
    else .ok .operand

def classify (g : Grammar) : List String → Except Stop (List Word)
  | [] => .ok []
  | w :: ws =>
    if w = "--" then .ok (⟨w, .hyphens⟩ :: ws.map fun v => ⟨v, .operand⟩)
    else
      match g.classifyWord w with
      | .error e => .error e
      | .ok look =>
        match classify g ws with
        | .error e => .error e
        | .ok rest => .ok (⟨w, look⟩ :: rest)

end Grammar

structure Scanned where
  /-- Values of flags in the order in which they came. -/
  values : List (String × String)
  version : Bool
  /-- The operands, once they were met. -/
  operands : Option (List String)
  extras : List String

namespace Scanned

def empty : Scanned := ⟨[], false, none, []⟩

def strange (s : Scanned) (words : List String) : Scanned := { s with extras := s.extras ++ words }

/-- The value that was given last for a flag. -/
def last? (s : Scanned) (f : Flag) : Option String :=
  ((s.values.filter fun v => v.1 == f.title).getLast?).map Prod.snd

def all (s : Scanned) (f : Flag) : List String :=
  (s.values.filter fun v => v.1 == f.title).map Prod.snd

end Scanned

namespace Grammar

def choiceText (value : String) (choices : List String) : String :=
  "invalid choice: " ++ Text.quoted value ++ " (choose from "
    ++ String.intercalate ", " (choices.map Text.quoted) ++ ")"

def apply (g : Grammar) (s : Scanned) (f : Flag) (value : String) : Except Stop Scanned :=
  match f.kind with
  | .help => .error (.help g)
  | .version => .ok { s with version := true }
  | .value choices =>
    if choices.isEmpty || choices.contains value then
      .ok { s with values := s.values ++ [(f.title, value)] }
    else g.misuseOf f.title (choiceText value choices)

def applyAll (g : Grammar) (s : Scanned) : List (Flag × String) → Except Stop Scanned
  | [] => .ok s
  | (f, v) :: rest =>
    match g.apply s f v with
    | .error e => .error e
    | .ok s' => applyAll g s' rest

def takesValue (f : Flag) : Bool :=
  match f.kind with
  | .value _ => true
  | _ => false

/-- A flag without a value in its word, with the words after it. -/
def takeFollowing (g : Grammar) (f : Flag) (rest : List Word) :
    Except Stop (List (Flag × String) × List Word) :=
  if takesValue f then
    match rest with
    | ⟨text, .operand⟩ :: rest' => .ok ([(f, text)], rest')
    | _ => g.misuseOf f.title "expected one argument"
  else .ok ([(f, "")], rest)

/-- The flags of a word in which short flags without values are joined. `letters` is what follows
the flag `f`; the result also has the words after it and what belongs to nothing. -/
def takeJoined (g : Grammar) (f : Flag) (equals : Bool) (rest : List Word) :
    List Char → Except Stop (List (Flag × String) × List String × List Word)
  | [] => g.misuseOf f.title ("ignored explicit argument " ++ Text.quoted "")
  | c :: cs =>
    if takesValue f then .ok ([(f, String.ofList (c :: cs))], [], rest)
    else if equals ∨ c = '-' then
      g.misuseOf f.title ("ignored explicit argument " ++ Text.quoted (String.ofList (c :: cs)))
    else
      match g.flag? (String.ofList ['-', c]) with
      | none => .ok ([(f, "")], ["-" ++ String.ofList (c :: cs)], rest)
      | some next =>
        match cs with
        | [] =>
          match g.takeFollowing next rest with
          | .ok (taken, rest') => .ok ((f, "") :: taken, [], rest')
          | .error e => .error e
        | '=' :: value =>
          if takesValue next then .ok ([(f, ""), (next, String.ofList value)], [], rest)
          else g.misuseOf next.title ("ignored explicit argument " ++ Text.quoted (String.ofList value))
        | _ =>
          match takeJoined g next false rest cs with
          | .ok (taken, extras, rest') => .ok ((f, "") :: taken, extras, rest')
          | .error e => .error e

/-- A flag with its value, and the words after them. -/
def takeFlag (g : Grammar) (word : String) (u : FlagUse) (rest : List Word) :
    Except Stop (List (Flag × String) × List String × List Word) :=
  match u.value with
  | none =>
    match g.takeFollowing u.flag rest with
    | .ok (taken, rest') => .ok (taken, [], rest')
    | .error e => .error e
  | some value =>
    if takesValue u.flag then .ok ([(u.flag, value)], [], rest)
    else if (word.toList.drop 1).head? = some '-' then
      g.misuseOf u.flag.title ("ignored explicit argument " ++ Text.quoted value)
    else g.takeJoined u.flag u.equals rest value.toList

/-- The operands at the start of the words, if the grammar still waits for them and there are any,
and the words after them. -/
def takeOperands (g : Grammar) (s : Scanned) (words : List Word) : Option (List String × List Word) :=
  let run := words.takeWhile fun w => !w.isFlagLike
  let hasText := run.any fun w => match w.look with
    | .operand => true
    | _ => false
  if s.operands.isSome || !hasText then none
  else
    match g.operand with
    | .nothing => none
    | .texts _ => some ((run.map Word.text).erase "--", words.drop run.length)
    | .command .. => some (words.map Word.text, [])

/-- Operands are checked as soon as they are met: a command must be known. -/
def checkOperands (g : Grammar) (operands : List String) : Except Stop Unit :=
  match g.operand with
  | .command name choices _ =>
    let first := operands.headD ""
    if choices.contains first then .ok () else g.misuseOf name (choiceText first choices)
  | _ => .ok ()

/-- The words from the first flag on, after operands were looked for in front of it. -/
def scanFlag (g : Grammar) (s : Scanned) (words : List Word) :
    Except Stop (Scanned × List Word) :=
  let s := s.strange ((words.takeWhile fun w => !w.isFlagLike).map Word.text)
  match words.dropWhile fun w => !w.isFlagLike with
  | [] => .ok (s, [])
  | w :: rest =>
    match w.look with
    | .flag u =>
      match g.takeFlag w.text u rest with
      | .error e => .error e
      | .ok (taken, extras, rest') =>
        match g.applyAll (s.strange extras) taken with
        | .ok s' => .ok (s', rest')
        | .error e => .error e
    | _ => .ok (s.strange [w.text], rest)

/-- One step: operands if words that are no flags come first, else a flag. -/
def scanStep (g : Grammar) (s : Scanned) (words : List Word) : Except Stop (Scanned × List Word) :=
  match g.takeOperands s words with
  | some (operands, rest) =>
    match g.checkOperands operands with
    | .ok () => .ok ({ s with operands := some operands }, rest)
    | .error e => .error e
  | none => g.scanFlag s words

/-- The words that are left; `fuel` bounds the steps. -/
def scanWords (g : Grammar) : Nat → Scanned → List Word → Except Stop Scanned
  | 0, s, _ => .ok s
  | fuel + 1, s, words =>
    if words.isEmpty then .ok s
    else
      match g.scanStep s words with
      | .ok (s', rest) => scanWords g fuel s' rest
      | .error e => .error e

/-- An operand that must be there. -/
def missing? (g : Grammar) (s : Scanned) : Option String :=
  match g.operand, s.operands with
  | .texts name, none => some name
  | .command name _ true, none => some name
  | _, _ => none

def scan (g : Grammar) (args : List String) : Except Stop Scanned :=
  match g.classify args with
  | .error e => .error e
  | .ok words =>
    match g.scanWords (words.length + 1) Scanned.empty words with
    | .error e => .error e
    | .ok s =>
      match g.missing? s with
      | some name => g.misuse ("the following arguments are required: " ++ name)
      | none => .ok s

end Grammar

end ScriptLint.Cli
