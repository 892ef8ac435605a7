import ScriptLint.Engine.Program
import ScriptLint.Value

/-!
# ScriptLint.Engine.Glue

The code that hands options and text to a script. Names occur in it only as literals in printable
ASCII, and values are read through accessors, so no caller's text becomes code.

* `inputBinding`, `bindingOf`, `optionBinding`: names of the accessors
* `accessors`: the code that makes accessors of stored values
* `glue`: the code that calls the engine and returns what it left
* `Globals`: what the names stand for, with `store`, `wrap` and `call`
* `optionTexts`: the texts of the options
* `handOver`: the options that the code builds, and the text that it passes on
-/

namespace ScriptLint.Engine

def inputBinding : String := "jslintrInput"

def optionPrefixText : String := "jslintrOption_"

/-- A code point. Halves of surrogate pairs are code points, though they are no characters. -/
abbrev CodePoint := Fin 0x110000

theorem codePoint_bound (c : Char) : c.toNat < 0x110000 := by
  obtain h | ⟨_, h⟩ : c.toNat < 0xD800 ∨ 0xDFFF < c.toNat ∧ c.toNat < 0x110000 := c.valid
  · omega
  · exact h

def codePoints (s : String) : List CodePoint :=
  s.toList.map fun c => ⟨c.toNat, codePoint_bound c⟩

/-- Characters that stand for themselves in the name of an accessor. -/
def isPlainNameChar (c : Char) : Bool := c.isAlphanum || c == '_'

/-- Any other code point becomes a dollar sign and six digits. -/
def bindingPoint (p : CodePoint) : List Char :=
  if isPlainNameChar (Char.ofNat p) then [Char.ofNat p] else '$' :: Digits.hex 6 p

/-- The name of the accessor for an option whose name has the given code points. -/
def bindingOf (name : List CodePoint) : String :=
  optionPrefixText ++ String.ofList (name.flatMap bindingPoint)

def optionBinding (name : String) : String := bindingOf (codePoints name)

/-- The line that makes an accessor of the value stored under a name, given by its literal. -/
def accessorLine (l : String) : String := "  global[" ++ l ++ "] = accessor(global[" ++ l ++ "]);"

/-- Lines of the code that makes an accessor of each stored value. -/
def accessorLines (names : List String) : List String :=
  ["(function (global) \x7b",
    "  function accessor(value) \x7b return function () \x7b return value; \x7d; \x7d"]
    ++ names.map (fun n => accessorLine (Json.literal n)) ++ ["\x7d(globalThis));"]

def accessors (names : List String) : String := String.intercalate "\n" (accessorLines names)

/-- The line that reads one option, its name given by its literal, through its accessor. -/
def optionLine (l binding : String) : String :=
  "  options[" ++ l ++ "] = JSON.parse(" ++ binding ++ "());"

/-- Lines of the code that calls an engine with options, given with their accessors. -/
def glueLines (entryPoint : String) (bindings : List (String × String)) : List String :=
  ["(function () \x7b", "  var options = \x7b\x7d;"]
    ++ bindings.map (fun (name, binding) => optionLine (Json.literal name) binding)
    ++ ["  " ++ entryPoint ++ "(" ++ inputBinding ++ "(), options);",
      "  return JSON.stringify(" ++ entryPoint ++ ".errors || []);", "\x7d());"]

def glue (entryPoint : String) (bindings : List (String × String)) : String :=
  String.intercalate "\n" (glueLines entryPoint bindings)

def optionBindings (names : List String) : List (String × String) :=
  Mapping.ofPairs (names.map fun n => (n, optionBinding n))

/-- What a name stands for in the interpreter: a stored text, or a function that returns what was
stored. -/
inductive Global where
  | text (s : String)
  | accessor (value : Global)

abbrev Globals := Mapping Global

/-- The name that a literal spells. -/
def literalName (l : String) : Except String String :=
  match l.toList with
  | '"' :: cs =>
    match Json.readString cs with
    | .ok (s, []) => .ok s
    | _ => .error "SyntaxError: unexpected string"
  | _ => .error "SyntaxError: string expected"

namespace Globals

/-- Stores a text under a name. The interpreter sees texts only up to their first NUL. -/
def store (g : Globals) (name text : String) : Globals :=
  Mapping.put name (.text (String.ofList (Text.untilNul text.toList))) g

/-- What `accessorLine` does: the value under the name becomes a function that returns it. -/
def wrap (g : Globals) (l : String) : Except String Globals :=
  match literalName l with
  | .error detail => .error detail
  | .ok name =>
    match Mapping.get? name g with
    | some value => .ok (Mapping.put name (.accessor value) g)
    | none => .error ("ReferenceError: '" ++ name ++ "' is not defined")

/-- Wraps the values under several names, given by their literals. -/
def wrapAll (g : Globals) : List String → Except String Globals
  | [] => .ok g
  | l :: ls =>
    match g.wrap l with
    | .ok g' => wrapAll g' ls
    | .error detail => .error detail

/-- The text that the function under a name returns. A function is no text. -/
def call (g : Globals) (name : String) : Except String String :=
  match Mapping.get? name g with
  | some (.accessor (.text s)) => .ok s
  | some (.accessor _) => .error "SyntaxError: unexpected token: 'function'"
  | some (.text _) => .error "TypeError: not a function"
  | none => .error ("ReferenceError: '" ++ name ++ "' is not defined")

/-- The text under check and the texts of the options, each under its accessor's name. -/
def ofInput (texts : List (String × String)) (text : String) : Globals :=
  texts.foldl (fun g (name, t) => store g (optionBinding name) t) (store [] inputBinding text)

end Globals

/-- What `optionLine` does: the option takes the value read from the text behind its accessor. -/
def assignOption (g : Globals) (o : Options) (l binding : String) : Except String Options :=
  match g.call binding with
  | .error detail => .error detail
  | .ok text =>
    match Datum.parse text with
    | .error detail => .error detail
    | .ok d =>
      match literalName l with
      | .ok name => .ok (o.assign name d)
      | .error detail => .error detail

/-- The options that the lines of the glue build, one after the other. -/
def assignOptions (g : Globals) : Options → List (String × String) → Except String Options
  | o, [] => .ok o
  | o, (name, binding) :: rest =>
    match assignOption g o (Json.literal name) binding with
    | .ok o' => assignOptions g o' rest
    | .error detail => .error detail

/-- The options with their texts, in order. -/
def optionTexts : List (String × Value) → Except Fault (List (String × String))
  | [] => .ok []
  | (name, v) :: rest =>
    match v.encode with
    | .error f => .error f
    | .ok text =>
      match optionTexts rest with
      | .ok texts => .ok ((name, text) :: texts)
      | .error f => .error f

/-- What keeps a script from its options and its text. -/
inductive Obstacle where
  /-- There is no text for an option. -/
  | fault (f : Fault)
  /-- The interpreter throws. -/
  | thrown (detail : String)

def handOver (options : List (String × Value)) (text : String) :
    Except Obstacle (Options × List Char) :=
  match optionTexts options with
  | .error f => .error (.fault f)
  | .ok texts =>
    let bindings := optionBindings (options.map Prod.fst)
    match (Globals.ofInput texts text).wrapAll
        ((inputBinding :: bindings.map Prod.snd).map Json.literal) with
    | .error detail => .error (.thrown detail)
    | .ok g =>
      match assignOptions g .empty bindings with
      | .error detail => .error (.thrown detail)
      | .ok o =>
        match g.call inputBinding with
        | .ok source => .ok (o, source.toList)
        | .error detail => .error (.thrown detail)

end ScriptLint.Engine
