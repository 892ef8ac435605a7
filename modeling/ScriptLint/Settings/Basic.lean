import ScriptLint.Fault
import ScriptLint.Mapping

/-!
# ScriptLint.Settings.Basic

Settings of a checker that are no options: which engine, where its script lies, its limits, and what
happens to malformed records. Values are checked and converted field by field; every problem is
reported.

* `Settings`: the settings
* `integerOf`, `pathOf`, `policyOf`, …: conversion of one value
* `Settings.read`: settings from named values
* `Configuration.read`: settings and options from the table of a configuration file
* `Configuration.toSettings`: the settings of a checker that has the configuration
-/

namespace ScriptLint

structure Settings where
  engine : String
  engineDir : Option Path
  timeLimit : Option Int
  memoryLimit : Option Int
  maxStackSize : Option Int
  policy : Policy

namespace Settings

def standardTimeLimit : Int := 10
def standardMemoryLimit : Int := 268435456

def standard : Settings :=
  ⟨Variant.standard.text, none, some standardTimeLimit, some standardMemoryLimit, none, .skip⟩

/-- Leading zeros carry no meaning, and neither does an underscore among them. Digits may follow
them with a sign of their own; a text of zeros keeps its last character, and so does a whole part. -/
def dropZeros (last : Char) : List Char → Option (List Char)
  | [] => some [last]
  | c :: cs =>
    if c = '0' ∨ c = '_' then dropZeros c cs
    else if c.isDigit ∨ c = '-' then some (c :: cs)
    else if c = '.' then some (last :: '.' :: cs)
    else none

/-- A text without leading zeros; it must start with a digit. -/
def withoutZeros : List Char → Option (List Char)
  | [] => none
  | c :: cs => if c = '0' then dropZeros '0' cs else if c.isDigit then some (c :: cs) else none

/-- A fraction of zeros is dropped. -/
def withoutFraction (cs : List Char) : List Char :=
  match cs.dropWhile (· != '.') with
  | '.' :: d :: ds => if (d :: ds).all (· == '0') then cs.takeWhile (· != '.') else cs
  | _ => cs

/-- Single underscores inside are dropped. -/
def withoutUnderscores (cs : List Char) : List Char :=
  let rec doubled : List Char → Bool
    | '_' :: '_' :: _ => true
    | _ :: cs => doubled cs
    | [] => false
  if cs.head? = some '_' ∨ cs.getLast? = some '_' ∨ doubled cs then cs else cs.filter (· != '_')

/-- Digits that the plain spelling of an integer may have. -/
def spellingLimit : Nat := 4300

/-- Digits without a needless zero before them. -/
def plainDigits? : List Char → Option Nat
  | [] => none
  | d :: ds =>
    if (d = '0' ∧ ds ≠ []) ∨ !(d :: ds).all Char.isDigit ∨ spellingLimit < (d :: ds).length then none
    else some (Digits.value 10 (d :: ds))

/-- The plain spelling of an integer: digits with a minus sign before them or none. -/
def plainInteger? : List Char → Option Int
  | '-' :: ds => (plainDigits? ds).map fun n => -(n : Int)
  | ds => (plainDigits? ds).map fun n => (n : Int)

/-- How many digits the plain spelling has that a text starts with. -/
def plainLength (cs : List Char) : Nat :=
  let ds := match cs with
    | '-' :: ds => ds
    | ds => ds
  if ds.head? = some '0' then 1 else (ds.takeWhile Char.isDigit).length

/-- The magnitude that is spelled after a sign, in its plain spelling. -/
def magnitude? (cs : List Char) : Option (List Char) :=
  (withoutZeros cs).map fun ds => withoutUnderscores (withoutFraction ds)

/-- The integer that a text spells. -/
def spelledInteger? (s : String) : Option Int :=
  match Text.trim Text.isWhite s.toList with
  | '-' :: cs => (magnitude? cs).bind fun ds => plainInteger? ('-' :: ds)
  | '+' :: cs => (magnitude? cs).bind plainInteger?
  | cs => (magnitude? cs).bind plainInteger?

/-- Binary numbers are taken as integers only below 63 bits. -/
def wholeLimit : Nat := 9223372036854775808

def ofWhole (i : Int) : Except Mistake Int :=
  if i.natAbs < wholeLimit then .ok i else .error .integerTooLong

def integerOf : Value → Except Mistake Int
  | .int i => .ok i
  | .bool b => .ok (if b then 1 else 0)
  | .float x =>
    if x.isFinite then
      match x.toInt? with
      | some i => ofWhole i
      | none => .error .hasFraction
    else .error .notFinite
  | v =>
    match v.asText? with
    | some s =>
      if spellingLimit < plainLength s.toList then .error .integerTooLong
      else
        match spelledInteger? s with
        | some i => .ok i
        | none => .error .notIntegerText
    | none => .error .notInteger

/-- A limit: no limit at all, or a positive integer. -/
def limitOf (field : String) : Value → Except Mistake (Option Int)
  | .null => .ok none
  | v =>
    match integerOf v with
    | .ok i => if 0 < i then .ok (some i) else .error (.notPositive field)
    | .error m => .error m

def textOf (v : Value) : Except Mistake String :=
  match v.asText? with
  | some s => .ok s
  | none => .error .notText

def pathOf : Value → Except Mistake (Option Path)
  | .null => .ok none
  | .path p => .ok (some p)
  | v =>
    match v.asText? with
    | some s => .ok (some (Path.parse s))
    | none => .error .notPath

def policyOf (v : Value) : Except Mistake Policy :=
  match v.asText? with
  | some s =>
    match parse? Policy s with
    | some p => .ok p
    | none => .error (.unknownChoice (Named.label Policy) s)
  | none => .error (.notMember ((Named.members : List Policy).map Named.text))

def knownEngineOf (v : Value) : Except Mistake String :=
  match textOf v with
  | .error m => .error m
  | .ok s =>
    match parse? Variant s with
    | some e => .ok e.text
    | none => .error (.unknownChoice (Named.label Variant) s)

abbrev Entries := List (Value × Value)

def valueAt? (name : String) : Entries → Option Value
  | [] => none
  | (k, v) :: es => if k.sameKey (.str name) then some v else valueAt? name es

/-- A field of the entries, or what holds where it is not given. -/
def field {α : Type} (es : Entries) (name : String) (fallback : α)
    (convert : Value → Except Mistake α) : Except (List Problem) α :=
  match valueAt? name es with
  | none => .ok fallback
  | some v =>
    match convert v with
    | .ok a => .ok a
    | .error m => .error [⟨[.name name], m, v⟩]

def problemsOf {α : Type} : Except (List Problem) α → List Problem
  | .ok _ => []
  | .error ps => ps

/-- The step of the way that a key is: a position, where it fits a word, or a name. -/
def stepOf : Value → Step
  | .int i =>
    if -(wholeLimit : Int) ≤ i ∧ i < wholeLimit then .index i
    else .name (Value.int i).shownAnyhow
  | .bool b => .index (if b then 1 else 0)
  | v => .name (v.asText?.getD v.shownAnyhow)

/-- Problems of entries that are no field. -/
def strangers (fields : List String) : Entries → List Problem
  | [] => []
  | (k, v) :: es =>
    match k.asText? with
    | some n =>
      if fields.contains n then strangers fields es
      else ⟨[.name n], .unknownField, v⟩ :: strangers fields es
    | none => ⟨[stepOf k], .keyNotText, k⟩ :: strangers fields es

def fieldNames : List String :=
  ["engine", "engine_dir", "time_limit", "memory_limit", "max_stack_size", "malformed_policy"]

/-- The common fields, with the engine converted by `engineOf`; problems in the order of the
fields. -/
def readFields (engineOf : Value → Except Mistake String) (es : Entries) :
    Except (List Problem) Settings :=
  let engine := field es "engine" standard.engine engineOf
  let engineDir := field es "engine_dir" standard.engineDir pathOf
  let timeLimit := field es "time_limit" standard.timeLimit (limitOf "time_limit")
  let memoryLimit := field es "memory_limit" standard.memoryLimit (limitOf "memory_limit")
  let maxStackSize := field es "max_stack_size" standard.maxStackSize (limitOf "max_stack_size")
  let policy := field es "malformed_policy" standard.policy policyOf
  match engine, engineDir, timeLimit, memoryLimit, maxStackSize, policy with
  | .ok e, .ok d, .ok t, .ok m, .ok s, .ok p => .ok ⟨e, d, t, m, s, p⟩
  | e, d, t, m, s, p =>
    .error (problemsOf e ++ problemsOf d ++ problemsOf t ++ problemsOf m ++ problemsOf s
      ++ problemsOf p)

def read (es : Entries) : Except (List Problem) Settings :=
  match readFields textOf es, strangers fieldNames es with
  | .ok s, [] => .ok s
  | r, ps => .error (problemsOf r ++ ps)

/-- Settings as named values, to be read once more. -/
def entries (s : Settings) : Entries :=
  [ (.str "engine", .str s.engine),
    (.str "engine_dir", s.engineDir.elim .null .path),
    (.str "time_limit", s.timeLimit.elim .null .int),
    (.str "memory_limit", s.memoryLimit.elim .null .int),
    (.str "max_stack_size", s.maxStackSize.elim .null .int),
    (.str "malformed_policy", .choice (.policy s.policy)) ]

end Settings

namespace Value

/-- Documents may hold one another this many times over. -/
def depthLimit : Nat := 255

mutual

/-- Problems of a value that should be a document; `level` others hold it. -/
def documentProblems (level : Nat) (v : Value) : List Problem :=
  if depthLimit ≤ level then [⟨[], .tooDeep, v⟩]
  else
    match v with
    | .null => []
    | .bool _ => []
    | .int _ => []
    | .float _ => []
    | .str _ => []
    | .choice _ => []
    | .list xs => (itemProblems (level + 1) 0 xs).map (Problem.within [.name "list"])
    | .dict es => (entryProblems (level + 1) es).map (Problem.within [.name "dict"])
    | .tuple xs => [⟨[], .notDocument, .tuple xs⟩]
    | .path p => [⟨[], .notDocument, .path p⟩]
    | .moment m => [⟨[], .notDocument, .moment m⟩]

def itemProblems (level index : Nat) : List Value → List Problem
  | [] => []
  | x :: xs =>
    (documentProblems level x).map (Problem.within [.index index]) ++ itemProblems level (index + 1) xs

/-- Problems of entries: keys must be texts, values documents. -/
def entryProblems (level : Nat) : List (Value × Value) → List Problem
  | [] => []
  | (k, v) :: es =>
    (if k.asText?.isSome then [] else [⟨[Settings.stepOf k, .name "[key]"], .notText, k⟩])
      ++ (documentProblems level v).map (Problem.within [Settings.stepOf k]) ++ entryProblems level es

end

mutual

/-- A document as it is kept: members of choices as their texts. -/
def asDocument : Value → Value
  | .choice c => .str c.text
  | .list xs => .list (itemDocuments xs)
  | .dict es => .dict (entryDocuments es)
  | v => v

def itemDocuments : List Value → List Value
  | [] => []
  | x :: xs => asDocument x :: itemDocuments xs

def entryDocuments : List (Value × Value) → List (Value × Value)
  | [] => []
  | (k, v) :: es => (.str k.text, asDocument v) :: entryDocuments es

end

end Value

/-- The contents of a configuration file: settings and options. -/
structure Configuration where
  settings : Settings
  options : Mapping Value

namespace Configuration

def fieldNames : List String := Settings.fieldNames ++ ["options"]

def readOptions (es : Settings.Entries) : Except (List Problem) (Mapping Value) :=
  match Settings.valueAt? "options" es with
  | none => .ok []
  | some (.dict os) =>
    match Value.entryProblems 0 os with
    | [] => .ok (Mapping.ofPairs (os.map fun (k, v) => (k.text, v.asDocument)))
    | ps => .error (ps.map (Problem.within [.name "options"]))
  | some v => .error [⟨[.name "options"], .notMapping, v⟩]

/-- The configuration in the entries of a table. The engine must be known. -/
def readEntries (es : Settings.Entries) : Except (List Problem) Configuration :=
  match Settings.readFields Settings.knownEngineOf es, readOptions es,
      Settings.strangers fieldNames es with
  | .ok s, .ok o, [] => .ok ⟨s, o⟩
  | s, o, ps => .error (Settings.problemsOf s ++ Settings.problemsOf o ++ ps)

def read : Value → Except (List Problem) Configuration
  | .dict es => readEntries es
  | v => .error [⟨[], .notConfiguration, v⟩]

/-- Settings with the engine's directory seen from `baseDir`. -/
def settingsAt (c : Configuration) (cwd : Path) (baseDir : Option Path) : Except Fault Settings :=
  match c.settings.engineDir, baseDir with
  | some dir, some base =>
    if dir.isAbsolute then .ok c.settings
    else
      match (base.join dir).follow? cwd with
      | some place => .ok { c.settings with engineDir := some place }
      | none => .error .nulInPath
  | _, _ => .ok c.settings

/-- The settings of a checker: those of the configuration, checked like any others. -/
def toSettings (c : Configuration) (cwd : Path) (baseDir : Option Path) : Except Fault Settings :=
  match c.settingsAt cwd baseDir with
  | .error f => .error f
  | .ok s =>
    match Settings.read s.entries with
    | .ok s => .ok s
    | .error ps => .error (.invalidSettings "CheckerSettings" ps)

end Configuration

end ScriptLint
