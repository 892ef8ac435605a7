import ScriptLint.Attribute
import ScriptLint.Log.Record
import ScriptLint.Options.Profile

/-!
# ScriptLint.Options.Store

The option values of one checker. The options that the edition declares are its fields and always
have a value; any other option is kept beside them in the order in which it was first stored.

* `Store`: the values
* `Store.create`: an edition's profile with overrides
* `get`, `set`, `names`, `snapshot`: access
* `getField`, `setField`: access by way of the record's attributes
-/

namespace ScriptLint.Options

structure Store where
  variant : Variant
  fields : Mapping Value
  /-- Values of the other options, in the order of first storage. -/
  extras : Mapping Value
  /-- What was assigned to the record under names that are no options. -/
  attributes : Mapping Value
  /-- Where the record takes note of assigned fields, if a caller gave it something for that. -/
  notes : Value

namespace Store

/-- Overrides of these names are not stored: the first is refused, the second is taken for the
record's own bookkeeping. -/
def refusedName : String := "cls"
def swallowedName : String := "_fields_set"

def isField (v : Variant) (name : String) : Bool := (declaredNames v).contains name

def sortedNames (names : List String) : List String :=
  names.mergeSort fun a b => !(b < a)

def unknownNames (v : Variant) (overrides : Mapping Value) : List String :=
  sortedNames (overrides.keys.filter fun n => !isField v n)

/-- What is logged when overrides are stored that the edition does not declare. -/
def unknownNotice (v : Variant) (overrides : Mapping Value) : Log.Journal :=
  match unknownNames v overrides with
  | [] => []
  | names =>
    [Log.entry Log.debug Log.configLogger
      ("Storing options unknown to " ++ v.text ++ ": " ++ String.intercalate ", " names)
      { component := .config, engine := some v.text }]

def ofProfile (v : Variant) (profile : Mapping Value) : Store :=
  ⟨v, (declaredNames v).map fun n => (n, (profile.get? n).getD .null),
    profile.filter fun p => !isField v p.1 && p.1 != swallowedName, [],
    (profile.get? swallowedName).getD .null⟩

/-- Overrides by name; a name must be a text. -/
def overridesOf : List (Value × Value) → Except Fault (Mapping Value)
  | [] => .ok []
  | (k, v) :: es =>
    match k.asText?, overridesOf es with
    | some n, .ok rest => .ok ((n, v) :: rest)
    | _, _ => .error .overrideNotText

def create (v : Variant) (overrides : Mapping Value) : Except Fault Store × Log.Journal :=
  let profile := resolve (defaults v) overrides
  if profile.has refusedName then (.error .reservedOverride, [])
  else (.ok (ofProfile v profile), unknownNotice v overrides)

def get? (s : Store) (name : String) : Option Value :=
  if isField s.variant name then s.fields.get? name else s.extras.get? name

def get (s : Store) (name : String) : Except Fault Value :=
  match s.get? name with
  | some v => .ok v
  | none => .error (.noOption name)

/-- Stores a value; it counts from the next check on. -/
def set (s : Store) (name : String) (value : Value) : Store :=
  if isField s.variant name then { s with fields := s.fields.put name value }
  else { s with extras := s.extras.put name value }

def recordName : Variant → String
  | .jslint => "JSLintOptions"
  | .jshint => "JSHintOptions"

/-- After storing a declared option the record takes note of it, which fails where the caller gave
it something else for that. -/
def setFault? (s : Store) (name : String) : Option Fault :=
  if isField s.variant name then
    match s.notes with
    | .null => none
    | v => some (.noAttribute v.kindName "add")
  else none

def setup : Value :=
  .dict [(.str "extra", .str "allow"), (.str "validate_assignment", .bool false),
    (.str "populate_by_name", .bool true)]

def entriesOf (m : Mapping Value) : List (Value × Value) := m.map fun (n, v) => (.str n, v)

def purpose : Variant → String
  | .jslint => "Options shared by JSLint and JSHint, with JSLint's strict defaults."
  | .jshint => "JSLint's options plus the lenient JSHint-only switches."

/-- What a member of the record shows, where nothing was assigned in its place. -/
def member? (s : Store) (name : String) : Option Value :=
  if name = Attribute.extrasMember then some (.dict (entriesOf s.extras))
  else if name = Attribute.setupMember then some setup
  else if name = Attribute.purposeMember then some (.str (purpose s.variant))
  else if name = Attribute.contentsMember then some (.dict (entriesOf (s.fields ++ s.attributes)))
  else none

/-- An attribute of the record: a declared option, what was assigned under the name, a member, or
another option. -/
def attribute? (s : Store) (name : String) : Option Value :=
  if isField s.variant name then s.fields.get? name
  else (s.attributes.get? name).or ((s.member? name).or (s.extras.get? name))

def getField (s : Store) (name : String) : Except Fault Value :=
  match s.attribute? name with
  | some v => .ok v
  | none => .error (.noAttribute (recordName s.variant) name)

/-- Assigns an attribute of the record. Only a name that is free becomes an option. -/
def setField (s : Store) (name : String) (value : Value) : Store :=
  if isField s.variant name then s.set name value
  else
    match Attribute.slot name, Attribute.refusal? (recordName s.variant) name value with
    | _, some _ => s
    | .free, none => s.set name value
    | _, none => { s with attributes := s.attributes.put name value }

/-- Why assigning an attribute of the record fails. -/
def setFieldFault? (s : Store) (name : String) (value : Value) : Option Fault :=
  if isField s.variant name then s.setFault? name
  else (Attribute.refusal? (recordName s.variant) name value).map .badAttribute

def names (s : Store) : List String := s.fields.keys ++ s.extras.keys

def size (s : Store) : Nat := s.names.length

def has (s : Store) (name : String) : Bool := isField s.variant name || s.extras.has name

/-- Membership of any value; only texts can be names. -/
def hasValue (s : Store) : Value → Bool
  | .str n => s.has n
  | .choice c => s.has c.text
  | _ => false

/-- All options, the declared ones first. -/
def snapshot (s : Store) : Mapping Value := s.fields.layer s.extras

def shown (s : Store) : String :=
  "ConfigStore(variant=" ++ Text.quoted s.variant.text ++ ", options="
    ++ String.ofList (Digits.decimal s.size) ++ ")"

end Store

end ScriptLint.Options
