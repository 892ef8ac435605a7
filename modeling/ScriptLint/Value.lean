import ScriptLint.Choice
import ScriptLint.Path
import ScriptLint.Decimal.Binary64

/-!
# ScriptLint.Value

Values of options, settings and records. What an option means is the engine's business, so a value
may be anything that a caller or a document can hold.

* `Value`: the values
* `Moment`: a date or time of a configuration document
* `same`, `same_iff`: the test by which equality of values is decided
* `sameKey`: the equality of mapping keys
* `layer`, `dictOf`: mappings in the order of first insertion
-/

namespace ScriptLint

/-- A date or time of a configuration document: its kind and how it is shown. -/
structure Moment where
  kind : String
  shown : String
  deriving DecidableEq, Repr

/-- A member of one of the choices, as a value. -/
inductive Choice where
  | variant (v : Variant)
  | policy (p : Policy)
  | logFormat (f : LogFormat)
  | component (c : Component)
  | dataFormat (d : DataFormat)
  deriving DecidableEq, Repr

namespace Choice

def text : Choice → String
  | .variant v => Named.text v
  | .policy p => Named.text p
  | .logFormat f => Named.text f
  | .component c => Named.text c
  | .dataFormat d => Named.text d

def family : Choice → String
  | .variant _ => "EngineVariant"
  | .policy _ => "MalformedPolicy"
  | .logFormat _ => "LogFormat"
  | .component _ => "LogComponent"
  | .dataFormat _ => "DataFormat"

end Choice

inductive Value where
  | null
  | bool (b : Bool)
  | int (i : Int)
  | float (x : Binary64)
  | str (s : String)
  | list (items : List Value)
  | tuple (items : List Value)
  | dict (entries : List (Value × Value))
  | choice (c : Choice)
  | path (p : Path)
  | moment (m : Moment)

instance : Inhabited Value := ⟨.null⟩

namespace Value

mutual

/-- Whether two values are one and the same, item by item and entry by entry. -/
def same : Value → Value → Bool
  | .null, .null => true
  | .bool a, .bool b => a == b
  | .int i, .int j => i == j
  | .float x, .float y => decide (x = y)
  | .str s, .str t => s == t
  | .list xs, .list ys => sameItems xs ys
  | .tuple xs, .tuple ys => sameItems xs ys
  | .dict es, .dict fs => sameEntries es fs
  | .choice c, .choice d => decide (c = d)
  | .path p, .path q => decide (p = q)
  | .moment m, .moment n => decide (m = n)
  | _, _ => false

def sameItems : List Value → List Value → Bool
  | [], [] => true
  | x :: xs, y :: ys => same x y && sameItems xs ys
  | _, _ => false

def sameEntries : List (Value × Value) → List (Value × Value) → Bool
  | [], [] => true
  | (k, x) :: es, (l, y) :: fs => same k l && same x y && sameEntries es fs
  | _, _ => false

end

mutual

theorem same_iff : ∀ x y : Value, x.same y = true ↔ x = y
  | .null, y => by cases y <;> simp [same]
  | .bool _, y => by cases y <;> simp [same]
  | .int _, y => by cases y <;> simp [same]
  | .float _, y => by cases y <;> simp [same]
  | .str _, y => by cases y <;> simp [same]
  | .list xs, y => by cases y <;> simp [same, sameItems_iff xs]
  | .tuple xs, y => by cases y <;> simp [same, sameItems_iff xs]
  | .dict es, y => by cases y <;> simp [same, sameEntries_iff es]
  | .choice _, y => by cases y <;> simp [same]
  | .path _, y => by cases y <;> simp [same]
  | .moment _, y => by cases y <;> simp [same]

theorem sameItems_iff : ∀ xs ys : List Value, sameItems xs ys = true ↔ xs = ys
  | [], ys => by cases ys <;> simp [sameItems]
  | x :: xs, ys => by cases ys <;> simp [sameItems, same_iff x, sameItems_iff xs]

theorem sameEntries_iff : ∀ es fs : List (Value × Value), sameEntries es fs = true ↔ es = fs
  | [], fs => by cases fs <;> simp [sameEntries]
  | (k, x) :: es, fs => by
    cases fs <;>
      simp [sameEntries, same_iff k, same_iff x, sameEntries_iff es, Prod.ext_iff]

end

instance : DecidableEq Value := fun x y => decidable_of_iff _ (same_iff x y)

/-- Truth values count as numbers where keys are compared. -/
def asInt? : Value → Option Int
  | .bool b => some (if b then 1 else 0)
  | .int i => some i
  | _ => none

/-- Text of a string or of a member of a choice, which count as equal. -/
def asText? : Value → Option String
  | .str s => some s
  | .choice c => some c.text
  | _ => none

mutual

/-- Equality of mapping keys: numbers by value, texts by content, tuples by their items. -/
def sameKey : Value → Value → Bool
  | .null, .null => true
  | .tuple xs, .tuple ys => sameKeys xs ys
  | .path p, .path q => p == q
  | .moment m, .moment n => m == n
  | .float x, .float y => x.sameNumber y
  | .float x, b => b.asInt?.any x.isInt
  | a, .float y => a.asInt?.any y.isInt
  | a, b =>
    match a.asInt?, b.asInt? with
    | some i, some j => i == j
    | _, _ =>
      match a.asText?, b.asText? with
      | some s, some t => s == t
      | _, _ => false

def sameKeys : List Value → List Value → Bool
  | [], [] => true
  | x :: xs, y :: ys => sameKey x y && sameKeys xs ys
  | _, _ => false

end

/-- A mapping from pairs: a repeated key keeps its first place and takes its last value. -/
def putEntry (k v : Value) : List (Value × Value) → List (Value × Value)
  | [] => [(k, v)]
  | (k', v') :: rest => if sameKey k' k then (k', v) :: rest else (k', v') :: putEntry k v rest

/-- Entries laid over others, key by key. -/
def layer (es top : List (Value × Value)) : List (Value × Value) :=
  top.foldl (fun acc (k, v) => putEntry k v acc) es

def dictOf (pairs : List (Value × Value)) : Value := .dict (layer [] pairs)

def kindName : Value → String
  | .null => "NoneType"
  | .bool _ => "bool"
  | .int _ => "int"
  | .float _ => "float"
  | .str _ => "str"
  | .list _ => "list"
  | .tuple _ => "tuple"
  | .dict _ => "dict"
  | .choice c => c.family
  | .path _ => "PosixPath"
  | .moment m => m.kind

def truthy : Value → Bool
  | .null => false
  | .bool b => b
  | .int i => i != 0
  | .float x => !x.isZero
  | .str s => s != ""
  | .list xs => !xs.isEmpty
  | .tuple xs => !xs.isEmpty
  | .dict es => !es.isEmpty
  | _ => true

end Value

end ScriptLint
