import ScriptLint.Decimal.Number
import ScriptLint.Fault
import ScriptLint.Log.Record

/-!
# ScriptLint.Log.Fields

Structured fields of a record from any values. Null values and empty details are left out.

* `Fields.ofValues`: the fields, each in its own form
-/

namespace ScriptLint.Log.Fields

def number (v : Value) : Except FieldIssue Value :=
  match v with
  | .float x => .ok (.float x)
  | _ =>
    match v.asInt?, v.asText? with
    | some i, _ =>
      match Binary64.ofInt? i with
      | some x => .ok (.float x)
      | none => .error (.outOfRange .tooLarge)
    | _, some s =>
      match Number.parse? s with
      | some x => .ok (.float x)
      | none => .error (.notNumberText v.shown)
    | _, _ => .error (.notNumber v.kindName)

def count (v : Value) : Except FieldIssue Value :=
  match v with
  | .float .nan => .error (.outOfRange .notANumber)
  | .float (.infinite _) => .error (.outOfRange .infinite)
  | .float x => .ok (.int (x.truncate?.getD 0))
  | _ =>
    match v.asInt?, v.asText? with
    | some i, _ => .ok (.int i)
    | _, some s =>
      match Number.readInteger s with
      | .integer i => .ok (.int i)
      | .tooLong digits => .error (.tooManyDigits digits)
      | .other => .error (.notIntegerText v.shown)
    | _, _ => .error (.notInteger v.kindName)

def path (v : Value) : Except FieldIssue Value :=
  match v with
  | .path p => .ok (.str p.text)
  | .str s => .ok (.str s)
  | .choice c => .ok (.choice c)
  | _ => .error (.notPathLike v.kindName)

/-- The items of a value that has some: those of lists and tuples, the characters of texts, the
keys of mappings. -/
def items? : Value → Option (List Value)
  | .list xs => some xs
  | .tuple xs => some xs
  | .dict es => some (es.map Prod.fst)
  | v => v.asText?.map fun s => s.toList.map fun c => .str (String.singleton c)

mutual

/-- The kind that keeps a value from being a key, if one does: lists and mappings are no keys, nor
are tuples with one among their items. -/
def keyFlaw? : Value → Option String
  | .list _ => some "list"
  | .dict _ => some "dict"
  | .tuple xs => itemFlaw? xs
  | _ => none

def itemFlaw? : List Value → Option String
  | [] => none
  | x :: xs => (keyFlaw? x).or (itemFlaw? xs)

end

/-- Entries from elements numbered from `index` on, each of which must be a pair. -/
def pairs (done : List (Value × Value)) (index : Nat) :
    List Value → Except FieldIssue (List (Value × Value))
  | [] => .ok done
  | x :: xs =>
    match items? x with
    | none => .error (.notPair index)
    | some [k, v] =>
      match keyFlaw? k with
      | some kind => .error (.noKey kind)
      | none => pairs (Value.putEntry k v done) (index + 1) xs
    | some ys => .error (.wrongLength index ys.length)

def details (v : Value) : Except FieldIssue Value :=
  match v with
  | .dict es => .ok (.dict es)
  | _ =>
    match items? v with
    | none => .error (.notIterable v.kindName)
    | some xs => (pairs [] 0 xs).map .dict

def engine (v : Value) : Except FieldIssue Value :=
  match v.text? with
  | some s => .ok (.str s)
  | none => .error .unwritable

/-- The fields with the way in which each is converted, in order. -/
def conversions : List (String × (Value → Except FieldIssue Value)) :=
  [("engine", engine), ("duration_ms", number), ("diagnostics", count),
    ("skipped", count), ("path", path), ("details", details)]

/-- Whether a value is given for a field. -/
def isGiven (name : String) : Option Value → Option Value
  | none => none
  | some .null => none
  | some v => if name = "details" ∧ v.truthy = false then none else some v

/-- The fields that are given, converted in order. -/
def convert (given : Mapping Value) :
    List (String × (Value → Except FieldIssue Value)) → Except FieldIssue (Mapping Value)
  | [] => .ok []
  | (name, f) :: rest =>
    match isGiven name (given.get? name) with
    | none => convert given rest
    | some v =>
      match f v with
      | .error e => .error e
      | .ok w =>
        match convert given rest with
        | .error e => .error e
        | .ok more => .ok ((name, w) :: more)

def ofValues (component : Value) (given : Mapping Value) : Except Fault (Mapping Value) :=
  if given.has "component" then .error (.badField .secondComponent)
  else
    match convert given conversions with
    | .ok fields => .ok (("component", component) :: fields)
    | .error e => .error (.badField e)

end ScriptLint.Log.Fields
