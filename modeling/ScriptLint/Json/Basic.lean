import ScriptLint.Fault
import ScriptLint.Mapping

/-!
# ScriptLint.Json.Basic

Documents of the data format in which values cross into a script and back.

* `Json`: documents
* `Json.toValue`: a document as a value
* `Value.toJson`: the document of a value; what a document cannot hold becomes its text
* `Value.normalForm`, `Value.normalize`: what a document holds in place of a value
* `Value.document`: the document that is written for a value as it is
-/

namespace ScriptLint

/-- A document. Integers are exact; every other number is binary. -/
inductive Json where
  | null
  | bool (b : Bool)
  | int (i : Int)
  | float (x : Binary64)
  | str (s : String)
  | arr (items : List Json)
  | obj (fields : List (String × Json))

namespace Json

def kindName : Json → String
  | .null => "NoneType"
  | .bool _ => "bool"
  | .int _ => "int"
  | .float _ => "float"
  | .str _ => "str"
  | .arr _ => "list"
  | .obj _ => "dict"

mutual

def toValue : Json → Value
  | .null => .null
  | .bool b => .bool b
  | .int i => .int i
  | .float x => .float x
  | .str s => .str s
  | .arr xs => .list (itemValues xs)
  | .obj fs => .dict (fieldValues fs)

def itemValues : List Json → List Value
  | [] => []
  | x :: xs => toValue x :: itemValues xs

def fieldValues : List (String × Json) → List (Value × Value)
  | [] => []
  | (n, x) :: fs => (.str n, toValue x) :: fieldValues fs

end

end Json

namespace Value

mutual

/-- The document of a value. Members of choices become their texts, tuples become lists, keys
become texts, and fields whose keys get the same text are one field. -/
def toJson : Value → Json
  | .null => .null
  | .bool b => .bool b
  | .int i => .int i
  | .float x => .float x
  | .str s => .str s
  | .list xs => .arr (itemsJson xs)
  | .tuple xs => .arr (itemsJson xs)
  | .dict es => .obj (entriesJson [] es)
  | .choice c => .str c.text
  | .path p => .str p.text
  | .moment m => .str m.shown

def itemsJson : List Value → List Json
  | [] => []
  | x :: xs => toJson x :: itemsJson xs

/-- Fields of the entries after the fields `done`. -/
def entriesJson (done : Mapping Json) : List (Value × Value) → Mapping Json
  | [] => done
  | (k, v) :: es => entriesJson (done.put k.text (toJson v)) es

end

mutual

/-- Whether every key of a mapping, at any depth, has a text. -/
def keysShowable : Value → Bool
  | .list xs => itemKeysShowable xs
  | .tuple xs => itemKeysShowable xs
  | .dict es => entryKeysShowable es
  | _ => true

def itemKeysShowable : List Value → Bool
  | [] => true
  | x :: xs => keysShowable x && itemKeysShowable xs

def entryKeysShowable : List (Value × Value) → Bool
  | [] => true
  | (k, v) :: es => k.isShowable && keysShowable v && entryKeysShowable es

end

/-- What a document holds in place of a value, as a value. -/
def normalForm (v : Value) : Value := v.toJson.toValue

/-- The normal form of a value, if all its keys have texts. -/
def normalize (v : Value) : Except Fault Value :=
  if v.keysShowable then .ok v.normalForm else .error .unwritable

/-- The name of the field that is written for a key. Numbers and names of constants are texts in a
document, too. -/
def fieldName : Value → Except Fault String
  | .str s => .ok s
  | .choice c => .ok c.text
  | .null => .ok "null"
  | .bool b => .ok (if b then "true" else "false")
  | .int i => if Digits.isWritable i then .ok (Value.int i).text else .error .unwritable
  | .float x => .ok (Binary64.document.text x)
  | k => .error (.noField k.kindName)

mutual

/-- The document that is written for a value as it is, from left to right. Paths and moments have
none, and neither has an integer that is not written. -/
def document : Value → Except Fault Json
  | .null => .ok .null
  | .bool b => .ok (.bool b)
  | .int i => if Digits.isWritable i then .ok (.int i) else .error .unwritable
  | .float x => .ok (.float x)
  | .str s => .ok (.str s)
  | .choice c => .ok (.str c.text)
  | .list xs =>
    match documents xs with
    | .ok js => .ok (.arr js)
    | .error f => .error f
  | .tuple xs =>
    match documents xs with
    | .ok js => .ok (.arr js)
    | .error f => .error f
  | .dict es =>
    match fieldDocuments es with
    | .ok fs => .ok (.obj fs)
    | .error f => .error f
  | v => .error (.noDocument v.kindName)

def documents : List Value → Except Fault (List Json)
  | [] => .ok []
  | x :: xs =>
    match document x with
    | .error f => .error f
    | .ok j =>
      match documents xs with
      | .ok js => .ok (j :: js)
      | .error f => .error f

def fieldDocuments : List (Value × Value) → Except Fault (List (String × Json))
  | [] => .ok []
  | (k, v) :: es =>
    match fieldName k with
    | .error f => .error f
    | .ok n =>
      match document v with
      | .error f => .error f
      | .ok j =>
        match fieldDocuments es with
        | .ok fs => .ok ((n, j) :: fs)
        | .error f => .error f

end

end Value

end ScriptLint
