import ScriptLint.Json.Writer

/-!
# ScriptLint.Json.Object

Values among which there are members of any enumerations. A member gives way to its value, which is
left as it is.

* `Key`, `Object`: keys of mappings, and the values
* `Object.normalForm`, `Object.normalize`: what a document holds in place of a value
* `Object.encode`: the text that is written for it
* `Value.toObject`: a value of the library's own kinds
-/

namespace ScriptLint

/-- A key of a mapping: a value, or a member of an enumeration with the given value. -/
inductive Key where
  | value (v : Value)
  | member (v : Value)

namespace Key

/-- The text that a key becomes. -/
def text : Key → String
  | .value v => v.text
  | .member v => v.text

def isShowable : Key → Bool
  | .value v => v.isShowable
  | .member v => v.isShowable

end Key

/-- A value, or a member of an enumeration with the given value, or items and entries of such. -/
inductive Object where
  | value (v : Value)
  | member (v : Value)
  | list (items : List Object)
  | tuple (items : List Object)
  | dict (entries : List (Key × Object))

namespace Object

mutual

/-- What a document is to hold in place of an object. Fields whose keys get the same text are one
field. -/
def normalForm : Object → Value
  | .value v => v.normalForm
  | .member v => v
  | .list xs => .list (itemForms xs)
  | .tuple xs => .list (itemForms xs)
  | .dict es => .dict ((entryForms [] es).map fun (n, v) => (.str n, v))

def itemForms : List Object → List Value
  | [] => []
  | x :: xs => normalForm x :: itemForms xs

/-- Fields of the entries after the fields `done`. -/
def entryForms (done : Mapping Value) : List (Key × Object) → Mapping Value
  | [] => done
  | (k, x) :: es => entryForms (done.put k.text (normalForm x)) es

end

mutual

/-- Whether every key has a text. The value of a member is not looked into. -/
def keysShowable : Object → Bool
  | .value v => v.keysShowable
  | .member _ => true
  | .list xs => itemKeysShowable xs
  | .tuple xs => itemKeysShowable xs
  | .dict es => entryKeysShowable es

def itemKeysShowable : List Object → Bool
  | [] => true
  | x :: xs => keysShowable x && itemKeysShowable xs

def entryKeysShowable : List (Key × Object) → Bool
  | [] => true
  | (k, x) :: es => k.isShowable && keysShowable x && entryKeysShowable es

end

def normalize (o : Object) : Except Fault Value :=
  if o.keysShowable then .ok o.normalForm else .error .unwritable

/-- The text of the document that is written for the normal form of an object. -/
def encode (o : Object) : Except Fault String :=
  match o.normalize with
  | .error f => .error f
  | .ok n =>
    match n.document with
    | .error f => .error f
    | .ok j => .ok j.encode

end Object

namespace Value

def toKey : Value → Key
  | .choice c => .member (.str c.text)
  | v => .value v

mutual

/-- A value with the members of choices in it told apart. -/
def toObject : Value → Object
  | .list xs => .list (itemObjects xs)
  | .tuple xs => .tuple (itemObjects xs)
  | .dict es => .dict (entryObjects es)
  | .choice c => .member (.str c.text)
  | v => .value v

def itemObjects : List Value → List Object
  | [] => []
  | x :: xs => toObject x :: itemObjects xs

def entryObjects : List (Value × Value) → List (Key × Object)
  | [] => []
  | (k, v) :: es => (toKey k, toObject v) :: entryObjects es

end

end Value

end ScriptLint
