import ScriptLint.Mapping
import ScriptLint.Toml.Basic

/-!
# ScriptLint.Toml.Table

The tables of a document while it is read.

* `Item`, `Table`: values, tables and lists of tables by name
* `Table.edit`: changes the table at a key, making the tables on the way
* `Table.openTable`, `openListed`, `insert`: what the statements of a document do
* `Marks`: the keys that may not be opened or changed again
* `Table.toValue`: the finished document
-/

namespace ScriptLint.Toml

/-- What a name of a document stands for. The table added last to a list of tables is the one that
later statements speak of. -/
inductive Item where
  | value (v : Value)
  | table (fields : List (String × Item))
  | tables (latest : List (String × Item)) (before : List (List (String × Item)))

/-- The entries of a table, in the order in which their names first came. -/
abbrev Table := Mapping Item

namespace Table

inductive Clash where
  | blocked
  | taken
  deriving DecidableEq, Repr

/-- Changes the table at a key. Tables that are missing on the way are made. -/
def edit (f : Table → Except Clash Table) : Key → Table → Except Clash Table
  | [], t => f t
  | k :: ks, t =>
    match Mapping.get? k t with
    | none =>
      match edit f ks [] with
      | .ok u => .ok (Mapping.put k (.table u) t)
      | .error e => .error e
    | some (.table u) =>
      match edit f ks u with
      | .ok u' => .ok (Mapping.put k (.table u') t)
      | .error e => .error e
    | some (.tables u before) =>
      match edit f ks u with
      | .ok u' => .ok (Mapping.put k (.tables u' before) t)
      | .error e => .error e
    | some (.value _) => .error .blocked

/-- Makes sure that there is a table at a key. -/
def openTable (key : Key) (t : Table) : Except Clash Table := edit .ok key t

/-- Adds an empty table to the list of tables under a name. -/
def addListed (name : String) (t : Table) : Except Clash Table :=
  match Mapping.get? name t with
  | none => .ok (Mapping.put name (.tables [] []) t)
  | some (.tables latest before) => .ok (Mapping.put name (.tables [] (latest :: before)) t)
  | some _ => .error .blocked

def openListed (key : Key) (t : Table) : Except Clash Table :=
  edit (addListed (key.getLastD "")) key.dropLast t

def addValue (name : String) (v : Value) (t : Table) : Except Clash Table :=
  match Mapping.get? name t with
  | none => .ok (Mapping.put name (.value v) t)
  | some _ => .error .taken

def insert (key : Key) (v : Value) (t : Table) : Except Clash Table :=
  edit (addValue (key.getLastD "") v) key.dropLast t

end Table

mutual

def Item.toValue : Item → Value
  | .value v => v
  | .table fields => .dict (fieldValues fields)
  | .tables latest before => .list ((tableValues before).reverse ++ [.dict (fieldValues latest)])

def fieldValues : List (String × Item) → List (Value × Value)
  | [] => []
  | (n, x) :: fs => (.str n, x.toValue) :: fieldValues fs

def tableValues : List (List (String × Item)) → List Value
  | [] => []
  | t :: ts => .dict (fieldValues t) :: tableValues ts

end

def Table.toValue (t : Table) : Value := .dict (fieldValues t)

/-- Keys of a document that later statements may not open or change. -/
structure Marks where
  /-- Tables that were declared; they are not declared again. -/
  declared : List Key
  frozen : List Key
  /-- Tables made by dotted names, declared as soon as the next header comes. -/
  pending : List Key

namespace Marks

def none : Marks := ⟨[], [], []⟩

def isDeclared (m : Marks) (key : Key) : Bool := m.declared.contains key

def isFrozen (m : Marks) (key : Key) : Bool := m.frozen.any (·.isPrefixOf key)

def declare (m : Marks) (key : Key) : Marks := { m with declared := key :: m.declared }

def freeze (m : Marks) (key : Key) : Marks := { m with frozen := key :: m.frozen }

def postpone (m : Marks) (keys : List Key) : Marks := { m with pending := keys ++ m.pending }

def settle (m : Marks) : Marks := { m with declared := m.pending ++ m.declared, pending := [] }

/-- Forgets a key with all that lies under it. -/
def forget (m : Marks) (key : Key) : Marks :=
  { m with
    declared := m.declared.filter fun k => !key.isPrefixOf k
    frozen := m.frozen.filter fun k => !key.isPrefixOf k }

end Marks

end ScriptLint.Toml
