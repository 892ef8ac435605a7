/-!
# ScriptLint.Mapping

Mappings from names in the order in which the names first came.

* `put`: a new name goes to the end, a known one keeps its place
* `get?`, `keys`, `has`: look-up
* `layer`: one mapping on top of another
* `ofPairs`: a repeated name keeps its first place and takes its last value
-/

namespace ScriptLint

abbrev Mapping (α : Type) := List (String × α)

namespace Mapping

variable {α : Type}

def put (name : String) (value : α) : Mapping α → Mapping α
  | [] => [(name, value)]
  | (n, v) :: rest => if n = name then (n, value) :: rest else (n, v) :: put name value rest

def get? (name : String) : Mapping α → Option α
  | [] => none
  | (n, v) :: rest => if n = name then some v else get? name rest

def keys (m : Mapping α) : List String := m.map Prod.fst

def has (name : String) (m : Mapping α) : Bool := (get? name m).isSome

/-- `top` laid over `m`, name by name. -/
def layer (m top : Mapping α) : Mapping α := top.foldl (fun acc (n, v) => put n v acc) m

def ofPairs (pairs : List (String × α)) : Mapping α := layer [] pairs

end Mapping

end ScriptLint
