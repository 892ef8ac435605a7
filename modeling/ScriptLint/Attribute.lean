import ScriptLint.Fault

/-!
# ScriptLint.Attribute

Assigning an attribute of a record by its name. What is assigned under a name that starts with an
underscore, or under the name of one of the record's own members, is kept beside the record's fields
and never becomes one of them.

* `Attribute.Slot`, `Attribute.slot`: what a name stands for
* `Attribute.refusal?`: why nothing can be assigned under a name
-/

namespace ScriptLint.Attribute

/-- What a name stands for that is no declared field. -/
inductive Slot where
  /-- It starts with an underscore. -/
  | hidden
  /-- A member that every record has; an assigned value takes its place. -/
  | member
  /-- A member that can only be read. -/
  | readOnly
  | free
  deriving DecidableEq, Repr

/-- The member that shows the values kept for names that are not declared. -/
def extrasMember : String := "model_extra"

def setupMember : String := "model_config"

def purposeMember : String := "__doc__"

def contentsMember : String := "__dict__"

def readOnlyMembers : List String := [extrasMember, "model_fields_set"]

def members : List String :=
  [setupMember, "model_fields", "model_computed_fields", "model_construct", "model_copy",
    "model_dump", "model_dump_json", "model_json_schema", "model_parametrized_name",
    "model_post_init", "model_rebuild", "model_validate", "model_validate_json",
    "model_validate_strings", "dict", "json", "parse_obj", "parse_raw", "parse_file", "from_orm",
    "construct", "copy", "schema", "schema_json", "validate", "update_forward_refs", "mro",
    "register"]

def slot (name : String) : Slot :=
  if name.toList.head? = some '_' then .hidden
  else if readOnlyMembers.contains name then .readOnly
  else if members.contains name then .member
  else .free

/-- Why a value cannot be assigned under a name of a record. -/
def refusal? (record name : String) (value : Value) : Option AttributeIssue :=
  if name = "__class__" then some (.needsClass value.kindName)
  else if name = "__fields_set__" ∨ slot name = .readOnly then some (.readOnly record name)
  else if name = contentsMember then
    match value with
    | .dict _ => none
    | v => some (.needsMapping v.kindName)
  else none

end ScriptLint.Attribute
