import ScriptLint.Attribute
import ScriptLint.Settings.Basic

/-!
# ScriptLint.Settings.Frozen

Settings cannot be changed once they are made.

* `Settings.assign`: what comes of an attempt to assign an attribute
-/

namespace ScriptLint.Settings

def recordName : String := "CheckerSettings"

def assignProblem (name : String) (v : Value) : Problem := ⟨[.name name], .frozen, v⟩

/-- Only what is no setting can be assigned: names that start with an underscore. -/
def assign (name : String) (v : Value) : Except Fault Unit :=
  if Attribute.slot name = .hidden then
    match Attribute.refusal? recordName name v with
    | some issue => .error (.badAttribute issue)
    | none => .ok ()
  else .error (.invalidSettings recordName [assignProblem name v])

end ScriptLint.Settings
