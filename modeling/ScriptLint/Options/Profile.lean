import ScriptLint.Mapping
import ScriptLint.Value

/-!
# ScriptLint.Options.Profile

The options that the editions declare, with their defaults and meanings.

* `Declared`: an option with default and description
* `base`, `extra`: options of both editions, and those of the lenient one only
* `resolve`, `resolveGiven`: options laid over others
* `defaults`, `descriptions`: the profile of an edition
-/

namespace ScriptLint.Options

structure Declared where
  name : String
  standard : Bool
  description : String

def base : List Declared :=
  [ ⟨"adsafe", false, "if ADsafe should be enforced"⟩,
    ⟨"bitwise", true, "if bitwise operators should not be allowed"⟩,
    ⟨"browser", false, "if the standard browser globals should be predefined"⟩,
    ⟨"cap", false, "if upper case HTML should be allowed"⟩,
    ⟨"css", false, "if CSS workarounds should be tolerated"⟩,
    ⟨"debug", false, "if debugger statements should be allowed"⟩,
    ⟨"eqeqeq", true, "if === should be required"⟩,
    ⟨"evil", false, "if eval should be allowed"⟩,
    ⟨"forin", false, "if for in statements must filter"⟩,
    ⟨"fragment", false, "if HTML fragments should be allowed"⟩,
    ⟨"immed", true, "if immediate invocations must be wrapped in parens"⟩,
    ⟨"laxbreak", false, "if line breaks should not be checked"⟩,
    ⟨"newcap", true, "if constructor names must be capitalized"⟩,
    ⟨"nomen", true, "disallow initial or trailing underscores in names"⟩,
    ⟨"on", false, "if HTML event handlers should be allowed"⟩,
    ⟨"onevar", true, "if only one var statement per function should be allowed"⟩,
    ⟨"passfail", false, "if the scan should stop on first error"⟩,
    ⟨"plusplus", true, "if increment/decrement should not be allowed"⟩,
    ⟨"regexp", true, "if the . should not be allowed in regexp literals"⟩,
    ⟨"rhino", false, "if the Rhino environment globals should be predefined"⟩,
    ⟨"undef", true, "if variables should be declared before used"⟩,
    ⟨"safe", false, "if use of some browser features should be restricted"⟩,
    ⟨"sidebar", false, "if the System object should be predefined"⟩,
    ⟨"strict", true, "require the \"use strict\"; pragma"⟩,
    ⟨"sub", false, "if all forms of subscript notation are tolerated"⟩,
    ⟨"white", false, "if strict whitespace rules apply"⟩,
    ⟨"widget", false, "if the Yahoo Widgets globals should be predefined"⟩ ]

def lenient : List Declared :=
  [ ⟨"asi", false, "tolerate automatic semicolon insertion"⟩,
    ⟨"boss", false, "allow foo == null and assignments inside if, for and while conditions"⟩,
    ⟨"curly", true, "require curly braces around logical blocks"⟩,
    ⟨"devel", false, "allow logging functions that should be removed for production"⟩,
    ⟨"noarg", true, "prohibit use of arguments.caller and arguments.callee"⟩,
    ⟨"noempty", true, "prohibit empty blocks"⟩,
    ⟨"nonew", false, "prohibit construction using \"new\" for side effects"⟩ ]

/-- Options that an edition declares beyond the common ones. -/
def extra : Variant → List Declared
  | .jslint => []
  | .jshint => lenient

def defaultsOf (ds : List Declared) : Mapping Value := ds.map fun d => (d.name, .bool d.standard)

/-- One mapping of options laid over another. -/
def resolve (defaults overrides : Mapping Value) : Mapping Value := defaults.layer overrides

/-- The same for a caller who may give no overrides, or empty ones. -/
def resolveGiven (defaults : Mapping Value) (overrides : Option (Mapping Value)) : Mapping Value :=
  match overrides with
  | none => defaults
  | some top => if top.isEmpty then defaults else resolve defaults top

/-- The default profile of an edition. -/
def defaults (v : Variant) : Mapping Value := resolve (defaultsOf base) (defaultsOf (extra v))

def declared (v : Variant) : List Declared := base ++ extra v

def declaredNames (v : Variant) : List String := (declared v).map (·.name)

def descriptions (v : Variant) : Mapping String := (declared v).map fun d => (d.name, d.description)

/-- What an option that the edition does not declare is described as. -/
def undeclaredText : String := "(passed through)"

end ScriptLint.Options
