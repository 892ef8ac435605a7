import ScriptLint.Log.Arguments
import ScriptLint.Log.Timestamp
import ScriptLint.Settings.Problem
import ScriptLint.Text.Utf8

/-!
# ScriptLint.Fault

Everything that can go wrong, by cause, with one wording for each.

* `Fault`: the causes
* `Fault.message`: the wording
* `FaultClass`: the classes of causes, and which class is part of which
-/

namespace ScriptLint

inductive FileIssue where
  | missing | directory | throughFile | denied
  deriving DecidableEq, Repr

def FileIssue.text : FileIssue → String
  | .missing => "[Errno 2] No such file or directory: "
  | .directory => "[Errno 21] Is a directory: "
  | .throughFile => "[Errno 20] Not a directory: "
  | .denied => "[Errno 13] Permission denied: "

inductive ReadCause where
  | absent
  | file (issue : FileIssue)
  | malformed (message : String)
  | undecodable (flaw : Text.Utf8.Flaw)
  deriving DecidableEq, Repr

inductive ConfigCause where
  | noTable
  | notTable
  | problems (ps : List Problem)

inductive FieldIssue where
  | notNumber (kind : String)
  | notNumberText (shown : String)
  | notInteger (kind : String)
  | notIntegerText (shown : String)
  | tooManyDigits (count : Nat)
  | unwritable
  | notPathLike (kind : String)
  | notIterable (kind : String)
  /-- The element at a place of what should be pairs has no items. -/
  | notPair (index : Nat)
  /-- The element at a place of what should be pairs has another number of items. -/
  | wrongLength (index length : Nat)
  | noKey (kind : String)
  | outOfRange (issue : Log.ArgumentIssue)
  /-- The component is given a second time. -/
  | secondComponent
  deriving DecidableEq, Repr

def FieldIssue.message : FieldIssue → String
  | .notNumber kind => "float() argument must be a string or a real number, not '" ++ kind ++ "'"
  | .notNumberText shown => "could not convert string to float: " ++ shown
  | .notInteger kind =>
    "int() argument must be a string, a bytes-like object or a real number, not '" ++ kind ++ "'"
  | .notIntegerText shown =>
    "invalid literal for int() with base 10: " ++ String.ofList (shown.toList.take 200)
  | .tooManyDigits count => Digits.limitText (some count)
  | .unwritable => Digits.limitText none
  | .notPathLike kind => "expected str, bytes or os.PathLike object, not " ++ kind
  | .notIterable kind => "'" ++ kind ++ "' object is not iterable"
  | .notPair index =>
    "cannot convert dictionary update sequence element #" ++ Digits.ofNatText index
      ++ " to a sequence"
  | .wrongLength index length =>
    "dictionary update sequence element #" ++ Digits.ofNatText index ++ " has length "
      ++ Digits.ofNatText length ++ "; 2 is required"
  | .noKey kind => "unhashable type: '" ++ kind ++ "'"
  | .outOfRange issue => issue.message
  | .secondComponent => "structured_extra() got multiple values for argument 'component'"

inductive AttributeIssue where
  | readOnly (record name : String)
  | needsClass (kind : String)
  | needsMapping (kind : String)
  deriving DecidableEq, Repr

def AttributeIssue.message : AttributeIssue → String
  | .readOnly record name =>
    "property " ++ Text.quoted name ++ " of " ++ Text.quoted record ++ " object has no setter"
  | .needsClass kind => "__class__ must be set to a class, not '" ++ kind ++ "' object"
  | .needsMapping kind => "__dict__ must be set to a dictionary, not a '" ++ kind ++ "'"

inductive LimitIssue where
  | bytes
  | seconds
  deriving DecidableEq, Repr

def LimitIssue.message : LimitIssue → String
  | .bytes => Log.ArgumentIssue.message (.starTooBig "ssize_t")
  | .seconds => Log.ArgumentIssue.message .tooLarge

def timeText : Log.TimeIssue → String
  | .notANumber => Log.ArgumentIssue.message .notANumber
  | .infinite => Log.ArgumentIssue.message .infinite
  | .yearOutOfRange year => "year " ++ String.ofList (Digits.ofInt year) ++ " is out of range"

inductive Fault where
  | unknownVariant (name : String)
  /-- The script of an edition, named as the caller did, is not installed. -/
  | scriptMissing (name : String) (path : Path)
  | engineFailed (engine : String) (detail : String)
  | malformedRecord (index : Int) (record : Value) (reason : String)
  | contextUsedUp
  | contextNotReady
  | limitTooLarge (issue : LimitIssue)
  | configUnreadable (path : Path) (cause : ReadCause)
  | configInvalid (path : Path) (cause : ConfigCause)
  | badAssignment (token : String)
  | startMissing (start : Path)
  | file (issue : FileIssue) (path : Path)
  /-- A path with a NUL in it is the path of nothing. -/
  | nulInPath
  | undecodable (flaw : Text.Utf8.Flaw)
  | noOption (name : String)
  | noAttribute (record name : String)
  | badAttribute (issue : AttributeIssue)
  | unknownChoice (label raw : String)
  | invalidSettings (subject : String) (ps : List Problem)
  | reservedOverride
  | overrideNotText
  /-- An integer has too many digits to be read. -/
  | tooManyDigits (count : Nat)
  /-- An integer has too many digits to be written. -/
  | unwritable
  /-- No document holds values of this kind. -/
  | noDocument (kind : String)
  /-- No document holds fields under keys of this kind. -/
  | noField (kind : String)
  | badField (issue : FieldIssue)
  | badArguments (issue : Log.ArgumentIssue)
  | badTime (issue : Log.TimeIssue)

namespace Fault

def ReadCause.text (path : Path) : ReadCause → String
  | .absent => path.text
  | .file issue => issue.text ++ Text.quoted path.text
  | .malformed message => message
  | .undecodable flaw => flaw.text

def ConfigCause.text (path : Path) : ConfigCause → String
  | .noTable => path.name ++ " does not define jslintr configuration"
  | .notTable => "[tool.jslintr] must be a TOML table"
  | .problems ps => Problem.summary "ConfigModel" ps

def missingScript (name path : String) : String :=
  "Engine script for '" ++ name ++ "' not found at " ++ path

def unknownVariantText (name : String) : String := Mistake.unknownText "engine variant" name

def failureText (engine detail : String) : String := engine ++ " failed: " ++ detail

def malformedText (index record reason : String) : String :=
  "Malformed diagnostic #" ++ index ++ ": " ++ reason ++ " (" ++ record ++ ")"

def assignmentText (token : String) : String :=
  "Expected NAME=VALUE for option override, got '" ++ token ++ "'"

def unreadableText (path error : String) : String := "Unable to read " ++ path ++ ": " ++ error

def invalidText (path error : String) : String :=
  "Invalid jslintr configuration in " ++ path ++ ": " ++ error

def message : Fault → String
  | .unknownVariant name => unknownVariantText name
  | .scriptMissing name path => missingScript name path.text
  | .engineFailed engine detail => failureText engine detail
  | .malformedRecord index record reason =>
    malformedText (String.ofList (Digits.ofInt index)) record.shown reason
  | .contextUsedUp => "IsolatedContext instances are single-use"
  | .contextNotReady => "IsolatedContext must be opened before running and can run only once"
  | .configUnreadable path cause => unreadableText path.text (ReadCause.text path cause)
  | .configInvalid path cause => invalidText path.text (ConfigCause.text path cause)
  | .badAssignment token => assignmentText token
  | .startMissing start => "Provided project root " ++ start.text ++ " does not exist."
  | .file issue path => issue.text ++ Text.quoted path.text
  | .nulInPath => "embedded null byte"
  | .undecodable flaw => flaw.text
  | .noOption name => Text.quoted name
  | .noAttribute record name =>
    Text.quoted record ++ " object has no attribute " ++ Text.quoted name
  | .badAttribute issue => issue.message
  | .limitTooLarge issue => issue.message
  | .unknownChoice label raw => Mistake.unknownText label raw
  | .invalidSettings subject ps => Problem.summary subject ps
  | .reservedOverride => "BaseModel.model_construct() got multiple values for argument 'cls'"
  | .overrideNotText => "keywords must be strings"
  | .tooManyDigits count => Digits.limitText (some count)
  | .unwritable => Digits.limitText none
  | .noDocument kind => "Object of type " ++ kind ++ " is not JSON serializable"
  | .noField kind => "keys must be str, int, float, bool or None, not " ++ kind
  | .badField issue => issue.message
  | .badArguments issue => issue.message
  | .badTime issue => timeText issue

end Fault

/-- Classes of faults: those of the library, and those that its faults share with the world. -/
inductive FaultClass where
  | general
  | validation
  | configValidation
  | engineNotFound
  | engineExecution
  | malformedDiagnostic
  | configRead
  | invalidConfigFile
  | invalidAssignment
  | value
  | lookup
  | runtime
  | fileMissing
  | fileIsDirectory
  | pathThroughFile
  | accessDenied
  | os
  | undecodable
  | malformedDocument
  | invalidModel
  | key
  | attribute
  | type
  | overflow
  | memory
  deriving DecidableEq, Repr

namespace FaultClass

def name : FaultClass → String
  | .general => "JslintrError"
  | .validation => "JslintrValidationError"
  | .configValidation => "ConfigValidationError"
  | .engineNotFound => "EngineNotFoundError"
  | .engineExecution => "EngineExecutionError"
  | .malformedDiagnostic => "MalformedDiagnosticError"
  | .configRead => "ConfigReadError"
  | .invalidConfigFile => "InvalidConfigFileError"
  | .invalidAssignment => "InvalidOptionAssignmentError"
  | .value => "ValueError"
  | .lookup => "LookupError"
  | .runtime => "RuntimeError"
  | .fileMissing => "FileNotFoundError"
  | .fileIsDirectory => "IsADirectoryError"
  | .pathThroughFile => "NotADirectoryError"
  | .accessDenied => "PermissionError"
  | .os => "OSError"
  | .undecodable => "UnicodeDecodeError"
  | .malformedDocument => "TOMLDecodeError"
  | .invalidModel => "ValidationError"
  | .key => "KeyError"
  | .attribute => "AttributeError"
  | .type => "TypeError"
  | .overflow => "OverflowError"
  | .memory => "MemoryError"

def own : List FaultClass :=
  [.general, .validation, .configValidation, .engineNotFound, .engineExecution,
    .malformedDiagnostic, .configRead, .invalidConfigFile, .invalidAssignment]

def broad : List FaultClass :=
  [.general, .validation, .configValidation, .value, .lookup, .runtime]

def parents : FaultClass → List FaultClass
  | .validation => [.general, .value]
  | .configValidation => [.validation]
  | .engineNotFound => [.general, .lookup]
  | .engineExecution => [.general, .runtime]
  | .malformedDiagnostic => [.general, .value]
  | .configRead => [.configValidation]
  | .invalidConfigFile => [.configValidation]
  | .invalidAssignment => [.configValidation]
  | .fileMissing => [.os]
  | .fileIsDirectory => [.os]
  | .pathThroughFile => [.os]
  | .accessDenied => [.os]
  | .undecodable => [.value]
  | .malformedDocument => [.value]
  | .invalidModel => [.value]
  | .key => [.lookup]
  | _ => []

/-- Whether `c` is part of `d`, at most `depth` steps up. -/
def within : Nat → FaultClass → FaultClass → Bool
  | 0, c, d => c == d
  | depth + 1, c, d => c == d || c.parents.any (within depth · d)

/-- Whether a fault of class `c` is one of class `d`. -/
def isPart (c d : FaultClass) : Bool := within 3 c d

/-- What a fault of a class is about, and how much of that may be left out at the end. -/
def subjects : FaultClass → Option (List String × Nat)
  | .engineNotFound => some (["variant", "path"], 1)
  | .engineExecution => some (["engine", "detail"], 0)
  | .malformedDiagnostic => some (["index", "record", "reason"], 0)
  | .configRead => some (["path", "error"], 0)
  | .invalidConfigFile => some (["path", "error"], 0)
  | .invalidAssignment => some (["token"], 0)
  | _ => none

def enumerated : List String → String
  | [] => ""
  | [n] => Text.quoted n
  | [m, n] => Text.quoted m ++ " and " ++ Text.quoted n
  | ns =>
    String.intercalate ", " (ns.dropLast.map Text.quoted) ++ ", and "
      ++ Text.quoted (ns.getLastD "")

def plural (n : Nat) (noun : String) : String := if n = 1 then noun else noun ++ "s"

/-- What is said when too little or too much is given for a fault of a class. -/
def wrongCount? (c : FaultClass) (given : Nat) : Option String :=
  match c.subjects with
  | none => none
  | some (names, optional) =>
    let needed := names.length - optional
    let missing := (names.take needed).drop given
    if missing ≠ [] then
      some (c.name ++ ".__init__() missing " ++ Digits.ofNatText missing.length ++ " required positional "
        ++ plural missing.length "argument" ++ ": " ++ enumerated missing)
    else if names.length < given then
      let range := (if optional = 0 then "" else "from " ++ Digits.ofNatText (needed + 1) ++ " to ")
        ++ Digits.ofNatText (names.length + 1)
      some (c.name ++ ".__init__() takes " ++ range ++ " positional arguments but "
        ++ Digits.ofNatText (given + 1) ++ " were given")
    else none

inductive Topic where
  | value (v : Value)
  | fault (wording : String)

def Topic.text : Topic → String
  | .value v => v.text
  | .fault wording => wording

def Topic.shown : Topic → String
  | .value v => v.shown
  | .fault wording => FaultClass.value.name ++ "(" ++ Text.quoted wording ++ ")"

/-- The wording of a fault of a class, from what it is about. -/
def wording (c : FaultClass) (about : List Topic) : String :=
  match c, about with
  | .engineNotFound, [name] => Fault.unknownVariantText name.text
  | .engineNotFound, [name, .value .null] => Fault.unknownVariantText name.text
  | .engineNotFound, [name, path] => Fault.missingScript name.text path.text
  | .engineExecution, [engine, detail] => Fault.failureText engine.text detail.text
  | .malformedDiagnostic, [index, record, reason] =>
    Fault.malformedText index.text record.shown reason.text
  | .configRead, [path, error] => Fault.unreadableText path.text error.text
  | .invalidConfigFile, [path, error] => Fault.invalidText path.text error.text
  | .invalidAssignment, [token] => Fault.assignmentText token.text
  | _, [] => ""
  | _, [t] => t.text
  | _, ts => "(" ++ String.intercalate ", " (ts.map Topic.shown) ++ ")"

end FaultClass

def FileIssue.faultClass : FileIssue → FaultClass
  | .missing => .fileMissing
  | .directory => .fileIsDirectory
  | .throughFile => .pathThroughFile
  | .denied => .accessDenied

def ReadCause.faultClass : ReadCause → FaultClass
  | .absent => .fileMissing
  | .file issue => issue.faultClass
  | .malformed _ => .malformedDocument
  | .undecodable _ => .undecodable

def ConfigCause.faultClass : ConfigCause → FaultClass
  | .problems _ => .invalidModel
  | _ => .value

def FieldIssue.faultClass : FieldIssue → FaultClass
  | .notNumberText _ => .value
  | .notIntegerText _ => .value
  | .tooManyDigits _ => .value
  | .unwritable => .value
  | .wrongLength .. => .value
  | .outOfRange .notANumber => .value
  | .outOfRange _ => .overflow
  | _ => .type

def AttributeIssue.faultClass : AttributeIssue → FaultClass
  | .readOnly .. => .attribute
  | _ => .type

def argumentClass : Log.ArgumentIssue → FaultClass
  | .incomplete => .value
  | .unknownLetter .. => .value
  | .unclosedKey => .value
  | .notANumber => .value
  | .noKey _ => .key
  | .widthTooBig => .value
  | .placesTooBig => .value
  | .unwritable => .value
  | .charRange => .overflow
  | .starTooBig _ => .overflow
  | .infinite => .overflow
  | .tooLarge => .overflow
  | .noRoom => .memory
  | _ => .type

def timeClass : Log.TimeIssue → FaultClass
  | .infinite => .overflow
  | _ => .value

namespace Fault

def faultClass : Fault → FaultClass
  | .unknownVariant _ => .engineNotFound
  | .scriptMissing .. => .engineNotFound
  | .engineFailed .. => .engineExecution
  | .malformedRecord .. => .malformedDiagnostic
  | .contextUsedUp => .general
  | .contextNotReady => .general
  | .configUnreadable .. => .configRead
  | .configInvalid .. => .invalidConfigFile
  | .badAssignment _ => .invalidAssignment
  | .startMissing _ => .fileMissing
  | .file issue _ => issue.faultClass
  | .nulInPath => .value
  | .undecodable _ => .undecodable
  | .noOption _ => .key
  | .noAttribute .. => .attribute
  | .badAttribute issue => issue.faultClass
  | .limitTooLarge _ => .overflow
  | .unknownChoice .. => .value
  | .invalidSettings .. => .invalidModel
  | .reservedOverride => .type
  | .overrideNotText => .type
  | .tooManyDigits _ => .value
  | .unwritable => .value
  | .noDocument _ => .type
  | .noField _ => .type
  | .badField issue => issue.faultClass
  | .badArguments issue => argumentClass issue
  | .badTime issue => timeClass issue

end Fault

end ScriptLint
