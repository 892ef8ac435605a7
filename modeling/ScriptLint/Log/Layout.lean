import ScriptLint.Fault
import ScriptLint.Json.Writer
import ScriptLint.Log.Record

/-!
# ScriptLint.Log.Layout

Log records as text: a line with the level and the message, or a document on one line.

* `levelName`: the name of a level, if it has one
* `Record.line`: the record as a line
* `Record.document`: the record as a document
* `Record.render`: either, with the arguments of the message still to be filled in
-/

namespace ScriptLint.Log

def levelText (level : Int) : String :=
  if level = critical then "CRITICAL"
  else if level = error then "ERROR"
  else if level = warning then "WARNING"
  else if level = info then "INFO"
  else if level = debug then "DEBUG"
  else if level = 0 then "NOTSET"
  else "Level " ++ String.ofList (Digits.ofInt level)

/-- The name of a level. A number without a name of its own is part of its name. -/
def levelName (level : Int) : Except Fault String :=
  if Digits.isWritable level then .ok (levelText level) else .error .unwritable

/-- A text set off from the one before it by one line end at least. -/
def onNewLine (before after : String) : String :=
  if before.toList.getLast? = some '\n' then before ++ after else before ++ "\n" ++ after

namespace Record

/-- What a record shows under a name of its own: a field of that name takes its place. -/
def shown (r : Record) (name : String) (standard : String) : Value :=
  (r.fields.get? name).getD (.str standard)

def shownLevel (r : Record) : Value := r.shown "levelname" (levelText r.level)

def shownLogger (r : Record) : Value := r.shown "name" r.logger

def shownMessage (r : Record) : Value := r.shown "msg" r.message

/-- A text that the record carries under a name of its own, unless it is empty. -/
def carriedText (r : Record) (name : String) : Option String :=
  match r.fields.get? name with
  | some (.str "") => none
  | some (.str s) => some s
  | _ => none

/-- What follows the line of a record: the fault that was logged with it, unless another text is
carried for it, and the calls that led to it. -/
def appendices (r : Record) : List String :=
  let fault := match r.carriedText "exc_text", r.thrown with
    | some t, _ => some t
    | none, some "" => none
    | none, t => t
  fault.toList ++ (r.carriedText "stack_info").toList

def line (r : Record) : String :=
  r.appendices.foldl onNewLine ("[" ++ r.shownLevel.text ++ "] " ++ r.message)

def carried (r : Record) (name : String) : Option (Value × Value) :=
  (r.fields.get? name).map fun v => (.str name, v)

/-- The entries of the record's document. -/
def entries (r : Record) (timestamp : String) : List (Value × Value) :=
  [(.str "timestamp", .str timestamp), (.str "level", .str r.shownLevel.text.toLower),
    (.str "logger", r.shownLogger), (.str "message", .str r.message)]
    ++ fieldNames.filterMap r.carried
    ++ (match r.thrown with
      | some t => [(.str "exc_info", .str t)]
      | none => [])

def document (r : Record) (timestamp : String) : Except Fault String :=
  (Value.dict (r.entries timestamp)).encode

/-- The record with the arguments filled into its message. -/
def filled (r : Record) (arguments : List Value) : Except Fault Record :=
  match r.shownMessage.text? with
  | none => .error .unwritable
  | some pattern =>
    match fill pattern arguments with
    | .ok message => .ok { r with message := message }
    | .error e => .error (.badArguments e)

/-- A record as its formatter writes it. -/
def formatted (r : Record) (format : LogFormat) (created : Binary64) (arguments : List Value) :
    Except Fault String :=
  match format with
  | .text =>
    match r.filled arguments with
    | .error f => .error f
    | .ok r => if r.shownLevel.isShowable then .ok r.line else .error .unwritable
  | .json =>
    match Timestamp.text? created with
    | .error e => .error (.badTime e)
    | .ok timestamp =>
      if r.shownLevel.asText?.isNone then .error (.noAttribute r.shownLevel.kindName "lower")
      else
        match r.filled arguments with
        | .error f => .error f
        | .ok r => r.document timestamp

/-- A record made at the given time whose message waits for its arguments. It is made only if its
level has a name. -/
def render (r : Record) (format : LogFormat) (created : Binary64) (arguments : List Value) :
    Except Fault String :=
  match levelName r.level with
  | .error f => .error f
  | .ok _ => r.formatted format created arguments

end Record

end ScriptLint.Log
