import ScriptLint.Decimal.Number
import ScriptLint.Diagnostic
import ScriptLint.Fault
import ScriptLint.Json.Reader
import ScriptLint.Log.Record

/-!
# ScriptLint.Collector

What an engine hands back is a text that holds a list of records. The collector keeps such texts and
turns them into findings.

* `decodeRecords`: the records of a text
* `parseRecord`: the finding of a record
* `Collector`: received texts, with `receive` and `collect`
-/

namespace ScriptLint

inductive PayloadError where
  | unreadable (e : Json.ReadError) (text : String)
  | notAList (kind : String)

def PayloadError.message : PayloadError → String
  | .unreadable e text => e.message text
  | .notAList kind => "Expected a JSON array of diagnostics, got " ++ kind

/-- The records of a text. White space alone and null stand for no records. -/
def decodeRecords (payload : String) : Except PayloadError (List Json) :=
  if Text.strip payload = "" then .ok []
  else
    match Json.read payload with
    | .error e => .error (.unreadable e payload)
    | .ok .null => .ok []
    | .ok (.arr records) => .ok records
    | .ok j => .error (.notAList j.kindName)

/-- A position: an integer, a number equal to one, or a text that spells one. -/
def position? : Value → Option Int
  | .int i => some i
  | .float x => x.toInt?
  | .str s => Number.integer? (Text.strip s)
  | .choice c => Number.integer? (Text.strip c.text)
  | _ => none

/-- Value of a field that is there and not null. -/
def presentField? (name : String) : List (Value × Value) → Option Value
  | [] => none
  | (k, v) :: es =>
    if k.sameKey (.str name) then (match v with | .null => none | _ => some v)
    else presentField? name es

def requiredFields : List String := ["line", "character", "reason"]

/-- The finding of the record at a position of the engine's list. -/
def parseRecord (index : Int) (record : Value) : Except Fault Diagnostic :=
  match record with
  | .dict es =>
    match presentField? "line" es, presentField? "character" es, presentField? "reason" es with
    | some line, some character, some reason =>
      match position? line, position? character with
      | some l, some c =>
        .ok ⟨l, c, reason.text, ((presentField? "evidence" es).map Value.text).getD ""⟩
      | _, _ => .error (.malformedRecord index record "line and character must be integers")
    | _, _, _ =>
      let missing := requiredFields.filter fun n => (presentField? n es).isNone
      .error (.malformedRecord index record ("missing " ++ String.intercalate ", " missing))
  | _ => .error (.malformedRecord index record "record is not an object")

/-- What is wrong with a record that has no finding. -/
def malformedReason : Fault → String
  | .malformedRecord _ _ reason => reason
  | f => f.message

/-- Texts received from an engine. -/
structure Collector where
  engine : Variant
  policy : Policy
  payloads : List String
  skipped : Nat

namespace Collector

def new (engine : Variant) (policy : Policy) : Collector := ⟨engine, policy, [], 0⟩

def receive (c : Collector) (payload : String) : Collector :=
  { c with payloads := c.payloads ++ [payload] }

def received (c : Collector) : Bool := !c.payloads.isEmpty

def skipWarning (engine : Variant) (index : Nat) (reason : String) : Log.Record :=
  Log.entry Log.warning Log.engineLogger
    ("Skipping malformed " ++ engine.text ++ " diagnostic: " ++ reason)
    { component := .engine, engine := some engine.text, details := [("index", .int index)] }

/-- Findings so far, records left out so far, warnings so far. -/
structure Harvest where
  diagnostics : List Diagnostic
  skipped : Nat
  journal : Log.Journal

def Harvest.none : Harvest := ⟨[], 0, []⟩

def Harvest.append (a b : Harvest) : Harvest :=
  ⟨a.diagnostics ++ b.diagnostics, a.skipped + b.skipped, a.journal ++ b.journal⟩

/-- The findings of records numbered from `index` on. Null records count for nothing. A malformed
record is left out with a warning, or ends everything. -/
def harvest (engine : Variant) (policy : Policy) : Nat → List Json → Except Fault Harvest
  | _, [] => .ok .none
  | index, .null :: records => harvest engine policy (index + 1) records
  | index, record :: records =>
    match parseRecord index record.toValue with
    | .ok d =>
      match harvest engine policy (index + 1) records with
      | .ok h => .ok (Harvest.append ⟨[d], 0, []⟩ h)
      | .error e => .error e
    | .error fault =>
      match policy with
      | .fail => .error fault
      | .skip =>
        match harvest engine policy (index + 1) records with
        | .ok h => .ok (Harvest.append ⟨[], 1, [skipWarning engine index (malformedReason fault)]⟩ h)
        | .error e => .error e

/-- The findings of texts in order, with what was gathered before a fault. -/
def gather (engine : Variant) (policy : Policy) : List String → Harvest × Option Fault
  | [] => (.none, none)
  | payload :: rest =>
    match decodeRecords payload with
    | .error e =>
      (.none, some (.engineFailed engine.text ("unreadable diagnostics payload: " ++ e.message)))
    | .ok records =>
      match harvest engine policy 0 records with
      | .error fault => (.none, some fault)
      | .ok h =>
        let (h', fault) := gather engine policy rest
        (h.append h', fault)

/-- The findings of everything received. The count of records left out starts anew. -/
def collect (c : Collector) : Except Fault (List Diagnostic) × Collector × Log.Journal :=
  let (h, fault) := gather c.engine c.policy c.payloads
  let c' := { c with skipped := h.skipped }
  match fault with
  | some f => (.error f, c', h.journal)
  | none => (.ok h.diagnostics, c', h.journal)

end Collector

end ScriptLint
