import ScriptLint.Collector
import ScriptLint.Engine.Glue
import ScriptLint.Settings.Basic

/-!
# ScriptLint.Engine.Sandbox

A script is run in a context that serves one check. Nothing of a check outlives its context.

* `Script`: a loaded engine script
* `evaluate`: the text a script hands back for options and a text
* `Limits`: what a context may use up
* `Context`: a context with `open?`, `run` and `close`
* `Context.runOn`: a run on any interpreter
* `runIsolatedOn`, `runIsolated`: a check in a context of its own
-/

namespace ScriptLint.Engine

/-- A loaded engine script: its edition, where it was read, its text with digest, and what it
does. -/
structure Script where
  variant : Variant
  path : Path
  text : String
  digest : String
  program : Program

/-- The text handed back for the errors a call left; what counts as false counts as no errors. -/
def payload : Option Datum → String
  | some d => if d.truthy then d.stringify else "[]"
  | none => "[]"

def evaluate (script : Script) (options : List (String × Value)) (text : String) :
    Except Fault String :=
  let failed (detail : String) : Except Fault String :=
    .error (.engineFailed script.variant.text detail)
  let absent := failed ("entry point " ++ script.variant.entryPoint ++ " is not defined")
  match script.program with
  | .broken detail => failed detail
  | .inert => absent
  | .callable entry call =>
    if entry ≠ script.variant.entryPoint then absent
    else
      match handOver options text with
      | .error (.fault f) => .error f
      | .error (.thrown detail) => failed detail
      | .ok (o, source) =>
        match call o source with
        | .threw detail => failed detail
        | .unwritable => failed "engine did not report diagnostics"
        | .left errors => .ok (payload errors)

/-- An interpreter: it evaluates scripts, with whatever effects it has. -/
abbrev Interpreter (m : Type → Type) :=
  Script → List (String × Value) → String → m (Except Fault String)

/-- What a context may use up: seconds, bytes of memory, bytes of stack. Nothing is measured here;
a limit only has to be a number that the interpreter can take. -/
structure Limits where
  seconds : Option Int
  memory : Option Int
  stack : Option Int
  deriving DecidableEq, Repr

namespace Limits

def none : Limits := ⟨.none, .none, .none⟩

def ofSettings (s : Settings) : Limits := ⟨s.timeLimit, s.memoryLimit, s.maxStackSize⟩

/-- Greatest count of bytes. -/
def byteLimit : Int := 9223372036854775807

def fitsBytes (i : Int) : Bool := -byteLimit - 1 ≤ i && i ≤ byteLimit

def fitsSeconds (i : Int) : Bool := (Binary64.ofInt? i).isSome

/-- The first limit that the interpreter cannot take. -/
def issue? (l : Limits) : Option LimitIssue :=
  if !l.memory.all fitsBytes || !l.stack.all fitsBytes then some .bytes
  else if !l.seconds.all fitsSeconds then some .seconds
  else Option.none

end Limits

structure Context where
  limits : Limits
  policy : Policy
  isOpen : Bool
  used : Bool
  skipped : Nat

namespace Context

def new (limits : Limits) (policy : Policy) : Context := ⟨limits, policy, false, false, 0⟩

def open? (c : Context) : Except Fault Context :=
  if c.used || c.isOpen then .error .contextUsedUp
  else
    match c.limits.issue? with
    | some issue => .error (.limitTooLarge issue)
    | none => .ok { c with isOpen := true }

def close (c : Context) : Context := { c with isOpen := false, used := true }

/-- Runs a script in an open context that was not used, on a given interpreter. Whatever comes of it,
the context is used up; it stays open until it is closed. -/
def runOn {m : Type → Type} [Monad m] (interpret : Interpreter m) (c : Context) (script : Script)
    (options : List (String × Value)) (text : String) :
    m (Except Fault (List Diagnostic) × Context × Log.Journal) :=
  if !c.isOpen || c.used then pure (.error .contextNotReady, c, [])
  else do
    let c := { c with used := true }
    match ← interpret script options text with
    | .error fault => pure (.error fault, c, [])
    | .ok payload =>
      match ((Collector.new script.variant c.policy).receive payload).collect with
      | (.error fault, _, journal) => pure (.error fault, c, journal)
      | (.ok ds, collector, journal) =>
        pure (.ok ds, { c with skipped := collector.skipped }, journal)

def run (c : Context) (script : Script) (options : List (String × Value)) (text : String) :
    Except Fault (List Diagnostic) × Context × Log.Journal :=
  (c.runOn (fun s o t => pure (evaluate s o t)) script options text : Id _).run

end Context

structure Result where
  engine : Variant
  diagnostics : List Diagnostic
  skipped : Nat

def Result.clean (r : Result) : Bool := r.diagnostics.isEmpty

/-- A check on an interpreter that heeds limits. -/
def runIsolatedOn (interpret : Limits → Interpreter Id) (script : Script)
    (options : List (String × Value)) (text : String) (limits : Limits) (policy : Policy) :
    Except Fault Result × Log.Journal :=
  let started := Log.entry Log.debug Log.sandboxLogger
    ("Running " ++ script.variant.text ++ " in a fresh sandbox (" ++ Digits.ofNatText options.length
      ++ " options, " ++ Digits.ofNatText text.length ++ " chars)")
    { component := .sandbox, engine := some script.variant.text }
  match (Context.new limits policy).open? with
  | .error fault => (.error fault, [started])
  | .ok context =>
    match (context.runOn (interpret limits) script options text).run with
    | (.error fault, _, journal) => (.error fault, started :: journal)
    | (.ok ds, after, journal) =>
      let completed := Log.entry Log.debug Log.sandboxLogger
        (script.variant.text ++ " run completed: diagnostics=" ++ Digits.ofNatText ds.length ++ " skipped="
          ++ Digits.ofNatText after.skipped)
        { component := .sandbox, engine := some script.variant.text, timed := true,
          diagnostics := some ds.length, skipped := some after.skipped }
      (.ok ⟨script.variant, ds, after.skipped⟩, started :: journal ++ [completed])

/-- The interpreter that has all that it needs, whatever the limits are. -/
def unmetered (_ : Limits) : Interpreter Id := fun script options text =>
  pure (evaluate script options text)

def runIsolated (script : Script) (options : List (String × Value)) (text : String)
    (limits : Limits) (policy : Policy) : Except Fault Result × Log.Journal :=
  runIsolatedOn unmetered script options text limits policy

end ScriptLint.Engine
