import ScriptLint.Engine.Loader
import ScriptLint.Options.Store
import ScriptLint.Settings.Discovery

/-!
# ScriptLint.Checker

A checker: configured once, used for many texts. It pins the script that its first check loads, and
takes a snapshot of its options at the start of every check.

* `Checker`: settings, options, loader and pinned script
* `Checker.create`, `Checker.ofConfiguration`: a checker with its options
* `Checker.run`, `Checker.check`: checking a text
* `Checker.runOn`, `Checker.checkOn`: the same on a given interpreter
* `Checker.checkFiles`: checking files in order
-/

namespace ScriptLint

open ScriptLint.Engine ScriptLint.Options

structure Checker where
  settings : Settings
  variant : Variant
  loader : Loader
  store : Store
  script : Option Script

namespace Checker

/-- Settings with the edition that is named, if one is. -/
def editionSettings (settings : Settings) : Option Value → Except Fault Settings
  | none => .ok settings
  | some v =>
    match v.text? with
    | some name => .ok { settings with engine := name }
    | none => .error .unwritable

/-- A checker with option overrides. An edition that is named goes before that of the settings. -/
def create (w : World) (overrides : Mapping Value) (variant : Option Value) (settings : Settings)
    (loader : Option Loader) : Except Fault Checker × World :=
  match editionSettings settings variant with
  | .error f => (.error f, w)
  | .ok settings =>
    match resolveVariant (.str settings.engine) with
    | .error f => (.error f, w)
    | .ok v =>
      match Store.create v overrides with
      | (.error f, journal) => (.error f, w.log journal)
      | (.ok store, journal) =>
        (.ok ⟨settings, v, loader.getD (Loader.create w settings.engineDir), store, none⟩,
          w.log journal)

def ofConfiguration (w : World) (c : LoadedConfiguration) (overrides : Mapping Value)
    (variant : Option Value) : Except Fault Checker × World :=
  create w (c.options.layer overrides) variant c.settings none

/-- The script of the checker, loaded at the first time. -/
def pinScript (c : Checker) (w : World) : Except Fault Script × Checker × World :=
  match c.script with
  | some s => (.ok s, c, w)
  | none =>
    match c.loader.load w (.choice (.variant c.variant)) with
    | (.error f, w) => (.error f, c, w)
    | (.ok s, w) => (.ok s, { c with script := some s }, w)

def checkedNotice (v : Variant) (chars found : Nat) : Log.Record :=
  Log.entry Log.debug Log.engineLogger
    ("Checked " ++ Digits.ofNatText chars ++ " chars with " ++ v.text ++ ": " ++ Digits.ofNatText found
      ++ " diagnostics")
    { component := .engine, engine := some v.text, timed := true, diagnostics := some found }

def runOn (interpret : Limits → Interpreter Id) (c : Checker) (w : World) (text : String) :
    Except Fault Result × Checker × World :=
  match c.pinScript w with
  | (.error f, c, w) => (.error f, c, w)
  | (.ok script, c, w) =>
    match runIsolatedOn interpret script c.store.snapshot text (.ofSettings c.settings)
        c.settings.policy with
    | (.error f, journal) => (.error f, c, w.log journal)
    | (.ok r, journal) =>
      (.ok r, c, w.log (journal ++ [checkedNotice c.variant text.length r.diagnostics.length]))

/-- The report on a text, if there is anything to report. -/
def checkOn (interpret : Limits → Interpreter Id) (c : Checker) (w : World) (text : String) :
    Except Fault (Option String) × Checker × World :=
  match c.runOn interpret w text with
  | (.ok r, c, w) => (Diagnostic.report r.diagnostics, c, w)
  | (.error f, c, w) => (.error f, c, w)

def run (c : Checker) (w : World) (text : String) : Except Fault Result × Checker × World :=
  c.runOn unmetered w text

def check (c : Checker) (w : World) (text : String) :
    Except Fault (Option String) × Checker × World :=
  c.checkOn unmetered w text

def fileNotice (v : Variant) (p : Path) (found : Nat) : Log.Record :=
  Log.entry Log.info Log.engineLogger
    ("Checked " ++ p.text ++ ": " ++ Digits.ofNatText found ++ " findings")
    { component := .engine, engine := some v.text, timed := true, diagnostics := some found,
      path := some p.text }

/-- Checks files in order; the first fault ends the batch. -/
def checkFiles (c : Checker) (w : World) : List Path →
    Except Fault (List FileReport) × Checker × World
  | [] => (.ok [], c, w)
  | p :: ps =>
    match w.readText p with
    | .error f => (.error f, c, w)
    | .ok text =>
      match c.run w text with
      | (.error f, c, w) => (.error f, c, w)
      | (.ok r, c, w) =>
        match Diagnostic.report r.diagnostics with
        | .error f => (.error f, c, w)
        | .ok report =>
          let w := w.log [fileNotice c.variant p r.diagnostics.length]
          match checkFiles c w ps with
          | (.error f, c, w) => (.error f, c, w)
          | (.ok rs, c, w) => (.ok (⟨p, report, r.diagnostics⟩ :: rs), c, w)

def set (c : Checker) (name : String) (value : Value) : Checker :=
  { c with store := c.store.set name value }

def setField (c : Checker) (name : String) (value : Value) : Checker :=
  { c with store := c.store.setField name value }

def shown (c : Checker) : String :=
  "Checker(variant=" ++ Text.quoted c.variant.text ++ ", options=" ++ Digits.ofNatText c.store.size ++ ")"

def checkText (w : World) (text : String) (overrides : Mapping Value) (variant : Option Value) :
    Except Fault (Option String) × World :=
  match create w overrides variant Settings.standard none with
  | (.error f, w) => (.error f, w)
  | (.ok c, w) =>
    match c.check w text with
    | (r, _, w) => (r, w)

end Checker

end ScriptLint
