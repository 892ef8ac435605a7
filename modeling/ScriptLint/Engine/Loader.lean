import ScriptLint.Engine.Digest
import ScriptLint.Engine.Sandbox
import ScriptLint.World

/-!
# ScriptLint.Engine.Loader

Finding and reading engine scripts. The text of a script is read once and kept until the cache is
cleared, but a script that is no longer installed is not loaded, read before or not.

* `Loader`: a directory with scripts
* `Loader.create`: the directory given, else that of the variable, else the library's own
* `resolveVariant`: the edition a value names
* `Loader.load`, `Loader.available`
-/

namespace ScriptLint.Engine

def directoryVariable : String := "JSLINTR_ENGINE_DIR"

def cacheSize : Nat := 32

/-- The edition that a value names. -/
def resolveVariant : Value → Except Fault Variant
  | .choice (.variant v) => .ok v
  | value =>
    match value.asText? with
    | none => .error (.noAttribute value.kindName "strip")
    | some name =>
      match parse? Variant name with
      | some v => .ok v
      | none => .error (.unknownVariant name)

structure Loader where
  root : Path
  deriving DecidableEq, Repr

namespace Loader

def create (w : World) : Option Path → Loader
  | some root => ⟨root⟩
  | none =>
    match w.setting? directoryVariable with
    | some dir => ⟨Path.parse dir⟩
    | none => ⟨w.bundle⟩

def pathOf (l : Loader) (v : Variant) : Path := l.root.child v.scriptName

def scriptPath (l : Loader) (name : Value) : Except Fault Path :=
  match resolveVariant name with
  | .ok v => .ok (l.pathOf v)
  | .error f => .error f

/-- The text kept for a path, or read now and kept. The text used last comes first. -/
def cachedRead (w : World) (p : Path) : Except Fault CachedScript × World :=
  match w.cache.find? fun c => c.path == p with
  | some c => (.ok c, { w with cache := c :: w.cache.filter fun d => d.path != p })
  | none =>
    match w.readScriptText p with
    | .error f => (.error f, w)
    | .ok s =>
      let c : CachedScript := ⟨p, s, Digest.textDigest s.text⟩
      (.ok c, { w with cache := (c :: w.cache).take cacheSize })

def clearCache (w : World) : World := { w with cache := [] }

def loadedNotice (v : Variant) (c : CachedScript) : Log.Record :=
  Log.entry Log.debug Log.engineLogger
    ("Loaded " ++ v.text ++ " engine script (" ++ Digits.ofNatText c.script.text.length ++ " bytes, sha256 "
      ++ String.ofList (c.digest.toList.take 12) ++ ")")
    { component := .engine, engine := some v.text, path := some c.path.text }

def load (l : Loader) (w : World) (name : Value) : Except Fault Script × World :=
  match resolveVariant name with
  | .error f => (.error f, w)
  | .ok v =>
    match w.follow (l.pathOf v) with
    | .error f => (.error f, w)
    | .ok p =>
      if w.tree.isFile p then
        match cachedRead w p with
        | (.error f, w) => (.error f, w)
        | (.ok c, w) =>
          (.ok ⟨v, p, c.script.text, c.digest, c.script.program⟩, w.log [loadedNotice v c])
      else (.error (.scriptMissing name.text p), w)

def available (l : Loader) (w : World) : List (Variant × Option Path) :=
  (Named.members : List Variant).map fun v =>
    (v, if w.tree.isFile (w.absolute (l.pathOf v)) then some (l.pathOf v) else none)

end Loader

end ScriptLint.Engine
