import ScriptLint.FileTree
import ScriptLint.Log.Record

/-!
# ScriptLint.World

Everything outside a call that it may depend on, and everything it may leave behind.

* `World`: files, variables, script texts read before, and the records logged so far
* `World.readText`: the text of a file
* `World.log`: logging
-/

namespace ScriptLint

structure CachedScript where
  path : Path
  script : ScriptText
  digest : String

structure World where
  cwd : Path
  /-- Where the scripts of the library lie. -/
  bundle : Path
  environment : Mapping String
  tree : FileTree
  /-- The scripts read before, the latest used first. -/
  cache : List CachedScript
  journal : Log.Journal

namespace World

/-- A world with the library's scripts, an empty directory `cwd` and nothing else. -/
def create (cwd bundle : Path) : World :=
  let tree := FileTree.empty.makeDirectory cwd
  let tree := tree.write (bundle.child Variant.jslint.scriptName) (.text Engine.Bundle.lintText)
  let tree := tree.write (bundle.child Variant.jshint.scriptName) (.text Engine.Bundle.hintText)
  ⟨cwd, bundle, [], tree, [], []⟩

def absolute (w : World) (p : Path) : Path := w.cwd.join p

def resolve (w : World) (p : Path) : Path := p.resolve w.cwd

/-- Where a path leads, if it can lead anywhere. -/
def follow (w : World) (p : Path) : Except Fault Path :=
  match p.follow? w.cwd with
  | some place => .ok place
  | none => .error .nulInPath

def log (w : World) (records : Log.Journal) : World := { w with journal := w.journal ++ records }

def writeFile (w : World) (p : Path) (c : Content) : World :=
  { w with tree := w.tree.write (w.resolve p) c }

def deleteFile (w : World) (p : Path) : World := { w with tree := w.tree.delete (w.resolve p) }

def setting? (w : World) (name : String) : Option String :=
  match w.environment.get? name with
  | some "" => none
  | v => v

def readScriptText (w : World) (p : Path) : Except Fault ScriptText :=
  if (w.absolute p).hasNul then .error .nulInPath
  else
    match w.tree.read (w.absolute p) with
    | .error issue => .error (.file issue p)
    | .ok content =>
      match ScriptText.ofContent content with
      | .ok s => .ok s
      | .error flaw => .error (.undecodable flaw)

def readText (w : World) (p : Path) : Except Fault String :=
  match w.readScriptText p with
  | .ok s => .ok s.text
  | .error f => .error f

end World

end ScriptLint
