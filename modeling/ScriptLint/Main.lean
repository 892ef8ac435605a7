import ScriptLint.Cli.Sources
import ScriptLint.Log.Timestamp
import Std.Time.DateTime.Timestamp

/-!
# ScriptLint.Main

The command line: brings the files and variables that the command may read into a world, carries
the command out there and prints what it leaves.
-/

namespace ScriptLint

/-- The place with everything found there: a file with its bytes, a directory, or nothing. -/
def bringPlace (w : World) (p : Path) : IO World := do
  match ← (IO.FS.readBinFile p.text).toBaseIO with
  | .ok bytes => return w.writeFile p (.bytes bytes.toList)
  | .error (.inappropriateType ..) =>
    return { w with tree := w.tree.makeDirectory (w.resolve p) }
  | .error (.permissionDenied ..) => return { w with tree := w.tree.lock (w.resolve p) }
  | .error _ => return w

def bring (w : World) (p : Path) : IO World :=
  if w.tree.isThere (w.absolute p) then return w
  else (w.absolute p).ancestors.reverse.foldlM bringPlace w

def bringAll (w : World) (ps : List Path) : IO World := ps.foldlM bring w

/-- The directory in which the command runs, with the variables that it heeds. -/
def surroundings : IO World := do
  let cwd := Path.parse (← IO.currentDir).toString
  let program := Path.parse (← IO.appPath).toString
  let names := [Engine.directoryVariable, Log.formatVariable, Log.levelVariable]
  let environment ← names.filterMapM fun n => return (← IO.getEnv n).map fun v => (n, v)
  return { World.create cwd (program.parent.child "scripts") with environment }

def timestampText : IO String := do
  let nanos := (← Std.Time.Timestamp.now).toNanosecondsSinceUnixEpoch.val
  match Log.Timestamp.textOf (nanos / 1000000000) (nanos % 1000000000 / 1000) with
  | .ok text => return text
  | .error _ => return ""

def report (o : Cli.Output) : IO UInt32 := do
  (← IO.getStderr).putStr o.err
  (← IO.getStdout).putStr o.out
  return UInt32.ofNat o.exit

/-- Carries out a command line. The second look for files finds those that the configuration brought
by the first one names. -/
def carryOut (args : List String) : IO UInt32 := do
  let w ← surroundings
  let w ← bringAll w (Cli.sources args w)
  let w ← bringAll w (Cli.sources args w)
  match Cli.run args w (← timestampText) with
  | (.ok o, _) => report o
  | (.error f, _) =>
    (← IO.getStderr).putStr (Cli.line (Cli.thrownText f))
    return UInt32.ofNat Cli.exitFindings

end ScriptLint

def main (args : List String) : IO UInt32 := ScriptLint.carryOut args
