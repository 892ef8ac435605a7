import ScriptLint.Cli.Command

/-!
# ScriptLint.Cli.Sources

The files that a command line may read, so that they can be brought into a world before it is
carried out.

* `Job.sources`: configuration files, files to check and scripts
* `sources`: those of a whole command line
-/

namespace ScriptLint.Cli

open ScriptLint.Engine

/-- The configuration file that is named, or all that may be found from the current directory. -/
def configurationSources (w : World) : Option Path → List Path
  | some p => [p]
  | none => (w.resolve w.cwd).ancestors.flatMap fun dir => configurationNames.map dir.child

def scriptSources (l : Loader) : List Path := (Named.members : List Variant).map l.pathOf

/-- Files that setting up a checker may read. The directory of its scripts is known only once the
configuration lies in the world. -/
def checkerSources (w : World) (f : CheckerFlags) : List Path :=
  configurationSources w f.config ++
    match buildChecker w f with
    | (.ok c, _) => scriptSources c.loader
    | (.error _, _) => []

def Job.sources (j : Job) (w : World) : List Path :=
  match j.command with
  | .check paths flags => paths ++ checkerSources w flags
  | .options flags => checkerSources w flags
  | .listEngines dir => scriptSources (Loader.create w dir)

/-- Files that carrying out a command line may read, as far as the world shows them. -/
def sources (args : List String) (w : World) : List Path :=
  match Request.read args with
  | .ok (.job j) => j.sources w
  | _ => []

end ScriptLint.Cli
