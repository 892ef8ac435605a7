import ScriptLint.Choice
import ScriptLint.Text.Quoted

/-!
# ScriptLint.Cli.Grammar

The flags and arguments of every command, with the texts that describe them.

* `Flag`, `Operand`: what a command takes
* `Grammar`: a command's flags, operands and texts
* `mainGrammar`, `checkGrammar`, …: the commands
* `Grammar.help`: the text of a command's help
-/

namespace ScriptLint.Cli

/-- What a flag does. -/
inductive FlagKind where
  | help
  | version
  /-- It takes one value, from the choices if there are any. -/
  | value (choices : List String)
  deriving DecidableEq, Repr

structure Flag where
  names : List String
  kind : FlagKind
  /-- Its lines in the help. -/
  lines : List String
  deriving DecidableEq, Repr

def Flag.title (f : Flag) : String := String.intercalate "/" f.names

/-- What a command takes besides flags. -/
inductive Operand where
  | nothing
  /-- One text or more. -/
  | texts (name : String)
  | command (name : String) (choices : List String) (required : Bool)
  deriving DecidableEq, Repr

structure Grammar where
  program : String
  usage : List String
  about : List String
  operandLines : List String
  operand : Operand
  flags : List Flag
  deriving DecidableEq, Repr

namespace Grammar

def spellings (g : Grammar) : List (String × Flag) :=
  g.flags.flatMap fun f => f.names.map fun n => (n, f)

def flag? (g : Grammar) (name : String) : Option Flag :=
  (g.spellings.find? fun s => s.1 == name).map Prod.snd

def joinLines (ls : List String) : String := String.join (ls.map fun l => l ++ "\n")

def usageText (g : Grammar) : String := joinLines g.usage

/-- A block of the help, set off by an empty line; without lines there is no block. -/
def block (title : String) (ls : List String) : String :=
  if ls.isEmpty then "" else "\n" ++ title ++ joinLines ls

def help (g : Grammar) : String :=
  g.usageText ++ block "" g.about ++ block "positional arguments:\n" g.operandLines
    ++ block "options:\n" (g.flags.flatMap Flag.lines)

end Grammar

def formatChoices : List String := (Named.members : List LogFormat).map Named.text

def levelChoices : List String := ["debug", "info", "warning", "error"]

def outputChoices : List String := (Named.members : List DataFormat).map Named.text

def helpFlag : Flag :=
  ⟨["-h", "--help"], .help, ["  -h, --help            show this help message and exit"]⟩

def logFormatFlag : Flag :=
  ⟨["--log-format"], .value formatChoices,
    ["  --log-format \x7btext,json\x7d",
      "                        Logging output format (human-readable text or",
      "                        structured JSON). Defaults to $JSLINTR_LOG_FORMAT or",
      "                        text. (default: None)"]⟩

def logLevelFlag : Flag :=
  ⟨["--log-level"], .value levelChoices,
    ["  --log-level \x7bdebug,info,warning,error\x7d",
      "                        Verbosity of logged events. Defaults to",
      "                        $JSLINTR_LOG_LEVEL or warning. (default: None)"]⟩

def versionFlag : Flag :=
  ⟨["--version"], .version,
    ["  --version             Print the jslintr version and exit. (default: False)"]⟩

def engineFlag : Flag :=
  ⟨["-e", "--engine"], .value [],
    ["  -e ENGINE, --engine ENGINE",
      "                        Engine variant (jslint or jshint). Defaults to the",
      "                        config file, then jshint. (default: None)"]⟩

def optionFlag : Flag :=
  ⟨["-o", "--option"], .value [],
    ["  -o NAME=VALUE, --option NAME=VALUE",
      "                        Override an analyzer option; repeat as needed. Values",
      "                        are parsed as JSON when possible. (default: [])"]⟩

def configFlag : Flag :=
  ⟨["-c", "--config"], .value [],
    ["  -c CONFIG, --config CONFIG",
      "                        Explicit jslintr.toml (or pyproject.toml) to read.",
      "                        (default: None)"]⟩

def engineDirFlag : Flag :=
  ⟨["--engine-dir"], .value [],
    ["  --engine-dir ENGINE_DIR",
      "                        Directory containing jslint.js/jshint.js. (default:",
      "                        None)"]⟩

def outFlag : Flag :=
  ⟨["--out"], .value outputChoices,
    ["  --out \x7btext,json\x7d     Output format. (default: text)"]⟩

def commonFlags : List Flag := [helpFlag, logFormatFlag, logLevelFlag]

def checkerFlags : List Flag := [engineFlag, optionFlag, configFlag, engineDirFlag, outFlag]

def commandNames : List String := ["check", "options", "engines"]

def mainGrammar : Grammar where
  program := "jslintr"
  usage :=
    ["usage: jslintr [-h] [--log-format \x7btext,json\x7d]",
      "               [--log-level \x7bdebug,info,warning,error\x7d] [--version]",
      "               \x7bcheck,options,engines\x7d ..."]
  about := ["Check JavaScript with JSLint or JSHint running in an embedded interpreter."]
  operandLines :=
    ["  \x7bcheck,options,engines\x7d",
      "    check               Lint JavaScript files",
      "    options             Show resolved analyzer options",
      "    engines             Inspect engine scripts"]
  operand := .command "command" commandNames false
  flags := commonFlags ++ [versionFlag]

def checkGrammar : Grammar where
  program := "jslintr check"
  usage :=
    ["usage: jslintr check [-h] [--log-format \x7btext,json\x7d]",
      "                     [--log-level \x7bdebug,info,warning,error\x7d] [-e ENGINE]",
      "                     [-o NAME=VALUE] [-c CONFIG] [--engine-dir ENGINE_DIR]",
      "                     [--out \x7btext,json\x7d]",
      "                     paths [paths ...]"]
  about := []
  operandLines := ["  paths                 Files to check."]
  operand := .texts "paths"
  flags := commonFlags ++ checkerFlags

def optionsGrammar : Grammar where
  program := "jslintr options"
  usage :=
    ["usage: jslintr options [-h] [--log-format \x7btext,json\x7d]",
      "                       [--log-level \x7bdebug,info,warning,error\x7d] [-e ENGINE]",
      "                       [-o NAME=VALUE] [-c CONFIG] [--engine-dir ENGINE_DIR]",
      "                       [--out \x7btext,json\x7d]"]
  about := []
  operandLines := []
  operand := .nothing
  flags := commonFlags ++ checkerFlags

def enginesGrammar : Grammar where
  program := "jslintr engines"
  usage :=
    ["usage: jslintr engines [-h] [--log-format \x7btext,json\x7d]",
      "                       [--log-level \x7bdebug,info,warning,error\x7d]",
      "                       \x7blist\x7d ..."]
  about := []
  operandLines := ["  \x7blist\x7d", "    list                List engine variants and their scripts"]
  operand := .command "engines_action" ["list"] true
  flags := commonFlags

def listGrammar : Grammar where
  program := "jslintr engines list"
  usage :=
    ["usage: jslintr engines list [-h] [--log-format \x7btext,json\x7d]",
      "                            [--log-level \x7bdebug,info,warning,error\x7d]",
      "                            [--engine-dir ENGINE_DIR] [--out \x7btext,json\x7d]"]
  about := []
  operandLines := []
  operand := .nothing
  flags := commonFlags ++ [engineDirFlag, outFlag]

end ScriptLint.Cli
