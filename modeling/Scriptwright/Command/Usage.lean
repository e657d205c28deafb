import Scriptwright.Command.Arguments

/-!
# The commands and their options
-/

namespace Scriptwright.Command

inductive Task where
  | build
  | install
  | help
deriving DecidableEq, Repr

namespace Task

def all : List Task := [.build, .install, .help]

def name : Task → String
  | .build => "build"
  | .install => "install"
  | .help => "help"

def shortName : Task → String
  | .build => "b"
  | .install => "i"
  | .help => "h"

def words : List String := all.flatMap fun t => [t.name, t.shortName]

def ofWord? (w : String) : Option Task := all.find? fun t => t.name == w || t.shortName == w

end Task

def versionText : String := "ysk 0.1.0"

def helpSwitch : Switch := ⟨["-h", "--help"], .help⟩

def levelWords : List String := ["debug", "info", "warn", "error"]

def mainUsage : String :=
  "usage: ysk [-h] [--version] [--verbose] [--project PROJECT] " ++
    "[--log-level \x7bdebug,info,warn,error\x7d] \x7bbuild,b,install,i,help,h\x7d ..."

def mainHelp : String := "\n".intercalate [
  mainUsage,
  "",
  "yamlSkript compiler: build JavaScript and JSX from YAML documents",
  "",
  "positional arguments:",
  "  \x7bbuild,b,install,i,help,h\x7d",
  "                        Available commands",
  "    build (b)           Compile the documents listed in package.yml",
  "    install (i)         Install the dependencies listed in package.yml",
  "    help (h)            Show this help message",
  "",
  "options:",
  "  -h, --help            show this help message and exit",
  "  --version             show program's version number and exit",
  "  --verbose             Print full tracebacks and detailed CLI errors (or set YSK_VERBOSE=1)",
  "  --project PROJECT     Project root containing package.yml " ++
    "(defaults to current working directory)",
  "  --log-level \x7bdebug,info,warn,error\x7d",
  "                        Set logging level (or set YSK_LOG_LEVEL)",
  ""]

def mainGrammar : Grammar where
  program := "ysk"
  usage := mainUsage
  help := mainHelp
  switches :=
    [helpSwitch, ⟨["--version"], .version⟩, ⟨["--verbose"], .flag⟩, ⟨["--project"], .value []⟩,
      ⟨["--log-level"], .value levelWords⟩]
  hasCommand := true

def buildUsage : String := "usage: ysk build [-h] [--out OUT] [--strict]"

def buildHelp : String := "\n".intercalate [
  buildUsage,
  "",
  "options:",
  "  -h, --help  show this help message and exit",
  "  --out OUT   Output directory (overrides yamlSkript.output)",
  "  --strict    Fail when a document contains node kinds the compiler cannot emit",
  ""]

def plainUsage (t : Task) : String := "usage: ysk " ++ t.name ++ " [-h]"

def plainHelp (t : Task) : String := "\n".intercalate [
  plainUsage t,
  "",
  "options:",
  "  -h, --help  show this help message and exit",
  ""]

def Task.grammar : Task → Grammar
  | .build =>
    { program := "ysk build"
      usage := buildUsage
      help := buildHelp
      switches := [helpSwitch, ⟨["--out"], .value []⟩, ⟨["--strict"], .flag⟩]
      hasCommand := false }
  | t =>
    { program := "ysk " ++ t.name
      usage := plainUsage t
      help := plainHelp t
      switches := [helpSwitch]
      hasCommand := false }

/-- What a command line asks for: a task, if there is one, with the options in front of it and
behind it. -/
structure Request where
  task : Option Task
  general : Arguments
  special : Arguments

/-- The words that no parser recognised are an error of the main one. -/
def checkExtras (r : Request) : Except Halt Request :=
  match r.general.extras ++ r.special.extras with
  | [] => .ok r
  | ws => .error (mainGrammar.misuse ("unrecognized arguments: " ++ " ".intercalate ws))

def parseRequest (argv : List String) : Except Halt Request := do
  let general ← mainGrammar.parse argv
  match general.handed with
  | [] => checkExtras ⟨none, general, .none⟩
  | w :: args =>
    match Task.ofWord? w with
    | none => throw (mainGrammar.misuse
        ("argument command: " ++ Grammar.choiceMessage w Task.words))
    | some t => checkExtras ⟨some t, general, ← t.grammar.parse args⟩

end Scriptwright.Command
