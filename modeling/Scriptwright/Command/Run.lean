import Scriptwright.Command.Install
import Scriptwright.Command.Usage
import Scriptwright.Project.Build
import Scriptwright.Report.Build
import Scriptwright.Yaml.Load

/-!
# Running commands

Carries out a command line on a file tree. The result is what goes to the two output streams and how
the run ends.
-/

namespace Scriptwright.Command

open Project

abbrev Environment := List (String × String)

namespace Environment

def flag (env : Environment) (name : String) : Bool :=
  match env.lookup name with
  | none => false
  | some v => ["1", "true", "yes", "on"].contains
      (String.ofList ((Text.trim v.toList).map Char.toLower))

def verbose (env : Environment) : Bool := env.flag "YSK_VERBOSE" || env.flag "YSK_DEBUG"

def reraises (env : Environment) : Bool := env.flag "YSK_RERAISE" || env.flag "YSK_DEBUG"

end Environment

inductive Ending where
  | exit (code : Nat)
  | raised (p : Problem)

structure Result where
  ending : Ending
  stdout : String
  stderr : String

/-! ## The log -/

def levelOf (word : String) : Log.Level :=
  match word with
  | "debug" => .debug
  | "info" => .info
  | "error" => .error
  | _ => .warning

def leastLevel (env : Environment) (general : Arguments) : Log.Level :=
  levelOf (((general.value? "--log-level").or (env.lookup "YSK_LOG_LEVEL")).getD "warn"
    |>.map Char.toLower)

def lineText (l : Log.Line) : String :=
  l.speaker.name ++ " - " ++ l.level.name ++ " - " ++ l.message ++ "\n"

def logText (least : Log.Level) (lines : List Log.Line) : String :=
  String.join ((Log.atLeast least lines).map lineText)

/-! ## Commands -/

/-- A command on its way: it changes the world, and has a result or a problem. -/
abbrev Attempt := ExceptT Problem (StateM World)

def success (message : String) : String := "✓ " ++ message ++ "\n"

def attempt {α : Type} (x : Work α) (problem : Failure → Problem) : Attempt α :=
  ExceptT.mk (do return (← x.run).mapError problem)

def manifestProblem : Failure → Problem
  | .error e =>
    match e.cause with
    | .config => .command (.wrap (.failure (.error e)) .config e.text none [])
    | _ => .failure (.error e)
  | f => .failure f

def buildContext (e : Scriptwright.Error) : Fields :=
  match e.cause with
  | .strict ds =>
      [(.string "diagnostics", .string ("; ".intercalate (ds.map Script.Diagnostic.text)))]
  | _ => []

def buildProblem : Failure → Problem
  | .error e => .command (.wrap (.failure (.error e)) .build e.text none (buildContext e))
  | .system e => .command (.wrap (.failure (.system e)) .build
      ("Cannot write build output: " ++ e.text) none [])
  | f => .failure f

def loadProject (root : Path) (needed : Bool) : Attempt Project := do
  let w ← get
  attempt (Work.ofLogged (Project.load w.tree root (manifestOf root) needed)) manifestProblem

/-- A text that is there and not empty. -/
def given (s : Option String) : Option String := s.filter (· != "")

def orProblem {α : Type} (x : Except Failure α) : Attempt α :=
  ExceptT.mk (pure (x.mapError .failure))

def redirected (project : Project) (root : Path) (out : Option String) : Except Failure Project :=
  match given out with
  | some s => (Project.place root s).map fun p => { project with output := p }
  | none => .ok project

def build (root : Path) (special : Arguments) : Attempt Report.Printed := do
  let project ← loadProject root true
  let project ← orProblem (redirected project root (special.value? "--out"))
  let strict := (special.value? "--strict").map fun _ => true
  let report ← attempt (Project.build project {} strict) buildProblem
  return (Report.buildTables (some root) report.compiled report.copied report.diagnostics).andThen
    (.ofText (if report.compiled.isEmpty then ""
      else success ("Build completed in " ++ project.output.text)))

def cannotRun (program : String) (e : SystemError) : Problem :=
  .command (.wrap (.failure (.system e)) .install ("Cannot run '" ++ program ++ "'")
    (some "Make sure the package manager is installed and on PATH") [])

def exitedWith (project : Project) (argv : List String) (code : Int) : Problem :=
  .command (.of .install ("'" ++ " ".intercalate argv ++ "' exited with status " ++
    toString code) none
    [(.string "cwd", .string project.root.text)])

def install (root : Path) : Attempt Report.Printed := do
  let project ← loadProject root false
  let argv ← ExceptT.mk (pure (installCommand project))
  attempt (Work.say .info .installer ("Running: " ++ " ".intercalate argv)) .failure
  match ← attempt (Work.start argv project.root) .failure with
  | .error e => throw (cannotRun (argv.headD "") e)
  | .ok (code, _) =>
    if code != 0 then throw (exitedWith project argv code)
    return .ofText (success ("Installed " ++ toString project.dependencies.length ++
      " dependencies"))

def rootOf (directory : Path) (general : Arguments) : Except Failure Path :=
  match given (general.value? "--project") with
  | some p => Project.place directory p
  | none => .ok (directory.resolve .here)

def perform (directory : Path) (general special : Arguments) : Task → Attempt Report.Printed
  | .build => do build (← orProblem (rootOf directory general)) special
  | .install => do install (← orProblem (rootOf directory general))
  | .help => return .ofText mainHelp

/-! ## Whole runs -/

/-- What a problem leaves behind, after some text has been printed. -/
def problemResult (env : Environment) (verbose : Bool) (printed log : String) (p : Problem) :
    Result :=
  if env.reraises then ⟨.raised p, printed, log⟩
  else
    let verbose := verbose || env.verbose
    ⟨.exit 1, printed, log ++ p.text verbose ++ (if verbose then "\n\nTraceback:" else "") ++ "\n"⟩

def haltResult : Halt → Result
  | .help text => ⟨.exit 0, text, ""⟩
  | .version => ⟨.exit 0, versionText ++ "\n", ""⟩
  | .misuse usage program message =>
      ⟨.exit 2, "", usage ++ "\n" ++ program ++ ": error: " ++ message ++ "\n"⟩

def run (env : Environment) (directory : Path) (argv : List String) (w : World) : Result × World :=
  match parseRequest argv with
  | .error h => (haltResult h, w)
  | .ok r =>
    match r.task with
    | none => (⟨.exit 1, mainHelp, ""⟩, w)
    | some t =>
      let (outcome, after) := (perform directory r.general r.special t).run w
      let log := logText (leastLevel env r.general) (after.log.drop w.log.length)
      let problem := problemResult env (r.general.value? "--verbose").isSome
      match outcome with
      | .ok ⟨text, none⟩ => (⟨.exit 0, text, log⟩, after)
      | .ok ⟨text, some f⟩ => (problem text log (.failure (.fault f)), after)
      | .error p => (problem "" log p, after)

end Scriptwright.Command
