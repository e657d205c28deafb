/-!
# Log lines

What is said while work goes on. A line has a level and the name of the part that says it.
-/

namespace Scriptwright.Log

inductive Level where
  | debug
  | info
  | warning
  | error
deriving DecidableEq, Repr

namespace Level

def name : Level → String
  | .debug => "DEBUG"
  | .info => "INFO"
  | .warning => "WARNING"
  | .error => "ERROR"

def rank : Level → Nat
  | .debug => 0
  | .info => 1
  | .warning => 2
  | .error => 3

end Level

inductive Speaker where
  | diagnostics
  | document
  | checker
  | compiler
  | manifest
  | installer
deriving DecidableEq, Repr

def Speaker.name : Speaker → String
  | .diagnostics => "yamlskript.codegen.diagnostics"
  | .document => "yamlskript.codegen.document"
  | .checker => "yamlskript.schema.validator"
  | .compiler => "yamlskript.compiler"
  | .manifest => "yamlskript.config"
  | .installer => "yamlskript.cli.commands.install"

structure Line where
  level : Level
  speaker : Speaker
  message : String
deriving DecidableEq, Repr

def atLeast (least : Level) (lines : List Line) : List Line :=
  lines.filter fun l => least.rank ≤ l.level.rank

end Scriptwright.Log
