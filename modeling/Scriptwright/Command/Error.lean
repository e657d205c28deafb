import Scriptwright.Error

/-!
# Errors of commands

What a command reports when it cannot go on: a message with a code, perhaps a hint, and what it
knows about the circumstances.
-/

namespace Scriptwright.Command

inductive Kind where
  | general
  | config
  | validation
  | runtime
  | build
  | install
deriving DecidableEq, Repr

namespace Kind

def all : List Kind := [.general, .config, .validation, .runtime, .build, .install]

def name : Kind → String
  | .general => "CLIError"
  | .config => "CLIConfigError"
  | .validation => "CLIValidationError"
  | .runtime => "CLIRuntimeError"
  | .build => "CLIBuildError"
  | .install => "CLIInstallError"

/-- The code of an error that is given no other; a general error has to be given one. -/
def code? : Kind → Option String
  | .general => none
  | .config => some "CLI_CONFIG_ERROR"
  | .validation => some "CLI_VALIDATION_ERROR"
  | .runtime => some "CLI_RUNTIME_ERROR"
  | .build => some "CLI_BUILD_ERROR"
  | .install => some "CLI_INSTALL_ERROR"

end Kind

structure Error where
  kind : Kind
  message : String
  code : String
  hint : Option String
  context : Fields

inductive Problem where
  | command (e : Error)
  | failure (f : Failure)

namespace Problem

def name : Problem → String
  | .command e => e.kind.name
  | .failure f => f.name

def message : Problem → String
  | .command e => e.message
  | .failure (.error e) => e.message
  | .failure (.system e) => e.text
  | .failure (.fault f) => f.message?.getD ""
  | .failure .notText => ""

def hint? : Problem → Option String
  | .command e => e.hint
  | .failure (.error e) => e.hint
  | .failure _ => none

def contextLines (context : Fields) : List String :=
  if context.isEmpty then []
  else "\nContext:" :: context.map fun e => "  " ++ e.1.display ++ ": " ++ e.2.display

def text (verbose : Bool) : Problem → String
  | .command e =>
    "\n".intercalate (["Error [" ++ e.code ++ "]: " ++ e.message] ++
      (Scriptwright.Error.inked e.hint).map ("Hint: " ++ ·) ++ if verbose then
        contextLines e.context else [])
  | .failure (.error e) => "Error: " ++ e.text
  | .failure f => "Error: " ++ f.name

def circumstances (p : Problem) (context : Fields) : Fields :=
  Fields.insert (Fields.insert context (.string "original_exception") (.string p.message))
    (.string "original_type") (.string p.name)

end Problem

namespace Error

/-- An error of some kind; without a code of its own or of its kind there is none. -/
def of? (kind : Kind) (message : String) (code hint : Option String) (context : Fields) :
    Option Error :=
  (code.or kind.code?).map fun c => ⟨kind, message, c, hint, context⟩

def of (kind : Kind) (message : String) (hint : Option String) (context : Fields) : Error :=
  ⟨kind, message, kind.code?.getD "", hint, context⟩

def hintFor (p : Problem) (hint : Option String) : Option String :=
  hint.or (Scriptwright.Error.inked p.hint?).head?

def wrap (p : Problem) (kind : Kind) (message : String) (hint : Option String) (context : Fields) :
    Error :=
  of kind message (hintFor p hint) (p.circumstances context)

end Error

end Scriptwright.Command
