import Scriptwright.Document.Generate
import Scriptwright.Error
import Scriptwright.Loader
import Scriptwright.Log
import Scriptwright.Schema.Check
import Scriptwright.Schema.Nodes
import Scriptwright.Schema.Standard
import Scriptwright.Source.Tidy

/-!
# Compiling one document

A document is checked against the schema, written out as source text, and tidied. A strict
compilation refuses a document that has nodes without an emission rule.
-/

namespace Scriptwright

open Script

structure Logged (α : Type) where
  outcome : Except Failure α
  log : List Log.Line

namespace Logged

def pure {α : Type} (a : α) : Logged α := ⟨.ok a, []⟩

def fail {α : Type} (f : Failure) : Logged α := ⟨.error f, []⟩

def bind {α β : Type} (x : Logged α) (f : α → Logged β) : Logged β :=
  match x.outcome with
  | .ok a => ⟨(f a).outcome, x.log ++ (f a).log⟩
  | .error e => ⟨.error e, x.log⟩

def ofExcept {α : Type} (x : Except Failure α) : Logged α := ⟨x, []⟩

def locate {α : Type} (source : Option String) (x : Logged α) : Logged α :=
  { x with
    outcome := x.outcome.mapError fun
      | .error e => .error (e.locate source)
      | f => f }

end Logged

structure Schema.Setup where
  schema : Value := Schema.documentSchema
  definitions : Value := Schema.nodeDefinitions

structure Compiled where
  code : String
  diagnostics : List Diagnostic
  source : Option String

namespace Compiled

def ok (c : Compiled) : Bool := c.diagnostics.isEmpty

def strictHint : String := "Remove or correct the unsupported nodes, or build without --strict"

def violation (c : Compiled) : Error :=
  let place := (Error.inked c.source).map (" in " ++ ·)
  .of (.strict c.diagnostics) (toString c.diagnostics.length ++ " unhandled node kind(s)" ++
    String.join place) c.source
    (some strictHint)

/-- A compilation as it is, or refused if it is strict and has diagnostics. -/
def verdict (strict : Bool) (c : Compiled) : Except Failure Compiled :=
  if strict && !c.ok then .error (.error c.violation) else .ok c

end Compiled

/-! ## Reading documents -/

variable [Loader]

/-- A text as a value; `subject` starts the message about a malformed one. -/
def readValue (wrong : String → Error) (subject text : String) : Except Failure Value :=
  match Loader.load text with
  | .ok v => .ok v
  | .error (.malformed detail) => .error (.error (wrong (subject ++ ": " ++ detail)))
  | .error (.fault f) => .error (.fault f)

def asMapping (source : Option String) (v : Value) : Except Failure Value :=
  if v.isMap then .ok v
  else .error (.error { Error.typeMismatch Schema.rootPath "object" (Schema.describe v) with
    path := source })

/-- The document that a text holds. An empty text is a document without fields. -/
def readDocument (source : Option String) (text : String) : Except Failure Value := do
  match ← readValue (fun m => .parse m source) "Invalid YAML" text with
  | .null => return .map []
  | v => asMapping source v

def readSchema (source : String) (text : String) : Except Failure Value := do
  let v ← readValue (fun m => .parse m (some source)) "Invalid schema file" text
  asMapping (some source) v

/-! ## Compiling -/

def checkDocument (setup : Schema.Setup) (document : Value) : Logged Unit :=
  let v := Schema.check setup.definitions setup.schema document
  ⟨v.outcome, v.log.map fun m => ⟨.debug, .checker, m⟩⟩

def noteLine : Note → Log.Line
  | .unhandled d => ⟨.warning, .diagnostics, d.text⟩
  | .warning t => ⟨.warning, .document, t⟩

/-- Source text for some code at the outermost level, with the journal of its emission. -/
def emitCode (layout : Layout) (source : Option String) (code : Code) :
    Except Fault String × Journal :=
  code.emit layout 0 (.empty source)

def emitDocument (layout : Layout) (source : Option String) (document : Value) : Logged Compiled :=
  let (text, journal) := emitCode layout source (Document.code document)
  ⟨(text.mapError Failure.fault).map fun t => ⟨t, journal.diagnostics, source⟩,
    journal.notes.map noteLine⟩

def compileDocument (options : Options) (setup : Schema.Setup) (tidying : Source.TidyOptions)
    (source : Option String) (document : Value) : Logged Compiled :=
  (checkDocument setup document).bind fun _ =>
    (emitDocument options.layout source document).bind fun c =>
      .ofExcept (Compiled.verdict options.strict { c with code := Source.tidy tidying c.code })

/-- The document in a text as source text. Errors name the source. -/
def compileText (options : Options) (setup : Schema.Setup) (tidying : Source.TidyOptions)
    (source : Option String) (text : String) : Logged Compiled :=
  (Logged.ofExcept (readDocument source text)).bind fun document =>
    (compileDocument options setup tidying source document).locate source

def violationLine (source : Option String) (e : Error) : Log.Line :=
  let place := match Error.inked source with
    | s :: _ => s
    | [] => Schema.rootPath
  ⟨.error, .checker, "Validation failed for " ++ place ++ ": " ++ e.message⟩

def Cause.isViolation : Cause → Bool
  | .missingField _ | .typeMismatch _ _ _ => true
  | _ => false

def readChecked (setup : Schema.Setup) (source : Option String) (text : String) : Logged Value :=
  (Logged.ofExcept (readDocument source text)).bind fun document =>
    let c := checkDocument setup document
    match c.outcome with
    | .ok _ => ⟨.ok document, c.log⟩
    | .error (.error e) =>
      if e.cause.isViolation then ⟨.error (.error (e.locate source)),
        c.log ++ [violationLine source e]⟩
      else ⟨.error (.error e), c.log⟩
    | .error f => ⟨.error f, c.log⟩

end Scriptwright
