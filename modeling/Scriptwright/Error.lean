import Scriptwright.Script.Journal

/-!
# Errors

What is wrong with a document, a schema or a project, in words for the person who wrote it. An error
has a message, may name the file it is about, and carries a code and a hint.
-/

namespace Scriptwright

open Script

inductive Cause where
  | general
  | parse
  | schema (fieldPath : String)
  | missingField (fieldPath : String)
  | typeMismatch (fieldPath expected actual : String)
  | unknownType (schemaType : String)
  | config
  | entryNotFound
  | strict (diagnostics : List Diagnostic)

namespace Cause

def name : Cause → String
  | .general => "YSKError"
  | .parse => "ParseFailure"
  | .schema _ => "SchemaValidationError"
  | .missingField _ => "MissingRequiredField"
  | .typeMismatch _ _ _ => "TypeMismatch"
  | .unknownType _ => "UnknownSchemaType"
  | .config => "ConfigError"
  | .entryNotFound => "EntryNotFoundError"
  | .strict _ => "StrictModeViolation"

def code? : Cause → Option String
  | .general => none
  | .parse => some "YSK_PARSE"
  | .schema _ | .missingField _ | .typeMismatch _ _ _ => some "YSK_SCHEMA"
  | .unknownType _ => some "YSK_SCHEMA_DEFINITION"
  | .config => some "YSK_CONFIG"
  | .entryNotFound => some "YSK_ENTRY_NOT_FOUND"
  | .strict _ => some "YSK_STRICT"

end Cause

structure Error where
  cause : Cause
  message : String
  path : Option String
  code : Option String
  hint : Option String

namespace Error

def of (cause : Cause) (message : String) (path : Option String) (hint : Option String) : Error :=
  ⟨cause, message, path, cause.code?, hint⟩

def parse (message : String) (path : Option String) : Error := of .parse message path none

def missingField (fieldPath : String) : Error :=
  of (.missingField fieldPath) ("Missing required field: " ++ fieldPath) none none

def typeMismatch (fieldPath expected actual : String) : Error :=
  of (.typeMismatch fieldPath expected actual)
    ("Type mismatch for key \"" ++ fieldPath ++ "\". Expected: " ++ expected ++ ", Actual: " ++
      actual) none none

def unknownTypeHint : String := "The schema and validator versions do not match"

def unknownType (schemaType : String) : Error :=
  of (.unknownType schemaType) ("Unknown schema type: " ++ schemaType) none (some unknownTypeHint)

def config (message : String) (path : Option String) : Error := of .config message path none

def inked (s : Option String) : List String := s.toList.filter (· != "")

/-- The whole error on one line: message, place and code in parentheses, hint. -/
def text (e : Error) : String :=
  let place := inked e.path ++ inked e.code
  let message := if place.isEmpty then e.message
    else e.message ++ " (" ++ "; ".intercalate place ++ ")"
  " ".intercalate ([message].filter (· != "") ++ (inked e.hint).map ("Hint: " ++ ·))

/-- Names the file an error is about, unless it names one already. -/
def locate (source : Option String) (e : Error) : Error :=
  match inked source, inked e.path with
  | s :: _, [] => { e with path := some s }
  | _, _ => e

end Error

inductive SystemError where
  | noSuchFile (path : String)
  | isDirectory (path : String)
  | notDirectory (path : String)
  | fileExists (path : String)
  | sameFile (path other : String)
  | other (name text : String)

namespace SystemError

def name : SystemError → String
  | .noSuchFile _ => "FileNotFoundError"
  | .isDirectory _ => "IsADirectoryError"
  | .notDirectory _ => "NotADirectoryError"
  | .fileExists _ => "FileExistsError"
  | .sameFile _ _ => "SameFileError"
  | .other name _ => name

def text : SystemError → String
  | .noSuchFile p => "[Errno 2] No such file or directory: " ++ Text.shown p
  | .isDirectory p => "[Errno 21] Is a directory: " ++ Text.shown p
  | .notDirectory p => "[Errno 20] Not a directory: " ++ Text.shown p
  | .fileExists p => "[Errno 17] File exists: " ++ Text.shown p
  | .sameFile p q => "PosixPath(" ++ Text.shown p ++ ") and PosixPath(" ++ Text.shown q ++
      ") are the same file"
  | .other _ text => text

end SystemError

inductive Failure where
  | error (e : Error)
  | fault (f : Fault)
  | system (e : SystemError)
  | notText

def Failure.name : Failure → String
  | .error e => e.cause.name
  | .fault f => f.kind
  | .system e => e.name
  | .notText => "UnicodeDecodeError"

end Scriptwright
