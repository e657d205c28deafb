import Scriptwright.Document.Component
import Scriptwright.Document.Declaration
import Scriptwright.Document.Flow
import Scriptwright.Document.Import

/-!
# Whole documents

A document is written section by section in a fixed order, imports first and components last, with
one blank line between sections. Sections without text leave nothing.
-/

namespace Scriptwright.Document

open Script

inductive Section where
  | imports
  | bindings
  | classes
  | functions
  | conditions
  | loops
  | exceptions
  | components
deriving DecidableEq, Repr

namespace Section

/-- The sections in the order in which they are written. -/
def all : List Section :=
  [.imports, .bindings, .classes, .functions, .conditions, .loops, .exceptions, .components]

def name : Section → String
  | .imports => "imports"
  | .bindings => "bindings"
  | .classes => "classes"
  | .functions => "functions"
  | .conditions => "conditions"
  | .loops => "loops"
  | .exceptions => "exceptions"
  | .components => "components"

def ofName? (name : String) : Option Section := all.find? fun s => s.name == name

def code : Section → Fields → Code
  | .imports => importsCode
  | .bindings => bindingsCode
  | .classes => classesCode
  | .functions => functionsCode
  | .conditions => conditionsCode
  | .loops => loopsCode
  | .exceptions => exceptionsCode
  | .components => componentsCode

end Section

def sectionOf (s : Section) (document : Value) : Code :=
  .ofExcept (document.fields.map s.code)

def code (document : Value) : Code :=
  .ofExcept (document.fields.map fun es =>
    .shaped (.inked "\n") (Section.all.map fun s => s.code es))

end Scriptwright.Document
