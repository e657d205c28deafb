import Scriptwright.Value.Display

/-!
# The journal of an emission

Emission does not stop at a node it has no rule for: it notes the node's kind and carries on. The
journal holds these diagnostics and the warnings between them, in the order in which they arose.
-/

namespace Scriptwright.Script

/-- A node of a kind that has no emission rule. -/
structure Diagnostic where
  category : String
  kind : Value
  source : Option String

def Diagnostic.text (d : Diagnostic) : String :=
  "Unhandled " ++ d.category ++ " type: " ++ d.kind.display ++
    match d.source with
    | some s => if s == "" then "" else " in " ++ s
    | none => ""

inductive Note where
  | unhandled (diagnostic : Diagnostic)
  | warning (text : String)

def Note.text : Note → String
  | .unhandled d => d.text
  | .warning t => t

def Note.diagnostic? : Note → Option Diagnostic
  | .unhandled d => some d
  | .warning _ => none

structure Journal where
  source : Option String
  notes : List Note

namespace Journal

def empty (source : Option String) : Journal := ⟨source, []⟩

def add (j : Journal) (n : Note) : Journal := { j with notes := j.notes ++ [n] }

def report (j : Journal) (category : String) (kind : Value) : Journal :=
  j.add (.unhandled ⟨category, kind, j.source⟩)

def warn (j : Journal) (text : String) : Journal := j.add (.warning text)

def diagnostics (j : Journal) : List Diagnostic := j.notes.filterMap Note.diagnostic?

def texts (j : Journal) : List String := j.notes.map Note.text

end Journal

/-- Emission into a shared journal: a result or a fault, and the journal as it stands in either
case. -/
abbrev Emission (α : Type) := Journal → Except Fault α × Journal

namespace Emission

def pure {α : Type} (a : α) : Emission α := fun j => (.ok a, j)

def fail {α : Type} (f : Fault) : Emission α := fun j => (.error f, j)

def bind {α β : Type} (x : Emission α) (f : α → Emission β) : Emission β := fun j =>
  match x j with
  | (.ok a, j') => f a j'
  | (.error e, j') => (.error e, j')

def map {α β : Type} (f : α → β) (x : Emission α) : Emission β := x.bind fun a => pure (f a)

end Emission

end Scriptwright.Script
