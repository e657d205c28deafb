import Scriptwright.Project.Path
import Scriptwright.Report.Table
import Scriptwright.Script.Journal

/-!
# The report of a build

One table of the files that were compiled and copied, and one of the nodes that could not be written
out.
-/

namespace Scriptwright.Report

open Project Script

def shownPath (root : Option Path) (p : Path) : String := ((root.bind p.relativeTo?).getD p).text

def fileRows (root : Option Path) (action : String) (files : List (Path × Path)) :
    List (List String) :=
  files.map fun f => [action, shownPath root f.1, shownPath root f.2]

def summary (root : Option Path) (compiled copied : List (Path × Path)) : Table where
  title := "Build Summary (" ++ toString compiled.length ++ " compiled, " ++
    toString copied.length ++ " copied)"
  headings := ["Action", "Source", "Output"]
  rows := fileRows root "compiled" compiled ++ fileRows root "copied" copied

def diagnosticRow (d : Diagnostic) : List String :=
  let source := match d.source with
    | some s => if s == "" then "-" else s
    | none => "-"
  [source, d.category, d.kind.display]

def diagnosticTable (diagnostics : List Diagnostic) : Table where
  title := "Unhandled Node Kinds"
  headings := ["Document", "Category", "Kind"]
  rows := diagnostics.map diagnosticRow

/-- What is printed, and what stopped the printing. -/
structure Printed where
  text : String
  fault : Option Fault

namespace Printed

def ofText (s : String) : Printed := ⟨s, none⟩

def ofTable (t : Table) : Printed :=
  match t.text with
  | .ok s => ⟨s, none⟩
  | .error f => ⟨"", some f⟩

def andThen (p q : Printed) : Printed :=
  match p.fault with
  | none => ⟨p.text ++ q.text, q.fault⟩
  | some f => ⟨p.text, some f⟩

end Printed

def buildTables (root : Option Path) (compiled copied : List (Path × Path))
    (diagnostics : List Diagnostic) : Printed :=
  if compiled.isEmpty && copied.isEmpty then .ofText "Nothing to build.\n"
  else
    (Printed.ofTable (summary root compiled copied)).andThen
      (if diagnostics.isEmpty then .ofText "" else .ofTable (diagnosticTable diagnostics))

end Scriptwright.Report
