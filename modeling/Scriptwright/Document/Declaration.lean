import Scriptwright.Document.Node

/-!
# Bindings, classes and functions

Variables, objects and arrays are bound to literals; classes and functions are declared.
-/

namespace Scriptwright.Document

open Script

/-! ## Bindings -/

def bindingNodes (kind : String) (v : Value) : Except Fault (List Value) :=
  if v.truthy then do
    (← v.fields).mapM fun e => do
      return declarationNode kind (identifierNode (.string (← e.1.written e.1.display)))
        (.string (← literal e.2))
  else .ok []

def bindingsCode (document : Fields) : Code :=
  sectionCode do
    let bindings ← bindingNodes "let" (Fields.get document "variables")
    let objects ← bindingNodes "const" (Fields.get document "objects")
    let arrays ← bindingNodes "const" (Fields.get document "arrays")
    return bindings ++ objects ++ arrays

/-! ## Classes -/

def constructorNodes (spec : Value) : Except Fault (List Value) :=
  if spec.truthy then do
    let params ← ask spec "parameters"
    let body ← ask spec "body"
    return [← methodNode (.string "constructor") params body []]
  else .ok []

def classNode (spec : Value) : Except Fault Value := do
  let first ← constructorNodes (← ask spec "constructor")
  let methods ← collect methodOf (← (← ask spec "methods").elementsOrNone)
  let name ← require spec "name"
  let base ← ask spec "extends"
  return node "classDeclaration"
    ([("id", identifierNode name), ("body", .list (first ++ methods))] ++
      if base.truthy then [("superClass", base)] else [])

def classesCode (document : Fields) : Code :=
  sectionCode do collect classNode (← (Fields.get document "classes").elementsOrNone)

/-! ## Functions -/

def functionsCode (document : Fields) : Code :=
  sectionCode do collect functionOf (← (Fields.get document "functions").elementsOrNone)

end Scriptwright.Document
