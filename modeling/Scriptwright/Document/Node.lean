import Scriptwright.Script.Markup

/-!
# Nodes of a document

The sections of a document are turned into statement nodes, which are then written like any other.
These are the nodes they are built from, and the ways a section's parts are taken from it.
-/

namespace Scriptwright.Document

open Script

/-! ## Taking parts -/

def require (v : Value) (name : String) : Except Fault Value :=
  match v.head with
  | .map es =>
    match Fields.get? es name with
    | some w => .ok w
    | none => .error .missingKey
  | .knot _ _ _ => .error .endless
  | _ => .error .notIndexable

/-- A field of something that has to be a mapping, null when it is not there. -/
def ask (v : Value) (name : String) : Except Fault Value :=
  v.fields.map fun es => Fields.get es name

/-- Applies a function to all elements, up to the first fault. -/
def collect {α : Type} (f : Value → Except Fault α) : List Value → Except Fault (List α)
  | [] => .ok []
  | v :: vs =>
    match f v with
    | .error e => .error e
    | .ok a =>
      match collect f vs with
      | .error e => .error e
      | .ok as => .ok (a :: as)

/-! ## Nodes -/

def node (kind : String) (fields : List (String × Value)) : Value :=
  .record (("type", .string kind) :: fields)

def identifierNode (name : Value) : Value := node "identifier" [("name", name)]

/-- Parameters given as texts are names. -/
def parameterNode : Value → Value
  | .string s => identifierNode (.string s)
  | v => v

def parameters (v : Value) : Except Fault (List Value) := v.elementsOrNone.map (·.map parameterNode)

def importNode (specifiers : List Value) (source : Value) : Value :=
  node "importDeclaration" [("specifiers", .list specifiers),
    ("source", Value.record [("value", source)])]

def functionNode (name params body isAsync : Value) : Except Fault Value := do
  let ps ← parameters params
  let statements ← body.elementsOrNone
  return node "functionDeclaration"
    [("id", identifierNode name), ("params", .list ps), ("body", .list statements),
      ("async", .bool isAsync.truthy)]

def methodNode (name params body : Value) (flags : List (String × Value)) : Except Fault Value := do
  let ps ← parameters params
  let statements ← body.elementsOrNone
  let kind := if name.isKey "constructor" then "constructor" else "method"
  return node "classMethod"
    ([("kind", .string kind), ("key", identifierNode name), ("params", .list ps),
      ("body", .list statements)] ++
      flags.filter fun f => f.2.truthy)

def expressionNode (expression : Value) : Value :=
  node "expressionStatement" [("expression", expression)]

def declarationNode (kind : String) (target init : Value) : Value :=
  node "variableDeclaration"
    [("kind", .string kind), ("declarations",
      .list [Value.record [("id", target), ("init", init)]])]

def functionOf (spec : Value) : Except Fault Value := do
  let name ← require spec "name"
  functionNode name (← ask spec "parameters") (← ask spec "body") (← ask spec "async")

def methodOf (spec : Value) : Except Fault Value := do
  let name ← require spec "name"
  methodNode name (← ask spec "parameters") (← ask spec "body")
    [("async", ← ask spec "async"), ("static", ← ask spec "static")]

/-! ## Code -/

def statementsCode (nodes : List Value) : Code := .together (nodes.map (nodeCode true .statement))

/-- All nodes are built before the first is written. -/
def sectionCode (nodes : Except Fault (List Value)) : Code := .ofExcept (nodes.map statementsCode)

end Scriptwright.Document
