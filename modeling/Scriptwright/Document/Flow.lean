import Scriptwright.Document.Node

/-!
# Control flow

Conditions, loops and exceptions at the top level of a document.
-/

namespace Scriptwright.Document

open Script

/-! ## Conditions -/

/-- The statement of a condition, and whether its other branch is left out because it has no test.
-/
def conditionNode (spec : Value) : Except Fault (Value × Bool) := do
  let execute ← (← ask spec "execute").elementsOrNone
  let test ← ask spec "if"
  let otherwise ← ask spec "else"
  if test.isNull then return (node "blockStatement" [("body", .list execute)], otherwise.truthy)
  let branch ← if otherwise.truthy then
      (do return [("alternate", .list (← (← ask otherwise "execute").elementsOrNone))] :
        Except Fault (List (String × Value)))
    else .ok []
  return (node "ifStatement" ([("test", test), ("consequent", .list execute)] ++ branch), false)

def conditionNote (spec : Value) : Code :=
  match conditionNode spec with
  | .ok (_, true) => .warn "Condition without 'if' ignores its 'else' branch"
  | .ok (_, false) => .nothing
  | .error f => .stop f

def conditionsCode (document : Fields) : Code :=
  match (Fields.get document "conditions").elementsOrNone with
  | .error f => .stop f
  | .ok specs =>
    .together
      [.together (specs.map conditionNote),
        sectionCode (collect (fun s => (conditionNode s).map (·.1)) specs)]

/-! ## Loops -/

/-- The node of a loop that is given: its kind and, for each of the node's fields, the field of the
description. -/
def loopNodes (kind : String) (fields : List (String × String)) (spec : Value) :
    Except Fault (List Value) :=
  if spec.truthy then
    spec.fields.map fun es => [node kind (fields.map fun f => (f.1, Fields.get es f.2))]
  else .ok []

def loopsCode (document : Fields) : Code :=
  let loops := Fields.get document "loops"
  if loops.truthy then
    sectionCode do
      let es ← loops.fields
      let counted ← loopNodes "forStatement"
        [("init", "initializer"), ("test", "condition"), ("update", "increment"), ("body", "body")]
          (Fields.get es "for")
      let before ← loopNodes "whileStatement" [("test", "condition"), ("body", "body")]
        (Fields.get es "while")
      let after ← loopNodes "doWhileStatement" [("test", "condition"), ("body", "body")]
        (Fields.get es "doWhile")
      return counted ++ before ++ after
  else .nothing

/-! ## Exceptions -/

def tryNode (spec : Value) : Except Fault Value := do
  let body ← ask (← require spec "try") "body"
  let handler ← require spec "catch"
  let parameter ← ask handler "parameter"
  let handlerBody ← ask handler "body"
  return node "tryStatement"
    [("block", Value.record [("body", body)]),
      ("handler", Value.record [("param", parameter), ("body", handlerBody)])]

def exceptionsCode (document : Fields) : Code :=
  sectionCode do collect tryNode (← (Fields.get document "exceptions").elementsOrNone)

end Scriptwright.Document
