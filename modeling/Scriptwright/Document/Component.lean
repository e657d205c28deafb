import Scriptwright.Document.Node

/-!
# Components

A function component is a function of its properties: its hooks, its inner functions and its markup.
A class component holds its state in a constructor and its markup in a method; hooks have no place
in it.
-/

namespace Scriptwright.Document

open Script

/-! ## Hooks -/

def effectHooks : List String := ["useEffect", "useLayoutEffect", "useInsertionEffect"]

def memoHooks : List String := ["useMemo", "useCallback"]

def namedIn (names : List String) (v : Value) : Bool :=
  match v with
  | .string s => names.contains s
  | _ => false

/-- The first argument of a hook: a function with its body, or the initial value. -/
def hookArgument (name : Value) (hook : Fields) : Except Fault (List Value) :=
  if namedIn (effectHooks ++ memoHooks) name ||
      (!(Fields.get hook "body").isNull && !Fields.has hook "initial") then
    (Fields.get hook "body").elementsOrNone.map fun body =>
      [node "arrowFunctionExpression" [("params", .list []), ("body", .list body)]]
  else
    match Fields.get? hook "initial" with
    | some v => (literal v).map fun text => [.string text]
    | none => .ok []

def hookDependencies (hook : Fields) : Except Fault (List Value) :=
  match Fields.get hook "dependencies" with
  | .null => .ok []
  | v => v.elements.map fun vs => [node "arrayExpression" [("elements", .list vs)]]

/-- A hook is a call, bound to its parameters if it has any and is not an effect. -/
def hookNode (spec : Value) : Except Fault Value := do
  let name ← require spec "name"
  let hook ← spec.fields
  let params ← (Fields.get hook "params").elementsOrNone
  if !name.findable then throw .unhashable
  let first ← hookArgument name hook
  let last ← hookDependencies hook
  let call :=
    node "callExpression" [("callee", identifierNode name), ("arguments", .list (first ++ last))]
  if namedIn effectHooks name then return expressionNode call
  match params with
  | [] => return expressionNode call
  | [p] =>
    if name.isKey "useState" then
      return declarationNode "const"
        (node "arrayPattern" [("elements", .list [identifierNode p])]) call
    else return declarationNode "const" (identifierNode p) call
  | ps =>
    return declarationNode "const"
      (node "arrayPattern" [("elements", .list (ps.map identifierNode))]) call

/-! ## Markup -/

/-- Whether markup is a single element. A mapping is asked for its entry under the number zero, a
set cannot be asked for its first member. -/
def isSingleElement (markup : Value) : Except Fault Bool :=
  match markup.head with
  | .list [v] => .ok v.isMap
  | .list _ => .ok false
  | .string _ => .ok false
  | .bytes _ => .ok false
  | .map [e] => if e.1.sameKey (.int 0) then .ok e.2.isMap else .error .missingKey
  | .map _ => .ok false
  | .pair _ _ => .ok false
  | .set [_] => .error .notIndexable
  | .set _ => .ok false
  | _ => .error .notIterable

/-- The statement that returns markup. Anything but a single element is put in an element without a
name. -/
def returnCode (markup : Value) : Code :=
  if markup.truthy then
    match isSingleElement markup with
    | .error f => .stop f
    | .ok single =>
      .together
        [.line [.text "return ("], .deeper (if single then forestCode markup
          else fragmentCode markup), .line [.text ");"]]
  else .line [.text "return null;"]

/-! ## The two forms -/

def bothLists (component : Fields) (first second : String) : Except Fault (List Value) := do
  let a ← (Fields.get component first).elementsOrNone
  let b ← (Fields.get component second).elementsOrNone
  return a ++ b

def functionComponent (name : Value) (component : Fields) : Code :=
  .together
    [.text ("export function " ++ name.display ++ "(props) \x7b\n"),
      .deeper (.together
        [sectionCode do collect hookNode (← (Fields.get component "hooks").elementsOrNone),
          sectionCode do collect functionOf (← bothLists component "functions" "methods"),
          returnCode (Fields.get component "jsx")]),
      .spelling name (.text "\x7d\n")]

def methodLines (method : Except Fault Value) : Code :=
  .ofExcept (method.map fun m => .line [nodeCode true .expression m])

def stateLines (state : Value) : Code :=
  match state with
  | .null => .nothing
  | v => methodLines do
      let text ← literal v
      methodNode (.string "constructor") (.list [.string "props"])
        (.list [expressionNode (.string "super(props)"),
          expressionNode (.string ("this.state = " ++ text))]) []

def classComponent (name : Value) (component : Fields) : Code :=
  .together
    [if (Fields.get component "hooks").truthy && name.writable then
        .warn ("Hooks are not supported in class component " ++ name.display ++ "; skipping them")
      else .nothing,
      .text ("export class " ++ name.display ++ " extends React.Component \x7b\n"),
      .deeper (.together
        [stateLines (Fields.get component "state"),
          .ofExcept ((bothLists component "methods" "functions").map fun specs =>
            .together (specs.map fun s => methodLines (methodOf s))),
          .line [.text "render() \x7b"],
          .deeper (returnCode (Fields.get component "jsx")),
          .line [.text "\x7d"]]),
      .spelling name (.text "\x7d\n")]

def componentCode (v : Value) : Code :=
  match v.head with
  | .map component =>
    let kind := Fields.get component "type"
    if kind.isKey "function" || kind.isKey "class" then
      match Fields.get? component "name" with
      | none => .stop .missingKey
      | some name => if kind.isKey "function" then functionComponent name component
          else classComponent name component
    else .spelling kind (.report "component" kind)
  | _ => .stop .notRecord

def componentsCode (document : Fields) : Code :=
  .ofExcept ((Fields.get document "components").elementsOrNone.map fun cs =>
    .shaped (.inked "\n") (cs.map componentCode))

end Scriptwright.Document
