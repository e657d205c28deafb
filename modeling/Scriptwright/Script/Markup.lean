import Scriptwright.Script.Node

/-!
# Markup

Component markup as indented elements, one node to a line. Leaves and property values of the form
`{{expression}}` are written in braces.
-/

namespace Scriptwright.Script

def leafText (s : String) : String :=
  match dynamicExpression? s with
  | some e => "\x7b" ++ e ++ "\x7d"
  | none => s

def propsCode (props : Value) : Code :=
  if props.truthy then
    match props.head with
    | .map es => .together (es.map fun e =>
        .spelling e.1 (.ofExcept ((attributeText e.1.display e.2).map fun text =>
          .text (" " ++ text))))
    | _ => .stop .notRecord
  else .nothing

def markupCode (v : Value) : Code :=
  if v.exhausted then .stop .endless
  else
    match h : v.head with
    | .string s => .line [.text (leafText s)]
    | .int n => .line [.shown (.int n)]
    | .float x => .line [.text (x.text Value.shownSpecial)]
    | .map node =>
      .deferred fun _ =>
        match Fields.get node "type" with
        | .string tag =>
          if (Fields.get node "children").truthy then
            .together
              [.line [.text ("<" ++ tag), propsCode (Fields.get node "props"), .text ">"],
                .ofExcept ((@Visitor.each (2 * (Value.map node).depth) (Fields.get node "children")
                  (by have := Fields.depth_get_lt node "children"; omega)
                  fun w _ => markupCode w).map fun codes => .deeper (.together codes)),
                .line [.text ("</" ++ tag ++ ">")]]
          else .line [.text ("<" ++ tag), propsCode (Fields.get node "props"), .text " />"]
        | kind => unhandled "markup" kind
    | w => .report "markup" (.string w.kindName)
termination_by v.depth
decreasing_by
  have := v.depth_head_le
  rw [h] at this
  omega

def forestCode (nodes : Value) : Code :=
  .ofExcept (nodes.elementsOrNone.map fun vs => .together (vs.map markupCode))

/-- Sibling nodes in an element without a name. -/
def fragmentCode (nodes : Value) : Code :=
  .together [.line [.text "<>"], .deeper (forestCode nodes), .line [.text "</>"]]

end Scriptwright.Script
