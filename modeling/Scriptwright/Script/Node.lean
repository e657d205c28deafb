import Scriptwright.Script.Statement

/-!
# Nodes

The code of whole nodes: a node's tag selects its rule, and the rule's fields are nodes in turn. A
node whose tag has no rule is noted and leaves no text.
-/

namespace Scriptwright.Script

def Mode.rules : Mode → List (String × Rule)
  | .expression => expressionRules
  | .statement => statementRules

def Mode.category : Mode → String
  | .expression => "expression"
  | .statement => "statement"

def Mode.kinds (m : Mode) : List String := m.rules.map (·.1)

/-- A kind that is no text is noted by its display text. -/
def unhandled (category : String) (kind : Value) : Code :=
  .spelling kind (.report category (.string (match kind with
    | .string s => s
    | v => v.inner)))

/-- The code of a value that is no mapping: as an expression, texts and numbers stand for
themselves. -/
def atomCode : Mode → Value → Code
  | .expression, .null => .nothing
  | .expression, .string s => .text s
  | .expression, .bool b => .text (if b then "true" else "false")
  | .expression, .int n => .shown (.int n)
  | .expression, .float x => .text (x.text Value.encodedSpecial)
  | m, v => .report m.category (.string v.kindName)

def selectRule (m : Mode) (node : Fields) : Rule ⊕ Code :=
  let tag := Fields.get node "type"
  match tag with
  | .string t =>
    match m.rules.lookup t with
    | some rule => .inl rule
    | none => .inr (unhandled m.category tag)
  | _ => .inr (if tag.hashable then unhandled m.category tag else .stop .unhashable)

theorem two_mul_depth_le_weight (m : Mode) {v : Value} {node : Fields} (h : v.head = .map node) :
    2 * (Value.map node).depth ≤ weight m v := by
  have := v.depth_head_le
  rw [h] at this
  cases m <;> simp only [weight] <;> omega

/-- The code of a node. `linked` says whether statements and expressions can be written from each
other. -/
def nodeCode (linked : Bool) (m : Mode) (v : Value) : Code :=
  if v.exhausted then .stop .endless
  else
    match h : v.head with
    | .map node =>
      .deferred fun _ =>
        match selectRule m node with
        | .inl rule =>
          .together (Piece.codes ⟨m, linked, fun m' w _ => nodeCode linked m' w⟩ rule node
            (two_mul_depth_le_weight m h))
        | .inr code => code
    | w => atomCode m w
termination_by weight m v

def nameCode (linked : Bool) (v : Value) : Code :=
  match plainName? v with
  | some s => .shown s
  | none => nodeCode linked .expression v

def sequenceCode (linked : Bool) (v : Value) : Code :=
  .ofExcept (v.elementsOrNone.map fun vs => .together (vs.map (nodeCode linked .statement)))

def blockCode (linked : Bool) (body : Value) : Code :=
  let statements := body.statements
  if statements.isEmpty then .text "\x7b\x7d"
  else if linked then
    .together [.text "\x7b\n", .deeper (.together (statements.map (nodeCode linked .statement))),
      .margin, .text "\x7d"]
  else .stop noStatements

end Scriptwright.Script
