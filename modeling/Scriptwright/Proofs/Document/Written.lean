import Scriptwright.Proofs.Document.Decomposition
import Scriptwright.Proofs.Document.Nodes
import Scriptwright.Proofs.Script.Emission
import Scriptwright.Proofs.Script.Names

/-!
# What nodes are written as

The text of a node from the texts of its parts, one equation for each kind of node. Emission that
only gives a text is `Emission.pure` of it, so that the text of a whole tree is found by rewriting
from its leaves upwards.
-/

namespace Scriptwright

namespace Document

open Script

variable {layout : Layout} {level : Int}

theorem emit_node {m : Mode} {kind : String} {fields : List (String × Value)} {rule : Rule}
    (h : m.rules.lookup kind = some rule) :
    (nodeCode true m (node kind fields)).emit layout level =
      (Code.together (Piece.writtenAll true m rule
        (Fields.ofTexts (("type", .string kind) :: fields)))).emit layout
        level := by
  rw [node, Value.record, nodeCode_map, Code.emit_deferred, selectRule_node h]

/-! ## Kinds of nodes -/

section Kinds

variable {v w : Value} {s t : String}

def templateNode (q : String) : Value :=
  node "templateLiteral" [("quasis", .list [.string q]), ("expressions", .list [])]

def textNode (t : String) : Value := node "jsxText" [("value", .string t)]

def containerNode (v : Value) : Value := node "jsxExpressionContainer" [("expression", v)]

def elementNode (tag : String) (children : List Value) : Value :=
  node "jsxElement" [("openingElement", node "jsxOpeningElement" [("name", .string tag)]),
    ("children", .list children)]

def returnNode (v : Value) : Value := node "returnStatement" [("argument", v)]

theorem emit_templateNode (q : String) :
    (nodeCode true .expression (templateNode q)).emit layout level =
      .pure ("\x60" ++ q ++ "\x60") := by
  have hquasis : (Value.list [.string q]).elementsOrNone = .ok [.string q] := rfl
  have hexpressions : (Value.list []).elementsOrNone = .ok [] := rfl
  have htext : templateText (.string q) = .string q := rfl
  rw [templateNode, emit_node rfl]
  simp [Piece.writtenAll, Piece.written, templateIn, hquasis, hexpressions, htext, weave,
    Code.emitAll_cons, String.append_assoc]

theorem emit_textNode (t : String) :
    (nodeCode true .expression (textNode t)).emit layout level = .pure t := by
  rw [textNode, emit_node rfl]
  change (Code.together [.text t]).emit layout level = _
  simp [Code.emitAll_cons]

theorem emit_containerNode {kind : String} (hv : v.tag? = some kind)
    (hkind : kind ≠ "jsxEmptyExpression")
    (h : (nodeCode true .expression v).emit layout level = .pure s) :
    (nodeCode true .expression (containerNode v)).emit layout level =
      .pure ("\x7b" ++ s ++ "\x7d") := by
  rw [containerNode, emit_node rfl]
  simp [Piece.writtenAll, Piece.written, Test.holds, expressionIn, hv, hkind, Code.emitAll_cons, h,
    String.append_assoc]

theorem emit_elementNode (tag : String)
    (hv : (nodeCode true .expression v).emit layout level = .pure s)
    (hw : (nodeCode true .expression w).emit layout level = .pure t) :
    (nodeCode true .expression (elementNode tag [v, w])).emit layout level =
      .pure ("<" ++ tag ++ ">" ++ s ++ t ++ "</" ++ tag ++ ">") := by
  let child (v : Value) : Code := .together [.text "", nodeCode true .expression v, .text ""]
  rw [elementNode, emit_node rfl]
  change (Code.together [.together [.shaped (.element false)
    [.together [nameCode true (.string tag)], .together [.separated "" []],
      .separated "" [child v, child w]]]]).emit
      layout level = _
  simp [child, Code.emit_shaped, Code.emitAll_cons, nameCode_string, hv, hw, Shape.apply,
    elementText, String.append_assoc]

theorem emit_returnNode (hv : v.isNull = false)
    (h : (nodeCode true .expression v).emit layout level = .pure s) :
    (nodeCode true .statement (returnNode v)).emit layout level =
      .pure (layout.margin level ++ "return " ++ s ++ ";\n") := by
  rw [returnNode, emit_node rfl]
  simp [Piece.writtenAll, Piece.written, Test.holds, lineOf, expressionIn, hv, Code.emitAll_cons, h,
    String.append_assoc]

theorem flagged_cons (flag b : Bool) (bs : List Bool) (t : String) (ts : List String) :
    flagged flag (b :: bs) (t :: ts) = if b = flag then t :: flagged flag bs ts
      else flagged flag bs ts := by
  rw [flagged, List.zip_cons_cons, List.filterMap_cons]
  by_cases hb : b = flag
  · simp [hb, flagged]
  · simp [hb, flagged]

theorem flagged_map_const (flag b : Bool) (ts : List String) :
    flagged flag (ts.map fun _ => b) ts = if b = flag then ts else [] := by
  induction ts with
  | nil => exact (ite_self []).symm
  | cons t ts ih =>
    rw [List.map_cons, flagged_cons, ih]
    by_cases hb : b = flag
    · rw [if_pos hb, if_pos hb, if_pos hb]
    · rw [if_neg hb, if_neg hb, if_neg hb]

/-- An import from the texts of what it binds. -/
theorem emit_importNode {vs : List Value} {ts : List String} (source : String)
    (h : Code.emitAll layout level (vs.map (nodeCode true .expression)) = .pure ts) :
    (nodeCode true .statement (importNode vs (.string source))).emit layout level =
      .pure (layout.margin level ++ "import " ++ clausesText (vs.map Visitor.isClause) ts ++
        layout.quoted source ++
        ";\n") := by
  have himport : (nodeCode true .expression (importNode vs (.string source))).emit layout level =
      .pure ("import " ++ (clausesText (vs.map Visitor.isClause) ts ++ layout.quoted source)) := by
    have hspecifiers : (Value.list vs).elementsOrNone = .ok vs := Value.elementsOrNone_of_head rfl
    rw [importNode, emit_node rfl]
    change (Code.together [.text "import ", specifiersIn true .expression (.list vs),
      .quoted source]).emit layout
      level = _
    rw [specifiersIn, hspecifiers]
    change (Code.together [.text "import ", .shaped (.clauses (vs.map Visitor.isClause))
      (vs.map (nodeCode true .expression)), .quoted source]).emit layout level = _
    simp [Code.emitAll_cons, Code.emit_shaped, h, Shape.apply]
  rw [importNode, emit_node rfl]
  change (Code.together [.together
    [.margin, nodeCode true .expression (importNode vs (.string source)), .text ";",
      .text "\n"]]).emit layout level = _
  simp [Code.emitAll_cons, himport, String.append_assoc]

def thunkNode (name : String) (v : Value) : Value :=
  node "functionDeclaration"
    [("id", identifierNode (.string name)), ("params", .list []), ("body", .list [v]),
      ("async", .bool false)]

theorem emit_thunkNode (name : String)
    (h : (nodeCode true .statement v).emit layout (level + 1) = .pure s) :
    (nodeCode true .statement (thunkNode name v)).emit layout level =
      .pure (layout.margin level ++ "function " ++ name ++ "() \x7b\n" ++ s ++
        layout.margin level ++ "\x7d\n") := by
  have hword : ∀ rest : String, "function" ++ (" " ++ rest) = "function " ++ rest := fun rest => by
    rw [← String.append_assoc]
    rfl
  have hbrace : ∀ rest : String, "(" ++ (") " ++ ("\x7b\n" ++ rest)) = "() \x7b\n" ++ rest :=
    fun rest => by
    rw [← String.append_assoc, ← String.append_assoc]
    rfl
  have hfunction : (nodeCode true .expression (thunkNode name v)).emit layout level =
      .pure ("function " ++ (name ++ ("() \x7b\n" ++ (s ++ (layout.margin level ++ "\x7d"))))) := by
    rw [thunkNode, emit_node rfl]
    change (Code.together [.together [.text "function"], .together [],
      .together [.text " ", .text name], .text "(", .separated ", " [], .text ") ",
      .together [.text "\x7b\n",
        .deeper (.together [.together [nodeCode true .statement v]]), .margin,
        .text "\x7d"]]).emit layout level = _
    simp [Code.emitAll_cons, h, String.append_assoc, hword, hbrace]
  rw [thunkNode, emit_node rfl]
  change (Code.together [.together [.margin, nodeCode true .expression (thunkNode name v),
    .text "\n"]]).emit layout
    level = _
  simp [Code.emitAll_cons, hfunction, String.append_assoc]

end Kinds

/-! ## Documents of functions -/

/-- Sections that a document does not have leave no text. -/
theorem emit_code_functions {fs nodes : List Value} {t : String}
    (hnodes : collect functionOf fs = .ok nodes)
    (hemit : (statementsCode nodes).emit layout level = .pure t) (ht : t ≠ "") :
    (code (.record [("functions", .list fs)])).emit layout level = .pure t := by
  have hfields : (Value.record [("functions", .list fs)]).fields =
      .ok (Fields.ofTexts [("functions", .list fs)]) := rfl
  have hfunctions : Section.functions.code (Fields.ofTexts [("functions", .list fs)]) =
      statementsCode nodes := by
    have hitems : (Value.list fs).elementsOrNone = .ok fs := Value.elementsOrNone_of_head rfl
    simp only [Section.code, functionsCode, get_ofTexts_self, hitems]
    change sectionCode (collect functionOf fs) = _
    rw [hnodes]
    rfl
  have hother : ∀ s, s ≠ Section.functions →
      (s.code (Fields.ofTexts [("functions", .list fs)])).emit layout level = .pure "" := by
    intro s hs
    cases s with
    | functions => exact absurd rfl hs
    | _ => rfl
  rw [code_of_fields hfields, Code.emit_shaped]
  simp [Section.all, Code.emitAll_cons, hfunctions, hemit, hother, Shape.apply, ht]

end Document

end Scriptwright
