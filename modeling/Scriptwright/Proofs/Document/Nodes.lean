import Scriptwright.Document.Generate
import Scriptwright.Proofs.Script.Returns

/-!
# Nodes that documents are turned into

The sections of a document are written as nodes with known fields. Each kind of such a node comes
with the condition under which it returns, in terms of the values that it is built from.
-/

namespace Scriptwright.Document

open Script

/-! ## Fields of a node -/

section Fields

variable {f g : String} {v : Value} {fields : List (String × Value)}

@[simp]
theorem get_ofTexts_nil : Fields.get (Fields.ofTexts []) f = .null := rfl

@[simp]
theorem get_ofTexts_self : Fields.get (Fields.ofTexts ((f, v) :: fields)) f = v := by
  simp [Fields.get, Fields.ofTexts, Fields.get?, Value.isKey]

@[simp]
theorem get_ofTexts_of_ne (h : f ≠ g) :
    Fields.get (Fields.ofTexts ((f, v) :: fields)) g = Fields.get (Fields.ofTexts fields) g := by
  simp [Fields.get, Fields.ofTexts, Fields.get?, Value.isKey, h]

theorem get_ofTexts_of_forall_ne (h : ∀ e ∈ fields, e.1 ≠ f) :
    Fields.get (Fields.ofTexts fields) f = .null := by
  induction fields with
  | nil => rfl
  | cons e fields ih =>
    obtain ⟨he, hrest⟩ := List.forall_mem_cons.mp h
    rw [get_ofTexts_of_ne he, ih hrest]

theorem truthy_map_of_get? {es : Fields} (h : Fields.get? es f = some v) :
    (Value.map es).truthy = true := by
  cases es with
  | nil => cases h
  | cons e es => rfl

end Fields

theorem head_record (fields : List (String × Value)) :
    (Value.record fields).head = .map (Fields.ofTexts fields) := rfl

@[simp]
theorem truthy_null : Value.null.truthy = false := rfl

@[simp]
theorem truthy_list_cons (v : Value) (vs : List Value) : (Value.list (v :: vs)).truthy = true := rfl

@[simp]
theorem truthy_record (f : String × Value) (fields : List (String × Value)) :
    (Value.record (f :: fields)).truthy = true := rfl

@[simp]
theorem yielded_list (vs : List Value) : (Value.list vs).yielded = vs :=
  Value.yielded_of_ok (Value.elementsOrNone_of_head rfl)

@[simp]
theorem yielded_null : Value.null.yielded = [] := rfl

@[simp]
theorem statements_list (vs : List Value) : (Value.list vs).statements = vs := rfl

/-! ## Uses of common parts -/

section Uses

variable {es : Fields} {f : String}

@[simp]
theorem uses_word (flag text : String) : (word flag text).uses es = [] := by
  rw [word, Piece.uses]
  split <;> rfl

@[simp]
theorem uses_braces :
    (braces f).uses es = (Fields.get es f).statements.map (Use.node .statement) := by
  rw [braces, Piece.uses]
  split
  · next hbodiless => rw [List.isEmpty_iff.mp hbodiless]; rfl
  · simp [Piece.usesAll, Piece.uses]

@[simp]
theorem plainName_identifierNode (name : Value) : plainName? (identifierNode name) = some name :=
  rfl

@[simp]
theorem succeeds_spelled_string (s : String) : (Use.spelled (.string s)).Succeeds := rfl

@[simp]
theorem succeeds_word_string (s : String) : (Use.word (.string s)).Succeeds := rfl

@[simp]
theorem succeeds_sequence_list (vs : List Value) : (Use.sequence (.list vs)).Succeeds := by
  rw [succeeds_sequence, Value.elementsOrNone_of_head rfl]
  rfl

@[simp]
theorem succeeds_sequence_null : (Use.sequence .null).Succeeds := rfl

end Uses

def AllSucceed (us : List Use) : Prop := ∀ u ∈ us, u.Succeeds

@[simp]
theorem allSucceed_nil : AllSucceed [] := List.forall_mem_nil _

@[simp]
theorem allSucceed_cons {u : Use} {us : List Use} :
    AllSucceed (u :: us) ↔ u.Succeeds ∧ AllSucceed us :=
  List.forall_mem_cons

@[simp]
theorem allSucceed_append {us vs : List Use} :
    AllSucceed (us ++ vs) ↔ AllSucceed us ∧ AllSucceed vs :=
  List.forall_mem_append

@[simp]
theorem allSucceed_nodes {m : Mode} {vs : List Value} :
    AllSucceed (vs.map (Use.node m)) ↔ ∀ v ∈ vs, (nodeCode true m v).Returns := List.forall_mem_map

theorem returns_string (s : String) : (nodeCode true .expression (.string s)).Returns := by
  rw [returns_nodeCode]
  exact ⟨rfl, List.forall_mem_nil _⟩

theorem returns_null : (nodeCode true .expression .null).Returns := by
  rw [returns_nodeCode]
  exact ⟨rfl, List.forall_mem_nil _⟩

@[simp]
theorem allSucceed_branch {c : Bool} {us : List Use} :
    AllSucceed (if c = true then us else []) ↔ (c = true → AllSucceed us) := by
  cases c with
  | false => simp
  | true => simp

@[simp]
theorem allSucceed_given {v : Value} :
    AllSucceed (if v.isNull = false then [Use.node .expression v] else []) ↔
      (nodeCode true .expression v).Returns := by
  cases v with
  | null => exact iff_of_true allSucceed_nil returns_null
  | _ => exact List.forall_mem_singleton

/-! ## Nodes -/

theorem selectRule_node {m : Mode} {kind : String} {fields : List (String × Value)} {rule : Rule}
    (h : m.rules.lookup kind = some rule) :
    selectRule m (Fields.ofTexts (("type", .string kind) :: fields)) = .inl rule := by
  have hkind : Fields.get (Fields.ofTexts (("type", .string kind) :: fields)) "type" =
      .string kind := rfl
  unfold selectRule
  simp only [hkind, h]

/-- A node returns if all uses of its rule come to a good end. -/
theorem returns_node {m : Mode} {kind : String} {fields : List (String × Value)} {rule : Rule}
    (h : m.rules.lookup kind = some rule) :
    (nodeCode true m (node kind fields)).Returns ↔
      AllSucceed (Piece.usesAll rule (Fields.ofTexts (("type", .string kind) :: fields))) := by
  rw [returns_nodeCode]
  simp only [node, Value.record, Role.uses, Value.head, selectRule_node h, List.forall_mem_cons]
  exact ⟨fun hall => hall.2.2, fun hall => ⟨rfl, rfl, hall⟩⟩

/-- Declarations are written as expressions. -/
theorem returns_declaration {kind : String} {fields : List (String × Value)}
    (h : kind ∈ ["functionDeclaration", "classDeclaration", "importDeclaration",
      "variableDeclaration"]) :
    (nodeCode true .statement (node kind fields)).Returns ↔
      (nodeCode true .expression (node kind fields)).Returns := by
  have hitself : ∀ rule, Mode.statement.rules.lookup kind = some rule →
      Piece.usesAll rule (Fields.ofTexts (("type", .string kind) :: fields)) =
        [Use.node .expression (node kind fields)] →
      ((nodeCode true .statement (node kind fields)).Returns ↔
        (nodeCode true .expression (node kind fields)).Returns) := by
    intro rule hrule huses
    rw [returns_node hrule, huses]
    exact List.forall_mem_singleton
  simp only [List.mem_cons, List.not_mem_nil, or_false] at h
  rcases h with rfl | rfl | rfl | rfl
  all_goals exact hitself _ rfl rfl

section Expressions

theorem returns_identifier (name : String) :
    (nodeCode true .expression (identifierNode (.string name))).Returns := by
  rw [identifierNode, returns_node rfl]
  exact List.forall_mem_singleton.mpr rfl

theorem returns_parameter (v : Value) :
    (nodeCode true .expression (parameterNode v)).Returns ↔
      (nodeCode true .expression v).Returns := by
  cases v with
  | string s => exact iff_of_true (returns_identifier _) (returns_string s)
  | _ => exact Iff.rfl

theorem returns_array {kind : String} (h : kind = "arrayExpression" ∨ kind = "arrayPattern")
    (vs : List Value) :
    (nodeCode true .expression (node kind [("elements", .list vs)])).Returns ↔
      ∀ v ∈ vs, (nodeCode true .expression v).Returns := by
  rcases h with rfl | rfl
  all_goals
    rw [returns_node rfl]
    simp [sequenceOf, listed, Piece.usesAll, Piece.uses]

theorem returns_call (name : String) (arguments : List Value) :
    (nodeCode true .expression (node "callExpression"
      [("callee", identifierNode (.string name)), ("arguments", .list arguments)])).Returns ↔
      ∀ v ∈ arguments, (nodeCode true .expression v).Returns := by
  have hcallee : (identifierNode (.string name)).tag? = some "identifier" := rfl
  rw [returns_node rfl]
  simp [call, callee, listed, Piece.usesAll, Piece.uses, Test.holds, hcallee, succeeds_node,
    returns_identifier]

theorem returns_arrow (body : List Value) :
    (nodeCode true .expression (node "arrowFunctionExpression"
      [("params", .list []), ("body", .list body)])).Returns ↔
        ∀ s ∈ body, (nodeCode true .statement s).Returns := by
  have hblock : (Value.list body).isBlock = true := rfl
  rw [returns_node rfl]
  simp [arrow, listed, Piece.usesAll, Piece.uses, Test.holds, hblock]

theorem returns_method (kind name : String) (params body : List Value)
    {flags : List (String × Value)}
    (hflags : Fields.get (Fields.ofTexts flags) "decorators" = .null) :
    (nodeCode true .expression (node "classMethod"
      ([("kind", .string kind), ("key", identifierNode (.string name)), ("params", .list params),
        ("body", .list body)] ++
        flags))).Returns ↔
      (∀ p ∈ params, (nodeCode true .expression p).Returns) ∧ ∀ s ∈ body,
        (nodeCode true .statement s).Returns := by
  rw [returns_node rfl]
  simp [method, listed, decorators, propertyKey, Piece.usesAll, Piece.uses, Test.holds, hflags]

theorem returns_specifier {kind : String} (name : String)
    (h : kind ∈ ["importDefaultSpecifier", "importNamespaceSpecifier", "importSpecifier"]) :
    (nodeCode true .expression (node kind [("local", identifierNode (.string name))])).Returns := by
  simp only [List.mem_cons, List.not_mem_nil, or_false] at h
  rcases h with rfl | rfl | rfl
  all_goals
    rw [returns_node rfl]
    simp [Piece.usesAll, Piece.uses, Test.holds, Value.isNull]

theorem returns_aliased (imported own : String) :
    (nodeCode true .expression (node "importSpecifier"
      [("imported", identifierNode (.string imported)),
        ("local", identifierNode (.string own))])).Returns := by
  rw [returns_node rfl]
  simp [Piece.usesAll, Piece.uses, Test.holds, show (identifierNode (.string imported)).isNull =
    false from rfl]

end Expressions

section Statements

theorem returns_function (name : String) (params body : List Value) (isAsync : Value) :
    (nodeCode true .statement (node "functionDeclaration"
      [("id", identifierNode (.string name)), ("params", .list params), ("body", .list body),
        ("async", isAsync)])).Returns ↔
      (∀ p ∈ params, (nodeCode true .expression p).Returns) ∧ ∀ s ∈ body,
        (nodeCode true .statement s).Returns := by
  rw [returns_declaration (by decide), returns_node rfl]
  simp [functionRule, listed, Piece.usesAll, Piece.uses, Test.holds]

theorem returns_import (specifiers : List Value) (source : String) :
    (nodeCode true .statement (importNode specifiers (.string source))).Returns ↔
      ∀ v ∈ specifiers, (nodeCode true .expression v).Returns := by
  have hsource : sourceText (.record [("value", .string source)]) = .string source := rfl
  rw [importNode, returns_declaration (by decide), returns_node rfl]
  simp [importRule, Piece.usesAll, Piece.uses, hsource]

theorem returns_expressionNode (v : Value) :
    (nodeCode true .statement (expressionNode v)).Returns ↔
      (nodeCode true .expression v).Returns := by
  rw [expressionNode, returns_node rfl]
  simp [lineOf, Piece.usesAll, Piece.uses, succeeds_node]

theorem returns_declarationNode (kind : String) {target : Value} (init : Value)
    (htarget : (nodeCode true .expression target).Returns)
    (htext : ∀ w, plainName? target = some w → w.writable = true) :
    (nodeCode true .statement (declarationNode kind target init)).Returns ↔
      (nodeCode true .expression init).Returns := by
  have hname : AllSucceed ((Piece.name "id").uses
      (Fields.ofTexts [("id", target), ("init", init)])) := by
    rw [Piece.uses, get_ofTexts_self]
    split
    · next w hw => exact List.forall_mem_singleton.mpr (htext w hw)
    · exact List.forall_mem_singleton.mpr htarget
  have hkind : (Use.spelled (Fields.getD
      (Fields.ofTexts [("type", .string "variableDeclaration"), ("kind", .string kind),
        ("declarations", .list [.record [("id", target), ("init", init)]])]) "kind"
        (.string "let"))).Succeeds := rfl
  rw [Piece.uses, get_ofTexts_self] at hname
  rw [declarationNode, returns_declaration (by decide), returns_node rfl]
  simp [declarator, Piece.usesAll, Piece.uses, Test.holds, head_record, hname, hkind]

theorem returns_class (name : String) (members : List Value) {v : Value}
    {base : List (String × Value)} (hbase : base = [("superClass", v)] ∨ base = [])
    (hv : (nodeCode true .expression v).Returns) :
    (nodeCode true .statement (node "classDeclaration"
      ([("id", identifierNode (.string name)), ("body", .list members)] ++ base))).Returns ↔
      ∀ n ∈ members, (nodeCode true .expression n).Returns := by
  rw [returns_declaration (by decide), returns_node rfl]
  rcases hbase with rfl | rfl
  · simp [classRule, decorators, Piece.usesAll, Piece.uses, Test.holds, succeeds_node, hv]
  · simp [classRule, decorators, Piece.usesAll, Piece.uses, Test.holds]

theorem returns_block (body : List Value) :
    (nodeCode true .statement (node "blockStatement" [("body", .list body)])).Returns ↔
      ∀ s ∈ body, (nodeCode true .statement s).Returns := by
  rw [returns_node rfl]
  simp [lineOf, Piece.usesAll, Piece.uses]

theorem returns_if {test : Value} {consequent alternate : List Value}
    {branch : List (String × Value)} (htest : (nodeCode true .expression test).Returns)
    (hbranch : branch = [("alternate", .list alternate)] ∨ branch = [] ∧ alternate = []) :
    (nodeCode true .statement (node "ifStatement"
      ([("test", test), ("consequent", .list consequent)] ++ branch))).Returns ↔
      (∀ s ∈ consequent, (nodeCode true .statement s).Returns) ∧
        ∀ s ∈ alternate, (nodeCode true .statement s).Returns := by
  have hconsequent : AllSucceed (if (Value.list consequent).truthy = true then
      .sequence (.list consequent) :: consequent.map (Use.node .statement) else []) ↔
      ∀ s ∈ consequent, (nodeCode true .statement s).Returns := by
    cases consequent with
    | nil => simp
    | cons s ss => simp [succeeds_node]
  rw [returns_node rfl]
  rcases hbranch with rfl | ⟨rfl, rfl⟩
  · simp [ifRule, lineOf, Piece.usesAll, Piece.uses, Test.holds, succeeds_node, htest, Value.isNull,
      -allSucceed_branch, hconsequent]
  · simp [ifRule, lineOf, Piece.usesAll, Piece.uses, Test.holds, succeeds_node, htest, Value.isNull,
      -allSucceed_branch, hconsequent]

theorem returns_for {init test update body : Value}
    (hinit : (nodeCode true .expression init).Returns)
    (htest : (nodeCode true .expression test).Returns)
    (hupdate : (nodeCode true .expression update).Returns) :
    (nodeCode true .statement (node "forStatement"
      [("init", init), ("test", test), ("update", update), ("body", body)])).Returns ↔
      ∀ s ∈ body.statements, (nodeCode true .statement s).Returns := by
  rw [returns_node rfl]
  simp [forRule, bracedBody, lineOf, Piece.usesAll, Piece.uses, succeeds_node, hinit,
    htest, hupdate]

theorem returns_while {kind : String} {test body : Value}
    (hkind : kind = "whileStatement" ∨ kind = "doWhileStatement")
    (htest : (nodeCode true .expression test).Returns) :
    (nodeCode true .statement (node kind [("test", test), ("body", body)])).Returns ↔
      ∀ s ∈ body.statements, (nodeCode true .statement s).Returns := by
  rcases hkind with rfl | rfl
  · rw [returns_node rfl]
    simp [bracedBody, lineOf, Piece.usesAll, Piece.uses, succeeds_node, htest]
  · rw [returns_node rfl]
    simp [doWhile, lineOf, Piece.usesAll, Piece.uses, succeeds_node, htest]

theorem returns_try {parameter : Value} (body handlerBody : Value)
    (hparameter : (nodeCode true .expression parameter).Returns) :
    (nodeCode true .statement (node "tryStatement"
      [("block", Value.record [("body", body)]),
        ("handler", Value.record [("param", parameter), ("body", handlerBody)])])).Returns ↔
      (∀ s ∈ (Value.record [("body", body)]).statements, (nodeCode true .statement s).Returns) ∧
        ∀ s ∈ handlerBody.statements, (nodeCode true .statement s).Returns := by
  rw [returns_node rfl]
  simp [tryRule, lineOf, Piece.usesAll, Piece.uses, Test.holds, head_record, hparameter]

end Statements

end Scriptwright.Document
