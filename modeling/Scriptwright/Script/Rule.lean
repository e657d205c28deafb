import Scriptwright.Script.Code

/-!
# Emission rules

A rule says how a node of some kind is written: a list of pieces that refer to the node's fields by
name. `Piece.code` turns a piece into code for a given node. Rules do not recurse; the code of a
field that is itself a node comes from a `Visitor`, which accepts only values below the node in
question.
-/

namespace Scriptwright.Script

inductive Test where
  | truthy (field : String)
  /-- The field is absent or counts as true. -/
  | unlessFalse (field : String)
  /-- The field is there, be it null. -/
  | has (field : String)
  /-- The field is there and not null. -/
  | given (field : String)
  | record (field : String)
  | tagged (field : String) (tags : List String)
  | block (field : String)
  | bodiless (field : String)
  | defaultCase (field : String)
deriving DecidableEq, Repr

def Test.holds (node : Fields) : Test → Bool
  | .truthy f => (Fields.get node f).truthy
  | .unlessFalse f => (Fields.getD node f (.bool true)).truthy
  | .has f => Fields.has node f
  | .given f => !(Fields.get node f).isNull
  | .record f => (Fields.get node f).isMap
  | .tagged f tags =>
    match (Fields.get node f).tag? with
    | some t => tags.contains t
    | none => false
  | .block f => (Fields.get node f).isBlock
  | .bodiless f => (Fields.get node f).statements.isEmpty
  | .defaultCase f => (Fields.get node f).isNull || (Fields.get node f).isKey "default"

inductive Piece where
  | text (s : String)
  | margin
  /-- The display text of a field, or `absent` where the node lacks it. -/
  | shown (field absent : String)
  | data (field : String)
  | expression (field : String)
  /-- A field that is a bare name, a node with a name, or any other expression. -/
  | name (field : String)
  | each (field before between after : String)
  /-- Every element of a field: mappings by the given parts, others as expressions. With `untagged`
  only mappings without a tag go by the parts. -/
  | eachRecord (field : String) (untagged : Bool) (between : String) (parts : List Piece)
  /-- Every element of a field, all of which have to be mappings, by the given parts. -/
  | eachCase (field : String) (parts : List Piece)
  | members (field : String)
  | body (field : String)
  | sequence (field : String)
  | statement (field : String)
  | source (field : String)
  | accessor (field : String)
  | unary (operator operand : String)
  | interleaved (texts expressions : String)
  | specifiers (field : String)
  | attributeValue (field : String)
  /-- The node itself as an expression; `missing` is the fault of a statement emitter that stands
  alone. -/
  | itself (missing : Fault)
  | deeper (parts : List Piece)
  | choose (test : Test) (yes no : List Piece)
  /-- Parts that refer to the fields of a field; anything but a mapping counts as an empty one. -/
  | within (field : String) (parts : List Piece)
  /-- Parts that refer to the fields of a field; what counts as false is an empty mapping, all else
  has to be one. -/
  | inside (field : String) (parts : List Piece)
  | shaped (shape : Shape) (parts : List Piece)
  | group (parts : List Piece)
deriving Repr

abbrev Rule := List Piece

/-! ## Leaves -/

def plainName? (v : Value) : Option Value :=
  match v.head with
  | .map es =>
    match Fields.get es "type" with
    | .null => Fields.get? es "name"
    | .string t => if t == "identifier" || t == "jsxIdentifier" then Fields.get? es "name" else none
    | _ => none
  | _ => none

def sourceCode (v : Value) : Code :=
  match v.head with
  | .map es =>
    match Fields.get? es "value" with
    | some w => .spelling w (.quoted w.display)
    | none =>
      match Fields.get? es "raw" with
      | some w => .shown w
      | none => .spelling v (.quoted v.display)
  | _ => .spelling v (.quoted v.display)

def templateText (v : Value) : Value :=
  match v.head with
  | .map es =>
    let w := Fields.getD es "value" v
    match w.head with
    | .map inner =>
      match Fields.getD inner "raw" (Fields.get inner "cooked") with
      | .null => .string ""
      | text => text
    | _ => w
  | _ => v

def accessorCode (v : Value) : Code :=
  match v with
  | .string s => if s == "get" || s == "set" then .text (s ++ " ") else .nothing
  | _ => if v.findable then .nothing else .stop .unhashable

def unaryCode (operator : Value) (operand : Code) : Code :=
  .spelling operator (.shaped (.operator operator.display) [operand])

/-- Texts and substitutions in turn, the longer list to its end. -/
def weave (texts : List Value) (substitutions : List Code) : List Code :=
  match texts, substitutions with
  | [], [] => []
  | t :: ts, [] => .shown t :: weave ts []
  | [], c :: cs => .text "$\x7b" :: c :: .text "\x7d" :: weave [] cs
  | t :: ts, c :: cs => .shown t :: .text "$\x7b" :: c :: .text "\x7d" :: weave ts cs

/-! ## Code of a rule -/

inductive Mode where
  | expression
  | statement
deriving DecidableEq, Repr

/-- Statements weigh more than expressions, so that a statement may be written as the expression it
is. -/
def weight : Mode → Value → Nat
  | .expression, v => 2 * v.depth
  | .statement, v => 2 * v.depth + 1

/-- What a rule may use besides the node: the code of lighter values, and whether statements and
expressions can be written from each other. -/
structure Visitor (bound : Nat) where
  mode : Mode
  linked : Bool
  visit : (m : Mode) → (v : Value) → weight m v < bound → Code

def noExpressions : Fault := .unlinked "StatementEmitter has no ExpressionEmitter bound"

def noStatements : Fault := .unlinked "ExpressionEmitter has no StatementEmitter bound"

namespace Visitor

variable {bound : Nat}

def expression (x : Visitor bound) (v : Value) (h : 2 * v.depth + 1 < bound) : Code :=
  if x.mode = .statement ∧ x.linked = false then .stop noExpressions
  else x.visit .expression v (by simp only [weight]; omega)

def name (x : Visitor bound) (v : Value) (h : 2 * v.depth + 1 < bound) : Code :=
  if x.mode = .statement ∧ x.linked = false then .stop .notRecord
  else
    match plainName? v with
    | some s => .shown s
    | none => x.visit .expression v (by simp only [weight]; omega)

def statement (x : Visitor bound) (v : Value) (h : 2 * v.depth + 1 < bound) : Code :=
  x.visit .statement v (by simp only [weight]; omega)

def each (v : Value) (h : 2 * v.depth + 1 < bound)
    (f : (w : Value) → 2 * w.depth + 1 < bound → Code) : Except Fault (List Code) :=
  match he : v.elementsOrNone with
  | .error e => .error e
  | .ok vs => .ok (vs.attach.map fun w => f w.1 (by
      have := Value.depth_le_of_mem_elementsOrNone he w.2
      omega))

def eachStatement (v : Value) (h : 2 * v.depth + 1 < bound)
    (f : (w : Value) → 2 * w.depth + 1 < bound → Code) : List Code :=
  v.statements.attach.map fun w => f w.1 (by
    have := Value.depth_le_of_mem_statements w.2
    omega)

/-- All statements of a body; an expression emitter that stands alone can write none. -/
def bodyCode (x : Visitor bound) (v : Value) (h : 2 * v.depth + 1 < bound) : Code :=
  if x.mode = .expression ∧ x.linked = false then .stop noStatements
  else .together (eachStatement v h x.statement)

def memberCode (x : Visitor bound) (v : Value) (h : 2 * v.depth + 1 < bound) : Code :=
  .shaped (.member (if v.tag? = some "classProperty" then ";" else "")) [.margin, x.expression v h]

/-- Whether an import specifier stands outside the braces. -/
def isClause (v : Value) : Bool :=
  v.tag? == some "importDefaultSpecifier" || v.tag? == some "importNamespaceSpecifier"

def specifiersCode (x : Visitor bound) (v : Value) (h : 2 * v.depth + 1 < bound) : Code :=
  match v.elementsOrNone, each v h x.expression with
  | .ok vs, .ok codes => .shaped (.clauses (vs.map isClause)) codes
  | .error e, _ => .stop e
  | _, .error e => .stop e

def templateCode (x : Visitor bound) (texts substitutions : Value)
    (h : 2 * substitutions.depth + 1 < bound) : Code :=
  match texts.elementsOrNone, each substitutions h x.expression with
  | .ok ts, .ok codes => .together (weave (ts.map templateText) codes)
  | .error e, _ => .stop e
  | _, .error e => .stop e

end Visitor

theorem two_mul_depth_field_lt {bound : Nat} {node : Fields}
    (h : 2 * (Value.map node).depth ≤ bound) (f : String) :
    2 * (Fields.get node f).depth + 1 < bound := by
  have := Fields.depth_get_lt node f
  omega

theorem two_mul_depth_empty_le {bound : Nat} {node : Fields}
    (h : 2 * (Value.map node).depth ≤ bound) :
    2 * (Value.map []).depth ≤ bound := by
  have : (Value.map []).depth = 1 := rfl
  have : 1 ≤ (Value.map node).depth := by simp [Value.depth]
  omega

theorem two_mul_depth_record_le {bound : Nat} {v : Value} {es : Fields}
    (h : 2 * v.depth + 1 < bound) (hv : v.head = .map es) : 2 * (Value.map es).depth ≤ bound := by
  have := v.depth_head_le
  rw [hv] at this
  omega

mutual

def Piece.code {bound : Nat} (x : Visitor bound) :
    Piece → (node : Fields) → 2 * (Value.map node).depth ≤ bound → Code
  | .text s, _, _ => .text s
  | .margin, _, _ => .margin
  | .shown f absent, node, _ => .shown (Fields.getD node f (.string absent))
  | .data f, node, _ => .ofExcept (((Fields.get node f).encode .wide).map .text)
  | .expression f, node, h => x.expression (Fields.get node f) (two_mul_depth_field_lt h f)
  | .name f, node, h => x.name (Fields.get node f) (two_mul_depth_field_lt h f)
  | .each f before between after, node, h =>
    .ofExcept ((Visitor.each (Fields.get node f) (two_mul_depth_field_lt h f) fun w hw =>
      .together [.text before, x.expression w hw, .text after]).map (.separated between))
  | .eachRecord f untagged between parts, node, h =>
    .ofExcept ((Visitor.each (Fields.get node f) (two_mul_depth_field_lt h f) fun w hw =>
      match hm : w.head with
      | .map es =>
        if untagged && Fields.has es "type" then x.expression w hw
        else .together (Piece.codes x parts es (two_mul_depth_record_le hw hm))
      | _ => x.expression w hw).map (.separated between))
  | .eachCase f parts, node, h =>
    .ofExcept ((Visitor.each (Fields.get node f) (two_mul_depth_field_lt h f) fun w hw =>
      match hm : w.head with
      | .map es => .together (Piece.codes x parts es (two_mul_depth_record_le hw hm))
      | _ => .stop .notRecord).map .together)
  | .members f, node, h =>
    .together (Visitor.eachStatement (Fields.get node f) (two_mul_depth_field_lt h f) x.memberCode)
  | .body f, node, h => x.bodyCode (Fields.get node f) (two_mul_depth_field_lt h f)
  | .sequence f, node, h =>
    .ofExcept ((Visitor.each (Fields.get node f) (two_mul_depth_field_lt h f) x.statement).map
      .together)
  | .statement f, node, h => x.statement (Fields.get node f) (two_mul_depth_field_lt h f)
  | .source f, node, _ => sourceCode (Fields.get node f)
  | .accessor f, node, _ => accessorCode (Fields.get node f)
  | .unary operator operand, node, h =>
    unaryCode (Fields.getD node operator (.string ""))
      (x.expression (Fields.get node operand) (two_mul_depth_field_lt h operand))
  | .interleaved texts substitutions, node, h =>
    x.templateCode (Fields.get node texts) (Fields.get node substitutions)
      (two_mul_depth_field_lt h substitutions)
  | .specifiers f, node, h => x.specifiersCode (Fields.get node f) (two_mul_depth_field_lt h f)
  | .attributeValue f, node, _ => .ofExcept ((Script.attributeValue (Fields.get node f)).map .text)
  | .itself missing, node, _ =>
    if x.linked = false then .stop missing
    else if hb : weight .expression (.map node) < bound then x.visit .expression (.map node) hb
    else .nothing
  | .deeper parts, node, h => .deeper (.together (Piece.codes x parts node h))
  | .choose test yes no, node, h =>
    .together (if test.holds node then Piece.codes x yes node h else Piece.codes x no node h)
  | .within f parts, node, h =>
    match hv : (Fields.get node f).head with
    | .map es => .together (Piece.codes x parts es
        (two_mul_depth_record_le (two_mul_depth_field_lt h f) hv))
    | _ => .together (Piece.codes x parts [] (two_mul_depth_empty_le h))
  | .inside f parts, node, h =>
    match hv : (Fields.get node f).head with
    | .map es => .together (Piece.codes x parts es
        (two_mul_depth_record_le (two_mul_depth_field_lt h f) hv))
    | v => if v.truthy then .stop .notRecord
        else .together (Piece.codes x parts [] (two_mul_depth_empty_le h))
  | .shaped shape parts, node, h => .shaped shape (Piece.codes x parts node h)
  | .group parts, node, h => .together (Piece.codes x parts node h)

def Piece.codes {bound : Nat} (x : Visitor bound) :
    List Piece → (node : Fields) → 2 * (Value.map node).depth ≤ bound → List Code
  | [], _, _ => []
  | p :: ps, node, h => Piece.code x p node h :: Piece.codes x ps node h

end

end Scriptwright.Script
