import Scriptwright.Proofs.Script.Attributes

/-!
# Openings of expressions

The first character of an expression comes from its leftmost part, at whatever depth that stands.
`nodeOpening` follows a node to that part, without writing anything, and the main statement compares
it with the text behind the arrow of a function: this starts with a brace, and so is read as a
block, exactly if the body is none of the objects that are put in parentheses and its leftmost part
has a brace in front.
-/

namespace Scriptwright.Script

open Text

/-! ## How texts open -/

/-- Whether a text starts with an opening brace, if it starts at all. -/
def textOpening (t : String) : Option Bool := t.toList.head?.map (· == '\x7b')

theorem textOpening_append (s t : String) :
    textOpening (s ++ t) = (textOpening s).or (textOpening t) := by
  rw [textOpening, String.toList_append, List.head?_append, Option.map_or]
  rfl

theorem textOpening_eq_some_true_iff (t : String) :
    textOpening t = some true ↔ t.toList.head? = some '\x7b' := by
  rw [textOpening]
  cases t.toList.head? with
  | none => simp
  | some c => simp

theorem textOpening_of_bareStart {t : String} (h : BareStart t.toList) :
    textOpening t = some false := by
  obtain ⟨c, hc, -, hbrace⟩ := h
  rw [textOpening, hc, Option.map_some, beq_eq_false_iff_ne.mpr hbrace]

theorem eq_empty_of_textOpening {t : String} (h : textOpening t = none) : t = "" := by
  rw [textOpening, Option.map_eq_none_iff, List.head?_eq_none_iff] at h
  exact String.toList_injective h

def dataOpening : Value.DataForm → Bool
  | .record => true
  | _ => false

theorem textOpening_of_fits {form : Value.DataForm} {t : String} (h : form.Fits t) :
    textOpening t = some (dataOpening form) := by
  cases form with
  | text s =>
    obtain rfl : t = encoded s := h
    simp [textOpening, encoded, encodedChars, dataOpening]
  | record =>
    obtain ⟨inner, rfl⟩ := h
    simp [textOpening, dataOpening]
  | other => exact textOpening_of_bareStart h

theorem textOpening_attributeName (name : String) :
    textOpening (attributeName name) = textOpening name := by
  unfold attributeName
  split_ifs with hclass hfor
  · rw [beq_iff_eq.mp hclass]
    rfl
  · rw [beq_iff_eq.mp hfor]
    rfl
  · rfl

theorem textOpening_operatorText (sign operand : String) :
    textOpening (operatorText sign operand) = (textOpening sign).or (textOpening operand) := by
  unfold operatorText
  split_ifs with hblank
  · -- a sign that needs a blank is not empty
    have hsign : textOpening sign ≠ none := by
      intro hnone
      rw [eq_empty_of_textOpening hnone] at hblank
      simp [needsBlank] at hblank
    obtain ⟨b, hb⟩ := Option.ne_none_iff_exists'.mp hsign
    rw [textOpening_append, textOpening_append, hb]
    rfl
  · exact textOpening_append sign operand

theorem textOpening_as {s t : String} (h : s ≠ t) :
    textOpening (s ++ " as " ++ t) = (textOpening s).or ((textOpening t).map fun _ => false) := by
  rw [textOpening_append, textOpening_append]
  cases hs : textOpening s with
  | some b => rfl
  | none =>
    have ht : textOpening t ≠ none :=
      fun ht => h ((eq_empty_of_textOpening hs).trans (eq_empty_of_textOpening ht).symm)
    obtain ⟨b, hb⟩ := Option.ne_none_iff_exists'.mp ht
    rw [hb]
    rfl

/-- Of a name and its other name the second one matters only if the first is empty. -/
theorem textOpening_aliasText (otherFirst : Bool) (own other : String) :
    textOpening (aliasText otherFirst own other) =
      if otherFirst then (textOpening other).or ((textOpening own).map fun _ => false)
      else (textOpening own).or ((textOpening other).map fun _ => false) := by
  unfold aliasText
  by_cases heq : other = own
  · rw [heq, beq_self_eq_true, if_pos rfl, ite_self]
    cases textOpening own with
    | none => rfl
    | some b => rfl
  · rw [beq_eq_false_iff_ne.mpr heq, if_neg Bool.false_ne_true]
    cases otherFirst with
    | true => exact textOpening_as heq
    | false => exact textOpening_as (Ne.symm heq)

theorem textOpening_intercalate {mark t : String} {brace : Bool} (h : textOpening t = some brace)
    (ts : List String) :
    textOpening (mark.intercalate (t :: ts)) = some brace := by
  cases ts with
  | nil => rwa [String.intercalate_singleton]
  | cons u us =>
    rw [String.intercalate_cons_cons, textOpening_append, textOpening_append, h]
    rfl

/-! ## How nodes open -/

/-- What the text of a node can start with. -/
inductive Front where
  | fixed (brace : Bool)
  /-- A text without a brace, if it is there. -/
  | flag (there : Bool)
  | shown (field absent : String)
  | data (field : String)
  | operand (field : String)
  | name (field : String)
  /-- A second name, behind a word. -/
  | further (field : String)
  /-- The first of the elements of a field, each of which has a blank behind it. -/
  | first (field : String)

theorem depth_first_lt {node : Fields} {f : String} {w : Value} {ws : List Value}
    (h : (Fields.get node f).elementsOrNone = .ok (w :: ws)) : w.depth < (Value.map node).depth :=
  Nat.lt_of_le_of_lt (Value.depth_le_of_mem_elementsOrNone h List.mem_cons_self)
    (Fields.depth_get_lt node f)

namespace Front

section Opening

variable (node : Fields) (visit : (w : Value) → w.depth < (Value.map node).depth → Option Bool)

def nameOpening (f : String) : Option Bool :=
  match plainName? (Fields.get node f) with
  | some w => textOpening w.display
  | none => visit (Fields.get node f) (Fields.depth_get_lt node f)

def opening : Front → Option Bool
  | .fixed brace => some brace
  | .flag there => if there then some false else none
  | .shown f absent => textOpening (Fields.getD node f (.string absent)).display
  | .data f => some (dataOpening (Fields.get node f).dataForm)
  | .operand f => visit (Fields.get node f) (Fields.depth_get_lt node f)
  | .name f => nameOpening node visit f
  | .further f => (nameOpening node visit f).map fun _ => false
  | .first f =>
    match h : (Fields.get node f).elementsOrNone with
    | .ok (w :: _) => (visit w (depth_first_lt h)).or (some false)
    | _ => none

/-- The first part that is not empty decides. -/
def openingAll : List Front → Option Bool
  | [] => none
  | f :: fs => (f.opening node visit).or (openingAll fs)

end Opening

def key (node : Fields) : Front :=
  if (Fields.get node "computed").truthy then .fixed false else .name "key"

def method (node function : Fields) : List Front :=
  [.first "decorators", .flag (Fields.get node "static").truthy,
    .flag (Fields.get function "async").truthy,
    .flag ((Fields.get node "kind").isKey "get" || (Fields.get node "kind").isKey "set"),
    .flag (Fields.get function "generator").truthy, key node, .fixed false]

def inner (node : Fields) (f : String) : Fields :=
  match (Fields.get node f).head with
  | .map es => es
  | _ => []

/-- The parts that the text of a node of some kind can start with, up to the first one that is never
empty. -/
def ofKind (node : Fields) : String → List Front
  | "objectExpression" | "objectPattern" | "jsxExpressionContainer" | "jsxSpreadAttribute" =>
      [.fixed true]
  | "identifier" | "jsxIdentifier" => [.shown "name" ""]
  | "jsxText" => [.shown "value" ""]
  | "literal" => if Fields.has node "raw" then [.shown "raw" ""] else [.data "value"]
  | "callExpression" | "optionalCallExpression" =>
    if (Test.tagged "callee" ["arrowFunctionExpression", "functionExpression"]).holds node then
      [.fixed false]
    else [.operand "callee", .fixed false]
  | "memberExpression" | "optionalMemberExpression" => [.operand "object", .fixed false]
  | "binaryExpression" | "logicalExpression" | "assignmentExpression" | "assignmentPattern" =>
    [.operand "left", .fixed false]
  | "conditionalExpression" => [.operand "test", .fixed false]
  | "taggedTemplateExpression" => [.operand "tag", .fixed false]
  | "chainExpression" => [.operand "expression"]
  | "unaryExpression" => [.shown "operator" "", .operand "argument"]
  | "updateExpression" =>
    if (Fields.get node "prefix").truthy then [.shown "operator" "", .operand "argument"]
    else [.operand "argument", .shown "operator" ""]
  | "metaProperty" => [.name "meta", .fixed false]
  | "jsxNamespacedName" => [.name "namespace", .fixed false]
  | "jsxMemberExpression" => [.name "object", .fixed false]
  | "jsxAttribute" => [.name "name", .flag (!(Fields.get node "value").isNull)]
  | "variableDeclaration" => [.shown "kind" "let", .fixed false]
  | "variableDeclarator" => [.name "id", .flag (!(Fields.get node "init").isNull)]
  | "property" | "objectProperty" =>
    if (Fields.get node "shorthand").truthy then
      if (Test.tagged "value" ["assignmentPattern"]).holds node then [.operand "value"]
        else [key node]
    else [key node, .fixed false]
  | "methodDefinition" => method node (inner node "value")
  | "objectMethod" | "classMethod" => method node node
  | "classProperty" =>
    [.first "decorators", .flag (Fields.get node "static").truthy, key node,
      .flag (!(Fields.get node "value").isNull)]
  | "classExpression" | "classDeclaration" => [.first "decorators", .fixed false]
  | "importDefaultSpecifier" => [.name "local"]
  | "importSpecifier" =>
    if !(Fields.get node "imported").isNull then [.name "imported", .further "local"]
      else [.name "local"]
  | "exportSpecifier" =>
    if !(Fields.get node "exported").isNull then [.name "local", .further "exported"]
      else [.name "local"]
  | _ => [.fixed false]

end Front

def atomOpening : Value → Option Bool
  | .string s => textOpening s
  | .bool _ | .int _ | .float _ => some false
  | _ => none

theorem depth_lt_of_head {v w : Value} {node : Fields} (h : v.head = .map node)
    (hw : w.depth < (Value.map node).depth) : w.depth < v.depth :=
  Nat.lt_of_lt_of_le hw (h ▸ v.depth_head_le)

/-- How an expression opens: with a brace, with something else, or not at all. Nodes of unknown
kinds leave no text. -/
def nodeOpening (v : Value) : Option Bool :=
  match _h : v.head with
  | .map node =>
    match Fields.get node "type" with
    | .string kind =>
      if kind ∈ Mode.expression.kinds then
        Front.openingAll node (fun w _hw => nodeOpening w) (Front.ofKind node kind)
      else none
    | _ => none
  | w => atomOpening w
termination_by v.depth
decreasing_by exact depth_lt_of_head _h _hw

theorem exists_head_of_tag? {v : Value} {kind : String} (h : v.tag? = some kind) :
    ∃ es, v.head = .map es ∧ Fields.get es "type" = .string kind := by
  cases hv : v.head with
  | map es => exact ⟨es, rfl, get_type_of_tag? hv h⟩
  | _ =>
    rw [Value.tag?, hv] at h
    cases h

theorem nodeOpening_of_head {v : Value} {node : Fields} {kind : String} (h : v.head = .map node)
    (hkind : Fields.get node "type" = .string kind) (hknown : kind ∈ Mode.expression.kinds) :
    nodeOpening v = Front.openingAll node (fun w _ => nodeOpening w) (Front.ofKind node kind) := by
  rw [nodeOpening]
  split
  · next node' h' =>
    obtain rfl : node = node' := Value.map.inj (h.symm.trans h')
    rw [hkind]
    exact if_pos hknown
  · next hno => exact absurd h (hno node)

/-! ## How code opens -/

namespace Code

/-- Every text of a piece of code opens in the given way. -/
def Leads (c : Code) (o : Option Bool) : Prop := c.Yields (textOpening · = o)

variable {c : Code} {cs ds : List Code} {a b : Option Bool}

theorem leads_text {s : String} (h : textOpening s = a) : (text s).Leads a := yields_text h

theorem leads_report (category : String) (kind : Value) : (report category kind).Leads none :=
  yields_report (P := (textOpening · = none)) rfl category kind

theorem leads_spelling (v : Value) (h : c.Leads a) : (spelling v c).Leads a := Yields.spelling h v

theorem leads_nil : (together []).Leads none := yields_together_nil rfl

theorem leads_cons (hc : c.Leads a) (hcs : (together cs).Leads b) :
    (together (c :: cs)).Leads (a.or b) :=
  yields_together_cons hc hcs fun s t hs ht => by rw [textOpening_append, hs, ht]

/-- Behind a part that is never empty nothing matters. -/
theorem leads_of_first {brace : Bool} (hc : c.Leads (some brace)) :
    (together (c :: cs)).Leads (some brace) :=
  yields_together_cons (R := fun _ => True) hc (fun _ _ _ _ _ _ => trivial) fun s t hs _ => by
    rw [textOpening_append, hs]
    rfl

theorem leads_single (hc : c.Leads a) : (together [c]).Leads a := yields_together_single hc

theorem leads_together (h : (together (cs ++ ds)).Leads a) :
    (together (together cs :: ds)).Leads a := by
  intro layout level j t k hrun
  rw [emit_together_together] at hrun
  exact h layout level j t k hrun

theorem leads_separated {brace : Bool} (mark : String) (hc : c.Leads (some brace))
    (cs : List Code) :
    (separated mark (c :: cs)).Leads (some brace) := by
  intro layout level j t k hrun
  obtain ⟨_, hparts, rfl⟩ := exists_of_emit_shaped hrun
  obtain ⟨s, us, j', hs, -, rfl⟩ := exists_of_emitAll_cons hparts
  exact textOpening_intercalate (hc layout level j s j' hs) us

theorem leads_element {bare : Bool} {d e : Code} :
    (shaped (.element bare) [c, d, e]).Leads (some false) := by
  intro layout level j t k hrun
  obtain ⟨_, hparts, rfl⟩ := exists_of_emit_shaped hrun
  obtain ⟨name, _, _, -, hrest, rfl⟩ := exists_of_emitAll_cons hparts
  obtain ⟨attributes, _, _, -, hlast, rfl⟩ := exists_of_emitAll_cons hrest
  obtain ⟨children, _, _, -, hnil, rfl⟩ := exists_of_emitAll_cons hlast
  rw [emitAll_nil, Emission.pure] at hnil
  cases hnil
  cases bare <;> simp [Shape.apply, elementText, textOpening]

end Code

/-! ## How rules open -/

open Code

theorem Piece.writtenAll_append (linked : Bool) (m : Mode) (ps qs : List Piece) (node : Fields) :
    Piece.writtenAll linked m (ps ++ qs) node =
      Piece.writtenAll linked m ps node ++ Piece.writtenAll linked m qs node := by
  induction ps with
  | nil => rfl
  | cons p ps ih => rw [List.cons_append, Piece.writtenAll, Piece.writtenAll, ih, List.cons_append]

section Rules

variable {linked : Bool} {node : Fields}

def Front.start (node : Fields) (f : Front) : Option Bool := f.opening node fun w _ => nodeOpening w

def Front.startAll (node : Fields) (fs : List Front) : Option Bool :=
  openingAll node (fun w _ => nodeOpening w) fs

/-- The text of a piece opens as the given part does. -/
def Starts (linked : Bool) (node : Fields) (p : Piece) (f : Front) : Prop :=
  (p.written linked .expression node).Leads (f.start node)

/-- The text of a rule opens as the first of the given parts that is not empty. -/
def Begins (linked : Bool) (node : Fields) (ps : List Piece) (fs : List Front) : Prop :=
  (together (Piece.writtenAll linked .expression ps node)).Leads (Front.startAll node fs)

/-- The rule of a kind opens as the kind says. -/
structure RuleOpens (linked : Bool) (node : Fields) (entry : String × Rule) : Prop where
  begins : Begins linked node entry.2 (Front.ofKind node entry.1)

theorem opens_kind (kind : String) {rule : Rule}
    (h : Begins linked node rule (Front.ofKind node kind)) :
    RuleOpens linked node (kind, rule) := ⟨h⟩

variable {p : Piece} {ps qs : List Piece} {f : Front} {fs : List Front}

theorem begins_nil : Begins linked node [] [] := leads_nil

theorem begins_cons (hp : Starts linked node p f) (hps : Begins linked node ps fs) :
    Begins linked node (p :: ps) (f :: fs) := leads_cons hp hps

theorem begins_of_first {brace : Bool} (hp : Starts linked node p (.fixed brace))
    (ps : List Piece) :
    Begins linked node (p :: ps) [.fixed brace] := leads_of_first hp

theorem starts_text {s : String} {brace : Bool} (hs : textOpening s = some brace) :
    Starts linked node (.text s) (.fixed brace) := leads_text hs

theorem begins_text {s : String} {brace : Bool} (hs : textOpening s = some brace)
    (ps : List Piece) :
    Begins linked node (.text s :: ps) [.fixed brace] := begins_of_first (starts_text hs) ps

theorem begins_group (h : Begins linked node (ps ++ qs) fs) :
    Begins linked node (.group ps :: qs) fs := by
  rw [Begins, Piece.writtenAll_append] at h
  exact leads_together h

theorem begins_choose {test : Test} {yes no : List Piece}
    (hyes : test.holds node = true → Begins linked node (yes ++ ps) fs)
    (hno : test.holds node = false → Begins linked node (no ++ ps) fs) :
    Begins linked node (.choose test yes no :: ps) fs := by
  rw [Begins, Piece.writtenAll, Piece.written]
  cases htest : test.holds node with
  | true => exact begins_group (hyes htest)
  | false => exact begins_group (hno htest)

theorem leads_choose {test : Test} {yes no : List Piece}
    (hyes : test.holds node = true → Begins linked node yes fs)
    (hno : test.holds node = false → Begins linked node no fs) :
    ((Piece.choose test yes no).written linked .expression node).Leads
      (Front.startAll node fs) := by
  rw [Piece.written]
  cases htest : test.holds node with
  | true => exact hyes htest
  | false => exact hno htest

theorem begins_ite {test : Test} {yes no : List Piece} {gs : List Front}
    (hyes : Begins linked node (yes ++ ps) fs) (hno : Begins linked node (no ++ ps) gs) :
    Begins linked node (.choose test yes no :: ps) (if test.holds node then fs else gs) := by
  refine begins_choose (fun h => ?_) fun h => ?_
  · rwa [if_pos h]
  · rwa [h, if_neg Bool.false_ne_true]

theorem starts_shown (f absent : String) : Starts linked node (.shown f absent) (.shown f absent) :=
  leads_spelling _ (leads_text rfl)

theorem starts_data (f : String) : Starts linked node (.data f) (.data f) := by
  refine yields_ofExcept fun c hc => ?_
  obtain ⟨t, ht, rfl⟩ := exists_of_map_eq_ok hc
  exact leads_text (textOpening_of_fits (Value.dataForm_fits_encode rfl ht))

theorem starts_when {test : Test} {ps : List Piece} {there : Bool}
    (hthere : test.holds node = there) (h : Begins linked node ps [.fixed false]) :
    Starts linked node (.choose test ps []) (.flag there) := by
  rw [Starts, Piece.written, hthere]
  cases there with
  | true => exact h
  | false => exact leads_nil

theorem starts_word (flag : String) {s : String} (hs : textOpening s = some false) :
    Starts linked node (word flag s) (.flag (Fields.get node flag).truthy) :=
  starts_when rfl (begins_text hs [])

theorem starts_accessor (f : String) :
    Starts linked node (.accessor f)
      (.flag ((Fields.get node f).isKey "get" || (Fields.get node f).isKey "set")) := by
  rw [Starts, Piece.written]
  cases hv : Fields.get node f with
  | string s =>
    rw [accessorCode, Value.isKey, Value.isKey]
    cases hs : s == "get" || s == "set" with
    | false => exact leads_text rfl
    | true =>
      rcases Bool.or_eq_true_iff.mp hs with hs | hs
      · exact leads_text (by rw [beq_iff_eq.mp hs]; rfl)
      · exact leads_text (by rw [beq_iff_eq.mp hs]; rfl)
  | _ =>
    rw [accessorCode]
    · split_ifs
      · exact leads_text rfl
      · exact yields_stop _
    · simp

theorem starts_element (bare : Bool) (p q r : Piece) :
    Starts linked node (.shaped (.element bare) [p, q, r]) (.fixed false) := leads_element

theorem begins_element : Begins linked node jsxElement [.fixed false] :=
  begins_choose (fun _ => begins_of_first (starts_element _ _ _ _) [])
    fun _ => begins_of_first (starts_element _ _ _ _) []

theorem begins_exportNamed : Begins linked node exportNamed [.fixed false] := by
  have hlist : Starts linked node (.shaped .exportList [listed "specifiers"]) (.fixed false) := by
    refine yields_shaped (Q := fun _ => True) (fun _ _ _ _ _ _ => trivial) fun ts _ => ?_
    rw [Shape.apply]
    split_ifs
    · rfl
    · rw [textOpening_append, textOpening_append]
      rfl
  exact begins_choose (fun _ => begins_text rfl _) fun _ => begins_of_first hlist _

theorem begins_arrow : Begins linked node arrow [.fixed false] :=
  begins_choose (fun _ => begins_text rfl _) fun _ => begins_text rfl _

theorem begins_function : Begins linked node functionRule [.fixed false] :=
  begins_choose (fun _ => begins_text rfl _) fun _ => begins_text rfl _

theorem begins_properties : Begins linked node properties [.fixed true] :=
  begins_choose (fun _ => begins_text rfl _) fun _ => begins_text rfl _

theorem written_within (f : String) (ps : List Piece) :
    (Piece.within f ps).written linked .expression node =
      together (Piece.writtenAll linked .expression ps (Front.inner node f)) := by
  rw [Piece.written, Front.inner]
  cases (Fields.get node f).head with
  | _ => rfl

section Operands

variable (ih : ∀ w : Value, w.depth < (Value.map node).depth →
  (nodeCode linked .expression w).Leads (nodeOpening w))

include ih

theorem starts_operand (f : String) : Starts linked node (.expression f) (.operand f) := by
  rw [Starts, Piece.written, expressionIn_expression]
  exact ih _ (Fields.depth_get_lt node f)

theorem starts_name (f : String) : Starts linked node (.name f) (.name f) := by
  rw [Starts, Piece.written, nameIn, if_neg fun h => Mode.noConfusion h.1, nameCode, Front.start,
    Front.opening, Front.nameOpening]
  cases plainName? (Fields.get node f) with
  | some w => exact leads_spelling w (leads_text rfl)
  | none => exact ih _ (Fields.depth_get_lt node f)

theorem begins_operand {s : String} (hs : textOpening s = some false) (f : String)
    (ps : List Piece) :
    Begins linked node (.expression f :: .text s :: ps) [.operand f, .fixed false] :=
  begins_cons (starts_operand ih f) (begins_text hs ps)

theorem begins_name {s : String} (hs : textOpening s = some false) (f : String) (ps : List Piece) :
    Begins linked node (.name f :: .text s :: ps) [.name f, .fixed false] :=
  begins_cons (starts_name ih f) (begins_text hs ps)

/-- Only the first decorator matters, as none is empty. -/
theorem starts_decorators : Starts linked node decorators (.first "decorators") := by
  rw [Starts, decorators, Piece.written]
  refine yields_ofExcept fun c hc => ?_
  obtain ⟨vs, hvs, rfl⟩ := exists_of_map_eq_ok hc
  rw [Front.start, Front.opening]
  cases vs with
  | nil =>
    split
    · next w ws h =>
      rw [hvs] at h
      cases h
    · exact yields_shaped (yieldAll_nil (Q := (· = [])) rfl) fun ts hts => hts ▸ rfl
  | cons v vs =>
    split
    · next w ws h =>
      rw [hvs] at h
      cases h
      have hv : (nodeCode linked .expression v).Leads (nodeOpening v) := ih v (depth_first_lt hvs)
      obtain ⟨brace, hbrace⟩ : ∃ brace, (nodeOpening v).or (some false) = some brace := by
        cases nodeOpening v with
        | none => exact ⟨false, rfl⟩
        | some brace => exact ⟨brace, rfl⟩
      rw [hbrace]
      have hfirst : (together [.text "", expressionIn linked .expression v, .text " "]).Leads
          (some brace) := by
        have hempty : (Code.text "").Leads none := leads_text rfl
        have hblank : (Code.text " ").Leads (some false) := leads_text rfl
        have hparts := leads_cons hempty (leads_cons hv (leads_single hblank))
        rw [expressionIn_expression, ← hbrace]
        exact hparts
      exact leads_separated "" hfirst _
    · next hno => exact absurd hvs (hno v vs)

theorem starts_key : Starts linked node propertyKey (Front.key node) := by
  rw [Starts, propertyKey, Piece.written, Front.key, Test.holds]
  cases (Fields.get node "computed").truthy with
  | true => exact begins_text rfl _
  | false => exact leads_single (starts_name ih "key")

theorem begins_call (optional : Test) :
    Begins linked node (call optional)
      (if (Test.tagged "callee" ["arrowFunctionExpression", "functionExpression"]).holds node then
        [.fixed false]
        else [.operand "callee", .fixed false]) :=
  begins_ite (begins_group (begins_text rfl _))
    (begins_cons (starts_operand ih "callee") (begins_choose (fun _ => begins_text rfl _) fun _ =>
      begins_text rfl _))

theorem begins_member (optional : Test) :
    Begins linked node (member optional) [.operand "object", .fixed false] :=
  begins_cons (starts_operand ih "object")
    (begins_choose (fun _ => begins_choose (fun _ => begins_text rfl _) fun _ => begins_text rfl _)
      fun _ => begins_choose (fun _ => begins_text rfl _) fun _ => begins_text rfl _)

theorem begins_unary (operator operand : String) :
    Begins linked node [.unary operator operand] [.shown operator "", .operand operand] := by
  refine leads_single ?_
  rw [Piece.written, expressionIn_expression]
  refine leads_spelling _ (yields_shaped_single (ih _ (Fields.depth_get_lt node operand))
    fun t ht => ?_)
  rw [Shape.apply, String.join_cons, String.join_nil, String.append_empty,
    textOpening_operatorText, ht]
  exact congrArg (Option.or _) Option.or_none.symm

theorem begins_taggedTemplate :
    Begins linked node
      [.shaped .swapped
        [.choose (.tagged "quasi" ["templateLiteral"]) [.expression "quasi"]
          [.text "\x60", .expression "quasi", .text "\x60"],
        .expression "tag"]]
      [.operand "tag", .fixed false] := by
  -- both ways of writing the template start with its mark
  have hquasi : Starts linked node
      (.choose (.tagged "quasi" ["templateLiteral"]) [.expression "quasi"]
        [.text "\x60", .expression "quasi", .text "\x60"])
      (.fixed false) := by
    change Leads _ (Front.startAll node [.fixed false])
    refine leads_choose (fun htagged => ?_) fun _ => begins_text rfl _
    obtain ⟨t, ht, htag⟩ := holds_tagged htagged
    obtain rfl := List.mem_singleton.mp ht
    obtain ⟨es, hes, hkind⟩ := exists_head_of_tag? htag
    have hopening : nodeOpening (Fields.get node "quasi") = some false :=
      nodeOpening_of_head hes hkind (by decide)
    have hoperand := starts_operand ih "quasi"
    rw [Starts, Front.start, Front.opening, hopening] at hoperand
    exact leads_of_first hoperand
  refine leads_single (yields_shaped_pair hquasi (starts_operand ih "tag") ?_)
  intro s t hs ht
  have happly : Shape.swapped.apply [s, t] = t ++ s := by simp [Shape.apply]
  rw [happly, textOpening_append, ht, hs]
  rfl

theorem begins_attribute :
    Begins linked node jsxAttribute [.name "name", .flag (!(Fields.get node "value").isNull)] := by
  have hname : Starts linked node (.shaped .renamed [.name "name"]) (.name "name") := by
    refine yields_shaped_single (starts_name ih "name") fun t ht => ?_
    rw [Shape.apply, String.join_cons, String.join_nil, String.append_empty,
      textOpening_attributeName, ht]
  have hvalue : Begins linked node
      [.choose (.record "value")
        [.choose (.tagged "value" ["literal", "jsxExpressionContainer"])
          [.text "=", .expression "value"]
          [.text "=\x7b", .expression "value", .text "\x7d"]]
        [.attributeValue "value"]] [.fixed false] := by
    have hdata : Starts linked node (.attributeValue "value") (.fixed false) := by
      refine yields_ofExcept fun c hc => ?_
      obtain ⟨text, htext, rfl⟩ := exists_of_map_eq_ok hc
      obtain ⟨t, rfl, -⟩ := exists_of_attributeValue htext
      exact leads_text (textOpening_append "=" t)
    exact begins_choose (fun _ => begins_choose (fun _ => begins_text rfl _) fun _ =>
      begins_text rfl _)
      fun _ => begins_of_first hdata _
  exact begins_cons hname (begins_cons (starts_when rfl hvalue) begins_nil)

theorem begins_property :
    Begins linked node property
      (if (Fields.get node "shorthand").truthy then
        if (Test.tagged "value" ["assignmentPattern"]).holds node then [.operand "value"]
          else [Front.key node]
      else [Front.key node, .fixed false]) := by
  have hlast : Starts linked node (.shaped .last [propertyKey, .expression "value"])
      (.operand "value") :=
    yields_shaped_pair (R := fun _ => True) (fun _ _ _ _ _ _ => trivial) (starts_operand ih "value")
      fun _ _ _ ht => ht
  exact begins_ite (begins_ite (begins_cons hlast begins_nil)
    (begins_cons (starts_key ih) begins_nil))
    (begins_cons (starts_key ih) (begins_text rfl _))

/-- The fields of a method's function are those of the node itself or of one of its fields. -/
theorem begins_method {function : List Piece → Piece} {inner : Fields}
    (hfunction : ∀ ps, (function ps).written linked .expression node =
      together (Piece.writtenAll linked .expression ps inner)) :
    Begins linked node (Script.method function) (Front.method node inner) := by
  have hword : ∀ (flag s : String), textOpening s = some false →
      Starts linked node (function [word flag s]) (.flag (Fields.get inner flag).truthy) := by
    intro flag s hs
    rw [Starts, hfunction]
    exact leads_single (starts_word flag hs)
  have hparams :
      Starts linked node (function [.text "(", listed "params", .text ") ", braces "body"])
        (.fixed false) := by
    rw [Starts, hfunction]
    exact begins_text rfl _
  exact begins_cons (starts_decorators ih) <| begins_cons (starts_word "static" rfl) <|
    begins_cons (hword "async" "async " rfl) <| begins_cons (starts_accessor "kind") <|
    begins_cons (hword "generator" "*" rfl) <| begins_cons (starts_key ih) <|
      begins_of_first hparams []

theorem begins_alias (own other : String) (otherFirst : Bool) :
    Begins linked node [.shaped (.alias otherFirst) [.name own, .name other]]
      (if otherFirst then [.name other, .further own] else [.name own, .further other]) := by
  refine leads_single (yields_shaped_pair (starts_name ih own) (starts_name ih other)
    fun s t hs ht => ?_)
  rw [Shape.apply, textOpening_aliasText, hs, ht]
  cases otherFirst with
  | true => exact congrArg (Option.or _) Option.or_none.symm
  | false => exact congrArg (Option.or _) Option.or_none.symm

theorem begins_specifier (own other : String) (otherFirst : Bool) :
    Begins linked node
      [.choose (.given other) [.shaped (.alias otherFirst) [.name own, .name other]] [.name own]]
      (if !(Fields.get node other).isNull then
        if otherFirst then [.name other, .further own] else [.name own, .further other]
      else [.name own]) :=
  begins_ite (begins_alias ih own other otherFirst) (begins_cons (starts_name ih own) begins_nil)

theorem begins_declarator :
    Begins linked node declarator [.name "id", .flag (!(Fields.get node "init").isNull)] :=
  begins_cons (starts_name ih "id") (begins_cons (starts_when rfl (begins_text rfl _)) begins_nil)

theorem begins_classProperty :
    Begins linked node
      [decorators, word "static" "static ", propertyKey,
        .choose (.given "value") [.text " = ", .expression "value"] []]
      [.first "decorators", .flag (Fields.get node "static").truthy, Front.key node,
        .flag (!(Fields.get node "value").isNull)] :=
  begins_cons (starts_decorators ih) <| begins_cons (starts_word "static" rfl) <|
    begins_cons (starts_key ih) <| begins_cons (starts_when rfl (begins_text rfl _)) begins_nil

theorem begins_class : Begins linked node classRule [.first "decorators", .fixed false] :=
  begins_cons (starts_decorators ih) (begins_text rfl _)

/-- Every rule of the table opens as its kind says. The kinds are named where the table is taken
apart, so that a rule that is new or has moved is found there. -/
theorem ruleOpens_of_mem : ∀ r ∈ expressionRules, RuleOpens linked node r := by
  simp only [expressionRules, List.forall_mem_cons]
  refine ⟨opens_kind "identifier" ?identifier, opens_kind "literal" ?literal,
    opens_kind "callExpression" ?call, opens_kind "optionalCallExpression" ?optionalCall,
    opens_kind "memberExpression" ?member, opens_kind "optionalMemberExpression" ?optionalMember,
    opens_kind "awaitExpression" ?await, opens_kind "binaryExpression" ?binary,
    opens_kind "logicalExpression" ?logical, opens_kind "assignmentExpression" ?assignment,
    opens_kind "arrowFunctionExpression" ?arrowFunction, opens_kind "functionExpression" ?function,
    opens_kind "arrayExpression" ?array, opens_kind "objectExpression" ?object,
    opens_kind "unaryExpression" ?unary, opens_kind "updateExpression" ?update,
    opens_kind "conditionalExpression" ?conditional, opens_kind "newExpression" ?new,
    opens_kind "sequenceExpression" ?sequence, opens_kind "templateLiteral" ?templateLiteral,
    opens_kind "taggedTemplateExpression" ?taggedTemplate,
    opens_kind "yieldExpression" ?yieldExpression, opens_kind "classExpression" ?classExpression,
    opens_kind "thisExpression" ?this, opens_kind "super" ?super,
    opens_kind "metaProperty" ?metaProperty, opens_kind "importExpression" ?importExpression,
    opens_kind "chainExpression" ?chain, opens_kind "jsxElement" ?element,
    opens_kind "jsxFragment" ?fragment, opens_kind "jsxExpressionContainer" ?expressionContainer,
    opens_kind "jsxText" ?jsxText, opens_kind "jsxIdentifier" ?jsxIdentifier,
    opens_kind "jsxOpeningElement" ?openingElement, opens_kind "jsxClosingElement" ?closingElement,
    opens_kind "jsxAttribute" ?jsxAttribute, opens_kind "jsxSpreadAttribute" ?spreadAttribute,
    opens_kind "jsxNamespacedName" ?namespacedName, opens_kind "jsxMemberExpression" ?jsxMember,
    opens_kind "objectPattern" ?objectPattern, opens_kind "arrayPattern" ?arrayPattern,
    opens_kind "restElement" ?rest, opens_kind "spreadElement" ?spread,
    opens_kind "assignmentPattern" ?assignmentPattern, opens_kind "property" ?property,
    opens_kind "objectProperty" ?objectProperty, opens_kind "methodDefinition" ?methodDefinition,
    opens_kind "objectMethod" ?objectMethod, opens_kind "classMethod" ?classMethod,
    opens_kind "classProperty" ?classProperty, opens_kind "importSpecifier" ?importSpecifier,
    opens_kind "importDefaultSpecifier" ?importDefault,
    opens_kind "importNamespaceSpecifier" ?importNamespace,
    opens_kind "exportSpecifier" ?exportSpecifier, opens_kind "privateName" ?privateName,
    opens_kind "decorator" ?decorator, opens_kind "doExpression" ?doExpression,
    opens_kind "parenthesizedExpression" ?parenthesized,
    opens_kind "variableDeclaration" ?variableDeclaration,
    opens_kind "variableDeclarator" ?declarator,
    opens_kind "functionDeclaration" ?functionDeclaration,
    opens_kind "classDeclaration" ?classDeclaration,
    opens_kind "importDeclaration" ?importDeclaration,
    opens_kind "exportNamedDeclaration" ?exportNamed,
    opens_kind "exportDefaultDeclaration" ?exportDefault,
    opens_kind "exportAllDeclaration" ?exportAll, fun r hr => absurd hr List.not_mem_nil⟩
  -- kinds that start with a fixed text
  case await | array | new | sequence | templateLiteral | this | super | importExpression =>
    exact begins_text rfl _
  case fragment | openingElement | closingElement | arrayPattern | rest | spread =>
    exact begins_text rfl _
  case importNamespace | privateName | decorator | doExpression => exact begins_text rfl _
  case importDeclaration | exportDefault | exportAll => exact begins_text rfl _
  case expressionContainer | spreadAttribute => exact begins_text rfl _
  case parenthesized => exact begins_group (begins_text rfl _)
  case yieldExpression =>
    exact begins_choose (fun _ => begins_text rfl _) fun _ => begins_text rfl _
  case arrowFunction => exact begins_arrow
  case function | functionDeclaration => exact begins_function
  case object | objectPattern => exact begins_properties
  case element => exact begins_element
  case exportNamed => exact begins_exportNamed
  -- kinds that start with the text of a field
  case identifier | jsxIdentifier => exact begins_cons (starts_shown "name" "") begins_nil
  case jsxText => exact begins_cons (starts_shown "value" "") begins_nil
  case literal =>
    exact begins_ite (begins_cons (starts_shown "raw" "") begins_nil)
      (begins_cons (starts_data "value") begins_nil)
  case variableDeclaration => exact begins_cons (starts_shown "kind" "let") (begins_text rfl _)
  -- kinds that start with an operand
  case call | optionalCall => exact begins_call ih _
  case member | optionalMember => exact begins_member ih _
  case binary | logical | assignment | assignmentPattern => exact begins_operand ih rfl "left" _
  case conditional => exact begins_operand ih rfl "test" _
  case chain => exact begins_cons (starts_operand ih "expression") begins_nil
  case taggedTemplate => exact begins_taggedTemplate ih
  case unary => exact begins_unary ih "operator" "argument"
  case update =>
    exact begins_ite (begins_cons (starts_shown "operator" "")
      (begins_cons (starts_operand ih "argument") begins_nil))
      (begins_cons (starts_operand ih "argument")
        (begins_cons (starts_shown "operator" "") begins_nil))
  -- kinds that start with a name
  case metaProperty => exact begins_name ih rfl "meta" _
  case namespacedName => exact begins_name ih rfl "namespace" _
  case jsxMember => exact begins_name ih rfl "object" _
  case jsxAttribute => exact begins_attribute ih
  case declarator => exact begins_declarator ih
  case importDefault => exact begins_cons (starts_name ih "local") begins_nil
  case importSpecifier => exact begins_specifier ih "local" "imported" true
  case exportSpecifier => exact begins_specifier ih "local" "exported" false
  -- kinds that start with a key or a decorator
  case property | objectProperty => exact begins_property ih
  case methodDefinition => exact begins_method ih (written_within "value")
  case objectMethod | classMethod => exact begins_method ih fun _ => rfl
  case classProperty => exact begins_classProperty ih
  case classExpression | classDeclaration => exact begins_class ih

end Operands

end Rules

/-! ## How expressions open -/

theorem mem_kinds_iff {m : Mode} {kind : String} :
    kind ∈ m.kinds ↔ ∃ rule, m.rules.lookup kind = some rule := by
  rw [← Option.isSome_iff_exists, List.lookup_isSome_iff, Mode.kinds, List.mem_map]
  simp only [beq_iff_eq, @eq_comm _ kind]

theorem leads_atomCode (v : Value) (hv : ∀ es, v ≠ .map es) :
    (atomCode .expression v).Leads (atomOpening v) := by
  cases v with
  | null => exact leads_text rfl
  | string s => exact leads_text rfl
  | bool b => exact leads_text (by cases b <;> rfl)
  | int n => exact leads_spelling _ (leads_text (textOpening_of_bareStart (bareStart_toString n)))
  | float x => exact leads_text (textOpening_of_bareStart x.bareStart_text)
  | map es => exact absurd rfl (hv es)
  | _ => exact leads_report _ _

/-- A node of an unknown kind leaves no text. -/
theorem leads_of_selectRule {node : Fields} {code : Code}
    (h : selectRule .expression node = .inr code) :
    code.Leads none := by
  unfold selectRule at h
  dsimp only at h
  split at h
  · split at h
    · cases h
    · cases h
      exact leads_spelling _ (leads_report _ _)
  · cases h
    split_ifs
    · exact leads_spelling _ (leads_report _ _)
    · exact yields_stop _

theorem nodeOpening_of_selectRule {v : Value} {node : Fields} {code : Code}
    (hv : v.head = .map node) (h : selectRule .expression node = .inr code) :
    nodeOpening v = none := by
  rw [nodeOpening]
  split
  · next node' hv' =>
    obtain rfl : node = node' := Value.map.inj (hv.symm.trans hv')
    split
    · next kind hkind =>
      refine if_neg fun hknown => ?_
      obtain ⟨rule, hrule⟩ := mem_kinds_iff.mp hknown
      unfold selectRule at h
      rw [hkind] at h
      dsimp only at h
      rw [hrule] at h
      cases h
    · rfl
  · next hno => exact absurd hv (hno node)

theorem nodeOpening_of_atom {v : Value} (hv : ∀ es, v.head ≠ .map es) :
    nodeOpening v = atomOpening v.head := by
  rw [nodeOpening]
  split
  · next es h => exact absurd h (hv es)
  · rfl

/-- The text of an expression opens as its leftmost part does. -/
theorem leads_nodeCode (linked : Bool) (v : Value) :
    (nodeCode linked .expression v).Leads (nodeOpening v) := by
  by_cases hv : v.exhausted = true
  · rw [nodeCode, if_pos hv]
    exact yields_stop _
  by_cases hmap : ∃ node, v.head = .map node
  · obtain ⟨node, hnode⟩ := hmap
    rw [nodeCode_of_head linked .expression (Bool.eq_false_iff.mpr hv) hnode]
    refine Yields.deferred ?_
    cases hselect : selectRule .expression node with
    | inl rule =>
      obtain ⟨kind, hkind, hrule⟩ := exists_lookup_of_selectRule hselect
      rw [nodeOpening_of_head hnode hkind (mem_kinds_iff.mpr ⟨rule, hrule⟩)]
      have hopens : RuleOpens linked node (kind, rule) :=
        ruleOpens_of_mem (fun w _ => leads_nodeCode linked w) _ (mem_of_lookup hrule)
      exact hopens.begins
    | inr code =>
      rw [nodeOpening_of_selectRule hnode hselect]
      exact leads_of_selectRule hselect
  · have hatom : ∀ es, v.head ≠ .map es := fun es hes => hmap ⟨es, hes⟩
    rw [nodeOpening_of_atom hatom, nodeCode, if_neg hv]
    split
    · next node h => exact absurd h (hatom node)
    · exact leads_atomCode v.head hatom
termination_by v.depth
decreasing_by exact depth_lt_of_head hnode ‹_›

/-! ## The bodies of arrow functions -/

def conciseBody (kind text : String) : String :=
  if kind = "objectExpression" then "(" ++ text ++ ")" else text

theorem textOpening_conciseBody (kind text : String) :
    textOpening (conciseBody kind text) = if kind = "objectExpression" then some false
      else textOpening text := by
  rw [conciseBody]
  split_ifs
  · rw [textOpening_append, textOpening_append]
    rfl
  · rfl

theorem isBlock_of_tag? {v : Value} {kind : String} (h : v.tag? = some kind)
    (hkind : kind ≠ "blockStatement") :
    v.isBlock = false := by
  obtain ⟨es, hes, htype⟩ := exists_head_of_tag? h
  have hhas : Fields.has es "type" = true := by
    rw [Fields.has]
    cases hget : Fields.get? es "type" with
    | none =>
      rw [Fields.get, hget] at htype
      cases htype
    | some w => rfl
  rw [Value.isBlock, hes]
  simp [htype, hhas, Value.isKey, hkind]

def arrowBody : Piece :=
  .choose (.block "body") [braces "body"]
    [.choose (.tagged "body" ["objectExpression"]) [parenthesised "body"] [.expression "body"]]

section Emitted

variable {layout : Layout} {level : Int} {j k : Journal} {t : String}

theorem emit_of_emit_single {c : Code} (h : (together [c]).emit layout level j = (.ok t, k)) :
    c.emit layout level j = (.ok t, k) := by
  obtain ⟨s, u, j', hs, hu, rfl⟩ := exists_of_emit_together_cons h
  rw [emit_together, emitAll_nil] at hu
  cases hu
  rwa [String.join_nil, String.append_empty]

theorem exists_of_emit_text_cons {s : String} {cs : List Code}
    (h : (together (.text s :: cs)).emit layout level j = (.ok t, k)) :
    ∃ u, (together cs).emit layout level j = (.ok u, k) ∧ t = s ++ u := by
  obtain ⟨_, u, _, hs, hu, rfl⟩ := exists_of_emit_together_cons h
  rw [emit_text] at hs
  cases hs
  exact ⟨u, hu, rfl⟩

theorem emit_word (linked : Bool) (m : Mode) (flag s : String) (es : Fields) :
    ((word flag s).written linked m es).emit layout level =
      .pure (if (Fields.get es flag).truthy then s else "") := by
  rw [word, Piece.written, Test.holds]
  cases (Fields.get es flag).truthy with
  | true => simp [Piece.writtenAll, Piece.written, emitAll_cons]
  | false => simp [Piece.writtenAll]

variable {linked : Bool} {es : Fields}

theorem exists_of_emit_arrowBody {kind : String} (hbody : (Fields.get es "body").tag? = some kind)
    (hkind : kind ≠ "blockStatement")
    (h : (arrowBody.written linked .expression es).emit layout level j = (.ok t, k)) :
    ∃ s, (nodeCode linked .expression (Fields.get es "body")).emit layout level j = (.ok s, k) ∧
      t = conciseBody kind s := by
  rw [arrowBody, Piece.written, Test.holds, isBlock_of_tag? hbody hkind,
    if_neg Bool.false_ne_true] at h
  have hchoice := emit_of_emit_single h
  rw [Piece.written, Test.holds, hbody] at hchoice
  by_cases hobject : kind = "objectExpression"
  · rw [if_pos (by simp [hobject])] at hchoice
    have hgroup := emit_of_emit_single hchoice
    rw [parenthesised, Piece.written] at hgroup
    obtain ⟨_, hrest, rfl⟩ := exists_of_emit_text_cons hgroup
    obtain ⟨s, _, _, hs, hclose, rfl⟩ := exists_of_emit_together_cons hrest
    obtain ⟨_, hnil, rfl⟩ := exists_of_emit_text_cons hclose
    cases hnil
    rw [Piece.written, expressionIn_expression] at hs
    exact ⟨s, hs, by rw [conciseBody, if_pos hobject, String.append_assoc]; rfl⟩
  · rw [if_neg (by simp [hobject])] at hchoice
    have hbare := emit_of_emit_single hchoice
    rw [Piece.written, expressionIn_expression] at hbare
    exact ⟨t, hbare, by rw [conciseBody, if_neg hobject]⟩

/-- The text of an arrow function, from those of its parameters and of what stands behind the arrow.
-/
theorem exists_of_emit_arrow
    (h : (together (Piece.writtenAll linked .expression arrow es)).emit layout level
      j = (.ok t, k)) :
    ∃ params rest j', ((listed "params").written linked .expression es).emit layout level j =
      (.ok params, j') ∧
      (arrowBody.written linked .expression es).emit layout level j' = (.ok rest, k) ∧
      t = (if (Fields.get es "async").truthy then "async " else "") ++ "(" ++ params ++
        ") => " ++ rest := by
  obtain ⟨_, _, _, hword, hfrom, rfl⟩ := exists_of_emit_together_cons h
  rw [emit_word] at hword
  cases hword
  obtain ⟨_, hlist, rfl⟩ := exists_of_emit_text_cons hfrom
  obtain ⟨params, _, j', hparams, harrow, rfl⟩ := exists_of_emit_together_cons hlist
  obtain ⟨rest, hrest, rfl⟩ := exists_of_emit_text_cons harrow
  exact ⟨params, rest, j', hparams, emit_of_emit_single hrest, by simp only [String.append_assoc]⟩

end Emitted

/-- What stands behind the arrow of a function is its body, put in parentheses if it is an object.
If the body is a node and no block, it starts with a brace if and only if it is no object and its
leftmost part starts with one. -/
theorem arrow_body_opening (linked : Bool) (v : Value) (es : Fields) (kind : String)
    (layout : Layout) (level : Int) (j k : Journal) (text : String) (hes : v.head = .map es)
    (hkind : Fields.get es "type" = .string "arrowFunctionExpression")
    (hbody : (Fields.get es "body").tag? = some kind) (hblock : kind ≠ "blockStatement")
    (h : (nodeCode linked .expression v).emit layout level j = (.ok text, k)) :
    ∃ params body j',
      ((listed "params").written linked .expression es).emit layout level j = (.ok params, j') ∧
      (nodeCode linked .expression (Fields.get es "body")).emit layout level j' = (.ok body, k) ∧
      text = (if (Fields.get es "async").truthy then "async " else "") ++ "(" ++
        params ++ ") => " ++
        conciseBody kind body ∧
      ((conciseBody kind body).toList.head? = some '\x7b' ↔
        kind ≠ "objectExpression" ∧ nodeOpening (Fields.get es "body") = some true) := by
  obtain ⟨params, rest, j', hparams, hrest, htext⟩ :=
    exists_of_emit_arrow (emit_rule_of_emit hes hkind rfl h)
  obtain ⟨body, hemit, rfl⟩ := exists_of_emit_arrowBody hbody hblock hrest
  refine ⟨params, body, j', hparams, hemit, htext, ?_⟩
  have hopening : textOpening body = nodeOpening (Fields.get es "body") :=
    leads_nodeCode linked _ layout level j' body k hemit
  rw [← textOpening_eq_some_true_iff, textOpening_conciseBody, hopening]
  by_cases hobject : kind = "objectExpression"
  · simp [hobject]
  · simp [hobject]

def assignmentNode (left right : Value) : Value :=
  .map [(.string "type", .string "assignmentExpression"), (.string "operator", .string "="),
    (.string "left", left), (.string "right", right)]

def arrowFields (params : List Value) (body : Value) : Fields :=
  [(.string "type", .string "arrowFunctionExpression"), (.string "params", .list params),
    (.string "body", body)]

theorem arrow_body_opening_assignment :
    let body := assignmentNode (.map [(.string "type", .string "memberExpression"),
  (.string "object", .string "a"),
      (.string "property", .string "b")]) (.string "c")
    (nodeCode true .expression (.map (arrowFields [.string "a"] body))).emit ⟨{}⟩ 0 (.empty none) =
        (.ok "(a) => a.b = c", .empty none) ∧
      ∃ params text j',
        ((listed "params").written true .expression (arrowFields [.string "a"] body)).emit ⟨{}⟩ 0
          (.empty none) = (.ok params, j') ∧
        (nodeCode true .expression body).emit ⟨{}⟩ 0 j' = (.ok text, .empty none) ∧
        "(a) => a.b = c" = "" ++ "(" ++ params ++ ") => " ++
          conciseBody "assignmentExpression" text ∧
        ((conciseBody "assignmentExpression" text).toList.head? = some '\x7b' ↔
          "assignmentExpression" ≠ "objectExpression" ∧ nodeOpening body = some true) := by
  intro body
  have hemit : (nodeCode true .expression (.map (arrowFields [.string "a"] body))).emit ⟨{}⟩ 0
      (.empty none) =
      (.ok "(a) => a.b = c", .empty none) := by
    with_unfolding_all rfl
  exact ⟨hemit, arrow_body_opening true _ (arrowFields [.string "a"] body) "assignmentExpression"
    ⟨{}⟩ 0
    (.empty none) (.empty none) _ rfl rfl rfl (by decide) hemit⟩

/-- An assignment to a pattern stands bare behind the arrow, although no text in the node has a
brace in front. -/
theorem arrow_body_read_as_block :
    let pattern := Value.map [(.string "type", .string "objectPattern"),
  (.string "properties", .list [.string "a"])]
    let body := assignmentNode pattern (.string "b")
    let node := Value.map (arrowFields [] body)
    node.everyText (fun s => s.toList.head? != some '\x7b') = true ∧ nodeOpening body = some true ∧
      (nodeCode true .expression node).emit ⟨{}⟩ 0 (.empty none) =
        (.ok "() => \x7b a \x7d = b", .empty none) := by
  intro pattern body node
  exact ⟨by decide, by with_unfolding_all rfl, by with_unfolding_all rfl⟩

end Scriptwright.Script
