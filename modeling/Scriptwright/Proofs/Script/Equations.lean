import Scriptwright.Script.Markup

/-!
# Equations of nodes

Rules are given a bound below which they may write other nodes, and the code of nodes is a recursion
along that bound. Here the bound goes away: `Piece.written` is the code of a piece without it, and
`nodeCode_map` is the equation of the code of a mapping. What is proved about nodes can be proved
from these equations alone.
-/

namespace Scriptwright.Script

def nodeVisitor (linked : Bool) (m : Mode) (bound : Nat) : Visitor bound :=
  ⟨m, linked, fun m' w _ => nodeCode linked m' w⟩

def expressionIn (linked : Bool) (m : Mode) (v : Value) : Code :=
  if m = .statement ∧ linked = false then .stop noExpressions else nodeCode linked .expression v

def nameIn (linked : Bool) (m : Mode) (v : Value) : Code :=
  if m = .statement ∧ linked = false then .stop .notRecord else nameCode linked v

def bodyIn (linked : Bool) (m : Mode) (v : Value) : Code :=
  if m = .expression ∧ linked = false then .stop noStatements
  else .together (v.statements.map (nodeCode linked .statement))

def memberIn (linked : Bool) (m : Mode) (v : Value) : Code :=
  .shaped (.member (if v.tag? = some "classProperty" then ";" else ""))
    [.margin, expressionIn linked m v]

def specifiersIn (linked : Bool) (m : Mode) (v : Value) : Code :=
  .ofExcept (v.elementsOrNone.map fun vs =>
    .shaped (.clauses (vs.map Visitor.isClause)) (vs.map (expressionIn linked m)))

def templateIn (linked : Bool) (m : Mode) (texts substitutions : Value) : Code :=
  match texts.elementsOrNone, substitutions.elementsOrNone with
  | .ok ts, .ok vs => .together (weave (ts.map templateText) (vs.map (expressionIn linked m)))
  | .error e, _ => .stop e
  | _, .error e => .stop e

mutual

/-- The code of a piece for a node, with no bound on what it writes. -/
def Piece.written (linked : Bool) (m : Mode) : Piece → Fields → Code
  | .text s, _ => .text s
  | .margin, _ => .margin
  | .shown f absent, node => .shown (Fields.getD node f (.string absent))
  | .data f, node => .ofExcept (((Fields.get node f).encode .wide).map .text)
  | .expression f, node => expressionIn linked m (Fields.get node f)
  | .name f, node => nameIn linked m (Fields.get node f)
  | .each f before between after, node =>
    .ofExcept ((Fields.get node f).elementsOrNone.map fun vs =>
      .separated between (vs.map fun w =>
        .together [.text before, expressionIn linked m w, .text after]))
  | .eachRecord f untagged between parts, node =>
    .ofExcept ((Fields.get node f).elementsOrNone.map fun vs =>
      .separated between (vs.map fun w =>
        match w.head with
        | .map es =>
          if untagged && Fields.has es "type" then expressionIn linked m w
          else .together (Piece.writtenAll linked m parts es)
        | _ => expressionIn linked m w))
  | .eachCase f parts, node =>
    .ofExcept ((Fields.get node f).elementsOrNone.map fun vs =>
      .together (vs.map fun w =>
        match w.head with
        | .map es => .together (Piece.writtenAll linked m parts es)
        | _ => .stop .notRecord))
  | .members f, node => .together ((Fields.get node f).statements.map (memberIn linked m))
  | .body f, node => bodyIn linked m (Fields.get node f)
  | .sequence f, node =>
    .ofExcept ((Fields.get node f).elementsOrNone.map fun vs =>
      .together (vs.map (nodeCode linked .statement)))
  | .statement f, node => nodeCode linked .statement (Fields.get node f)
  | .source f, node => sourceCode (Fields.get node f)
  | .accessor f, node => accessorCode (Fields.get node f)
  | .unary operator operand, node =>
    unaryCode (Fields.getD node operator (.string ""))
      (expressionIn linked m (Fields.get node operand))
  | .interleaved texts substitutions, node =>
    templateIn linked m (Fields.get node texts) (Fields.get node substitutions)
  | .specifiers f, node => specifiersIn linked m (Fields.get node f)
  | .attributeValue f, node => .ofExcept ((Script.attributeValue (Fields.get node f)).map .text)
  | .itself missing, node => if linked = false then .stop missing
      else nodeCode linked .expression (.map node)
  | .deeper parts, node => .deeper (.together (Piece.writtenAll linked m parts node))
  | .choose test yes no, node =>
    .together (if test.holds node then Piece.writtenAll linked m yes node
      else Piece.writtenAll linked m no node)
  | .within f parts, node =>
    match (Fields.get node f).head with
    | .map es => .together (Piece.writtenAll linked m parts es)
    | _ => .together (Piece.writtenAll linked m parts [])
  | .inside f parts, node =>
    match (Fields.get node f).head with
    | .map es => .together (Piece.writtenAll linked m parts es)
    | v => if v.truthy then .stop .notRecord else .together (Piece.writtenAll linked m parts [])
  | .shaped shape parts, node => .shaped shape (Piece.writtenAll linked m parts node)
  | .group parts, node => .together (Piece.writtenAll linked m parts node)

def Piece.writtenAll (linked : Bool) (m : Mode) : List Piece → Fields → List Code
  | [], _ => []
  | p :: ps, node => Piece.written linked m p node :: Piece.writtenAll linked m ps node

end

/-! ## The bound makes no difference -/

section Bound

variable {bound : Nat}

theorem each_eq_map {v : Value} (h : 2 * v.depth + 1 < bound)
    {f : (w : Value) → 2 * w.depth + 1 < bound → Code} {g : Value → Code}
    (hfg : ∀ w hw, f w hw = g w) : Visitor.each v h f = v.elementsOrNone.map (List.map g) := by
  unfold Visitor.each
  split
  · next e he => rw [he]; rfl
  · next vs hvs =>
    simp only [hfg]
    rw [hvs]
    exact congrArg Except.ok List.attach_map_val

theorem ofExcept_each {v : Value} (h : 2 * v.depth + 1 < bound)
    {f : (w : Value) → 2 * w.depth + 1 < bound → Code} {g : Value → Code} (F : List Code → Code)
    (hfg : ∀ w hw, f w hw = g w) :
    Code.ofExcept ((Visitor.each v h f).map F) = .ofExcept (v.elementsOrNone.map fun vs =>
      F (vs.map g)) := by
  rw [each_eq_map h hfg]
  cases v.elementsOrNone with
  | error e => rfl
  | ok vs => rfl

theorem eachStatement_eq_map {v : Value} (h : 2 * v.depth + 1 < bound)
    {f : (w : Value) → 2 * w.depth + 1 < bound → Code} {g : Value → Code}
    (hfg : ∀ w hw, f w hw = g w) :
    Visitor.eachStatement v h f = v.statements.map g := by
  unfold Visitor.eachStatement
  simp only [hfg]
  exact List.attach_map_val

variable (linked : Bool) (m : Mode)

theorem nodeVisitor_expression (v : Value) (h : 2 * v.depth + 1 < bound) :
    (nodeVisitor linked m bound).expression v h = expressionIn linked m v := rfl

theorem nodeVisitor_statement (v : Value) (h : 2 * v.depth + 1 < bound) :
    (nodeVisitor linked m bound).statement v h = nodeCode linked .statement v := rfl

theorem nodeVisitor_body (v : Value) (h : 2 * v.depth + 1 < bound) :
    (nodeVisitor linked m bound).bodyCode v h = bodyIn linked m v := by
  rw [Visitor.bodyCode, eachStatement_eq_map h (nodeVisitor_statement linked m)]
  rfl

theorem nodeVisitor_specifiers (v : Value) (h : 2 * v.depth + 1 < bound) :
    (nodeVisitor linked m bound).specifiersCode v h = specifiersIn linked m v := by
  rw [Visitor.specifiersCode, each_eq_map h (nodeVisitor_expression linked m), specifiersIn]
  cases v.elementsOrNone with
  | error e => rfl
  | ok vs => rfl

theorem nodeVisitor_template (texts v : Value) (h : 2 * v.depth + 1 < bound) :
    (nodeVisitor linked m bound).templateCode texts v h = templateIn linked m texts v := by
  rw [Visitor.templateCode, each_eq_map h (nodeVisitor_expression linked m), templateIn]
  cases texts.elementsOrNone with
  | error e => rfl
  | ok ts =>
    cases v.elementsOrNone with
    | error e => rfl
    | ok vs => rfl

end Bound

mutual

def Piece.rewrites : Piece → Bool
  | .itself _ => true
  | .eachRecord _ _ _ parts | .eachCase _ parts | .deeper parts | .within _ parts | .inside _ parts
  | .shaped _ parts | .group parts => Piece.anyRewrites parts
  | .choose _ yes no => Piece.anyRewrites yes || Piece.anyRewrites no
  | _ => false

def Piece.anyRewrites : List Piece → Bool
  | [] => false
  | p :: ps => Piece.rewrites p || Piece.anyRewrites ps

end

theorem two_mul_depth_record_lt {bound : Nat} {v : Value} {es : Fields}
    (h : 2 * v.depth + 1 < bound) (hv : v.head = .map es) : 2 * (Value.map es).depth < bound := by
  have := v.depth_head_le
  rw [hv] at this
  omega

theorem two_mul_depth_empty_lt {bound : Nat} {node : Fields}
    (h : 2 * (Value.map node).depth < bound) :
    2 * (Value.map []).depth < bound :=
  Nat.lt_of_le_of_lt (two_mul_depth_empty_le (Nat.le_refl _)) h

mutual

theorem Piece.code_eq_written (linked : Bool) (m : Mode) {bound : Nat} :
    (p : Piece) → (node : Fields) → (h : 2 * (Value.map node).depth ≤ bound) →
      (p.rewrites = true → 2 * (Value.map node).depth < bound) →
      p.code (nodeVisitor linked m bound) node h = p.written linked m node
  | .text _, _, _, _ | .margin, _, _, _ | .shown _ _, _, _, _ | .data _, _, _, _ |
      .expression _, _, _, _
  | .name _, _, _, _ | .statement _, _, _, _ | .source _, _, _, _ | .accessor _, _, _, _ |
      .unary _ _, _, _, _
  | .attributeValue _, _, _, _ => rfl
  | .each f before between after, node, h, _ => ofExcept_each (two_mul_depth_field_lt h f) _
      fun _ _ => rfl
  | .eachRecord f untagged between parts, node, h, _ => by
    refine ofExcept_each (two_mul_depth_field_lt h f) _ fun w hw => ?_
    split
    · next es hes =>
      rw [Piece.codes_eq_writtenAll linked m parts es _ fun _ =>
        two_mul_depth_record_lt hw hes, hes]
      rfl
    · next hno =>
      generalize w.head = v at hno ⊢
      cases v with
      | map es => exact absurd rfl (hno es)
      | _ => rfl
  | .eachCase f parts, node, h, _ => by
    refine ofExcept_each (two_mul_depth_field_lt h f) _ fun w hw => ?_
    split
    · next es hes =>
      rw [Piece.codes_eq_writtenAll linked m parts es _ fun _ =>
        two_mul_depth_record_lt hw hes, hes]
    · next hno =>
      generalize w.head = v at hno ⊢
      cases v with
      | map es => exact absurd rfl (hno es)
      | _ => rfl
  | .members f, node, h, _ => congrArg Code.together
      (eachStatement_eq_map (two_mul_depth_field_lt h f) fun _ _ => rfl)
  | .body f, node, h, _ => nodeVisitor_body linked m _ (two_mul_depth_field_lt h f)
  | .sequence f, node, h, _ => ofExcept_each (two_mul_depth_field_lt h f) _
      (nodeVisitor_statement linked m)
  | .interleaved _ substitutions, node, h, _ =>
    nodeVisitor_template linked m _ _ (two_mul_depth_field_lt h substitutions)
  | .specifiers f, node, h, _ => nodeVisitor_specifiers linked m _ (two_mul_depth_field_lt h f)
  | .itself missing, node, h, hself => by
    have hlt : weight .expression (.map node) < bound := hself rfl
    rw [Piece.code, Piece.written, dif_pos hlt]
    rfl
  | .deeper parts, node, h, hself => by
    rw [Piece.code, Piece.written, Piece.codes_eq_writtenAll linked m parts node h hself]
  | .choose test yes no, node, h, hself => by
    rw [Piece.code, Piece.written]
    cases test.holds node with
    | true =>
      rw [if_pos rfl, if_pos rfl, Piece.codes_eq_writtenAll linked m yes node h fun hy =>
        hself (Bool.or_eq_true_iff.mpr (.inl hy))]
    | false =>
      rw [if_neg Bool.false_ne_true, if_neg Bool.false_ne_true,
        Piece.codes_eq_writtenAll linked m no node h fun hn =>
        hself (Bool.or_eq_true_iff.mpr (.inr hn))]
  | .within f parts, node, h, hself | .inside f parts, node, h, hself => by
    have hf := two_mul_depth_field_lt h f
    rw [Piece.code, Piece.written]
    split
    · next es hes =>
      rw [Piece.codes_eq_writtenAll linked m parts es _ fun _ =>
        two_mul_depth_record_lt hf hes, hes]
    · next hno =>
      rw [Piece.codes_eq_writtenAll linked m parts [] _ fun hp => two_mul_depth_empty_lt (hself hp)]
      generalize (Fields.get node f).head = v at hno ⊢
      cases v with
      | map es => exact absurd rfl (hno es)
      | _ => rfl
  | .shaped shape parts, node, h, hself => by
    rw [Piece.code, Piece.written, Piece.codes_eq_writtenAll linked m parts node h hself]
  | .group parts, node, h, hself => by
    rw [Piece.code, Piece.written, Piece.codes_eq_writtenAll linked m parts node h hself]

theorem Piece.codes_eq_writtenAll (linked : Bool) (m : Mode) {bound : Nat} :
    (ps : List Piece) → (node : Fields) → (h : 2 * (Value.map node).depth ≤ bound) →
      (Piece.anyRewrites ps = true → 2 * (Value.map node).depth < bound) →
      Piece.codes (nodeVisitor linked m bound) ps node h = Piece.writtenAll linked m ps node
  | [], _, _, _ => rfl
  | p :: ps, node, h, hself => by
    rw [Piece.codes, Piece.writtenAll,
      Piece.code_eq_written linked m p node h fun hp => hself (Bool.or_eq_true_iff.mpr (.inl hp)),
      Piece.codes_eq_writtenAll linked m ps node h fun hps =>
        hself (Bool.or_eq_true_iff.mpr (.inr hps))]

end

/-! ## Nodes -/

theorem expressionIn_expression (linked : Bool) (v : Value) :
    expressionIn linked .expression v = nodeCode linked .expression v :=
  if_neg fun h => Mode.noConfusion h.1

theorem mem_of_lookup {α : Type} {t : String} {a : α} {rs : List (String × α)}
    (h : rs.lookup t = some a) :
    (t, a) ∈ rs := by
  induction rs with
  | nil => cases h
  | cons r rs ih =>
    obtain ⟨t', a'⟩ := r
    rw [List.lookup_cons] at h
    split at h
    · next ht =>
      cases h
      rw [beq_iff_eq.mp ht]
      exact List.mem_cons_self
    · exact List.mem_cons_of_mem _ (ih h)

theorem exists_lookup_of_selectRule {m : Mode} {es : Fields} {rule : Rule}
    (h : selectRule m es = .inl rule) :
    ∃ t, Fields.get es "type" = .string t ∧ m.rules.lookup t = some rule := by
  unfold selectRule at h
  dsimp only at h
  split at h
  · next t ht =>
    split at h
    · next rule' hrule =>
      cases h
      exact ⟨t, ht, hrule⟩
    · cases h
  · cases h

theorem anyRewrites_of_mem_expressionRules :
    ∀ r ∈ expressionRules, Piece.anyRewrites r.2 = false := by
  decide +kernel

/-- Only statements are written as the expressions they are. -/
theorem lt_weight_of_rewrites {m : Mode} {v : Value} {es : Fields} {rule : Rule}
    (hes : v.head = .map es) (hrule : selectRule m es = .inl rule)
    (h : Piece.anyRewrites rule = true) :
    2 * (Value.map es).depth < weight m v := by
  cases m with
  | expression =>
    obtain ⟨t, -, ht⟩ := exists_lookup_of_selectRule hrule
    have hnone := anyRewrites_of_mem_expressionRules (t, rule) (mem_of_lookup ht)
    exact absurd h (Bool.eq_false_iff.mp hnone)
  | statement => exact Nat.lt_succ_of_le (two_mul_depth_le_weight .expression hes)

/-- The code of a value that is a mapping: that of its rule, worked out when it is reached. -/
theorem nodeCode_of_head (linked : Bool) (m : Mode) {v : Value} {es : Fields}
    (hv : v.exhausted = false) (hes : v.head = .map es) :
    nodeCode linked m v = .deferred fun _ =>
      match selectRule m es with
      | .inl rule => .together (Piece.writtenAll linked m rule es)
      | .inr code => code := by
  rw [nodeCode, hv, if_neg Bool.false_ne_true]
  split
  · next es' hes' =>
    obtain rfl : es' = es := Value.map.inj (hes'.symm.trans hes)
    congr 1
    funext _
    cases hrule : selectRule m es' with
    | inr code => rfl
    | inl rule =>
      exact congrArg Code.together
        (Piece.codes_eq_writtenAll linked m rule es' _ (lt_weight_of_rewrites hes' hrule))
  · next hno => exact absurd hes (hno es)

theorem nodeCode_of_atom (linked : Bool) (m : Mode) {v : Value} (hv : v.exhausted = false)
    (hno : ∀ es, v.head ≠ .map es) : nodeCode linked m v = atomCode m v.head := by
  rw [nodeCode, hv, if_neg Bool.false_ne_true]
  split
  · next es hes => exact absurd hes (hno es)
  · rfl

theorem nodeCode_int (linked : Bool) (n : Int) :
    nodeCode linked .expression (.int n) = .shown (.int n) :=
  nodeCode_of_atom linked .expression rfl fun _ h => by cases h

theorem nodeCode_map (linked : Bool) (m : Mode) (es : Fields) :
    nodeCode linked m (.map es) = .deferred fun _ =>
      match selectRule m es with
      | .inl rule => .together (Piece.writtenAll linked m rule es)
      | .inr code => code :=
  nodeCode_of_head linked m rfl rfl

/-- Whether a value is a node of a kind that has the given fields. -/
structure IsNode (kind : String) (es : Fields) (v : Value) : Prop where
  followed : v.exhausted = false
  head : v.head = .map es
  kind : Fields.get es "type" = .string kind

theorem isNode_map {kind : String} {es : Fields} (h : Fields.get es "type" = .string kind) :
    IsNode kind es (.map es) :=
  ⟨rfl, rfl, h⟩

theorem IsNode.nodeCode_eq {kind : String} {es : Fields} {v : Value} {m : Mode} {rule : Rule}
    (h : IsNode kind es v) (linked : Bool) (hrule : m.rules.lookup kind = some rule) :
    nodeCode linked m v = .deferred fun _ => .together (Piece.writtenAll linked m rule es) := by
  have hselect : selectRule m es = .inl rule := by
    unfold selectRule
    simp only [h.kind, hrule]
  rw [nodeCode_of_head linked m h.followed h.head, hselect]

def elementCode (node : Fields) : Code :=
  match Fields.get node "type" with
  | .string tag =>
    if (Fields.get node "children").truthy then
      .together
        [.line [.text ("<" ++ tag), propsCode (Fields.get node "props"), .text ">"],
          .ofExcept ((Fields.get node "children").elementsOrNone.map fun vs =>
            .deeper (.together (vs.map markupCode))),
          .line [.text ("</" ++ tag ++ ">")]]
    else .line [.text ("<" ++ tag), propsCode (Fields.get node "props"), .text " />"]
  | kind => unhandled "markup" kind

theorem markupCode_of_head {v : Value} {es : Fields} (hv : v.exhausted = false)
    (hes : v.head = .map es) :
    markupCode v = .deferred fun _ => elementCode es := by
  rw [markupCode, hv, if_neg Bool.false_ne_true]
  split
  · next hs => cases hes.symm.trans hs
  · next hn => cases hes.symm.trans hn
  · next hx => cases hes.symm.trans hx
  · next es' hes' =>
    obtain rfl := Value.map.inj (hes.symm.trans hes')
    refine congrArg Code.deferred (funext fun _ => ?_)
    unfold elementCode
    cases Fields.get es "type" with
    | string tag =>
      dsimp only
      rw [ofExcept_each (f := fun w _ => markupCode w) (g := markupCode) _ _ fun _ _ => rfl]
    | _ => rfl
  · next hno => exact absurd hes (hno es)

end Scriptwright.Script
