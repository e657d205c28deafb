import Scriptwright.Proofs.Schema.Acceptance
import Scriptwright.Proofs.Script.Returns

/-!
# Nodes the schema vouches for

The schema secures most uses that rules make of fields: sequences are declared as arrays, operands
refer to definitions. `Piece.secured` checks a rule against the fields of a variant. A node is
vouched for if the check accepts it and its kind has a variant that secures all uses. The main
statement is that such a node is sound, and that the check has gone on to all of its parts.
-/

namespace Scriptwright.Script

open Schema

/-- Whether a value is accepted where a definition is referred to. -/
def Accepted (ref : String) (v : Value) : Prop :=
  ∃ path, (checkValue nodeDefinitions (refersTo "any" ref) v path).Accepts

/-- What the check has made sure of for a value in a role. -/
def Checked : Role → Value → Prop
  | .node .expression, v => ∀ t, v.tag? = some t → Accepted "expression" v ∨ Accepted "statement" v
  | .node .statement, v => Accepted "statement" v
  | .markup, v => Accepted "markup" v
  | .statements, _ | .forest, _ => True

/-- Kinds with a field that is used in a way the schema does not secure: values that are written as
data, bodies and declarations of any type, decorators, and the name and attributes of an opening
element of any kind. -/
def openKinds : List String := [
  "literal", "jsxAttribute",
  "arrowFunctionExpression", "functionExpression", "functionDeclaration",
  "exportNamedDeclaration", "exportDefaultDeclaration",
  "classExpression", "classDeclaration", "objectMethod", "classMethod", "methodDefinition",
  "classProperty", "jsxElement"]

/-- Whether the schema has a variant for a kind, and secures its uses. -/
def Mode.declares (m : Mode) (t : String) : Bool :=
  (m.variants.lookup t).isSome && !openKinds.contains t

/-- Whether the schema makes sure that a value can be written, apart from its parts. -/
def Vouched : Role → Value → Prop
  | .node _, v => ∃ (m : Mode) (t : String), Accepted m.category v ∧ v.tag? = some t ∧
      m.declares t = true
  | .markup, v => Accepted "markup" v ∧ ∀ es, v.head = .map es →
      (Fields.get es "props").truthy = false
  | .statements, _ | .forest, _ => False

/-! ## Fields of a variant -/

/-- Whether the fields of a mapping, as far as they are there, are accepted by their descriptors. -/
def Suits (s es : Fields) : Prop :=
  ∀ f d v, Fields.get? s f = some (.map d) → Fields.get? es f = some v →
    ∃ path, (checkValue nodeDefinitions (.map d) v path).Accepts

def descriptor? (s : Fields) (f : String) : Option Fields :=
  match Fields.get? s f with
  | some (.map d) => some d
  | _ => none

def nested? (d : Fields) : Option Fields :=
  match Fields.get d "schema" with
  | .map s => some s
  | _ => none

def Mode.refs : Mode → List String
  | .expression => ["expression", "name"]
  | .statement => ["statement"]

/-- Whether a descriptor refers to a definition and asks for nothing else. -/
def refers (d : Fields) (ref : String) : Bool :=
  (Fields.get d "schema").isNull && (Fields.get d "ref").isKey ref

def isOperand (m : Mode) (d : Fields) : Bool := m.refs.any (refers d)

def record? (d : Fields) : Option Fields :=
  if (declaredType d).isKey "object" && (Fields.get d "ref").isNull then nested? d else none

def item? (s : Fields) (f : String) : Option Fields :=
  (descriptor? s f).bind fun d => if (declaredType d).isKey "array" then nested? d else none

section Fields

variable {s es : Fields} {f : String}

theorem suits_nil (s : Fields) : Suits s [] := fun _ _ _ _ h => nomatch h

theorem mem_of_get?_eq {v : Value} (h : Fields.get? s f = some v) : (Value.string f, v) ∈ s := by
  induction s with
  | nil => cases h
  | cons e s ih =>
    obtain ⟨k, w⟩ := e
    rw [Fields.get?] at h
    split at h
    · next hk =>
      cases h
      rw [isKey_iff.mp hk]
      exact List.mem_cons_self
    · exact List.mem_cons_of_mem _ (ih h)

theorem suits_of_fits {path : String} (h : ∀ e ∈ s, Fits nodeDefinitions path es e) :
    Suits s es := by
  intro f d v hd hv
  have hfits := h _ (mem_of_get?_eq hd)
  have hdisplay : (Value.string f).display = f := rfl
  simp only [Fits, hdisplay, hv] at hfits
  exact ⟨_, hfits⟩

theorem get?_eq_of_descriptor {d : Fields} (h : descriptor? s f = some d) :
    Fields.get? s f = some (.map d) := by
  unfold descriptor? at h
  split at h
  · next hd =>
    cases h
    exact hd
  · cases h

theorem get_eq_of_nested {d s' : Fields} (h : nested? d = some s') :
    Fields.get d "schema" = .map s' := by
  unfold nested? at h
  split at h
  · next hd =>
    cases h
    exact hd
  · cases h

/-- A field that is there is accepted, one that is not is null. -/
theorem Suits.field {d : Fields} (h : Suits s es) (hd : descriptor? s f = some d) :
    Fields.get es f = .null ∨ ∃ path,
      (checkValue nodeDefinitions (.map d) (Fields.get es f) path).Accepts := by
  rw [Fields.get]
  cases hv : Fields.get? es f with
  | none => exact .inl rfl
  | some v => exact .inr (h f d v (get?_eq_of_descriptor hd) hv)

theorem accepted_of_refers {d : Fields} {v : Value} {ref path : String} (hd : refers d ref = true)
    (h : (checkValue nodeDefinitions (.map d) v path).Accepts) : Accepted ref v := by
  obtain ⟨hschema, href⟩ := Bool.and_eq_true_iff.mp hd
  exact ⟨path, accepts_refersTo (eq_null_of_isNull hschema) (isKey_iff.mp href) h⟩

/-- A field with an array of items is a list of them, if it is there. -/
theorem Suits.items {i : Fields} (h : Suits s es) (hi : item? s f = some i) :
    ∃ items, (Fields.get es f).elementsOrNone = .ok items ∧ (Fields.get es f).statements = items ∧
      ∀ w ∈ items, ∃ path, (checkValue nodeDefinitions (.map i) w path).Accepts := by
  obtain ⟨d, hd, hitem⟩ := Option.bind_eq_some_iff.mp hi
  split at hitem
  · next htype =>
    rcases h.field hd with hnull | ⟨path, haccepts⟩
    · rw [hnull]
      exact ⟨[], rfl, rfl, List.forall_mem_nil _⟩
    · obtain ⟨items, hitems, hall⟩ :=
        items_of_accepts (isKey_iff.mp htype) (get_eq_of_nested hitem) haccepts
      refine ⟨items, Value.elementsOrNone_of_head hitems, ?_, hall⟩
      rw [Value.statements, hitems]
  · cases hitem

theorem fields_of_record {d s' : Fields} {v : Value} {path : String} (hd : record? d = some s')
    (h : (checkValue nodeDefinitions (.map d) v path).Accepts) :
    ∃ inner, v.head = .map inner ∧ ∀ e ∈ s', Fits nodeDefinitions path inner e := by
  unfold record? at hd
  split at hd
  · next hcond =>
    obtain ⟨htype, href⟩ := Bool.and_eq_true_iff.mp hcond
    exact fields_of_accepts (isKey_iff.mp htype) (get_eq_of_nested hd) (eq_null_of_isNull href) h
  · cases hd

theorem Suits.record {d s' : Fields} (h : Suits s es) (hd : descriptor? s f = some d)
    (hs' : record? d = some s') :
    Fields.get es f = .null ∨ ∃ inner, (Fields.get es f).head = .map inner ∧ Suits s' inner := by
  rcases h.field hd with hnull | ⟨path, haccepts⟩
  · exact .inl hnull
  · obtain ⟨inner, hinner, hfits⟩ := fields_of_record hs' haccepts
    exact .inr ⟨inner, hinner, suits_of_fits hfits⟩

end Fields

/-! ## Secured rules -/

def operandIn (m : Mode) (s : Fields) (f : String) : Bool := (descriptor? s f).any (isOperand m)

def operandsIn (m : Mode) (s : Fields) (f : String) : Bool := (item? s f).any (isOperand m)

mutual

/-- Whether the fields of a variant secure everything that a piece uses; `own` says that the node
itself may be written as an expression. -/
def Piece.secured (own : Bool) (s : Fields) : Piece → Bool
  | .text _ | .margin | .shown _ _ | .source _ => true
  | .data _ | .attributeValue _ | .accessor _ | .members _ | .within _ _ => false
  | .itself _ => own
  | .expression f | .name f | .unary _ f => operandIn .expression s f
  | .statement f => operandIn .statement s f
  | .each f _ _ _ | .specifiers f => operandsIn .expression s f
  | .interleaved texts f => (item? s texts).isSome && operandsIn .expression s f
  | .sequence f => operandsIn .statement s f
  | .body f =>
    operandsIn .statement s f ||
      ((descriptor? s f).bind record?).any fun s' => operandsIn .statement s' "body"
  | .eachRecord f untagged _ parts =>
    if untagged then (item? s f).any (refers · "expression")
    else ((item? s f).bind record?).any fun s' => Piece.allSecured false s' parts
  | .eachCase f parts => ((item? s f).bind record?).any fun s' => Piece.allSecured false s' parts
  | .inside f parts => ((descriptor? s f).bind record?).any fun s' =>
      Piece.allSecured false s' parts
  | .deeper parts | .shaped _ parts | .group parts => Piece.allSecured own s parts
  | .choose _ yes no => Piece.allSecured own s yes && Piece.allSecured own s no

def Piece.allSecured (own : Bool) (s : Fields) : List Piece → Bool
  | [] => true
  | p :: ps => Piece.secured own s p && Piece.allSecured own s ps

end

/-- Whether a use fits or, for a part, the check has gone on to it. No schema bounds the numbers in
a text. -/
def Use.Secure : Use → Prop
  | .part r v => Checked r v
  | .spelled _ => True
  | u => u.sound = true

theorem exists_of_tag {v : Value} {t : String} (h : v.tag? = some t) :
    ∃ es, v.head = .map es ∧ Fields.get es "type" = .string t := by
  unfold Value.tag? at h
  split at h
  · next es hes =>
    refine ⟨es, hes, ?_⟩
    unfold Value.asText? at h
    split at h
    · next s hs =>
      cases h
      exact hs
    · cases h
  · cases h

theorem accepted_expression_of_name {v : Value} {t : String} (h : Accepted "name" v)
    (ht : v.tag? = some t) :
    Accepted "expression" v := by
  obtain ⟨path, haccepts⟩ := h
  obtain ⟨es, hes, htag⟩ := exists_of_tag ht
  obtain ⟨hv, hhead⟩ := accepts_head.mp haccepts
  refine ⟨path, accepts_head.mpr ⟨hv, ?_⟩⟩
  rw [hes] at hhead ⊢
  exact accepts_expression_of_name htag hhead

theorem has_type_of_accepted (m : Mode) {v : Value} {es : Fields} (h : Accepted m.category v)
    (hes : v.head = .map es) :
    Fields.has es "type" = true := by
  obtain ⟨path, haccepts⟩ := h
  obtain ⟨definitions, hdefinitions, hfind⟩ := find?_category m
  replace haccepts := (accepts_head.mp haccepts).2
  rw [hes, hdefinitions] at haccepts
  have hdefinition := (accepts_ref rfl rfl rfl hfind).mp haccepts
  rw [checkDefinition, Verdict.accepts_andThen] at hdefinition
  have hfits := accepts_checkFields.mp hdefinition.1 (.string "type", name) List.mem_cons_self
  unfold Fits at hfits
  have hdisplay : (Value.string "type").display = "type" := rfl
  rw [hdisplay] at hfits
  rw [Fields.has]
  cases hfield : Fields.get? es "type" with
  | some w => rfl
  | none =>
    rw [hfield] at hfits
    cases hfits

theorem checked_of_isOperand {m : Mode} {d : Fields} {v : Value} {path : String}
    (hd : isOperand m d = true) (h : (checkValue nodeDefinitions (.map d) v path).Accepts) :
    Checked (.node m) v := by
  obtain ⟨ref, hmem, href⟩ := List.any_eq_true.mp hd
  have haccepted := accepted_of_refers href h
  cases m with
  | statement =>
    rw [List.mem_singleton.mp hmem] at haccepted
    exact haccepted
  | expression =>
    intro t ht
    simp only [Mode.refs, List.mem_cons, List.not_mem_nil, or_false] at hmem
    rcases hmem with rfl | rfl
    · exact .inl haccepted
    · exact .inl (accepted_expression_of_name haccepted ht)

theorem checked_null (m : Mode) : Checked (.node m) .null := by
  cases m with
  | statement => exact ⟨"", accepts_checkValue.mpr ⟨rfl, rfl, rfl⟩⟩
  | expression =>
    intro t ht
    cases ht

theorem mem_statements_of_head {v w : Value} {es : Fields} (h : v.head = .map es)
    (hw : w ∈ v.statements) :
    w ∈ (Fields.get es "body").statements := by
  unfold Value.statements at hw
  rw [h] at hw
  dsimp only at hw
  split at hw
  · next items hitems =>
    rw [Value.statements, hitems]
    exact hw
  · cases hw

section Secured

variable {s es : Fields} {f : String} {m : Mode}

theorem secure_operand (hs : Suits s es) (hf : operandIn m s f = true) :
    (Use.node m (Fields.get es f)).Secure := by
  obtain ⟨d, hd, hoperand⟩ := (Option.any_eq_true _ _).mp hf
  rcases hs.field hd with hnull | ⟨path, haccepts⟩
  · rw [hnull]
    exact checked_null m
  · exact checked_of_isOperand hoperand haccepts

theorem secure_sequence {i : Fields} (hs : Suits s es) (hi : item? s f = some i) :
    (Use.sequence (Fields.get es f)).Secure := by
  obtain ⟨items, helements, -⟩ := hs.items hi
  show (Fields.get es f).elementsOrNone.isOk = true
  rw [helements]
  rfl

theorem secure_operands (hs : Suits s es) (hf : operandsIn m s f = true) :
    (∀ u ∈ .sequence (Fields.get es f) :: (Fields.get es f).yielded.map (Use.node m), u.Secure) ∧
      ∀ u ∈ (Fields.get es f).statements.map (Use.node m), u.Secure := by
  obtain ⟨i, hi, hoperand⟩ := (Option.any_eq_true _ _).mp hf
  obtain ⟨items, helements, hstatements, haccepts⟩ := hs.items hi
  have hall : ∀ u ∈ items.map (Use.node m), u.Secure := by
    refine List.forall_mem_map.mpr fun w hw => ?_
    obtain ⟨path, hw⟩ := haccepts w hw
    exact checked_of_isOperand hoperand hw
  rw [Value.yielded_of_ok helements, hstatements]
  exact ⟨List.forall_mem_cons.mpr ⟨secure_sequence hs hi, hall⟩, hall⟩

theorem record_of_yielded {i s' : Fields} {w : Value} (hs : Suits s es) (hi : item? s f = some i)
    (hrecord : record? i = some s') (hw : w ∈ (Fields.get es f).yielded) :
    ∃ inner, w.head = .map inner ∧ Suits s' inner := by
  obtain ⟨items, helements, -, haccepts⟩ := hs.items hi
  rw [Value.yielded_of_ok helements] at hw
  obtain ⟨path, hw⟩ := haccepts w hw
  obtain ⟨inner, hinner, hfits⟩ := fields_of_record hrecord hw
  exact ⟨inner, hinner, suits_of_fits hfits⟩

theorem secure_body (hs : Suits s es) (hf : (Piece.body f).secured false s = true) :
    ∀ u ∈ (Fields.get es f).statements.map (Use.node .statement), u.Secure := by
  rcases Bool.or_eq_true_iff.mp hf with harray | hblock
  · exact (secure_operands hs harray).2
  · obtain ⟨s', hs', hbody⟩ := (Option.any_eq_true _ _).mp hblock
    obtain ⟨d, hd, hrecord⟩ := Option.bind_eq_some_iff.mp hs'
    rcases hs.record hd hrecord with hnull | ⟨inner, hinner, hsuits⟩
    · rw [hnull]
      exact List.forall_mem_nil _
    · refine List.forall_mem_map.mpr fun w hw => ?_
      exact List.forall_mem_map.mp (secure_operands hsuits hbody).2 w
        (mem_statements_of_head hinner hw)

end Secured

mutual

/-- What the fields of a variant secure holds of every node that suits the variant. -/
theorem Piece.secure_of_secured {own : Bool} {s es : Fields} (hs : Suits s es)
    (hown : own = true → Checked (.node .expression) (.map es)) :
    (p : Piece) → p.secured own s = true → ∀ u ∈ p.uses es, u.Secure
  | .text _, _ | .margin, _ => List.forall_mem_nil _
  | .shown _ _, _ | .source _, _ => List.forall_mem_singleton.mpr trivial
  | .data _, hp | .attributeValue _, hp | .accessor _, hp | .members _, hp | .within _ _,
      hp => nomatch hp
  | .itself _, hp => List.forall_mem_singleton.mpr (hown hp)
  | .expression f, hp => List.forall_mem_singleton.mpr (secure_operand hs hp)
  | .unary _ f, hp => List.forall_mem_cons.mpr
      ⟨trivial, List.forall_mem_singleton.mpr (secure_operand hs hp)⟩
  | .statement f, hp => List.forall_mem_singleton.mpr (secure_operand hs hp)
  | .name f, hp => by
    rw [Piece.uses]
    split
    · exact List.forall_mem_singleton.mpr trivial
    · exact List.forall_mem_singleton.mpr (secure_operand hs hp)
  | .each f _ _ _, hp | .specifiers f, hp | .sequence f, hp => (secure_operands hs hp).1
  | .interleaved texts f, hp => by
    obtain ⟨htexts, hoperands⟩ := Bool.and_eq_true_iff.mp hp
    obtain ⟨i, hi⟩ := Option.isSome_iff_exists.mp htexts
    obtain ⟨hsequence, helements⟩ := List.forall_mem_cons.mp (secure_operands hs hoperands).1
    have hshown : ∀ u ∈ (Fields.get es texts).yielded.map fun t =>
        Use.spelled (templateText t), u.Secure :=
      List.forall_mem_map.mpr fun _ _ => trivial
    exact List.forall_mem_cons.mpr ⟨secure_sequence hs hi,
      List.forall_mem_cons.mpr ⟨hsequence, List.forall_mem_append.mpr ⟨hshown, helements⟩⟩⟩
  | .body f, hp => secure_body hs hp
  | .eachRecord f true _ parts, hp => by
    obtain ⟨i, hi, hrefers⟩ := (Option.any_eq_true _ _).mp hp
    obtain ⟨items, helements, -, haccepts⟩ := hs.items hi
    refine List.forall_mem_cons.mpr
      ⟨secure_sequence hs hi, List.forall_mem_flatMap.mpr fun w hw => ?_⟩
    rw [Value.yielded_of_ok helements] at hw
    obtain ⟨path, hw⟩ := haccepts w hw
    have haccepted := accepted_of_refers hrefers hw
    have hchecked : (Use.node .expression w).Secure := fun _ _ => .inl haccepted
    cases hhead : w.head with
    | map inner =>
      simp only [has_type_of_accepted .expression haccepted hhead]
      exact List.forall_mem_singleton.mpr hchecked
    | _ => exact List.forall_mem_singleton.mpr hchecked
  | .eachRecord f false _ parts, hp | .eachCase f parts, hp => by
    obtain ⟨s', hs', hparts⟩ := (Option.any_eq_true _ _).mp hp
    obtain ⟨i, hi, hrecord⟩ := Option.bind_eq_some_iff.mp hs'
    refine List.forall_mem_cons.mpr
      ⟨secure_sequence hs hi, List.forall_mem_flatMap.mpr fun w hw => ?_⟩
    obtain ⟨inner, hinner, hsuits⟩ := record_of_yielded hs hi hrecord hw
    simp only [hinner]
    exact Piece.allSecure_of_secured hsuits (fun h => absurd h Bool.false_ne_true) parts hparts
  | .inside f parts, hp => by
    obtain ⟨s', hs', hparts⟩ := (Option.any_eq_true _ _).mp hp
    obtain ⟨d, hd, hrecord⟩ := Option.bind_eq_some_iff.mp hs'
    rcases hs.record hd hrecord with hnull | ⟨inner, hinner, hsuits⟩
    · rw [Piece.uses, hnull]
      refine List.forall_mem_cons.mpr ⟨rfl, ?_⟩
      exact Piece.allSecure_of_secured (suits_nil s') (fun h => absurd h Bool.false_ne_true)
        parts hparts
    · rw [Piece.uses, hinner]
      exact Piece.allSecure_of_secured hsuits (fun h => absurd h Bool.false_ne_true) parts hparts
  | .deeper parts, hp => Piece.allSecure_of_secured hs hown parts hp
  | .shaped _ parts, hp => Piece.allSecure_of_secured hs hown parts hp
  | .group parts, hp => Piece.allSecure_of_secured hs hown parts hp
  | .choose test yes no, hp => by
    obtain ⟨hyes, hno⟩ := Bool.and_eq_true_iff.mp hp
    rw [Piece.uses]
    split
    · exact Piece.allSecure_of_secured hs hown yes hyes
    · exact Piece.allSecure_of_secured hs hown no hno

theorem Piece.allSecure_of_secured {own : Bool} {s es : Fields} (hs : Suits s es)
    (hown : own = true → Checked (.node .expression) (.map es)) :
    (ps : List Piece) → Piece.allSecured own s ps = true → ∀ u ∈ Piece.usesAll ps es, u.Secure
  | [], _ => List.forall_mem_nil _
  | p :: ps, hps => by
    obtain ⟨hp, hps⟩ := Bool.and_eq_true_iff.mp hps
    refine List.forall_mem_append.mpr ⟨?_, ?_⟩
    · exact Piece.secure_of_secured hs hown p hp
    · exact Piece.allSecure_of_secured hs hown ps hps

end

/-! ## The table -/

def withKind : String := "withStatement"

/-- Whether the variants of the kinds that are declared secure their rules. -/
def Mode.secures (m : Mode) : Bool :=
  m.rules.all fun r => r.1 == withKind ||
    [Mode.expression, .statement].all fun m' =>
      !m'.declares r.1 ||
        match m'.variants.lookup r.1 with
        | some (.map s) => Piece.allSecured true s r.2
        | _ => false

theorem Mode.secures_eq_true (m : Mode) : m.secures = true := by
  cases m with
  | expression => decide +kernel
  | statement => decide +kernel

theorem exists_variant {m m' : Mode} {t : String} {rule : Rule}
    (hrule : m.rules.lookup t = some rule) (ht : t ≠ withKind) (hdeclares : m'.declares t = true) :
    ∃ s, m'.variants.lookup t = some (.map s) ∧ Piece.allSecured true s rule = true := by
  have hrow := List.all_eq_true.mp m.secures_eq_true _ (mem_of_lookup hrule)
  rcases Bool.or_eq_true_iff.mp hrow with hkind | hmodes
  · exact absurd (beq_iff_eq.mp hkind) ht
  · have hmode : m' ∈ [Mode.expression, .statement] := by cases m' <;> decide
    have hsecured := List.all_eq_true.mp hmodes m' hmode
    rw [hdeclares] at hsecured
    dsimp only [Bool.not_true, Bool.false_or] at hsecured
    split at hsecured
    · next s hs => exact ⟨s, hs, hsecured⟩
    · cases hsecured

theorem suits_of_accepted {m : Mode} {v : Value} {es s : Fields} {t : String}
    (h : Accepted m.category v) (hes : v.head = .map es) (htag : Fields.get es "type" = .string t)
    (hvariant : m.variants.lookup t = some (.map s)) :
    Suits s es := by
  obtain ⟨path, haccepts⟩ := h
  obtain ⟨definitions, hdefinitions, hfind⟩ := find?_category m
  replace haccepts := (accepts_head.mp haccepts).2
  rw [hes, hdefinitions] at haccepts
  have hfits := (accepts_node hfind htag hvariant).mp haccepts
  rw [← hdefinitions] at hfits
  exact suits_of_fits hfits

theorem exists_of_tagged {es : Fields} {f : String} {tags : List String}
    (h : (Test.tagged f tags).holds es = true) :
    ∃ t ∈ tags, (Fields.get es f).tag? = some t := by
  unfold Test.holds at h
  dsimp only at h
  split at h
  · next t ht => exact ⟨t, List.contains_iff_mem.mp h, ht⟩
  · cases h

/-- The body of the statement is a block whose statements have been checked, or a statement that
has. -/
theorem secure_with {v : Value} {es : Fields} (h : Accepted "statement" v) (hes : v.head = .map es)
    (htag : Fields.get es "type" = .string withKind) :
    ∀ u ∈ Piece.usesAll withRule es, u.Secure := by
  have hs := suits_of_accepted (m := .statement) h hes htag rfl
  have hown : false = true → Checked (.node .expression) (.map es) :=
    fun h => absurd h Bool.false_ne_true
  refine List.forall_mem_append.mpr ⟨Piece.secure_of_secured hs hown _ rfl,
    List.forall_mem_append.mpr ⟨?_, ?_⟩⟩
  · have hbody : (Use.node .statement (Fields.get es "body")).Secure := secure_operand hs rfl
    rw [Piece.uses, Piece.usesAll, Piece.uses]
    refine List.forall_mem_append.mpr ⟨?_, List.forall_mem_nil _⟩
    split
    · next hblock =>
      obtain ⟨t, ht, hinner⟩ := exists_of_tagged hblock
      rw [List.mem_singleton.mp ht] at hinner
      obtain ⟨inner, hhead, hkind⟩ := exists_of_tag hinner
      have hsuits := suits_of_accepted (m := .statement) hbody hhead hkind rfl
      rw [Piece.usesAll, Piece.uses, hhead]
      refine List.forall_mem_append.mpr ⟨?_, List.forall_mem_nil _⟩
      exact Piece.allSecure_of_secured hsuits (fun h => absurd h Bool.false_ne_true)
        [.sequence "body"] rfl
    · exact Piece.allSecure_of_secured hs hown [.statement "body"] rfl
  · exact List.forall_mem_nil _

theorem secure_node {m m' : Mode} {v : Value} {t : String} (h : Accepted m'.category v)
    (ht : v.tag? = some t) (hdeclares : m'.declares t = true) :
    ∀ u ∈ Role.uses (.node m) v, u.Secure := by
  obtain ⟨es, hes, htag⟩ := exists_of_tag ht
  have hown : Checked (.node .expression) (.map es) := by
    intro t' ht'
    obtain ⟨path, haccepts⟩ := h
    have hhead := (accepts_head.mp haccepts).2
    rw [hes] at hhead
    cases m' with
    | expression => exact .inl ⟨path, hhead⟩
    | statement => exact .inr ⟨path, hhead⟩
  simp only [Role.uses, hes]
  refine List.forall_mem_cons.mpr ⟨?_, ?_⟩
  · show (Fields.get es "type").hashable = true
    rw [htag]
    rfl
  · split
    · next rule hrule =>
      obtain ⟨t', htag', hlookup⟩ := exists_lookup_of_selectRule hrule
      obtain rfl : t = t' := Value.string.inj (htag.symm.trans htag')
      by_cases hkind : t = withKind
      · subst hkind
        cases m with
        | expression => cases hlookup
        | statement =>
          cases hlookup
          cases m' with
          | expression => cases hdeclares
          | statement => exact secure_with h hes htag
      · obtain ⟨s, hvariant, hsecured⟩ := exists_variant hlookup hkind hdeclares
        exact Piece.allSecure_of_secured (suits_of_accepted h hes htag hvariant)
          (fun _ => hown) rule hsecured
    · exact List.forall_mem_singleton.mpr trivial

theorem secure_markup {v : Value} (h : Vouched .markup v) :
    ∀ u ∈ Role.uses .markup v, u.Secure := by
  obtain ⟨⟨path, haccepts⟩, hprops⟩ := h
  rw [Role.uses]
  split
  · next es hes =>
    split
    · have hsound : (Use.props (Fields.get es "props")).Secure := by
        show (!(Fields.get es "props").truthy || _) = true
        rw [hprops es hes]
        rfl
      have hs : Suits (Fields.ofTexts markupFields) es := by
        replace haccepts := (accepts_head.mp haccepts).2
        rw [hes, nodeDefinitions_eq] at haccepts
        have hdefinition := (accepts_ref rfl rfl rfl (find?_ofTexts _ _)).mp haccepts
        rw [checkDefinition, Verdict.accepts_andThen] at hdefinition
        exact suits_of_fits (accepts_checkFields.mp hdefinition.1)
      split
      · obtain ⟨items, helements, -, hitems⟩ := hs.items (f := "children") rfl
        rw [Value.yielded_of_ok helements]
        refine List.forall_mem_cons.mpr
          ⟨hsound, List.forall_mem_cons.mpr ⟨secure_sequence hs rfl, ?_⟩⟩
        refine List.forall_mem_map.mpr fun w hw => ?_
        obtain ⟨path, hw⟩ := hitems w hw
        exact accepted_of_refers rfl hw
      · exact List.forall_mem_singleton.mpr hsound
    · exact List.forall_mem_singleton.mpr trivial
  · exact List.forall_mem_singleton.mpr trivial
  · exact List.forall_mem_nil _

theorem exhausted_of_accepted {ref : String} {v : Value} (h : Accepted ref v) :
    v.exhausted = false := by
  obtain ⟨path, haccepts⟩ := h
  exact (accepts_checkValue.mp haccepts).1

def Use.spells : Use → Bool
  | .spelled v => v.writable
  | _ => true

/-- Whether no text that a value shows holds a number with too many digits. -/
def Role.spells (r : Role) (v : Value) : Bool := (r.uses v).all Use.spells

theorem spells_of_sound {r : Role} {v : Value} (h : r.sound v = true) : r.spells v = true := by
  refine List.all_eq_true.mpr fun u hu => ?_
  have hsound := List.all_eq_true.mp (Bool.and_eq_true_iff.mp h).2 u hu
  cases u with
  | spelled w => exact hsound
  | _ => rfl

theorem sound_iff_of_secure {u : Use} (h : u.Secure) : u.sound = true ↔ u.spells = true := by
  cases u with
  | part r v => exact Iff.rfl
  | spelled v => exact Iff.rfl
  | _ => exact iff_of_true h rfl

/-- What the schema vouches for is sound up to the numbers it shows, and the check has gone on to
all of its parts. -/
theorem sound_iff_of_vouched {r : Role} {v : Value} (h : Vouched r v) :
    (r.sound v = true ↔ r.spells v = true) ∧ ∀ r' w, Use.part r' w ∈ r.uses v → Checked r' w := by
  have hsecure : r.lost v = false ∧ ∀ u ∈ r.uses v, u.Secure := by
    cases r with
    | node m =>
      obtain ⟨m', t, haccepted, ht, hdeclares⟩ := h
      exact ⟨exhausted_of_accepted haccepted, secure_node haccepted ht hdeclares⟩
    | markup => exact ⟨exhausted_of_accepted h.1, secure_markup h⟩
    | statements => exact h.elim
    | forest => exact h.elim
  refine ⟨?_, fun r' w hu => hsecure.2 _ hu⟩
  rw [Role.sound, hsecure.1, Role.spells, List.all_eq_true, Bool.not_false, Bool.true_and,
    List.all_eq_true]
  exact forall₂_congr fun u hu => sound_iff_of_secure (hsecure.2 u hu)

end Scriptwright.Script
