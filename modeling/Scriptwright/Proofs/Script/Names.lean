import Scriptwright.Proofs.Schema.Names
import Scriptwright.Proofs.Script.Equations

/-!
# Names in nodes

Rules that take a field for a name write the same whether it is a bare text or a mapping with a
name. `Piece.indifferent` is a check of rules for that, for each place where the schema refers to
names. The main statement is that a node is accepted and written alike with either form, except
where a rule takes the name for an expression.
-/

namespace Scriptwright.Script

open Schema

def Test.field : Test → String
  | .truthy f | .unlessFalse f | .has f | .given f | .record f | .tagged f _ |
      .block f | .bodiless f
  | .defaultCase f => f

def Test.sameForNames : Test → Bool
  | .truthy _ | .unlessFalse _ | .has _ | .given _ | .tagged _ _ => true
  | _ => false

def Test.indifferent (p : Place) (t : Test) : Bool :=
  p.first != t.field || p == .field t.field && t.sameForNames

mutual

/-- Whether a piece writes the same for both forms of the name at a place, given that the tests of
`falsehoods` fail; `own` says that the node as an expression is known to. -/
def Piece.indifferent (own : Bool) (falsehoods : List Test) (p : Place) : Piece → Bool
  | .text _ | .margin => true
  | .itself _ => own
  | .shown f _ | .data f | .expression f | .each f _ _ _ | .eachCase f _ | .members f |
      .body f | .sequence f
  | .statement f | .source f | .accessor f | .specifiers f | .attributeValue f | .within f _ |
      .inside f _ =>
    p.first != f
  | .name f => p.first != f || p == .field f
  | .eachRecord f untagged _ parts =>
    p.first != f ||
      match p with
      | .item _ q => !untagged && Piece.allIndifferent false [] q parts
      | _ => false
  | .unary f g | .interleaved f g => p.first != f && p.first != g
  | .deeper parts | .shaped _ parts | .group parts => Piece.allIndifferent own falsehoods p parts
  | .choose test yes no =>
    test.indifferent p && (falsehoods.contains test || Piece.allIndifferent own falsehoods p yes) &&
      Piece.allIndifferent own falsehoods p no

def Piece.allIndifferent (own : Bool) (falsehoods : List Test) (p : Place) : List Piece → Bool
  | [] => true
  | q :: qs => Piece.indifferent own falsehoods p q && Piece.allIndifferent own falsehoods p qs

end

section Renamed

variable {es es' : Fields} {p : Place}

theorem get_eq_of_renamed {f : String} (h : Renamed p es es') (hf : (p.first != f) = true) :
    Fields.get es' f = Fields.get es f := by
  rw [Fields.get, Fields.get, h.get?_eq (Ne.symm (bne_iff_ne.mp hf))]

theorem getD_eq_of_renamed {f : String} (h : Renamed p es es') (hf : (p.first != f) = true)
    (other : Value) :
    Fields.getD es' f other = Fields.getD es f other := by
  rw [Fields.getD, Fields.getD, h.get?_eq (Ne.symm (bne_iff_ne.mp hf))]

theorem exists_of_renamed_field {f : String} (h : Renamed (.field f) es es') :
    ∃ x, x ≠ "" ∧ Fields.get? es f = some (.string x) ∧ Fields.get? es' f = some (named x) := by
  cases h with
  | field hx hne => exact ⟨_, hne, hx, (Fields.get?_insert _ _ _ _).trans (if_pos rfl)⟩

theorem Test.holds_congr {t : Test} (h : Fields.get? es' t.field = Fields.get? es t.field) :
    t.holds es' = t.holds es := by
  cases t with
  | _ =>
    simp only [Test.field] at h
    simp only [Test.holds, Fields.get, Fields.getD, Fields.has, h]

theorem Test.holds_of_names {t : Test} {x : String} (ht : t.sameForNames = true) (hx : x ≠ "")
    (h : Fields.get? es t.field = some (.string x))
    (h' : Fields.get? es' t.field = some (named x)) :
    t.holds es' = t.holds es := by
  have htruthy : (Value.string x).truthy = true := bne_iff_ne.mpr hx
  cases t with
  | record | block | bodiless | defaultCase => cases ht
  | truthy f | unlessFalse f =>
    simp only [Test.field] at h h'
    simp only [Test.holds, Fields.get, Fields.getD, h, h', Option.getD_some, htruthy]
    rfl
  | has f | given f | tagged f tags =>
    simp only [Test.field] at h h'
    simp only [Test.holds, Fields.get, Fields.has, h, h']
    rfl

theorem holds_renamed {t : Test} (h : Renamed p es es') (ht : t.indifferent p = true) :
    t.holds es' = t.holds es := by
  rcases Bool.or_eq_true_iff.mp ht with hother | hname
  · exact Test.holds_congr (h.get?_eq (Ne.symm (bne_iff_ne.mp hother)))
  · obtain ⟨hplace, hsame⟩ := Bool.and_eq_true_iff.mp hname
    rw [beq_iff_eq.mp hplace] at h
    obtain ⟨x, hx, hbare, hnamed⟩ := exists_of_renamed_field h
    exact Test.holds_of_names hsame hx hbare hnamed

theorem nameCode_string (linked : Bool) (x : String) : nameCode linked (.string x) = .text x := by
  have hnode : nodeCode linked .expression (.string x) = .text x := by
    rw [nodeCode]
    rfl
  exact hnode

theorem nameCode_named (linked : Bool) (x : String) : nameCode linked (named x) = .text x := rfl

theorem nameIn_renamed (linked : Bool) (m : Mode) {f : String} (h : Renamed (.field f) es es') :
    nameIn linked m (Fields.get es' f) = nameIn linked m (Fields.get es f) := by
  obtain ⟨x, -, hx, hx'⟩ := exists_of_renamed_field h
  rw [Fields.get, Fields.get, hx, hx', Option.getD_some, Option.getD_some, nameIn, nameIn,
    nameCode_string, nameCode_named]

end Renamed

mutual

theorem Piece.written_renamed (linked : Bool) (m : Mode) {es es' : Fields} {p : Place} {own : Bool}
    {falsehoods : List Test} (h : Renamed p es es') (hfalse : ∀ t ∈ falsehoods, t.holds es = false)
    (hown : own = true → nodeCode linked .expression (.map es') = nodeCode linked
      .expression (.map es)) :
    (q : Piece) → q.indifferent own falsehoods p = true →
      q.written linked m es' = q.written linked m es
  | .text _, _ | .margin, _ => rfl
  | .shown f _, hq => by
    rw [Piece.written, Piece.written, getD_eq_of_renamed h hq]
  | .data f, hq | .expression f, hq | .each f _ _ _, hq | .eachCase f _, hq | .members f,
      hq | .body f, hq
  | .sequence f, hq | .statement f, hq | .source f, hq | .accessor f, hq | .specifiers f, hq
  | .attributeValue f, hq | .within f _, hq | .inside f _, hq => by
    have hget : Fields.get es' f = Fields.get es f := get_eq_of_renamed h hq
    simp only [Piece.written, hget]
  | .name f, hq => by
    rw [Piece.written, Piece.written]
    rcases Bool.or_eq_true_iff.mp hq with hother | hname
    · rw [get_eq_of_renamed h hother]
    · rw [beq_iff_eq.mp hname] at h
      exact nameIn_renamed linked m h
  | .eachRecord f untagged between parts, hq => by
    by_cases hother : (p.first != f) = true
    · simp only [Piece.written, get_eq_of_renamed h hother]
    · have hitem := (Bool.or_eq_true_iff.mp hq).resolve_left hother
      cases h with
      | field | inside => cases hitem
      | @item _ inner inner' g place before after hbefore hplace =>
        obtain rfl : g = f := by simpa [Place.first] using hother
        obtain ⟨huntagged, hparts⟩ := Bool.and_eq_true_iff.mp hitem
        have hinner : Piece.writtenAll linked m parts inner' =
            Piece.writtenAll linked m parts inner := by
          refine Piece.writtenAll_renamed linked m hplace ?_ ?_ parts hparts
          · exact List.forall_mem_nil _
          · exact fun hown => absurd hown Bool.false_ne_true
        obtain rfl : untagged = false := by simpa using huntagged
        have hhead : ∀ fields : Fields, (Value.map fields).head = .map fields := fun _ => rfl
        have hitems : ∀ vs, (Value.list vs).elementsOrNone = .ok vs :=
          fun _ => Value.elementsOrNone_of_head rfl
        rw [Piece.written, Piece.written, Fields.get, Fields.get, hbefore,
          Fields.get?_insert, if_pos rfl]
        simp only [Option.getD_some, hitems, Except.map, List.map_append, List.map_cons,
          hhead, hinner, Bool.false_and, Bool.false_eq_true, if_false]
  | .unary f g, hq => by
    obtain ⟨hf, hg⟩ := Bool.and_eq_true_iff.mp hq
    rw [Piece.written, Piece.written, get_eq_of_renamed h hg, getD_eq_of_renamed h hf]
  | .interleaved f g, hq => by
    obtain ⟨hf, hg⟩ := Bool.and_eq_true_iff.mp hq
    rw [Piece.written, Piece.written, get_eq_of_renamed h hf, get_eq_of_renamed h hg]
  | .itself missing, hq => by
    rw [Piece.written, Piece.written, hown hq]
  | .deeper parts, hq => by
    rw [Piece.written, Piece.written, Piece.writtenAll_renamed linked m h hfalse hown parts hq]
  | .shaped _ parts, hq => by
    rw [Piece.written, Piece.written, Piece.writtenAll_renamed linked m h hfalse hown parts hq]
  | .group parts, hq => by
    rw [Piece.written, Piece.written, Piece.writtenAll_renamed linked m h hfalse hown parts hq]
  | .choose test yes no, hq => by
    obtain ⟨hfront, hno⟩ := Bool.and_eq_true_iff.mp hq
    obtain ⟨htest, hyes⟩ := Bool.and_eq_true_iff.mp hfront
    rw [Piece.written, Piece.written, holds_renamed h htest]
    cases hholds : test.holds es with
    | false =>
      rw [if_neg Bool.false_ne_true, if_neg Bool.false_ne_true,
        Piece.writtenAll_renamed linked m h hfalse hown no hno]
    | true =>
      rcases Bool.or_eq_true_iff.mp hyes with hknown | hyes
      · have hfails := hfalse test (List.contains_iff_mem.mp hknown)
        rw [hholds] at hfails
        cases hfails
      · rw [if_pos rfl, if_pos rfl, Piece.writtenAll_renamed linked m h hfalse hown yes hyes]

theorem Piece.writtenAll_renamed (linked : Bool) (m : Mode) {es es' : Fields} {p : Place}
    {own : Bool} {falsehoods : List Test} (h : Renamed p es es')
    (hfalse : ∀ t ∈ falsehoods, t.holds es = false)
    (hown : own = true → nodeCode linked .expression (.map es') = nodeCode linked
    .expression (.map es)) :
    (qs : List Piece) → Piece.allIndifferent own falsehoods p qs = true →
      Piece.writtenAll linked m qs es' = Piece.writtenAll linked m qs es
  | [], _ => rfl
  | q :: qs, hqs => by
    obtain ⟨hq, hqs⟩ := Bool.and_eq_true_iff.mp hqs
    rw [Piece.writtenAll, Piece.writtenAll, Piece.written_renamed linked m h hfalse hown q hq,
      Piece.writtenAll_renamed linked m h hfalse hown qs hqs]

end

/-! ## The tables -/

def Mode.indifferent (m : Mode) (own : Bool) (falsehoods : List Test) (t : String) (p : Place) :
    Bool :=
  match m.rules.lookup t with
  | some rule => Piece.allIndifferent own falsehoods p rule
  | none => true

theorem nodeCode_renamed (linked : Bool) {m : Mode} {es es' : Fields} {p : Place} {own : Bool}
    {falsehoods : List Test} {t : String} (h : Renamed p es es')
    (htag : Fields.get es "type" = .string t) (hfirst : (p.first != "type") = true)
    (hfalse : ∀ t ∈ falsehoods, t.holds es = false)
    (hown : own = true → nodeCode linked .expression (.map es') = nodeCode linked
    .expression (.map es)) (hrule : m.indifferent own falsehoods t p = true) :
    nodeCode linked m (.map es') = nodeCode linked m (.map es) := by
  have hselect : selectRule m es' = selectRule m es := by
    rw [selectRule, selectRule, get_eq_of_renamed h hfirst]
  rw [nodeCode_map, nodeCode_map, hselect]
  congr 1
  funext _
  cases hsel : selectRule m es with
  | inr code => rfl
  | inl rule =>
    obtain ⟨t', ht', hlookup⟩ := exists_lookup_of_selectRule hsel
    obtain rfl := Value.string.inj (htag.symm.trans ht')
    simp only [Mode.indifferent, hlookup] at hrule
    exact congrArg Code.together (Piece.writtenAll_renamed linked m h hfalse hown rule hrule)

def Mode.bothIndifferent (m : Mode) (falsehoods : List Test) (t : String) (p : Place) : Bool :=
  Mode.expression.indifferent false falsehoods t p && m.indifferent true falsehoods t p

/-- The parameter of a handler is written as an expression. -/
def isCatchParameter (t : String) (p : Place) : Bool :=
  t == "tryStatement" && p == .inside "handler" (.field "param")

/-- The property of a member, which is written as an expression if it is computed. -/
def isMemberProperty (t : String) (p : Place) : Bool :=
  (t == "memberExpression" || t == "optionalMemberExpression") && p == .field "property"

/-- What is to be shown of a place where the schema refers to names. -/
def Mode.soundAt (m : Mode) (t : String) (p : Place) (d : Fields) : Bool :=
  (declaredType d).isKey "any" && (Fields.get d "schema").isNull && p.first != "type" &&
    (isCatchParameter t p ||
      m.bothIndifferent [.truthy "computed"] t p &&
        (isMemberProperty t p || m.bothIndifferent [] t p))

def Mode.sound (m : Mode) : Bool :=
  m.variants.all fun v =>
    match v.2 with
    | .map s => (places s).all fun q => !(Fields.get q.2 "ref").isKey "name" ||
        m.soundAt v.1 q.1 q.2
    | _ => true

theorem Mode.sound_eq_true (m : Mode) : m.sound = true := by
  cases m with
  | expression => decide +kernel
  | statement => decide +kernel

theorem soundAt_of_at {m : Mode} {t : String} {s d : Fields} {p : Place}
    (hvariant : m.variants.lookup t = some (.map s)) (hplace : At s p d)
    (href : Fields.get d "ref" = .string "name") : m.soundAt t p d = true := by
  have hplaces := List.all_eq_true.mp m.sound_eq_true _ (mem_of_lookup hvariant)
  have hname := List.all_eq_true.mp hplaces _ (mem_places hplace)
  rw [href] at hname
  exact hname

/-- Whether the name at a place of a node is taken for an expression. -/
def Misread (t : String) (p : Place) (es : Fields) : Prop :=
  isCatchParameter t p = true ∨ isMemberProperty t p = true ∧
    (Fields.get es "computed").truthy = true

theorem nodeCode_of_soundAt (linked : Bool) {m : Mode} {t : String} {d es es' : Fields} {p : Place}
    (hsound : m.soundAt t p d = true) (htag : Fields.get es "type" = .string t)
    (h : Renamed p es es') (hread : ¬Misread t p es) :
    nodeCode linked m (.map es') = nodeCode linked m (.map es) := by
  obtain ⟨hopen, hrules⟩ := Bool.and_eq_true_iff.mp hsound
  obtain ⟨-, hfirst⟩ := Bool.and_eq_true_iff.mp hopen
  have hrules := (Bool.or_eq_true_iff.mp hrules).resolve_left fun hcatch => hread (.inl hcatch)
  obtain ⟨hplain, hcomputed⟩ := Bool.and_eq_true_iff.mp hrules
  have hboth : ∃ falsehoods, (∀ t ∈ falsehoods, t.holds es = false) ∧
      m.bothIndifferent falsehoods t p = true := by
    cases htruthy : (Fields.get es "computed").truthy with
    | false => exact ⟨[.truthy "computed"], List.forall_mem_singleton.mpr htruthy, hplain⟩
    | true =>
      refine ⟨[], List.forall_mem_nil _, (Bool.or_eq_true_iff.mp hcomputed).resolve_left
        fun hmember => ?_⟩
      exact hread (.inr ⟨hmember, htruthy⟩)
  obtain ⟨falsehoods, hfalse, hboth⟩ := hboth
  obtain ⟨hexpression, hmode⟩ := Bool.and_eq_true_iff.mp hboth
  have hown : nodeCode linked .expression (.map es') = nodeCode linked .expression (.map es) :=
    nodeCode_renamed linked h htag hfirst hfalse
      (fun hown => absurd hown Bool.false_ne_true) hexpression
  exact nodeCode_renamed linked h htag hfirst hfalse (fun _ => hown) hmode

theorem accepts_renamed {m : Mode} {t : String} {s d es es' : Fields} {p : Place} {path : String}
    (hvariant : m.variants.lookup t = some (.map s)) (hplace : At s p d)
    (href : Fields.get d "ref" = .string "name") (hsound : m.soundAt t p d = true)
    (htag : Fields.get es "type" = .string t) (h : Renamed p es es')
    (haccepted : (checkValue nodeDefinitions (refersTo "any" m.category) (.map es) path).Accepts) :
    (checkValue nodeDefinitions (refersTo "any" m.category) (.map es') path).Accepts := by
  obtain ⟨hopen, -⟩ := Bool.and_eq_true_iff.mp hsound
  obtain ⟨hopen, hfirst⟩ := Bool.and_eq_true_iff.mp hopen
  obtain ⟨htype, hschema⟩ := Bool.and_eq_true_iff.mp hopen
  have htag' : Fields.get es' "type" = .string t := (get_eq_of_renamed h hfirst).trans htag
  obtain ⟨definitions, hdefinitions, hfind⟩ := find?_category m
  have hfits : ∀ e ∈ s, Fits nodeDefinitions path es e := by
    rw [hdefinitions] at haccepted ⊢
    exact (accepts_node hfind htag hvariant).mp haccepted
  have hfits' := fits_renamed hplace (isKey_iff.mp htype) (eq_null_of_isNull hschema) href h hfits
  rw [hdefinitions] at hfits' ⊢
  exact (accepts_node hfind htag' hvariant).mpr hfits'

/-- A node is accepted with either form of a name, and unless the name is taken for an expression it
is written the same: at every level, with the same text and the same diagnostics. -/
theorem emit_renamed (linked : Bool) (m : Mode) (t : String) (s d es es' : Fields) (p : Place)
    (path : String) (hvariant : m.variants.lookup t = some (.map s)) (hplace : At s p d)
    (href : Fields.get d "ref" = .string "name") (htag : Fields.get es "type" = .string t)
    (haccepted : (checkValue nodeDefinitions (refersTo "any" m.category) (.map es) path).Accepts)
    (h : Renamed p es es') :
    (checkValue nodeDefinitions (refersTo "any" m.category) (.map es') path).Accepts ∧
      (¬Misread t p es → ∀ layout level,
        (nodeCode linked m (.map es')).emit layout level =
          (nodeCode linked m (.map es)).emit layout level) := by
  have hsound := soundAt_of_at hvariant hplace href
  refine ⟨accepts_renamed hvariant hplace href hsound htag h haccepted,
    fun hread layout level => ?_⟩
  rw [nodeCode_of_soundAt linked hsound htag h hread]

/-- The property of a member that is not computed. -/
theorem emit_renamed_property :
    let s := Fields.ofTexts [("object", expression), ("property", binding), ("computed", flag),
  ("optional", flag)]
    let es := Fields.ofTexts [("type", .string "memberExpression"), ("object", .string "rows"),
      ("property", .string "length"), ("computed", .bool false)]
    let es' := Fields.ofTexts [("type", .string "memberExpression"), ("object", .string "rows"),
      ("property", named "length"), ("computed", .bool false)]
    Mode.expression.variants.lookup "memberExpression" = some (.map s) ∧
      (checkValue nodeDefinitions (refersTo "any" "expression") (.map es) "").Accepts ∧
      Renamed (.field "property") es es' ∧ ¬Misread "memberExpression" (.field "property") es ∧
      (checkValue nodeDefinitions (refersTo "any" "expression") (.map es') "").Accepts ∧
      ∀ layout level,
        (nodeCode true .expression (.map es')).emit layout level =
          (nodeCode true .expression (.map es)).emit layout level := by
  intro s es es'
  have hvariant : Mode.expression.variants.lookup "memberExpression" = some (.map s) := rfl
  have hplace : At s (.field "property")
      (Fields.ofTexts [("type", .string "any"), ("required", .bool true),
        ("ref", .string "name")]) := by
    refine .field ⟨.tail _ (.head _), fun e he hname => ?_⟩
    simp only [s, Fields.ofTexts, List.map_cons, List.map_nil, List.mem_cons, List.not_mem_nil,
      or_false] at he
    rcases he with rfl | rfl | rfl | rfl
    · exact absurd hname (by decide)
    · rfl
    · exact absurd hname (by decide)
    · exact absurd hname (by decide)
  have haccepted : (checkValue nodeDefinitions (refersTo "any" "expression")
      (.map es) "").Accepts := by decide +kernel
  have hrenamed : Renamed (.field "property") es es' := .field rfl (by decide)
  have hread : ¬Misread "memberExpression" (.field "property") es := by
    rintro (hcatch | ⟨-, hcomputed⟩)
    · exact absurd hcatch (by decide)
    · exact absurd hcomputed (by decide)
  have h := emit_renamed true .expression "memberExpression" s _ es es' _ "" hvariant hplace rfl rfl
    haccepted hrenamed
  exact ⟨hvariant, haccepted, hrenamed, hread, h.1, h.2 hread⟩

/-- The name of a caught value is lost if it is given as a mapping, though both forms are accepted.
-/
theorem emit_catch_named :
    let node := fun param => Value.record [("type", .string "tryStatement"),
  ("block", .record [("body", .list [])]),
      ("handler", .record [("param", param), ("body", .list [])])]
    let emitted := fun param => (nodeCode true .statement (node param)).emit ⟨{}⟩ 0 (.empty none)
    (checkValue nodeDefinitions (refersTo "any" "statement") (node (.string "e")) "").Accepts ∧
      (checkValue nodeDefinitions (refersTo "any" "statement") (node (named "e")) "").Accepts ∧
      (emitted (.string "e")).1.toOption = some "try \x7b\n\x7d catch (e) \x7b\n\x7d\n" ∧
      (emitted (named "e")).1.toOption = some "try \x7b\n\x7d catch () \x7b\n\x7d\n" ∧
      (emitted (.string "e")).2.texts = [] ∧
        (emitted (named "e")).2.texts = ["Unhandled expression type: None"] := by
  decide +kernel

end Scriptwright.Script
