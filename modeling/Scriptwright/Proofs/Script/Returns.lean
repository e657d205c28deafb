import Scriptwright.Proofs.Script.Equations
import Scriptwright.Proofs.Script.Uses
import Scriptwright.Proofs.Value.Everywhere

/-!
# When emission returns a text

Code fails to give a text only where it stops, and it stops only where a value is used against its
shape. `Role.sound` says of a value in a role that all its uses fit. The main statement is that the
code of a value returns a text exactly if this holds of the value and of everything that is written
as a part of it.
-/

namespace Scriptwright.Script

/-! ## Code that returns -/

theorem isOk_iff {α : Type} {x : Except Fault α} : x.isOk = true ↔ ∃ a, x = .ok a := by
  cases x with
  | ok a => exact iff_of_true rfl ⟨a, rfl⟩
  | error e =>
    refine iff_of_false Bool.false_ne_true fun hok => ?_
    obtain ⟨a, ha⟩ := hok
    cases ha

namespace Code

mutual

/-- Whether no part of a piece of code stops. -/
def Returns : Code → Prop
  | .stop _ => False
  | .deeper c => c.Returns
  | .shaped _ parts => AllReturn parts
  | .deferred code => (code ()).Returns
  | _ => True

def AllReturn : List Code → Prop
  | [] => True
  | c :: cs => c.Returns ∧ AllReturn cs

end

theorem allReturn_iff {cs : List Code} : AllReturn cs ↔ ∀ c ∈ cs, c.Returns := by
  induction cs with
  | nil => simp [AllReturn]
  | cons c cs ih => simp [AllReturn, ih]

theorem returns_shaped {shape : Shape} {cs : List Code} :
    (Code.shaped shape cs).Returns ↔ ∀ c ∈ cs, c.Returns := by
  rw [Returns]
  exact allReturn_iff

theorem returns_together {cs : List Code} : (together cs).Returns ↔ ∀ c ∈ cs, c.Returns :=
  returns_shaped

theorem returns_separated {mark : String} {cs : List Code} :
    (separated mark cs).Returns ↔ ∀ c ∈ cs, c.Returns :=
  returns_shaped

theorem returns_margin : Code.margin.Returns := trivial

theorem returns_text (s : String) : (Code.text s).Returns := trivial

theorem returns_unless {b : Bool} {f : Fault} {c : Code} :
    (if b = true then Code.stop f else c).Returns ↔ b = false ∧ c.Returns := by
  cases b with
  | true => simp [Returns]
  | false => simp

theorem returns_ofExcept_map {α : Type} {x : Except Fault α} {F : α → Code} :
    (ofExcept (x.map F)).Returns ↔ ∃ a, x = .ok a ∧ (F a).Returns := by
  cases x with
  | error e => simp [Except.map, ofExcept, Returns]
  | ok a => simp [Except.map, ofExcept]

theorem returns_spelling {v : Value} {c : Code} :
    (spelling v c).Returns ↔ v.writable = true ∧ c.Returns := by
  rw [spelling, Value.written]
  cases v.writable with
  | true => simp [ofExcept]
  | false => simp [ofExcept, Returns]

theorem returns_shown {v : Value} : (shown v).Returns ↔ v.writable = true :=
  returns_spelling.trans (and_iff_left trivial)

theorem isOk_map {α β : Type} (f : α → β) (x : Emission α) (j : Journal) :
    (x.map f j).1.isOk = (x j).1.isOk := by
  unfold Emission.map Emission.bind
  cases x j with
  | mk outcome j' =>
    cases outcome with
    | error e => rfl
    | ok a => rfl

mutual

/-- The text of code at any level and after any journal: there is one unless the code stops
somewhere. -/
theorem isOk_emit (layout : Layout) : (c : Code) → (level : Int) → (j : Journal) →
    ((c.emit layout level j).1.isOk = true ↔ c.Returns)
  | .text _, _, _ | .margin, _, _ | .quoted _, _, _ | .report _ _, _, _ | .warn _, _, _ => by
    simp [emit, Emission.pure, Returns, Except.isOk, Except.toBool]
  | .stop _, _, _ => by simp [emit, Emission.fail, Returns, Except.isOk, Except.toBool]
  | .deeper c, level, j => by
    rw [emit, Returns]
    exact isOk_emit layout c (level + 1) j
  | .deferred code, level, j => by
    rw [emit, Returns]
    exact isOk_emit layout (code ()) level j
  | .shaped shape parts, level, j => by
    rw [emit_shaped, Returns, ← isOk_emitAll layout parts level j, isOk_map]

theorem isOk_emitAll (layout : Layout) : (cs : List Code) → (level : Int) → (j : Journal) →
    ((emitAll layout level cs j).1.isOk = true ↔ AllReturn cs)
  | [], _, _ => by simp [emitAll, Emission.pure, AllReturn, Except.isOk, Except.toBool]
  | c :: cs, level, j => by
    have hc := isOk_emit layout c level j
    rw [emitAll_cons, AllReturn, Emission.bind]
    cases hemit : emit layout level c j with
    | mk outcome j' =>
      rw [hemit] at hc
      cases outcome with
      | error e =>
        have hno : ¬c.Returns := fun h => nomatch hc.mpr h
        simp [hno, Except.isOk, Except.toBool]
      | ok t =>
        have hyes : c.Returns := hc.mp rfl
        simp only [isOk_map, hyes, true_and]
        exact isOk_emitAll layout cs level j'

end

end Code

/-! ## Uses that fit -/

/-- Whether a value allows its use. What is written as a part is left to itself. -/
def Use.sound : Use → Bool
  | .part _ _ => true
  | .sequence v => v.elementsOrNone.isOk
  | .record v => v.isMap
  | .recordIfAny v => v.isMap || !v.truthy
  | .key v => v.hashable
  | .word v => v.findable
  | .spelled v => v.writable
  | .data v => (v.encode .wide).isOk
  | .attribute v => (attributeValue v).isOk
  | .props v =>
    !v.truthy ||
      match v.head with
      | .map es => es.all fun e => e.1.writable && (attributeValue e.2).isOk
      | _ => false

/-- Whether a use comes to a good end: it fits, and what is written returns a text. -/
def Use.Succeeds : Use → Prop
  | .part r v => (r.code true v).Returns
  | u => u.sound = true

theorem succeeds_node {m : Mode} {v : Value} :
    (Use.node m v).Succeeds ↔ (nodeCode true m v).Returns := Iff.rfl

theorem succeeds_markup {v : Value} : (Use.part .markup v).Succeeds ↔ (markupCode v).Returns :=
  Iff.rfl

theorem succeeds_spelled {v : Value} : (Use.spelled v).Succeeds ↔ v.writable = true := Iff.rfl

theorem succeeds_sequence {v : Value} : (Use.sequence v).Succeeds ↔ v.elementsOrNone.isOk = true :=
  Iff.rfl

theorem succeeds_record {v : Value} : (Use.record v).Succeeds ↔ v.isMap = true := Iff.rfl

theorem succeeds_recordIfAny {v : Value} :
    (Use.recordIfAny v).Succeeds ↔ v.isMap = true ∨ v.truthy = false := by
  show (v.isMap || !v.truthy) = true ↔ _
  simp

theorem returns_ofExcept_text {x : Except Fault String} :
    (Code.ofExcept (x.map .text)).Returns ↔ x.isOk = true := by
  cases x with
  | error e => simp [Except.map, Code.ofExcept, Code.Returns, Except.isOk, Except.toBool]
  | ok s => simp [Except.map, Code.ofExcept, Code.Returns, Except.isOk, Except.toBool]

theorem returns_elements {v : Value} {F : List Value → Code} :
    (Code.ofExcept (v.elementsOrNone.map F)).Returns ↔ (Use.sequence v).Succeeds ∧
      (F v.yielded).Returns := by
  rw [Code.returns_ofExcept_map, succeeds_sequence]
  cases h : v.elementsOrNone with
  | error e => simp [Except.isOk, Except.toBool]
  | ok vs => simp [Value.yielded_of_ok h, Except.isOk, Except.toBool]

section Pieces

variable (m : Mode)

theorem expressionIn_linked (v : Value) : expressionIn true m v = nodeCode true .expression v := by
  rw [expressionIn, if_neg (fun h => nomatch h.2)]

theorem nameIn_linked (v : Value) : nameIn true m v = nameCode true v := by
  rw [nameIn, if_neg (fun h => nomatch h.2)]

theorem bodyIn_linked (v : Value) :
    bodyIn true m v = .together (v.statements.map (nodeCode true .statement)) := by
  rw [bodyIn, if_neg (fun h => nomatch h.2)]

theorem returns_sourceCode (v : Value) :
    (sourceCode v).Returns ↔ (sourceText v).writable = true := by
  have hquoted : ∀ w : Value, (Code.spelling w (.quoted w.display)).Returns ↔ w.writable = true :=
    fun w =>
    Code.returns_spelling.trans (and_iff_left trivial)
  rw [sourceCode, sourceText]
  cases v.head with
  | map es =>
    dsimp only
    cases Fields.get? es "value" with
    | some w => exact hquoted w
    | none =>
      cases Fields.get? es "raw" with
      | some w => exact Code.returns_shown
      | none => exact hquoted v
  | _ => exact hquoted v

theorem returns_accessorCode (v : Value) : (accessorCode v).Returns ↔ v.findable = true := by
  unfold accessorCode
  split
  · next s =>
    have hs : (Value.string s).findable = true := rfl
    cases s == "get" || s == "set" with
    | true => simp [hs, Code.Returns]
    | false => simp [hs, Code.nothing, Code.Returns]
  · cases v.findable with
    | true => simp [Code.nothing, Code.Returns]
    | false => simp [Code.Returns]

theorem returns_unaryCode {operator : Value} {c : Code} :
    (unaryCode operator c).Returns ↔ operator.writable = true ∧ c.Returns := by
  rw [unaryCode, Code.returns_spelling, Code.returns_shaped, List.forall_mem_singleton]

theorem returns_weave (texts : List Value) (cs : List Code) :
    (∀ c ∈ weave texts cs, c.Returns) ↔ (∀ t ∈ texts, t.writable = true) ∧ ∀ c ∈ cs, c.Returns := by
  fun_induction weave texts cs with
  | case1 => simp
  | case2 t ts ih => simp [Code.returns_shown, ih]
  | case3 c cs ih => simp [Code.returns_text, ih]
  | case4 t ts c cs ih =>
    simp only [List.forall_mem_cons, Code.returns_shown, Code.returns_text, ih, true_and]
    exact ⟨fun h => ⟨⟨h.1, h.2.2.1⟩, h.2.1, h.2.2.2⟩, fun h => ⟨h.1.1, h.2.1, h.1.2, h.2.2⟩⟩

theorem returns_templateIn (texts v : Value) :
    (templateIn true m texts v).Returns ↔ (Use.sequence texts).Succeeds ∧
      (Use.sequence v).Succeeds ∧
      (∀ t ∈ texts.yielded, (templateText t).writable = true) ∧
      ∀ w ∈ v.yielded, (nodeCode true .expression w).Returns := by
  rw [succeeds_sequence, succeeds_sequence, templateIn]
  cases htexts : texts.elementsOrNone with
  | error e => simp [Code.Returns, Except.isOk, Except.toBool]
  | ok ts =>
    cases hv : v.elementsOrNone with
    | error e => simp [Code.Returns, Except.isOk, Except.toBool]
    | ok vs =>
      simp [Code.returns_together, returns_weave, expressionIn_linked, Value.yielded_of_ok htexts,
        Value.yielded_of_ok hv, Except.isOk, Except.toBool]

end Pieces

mutual

theorem Piece.returns_written (m : Mode) : (p : Piece) → (node : Fields) →
    ((p.written true m node).Returns ↔ ∀ u ∈ p.uses node, u.Succeeds)
  | .text _, _ | .margin, _ => by simp [Piece.written, Piece.uses, Code.Returns]
  | .shown f absent, node => by
    rw [Piece.written, Code.returns_shown, Piece.uses, List.forall_mem_singleton, succeeds_spelled]
  | .source f, node => by
    rw [Piece.written, returns_sourceCode, Piece.uses, List.forall_mem_singleton, succeeds_spelled]
  | .data f, node => by
    rw [Piece.written, returns_ofExcept_text, Piece.uses, List.forall_mem_singleton]
    rfl
  | .attributeValue f, node => by
    rw [Piece.written, returns_ofExcept_text, Piece.uses, List.forall_mem_singleton]
    rfl
  | .accessor f, node => by
    rw [Piece.written, returns_accessorCode, Piece.uses, List.forall_mem_singleton]
    rfl
  | .expression f, node => by
    rw [Piece.written, expressionIn_linked, Piece.uses, List.forall_mem_singleton, succeeds_node]
  | .name f, node => by
    rw [Piece.written, nameIn_linked, Piece.uses, nameCode]
    cases plainName? (Fields.get node f) with
    | some w => simp [Code.returns_shown, succeeds_spelled]
    | none => simp [succeeds_node]
  | .each f before between after, node => by
    rw [Piece.written, returns_elements, Piece.uses, List.forall_mem_cons, Code.returns_separated]
    simp [Code.returns_together, Code.returns_text, expressionIn_linked, succeeds_node]
  | .specifiers f, node => by
    rw [Piece.written, specifiersIn, returns_elements, Piece.uses, List.forall_mem_cons,
      Code.returns_shaped]
    simp [expressionIn_linked, succeeds_node]
  | .sequence f, node => by
    rw [Piece.written, returns_elements, Piece.uses, List.forall_mem_cons, Code.returns_together]
    simp [succeeds_node]
  | .eachRecord f untagged between parts, node => by
    rw [Piece.written, returns_elements, Piece.uses, List.forall_mem_cons, Code.returns_separated]
    rw [List.forall_mem_map, List.forall_mem_flatMap]
    refine and_congr_right fun _ => forall₂_congr fun w _ => ?_
    cases w.head with
    | map es =>
      dsimp only
      cases untagged && Fields.has es "type" with
      | true => simp [expressionIn_linked, succeeds_node]
      | false => exact Code.returns_together.trans (Piece.returns_writtenAll m parts es)
    | _ => simp [expressionIn_linked, succeeds_node]
  | .eachCase f parts, node => by
    rw [Piece.written, returns_elements, Piece.uses, List.forall_mem_cons, Code.returns_together]
    rw [List.forall_mem_map, List.forall_mem_flatMap]
    refine and_congr_right fun _ => forall₂_congr fun w _ => ?_
    cases hw : w.head with
    | map es => exact Code.returns_together.trans (Piece.returns_writtenAll m parts es)
    | _ => simp [Code.Returns, succeeds_record, Value.isMap, hw]
  | .members f, node => by
    rw [Piece.written, Code.returns_together, Piece.uses]
    simp [memberIn, Code.returns_shaped, Code.returns_margin, expressionIn_linked, succeeds_node]
  | .body f, node => by
    rw [Piece.written, bodyIn_linked, Code.returns_together, Piece.uses]
    simp [succeeds_node]
  | .statement f, node => by
    rw [Piece.written, Piece.uses, List.forall_mem_singleton, succeeds_node]
  | .unary operator operand, node => by
    rw [Piece.written, Piece.uses, List.forall_mem_cons, List.forall_mem_singleton,
      returns_unaryCode, expressionIn_linked, succeeds_spelled, succeeds_node]
  | .interleaved texts substitutions, node => by
    rw [Piece.written, returns_templateIn, Piece.uses, List.forall_mem_cons, List.forall_mem_cons,
      List.forall_mem_append, List.forall_mem_map, List.forall_mem_map]
    exact Iff.rfl
  | .itself missing, node => by
    rw [Piece.written, Piece.uses, List.forall_mem_singleton, if_neg (fun h => nomatch h),
      succeeds_node]
  | .deeper parts, node => by
    rw [Piece.written, Piece.uses, Code.Returns, Code.returns_together]
    exact Piece.returns_writtenAll m parts node
  | .shaped shape parts, node => by
    rw [Piece.written, Piece.uses, Code.returns_shaped]
    exact Piece.returns_writtenAll m parts node
  | .group parts, node => by
    rw [Piece.written, Piece.uses, Code.returns_together]
    exact Piece.returns_writtenAll m parts node
  | .choose test yes no, node => by
    rw [Piece.written, Piece.uses, Code.returns_together]
    cases test.holds node with
    | true => exact Piece.returns_writtenAll m yes node
    | false => exact Piece.returns_writtenAll m no node
  | .within f parts, node => by
    rw [Piece.written, Piece.uses]
    cases (Fields.get node f).head with
    | map es => exact Code.returns_together.trans (Piece.returns_writtenAll m parts es)
    | _ => exact Code.returns_together.trans (Piece.returns_writtenAll m parts [])
  | .inside f parts, node => by
    rw [Piece.written, Piece.uses]
    cases hv : (Fields.get node f).head with
    | map es => exact Code.returns_together.trans (Piece.returns_writtenAll m parts es)
    | _ =>
      rw [List.forall_mem_cons, ← Piece.returns_writtenAll m parts [],
        succeeds_recordIfAny, ← Value.truthy_head, hv]
      simp [Value.isMap, hv, Code.returns_unless, Code.returns_together]

theorem Piece.returns_writtenAll (m : Mode) : (ps : List Piece) → (node : Fields) →
    ((∀ c ∈ Piece.writtenAll true m ps node, c.Returns) ↔ ∀ u ∈ Piece.usesAll ps node, u.Succeeds)
  | [], _ => by simp [Piece.writtenAll, Piece.usesAll]
  | p :: ps, node => by
    rw [Piece.writtenAll, Piece.usesAll, List.forall_mem_cons, List.forall_mem_append,
      Piece.returns_written m p node, Piece.returns_writtenAll m ps node]

end

/-! ## Roles -/

theorem returns_atomCode (m : Mode) (v : Value) :
    (atomCode m v).Returns ↔ ∀ u ∈ atomUses m v, u.Succeeds := by
  cases m with
  | statement => exact iff_of_true trivial (List.forall_mem_nil _)
  | expression =>
    cases v with
    | int n =>
      rw [atomUses, List.forall_mem_singleton]
      exact Code.returns_shown
    | _ => exact iff_of_true trivial (List.forall_mem_nil _)

theorem returns_unhandled {category : String} {kind : Value} :
    (unhandled category kind).Returns ↔ kind.writable = true :=
  Code.returns_spelling.trans (and_iff_left trivial)

theorem returns_of_selectRule {m : Mode} {es : Fields} {c : Code} (h : selectRule m es = .inr c) :
    c.Returns ↔ (Fields.get es "type").hashable = true ∧
      (Fields.get es "type").writable = true := by
  unfold selectRule at h
  dsimp only at h
  split at h
  · next t ht =>
    split at h
    · cases h
    · cases h
      rw [returns_unhandled, ht]
      exact iff_of_true rfl ⟨rfl, rfl⟩
  · cases h
    cases (Fields.get es "type").hashable with
    | true => exact returns_unhandled.trans (and_iff_right rfl).symm
    | false => exact iff_of_false id fun h => Bool.false_ne_true h.1

theorem hashable_of_selectRule {m : Mode} {es : Fields} {rule : Rule}
    (h : selectRule m es = .inl rule) :
    (Fields.get es "type").hashable = true := by
  obtain ⟨t, ht, -⟩ := exists_lookup_of_selectRule h
  rw [ht]
  rfl

theorem returns_nodeCode (m : Mode) (v : Value) :
    (nodeCode true m v).Returns ↔ v.exhausted = false ∧
      ∀ u ∈ Role.uses (.node m) v, u.Succeeds := by
  cases hv : v.exhausted with
  | true =>
    rw [nodeCode, hv, if_pos rfl]
    exact iff_of_false id fun h => Bool.false_ne_true h.1.symm
  | false =>
    rw [eq_self, true_and, Role.uses]
    cases hhead : v.head with
    | map es =>
      rw [nodeCode_of_head true m hv hhead, Code.Returns]
      dsimp only
      rw [List.forall_mem_cons]
      cases hrule : selectRule m es with
      | inl rule =>
        have hkey : (Use.key (Fields.get es "type")).Succeeds := hashable_of_selectRule hrule
        rw [and_iff_right hkey]
        exact Code.returns_together.trans (Piece.returns_writtenAll m rule es)
      | inr c =>
        rw [List.forall_mem_singleton]
        exact returns_of_selectRule hrule
    | _ =>
      have hatom : ∀ es, v.head ≠ .map es := by
        intro es hes
        rw [hhead] at hes
        cases hes
      rw [nodeCode_of_atom true m hv hatom, hhead]
      exact returns_atomCode m _

theorem returns_line {cs : List Code} : (Code.line cs).Returns ↔ ∀ c ∈ cs, c.Returns := by
  rw [Code.line, Code.returns_together, List.forall_mem_append, List.forall_mem_cons]
  simp [Code.returns_margin, Code.returns_text]

theorem returns_propsCode (props : Value) :
    (propsCode props).Returns ↔ (Use.props props).Succeeds := by
  show _ ↔ (!props.truthy || _) = true
  unfold propsCode
  cases props.truthy with
  | false => exact iff_of_true trivial rfl
  | true =>
    simp only [if_true, Bool.not_true, Bool.false_or]
    cases props.head with
    | map es =>
      simp only [Code.returns_together, List.forall_mem_map, List.all_eq_true, Bool.and_eq_true,
        Code.returns_spelling]
      refine forall₂_congr fun e _ => and_congr_right fun _ => ?_
      rw [attributeText]
      cases attributeValue e.2 with
      | error f => exact iff_of_false id Bool.false_ne_true
      | ok text => exact iff_of_true trivial rfl
    | _ => exact iff_of_false id Bool.false_ne_true

theorem returns_elementCode {v : Value} {es : Fields} (h : v.head = .map es) :
    (elementCode es).Returns ↔ ∀ u ∈ Role.uses .markup v, u.Succeeds := by
  rw [Role.uses, h, elementCode]
  dsimp only
  cases Fields.get es "type" with
  | string tag =>
    dsimp only
    have hopening : ∀ closing, (Code.line [.text ("<" ++ tag), propsCode (Fields.get es "props"),
        .text closing]).Returns ↔ (Use.props (Fields.get es "props")).Succeeds := by
      intro closing
      rw [returns_line]
      simp [Code.returns_text, returns_propsCode]
    cases (Fields.get es "children").truthy with
    | false =>
      rw [if_neg Bool.false_ne_true, if_neg Bool.false_ne_true, hopening, List.forall_mem_singleton]
    | true =>
      have hclosing : (Code.line [.text ("</" ++ tag ++ ">")]).Returns :=
        returns_line.mpr (List.forall_mem_singleton.mpr trivial)
      have hchildren : ∀ vs : List Value, (Code.deeper (.together (vs.map markupCode))).Returns ↔
          ∀ w ∈ vs, (markupCode w).Returns := by
        intro vs
        rw [Code.Returns, Code.returns_together, List.forall_mem_map]
      simp [Code.returns_together, hopening, returns_elements, hchildren, hclosing, succeeds_markup]
  | _ =>
    dsimp only
    rw [List.forall_mem_singleton]
    exact returns_unhandled

theorem returns_markupCode (v : Value) :
    (markupCode v).Returns ↔ v.exhausted = false ∧ ∀ u ∈ Role.uses .markup v, u.Succeeds := by
  cases hv : v.exhausted with
  | true =>
    rw [markupCode, hv, if_pos rfl]
    exact iff_of_false id fun h => nomatch h.1
  | false =>
    rw [eq_self, true_and]
    cases hhead : v.head with
    | map es =>
      rw [markupCode_of_head hv hhead, Code.Returns]
      exact returns_elementCode hhead
    | int n =>
      have hnumber : markupCode v = .line [.shown (.int n)] := by
        rw [markupCode, hv, if_neg Bool.false_ne_true]
        split
        · next hs => exact nomatch hhead.symm.trans hs
        · next n' hn => rw [Value.int.inj (hhead.symm.trans hn)]
        · next hx => exact nomatch hhead.symm.trans hx
        · next hes => exact nomatch hhead.symm.trans hes
        · next hno _ _ => exact absurd hhead (hno n)
      rw [hnumber, Role.uses, hhead, returns_line, List.forall_mem_singleton]
      dsimp only
      rw [List.forall_mem_singleton]
      exact Code.returns_shown
    | _ =>
      have hleaf : ∀ s, (Code.line [.text s]).Returns := fun s =>
        returns_line.mpr (List.forall_mem_singleton.mpr trivial)
      refine iff_of_true ?_ fun u hu => ?_
      · rw [markupCode, hv, if_neg Bool.false_ne_true]
        split
        · exact hleaf _
        · next n hn => exact nomatch hhead.symm.trans hn
        · exact hleaf _
        · next es hes => exact nomatch hhead.symm.trans hes
        · exact trivial
      · rw [Role.uses, hhead] at hu
        cases hu

/-- Values that have been followed without end cannot be written. -/
def Role.lost : Role → Value → Bool
  | .node _, v | .markup, v => v.exhausted
  | .statements, _ | .forest, _ => false

/-- Whether a value allows everything that writing it comes across. -/
def Role.sound (r : Role) (v : Value) : Bool := !r.lost v && (r.uses v).all Use.sound

theorem returns_code_iff_succeeds (r : Role) (v : Value) :
    (r.code true v).Returns ↔ r.lost v = false ∧ ∀ u ∈ r.uses v, u.Succeeds := by
  cases r with
  | node m => exact returns_nodeCode m v
  | markup => exact returns_markupCode v
  | statements =>
    rw [Role.code, sequenceCode, returns_elements, Role.lost, Role.uses, List.forall_mem_cons,
      Code.returns_together]
    simp [succeeds_node]
  | forest =>
    rw [Role.code, forestCode, returns_elements, Role.lost, Role.uses, List.forall_mem_cons,
      Code.returns_together]
    simp [succeeds_markup]

theorem succeeds_iff (u : Use) :
    u.Succeeds ↔ u.sound = true ∧ ∀ r v, u = .part r v → (r.code true v).Returns := by
  cases u with
  | part r v =>
    constructor
    · intro h
      refine ⟨rfl, fun r' v' heq => ?_⟩
      cases heq
      exact h
    · intro h
      exact h.2 r v rfl
  | _ => exact (and_iff_left fun _ _ heq => nomatch heq).symm

/-- What a value needs to be written: that its uses fit, and that its parts can be written. -/
theorem returns_code_iff (r : Role) (v : Value) :
    (r.code true v).Returns ↔
      r.sound v = true ∧ ∀ r' w, Use.part r' w ∈ r.uses v → (r'.code true w).Returns := by
  rw [returns_code_iff_succeeds, Role.sound, Bool.and_eq_true, Bool.not_eq_true',
    List.all_eq_true, and_assoc]
  refine and_congr_right fun _ =>
    ⟨fun h => ⟨fun u hu => ((succeeds_iff u).mp (h u hu)).1, fun r' w hu => h _ hu⟩, ?_⟩
  rintro ⟨hsound, hparts⟩ u hu
  refine (succeeds_iff u).mpr ⟨hsound u hu, fun r' w heq => ?_⟩
  subst heq
  exact hparts r' w hu

/-! ## Parts are lighter -/

def Role.weight : Role → Value → Nat
  | .node m, v => Script.weight m v
  | .markup, v => 2 * v.depth
  | .forest, v => 2 * v.depth + 1
  | .statements, v => 2 * v.depth + 2

theorem weight_le (m : Mode) (v : Value) : Script.weight m v ≤ 2 * v.depth + 1 := by
  cases m with
  | expression => exact Nat.le_succ _
  | statement => exact Nat.le_refl _

theorem depth_le_of_mem_yielded {v w : Value} (hw : w ∈ v.yielded) : w.depth ≤ v.depth := by
  cases h : v.elementsOrNone with
  | error e =>
    rw [Value.yielded, h] at hw
    cases hw
  | ok vs =>
    rw [Value.yielded_of_ok h] at hw
    exact Value.depth_le_of_mem_elementsOrNone h hw

section Lighter

variable {bound : Nat} {r : Role} {w : Value}

theorem weight_lt_of_eq_node {v : Value} {m : Mode} (hv : 2 * v.depth + 1 < bound)
    (h : Use.part r w = .node m v) :
    r.weight w < bound := by
  cases h
  exact Nat.lt_of_le_of_lt (weight_le _ _) hv

theorem weight_lt_of_mem_map {vs : List Value} {v : Value} {m : Mode} (hv : 2 * v.depth + 1 < bound)
    (hvs : ∀ x ∈ vs, x.depth ≤ v.depth) (h : Use.part r w ∈ vs.map (Use.node m)) :
    r.weight w < bound := by
  obtain ⟨x, hx, heq⟩ := List.mem_map.mp h
  have hdepth := hvs x hx
  exact weight_lt_of_eq_node (by omega) heq.symm

end Lighter

mutual

theorem Piece.weight_lt {bound : Nat} {r : Role} {w : Value} :
    (p : Piece) → (node : Fields) → 2 * (Value.map node).depth ≤ bound →
      (p.rewrites = true → 2 * (Value.map node).depth < bound) → Use.part r w ∈ p.uses node →
        r.weight w < bound
  | .text _, _, _, _, hu | .margin, _, _, _, hu => nomatch hu
  | .shown _ _, _, _, _, hu | .source _, _, _, _, hu | .data _, _, _, _, hu |
      .attributeValue _, _, _, _, hu
  | .accessor _, _, _, _, hu => nomatch List.mem_singleton.mp hu
  | .expression f, node, h, _, hu | .statement f, node, h, _, hu =>
    weight_lt_of_eq_node (two_mul_depth_field_lt h f) (List.mem_singleton.mp hu)
  | .unary _ f, node, h, _, hu => by
    rcases List.mem_cons.mp hu with heq | hu
    · cases heq
    · exact weight_lt_of_eq_node (two_mul_depth_field_lt h f) (List.mem_singleton.mp hu)
  | .name f, node, h, _, hu => by
    rw [Piece.uses] at hu
    split at hu
    · cases List.mem_singleton.mp hu
    · exact weight_lt_of_eq_node (two_mul_depth_field_lt h f) (List.mem_singleton.mp hu)
  | .each f _ _ _, node, h, _, hu | .specifiers f, node, h, _, hu | .sequence f,
      node, h, _, hu => by
    rcases List.mem_cons.mp hu with heq | hu
    · cases heq
    · exact weight_lt_of_mem_map (two_mul_depth_field_lt h f)
        (fun x hx => depth_le_of_mem_yielded hx) hu
  | .members f, node, h, _, hu | .body f, node, h, _, hu =>
    weight_lt_of_mem_map (two_mul_depth_field_lt h f)
      (fun x hx => Value.depth_le_of_mem_statements hx) hu
  | .interleaved _ f, node, h, _, hu => by
    rcases List.mem_cons.mp hu with heq | hu
    · cases heq
    · rcases List.mem_cons.mp hu with heq | hu
      · cases heq
      · rcases List.mem_append.mp hu with hu | hu
        · obtain ⟨t, -, heq⟩ := List.mem_map.mp hu
          cases heq
        · exact weight_lt_of_mem_map (two_mul_depth_field_lt h f)
            (fun x hx => depth_le_of_mem_yielded hx) hu
  | .itself _, node, _, hself, hu => by
    cases List.mem_singleton.mp hu
    exact hself rfl
  | .deeper parts, node, h, hself, hu => Piece.allWeight_lt parts node h hself hu
  | .shaped _ parts, node, h, hself, hu => Piece.allWeight_lt parts node h hself hu
  | .group parts, node, h, hself, hu => Piece.allWeight_lt parts node h hself hu
  | .choose test yes no, node, h, hself, hu => by
    rw [Piece.uses] at hu
    split at hu
    · exact Piece.allWeight_lt yes node h (fun hy => hself (Bool.or_eq_true_iff.mpr (.inl hy))) hu
    · exact Piece.allWeight_lt no node h (fun hn => hself (Bool.or_eq_true_iff.mpr (.inr hn))) hu
  | .within f parts, node, h, hself, hu => by
    have hf := two_mul_depth_field_lt h f
    rw [Piece.uses] at hu
    split at hu
    · next es hes =>
      have hlt := two_mul_depth_record_lt hf hes
      exact Piece.allWeight_lt parts es (Nat.le_of_lt hlt) (fun _ => hlt) hu
    · exact Piece.allWeight_lt parts [] (two_mul_depth_empty_le h)
        (fun hp => two_mul_depth_empty_lt (hself hp)) hu
  | .inside f parts, node, h, hself, hu => by
    have hf := two_mul_depth_field_lt h f
    rw [Piece.uses] at hu
    split at hu
    · next es hes =>
      have hlt := two_mul_depth_record_lt hf hes
      exact Piece.allWeight_lt parts es (Nat.le_of_lt hlt) (fun _ => hlt) hu
    · rcases List.mem_cons.mp hu with heq | hu
      · cases heq
      · exact Piece.allWeight_lt parts [] (two_mul_depth_empty_le h)
          (fun hp => two_mul_depth_empty_lt (hself hp)) hu
  | .eachRecord f untagged _ parts, node, h, _, hu => by
    rcases List.mem_cons.mp hu with heq | hu
    · cases heq
    · obtain ⟨x, hx, hu⟩ := List.mem_flatMap.mp hu
      have hdepth := depth_le_of_mem_yielded hx
      have hf := two_mul_depth_field_lt h f
      have hx : 2 * x.depth + 1 < bound := by omega
      split at hu
      · next es hes =>
        have hlt := two_mul_depth_record_lt hx hes
        split at hu
        · exact weight_lt_of_eq_node hx (List.mem_singleton.mp hu)
        · exact Piece.allWeight_lt parts es (Nat.le_of_lt hlt) (fun _ => hlt) hu
      · exact weight_lt_of_eq_node hx (List.mem_singleton.mp hu)
  | .eachCase f parts, node, h, _, hu => by
    rcases List.mem_cons.mp hu with heq | hu
    · cases heq
    · obtain ⟨x, hx, hu⟩ := List.mem_flatMap.mp hu
      have hdepth := depth_le_of_mem_yielded hx
      have hf := two_mul_depth_field_lt h f
      have hx : 2 * x.depth + 1 < bound := by omega
      split at hu
      · next es hes =>
        have hlt := two_mul_depth_record_lt hx hes
        exact Piece.allWeight_lt parts es (Nat.le_of_lt hlt) (fun _ => hlt) hu
      · cases List.mem_singleton.mp hu

theorem Piece.allWeight_lt {bound : Nat} {r : Role} {w : Value} :
    (ps : List Piece) → (node : Fields) → 2 * (Value.map node).depth ≤ bound →
      (Piece.anyRewrites ps = true → 2 * (Value.map node).depth < bound) →
        Use.part r w ∈ Piece.usesAll ps node →
      r.weight w < bound
  | [], _, _, _, hu => nomatch hu
  | p :: ps, node, h, hself, hu => by
    rcases List.mem_append.mp hu with hu | hu
    · exact Piece.weight_lt p node h (fun hp => hself (Bool.or_eq_true_iff.mpr (.inl hp))) hu
    · exact Piece.allWeight_lt ps node h (fun hps => hself (Bool.or_eq_true_iff.mpr (.inr hps))) hu

end

theorem not_mem_atomUses {m : Mode} {r : Role} {v w : Value} : Use.part r w ∉ atomUses m v := by
  intro hu
  unfold atomUses at hu
  split at hu
  · cases List.mem_singleton.mp hu
  · cases hu

theorem Role.weight_lt {r r' : Role} {v w : Value} (hu : Use.part r' w ∈ r.uses v) :
    r'.weight w < r.weight v := by
  cases r with
  | node m =>
    rw [Role.uses] at hu
    split at hu
    · next es hes =>
      rcases List.mem_cons.mp hu with heq | hu
      · cases heq
      · split at hu
        · next rule hrule =>
          exact Piece.allWeight_lt rule es (two_mul_depth_le_weight m hes)
            (lt_weight_of_rewrites hes hrule) hu
        · cases List.mem_singleton.mp hu
    · exact absurd hu not_mem_atomUses
  | statements =>
    rcases List.mem_cons.mp hu with heq | hu
    · cases heq
    · exact weight_lt_of_mem_map (Nat.lt_succ_self _) (fun x hx => depth_le_of_mem_yielded hx) hu
  | forest =>
    rcases List.mem_cons.mp hu with heq | hu
    · cases heq
    · obtain ⟨x, hx, heq⟩ := List.mem_map.mp hu
      cases heq
      have hdepth := depth_le_of_mem_yielded hx
      show 2 * w.depth < 2 * v.depth + 1
      omega
  | markup =>
    obtain ⟨es, hes, x, hx, heq⟩ : ∃ es, v.head = .map es ∧
        ∃ x ∈ (Fields.get es "children").yielded, Use.part .markup x = Use.part r' w := by
      rw [Role.uses] at hu
      split at hu
      · next es hes =>
        split at hu
        · split at hu
          · simp only [List.mem_cons, reduceCtorEq, false_or] at hu
            exact ⟨es, hes, List.mem_map.mp hu⟩
          · cases List.mem_singleton.mp hu
        · cases List.mem_singleton.mp hu
      · cases List.mem_singleton.mp hu
      · cases hu
    cases heq
    have hdepth := depth_le_of_mem_yielded hx
    have hfield := Fields.depth_get_lt es "children"
    have hhead := v.depth_head_le
    rw [hes] at hhead
    show 2 * w.depth < 2 * v.depth
    omega

/-- A value can be written exactly if all uses fit, in it and in everything that is written as a
part of it. -/
theorem returns_iff_throughout (r : Role) (v : Value) :
    (r.code true v).Returns ↔ Throughout (fun r v => r.sound v = true) r v := by
  constructor
  · intro h
    induction hn : r.weight v using Nat.strongRecOn generalizing r v with
    | ind n ih =>
      obtain ⟨hsound, hparts⟩ := (returns_code_iff r v).mp h
      exact .intro hsound fun r' w hu => ih _ (hn ▸ Role.weight_lt hu) r' w (hparts r' w hu) rfl
  · intro h
    induction h with
    | intro hsound _ ih => exact (returns_code_iff _ _).mpr ⟨hsound, ih⟩

/-- What makes values sound and goes over to their parts makes sure that they can be written. -/
theorem returns_of_passesDown {P : Role → Value → Prop} (hdown : PassesDown P)
    (hsound : ∀ r v, P r v → r.sound v = true) {r : Role} {v : Value} (h : P r v) :
    (r.code true v).Returns := by
  induction hn : r.weight v using Nat.strongRecOn generalizing r v with
  | ind n ih =>
    refine (returns_code_iff r v).mpr ⟨hsound r v h, fun r' w hu => ?_⟩
    exact ih _ (hn ▸ Role.weight_lt hu) (hdown r v r' w h hu) rfl

end Scriptwright.Script
