import Scriptwright.Proofs.Script.Emission
import Scriptwright.Proofs.Script.Names
import Scriptwright.Proofs.Script.WholeLines
import Scriptwright.Proofs.Text.Decoded
import Scriptwright.Proofs.Value.DataForm

/-!
# Attributes and what encloses their values

An attribute value is written in quotation marks or in braces. In quotation marks nothing can be
escaped, so that a value with such a mark in it ends too early. The main statement says for both
ways of writing an attribute exactly when the text is the name alone, or the name with a value that
ends where its text ends.
-/

namespace Scriptwright.Script

open Text

/-! ## Enclosed texts -/

/-- A text in quotation marks that holds none, or a text in braces. -/
def Enclosed (t : String) : Prop :=
  (∃ s, t = "\"" ++ s ++ "\"" ∧ '"' ∉ s.toList) ∨ ∃ s, t = "\x7b" ++ s ++ "\x7d"

/-- The text of an attribute: its name alone, or with an enclosed value. -/
def Contained (name text : String) : Prop := text = name ∨ ∃ t, text = name ++ "=" ++ t ∧ Enclosed t

theorem contained_self (name : String) : Contained name name := .inl rfl

theorem append_left_cancel {a s t : String} (h : a ++ s = a ++ t) : s = t := by
  apply String.toList_injective
  have hchars := congrArg String.toList h
  rw [String.toList_append, String.toList_append] at hchars
  exact List.append_cancel_left hchars

theorem contained_iff_enclosed (name t : String) :
    Contained name (name ++ "=" ++ t) ↔ Enclosed t := by
  constructor
  · rintro (halone | ⟨u, hu, henclosed⟩)
    · have hempty : "=" ++ t = "" :=
        append_left_cancel (by rw [← String.append_assoc, halone, String.append_empty])
      have hchars := congrArg String.toList hempty
      simp at hchars
    · rwa [append_left_cancel hu]
  · exact fun h => .inr ⟨t, rfl, h⟩

theorem enclosed_braces (s : String) : Enclosed ("\x7b" ++ s ++ "\x7d") := .inr ⟨s, rfl⟩

/-- A text in quotation marks is enclosed if it holds none. -/
theorem enclosed_marks_iff (s : String) : Enclosed ("\"" ++ s ++ "\"") ↔ '"' ∉ s.toList := by
  constructor
  · rintro (⟨u, hu, hmark⟩ | ⟨u, hu⟩)
    · have hchars := congrArg String.toList hu
      have hs : s.toList = u.toList := by simpa using hchars
      rwa [hs]
    · have hchars := congrArg String.toList hu
      simp at hchars
  · exact fun h => .inl ⟨s, rfl, h⟩

theorem not_enclosed_of_bareStart {t : String} (h : BareStart t.toList) : ¬ Enclosed t := by
  obtain ⟨c, hc, hmark, hbrace⟩ := h
  rintro (⟨s, rfl, -⟩ | ⟨s, rfl⟩)
  · exact hmark (by simpa using hc.symm)
  · exact hbrace (by simpa using hc.symm)

theorem mark_not_mem_hex {n : Nat} (h : n < 256) : '"' ∉ hex 4 n := by
  have hdigit : ∀ k < 16, '"' ≠ k.digitChar := by decide
  simp [hex_of_lt h, hdigit (n / 16) (by omega), hdigit (n % 16) (by omega)]

/-- Of all escapes only that of a quotation mark holds one. -/
theorem mark_mem_encodedChar_iff (c : Char) : '"' ∈ encodedChar c ↔ c = '"' := by
  by_cases hc : c = '"'
  · simp [encodedChar, hc]
  · refine iff_of_false ?_ hc
    unfold encodedChar
    rw [if_neg hc]
    split_ifs with _ _ _ _ _ _ hcontrol
    · decide
    · decide
    · decide
    · decide
    · decide
    · decide
    · simp [mark_not_mem_hex (Nat.lt_trans hcontrol (by decide))]
    · simpa using Ne.symm hc

theorem enclosed_encoded_iff (s : String) : Enclosed (encoded s) ↔ '"' ∉ s.toList := by
  have htext : encoded s = "\"" ++ String.ofList (s.toList.flatMap encodedChar) ++ "\"" :=
    String.toList_injective (by simp [encoded, encodedChars])
  rw [htext, enclosed_marks_iff, String.toList_ofList, List.mem_flatMap]
  simp only [mark_mem_encodedChar_iff, exists_eq_right]

/-! ## Plain values -/

/-- Whether a value that is no node can be enclosed: a text has to be an expression or to be without
quotation marks. -/
def Quotable : Value → Prop
  | .string s => dynamicExpression? s ≠ none ∨ '"' ∉ s.toList
  | _ => True

theorem quotable_of_ne_string {v : Value} (hv : ∀ s, v ≠ .string s) : Quotable v := by
  cases v with
  | string s => exact absurd rfl (hv s)
  | _ => trivial

theorem exists_of_attributeValue {v : Value} {text : String} (h : attributeValue v = .ok text) :
    ∃ t, text = "=" ++ t ∧ (Enclosed t ↔ Quotable v) := by
  unfold attributeValue at h
  split at h
  · next s =>
    split at h
    · next e he =>
      cases h
      have hquotable : Quotable (.string s) := .inl (by rw [he]; exact Option.some_ne_none e)
      exact ⟨"\x7b" ++ e ++ "\x7d", rfl, iff_of_true (enclosed_braces e) hquotable⟩
    · next hnone =>
      cases h
      refine ⟨"\"" ++ s ++ "\"", rfl, ?_⟩
      rw [enclosed_marks_iff, Quotable, hnone]
      simp
  · next hno =>
    obtain ⟨t, -, rfl⟩ := exists_of_map_eq_ok h
    exact ⟨"\x7b" ++ t ++ "\x7d", rfl, iff_of_true (enclosed_braces t) (quotable_of_ne_string hno)⟩

/-! ## Literals -/

/-- Whether data of a form is enclosed where it stands for itself. -/
def EnclosedData : Value.DataForm → Prop
  | .text s => '"' ∉ s.toList
  | .record => True
  | .other => False

theorem enclosed_iff_of_fits {form : Value.DataForm} {t : String} (h : form.Fits t) :
    Enclosed t ↔ EnclosedData form := by
  cases form with
  | text s =>
    obtain rfl : t = encoded s := h
    exact enclosed_encoded_iff s
  | record =>
    obtain ⟨inner, rfl⟩ := h
    exact iff_of_true (enclosed_braces inner) trivial
  | other => exact iff_of_false (not_enclosed_of_bareStart h) id

/-- Whether a literal is enclosed: by its own text if it has one, and else as the data that it
holds. -/
def EnclosedLiteral (es : Fields) : Prop :=
  match Fields.get? es "raw" with
  | some raw => Enclosed raw.display
  | none => EnclosedData (Fields.get es "value").dataForm

section Nodes

open Code

variable {linked : Bool} {v : Value} {es : Fields}

/-- The text of an expression that is a mapping of a known kind comes from the rule of that kind. -/
theorem emit_rule_of_emit {kind : String} {rule : Rule} {layout : Layout} {level : Int}
    {j k : Journal} {t : String} (hes : v.head = .map es)
    (hkind : Fields.get es "type" = .string kind) (hrule : expressionRules.lookup kind = some rule)
    (h : (nodeCode linked .expression v).emit layout level j = (.ok t, k)) :
    (together (Piece.writtenAll linked .expression rule es)).emit layout level j = (.ok t, k) := by
  have hselect : selectRule .expression es = .inl rule := by
    rw [selectRule, hkind]
    dsimp only [Mode.rules]
    rw [hrule]
  by_cases hv : v.exhausted = true
  · rw [nodeCode, if_pos hv] at h
    cases h
  · rwa [nodeCode_of_head linked .expression (Bool.eq_false_iff.mpr hv) hes, emit_deferred,
      hselect] at h

theorem yields_expression {P : String → Prop} {kind : String} {rule : Rule} (hes : v.head = .map es)
    (hkind : Fields.get es "type" = .string kind) (hrule : expressionRules.lookup kind = some rule)
    (h : (together (Piece.writtenAll linked .expression rule es)).Yields P) :
    (nodeCode linked .expression v).Yields P :=
  fun layout level j t k hrun => h layout level j t k (emit_rule_of_emit hes hkind hrule hrun)

theorem yields_literal (hes : v.head = .map es) (hkind : Fields.get es "type" = .string "literal") :
    (nodeCode linked .expression v).Yields fun t => Enclosed t ↔ EnclosedLiteral es := by
  refine yields_expression hes hkind rfl ?_
  rw [Piece.writtenAll, Piece.writtenAll, Piece.written]
  refine yields_together_single ?_
  rw [EnclosedLiteral, Test.holds, Fields.has]
  cases hraw : Fields.get? es "raw" with
  | some raw =>
    refine yields_together_single ?_
    rw [Piece.written, Fields.getD, hraw, Option.getD_some]
    exact (yields_text Iff.rfl).spelling raw
  | none =>
    refine yields_together_single ?_
    rw [Piece.written]
    refine yields_ofExcept fun c hc => ?_
    obtain ⟨t, ht, rfl⟩ := exists_of_map_eq_ok hc
    exact yields_text (enclosed_iff_of_fits (Value.dataForm_fits_encode rfl ht))

theorem yields_between (a b : String) (c : Code) :
    (together [.text a, c, .text b]).Yields fun t => ∃ s, t = a ++ s ++ b := by
  have hlast : (together [.text b]).Yields (· = b) := yields_together_single (yields_text rfl)
  have hrest : (together [c, .text b]).Yields fun t => ∃ s, t = s ++ b :=
    yields_together_cons (Q := fun _ => True) (fun _ _ _ _ _ _ => trivial) hlast fun s _ _ hu =>
      ⟨s, by rw [hu]⟩
  refine yields_together_cons (yields_text (P := (· = a)) rfl) hrest ?_
  rintro _ _ rfl ⟨s, rfl⟩
  exact ⟨s, by rw [String.append_assoc]⟩

theorem yields_container (hes : v.head = .map es)
    (hkind : Fields.get es "type" = .string "jsxExpressionContainer") :
    (nodeCode linked .expression v).Yields Enclosed := by
  refine yields_expression hes hkind rfl ?_
  rw [Piece.writtenAll, Piece.writtenAll, Piece.writtenAll, Piece.writtenAll, Piece.written,
    Piece.written]
  exact (yields_between _ _ _).mono fun t ht => .inr ht

/-! ## Attributes of elements -/

/-- Whether a value is enclosed as the value of an attribute. Of all nodes only literals are written
without braces. -/
def Enclosable (v : Value) : Prop :=
  match v.head with
  | .map es => Fields.get es "type" = .string "literal" → EnclosedLiteral es
  | _ => Quotable v

/-- What stands behind the name of an attribute leaves it contained exactly if the value is
enclosed. -/
def Behind (v : Value) (t : String) : Prop := ∀ name, Contained name (name ++ t) ↔ Enclosable v

theorem behind_of_enclosed {t : String} (h : Enclosed t ↔ Enclosable v) : Behind v ("=" ++ t) := by
  intro name
  rw [← String.append_assoc, contained_iff_enclosed, h]

theorem behind_null : Behind .null "" := fun name => by
  rw [String.append_empty]
  exact iff_of_true (contained_self name) trivial

theorem tag?_of_head (hes : v.head = .map es) : v.tag? = (Fields.get es "type").asText? := by
  rw [Value.tag?, hes]

theorem get_type_of_tag? {kind : String} (hes : v.head = .map es) (h : v.tag? = some kind) :
    Fields.get es "type" = .string kind := by
  rw [tag?_of_head hes] at h
  cases htype : Fields.get es "type" with
  | string s =>
    rw [htype] at h
    exact congrArg Value.string (Option.some.inj h)
  | _ =>
    rw [htype] at h
    cases h

theorem holds_tagged {node : Fields} {f : String} {tags : List String}
    (h : (Test.tagged f tags).holds node = true) :
    ∃ t ∈ tags, (Fields.get node f).tag? = some t := by
  rw [Test.holds] at h
  cases htag : (Fields.get node f).tag? with
  | none =>
    rw [htag] at h
    cases h
  | some t =>
    rw [htag] at h
    exact ⟨t, List.contains_iff_mem.mp h, rfl⟩

theorem yields_bare (h : (nodeCode linked .expression v).Yields fun t => Enclosed t ↔
    Enclosable v) :
    (together [.text "=", expressionIn linked .expression v]).Yields (Behind v) := by
  rw [expressionIn_expression]
  refine yields_together_cons (yields_text (P := (· = "=")) rfl) (yields_together_single h) ?_
  rintro _ t rfl ht
  exact behind_of_enclosed ht

theorem yields_nodeValue {node : Fields} (hes : (Fields.get node "value").head = .map es) :
    (Piece.written linked .expression
      (.choose (.tagged "value" ["literal", "jsxExpressionContainer"])
        [.text "=", .expression "value"] [.text "=\x7b", .expression "value", .text "\x7d"])
      node).Yields (Behind (Fields.get node "value")) := by
  have henclosable : Enclosable (Fields.get node "value") ↔
      (Fields.get es "type" = .string "literal" → EnclosedLiteral es) := by
    rw [Enclosable, hes]
  rw [Piece.written]
  split_ifs with htest
  · obtain ⟨t, ht, htag⟩ := holds_tagged htest
    have hkind := get_type_of_tag? hes htag
    simp only [List.mem_cons, List.not_mem_nil, or_false] at ht
    rcases ht with rfl | rfl
    · refine yields_bare ((yields_literal hes hkind).mono fun t ht => ?_)
      rw [ht, henclosable]
      exact ⟨fun h _ => h, fun h => h hkind⟩
    · refine yields_bare ((yields_container hes hkind).mono fun t ht => ?_)
      rw [henclosable, hkind]
      exact iff_of_true ht fun h => absurd h (by simp)
  · refine (yields_between _ _ _).mono ?_
    rintro _ ⟨s, rfl⟩
    have hother : Enclosable (Fields.get node "value") := by
      rw [henclosable]
      intro hkind
      refine absurd ?_ htest
      rw [Test.holds, tag?_of_head hes, hkind]
      rfl
    exact behind_of_enclosed (iff_of_true (enclosed_braces s) hother)

theorem yields_value (node : Fields) :
    (together (Piece.writtenAll linked .expression (jsxAttribute.drop 1) node)).Yields
      (Behind (Fields.get node "value")) := by
  change (together [Piece.written linked .expression (.choose (.given "value") _ []) node]).Yields _
  refine yields_together_single ?_
  rw [Piece.written]
  split_ifs with hgiven
  · refine yields_together_single ?_
    rw [Piece.written]
    split_ifs with hrecord
    · have hmap : ∃ es, (Fields.get node "value").head = .map es := by
        rw [Test.holds, Value.isMap] at hrecord
        split at hrecord
        · next es hes => exact ⟨es, hes⟩
        · cases hrecord
      obtain ⟨es, hes⟩ := hmap
      exact yields_together_single (yields_nodeValue hes)
    · refine yields_together_single ?_
      rw [Piece.written]
      refine yields_ofExcept fun c hc => ?_
      obtain ⟨text, htext, rfl⟩ := exists_of_map_eq_ok hc
      obtain ⟨t, rfl, ht⟩ := exists_of_attributeValue htext
      have henclosable : Enclosable (Fields.get node "value") ↔
          Quotable (Fields.get node "value") := by
        rw [Test.holds, Value.isMap] at hrecord
        rw [Enclosable]
        split
        · next es hes =>
          rw [hes] at hrecord
          exact absurd rfl hrecord
        · rfl
      exact yields_text (behind_of_enclosed (ht.trans henclosable.symm))
  · refine yields_together_nil ?_
    have hnull : Fields.get node "value" = .null := by
      cases hv : Fields.get node "value" with
      | null => rfl
      | _ =>
        rw [Test.holds, hv] at hgiven
        exact absurd rfl hgiven
    rw [hnull]
    exact behind_null

/-- A name as it is given for an attribute: as a text, or as a mapping with the name. -/
def Names (v : Value) (name : String) : Prop :=
  v = .string name ∨ (plainName? v).map Value.display = some name

theorem yields_nameCode {name : String} (h : Names v name) :
    (nameCode linked v).Yields (· = name) := by
  rcases h with rfl | h
  · rw [nameCode_string]
    exact yields_text rfl
  · obtain ⟨w, hw, rfl⟩ := Option.map_eq_some_iff.mp h
    rw [nameCode, hw]
    exact (yields_text (P := (· = w.display)) rfl).spelling w

theorem yields_name {node : Fields} {name : String} (h : Names (Fields.get node "name") name) :
    (Piece.written linked .expression (.shaped .renamed [.name "name"]) node).Yields
      (· = attributeName name) := by
  rw [Piece.written, Piece.writtenAll, Piece.writtenAll, Piece.written, nameIn, if_neg fun h =>
    Mode.noConfusion h.1]
  refine yields_shaped_single (yields_nameCode h) ?_
  rintro _ rfl
  rw [Shape.apply, String.join_cons, String.join_nil, String.append_empty]

theorem yields_attribute {name : String} (hes : v.head = .map es)
    (hkind : Fields.get es "type" = .string "jsxAttribute")
    (hname : Names (Fields.get es "name") name) :
    (nodeCode linked .expression v).Yields fun t =>
      Contained (attributeName name) t ↔ Enclosable (Fields.get es "value") := by
  refine yields_expression hes hkind rfl ?_
  rw [jsxAttribute, Piece.writtenAll]
  refine yields_together_cons (yields_name hname) (yields_value es) ?_
  rintro _ t rfl ht
  exact ht (attributeName name)

/-- An attribute is its name alone or has its value enclosed, if and only if the value can be: given
as data, unless it is a text with a quotation mark that is no expression; given as a node, unless it
is a literal whose own text is not enclosed. -/
theorem contained_attribute_iff (name : String) (v : Value) :
    (∀ text, attributeText name v = .ok text → (Contained (attributeName name) text ↔ Quotable v)) ∧
      ∀ (linked : Bool) (w : Value) (es : Fields) (layout : Layout) (level : Int) (j k : Journal)
        (text : String), w.head = .map es → Fields.get es "type" = .string "jsxAttribute" →
          Names (Fields.get es "name") name →
        Fields.get es "value" = v → (nodeCode linked .expression w).emit layout level j =
          (.ok text, k) →
        (Contained (attributeName name) text ↔ Enclosable v) := by
  constructor
  · intro text h
    obtain ⟨t, ht, rfl⟩ := exists_of_map_eq_ok h
    obtain ⟨u, rfl, hu⟩ := exists_of_attributeValue ht
    rw [← String.append_assoc, contained_iff_enclosed, hu]
  · rintro linked w es layout level j k text hes hkind hname rfl h
    exact yields_attribute hes hkind hname layout level j text k h

def attributeNode (name : String) (value : Value) : Value :=
  .map [(.string "type", .string "jsxAttribute"), (.string "name", .string name),
    (.string "value", value)]

theorem contained_attribute_iff_class :
    (attributeText "class" (.string "field") = .ok "className=\"field\"" ∧
      (nodeCode true .expression (attributeNode "class" (.string "field"))).emit ⟨{}⟩ 0
        (.empty none) =
        (.ok "className=\"field\"", .empty none)) ∧
      (Contained "className" "className=\"field\"" ↔ Quotable (.string "field")) ∧
      (Contained "className" "className=\"field\"" ↔ Enclosable (.string "field")) := by
  have htext : attributeText "class" (.string "field") = .ok "className=\"field\"" := by decide
  have hemit :
      (nodeCode true .expression (attributeNode "class" (.string "field"))).emit ⟨{}⟩ 0
        (.empty none) =
      (.ok "className=\"field\"", .empty none) := by
    with_unfolding_all rfl
  have h := contained_attribute_iff "class" (.string "field")
  exact ⟨⟨htext, hemit⟩, h.1 _ htext, h.2 true _ _ _ _ _ _ _ rfl rfl (.inl rfl) rfl hemit⟩

/-- A quotation mark in a text ends the value, and a literal is written bare. -/
theorem attribute_not_contained :
    (attributeText "title" (.string "say \"hi\"") = .ok "title=\"say \"hi\"\"" ∧
      ¬ Contained "title" "title=\"say \"hi\"\"") ∧
      (nodeCode true .expression (attributeNode "width"
          (.map [(.string "type", .string "literal"), (.string "value", .int 5)]))).emit ⟨{}⟩ 0
            (.empty none) =
        (.ok "width=5", .empty none) ∧
      ¬ Contained "width" "width=5" := by
  refine ⟨⟨by decide, ?_⟩, ?_, ?_⟩
  · exact mt (contained_iff_enclosed "title" ("\"" ++ "say \"hi\"" ++ "\"")).mp fun h =>
      absurd ((enclosed_marks_iff _).mp h) (by decide)
  · with_unfolding_all rfl
  · exact mt (contained_iff_enclosed "width" "5").mp
      (not_enclosed_of_bareStart ⟨'5', rfl, by decide, by decide⟩)

end Nodes

end Scriptwright.Script
