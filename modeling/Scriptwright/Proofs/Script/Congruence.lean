import Mathlib.Data.List.Forall2
import Scriptwright.Proofs.Script.Emission
import Scriptwright.Proofs.Script.Operands

/-!
# Operands are written alike

A bare text and the identifier node for it are written alike, and but for two places no rule looks
at which of the two an operand is. `Piece.congruent` checks this of a rule for one field and its
descriptor; the check of the two tables is a computation. The main statement is that exchanging the
two forms of an operand, at any depth of a statement or an expression, changes neither the text nor
the diagnostics.
-/

namespace Scriptwright.Script

open Schema

/-! ## Code that is written alike -/

namespace Code

def Same (c d : Code) : Prop := ∀ layout level, c.emit layout level = d.emit layout level

theorem Same.refl (c : Code) : c.Same c := fun _ _ => rfl

theorem same_of_eq {c d : Code} (h : c = d) : c.Same d := h ▸ .refl c

theorem emitAll_congr {cs ds : List Code} (h : List.Forall₂ Same cs ds) (layout : Layout)
    (level : Int) :
    emitAll layout level cs = emitAll layout level ds := by
  induction h with
  | nil => rfl
  | cons hc _ ih => rw [emitAll_cons, emitAll_cons, hc layout level, ih]

theorem same_shaped {cs ds : List Code} (shape : Shape) (h : List.Forall₂ Same cs ds) :
    (Code.shaped shape cs).Same (.shaped shape ds) := by
  intro layout level
  rw [emit_shaped, emit_shaped, emitAll_congr h layout level]

theorem Same.deeper {c d : Code} (h : c.Same d) : (Code.deeper c).Same (.deeper d) := by
  intro layout level
  rw [emit_deeper, emit_deeper]
  exact h layout (level + 1)

theorem Same.deferred {c d : Unit → Code} (h : (c ()).Same (d ())) :
    (Code.deferred c).Same (.deferred d) := by
  intro layout level
  rw [emit_deferred, emit_deferred]
  exact h layout level

theorem forall₂_refl (cs : List Code) : List.Forall₂ Same cs cs :=
  List.forall₂_same.mpr fun c _ => .refl c

theorem forall₂_map_replaced {F : Value → Code} {a b : Value} (h : (F a).Same (F b))
    (before after : List Value) :
    List.Forall₂ Same ((before ++ a :: after).map F) ((before ++ b :: after).map F) := by
  rw [List.map_append, List.map_append, List.map_cons, List.map_cons]
  exact List.rel_append (forall₂_refl _) (.cons h (forall₂_refl _))

theorem Same.spelling {c d : Code} (h : c.Same d) (v : Value) :
    (Code.spelling v c).Same (.spelling v d) := by
  cases hv : v.writable with
  | true => rwa [spelling_of_writable hv, spelling_of_writable hv]
  | false => exact same_of_eq (by rw [spelling_of_not_writable hv, spelling_of_not_writable hv])

theorem forall₂_weave {cs ds : List Code} (h : List.Forall₂ Same cs ds) (ts : List Value) :
    List.Forall₂ Same (weave ts cs) (weave ts ds) := by
  induction h generalizing ts with
  | nil => exact forall₂_refl _
  | cons hc _ ih =>
    cases ts with
    | nil =>
      rw [weave, weave]
      exact .cons (.refl _) (.cons hc (.cons (.refl _) (ih [])))
    | cons t ts =>
      rw [weave, weave]
      exact .cons (.refl _) (.cons (.refl _) (.cons hc (.cons (.refl _) (ih ts))))

end Code

/-- Values that are written alike wherever the schema has an operand with the given descriptor. -/
structure WrittenAlike (linked : Bool) (d : Fields) (v w : Value) : Prop where
  expression : isOperand .expression d = true →
    (nodeCode linked .expression v).Same (nodeCode linked .expression w)
  name : isOperand .expression d = true → (nameCode linked v).Same (nameCode linked w)
  statement : isOperand .statement d = true →
    (nodeCode linked .statement v).Same (nodeCode linked .statement w)

theorem same_expressionIn {linked : Bool} {v w : Value} (m : Mode)
    (h : (nodeCode linked .expression v).Same (nodeCode linked .expression w)) :
    (expressionIn linked m v).Same (expressionIn linked m w) := by
  unfold expressionIn
  split_ifs
  · exact .refl _
  · exact h

theorem same_nameIn {linked : Bool} {v w : Value} (m : Mode)
    (h : (nameCode linked v).Same (nameCode linked w)) :
    (nameIn linked m v).Same (nameIn linked m w) := by
  unfold nameIn
  split_ifs
  · exact .refl _
  · exact h

/-! ## Rules -/

/-- A field in which an operand is exchanged. -/
structure Site where
  field : String
  descriptor : Fields
  /-- The keys that lead to operands that are left alone. -/
  firm : List (List String)
  /-- The tags that the field can have, where a test has told. -/
  kinds : Option (List String)
  /-- Whether the node is known to be written alike as an expression. -/
  own : Bool

def Site.all (s : Fields) (firm : List (List String)) (check : Site → Bool) : Bool :=
  openFields s fun f d => check ⟨f, d, below f firm, none, false⟩

def Site.hasItems (x : Site) (m : Mode) : Bool := (items? x.descriptor).any (isOperand m)

def Site.hasBody (x : Site) : Bool :=
  x.hasItems .statement ||
    (record? x.descriptor).any fun s => Site.all s x.firm fun y =>
      y.field == "body" && y.hasItems .statement

def Site.isNode (x : Site) (check : Site → Bool) : Bool :=
  !swappable x.descriptor x.firm &&
    [Mode.expression, .statement].any fun m =>
      isOperand m x.descriptor && m.variants.all fun v =>
        !x.kinds.all (·.contains v.1) || Site.all (fieldMap v.2) (formBound v.1) check

/-- What a test that has come out true tells. -/
def Site.knowing (x : Site) : Test → Site
  | .tagged f tags => if f = x.field then { x with kinds := some tags } else x
  | _ => x

mutual

/-- Whether a piece is written alike with either form of an operand at a site. -/
def Piece.congruent : Piece → Site → Bool
  | .text _, _ | .margin, _ => true
  | .itself _, x => x.own
  | .shown f _, x | .data f, x | .members f, x | .source f, x | .accessor f, x | .attributeValue f,
      x => f != x.field
  | .expression f, x | .name f, x => f != x.field || isOperand .expression x.descriptor
  | .statement f, x => f != x.field || isOperand .statement x.descriptor
  | .each f _ _ _, x | .specifiers f, x => f != x.field || x.hasItems .expression
  | .sequence f, x => f != x.field || x.hasItems .statement
  | .body f, x => f != x.field || x.hasBody
  | .unary f g, x => f != x.field && (g != x.field || isOperand .expression x.descriptor)
  | .interleaved f g, x => f != x.field && (g != x.field || x.hasItems .expression)
  | .eachRecord f untagged _ parts, x =>
    f != x.field ||
      if untagged then x.hasItems .expression
      else ((items? x.descriptor).bind record?).any fun s =>
        Site.all s x.firm (Piece.allCongruent parts)
  | .eachCase f parts, x =>
    f != x.field || ((items? x.descriptor).bind record?).any fun s =>
      Site.all s x.firm (Piece.allCongruent parts)
  | .within f parts, x =>
    f != x.field || (record? x.descriptor).any fun s => Site.all s x.firm (Piece.allCongruent parts)
  | .inside f parts, x =>
    f != x.field || ((record? x.descriptor).any fun s =>
      Site.all s x.firm (Piece.allCongruent parts)) ||
      x.isNode (Piece.allCongruent parts)
  | .deeper parts, x | .shaped _ parts, x | .group parts, x => Piece.allCongruent parts x
  | .choose test yes no, x =>
    match test.sight x.field x.descriptor x.firm with
    | .unclear => false
    | .same => Piece.allCongruent yes (x.knowing test) && Piece.allCongruent no x
    | .yes => Piece.allCongruent yes x
    | .no => Piece.allCongruent no x

def Piece.allCongruent : List Piece → Site → Bool
  | [], _ => true
  | p :: ps, x => Piece.congruent p x && Piece.allCongruent ps x

end

/-- Exchanges on ways up to a length make no difference. -/
def AlikeUpTo (linked : Bool) (n : Nat) : Prop :=
  ∀ d way v w, way.length ≤ n → Exchanged d way v w → WrittenAlike linked d v w

theorem AlikeUpTo.mono {linked : Bool} {k n : Nat} (h : AlikeUpTo linked n) (hle : k ≤ n) :
    AlikeUpTo linked k :=
  fun d way v w hway => h d way v w (Nat.le_trans hway hle)

/-- An exchange at a site: shorter ways have been dealt with, and what the site claims to know is
true. -/
structure Site.Exchanges (linked : Bool) (x : Site) (way : List Step) (es es' : Fields) : Prop where
  field : FieldExchanged x.field x.descriptor way es es'
  firm : keysOf way ∉ x.firm
  kinds : ∀ tags, x.kinds = some tags → ∃ t, (Fields.get es x.field).tag? = some t ∧
    tags.contains t = true
  own : x.own = true → (nodeCode linked .expression (.map es)).Same
    (nodeCode linked .expression (.map es'))
  parts : AlikeUpTo linked way.length

section Sites

variable {linked : Bool} {x : Site} {way : List Step} {es es' : Fields} {check : Site → Bool}

theorem Site.Exchanges.get_eq {f : String} (h : x.Exchanges linked way es es') (hf : f ≠ x.field) :
    Fields.get es f = Fields.get es' f :=
  (h.field.get_eq hf).symm

theorem Site.Exchanges.alike (h : x.Exchanges linked way es es') :
    WrittenAlike linked x.descriptor (Fields.get es x.field) (Fields.get es' x.field) :=
  h.parts _ _ _ _ (Nat.le_refl _) h.field.exchanged

theorem Site.exists_of_all {s d : Fields} {firm : List (List String)} {f : String}
    (hall : Site.all s firm check = true) (hf : (.string f, .map d) ∈ s)
    (hfield : FieldExchanged f d way es es') (hfirm : keysOf (.key f :: way) ∉ firm)
    (hparts : AlikeUpTo linked way.length) :
    ∃ y : Site, check y = true ∧ y.Exchanges linked way es es' := by
  refine ⟨_, of_openFields hall hf hfield, hfield, not_mem_below hfirm, ?_, ?_, hparts⟩
  · intro tags htags
    cases htags
  · intro hown
    cases hown

theorem Site.Exchanges.exists_items {m : Mode} (h : x.Exchanges linked way es es')
    (hitems : x.hasItems m = true) :
    ∃ before a b after i way', Fields.get es x.field = .list (before ++ a :: after) ∧
      Fields.get es' x.field = .list (before ++ b :: after) ∧ isOperand m i = true ∧
        Exchanged i way' a b ∧
      WrittenAlike linked i a b := by
  obtain ⟨i, hi, hoperand⟩ := (Option.any_eq_true _ _).mp hitems
  obtain ⟨before, a, b, after, way', hv, hw, rfl, hab⟩ := exists_item_of_items h.field.exchanged hi
  exact ⟨before, a, b, after, i, way', hv, hw, hoperand, hab, h.parts _ _ _ _ (Nat.le_succ _) hab⟩

theorem Site.Exchanges.knowing {t : Test} (h : x.Exchanges linked way es es')
    (ht : t.holds es = true) :
    (x.knowing t).Exchanges linked way es es' := by
  cases t with
  | tagged f tags =>
    rw [Site.knowing]
    split_ifs with hf
    · refine ⟨h.field, h.firm, fun tags' htags => ?_, h.own, h.parts⟩
      cases htags
      rw [Test.holds, hf] at ht
      split at ht
      · next t htag => exact ⟨t, htag, ht⟩
      · cases ht
    · exact h
  | _ => exact h

/-- A mapping in the field, in which the exchange takes place at a site that passes a check. -/
def Site.InRecord (linked : Bool) (check : Site → Bool) (v w : Value) : Prop :=
  ∃ inner inner' y way, v = .map inner ∧ w = .map inner' ∧ check y = true ∧
    Site.Exchanges linked y way inner inner'

theorem Site.inRecord_of_record {d s : Fields} {v w : Value} {firm : List (List String)}
    (hd : record? d = some s) (hall : Site.all s firm check = true) (h : Exchanged d way v w)
    (hfirm : keysOf way ∉ firm) (hparts : AlikeUpTo linked way.length) :
    Site.InRecord linked check v w := by
  obtain ⟨inner, inner', f, e, way', rfl, rfl, rfl, hf, hfield⟩ := exists_field_of_record h hd
  obtain ⟨y, hy, hexchanges⟩ :=
    Site.exists_of_all hall hf hfield hfirm (hparts.mono (Nat.le_succ _))
  exact ⟨inner, inner', y, way', rfl, rfl, hy, hexchanges⟩

theorem Site.Exchanges.inRecord (h : x.Exchanges linked way es es')
    (hall : ((record? x.descriptor).any fun s => Site.all s x.firm check) = true) :
    Site.InRecord linked check (Fields.get es x.field) (Fields.get es' x.field) := by
  obtain ⟨s, hs, hall⟩ := (Option.any_eq_true _ _).mp hall
  exact Site.inRecord_of_record hs hall h.field.exchanged h.firm h.parts

theorem Site.Exchanges.exists_record (h : x.Exchanges linked way es es')
    (hall : (((items? x.descriptor).bind record?).any fun s => Site.all s x.firm check) = true) :
    ∃ before a b after, Fields.get es x.field = .list (before ++ a :: after) ∧
      Fields.get es' x.field = .list (before ++ b :: after) ∧ Site.InRecord linked check a b := by
  obtain ⟨s, hs, hall⟩ := (Option.any_eq_true _ _).mp hall
  obtain ⟨i, hi, hs⟩ := Option.bind_eq_some_iff.mp hs
  obtain ⟨before, a, b, after, way', hv, hw, rfl, hab⟩ := exists_item_of_items h.field.exchanged hi
  exact ⟨before, a, b, after, hv, hw, Site.inRecord_of_record hs hall hab h.firm
    (h.parts.mono (Nat.le_succ _))⟩

theorem Site.Exchanges.inRecord_of_isNode (h : x.Exchanges linked way es es')
    (hnode : x.isNode check = true) :
    Site.InRecord linked check (Fields.get es x.field) (Fields.get es' x.field) := by
  obtain ⟨hswap, hmodes⟩ := Bool.and_eq_true_iff.mp hnode
  obtain ⟨m, -, hm⟩ := List.any_eq_true.mp hmodes
  obtain ⟨hoperand, hvariants⟩ := Bool.and_eq_true_iff.mp hm
  rcases swapped_or_node hoperand h.field.exchanged with ⟨-, -, hswappable⟩ |
    ⟨inner, inner', hv, hw, hinner⟩
  · rw [hswappable x.firm h.firm] at hswap
    cases hswap
  · obtain ⟨t, s, f, d, way', hway, htag, -, hs, hf, hfield, hform⟩ := hinner.exists_field
    have hkinds : (x.kinds.all (·.contains t)) = true := by
      rw [Option.all_eq_true]
      intro tags htags
      obtain ⟨t', ht', hmem⟩ := h.kinds tags htags
      have htt : some t = some t' :=
        (congrArg Value.asText? htag).symm.trans ((congrArg Value.tag? hv).symm.trans ht')
      rwa [Option.some.inj htt]
    have hall := List.all_eq_true.mp hvariants _ hs
    rw [hkinds] at hall
    have hparts := h.parts
    rw [hway] at hparts
    obtain ⟨y, hy, hexchanges⟩ :=
      Site.exists_of_all hall hf hfield hform (hparts.mono (Nat.le_succ _))
    exact ⟨inner, inner', y, way', hv, hw, hy, hexchanges⟩

end Sites

/-! ## Pieces -/

section Pieces

variable {linked : Bool} {x : Site} {way : List Step} {es es' : Fields} {check : Site → Bool}

def Piece.field? : Piece → Option String
  | .shown f _ | .data f | .expression f | .name f | .each f _ _ _ | .eachRecord f _ _ _ |
      .eachCase f _ | .members f
  | .body f | .sequence f | .statement f | .source f | .accessor f | .specifiers f |
      .attributeValue f | .within f _
  | .inside f _ => some f
  | _ => none

theorem Piece.written_congr (linked : Bool) (m : Mode) {q : Piece} {f : String}
    (hf : q.field? = some f) (hget : Fields.get? es f = Fields.get? es' f) :
    q.written linked m es = q.written linked m es' := by
  cases q with
  | text | margin | unary | interleaved | itself | deeper | choose | shaped | group => cases hf
  | _ =>
    cases hf
    simp only [Piece.written, Fields.get, Fields.getD, hget]

theorem Site.Exchanges.same_of_ne {q : Piece} {f : String}
    (h : x.Exchanges linked way es es') (m : Mode) (hf : q.field? = some f) (hne : f ≠ x.field) :
    (q.written linked m es).Same (q.written linked m es') :=
  Code.same_of_eq (Piece.written_congr linked m hf (h.field.get?_eq hne).symm)

theorem ne_or_of_bne {f g : String} {b : Bool} (h : (f != g || b) = true) :
    f ≠ g ∨ f = g ∧ b = true := by
  by_cases hfg : f = g
  · exact .inr ⟨hfg, (Bool.or_eq_true_iff.mp h).resolve_left fun hne => bne_iff_ne.mp hne hfg⟩
  · exact .inl hfg

theorem ofExcept_elements (vs : List Value) (F : List Value → Code) :
    Code.ofExcept ((Value.list vs).elementsOrNone.map F) = F vs := by
  rw [Value.elementsOrNone_of_head rfl]
  rfl

theorem Site.Exchanges.same_body (h : x.Exchanges linked way es es')
    (hbody : x.hasBody = true) (m : Mode) :
    (bodyIn linked m (Fields.get es x.field)).Same (bodyIn linked m (Fields.get es' x.field)) := by
  have hstatements : ∃ before a b after, (Fields.get es x.field).statements = before ++ a :: after ∧
      (Fields.get es' x.field).statements = before ++ b :: after ∧
      (nodeCode linked .statement a).Same (nodeCode linked .statement b) := by
    rcases Bool.or_eq_true_iff.mp hbody with hitems | hrecord
    · obtain ⟨before, a, b, after, i, way', hv, hw, hi, -, halike⟩ := h.exists_items hitems
      exact ⟨before, a, b, after, by rw [hv]; rfl, by rw [hw]; rfl, halike.statement hi⟩
    · obtain ⟨inner, inner', y, way', hv, hw, hy, hexchanges⟩ := h.inRecord hrecord
      obtain ⟨hname, hitems⟩ := Bool.and_eq_true_iff.mp hy
      obtain ⟨before, a, b, after, i, way', hbefore, hafter, hi, -, halike⟩ :=
        hexchanges.exists_items hitems
      rw [beq_iff_eq.mp hname] at hbefore hafter
      refine ⟨before, a, b, after, ?_, ?_, halike.statement hi⟩
      · rw [hv]
        simp only [Value.statements, Value.head, hbefore]
      · rw [hw]
        simp only [Value.statements, Value.head, hafter]
  obtain ⟨before, a, b, after, hv, hw, hab⟩ := hstatements
  rw [bodyIn, bodyIn, hv, hw]
  split_ifs
  · exact .refl _
  · exact Code.same_shaped _ (Code.forall₂_map_replaced hab before after)

theorem isClause_of_operand {d : Fields} {v w : Value} (hd : isOperand .expression d = true)
    (h : Exchanged d way v w) : Visitor.isClause v = Visitor.isClause w := by
  rcases swapped_or_tag_eq hd h with hswap | htag
  · cases hswap with
    | _ => rfl
  · rw [Visitor.isClause, Visitor.isClause, htag]

theorem Site.Exchanges.same_specifiers (h : x.Exchanges linked way es es')
    (hitems : x.hasItems .expression = true) (m : Mode) :
    (specifiersIn linked m (Fields.get es x.field)).Same
    (specifiersIn linked m (Fields.get es' x.field)) := by
  obtain ⟨before, a, b, after, i, way', hv, hw, hi, hab, halike⟩ := h.exists_items hitems
  have hclauses : (before ++ a :: after).map Visitor.isClause =
      (before ++ b :: after).map Visitor.isClause := by
    rw [List.map_append, List.map_append, List.map_cons, List.map_cons, isClause_of_operand hi hab]
  rw [specifiersIn, specifiersIn, hv, hw, ofExcept_elements, ofExcept_elements, hclauses]
  exact Code.same_shaped _ (Code.forall₂_map_replaced (same_expressionIn m (halike.expression hi))
    before after)

theorem Site.Exchanges.same_template (h : x.Exchanges linked way es es')
    (hitems : x.hasItems .expression = true) (m : Mode) (texts : Value) :
    (templateIn linked m texts (Fields.get es x.field)).Same
      (templateIn linked m texts (Fields.get es' x.field)) := by
  obtain ⟨before, a, b, after, i, way', hv, hw, hi, -, halike⟩ := h.exists_items hitems
  have helements : ∀ vs, (Value.list vs).elementsOrNone = .ok vs :=
    fun _ => Value.elementsOrNone_of_head rfl
  rw [templateIn, templateIn, hv, hw, helements, helements]
  cases texts.elementsOrNone with
  | error e => exact .refl _
  | ok ts =>
    have hab := Code.forall₂_map_replaced (same_expressionIn m (halike.expression hi)) before after
    exact Code.same_shaped _ (Code.forall₂_weave hab _)

/-- The code of an item of an object: untagged mappings go by the parts. -/
def entryIn (linked : Bool) (m : Mode) (parts : List Piece) (w : Value) : Code :=
  match w.head with
  | .map es =>
    if true && Fields.has es "type" then expressionIn linked m w
      else .together (Piece.writtenAll linked m parts es)
  | _ => expressionIn linked m w

theorem entryIn_of_tag {t : String} (m : Mode) (parts : List Piece)
    (htag : Fields.get es "type" = .string t) :
    entryIn linked m parts (.map es) = expressionIn linked m (.map es) := by
  have hhas : Fields.has es "type" = true := by
    cases hget : Fields.get? es "type" with
    | none =>
      rw [Fields.get, hget] at htag
      cases htag
    | some tag =>
      rw [Fields.has, hget]
      rfl
  exact if_pos hhas

theorem entryIn_of_operand {d : Fields} {v w : Value} (m : Mode) (parts : List Piece)
    (hd : isOperand .expression d = true) (h : Exchanged d way v w) :
    entryIn linked m parts v = expressionIn linked m v ∧
      entryIn linked m parts w = expressionIn linked m w := by
  rcases swapped_or_node hd h with ⟨hswap, -⟩ | ⟨es, es', rfl, rfl, hnode⟩
  · cases hswap with
    | _ => exact ⟨rfl, rfl⟩
  · obtain ⟨t, s, f, d, way', -, htag, htag', -⟩ := hnode.exists_field
    exact ⟨entryIn_of_tag m parts htag, entryIn_of_tag m parts htag'⟩

theorem Site.Exchanges.same_entries (h : x.Exchanges linked way es es')
    (hitems : x.hasItems .expression = true) (m : Mode) (between : String) (parts : List Piece) :
    ((Piece.eachRecord x.field true between parts).written linked m es).Same
      ((Piece.eachRecord x.field true between parts).written linked m es') := by
  obtain ⟨before, a, b, after, i, way', hv, hw, hi, hab, halike⟩ := h.exists_items hitems
  have hsame : (entryIn linked m parts a).Same (entryIn linked m parts b) := by
    rw [(entryIn_of_operand m parts hi hab).1, (entryIn_of_operand m parts hi hab).2]
    exact same_expressionIn m (halike.expression hi)
  rw [Piece.written, Piece.written, hv, hw, ofExcept_elements, ofExcept_elements]
  exact Code.same_shaped _ (Code.forall₂_map_replaced hsame before after)

end Pieces

mutual

theorem Piece.same_written (linked : Bool) (m : Mode) :
    (q : Piece) → {x : Site} → {way : List Step} →
    {es es' : Fields} → x.Exchanges linked way es es' → q.congruent x = true →
    (q.written linked m es).Same (q.written linked m es')
  | .text _, _, _, _, _, _, _ | .margin, _, _, _, _, _, _ => .refl _
  | .shown f _, _, _, _, _, h, hq | .data f, _, _, _, _, h, hq | .members f, _, _, _, _, h, hq
  | .source f, _, _, _, _, h, hq | .accessor f, _, _, _, _, h, hq | .attributeValue f, _, _,
      _, _, h, hq =>
    h.same_of_ne m rfl (bne_iff_ne.mp hq)
  | .itself missing, _, _, _, _, h, hq => by
    rw [Piece.written, Piece.written]
    split_ifs
    · exact .refl _
    · exact h.own hq
  | .expression f, x, _, _, _, h, hq => by
    rcases ne_or_of_bne hq with hne | ⟨rfl, hsite⟩
    · exact h.same_of_ne m rfl hne
    · exact same_expressionIn m (h.alike.expression hsite)
  | .name f, x, _, _, _, h, hq => by
    rcases ne_or_of_bne hq with hne | ⟨rfl, hsite⟩
    · exact h.same_of_ne m rfl hne
    · exact same_nameIn m (h.alike.name hsite)
  | .statement f, x, _, _, _, h, hq => by
    rcases ne_or_of_bne hq with hne | ⟨rfl, hsite⟩
    · exact h.same_of_ne m rfl hne
    · exact h.alike.statement hsite
  | .each f before between after, x, _, _, _, h, hq => by
    rcases ne_or_of_bne hq with hne | ⟨rfl, hsite⟩
    · exact h.same_of_ne m rfl hne
    · obtain ⟨front, a, b, back, i, way', hv, hw, hi, -, halike⟩ := h.exists_items hsite
      rw [Piece.written, Piece.written, hv, hw, ofExcept_elements, ofExcept_elements]
      refine Code.same_shaped _ (Code.forall₂_map_replaced ?_ front back)
      have hitem := same_expressionIn m (halike.expression hi)
      exact Code.same_shaped _ (.cons (.refl _) (.cons hitem (.cons (.refl _) .nil)))
  | .specifiers f, x, _, _, _, h, hq => by
    rcases ne_or_of_bne hq with hne | ⟨rfl, hsite⟩
    · exact h.same_of_ne m rfl hne
    · exact h.same_specifiers hsite m
  | .sequence f, x, _, _, _, h, hq => by
    rcases ne_or_of_bne hq with hne | ⟨rfl, hsite⟩
    · exact h.same_of_ne m rfl hne
    · obtain ⟨front, a, b, back, i, way', hv, hw, hi, -, halike⟩ := h.exists_items hsite
      rw [Piece.written, Piece.written, hv, hw, ofExcept_elements, ofExcept_elements]
      exact Code.same_shaped _ (Code.forall₂_map_replaced (halike.statement hi) front back)
  | .body f, x, _, _, _, h, hq => by
    rcases ne_or_of_bne hq with hne | ⟨rfl, hsite⟩
    · exact h.same_of_ne m rfl hne
    · exact h.same_body hsite m
  | .unary f g, x, _, _, _, h, hq => by
    obtain ⟨hf, hg⟩ := Bool.and_eq_true_iff.mp hq
    rw [Piece.written, Piece.written, Fields.getD, Fields.getD, h.field.get?_eq (bne_iff_ne.mp hf)]
    rcases ne_or_of_bne hg with hne | ⟨rfl, hsite⟩
    · rw [h.get_eq hne]
      exact .refl _
    · exact (Code.same_shaped _ (.cons (same_expressionIn m (h.alike.expression hsite))
        .nil)).spelling _
  | .interleaved f g, x, _, _, _, h, hq => by
    obtain ⟨hf, hg⟩ := Bool.and_eq_true_iff.mp hq
    rw [Piece.written, Piece.written, h.get_eq (bne_iff_ne.mp hf)]
    rcases ne_or_of_bne hg with hne | ⟨rfl, hsite⟩
    · rw [h.get_eq hne]
      exact .refl _
    · exact h.same_template hsite m _
  | .eachRecord f true between parts, x, _, _, _, h, hq => by
    rcases ne_or_of_bne hq with hne | ⟨rfl, hsite⟩
    · exact h.same_of_ne m rfl hne
    · exact h.same_entries hsite m between parts
  | .eachRecord f false _ parts, x, _, _, _, h, hq | .eachCase f parts, x, _, _, _, h, hq => by
    rcases ne_or_of_bne hq with hne | ⟨rfl, hsite⟩
    · exact h.same_of_ne m rfl hne
    · obtain ⟨front, a, b, back, hv, hw, inner, inner', y, way', rfl, rfl, hy, hexchanges⟩ :=
        h.exists_record hsite
      rw [Piece.written, Piece.written, hv, hw, ofExcept_elements, ofExcept_elements]
      refine Code.same_shaped _ (Code.forall₂_map_replaced ?_ front back)
      exact Code.same_shaped _ (Piece.same_writtenAll linked m parts hexchanges hy)
  | .within f parts, x, _, _, _, h, hq => by
    rcases ne_or_of_bne hq with hne | ⟨rfl, hsite⟩
    · exact h.same_of_ne m rfl hne
    · obtain ⟨inner, inner', y, way', hv, hw, hy, hexchanges⟩ := h.inRecord hsite
      rw [Piece.written, Piece.written, hv, hw]
      exact Code.same_shaped _ (Piece.same_writtenAll linked m parts hexchanges hy)
  | .inside f parts, x, _, es, es', h, hq => by
    rw [Piece.congruent, Bool.or_assoc] at hq
    rcases ne_or_of_bne hq with hne | ⟨rfl, hsite⟩
    · exact h.same_of_ne m rfl hne
    · have hrecord : Site.InRecord linked (Piece.allCongruent parts) (Fields.get es x.field)
          (Fields.get es' x.field) :=
        (Bool.or_eq_true_iff.mp hsite).elim h.inRecord h.inRecord_of_isNode
      obtain ⟨inner, inner', y, way', hv, hw, hy, hexchanges⟩ := hrecord
      rw [Piece.written, Piece.written, hv, hw]
      exact Code.same_shaped _ (Piece.same_writtenAll linked m parts hexchanges hy)
  | .deeper parts, _, _, _, _, h, hq => by
    rw [Piece.written, Piece.written]
    exact (Code.same_shaped _ (Piece.same_writtenAll linked m parts h hq)).deeper
  | .shaped _ parts, _, _, _, _, h, hq => by
    rw [Piece.written, Piece.written]
    exact Code.same_shaped _ (Piece.same_writtenAll linked m parts h hq)
  | .group parts, _, _, _, _, h, hq => by
    rw [Piece.written, Piece.written]
    exact Code.same_shaped _ (Piece.same_writtenAll linked m parts h hq)
  | .choose test yes no, x, _, es, es', h, hq => by
    have hfits := test.fits_sight h.field h.firm
    rw [Piece.congruent] at hq
    rw [Piece.written, Piece.written]
    cases hsight : test.sight x.field x.descriptor x.firm with
    | unclear =>
      rw [hsight] at hq
      cases hq
    | yes =>
      rw [hsight] at hq hfits
      rw [hfits.1, hfits.2]
      exact Code.same_shaped _ (Piece.same_writtenAll linked m yes h hq)
    | no =>
      rw [hsight] at hq hfits
      rw [hfits.1, hfits.2]
      exact Code.same_shaped _ (Piece.same_writtenAll linked m no h hq)
    | same =>
      rw [hsight] at hq hfits
      obtain ⟨hyes, hno⟩ := Bool.and_eq_true_iff.mp hq
      rw [← show test.holds es = test.holds es' from hfits]
      cases hholds : test.holds es with
      | true =>
        exact Code.same_shaped _ (Piece.same_writtenAll linked m yes (h.knowing hholds) hyes)
      | false => exact Code.same_shaped _ (Piece.same_writtenAll linked m no h hno)

theorem Piece.same_writtenAll (linked : Bool) (m : Mode) :
    (qs : List Piece) → {x : Site} → {way : List Step} →
    {es es' : Fields} → x.Exchanges linked way es es' → Piece.allCongruent qs x = true →
    List.Forall₂ Code.Same (Piece.writtenAll linked m qs es) (Piece.writtenAll linked m qs es')
  | [], _, _, _, _, _, _ => .nil
  | q :: qs, _, _, _, _, h, hqs => by
    obtain ⟨hq, hqs⟩ := Bool.and_eq_true_iff.mp hqs
    exact .cons (Piece.same_written linked m q h hq) (Piece.same_writtenAll linked m qs h hqs)

end

/-! ## The tables -/

def Mode.congruentAt (m : Mode) (t : String) (x : Site) : Bool :=
  match m.rules.lookup t with
  | some rule => Piece.allCongruent rule x
  | none => true

/-- Whether all kinds of a mode are written alike at all of their sites, as expressions and as what
they are. No kind that stands for a name has a site. -/
def Mode.congruent (m : Mode) : Bool :=
  m.variants.all fun v => Site.all (fieldMap v.2) (formBound v.1) fun x =>
    v.1 != "identifier" && v.1 != "jsxIdentifier" && Mode.expression.congruentAt v.1 x &&
      m.congruentAt v.1 { x with own := true }

theorem Mode.congruent_eq_true (m : Mode) : m.congruent = true := by
  cases m with
  | expression => decide +kernel
  | statement => decide +kernel

section Nodes

variable {linked : Bool} {m : Mode} {way : List Step} {es es' : Fields} {t : String}

theorem same_nodeCode {x : Site} (h : x.Exchanges linked way es es')
    (htag : Fields.get es "type" = .string t) (htag' : Fields.get es' "type" = .string t)
    (hrule : m.congruentAt t x = true) :
    (nodeCode linked m (.map es)).Same (nodeCode linked m (.map es')) := by
  rw [nodeCode_map, nodeCode_map]
  refine Code.Same.deferred ?_
  rw [selectRule, selectRule, htag, htag']
  dsimp only
  cases hlookup : m.rules.lookup t with
  | none => exact .refl _
  | some rule =>
    rw [Mode.congruentAt, hlookup] at hrule
    exact Code.same_shaped _ (Piece.same_writtenAll linked m rule h hrule)

theorem plainName?_eq_none (htag : Fields.get es "type" = .string t)
    (ht : (t != "identifier" && t != "jsxIdentifier") = true) : plainName? (.map es) = none := by
  obtain ⟨hidentifier, hjsx⟩ := Bool.and_eq_true_iff.mp ht
  simp only [plainName?, Value.head, htag]
  rw [if_neg]
  simpa using ⟨bne_iff_ne.mp hidentifier, bne_iff_ne.mp hjsx⟩

/-- A node with an exchange in it stands for no name, and is written alike. -/
theorem NodeExchanged.same (h : NodeExchanged m way es es')
    (hparts : ∀ k < way.length, AlikeUpTo linked k) :
    (nodeCode linked m (.map es)).Same (nodeCode linked m (.map es')) ∧
      plainName? (.map es) = none ∧ plainName? (.map es') = none := by
  obtain ⟨t, s, f, d, way', rfl, htag, htag', hs, hf, hfield, hform⟩ := h.exists_field
  have hvariant := List.all_eq_true.mp m.congruent_eq_true _ hs
  obtain ⟨x, hx, hexchanges⟩ :=
    Site.exists_of_all hvariant hf hfield hform (hparts _ (Nat.lt_succ_self _))
  obtain ⟨hx, hrule⟩ := Bool.and_eq_true_iff.mp hx
  obtain ⟨hkind, hexpression⟩ := Bool.and_eq_true_iff.mp hx
  -- a statement may be written as the expression it is, so that comes first
  have hown := same_nodeCode hexchanges htag htag' hexpression
  have hexchanges' : Site.Exchanges linked { x with own := true } way' es es' :=
    ⟨hexchanges.field, hexchanges.firm, hexchanges.kinds, fun _ => hown, hexchanges.parts⟩
  exact ⟨same_nodeCode hexchanges' htag htag' hrule, plainName?_eq_none htag hkind,
    plainName?_eq_none htag' hkind⟩

end Nodes

theorem same_swapped (linked : Bool) {v w : Value} (h : Swapped v w) :
    (nodeCode linked .expression v).Same (nodeCode linked .expression w) ∧
      (nameCode linked v).Same (nameCode linked w) := by
  have hnode : ∀ x : String,
      (nodeCode linked .expression (.string x)).Same
        (nodeCode linked .expression (identifierNode x)) := by
    intro x layout level
    have htext : nodeCode linked .expression (.string x) = .text x := nameCode_string linked x
    rw [htext, identifierNode, Value.record, nodeCode_map, Code.emit_deferred, Code.emit_text]
    rfl
  have hname : ∀ x : String, nameCode linked (identifierNode x) = nameCode linked (.string x) := by
    intro x
    rw [nameCode_string]
    rfl
  cases h with
  | toNode hx => exact ⟨hnode _, Code.same_of_eq (hname _).symm⟩
  | toText hx => exact ⟨fun layout level => (hnode _ layout level).symm, Code.same_of_eq (hname _)⟩

theorem alike_of_exchanged {linked : Bool} {d : Fields} {way : List Step} {v w : Value}
    (h : Exchanged d way v w) (hparts : ∀ k < way.length, AlikeUpTo linked k) :
    WrittenAlike linked d v w := by
  constructor
  · intro hd
    rcases swapped_or_node hd h with ⟨hswap, -⟩ | ⟨es, es', rfl, rfl, hnode⟩
    · exact (same_swapped linked hswap).1
    · exact (hnode.same hparts).1
  · intro hd
    rcases swapped_or_node hd h with ⟨hswap, -⟩ | ⟨es, es', rfl, rfl, hnode⟩
    · exact (same_swapped linked hswap).2
    · obtain ⟨hsame, hnone, hnone'⟩ := hnode.same hparts
      rw [nameCode, nameCode, hnone, hnone']
      exact hsame
  · intro hd
    rcases swapped_or_node hd h with ⟨-, hm, -⟩ | ⟨es, es', rfl, rfl, hnode⟩
    · cases hm
    · exact (hnode.same hparts).1

theorem alikeUpTo (linked : Bool) (n : Nat) : AlikeUpTo linked n := by
  -- the way to the operand gets shorter with each node
  induction n using Nat.strongRecOn with
  | ind n ih =>
    intro d way v w hway h
    exact alike_of_exchanged h fun k hk => ih k (Nat.lt_of_lt_of_le hk hway)

/-- An operand may be a bare text or an identifier node: exchanging the two anywhere in a statement
or an expression, but for the operands whose form their node looks at, leaves its text and its
diagnostics at every level as they are. -/
theorem emit_exchanged (linked : Bool) (m : Mode) (way : List Step) (v w : Value)
    (h : Exchanged (fieldMap (refersTo "any" m.category)) way v w) (layout : Layout) (level : Int) :
    (nodeCode linked m w).emit layout level = (nodeCode linked m v).emit layout level := by
  have halike : WrittenAlike linked (fieldMap (refersTo "any" m.category)) v w :=
    alikeUpTo linked way.length _ _ _ _ (Nat.le_refl _) h
  cases m with
  | expression => exact (halike.expression rfl layout level).symm
  | statement => exact (halike.statement rfl layout level).symm

/-- An argument of a call in a case of a switch. -/
theorem emit_exchanged_argument :
    let tree := fun operand => Value.record [("type", .string "switchStatement"),
  ("discriminant", .string "state"),
      ("cases", .list [.record [("test", .string "1"), ("consequent", .list [
        .record [("type", .string "expressionStatement"),
          ("expression", .record [("type", .string "callExpression"), ("callee", .string "log"),
            ("arguments", .list [.string "x", operand])])]])]])]
    Exchanged (fieldMap (refersTo "any" "statement"))
        [.key "cases", .index 0, .key "consequent", .index 0, .key "expression",
          .key "arguments", .index 1]
        (tree (.string "y")) (tree (identifierNode "y")) ∧
      ∀ layout level,
        (nodeCode true .statement (tree (identifierNode "y"))).emit layout level =
          (nodeCode true .statement (tree (.string "y"))).emit layout level := by
  intro tree
  have hargument : Exchanged (fieldMap expressions) [.index 1] (.list [.string "x", .string "y"])
      (.list [.string "x", identifierNode "y"]) :=
    @Exchanged.item _ _ _ _ _ [.string "x"] [] rfl rfl (.toNode rfl rfl (by decide))
  have hexchanged : Exchanged (fieldMap (refersTo "any" "statement"))
      [.key "cases", .index 0, .key "consequent", .index 0, .key "expression",
        .key "arguments", .index 1]
      (tree (.string "y")) (tree (identifierNode "y")) := by
    refine @Exchanged.node _ _ _ "statement" "switchStatement" _ _ _ _ rfl rfl
      (.tail _ (.head _)) rfl ?_ (by decide)
    refine @Exchanged.item _ _ _ _ _ [] [] rfl rfl ?_
    refine .field rfl rfl (.tail _ (.head _)) rfl ?_
    refine @Exchanged.item _ _ _ _ _ [] [] rfl rfl ?_
    refine @Exchanged.node _ _ _ "statement" "expressionStatement" _ _ _ _ rfl rfl
      (.head _) rfl ?_ (by decide)
    exact @Exchanged.node _ _ _ "expression" "callExpression" _ _ _ _ rfl rfl
      (.tail _ (.head _)) rfl hargument (by decide)
  exact ⟨hexchanged, emit_exchanged true .statement _ _ _ hexchanged⟩

end Scriptwright.Script
