import Mathlib.Tactic.SplitIfs
import Scriptwright.Proofs.Schema.Operands
import Scriptwright.Proofs.Script.Names
import Scriptwright.Proofs.Script.Vouched

/-!
# Operands in nodes

What becomes of a node when one of its operands is given in the other way: its tag stays, the fields
outside stay, and of the tests that rules make most come out the same. `Test.sight` says what a test
can see of an exchange, by the descriptor of the field that the test is about.
-/

namespace Scriptwright.Script

open Schema

/-! ## Descriptors and exchanges -/

/-- The descriptor of the items of an array that refers to nothing itself. -/
def items? (d : Fields) : Option Fields :=
  if (declaredType d).isKey "array" && (Fields.get d "ref").isNull then nested? d else none

def openFields (s : Fields) (check : String → Fields → Bool) : Bool :=
  s.all fun
    | (.string f, .map d) => isClosed d || check f d
    | _ => true

/-- What is left of key paths behind a first key. -/
def below (f : String) (paths : List (List String)) : List (List String) :=
  paths.filterMap fun
    | g :: path => if g = f then some path else none
    | [] => none

/-- Whether a text and a node can stand for each other at a place; `firm` tells where they cannot.
-/
def swappable (d : Fields) (firm : List (List String)) : Bool :=
  (declaredType d).isKey "any" && (Fields.get d "ref").isKey "expression" && !firm.contains []

section Exchanges

variable {f : String} {d es es' : Fields} {way : List Step} {firm : List (List String)}

theorem keysOf_key (f : String) (way : List Step) : keysOf (.key f :: way) = f :: keysOf way := rfl

theorem not_mem_below (h : keysOf (.key f :: way) ∉ firm) : keysOf way ∉ below f firm := by
  intro hmem
  obtain ⟨path, hpath, hrest⟩ := List.mem_filterMap.mp hmem
  split at hrest
  · next g rest =>
    split_ifs at hrest with hg
    cases hrest
    rw [keysOf_key, ← hg] at h
    exact h hpath
  · cases hrest

theorem of_openFields {s : Fields} {check : String → Fields → Bool} (h : openFields s check = true)
    (hf : (.string f, .map d) ∈ s) (hexchanged : FieldExchanged f d way es es') :
    check f d = true := by
  have hopen := List.all_eq_true.mp h _ hf
  obtain ⟨v, w, -, -, hvw⟩ := hexchanged.exists_values
  exact (Bool.or_eq_true_iff.mp hopen).resolve_left fun hclosed =>
    not_exchanged_of_isClosed hclosed hvw

theorem exists_item_of_items {i : Fields} {v w : Value} (h : Exchanged d way v w)
    (hi : items? d = some i) :
    ∃ (before : List Value) (a b : Value) (after : List Value) (way' : List Step),
      v = .list (before ++ a :: after) ∧ w = .list (before ++ b :: after) ∧
        way = .index before.length :: way' ∧
      Exchanged i way' a b := by
  unfold items? at hi
  split_ifs at hi with hd
  obtain ⟨htype, href⟩ := Bool.and_eq_true_iff.mp hd
  exact h.exists_item (isKey_iff.mp htype) (get_eq_of_nested hi) (eq_null_of_isNull href)

theorem exists_field_of_record {s : Fields} {v w : Value} (h : Exchanged d way v w)
    (hs : record? d = some s) :
    ∃ inner inner' g e way', v = .map inner ∧ w = .map inner' ∧ way = .key g :: way' ∧
      (.string g, .map e) ∈ s ∧
      FieldExchanged g e way' inner inner' := by
  unfold record? at hs
  split_ifs at hs with hd
  obtain ⟨htype, href⟩ := Bool.and_eq_true_iff.mp hd
  exact h.exists_field (isKey_iff.mp htype) (get_eq_of_nested hs) (eq_null_of_isNull href)

theorem schema_of_isOperand {m : Mode} (h : isOperand m d = true) :
    Fields.get d "schema" = .null := by
  obtain ⟨ref, -, href⟩ := List.any_eq_true.mp h
  exact eq_null_of_isNull (Bool.and_eq_true_iff.mp href).1

theorem ref_of_isOperand {m : Mode} {ref : String} (h : isOperand m d = true)
    (href : Fields.get d "ref" = .string ref) : ref ∈ m.refs := by
  obtain ⟨ref', hmem, hrefers⟩ := List.any_eq_true.mp h
  have hkey := isKey_iff.mp (Bool.and_eq_true_iff.mp hrefers).2
  cases href.symm.trans hkey
  exact hmem

theorem swappable_of_swapped (htype : declaredType d = .string "any")
    (href : Fields.get d "ref" = .string "expression") (hfirm : [] ∉ firm) :
    swappable d firm = true := by
  have hcontains : firm.contains [] = false := by simpa using hfirm
  rw [swappable, htype, href, hcontains]
  rfl

end Exchanges

/-! ## Nodes of the standard definitions -/

theorem variantOf_eq {m : Mode} {ref : String} (h : ref ∈ m.refs) (t : String) :
    variantOf ref t = fieldMap ((m.variants.lookup t).getD .null) := by
  have hvariants : ∀ variants, variantMap (.record variants) (.string t) =
      fieldMap ((variants.lookup t).getD .null) := by
    intro variants
    rw [Value.record, variantMap, find?_ofTexts]
  cases m with
  | statement =>
    obtain rfl := List.mem_singleton.mp h
    exact hvariants statementVariants
  | expression =>
    simp only [Mode.refs, List.mem_cons, List.not_mem_nil, or_false] at h
    rcases h with rfl | rfl
    · exact hvariants expressionVariants
    · exact hvariants expressionVariants

theorem exists_variant_of_mem {m : Mode} {ref t : String} {e : Value × Value} (href : ref ∈ m.refs)
    (he : e ∈ variantOf ref t) : ∃ s, (t, .map s) ∈ m.variants ∧ e ∈ s := by
  rw [variantOf_eq href] at he
  cases hlookup : m.variants.lookup t with
  | none =>
    rw [hlookup] at he
    cases he
  | some variant =>
    rw [hlookup] at he
    cases variant with
    | map s => exact ⟨s, mem_of_lookup hlookup, he⟩
    | _ => cases he

/-- No variant describes the tag. -/
def Mode.untyped (m : Mode) : Bool :=
  m.variants.all fun v => openFields (fieldMap v.2) fun f _ => f != "type"

theorem Mode.untyped_eq_true (m : Mode) : m.untyped = true := by
  cases m with
  | expression => decide +kernel
  | statement => decide +kernel

/-- A node in which an operand is exchanged, for a descriptor that refers to nodes of a mode. -/
structure NodeExchanged (m : Mode) (way : List Step) (es es' : Fields) : Prop where
  exists_field : ∃ t s f d way', way = .key f :: way' ∧ Fields.get es "type" = .string t ∧
    Fields.get es' "type" = .string t ∧ (t, .map s) ∈ m.variants ∧ (.string f, .map d) ∈ s ∧
    FieldExchanged f d way' es es' ∧ keysOf (.key f :: way') ∉ formBound t

/-- An operand is exchanged itself, or it is a node with an exchange in it. -/
theorem swapped_or_node {m : Mode} {d : Fields} {way : List Step} {v w : Value}
    (hd : isOperand m d = true) (h : Exchanged d way v w) :
    (Swapped v w ∧ m = .expression ∧ ∀ firm, keysOf way ∉ firm → swappable d firm = true) ∨
      ∃ es es', v = .map es ∧ w = .map es' ∧ NodeExchanged m way es es' := by
  rcases h.cases_of_ref (schema_of_isOperand hd) with
    ⟨hswap, rfl, htype, href⟩ | ⟨es, es', ref, t, f, d', way', rfl, rfl, rfl, href, htag, hf,
      hfield, hform⟩
  · refine .inl ⟨hswap, ?_, fun firm hfirm => swappable_of_swapped htype href hfirm⟩
    have hmem := ref_of_isOperand hd href
    cases m with
    | expression => rfl
    | statement => simp [Mode.refs] at hmem
  · obtain ⟨s, hs, hfs⟩ := exists_variant_of_mem (ref_of_isOperand hd href) hf
    have hne : f ≠ "type" :=
      bne_iff_ne.mp (of_openFields (List.all_eq_true.mp m.untyped_eq_true _ hs) hfs hfield)
    have htag' : Fields.get es' "type" = .string t := (hfield.get_eq (Ne.symm hne)).trans htag
    exact .inr ⟨es, es', rfl, rfl, ⟨t, s, f, d', way', rfl, htag, htag', hs, hfs, hfield, hform⟩⟩

/-- An operand is exchanged itself, or its tag stays as it is. -/
theorem swapped_or_tag_eq {m : Mode} {d : Fields} {way : List Step} {v w : Value}
    (hd : isOperand m d = true) (h : Exchanged d way v w) : Swapped v w ∨ v.tag? = w.tag? := by
  rcases swapped_or_node hd h with ⟨hswap, -⟩ | ⟨es, es', rfl, rfl, hnode⟩
  · exact .inl hswap
  · obtain ⟨t, s, f, d, way', -, htag, htag', -⟩ := hnode.exists_field
    exact .inr (congrArg Value.asText? (htag.trans htag'.symm))

/-! ## Tests -/

/-- What is known of a test when an operand is exchanged. -/
inductive Sight where
  | unclear
  /-- The outcome is the same before and after. -/
  | same
  | yes
  | no

def Test.ownSight (d : Fields) (firm : List (List String)) : Test → Sight
  | .truthy _ | .unlessFalse _ | .has _ | .given _ => .yes
  | .record _ => if isOperand .expression d && !swappable d firm then .yes else .unclear
  | .defaultCase _ => if isOperand .expression d && !swappable d firm then .no else .unclear
  | .tagged _ tags =>
    if (isOperand .expression d || isOperand .statement d) && !tags.contains "identifier" then .same
      else .unclear
  | .bodiless _ => if (items? d).isSome then .no else .unclear
  | .block _ => .unclear

def Test.sight (f : String) (d : Fields) (firm : List (List String)) (t : Test) : Sight :=
  if t.field = f then t.ownSight d firm else .same

/-- That a test comes out as its sight says. -/
def Sight.Fits : Sight → Bool → Bool → Prop
  | .unclear, _, _ => True
  | .same, a, b => a = b
  | .yes, a, b => a = true ∧ b = true
  | .no, a, b => a = false ∧ b = false

section Tests

variable {f : String} {d es es' : Fields} {way : List Step} {firm : List (List String)}

theorem tagged_of_operand {m : Mode} {tags : List String} (hd : isOperand m d = true)
    (h : Exchanged d way (Fields.get es f) (Fields.get es' f))
    (htags : tags.contains "identifier" = false) :
    (Test.tagged f tags).holds es = (Test.tagged f tags).holds es' := by
  rw [Test.holds, Test.holds]
  rcases swapped_or_tag_eq hd h with hswap | htag
  · generalize Fields.get es f = v at hswap
    generalize Fields.get es' f = w at hswap
    cases hswap with
    | toNode hx => exact htags.symm
    | toText hx => exact htags
  · rw [htag]

/-- Where the two forms cannot stand for each other, an operand with an exchange in it is a node. -/
theorem maps_of_not_swappable (hd : isOperand .expression d = true) (hfirm : keysOf way ∉ firm)
    (hswap : swappable d firm = false) {v w : Value} (h : Exchanged d way v w) :
    (∃ inner, v = .map inner) ∧ ∃ inner', w = .map inner' := by
  rcases swapped_or_node hd h with ⟨-, -, hswappable⟩ | ⟨inner, inner', rfl, rfl, -⟩
  · rw [hswappable firm hfirm] at hswap
    cases hswap
  · exact ⟨⟨inner, rfl⟩, inner', rfl⟩

theorem Test.fits_ownSight (t : Test) (h : FieldExchanged t.field d way es es')
    (hfirm : keysOf way ∉ firm) :
    (t.ownSight d firm).Fits (t.holds es) (t.holds es') := by
  obtain ⟨v, w, hv, hw, hvw⟩ := h.exists_values
  have hget : Fields.get es t.field = v := by rw [Fields.get, hv]; rfl
  have hget' : Fields.get es' t.field = w := by rw [Fields.get, hw]; rfl
  cases t with
  | truthy f =>
    rw [Test.field] at hget hget'
    exact ⟨(congrArg Value.truthy hget).trans hvw.truthy.1,
      (congrArg Value.truthy hget').trans hvw.truthy.2⟩
  | unlessFalse f =>
    rw [Test.field] at hv hw
    simp only [Test.ownSight, Sight.Fits, Test.holds, Fields.getD, hv, hw, Option.getD_some]
    exact hvw.truthy
  | has f =>
    rw [Test.field] at hv hw
    simp only [Test.ownSight, Sight.Fits, Test.holds, Fields.has, hv, hw,
      Option.isSome_some, and_self]
  | given f =>
    rw [Test.field] at hget hget'
    simp only [Test.ownSight, Sight.Fits, Test.holds, hget, hget', hvw.not_null,
      Bool.not_false, and_self]
  | record f | defaultCase f =>
    rw [Test.field] at hget hget'
    rw [Test.ownSight]
    split_ifs with hfirmly
    · obtain ⟨hd, hswap⟩ := Bool.and_eq_true_iff.mp hfirmly
      obtain ⟨⟨inner, rfl⟩, inner', rfl⟩ :=
        maps_of_not_swappable hd hfirm (by simpa using hswap) hvw
      simp only [Sight.Fits, Test.holds, hget, hget']
      exact ⟨rfl, rfl⟩
    · trivial
  | tagged f tags =>
    rw [Test.field] at h
    rw [Test.ownSight]
    split_ifs with hoperand
    · obtain ⟨hd, htags⟩ := Bool.and_eq_true_iff.mp hoperand
      rw [Bool.not_eq_true'] at htags
      rcases Bool.or_eq_true_iff.mp hd with hd | hd
      · exact tagged_of_operand hd h.exchanged htags
      · exact tagged_of_operand hd h.exchanged htags
    · trivial
  | bodiless f =>
    rw [Test.field] at hget hget'
    rw [Test.ownSight]
    split_ifs with hitems
    · obtain ⟨i, hi⟩ := Option.isSome_iff_exists.mp hitems
      obtain ⟨before, a, b, after, way', rfl, rfl, -, -⟩ := exists_item_of_items hvw hi
      simp [Sight.Fits, Test.holds, hget, hget', Value.statements, Value.head]
    · trivial
  | block f => trivial

theorem Test.fits_sight (t : Test) (h : FieldExchanged f d way es es') (hfirm : keysOf way ∉ firm) :
    (t.sight f d firm).Fits (t.holds es) (t.holds es') := by
  unfold Test.sight
  split_ifs with hf
  · rw [← hf] at h
    exact t.fits_ownSight h hfirm
  · exact (Test.holds_congr (h.get?_eq hf)).symm

end Tests

end Scriptwright.Script
