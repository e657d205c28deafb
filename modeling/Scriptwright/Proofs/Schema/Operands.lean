import Scriptwright.Schema.Nodes
import Scriptwright.Proofs.Schema.Names
import Scriptwright.Proofs.Schema.Tour

/-!
# Operands given in two ways

Where a schema refers to expressions and allows any type, an operand may be a bare text or an
identifier node. `Exchanged` puts the one in place of the other, somewhere in the parts of a value
that its descriptor speaks of: in the fields of a mapping, in the items of a list, and in nodes
whose kind has a variant.
-/

namespace Scriptwright.Schema

def identifierNode (x : String) : Value :=
  .record [("type", .string "identifier"), ("name", .string x)]

def keysOf (way : List Step) : List String :=
  way.filterMap fun
    | .key name => some name
    | .index _ => none

/-- The operands of a kind of nodes that are looked at before they are written, by the keys that
lead to them. -/
def formBound : String → List (List String)
  | "jsxAttribute" => [["value"]]
  | "switchStatement" => [["cases", "test"]]
  | _ => []

def variantOf (ref t : String) : Fields :=
  match Fields.find? (fieldMap nodeDefinitions) (.string ref) with
  | some (.map definition) => variantMap (Fields.get definition "variants") (.string t)
  | _ => []

/-- One operand is given in the other way. The way leads to it, and the descriptor is that of the
whole value. -/
inductive Exchanged : Fields → List Step → Value → Value → Prop where
  | toNode {d : Fields} {x : String} (htype : declaredType d = .string "any")
    (href : Fields.get d "ref" = .string "expression") (hx : x ≠ "") : Exchanged d [] (.string x)
      (identifierNode x)
  | toText {d : Fields} {x : String} (htype : declaredType d = .string "any")
    (href : Fields.get d "ref" = .string "expression") (hx : x ≠ "") : Exchanged d []
      (identifierNode x) (.string x)
  | item {d i : Fields} {way : List Step} {v w : Value} {before after : List Value}
    (htype : declaredType d = .string "array") (hschema : Fields.get d "schema" = .map i)
      (h : Exchanged i way v w) :
    Exchanged d (.index before.length :: way) (.list (before ++ v :: after))
      (.list (before ++ w :: after))
  | field {d s d' es : Fields} {f : String} {way : List Step} {v w : Value}
    (htype : declaredType d = .string "object") (hschema : Fields.get d "schema" = .map s)
    (hf : (.string f, .map d') ∈ s) (hv : Fields.get? es f = some v) (h : Exchanged d' way v w) :
    Exchanged d (.key f :: way) (.map es) (.map (es.insert (.string f) w))
  /-- Operands whose form their own node looks at are left alone. -/
  | node {d d' es : Fields} {ref t f : String} {way : List Step} {v w : Value}
    (href : Fields.get d "ref" = .string ref) (htag : Fields.get es "type" = .string t)
    (hf : (.string f, .map d') ∈ variantOf ref t) (hv : Fields.get? es f = some v)
      (h : Exchanged d' way v w)
    (hform : keysOf (.key f :: way) ∉ formBound t) :
    Exchanged d (.key f :: way) (.map es) (.map (es.insert (.string f) w))

/-- One operand in a field of a mapping is given in the other way. -/
inductive FieldExchanged (f : String) (d : Fields) (way : List Step) : Fields → Fields → Prop where
  | intro {es : Fields} {v w : Value} (hv : Fields.get? es f = some v) (h : Exchanged d way v w) :
    FieldExchanged f d way es (es.insert (.string f) w)

/-! ## What descriptors leave room for -/

/-- Whether there can be no operand in a value: nothing is referred to, neither by the descriptor
nor for items. -/
def isClosed (d : Fields) : Bool :=
  (Fields.get d "ref").isNull &&
    match Fields.get d "schema" with
    | .null => true
    | .map i => (declaredType d).isKey "array" && (Fields.get i "ref").isNull &&
        (Fields.get i "schema").isNull
    | _ => false

section Inversion

variable {d : Fields} {way : List Step} {v w : Value}

inductive Swapped : Value → Value → Prop where
  | toNode {x : String} (hx : x ≠ "") : Swapped (.string x) (identifierNode x)
  | toText {x : String} (hx : x ≠ "") : Swapped (identifierNode x) (.string x)

/-- Where a descriptor refers to a definition and asks for nothing else, either the value itself is
exchanged or it is a node, with a field in which the exchange takes place. -/
theorem Exchanged.cases_of_ref (h : Exchanged d way v w) (hschema : Fields.get d "schema" = .null) :
    (Swapped v w ∧ way = [] ∧ declaredType d = .string "any" ∧
      Fields.get d "ref" = .string "expression") ∨
      ∃ es es' ref t f d' way', v = .map es ∧ w = .map es' ∧ way = .key f :: way' ∧
        Fields.get d "ref" = .string ref ∧ Fields.get es "type" = .string t ∧
        (.string f, .map d') ∈ variantOf ref t ∧ FieldExchanged f d' way' es es' ∧
        keysOf (.key f :: way') ∉ formBound t := by
  cases h with
  | toNode htype href hx => exact .inl ⟨.toNode hx, rfl, htype, href⟩
  | toText htype href hx => exact .inl ⟨.toText hx, rfl, htype, href⟩
  | item _ hitem _ => cases hschema.symm.trans hitem
  | field _ hfields _ _ _ => cases hschema.symm.trans hfields
  | node href htag hf hv h hform =>
    exact .inr ⟨_, _, _, _, _, _, _, rfl, rfl, rfl, href, htag, hf, .intro hv h, hform⟩

theorem Exchanged.exists_item {i : Fields} (h : Exchanged d way v w)
    (htype : declaredType d = .string "array") (hschema : Fields.get d "schema" = .map i)
    (href : Fields.get d "ref" = .null) :
    ∃ before a b after way', v = .list (before ++ a :: after) ∧ w = .list (before ++ b :: after) ∧
      way = .index before.length :: way' ∧ Exchanged i way' a b := by
  cases h with
  | toNode hany => simp [htype] at hany
  | toText hany => simp [htype] at hany
  | item _ hitem h =>
    cases hschema.symm.trans hitem
    exact ⟨_, _, _, _, _, rfl, rfl, rfl, h⟩
  | field hobject => simp [htype] at hobject
  | node hnode => cases href.symm.trans hnode

theorem Exchanged.exists_field {s : Fields} (h : Exchanged d way v w)
    (htype : declaredType d = .string "object") (hschema : Fields.get d "schema" = .map s)
    (href : Fields.get d "ref" = .null) :
    ∃ es es' f d' way', v = .map es ∧ w = .map es' ∧ way = .key f :: way' ∧
      (.string f, .map d') ∈ s ∧
      FieldExchanged f d' way' es es' := by
  cases h with
  | toNode hany => simp [htype] at hany
  | toText hany => simp [htype] at hany
  | item harray => simp [htype] at harray
  | field _ hfields hf hv h =>
    cases hschema.symm.trans hfields
    exact ⟨_, _, _, _, _, rfl, rfl, rfl, hf, .intro hv h⟩
  | node hnode => cases href.symm.trans hnode

theorem not_exchanged_of_isClosed (hclosed : isClosed d = true) : ¬Exchanged d way v w := by
  obtain ⟨href, hinside⟩ := Bool.and_eq_true_iff.mp hclosed
  replace href := eq_null_of_isNull href
  intro h
  cases h with
  | toNode _ hnode => cases href.symm.trans hnode
  | toText _ hnode => cases href.symm.trans hnode
  | node hnode => cases href.symm.trans hnode
  | field htype hschema =>
    rw [hschema, htype] at hinside
    cases hinside
  | item htype hschema h =>
    simp only [hschema, Bool.and_eq_true] at hinside
    obtain ⟨⟨-, hitemRef⟩, hitemSchema⟩ := hinside
    rcases h.cases_of_ref (eq_null_of_isNull hitemSchema) with ⟨-, -, -, hnode⟩ |
      ⟨_, _, _, _, _, _, _, _, _, _, hnode, -⟩
    · cases (eq_null_of_isNull hitemRef).symm.trans hnode
    · cases (eq_null_of_isNull hitemRef).symm.trans hnode

end Inversion

/-! ## What stays as it is -/

section FieldExchanged

variable {f g : String} {d es es' : Fields} {way : List Step}

theorem FieldExchanged.get?_eq (h : FieldExchanged f d way es es') (hg : g ≠ f) :
    Fields.get? es' g = Fields.get? es g := by
  cases h with
  | intro => exact (Fields.get?_insert _ _ _ _).trans (if_neg hg)

theorem FieldExchanged.get_eq (h : FieldExchanged f d way es es') (hg : g ≠ f) :
    Fields.get es' g = Fields.get es g := by
  rw [Fields.get, Fields.get, h.get?_eq hg]

theorem FieldExchanged.exists_values (h : FieldExchanged f d way es es') :
    ∃ v w, Fields.get? es f = some v ∧ Fields.get? es' f = some w ∧ Exchanged d way v w := by
  cases h with
  | intro hv h => exact ⟨_, _, hv, (Fields.get?_insert _ _ _ _).trans (if_pos rfl), h⟩

theorem FieldExchanged.exchanged (h : FieldExchanged f d way es es') :
    Exchanged d way (Fields.get es f) (Fields.get es' f) := by
  obtain ⟨v, w, hv, hw, hexchanged⟩ := h.exists_values
  rw [Fields.get, Fields.get, hv, hw]
  exact hexchanged

theorem truthy_of_get? {v : Value} (h : Fields.get? es f = some v) :
    (Value.map es).truthy = true := by
  cases es with
  | nil => cases h
  | cons e es => rfl

end FieldExchanged

theorem Exchanged.truthy {d : Fields} {way : List Step} {v w : Value} (h : Exchanged d way v w) :
    v.truthy = true ∧ w.truthy = true := by
  have hfields : ∀ {es : Fields} {f : String} {v w : Value}, Fields.get? es f = some v →
      (Value.map es).truthy = true ∧ (Value.map (es.insert (.string f) w)).truthy = true := by
    intro es f v w hv
    have hw : Fields.get? (es.insert (.string f) w) f = some w :=
      (Fields.get?_insert _ _ _ _).trans (if_pos rfl)
    exact ⟨truthy_of_get? hv, truthy_of_get? hw⟩
  cases h with
  | toNode _ _ hx => exact ⟨bne_iff_ne.mpr hx, rfl⟩
  | toText _ _ hx => exact ⟨rfl, bne_iff_ne.mpr hx⟩
  | item => simp [Value.truthy, Value.head]
  | field _ _ _ hv _ => exact hfields hv
  | node _ _ _ hv _ _ => exact hfields hv

theorem Exchanged.not_null {d : Fields} {way : List Step} {v w : Value} (h : Exchanged d way v w) :
    v.isNull = false ∧ w.isNull = false := by
  cases h with
  | _ => exact ⟨rfl, rfl⟩

end Scriptwright.Schema
