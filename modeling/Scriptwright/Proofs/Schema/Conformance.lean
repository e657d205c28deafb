import Scriptwright.Schema.Check
import Scriptwright.Proofs.Value.Everywhere

/-!
# Conformance

What it means that a document conforms to a schema, said without any order of checks. A value meets
a descriptor if it has the type and if all that the descriptor asks of its parts holds; a mapping
fills a field map if no required field is missing and all fields that are there meet their
descriptors. Several field maps can govern one mapping: the nested one, and those that a definition
has for all its nodes and for nodes of this kind.

Schemas are values, and not every value makes sense as one: `wellFormed` can be computed, and its
lemmas say what a well-formed schema has at each place.
-/

namespace Scriptwright.Schema

def declaredType (d : Fields) : Value := Fields.getD d "type" (.string "any")

/-! ## Well-formed schemas -/

def typeNames : List String := ["string", "number", "boolean", "array", "object", "any"]

def knownType : Value → Bool
  | .string t => typeNames.contains t
  | _ => false

def knownRef (definitions : Fields) (ref : Value) : Bool :=
  ref.isNull ||
    match Fields.find? definitions ref with
    | some (.map _) => true
    | _ => false

mutual

def wellFormedDescriptor (definitions : Fields) : Value → Bool
  | .map d =>
    knownType (declaredType d) && knownRef definitions (Fields.get d "ref") &&
      wellFormedInside definitions (declaredType d) d
  | _ => false

/-- Whether the `schema` among the fields of a descriptor suits the type that the descriptor names.
-/
def wellFormedInside (definitions : Fields) (expected : Value) : List (Value × Value) → Bool
  | [] => true
  | (k, v) :: es =>
    if k.isKey "schema" then
      v.isNull ||
        if expected.isKey "object" then wellFormedFields definitions v
        else if expected.isKey "array" then wellFormedDescriptor definitions v
        else true
    else wellFormedInside definitions expected es

def wellFormedFields (definitions : Fields) : Value → Bool
  | .map es => wellFormedEntries definitions es
  | _ => false

def wellFormedEntries (definitions : Fields) : List (Value × Value) → Bool
  | [] => true
  | (k, v) :: es => k.asText?.isSome && wellFormedDescriptor definitions v &&
      wellFormedEntries definitions es

end

/-- Variants that count as false are as good as none. -/
def wellFormedVariants (definitions : Fields) (variants : Value) : Bool :=
  !variants.truthy ||
    match variants with
    | .map vs => vs.all fun e => e.2.isNull || wellFormedFields definitions e.2
    | _ => false

def wellFormedDefinition (definitions : Fields) : Value → Bool
  | .map d =>
    (Fields.get? d "schema").all (wellFormedFields definitions) &&
      (Fields.get? d "untagged").all (wellFormedFields definitions) &&
      wellFormedVariants definitions (Fields.get d "variants")
  | _ => false

/-- Whether a schema and a table of definitions name known types and definitions only. Definitions
may refer to each other. -/
def wellFormed (definitions schema : Fields) : Bool :=
  definitions.all (fun e => wellFormedDefinition definitions e.2) &&
    wellFormedEntries definitions schema

theorem eq_null_of_isNull {v : Value} (h : v.isNull = true) : v = .null := by
  cases v with
  | null => rfl
  | _ => simp [Value.isNull] at h

theorem isKey_iff {v : Value} {name : String} : v.isKey name = true ↔ v = .string name := by
  cases v with
  | string s => simp [Value.isKey]
  | _ => simp [Value.isKey]

theorem exists_of_knownType {v : Value} (h : knownType v = true) :
    ∃ t ∈ typeNames, v = .string t := by
  cases v with
  | string t => exact ⟨t, by simpa [knownType] using h, rfl⟩
  | _ => simp [knownType] at h

theorem exists_of_wellFormedFields {definitions : Fields} {v : Value}
    (h : wellFormedFields definitions v = true) :
    ∃ s, v = .map s ∧ wellFormedEntries definitions s = true := by
  cases v with
  | map s => exact ⟨s, rfl, by simpa [wellFormedFields] using h⟩
  | _ => simp [wellFormedFields] at h

theorem exists_of_wellFormedDescriptor {definitions : Fields} {v : Value}
    (h : wellFormedDescriptor definitions v = true) :
    ∃ d, v = .map d ∧ wellFormedDescriptor definitions (.map d) = true := by
  cases v with
  | map d => exact ⟨d, rfl, h⟩
  | _ => simp [wellFormedDescriptor] at h

theorem exists_of_wellFormedEntries_cons {definitions es : Fields} {e : Value × Value}
    (h : wellFormedEntries definitions (e :: es) = true) :
    ∃ name d, e = (.string name, .map d) ∧ wellFormedDescriptor definitions (.map d) = true ∧
      wellFormedEntries definitions es = true := by
  obtain ⟨k, v⟩ := e
  obtain ⟨⟨hk, hv⟩, hes⟩ : (k.asText?.isSome = true ∧ wellFormedDescriptor definitions v = true) ∧
      wellFormedEntries definitions es = true := by simpa [wellFormedEntries] using h
  obtain ⟨d, rfl, hd⟩ := exists_of_wellFormedDescriptor hv
  cases k with
  | string name => exact ⟨name, d, rfl, hd, hes⟩
  | _ => simp [Value.asText?] at hk

theorem wellFormedInside_eq (definitions d : Fields) (expected : Value) :
    wellFormedInside definitions expected d =
      ((Fields.get d "schema").isNull ||
        if expected.isKey "object" then wellFormedFields definitions (Fields.get d "schema")
        else if expected.isKey "array" then wellFormedDescriptor definitions (Fields.get d "schema")
        else true) := by
  induction d with
  | nil => simp [wellFormedInside, Fields.get, Fields.get?, Value.isNull]
  | cons e es ih =>
    obtain ⟨k, v⟩ := e
    rw [wellFormedInside]
    by_cases hk : k.isKey "schema" = true
    · rw [if_pos hk]
      simp [Fields.get, Fields.get?, hk]
    · rw [if_neg hk, ih]
      simp [Fields.get, Fields.get?, hk]

/-- What a well-formed descriptor has at each place. -/
structure WellDescribed (definitions d : Fields) : Prop where
  type : ∃ t ∈ typeNames, declaredType d = .string t
  ref : (Fields.get d "ref").isNull = true ∨
    ∃ definition, Fields.find? definitions (Fields.get d "ref") = some (.map definition)
  fields : declaredType d = .string "object" → Fields.get d "schema" = .null ∨
    ∃ s, Fields.get d "schema" = .map s ∧ wellFormedEntries definitions s = true
  items : declaredType d = .string "array" → Fields.get d "schema" = .null ∨
    ∃ item, Fields.get d "schema" = .map item ∧ wellFormedDescriptor definitions (.map item) = true

theorem wellDescribed {definitions d : Fields}
    (h : wellFormedDescriptor definitions (.map d) = true) :
    WellDescribed definitions d := by
  rw [wellFormedDescriptor, wellFormedInside_eq, Bool.and_eq_true, Bool.and_eq_true] at h
  obtain ⟨⟨htype, href⟩, hinside⟩ := h
  refine ⟨exists_of_knownType htype, ?_, ?_, ?_⟩
  · rcases (Bool.or_eq_true _ _).mp href with hnull | hfound
    · exact .inl hnull
    · split at hfound
      · next definition hdef => exact .inr ⟨definition, hdef⟩
      · cases hfound
  · intro hobject
    rw [hobject] at hinside
    rcases (Bool.or_eq_true _ _).mp hinside with hnull | hfields
    · exact .inl (eq_null_of_isNull hnull)
    · exact .inr (exists_of_wellFormedFields (by simpa [Value.isKey] using hfields))
  · intro harray
    rw [harray] at hinside
    rcases (Bool.or_eq_true _ _).mp hinside with hnull | hitem
    · exact .inl (eq_null_of_isNull hnull)
    · exact .inr (exists_of_wellFormedDescriptor (by simpa [Value.isKey] using hitem))

theorem mem_of_find? {es : Fields} {key v : Value} (h : Fields.find? es key = some v) :
    ∃ k, (k, v) ∈ es ∧ k.sameKey key = true := by
  obtain ⟨e, he, rfl⟩ := Option.map_eq_some_iff.mp h
  have hkey : e.1.sameKey key = true := by simpa using List.find?_some he
  exact ⟨e.1, List.mem_of_find?_eq_some he, hkey⟩

theorem exists_of_wellFormedVariants {definitions : Fields} {variants : Value}
    (hwf : wellFormedVariants definitions variants = true) (h : variants.truthy = true) :
    ∃ vs, variants = .map vs ∧ ∀ key v, Fields.find? vs key = some v →
      v = .null ∨ ∃ s, v = .map s ∧ wellFormedEntries definitions s = true := by
  cases variants with
  | map vs =>
    rw [wellFormedVariants, h] at hwf
    refine ⟨vs, rfl, fun key v hv => ?_⟩
    obtain ⟨k, hk, -⟩ := mem_of_find? hv
    rcases (Bool.or_eq_true _ _).mp (List.all_eq_true.mp hwf _ hk) with hnull | hfields
    · exact .inl (eq_null_of_isNull hnull)
    · exact .inr (exists_of_wellFormedFields hfields)
  | _ => simp [wellFormedVariants, h] at hwf

theorem hashable_of_find? {es : Fields} {key v : Value} (h : Fields.find? es key = some v) :
    key.hashable = true := by
  obtain ⟨k, -, hk⟩ := mem_of_find? h
  cases key with
  | list | map | pair | set | knot => cases k <;> simp [Value.sameKey, Value.sameKey.number?] at hk
  | _ => rfl

theorem wellFormedDefinition_of_find? {definitions schema definition : Fields} {key : Value}
    (hwf : wellFormed definitions schema = true)
    (h : Fields.find? definitions key = some (.map definition)) :
    wellFormedDefinition definitions (.map definition) = true := by
  obtain ⟨k, hk, -⟩ := mem_of_find? h
  exact List.all_eq_true.mp (Bool.and_eq_true_iff.mp hwf).1 _ hk

/-! ## Conformance -/

inductive HasType : String → Value → Prop where
  | any (v : Value) : HasType "any" v
  | string (s : String) : HasType "string" (.string s)
  | int (n : Int) : HasType "number" (.int n)
  | float (x : Double) : HasType "number" (.float x)
  | bool (b : Bool) : HasType "boolean" (.bool b)
  | list (items : List Value) : HasType "array" (.list items)
  | map (es : Fields) : HasType "object" (.map es)

theorem HasType.exists_items {t : String} {v : Value} (h : HasType t v) (ht : t = "array") :
    ∃ items, v = .list items := by
  cases h with
  | list items => exact ⟨items, rfl⟩
  | _ => simp at ht

theorem HasType.exists_fields {t : String} {v : Value} (h : HasType t v) (ht : t = "object") :
    ∃ es, v = .map es := by
  cases h with
  | map es => exact ⟨es, rfl⟩
  | _ => simp at ht

theorem HasType.exists_text {t : String} {v : Value} (h : HasType t v) (ht : t = "string") :
    ∃ s, v = .string s := by
  cases h with
  | string s => exact ⟨s, rfl⟩
  | _ => simp at ht

/-- The field maps that a definition has for a node: the common one, and one for the node's kind. -/
inductive Demands (definition node : Fields) : Fields → Prop where
  | common {s : Fields} : Fields.get? definition "schema" = some (.map s) →
      Demands definition node s
  | untagged {s : Fields} : (Fields.get node "type").isNull = true →
      Fields.get? definition "untagged" = some (.map s) → Demands definition node s
  | variant {vs s : Fields} : ¬((Fields.get node "type").isNull = true ∧
      Fields.has definition "untagged" = true) →
      Fields.get definition "variants" = .map vs →
      Fields.find? vs (Fields.get node "type") = some (.map s) → Demands definition node s

/-- The field maps that a descriptor has for a mapping. -/
inductive Governs (definitions d es : Fields) : Fields → Prop where
  | nested {s : Fields} : declaredType d = .string "object" → Fields.get d "schema" = .map s →
      Governs definitions d es s
  | node {definition s : Fields} : (Fields.get d "ref").isNull = false →
      Fields.find? definitions (Fields.get d "ref") = some (.map definition) →
        Demands definition es s →
      Governs definitions d es s

/-- The descriptor that a descriptor has for the items of a list. -/
def ItemDescriptor (d item : Fields) : Prop :=
  declaredType d = .string "array" ∧ Fields.get d "schema" = .map item

mutual

/-- A value is what a descriptor asks for. -/
inductive Meets (definitions : Fields) : Fields → Value → Prop where
  | intro {d : Fields} {v : Value} {t : String} : declaredType d = .string t → HasType t v →
      (∀ es, v = .map es → ∀ s, Governs definitions d es s → Fills definitions s es) →
      (∀ items, v = .list items → ∀ item, ItemDescriptor d item →
        ∀ w ∈ items, Meets definitions item w) →
      Meets definitions d v

/-- A mapping has the fields that a field map asks for. -/
inductive Fills (definitions : Fields) : Fields → Fields → Prop where
  | intro {s es : Fields} :
      (∀ name d, (.string name, .map d) ∈ s → (Fields.get d "required").truthy = true →
        Fields.has es name = true) →
      (∀ name d, (.string name, .map d) ∈ s → Fields.has es name = true →
        Meets definitions d (Fields.get es name)) →
      Fills definitions s es

end

/-- A document conforms to a schema if it is a mapping that fills it. -/
def Conforms (definitions schema : Fields) (data : Value) : Prop :=
  ∃ es, data = .map es ∧ Fills definitions schema es

theorem fills_nil (definitions es : Fields) : Fills definitions [] es :=
  .intro (fun _ _ h => by cases h) fun _ _ h => by cases h

theorem fills_cons (definitions s es d : Fields) (name : String) :
    Fills definitions ((.string name, .map d) :: s) es ↔
      (((Fields.get d "required").truthy = true → Fields.has es name = true) ∧
        (Fields.has es name = true → Meets definitions d (Fields.get es name))) ∧
          Fills definitions s es := by
  constructor
  · rintro ⟨hrequired, hmeets⟩
    refine ⟨⟨hrequired name d List.mem_cons_self, hmeets name d List.mem_cons_self⟩, .intro ?_ ?_⟩
    · exact fun n d' h => hrequired n d' (List.mem_cons_of_mem _ h)
    · exact fun n d' h => hmeets n d' (List.mem_cons_of_mem _ h)
  · rintro ⟨⟨hrequired, hmeets⟩, ⟨hrequired', hmeets'⟩⟩
    refine .intro (fun n d' h => ?_) fun n d' h => ?_
    · rcases List.mem_cons.mp h with he | h
      · cases he
        exact hrequired
      · exact hrequired' n d' h
    · rcases List.mem_cons.mp h with he | h
      · cases he
        exact hmeets
      · exact hmeets' n d' h

theorem meets_iff {definitions d : Fields} {v : Value} {t : String}
    (ht : declaredType d = .string t) :
    Meets definitions d v ↔ HasType t v ∧
      (∀ es, v = .map es → ∀ s, Governs definitions d es s → Fills definitions s es) ∧
      ∀ items, v = .list items → ∀ item, ItemDescriptor d item →
        ∀ w ∈ items, Meets definitions item w := by
  constructor
  · rintro ⟨ht', htype, hfields, hitems⟩
    cases ht.symm.trans ht'
    exact ⟨htype, hfields, hitems⟩
  · rintro ⟨htype, hfields, hitems⟩
    exact .intro ht htype hfields hitems

/-! ## Nodes -/

/-- The values in a document that a schema speaks of, each with its descriptor. -/
inductive Visited (definitions schema : Fields) (data : Value) : Fields → Value → Prop where
  | top {es d : Fields} {name : String} : data = .map es → (.string name, .map d) ∈ schema →
      Fields.has es name = true → Visited definitions schema data d (Fields.get es name)
  | field {d es s d' : Fields} {name : String} : Visited definitions schema data d (.map es) →
      Governs definitions d es s → (.string name, .map d') ∈ s → Fields.has es name = true →
      Visited definitions schema data d' (Fields.get es name)
  | item {d item : Fields} {items : List Value} {w : Value} : Visited definitions schema data d
      (.list items) →
      ItemDescriptor d item → w ∈ items → Visited definitions schema data item w

/-- Every node of a document has a tag that can be looked up. A node is a mapping whose descriptor
has a reference. -/
def NodesTagged (definitions schema : Fields) (data : Value) : Prop :=
  ∀ d es, Visited definitions schema data d (.map es) → (Fields.get d "ref").isNull = false →
    (Fields.get es "type").hashable = true

def tagged : Value → Bool
  | .map es => (Fields.get es "type").hashable
  | _ => true

theorem Visited.everywhere {definitions schema d : Fields} {data v : Value} {p : Value → Bool}
    (h : Visited definitions schema data d v) (hdata : data.everywhere p = true) :
    v.everywhere p = true := by
  induction h with
  | top hes _ hname =>
    rw [hes] at hdata
    exact Value.everywhere_get hdata hname
  | field _ _ _ hname ih => exact Value.everywhere_get ih hname
  | item _ _ hw ih => exact Value.everywhere_of_mem_items ih hw

/-- Where all mappings have such tags, the nodes among them do. -/
theorem nodesTagged_of_everywhere (definitions schema : Fields) {data : Value}
    (h : data.everywhere tagged = true) : NodesTagged definitions schema data := by
  intro d es hvisited _
  have htagged : tagged (.map es) = true := Value.of_everywhere (hvisited.everywhere h)
  exact htagged

end Scriptwright.Schema
