import Scriptwright.Schema.Nodes
import Scriptwright.Script.Node
import Scriptwright.Proofs.Schema.Decision

/-!
# What the check accepts

Each check comes with the condition under which it accepts. Unlike conformance, these are equations
of the check as it stands: they hold for values that run into themselves and for nodes whose tag
cannot be looked up.
-/

namespace Scriptwright

namespace Schema

namespace Verdict

def Accepts (v : Verdict) : Prop := v.outcome = .ok ()

instance (v : Verdict) : Decidable v.Accepts :=
  match h : v.outcome with
  | .ok () => .isTrue h
  | .error _ => .isFalse fun hok => nomatch h.symm.trans hok

theorem accepts_accept : accept.Accepts := rfl

theorem not_accepts_reject (f : Failure) : ¬(reject f).Accepts := fun h => nomatch h

theorem accepts_andThen {v : Verdict} {next : Unit → Verdict} :
    (v.andThen next).Accepts ↔ v.Accepts ∧ (next ()).Accepts := by
  obtain ⟨outcome, log⟩ := v
  cases outcome with
  | ok u => simp [Accepts, andThen]
  | error f => simp [Accepts, andThen]

end Verdict

section Checks

variable {definitions : Value}

/-- What the check asks of a mapping for one entry of its schema. -/
def Fits (definitions : Value) (path : String) (es : Fields) (e : Value × Value) : Prop :=
  match Fields.get? es e.1.display, e.2 with
  | some v, d => (checkValue definitions d v (joinPath path e.1.display)).Accepts
  | none, .map d => (Fields.get d "required").truthy = false
  | none, _ => False

theorem accepts_checkFields {es s : Fields} {path : String} :
    (checkFields es (fun d v p _ => checkValue definitions d v p) path (.map s)).Accepts ↔
      ∀ e ∈ s, Fits definitions path es e := by
  rw [checkFields]
  induction s with
  | nil => simp [checkEntries, Verdict.accepts_accept]
  | cons e s ih =>
    obtain ⟨key, descriptor⟩ := e
    unfold checkEntries
    rw [Verdict.accepts_andThen, ih, List.forall_mem_cons]
    refine and_congr_left fun _ => ?_
    unfold Fits
    cases hfield : Fields.get? es key.display with
    | some v => rw [show Fields.get es key.display = v by rw [Fields.get, hfield]; rfl]
    | none =>
      cases descriptor with
      | map d =>
        cases hrequired : (Fields.get d "required").truthy with
        | true => simp [hrequired, Verdict.not_accepts_reject]
        | false => simp [hrequired, Verdict.accepts_accept]
      | _ => simp [Verdict.not_accepts_reject]

theorem accepts_checkValue {d : Fields} {v : Value} {path : String} :
    (checkValue definitions (.map d) v path).Accepts ↔
      v.exhausted = false ∧ checkType v (declaredType d) = .ok true ∧
        (checkInside definitions d (declaredType d) path v.head fun d' w p _ =>
          checkValue definitions d' w p).Accepts := by
  rw [checkValue]
  cases v.exhausted with
  | true => simp [Verdict.not_accepts_reject]
  | false =>
    rw [if_neg Bool.false_ne_true, ← declaredType]
    cases checkType v (declaredType d) with
    | error e => simp [Verdict.not_accepts_reject]
    | ok b =>
      cases b with
      | false => simp [Verdict.not_accepts_reject]
      | true => simp

theorem checkType_head (v expected : Value) : checkType v.head expected = checkType v expected := by
  unfold checkType hasType?
  simp only [describe_head]

theorem accepts_head {d : Fields} {v : Value} {path : String} :
    (checkValue definitions (.map d) v path).Accepts ↔
      v.exhausted = false ∧ (checkValue definitions (.map d) v.head path).Accepts := by
  rw [accepts_checkValue, accepts_checkValue, checkType_head, Value.head_head]
  exact and_congr_right fun hv => (and_iff_right (Value.exhausted_head hv)).symm

theorem exists_items_of_checkType {v : Value} (h : checkType v (.string "array") = .ok true) :
    ∃ items, v.head = .list items :=
  (hasType_head_of_checkType (by decide) h).exists_items rfl

theorem exists_fields_of_checkType {v : Value} (h : checkType v (.string "object") = .ok true) :
    ∃ es, v.head = .map es :=
  (hasType_head_of_checkType (by decide) h).exists_fields rfl

theorem exists_text_of_checkType {v : Value} (h : checkType v (.string "string") = .ok true) :
    ∃ t, v.head = .string t :=
  (hasType_head_of_checkType (by decide) h).exists_text rfl

theorem accepts_checkItems {bound : Nat} {item : Value} {path : String}
    {items : List Value} (i : Nat) (h : ∀ v ∈ items, v.depth < bound) :
    (checkItems bound (fun d v p _ => checkValue definitions d v p) item path i items h).Accepts ↔
      ∀ j v, items[j]? = some v →
        (checkValue definitions item v (indexPath path (i + j))).Accepts := by
  induction items generalizing i with
  | nil => simp [checkItems, Verdict.accepts_accept]
  | cons v vs ih =>
    rw [checkItems, Verdict.accepts_andThen, ih]
    constructor
    · rintro ⟨hfirst, hrest⟩ j w hw
      cases j with
      | zero =>
        cases hw
        exact hfirst
      | succ j =>
        have hj := hrest j w hw
        rwa [Nat.add_right_comm] at hj
    · intro hall
      refine ⟨hall 0 v rfl, fun j w hw => ?_⟩
      have hj := hall (j + 1) w hw
      rwa [Nat.add_right_comm]

theorem accepts_object {d s es : Fields} {path : String} (htype : declaredType d = .string "object")
    (hschema : Fields.get d "schema" = .map s) (href : Fields.get d "ref" = .null) :
    (checkValue definitions (.map d) (.map es) path).Accepts ↔
      ∀ e ∈ s, Fits definitions path es e := by
  have htyped : checkType (.map es) (.string "object") = .ok true := rfl
  rw [accepts_checkValue, htype, ← accepts_checkFields]
  simp only [Value.head, checkInside, hschema, href, checkNested, checkRef, Verdict.accepts_andThen]
  simp [Value.exhausted, htyped, Value.isKey, Verdict.accepts_accept]

theorem accepts_array {d item : Fields} {items : List Value} {path : String}
    (htype : declaredType d = .string "array") (hschema : Fields.get d "schema" = .map item) :
    (checkValue definitions (.map d) (.list items) path).Accepts ↔
      ∀ j v, items[j]? = some v → (checkValue definitions (.map item) v
        (indexPath path j)).Accepts := by
  have htyped : checkType (.list items) (.string "array") = .ok true := rfl
  rw [accepts_checkValue, htype]
  simp only [Value.head, checkInside, hschema]
  simp [Value.exhausted, htyped, Value.isKey, accepts_checkItems]

theorem items_of_accepts {d item : Fields} {v : Value} {path : String}
    (htype : declaredType d = .string "array") (hschema : Fields.get d "schema" = .map item)
    (h : (checkValue definitions (.map d) v path).Accepts) :
    ∃ items, v.head = .list items ∧ ∀ w ∈ items, ∃ path',
      (checkValue definitions (.map item) w path').Accepts := by
  have htyped := (accepts_checkValue.mp h).2.1
  rw [htype] at htyped
  obtain ⟨items, hitems⟩ := exists_items_of_checkType htyped
  have hall := (accepts_head.mp h).2
  rw [hitems, accepts_array htype hschema] at hall
  refine ⟨items, hitems, fun w hw => ?_⟩
  obtain ⟨j, hj⟩ := List.getElem?_of_mem hw
  exact ⟨_, hall j w hj⟩

theorem fields_of_accepts {d s : Fields} {v : Value} {path : String}
    (htype : declaredType d = .string "object") (hschema : Fields.get d "schema" = .map s)
    (href : Fields.get d "ref" = .null) (h : (checkValue definitions (.map d) v path).Accepts) :
    ∃ es, v.head = .map es ∧ ∀ e ∈ s, Fits definitions path es e := by
  have htyped := (accepts_checkValue.mp h).2.1
  rw [htype] at htyped
  obtain ⟨es, hes⟩ := exists_fields_of_checkType htyped
  have hall := (accepts_head.mp h).2
  rw [hes, accepts_object htype hschema href] at hall
  exact ⟨es, hes, hall⟩

/-- What refers to a definition is accepted by it, whatever else is asked of it. -/
theorem accepts_refersTo {d : Fields} {v : Value} {ref path : String}
    (hschema : Fields.get d "schema" = .null) (href : Fields.get d "ref" = .string ref)
    (h : (checkValue definitions (.map d) v path).Accepts) :
    (checkValue definitions (refersTo "any" ref) v path).Accepts := by
  obtain ⟨hv, -, hinside⟩ := accepts_checkValue.mp h
  refine accepts_checkValue.mpr ⟨hv, rfl, ?_⟩
  cases hhead : v.head with
  | map es =>
    rw [hhead] at hinside
    simp only [checkInside, hschema, href, checkNested] at hinside
    exact hinside
  | list items => exact rfl
  | _ => exact rfl

end Checks

/-! ## Nodes -/

theorem find?_ofTexts (fields : List (String × Value)) (t : String) :
    Fields.find? (Fields.ofTexts fields) (.string t) = fields.lookup t := by
  induction fields with
  | nil => rfl
  | cons f fields ih =>
    obtain ⟨key, v⟩ := f
    have hkey : (Value.string key).sameKey (.string t) = (t == key) := Bool.beq_comm
    simp only [Fields.find?, Fields.ofTexts, List.map_cons, List.find?_cons, hkey,
      List.lookup_cons] at ih ⊢
    cases t == key with
    | true => rfl
    | false => exact ih

def tagDefinition (variants : List (String × Value)) : Value :=
  .record [("schema", .record [("type", name)]), ("variants", .record variants)]

def nameDefinition : Value :=
  .record [("untagged", .record [("name", name)]), ("variants", .record expressionVariants)]

theorem nodeDefinitions_eq : nodeDefinitions = .map (Fields.ofTexts [
    ("statement", tagDefinition statementVariants),
    ("expression", tagDefinition expressionVariants),
    ("name", nameDefinition),
    ("markup", .record [("schema", .record markupFields)])]) := rfl

section Nodes

variable {definitions es s : Fields} {variants : List (String × Value)} {ref t : String}
  {path : String}

theorem fits_name {definitions : Value} {f : String} (h : Fields.get? es f = some (.string t)) :
    Fits definitions path es (.string f, name) := by
  have hdisplay : (Value.string f).display = f := rfl
  simp only [Fits, hdisplay, h]
  exact accepts_checkValue.mpr ⟨rfl, rfl, rfl⟩

theorem get?_of_get_eq_string {f : String} (h : Fields.get es f = .string t) :
    Fields.get? es f = some (.string t) := by
  unfold Fields.get at h
  cases hv : Fields.get? es f with
  | none => rw [hv] at h; cases h
  | some v => rw [hv] at h; exact congrArg some h

theorem accepts_ref {d definition : Fields}
    (htype : checkType (.map es) (declaredType d) = .ok true)
    (hschema : Fields.get d "schema" = .null) (href : Fields.get d "ref" = .string ref)
    (hdefinition : Fields.find? definitions (.string ref) = some (.map definition)) :
    (checkValue (.map definitions) (.map d) (.map es) path).Accepts ↔
      (checkDefinition es (fun d v p _ => checkValue (.map definitions) d v p) path (.string ref)
        (.map definition)).Accepts := by
  have hnode : checkRef (.map definitions) (.string ref) es
      (fun d v p _ => checkValue (.map definitions) d v p) path =
      checkDefinition es (fun d v p _ => checkValue (.map definitions) d v p) path (.string ref)
        (.map definition) :=
    checkRef_eq_checkDefinition path rfl hdefinition
  rw [accepts_checkValue]
  simp only [Value.head, checkInside, hschema, href, checkNested, Verdict.accepts_andThen, hnode]
  simp [Value.exhausted, htype, Verdict.accepts_accept]

theorem checkVariant_eq_checkFields {visit : Visit (Value.map es).depth} {ref : Value}
    (htag : Fields.get es "type" = .string t) (hvariant : variants.lookup t = some (.map s)) :
    checkVariant es visit path ref (.record variants) = checkFields es visit path (.map s) := by
  have hvariants : (Value.map (Fields.ofTexts variants)).truthy = true := by
    cases variants with
    | nil => cases hvariant
    | cons v vs => rfl
  have hfind : Fields.find? (Fields.ofTexts variants) (.string t) = some (.map s) :=
    (find?_ofTexts variants t).trans hvariant
  unfold checkVariant
  simp only [htag, Value.record, hfind]
  exact if_pos hvariants

section Definitions

variable {visit : Visit (Value.map es).depth}

theorem accepts_tagDefinition (ref : Value) (htag : Fields.get es "type" = .string t)
    (hcommon : (checkFields es visit path (.record [("type", name)])).Accepts) :
    (checkDefinition es visit path ref (tagDefinition variants)).Accepts ↔
      (checkVariant es visit path ref (.record variants)).Accepts := by
  rw [tagDefinition, Value.record, checkDefinition, Verdict.accepts_andThen, htag]
  exact and_iff_right hcommon

theorem accepts_nameDefinition (ref : Value) (htag : Fields.get es "type" = .string t) :
    (checkDefinition es visit path ref nameDefinition).Accepts ↔
      (checkVariant es visit path ref (.record expressionVariants)).Accepts := by
  rw [nameDefinition, Value.record, checkDefinition, Verdict.accepts_andThen, htag]
  exact and_iff_right rfl

/-- The name of a definition matters for remarks alone. -/
theorem accepts_checkVariant_ref {ref' variants : Value} (ref : Value)
    (h : (checkVariant es visit path ref' variants).Accepts) :
    (checkVariant es visit path ref variants).Accepts := by
  unfold checkVariant at h ⊢
  dsimp only at h ⊢
  cases htruthy : variants.truthy with
  | false => exact rfl
  | true =>
    rw [htruthy] at h
    cases variants with
    | map vs =>
      dsimp only at h ⊢
      cases hkind : (Fields.get es "type").hashable with
      | false =>
        rw [hkind] at h
        exact absurd h (Verdict.not_accepts_reject _)
      | true =>
        rw [hkind] at h
        cases hvariant : (Fields.find? vs (Fields.get es "type")).getD .null with
        | null => exact rfl
        | _ =>
          rw [hvariant] at h
          exact h
    | _ => exact absurd h (Verdict.not_accepts_reject _)

end Definitions

theorem accepts_common (htag : Fields.get es "type" = .string t) :
    (checkFields es (fun d v p _ => checkValue (.map definitions) d v p) path
      (.record [("type", name)])).Accepts :=
  accepts_checkFields.mpr (List.forall_mem_singleton.mpr (fits_name (get?_of_get_eq_string htag)))

theorem accepts_node (hdefinition : Fields.find? definitions (.string ref) =
    some (tagDefinition variants)) (htag : Fields.get es "type" = .string t) (hvariant :
    variants.lookup t = some (.map s)) :
    (checkValue (.map definitions) (refersTo "any" ref) (.map es) path).Accepts ↔
      ∀ e ∈ s, Fits (.map definitions) path es e := by
  rw [refersTo, Value.record, accepts_ref rfl rfl rfl hdefinition, ← accepts_checkFields,
    ← checkVariant_eq_checkFields htag hvariant]
  exact accepts_tagDefinition _ htag (accepts_common htag)

theorem accepts_expression_of_name (htag : Fields.get es "type" = .string t)
    (h : (checkValue nodeDefinitions (refersTo "any" "name") (.map es) path).Accepts) :
    (checkValue nodeDefinitions (refersTo "any" "expression") (.map es) path).Accepts := by
  rw [nodeDefinitions_eq] at h ⊢
  have hname :=
    (accepts_nameDefinition _ htag).mp ((accepts_ref rfl rfl rfl (find?_ofTexts _ _)).mp h)
  refine (accepts_ref rfl rfl rfl (find?_ofTexts _ _)).mpr ?_
  exact (accepts_tagDefinition _ htag (accepts_common htag)).mpr (accepts_checkVariant_ref _ hname)

end Nodes

end Schema

def Script.Mode.variants : Script.Mode → List (String × Value)
  | .expression => Schema.expressionVariants
  | .statement => Schema.statementVariants

namespace Schema

theorem find?_category (m : Script.Mode) : ∃ definitions, nodeDefinitions = .map definitions ∧
    Fields.find? definitions (.string m.category) = some (tagDefinition m.variants) := by
  refine ⟨_, nodeDefinitions_eq, ?_⟩
  cases m with
  | expression => exact find?_ofTexts _ _
  | statement => exact find?_ofTexts _ _

end Schema

end Scriptwright
