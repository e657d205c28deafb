import Scriptwright.Proofs.Schema.Decision

/-!
# The tour of a document

The check goes through a document depth first, in the order of the schema, and gives up at the first
problem. The tour is the way it would take if it did not give up: it enters values and fields that
are missing, leaves them again, and looks up the tags of nodes on the way. The main statement is
that the outcome of the check is the first problem on the tour.
-/

namespace Scriptwright

/-! ## Ways into a value -/

namespace Schema

inductive Step where
  | key (name : String)
  | index (i : Nat)
deriving DecidableEq, Repr

/-- Indices stand in brackets, and keys have a dot in front of them unless nothing has been written
yet. -/
def Step.write (text : String) : Step → String
  | .key name => if text = "" then name else text ++ "." ++ name
  | .index i => text ++ "[" ++ toString i ++ "]"

def wayText (way : List Step) : String := way.foldl Step.write ""

def placeName (way : List Step) : String := if way = [] then rootPath else wayText way

theorem joinPath_wayText (way : List Step) (name : String) :
    joinPath (wayText way) name = wayText (way ++ [Step.key name]) := by
  simp [wayText, Step.write, joinPath]

theorem indexPath_wayText (way : List Step) (i : Nat) :
    indexPath (wayText way) i = wayText (way ++ [Step.index i]) := by
  simp [wayText, Step.write, indexPath]

theorem placeName_concat (way : List Step) (s : Step) :
    placeName (way ++ [s]) = wayText (way ++ [s]) := by
  simp [placeName]

end Schema

namespace Value

open Schema

def part? (v : Value) : Step → Option Value
  | .key name =>
    match v.head with
    | .map es => Fields.get? es name
    | _ => none
  | .index i =>
    match v.head with
    | .list items => items[i]?
    | _ => none

def at? (v : Value) (way : List Step) : Option Value := way.foldlM part? v

theorem at?_cons (v : Value) (s : Step) (way : List Step) :
    v.at? (s :: way) = (v.part? s).bind (at? · way) := by
  rw [at?, List.foldlM_cons]
  rfl

theorem at?_concat {v w : Value} {way : List Step} (s : Step) (h : v.at? way = some w) :
    v.at? (way ++ [s]) = w.part? s := by
  unfold at? at h ⊢
  rw [List.foldlM_append, h]
  simp

end Value

namespace Schema

/-! ## The tour -/

/-- A place that the check comes to, with the descriptor it has for it and the value it finds there,
if any. -/
structure Stop where
  way : List Step
  descriptor : Fields
  value : Option Value

inductive Event where
  | enter (s : Stop)
  | leave (s : Stop)
  /-- The tag of the node at the end of a way is looked up, for the definition of the given name. -/
  | lookUp (way : List Step) (ref tag : Value)

def fieldMap : Value → Fields
  | .map s => s
  | _ => []

def variantMap (variants tag : Value) : Fields :=
  match variants with
  | .map vs => fieldMap ((Fields.find? vs tag).getD .null)
  | _ => []

/-- How a part of a value below the bound is toured. -/
abbrev Touring (bound : Nat) :=
  (descriptor : Fields) → (value : Value) → List Step → value.depth < bound → List Event

section Mapping

variable (es : Fields) (go : Touring (Value.map es).depth) (way : List Step)

def tourEntry : Value × Value → List Event
  | (.string name, .map d) =>
    match Fields.get? es name with
    | some _ => go d (Fields.get es name) (way ++ [Step.key name]) (Fields.depth_get_lt es name)
    | none => [.enter ⟨way ++ [Step.key name], d, none⟩, .leave ⟨way ++ [Step.key name], d, none⟩]
  | _ => []

def tourFields (s : Fields) : List Event := s.flatMap (tourEntry es go way)

/-- The fields that all nodes of a definition share, and those of the node's own kind. -/
def tourNode (ref : Value) (definition : Fields) : List Event :=
  let tag := Fields.get es "type"
  let variants := Fields.get definition "variants"
  tourFields es go way (fieldMap (Fields.get definition "schema")) ++
    if tag.isNull && Fields.has definition "untagged" then
      tourFields es go way (fieldMap (Fields.get definition "untagged"))
    else if variants.truthy then .lookUp way ref tag :: tourFields es go way
      (variantMap variants tag)
    else []

def tourRef (definitions : Fields) (ref : Value) : List Event :=
  if ref.isNull then []
  else
    match Fields.find? definitions ref with
    | some (.map definition) => tourNode es go way ref definition
    | _ => []

end Mapping

theorem depth_first_lt {bound : Nat} {v : Value} {vs : List Value}
    (h : ∀ w ∈ v :: vs, w.depth < bound) :
    v.depth < bound := (List.forall_mem_cons.mp h).1

theorem depth_rest_lt {bound : Nat} {v : Value} {vs : List Value}
    (h : ∀ w ∈ v :: vs, w.depth < bound) :
    ∀ w ∈ vs, w.depth < bound := (List.forall_mem_cons.mp h).2

def tourItems (bound : Nat) (go : Touring bound) (item : Fields) (way : List Step) (i : Nat) :
    (items : List Value) → (∀ v ∈ items, v.depth < bound) → List Event
  | [], _ => []
  | v :: vs, h =>
    go item v (way ++ [Step.index i]) (depth_first_lt h) ++ tourItems bound go item way (i + 1) vs
      (depth_rest_lt h)

def tourInside (definitions d : Fields) (way : List Step) (value : Value)
    (go : Touring value.depth) : List Event :=
  match value with
  | .map es =>
    (if (declaredType d).isKey "object" then tourFields es go way (fieldMap (Fields.get d "schema"))
      else []) ++
      tourRef es go way definitions (Fields.get d "ref")
  | .list items =>
    match Fields.get d "schema" with
    | .map item => if (declaredType d).isKey "array" then tourItems _ go item way 0 items
        (depth_item_lt items) else []
    | _ => []
  | _ => []

def tour (definitions d : Fields) (v : Value) (way : List Step) : List Event :=
  .enter ⟨way, d, some v⟩ ::
    (tourInside definitions d way v.head (fun d' w way' _ => tour definitions d' w way') ++
      [.leave ⟨way, d, some v⟩])
termination_by v.depth
decreasing_by
  have := v.depth_head_le
  omega

/-- A document is described as a mapping with the fields of the schema. -/
def documentDescriptor (schema : Fields) : Fields :=
  Fields.ofTexts [("type", .string "object"), ("schema", .map schema)]

def documentTour (definitions schema : Fields) (data : Value) : List Event :=
  tour definitions (documentDescriptor schema) data []

/-! ## Problems -/

/-- What the check finds wrong at a place. A part that has been followed without end is not looked
at. -/
def Stop.problem? (s : Stop) : Option Failure :=
  match s.value with
  | none =>
    if (Fields.get s.descriptor "required").truthy then
      some (.error (.missingField (placeName s.way))) else none
  | some v =>
    if v.exhausted ∧ s.way ≠ [] then some (.fault .endless)
    else
      match checkType v (declaredType s.descriptor) with
      | .ok true => none
      | .ok false =>
        some (.error (.typeMismatch (placeName s.way) (declaredType s.descriptor).display
          (describe v)))
      | .error e => some (.error e)

def Event.problem? : Event → Option Failure
  | .enter s => s.problem?
  | .leave _ => none
  | .lookUp _ _ tag => if tag.hashable then none else some (.fault .unhashable)

def firstProblem? (events : List Event) : Option Failure := events.findSome? Event.problem?

theorem firstProblem?_append (es fs : List Event) :
    firstProblem? (es ++ fs) = (firstProblem? es).or (firstProblem? fs) := List.findSome?_append

/-- The first problem on a tour has none before it. -/
theorem firstProblem?_eq_some_iff {events : List Event} {f : Failure} :
    firstProblem? events = some f ↔
      ∃ before e after, events = before ++ e :: after ∧ e.problem? = some f ∧ ∀ b ∈ before,
        b.problem? = none :=
  List.findSome?_eq_some_iff

namespace Verdict

def Finds (v : Verdict) (events : List Event) : Prop :=
  match firstProblem? events with
  | none => v.outcome = .ok ()
  | some f => v.outcome = .error f

theorem finds_accept : accept.Finds [] := rfl

theorem finds_remark (line : String) : (remark line).Finds [] := rfl

theorem finds_reject {e : Event} {f : Failure} (h : e.problem? = some f) (es : List Event) :
    (reject f).Finds (e :: es) := by
  simp [Finds, firstProblem?, h, reject]

theorem Finds.cons {v : Verdict} {e : Event} {es : List Event} (he : e.problem? = none)
    (h : v.Finds es) :
    v.Finds (e :: es) := by
  simpa [Finds, firstProblem?, he] using h

theorem Finds.leave {v : Verdict} {es : List Event} (h : v.Finds es) (s : Stop) :
    v.Finds (es ++ [Event.leave s]) := by
  have hleave : firstProblem? [.leave s] = none := rfl
  simpa [Finds, firstProblem?_append, hleave] using h

theorem Finds.andThen {v : Verdict} {next : Unit → Verdict} {es fs : List Event} (h : v.Finds es)
    (hnext : (next ()).Finds fs) : (v.andThen next).Finds (es ++ fs) := by
  unfold Finds at h hnext ⊢
  rw [firstProblem?_append]
  cases hes : firstProblem? es with
  | some f =>
    rw [hes] at h
    simp [Verdict.andThen, h]
  | none =>
    rw [hes] at h
    simp only [Verdict.andThen, h, Option.none_or]
    exact hnext

theorem Finds.outcome_eq_error_iff {v : Verdict} {es : List Event} {f : Failure} (h : v.Finds es) :
    v.outcome = .error f ↔ firstProblem? es = some f := by
  unfold Finds at h
  cases hes : firstProblem? es with
  | none =>
    rw [hes] at h
    simp [h]
  | some g =>
    rw [hes] at h
    simp [h]

end Verdict

/-! ## The check finds the first problem -/

def Visit.Follows (definitions : Fields) {bound : Nat} (visit : Visit bound) (go : Touring bound) :
    Prop :=
  ∀ d v way s h, wellFormedDescriptor definitions (.map d) = true →
    (visit (.map d) v (wayText (way ++ [s])) h).Finds (go d v (way ++ [s]) h)

section Mapping

variable {definitions es : Fields} {visit : Visit (Value.map es).depth}
  {go : Touring (Value.map es).depth}

theorem finds_checkEntries {s : Fields} (way : List Step)
    (hwf : wellFormedEntries definitions s = true) (hgo : visit.Follows definitions go) :
    (checkEntries es visit (wayText way) s).Finds (tourFields es go way s) := by
  induction s with
  | nil => exact Verdict.finds_accept
  | cons e s ih =>
    obtain ⟨name, d, rfl, hd, hwf'⟩ := exists_of_wellFormedEntries_cons hwf
    rw [tourFields, List.flatMap_cons]
    refine Verdict.Finds.andThen ?_ (ih hwf')
    rw [Value.display, tourEntry, joinPath_wayText]
    cases hget : Fields.get? es name with
    | some v => exact hgo d _ way _ _ hd
    | none =>
      dsimp only
      have hname := placeName_concat way (.key name)
      cases hrequired : (Fields.get d "required").truthy with
      | true =>
        exact Verdict.finds_reject (by simp [Event.problem?, Stop.problem?, hrequired, hname]) _
      | false =>
        exact .cons (by simp [Event.problem?, Stop.problem?, hrequired])
          (.cons rfl Verdict.finds_accept)

theorem finds_checkFields {schema : Value} (way : List Step)
    (hwf : wellFormedFields definitions schema = true) (hgo : visit.Follows definitions go) :
    (checkFields es visit (wayText way) schema).Finds (tourFields es go way (fieldMap schema)) := by
  obtain ⟨s, rfl, hs⟩ := exists_of_wellFormedFields hwf
  exact finds_checkEntries way hs hgo

theorem finds_checkVariant {variants : Value} (way : List Step) (ref : Value)
    (hwf : wellFormedVariants definitions variants = true) (hgo : visit.Follows definitions go) :
    (checkVariant es visit (wayText way) ref variants).Finds
      (if variants.truthy then
        .lookUp way ref (Fields.get es "type") :: tourFields es go way
          (variantMap variants (Fields.get es "type"))
      else []) := by
  unfold checkVariant
  by_cases htruthy : variants.truthy = true
  · obtain ⟨vs, rfl, hvs⟩ := exists_of_wellFormedVariants hwf htruthy
    rw [if_pos htruthy, if_pos htruthy]
    dsimp only
    cases htag : (Fields.get es "type").hashable with
    | false => exact Verdict.finds_reject (by simp [Event.problem?, htag]) _
    | true =>
      refine .cons (by simp [Event.problem?, htag]) ?_
      rw [if_pos rfl, variantMap]
      cases hfound : Fields.find? vs (Fields.get es "type") with
      | none => exact Verdict.finds_remark _
      | some variant =>
        rcases hvs _ _ hfound with rfl | ⟨s, rfl, hs⟩
        · exact Verdict.finds_remark _
        · exact finds_checkEntries way hs hgo
  · rw [if_neg htruthy, if_neg htruthy]
    exact Verdict.finds_accept

theorem finds_common {definition : Fields} (way : List Step)
    (hwf : (Fields.get? definition "schema").all (wellFormedFields definitions) = true)
    (hgo : visit.Follows definitions go) :
    (checkFields es visit (wayText way) (Fields.getD definition "schema" (.map []))).Finds
      (tourFields es go way (fieldMap (Fields.get definition "schema"))) := by
  rw [Fields.getD, Fields.get]
  cases hcommon : Fields.get? definition "schema" with
  | none => exact Verdict.finds_accept
  | some v =>
    rw [hcommon] at hwf
    exact finds_checkFields way hwf hgo

theorem finds_checkDefinition {definition : Fields} (way : List Step) (ref : Value)
    (hwf : wellFormedDefinition definitions (.map definition) = true)
    (hgo : visit.Follows definitions go) :
    (checkDefinition es visit (wayText way) ref (.map definition)).Finds
      (tourNode es go way ref definition) := by
  rw [wellFormedDefinition, Bool.and_eq_true, Bool.and_eq_true] at hwf
  obtain ⟨⟨hcommon, huntagged⟩, hvariants⟩ := hwf
  refine (finds_common way hcommon hgo).andThen ?_
  cases huse : (Fields.get es "type").isNull && Fields.has definition "untagged" with
  | false => exact finds_checkVariant way ref hvariants hgo
  | true =>
    obtain ⟨v, hv⟩ := Option.isSome_iff_exists.mp (Bool.and_eq_true_iff.mp huse).2
    have hget : Fields.get definition "untagged" = v := by rw [Fields.get, hv]; rfl
    rw [hv] at huntagged
    rw [if_pos rfl, if_pos rfl, hget]
    exact finds_checkFields way huntagged hgo

theorem finds_checkRef {d : Fields} (way : List Step) (hd : WellDescribed definitions d)
    (hwf : ∀ definition, Fields.find? definitions (Fields.get d "ref") = some (.map definition) →
      wellFormedDefinition definitions (.map definition) = true)
    (hgo : visit.Follows definitions go) :
    (checkRef (.map definitions) (Fields.get d "ref") es visit (wayText way)).Finds
      (tourRef es go way definitions (Fields.get d "ref")) := by
  rw [tourRef]
  cases hnull : (Fields.get d "ref").isNull with
  | true =>
    rw [eq_null_of_isNull hnull]
    exact Verdict.finds_accept
  | false =>
    obtain ⟨definition, hdef⟩ := hd.ref.resolve_left (by simp [hnull])
    rw [checkRef_eq_checkDefinition _ hnull hdef, hdef]
    exact finds_checkDefinition way _ (hwf _ hdef) hgo

theorem finds_checkNested {d : Fields} (way : List Step) (hd : WellDescribed definitions d)
    (hgo : visit.Follows definitions go) :
    (checkNested (declaredType d) (Fields.get d "schema") es visit (wayText way)).Finds
      (if (declaredType d).isKey "object" then tourFields es go way
        (fieldMap (Fields.get d "schema")) else []) := by
  cases hobject : (declaredType d).isKey "object" with
  | true =>
    rcases hd.fields (isKey_iff.mp hobject) with hnull | ⟨s, hschema, hs⟩
    · rw [hnull]
      exact Verdict.finds_accept
    · simp only [hschema, checkNested, hobject, if_true]
      exact finds_checkEntries way hs hgo
  | false =>
    unfold checkNested
    rw [hobject]
    split <;> exact Verdict.finds_accept

end Mapping

theorem finds_checkItems {definitions item : Fields} {bound : Nat} {visit : Visit bound}
    {go : Touring bound} {items : List Value} (way : List Step) (i : Nat)
    (hdepth : ∀ v ∈ items, v.depth < bound)
    (hitem : wellFormedDescriptor definitions (.map item) = true)
    (hgo : visit.Follows definitions go) :
    (checkItems bound visit (.map item) (wayText way) i items hdepth).Finds
      (tourItems bound go item way i items hdepth) := by
  induction items generalizing i with
  | nil => exact Verdict.finds_accept
  | cons v vs ih =>
    rw [checkItems, tourItems, indexPath_wayText]
    exact Verdict.Finds.andThen (hgo item v way _ _ hitem) (ih (i + 1) _)

theorem finds_checkInside {definitions d : Fields} {v : Value} {visit : Visit v.depth}
    {go : Touring v.depth} (way : List Step) (hd : WellDescribed definitions d)
    (hwf : ∀ definition, Fields.find? definitions (Fields.get d "ref") = some (.map definition) →
      wellFormedDefinition definitions (.map definition) = true)
    (hgo : visit.Follows definitions go) :
    (checkInside (.map definitions) d (declaredType d) (wayText way) v visit).Finds
      (tourInside definitions d way v go) := by
  cases v with
  | map es => exact (finds_checkNested way hd hgo).andThen (finds_checkRef way hd hwf hgo)
  | list items =>
    unfold checkInside tourInside
    cases harray : (declaredType d).isKey "array" with
    | true =>
      rcases hd.items (isKey_iff.mp harray) with hnull | ⟨item, hschema, hitem⟩
      · simp only [hnull]
        exact Verdict.finds_accept
      · simp only [hschema, if_true]
        exact finds_checkItems way 0 _ hitem hgo
    | false => cases Fields.get d "schema" <;> exact Verdict.finds_accept
  | _ => exact Verdict.finds_accept

section Document

variable {definitions schema : Fields}

/-- The induction is on the depth of the value, as in the check. -/
theorem finds_checkValue (hwf : wellFormed definitions schema = true) (d : Fields) (v : Value)
    (way : List Step) (s : Step) (hd : wellFormedDescriptor definitions (.map d) = true) :
    (checkValue (.map definitions) (.map d) v (wayText (way ++ [s]))).Finds
      (tour definitions d v (way ++ [s])) := by
  induction hn : v.depth using Nat.strongRecOn generalizing d v way s with
  | _ n ih =>
    subst hn
    have hgo : Visit.Follows definitions (fun d' w p (_ : w.depth < v.head.depth) =>
        checkValue (.map definitions) d' w p)
        fun d' w way' _ => tour definitions d' w way' :=
      fun d' w way' s' hw hd' => ih _ (Nat.lt_of_lt_of_le hw v.depth_head_le) d' w way' s' hd' rfl
    have hexpected : Fields.getD d "type" (.string "any") = declaredType d := rfl
    rw [checkValue, tour, hexpected]
    cases hv : v.exhausted with
    | true => exact Verdict.finds_reject (by simp [Event.problem?, Stop.problem?, hv]) _
    | false =>
      cases hcheck : checkType v (declaredType d) with
      | error e =>
        exact Verdict.finds_reject (by simp [Event.problem?, Stop.problem?, hv, hcheck]) _
      | ok b =>
        cases b with
        | false =>
          exact Verdict.finds_reject
            (by simp [Event.problem?, Stop.problem?, hv, hcheck, placeName_concat]) _
        | true =>
          refine .cons (by simp [Event.problem?, Stop.problem?, hv, hcheck]) ?_
          exact (finds_checkInside (way ++ [s]) (wellDescribed hd)
            (fun _ h => wellFormedDefinition_of_find? hwf h)
            hgo).leave _

theorem wellFormedDescriptor_document (h : wellFormedEntries definitions schema = true) :
    wellFormedDescriptor definitions (.map (documentDescriptor schema)) = true := by
  rw [wellFormedDescriptor, wellFormedInside_eq]
  exact h

/-- The outcome of the check is the first problem on the tour. -/
theorem finds_check (hwf : wellFormed definitions schema = true) (data : Value) :
    (check (.map definitions) (.map schema) data).Finds (documentTour definitions schema data) := by
  have hschema := (Bool.and_eq_true_iff.mp hwf).2
  have hgo : ∀ bound, Visit.Follows definitions
      (fun d w p (_ : w.depth < bound) => checkValue (.map definitions) d w p)
      fun d w way _ => tour definitions d w way :=
        fun _ d w way s _ hd => finds_checkValue hwf d w way s hd
  have htype : checkType data (declaredType (documentDescriptor schema)) =
      .ok (describe data == "object") := rfl
  rw [documentTour, tour]
  by_cases hobject : describe data = "object"
  · obtain ⟨es, hes⟩ := (hasType_describe (by simp [hobject, typeNames])).exists_fields hobject
    rw [check, hes]
    refine .cons (by simp [Event.problem?, Stop.problem?, htype, hobject]) (.leave ?_ _)
    have hfields := finds_checkEntries [] hschema (hgo (Value.map es).depth)
    rwa [← List.append_nil (tourFields _ _ _ _)] at hfields
  · have hcheck : check (.map definitions) (.map schema) data =
        .reject (.error (.typeMismatch rootPath "object" (describe data))) := by
      rw [check]
      split
      · next es hes => exact absurd (by rw [describe, hes]) hobject
      · rw [describe_head]
    have hdisplay : (declaredType (documentDescriptor schema)).display = "object" := rfl
    rw [beq_eq_false_iff_ne.mpr hobject] at htype
    rw [hcheck]
    exact Verdict.finds_reject (by simp [Event.problem?, Stop.problem?, htype, hdisplay, placeName])
      _

end Document

end Schema

end Scriptwright
