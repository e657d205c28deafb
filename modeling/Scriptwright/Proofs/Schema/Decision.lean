import Scriptwright.Schema.Descriptor
import Scriptwright.Proofs.Schema.Conformance

/-!
# The check decides conformance

`Verdict.Decides` is the contract of a check: it accepts if the condition holds, and otherwise it
rejects with a violation, never with a fault. Checks in a row decide a conjunction, so there is
one lemma for each check, and the induction is on the depth of the checked value only.
-/

namespace Scriptwright.Schema

/-- What a check can find wrong with a document. -/
inductive Violation : Failure → Prop where
  | missingField (path : String) : Violation (.error (.missingField path))
  | typeMismatch (path expected actual : String) : Violation
      (.error (.typeMismatch path expected actual))

namespace Verdict

def Decides (v : Verdict) (P : Prop) : Prop :=
  (v.outcome = .ok () ∧ P) ∨ ∃ f, v.outcome = .error f ∧ Violation f ∧ ¬P

theorem decides_accept {P : Prop} (h : P) : accept.Decides P := .inl ⟨rfl, h⟩

theorem decides_remark {P : Prop} (line : String) (h : P) : (remark line).Decides P := .inl ⟨rfl, h⟩

theorem decides_reject {P : Prop} {f : Failure} (hf : Violation f) (h : ¬P) :
    (reject f).Decides P :=
  .inr ⟨f, rfl, hf, h⟩

namespace Decides

theorem congr {v : Verdict} {P Q : Prop} (h : v.Decides P) (hiff : P ↔ Q) : v.Decides Q := by
  rwa [← propext hiff]

theorem andThen {v : Verdict} {next : Unit → Verdict} {P Q : Prop} (h : v.Decides P)
    (hnext : P → (next ()).Decides Q) : (v.andThen next).Decides (P ∧ Q) := by
  rcases h with ⟨hok, hp⟩ | ⟨f, herror, hf, hp⟩
  · rcases hnext hp with ⟨hok', hq⟩ | ⟨f, herror, hf, hq⟩
    · exact .inl ⟨by rw [Verdict.andThen, hok]; exact hok', hp, hq⟩
    · exact .inr ⟨f, by rw [Verdict.andThen, hok]; exact herror, hf, fun h => hq h.2⟩
  · exact .inr ⟨f, by rw [Verdict.andThen, herror]; exact herror, hf, fun h => hp h.1⟩

theorem outcome_iff {v : Verdict} {P : Prop} (h : v.Decides P) : v.outcome = .ok () ↔ P := by
  rcases h with ⟨hok, hp⟩ | ⟨f, herror, -, hp⟩
  · exact iff_of_true hok hp
  · exact iff_of_false (by simp [herror]) hp

theorem violation {v : Verdict} {P : Prop} (h : v.Decides P) {f : Failure}
    (hf : v.outcome = .error f) :
    Violation f := by
  rcases h with ⟨hok, -⟩ | ⟨f', herror, hv, -⟩
  · simp [hok] at hf
  · cases herror.symm.trans hf
    exact hv

end Decides

end Verdict

/-! ## Types -/

theorem describe_head (v : Value) : describe v.head = describe v := by
  rw [describe, describe, Value.head_head]

theorem HasType.checkType_eq {t : String} {v : Value} (h : HasType t v) :
    checkType v (.string t) = .ok true := by
  cases h <;> rfl

theorem hasType_describe {v : Value} (h : describe v ∈ typeNames) :
    HasType (describe v) v.head := by
  have hhead := v.head_head
  rw [describe] at h ⊢
  cases hv : v.head with
  | string s => exact .string s
  | int n => exact .int n
  | float x => exact .float x
  | bool b => exact .bool b
  | list items => exact .list items
  | map es => exact .map es
  | knot =>
    rw [hv] at hhead h
    simp [Value.kindName, hhead, typeNames] at h
  | _ =>
    rw [hv] at h
    simp [Value.kindName, Value.head, typeNames] at h

theorem checkType_eq {t : String} (ht : t ∈ typeNames) (v : Value) :
    checkType v (.string t) = .ok (t == "any" || describe v == t) := by
  simp only [typeNames, List.mem_cons, List.not_mem_nil, or_false] at ht
  rcases ht with rfl | rfl | rfl | rfl | rfl | rfl <;> rfl

theorem hasType_head_of_checkType {t : String} {v : Value} (ht : t ∈ typeNames)
    (h : checkType v (.string t) = .ok true) : HasType t v.head := by
  rw [checkType_eq ht, Except.ok.injEq, Bool.or_eq_true, beq_iff_eq, beq_iff_eq] at h
  rcases h with rfl | rfl
  · exact .any _
  · exact hasType_describe ht

theorem hasType_of_checkType {t : String} {v : Value} (ht : t ∈ typeNames) (hv : v.finite = true)
    (h : checkType v (.string t) = .ok true) : HasType t v := by
  rw [← Value.head_of_finite hv]
  exact hasType_head_of_checkType ht h

theorem exists_checkType_eq {t : String} (ht : t ∈ typeNames) (v : Value) :
    ∃ b, checkType v (.string t) = .ok b :=
  ⟨_, checkType_eq ht v⟩

/-! ## Field maps -/

section Mapping

variable {definitions data : Fields} {visit : Visit (Value.map data).depth}

/-- A way to check parts of a mapping that decides of every field of a field map whether it meets
its descriptor. -/
def Visit.DecidesFields (definitions : Fields) {data : Fields}
    (visit : Visit (Value.map data).depth) (s : Fields) :
    Prop :=
  ∀ name d path, (.string name, .map d) ∈ s → wellFormedDescriptor definitions (.map d) = true →
    Fields.has data name = true →
    (visit (.map d) (Fields.get data name) path (Fields.depth_get_lt data name)).Decides
      (Meets definitions d (Fields.get data name))

theorem decides_checkEntries {s : Fields} (path : String)
    (hwf : wellFormedEntries definitions s = true) (hvisit : visit.DecidesFields definitions s) :
    (checkEntries data visit path s).Decides (Fills definitions s data) := by
  induction s with
  | nil => exact Verdict.decides_accept (fills_nil _ _)
  | cons e s ih =>
    obtain ⟨name, d, rfl, hd, hwf'⟩ := exists_of_wellFormedEntries_cons hwf
    have hrest := ih hwf' fun n d' p hm => hvisit n d' p (List.mem_cons_of_mem _ hm)
    refine (Verdict.Decides.andThen ?_ fun _ => hrest).congr
      (fills_cons definitions s data d name).symm
    rw [Value.display]
    cases hget : Fields.get? data name with
    | some v =>
      have hhas : Fields.has data name = true := by simp [Fields.has, hget]
      refine (hvisit name d _ List.mem_cons_self hd hhas).congr ?_
      simp [hhas]
    | none =>
      have hhas : Fields.has data name = false := by simp [Fields.has, hget]
      dsimp only
      split
      · next hrequired => exact Verdict.decides_reject (.missingField _) (by simp [hhas, hrequired])
      · next hrequired => exact Verdict.decides_accept (by simp [hhas, hrequired])

theorem decides_checkFields {schema : Value} (path : String)
    (hwf : wellFormedFields definitions schema = true)
    (hvisit : ∀ s, schema = .map s → visit.DecidesFields definitions s) :
    (checkFields data visit path schema).Decides (∀ s, schema = .map s →
      Fills definitions s data) := by
  obtain ⟨s, rfl, hs⟩ := exists_of_wellFormedFields hwf
  exact (decides_checkEntries path hs (hvisit s rfl)).congr (by simp)

/-! ## Nodes -/

theorem decides_checkVariant {variants : Value} (path : String) (ref : Value)
    (hwf : wellFormedVariants definitions variants = true)
    (htag : (Fields.get data "type").hashable = true)
    (hvisit : ∀ vs s, variants = .map vs →
    Fields.find? vs (Fields.get data "type") = some (.map s) →
      visit.DecidesFields definitions s) :
    (checkVariant data visit path ref variants).Decides
      (∀ vs s, variants = .map vs → Fields.find? vs (Fields.get data "type") = some (.map s) →
        Fills definitions s data) := by
  unfold checkVariant
  by_cases htruthy : variants.truthy = true
  · obtain ⟨vs, rfl, hvs⟩ := exists_of_wellFormedVariants hwf htruthy
    simp only [htruthy, htag, if_true]
    cases hfound : Fields.find? vs (Fields.get data "type") with
    | none => exact Verdict.decides_remark _ fun _ s he hs => by cases he; simp [hfound] at hs
    | some variant =>
      rcases hvs _ _ hfound with rfl | ⟨s, rfl, hs⟩
      · exact Verdict.decides_remark _ fun _ s he hs => by cases he; simp [hfound] at hs
      · refine (decides_checkEntries path hs (hvisit vs s rfl hfound)).congr
          ⟨fun h _ s' he hs' => ?_, fun h => ?_⟩
        · cases he
          cases hfound.symm.trans hs'
          exact h
        · exact h vs s rfl hfound
  · rw [if_neg htruthy]
    refine Verdict.decides_accept fun vs s he hs => ?_
    -- Variants that count as false have no entries.
    rw [he] at htruthy
    cases vs with
    | nil => cases hs
    | cons e es => exact absurd rfl htruthy

theorem decides_common {definition : Fields} (path : String)
    (hwf : (Fields.get? definition "schema").all (wellFormedFields definitions) = true)
    (hvisit : ∀ s, Demands definition data s → visit.DecidesFields definitions s) :
    (checkFields data visit path (Fields.getD definition "schema" (.map []))).Decides
      (∀ s, Fields.get? definition "schema" = some (.map s) → Fills definitions s data) := by
  cases hcommon : Fields.get? definition "schema" with
  | none =>
    rw [Fields.getD, hcommon]
    exact Verdict.decides_accept (by simp)
  | some v =>
    rw [hcommon] at hwf
    rw [Fields.getD, hcommon]
    refine (decides_checkFields path hwf fun s hs => hvisit s (.common ?_)).congr (by simp)
    rw [hcommon, ← hs]

/-- The common field map comes first, so the field map for the node's kind may take it for granted.
-/
theorem decides_checkDefinition {definition : Fields} (path : String) (ref : Value)
    (hwf : wellFormedDefinition definitions (.map definition) = true)
    (htag : (Fields.get data "type").hashable = true)
    (hvisit : ∀ s, Demands definition data s → visit.DecidesFields definitions s) :
    (checkDefinition data visit path ref (.map definition)).Decides
      (∀ s, Demands definition data s → Fills definitions s data) := by
  rw [wellFormedDefinition, Bool.and_eq_true, Bool.and_eq_true] at hwf
  obtain ⟨⟨hcommon, huntagged⟩, hvariants⟩ := hwf
  refine ((decides_common path hcommon hvisit).andThen fun hfilled => ?_).congr
    ⟨fun h => h.2, fun h => ⟨fun s hs => h s (.common hs), h⟩⟩
  by_cases hkind : (Fields.get data "type").isNull = true ∧ Fields.has definition "untagged" = true
  · obtain ⟨v, hv⟩ := Option.isSome_iff_exists.mp hkind.2
    have hget : Fields.get definition "untagged" = v := by rw [Fields.get, hv]; rfl
    rw [hv] at huntagged
    rw [if_pos (by simp [hkind]), hget]
    have hdemand : ∀ s, v = .map s → Demands definition data s :=
      fun s hs => .untagged hkind.1 (hs ▸ hv)
    refine (decides_checkFields path huntagged fun s hs => hvisit s (hdemand s hs)).congr
      ⟨fun h s hs => ?_, fun h s hs => h s (hdemand s hs)⟩
    cases hs with
    | common hs => exact hfilled s hs
    | untagged _ hs => exact h s (Option.some.inj (hv.symm.trans hs))
    | variant hno => exact absurd hkind hno
  · rw [if_neg (by simpa using hkind)]
    have hdemand : ∀ vs s, Fields.get definition "variants" = .map vs →
        Fields.find? vs (Fields.get data "type") = some (.map s) → Demands definition data s :=
      fun _ _ hvs hs => .variant hkind hvs hs
    refine (decides_checkVariant path ref hvariants htag fun vs s hvs hs =>
      hvisit s (hdemand vs s hvs hs)).congr
      ⟨fun h s hs => ?_, fun h vs s hvs hs => h s (hdemand vs s hvs hs)⟩
    cases hs with
    | common hs => exact hfilled s hs
    | untagged hnull hs => exact absurd ⟨hnull, by simp [Fields.has, hs]⟩ hkind
    | variant _ hvs hs => exact h _ s hvs hs

theorem checkRef_eq_checkDefinition {definition : Fields} {ref : Value} (path : String)
    (hnull : ref.isNull = false) (h : Fields.find? definitions ref = some (.map definition)) :
    checkRef (.map definitions) ref data visit path = checkDefinition data visit path ref
      (.map definition) := by
  have hnode : checkRef (.map definitions) ref data visit path =
      checkNode (.map definitions) data visit path ref := by
    cases ref with
    | null => cases hnull
    | _ => rfl
  rw [hnode, checkNode, if_pos (hashable_of_find? h), h]
  rfl

theorem decides_checkRef {d : Fields} (path : String) (hd : WellDescribed definitions d)
    (hwf : ∀ definition, Fields.find? definitions (Fields.get d "ref") = some (.map definition) →
      wellFormedDefinition definitions (.map definition) = true)
    (htag : (Fields.get d "ref").isNull = false → (Fields.get data "type").hashable = true)
    (hvisit : ∀ s, Governs definitions d data s → visit.DecidesFields definitions s) :
    (checkRef (.map definitions) (Fields.get d "ref") data visit path).Decides
      (∀ definition s, (Fields.get d "ref").isNull = false →
        Fields.find? definitions (Fields.get d "ref") = some (.map definition) →
          Demands definition data s →
        Fills definitions s data) := by
  cases hnull : (Fields.get d "ref").isNull with
  | true =>
    rw [eq_null_of_isNull hnull]
    exact Verdict.decides_accept (by simp)
  | false =>
    obtain ⟨definition, hdef⟩ := hd.ref.resolve_left (by simp [hnull])
    rw [checkRef_eq_checkDefinition path hnull hdef]
    refine (decides_checkDefinition path _ (hwf _ hdef) (htag hnull) fun s hs =>
      hvisit s (.node hnull hdef hs)).congr
      ⟨fun h definition' s _ hdef' hs => ?_, fun h s hs => h definition s rfl hdef hs⟩
    cases hdef.symm.trans hdef'
    exact h s hs

theorem decides_checkNested {d : Fields} (path : String) (hd : WellDescribed definitions d)
    (hvisit : ∀ s, Governs definitions d data s → visit.DecidesFields definitions s) :
    (checkNested (declaredType d) (Fields.get d "schema") data visit path).Decides
      (∀ s, declaredType d = .string "object" → Fields.get d "schema" = .map s →
        Fills definitions s data) := by
  by_cases hobject : declaredType d = .string "object"
  · rcases hd.fields hobject with hnull | ⟨s, hschema, hs⟩
    · rw [hnull]
      exact Verdict.decides_accept (by simp)
    · simp only [hschema, checkNested, if_pos (isKey_iff.mpr hobject)]
      exact (decides_checkEntries path hs (hvisit s (.nested hobject hschema))).congr
        (by simp [hobject])
  · have hcheck : checkNested (declaredType d)
        (Fields.get d "schema") data visit path = .accept := by
      unfold checkNested
      split
      · rfl
      · rw [if_neg (mt isKey_iff.mp hobject)]
    rw [hcheck]
    exact Verdict.decides_accept fun s h => absurd h hobject

end Mapping

/-! ## Items -/

theorem decides_checkItems {definitions item : Fields} {bound : Nat} {visit : Visit bound}
    {items : List Value} (path : String) (i : Nat) (hdepth : ∀ v ∈ items, v.depth < bound)
    (hvisit : ∀ v p (hv : v ∈ items), (visit (.map item) v p (hdepth v hv)).Decides
      (Meets definitions item v)) :
    (checkItems bound visit (.map item) path i items hdepth).Decides
      (∀ v ∈ items, Meets definitions item v) := by
  induction items generalizing i with
  | nil => exact Verdict.decides_accept (by simp)
  | cons v vs ih =>
    have hrest := ih (i + 1) (fun w hw => hdepth w (List.mem_cons_of_mem _ hw))
      fun w p hw => hvisit w p (List.mem_cons_of_mem _ hw)
    exact ((hvisit v _ List.mem_cons_self).andThen fun _ => hrest).congr (by simp)

/-! ## Values -/

theorem decides_checkInside_map {definitions d data : Fields} {visit : Visit (Value.map data).depth}
    (path : String) (hd : WellDescribed definitions d)
    (hwf : ∀ definition, Fields.find? definitions (Fields.get d "ref") = some (.map definition) →
      wellFormedDefinition definitions (.map definition) = true)
    (htag : (Fields.get d "ref").isNull = false → (Fields.get data "type").hashable = true)
    (hvisit : ∀ s, Governs definitions d data s → visit.DecidesFields definitions s) :
    (checkInside (.map definitions) d (declaredType d) path (.map data) visit).Decides
      (∀ s, Governs definitions d data s → Fills definitions s data) := by
  refine ((decides_checkNested path hd hvisit).andThen fun _ =>
    decides_checkRef path hd hwf htag hvisit).congr
    ⟨?_, fun h => ⟨fun s ht hs => h s (.nested ht hs), fun _ s hn hdef hs =>
      h s (.node hn hdef hs)⟩⟩
  rintro ⟨hnested, hnode⟩ s hs
  cases hs with
  | nested ht hs => exact hnested s ht hs
  | node hn hdef hs => exact hnode _ s hn hdef hs

theorem decides_checkInside_list {definitions d : Fields} {items : List Value}
    {visit : Visit (Value.list items).depth} (path : String) (hd : WellDescribed definitions d)
    (hvisit : ∀ item v p (hv : v ∈ items), ItemDescriptor d item →
      wellFormedDescriptor definitions (.map item) = true →
      (visit (.map item) v p (depth_item_lt items v hv)).Decides (Meets definitions item v)) :
    (checkInside (.map definitions) d (declaredType d) path (.list items) visit).Decides
      (∀ item, ItemDescriptor d item → ∀ v ∈ items, Meets definitions item v) := by
  unfold checkInside
  by_cases harray : declaredType d = .string "array"
  · rcases hd.items harray with hnull | ⟨item, hschema, hitem⟩
    · simp only [hnull]
      exact Verdict.decides_accept (by simp [ItemDescriptor, hnull])
    · simp only [hschema, if_pos (isKey_iff.mpr harray)]
      refine (decides_checkItems path 0 _ fun v p hv =>
        hvisit item v p hv ⟨harray, hschema⟩ hitem).congr ?_
      simp [ItemDescriptor, harray, hschema]
  · simp only [if_neg (mt isKey_iff.mp harray)]
    have hall : ∀ item, ItemDescriptor d item → ∀ v ∈ items, Meets definitions item v :=
      fun item h => absurd h.1 harray
    split
    · exact Verdict.decides_accept hall
    · exact Verdict.decides_accept hall

theorem checkValue_of_finite {definitions d : Fields} {v : Value} {t : String} {b : Bool}
    (path : String) (hv : v.finite = true) (htype : declaredType d = .string t)
    (hb : checkType v (.string t) = .ok b) :
    checkValue (.map definitions) (.map d) v path =
      if b then
        checkInside (.map definitions) d (declaredType d) path v fun d' w p _ =>
          checkValue (.map definitions) d' w p
      else .reject (.error (.typeMismatch path t (describe v))) := by
  have hexpected : Fields.getD d "type" (.string "any") = .string t := htype
  rw [checkValue, Value.exhausted_of_finite hv, hexpected, htype]
  simp only [hb, Bool.false_eq_true, if_false]
  cases b with
  | false => rfl
  | true => rw [Value.head_of_finite hv, if_pos rfl]

section Document

variable {definitions schema : Fields} {data : Value}

/-- The induction is on the depth of the value. Definitions may refer to each other, but each step
is to a part. -/
theorem decides_checkValue (hwf : wellFormed definitions schema = true) (hdata : data.finite = true)
    (htags : NodesTagged definitions schema data) (d : Fields) (v : Value) (path : String)
    (hvisited : Visited definitions schema data d v)
    (hd : wellFormedDescriptor definitions (.map d) = true) :
    (checkValue (.map definitions) (.map d) v path).Decides (Meets definitions d v) := by
  induction hn : v.depth using Nat.strongRecOn generalizing d v path with
  | _ n ih =>
    subst hn
    have hv : v.finite = true := hvisited.everywhere hdata
    have hwell := wellDescribed hd
    obtain ⟨t, ht, htype⟩ := hwell.type
    obtain ⟨b, hb⟩ := exists_checkType_eq ht v
    rw [checkValue_of_finite path hv htype hb]
    cases b with
    | false =>
      refine Verdict.decides_reject (.typeMismatch _ _ _) fun hmeets => ?_
      have htrue := ((meets_iff htype).mp hmeets).1.checkType_eq
      cases hb.symm.trans htrue
    | true =>
      have hhas := hasType_of_checkType ht hv hb
      rw [if_pos rfl]
      cases v with
      | map es =>
        refine (decides_checkInside_map path hwell (fun _ h => wellFormedDefinition_of_find? hwf h)
          (htags d es hvisited) fun s hs name d' p hm hd' hname => ?_).congr ?_
        · exact ih _ (Fields.depth_get_lt es name) d' _ p (.field hvisited hs hm hname) hd' rfl
        · rw [meets_iff htype]
          simp [hhas]
      | list items =>
        refine (decides_checkInside_list path hwell fun item w p hw hitem hd' => ?_).congr ?_
        · exact ih _ (depth_item_lt items w hw) item w p (.item hvisited hitem hw) hd' rfl
        · rw [meets_iff htype]
          simp [hhas]
      | _ =>
        refine Verdict.decides_accept ?_
        rw [meets_iff htype]
        simp [hhas]

theorem decides_check (hwf : wellFormed definitions schema = true) (hdata : data.finite = true)
    (htags : NodesTagged definitions schema data) :
    (check (.map definitions) (.map schema) data).Decides (Conforms definitions schema data) := by
  rw [check, Value.head_of_finite hdata]
  cases data with
  | map es =>
    refine (decides_checkEntries "" (Bool.and_eq_true_iff.mp hwf).2 fun name d path hm hd hname =>
      ?_).congr ?_
    · exact decides_checkValue hwf hdata htags d _ path (.top rfl hm hname) hd
    · simp [Conforms]
  | _ => exact Verdict.decides_reject (.typeMismatch _ _ _) (by simp [Conforms])

end Document

/-- A finite document whose nodes have tags that can be looked up is accepted exactly if it conforms
to the schema. If it is not accepted, a missing field or a wrong type is reported. -/
theorem check_eq_ok_iff_conforms (definitions schema : Fields) (data : Value)
    (hwf : wellFormed definitions schema = true) (hdata : data.finite = true)
    (htags : NodesTagged definitions schema data) :
    ((check (.map definitions) (.map schema) data).outcome = .ok () ↔
      Conforms definitions schema data) ∧
      ∀ f, (check (.map definitions) (.map schema) data).outcome = .error f → Violation f :=
  have h := decides_check hwf hdata htags
  ⟨h.outcome_iff, fun _ => h.violation⟩

/-- A definition that refers to itself, with an untagged node, a node of a kind with a variant, a
node of a kind without one, and an operand that is no node. -/
theorem check_eq_ok_iff_conforms_nested :
    let definitions :=
  Fields.ofTexts [("node", .record [("schema", .record [("type", typed "string")]),
      ("untagged", .record [("name", name)]),
      ("variants",
        .record [("list", .record [("items", requiredArray (refersTo "any" "node"))])])])]
    let schema := Fields.ofTexts [("root", operand "object" "node" true)]
    let data := Value.record [("root", .record [("type", .string "list"), ("items", .list
      [.record [("name", .string "x")], .record [("type", .string "other")], .string "y"])])]
    wellFormed definitions schema = true ∧ data.finite = true ∧
      NodesTagged definitions schema data ∧
      Conforms definitions schema data := by
  intro definitions schema data
  have hwf : wellFormed definitions schema = true := by decide
  have hdata : data.finite = true := by decide
  have htags : NodesTagged definitions schema data := nodesTagged_of_everywhere _ _ (by decide)
  have hok : (check (.map definitions) (.map schema) data).outcome.isOk = true := by decide +kernel
  refine ⟨hwf, hdata, htags, (check_eq_ok_iff_conforms definitions schema data hwf hdata htags).1.mp
    ?_⟩
  cases h : (check (.map definitions) (.map schema) data).outcome with
  | ok u => rfl
  | error f =>
    rw [h] at hok
    cases hok

end Scriptwright.Schema
