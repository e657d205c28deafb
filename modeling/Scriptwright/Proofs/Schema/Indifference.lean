import Mathlib.Data.List.Forall2
import Scriptwright.Schema.Standard
import Scriptwright.Proofs.Schema.Acceptance
import Scriptwright.Proofs.Value.Fields

/-!
# What the check does not look at

The check asks a mapping for its tag and for the fields that some field map declares, each by name.
So neither the order of entries nor entries under other keys make a difference, at any depth:
documents that differ in nothing else are `Alike`, and alike documents get the same verdict with the
same remarks. Nothing is asked of the schema and of the definitions.
-/

namespace Scriptwright

/-- Values that differ, at any depth, in the order of entries and in entries under keys that are not
asked for. -/
inductive Alike (asked : String → Prop) : Value → Value → Prop where
  | refl (v : Value) : Alike asked v v
  | symm {v w : Value} (h : Alike asked v w) : Alike asked w v
  | trans {u v w : Value} (h : Alike asked u v) (h' : Alike asked v w) : Alike asked u w
  | order {es es' : Fields} (hdistinct : es.Distinct) (h : es'.Perm es) : Alike asked
      (.map es) (.map es')
  | extra {before after : Fields} {e : Value × Value} (h : ∀ name, asked name →
      e.1 ≠ .string name) :
    Alike asked (.map (before ++ after)) (.map (before ++ e :: after))
  | entry {before after : Fields} {key v w : Value} (h : Alike asked v w) :
    Alike asked (.map (before ++ (key, v) :: after)) (.map (before ++ (key, w) :: after))
  | item {before after : List Value} {v w : Value} (h : Alike asked v w) :
    Alike asked (.list (before ++ v :: after)) (.list (before ++ w :: after))
  | pair {v w v' w' : Value} (h : Alike asked v w) (h' : Alike asked v' w') :
    Alike asked (.pair v v') (.pair w w')
  /-- Knots are alike if they are as far as they can be followed. -/
  | spent (cells cells' : List Cell) (place place' : Nat) :
    Alike asked (.knot cells place 0) (.knot cells' place' 0)
  | layer {cells cells' : List Cell} {place place' turns : Nat}
    (h : Alike asked (Value.knot cells place (turns + 1)).head
      (Value.knot cells' place' (turns + 1)).head) :
    Alike asked (.knot cells place (turns + 1)) (.knot cells' place' (turns + 1))

namespace Schema

inductive Part where
  | fieldMap
  | descriptor

section Declared

variable (definitions schema : Value)

/-- The field maps and descriptors in a schema and in the definitions, at any depth. -/
inductive PartOf : Part → Value → Prop where
  | document : PartOf .fieldMap schema
  | common {ds definition : Fields} {key : Value} (hds : definitions = .map ds)
      (h : (key, .map definition) ∈ ds) :
    PartOf .fieldMap (Fields.getD definition "schema" (.map []))
  | untagged {ds definition : Fields} {key : Value} (hds : definitions = .map ds)
      (h : (key, .map definition) ∈ ds) :
    PartOf .fieldMap (Fields.get definition "untagged")
  | variant {ds definition variants : Fields} {key kind v : Value} (hds : definitions = .map ds)
    (h : (key, .map definition) ∈ ds) (hvariants : Fields.get definition "variants" = .map variants)
    (hv : (kind, v) ∈ variants) : PartOf .fieldMap v
  | field {s : Fields} {key d : Value} (hs : PartOf .fieldMap (.map s)) (hd : (key, d) ∈ s) :
    PartOf .descriptor d
  | inside {d : Fields} (hd : PartOf .descriptor (.map d))
      (htype : declaredType d = .string "object") :
    PartOf .fieldMap (Fields.get d "schema")
  | item {d : Fields} (hd : PartOf .descriptor (.map d))
      (htype : declaredType d = .string "array") :
    PartOf .descriptor (Fields.get d "schema")

/-- Whether some field map declares a name. -/
def Declared (name : String) : Prop :=
  ∃ s key d, PartOf definitions schema .fieldMap (.map s) ∧ (key, d) ∈ s ∧ key.display = name

def Asked (name : String) : Prop := name = "type" ∨ Declared definitions schema name

/-- Values that the check cannot tell apart, neither as documents, nor as parts of documents, nor as
tags of nodes. -/
structure Interchangeable (v w : Value) : Prop where
  document : check definitions schema v = check definitions schema w
  part : ∀ d path, PartOf definitions schema .descriptor d →
    checkValue definitions d v path = checkValue definitions d w path
  tag : v = w ∨ v.hashable = false ∧ w.hashable = false

end Declared

section Mapping

variable {definitions schema : Value} {es es' : Fields}

/-- Mappings whose fields cannot be told apart, as far as they are asked for. -/
def AnswersAlike (definitions schema : Value) (es es' : Fields) : Prop :=
  ∀ name, Asked definitions schema name →
    Option.Rel (Interchangeable definitions schema) (Fields.get? es name) (Fields.get? es' name)

theorem checkEntries_congr {s : Fields} (path : String) (h : AnswersAlike definitions schema es es')
    (hs : ∀ e ∈ s, Asked definitions schema e.1.display ∧
      PartOf definitions schema .descriptor e.2) :
    checkEntries es (fun d v p _ => checkValue definitions d v p) path s =
      checkEntries es' (fun d v p _ => checkValue definitions d v p) path s := by
  induction s with
  | nil => rfl
  | cons e s ih =>
    obtain ⟨key, d⟩ := e
    obtain ⟨⟨hasked, hd⟩, hrest⟩ := List.forall_mem_cons.mp hs
    have hfield := h _ hasked
    simp only [checkEntries, ih hrest, Fields.get]
    generalize Fields.get? es key.display = x at hfield ⊢
    generalize Fields.get? es' key.display = x' at hfield ⊢
    cases hfield with
    | none => rfl
    | some hvw =>
      dsimp only [Option.getD_some]
      rw [hvw.part _ _ hd]

theorem checkFields_congr {s : Value} (path : String) (h : AnswersAlike definitions schema es es')
    (hs : PartOf definitions schema .fieldMap s) :
    checkFields es (fun d v p _ => checkValue definitions d v p) path s =
      checkFields es' (fun d v p _ => checkValue definitions d v p) path s := by
  cases s with
  | map entries =>
    refine checkEntries_congr path h fun e he =>
      ⟨.inr ⟨entries, e.1, e.2, hs, he, rfl⟩, .field hs he⟩
  | _ => rfl

theorem AnswersAlike.tag (h : AnswersAlike definitions schema es es') :
    Fields.get es "type" = Fields.get es' "type" ∨
      (Fields.get es "type").hashable = false ∧ (Fields.get es' "type").hashable = false := by
  have htype := h "type" (.inl rfl)
  rw [Fields.get, Fields.get]
  generalize Fields.get? es "type" = x at htype ⊢
  generalize Fields.get? es' "type" = x' at htype ⊢
  cases htype with
  | none => exact .inl rfl
  | some hvw => exact hvw.tag

theorem checkVariant_congr {ds definition : Fields} {key : Value} (path : String) (ref : Value)
    (h : AnswersAlike definitions schema es es') (hds : definitions = .map ds)
    (hmem : (key, .map definition) ∈ ds) :
    checkVariant es (fun d v p _ => checkValue definitions d v p) path ref
      (Fields.get definition "variants") =
      checkVariant es' (fun d v p _ => checkValue definitions d v p) path ref
        (Fields.get definition "variants") := by
  unfold checkVariant
  cases hvariants : Fields.get definition "variants" with
  | map variants =>
    rcases h.tag with htag | ⟨htag, htag'⟩
    · simp only [htag]
      -- Either both kinds have no variant, or they have the same one.
      cases hfound : Fields.find? variants (Fields.get es' "type") with
      | none => rfl
      | some variant =>
        obtain ⟨kind, hkind, -⟩ := mem_of_find? hfound
        have hfields := checkFields_congr path h (.variant hds hmem hvariants hkind)
        cases variant <;> simp only [Option.getD_some, hfields]
    · simp only [htag, htag', Bool.false_eq_true, if_false]
  | _ => rfl

theorem isNull_of_not_hashable {v : Value} (h : v.hashable = false) : v.isNull = false := by
  cases v with
  | null => cases h
  | _ => rfl

theorem checkDefinition_congr {ds : Fields} {key definition : Value} (path : String) (ref : Value)
    (h : AnswersAlike definitions schema es es') (hds : definitions = .map ds)
    (hmem : (key, definition) ∈ ds) :
    checkDefinition es (fun d v p _ => checkValue definitions d v p) path ref definition =
      checkDefinition es' (fun d v p _ => checkValue definitions d v p) path ref definition := by
  cases definition with
  | map definition =>
    have hnull : (Fields.get es "type").isNull = (Fields.get es' "type").isNull := by
      rcases h.tag with htag | ⟨htag, htag'⟩
      · rw [htag]
      · rw [isNull_of_not_hashable htag, isNull_of_not_hashable htag']
    simp only [checkDefinition, hnull, checkFields_congr path h (.common hds hmem),
      checkFields_congr path h (.untagged hds hmem), checkVariant_congr path ref h hds hmem]
  | _ => rfl

theorem checkNode_congr (path : String) (ref : Value) (h : AnswersAlike definitions schema es es') :
    checkNode definitions es (fun d v p _ => checkValue definitions d v p) path ref =
      checkNode definitions es' (fun d v p _ => checkValue definitions d v p) path ref := by
  cases definitions with
  | map ds =>
    simp only [checkNode]
    cases hfound : Fields.find? ds ref with
    | none => rfl
    | some definition =>
      obtain ⟨key, hkey, -⟩ := mem_of_find? hfound
      have hdefinition := checkDefinition_congr path ref h rfl hkey
      cases definition <;> simp only [Option.getD_some, hdefinition]
  | _ => rfl

theorem checkRef_congr (path : String) (ref : Value) (h : AnswersAlike definitions schema es es') :
    checkRef definitions ref es (fun d v p _ => checkValue definitions d v p) path =
      checkRef definitions ref es' (fun d v p _ => checkValue definitions d v p) path := by
  cases ref with
  | null => rfl
  | _ => exact checkNode_congr path _ h

theorem checkNested_congr {d : Fields} (path : String) (h : AnswersAlike definitions schema es es')
    (hd : PartOf definitions schema .descriptor (.map d)) :
    checkNested (declaredType d) (Fields.get d "schema") es
      (fun d v p _ => checkValue definitions d v p) path =
      checkNested (declaredType d) (Fields.get d "schema") es'
        (fun d v p _ => checkValue definitions d v p) path := by
  unfold checkNested
  by_cases htype : declaredType d = .string "object"
  · have hfields := checkFields_congr path h (.inside hd htype)
    generalize Fields.get d "schema" = s at hfields ⊢
    cases s <;> simp only [hfields]
  · simp only [mt isKey_iff.mp htype, Bool.false_eq_true, if_false]

/-- A descriptor that is no mapping is refused, whatever the value is. -/
theorem checkValue_congr {d v w : Value} {path : String}
    (h : ∀ s, d = .map s → checkValue definitions (.map s) v path = checkValue definitions
      (.map s) w path) :
    checkValue definitions d v path = checkValue definitions d w path := by
  cases d with
  | map s => exact h s rfl
  | _ =>
    rw [checkValue, checkValue]
    all_goals
      intro _ hmap
      cases hmap

theorem AnswersAlike.interchangeable (h : AnswersAlike definitions schema es es') :
    Interchangeable definitions schema (.map es) (.map es') where
  document := checkFields_congr "" h .document
  part := by
    refine fun d path hd => checkValue_congr ?_
    rintro d rfl
    have hnested := checkNested_congr path h hd
    have href := checkRef_congr path (Fields.get d "ref") h
    unfold declaredType at hnested
    rw [checkValue, checkValue]
    simp only [Value.head, checkInside, hnested, href]
    rfl
  tag := .inr ⟨rfl, rfl⟩

end Mapping

/-! ## Items -/

section Values

variable {definitions schema : Value}

theorem Interchangeable.refl (v : Value) : Interchangeable definitions schema v v :=
  ⟨rfl, fun _ _ _ => rfl, .inl rfl⟩

theorem Interchangeable.symm {v w : Value} (h : Interchangeable definitions schema v w) :
    Interchangeable definitions schema w v :=
  ⟨h.document.symm, fun d path hd => (h.part d path hd).symm, h.tag.imp Eq.symm And.symm⟩

theorem Interchangeable.trans {u v w : Value} (h : Interchangeable definitions schema u v)
    (h' : Interchangeable definitions schema v w) : Interchangeable definitions schema u w where
  document := h.document.trans h'.document
  part d path hd := (h.part d path hd).trans (h'.part d path hd)
  tag := by
    rcases h.tag with rfl | ⟨hu, hv⟩
    · exact h'.tag
    · rcases h'.tag with rfl | ⟨-, hw⟩
      · exact .inr ⟨hu, hv⟩
      · exact .inr ⟨hu, hw⟩

theorem checkItems_congr {item : Value} (path : String)
    (hitem : PartOf definitions schema .descriptor item) {items items' : List Value}
    {bound bound' : Nat} (hitems : ∀ v ∈ items, v.depth < bound)
    (hitems' : ∀ v ∈ items', v.depth < bound') (i : Nat)
    (h : List.Forall₂ (Interchangeable definitions schema) items items') :
    checkItems bound (fun d v p _ => checkValue definitions d v p) item path i items hitems =
      checkItems bound' (fun d v p _ => checkValue definitions d v p) item path i
        items' hitems' := by
  induction h generalizing i with
  | nil => rfl
  | cons hvw _ ih =>
    have hrest := ih (List.forall_mem_cons.mp hitems).2 (List.forall_mem_cons.mp hitems').2 (i + 1)
    simp only [checkItems, hvw.part _ _ hitem, hrest]

theorem interchangeable_list {items items' : List Value}
    (h : List.Forall₂ (Interchangeable definitions schema) items items') :
    Interchangeable definitions schema (.list items) (.list items') where
  document := rfl
  part := by
    refine fun d path hd => checkValue_congr ?_
    rintro d rfl
    rw [checkValue, checkValue]
    by_cases htype : declaredType d = .string "array"
    · have hitems := checkItems_congr path (.item hd htype) (depth_item_lt items)
        (depth_item_lt items') 0 h
      unfold declaredType at htype
      simp only [Value.head, checkInside, htype]
      generalize Fields.get d "schema" = s at hitems ⊢
      cases s <;> simp only [hitems] <;> rfl
    · have hkey := mt isKey_iff.mp htype
      unfold declaredType at hkey
      simp only [Value.head, checkInside, hkey, Bool.false_eq_true, if_false]
      rfl
  tag := .inr ⟨rfl, rfl⟩

theorem interchangeable_pair {v w v' w' : Value} (h : Interchangeable definitions schema v w)
    (h' : Interchangeable definitions schema v' w') :
    Interchangeable definitions schema (.pair v v') (.pair w w') where
  document := rfl
  part := by
    refine fun d path _ => checkValue_congr fun s _ => ?_
    rw [checkValue, checkValue]
    rfl
  tag := by
    simp only [Value.hashable, Bool.and_eq_false_iff]
    rcases h.tag with rfl | ⟨hv, hw⟩
    · rcases h'.tag with rfl | ⟨hv', hw'⟩
      · exact .inl rfl
      · exact .inr ⟨.inr hv', .inr hw'⟩
    · exact .inr ⟨.inl hv, .inl hw⟩

theorem checkValue_head {d v : Value} {path : String} (h : v.exhausted = false) :
    checkValue definitions d v.head path = checkValue definitions d v path := by
  refine checkValue_congr fun s _ => ?_
  rw [checkValue, checkValue, Value.exhausted_head h, h, Value.head_head]
  simp only [checkType_head, describe_head]

theorem interchangeable_spent (cells cells' : List Cell) (place place' : Nat) :
    Interchangeable definitions schema (.knot cells place 0) (.knot cells' place' 0) where
  document := rfl
  part := by
    refine fun d path _ => checkValue_congr fun s _ => ?_
    rw [checkValue, checkValue]
    rfl
  tag := .inr ⟨rfl, rfl⟩

theorem interchangeable_layer {cells cells' : List Cell} {place place' turns : Nat}
    (h : Interchangeable definitions schema (Value.knot cells place turns).head
      (Value.knot cells' place' turns).head) :
    Interchangeable definitions schema (.knot cells place turns) (.knot cells' place' turns) where
  document := by
    have hdocument := h.document
    rw [check, check, Value.head_head, Value.head_head] at hdocument
    exact hdocument
  part d path hd := by
    cases hturns : (Value.knot cells place turns).exhausted with
    | false => rw [← checkValue_head hturns, ← checkValue_head
        (v := .knot cells' place' turns) hturns, h.part d path hd]
    | true =>
      have hturns' : (Value.knot cells' place' turns).exhausted = true := hturns
      refine checkValue_congr fun s _ => ?_
      rw [checkValue, checkValue, if_pos hturns, if_pos hturns']
  tag := .inr ⟨rfl, rfl⟩

theorem AnswersAlike.of_eq {es es' : Fields}
    (h : ∀ name, Asked definitions schema name → Fields.get? es name = Fields.get? es' name) :
    AnswersAlike definitions schema es es' := by
  intro name hname
  rw [h name hname]
  cases Fields.get? es' name with
  | none => exact .none
  | some v => exact .some (.refl v)

end Values

/-! ## Documents -/

theorem Alike.interchangeable {definitions schema v w : Value}
    (h : Alike (Asked definitions schema) v w) :
    Interchangeable definitions schema v w := by
  induction h with
  | refl v => exact .refl v
  | symm _ ih => exact ih.symm
  | trans _ _ ih ih' => exact ih.trans ih'
  | @order es es' hdistinct hperm =>
    refine AnswersAlike.interchangeable (.of_eq fun name _ => ?_)
    have hperm' : es'.Perm (es ++ []) := by rwa [List.append_nil]
    exact (Fields.get?_of_perm hdistinct hperm' fun _ he => nomatch he).symm
  | @extra before after e hextra =>
    refine AnswersAlike.interchangeable (.of_eq fun name hname => ?_)
    have hkey : e.1.isKey name = false :=
      Bool.eq_false_iff.mpr (mt isKey_iff.mp (hextra name hname))
    rw [Fields.get?_append, Fields.get?_append, Fields.get?, if_neg (by simp [hkey])]
  | @entry before after key v w _ ih =>
    refine AnswersAlike.interchangeable fun name _ => ?_
    rw [Fields.get?_append, Fields.get?_append]
    cases Fields.get? before name with
    | some u => exact .some (.refl u)
    | none =>
      rw [Option.none_or, Option.none_or, Fields.get?, Fields.get?]
      split
      · exact .some ih
      · cases Fields.get? after name with
        | none => exact .none
        | some u => exact .some (.refl u)
  | item _ ih =>
    refine interchangeable_list ?_
    exact List.rel_append (List.forall₂_same.mpr fun v _ => .refl v)
      (.cons ih (List.forall₂_same.mpr fun v _ => .refl v))
  | pair _ _ ih ih' => exact interchangeable_pair ih ih'
  | spent => exact interchangeable_spent _ _ _ _
  | layer _ ih => exact interchangeable_layer ih

def lacks (name : String) : Value → Bool
  | .map es => es.all fun e => e.1.display != name
  | _ => true

theorem PartOf.everywhere_lacks {definitions schema v : Value} {part : Part} {name : String}
    (h : PartOf definitions schema part v)
    (hdefinitions : definitions.everywhere (lacks name) = true)
    (hschema : schema.everywhere (lacks name) = true) : v.everywhere (lacks name) = true := by
  induction h with
  | document => exact hschema
  | @common ds definition key hds hmem =>
    have hdefinition := Value.everywhere_of_mem_entries (hds ▸ hdefinitions) hmem
    have hget := Value.everywhere_field rfl hdefinition "schema"
    rw [Fields.get] at hget
    rw [Fields.getD]
    cases hfound : Fields.get? definition "schema" with
    | none => rfl
    | some v => rwa [hfound] at hget
  | untagged hds hmem =>
    exact Value.everywhere_field rfl
      (Value.everywhere_of_mem_entries (hds ▸ hdefinitions) hmem) _
  | variant hds hmem hvariants hv =>
    have hdefinition := Value.everywhere_of_mem_entries (hds ▸ hdefinitions) hmem
    have hvs := Value.everywhere_field rfl hdefinition "variants"
    rw [hvariants] at hvs
    exact Value.everywhere_of_mem_entries hvs hv
  | field _ hd ih => exact Value.everywhere_of_mem_entries ih hd
  | inside _ _ ih => exact Value.everywhere_field rfl ih _
  | item _ _ ih => exact Value.everywhere_field rfl ih _

/-- A name that is no key in the schema and in the definitions is not declared. -/
theorem not_declared {definitions schema : Value} {name : String}
    (hdefinitions : definitions.everywhere (lacks name) = true)
    (hschema : schema.everywhere (lacks name) = true) :
    ¬Declared definitions schema name := by
  rintro ⟨s, key, d, hs, hmem, hname⟩
  have hlacks : lacks name (.map s) = true :=
    Value.of_everywhere (hs.everywhere_lacks hdefinitions hschema)
  have hkey := List.all_eq_true.mp hlacks _ hmem
  simp [hname] at hkey

/-- Alike documents get the same verdict with the same remarks, whatever the schema and the
definitions are. -/
theorem check_eq_of_alike (definitions schema data data' : Value)
    (h : Alike (Asked definitions schema) data data') :
    check definitions schema data = check definitions schema data' :=
  (Alike.interchangeable h).document

/-- A remark is made and a violation reported behind it, whether or not the entries are in order and
a note is added. -/
theorem check_eq_of_alike_reordered :
    let document := fun statement =>
  Value.record [("functions", .list [.record [("name", .string "f"),
      ("parameters", .list []), ("body",
        .list [.record [("type", .string "mystery")], statement])]])]
    let data :=
      document (.record [("type", .string "breakStatement"), ("label", .record [("name", .int 5)])])
    let data' := document (.record [("label", .record [("note", .string "x"), ("name", .int 5)]),
      ("type", .string "breakStatement")])
    let f := Failure.error (.typeMismatch "functions[0].body[1].label.name" "string" "number")
    let remark := "No schema variant for statement node 'mystery' at functions[0].body[0]"
    Alike (Asked nodeDefinitions documentSchema) data data' ∧
      check nodeDefinitions documentSchema data = check nodeDefinitions documentSchema data' ∧
      check nodeDefinitions documentSchema data' = ⟨.error f, [remark]⟩ := by
  intro document data data' f remark
  have hnote : ¬Asked nodeDefinitions documentSchema "note" := by
    rintro (hname | hname)
    · simp at hname
    · exact not_declared (by decide +kernel) (by decide +kernel) hname
  have hlabel : Alike (Asked nodeDefinitions documentSchema) (.record [("name", .int 5)])
      (.record [("note", .string "x"), ("name", .int 5)]) := by
    refine @Alike.extra _ [] _ (.string "note", .string "x") fun name hname hkey => hnote ?_
    rwa [Value.string.inj hkey]
  have hstatement : Alike (Asked nodeDefinitions documentSchema)
      (.record [("type", .string "breakStatement"), ("label", .record [("name", .int 5)])])
      (.record [("label", .record [("note", .string "x"), ("name", .int 5)]),
        ("type", .string "breakStatement")]) :=
    .trans (.order (by simp [Fields.Distinct, Fields.ofTexts, Value.sameKey]) (.swap _ _ _))
      (@Alike.entry _ [] _ _ _ _ hlabel)
  have halike : Alike (Asked nodeDefinitions documentSchema) data data' :=
    @Alike.entry _ [] _ _ _ _ (@Alike.item _ [] _ _ _
      (@Alike.entry _ [(.string "name", .string "f"), (.string "parameters", .list [])] _ _ _ _
        (@Alike.item _ [.record [("type", .string "mystery")]] _ _ _ hstatement)))
  exact ⟨halike, check_eq_of_alike _ _ _ _ halike, by with_unfolding_all rfl⟩

end Schema

end Scriptwright
