import Scriptwright.Proofs.Document.Fitting
import Scriptwright.Proofs.Document.Nodes

/-!
# What a document hands on

A document hands some of its values on to the emission of nodes and markup: parameters, statements
and elements. All else is texts, which can be written as they are, and data, which is spelled out.
`Section.parts` lists what a section hands on and spells out. Of a section that fits the schema, the
check has gone on to all parts, and the section returns if and only if all of it succeeds.
-/

namespace Scriptwright.Document

open Script Schema

/-! ## Parts -/

def entry (v : Value) (f : String) : Value :=
  match v.head with
  | .map es => Fields.get es f
  | _ => .null

def partsAs (r : Role) (v : Value) : List Use := v.yielded.map (Use.part r)

def functionParts (spec : Value) : List Use :=
  partsAs (.node .expression) (entry spec "parameters") ++
    partsAs (.node .statement) (entry spec "body")

def classParts (spec : Value) : List Use :=
  functionParts (entry spec "constructor") ++ (entry spec "methods").yielded.flatMap functionParts

/-- The other branch of a condition without a test is left out. -/
def conditionParts (spec : Value) : List Use :=
  partsAs (.node .statement) (entry spec "execute") ++
    if (entry spec "if").isNull then []
      else partsAs (.node .statement) (entry (entry spec "else") "execute")

def loopParts (loops : Value) : List Use :=
  ["for", "while", "doWhile"].flatMap fun kind =>
    partsAs (.node .statement) (entry (entry loops kind) "body")

def exceptionParts (spec : Value) : List Use :=
  partsAs (.node .statement) (entry (entry spec "try") "body") ++
    partsAs (.node .statement) (entry (entry spec "catch") "body")

/-- Whether the first argument of a hook is a function with its body. -/
def takesBody (hook : Fields) : Bool :=
  namedIn (effectHooks ++ memoHooks) (Fields.get hook "name") ||
    (!(Fields.get hook "body").isNull && !Fields.has hook "initial")

def hookParts (hook : Value) : List Use :=
  match hook.head with
  | .map es =>
    if takesBody es then partsAs (.node .statement) (Fields.get es "body")
      else [.spelled (Fields.get es "initial")]
  | _ => []

/-- Hooks have no place in a class, and a component of another kind leaves nothing. -/
def componentParts (component : Value) : List Use :=
  let kind := entry component "type"
  let functions := (entry component "functions").yielded.flatMap functionParts
  let methods := (entry component "methods").yielded.flatMap functionParts
  let markup := partsAs .markup (entry component "jsx")
  if kind.isKey "function" then
    (entry component "hooks").yielded.flatMap hookParts ++ (functions ++ methods) ++ markup
  else if kind.isKey "class" then [.spelled (entry component "state")] ++
    (methods ++ functions) ++ markup
  else []

def Section.parts : Section → Fields → List Use
  | .imports, _ => []
  | .bindings, es => ["variables", "objects", "arrays"].map fun f => .spelled (Fields.get es f)
  | .classes, es => (Fields.get es "classes").yielded.flatMap classParts
  | .functions, es => (Fields.get es "functions").yielded.flatMap functionParts
  | .conditions, es => (Fields.get es "conditions").yielded.flatMap conditionParts
  | .loops, es => loopParts (Fields.get es "loops")
  | .exceptions, es => (Fields.get es "exceptions").yielded.flatMap exceptionParts
  | .components, es => (Fields.get es "components").yielded.flatMap componentParts

/-- What a document hands on to the emission of nodes and markup, and the data it spells out. -/
def parts (document : Value) : List Use :=
  match document.head with
  | .map es => Section.all.flatMap fun s => s.parts es
  | _ => []

/-! ## What hinges on parts -/

/-- Whether a use is a part that the check has gone on to, or data that is spelled out. -/
def HandedOn : Use → Prop
  | .part r v => Checked r v
  | .spelled _ => True
  | _ => False

/-- Whether the check has gone on to all parts, and something holds if and only if all uses succeed.
-/
structure Hinges (Q : Prop) (us : List Use) : Prop where
  handedOn : ∀ u ∈ us, HandedOn u
  iff : Q ↔ ∀ u ∈ us, u.Succeeds

namespace Hinges

variable {Q R : Prop} {us us' : List Use}

theorem of_true (h : Q) : Hinges Q [] where
  handedOn := List.forall_mem_nil _
  iff := iff_of_true h (List.forall_mem_nil _)

/-- What can be done if and only if a value can be spelled out. -/
theorem spelled {v : Value} (h : Q ↔ v.writable = true) : Hinges Q [.spelled v] where
  handedOn := List.forall_mem_singleton.mpr trivial
  iff := by
    rw [List.forall_mem_singleton]
    exact h

theorem congr (h : Hinges Q us) (hR : R ↔ Q) : Hinges R us := ⟨h.handedOn, hR.trans h.iff⟩

theorem and (h : Hinges Q us) (h' : Hinges R us') : Hinges (Q ∧ R) (us ++ us') :=
  ⟨List.forall_mem_append.mpr ⟨h.handedOn, h'.handedOn⟩,
    (and_congr h.iff h'.iff).trans List.forall_mem_append.symm⟩

theorem flatMap {α : Type} {P : α → Prop} {parts : α → List Use} {as : List α}
    (h : ∀ a ∈ as, Hinges (P a) (parts a)) : Hinges (∀ a ∈ as, P a) (as.flatMap parts) := by
  refine ⟨List.forall_mem_flatMap.mpr fun a ha => (h a ha).handedOn, ?_⟩
  rw [List.forall_mem_flatMap]
  exact forall₂_congr fun a ha => (h a ha).iff

theorem listed {r : Role} {v : Value} {items : List Value} (hv : v.Lists items)
    (hchecked : ∀ w ∈ items, Checked r w) :
    Hinges (∀ w ∈ items, (r.code true w).Returns) (partsAs r v) := by
  rw [partsAs, hv.yielded_eq]
  refine ⟨List.forall_mem_map.mpr hchecked, ?_⟩
  rw [List.forall_mem_map]
  exact Iff.rfl

end Hinges

/-- Whether something is built and has `P`. -/
def Builds {α : Type} (P : α → Prop) (x : Except Fault α) : Prop := ∃ a, x = .ok a ∧ P a

/-- Whether something is built, and has `P` if and only if all uses succeed. -/
def Settles {α : Type} (P : α → Prop) (x : Except Fault α) (us : List Use) : Prop :=
  ∃ a, x = .ok a ∧ Hinges (P a) us

def AllWritten (m : Mode) (ns : List Value) : Prop := ∀ n ∈ ns, (nodeCode true m n).Returns

section Builds

variable {α β : Type} {P : α → Prop} {Q : β → Prop}

theorem builds_ok {a : α} : Builds P (.ok a) ↔ P a := by
  constructor
  · rintro ⟨b, hb, h⟩
    cases hb
    exact h
  · intro h
    exact ⟨a, rfl, h⟩

theorem not_builds_error {e : Fault} : ¬Builds P (.error e) := by
  rintro ⟨a, ha, -⟩
  cases ha

theorem builds_bind {x : Except Fault α} {g : α → Except Fault β} :
    Builds Q (x >>= g) ↔ Builds (fun a => Builds Q (g a)) x := by
  cases x with
  | error e => exact iff_of_false not_builds_error not_builds_error
  | ok a => rw [builds_ok]; rfl

theorem builds_map {x : Except Fault α} {g : α → β} :
    Builds Q (x.map g) ↔ Builds (fun a => Q (g a)) x := by
  cases x with
  | error e => exact iff_of_false not_builds_error not_builds_error
  | ok a => rw [Except.map, builds_ok, builds_ok]

theorem builds_written {v : Value} {a : α} : Builds P (v.written a) ↔ v.writable = true ∧ P a := by
  simp only [Builds, Value.written_eq_ok_iff, and_assoc]
  exact ⟨fun ⟨b, hv, hb, h⟩ => ⟨hv, hb ▸ h⟩, fun ⟨hv, h⟩ => ⟨a, hv, rfl, h⟩⟩

theorem builds_mapM {f : β → Except Fault α} {bs : List β} :
    Builds (fun as => ∀ a ∈ as, P a) (bs.mapM f) ↔ ∀ b ∈ bs, Builds P (f b) := by
  induction bs with
  | nil => exact iff_of_true (builds_ok.mpr (List.forall_mem_nil _)) (List.forall_mem_nil _)
  | cons b bs ih =>
    rw [List.forall_mem_cons, ← ih, List.mapM_cons]
    cases f b with
    | error e => exact iff_of_false not_builds_error fun h => not_builds_error h.1
    | ok a =>
      cases bs.mapM f with
      | error e => exact iff_of_false not_builds_error fun h => not_builds_error h.2
      | ok as =>
        rw [builds_ok, builds_ok, ← List.forall_mem_cons]
        exact builds_ok

theorem collect_eq_mapM (f : Value → Except Fault α) (vs : List Value) :
    collect f vs = vs.mapM f := by
  induction vs with
  | nil => rfl
  | cons v vs ih =>
    rw [collect, ih, List.mapM_cons]
    cases f v with
    | error e => rfl
    | ok a => cases vs.mapM f <;> rfl

theorem builds_collect {f : Value → Except Fault α} {vs : List Value} :
    Builds (fun as => ∀ a ∈ as, P a) (collect f vs) ↔ ∀ v ∈ vs, Builds P (f v) := by
  rw [collect_eq_mapM]
  exact builds_mapM

theorem Settles.hinges {x : Except Fault α} {us : List Use} (h : Settles P x us) :
    Hinges (Builds P x) us := by
  obtain ⟨a, rfl, hhinges⟩ := h
  exact hhinges.congr builds_ok

theorem settles_collect {f : Value → Except Fault α} {parts : Value → List Use} {vs : List Value}
    (h : ∀ v ∈ vs, Settles P (f v) (parts v)) :
    Settles (fun as => ∀ a ∈ as, P a) (collect f vs) (vs.flatMap parts) := by
  induction vs with
  | nil => exact ⟨[], rfl, .of_true (List.forall_mem_nil _)⟩
  | cons v vs ih =>
    obtain ⟨⟨a, ha, hfirst⟩, hvs⟩ := List.forall_mem_cons.mp h
    obtain ⟨as, has, hrest⟩ := ih hvs
    refine ⟨a :: as, ?_, (hfirst.and hrest).congr List.forall_mem_cons⟩
    rw [collect, ha, has]

theorem returns_ofExcept {F : α → Code} {x : Except Fault α} (hF : ∀ a, (F a).Returns ↔ P a) :
    (Code.ofExcept (x.map F)).Returns ↔ Builds P x := by
  cases x with
  | error e => exact iff_of_false (fun h => h) not_builds_error
  | ok a => exact (hF a).trans builds_ok.symm

end Builds

theorem returns_sectionCode {x : Except Fault (List Value)} :
    (sectionCode x).Returns ↔ Builds (AllWritten .statement) x := by
  refine returns_ofExcept fun ns => ?_
  rw [statementsCode, Code.returns_together, List.forall_mem_map]
  exact Iff.rfl

theorem hinges_sectionCode {x : Except Fault (List Value)} {us : List Use}
    (h : Hinges (Builds (AllWritten .statement) x) us) : Hinges (sectionCode x).Returns us :=
  h.congr returns_sectionCode

/-! ## Taking parts -/

section Taking

variable {es : Fields} {f : String} {v : Value}

theorem ask_map : ask (.map es) f = .ok (Fields.get es f) := rfl

theorem require_map (h : Fields.get? es f = some v) : require (.map es) f = .ok v := by
  simp only [require, Value.head, h]

theorem entry_map : entry (.map es) f = Fields.get es f := rfl

theorem ok_bind {α β : Type} (a : α) (g : α → Except Fault β) : (Except.ok a >>= g) = g a := rfl

end Taking

theorem returns_text {s es d : Fields} {f : String} (h : Fitting s es)
    (hd : descriptor? s f = some d) (htype : declaredType d = .string "string") :
    (nodeCode true .expression (Fields.get es f)).Returns := by
  rcases h.text hd htype with hnull | ⟨t, ht⟩
  · rw [hnull]
    exact returns_null
  · rw [ht]
    exact returns_string t

/-! ## Functions -/

/-- What the schemas of functions, methods and constructors have in common. -/
structure Callable (s : Fields) : Prop where
  parameters : operandsIn .expression s "parameters" = true
  body : operandsIn .statement s "body" = true

section Functions

variable {s es : Fields}

theorem hinges_functionParts (h : Fitting s es) (hs : Callable s) : ∃ params body,
    (Fields.get es "parameters").Lists params ∧ (Fields.get es "body").Lists body ∧
      Hinges (AllWritten .expression (params.map parameterNode) ∧ AllWritten .statement body)
        (functionParts (.map es)) := by
  obtain ⟨params, hparams, hparamsChecked⟩ := h.operands hs.parameters
  obtain ⟨body, hbody, hbodyChecked⟩ := h.operands hs.body
  refine ⟨params, body, hparams, hbody, ?_⟩
  refine ((Hinges.listed hparams hparamsChecked).and (Hinges.listed hbody hbodyChecked)).congr
    (and_congr_left' ?_)
  rw [AllWritten, List.forall_mem_map]
  exact forall₂_congr fun v _ => returns_parameter v

theorem settles_methodNode (h : Fitting s es) (hs : Callable s) (name : String)
    (flags : List (String × Value)) (hflags : ∀ f ∈ flags, f.1 ≠ "decorators") :
    Settles (fun n => (nodeCode true .expression n).Returns)
      (methodNode (.string name) (Fields.get es "parameters") (Fields.get es "body") flags)
      (functionParts (.map es)) := by
  obtain ⟨params, body, hparams, hbody, hhinges⟩ := hinges_functionParts h hs
  have hnone : Fields.get (Fields.ofTexts (flags.filter fun f => f.2.truthy)) "decorators" =
      .null :=
    get_ofTexts_of_forall_ne fun f hf => hflags f (List.mem_filter.mp hf).1
  refine ⟨_, ?_, hhinges.congr (returns_method
    (if (Value.string name).isKey "constructor" then "constructor" else "method") name
    (params.map parameterNode) body hnone)⟩
  rw [methodNode, parameters, hparams.elementsOrNone_eq, hbody.elementsOrNone_eq]
  rfl

/-- Whether a value is the description of a function or method that fits. -/
def IsFunction (v : Value) : Prop :=
  ∃ s es d, v = .map es ∧ Fitting s es ∧ Callable s ∧ descriptor? s "name" = some d ∧
    declaredType d = .string "string" ∧ (Fields.get d "required").truthy = true

theorem settles_functionOf {v : Value} (h : IsFunction v) :
    Settles (fun n => (nodeCode true .statement n).Returns) (functionOf v) (functionParts v) := by
  obtain ⟨s, es, d, rfl, hfitting, hs, hd, htype, hrequired⟩ := h
  obtain ⟨name, hname⟩ := hfitting.requiredText hd htype hrequired
  obtain ⟨params, body, hparams, hbody, hhinges⟩ := hinges_functionParts hfitting hs
  refine ⟨_, ?_, hhinges.congr (returns_function name (params.map parameterNode) body
    (.bool (Fields.get es "async").truthy))⟩
  simp only [functionOf, require_map hname, ask_map, ok_bind]
  rw [functionNode, parameters, hparams.elementsOrNone_eq, hbody.elementsOrNone_eq]
  rfl

theorem settles_methodOf {v : Value} (h : IsFunction v) :
    Settles (fun n => (nodeCode true .expression n).Returns) (methodOf v) (functionParts v) := by
  obtain ⟨s, es, d, rfl, hfitting, hs, hd, htype, hrequired⟩ := h
  obtain ⟨name, hname⟩ := hfitting.requiredText hd htype hrequired
  have hbuilt : methodOf (.map es) = methodNode (.string name) (Fields.get es "parameters")
      (Fields.get es "body")
      [("async", Fields.get es "async"), ("static", Fields.get es "static")] := by
    simp only [methodOf, require_map hname, ask_map, ok_bind]
  rw [hbuilt]
  exact settles_methodNode hfitting hs name _ (by simp)

end Functions

theorem Fitting.functions {s es : Fields} {f : String} (h : Fitting s es)
    (hf : (item? s f).bind record? = some (Fields.ofTexts functionSchema) ∨
      (item? s f).bind record? = some (Fields.ofTexts methodSchema)) :
    ∃ specs, (Fields.get es f).Lists specs ∧ ∀ v ∈ specs, IsFunction v := by
  have hschema : ∃ s' d, (item? s f).bind record? = some s' ∧ Callable s' ∧
      descriptor? s' "name" = some d ∧ declaredType d = .string "string" ∧
        (Fields.get d "required").truthy = true := by
    rcases hf with hf | hf
    · exact ⟨_, _, hf, ⟨rfl, rfl⟩, rfl, rfl, rfl⟩
    · exact ⟨_, _, hf, ⟨rfl, rfl⟩, rfl, rfl, rfl⟩
  obtain ⟨s', d, hs', hcallable, hname⟩ := hschema
  obtain ⟨specs, hspecs, hfitting⟩ := h.records hs'
  refine ⟨specs.map .map, hspecs, List.forall_mem_map.mpr fun e he => ?_⟩
  exact ⟨s', e, d, rfl, hfitting e he, hcallable, hname⟩

theorem hinges_functionsCode {s es : Fields} (h : Fitting s es)
    (hs : (item? s "functions").bind record? = some (Fields.ofTexts functionSchema)) :
    Hinges (functionsCode es).Returns
      ((Fields.get es "functions").yielded.flatMap functionParts) := by
  obtain ⟨specs, hspecs, hfunctions⟩ := h.functions (.inl hs)
  rw [functionsCode, hspecs.elementsOrNone_eq, hspecs.yielded_eq]
  exact hinges_sectionCode (settles_collect fun v hv => settles_functionOf (hfunctions v hv)).hinges

theorem hinges_records {s s' es : Fields} {f : String} {build : Value → Except Fault Value}
    {parts : Value → List Use} (h : Fitting s es) (hf : (item? s f).bind record? = some s')
    (hbuild : ∀ e, Fitting s' e →
      Hinges (Builds (fun n => (nodeCode true .statement n).Returns) (build (.map e)))
        (parts (.map e))) :
    Hinges (sectionCode do collect build (← (Fields.get es f).elementsOrNone)).Returns
      ((Fields.get es f).yielded.flatMap parts) := by
  obtain ⟨specs, hspecs, hfitting⟩ := h.records hf
  rw [hspecs.elementsOrNone_eq, hspecs.yielded_eq]
  have hall : ∀ v ∈ specs.map Value.map,
      Hinges (Builds (fun n => (nodeCode true .statement n).Returns) (build v)) (parts v) :=
    List.forall_mem_map.mpr fun e he => hbuild e (hfitting e he)
  exact hinges_sectionCode ((Hinges.flatMap hall).congr builds_collect)

/-! ## Classes -/

theorem settles_constructorNodes {s es : Fields} (h : Fitting s es)
    (hs : (descriptor? s "constructor").bind record? =
      some (Fields.ofTexts [("parameters", parameterList), ("body", required statements)])) :
    Settles (AllWritten .expression) (constructorNodes (Fields.get es "constructor"))
      (functionParts (Fields.get es "constructor")) := by
  rcases h.record hs with hnull | ⟨inner, hinner, hfitting⟩
  · rw [hnull]
    exact ⟨[], rfl, .of_true (List.forall_mem_nil _)⟩
  · obtain ⟨n, hn, hhinges⟩ :=
      settles_methodNode hfitting ⟨rfl, rfl⟩ "constructor" [] (List.forall_mem_nil _)
    obtain ⟨v, hv⟩ := hfitting.exists_get? (f := "parameters") rfl rfl
    rw [hinner]
    refine ⟨[n], ?_, hhinges.congr List.forall_mem_singleton⟩
    simp only [constructorNodes, truthy_map_of_get? hv, if_true, ask_map, ok_bind, hn]
    rfl

theorem settles_classNode {es : Fields} (h : Fitting (Fields.ofTexts classSchema) es) :
    Settles (fun n => (nodeCode true .statement n).Returns) (classNode (.map es))
      (classParts (.map es)) := by
  obtain ⟨first, hfirst, hfirstHinges⟩ := settles_constructorNodes h rfl
  obtain ⟨specs, hspecs, hfunctions⟩ := h.functions (f := "methods") (.inr rfl)
  obtain ⟨methods, hmethods, hmethodsHinges⟩ :=
    settles_collect fun v hv => settles_methodOf (hfunctions v hv)
  obtain ⟨name, hname⟩ := h.requiredText (f := "name") rfl rfl rfl
  have hbase := returns_text h (f := "extends") rfl rfl
  have hmembers : Hinges (AllWritten .expression (first ++ methods)) (classParts (.map es)) := by
    rw [classParts, entry_map, entry_map, hspecs.yielded_eq]
    exact (hfirstHinges.and hmethodsHinges).congr List.forall_mem_append
  have hsuper : (if (Fields.get es "extends").truthy then [("superClass", Fields.get es "extends")]
      else []) =
      [("superClass", Fields.get es "extends")] ∨
      (if (Fields.get es "extends").truthy then [("superClass", Fields.get es "extends")]
        else []) = [] := by
    split
    · exact .inl rfl
    · exact .inr rfl
  refine ⟨_, ?_, hmembers.congr (returns_class name (first ++ methods) hsuper hbase)⟩
  simp only [classNode, ask_map, ok_bind, hfirst, hspecs.elementsOrNone_eq, hmethods,
    require_map hname]
  rfl

/-! ## Control flow -/

def conditionFields : Fields := Fields.ofTexts [
  ("if", typed "string"),
  ("execute", statements),
  ("else", object [("execute", required statements)])]

theorem settles_conditionNode {es : Fields} (h : Fitting conditionFields es) :
    Settles (fun n => (nodeCode true .statement n.1).Returns) (conditionNode (.map es))
      (conditionParts (.map es)) := by
  obtain ⟨execute, hexecute, hexecuteChecked⟩ := h.operands (f := "execute") (m := .statement) rfl
  have hbody := Hinges.listed hexecute hexecuteChecked
  have htest := returns_text h (f := "if") rfl rfl
  have hparts : conditionParts (.map es) = partsAs (.node .statement) (Fields.get es "execute") ++
      if (Fields.get es "if").isNull then []
      else partsAs (.node .statement) (entry (Fields.get es "else") "execute") := rfl
  rw [hparts]
  simp only [conditionNode, ask_map, ok_bind, hexecute.elementsOrNone_eq]
  by_cases hif : (Fields.get es "if").isNull = true
  · rw [if_pos hif, if_pos hif, List.append_nil]
    exact ⟨_, rfl, hbody.congr (returns_block execute)⟩
  · rw [if_neg hif, if_neg hif]
    rcases h.record (f := "else") rfl with hnull | ⟨inner, hinner, hfitting⟩
    · rw [hnull]
      refine ⟨_, rfl, (hbody.and (.of_true fun _ hs => ?_)).congr
        (returns_if htest (.inr ⟨rfl, rfl⟩))⟩
      cases hs
    · obtain ⟨v, hv⟩ := hfitting.exists_get? (f := "execute") rfl rfl
      obtain ⟨alternate, halternate, halternateChecked⟩ :=
        hfitting.operands (f := "execute") (m := .statement) rfl
      have hbranch := Hinges.listed halternate halternateChecked
      rw [hinner]
      simp only [truthy_map_of_get? hv, ask_map, entry_map, ok_bind, halternate.elementsOrNone_eq]
      exact ⟨_, rfl, (hbody.and hbranch).congr (returns_if htest (.inl rfl))⟩

theorem returns_conditionNote {spec : Value} {us : List Use} {P : Value × Bool → Prop}
    (h : Settles P (conditionNode spec) us) : (conditionNote spec).Returns := by
  obtain ⟨⟨n, b⟩, hbuilt, -⟩ := h
  rw [conditionNote, hbuilt]
  cases b with
  | true => trivial
  | false => trivial

theorem hinges_conditionsCode {s es : Fields} (h : Fitting s es)
    (hs : (item? s "conditions").bind record? = some conditionFields) :
    Hinges (conditionsCode es).Returns
      ((Fields.get es "conditions").yielded.flatMap conditionParts) := by
  obtain ⟨specs, hspecs, hfitting⟩ := h.records hs
  have hnode : ∀ v ∈ specs.map Value.map, Settles (fun n => (nodeCode true .statement n).Returns)
      ((conditionNode v).map (·.1)) (conditionParts v) := by
    refine List.forall_mem_map.mpr fun e he => ?_
    obtain ⟨n, hn, hhinges⟩ := settles_conditionNode (hfitting e he)
    exact ⟨n.1, by rw [hn]; rfl, hhinges⟩
  have hnotes : ∀ c ∈ (specs.map Value.map).map conditionNote, c.Returns :=
    List.forall_mem_map.mpr (List.forall_mem_map.mpr fun e he =>
      returns_conditionNote (settles_conditionNode (hfitting e he)))
  have hsection := hinges_sectionCode (settles_collect hnode).hinges
  rw [conditionsCode, hspecs.elementsOrNone_eq, hspecs.yielded_eq]
  refine hsection.congr ?_
  simp only [Code.returns_together, List.forall_mem_cons]
  exact ⟨fun hall => hall.2.1, fun hall => ⟨hnotes, hall, List.forall_mem_nil _⟩⟩

def loopFields : Fields := Fields.ofTexts [
  ("for", object [
    ("initializer", name),
    ("condition", name),
    ("increment", name),
    ("body", required statements)]),
  ("while", conditionalLoop),
  ("doWhile", conditionalLoop)]

/-- A loop whose description, if there is one, has a body. -/
theorem settles_loopNodes {s s' es : Fields} {f : String} (kind : String)
    (fields : List (String × String)) (h : Fitting s es)
    (hf : (descriptor? s f).bind record? = some s') (hbody : operandsIn .statement s' "body" = true)
    (hrequired : ∃ d, descriptor? s' "body" = some d ∧ (Fields.get d "required").truthy = true)
    (hreturns : ∀ inner, Fitting s' inner →
      ((nodeCode true .statement (node kind
        (fields.map fun g => (g.1, Fields.get inner g.2)))).Returns ↔
        AllWritten .statement (Fields.get inner "body").statements)) :
    Settles (AllWritten .statement) (loopNodes kind fields (Fields.get es f))
      (partsAs (.node .statement) (entry (Fields.get es f) "body")) := by
  rcases h.record hf with hnull | ⟨inner, hinner, hfitting⟩
  · rw [hnull]
    exact ⟨[], rfl, .of_true (List.forall_mem_nil _)⟩
  · obtain ⟨d, hd, hrequired⟩ := hrequired
    obtain ⟨v, hv⟩ := hfitting.exists_get? hd hrequired
    obtain ⟨body, hlists, hchecked⟩ := hfitting.operands hbody
    have hloop := hreturns inner hfitting
    rw [hlists.statements_eq] at hloop
    rw [hinner, loopNodes, truthy_map_of_get? hv, if_pos rfl, entry_map]
    exact ⟨_, rfl, (Hinges.listed hlists hchecked).congr (List.forall_mem_singleton.trans hloop)⟩

theorem hinges_loopsCode {s es : Fields} (h : Fitting s es)
    (hs : (descriptor? s "loops").bind record? = some loopFields) :
    Hinges (loopsCode es).Returns (loopParts (Fields.get es "loops")) := by
  rcases h.record hs with hnull | ⟨inner, hinner, hfitting⟩
  · rw [loopsCode, hnull]
    exact .of_true trivial
  · have hwhile : ∀ {f kind : String}, kind = "whileStatement" ∨ kind = "doWhileStatement" →
        (descriptor? loopFields f).bind record? =
          some (Fields.ofTexts [("condition", name), ("body", required statements)]) →
        Settles (AllWritten .statement)
          (loopNodes kind [("test", "condition"), ("body", "body")] (Fields.get inner f))
          (partsAs (.node .statement) (entry (Fields.get inner f) "body")) := by
      intro f kind hkind hf
      refine settles_loopNodes _ _ hfitting hf rfl ⟨_, rfl, rfl⟩ fun loop hloop => ?_
      exact returns_while hkind (returns_text hloop (f := "condition") rfl rfl)
    obtain ⟨counted, hcounted, hcountedHinges⟩ := settles_loopNodes (f := "for") "forStatement"
      [("init", "initializer"), ("test", "condition"), ("update", "increment"), ("body", "body")]
      hfitting rfl rfl ⟨_, rfl, rfl⟩ fun loop hloop =>
        returns_for (returns_text hloop (f := "initializer") rfl rfl)
        (returns_text hloop (f := "condition") rfl rfl)
          (returns_text hloop (f := "increment") rfl rfl)
    obtain ⟨before, hbefore, hbeforeHinges⟩ := hwhile (f := "while") (.inl rfl) rfl
    obtain ⟨after, hafter, hafterHinges⟩ := hwhile (f := "doWhile") (.inr rfl) rfl
    have hparts : loopParts (.map inner) =
        partsAs (.node .statement) (entry (Fields.get inner "for") "body") ++
        (partsAs (.node .statement) (entry (Fields.get inner "while") "body") ++
          partsAs (.node .statement) (entry (Fields.get inner "doWhile") "body")) := by
      simp [loopParts, entry_map]
    have hall : Hinges (AllWritten .statement (counted ++ before ++ after))
        (loopParts (.map inner)) := by
      rw [hparts]
      refine (hcountedHinges.and (hbeforeHinges.and hafterHinges)).congr ?_
      simp only [AllWritten, List.forall_mem_append, and_assoc]
    rw [loopsCode, hinner]
    split
    · refine hinges_sectionCode (hall.congr ?_)
      simp only [Value.fields, Value.head, ok_bind, hcounted, hbefore, hafter]
      exact builds_ok
    · next htruthy =>
      cases inner with
      | nil => exact .of_true trivial
      | cons e es => exact absurd rfl htruthy

def exceptionFields : Fields := Fields.ofTexts [
  ("try", requiredObject [("body", required statements)]),
  ("catch", requiredObject [("parameter", name), ("body", required statements)])]

theorem settles_tryNode {es : Fields} (h : Fitting exceptionFields es) :
    Settles (fun n => (nodeCode true .statement n).Returns) (tryNode (.map es))
      (exceptionParts (.map es)) := by
  obtain ⟨tried, htried, htriedFitting⟩ := h.requiredRecord (f := "try") rfl rfl rfl
  obtain ⟨handler, hhandler, hhandlerFitting⟩ := h.requiredRecord (f := "catch") rfl rfl rfl
  obtain ⟨body, hbody, hbodyChecked⟩ := htriedFitting.operands (f := "body") (m := .statement) rfl
  obtain ⟨handlerBody, hhandlerBody, hhandlerChecked⟩ :=
    hhandlerFitting.operands (f := "body") (m := .statement) rfl
  have hparts : exceptionParts (.map es) = partsAs (.node .statement) (Fields.get tried "body") ++
      partsAs (.node .statement) (Fields.get handler "body") := by
    simp only [exceptionParts, Fields.get, htried, hhandler, Option.getD_some, entry, Value.head]
  have hreturns := returns_try (Fields.get tried "body") (Fields.get handler "body")
    (returns_text hhandlerFitting (f := "parameter") rfl rfl)
  rw [hbody.statements_block, hhandlerBody.statements_eq] at hreturns
  rw [hparts]
  refine ⟨_, ?_, ((Hinges.listed hbody hbodyChecked).and
    (Hinges.listed hhandlerBody hhandlerChecked)).congr hreturns⟩
  simp only [tryNode, require_map htried, require_map hhandler, ask_map, ok_bind]
  rfl

end Scriptwright.Document
