import Scriptwright.Proofs.Document.Sections

/-!
# Components that fit

What components hand on, and that they return if and only if all of it does: the bodies of hooks,
functions and methods, and the markup.
-/

namespace Scriptwright.Document

open Script Schema

/-! ## Hooks -/

section Hooks

variable {es : Fields} (h : Fitting (Fields.ofTexts hookSchema) es)
include h

theorem hinges_hookArgument :
    Hinges (Builds (AllWritten .expression) (hookArgument (Fields.get es "name") es))
      (hookParts (.map es)) := by
  have hparts : hookParts (.map es) = if takesBody es then partsAs (.node .statement)
      (Fields.get es "body")
      else [.spelled (Fields.get es "initial")] := rfl
  rw [hparts]
  by_cases htakes : takesBody es = true
  · have hargument : hookArgument (Fields.get es "name") es =
        (Fields.get es "body").elementsOrNone.map fun body =>
        [node "arrowFunctionExpression" [("params", .list []), ("body", .list body)]] :=
          if_pos htakes
    obtain ⟨body, hbody, hchecked⟩ := h.operands (f := "body") (m := .statement) rfl
    rw [hargument, if_pos htakes, hbody.elementsOrNone_eq]
    exact (Hinges.listed hbody hchecked).congr
      (builds_ok.trans (List.forall_mem_singleton.trans (returns_arrow body)))
  · rw [if_neg htakes]
    refine .spelled ?_
    cases hinitial : Fields.get? es "initial" with
    | none =>
      have hargument : hookArgument (Fields.get es "name") es = .ok [] :=
        (if_neg htakes).trans (by rw [hinitial])
      rw [hargument, Fields.get, hinitial]
      exact iff_of_true (builds_ok.mpr (List.forall_mem_nil _)) rfl
    | some v =>
      have hsimple := Value.simple_get h.simple "initial"
      have hget : Fields.get es "initial" = v := by rw [Fields.get, hinitial, Option.getD_some]
      rw [hget] at hsimple ⊢
      obtain ⟨text, htext⟩ := exists_literal v hsimple
      have hargument : hookArgument (Fields.get es "name") es = (v.written text).map fun t =>
          [.string t] := by
        refine (if_neg htakes).trans ?_
        simp only [hinitial, htext]
      rw [hargument, builds_map, builds_written]
      exact and_iff_left (List.forall_mem_singleton.mpr (returns_string text))

theorem exists_hookDependencies :
    ∃ last, hookDependencies es = .ok last ∧ AllWritten .expression last := by
  obtain ⟨ts, hts⟩ := h.texts (f := "dependencies") rfl rfl
  rw [hookDependencies]
  rcases hts with ⟨hnull, -⟩ | hlist
  · rw [hnull]
    exact ⟨[], rfl, List.forall_mem_nil _⟩
  · rw [hlist]
    refine ⟨_, rfl, List.forall_mem_singleton.mpr ((returns_array (.inl rfl) _).mpr ?_)⟩
    exact List.forall_mem_map.mpr fun t _ => returns_string t

omit h in
/-- A call that is bound to names can be written if the call can. -/
theorem returns_binding (params : List String) (call : Value) :
    (∀ p : String, (nodeCode true .statement
      (declarationNode "const" (identifierNode (.string p)) call)).Returns ↔
        (nodeCode true .expression call).Returns) ∧
      ((nodeCode true .statement (declarationNode "const"
          (node "arrayPattern" [("elements", .list ((params.map Value.string).map identifierNode))])
            call)).Returns ↔
        (nodeCode true .expression call).Returns) := by
  constructor
  · intro p
    refine returns_declarationNode "const" call (returns_identifier p) fun w hw => ?_
    cases hw
    rfl
  · have hpattern : (nodeCode true .expression (node "arrayPattern"
        [("elements", .list ((params.map Value.string).map identifierNode))])).Returns := by
      refine (returns_array (.inr rfl) _).mpr
        (List.forall_mem_map.mpr (List.forall_mem_map.mpr fun p _ => ?_))
      exact returns_identifier p
    exact returns_declarationNode "const" call hpattern fun w hw => nomatch hw

theorem hinges_hookNode :
    Hinges (Builds (fun n => (nodeCode true .statement n).Returns) (hookNode (.map es)))
      (hookParts (.map es)) := by
  obtain ⟨t, ht⟩ := h.requiredText (f := "name") rfl rfl rfl
  have hname : Fields.get es "name" = .string t := by rw [Fields.get, ht]; rfl
  obtain ⟨params, hparams⟩ := h.texts (f := "params") rfl rfl
  have hfirst := hinges_hookArgument h
  obtain ⟨last, hlast, hlastReturns⟩ := exists_hookDependencies h
  rw [hname] at hfirst
  have hcall : ∀ first, (nodeCode true .expression (node "callExpression"
      [("callee", identifierNode (.string t)), ("arguments", .list (first ++ last))])).Returns ↔
        AllWritten .expression first := by
    intro first
    rw [returns_call, List.forall_mem_append]
    exact and_iff_left hlastReturns
  have hfindable : (!(Value.string t).findable) = false := rfl
  refine hfirst.congr ?_
  simp only [hookNode, require_map ht, Value.fields, Value.head, ok_bind, hparams.elementsOrNone_eq,
    hlast, hfindable, Bool.false_eq_true, if_false]
  refine builds_bind.trans (exists_congr fun first => and_congr_right fun _ =>
    Iff.trans ?_ (hcall first))
  split
  · exact builds_ok.trans (returns_expressionNode _)
  · cases params with
    | nil => exact builds_ok.trans (returns_expressionNode _)
    | cons p ps =>
      cases ps with
      | nil =>
        cases huse : (Value.string t).isKey "useState" with
        | true => exact builds_ok.trans (returns_binding [p] _).2
        | false => exact builds_ok.trans ((returns_binding [p] _).1 p)
      | cons p' ps => exact builds_ok.trans (returns_binding (p :: p' :: ps) _).2

end Hooks

/-! ## Markup -/

theorem returns_forestCode {v : Value} {items : List Value} (h : v.Lists items) :
    (forestCode v).Returns ↔ ∀ w ∈ items, (markupCode w).Returns := by
  rw [forestCode, h.elementsOrNone_eq, Code.returns_ofExcept_map]
  simp [Code.returns_together]

theorem returns_fragmentCode (v : Value) : (fragmentCode v).Returns ↔ (forestCode v).Returns := by
  simp [fragmentCode, Code.returns_together, returns_line, Code.Returns]

theorem hinges_returnCode {s es i : Fields} {f : String} (h : Fitting s es)
    (hs : item? s f = some i) (hi : refers i "markup" = true) :
    Hinges (returnCode (Fields.get es f)).Returns (partsAs .markup (Fields.get es f)) := by
  obtain ⟨items, hitems, hall⟩ := h.list hs
  have hmarkup : ∀ w ∈ items, Checked .markup w := by
    intro w hw
    obtain ⟨-, path, haccepts⟩ := hall w hw
    exact accepted_of_refers hi haccepts
  have hforest := (Hinges.listed hitems hmarkup).congr (returns_forestCode hitems)
  have hnone : (Fields.get es f).truthy = false → items = [] := by
    intro hfalse
    rcases hitems with ⟨-, hnil⟩ | hlist
    · exact hnil
    · rw [hlist] at hfalse
      cases items with
      | nil => rfl
      | cons v vs => cases hfalse
  rw [returnCode]
  split
  · next htruthy =>
    have hsingle : ∃ b, isSingleElement (Fields.get es f) = .ok b := by
      rw [hitems.eq_list htruthy]
      cases items with
      | nil => exact ⟨_, rfl⟩
      | cons v vs =>
        cases vs with
        | nil => exact ⟨_, rfl⟩
        | cons w ws => exact ⟨_, rfl⟩
    obtain ⟨b, hb⟩ := hsingle
    rw [hb]
    refine hforest.congr ?_
    cases b with
    | true => simp [Code.returns_together, returns_line, Code.Returns]
    | false => simp [Code.returns_together, returns_line, Code.Returns, returns_fragmentCode]
  · next hfalse =>
    refine hforest.congr (iff_of_true ?_ ?_)
    · simp [returns_line, Code.Returns]
    · rw [returns_forestCode hitems, hnone (Bool.eq_false_iff.mpr hfalse)]
      exact List.forall_mem_nil _

/-! ## The two forms -/

theorem bothLists_eq {es : Fields} {f g : String} {a b : List Value}
    (hf : (Fields.get es f).Lists a) (hg : (Fields.get es g).Lists b) :
    bothLists es f g = .ok (a ++ b) := by
  rw [bothLists, hf.elementsOrNone_eq, hg.elementsOrNone_eq]
  rfl

theorem returns_closing (name : String) :
    (Code.spelling (.string name) (.text "\x7d\n")).Returns :=
  Code.returns_spelling.mpr ⟨rfl, trivial⟩

section Forms

variable {es : Fields} (h : Fitting (Fields.ofTexts componentSchema) es)
include h

theorem exists_functions : ∃ functions methods, (Fields.get es "functions").Lists functions ∧
    (Fields.get es "methods").Lists methods ∧ (∀ v ∈ functions, IsFunction v) ∧ ∀ v ∈ methods,
      IsFunction v := by
  obtain ⟨functions, hfunctions, hfunction⟩ := h.functions (f := "functions") (.inl rfl)
  obtain ⟨methods, hmethods, hmethod⟩ := h.functions (f := "methods") (.inr rfl)
  exact ⟨functions, methods, hfunctions, hmethods, hfunction, hmethod⟩

theorem hinges_functionComponent (name : String) :
    Hinges (functionComponent (.string name) es).Returns
    ((Fields.get es "hooks").yielded.flatMap hookParts ++
      ((Fields.get es "functions").yielded.flatMap functionParts ++
        (Fields.get es "methods").yielded.flatMap functionParts) ++
          partsAs .markup (Fields.get es "jsx")) := by
  obtain ⟨functions, methods, hfunctions, hmethods, hfunction, hmethod⟩ := exists_functions h
  have hhooks :
      Hinges (sectionCode do collect hookNode (← (Fields.get es "hooks").elementsOrNone)).Returns
        ((Fields.get es "hooks").yielded.flatMap hookParts) :=
    hinges_records h rfl fun e he => hinges_hookNode he
  have hinner := hinges_sectionCode (settles_collect fun v hv =>
    settles_functionOf (List.forall_mem_append.mpr ⟨hfunction, hmethod⟩ v hv)).hinges
  have hmarkup := hinges_returnCode (f := "jsx") h rfl rfl
  rw [List.flatMap_append] at hinner
  rw [hfunctions.yielded_eq, hmethods.yielded_eq]
  refine ((hhooks.and hinner).and hmarkup).congr ?_
  simp only [functionComponent, bothLists_eq hfunctions hmethods, ok_bind]
  simp [Code.returns_together, Code.Returns, returns_closing, and_assoc]

omit h in
theorem returns_methodLines {x : Except Fault Value} :
    (methodLines x).Returns ↔ Builds (fun n => (nodeCode true .expression n).Returns) x := by
  refine returns_ofExcept fun n => ?_
  rw [returns_line]
  exact List.forall_mem_singleton

theorem hinges_stateLines :
    Hinges (stateLines (Fields.get es "state")).Returns [.spelled (Fields.get es "state")] := by
  refine .spelled ?_
  rcases h.mapping (f := "state") rfl rfl with hnull | ⟨inner, hinner⟩
  · rw [hnull]
    exact iff_of_true trivial rfl
  · have hsimple := Value.simple_get h.simple "state"
    rw [hinner] at hsimple ⊢
    obtain ⟨text, htext⟩ := exists_literal (.map inner) hsimple
    have hmethod := (returns_method "constructor" "constructor" [identifierNode (.string "props")]
      [expressionNode (.string "super(props)"), expressionNode (.string ("this.state = " ++ text))]
        get_ofTexts_nil).mpr
        ⟨List.forall_mem_singleton.mpr (returns_identifier _),
          by simp [returns_expressionNode, returns_string]⟩
    simp only [stateLines, htext]
    rw [returns_methodLines, builds_bind, builds_written]
    exact and_iff_left (builds_ok.mpr hmethod)

theorem hinges_classComponent (name : String) : Hinges (classComponent (.string name) es).Returns
    ([.spelled (Fields.get es "state")] ++
      ((Fields.get es "methods").yielded.flatMap functionParts ++
      (Fields.get es "functions").yielded.flatMap functionParts) ++
        partsAs .markup (Fields.get es "jsx")) := by
  obtain ⟨functions, methods, hfunctions, hmethods, hfunction, hmethod⟩ := exists_functions h
  have hlines : Hinges (∀ v ∈ methods ++ functions, (methodLines (methodOf v)).Returns)
      ((methods ++ functions).flatMap functionParts) :=
    Hinges.flatMap fun v hv =>
      (settles_methodOf (List.forall_mem_append.mpr ⟨hmethod, hfunction⟩ v hv)).hinges.congr
        returns_methodLines
  have hmarkup := hinges_returnCode (f := "jsx") h rfl rfl
  have hwarning : (if (Fields.get es "hooks").truthy ∧ (Value.string name).writable then
      Code.warn ("Hooks are not supported in class component " ++ (Value.string name).display ++
        "; skipping them")
      else .nothing).Returns := by
    split
    · trivial
    · trivial
  rw [List.flatMap_append] at hlines
  rw [hfunctions.yielded_eq, hmethods.yielded_eq]
  refine (((hinges_stateLines h).and hlines).and hmarkup).congr ?_
  have hmembers : (Code.ofExcept ((bothLists es "methods" "functions").map fun specs =>
      .together (specs.map fun v => methodLines (methodOf v)))).Returns ↔
      ∀ v ∈ methods ++ functions, (methodLines (methodOf v)).Returns := by
    rw [bothLists_eq hmethods hfunctions]
    exact Code.returns_together.trans List.forall_mem_map
  rw [and_assoc]
  simp [classComponent, Code.returns_together, Code.Returns, returns_line, hwarning,
    returns_closing, hmembers]

theorem hinges_componentCode :
    Hinges (componentCode (.map es)).Returns (componentParts (.map es)) := by
  obtain ⟨name, hname⟩ := h.requiredText (f := "name") rfl rfl rfl
  have hkind : (Fields.get es "type").writable = true := by
    rcases h.text (f := "type") rfl rfl with hnull | ⟨t, ht⟩
    · rw [hnull]
      rfl
    · rw [ht]
      rfl
  have hfunction := hinges_functionComponent h name
  have hclass := hinges_classComponent h name
  have hparts : componentParts (.map es) =
      if (Fields.get es "type").isKey "function" then
        (Fields.get es "hooks").yielded.flatMap hookParts ++
          ((Fields.get es "functions").yielded.flatMap functionParts ++
            (Fields.get es "methods").yielded.flatMap functionParts) ++
              partsAs .markup (Fields.get es "jsx")
      else if (Fields.get es "type").isKey "class" then
        [.spelled (Fields.get es "state")] ++
          ((Fields.get es "methods").yielded.flatMap functionParts ++
          (Fields.get es "functions").yielded.flatMap functionParts) ++
            partsAs .markup (Fields.get es "jsx")
      else [] := rfl
  have hcode : componentCode (.map es) =
      if (Fields.get es "type").isKey "function" || (Fields.get es "type").isKey "class" then
        if (Fields.get es "type").isKey "function" then functionComponent (.string name) es
        else classComponent (.string name) es
      else .spelling (Fields.get es "type") (.report "component" (Fields.get es "type")) := by
    simp only [componentCode, Value.head, hname]
  rw [hparts, hcode]
  cases (Fields.get es "type").isKey "function" with
  | true => exact hfunction
  | false =>
    cases (Fields.get es "type").isKey "class" with
    | true => exact hclass
    | false => exact .of_true (Code.returns_spelling.mpr ⟨hkind, trivial⟩)

end Forms

theorem hinges_componentsCode {s es : Fields} (h : Fitting s es)
    (hs : (item? s "components").bind record? = some (Fields.ofTexts componentSchema)) :
    Hinges (componentsCode es).Returns
      ((Fields.get es "components").yielded.flatMap componentParts) := by
  obtain ⟨components, hcomponents, hfitting⟩ := h.records hs
  have hall : Hinges (∀ v ∈ components.map Value.map, (componentCode v).Returns)
      ((components.map Value.map).flatMap componentParts) :=
    Hinges.flatMap (List.forall_mem_map.mpr fun e he => hinges_componentCode (hfitting e he))
  rw [componentsCode, hcomponents.elementsOrNone_eq, hcomponents.yielded_eq]
  exact hall.congr (Code.returns_shaped.trans List.forall_mem_map)

end Scriptwright.Document
