import Scriptwright.Proofs.Document.Components
import Scriptwright.Proofs.Document.Imports

/-!
# Documents that the check accepts

An accepted document fails to be written only at nodes that the schema does not vouch for, and at
numbers that have too many digits. Everything hinges on the values that its sections hand on and
spell out. The check has gone on to all parts, and from a node that is vouched for it goes on to all
of its parts. What is left are the gaps of the schema: data that has no text, and fields of any type
that are used as lists, nodes or keys.
-/

namespace Scriptwright.Document

open Script Schema

/-! ## Bindings -/

theorem returns_binding_string (kind name text : String) :
    (nodeCode true .statement (declarationNode kind (identifierNode (.string name))
      (.string text))).Returns := by
  refine (returns_declarationNode kind _ (returns_identifier name) fun w hw => ?_).mpr
    (returns_string text)
  cases hw
  rfl

/-- Bindings are written if and only if their names and values can be spelled out. -/
theorem builds_bindingNodes {s es d : Fields} {f : String} (kind : String) (h : Fitting s es)
    (hd : descriptor? s f = some d) (htype : declaredType d = .string "object") :
    Builds (AllWritten .statement) (bindingNodes kind (Fields.get es f)) ↔
      (Fields.get es f).writable = true := by
  rcases h.mapping hd htype with hnull | ⟨inner, hinner⟩
  · rw [hnull]
    exact iff_of_true ⟨[], rfl, List.forall_mem_nil _⟩ rfl
  · have hsimple := Value.simple_get h.simple f
    rw [hinner] at hsimple ⊢
    rw [bindingNodes]
    split
    · have hall :=
        @builds_mapM Value (Value × Value) (fun n => (nodeCode true .statement n).Returns)
        (fun e => do
          return declarationNode kind (identifierNode (.string (← e.1.written e.1.display)))
            (.string (← literal e.2)))
        inner
      refine hall.trans (Iff.trans ?_ Value.writable_map.symm)
      refine forall₂_congr fun e he => ?_
      obtain ⟨text, htext⟩ := exists_literal e.2 (Value.everywhere_of_mem_entries hsimple he)
      rw [builds_bind, builds_written, builds_bind, htext, builds_written]
      exact and_congr_right fun _ => and_iff_left (builds_ok.mpr (returns_binding_string _ _ _))
    · next hempty =>
      cases inner with
      | nil => exact iff_of_true ⟨[], rfl, List.forall_mem_nil _⟩ rfl
      | cons e es => exact absurd rfl hempty

section Document

variable {es : Fields} (h : Fitting documentFields es)
include h

theorem returns_imports : (importsCode es).Returns := by
  obtain ⟨sheets, hsheets⟩ := h.texts (f := "css") rfl rfl
  obtain ⟨libraries, hlibraries⟩ := h.texts (f := "libraries") rfl rfl
  refine returns_importsCode h.suits ⟨fun m hm inner hinner f hf => ?_, fun v hv => ?_⟩
  · obtain ⟨modules, hmodules, hfitting⟩ := h.records (f := "modules") rfl
    rw [hmodules.yielded_eq] at hm
    obtain ⟨e, he, rfl⟩ := List.mem_map.mp hm
    cases hinner
    have htext : ∃ t, Fields.get? inner f = some (.string t) := by
      simp only [moduleTexts, List.mem_cons, List.not_mem_nil, or_false] at hf
      rcases hf with rfl | rfl | rfl
      · exact (hfitting inner he).requiredText rfl rfl rfl
      · exact (hfitting inner he).requiredText rfl rfl rfl
      · exact (hfitting inner he).requiredText rfl rfl rfl
    obtain ⟨t, ht⟩ := htext
    exact ⟨t, by rw [Fields.getD, ht, Option.getD_some]⟩
  · rw [hsheets.yielded_eq, hlibraries.yielded_eq, ← List.map_append] at hv
    obtain ⟨t, -, rfl⟩ := List.mem_map.mp hv
    exact ⟨t, rfl⟩

theorem hinges_bindingsCode : Hinges (bindingsCode es).Returns (Section.parts .bindings es) := by
  have hvariables : Hinges _ [_] :=
    .spelled (builds_bindingNodes (f := "variables") "let" h rfl rfl)
  have hobjects : Hinges _ [_] := .spelled (builds_bindingNodes (f := "objects") "const" h rfl rfl)
  have harrays : Hinges _ [_] := .spelled (builds_bindingNodes (f := "arrays") "const" h rfl rfl)
  refine hinges_sectionCode ((hvariables.and (hobjects.and harrays)).congr ?_)
  simp only [builds_bind]
  constructor
  · rintro ⟨vs, hvs, os, hos, as, has, hall⟩
    have hwritten := builds_ok.mp hall
    simp only [AllWritten, List.forall_mem_append] at hwritten
    exact ⟨⟨vs, hvs, hwritten.1.1⟩, ⟨os, hos, hwritten.1.2⟩, ⟨as, has, hwritten.2⟩⟩
  · rintro ⟨⟨vs, hvs, hvsWritten⟩, ⟨os, hos, hosWritten⟩, ⟨as, has, hasWritten⟩⟩
    refine ⟨vs, hvs, os, hos, as, has, builds_ok.mpr ?_⟩
    exact List.forall_mem_append.mpr
      ⟨List.forall_mem_append.mpr ⟨hvsWritten, hosWritten⟩, hasWritten⟩

theorem hinges_section (part : Section) : Hinges (part.code es).Returns (part.parts es) := by
  cases part with
  | imports => exact .of_true (returns_imports h)
  | bindings => exact hinges_bindingsCode h
  | classes => exact hinges_records h rfl fun e he => (settles_classNode he).hinges
  | functions => exact hinges_functionsCode h rfl
  | conditions => exact hinges_conditionsCode h rfl
  | loops => exact hinges_loopsCode h rfl
  | exceptions => exact hinges_records h rfl fun e he => (settles_tryNode he).hinges
  | components => exact hinges_componentsCode h rfl

end Document

/-! ## Documents -/

theorem fitting_of_accepts {document : Value} (hsimple : document.simple = true)
    (h : (check nodeDefinitions documentSchema document).Accepts) :
    ∃ es, document = .map es ∧ Fitting documentFields es := by
  rw [check, Value.head_of_simple hsimple] at h
  cases document with
  | map es => exact ⟨es, rfl, hsimple, "", accepts_checkFields.mp h⟩
  | _ => cases h

theorem hinges_code {document : Value} (hsimple : document.simple = true)
    (h : (check nodeDefinitions documentSchema document).Accepts) :
    Hinges (code document).Returns (parts document) := by
  obtain ⟨es, rfl, hfitting⟩ := fitting_of_accepts hsimple h
  have hall : Hinges (∀ s ∈ Section.all, (s.code es).Returns) (parts (.map es)) :=
    Hinges.flatMap fun s _ => hinges_section hfitting s
  exact hall.congr (Code.returns_shaped.trans List.forall_mem_map)

/-- Where an accepted document fails to be written, a number with too many digits is shown, or a
node that the schema does not vouch for is used against its shape; the check goes on to everything
that the document hands on, and to all parts of a node that is vouched for. -/
theorem emit_accepted_iff {document : Value} (hsimple : document.simple = true)
    (haccepts : (check nodeDefinitions documentSchema document).Accepts) (layout : Layout)
    (level : Int) (j : Journal) :
    (∀ r v, Use.part r v ∈ parts document → Checked r v) ∧
      (∀ r v, Vouched r v →
        (r.sound v = true ↔ r.spells v = true) ∧ ∀ r' w, Use.part r' w ∈ r.uses v → Checked r' w) ∧
      ((∃ text, ((code document).emit layout level j).1 = .ok text) ↔
        (∀ v, Use.spelled v ∈ parts document → v.writable = true) ∧
          ∀ r v, Use.part r v ∈ parts document →
            Throughout (fun r v => r.spells v = true ∧ (Vouched r v ∨ r.sound v = true)) r v) := by
  have hhinges := hinges_code hsimple haccepts
  have hsound : ∀ r v, r.spells v = true ∧ (Vouched r v ∨ r.sound v = true) ↔ r.sound v = true := by
    intro r v
    refine ⟨fun h => h.2.elim (fun hv => (sound_iff_of_vouched hv).1.mpr h.1) id, fun h =>
      ⟨spells_of_sound h, .inr h⟩⟩
  refine ⟨fun r v hu => hhinges.handedOn _ hu, fun r v h => sound_iff_of_vouched h, ?_⟩
  rw [← isOk_iff, Code.isOk_emit, hhinges.iff]
  constructor
  · intro h
    refine ⟨fun v hv => h _ hv, fun r v hu => ?_⟩
    exact ((returns_iff_throughout r v).mp (h _ hu)).mono fun r v hs => (hsound r v).mpr hs
  · rintro ⟨hspelled, hparts⟩ u hu
    cases u with
    | part r v => exact (returns_iff_throughout r v).mpr ((hparts r v hu).mono fun r v hs =>
        (hsound r v).mp hs)
    | spelled v => exact hspelled v hu
    | _ => exact (hhinges.handedOn _ hu).elim

/-- A date is data among the variables; the body of an effect and the markup are handed on. -/
theorem emit_accepted_iff_component :
    let document := Value.record [
      ("variables", .record [("since", .date ⟨2020, 1, 2⟩)]),
      ("components", .list [.record [
        ("type", .string "function"),
        ("name", .string "App"),
        ("hooks", .list [.record [
          ("name", .string "useEffect"),
          ("params", .list []),
          ("body", .list [.record [
            ("type", .string "ifStatement"),
            ("test", .string "ready"),
            ("consequent", .list [.record [
              ("type", .string "returnStatement"),
              ("argument", .record [("type", .string "literal"), ("value", .int 1)])]])]])]]),
        ("jsx", .list [.record [("type", .string "p"), ("children", .list [.string "hello"])]])]])]
    let options : Options := {}
    document.simple = true ∧ (check nodeDefinitions documentSchema document).Accepts ∧
      ∃ text, ((code document).emit options.layout 0 (.empty none)).1 = .ok text := by
  intro document options
  have hsimple : document.simple = true := by decide +kernel
  have haccepts : (check nodeDefinitions documentSchema document).Accepts := by decide +kernel
  have hwithin : (parts document).all (Use.within (fun r v => r.sound v = true) 4) = true := by
    decide +kernel
  have hsound : (parts document).all Use.sound = true := by decide +kernel
  have hspelled : ∀ v, Use.spelled v ∈ parts document → v.writable = true :=
    fun v hv => List.all_eq_true.mp hsound _ hv
  have hparts : ∀ r v, Use.part r v ∈ parts document →
      Throughout (fun r v => r.spells v = true ∧ (Vouched r v ∨ r.sound v = true)) r v := by
    intro r v hu
    have hpart : Throughout (fun r v => r.sound v = true) r v :=
      throughout_of_within (List.all_eq_true.mp hwithin _ hu)
    exact hpart.mono fun _ _ hs => ⟨spells_of_sound hs, .inr hs⟩
  exact ⟨hsimple, haccepts, (emit_accepted_iff hsimple haccepts _ _ _).2.2.mpr ⟨hspelled, hparts⟩⟩

/-- A date in a literal has no text. -/
theorem emit_dated_literal :
    let document := Value.record [
      ("functions", .list [.record [
        ("name", .string "f"),
        ("parameters", .list []),
        ("body", .list [.record [
          ("type", .string "returnStatement"),
          ("argument", .record [("type", .string "literal"), ("value", .date ⟨2020, 1, 2⟩)])]])]])]
    let options : Options := {}
    document.simple = true ∧ (check nodeDefinitions documentSchema document).Accepts ∧
      ¬∃ text, ((code document).emit options.layout 0 (.empty none)).1 = .ok text := by
  intro document options
  have hfails : ((code document).emit options.layout 0 (.empty none)).1.isOk = false :=
    by decide +kernel
  refine ⟨by decide +kernel, by decide +kernel, fun htext => ?_⟩
  rw [← isOk_iff, hfails] at htext
  cases htext

end Scriptwright.Document
