import Scriptwright.Proofs.Document.Imports
import Scriptwright.Proofs.Document.Written
import Mathlib.Data.List.Induction

/-!
# The automatic import

A document with components imports the component library by itself, unless one of its modules or
libraries does so. The main statement says of every accepted document when that is, and what stands
in the import: the hooks of the library that function components use, each once, in the order of
first use.
-/

namespace Scriptwright

namespace Document

open Script Schema

/-! ## Names in the order of first use -/

theorem distinct_concat (names : List String) (n : String) :
    distinct (names ++ [n]) = if n ∈ distinct names then distinct names
      else distinct names ++ [n] := by
  simp [distinct, List.foldl_append]

theorem mem_distinct {names : List String} {n : String} : n ∈ distinct names ↔ n ∈ names := by
  induction names using List.reverseRecOn with
  | nil => exact Iff.rfl
  | append_singleton front m ih =>
    rw [distinct_concat, List.mem_append, List.mem_singleton]
    by_cases hm : m ∈ distinct front
    · rw [if_pos hm, ih]
      refine ⟨.inl, fun hn => hn.elim id fun he => ?_⟩
      subst he
      exact ih.mp hm
    · rw [if_neg hm, List.mem_append, List.mem_singleton, ih]

theorem nodup_distinct (names : List String) : (distinct names).Nodup := by
  induction names using List.reverseRecOn with
  | nil => exact List.nodup_nil
  | append_singleton front m ih =>
    rw [distinct_concat]
    by_cases hm : m ∈ distinct front
    · rwa [if_pos hm]
    · rw [if_neg hm, List.nodup_append]
      refine ⟨ih, List.pairwise_singleton _ m, fun a ha b hb he => hm ?_⟩
      rwa [← List.mem_singleton.mp hb, ← he]

/-- The names that are kept stand in the order in which they are first used. The induction takes
names off the end, so that the place of first use stays the same. -/
theorem pairwise_distinct (p : String → Bool) (names : List String) :
    (distinct (names.filter p)).Pairwise fun a b => names.idxOf a < names.idxOf b := by
  induction names using List.reverseRecOn with
  | nil => exact List.Pairwise.nil
  | append_singleton front m ih =>
    have hfront : ∀ a ∈ distinct (front.filter p), a ∈ front :=
      fun a ha => List.mem_of_mem_filter (mem_distinct.mp ha)
    have hkept : (distinct (front.filter p)).Pairwise fun a b =>
        (front ++ [m]).idxOf a < (front ++ [m]).idxOf b := by
      refine ih.imp_of_mem fun ha hb hlt => ?_
      rwa [List.idxOf_append_of_mem (hfront _ ha), List.idxOf_append_of_mem (hfront _ hb)]
    rw [List.filter_append]
    by_cases hp : p m = true
    · rw [List.filter_cons_of_pos hp, List.filter_nil, distinct_concat]
      by_cases hm : m ∈ distinct (front.filter p)
      · rwa [if_pos hm]
      · have hnew : m ∉ front := fun hmem => hm (mem_distinct.mpr (List.mem_filter.mpr ⟨hmem, hp⟩))
        rw [if_neg hm, List.pairwise_append]
        refine ⟨hkept, List.pairwise_singleton _ _, fun a ha b hb => ?_⟩
        rw [List.mem_singleton.mp hb, List.idxOf_append_of_mem (hfront a ha),
          List.idxOf_append_of_notMem hnew, List.idxOf_cons_self]
        exact List.idxOf_lt_length_of_mem (hfront a ha)
    · rw [List.filter_cons_of_neg hp, List.filter_nil, List.append_nil]
      exact hkept

/-! ## What is written -/

def libraryClause (used : List String) : String :=
  if used = [] then "React" else "React, \x7b " ++ ", ".intercalate used ++ " \x7d"

def libraryLine (layout : Layout) (level : Int) (used : List String) : String :=
  layout.margin level ++ "import " ++ libraryClause used ++ " from " ++
    layout.quoted libraryName ++ ";\n"

section Emission

variable {layout : Layout} {level : Int}

theorem clausesText_library (used : List String) :
    clausesText (true :: used.map fun _ => false) ("React" :: used) =
      libraryClause used ++ " from " := by
  have houtside : flagged true (true :: used.map fun _ => false) ("React" :: used) = ["React"] := by
    rw [flagged_cons, flagged_map_const]
    rfl
  have hinside : flagged false (true :: used.map fun _ => false) ("React" :: used) = used := by
    rw [flagged_cons, flagged_map_const]
    rfl
  unfold clausesText libraryClause
  rw [houtside, hinside]
  by_cases hused : used = []
  · subst hused
    rfl
  · have hopen : ∀ rest : String, "React, " ++ ("\x7b " ++ rest) = "React, \x7b " ++ rest :=
      fun rest => by
      rw [← String.append_assoc]
      rfl
    simp [hused, String.append_assoc, hopen]

def specifierNode (kind s : String) : Value := node kind [("local", identifierNode (.string s))]

def librarySpecifiers (used : List String) : List Value :=
  specifierNode "importDefaultSpecifier" "React" :: used.map (specifierNode "importSpecifier")

theorem libraryImport_eq (used : List String) :
    libraryImport used = importNode (librarySpecifiers used) (.string libraryName) := rfl

theorem emit_defaultSpecifier (s : String) :
    (nodeCode true .expression (specifierNode "importDefaultSpecifier" s)).emit layout level =
      .pure s := by
  rw [specifierNode, emit_node rfl]
  change (Code.together [.text s]).emit layout level = _
  rw [Code.emit_together_single, Code.emit_text]

theorem emit_specifier (s : String) :
    (nodeCode true .expression (specifierNode "importSpecifier" s)).emit layout level =
      .pure s := by
  rw [specifierNode, emit_node rfl]
  change (Code.together [.together [.text s]]).emit layout level = _
  rw [Code.emit_together_single, Code.emit_together_single, Code.emit_text]

theorem emitAll_librarySpecifiers (used : List String) :
    Code.emitAll layout level ((librarySpecifiers used).map (nodeCode true .expression)) =
      .pure ("React" :: used) := by
  have hused : Code.emitAll layout level
      (used.map (nodeCode true .expression ∘ specifierNode "importSpecifier")) =
      .pure (used.map id) := Code.emitAll_map fun s _ => emit_specifier s
  rw [librarySpecifiers, List.map_cons, Code.emitAll_cons, emit_defaultSpecifier, List.map_map,
    hused, List.map_id]
  rfl

theorem isClause_librarySpecifiers (used : List String) :
    (librarySpecifiers used).map Visitor.isClause = true :: used.map fun _ => false := by
  rw [librarySpecifiers, List.map_cons, List.map_map]
  rfl

theorem emit_libraryImport (used : List String) :
    (nodeCode true .statement (libraryImport used)).emit layout level =
      .pure (libraryLine layout level used) := by
  rw [libraryImport_eq, emit_importNode libraryName (emitAll_librarySpecifiers used),
    isClause_librarySpecifiers, clausesText_library, libraryLine]
  simp only [String.append_assoc]

/-- Notes in front have no text, so a line that comes first in the second part comes first
altogether. -/
theorem emit_line_first {notes line : Code} {cs : List Code} {t : String}
    (hnotes : notes.Yields (· = "")) (hline : line.emit layout level = .pure t) :
    (Code.together [notes, .together (line :: cs)]).emit layout level =
      ((Code.together [notes, .together cs]).emit layout level).map (t ++ ·) := by
  have hpair : ∀ ds, (Code.together [notes, .together ds]).emit layout level =
      (notes.emit layout level).bind fun u =>
        ((Code.together ds).emit layout level).map (u ++ ·) := by
    intro ds
    rw [Code.emit_together_cons, Code.emit_together_together, List.append_nil]
  have hfirst : (Code.together (line :: cs)).emit layout level =
      ((Code.together cs).emit layout level).map (t ++ ·) := by
    rw [Code.emit_together_cons, hline, Emission.pure_bind]
  rw [hpair, hpair, hfirst]
  funext j
  simp only [Emission.map, Emission.bind_bind, Emission.pure_bind]
  unfold Emission.bind
  cases hrun : notes.emit layout level j with
  | mk outcome k =>
    cases outcome with
    | error f => rfl
    | ok u =>
      have hu : u = "" := hnotes layout level j u k hrun
      simp [hu]

theorem yields_moduleNote (module : Value) : (moduleNote module).Yields (· = "") := by
  unfold moduleNote
  split
  · exact Code.yields_text rfl
  · exact (Code.yields_report (P := (· = "")) rfl _ _).spelling _
  · exact Code.yields_stop _

theorem yields_moduleNotes (modules : List Value) :
    (Code.together (modules.map moduleNote)).Yields (· = "") := by
  induction modules with
  | nil => exact Code.yields_together_nil rfl
  | cons m ms ih =>
    refine Code.yields_together_cons (yields_moduleNote m) ih fun t u ht hu => ?_
    rw [ht, hu]
    rfl

end Emission

/-! ## Documents -/

def withoutComponents (es : Fields) : Fields := es.filter fun e => !e.1.isKey "components"

section Components

variable {es : Fields}

theorem get?_withoutComponents {f : String} (hf : f ≠ "components") :
    Fields.get? (withoutComponents es) f = Fields.get? es f := by
  refine Fields.get?_filter fun e _ he => ?_
  rw [isKey_iff.mp he, Value.isKey, beq_eq_false_iff_ne.mpr hf]
  rfl

theorem get?_components_withoutComponents :
    Fields.get? (withoutComponents es) "components" = none := by
  have hnone : (withoutComponents es).filter (fun e => e.1.isKey "components") = [] := by
    rw [withoutComponents, List.filter_filter, List.filter_eq_nil_iff]
    simp
  rw [Fields.get?_eq_head?, hnone]
  rfl

theorem suits_withoutComponents {s : Fields} (h : Suits s es) : Suits s (withoutComponents es) := by
  intro f d v hd hv
  by_cases hf : f = "components"
  · subst hf
    rw [get?_components_withoutComponents] at hv
    cases hv
  · rw [get?_withoutComponents hf] at hv
    exact h f d v hd hv

theorem automaticImports_withoutComponents : automaticImports (withoutComponents es) = [] := by
  have hnone : Fields.get (withoutComponents es) "components" = .null := by
    rw [Fields.get, get?_components_withoutComponents]
    rfl
  rw [automaticImports, libraryDue, hnone]
  rfl

theorem importsCode_withoutComponents (hs : Suits documentFields es) :
    importsCode (withoutComponents es) =
    .together [.together ((Fields.get es "modules").yielded.map moduleNote),
      statementsCode (otherImports es)] := by
  have hget : ∀ f, f ≠ "components" → Fields.get (withoutComponents es) f = Fields.get es f := by
    intro f hf
    rw [Fields.get, Fields.get, get?_withoutComponents hf]
  have hother : otherImports (withoutComponents es) = otherImports es := by
    rw [otherImports, otherImports, hget "modules" (by decide), hget "css" (by decide),
      hget "libraries" (by decide)]
  rw [importsCode_eq (suits_withoutComponents hs), automaticImports_withoutComponents, hother,
    hget "modules" (by decide), List.nil_append]

/-- The section is that of the document without its components, with the automatic import in front
where it is due. -/
theorem emit_importsCode (hs : Suits documentFields es) (layout : Layout) (level : Int) :
    (importsCode es).emit layout level =
      if libraryDue es then ((importsCode (withoutComponents es)).emit layout level).map
        (libraryLine layout level (distinct ((hookUses es).filter hookNames.contains)) ++ ·)
      else (importsCode (withoutComponents es)).emit layout level := by
  rw [importsCode_eq hs, importsCode_withoutComponents hs, automaticImports]
  cases libraryDue es with
  | false => rfl
  | true => exact emit_line_first (yields_moduleNotes _) (emit_libraryImport _)

end Components

theorem suits_of_accepts {document : Value}
    (h : (check nodeDefinitions documentSchema document).Accepts) :
    ∃ es, document.head = .map es ∧ Suits documentFields es := by
  rw [check] at h
  cases hes : document.head with
  | map es =>
    rw [hes] at h
    exact ⟨es, rfl, suits_of_fits (accepts_checkFields.mp h)⟩
  | _ =>
    rw [hes] at h
    cases h

section Tied

variable {document : Value} {es : Fields} (htied : document.tied = true)
  (hes : document.head = .map es) (hs : Suits documentFields es)
include htied hes hs

theorem tied_of_mem_yielded {i : Fields} {f : String}
    (hi : item? documentFields f = some i) {v : Value} (hv : v ∈ (Fields.get es f).yielded) :
    v.tied = true := by
  rcases null_or_list hs hi with hnull | ⟨items, hitems⟩
  · rw [hnull] at hv
    cases hv
  · rw [Value.yielded_of_ok (Value.elementsOrNone_of_head hitems)] at hv
    refine Value.tied_of_mem_contents (Value.tied_get htied hes f) ?_
    rw [hitems]
    exact hv

omit hes hs htied in
theorem eq_string_of_typed {d : Fields} {v : Value} {path : String} (hv : v.tied = true)
    (htype : declaredType d = .string "string")
    (h : (checkValue nodeDefinitions (.map d) v path).Accepts) :
    ∃ t, v = .string t := by
  have htyped := (accepts_checkValue.mp h).2.1
  rw [htype] at htyped
  obtain ⟨t, ht⟩ := exists_text_of_checkType htyped
  exact ⟨t, Value.eq_string_of_tied hv ht⟩

theorem importTexts_of_tied : ImportTexts es where
  modules m hm inner hinner f hf := by
    have hmodules : item? documentFields "modules" = some _ := rfl
    have hmtied := tied_of_mem_yielded htied hes hs hmodules hm
    obtain ⟨inner', hinner', hsuits⟩ := record_of_yielded hs hmodules rfl hm
    cases hinner.symm.trans hinner'
    have hfield := Value.tied_get hmtied hinner f
    rw [Fields.get] at hfield
    rw [Fields.getD]
    cases hget : Fields.get? inner f with
    | none => exact ⟨"", rfl⟩
    | some v =>
      rw [hget] at hfield
      simp only [moduleTexts, List.mem_cons, List.not_mem_nil, or_false] at hf
      rcases hf with rfl | rfl | rfl
      · obtain ⟨path, haccepts⟩ := hsuits "type" _ v rfl hget
        exact eq_string_of_typed hfield rfl haccepts
      · obtain ⟨path, haccepts⟩ := hsuits "alias" _ v rfl hget
        exact eq_string_of_typed hfield rfl haccepts
      · obtain ⟨path, haccepts⟩ := hsuits "path" _ v rfl hget
        exact eq_string_of_typed hfield rfl haccepts
  others := by
    have htexts : ∀ {f : String} {i : Fields}, item? documentFields f = some i →
        declaredType i = .string "string" →
        ∀ v ∈ (Fields.get es f).yielded, ∃ t, v = .string t := by
      intro f i hi htype v hv
      obtain ⟨items, helements, -, hitems⟩ := hs.items hi
      have hvtied := tied_of_mem_yielded htied hes hs hi hv
      rw [Value.yielded_of_ok helements] at hv
      obtain ⟨path, haccepts⟩ := hitems v hv
      exact eq_string_of_typed hvtied htype haccepts
    exact List.forall_mem_append.mpr ⟨htexts (f := "css") rfl rfl,
      htexts (f := "libraries") rfl rfl⟩

end Tied

/-- The imports of an accepted document are those of the document without its components. If there
are components and neither a module nor a library is the component library, the automatic import is
in front of them. It binds the hooks of the library that function components use, each once, in the
order of first use. Without components there are the imports of modules, style sheets and libraries,
and no others. The section is written if knots stand for collections only. -/
theorem emit_imports_automatic (layout : Layout) (level : Int) (document : Value)
    (haccepts : (check nodeDefinitions documentSchema document).Accepts) :
    ∃ es used, document.fields = .ok es ∧
      used.Nodup ∧ (∀ n, n ∈ used ↔ n ∈ hookNames ∧ n ∈ hookUses es) ∧
      used.Pairwise (fun a b => (hookUses es).idxOf a < (hookUses es).idxOf b) ∧
      (sectionOf .imports document).emit layout level =
        (if libraryDue es then ((sectionOf .imports (.map (withoutComponents es))).emit
          layout level).map
          (libraryLine layout level used ++ ·)
        else (sectionOf .imports (.map (withoutComponents es))).emit layout level) ∧
      sectionOf .imports (.map (withoutComponents es)) =
        .together [.together ((Fields.get es "modules").yielded.map moduleNote),
          statementsCode ((Fields.get es "modules").yielded.filterMap moduleNode? ++
            ((Fields.get es "css").yielded ++ (Fields.get es "libraries").yielded).map
              (importNode []))] ∧
      (document.tied = true → ∀ j, ∃ text,
        ((sectionOf .imports document).emit layout level j).1 = .ok text) := by
  obtain ⟨es, hes, hs⟩ := suits_of_accepts haccepts
  have hfields : document.fields = .ok es := by rw [Value.fields, hes]
  have hsection : sectionOf .imports document = importsCode es := by
    rw [sectionOf, hfields]
    rfl
  refine ⟨es, distinct ((hookUses es).filter hookNames.contains), hfields, nodup_distinct _,
    fun n => ?_, pairwise_distinct _ _, ?_, importsCode_withoutComponents hs, fun htied j => ?_⟩
  · rw [mem_distinct, List.mem_filter, List.contains_iff_mem, and_comm]
  · rw [hsection]
    exact emit_importsCode hs layout level
  · rw [← isOk_iff, Code.isOk_emit, hsection]
    exact returns_importsCode hs (importTexts_of_tied htied hes hs)

/-- A class component, whose hooks do not count, between two function components, which have a hook
in common. -/
theorem emit_imports_automatic_components :
    let hook (name : String) := Value.record [("name", .string name), ("params", .list [])]
    let component (kind : String) (hooks : List Value) :=
      Value.record [("type", .string kind), ("name", .string "C"), ("hooks", .list hooks),
        ("jsx", .list [])]
    let modules :=
      ("modules", Value.list [.record [("type", .string "default"), ("alias", .string "x"),
        ("path", .string "./react")]])
    let libraries := ("libraries", Value.list [.string "react-dom"])
    let document := Value.record [modules, libraries, ("components", .list [
      component "function" [hook "useMemo", hook "useTheme"],
      component "class" [hook "useRef"],
      component "function" [hook "useState", hook "useMemo"]])]
    let uses := ["useMemo", "useTheme", "useState", "useMemo"]
    let layout : Layout := ⟨{}⟩
    (check nodeDefinitions documentSchema document).Accepts ∧
      ∃ used, used.Nodup ∧ (∀ n, n ∈ used ↔ n ∈ hookNames ∧ n ∈ uses) ∧
        used.Pairwise (fun a b => uses.idxOf a < uses.idxOf b) ∧
        (sectionOf .imports document).emit layout 0 =
          ((sectionOf .imports (.record [modules, libraries])).emit layout 0).map
            (libraryLine layout 0 used ++ ·) ∧
        ∀ j, ∃ text, ((sectionOf .imports document).emit layout 0 j).1 = .ok text := by
  intro hook component modules libraries document uses layout
  have haccepts : (check nodeDefinitions documentSchema document).Accepts := by decide +kernel
  obtain ⟨es, used, hfields, hnodup, hmem, horder, hemit, -, hwritten⟩ :=
    emit_imports_automatic layout 0 document haccepts
  cases hfields
  exact ⟨haccepts, used, hnodup, hmem, horder, hemit, hwritten rfl⟩

end Document

end Scriptwright
