import Scriptwright.Compile
import Scriptwright.Proofs.Script.Frame
import Scriptwright.Proofs.Script.WholeLines
import Scriptwright.Proofs.Value.Fields

/-!
# Documents section by section

A section looks at its own fields of the document and at nothing else, is written in whole lines,
and notes what it would note alone. So a document can be taken apart into its sections, the order of
its fields does not matter, and fields that no section knows have no effect.
-/

namespace Scriptwright

namespace Document

open Script

/-! ## What a section reads -/

namespace Section

/-- The fields of a document that a section reads. -/
def keys : Section → List String
  | .imports => ["modules", "css", "libraries", "components"]
  | .bindings => ["variables", "objects", "arrays"]
  | .classes => ["classes"]
  | .functions => ["functions"]
  | .conditions => ["conditions"]
  | .loops => ["loops"]
  | .exceptions => ["exceptions"]
  | .components => ["components"]

def declared : List String := all.flatMap keys

def own (s : Section) (es : Fields) : Fields := es.filter fun e => s.keys.any fun k => e.1.isKey k

theorem get_own {s : Section} {k : String} (hk : k ∈ s.keys) (es : Fields) :
    Fields.get (s.own es) k = Fields.get es k := by
  rw [Fields.get, Fields.get, own, Fields.get?_filter fun e _ he =>
    List.any_eq_true.mpr ⟨k, hk, he⟩]

/-- The code of a section is a function of the fields it reads. -/
theorem code_congr {s : Section} {es es' : Fields}
    (h : ∀ k ∈ s.keys, Fields.get es' k = Fields.get es k) :
    s.code es' = s.code es := by
  cases s with
  | imports =>
    have hmodules := h "modules" (by decide)
    have hcss := h "css" (by decide)
    have hlibraries := h "libraries" (by decide)
    have hcomponents := h "components" (by decide)
    simp only [code, importsCode, automaticImport, plainImports, hmodules, hcss, hlibraries,
      hcomponents]
  | bindings =>
    have hvariables := h "variables" (by decide)
    have hobjects := h "objects" (by decide)
    have harrays := h "arrays" (by decide)
    simp only [code, bindingsCode, hvariables, hobjects, harrays]
  | classes => simp only [code, classesCode, h "classes" (by decide)]
  | functions => simp only [code, functionsCode, h "functions" (by decide)]
  | conditions => simp only [code, conditionsCode, h "conditions" (by decide)]
  | loops => simp only [code, loopsCode, h "loops" (by decide)]
  | exceptions => simp only [code, exceptionsCode, h "exceptions" (by decide)]
  | components => simp only [code, componentsCode, h "components" (by decide)]

theorem code_own (s : Section) (es : Fields) : s.code (s.own es) = s.code es :=
  code_congr fun _ hk => get_own hk es

end Section

theorem sectionOf_own (s : Section) (es : Fields) : sectionOf s (.map (s.own es)) = s.code es :=
  s.code_own es

theorem code_of_fields {document : Value} {es : Fields} (h : document.fields = .ok es) :
    code document = .shaped (.inked "\n") (Section.all.map fun s => s.code es) := by
  rw [code, h]
  rfl

theorem code_of_perm {document : Value} {es es' extra : Fields} (h : document.fields = .ok es)
    (hdistinct : Fields.Distinct es) (hperm : es'.Perm (es ++ extra))
    (hextra : ∀ e ∈ extra, ∀ k ∈ Section.declared, e.1.isKey k = false) :
    code (.map es') = code document := by
  have hes' : (Value.map es').fields = .ok es' := rfl
  rw [code_of_fields h, code_of_fields hes']
  congr 1
  refine List.map_congr_left fun s hs => Section.code_congr fun k hk => ?_
  have hdeclared : k ∈ Section.declared := List.mem_flatMap.mpr ⟨s, hs, hk⟩
  rw [Fields.get, Fields.get, Fields.get?_of_perm hdistinct hperm fun e he =>
    hextra e he k hdeclared]

/-! ## Sections are whole lines -/

theorem lands_statementsCode (nodes : List Value) : (statementsCode nodes).Lands .start .start := by
  refine lands_together_of_forall fun c hc => ?_
  obtain ⟨v, -, rfl⟩ := List.mem_map.mp hc
  exact lands_statement true v

theorem lands_sectionCode (nodes : Except Fault (List Value)) :
    (sectionCode nodes).Lands .start .start := by
  refine Code.yields_ofExcept fun c hc => ?_
  obtain ⟨vs, -, rfl⟩ := exists_of_map_eq_ok hc
  exact lands_statementsCode vs

theorem endsLine_intercalate {mark : String} {ts : List String} (hne : ts ≠ [])
    (h : ∀ t ∈ ts, Text.endsLine t.toList = true) :
    Text.endsLine (mark.intercalate ts).toList = true := by
  induction ts with
  | nil => exact absurd rfl hne
  | cons t ts ih =>
    obtain ⟨ht, hts⟩ := List.forall_mem_cons.mp h
    cases ts with
    | nil => simpa using ht
    | cons u us =>
      have hrest := ih (List.cons_ne_nil u us) hts
      have hinked : (mark.intercalate (u :: us)).toList ≠ [] := by
        intro hnil
        rw [hnil] at hrest
        cases hrest
      rw [String.intercalate_cons_cons, String.toList_append, endsLine_append hinked, hrest]

/-- Blocks of whole lines that are set apart by a mark are whole lines. -/
theorem lands_inked {mark : String} {cs : List Code} (h : ∀ c ∈ cs, c.Lands .start .start) :
    (Code.shaped (.inked mark) cs).Lands .start .start := by
  refine Code.yields_shaped (Code.yieldAll_forall h) fun ts hts _ => ?_
  rw [Shape.apply]
  by_cases hnil : ts.filter (· != "") = []
  · exact Or.inl ⟨by rw [hnil]; rfl, rfl⟩
  · refine Or.inr (endsLine_intercalate hnil fun t ht => ?_)
    obtain ⟨hmem, hinked⟩ := List.mem_filter.mp ht
    rcases hts t hmem rfl with ⟨rfl, -⟩ | hends
    · cases hinked
    · exact hends

theorem lands_moduleNote (module : Value) : (moduleNote module).Lands .start .start := by
  unfold moduleNote
  split
  · exact lands_nothing
  · exact (Code.yields_report (Side.lands_nil _) _ _).spelling _
  · exact Code.yields_stop _

theorem lands_conditionNote (spec : Value) : (conditionNote spec).Lands .start .start := by
  unfold conditionNote
  split
  · exact Code.yields_warn (Side.lands_nil _) _
  · exact lands_nothing
  · exact Code.yields_stop _

/-- A component ends with the line of its closing brace. -/
theorem lands_componentCode (v : Value) : (componentCode v).Lands .start .start := by
  have hclose : ∀ name : Value, Code.LandAll .mid .start [.spelling name (.text "\x7d\n")] :=
    fun name =>
    landAll_cons ((Code.yields_text (Side.lands_lineEnd .mid "\x7d")).spelling name) landAll_nil
  have hopen : ∀ {a : Side} (c : Code), c.Lands a .mid := fun c => lands_of_ne (by decide) c
  unfold componentCode
  split
  · dsimp only
    split
    · split
      · exact Code.yields_stop _
      · split
        · exact lands_together (landAll_cons (hopen _) (landAll_cons (hopen _) (hclose _)))
        · exact lands_together (landAll_cons (hopen _)
            (landAll_cons (hopen _) (landAll_cons (hopen _) (hclose _))))
    · exact (Code.yields_report (Side.lands_nil _) _ _).spelling _
  · exact Code.yields_stop _

theorem lands_section (s : Section) (es : Fields) : (s.code es).Lands .start .start := by
  cases s with
  | imports =>
    unfold Section.code importsCode
    dsimp only
    split
    · exact Code.yields_stop _
    · split
      · exact Code.yields_stop _
      · refine lands_together (landAll_cons (lands_together_of_forall fun c hc => ?_)
          (landAll_cons (lands_sectionCode _) landAll_nil))
        obtain ⟨module, -, rfl⟩ := List.mem_map.mp hc
        exact lands_moduleNote module
  | conditions =>
    unfold Section.code conditionsCode
    dsimp only
    split
    · exact Code.yields_stop _
    · refine lands_together (landAll_cons (lands_together_of_forall fun c hc => ?_)
        (landAll_cons (lands_sectionCode _) landAll_nil))
      obtain ⟨spec, -, rfl⟩ := List.mem_map.mp hc
      exact lands_conditionNote spec
  | loops =>
    unfold Section.code loopsCode
    dsimp only
    split_ifs
    · exact lands_sectionCode _
    · exact lands_nothing
  | components =>
    refine Code.yields_ofExcept fun c hc => ?_
    obtain ⟨vs, -, rfl⟩ := exists_of_map_eq_ok hc
    refine lands_inked fun d hd => ?_
    obtain ⟨v, -, rfl⟩ := List.mem_map.mp hd
    exact lands_componentCode v
  | bindings => exact lands_sectionCode _
  | classes => exact lands_sectionCode _
  | functions => exact lands_sectionCode _
  | exceptions => exact lands_sectionCode _

/-! ## Whole documents -/

theorem eq_empty_or_eq_append {t : String} (h : Side.start.Lands .start t) :
    t = "" ∨ ∃ lines, t = lines ++ "\n" := by
  rcases h rfl with ⟨rfl, -⟩ | hends
  · exact Or.inl rfl
  · obtain ⟨cs, hcs⟩ := List.getLast?_eq_some_iff.mp (beq_iff_eq.mp hends)
    refine Or.inr ⟨String.ofList cs, String.toList_injective ?_⟩
    rw [hcs, String.toList_append, String.toList_ofList]
    rfl

/-- The text of a document is made of the texts that its sections have alone, each from its own
fields, with one line break between those that are not empty; all of them are whole lines. Its
diagnostics are those of the sections. Neither the order of the fields nor fields that no section
reads make a difference. -/
theorem emitCode_eq_sections (layout : Layout) (source : Option String) (document : Value) :
    (∀ text journal, emitCode layout source (code document) = (.ok text, journal) →
      ∃ es parts, document.fields = .ok es ∧
        List.Forall₂ (fun (s : Section) part =>
          emitCode layout source (sectionOf s (.map (s.own es))) = (.ok part.1, part.2) ∧
            (part.1 = "" ∨ ∃ lines, part.1 = lines ++ "\n")) Section.all parts ∧
        text = "\n".intercalate ((parts.map Prod.fst).filter (· != "")) ∧
        (text = "" ∨ ∃ lines, text = lines ++ "\n") ∧
        journal.diagnostics = parts.flatMap fun part => part.2.diagnostics) ∧
    ∀ es es' extra, document.fields = .ok es → Fields.Distinct es → es'.Perm (es ++ extra) →
      (∀ e ∈ extra, ∀ k ∈ Section.declared, e.1.isKey k = false) →
      emitCode layout source (code (.map es')) = emitCode layout source (code document) := by
  refine ⟨fun text journal h => ?_, fun es es' extra hes hdistinct hperm hextra => ?_⟩
  · cases hes : document.fields with
    | error f =>
      rw [emitCode, code, hes] at h
      cases h
    | ok es =>
      rw [emitCode, code_of_fields hes] at h
      have hsections : ∀ c ∈ Section.all.map fun s => s.code es, c.Lands .start .start := by
        intro c hc
        obtain ⟨s, -, rfl⟩ := List.mem_map.mp hc
        exact lands_section s es
      have hwhole := eq_empty_or_eq_append (lands_inked hsections _ _ _ _ _ h)
      rw [Code.emit_shaped] at h
      obtain ⟨ts, k, hts, hpure⟩ := Emission.exists_of_bind_eq_ok h
      obtain ⟨rs, hrs, rfl, rfl⟩ := Code.exists_of_emitAll_eq_ok hts
      obtain ⟨htext, rfl⟩ := Prod.mk.inj hpure
      cases htext
      rw [List.forall₂_map_left_iff] at hrs
      refine ⟨es, rs, rfl, hrs.imp fun s r hr => ?_, rfl, hwhole, ?_⟩
      · rw [emitCode, sectionOf_own]
        exact ⟨hr, eq_empty_or_eq_append (lands_section s es _ _ _ _ _ hr)⟩
      · exact List.filterMap_flatMap
  · rw [code_of_perm hes hdistinct hperm hextra]

def mixed : Fields :=
  [(.string "conditions", .list
    [.record [("execute", .list [.record [("type", .string "mystery")]])]]), (.string "remark",
      .string "later"), (.string "variables", .record [("a", .int 1)]),
    (.string "css", .list [.string "a.css"])]

theorem emitCode_eq_sections_mixed :
    let layout : Layout := ⟨{ indentStyle := "tabs" }⟩
    ∃ text journal es parts, emitCode layout none (code (.map mixed)) = (.ok text, journal) ∧
      text = "import 'a.css';\n\nlet a = 1;\n\n\x7b\n\x7d\n" ∧
      List.Forall₂ (fun (s : Section) part =>
        emitCode layout none (sectionOf s (.map (s.own es))) = (.ok part.1, part.2) ∧
          (part.1 = "" ∨ ∃ lines, part.1 = lines ++ "\n")) Section.all parts ∧
      text = "\n".intercalate ((parts.map Prod.fst).filter (· != "")) ∧
      journal.diagnostics = parts.flatMap (fun part => part.2.diagnostics) ∧
        journal.diagnostics.length = 1 ∧
      emitCode layout none (code (.map ((.string "author", .null) :: mixed.reverse))) =
        (.ok text, journal) := by
  intro layout
  have hrun : (emitCode layout none (code (.map mixed))).1.toOption =
        some "import 'a.css';\n\nlet a = 1;\n\n\x7b\n\x7d\n" ∧
      (emitCode layout none (code (.map mixed))).2.diagnostics.length = 1 := by
    decide +kernel
  have hperm : ((.string "author", .null) :: mixed.reverse).Perm
      (mixed ++ [(.string "author", .null)]) :=
    (List.perm_append_singleton _ _).symm.trans ((List.reverse_perm mixed).append_right _)
  have hsame := (emitCode_eq_sections layout none (.map mixed)).2 mixed _
    [(.string "author", .null)] rfl
    (by unfold Fields.Distinct; decide +kernel) hperm (by decide +kernel)
  have hsections := (emitCode_eq_sections layout none (.map mixed)).1
  generalize emitCode layout none (code (.map mixed)) = run at *
  obtain ⟨outcome, journal⟩ := run
  cases outcome with
  | error f => cases hrun.1
  | ok text =>
    obtain ⟨es, parts, -, hparts, htext, -, hdiagnostics⟩ := hsections text journal rfl
    exact ⟨text, journal, es, parts, rfl, Option.some.inj hrun.1, hparts, htext, hdiagnostics,
      hrun.2, hsame⟩

end Document

end Scriptwright
