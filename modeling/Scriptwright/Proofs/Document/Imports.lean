import Scriptwright.Proofs.Document.Sections

/-!
# Imports that fit

What an accepted document imports. Each question that the automatic import asks of the document has
an answer in terms of the values that its fields yield, and the section is the code of the nodes
that are found that way.
-/

namespace Scriptwright

/-! ## Knots that stand for collections -/

def Cell.isScalar : Cell → Bool
  | .scalar _ => true
  | _ => false

namespace Value

/-- Whether a value is not a knot that stands for something without parts. -/
def isTied : Value → Bool
  | .knot cells place _ => !(cells[place]?).any Cell.isScalar
  | _ => true

def tied (v : Value) : Bool := v.everywhere isTied

theorem tied_atPlace (cells : List Cell) (turns place : Nat) :
    (atPlace cells turns place).tied = true := by
  have hknot : (knot cells place turns).tied = !(cells[place]?).any Cell.isScalar := rfl
  unfold atPlace
  cases hcell : cells[place]? with
  | none =>
    rw [hcell] at hknot
    exact hknot
  | some cell =>
    rw [hcell] at hknot
    cases cell with
    | scalar s => cases s <;> rfl
    | set members => rfl
    | _ => exact hknot

def contents : Value → List Value
  | .list items => items
  | .map entries => entries.map (·.2)
  | _ => []

theorem tied_of_mem_contents {v w : Value} (h : v.tied = true) (hw : w ∈ v.head.contents) :
    w.tied = true := by
  cases v with
  | list items => exact everywhere_of_mem_items h hw
  | map entries =>
    obtain ⟨e, he, rfl⟩ := List.mem_map.mp hw
    exact everywhere_of_mem_entries h he
  | knot cells place turns =>
    cases turns with
    | zero => cases hw
    | succ turns =>
      rw [head] at hw
      cases hcell : cells[place]? with
      | none => simp [hcell, contents] at hw
      | some cell =>
        rw [hcell] at hw
        -- what a cell holds is found at places
        cases cell with
        | scalar s => cases s <;> cases hw
        | list items =>
          obtain ⟨i, -, rfl⟩ := List.mem_map.mp hw
          exact tied_atPlace cells turns i
        | map entries =>
          obtain ⟨e, he, rfl⟩ := List.mem_map.mp hw
          obtain ⟨x, -, rfl⟩ := List.mem_map.mp he
          exact tied_atPlace cells turns x.2
        | _ => cases hw
  | _ => cases hw

theorem tied_get {v : Value} {es : Fields} (h : v.tied = true) (hes : v.head = .map es)
    (f : String) :
    (Fields.get es f).tied = true := by
  rw [Fields.get]
  cases hf : Fields.get? es f with
  | none => rfl
  | some w =>
    obtain ⟨k, hk⟩ := Fields.mem_of_get? hf
    refine tied_of_mem_contents h ?_
    rw [hes]
    exact List.mem_map.mpr ⟨(k, w), hk, rfl⟩

/-- A text is not hidden in a knot. -/
theorem eq_string_of_tied {v : Value} {t : String} (h : v.tied = true) (hv : v.head = .string t) :
    v = .string t := by
  cases v with
  | string s => exact hv
  | knot cells place turns =>
    have htied : (!(cells[place]?).any Cell.isScalar) = true := h
    cases turns with
    | zero => cases hv
    | succ turns =>
      rw [head] at hv
      cases hcell : cells[place]? with
      | none => simp [hcell] at hv
      | some cell =>
        rw [hcell] at hv htied
        cases cell with
        | scalar s => cases htied
        | _ => cases hv
  | _ => cases hv

end Value

namespace Document

open Script Schema

def documentFields : Fields :=
  match documentSchema with
  | .map fields => fields
  | _ => []

/-! ## What the import depends on -/

/-- The names of the hooks of a component, none if it is not a function component. -/
def hookUsesOf (component : Value) : List String :=
  if (entry component "type").isKey "function" then
    (entry component "hooks").yielded.filterMap fun hook => (entry hook "name").asText?
  else []

def hookUses (document : Fields) : List String :=
  (Fields.get document "components").yielded.flatMap hookUsesOf

/-- Whether there is a component and neither a module nor a library that is the component library.
-/
def libraryDue (document : Fields) : Bool :=
  !(Fields.get document "components").yielded.isEmpty &&
    !(Fields.get document "modules").yielded.any (fun m => (entry m "path").isKey libraryName) &&
    !(Fields.get document "libraries").yielded.any (Value.isKey libraryName)

section Suited

variable {s es : Fields} {f : String}

theorem entry_of_head {v : Value} (h : v.head = .map es) : entry v f = Fields.get es f := by
  rw [entry, h]

theorem ask_of_head {v : Value} (h : v.head = .map es) : ask v f = .ok (entry v f) := by
  rw [ask, Value.fields, h, entry_of_head h]
  rfl

theorem collect_eq_map {α : Type} {g : Value → Except Fault α} {a : Value → α} {vs : List Value}
    (h : ∀ v ∈ vs, g v = .ok (a v)) : collect g vs = .ok (vs.map a) := by
  induction vs with
  | nil => rfl
  | cons v vs ih =>
    obtain ⟨hv, hvs⟩ := List.forall_mem_cons.mp h
    rw [collect, hv, ih hvs]
    rfl

theorem null_or_list {i : Fields} (h : Suits s es) (hi : item? s f = some i) :
    Fields.get es f = .null ∨ ∃ items, (Fields.get es f).head = .list items := by
  obtain ⟨d, hd, hitem⟩ := Option.bind_eq_some_iff.mp hi
  split at hitem
  · next htype =>
    rcases h.field hd with hnull | ⟨path, haccepts⟩
    · exact .inl hnull
    · obtain ⟨items, hitems, -⟩ :=
        items_of_accepts (isKey_iff.mp htype) (get_eq_of_nested hitem) haccepts
      exact .inr ⟨items, hitems⟩
  · cases hitem

theorem elementsOrNone_eq_yielded {i : Fields} (h : Suits s es) (hi : item? s f = some i) :
    (Fields.get es f).elementsOrNone = .ok (Fields.get es f).yielded := by
  obtain ⟨items, hitems, -⟩ := h.items hi
  rw [Value.yielded_of_ok hitems, hitems]

theorem truthy_eq_yielded {i : Fields} (h : Suits s es) (hi : item? s f = some i) :
    (Fields.get es f).truthy = !(Fields.get es f).yielded.isEmpty := by
  rcases null_or_list h hi with hnull | ⟨items, hitems⟩
  · rw [hnull]
    rfl
  · rw [Value.yielded_of_ok (Value.elementsOrNone_of_head hitems), Value.truthy, hitems]

theorem mentions_eq_yielded {i : Fields} (h : Suits s es) (hi : item? s f = some i)
    (htruthy : (Fields.get es f).truthy = true) (name : String) :
    mentions name (Fields.get es f) = .ok ((Fields.get es f).yielded.any (Value.isKey name)) := by
  rcases null_or_list h hi with hnull | ⟨items, hitems⟩
  · rw [hnull] at htruthy
    cases htruthy
  · rw [Value.yielded_of_ok (Value.elementsOrNone_of_head hitems), mentions, hitems]

end Suited

theorem anyIsLibrary_eq {ms : List Value} (h : ∀ m ∈ ms, ∃ es, m.head = .map es) :
    anyIsLibrary ms = .ok (ms.any fun m => (entry m "path").isKey libraryName) := by
  induction ms with
  | nil => rfl
  | cons m ms ih =>
    obtain ⟨⟨es, hes⟩, hms⟩ := List.forall_mem_cons.mp h
    rw [anyIsLibrary, ask_of_head hes, ok_bind, List.any_cons]
    cases (entry m "path").isKey libraryName with
    | true => rfl
    | false => exact ih hms

theorem hooksOf_eq {c : Value} {es : Fields} (hc : c.head = .map es)
    (hs : Suits (Fields.ofTexts componentSchema) es) :
    hooksOf c = .ok ((hookUsesOf c).filter hookNames.contains) := by
  have hi : item? (Fields.ofTexts componentSchema) "hooks" = some _ := rfl
  have hhooks : (entry c "hooks").elementsOrNone = .ok (entry c "hooks").yielded := by
    rw [entry_of_head hc]
    exact elementsOrNone_eq_yielded hs hi
  have hnames : collect (ask · "name") (entry c "hooks").yielded =
      .ok ((entry c "hooks").yielded.map fun hook => entry hook "name") := by
    refine collect_eq_map fun hook hhook => ?_
    rw [entry_of_head hc] at hhook
    obtain ⟨inner, hinner, -⟩ := record_of_yielded hs hi rfl hhook
    exact ask_of_head hinner
  rw [hooksOf, ask_of_head hc, ok_bind, hookUsesOf]
  cases (entry c "type").isKey "function" with
  | false => rfl
  | true =>
    rw [ask_of_head hc, ok_bind, hhooks, ok_bind, hnames, ok_bind, List.filterMap_map]
    rfl

section Document

variable {es : Fields} (hs : Suits documentFields es)
include hs

theorem automaticImport_eq : automaticImport es (Fields.get es "modules") =
    .ok (if libraryDue es then some (libraryImport
      (distinct ((hookUses es).filter hookNames.contains))) else none) := by
  have hcomponents : item? documentFields "components" = some _ := rfl
  have hmodules : item? documentFields "modules" = some _ := rfl
  have hlibraries : item? documentFields "libraries" = some _ := rfl
  have hany : anyIsLibrary (Fields.get es "modules").yielded = .ok _ :=
    anyIsLibrary_eq fun m hm => by
    obtain ⟨inner, hinner, -⟩ := record_of_yielded hs hmodules rfl hm
    exact ⟨inner, hinner⟩
  have hused : collect hooksOf (Fields.get es "components").yielded = .ok _ :=
    collect_eq_map fun c hc => by
    obtain ⟨inner, hinner, hsuits⟩ := record_of_yielded hs hcomponents rfl hc
    exact hooksOf_eq hinner hsuits
  have hflat : ((Fields.get es "components").yielded.map fun c =>
      (hookUsesOf c).filter hookNames.contains).flatten =
      (hookUses es).filter hookNames.contains := by
    rw [hookUses, List.filter_flatMap, List.flatMap_def]
  have hdue : libraryDue es = ((Fields.get es "components").truthy &&
      !(Fields.get es "modules").yielded.any (fun m => (entry m "path").isKey libraryName) &&
      !(Fields.get es "libraries").yielded.any (Value.isKey libraryName)) := by
    rw [libraryDue, truthy_eq_yielded hs hcomponents]
  rw [hdue]
  simp only [automaticImport, elementsOrNone_eq_yielded hs hmodules, ok_bind, hany]
  cases hgiven : (Fields.get es "components").truthy with
  | false => rfl
  | true =>
    have hitems : (Fields.get es "components").elements =
        .ok (Fields.get es "components").yielded := by
      rw [← elementsOrNone_eq_yielded hs hcomponents, Value.elementsOrNone, if_pos hgiven]
    rw [hitems, ok_bind, hused, ok_bind, hflat]
    cases (Fields.get es "modules").yielded.any fun m => (entry m "path").isKey libraryName with
    | true => rfl
    | false =>
      cases hlisted : (Fields.get es "libraries").truthy with
      | false =>
        rw [truthy_eq_yielded hs hlibraries] at hlisted
        have hnone : (Fields.get es "libraries").yielded = [] := by simpa using hlisted
        rw [hnone]
        rfl
      | true =>
        rw [mentions_eq_yielded hs hlibraries hlisted, ok_bind]
        cases (Fields.get es "libraries").yielded.any (Value.isKey libraryName) with
        | true => rfl
        | false => rfl

/-- The imports that are not automatic: those of modules, style sheets and libraries. -/
def otherImports (es : Fields) : List Value :=
  (Fields.get es "modules").yielded.filterMap moduleNode? ++
    ((Fields.get es "css").yielded ++ (Fields.get es "libraries").yielded).map (importNode [])

def automaticImports (es : Fields) : List Value :=
  if libraryDue es then [libraryImport (distinct ((hookUses es).filter hookNames.contains))] else []

theorem importsCode_eq : importsCode es =
    .together [.together ((Fields.get es "modules").yielded.map moduleNote),
      statementsCode (automaticImports es ++ otherImports es)] := by
  have hmodules : item? documentFields "modules" = some _ := rfl
  have hsheets : item? documentFields "css" = some _ := rfl
  have hlibraries : item? documentFields "libraries" = some _ := rfl
  have hautomatic : (if libraryDue es then
      some (libraryImport (distinct ((hookUses es).filter hookNames.contains)))
      else none).toList = automaticImports es := by
    rw [automaticImports]
    cases libraryDue es with
    | true => rfl
    | false => rfl
  simp only [importsCode, automaticImport_eq hs, elementsOrNone_eq_yielded hs hmodules,
    plainImports, elementsOrNone_eq_yielded hs hsheets, elementsOrNone_eq_yielded hs hlibraries,
    ok_bind, hautomatic]
  rw [otherImports, ← List.append_assoc]
  rfl

end Document

/-! ## Imports are written -/

theorem returns_libraryImport (used : List String) :
    (nodeCode true .statement (libraryImport used)).Returns := by
  refine (returns_import _ _).mpr (List.forall_mem_cons.mpr ⟨returns_specifier _ (by decide), ?_⟩)
  exact List.forall_mem_map.mpr fun s _ => returns_specifier _ (by decide)

def moduleTexts : List String := ["type", "alias", "path"]

/-- Whether everything that imports are made of is a text. -/
structure ImportTexts (es : Fields) : Prop where
  modules : ∀ m ∈ (Fields.get es "modules").yielded, ∀ inner, m.head = .map inner →
    ∀ f ∈ moduleTexts, ∃ t, Fields.getD inner f (.string "") = .string t
  others : ∀ v ∈ (Fields.get es "css").yielded ++ (Fields.get es "libraries").yielded, ∃ t,
    v = .string t

/-- What becomes of a module: an import that can be written, or a kind that can be reported. -/
def ModuleWritten : Value ⊕ Value → Prop
  | .inl n => (nodeCode true .statement n).Returns
  | .inr kind => kind.writable = true

theorem exists_moduleImport {module : Value} {es : Fields} (hmodule : module.head = .map es)
    (htexts : ∀ f ∈ moduleTexts, ∃ t, Fields.getD es f (.string "") = .string t) :
    ∃ r, moduleImport module = .ok r ∧ ModuleWritten r := by
  obtain ⟨names, hnames⟩ := htexts "alias" (by decide)
  obtain ⟨path, hpath⟩ := htexts "path" (by decide)
  have hkind : (Fields.get es "type").writable = true := by
    obtain ⟨t, ht⟩ := htexts "type" (by decide)
    rw [Fields.getD] at ht
    rw [Fields.get]
    cases hfield : Fields.get? es "type" with
    | none => rfl
    | some v =>
      rw [hfield, Option.getD_some] at ht
      rw [Option.getD_some, ht]
      rfl
  simp only [moduleImport, hmodule, hnames, hpath, aliasNodes, Except.map]
  split
  · refine ⟨_, rfl, (returns_import _ _).mpr (List.forall_mem_singleton.mpr ?_)⟩
    exact returns_specifier _ (by decide)
  · split
    · refine ⟨_, rfl, (returns_import _ _).mpr (List.forall_mem_singleton.mpr ?_)⟩
      exact returns_specifier _ (by decide)
    · split
      · exact ⟨_, rfl, (returns_import _ _).mpr (List.forall_mem_map.mpr fun p _ =>
          returns_aliased _ _)⟩
      · exact ⟨_, rfl, hkind⟩

theorem returns_importsCode {es : Fields} (hs : Suits documentFields es) (htexts : ImportTexts es) :
    (importsCode es).Returns := by
  have himport : ∀ m ∈ (Fields.get es "modules").yielded, ∃ r, moduleImport m = .ok r ∧
      ModuleWritten r := by
    intro m hm
    obtain ⟨inner, hinner, -⟩ := record_of_yielded hs (f := "modules") rfl rfl hm
    exact exists_moduleImport hinner (htexts.modules m hm inner hinner)
  have hnotes : ∀ m ∈ (Fields.get es "modules").yielded, (moduleNote m).Returns := by
    intro m hm
    obtain ⟨r, hr, hwritten⟩ := himport m hm
    rw [moduleNote, hr]
    cases r with
    | inl n => trivial
    | inr kind => exact Code.returns_spelling.mpr ⟨hwritten, trivial⟩
  have hautomatic : ∀ n ∈ automaticImports es, (nodeCode true .statement n).Returns := by
    rw [automaticImports]
    split
    · exact List.forall_mem_singleton.mpr (returns_libraryImport _)
    · exact List.forall_mem_nil _
  have hother : ∀ n ∈ otherImports es, (nodeCode true .statement n).Returns := by
    refine List.forall_mem_append.mpr ⟨fun n hn => ?_, ?_⟩
    · obtain ⟨m, hm, hsome⟩ := List.mem_filterMap.mp hn
      obtain ⟨r, hr, hreturns⟩ := himport m hm
      rw [moduleNode?, hr] at hsome
      cases r with
      | inl k =>
        cases hsome
        exact hreturns
      | inr kind => cases hsome
    · refine List.forall_mem_map.mpr fun v hv => ?_
      obtain ⟨t, rfl⟩ := htexts.others v hv
      exact (returns_import _ _).mpr (List.forall_mem_nil _)
  rw [importsCode_eq hs, Code.returns_together, List.forall_mem_cons, List.forall_mem_singleton,
    Code.returns_together, statementsCode, Code.returns_together]
  exact ⟨List.forall_mem_map.mpr hnotes,
    List.forall_mem_map.mpr (List.forall_mem_append.mpr ⟨hautomatic, hother⟩)⟩

end Document

end Scriptwright
