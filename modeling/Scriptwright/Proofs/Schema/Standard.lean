import Scriptwright.Schema.Nodes
import Scriptwright.Schema.Standard
import Scriptwright.Proofs.Schema.FirstViolation
import Scriptwright.Proofs.Schema.Acceptance

/-!
# The check of documents

The standard schema names known types and definitions only, so a document is accepted, or a missing
field or a wrong type is reported, unless the check fails to look up the tag of a node. Statements,
expressions and markup are asked for a tag that is a text before it is looked up. A mapping that
stands for a name is not: the main statement is that the check fails exactly if it comes to such a
mapping with a collection for a tag.
-/

namespace Scriptwright.Schema

def standardDefinitions : Fields := fieldMap nodeDefinitions

def standardSchema : Fields := fieldMap documentSchema

theorem wellFormed_standard : wellFormed standardDefinitions standardSchema = true :=
  by decide +kernel

/-! ## Tags -/

theorem eq_of_sameKey_string {t : String} {v : Value} (h : (Value.string t).sameKey v = true) :
    v = .string t := by
  cases v with
  | string s => rw [beq_iff_eq.mp h]
  | _ => simp [Value.sameKey, Value.sameKey.number?] at h

/-- All nodes have to have a tag, except for those that stand for a name. -/
theorem exists_common {ref : Value} {definition : Fields}
    (hfound : Fields.find? standardDefinitions ref = some (.map definition))
    (href : ref ≠ .string "name") :
    ∃ rest, fieldMap (Fields.get definition "schema") = (.string "type", name) :: rest := by
  obtain ⟨k, hk, hkey⟩ := mem_of_find? hfound
  have hmem : (k, Value.map definition) ∈ Fields.ofTexts [
      ("statement", tagDefinition statementVariants),
        ("expression", tagDefinition expressionVariants),
      ("name", nameDefinition), ("markup", .record [("schema", .record markupFields)])] := hk
  simp only [Fields.ofTexts, List.map_cons, List.map_nil, List.mem_cons, Prod.mk.injEq,
    List.not_mem_nil, or_false] at hmem
  rcases hmem with ⟨-, h⟩ | ⟨-, h⟩ | ⟨rfl, -⟩ | ⟨-, h⟩
  · cases h
    exact ⟨[], rfl⟩
  · cases h
    exact ⟨[], rfl⟩
  · exact absurd (eq_of_sameKey_string hkey) href
  · cases h
    exact ⟨_, rfl⟩

/-- A required text that has been gone past without a problem is there. -/
theorem exists_text_of_tourEntry {definitions es : Fields} {way : List Step} {f : String}
    (hes : (Value.map es).finite = true)
    (h : ∀ e ∈ tourEntry es (touring definitions _) way (.string f, name), e.problem? = none) :
    ∃ t, Fields.get es f = .string t := by
  have hd : wellFormedDescriptor definitions name = true := rfl
  simp only [name, typedRequired, Value.record, tourEntry] at h hd
  cases hget : Fields.get? es f with
  | none =>
    rw [hget] at h
    cases h _ List.mem_cons_self
  | some w =>
    have hhas : Fields.has es f = true := by simp [Fields.has, hget]
    have hfinite : (Fields.get es f).finite = true := Value.everywhere_get hes hhas
    simp only [hget, touring, tour_eq] at h
    have hright : Stop.Right ⟨_, _, some (Fields.get es f)⟩ :=
      Stop.right_of_problem hd (h _ List.mem_cons_self)
    obtain ⟨t, htype, htext⟩ := hright
    dsimp only at htype htext
    rw [Value.head_of_finite hfinite] at htext
    exact htext.exists_text (Value.string.inj htype).symm

/-- A tag that is looked up can be looked up, unless it is that of a name. -/
def Event.TagFits : Event → Prop
  | .lookUp _ ref tag => ref ≠ .string "name" → tag.hashable = true
  | _ => True

theorem tourLaw_tagFits :
    TourLaw standardDefinitions (fun v _ => v.finite = true)
      (Led (fun e => e.problem? = none) Event.TagFits) where
  nil := trivial
  append hes hfs := hes.append hfs
  key hv hes hhas := by
    rw [Value.head_of_finite hv] at hes
    exact Value.everywhere_get (hes ▸ hv) hhas
  index hv hitems hi := by
    rw [Value.head_of_finite hv] at hitems
    exact Value.everywhere_of_mem_items (hitems ▸ hv) (List.mem_of_getElem? hi)
  missing _ _ _ _ :=
    .of_forall (List.forall_mem_cons.mpr ⟨trivial, List.forall_mem_singleton.mpr trivial⟩)
  node {v ref es definition way kinds} hv hes hfound hshared hkinds := by
    rw [Value.head_of_finite hv] at hes
    refine led_append.mpr ⟨hshared, fun hproblem => ⟨fun href => ?_, fun _ => hkinds⟩⟩
    -- The common fields of the node have been gone past, and its tag is the first of them.
    obtain ⟨rest, hcommon⟩ := exists_common hfound href
    rw [hcommon, tourFields, List.flatMap_cons] at hproblem
    obtain ⟨t, ht⟩ := exists_text_of_tourEntry (hes ▸ hv) (List.forall_mem_append.mp hproblem).1
    rw [ht]
    rfl
  around _ _ hinside := by
    rw [tour_eq]
    exact ⟨trivial, fun _ => hinside.concat fun _ => trivial⟩

/-! ## Outcomes -/

theorem everywhere_at? {p : Value → Bool} {data v : Value} {way : List Step}
    (hdata : data.finite = true) (hp : data.everywhere p = true) (h : data.at? way = some v) :
    v.finite = true ∧ v.everywhere p = true := by
  induction way generalizing data with
  | nil =>
    cases h
    exact ⟨hdata, hp⟩
  | cons s way ih =>
    rw [Value.at?_cons] at h
    obtain ⟨w, hw, hv⟩ := Option.bind_eq_some_iff.mp h
    cases s with
    | key name =>
      rw [Value.part?, Value.head_of_finite hdata] at hw
      split at hw
      · obtain ⟨k, hk⟩ := Fields.mem_of_get? hw
        exact ih (Value.everywhere_of_mem_entries hdata hk)
          (Value.everywhere_of_mem_entries hp hk) hv
      · cases hw
    | index i =>
      rw [Value.part?, Value.head_of_finite hdata] at hw
      split at hw
      · have hmem := List.mem_of_getElem? hw
        exact ih (Value.everywhere_of_mem_items hdata hmem)
          (Value.everywhere_of_mem_items hp hmem) hv
      · cases hw

theorem finite_at? {data v : Value} {way : List Step} (hdata : data.finite = true)
    (h : data.at? way = some v) :
    v.finite = true :=
  (everywhere_at? hdata hdata h).1

/-- In a document without knots, what is wrong with a place is a missing field or a wrong type. -/
theorem Stop.violation_of_problem {definitions : Fields} {data : Value} {s : Stop} {f : Failure}
    (hdata : data.finite = true) (hs : s.Located data)
    (hd : wellFormedDescriptor definitions (.map s.descriptor) = true) (h : s.problem? = some f) :
    Violation f := by
  obtain ⟨way, d, value⟩ := s
  cases value with
  | none =>
    simp only [problem?, Option.ite_none_right_eq_some, Option.some.injEq] at h
    rw [← h.2]
    exact .missingField _
  | some v =>
    obtain ⟨t, ht, htype⟩ := (wellDescribed hd).type
    have hv : v.finite = true := finite_at? hdata hs
    rw [problem?_some ht htype, Value.exhausted_of_finite hv, if_neg (by simp)] at h
    split at h
    · cases h
    · cases h
      exact .typeMismatch _ _ _

/-- The first problem that the check of a document comes across is a mapping that stands for a name
and has a collection for a tag. -/
def TripsOverName (data : Value) : Prop :=
  ∃ before way es after,
    documentTour standardDefinitions standardSchema data =
      before ++ Event.lookUp way (.string "name") (Fields.get es "type") :: after ∧
    (∀ e ∈ before, e.problem? = none) ∧ data.at? way = some (.map es) ∧
      (Fields.get es "type").hashable = false

theorem not_tripsOverName {data : Value} (hdata : data.finite = true)
    (h : data.everywhere tagged = true) :
    ¬TripsOverName data := by
  rintro ⟨before, way, es, after, -, -, hes, htag⟩
  have htagged : tagged (.map es) = true := Value.of_everywhere (everywhere_at? hdata h hes).2
  cases htag.symm.trans htagged

theorem outcome_of_tripsOverName {data : Value} (h : TripsOverName data) :
    (check nodeDefinitions documentSchema data).outcome = .error (.fault .unhashable) := by
  obtain ⟨before, way, es, after, htour, hbefore, -, htag⟩ := h
  have hproblem : (Event.lookUp way (.string "name") (Fields.get es "type")).problem? =
      some (.fault .unhashable) := by
    simp [Event.problem?, htag]
  refine (finds_check wellFormed_standard data).outcome_eq_error_iff.mpr ?_
  exact firstProblem?_eq_some_iff.mpr ⟨before, _, after, htour, hproblem, hbefore⟩

theorem violation_or_tripsOverName {data : Value} {f : Failure} (hdata : data.finite = true)
    (h : (check nodeDefinitions documentSchema data).outcome = .error f) :
    Violation f ∨ TripsOverName data := by
  have hd := wellFormedDescriptor_document (Bool.and_eq_true_iff.mp wellFormed_standard).2
  have hlocated :=
    (tourLaw_located standardDefinitions data).tour wellFormed_standard _ data [] hd rfl
  have htags := tourLaw_tagFits.tour wellFormed_standard _ data [] hd hdata
  obtain ⟨before, e, after, htour, hproblem, hbefore⟩ :=
    firstProblem?_eq_some_iff.mp ((finds_check wellFormed_standard data).outcome_eq_error_iff.mp h)
  rw [documentTour] at htour
  rw [htour] at hlocated htags
  have hplace := hlocated e (List.mem_append_right _ List.mem_cons_self)
  cases e with
  | leave s => cases hproblem
  | enter s => exact .inl (s.violation_of_problem hdata hplace.1 hplace.2 hproblem)
  | lookUp way ref tag =>
    obtain ⟨v, es, hv, hes, rfl⟩ := hplace
    rw [Value.head_of_finite (finite_at? hdata hv)] at hes
    have htag : (Fields.get es "type").hashable = false := by
      rw [Event.problem?] at hproblem
      split at hproblem
      · cases hproblem
      · next hno => exact Bool.eq_false_iff.mpr hno
    by_cases href : ref = .string "name"
    · rw [href] at htour
      exact .inr ⟨before, way, es, after, htour, hbefore, hes ▸ hv, htag⟩
    · have htrue : (Fields.get es "type").hashable = true := htags.here hbefore href
      cases htag.symm.trans htrue

/-- The check of a document without knots ends as it should, by accepting the document or by
reporting a missing field or a wrong type, exactly if it does not trip over a name. If it does, it
fails. Where all tags can be looked up, it does not. -/
theorem check_document_iff (data : Value) (hdata : data.finite = true) :
    (((check nodeDefinitions documentSchema data).outcome = .ok () ∨
      ∃ f, (check nodeDefinitions documentSchema data).outcome = .error f ∧ Violation f) ↔
        ¬TripsOverName data) ∧
    (TripsOverName data → (check nodeDefinitions documentSchema data).outcome =
      .error (.fault .unhashable)) ∧
    (data.everywhere tagged = true → ¬TripsOverName data) := by
  refine ⟨⟨?_, fun hno => ?_⟩, outcome_of_tripsOverName, not_tripsOverName hdata⟩
  · rintro (hok | ⟨f, herror, hf⟩) htrips
    · cases hok.symm.trans (outcome_of_tripsOverName htrips)
    · cases herror.symm.trans (outcome_of_tripsOverName htrips)
      cases hf
  · cases houtcome : (check nodeDefinitions documentSchema data).outcome with
    | ok u => exact .inl rfl
    | error f => exact .inr ⟨f, rfl, (violation_or_tripsOverName hdata houtcome).resolve_right hno⟩

def labelled (tag : Value) : Value :=
  .record
    [("functions", .list [.record [("name", .string "f"), ("parameters", .list []), ("body", .list [
    .record [("type", .string "breakStatement"), ("label", .record [("type", tag)])]])]])]

/-- An unknown tag of a name is accepted, a list is not even reported. -/
theorem check_document_iff_labelled :
    (labelled (.string "mystery")).finite = true ∧ ¬TripsOverName (labelled (.string "mystery")) ∧
      (labelled (.list [])).finite = true ∧ TripsOverName (labelled (.list [])) := by
  have hok : (check nodeDefinitions documentSchema (labelled (.string "mystery"))).outcome =
      .ok () := by
    with_unfolding_all rfl
  have hfails : (check nodeDefinitions documentSchema (labelled (.list []))).outcome =
      .error (.fault .unhashable) := by
    with_unfolding_all rfl
  refine ⟨by decide, (check_document_iff _ (by decide)).1.mp (.inl hok), by decide, ?_⟩
  refine Classical.byContradiction fun hno => ?_
  rcases (check_document_iff _ (by decide)).1.mpr hno with h | ⟨f, h, hf⟩
  · cases h.symm.trans hfails
  · cases h.symm.trans hfails
    cases hf

/-- A document whose check neither accepts it nor finds anything wrong with it. -/
theorem check_labelled_by_list :
    (labelled (.list [])).finite = true ∧
      (check nodeDefinitions documentSchema (labelled (.list []))).outcome =
        .error (.fault .unhashable) ∧
      ¬Violation (.fault .unhashable) := by
  refine ⟨by decide, by with_unfolding_all rfl, ?_⟩
  rintro ⟨⟩

end Scriptwright.Schema
