import Scriptwright.Document.Generate
import Scriptwright.Proofs.Script.Spelling
import Scriptwright.Proofs.Script.Vouched
import Scriptwright.Schema.Standard

/-!
# Mappings that fit a schema

What the check of a document says about the mappings in it, field by field: texts are texts, arrays
are lists of values that fit in turn. Documents are simple, so that a value is never hidden in a
knot.
-/

namespace Scriptwright

namespace Value

/-- Whether a value is the list of the given items, or null and there are none. -/
def Lists (v : Value) (items : List Value) : Prop := v = .null ∧ items = [] ∨ v = .list items

namespace Lists

variable {v : Value} {items : List Value}

theorem elementsOrNone_eq (h : v.Lists items) : v.elementsOrNone = .ok items := by
  rcases h with ⟨rfl, rfl⟩ | rfl
  · rfl
  · exact elementsOrNone_of_head rfl

theorem yielded_eq (h : v.Lists items) : v.yielded = items := yielded_of_ok h.elementsOrNone_eq

theorem statements_eq (h : v.Lists items) : v.statements = items := by
  rcases h with ⟨rfl, rfl⟩ | rfl
  · rfl
  · rfl

theorem statements_block (h : v.Lists items) : (Value.record [("body", v)]).statements = items := by
  rcases h with ⟨rfl, rfl⟩ | rfl
  · rfl
  · rfl

theorem eq_list (h : v.Lists items) (hv : v.truthy = true) : v = .list items := by
  rcases h with ⟨rfl, -⟩ | rfl
  · cases hv
  · rfl

end Lists

end Value

namespace Document

open Script Schema

theorem eq_string_of_accepts {d : Fields} {v : Value} {path : String} (hv : v.simple = true)
    (htype : declaredType d = .string "string")
    (h : (checkValue nodeDefinitions (.map d) v path).Accepts) :
    ∃ t, v = .string t := by
  have htyped := (accepts_checkValue.mp h).2.1
  rw [htype] at htyped
  cases v with
  | string t => exact ⟨t, rfl⟩
  | knot => cases hv
  | _ => cases htyped

/-- Simple fields that the check has found to fit a schema. -/
structure Fitting (s es : Fields) : Prop where
  simple : (Value.map es).simple = true
  fits : ∃ path, ∀ e ∈ s, Fits nodeDefinitions path es e

namespace Fitting

variable {s es : Fields} {f : String}

theorem suits (h : Fitting s es) : Suits s es := by
  obtain ⟨path, hfits⟩ := h.fits
  exact suits_of_fits hfits

theorem exists_get? {d : Fields} (h : Fitting s es) (hd : descriptor? s f = some d)
    (hrequired : (Fields.get d "required").truthy = true) : ∃ v, Fields.get? es f = some v := by
  obtain ⟨path, hfits⟩ := h.fits
  have hfit := hfits _ (mem_of_get?_eq (get?_eq_of_descriptor hd))
  have hdisplay : (Value.string f).display = f := rfl
  unfold Fits at hfit
  simp only [hdisplay] at hfit
  cases hfield : Fields.get? es f with
  | some v => exact ⟨v, rfl⟩
  | none =>
    simp only [hfield, hrequired] at hfit
    cases hfit

theorem text {d : Fields} (h : Fitting s es) (hd : descriptor? s f = some d)
    (htype : declaredType d = .string "string") : Fields.get es f = .null ∨
      ∃ t, Fields.get es f = .string t := by
  rcases h.suits.field hd with hnull | ⟨path, haccepts⟩
  · exact .inl hnull
  · exact .inr (eq_string_of_accepts (Value.simple_get h.simple f) htype haccepts)

theorem requiredText {d : Fields} (h : Fitting s es) (hd : descriptor? s f = some d)
    (htype : declaredType d = .string "string")
    (hrequired : (Fields.get d "required").truthy = true) :
    ∃ t, Fields.get? es f = some (.string t) := by
  obtain ⟨v, hv⟩ := h.exists_get? hd hrequired
  obtain ⟨path, haccepts⟩ := h.suits f d v (get?_eq_of_descriptor hd) hv
  have hsimple := Value.simple_get h.simple f
  rw [Fields.get, hv] at hsimple
  obtain ⟨t, rfl⟩ := eq_string_of_accepts hsimple htype haccepts
  exact ⟨t, hv⟩

theorem record {s' : Fields} (h : Fitting s es) (hs' : (descriptor? s f).bind record? = some s') :
    Fields.get es f = .null ∨ ∃ inner, Fields.get es f = .map inner ∧ Fitting s' inner := by
  obtain ⟨d, hd, hrecord⟩ := Option.bind_eq_some_iff.mp hs'
  rcases h.suits.field hd with hnull | ⟨path, haccepts⟩
  · exact .inl hnull
  · obtain ⟨inner, hinner, hfits⟩ := fields_of_record hrecord haccepts
    have hsimple := Value.simple_get h.simple f
    rw [Value.head_of_simple hsimple] at hinner
    rw [hinner] at hsimple
    exact .inr ⟨inner, hinner, hsimple, path, hfits⟩

theorem requiredRecord {d s' : Fields} (h : Fitting s es) (hd : descriptor? s f = some d)
    (hs' : record? d = some s') (hrequired : (Fields.get d "required").truthy = true) :
    ∃ inner, Fields.get? es f = some (.map inner) ∧ Fitting s' inner := by
  obtain ⟨v, hv⟩ := h.exists_get? hd hrequired
  obtain ⟨path, haccepts⟩ := h.suits f d v (get?_eq_of_descriptor hd) hv
  obtain ⟨inner, hinner, hfits⟩ := fields_of_record hs' haccepts
  have hsimple := Value.simple_get h.simple f
  rw [Fields.get, hv, Option.getD_some] at hsimple
  rw [Value.head_of_simple hsimple] at hinner
  subst hinner
  exact ⟨inner, hv, hsimple, path, hfits⟩

theorem list {i : Fields} (h : Fitting s es) (hi : item? s f = some i) :
    ∃ items, (Fields.get es f).Lists items ∧
      ∀ w ∈ items, w.simple = true ∧
        ∃ path, (checkValue nodeDefinitions (.map i) w path).Accepts := by
  obtain ⟨d, hd, hitem⟩ := Option.bind_eq_some_iff.mp hi
  split at hitem
  · next htype =>
    rcases h.suits.field hd with hnull | ⟨path, haccepts⟩
    · exact ⟨[], .inl ⟨hnull, rfl⟩, List.forall_mem_nil _⟩
    · obtain ⟨items, hitems, hall⟩ :=
        items_of_accepts (isKey_iff.mp htype) (get_eq_of_nested hitem) haccepts
      have hsimple := Value.simple_get h.simple f
      rw [Value.head_of_simple hsimple] at hitems
      rw [hitems] at hsimple
      exact ⟨items, .inr hitems, fun w hw => ⟨Value.everywhere_of_mem_items hsimple hw, hall w hw⟩⟩
  · cases hitem

theorem records {s' : Fields} (h : Fitting s es) (hs' : (item? s f).bind record? = some s') :
    ∃ specs : List Fields, (Fields.get es f).Lists (specs.map .map) ∧ ∀ e ∈ specs,
      Fitting s' e := by
  obtain ⟨i, hi, hrecord⟩ := Option.bind_eq_some_iff.mp hs'
  obtain ⟨items, hitems, hall⟩ := h.list hi
  have hspecs : ∃ specs : List Fields, items = specs.map .map ∧ ∀ e ∈ specs, Fitting s' e := by
    clear hitems
    induction items with
    | nil => exact ⟨[], rfl, List.forall_mem_nil _⟩
    | cons w ws ih =>
      obtain ⟨⟨hsimple, path, haccepts⟩, hws⟩ := List.forall_mem_cons.mp hall
      obtain ⟨inner, hinner, hfits⟩ := fields_of_record hrecord haccepts
      obtain ⟨specs, rfl, hspecs⟩ := ih hws
      rw [Value.head_of_simple hsimple] at hinner
      subst hinner
      exact ⟨inner :: specs, rfl, List.forall_mem_cons.mpr ⟨⟨hsimple, path, hfits⟩, hspecs⟩⟩
  obtain ⟨specs, rfl, hspecs⟩ := hspecs
  exact ⟨specs, hitems, hspecs⟩

theorem texts {i : Fields} (h : Fitting s es) (hi : item? s f = some i)
    (htype : declaredType i = .string "string") :
    ∃ ts : List String, (Fields.get es f).Lists (ts.map .string) := by
  obtain ⟨items, hitems, hall⟩ := h.list hi
  suffices hts : ∃ ts : List String, items = ts.map .string by
    obtain ⟨ts, rfl⟩ := hts
    exact ⟨ts, hitems⟩
  clear hitems
  induction items with
  | nil => exact ⟨[], rfl⟩
  | cons w ws ih =>
    obtain ⟨⟨hsimple, path, haccepts⟩, hws⟩ := List.forall_mem_cons.mp hall
    obtain ⟨t, rfl⟩ := eq_string_of_accepts hsimple htype haccepts
    obtain ⟨ts, rfl⟩ := ih hws
    exact ⟨t :: ts, rfl⟩

theorem operands {m : Mode} (h : Fitting s es) (hf : operandsIn m s f = true) :
    ∃ items, (Fields.get es f).Lists items ∧ ∀ w ∈ items, Checked (.node m) w := by
  obtain ⟨i, hi, hoperand⟩ := (Option.any_eq_true _ _).mp hf
  obtain ⟨items, hitems, hall⟩ := h.list hi
  refine ⟨items, hitems, fun w hw => ?_⟩
  obtain ⟨-, path, haccepts⟩ := hall w hw
  exact checked_of_isOperand hoperand haccepts

theorem mapping {d : Fields} (h : Fitting s es) (hd : descriptor? s f = some d)
    (htype : declaredType d = .string "object") : Fields.get es f = .null ∨
      ∃ inner, Fields.get es f = .map inner := by
  rcases h.suits.field hd with hnull | ⟨path, haccepts⟩
  · exact .inl hnull
  · have htyped := (accepts_checkValue.mp haccepts).2.1
    rw [htype] at htyped
    obtain ⟨inner, hinner⟩ := exists_fields_of_checkType htyped
    rw [Value.head_of_simple (Value.simple_get h.simple f)] at hinner
    exact .inr ⟨inner, hinner⟩

end Fitting

end Document

end Scriptwright
