import Scriptwright.Script.Code
import Mathlib.Data.List.Forall2

/-!
# Notes of the parts

Emission only adds to the journal, and what it adds does not depend on what is there. So several
pieces that are written one after the other give the texts and the notes that each of them gives
alone.
-/

namespace Scriptwright.Script

/-! ## Emission after other notes -/

theorem diagnostics_append (source : Option String) (a b : List Note) :
    (Journal.mk source (a ++ b)).diagnostics = (Journal.mk source a).diagnostics ++
      (Journal.mk source b).diagnostics :=
  List.filterMap_append

namespace Emission

variable {α β : Type}

/-- An emission has one outcome and adds the same notes, whatever was noted before. -/
def Framed (x : Emission α) : Prop :=
  ∀ source, ∃ outcome notes, ∀ before, x ⟨source, before⟩ = (outcome, ⟨source, before ++ notes⟩)

theorem framed_pure (a : α) : Framed (pure a) :=
  fun _ => ⟨.ok a, [], fun before => by rw [List.append_nil]; rfl⟩

theorem framed_fail (f : Fault) : Framed (fail f : Emission α) :=
  fun _ => ⟨.error f, [], fun before => by rw [List.append_nil]; rfl⟩

theorem framed_add (note : Option String → Note) (a : α) :
    Framed fun j => (.ok a, j.add (note j.source)) :=
  fun source => ⟨.ok a, [note source], fun _ => rfl⟩

theorem Framed.bind {x : Emission α} {f : α → Emission β} (hx : Framed x) (hf : ∀ a, Framed (f a)) :
    Framed (x.bind f) := by
  intro source
  obtain ⟨outcome, notes, hrun⟩ := hx source
  cases outcome with
  | error e =>
    refine ⟨.error e, notes, fun before => ?_⟩
    rw [Emission.bind, hrun before]
  | ok a =>
    obtain ⟨outcome', notes', hrun'⟩ := hf a source
    refine ⟨outcome', notes ++ notes', fun before => ?_⟩
    rw [Emission.bind, hrun before]
    simp only
    rw [hrun' (before ++ notes), List.append_assoc]

/-- What an emission adds to any notes is what it notes alone. -/
theorem Framed.eq_of_empty {x : Emission α} (h : Framed x) {source : Option String}
    {outcome : Except Fault α} {j : Journal} (halone : x (.empty source) = (outcome, j))
    (before : List Note) :
    x ⟨source, before⟩ = (outcome, ⟨source, before ++ j.notes⟩) := by
  obtain ⟨outcome', notes, hrun⟩ := h source
  have hempty := (hrun []).symm.trans halone
  cases hempty
  exact hrun before

/-! ## Code -/

/-- A property of emissions that results, faults and single notes have and that one emission after
another keeps. -/
structure Closed (P : (α : Type) → Emission α → Prop) : Prop where
  pure : ∀ {α : Type} (a : α), P α (Emission.pure a)
  fail : ∀ {α : Type} (f : Fault), P α (Emission.fail f)
  report : ∀ (category : String) (kind : Value), P String fun j => (.ok "", j.report category kind)
  warn : ∀ message : String, P String fun j => (.ok "", j.warn message)
  bind : ∀ {α β : Type} {x : Emission α} {f : α → Emission β}, P α x → (∀ a, P β (f a)) →
    P β (x.bind f)

namespace Closed

variable {P : (α : Type) → Emission α → Prop}

theorem map (h : Closed P) {x : Emission α} (hx : P α x) (f : α → β) : P β (x.map f) :=
  h.bind hx fun a => h.pure (f a)

mutual

/-- Such a property holds of all code at every level. -/
theorem emit (h : Closed P) (layout : Layout) :
    (c : Code) → (level : Int) → P String (c.emit layout level)
  | .text _, _ | .margin, _ | .quoted _, _ => h.pure _
  | .stop f, _ => h.fail f
  | .report category kind, _ => h.report category kind
  | .warn message, _ => h.warn message
  | .deeper c, level => by
    rw [Code.emit]
    exact emit h layout c (level + 1)
  | .deferred code, level => by
    rw [Code.emit]
    exact emit h layout (code ()) level
  | .shaped shape parts, level => by
    rw [Code.emit_shaped]
    exact h.map (emitAll h layout parts level) shape.apply

theorem emitAll (h : Closed P) (layout : Layout) :
    (cs : List Code) → (level : Int) → P (List String) (Code.emitAll layout level cs)
  | [], _ => h.pure []
  | c :: cs, level => by
    rw [Code.emitAll_cons]
    exact h.bind (emit h layout c level) fun t => h.map (emitAll h layout cs level) (t :: ·)

end

end Closed

theorem closed_framed : Closed fun _ => Framed where
  pure := framed_pure
  fail := framed_fail
  report category kind := framed_add (fun source => .unhandled ⟨category, kind, source⟩) ""
  warn message := framed_add (fun _ => .warning message) ""
  bind := Framed.bind

end Emission

namespace Code

open Emission

theorem framed_emit (layout : Layout) (c : Code) (level : Int) : Framed (c.emit layout level) :=
  closed_framed.emit layout c level

theorem framed_emitAll (layout : Layout) (cs : List Code) (level : Int) :
    Framed (emitAll layout level cs) :=
  closed_framed.emitAll layout cs level

/-- Pieces that are written one after the other give what each of them gives alone. -/
theorem exists_of_emitAll_eq_ok {layout : Layout} {level : Int} {cs : List Code}
    {source : Option String} {before : List Note} {ts : List String} {j : Journal}
    (h : emitAll layout level cs ⟨source, before⟩ = (.ok ts, j)) :
    ∃ rs : List (String × Journal),
      List.Forall₂ (fun c r => c.emit layout level (.empty source) = (.ok r.1, r.2)) cs rs ∧
        ts = rs.map Prod.fst ∧ j = ⟨source, before ++ rs.flatMap fun r => r.2.notes⟩ := by
  induction cs generalizing before ts j with
  | nil =>
    cases h
    exact ⟨[], .nil, rfl, by simp⟩
  | cons c cs ih =>
    rw [emitAll_cons, Emission.bind] at h
    cases halone : c.emit layout level (.empty source) with
    | mk outcome k =>
      rw [(framed_emit layout c level).eq_of_empty halone before] at h
      cases outcome with
      | error f => cases h
      | ok t =>
        simp only [Emission.map, Emission.bind] at h
        cases hrest : emitAll layout level cs ⟨source, before ++ k.notes⟩ with
        | mk outcome' k' =>
          rw [hrest] at h
          cases outcome' with
          | error f => cases h
          | ok ts' =>
            cases h
            obtain ⟨rs, hrs, rfl, rfl⟩ := ih hrest
            exact ⟨(t, k) :: rs, .cons halone hrs, rfl, by simp⟩

end Code

end Scriptwright.Script
