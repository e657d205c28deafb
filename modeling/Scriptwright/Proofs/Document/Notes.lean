import Scriptwright.Document.Generate
import Scriptwright.Proofs.Script.Frame

/-!
# Notes do not matter to emission

Expressions, statements, markup and whole documents are written into one journal, which they share.
What is in it when an operation starts has no part in the outcome, and it stays in front of what the
operation notes. The diagnostics among its notes name the source of the journal. This holds of
operations that fail on the way as well.
-/

namespace Scriptwright

open Script Emission

namespace Script

/-! ## Signed journals -/

/-- Every diagnostic names the source of the journal. -/
def Journal.Signed (j : Journal) : Prop := ∀ d ∈ j.diagnostics, d.source = j.source

theorem Journal.signed_empty (source : Option String) : (Journal.empty source).Signed := by
  intro d hd
  cases hd

theorem Journal.Signed.report {j : Journal} (h : j.Signed) (category : String) (kind : Value) :
    (j.report category kind).Signed := by
  intro d hd
  have happend : (j.report category kind).diagnostics = j.diagnostics ++
      [⟨category, kind, j.source⟩] :=
    diagnostics_append j.source _ _
  rw [happend] at hd
  rcases List.mem_append.mp hd with hd | hd
  · exact h d hd
  · rw [List.mem_singleton.mp hd]
    rfl

theorem Journal.Signed.warn {j : Journal} (h : j.Signed) (message : String) :
    (j.warn message).Signed := by
  intro d hd
  have happend : (j.warn message).diagnostics = j.diagnostics ++ [] :=
    diagnostics_append j.source _ _
  rw [happend, List.append_nil] at hd
  exact h d hd

theorem closed_signed : Closed fun _ x => ∀ j : Journal, j.Signed → (x j).2.Signed where
  pure _ _ h := h
  fail _ _ h := h
  report category kind _ h := h.report category kind
  warn message _ h := h.warn message
  bind := by
    intro α β x f hx hf j hj
    have hfirst := hx j hj
    unfold Emission.bind
    cases hrun : x j with
    | mk outcome k =>
      rw [hrun] at hfirst
      cases outcome with
      | error e => exact hfirst
      | ok a => exact hf a k hfirst

end Script

namespace Document

/-! ## Operations -/

inductive Operation where
  | expression
  | statement
  | statements
  | name
  | source
  | block
  | markup
  | fragment
  | document
  | part (s : Section)
deriving DecidableEq, Repr

/-- The code that an operation writes for a value. `linked` says whether statements and expressions
can be written from each other. -/
def Operation.code (linked : Bool) : Operation → Value → Code
  | .expression => nodeCode linked .expression
  | .statement => nodeCode linked .statement
  | .statements => sequenceCode linked
  | .name => nameCode linked
  | .source => sourceCode
  | .block => blockCode linked
  | .markup => forestCode
  | .fragment => fragmentCode
  | .document => Document.code
  | .part s => sectionOf s

/-- Every operation has the outcome that it has with an empty journal of the same source, whatever
was noted before. The journal then holds the earlier notes and, behind them, just the notes and the
diagnostics of the operation with an empty journal, also if the operation fails, and each of these
diagnostics names the source. -/
theorem emit_after_notes (operation : Operation) (linked : Bool) (v : Value) (layout : Layout)
    (level : Int) (source : Option String) (before : List Note) :
    let emitted := fun j : Journal => (operation.code linked v).emit layout level j
    let shared := emitted ⟨source, before⟩
    let alone := emitted (.empty source)
    shared.1 = alone.1 ∧ shared.2.source = source ∧ shared.2.notes = before ++ alone.2.notes ∧
      shared.2.diagnostics = (Journal.mk source before).diagnostics ++ alone.2.diagnostics ∧
      ∀ d ∈ alone.2.diagnostics, d.source = source := by
  intro emitted shared alone
  have hframed := Code.framed_emit layout (operation.code linked v) level
  have hshared : shared = (alone.1, ⟨source, before ++ alone.2.notes⟩) :=
    hframed.eq_of_empty rfl before
  have halone : alone.2 = ⟨source, alone.2.notes⟩ := congrArg Prod.snd (hframed.eq_of_empty rfl [])
  have hsigned : alone.2.Signed :=
    closed_signed.emit layout (operation.code linked v) level _ (Journal.signed_empty source)
  rw [hshared]
  refine ⟨rfl, rfl, rfl, diagnostics_append source before alone.2.notes, fun d hd => ?_⟩
  rw [hsigned d hd, halone]

/-- A list whose first item is of no known kind and whose second item cannot be written, after two
notes. -/
theorem emit_after_notes_failing :
    let v := Value.record [("type", .string "arrayExpression"),
      ("elements", .list [.record [("type", .string "odd")], .record [("type", .list [])]])]
    let before := [Note.unhandled ⟨"module", .string "old", some "a.yml"⟩, Note.warning "careful"]
    let odd : Diagnostic := ⟨"expression", .string "odd", some "a.yml"⟩
    let emitted := fun j : Journal => (Operation.expression.code true v).emit
      ⟨{ indentSize := 2 }⟩ 3 j
    emitted (.empty (some "a.yml")) = (.error .unhashable, ⟨some "a.yml", [.unhandled odd]⟩) ∧
      (emitted ⟨some "a.yml", before⟩).1 = .error .unhashable ∧
      (emitted ⟨some "a.yml", before⟩).2.notes = before ++ [.unhandled odd] ∧
        odd.source = some "a.yml" := by
  intro v before odd emitted
  have halone : emitted (.empty (some "a.yml")) =
      (.error .unhashable, ⟨some "a.yml", [.unhandled odd]⟩) := by
    with_unfolding_all rfl
  have hodd : odd ∈ (emitted (.empty (some "a.yml"))).2.diagnostics := by
    rw [halone]
    exact List.mem_singleton_self odd
  obtain ⟨houtcome, -, hnotes, -, hsigned⟩ :=
    emit_after_notes .expression true v ⟨{ indentSize := 2 }⟩ 3 (some "a.yml") before
  refine ⟨halone, ?_, ?_, hsigned odd hodd⟩
  · exact houtcome.trans (congrArg Prod.fst halone)
  · exact hnotes.trans (congrArg (fun r => before ++ r.2.notes) halone)

end Document

end Scriptwright
