import Scriptwright.Compile
import Scriptwright.Proofs.Script.Emission

/-!
# Strict compilation

A strict compilation does what a lenient one does and then judges the result. So it fails where the
lenient one fails, returns the same where there is no diagnostic, and refuses the result otherwise,
with all of its diagnostics. Emission is handed the options of the run and never asks them whether
the compilation is strict.
-/

namespace Scriptwright

open Script

namespace Logged

variable {α β γ : Type}

theorem bind_assoc (x : Logged α) (f : α → Logged β) (g : β → Logged γ) :
    (x.bind f).bind g = x.bind fun a => (f a).bind g := by
  obtain ⟨e | a, log⟩ := x
  · rfl
  · cases h : (f a).outcome with
    | error e => simp only [bind, h]
    | ok b => simp only [bind, h, List.append_assoc]

theorem bind_ofExcept (x : Logged α) (f : α → Except Failure β) :
    x.bind (fun a => ofExcept (f a)) = ⟨x.outcome.bind f, x.log⟩ := by
  obtain ⟨e | a, log⟩ := x
  · rfl
  · simp only [bind, ofExcept, List.append_nil, Except.bind]

theorem exists_of_bind_eq_ok {x : Logged α} {f : α → Logged β} {b : β}
    (h : (x.bind f).outcome = .ok b) :
    ∃ a, x.outcome = .ok a ∧ (f a).outcome = .ok b := by
  rw [bind] at h
  cases hx : x.outcome with
  | error e =>
    rw [hx] at h
    cases h
  | ok a =>
    rw [hx] at h
    exact ⟨a, rfl, h⟩

end Logged

section Compile

variable (options : Options) (setup : Schema.Setup) (tidying : Source.TidyOptions)
  (source : Option String) (document : Value)

def writeDocument (layout : Layout) : Logged Compiled :=
  (checkDocument setup document).bind fun _ =>
    (emitDocument layout source document).bind fun c =>
      .pure { c with code := Source.tidy tidying c.code }

theorem compileDocument_eq_bind_verdict :
    compileDocument options setup tidying source document =
      (writeDocument setup tidying source document options.layout).bind fun c =>
        .ofExcept (c.verdict options.strict) := by
  rw [writeDocument, Logged.bind_assoc]
  simp only [Logged.bind_assoc]
  rfl

/-- Of a layout only its indentation and its quotation mark show in what is written. -/
theorem writeDocument_congr {l l' : Layout} (h : l.Alike l') :
    writeDocument setup tidying source document l =
      writeDocument setup tidying source document l' := by
  have hemit : emitDocument l source document = emitDocument l' source document := by
    rw [emitDocument, emitCode, h.emit_eq, emitDocument, emitCode]
  rw [writeDocument, writeDocument, hemit]

theorem compileDocument_lenient (h : options.strict = false) :
    compileDocument options setup tidying source document =
      writeDocument setup tidying source document options.layout := by
  rw [compileDocument_eq_bind_verdict, h, Logged.bind_ofExcept]
  cases writeDocument setup tidying source document options.layout with
  | mk outcome log => cases outcome <;> rfl

theorem source_of_writeDocument {layout : Layout} {c : Compiled}
    (h : (writeDocument setup tidying source document layout).outcome = .ok c) :
    c.source = source := by
  obtain ⟨_, -, hwritten⟩ := Logged.exists_of_bind_eq_ok h
  obtain ⟨emitted, hemitted, hc⟩ := Logged.exists_of_bind_eq_ok hwritten
  cases hc
  simp only [emitDocument] at hemitted
  cases htext : (emitCode layout source (Document.code document)).1 with
  | error f =>
    rw [htext] at hemitted
    cases hemitted
  | ok t =>
    rw [htext] at hemitted
    cases hemitted
    rfl

end Compile

/-- What a strict compilation of a source gives where a lenient one has given an outcome. -/
inductive Judged (source : Option String) : Except Failure Compiled → Except Failure Compiled → Prop
  | failed (f : Failure) : Judged source (.error f) (.error f)
  | clean (c : Compiled) (hclean : c.diagnostics = []) : Judged source (.ok c) (.ok c)
  | refused (c : Compiled) (e : Error) (hnot : c.diagnostics ≠ [])
      (hcause : e.cause = .strict c.diagnostics)
      (hpath : e.path = source) : Judged source (.ok c) (.error (.error e))

theorem judged_verdict {source : Option String} {c : Compiled} (h : c.source = source) :
    Judged source (.ok c) (c.verdict true) := by
  rw [Compiled.verdict, Compiled.ok]
  cases hdiagnostics : c.diagnostics with
  | nil => exact .clean c hdiagnostics
  | cons d ds => exact .refused c c.violation (by simp [hdiagnostics]) rfl h

/-- A strict compilation is a lenient one with a verdict, and says the same on the way. Of the
indentation that options choose only its text counts. -/
theorem judged_compileDocument (options : Options) (setup : Schema.Setup)
    (tidying : Source.TidyOptions) (source : Option String) (document : Value) :
    Judged source (compileDocument { options with strict := false } setup tidying source
      document).outcome
        (compileDocument { options with strict := true } setup tidying source document).outcome ∧
      (compileDocument { options with strict := true } setup tidying source document).log =
        (compileDocument { options with strict := false } setup tidying source document).log ∧
      ∀ others : Options, others.indentUnit = options.indentUnit → others.quote = options.quote →
        others.strict = options.strict →
        compileDocument others setup tidying source document =
          compileDocument options setup tidying source document := by
  have halike : ∀ strict, Layout.Alike { options with strict := strict }.layout options.layout :=
    fun strict => ⟨rfl, rfl⟩
  have hlenient : compileDocument { options with strict := false } setup tidying source document =
      writeDocument setup tidying source document options.layout := by
    rw [compileDocument_lenient _ _ _ _ _ rfl, writeDocument_congr _ _ _ _ (halike false)]
  have hstrict : compileDocument { options with strict := true } setup tidying source document =
      ⟨(writeDocument setup tidying source document options.layout).outcome.bind
        (Compiled.verdict true),
          (writeDocument setup tidying source document options.layout).log⟩ := by
    rw [compileDocument_eq_bind_verdict, Logged.bind_ofExcept,
      writeDocument_congr _ _ _ _ (halike true)]
  rw [hlenient, hstrict]
  refine ⟨?_, rfl, fun others hunit hquote hsame => ?_⟩
  · simp only
    cases hwritten : (writeDocument setup tidying source document options.layout).outcome with
    | error f => exact .failed f
    | ok c => exact judged_verdict (source_of_writeDocument _ _ _ _ hwritten)
  · have hothers : others.layout.Alike options.layout := ⟨hunit, hquote⟩
    rw [compileDocument_eq_bind_verdict others, compileDocument_eq_bind_verdict options,
      writeDocument_congr _ _ _ _ hothers, hsame]

def mystery : Value :=
  .map [(.string "conditions",
    .list [.map [(.string "execute", .list [.map [(.string "type", .string "mystery")]])]])]

theorem judged_compileDocument_mystery :
    (∃ c e, (compileDocument { strict := false } {} {} (some "a.yml") mystery).outcome = .ok c ∧
      c.diagnostics ≠ [] ∧
      (compileDocument { strict := true } {} {} (some "a.yml") mystery).outcome =
        .error (.error e) ∧
      e.cause = .strict c.diagnostics ∧ e.path = some "a.yml") ∧
    compileDocument { indentSize := 8, indentStyle := "tabs" } {} {} (some "a.yml") mystery =
      compileDocument { indentSize := 2, indentStyle := "tabs" } {} {} (some "a.yml") mystery := by
  refine ⟨?_, (judged_compileDocument { indentSize := 2, indentStyle := "tabs" } {} {}
    (some "a.yml") mystery).2.2 _ rfl rfl rfl⟩
  have hnoted : (compileDocument { strict := false } {} {} (some "a.yml")
      mystery).outcome.toOption.map (fun c => c.diagnostics.isEmpty) = some false := by
    decide +kernel
  have hjudged := (judged_compileDocument {} {} {} (some "a.yml") mystery).1
  generalize (compileDocument { strict := false } {} {} (some "a.yml") mystery).outcome =
    lenient at *
  generalize (compileDocument { strict := true } {} {} (some "a.yml") mystery).outcome = strict at *
  cases hjudged with
  | failed f => cases hnoted
  | clean c hclean =>
    rw [Except.toOption, Option.map_some, hclean] at hnoted
    cases hnoted
  | refused c e hnot hcause hpath => exact ⟨c, e, rfl, hnot, rfl, hcause, hpath⟩

end Scriptwright
