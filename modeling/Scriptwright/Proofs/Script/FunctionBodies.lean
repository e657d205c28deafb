import Scriptwright.Proofs.Script.Emission
import Scriptwright.Proofs.Script.Frame
import Scriptwright.Proofs.Script.Names

/-!
# Bodies of functions

The body of a function is a list of statements, or a mapping with such a list. Of a mapping only the
list under `body` counts, whatever its kind is: a statement that is given in place of a list of
statements is replaced by the statements of its own body, and left out if it has none. The main
statement says exactly when that shows, in the text or in the journal.
-/

namespace Scriptwright.Script

open Schema

/-! ## The part in front of the body -/

def functionKinds : List String :=
  ["functionDeclaration", "functionExpression", "objectMethod", "classMethod"]

def methodHeader : Rule :=
  [decorators, word "static" "static ", .group [word "async" "async "], .accessor "kind",
    .group [word "generator" "*"], propertyKey, .group [.text "(", listed "params", .text ") "]]

def headerOf (kind : String) : Rule :=
  if ["objectMethod", "classMethod"].contains kind then methodHeader else functionRule.dropLast

def headerCode (kind : String) (es : Fields) : Code :=
  .together (Piece.writtenAll true .expression (headerOf kind) es)

/-- What the text of a function is part of: itself as an expression, a line as a statement. -/
def Mode.placed (layout : Layout) (level : Int) : Mode → String → String
  | .expression, t => t
  | .statement, t => layout.margin level ++ (t ++ "\n")

section Emission

variable {layout : Layout} {level : Int} {kind : String} {es es' : Fields} {v : Value}

theorem emit_braces (es : Fields) (f : String) :
    ((braces f).written true .expression es).emit layout level =
      (blockCode true (Fields.get es f)).emit layout level := by
  have hbraces : (braces f).written true .expression es =
      .together (if (Fields.get es f).statements.isEmpty then [.text "\x7b\x7d"] else
        [.text "\x7b\n", .deeper (.together
          [.together ((Fields.get es f).statements.map (nodeCode true .statement))]), .margin,
            .text "\x7d"]) := rfl
  rw [hbraces, blockCode]
  cases (Fields.get es f).statements.isEmpty with
  | true => exact Code.emit_together_single layout level _
  | false =>
    have hbody : ∀ cs, (Code.deeper (.together [.together cs])).emit layout level =
        (Code.deeper (.together cs)).emit layout level := by
      intro cs
      rw [Code.emit_deeper, Code.emit_deeper, Code.emit_together_single]
    simp only [Bool.false_eq_true, if_false, if_true, Code.emit_together_cons, hbody]

theorem emit_functionRule (hkind : kind ∈ functionKinds) (h : IsNode kind es v) :
    (nodeCode true .expression v).emit layout level =
      ((headerCode kind es).emit layout level).bind fun t =>
        ((blockCode true (Fields.get es "body")).emit layout level).map (t ++ ·) := by
  have hfunction : (Code.together (Piece.writtenAll true .expression functionRule es)).emit
      layout level =
      ((Code.together (Piece.writtenAll true .expression functionRule.dropLast es)).emit layout
        level).bind fun t =>
        ((blockCode true (Fields.get es "body")).emit layout level).map (t ++ ·) := by
    have hparts : Piece.writtenAll true .expression functionRule es =
        Piece.writtenAll true .expression functionRule.dropLast es ++
          [(braces "body").written true .expression es] := rfl
    rw [hparts, Code.emit_together_append, Code.emit_together_single, emit_braces]
  have hmethod : (Code.together (Piece.writtenAll true .expression (method .group) es)).emit
      layout level =
      ((Code.together (Piece.writtenAll true .expression methodHeader es)).emit layout level).bind
        fun t => ((blockCode true (Fields.get es "body")).emit layout level).map (t ++ ·) := by
    let front := Piece.writtenAll true .expression methodHeader.dropLast es
    let params := Piece.writtenAll true .expression [.text "(", listed "params", .text ") "] es
    have hparts : Piece.writtenAll true .expression (method .group) es =
        front ++ [Code.together (params ++ [(braces "body").written true .expression es])] := rfl
    have hheader : Piece.writtenAll true .expression methodHeader es = front ++
        [Code.together params] := rfl
    rw [hparts, hheader, Code.emit_together_append, Code.emit_together_append,
      Code.emit_together_single, Code.emit_together_single, Code.emit_together_append,
      Code.emit_together_single, emit_braces]
    simp only [Emission.map, Emission.bind_bind, Emission.pure_bind, String.append_assoc]
  simp only [functionKinds, List.mem_cons, List.not_mem_nil, or_false] at hkind
  rcases hkind with rfl | rfl | rfl | rfl
  · rw [h.nodeCode_eq true rfl, Code.emit_deferred]
    exact hfunction
  · rw [h.nodeCode_eq true rfl, Code.emit_deferred]
    exact hfunction
  · rw [h.nodeCode_eq true rfl, Code.emit_deferred]
    exact hmethod
  · rw [h.nodeCode_eq true rfl, Code.emit_deferred]
    exact hmethod

/-- A function is its front and its body, and a line of them where it is a statement. -/
theorem emit_function {m : Mode} (hkind : kind ∈ functionKinds)
    (hm : m = .expression ∨ kind = "functionDeclaration") (h : IsNode kind es v) :
    (nodeCode true m v).emit layout level =
      ((headerCode kind es).emit layout level).bind fun t =>
        ((blockCode true (Fields.get es "body")).emit layout level).map fun u =>
          m.placed layout level (t ++ u) := by
  cases m with
  | expression => exact emit_functionRule hkind h
  | statement =>
    obtain rfl : kind = "functionDeclaration" := hm.resolve_left (by decide)
    have hline : (nodeCode true .statement v).emit layout level =
        (Code.together [.margin, nodeCode true .expression (.map es), .text "\n"]).emit
          layout level := by
      rw [h.nodeCode_eq true rfl, Code.emit_deferred]
      exact Code.emit_together_single layout level _
    rw [hline, Code.emit_together_cons, Code.emit_together_cons, Code.emit_together_single,
      emit_functionRule hkind (isNode_map h.kind)]
    simp only [Code.emit_margin, Code.emit_text, Emission.map, Emission.bind_bind,
      Emission.pure_bind, Mode.placed, String.append_assoc]

/-- The front of a function does not look at its body. -/
theorem headerCode_congr (h : ∀ f, f ≠ "body" → Fields.get? es' f = Fields.get? es f) :
    headerCode kind es' = headerCode kind es := by
  have hget : ∀ f, f ≠ "body" → Fields.get es' f = Fields.get es f := by
    intro f hf
    rw [Fields.get, Fields.get, h f hf]
  have hflag : ∀ f, f ≠ "body" → (Test.truthy f).holds es' = (Test.truthy f).holds es :=
    fun f hf => Test.holds_congr (h f hf)
  have hmethod : Piece.writtenAll true .expression methodHeader es' =
      Piece.writtenAll true .expression methodHeader es := by
    simp only [methodHeader, decorators, word, propertyKey, listed, Piece.writtenAll, Piece.written]
    rw [hget "decorators" (by decide), hflag "static" (by decide), hflag "async" (by decide),
      hget "kind" (by decide), hflag "generator" (by decide), hflag "computed" (by decide),
      hget "key" (by decide), hget "params" (by decide)]
  have hfunction : Piece.writtenAll true .expression functionRule.dropLast es' =
      Piece.writtenAll true .expression functionRule.dropLast es := by
    simp only [functionRule, List.dropLast, word, listed, Piece.writtenAll, Piece.written]
    rw [hflag "async" (by decide), hflag "generator" (by decide), hflag "id" (by decide),
      hget "id" (by decide), hget "params" (by decide)]
  rw [headerCode, headerCode, headerOf]
  by_cases hkind : ["objectMethod", "classMethod"].contains kind = true
  · rw [if_pos hkind, hmethod]
  · rw [if_neg hkind, hfunction]

end Emission

/-! ## The body -/

section Body

variable {layout : Layout} {level : Int} {body : Value}

def inBraces (layout : Layout) (level : Int) (t : String) : String :=
  "\x7b\n" ++ (t ++ (layout.margin level ++ "\x7d"))

theorem emit_blockCode_of_nil (h : body.statements = []) :
    (blockCode true body).emit layout level = .pure "\x7b\x7d" := by
  rw [blockCode, h]
  exact Code.emit_text layout level _

theorem emit_blockCode_of_ne_nil (h : body.statements ≠ []) :
    (blockCode true body).emit layout level =
      ((Code.together (body.statements.map (nodeCode true .statement))).emit layout (level + 1)).map
        (inBraces layout level) := by
  have hgiven : body.statements.isEmpty = false := List.isEmpty_eq_false_iff.mpr h
  simp only [blockCode, hgiven, Bool.false_eq_true, if_false, if_true]
  rw [Code.emit_together_cons, Code.emit_together_cons, Code.emit_together_cons,
    Code.emit_together_single]
  simp only [Code.emit_text, Code.emit_deeper, Code.emit_margin, Emission.map, Emission.bind_bind,
    Emission.pure_bind, inBraces]

theorem inBraces_injective (layout : Layout) (level : Int) :
    Function.Injective (inBraces layout level) := by
  intro t u h
  simpa [inBraces, ← String.toList_inj] using h

theorem inBraces_ne (layout : Layout) (level : Int) (t : String) :
    inBraces layout level t ≠ "\x7b\x7d" := by
  intro h
  have hlist := congrArg String.toList h
  simp [inBraces] at hlist

theorem Mode.placed_injective (m : Mode) (layout : Layout) (level : Int) :
    Function.Injective (m.placed layout level) := by
  intro t u h
  cases m with
  | expression => exact h
  | statement => simpa [Mode.placed, ← String.toList_inj] using h

end Body

/-! ## Two pieces from the empty journal -/

section Alone

variable {layout : Layout} {level : Int} {source : Option String} {c d : Code} {j : Journal}

theorem emit_bind_of_error {f : Fault} (h : c.emit layout level (.empty source) = (.error f, j))
    (g : String → Emission String) :
    ((c.emit layout level).bind g) (.empty source) = (.error f, j) := by
  rw [Emission.bind, h]

/-- A piece behind another gives the outcome that it gives alone, and its notes come behind those of
the first. -/
theorem emit_bind_of_ok {t : String} (h : c.emit layout level (.empty source) = (.ok t, j))
    (g : String → String → String) :
    ((c.emit layout level).bind fun t => (d.emit layout level).map (g t)) (.empty source) =
      ((d.emit layout level (.empty source)).1.map (g t),
        ⟨source, j.notes ++ (d.emit layout level (.empty source)).2.notes⟩) := by
  obtain ⟨outcome, notes, hrun⟩ := Code.framed_emit layout c level source
  have hempty : c.emit layout level (.empty source) = (outcome, ⟨source, notes⟩) := hrun []
  cases hempty.symm.trans h
  have hsecond : d.emit layout level ⟨source, notes⟩ = _ :=
    (Code.framed_emit layout d level).eq_of_empty rfl notes
  rw [Emission.bind, h]
  change (d.emit layout level).map (g t) ⟨source, notes⟩ = _
  rw [Emission.map_apply, hsecond]

theorem map_eq_map_iff {f : String → String} (hf : Function.Injective f)
    {x y : Except Fault String} :
    x.map f = y.map f ↔ x = y := by
  refine ⟨fun h => ?_, fun h => by rw [h]⟩
  cases x with
  | error e =>
    cases y with
    | error e' => exact h
    | ok u => cases h
  | ok t =>
    cases y with
    | error e' => cases h
    | ok u =>
      rw [hf (Except.ok.inj h)]

/-- Two pieces behind the same front have one outcome, or the first a diagnostic, just if the front
fails or has a diagnostic or it is so without the front. -/
theorem kept_behind_iff (c a b : Code) {g : String → String → String}
    (hg : ∀ t, Function.Injective (g t)) :
    let run := fun d : Code =>
      ((c.emit layout level).bind fun t => (d.emit layout level).map (g t)) (.empty source)
    let alone := fun d : Code => d.emit layout level (.empty source)
    (run a).1 = (run b).1 ∨ (run a).2.diagnostics ≠ [] ↔
      (alone c).1.isOk = false ∨ (alone c).2.diagnostics ≠ [] ∨
        ((alone a).1 = (alone b).1 ∨ (alone a).2.diagnostics ≠ []) := by
  intro run alone
  cases hfront : c.emit layout level (.empty source) with
  | mk outcome j =>
    have hc : alone c = (outcome, j) := hfront
    rw [hc]
    cases outcome with
    | error f =>
      have hrun : ∀ d, run d = (.error f, j) := fun d => emit_bind_of_error hfront _
      rw [hrun, hrun]
      exact iff_of_true (.inl rfl) (.inl rfl)
    | ok t =>
      have hrun : ∀ d, run d = ((alone d).1.map (g t), ⟨source, j.notes ++ (alone d).2.notes⟩) :=
        fun d => emit_bind_of_ok hfront g
      have hjournal : ∀ k : Journal, (Journal.mk source k.notes).diagnostics = k.diagnostics :=
        fun _ => rfl
      rw [hrun, hrun, map_eq_map_iff (hg t), diagnostics_append, hjournal, hjournal]
      by_cases hj : j.diagnostics = []
      · rw [hj, List.nil_append]
        simp [Except.isOk, Except.toBool]
      · simp [hj]

end Alone

/-- The statements in the body of a function that is given a statement for its body. -/
theorem block_kept_iff (layout : Layout) (level : Int) (source : Option String) (body : Value) :
    let block := fun v : Value => (blockCode true v).emit layout level (.empty source)
    let inner := (Code.together (body.statements.map (nodeCode true .statement))).emit layout
      (level + 1) (.empty source)
    let whole := (nodeCode true .statement body).emit layout (level + 1) (.empty source)
    (block body).1 = (block (.list [body])).1 ∨ (block body).2.diagnostics ≠ [] ↔
      body.statements ≠ [] ∧ (inner.2.diagnostics ≠ [] ∨ inner.1 = whole.1) := by
  intro block inner whole
  have hsingle : block (.list [body]) = (whole.1.map (inBraces layout level), whole.2) := by
    have hne : (Value.list [body]).statements ≠ [] := List.cons_ne_nil body []
    have hone : (Code.together ((Value.list [body]).statements.map (nodeCode true .statement))).emit
        layout (level + 1) =
        (nodeCode true .statement body).emit layout (level + 1) :=
          Code.emit_together_single layout (level + 1) _
    change (blockCode true (.list [body])).emit layout level (.empty source) = _
    rw [emit_blockCode_of_ne_nil hne, Emission.map_apply, hone]
  by_cases hnil : body.statements = []
  · have hblock : block body = (.ok "\x7b\x7d", .empty source) := by
      change (blockCode true body).emit layout level (.empty source) = _
      rw [emit_blockCode_of_nil hnil]
      rfl
    rw [hblock, hsingle]
    refine iff_of_false ?_ fun hkept => hkept.1 hnil
    rintro (hsame | hnoted)
    · cases hwhole : whole.1 with
      | error f =>
        rw [hwhole] at hsame
        cases hsame
      | ok t =>
        rw [hwhole] at hsame
        exact inBraces_ne layout level t (Except.ok.inj hsame).symm
    · exact hnoted rfl
  · have hblock : block body = (inner.1.map (inBraces layout level), inner.2) := by
      change (blockCode true body).emit layout level (.empty source) = _
      rw [emit_blockCode_of_ne_nil hnil, Emission.map_apply]
    rw [hblock, hsingle, map_eq_map_iff (inBraces_injective layout level), or_comm]
    exact (and_iff_right hnil).symm

/-! ## Functions -/

def withBody (es : Fields) (statements : List Value) : Value :=
  .map (Fields.insert es (.string "body") (.list statements))

theorem emit_withBody {layout : Layout} {level : Int} {m : Mode} {kind : String} {es : Fields}
    (hkind : kind ∈ functionKinds) (hm : m = .expression ∨ kind = "functionDeclaration")
    (htag : Fields.get es "type" = .string kind) (statements : List Value) :
    (nodeCode true m (withBody es statements)).emit layout level =
      ((headerCode kind es).emit layout level).bind fun t =>
        ((blockCode true (.list statements)).emit layout level).map fun u =>
          m.placed layout level (t ++ u) := by
  have hother : ∀ f, f ≠ "body" →
      Fields.get? (Fields.insert es (.string "body") (.list statements)) f = Fields.get? es f := by
    intro f hf
    rw [Fields.get?_insert, if_neg hf]
  have hbody : Fields.get (Fields.insert es (.string "body") (.list statements)) "body" =
      .list statements := by
    rw [Fields.get, Fields.get?_insert, if_pos rfl]
    rfl
  have hnode : IsNode kind (Fields.insert es (.string "body") (.list statements))
      (withBody es statements) := by
    refine isNode_map ?_
    rw [Fields.get, hother "type" (by decide)]
    exact htag
  rw [emit_function hkind hm hnode, headerCode_congr hother, hbody]

/-- A function has the statements of the list in its body, and nothing else of it. So it is written
as if its body were the only statement, or with a diagnostic, just if the front of the function
fails or has a diagnostic, or there are statements in that list and they have a diagnostic or the
outcome of the body as a statement. -/
theorem function_body_kept_iff (layout : Layout) (level : Int) (source : Option String) (m : Mode)
    (kind : String) (es : Fields) (v : Value) (hkind : kind ∈ functionKinds)
    (hm : m = .expression ∨ kind = "functionDeclaration") (h : IsNode kind es v) :
    let body := Fields.get es "body"
    let run := fun w => (nodeCode true m w).emit layout level (.empty source)
    let front := (headerCode kind es).emit layout level (.empty source)
    let inner := (Code.together (body.statements.map (nodeCode true .statement))).emit layout
      (level + 1) (.empty source)
    let whole := (nodeCode true .statement body).emit layout (level + 1) (.empty source)
    run v = run (withBody es body.statements) ∧
      ((run v).1 = (run (withBody es [body])).1 ∨ (run v).2.diagnostics ≠ [] ↔
        front.1.isOk = false ∨ front.2.diagnostics ≠ [] ∨
          body.statements ≠ [] ∧ (inner.2.diagnostics ≠ [] ∨ inner.1 = whole.1)) := by
  intro body run front inner whole
  have hplaced : ∀ t, Function.Injective fun u => m.placed layout level (t ++ u) := by
    intro t a b hab
    have happend := m.placed_injective layout level hab
    simpa [← String.toList_inj] using happend
  have hrun : run v = _ := congrFun (emit_function hkind hm h) (.empty source)
  have hwith : ∀ statements, run (withBody es statements) = _ :=
    fun statements => congrFun (emit_withBody hkind hm h.kind statements) (.empty source)
  refine ⟨hrun.trans (hwith body.statements).symm, ?_⟩
  rw [hrun, hwith]
  refine (kept_behind_iff (headerCode kind es) (blockCode true body)
    (blockCode true (.list [body])) hplaced).trans ?_
  exact or_congr_right (or_congr_right (block_kept_iff layout level source body))

/-- The loop around an unknown statement is lost, but the statement is reported. -/
theorem function_body_kept_iff_loop :
    let statement := Value.record [("type", .string "mystery")]
    let body := Value.record [("type", .string "whileStatement"), ("test", .string "ready"),
      ("body", .list [statement])]
    let es := Fields.ofTexts [("type", .string "classMethod"), ("key", .string "f"),
      ("params", .list []), ("body", body)]
    let run := fun w => (nodeCode true .expression w).emit ⟨{}⟩ 0 (.empty none)
    run (.map es) = run (withBody es [statement]) ∧
      ((run (.map es)).1 = (run (withBody es [body])).1 ∨ (run (.map es)).2.diagnostics ≠ []) := by
  intro statement body es run
  have hkept := function_body_kept_iff ⟨{}⟩ 0 none .expression "classMethod" es (.map es)
    (by decide) (.inl rfl)
    (isNode_map rfl)
  have hreported : ((Code.together (body.statements.map (nodeCode true .statement))).emit ⟨{}⟩ 1
      (.empty none)).2.diagnostics.length = 1 := by decide +kernel
  refine ⟨hkept.1, hkept.2.mpr (.inr (.inr ⟨List.cons_ne_nil _ _, .inl fun hnone => ?_⟩))⟩
  exact absurd ((congrArg List.length hnone).symm.trans hreported) (by decide)

/-- A statement that is given for the body of a function is accepted and left out, and nothing is
noted. -/
theorem function_body_dropped :
    let body := Value.record [("type", .string "returnStatement"), ("argument", .string "x")]
    let es := Fields.ofTexts [("type", .string "functionDeclaration"), ("id", .string "f"),
      ("params", .list []), ("body", body)]
    let run := fun w => (nodeCode true .statement w).emit ⟨{}⟩ 0 (.empty none)
    (checkValue nodeDefinitions (refersTo "any" "statement") (.map es) "").Accepts ∧
      (run (.map es)).1.toOption = some "function f() \x7b\x7d\n" ∧ (run (.map es)).2.texts = [] ∧
      (run (withBody es [body])).1.toOption = some "function f() \x7b\n    return x;\n\x7d\n" ∧
      (run (withBody es [body])).2.texts = [] := by
  decide +kernel

end Scriptwright.Script
