import Scriptwright.Proofs.Script.Literal
import Scriptwright.Proofs.Script.Roles
import Scriptwright.Proofs.Text.Margin
import Scriptwright.Proofs.Text.Nested

/-!
# Brackets in emitted text

Every rule closes the brackets it opens, whichever of its branches are taken. So emitted text is
nested if all texts of the value are, and if no text that is taken apart into characters holds a
bracket.
-/

namespace Scriptwright.Script

open Text

/-- Whether a text is nested, and also the expression that it stands for, if it is marked as one. -/
def isNestedText (s : String) : Bool := isNested s && (dynamicExpression? s).all isNested

/-- Whether a value that is gone through is no text with brackets. -/
def Use.isWhole : Use → Bool
  | .sequence (.string s) => s.toList.all fun c => !isBracket c
  | _ => true

/-- No text that writing a value goes through holds a bracket. -/
def NoneTakenApart (r : Role) (v : Value) : Prop := ∀ u ∈ r.uses v, u.isWhole = true

instance (r : Role) (v : Value) : Decidable (NoneTakenApart r v) :=
  inferInstanceAs (Decidable (∀ u ∈ r.uses v, u.isWhole = true))

/-- Reading a text leads from one stack to another, whatever lies below. -/
def Moves (a b cs : List Char) : Prop := ∀ below, nestRun (a ++ below) cs = some (b ++ below)

def bracketTracker : Tracker where
  State := List Char
  mid := []
  start := []
  fresh := []
  text a t := nestRun a t.toList
  margin a := some a
  inline _ := true
  lines _ := true
  merge a b := if a = b then some a else none

def bracketing : Discipline where
  toTracker := bracketTracker
  levels l l' := l = l'
  related a b t t' := t = t' ∧ Moves a b t.toList

theorem traced_bracketTracker (m : Mode) : bracketTracker.traced m = true := by
  cases m <;> decide +kernel

theorem shapely_bracketTracker : bracketTracker.Shapely where
  marks := by decide +kernel
  enclosures := by decide +kernel
  enclosesLines := by decide +kernel
  margin_start := rfl
  inline_fresh := rfl
  lineEnd := by decide +kernel

theorem roleSide_bracketTracker (r : Role) : bracketTracker.roleSide r = [] := by
  cases r with
  | node m => cases m <;> rfl
  | _ => rfl

section Moves

variable {a b c cs ds : List Char}

theorem Moves.append (hcs : Moves a b cs) (hds : Moves b c ds) : Moves a c (cs ++ ds) := by
  intro below
  rw [nestRun_append, hcs below, Option.bind_some, hds below]

theorem Moves.lift (h : Moves [] [] cs) : Moves a a cs := by
  intro below
  exact h (a ++ below)

theorem moves_of_nested (h : Nested cs) : Moves a a cs := fun below => h.run (a ++ below)

theorem nested_of_moves (h : Moves [] [] cs) : Nested cs := nested_iff_nestRun.mpr (h [])

end Moves

theorem Options.nested_margin (o : Options) (l : Int) : Nested (o.layout.margin l).toList := by
  refine nested_of_forall fun c hc => ?_
  rcases o.eq_of_mem_margin l c hc with rfl | rfl
  · rfl
  · rfl

theorem lawful_bracketing (o : Options) : bracketing.Lawful o.layout fun t => Nested t.toList where
  toShapely := shapely_bracketTracker
  deeper h := congrArg (· + 1) h
  nil := ⟨rfl, moves_of_nested .nil⟩
  append ht hu := by
    obtain ⟨rfl, ht⟩ := ht
    obtain ⟨rfl, hu⟩ := hu
    refine ⟨rfl, ?_⟩
    rw [String.toList_append]
    exact ht.append hu
  text h := ⟨rfl, nestRun_frame h⟩
  margin {a b l l'} h hl := by
    cases h
    cases hl
    exact ⟨rfl, moves_of_nested (o.nested_margin l)⟩
  inline _ ht := ⟨ht.1, ht.2.lift⟩
  lines _ ht := ⟨ht.1, ht.2.lift⟩
  merge {a b c d t t'} h ht := by
    have hmerge : (if b = c then some b else none) = some d := h
    split_ifs at hmerge with hbc
    cases hmerge
    subst hbc
    exact ht.elim id id
  leaf h := ⟨rfl, moves_of_nested h⟩
  eq_iff ht hu := by rw [ht.1, hu.1]
  needsBlank h := by rw [h.1]
  startsDeclaration h := by rw [h.1]

/-! ## Texts of a value -/

theorem admits_nested {layout : Layout} (hquote : isNested layout.quote = true) :
    Admits layout (fun t => Nested t.toList) isNestedText where
  composable := composable_nested
  text _ hs := isNested_iff.mp (Bool.and_eq_true_iff.mp hs).1
  dynamic s e hs he := by
    have hall := (Bool.and_eq_true_iff.mp hs).2
    rw [he] at hall
    exact isNested_iff.mp hall
  quote := isNested_iff.mp hquote

theorem isNestedText_singleton {c : Char} (h : isBracket c = false) :
    isNestedText (String.singleton c) = true := by
  have hall : ∀ d ∈ (String.singleton c).toList, isBracket d = false := by
    intro d hd
    rw [String.toList_singleton, List.mem_singleton] at hd
    rw [hd, h]
  have hnone : dynamicExpression? (String.singleton c) = none := by
    cases he : inDoubleBraces? (dropLastBreak (String.singleton c).toList) with
    | none => rw [dynamicExpression?, he, Option.map_none]
    | some ds =>
      have hbrace : '\x7b' ∈ dropLastBreak (String.singleton c).toList := by
        rw [eq_of_inDoubleBraces he]
        exact List.mem_cons_self
      cases hall _ (mem_of_mem_dropLastBreak hbrace)
  rw [isNestedText, hnone, isNested_iff.mpr (nested_of_forall hall)]
  rfl

theorem NoneTakenApart.spelled {r : Role} {v : Value} (h : NoneTakenApart r v) :
    Spelled isNestedText r v := by
  intro w hw _
  cases w with
  | string s =>
    refine List.all_eq_true.mpr fun c hc => isNestedText_singleton ?_
    simpa using List.all_eq_true.mp (h _ hw) c hc
  | _ => rfl

/-- Written text is nested in every role, at every level: statements, expressions and markup alike.
-/
theorem nested_of_emit_eq_ok (o : Options) (linked : Bool) (level : Int) (r : Role) (v : Value)
    (hquote : isNested o.quote = true) (hv : v.everyText isNestedText = true)
    (hwhole : Throughout NoneTakenApart r v) (j j' : Journal) (t : String)
    (ht : (r.code linked v).emit o.layout level j = (.ok t, j')) :
    Nested t.toList := by
  have hadmits : Admits o.layout (fun t => Nested t.toList) isNestedText := admits_nested hquote
  have hkeeps := keeps_code hadmits (lawful_bracketing o) (passesDown_throughout NoneTakenApart)
    (fun r v h => h.here.spelled) linked traced_bracketTracker hwhole hv level level rfl j
  rw [ht] at hkeeps
  cases hkeeps with
  | ok h =>
    have hmoves : Moves (bracketTracker.roleSide r) (bracketTracker.roleSide r) t.toList := h.2
    rw [roleSide_bracketTracker] at hmoves
    exact nested_of_moves hmoves

/-- Brackets in a name, a function among the arguments of a call, and a handler and a finalizer
behind a block. -/
theorem nested_of_emit_eq_ok_try :
    let function := Value.record [("type", .string "arrowFunctionExpression"), ("params", .list []),
      ("body", .list [.record [("type", .string "returnStatement"),
        ("argument", .string "rows[0]")]])]
    let call := Value.record [("type", .string "callExpression"), ("callee", .string "defer"),
      ("arguments", .list [function])]
    let block :=
      Value.list [.record [("type", .string "expressionStatement"), ("expression", call)]]
    let statements := Value.list [.record [("type", .string "tryStatement"), ("block", block),
      ("handler", .record [("param", .string "e"), ("body", .list [])]), ("finalizer", block)]]
    let options : Options := {}
    isNested options.quote = true ∧ statements.everyText isNestedText = true ∧
      Throughout NoneTakenApart .statements statements ∧
      ∃ t j, (sequenceCode true statements).emit options.layout 1 (.empty none) = (.ok t, j) ∧
        Nested t.toList := by
  intro function call block statements options
  have hquote : isNested options.quote = true := by decide +kernel
  have htexts : statements.everyText isNestedText = true := by decide +kernel
  have hwhole : Throughout NoneTakenApart .statements statements :=
    throughout_of_within (n := 8) (by decide +kernel)
  have hok : ((sequenceCode true statements).emit options.layout 1 (.empty none)).1.isOk = true :=
    by decide +kernel
  refine ⟨hquote, htexts, hwhole, ?_⟩
  cases hemit : (sequenceCode true statements).emit options.layout 1 (.empty none) with
  | mk outcome j =>
    rw [hemit] at hok
    cases outcome with
    | error f => cases hok
    | ok t =>
      exact ⟨t, j, rfl, nested_of_emit_eq_ok options true 1
        .statements statements hquote htexts hwhole _ j t hemit⟩

end Scriptwright.Script
