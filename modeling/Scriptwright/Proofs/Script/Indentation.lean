import Scriptwright.Proofs.Script.Literal
import Scriptwright.Proofs.Script.Roles
import Scriptwright.Proofs.Text.Margin

/-!
# Indentation

What is written at a level is what is written at level zero with a margin in front of its lines.
Statements and markup are whole lines; an expression stands behind something else in its first line,
which therefore gets no margin. The decisions that emission takes by looking at written text do not
depend on the level.
-/

namespace Scriptwright.Script

open Text

/-! ## Sides of a line -/

inductive Side where
  /-- In front of the margin. -/
  | start
  /-- Behind the margin. -/
  | fresh
  | mid
deriving DecidableEq, Repr

/-- The side behind a text, which may break the line only at its end. -/
def Side.read (a : Side) (cs : List Char) : Option Side :=
  if cs.isEmpty then some a
  else if a == .start || cs.dropLast.contains '\n' then none
  else if endsLine cs then some .start
  else some .mid

/-- Behind some text is also behind the margin. -/
def Side.merge : Side → Side → Option Side
  | .start, .start => some .start
  | .mid, .mid => some .mid
  | .start, _ | _, .start => none
  | _, _ => some .fresh

/-- The part of the margin that a text at a side still has to write. -/
def Side.owed (m : List Char) : Side → List Char
  | .start => m
  | _ => []

/-- How a text ends that goes from one side to another. -/
def Side.Ends (a : Side) : Side → List Char → Prop
  | .start, cs => cs = [] ∧ a = .start ∨ endsLine cs = true
  | .fresh, _ => True
  | .mid, cs => cs = [] ∧ a = .mid ∨ cs ≠ [] ∧ endsLine cs = false

/-- The second text is the first one with a margin in front of its lines. -/
def Shifted (m : List Char) (a b : Side) (t t' : String) : Prop :=
  t'.toList ++ b.owed m = a.owed m ++ hang m t.toList ∧ a.Ends b t.toList

def sideTracker : Tracker where
  State := Side
  mid := .mid
  start := .start
  fresh := .fresh
  text a t := a.read t.toList
  margin a := if a = .start then some .fresh else none
  inline a := a != .start
  lines a := a == .start
  merge := Side.merge

def indentation (layout : Layout) (further : Nat) : Discipline where
  toTracker := sideTracker
  levels l l' := 0 ≤ l ∧ l' = l + further
  related := Shifted (layout.margin further).toList

theorem traced_sideTracker (m : Mode) : sideTracker.traced m = true := by
  cases m <;> decide +kernel

theorem shapely_sideTracker : sideTracker.Shapely where
  marks := by decide +kernel
  enclosures := by decide +kernel
  enclosesLines := by decide +kernel
  margin_start := rfl
  inline_fresh := rfl
  lineEnd := by decide +kernel

section Shifted

variable {m : List Char} {a b c : Side} {t t' u u' : String}

theorem Side.owed_of_ne (h : a ≠ .start) : a.owed m = [] := by
  cases a with
  | start => exact absurd rfl h
  | _ => rfl

theorem endsLine_append {cs ds : List Char} (h : ds ≠ []) : endsLine (cs ++ ds) = endsLine ds := by
  rw [endsLine, endsLine, List.getLast?_append_of_ne_nil cs h]

theorem Side.Ends.append {cs ds : List Char} (hcs : a.Ends b cs) (hds : b.Ends c ds) :
    a.Ends c (cs ++ ds) := by
  cases c with
  | fresh => trivial
  | start =>
    rcases hds with ⟨rfl, rfl⟩ | hds
    · rw [List.append_nil]
      exact hcs
    · have hne : ds ≠ [] := by
        rintro rfl
        cases hds
      exact .inr (by rw [endsLine_append hne, hds])
  | mid =>
    rcases hds with ⟨rfl, rfl⟩ | ⟨hne, hds⟩
    · rw [List.append_nil]
      exact hcs
    · exact .inr ⟨by simp [hne], by rw [endsLine_append hne, hds]⟩

theorem Shifted.nil : Shifted m a a "" "" := by
  refine ⟨by simp, ?_⟩
  cases a with
  | start => exact .inl ⟨rfl, rfl⟩
  | fresh => trivial
  | mid => exact .inl ⟨rfl, rfl⟩

theorem Shifted.append (ht : Shifted m a b t t') (hu : Shifted m b c u u') :
    Shifted m a c (t ++ u) (t' ++ u') := by
  obtain ⟨ht, htends⟩ := ht
  obtain ⟨hu, huends⟩ := hu
  constructor
  · rw [String.toList_append, String.toList_append, List.append_assoc, hu, ← List.append_assoc, ht,
      hang_append, List.append_assoc]
  · rw [String.toList_append]
    exact htends.append huends

theorem endsLine_eq_false {cs : List Char} (h : '\n' ∉ cs) : endsLine cs = false := by
  by_contra hends
  rw [Bool.not_eq_false, endsLine, beq_iff_eq] at hends
  exact h (List.mem_of_getLast? hends)

theorem Shifted.of_not_mem (ha : a ≠ .start) (ht : t.toList ≠ []) (h : '\n' ∉ t.toList) :
    Shifted m a .mid t t := by
  refine ⟨?_, .inr ⟨ht, endsLine_eq_false h⟩⟩
  rw [Side.owed_of_ne ha, hang_of_not_mem h, Side.owed_of_ne (by decide), List.append_nil,
    List.nil_append]

theorem Shifted.leaf (h : '\n' ∉ t.toList) : Shifted m .mid .mid t t := by
  by_cases ht : t.toList = []
  · have hempty : t = "" := String.toList_injective ht
    rw [hempty]
    exact Shifted.nil
  · exact Shifted.of_not_mem (by decide) ht h

theorem Shifted.lineBreak (ha : a ≠ .start) (h : '\n' ∉ t.toList.dropLast)
    (hends : endsLine t.toList = true) :
    Shifted m a .start t t := by
  obtain ⟨cs, hcs⟩ := List.getLast?_eq_some_iff.mp (beq_iff_eq.mp hends)
  refine ⟨?_, .inr hends⟩
  rw [hcs, List.dropLast_concat] at h
  rw [Side.owed_of_ne ha, hcs, hang_append, hang_of_not_mem h, hang_cons_break, hang_nil, Side.owed]
  simp

theorem Shifted.of_read (h : a.read t.toList = some b) : Shifted m a b t t := by
  unfold Side.read at h
  split_ifs at h with hempty hnone hends
  · have ht : t = "" := String.toList_injective (List.isEmpty_iff.mp hempty)
    cases h
    rw [ht]
    exact Shifted.nil
  · obtain ⟨ha, hinside⟩ : a ≠ .start ∧ '\n' ∉ t.toList.dropLast := by simpa using hnone
    cases h
    exact Shifted.lineBreak ha hinside hends
  · obtain ⟨ha, hinside⟩ : a ≠ .start ∧ '\n' ∉ t.toList.dropLast := by simpa using hnone
    have hne : t.toList ≠ [] := fun he => hempty (by rw [he]; rfl)
    cases h
    refine Shifted.of_not_mem ha hne fun hmem => ?_
    rw [← List.dropLast_append_getLast hne, List.mem_append, List.mem_singleton] at hmem
    rcases hmem with hmem | hlast
    · exact hinside hmem
    · exact hends (by rw [endsLine, List.getLast?_eq_some_getLast hne, ← hlast, beq_self_eq_true])

theorem Side.eq_or_of_merge {d : Side} (h : b.merge c = some d) :
    b = d ∧ c = d ∨ d = .fresh ∧ b ≠ .start ∧ c ≠ .start := by
  revert h
  cases b <;> cases c <;> cases d <;> decide

theorem Shifted.fresh (hb : b ≠ .start) (h : Shifted m a b t t') : Shifted m a .fresh t t' := by
  refine ⟨?_, trivial⟩
  rw [← h.1, Side.owed_of_ne hb]
  rfl

theorem Shifted.merge {d : Side} (hmerge : b.merge c = some d)
    (h : Shifted m a b t t' ∨ Shifted m a c t t') :
    Shifted m a d t t' := by
  rcases Side.eq_or_of_merge hmerge with ⟨rfl, rfl⟩ | ⟨rfl, hb, hc⟩
  · exact h.elim id id
  · exact h.elim (Shifted.fresh hb) (Shifted.fresh hc)

theorem Shifted.eq_iff (ht : Shifted m a a t t') (hu : Shifted m a a u u') : t = u ↔ t' = u' := by
  constructor
  · rintro rfl
    have h : t'.toList ++ a.owed m = u'.toList ++ a.owed m := by rw [ht.1, hu.1]
    exact String.toList_injective (List.append_cancel_right h)
  · rintro rfl
    have h : a.owed m ++ hang m t.toList = a.owed m ++ hang m u.toList := by rw [← ht.1, ← hu.1]
    exact String.toList_injective (hang_injective (List.append_cancel_left h))

theorem Shifted.toList_eq (h : Shifted m .mid .mid t t') : t'.toList = hang m t.toList := by
  simpa [Side.owed] using h.1

theorem Shifted.lines (h : Shifted m .start .start t t') : t'.toList = indent m true t.toList := by
  obtain ⟨heq, hends⟩ := h
  refine List.append_cancel_right (heq.trans ?_)
  rcases hends with ⟨hnil, -⟩ | hends
  · rw [hnil, hang_nil, List.append_nil]
    rfl
  · have hne : t.toList ≠ [] := by
      intro hnil
      rw [hnil] at hends
      cases hends
    have hindent := indent_append (m := m) true hne
    rw [if_pos hends] at hindent
    exact hindent.symm

theorem Shifted.expression (h : Shifted m .mid .mid t t') :
    t'.toList = indent m false t.toList := by
  rw [h.toList_eq]
  rcases h.2 with ⟨hnil, -⟩ | ⟨hne, hends⟩
  · rw [hnil]
    rfl
  · have hindent := indent_append (m := m) false hne
    rw [hends] at hindent
    simpa using hindent.symm

end Shifted

/-! ## Layouts -/

theorem Layout.margin_add (layout : Layout) {l : Int} (hl : 0 ≤ l) (further : Nat) :
    layout.margin (l + further) = layout.margin further ++ layout.margin l := by
  have hlevel : (l + (further : Int)).toNat = (further : Int).toNat + l.toNat := by omega
  rw [Layout.margin, Layout.margin, Layout.margin, hlevel, List.replicate_add, String.join_append]

theorem Options.isBlank_of_mem_margin (o : Options) (l : Int) :
    ∀ c ∈ (o.layout.margin l).toList, isBlank c = true ∧ c ≠ '\n' := by
  intro c hc
  rcases o.eq_of_mem_margin l c hc with rfl | rfl
  · decide
  · decide

theorem Shifted.margin (o : Options) {l : Int} (hl : 0 ≤ l) (further : Nat) :
    Shifted (o.layout.margin further).toList .start .fresh (o.layout.margin l)
      (o.layout.margin (l + further)) := by
  have hbreak : '\n' ∉ (o.layout.margin l).toList :=
    fun hmem => (o.isBlank_of_mem_margin l _ hmem).2 rfl
  refine ⟨?_, trivial⟩
  rw [o.layout.margin_add hl, String.toList_append, hang_of_not_mem hbreak, Side.owed,
    Side.owed_of_ne (by decide), List.append_nil]

theorem lawful_indentation (o : Options) (further : Nat) :
    (indentation o.layout further).Lawful o.layout fun t => '\n' ∉ t.toList where
  toShapely := shapely_sideTracker
  deeper h := ⟨by have := h.1; omega, by have := h.2; omega⟩
  nil := Shifted.nil
  append := Shifted.append
  text := Shifted.of_read
  margin {a b l l'} h hl := by
    obtain ⟨hnonneg, rfl⟩ := hl
    obtain ⟨rfl, rfl⟩ : a = .start ∧ b = .fresh := by
      cases a <;> cases h
      exact ⟨rfl, rfl⟩
    exact Shifted.margin o hnonneg further
  inline {a t t'} h ht := by
    cases a with
    | start => cases h
    | fresh => exact ⟨ht.1, trivial⟩
    | mid => exact ht
  lines {a t t'} h ht := by
    cases a with
    | start => exact ht
    | _ => cases h
  merge := Shifted.merge
  leaf := Shifted.leaf
  eq_iff := Shifted.eq_iff
  needsBlank h := by rw [Shifted.toList_eq h, needsBlank_hang]
  startsDeclaration h := by
    rw [Shifted.toList_eq h, startsDeclaration_hang _ fun c hc =>
      (o.isBlank_of_mem_margin further c hc).1]

/-! ## Texts on one line -/

theorem isOneLine_iff {s : String} : isOneLine s = true ↔ '\n' ∉ s.toList := by
  simp [isOneLine]

theorem composable_oneLine : Composable fun t => '\n' ∉ t.toList where
  plain h hmem := by
    have hplain := h _ hmem
    cases hplain
  append hs ht := by
    rw [String.toList_append, List.mem_append]
    exact not_or.mpr ⟨hs, ht⟩
  round h := by simpa using h
  square h := by simpa using h
  curly h := by simpa using h
  respelled {s f} hf h hmem := by
    rw [String.toList_ofList, List.mem_flatMap] at hmem
    obtain ⟨c, hc, hmem⟩ := hmem
    rcases hf c with hsame | ⟨-, hplain⟩
    · rw [hsame, List.mem_singleton] at hmem
      exact h (hmem ▸ hc)
    · cases hplain _ hmem

theorem admits_oneLine {layout : Layout} (hquote : isOneLine layout.quote = true) :
    Admits layout (fun t => '\n' ∉ t.toList) isOneLine where
  composable := composable_oneLine
  text _ := isOneLine_iff.mp
  dynamic _ _ hs he hmem := isOneLine_iff.mp hs (mem_of_dynamicExpression he _ hmem)
  quote := isOneLine_iff.mp hquote

/-- Going through a text on one line yields texts on one line. -/
theorem spelled_oneLine (r : Role) (v : Value) : Spelled isOneLine r v := by
  intro w _ hw
  cases w with
  | string s =>
    refine List.all_eq_true.mpr fun c hc => isOneLine_iff.mpr fun hmem => ?_
    rw [String.toList_singleton, List.mem_singleton] at hmem
    exact isOneLine_iff.mp hw (hmem ▸ hc)
  | _ => rfl

/-! ## Emission at a level -/

theorem Outcomes.eq_map {x y : Emission String} {f : String → String}
    (h : ∀ j, Outcomes (fun t t' => t' = f t) (x j) (y j)) : y = x.map f := by
  funext j
  have hj := h j
  unfold Emission.map Emission.bind
  generalize x j = p at hj
  generalize y j = r at hj
  cases hj with
  | ok ht => exact congrArg (fun t => (Except.ok t, _)) ht
  | error => rfl

theorem shifted_code {o : Options} (linked : Bool) {further : Nat} {v : Value} (r : Role)
    (hquote : isOneLine o.quote = true) (hv : v.everyText isOneLine = true) (j : Journal) :
    Outcomes (Shifted (o.layout.margin further).toList (sideTracker.roleSide r)
      (sideTracker.roleSide r)) ((r.code linked v).emit o.layout 0 j)
        ((r.code linked v).emit o.layout further j) := by
  have hkeeps := keeps_code (H := fun _ _ => True) (admits_oneLine hquote)
    (lawful_indentation o further)
    (fun _ _ _ _ _ _ => trivial) (fun r v _ => spelled_oneLine r v) linked traced_sideTracker
      (r := r) trivial hv
  exact hkeeps 0 further ⟨by omega, by omega⟩ j

/-- Statements and markup at a level are those at level zero with a margin in front of every line,
and an expression has a margin in front of every line but the first. Notes and faults are the same
at all levels. -/
theorem emit_eq_map_indented (o : Options) (linked : Bool) (further : Nat) (v : Value)
    (hquote : isOneLine o.quote = true) (hv : v.everyText isOneLine = true) :
    (sequenceCode linked v).emit o.layout further =
        ((sequenceCode linked v).emit o.layout 0).map (indented (o.layout.margin further) true) ∧
      (forestCode v).emit o.layout further =
        ((forestCode v).emit o.layout 0).map (indented (o.layout.margin further) true) ∧
      (nodeCode linked .expression v).emit o.layout further =
        ((nodeCode linked .expression v).emit o.layout 0).map
          (indented (o.layout.margin further) false) := by
  have hlines : ∀ t t', Shifted (o.layout.margin further).toList .start .start t t' →
      t' = indented (o.layout.margin further) true t := by
    intro t t' ht
    rw [indented, ← ht.lines, String.ofList_toList]
  have hexpression : ∀ t t', Shifted (o.layout.margin further).toList .mid .mid t t' →
      t' = indented (o.layout.margin further) false t := by
    intro t t' ht
    rw [indented, ← ht.expression, String.ofList_toList]
  refine ⟨?_, ?_, ?_⟩
  · exact Outcomes.eq_map fun j => (shifted_code linked .statements hquote hv j).mono hlines
  · exact Outcomes.eq_map fun j => (shifted_code linked .forest hquote hv j).mono hlines
  · exact Outcomes.eq_map fun j =>
      (shifted_code linked (.node .expression) hquote hv j).mono hexpression

/-- A function with a body of its own among the arguments of a call, in a branch of a condition. -/
theorem emit_eq_map_indented_call :
    let function := Value.record [("type", .string "arrowFunctionExpression"),
  ("params", .list [.string "item"]),
      ("body", .list [.record [("type", .string "returnStatement"),
        ("argument", .string "item.name")]])]
    let call := Value.record [("type", .string "callExpression"), ("callee", .string "items.map"),
      ("arguments", .list [function])]
    let statements :=
      Value.list [.record [("type", .string "ifStatement"), ("test", .string "ready"),
        ("consequent", .list [.record [("type", .string "expressionStatement"),
        ("expression", call)]])]]
    let options : Options := { indentStyle := "tabs" }
    isOneLine options.quote = true ∧ statements.everyText isOneLine = true ∧
      (sequenceCode true statements).emit options.layout 2 =
        ((sequenceCode true statements).emit options.layout 0).map (indented "\t\t" true) := by
  intro function call statements options
  have hquote : isOneLine options.quote = true := by decide
  have hstatements : statements.everyText isOneLine = true := by decide +kernel
  exact ⟨hquote, hstatements, (emit_eq_map_indented options true 2 statements hquote hstatements).1⟩

end Scriptwright.Script
