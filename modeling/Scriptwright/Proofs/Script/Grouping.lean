import Mathlib.Tactic.SplitIfs
import Scriptwright.Proofs.Schema.Operands
import Scriptwright.Proofs.Script.Emission
import Scriptwright.Proofs.Script.Equations

/-!
# Operator trees

Operations are written without parentheses: an operator stands between the texts of its operands, a
sign in front of the text of its argument. What a text tells about a tree of operators is therefore
its reading, the names, signs and operators from left to right, and no more. The main statement is
that texts are the same exactly if readings are, and that a reading tells the tree if the tree is
grouped the way operators bind.
-/

namespace Scriptwright.Script

open Schema

inductive Operator where
  | plus
  | minus
  | times
  | over
deriving DecidableEq, Repr

inductive Sign where
  | plus
  | minus
deriving DecidableEq, Repr

@[ext]
structure Name where
  text : String
  nonempty : text ≠ ""
  letters : text.toList.all Text.isLetter = true

def Operator.mark : Operator → Char
  | .plus => '+'
  | .minus => '-'
  | .times => '*'
  | .over => '/'

def Sign.mark : Sign → Char
  | .plus => '+'
  | .minus => '-'

inductive OperatorTree where
  | name (x : Name)
  | unary (s : Sign) (argument : OperatorTree)
  | binary (o : Operator) (left right : OperatorTree)

def OperatorTree.node : OperatorTree → Value
  | .name x => identifierNode x.text
  | .unary s argument =>
    .record [("type", .string "unaryExpression"), ("operator", .string (.singleton s.mark)),
      ("argument", argument.node)]
  | .binary o left right =>
    .record [("type", .string "binaryExpression"), ("operator", .string (.singleton o.mark)),
      ("left", left.node), ("right", right.node)]

/-! ## Readings -/

inductive Token where
  | name (x : Name)
  | front (s : Sign)
  | between (o : Operator)

/-- The names, signs and operators of a tree from left to right. -/
def OperatorTree.reading : OperatorTree → List Token
  | .name x => [.name x]
  | .unary s argument => .front s :: argument.reading
  | .binary o left right => left.reading ++ Token.between o :: right.reading

/-- The text of a reading. Two equal signs in a row are kept apart. -/
def spelled : List Token → List Char
  | [] => []
  | .name x :: ts => x.text.toList ++ spelled ts
  | .front s :: ts => if (spelled ts).head? = some s.mark then s.mark :: ' ' :: spelled ts
      else s.mark :: spelled ts
  | .between o :: ts => ' ' :: o.mark :: ' ' :: spelled ts

theorem Name.exists_cons (x : Name) : ∃ c cs, x.text.toList = c :: cs ∧ Text.isLetter c = true := by
  have hne : x.text.toList ≠ [] := fun h => x.nonempty (String.toList_eq_nil_iff.mp h)
  obtain ⟨c, cs, hcs⟩ := List.exists_cons_of_ne_nil hne
  have hletters := x.letters
  rw [hcs, List.all_cons, Bool.and_eq_true] at hletters
  exact ⟨c, cs, hcs, hletters.1⟩

theorem OperatorTree.spelled_reading_ne_nil (t : OperatorTree) (rest : List Token) :
    spelled (t.reading ++ rest) ≠ [] := by
  induction t generalizing rest with
  | name x =>
    obtain ⟨c, cs, hcs, -⟩ := x.exists_cons
    simp [reading, spelled, hcs]
  | unary s argument ih =>
    rw [reading, List.cons_append, spelled]
    split
    · exact List.cons_ne_nil _ _
    · exact List.cons_ne_nil _ _
  | binary o left right ihleft ihright =>
    rw [reading, List.append_assoc]
    exact ihleft _

theorem OperatorTree.spelled_reading_append (t : OperatorTree) (rest : List Token) :
    spelled (t.reading ++ rest) = spelled t.reading ++ spelled rest := by
  induction t generalizing rest with
  | name x => simp [reading, spelled]
  | unary s argument ih =>
    have hhead : (spelled (argument.reading ++ rest)).head? = (spelled argument.reading).head? := by
      have hne := argument.spelled_reading_ne_nil []
      rw [List.append_nil] at hne
      obtain ⟨c, cs, hcs⟩ := List.exists_cons_of_ne_nil hne
      rw [ih, hcs]
      rfl
    rw [reading, List.cons_append, spelled, spelled, hhead, ih]
    split
    · rfl
    · rfl
  | binary o left right ihleft ihright =>
    rw [reading, List.append_assoc, ihleft, ihleft, List.cons_append, spelled, spelled, ihright]
    simp

/-! ## What is written -/

theorem Sign.mark_not_letter (s : Sign) : Text.isLetter s.mark = false := by
  cases s <;> rfl

theorem operatorText_sign (s : Sign) (cs : List Char) :
    operatorText (.singleton s.mark) (.ofList cs) =
      .ofList (if cs.head? = some s.mark then s.mark :: ' ' :: cs else s.mark :: cs) := by
  have hblank : needsBlank [s.mark] cs = true ↔ cs.head? = some s.mark := by
    have hsign : ([s.mark] == ['+'] || [s.mark] == ['-']) = true := by cases s <;> rfl
    cases cs with
    | nil => simp [needsBlank, s.mark_not_letter]
    | cons c cs =>
      rw [needsBlank, hsign, Bool.true_and]
      simp only [List.all_cons, s.mark_not_letter, Bool.false_and, Bool.and_false, Bool.false_or,
        List.isPrefixOf, Bool.and_true, beq_iff_eq, List.head?_cons, Option.some.injEq]
      exact eq_comm
  apply String.toList_injective
  rw [operatorText, String.toList_singleton, String.toList_ofList, String.toList_ofList]
  split_ifs with h h' h'
  · simp
  · exact absurd (hblank.mp h) h'
  · exact absurd (hblank.mpr h') h
  · simp

/-- A tree is written as its reading, with no diagnostics. -/
theorem OperatorTree.emit_node (linked : Bool) (layout : Layout) (level : Int) (t : OperatorTree) :
    (nodeCode linked .expression t.node).emit layout level =
      .pure (.ofList (spelled t.reading)) := by
  have hin : ∀ v, expressionIn linked .expression v = nodeCode linked .expression v :=
    fun v => if_neg (by simp)
  induction t with
  | name x =>
    rw [node, identifierNode, Value.record, nodeCode_map, Code.emit_deferred]
    change (Code.together [.text x.text]).emit layout level = _
    simp [Code.emitAll_cons, reading, spelled]
  | unary s argument ih =>
    rw [node, Value.record, nodeCode_map, Code.emit_deferred]
    change (Code.together [.shaped (.operator (.singleton s.mark))
      [expressionIn linked .expression argument.node]]).emit
      layout level = _
    simp [Code.emitAll_cons, Code.emit_shaped, hin, ih, Shape.apply, operatorText_sign,
      reading, spelled]
  | binary o left right ihleft ihright =>
    rw [node, Value.record, nodeCode_map, Code.emit_deferred]
    change (Code.together [expressionIn linked .expression left.node, .text " ",
      .text (.singleton o.mark), .text " ",
      expressionIn linked .expression right.node]).emit layout level = _
    have htext : String.ofList (spelled left.reading) ++ (" " ++ (String.singleton o.mark ++ (" " ++
        String.ofList (spelled right.reading)))) =
        .ofList (spelled left.reading ++ ' ' :: o.mark :: ' ' :: spelled right.reading) := by
      apply String.toList_injective
      simp
    rw [reading, spelled_reading_append, spelled, ← htext]
    simp [Code.emitAll_cons, hin, ihleft, ihright]

/-! ## Texts tell readings -/

/-- Readings in which operands and operators take turns; with `true` an operand comes first. -/
inductive Readable : Bool → List Token → Prop where
  | name (x : Name) {ts : List Token} (h : Readable false ts) : Readable true (.name x :: ts)
  | front (s : Sign) {ts : List Token} (h : Readable true ts) : Readable true (.front s :: ts)
  | between (o : Operator) {ts : List Token} (h : Readable true ts) : Readable false
      (.between o :: ts)
  | done : Readable false []

theorem OperatorTree.readable_reading (t : OperatorTree) {rest : List Token}
    (h : Readable false rest) :
    Readable true (t.reading ++ rest) := by
  induction t generalizing rest with
  | name x => exact .name x h
  | unary s argument ih => exact .front s (ih h)
  | binary o left right ihleft ihright =>
    rw [reading, List.append_assoc]
    exact ihleft (.between o (ihright h))

theorem Readable.exists_head {ts : List Token} (h : Readable true ts) :
    ∃ c cs, spelled ts = c :: cs ∧ (Text.isLetter c = true ∨ ∃ s : Sign, c = s.mark) := by
  cases h with
  | @name x rest h =>
    obtain ⟨c, cs, hcs, hletter⟩ := x.exists_cons
    refine ⟨c, cs ++ spelled rest, ?_, .inl hletter⟩
    rw [spelled, hcs, List.cons_append]
  | front s h =>
    rw [spelled]
    split
    · exact ⟨_, _, rfl, .inr ⟨s, rfl⟩⟩
    · exact ⟨_, _, rfl, .inr ⟨s, rfl⟩⟩

theorem Readable.head_ne_blank {ts : List Token} (h : Readable true ts) (cs : List Char) :
    spelled ts ≠ ' ' :: cs := by
  obtain ⟨c, ds, hspelled, hhead⟩ := h.exists_head
  rw [hspelled]
  rintro ⟨rfl, -⟩
  rcases hhead with hletter | ⟨s, hs⟩
  · exact absurd hletter (by decide)
  · cases s with
    | _ => exact absurd hs (by decide)

theorem Readable.takeWhile_name {ts : List Token} (h : Readable false ts) (x : Name) :
    (x.text.toList ++ spelled ts).takeWhile Text.isLetter = x.text.toList := by
  have hrest : (spelled ts).takeWhile Text.isLetter = [] := by
    cases h with
    | between o h => rfl
    | done => rfl
  rw [List.takeWhile_append_of_pos (List.all_eq_true.mp x.letters), hrest, List.append_nil]

/-- The text behind a sign, with the blank that may follow it. -/
theorem Readable.eq_of_front {s s' : Sign} {ts us : List Token} (hts : Readable true ts)
    (hus : Readable true us) (h : spelled (.front s :: ts) = spelled (.front s' :: us)) :
    s = s' ∧ spelled ts = spelled us := by
  have hsign : s.mark = s'.mark → s = s' := by
    cases s with
    | _ => cases s' <;> decide
  rw [spelled, spelled] at h
  split_ifs at h
  · injection h with hmark h
    injection h with _ h
    exact ⟨hsign hmark, h⟩
  · injection h with _ h
    exact absurd h.symm (hus.head_ne_blank _)
  · injection h with _ h
    exact absurd h (hts.head_ne_blank _)
  · injection h with hmark h
    exact ⟨hsign hmark, h⟩

theorem Readable.name_ne_front {x : Name} {s : Sign} {ts us : List Token} :
    spelled (.name x :: ts) ≠ spelled (.front s :: us) := by
  obtain ⟨c, cs, hcs, hletter⟩ := x.exists_cons
  have hne : c ≠ s.mark := by
    rintro rfl
    rw [s.mark_not_letter] at hletter
    cases hletter
  rw [spelled, spelled, hcs]
  split_ifs
  · exact fun h => hne (List.cons.inj h).1
  · exact fun h => hne (List.cons.inj h).1

/-- A text can be read in one way only. -/
theorem Readable.eq_of_spelled_eq {b : Bool} {ts us : List Token} (hts : Readable b ts)
    (hus : Readable b us) (h : spelled ts = spelled us) : ts = us := by
  induction hts generalizing us with
  | name x hts ih =>
    cases hus with
    | name y hus =>
      rw [spelled, spelled] at h
      have hname : x.text.toList = y.text.toList := by
        rw [← hts.takeWhile_name x, ← hus.takeWhile_name y, h]
      rw [hname] at h
      rw [Name.ext (String.toList_injective hname), ih hus (List.append_cancel_left h)]
    | front s hus => exact absurd h Readable.name_ne_front
  | front s hts ih =>
    cases hus with
    | name y hus => exact absurd h.symm Readable.name_ne_front
    | front s' hus =>
      obtain ⟨rfl, hrest⟩ := hts.eq_of_front hus h
      rw [ih hus hrest]
  | between o hts ih =>
    cases hus with
    | between o' hus =>
      simp only [spelled, List.cons.injEq, true_and] at h
      have ho : o = o' := by
        have hmark := h.1
        cases o <;> cases o' <;> first | rfl | exact absurd hmark (by decide)
      rw [ho, ih hus h.2]
    | done => cases h
  | done =>
    cases hus with
    | between o hus => cases h
    | done => rfl

/-! ## Readings of grouped trees -/

/-- How tightly an operator binds. -/
def Operator.strength : Operator → Nat
  | .plus | .minus => 1
  | .times | .over => 2

def OperatorTree.strength : OperatorTree → Nat
  | .name _ | .unary _ _ => 3
  | .binary o _ _ => o.strength

/-- Whether a tree is grouped the way operators bind: stronger operators first, equal ones from the
left, signs before all others. -/
def OperatorTree.grouped : OperatorTree → Bool
  | .name _ => true
  | .unary _ argument => argument.grouped && decide (3 ≤ argument.strength)
  | .binary o left right =>
    left.grouped && right.grouped && decide (o.strength ≤ left.strength) && decide
      (o.strength < right.strength)

theorem Operator.strength_lt_three (o : Operator) : o.strength < 3 := by
  cases o <;> decide

theorem OperatorTree.grouped_binary {o : Operator} {left right : OperatorTree}
    (h : (OperatorTree.binary o left right).grouped = true) :
    left.grouped = true ∧ right.grouped = true ∧ o.strength ≤ left.strength ∧
      o.strength < right.strength := by
  simpa only [grouped, Bool.and_eq_true, decide_eq_true_eq, and_assoc] using h

/-- The operator at the root of a grouped tree is a weakest one. -/
theorem OperatorTree.strength_le_of_mem {t : OperatorTree} {o : Operator} (ht : t.grouped = true)
    (ho : Token.between o ∈ t.reading) : t.strength ≤ o.strength := by
  induction t with
  | name x =>
    rw [reading, List.mem_singleton] at ho
    cases ho
  | unary s argument ih =>
    obtain ⟨hargument, hstrength⟩ := Bool.and_eq_true_iff.mp ht
    have hmem : Token.between o ∈ argument.reading := by
      rw [reading, List.mem_cons] at ho
      exact ho.resolve_left (by simp)
    exact Nat.le_trans (of_decide_eq_true hstrength) (ih hargument hmem)
  | binary o' left right ihleft ihright =>
    obtain ⟨hleft, hright, hle, hlt⟩ := grouped_binary ht
    rw [reading, List.mem_append, List.mem_cons] at ho
    rw [strength]
    rcases ho with ho | ho | ho
    · exact Nat.le_trans hle (ihleft hleft ho)
    · cases ho
      exact Nat.le_refl _
    · exact Nat.le_trans (Nat.le_of_lt hlt) (ihright hright ho)

/-- Two roots cannot stand in different places: the one further left would be stronger than the
other, and the other stronger than it or equal. -/
theorem OperatorTree.not_reading_split {o o' : Operator} {left' right : OperatorTree}
    {front middle back : List Token} (hleft : left'.grouped = true)
    (hle : o'.strength ≤ left'.strength) (hright : right.grouped = true)
    (hlt : o.strength < right.strength)
    (hfront : left'.reading = front ++ Token.between o :: middle)
    (hback : right.reading = middle ++ Token.between o' :: back) : False := by
  have ho : left'.strength ≤ o.strength := strength_le_of_mem hleft (by rw [hfront]; simp)
  have ho' : right.strength ≤ o'.strength := strength_le_of_mem hright (by rw [hback]; simp)
  omega

theorem OperatorTree.root_eq {o o' : Operator} {left right left' right' : OperatorTree}
    (ht : (OperatorTree.binary o left right).grouped = true)
    (hu : (OperatorTree.binary o' left' right').grouped = true)
    (h : (OperatorTree.binary o left right).reading =
    (OperatorTree.binary o' left' right').reading) :
    o = o' ∧ left.reading = left'.reading ∧ right.reading = right'.reading := by
  obtain ⟨hleft, hright, hle, hlt⟩ := grouped_binary ht
  obtain ⟨hleft', hright', hle', hlt'⟩ := grouped_binary hu
  rw [reading, reading] at h
  rcases List.append_eq_append_iff.mp h with ⟨middle, hfront, hback⟩ | ⟨middle, hfront, hback⟩
  · cases middle with
    | nil =>
      injection hback with ho hrest
      exact ⟨Token.between.inj ho, by rw [hfront, List.append_nil], hrest⟩
    | cons token middle =>
      injection hback with ho hrest
      rw [← ho] at hfront
      exact (not_reading_split hleft' hle' hright hlt hfront hrest).elim
  · cases middle with
    | nil =>
      injection hback with ho hrest
      exact ⟨(Token.between.inj ho).symm, by rw [hfront, List.append_nil], hrest.symm⟩
    | cons token middle =>
      injection hback with ho hrest
      rw [← ho] at hfront
      exact (not_reading_split hleft hle hright' hlt' hfront hrest).elim

theorem OperatorTree.between_mem_reading (o : Operator) (left right : OperatorTree) :
    Token.between o ∈ (OperatorTree.binary o left right).reading := by
  simp [reading]

theorem OperatorTree.reading_ne_binary {t : OperatorTree} (ht : t.grouped = true)
    (hstrength : t.strength = 3) (o : Operator) (left right : OperatorTree) :
    t.reading ≠ (OperatorTree.binary o left right).reading := by
  intro h
  have hle : t.strength ≤ o.strength := strength_le_of_mem ht (h ▸ between_mem_reading o left right)
  have hlt := o.strength_lt_three
  omega

/-- A reading tells a grouped tree. -/
theorem OperatorTree.eq_of_reading_eq {t u : OperatorTree} (ht : t.grouped = true)
    (hu : u.grouped = true) (h : t.reading = u.reading) : t = u := by
  induction t generalizing u with
  | name x =>
    cases u with
    | name y =>
      cases h
      rfl
    | unary s argument => cases h
    | binary o left right => exact absurd h (reading_ne_binary ht rfl _ _ _)
  | unary s argument ih =>
    cases u with
    | name y => cases h
    | unary s' argument' =>
      obtain ⟨hargument, -⟩ := Bool.and_eq_true_iff.mp ht
      obtain ⟨hargument', -⟩ := Bool.and_eq_true_iff.mp hu
      injection h with hs hrest
      cases hs
      rw [ih hargument hargument' hrest]
    | binary o left right => exact absurd h (reading_ne_binary ht rfl _ _ _)
  | binary o left right ihleft ihright =>
    cases u with
    | name y => exact absurd h.symm (reading_ne_binary hu rfl _ _ _)
    | unary s argument => exact absurd h.symm (reading_ne_binary hu rfl _ _ _)
    | binary o' left' right' =>
      obtain ⟨hleft, hright, -⟩ := grouped_binary ht
      obtain ⟨hleft', hright', -⟩ := grouped_binary hu
      obtain ⟨rfl, hfront, hback⟩ := root_eq ht hu h
      rw [ihleft hleft hleft' hfront, ihright hright hright' hback]

/-- Two operator trees are always written, without diagnostics, and their texts are the same exactly
if they have the same names, signs and operators from left to right. If both are grouped the way
operators bind, the same text means the same tree. -/
theorem emit_eq_iff_reading_eq (linked : Bool) (layout : Layout) (level : Int) (j : Journal)
    (t u : OperatorTree) :
    ∃ a b, (nodeCode linked .expression t.node).emit layout level j = (.ok a, j) ∧
      (nodeCode linked .expression u.node).emit layout level j = (.ok b, j) ∧
      (a = b ↔ t.reading = u.reading) ∧ (t.grouped = true → u.grouped = true → a = b → t = u) := by
  have hreading : String.ofList (spelled t.reading) = .ofList (spelled u.reading) ↔
      t.reading = u.reading := by
    constructor
    · intro h
      have ht := t.readable_reading .done
      have hu := u.readable_reading .done
      rw [List.append_nil] at ht hu
      exact ht.eq_of_spelled_eq hu (String.ofList_injective h)
    · intro h
      rw [h]
  refine ⟨_, _, congrFun (t.emit_node linked layout level) j,
    congrFun (u.emit_node linked layout level) j, hreading, ?_⟩
  intro ht hu h
  exact OperatorTree.eq_of_reading_eq ht hu (hreading.mp h)

/-- Differences grouped from the left are told from a difference with a quotient. -/
theorem emit_eq_iff_reading_eq_difference :
    let x : OperatorTree := .name ⟨"x", by decide, by decide⟩
    let y : OperatorTree := .name ⟨"y", by decide, by decide⟩
    let t : OperatorTree := .binary .minus (.binary .minus x y) (.unary .minus y)
    let u : OperatorTree := .binary .minus x (.binary .over y (.unary .minus y))
    t.grouped = true ∧ u.grouped = true ∧
      ∃ a b, (nodeCode true .expression t.node).emit ⟨{}⟩ 0 (.empty none) = (.ok a, .empty none) ∧
        (nodeCode true .expression u.node).emit ⟨{}⟩ 0 (.empty none) = (.ok b, .empty none) ∧
          a ≠ b := by
  intro x y t u
  have ht : t.grouped = true := rfl
  have hu : u.grouped = true := rfl
  obtain ⟨a, b, ha, hb, -, hsame⟩ := emit_eq_iff_reading_eq true ⟨{}⟩ 0 (.empty none) t u
  have hne : t ≠ u := by simp [t, u]
  exact ⟨ht, hu, a, b, ha, hb, fun hab => hne (hsame ht hu hab)⟩

/-- A sum as a factor is written like a product as a summand. -/
theorem emit_sum_as_factor :
    let a : OperatorTree := .name ⟨"a", by decide, by decide⟩
    let b : OperatorTree := .name ⟨"b", by decide, by decide⟩
    let c : OperatorTree := .name ⟨"c", by decide, by decide⟩
    let t : OperatorTree := .binary .times (.binary .plus a b) c
    let u : OperatorTree := .binary .plus a (.binary .times b c)
    t ≠ u ∧
      (nodeCode true .expression t.node).emit ⟨{}⟩ 0 (.empty none) =
        (.ok "a + b * c", .empty none) ∧
      (nodeCode true .expression u.node).emit ⟨{}⟩ 0 (.empty none) =
        (.ok "a + b * c", .empty none) := by
  intro a b c t u
  refine ⟨by simp [t, u], ?_, ?_⟩
  · exact congrFun (t.emit_node true _ _) _
  · exact congrFun (u.emit_node true _ _) _

end Scriptwright.Script
