import Scriptwright.Proofs.Script.Grouping
import Scriptwright.Proofs.Script.Spelling

/-!
# Chains of unary operators

A reader of source text cuts it into symbols and always takes the longest one, so that two signs in
a row can become one. `symbols` cuts a text that way. The main statement is that a chain of unary
operators is cut into just those operators, from the outside in, and the symbols of the operand at
its end: the blank that `operatorText` puts behind some operators is there whenever it is needed.
-/

namespace Scriptwright.Script

open Text

/-! ## The longest symbol -/

def signMarks : List (List Char) := [['+', '+'], ['-', '-'], ['+'], ['-'], ['!'], ['~']]

/-- Whether a text is a single symbol: a sign, a word or a row of digits. -/
def isSymbol (cs : List Char) : Bool :=
  signMarks.contains cs || (!cs.isEmpty && (cs.all isLetter || cs.all Char.isDigit))

/-- The longest symbol of at most `n` characters that a text begins with, and what follows it. -/
def symbolWithin? (cs : List Char) : Nat → Option (List Char × List Char)
  | 0 => none
  | n + 1 => if isSymbol (cs.take (n + 1)) then some (cs.take (n + 1), cs.drop (n + 1))
      else symbolWithin? cs n

def longestSymbol? (cs : List Char) : Option (List Char × List Char) := symbolWithin? cs cs.length

theorem length_lt_of_symbolWithin {cs s rest : List Char} {n : Nat} (hcs : cs ≠ [])
    (h : symbolWithin? cs n = some (s, rest)) : rest.length < cs.length := by
  induction n with
  | zero => cases h
  | succ n ih =>
    rw [symbolWithin?] at h
    split_ifs at h with hsymbol
    · cases h
      have hpos := List.length_pos_iff.mpr hcs
      rw [List.length_drop]
      omega
    · exact ih h

/-- The symbols of a text, with the blanks between them left out. There are none if some part of it
is no symbol. -/
def symbols : List Char → Option (List String)
  | [] => some []
  | c :: cs =>
    if c = ' ' then symbols cs
    else
      match h : longestSymbol? (c :: cs) with
      | none => none
      | some (s, rest) =>
        have := length_lt_of_symbolWithin (List.cons_ne_nil c cs) h
        (symbols rest).map (String.ofList s :: ·)
termination_by cs => cs.length
decreasing_by
  · exact Nat.lt_succ_self _
  · exact this

/-! ## Where a symbol ends -/

/-- The text behind a symbol does not carry it on. -/
def EndsAt (s rest : List Char) : Prop := ∀ c, rest.head? = some c → isSymbol (s ++ [c]) = false

theorem isSymbol_iff {cs : List Char} :
    isSymbol cs = true ↔ cs ∈ signMarks ∨ cs ≠ [] ∧
      ((∀ c ∈ cs, isLetter c = true) ∨ ∀ c ∈ cs, c.isDigit = true) := by
  simp [isSymbol]

theorem isSymbol_of_append {s t : List Char} {c : Char} (hs : s ≠ [])
    (h : isSymbol (s ++ c :: t) = true) :
    isSymbol (s ++ [c]) = true := by
  rw [isSymbol_iff] at h ⊢
  rcases h with hsign | ⟨-, hword | hdigits⟩
  · apply Or.inl
    obtain ⟨d, ds, rfl⟩ := List.exists_cons_of_ne_nil hs
    -- a sign has no more than two characters
    cases ds with
    | nil =>
      cases t with
      | nil => exact hsign
      | cons e t => simp [signMarks] at hsign
    | cons e ds => simp [signMarks] at hsign
  · refine .inr ⟨by simp, .inl fun d hd => hword d ?_⟩
    rw [List.mem_append, List.mem_singleton] at hd
    rcases hd with hd | rfl
    · exact List.mem_append_left _ hd
    · simp
  · refine .inr ⟨by simp, .inr fun d hd => hdigits d ?_⟩
    rw [List.mem_append, List.mem_singleton] at hd
    rcases hd with hd | rfl
    · exact List.mem_append_left _ hd
    · simp

theorem ne_nil_of_isSymbol {s : List Char} (h : isSymbol s = true) : s ≠ [] := by
  rintro rfl
  cases h

theorem head_ne_blank_of_isSymbol {c : Char} {cs : List Char} (h : isSymbol (c :: cs) = true) :
    c ≠ ' ' := by
  rintro rfl
  rcases isSymbol_iff.mp h with hsign | ⟨-, hword | hdigits⟩
  · simp [signMarks] at hsign
  · exact absurd (hword ' ' List.mem_cons_self) (by decide)
  · exact absurd (hdigits ' ' List.mem_cons_self) (by decide)

/-- A symbol that is not carried on is the longest one. The induction is on the number of characters
behind it that are tried in vain. -/
theorem longestSymbol?_append {s rest : List Char} (hs : isSymbol s = true)
    (hrest : EndsAt s rest) :
    longestSymbol? (s ++ rest) = some (s, rest) := by
  have hne := ne_nil_of_isSymbol hs
  have htried : ∀ n ≤ rest.length, symbolWithin? (s ++ rest) (s.length + n) = some (s, rest) := by
    intro n hn
    induction n with
    | zero =>
      obtain ⟨k, hk⟩ := Nat.exists_eq_succ_of_ne_zero (mt List.length_eq_zero_iff.mp hne)
      rw [Nat.add_zero, hk, symbolWithin?, ← Nat.succ_eq_add_one, ← hk, List.take_left,
        List.drop_left, if_pos hs]
    | succ n ih =>
      obtain ⟨c, cs, rfl⟩ := List.exists_cons_of_length_pos (Nat.lt_of_lt_of_le (Nat.succ_pos n) hn)
      have hlonger : isSymbol ((s ++ c :: cs).take (s.length + n + 1)) = false := by
        rw [Nat.add_assoc, List.take_length_add_append, List.take_succ_cons]
        apply Bool.eq_false_iff.mpr
        intro hsymbol
        have hshort := isSymbol_of_append hne hsymbol
        rw [hrest c rfl] at hshort
        cases hshort
      rw [← Nat.add_assoc, symbolWithin?, hlonger, if_neg Bool.false_ne_true]
      exact ih (Nat.le_of_succ_le hn)
  rw [longestSymbol?, List.length_append]
  exact htried rest.length (Nat.le_refl _)

theorem symbols_blank (cs : List Char) : symbols (' ' :: cs) = symbols cs := by
  rw [symbols, if_pos rfl]

theorem symbols_append {s rest : List Char} (hs : isSymbol s = true) (hrest : EndsAt s rest) :
    symbols (s ++ rest) = (symbols rest).map (String.ofList s :: ·) := by
  obtain ⟨c, cs, rfl⟩ := List.exists_cons_of_ne_nil (ne_nil_of_isSymbol hs)
  have hlongest := longestSymbol?_append hs hrest
  rw [List.cons_append] at hlongest ⊢
  rw [symbols, if_neg (head_ne_blank_of_isSymbol hs)]
  split
  · next hnone => cases hlongest.symm.trans hnone
  · next s' rest' hsome =>
    cases hlongest.symm.trans hsome
    rfl

theorem symbols_single {s : List Char} (hs : isSymbol s = true) :
    symbols s = some [String.ofList s] := by
  have hrest : EndsAt s [] := fun c hc => by cases hc
  have hsymbols := symbols_append hs hrest
  rw [List.append_nil] at hsymbols
  rw [hsymbols, symbols, Option.map_some]

/-! ## Operators in front -/

inductive UnaryOperator where
  | plus
  | minus
  | not
  | complement
  | typeof
  | void
  | delete
deriving DecidableEq, Repr

def UnaryOperator.text : UnaryOperator → String
  | .plus => "+"
  | .minus => "-"
  | .not => "!"
  | .complement => "~"
  | .typeof => "typeof"
  | .void => "void"
  | .delete => "delete"

theorem UnaryOperator.isSymbol_text (o : UnaryOperator) : isSymbol o.text.toList = true := by
  cases o <;> decide

theorem UnaryOperator.endsAt_blank (o : UnaryOperator) (cs : List Char) :
    EndsAt o.text.toList (' ' :: cs) := by
  intro c hc
  cases hc
  cases o <;> decide

/-- A sign of one character is carried on only by itself. -/
theorem isSymbol_pair {c d : Char} (hc : c = '+' ∨ c = '-' ∨ c = '!' ∨ c = '~') (hd : d ≠ c) :
    isSymbol [c, d] = false := by
  apply Bool.eq_false_iff.mpr
  intro h
  rcases isSymbol_iff.mp h with hsign | ⟨-, hword | hdigits⟩
  · simp only [signMarks, List.mem_cons, List.cons.injEq, and_true, List.not_mem_nil,
      or_false, and_false, reduceCtorEq] at hsign
    rcases hsign with ⟨rfl, rfl⟩ | ⟨rfl, rfl⟩
    · exact hd rfl
    · exact hd rfl
  · have hletter := hword c List.mem_cons_self
    rcases hc with rfl | rfl | rfl | rfl
    all_goals exact absurd hletter (by decide)
  · have hdigit := hdigits c List.mem_cons_self
    rcases hc with rfl | rfl | rfl | rfl
    all_goals exact absurd hdigit (by decide)

theorem isSymbol_doubled {c : Char} (hc : c = '!' ∨ c = '~') : isSymbol [c, c] = false := by
  rcases hc with rfl | rfl
  · decide
  · decide

/-- An operator that stands without a blank in front of a text is not carried on by it. -/
theorem UnaryOperator.endsAt_of_needsBlank {o : UnaryOperator} {cs : List Char}
    (h : needsBlank o.text.toList cs = false) : EndsAt o.text.toList cs := by
  have hsign : ∀ s : Sign, needsBlank [s.mark] cs = false → EndsAt [s.mark] cs := by
    intro s hblank c hc
    have hmark : ([s.mark] == ['+'] || [s.mark] == ['-']) = true := by cases s <;> rfl
    have hne : c ≠ s.mark := by
      rintro rfl
      obtain ⟨ds, rfl⟩ := List.head?_eq_some_iff.mp hc
      rw [needsBlank, hmark] at hblank
      simp at hblank
    refine isSymbol_pair ?_ hne
    cases s with
    | plus => exact .inl rfl
    | minus => exact .inr (.inl rfl)
  have hword : ∀ w : List Char, w.isEmpty = false → w.all isLetter = true →
      needsBlank w cs = true := by
    intro w hne hletters
    rw [needsBlank, hne, hletters]
    rfl
  cases o with
  | plus => exact hsign .plus h
  | minus => exact hsign .minus h
  | not =>
    intro c _
    by_cases hc : c = '!'
    · rw [hc]
      exact isSymbol_doubled (.inl rfl)
    · exact isSymbol_pair (.inr (.inr (.inl rfl))) hc
  | complement =>
    intro c _
    by_cases hc : c = '~'
    · rw [hc]
      exact isSymbol_doubled (.inr rfl)
    · exact isSymbol_pair (.inr (.inr (.inr rfl))) hc
  | typeof => cases (hword _ (by decide) (by decide)).symm.trans h
  | void => cases (hword _ (by decide) (by decide)).symm.trans h
  | delete => cases (hword _ (by decide) (by decide)).symm.trans h

/-- An operator in front of any text is a symbol of its own. -/
theorem symbols_operatorText (o : UnaryOperator) (t : String) :
    symbols (operatorText o.text t).toList = (symbols t.toList).map (o.text :: ·) := by
  have htext : String.ofList o.text.toList = o.text := String.ofList_toList
  rw [operatorText]
  split_ifs with hblank
  · have hspaced : (o.text ++ " " ++ t).toList = o.text.toList ++ ' ' :: t.toList := by simp
    rw [hspaced, symbols_append o.isSymbol_text (o.endsAt_blank _), symbols_blank, htext]
  · have hends := UnaryOperator.endsAt_of_needsBlank (Bool.eq_false_iff.mpr hblank)
    rw [String.toList_append, symbols_append o.isSymbol_text hends, htext]

/-! ## Operands -/

/-- What a chain of operators can end in. -/
inductive ChainOperand where
  | name (x : Name)
  /-- A name that is counted up or down, with the operator in front of it or behind it. -/
  | update (before : Bool) (s : Sign) (x : Name)
  | number (n : Int)

def Sign.doubled (s : Sign) : String := String.ofList [s.mark, s.mark]

def ChainOperand.text : ChainOperand → String
  | .name x => x.text
  | .update true s x => s.doubled ++ x.text
  | .update false s x => x.text ++ s.doubled
  | .number n => toString n

def ChainOperand.symbols : ChainOperand → List String
  | .name x => [x.text]
  | .update true s x => [s.doubled, x.text]
  | .update false s x => [x.text, s.doubled]
  | .number n => if n < 0 then ["-", toString n.natAbs] else [toString n.natAbs]

/-- Whether an operand is spelled out: a number with too many digits is not. -/
def ChainOperand.writable : ChainOperand → Bool
  | .number n => (Value.int n).writable
  | _ => true

theorem Name.isSymbol_text (x : Name) : isSymbol x.text.toList = true :=
  isSymbol_iff.mpr (.inr ⟨fun h => x.nonempty (String.toList_eq_nil_iff.mp h),
    .inl (List.all_eq_true.mp x.letters)⟩)

theorem Name.endsAt (x : Name) {rest : List Char}
    (h : ∀ c, rest.head? = some c → isLetter c = false) :
    EndsAt x.text.toList rest := by
  intro c hc
  obtain ⟨d, ds, hds, hletter⟩ := x.exists_cons
  apply Bool.eq_false_iff.mpr
  intro hsymbol
  rw [hds, isSymbol_iff] at hsymbol
  rcases hsymbol with hsign | ⟨-, hword | hdigits⟩
  · simp only [signMarks, List.mem_cons, List.not_mem_nil, or_false, List.cons_append,
      List.cons.injEq] at hsign
    rcases hsign with ⟨rfl, -⟩ | ⟨rfl, -⟩ | ⟨rfl, -⟩ | ⟨rfl, -⟩ | ⟨rfl, -⟩ | ⟨rfl, -⟩
    all_goals exact absurd hletter (by decide)
  · have hlast := hword c (by simp)
    rw [h c hc] at hlast
    cases hlast
  · -- a letter is no digit
    obtain ⟨hge, hle⟩ := Char.isDigit_iff_toNat.mp (hdigits d (by simp))
    have hsmall : d.toNat < 128 := Nat.lt_of_le_of_lt hle (by decide)
    rw [isLetter, if_pos hsmall] at hletter
    have hnine : '9'.toNat = 57 := rfl
    have hupper : d.isUpper = true → 65 ≤ d.toNat :=
      fun hd => UInt32.le_iff_toNat_le.mp (of_decide_eq_true hd).1
    have hlower : d.isLower = true → 97 ≤ d.toNat := fun hd =>
      UInt32.le_iff_toNat_le.mp (of_decide_eq_true (Bool.and_eq_true_iff.mp hd).1)
    rcases Bool.or_eq_true_iff.mp hletter with hd | hd
    · have := hupper hd
      omega
    · have := hlower hd
      omega

theorem isSymbol_toDigits (n : Nat) : isSymbol (Nat.toDigits 10 n) = true :=
  isSymbol_iff.mpr (.inr ⟨Nat.toDigits_ne_nil,
    .inr fun _ hc => Nat.isDigit_of_mem_toDigits (by decide) (by decide) hc⟩)

theorem Sign.isSymbol_doubled (s : Sign) : isSymbol s.doubled.toList = true := by
  cases s <;> decide

theorem Sign.endsAt_doubled (s : Sign) (rest : List Char) : EndsAt s.doubled.toList rest := by
  intro c _
  apply Bool.eq_false_iff.mpr
  intro h
  have hdoubled : s.doubled.toList = [s.mark, s.mark] := String.toList_ofList
  rw [hdoubled, isSymbol_iff] at h
  rcases h with hsign | ⟨-, hword | hdigits⟩
  · simp [signMarks] at hsign
  · have hletter := hword s.mark List.mem_cons_self
    rw [s.mark_not_letter] at hletter
    cases hletter
  · have hdigit := hdigits s.mark List.mem_cons_self
    cases s with
    | _ => exact absurd hdigit (by decide)

theorem symbols_number (n : Int) :
    symbols (toString n).toList = some (ChainOperand.number n).symbols := by
  have hdigits : ∀ k : Nat, (toString k).toList = Nat.toDigits 10 k := fun k => String.toList_ofList
  have hcut : ∀ k : Nat, symbols (Nat.toDigits 10 k) = some [toString k] := by
    intro k
    rw [symbols_single (isSymbol_toDigits k), ← hdigits, String.ofList_toList]
  cases n with
  | ofNat k =>
    have htext : (toString (Int.ofNat k)).toList = Nat.toDigits 10 k := hdigits k
    rw [htext, hcut]
    rfl
  | negSucc k =>
    have htext : (toString (Int.negSucc k)).toList = ['-'] ++ Nat.toDigits 10 (k + 1) := by
      change ("-" ++ String.ofList (Nat.toDigits 10 (k + 1))).toList = _
      simp
    have hends : EndsAt ['-'] (Nat.toDigits 10 (k + 1)) := by
      intro c hc
      have hmem : c ∈ Nat.toDigits 10 (k + 1) := List.mem_of_mem_head? hc
      refine isSymbol_pair (.inr (.inl rfl)) ?_
      rintro rfl
      exact absurd (@Nat.isDigit_of_mem_toDigits 10 (k + 1) '-' (by decide) (by decide) hmem)
        (by decide)
    rw [htext, symbols_append (by decide) hends, hcut, ChainOperand.symbols,
      if_pos (Int.negSucc_lt_zero k)]
    rfl

theorem ChainOperand.symbols_text (o : ChainOperand) :
    Script.symbols o.text.toList = some o.symbols := by
  have hname : ∀ x : Name, Script.symbols x.text.toList = some [x.text] := by
    intro x
    rw [symbols_single x.isSymbol_text, String.ofList_toList]
  cases o with
  | name x => exact hname x
  | number n => exact symbols_number n
  | update before s x =>
    cases before with
    | true =>
      have hsymbols := symbols_append s.isSymbol_doubled (s.endsAt_doubled x.text.toList)
      rw [hname, String.ofList_toList] at hsymbols
      rw [text, String.toList_append, hsymbols]
      rfl
    | false =>
      have hends : EndsAt x.text.toList s.doubled.toList := by
        refine x.endsAt fun c hc => ?_
        have hmark : c = s.mark := by
          rw [Sign.doubled, String.toList_ofList] at hc
          exact (Option.some.inj hc).symm
        rw [hmark, s.mark_not_letter]
      have hsymbols := symbols_append x.isSymbol_text hends
      rw [symbols_single s.isSymbol_doubled, String.ofList_toList, String.ofList_toList] at hsymbols
      rw [text, String.toList_append, hsymbols]
      rfl

/-! ## Chains -/

/-- How an operand is given: names and numbers as they are or as nodes. -/
inductive ChainOperand.GivenAs : ChainOperand → Value → Prop where
  | bareName (x : Name) : GivenAs (.name x) (.string x.text)
  | name {x : Name} {es : Fields} {v : Value} (h : IsNode "identifier" es v)
    (hname : Fields.get es "name" = .string x.text) : GivenAs (.name x) v
  | update {before : Bool} {s : Sign} {x : Name} {es : Fields} {v : Value}
      (h : IsNode "updateExpression" es v)
    (hbefore : (Fields.get es "prefix").truthy = before)
      (hoperator : Fields.get es "operator" = .string s.doubled)
    (hargument : GivenAs (.name x) (Fields.get es "argument")) : GivenAs (.update before s x) v
  | bareNumber (n : Int) : GivenAs (.number n) (.int n)
  | number {n : Int} {es : Fields} {v : Value} (h : IsNode "literal" es v)
      (hraw : Fields.has es "raw" = false)
    (hvalue : Fields.get es "value" = .int n) : GivenAs (.number n) v

/-- A value that is a chain of unary operators, given from the outside in, in front of an
operand. -/
inductive Chain (o : ChainOperand) : List UnaryOperator → Value → Prop where
  | operand {v : Value} (h : o.GivenAs v) : Chain o [] v
  | operator {op : UnaryOperator} {ops : List UnaryOperator} {es : Fields} {v : Value}
      (h : IsNode "unaryExpression" es v)
    (hoperator : Fields.get es "operator" = .string op.text)
      (hargument : Chain o ops (Fields.get es "argument")) :
    Chain o (op :: ops) v

def chainText (o : ChainOperand) (ops : List UnaryOperator) : String :=
  ops.foldr (fun op t => operatorText op.text t) o.text

/-- A chain is cut into its operators and the symbols of its operand. -/
theorem symbols_chainText (o : ChainOperand) (ops : List UnaryOperator) :
    symbols (chainText o ops).toList = some (ops.map UnaryOperator.text ++ o.symbols) := by
  induction ops with
  | nil => exact o.symbols_text
  | cons op ops ih =>
    rw [chainText, List.foldr_cons, symbols_operatorText]
    change (symbols (chainText o ops).toList).map _ = _
    rw [ih]
    rfl

section Emission

variable {linked : Bool} {layout : Layout} {level : Int} {es : Fields}

theorem getD_of_get {f s : String} (h : Fields.get es f = .string s) (other : Value) :
    Fields.getD es f other = .string s := by
  rw [Fields.get] at h
  rw [Fields.getD]
  cases hfield : Fields.get? es f with
  | none =>
    rw [hfield] at h
    cases h
  | some v =>
    rw [hfield] at h
    exact h

theorem emit_nodeCode_string (s : String) :
    (nodeCode linked .expression (.string s)).emit layout level = .pure s := by
  rw [nodeCode_of_atom linked .expression rfl fun es h => by cases h]
  exact Code.emit_text layout level s

theorem IsNode.emit_eq {kind : String} {v : Value} {m : Mode} {rule : Rule} (h : IsNode kind es v)
    (hrule : m.rules.lookup kind = some rule) :
    (nodeCode linked m v).emit layout level =
      (Code.together (Piece.writtenAll linked m rule es)).emit layout level := by
  rw [h.nodeCode_eq linked hrule, Code.emit_deferred]

def ChainOperand.emission (o : ChainOperand) (t : String) : Emission String :=
  if o.writable then .pure t else .fail .badValue

theorem emit_spelled_number (n : Int) :
    (Code.ofExcept ((Value.int n).written (Code.text (toString n)))).emit layout level =
      (ChainOperand.number n).emission (toString n) := by
  rw [Value.written, ChainOperand.emission, ChainOperand.writable]
  cases (Value.int n).writable with
  | true => exact Code.emit_text layout level _
  | false => exact Code.emit_stop layout level _

/-- An operand is written as its text, with no diagnostics. -/
theorem ChainOperand.GivenAs.emit_eq {o : ChainOperand} {v : Value} (h : o.GivenAs v) :
    (nodeCode linked .expression v).emit layout level = o.emission o.text := by
  induction h with
  | bareName x => exact emit_nodeCode_string x.text
  | @name x es v h hname =>
    rw [h.emit_eq rfl]
    simp [Piece.writtenAll, Piece.written, identifier, getD_of_get hname, Code.emitAll_cons,
      emission, writable, text]
  | @update before s x es v h hbefore hoperator _ ih =>
    have hargument : (expressionIn linked .expression
        (Fields.get es "argument")).emit layout level = .pure x.text := by
      rw [expressionIn_expression]
      exact ih
    rw [h.emit_eq rfl]
    cases before with
    | true =>
      simp [Piece.writtenAll, Piece.written, Test.holds, hbefore, getD_of_get hoperator, hargument,
        Code.emitAll_cons, emission, writable, text]
    | false =>
      simp [Piece.writtenAll, Piece.written, Test.holds, hbefore, getD_of_get hoperator, hargument,
        Code.emitAll_cons, emission, writable, text]
  | bareNumber n =>
    rw [nodeCode_int]
    exact emit_spelled_number n
  | @number n es v h hraw hvalue =>
    have hdata : Code.ofExcept (((Fields.get es "value").encode .wide).map .text) =
        .ofExcept ((Value.int n).written (.text (toString n))) := by
      rw [hvalue, Value.encode_int, Value.map_written]
    rw [h.emit_eq rfl]
    simp only [Piece.writtenAll, Piece.written, Test.holds, hraw, Bool.false_eq_true,
      if_false, hdata]
    rw [Code.emit_together_single, Code.emit_together_single]
    exact emit_spelled_number n

theorem Chain.emit_eq {o : ChainOperand} {ops : List UnaryOperator} {v : Value}
    (h : Chain o ops v) :
    (nodeCode linked .expression v).emit layout level = o.emission (chainText o ops) := by
  induction h with
  | operand h => exact h.emit_eq
  | @operator op ops es v h hoperator _ ih =>
    have hargument : (expressionIn linked .expression
        (Fields.get es "argument")).emit layout level = o.emission (chainText o ops) := by
      rw [expressionIn_expression]
      exact ih
    have hoperand : ∀ c : Code, unaryCode (Fields.getD es "operator" (.string "")) c =
        .shaped (.operator op.text) [c] := by
      intro c
      rw [getD_of_get hoperator]
      rfl
    rw [h.emit_eq rfl]
    simp only [Piece.writtenAll, Piece.written, hoperand]
    rw [Code.emit_together_single, Code.emit_shaped, Code.emitAll_cons, hargument]
    unfold ChainOperand.emission
    split
    · simp [Shape.apply, chainText]
    · rfl

end Emission

/-- A chain of unary operators is written without diagnostics, and its text is cut into just these
operators and the symbols of what stands at its end. Only a number with too many digits at its end
keeps it from being written. -/
theorem symbols_emit_chain (linked : Bool) (layout : Layout) (level : Int) (j : Journal)
    (o : ChainOperand) (ops : List UnaryOperator) (v : Value) (h : Chain o ops v) :
    (o.writable = true → ∃ text, (nodeCode linked .expression v).emit layout level j =
      (.ok text, j) ∧
        symbols text.toList = some (ops.map UnaryOperator.text ++ o.symbols)) ∧
      (o.writable = false → (nodeCode linked .expression v).emit layout level j =
        (.error .badValue, j)) := by
  have hemit := congrFun (@Chain.emit_eq linked layout level o ops v h) j
  constructor
  · intro ho
    rw [ChainOperand.emission, if_pos ho] at hemit
    exact ⟨chainText o ops, hemit, symbols_chainText o ops⟩
  · intro ho
    rw [ChainOperand.emission, ho] at hemit
    exact hemit

def unaryNode (op : UnaryOperator) (argument : Value) : Value :=
  .map [(.string "type", .string "unaryExpression"), (.string "operator", .string op.text),
    (.string "argument", argument)]

theorem chain_unaryNode {o : ChainOperand} {ops : List UnaryOperator} {v : Value}
    (op : UnaryOperator) (h : Chain o ops v) : Chain o (op :: ops) (unaryNode op v) :=
  .operator (isNode_map rfl) rfl h

/-- Signs in front of a name that is counted down, with a word between them. -/
theorem symbols_emit_chain_decrement :
    let x : Name := ⟨"x", by decide, by decide⟩
    let operand := Value.map [(.string "type", .string "updateExpression"),
      (.string "operator", .string "--"), (.string "argument", .string "x"),
      (.string "prefix", .bool true)]
    let v := unaryNode .plus (unaryNode .plus (unaryNode .typeof (unaryNode .minus operand)))
    Chain (.update true .minus x) [.plus, .plus, .typeof, .minus] v ∧
      (ChainOperand.update true .minus x).writable = true ∧
      ∃ text, (nodeCode true .expression v).emit ⟨{}⟩ 0 (.empty none) = (.ok text, .empty none) ∧
        symbols text.toList = some ["+", "+", "typeof", "-", "--", "x"] := by
  intro x operand v
  have hoperand : (ChainOperand.update true .minus x).GivenAs operand :=
    .update (isNode_map rfl) rfl rfl (.bareName x)
  have hchain : Chain (.update true .minus x) [.plus, .plus, .typeof, .minus] v :=
    chain_unaryNode .plus (chain_unaryNode .plus
      (chain_unaryNode .typeof (chain_unaryNode .minus (.operand hoperand))))
  exact ⟨hchain, rfl, (symbols_emit_chain true _ 0 _ _ _ v hchain).1 rfl⟩

/-- The least number that is not spelled out, with a sign in front of it. -/
theorem emit_negated_long_integer :
    Chain (.number (10 ^ mostDigits)) [.minus] (unaryNode .minus (.int (10 ^ mostDigits))) ∧
      (nodeCode true .expression (unaryNode .minus (.int (10 ^ mostDigits)))).emit ⟨{}⟩ 0
        (.empty none) =
        (.error .badValue, .empty none) := by
  have hchain := chain_unaryNode .minus (.operand (.bareNumber (10 ^ mostDigits)))
  have hemit := congrFun (@Chain.emit_eq true ⟨{}⟩ 0 _ _ _ hchain) (.empty none)
  rw [ChainOperand.emission, ChainOperand.writable, Value.not_writable_power] at hemit
  exact ⟨hchain, hemit⟩

end Scriptwright.Script
