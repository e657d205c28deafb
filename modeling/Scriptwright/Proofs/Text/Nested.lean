import Scriptwright.Proofs.Text.Composable

/-!
# Nested brackets

A text is nested if its brackets, with all other characters left out, are opened and closed in
proper order. `Nested` is the grammar of such texts. `nestRun` reads a text with a stack of the
brackets that are to be closed, and a text is nested exactly if reading it from an empty stack ends
with an empty one.
-/

namespace Scriptwright.Text

def closerOf? (c : Char) : Option Char :=
  if c = '(' then some ')' else if c = '[' then some ']'
    else if c = '\x7b' then some '\x7d' else none

inductive Nested : List Char → Prop
  | nil : Nested []
  | other {c : Char} {cs : List Char} (hc : isBracket c = false) (h : Nested cs) : Nested (c :: cs)
  | enclosed {o c : Char} {inside rest : List Char} (hc : closerOf? o = some c)
      (hinside : Nested inside)
    (hrest : Nested rest) : Nested (o :: (inside ++ c :: rest))

/-- The brackets that are to be closed behind a character, the next one first. -/
def nestStep (stack : List Char) (c : Char) : Option (List Char) :=
  match closerOf? c with
  | some d => some (d :: stack)
  | none => if isBracket c then (if stack.head? = some c then some stack.tail else none)
      else some stack

def nestRun (stack cs : List Char) : Option (List Char) := cs.foldlM nestStep stack

def isNested (s : String) : Bool := nestRun [] s.toList == some []

section Run

variable {stack : List Char} {c d : Char} {cs ds : List Char}

theorem isBracket_of_closerOf? (h : closerOf? c = some d) : isBracket c = true := by
  unfold closerOf? at h
  split_ifs at h with h₁ h₂ h₃
  · rw [h₁]
    rfl
  · rw [h₂]
    rfl
  · rw [h₃]
    rfl

theorem isBracket_closer (h : closerOf? c = some d) : isBracket d = true ∧ closerOf? d = none := by
  unfold closerOf? at h
  split_ifs at h <;> cases h <;> decide

theorem nestRun_cons : nestRun stack (c :: cs) = (nestStep stack c).bind fun s => nestRun s cs :=
  List.foldlM_cons

theorem nestRun_append : nestRun stack (cs ++ ds) = (nestRun stack cs).bind fun s => nestRun s ds :=
  List.foldlM_append

theorem nestRun_open (h : closerOf? c = some d) :
    nestRun stack (c :: cs) = nestRun (d :: stack) cs := by
  rw [nestRun_cons, nestStep, h]
  rfl

theorem nestStep_bracket (hc : closerOf? c = none) (h : isBracket c = true) :
    nestStep stack c = if stack.head? = some c then some stack.tail else none := by
  rw [nestStep, hc]
  exact if_pos h

theorem nestRun_close (h : closerOf? c = some d) :
    nestRun (d :: stack) (d :: cs) = nestRun stack cs := by
  obtain ⟨hbracket, hnone⟩ := isBracket_closer h
  rw [nestRun_cons, nestStep_bracket hnone hbracket, List.head?_cons, if_pos rfl]
  rfl

theorem nestRun_other (h : isBracket c = false) : nestRun stack (c :: cs) = nestRun stack cs := by
  have hnone : closerOf? c = none := by
    cases hc : closerOf? c with
    | none => rfl
    | some d =>
      rw [isBracket_of_closerOf? hc] at h
      cases h
  rw [nestRun_cons, nestStep, hnone]
  dsimp only
  rw [h]
  rfl

/-- What lies below on the stack does not matter as long as it is not reached. -/
theorem nestStep_frame {stack' : List Char} (h : nestStep stack c = some stack')
    (below : List Char) :
    nestStep (stack ++ below) c = some (stack' ++ below) := by
  cases hc : closerOf? c with
  | some d =>
    rw [nestStep, hc] at h ⊢
    cases h
    rfl
  | none =>
    by_cases hbracket : isBracket c = true
    · rw [nestStep_bracket hc hbracket] at h ⊢
      split_ifs at h with hhead
      obtain ⟨rest, rfl⟩ := List.head?_eq_some_iff.mp hhead
      cases h
      exact if_pos rfl
    · rw [nestStep, hc] at h ⊢
      dsimp only at h ⊢
      rw [if_neg hbracket] at h ⊢
      cases h
      rfl

theorem nestRun_frame {stack' : List Char} (h : nestRun stack cs = some stack')
    (below : List Char) :
    nestRun (stack ++ below) cs = some (stack' ++ below) := by
  induction cs generalizing stack with
  | nil =>
    cases h
    rfl
  | cons c cs ih =>
    rw [nestRun_cons] at h ⊢
    obtain ⟨s, hs, hrest⟩ := Option.bind_eq_some_iff.mp h
    rw [nestStep_frame hs below, Option.bind_some, ih hrest]

end Run

/-! ## The grammar -/

theorem Nested.append {cs ds : List Char} (hcs : Nested cs) (hds : Nested ds) :
    Nested (cs ++ ds) := by
  induction hcs with
  | nil => exact hds
  | other hc _ ih => exact .other hc ih
  | enclosed hc hinside _ _ ih =>
    rw [List.cons_append, List.append_assoc, List.cons_append]
    exact .enclosed hc hinside ih

theorem Nested.run {cs : List Char} (h : Nested cs) (stack : List Char) :
    nestRun stack cs = some stack := by
  induction h generalizing stack with
  | nil => rfl
  | other hc _ ih => rw [nestRun_other hc, ih]
  | enclosed hc _ _ ihinside ihrest =>
    rw [nestRun_open hc, nestRun_append, ihinside, Option.bind_some, nestRun_close hc, ihrest]

/-- Texts that close the brackets of a stack and are nested in between. -/
inductive Closes : List Char → List Char → Prop
  | done {cs : List Char} (h : Nested cs) : Closes [] cs
  | close {d : Char} {stack inside rest : List Char} (hinside : Nested inside)
      (hrest : Closes stack rest) :
    Closes (d :: stack) (inside ++ d :: rest)

theorem Closes.prepend {stack cs ds : List Char} (hcs : Nested cs) (h : Closes stack ds) :
    Closes stack (cs ++ ds) := by
  cases h with
  | done hds => exact .done (hcs.append hds)
  | close hinside hrest =>
    rw [← List.append_assoc]
    exact .close (hcs.append hinside) hrest

theorem closes_of_nestRun {stack cs : List Char} (h : nestRun stack cs = some []) :
    Closes stack cs := by
  induction cs generalizing stack with
  | nil =>
    cases h
    exact .done .nil
  | cons c cs ih =>
    cases hc : closerOf? c with
    | some d =>
      rw [nestRun_open hc] at h
      cases ih h with
      | close hinside hrest =>
        have hpair := Nested.enclosed hc hinside .nil
        have hwhole := hrest.prepend hpair
        simpa using hwhole
    | none =>
      by_cases hbracket : isBracket c = true
      · rw [nestRun_cons, nestStep_bracket hc hbracket] at h
        split_ifs at h with hhead
        · obtain ⟨rest, rfl⟩ := List.head?_eq_some_iff.mp hhead
          exact Closes.close .nil (ih h)
        · cases h
      · rw [Bool.not_eq_true] at hbracket
        rw [nestRun_other hbracket] at h
        exact Closes.prepend (.other hbracket .nil) (ih h)

theorem nested_iff_nestRun {cs : List Char} : Nested cs ↔ nestRun [] cs = some [] := by
  constructor
  · intro h
    exact h.run []
  · intro h
    cases closes_of_nestRun h with
    | done hcs => exact hcs

theorem isNested_iff {s : String} : isNested s = true ↔ Nested s.toList := by
  rw [isNested, beq_iff_eq, nested_iff_nestRun]

/-! ## Composing nested texts -/

theorem nested_of_forall {cs : List Char} (h : ∀ c ∈ cs, isBracket c = false) : Nested cs := by
  induction cs with
  | nil => exact .nil
  | cons c cs ih =>
    exact .other (h c List.mem_cons_self) (ih fun d hd => h d (List.mem_cons_of_mem _ hd))

theorem isBracket_of_isPlain {c : Char} (h : isPlain c = true) : isBracket c = false := by
  simpa using (Bool.and_eq_true_iff.mp h).1

theorem Nested.flatMap {cs : List Char} {f : Char → List Char} (hf : ∀ c, Respelled c (f c))
    (h : Nested cs) :
    Nested (cs.flatMap f) := by
  have hbracket : ∀ c, isBracket c = true → f c = [c] := by
    intro c hc
    rcases hf c with hsame | ⟨hnot, -⟩
    · exact hsame
    · rw [hc] at hnot
      cases hnot
  induction h with
  | nil => exact .nil
  | @other c cs hc _ ih =>
    rw [List.flatMap_cons]
    refine Nested.append ?_ ih
    rcases hf c with hsame | ⟨-, hplain⟩
    · rw [hsame]
      exact .other hc .nil
    · exact nested_of_forall fun d hd => isBracket_of_isPlain (hplain d hd)
  | @enclosed o c inside rest hc _ _ ihinside ihrest =>
    rw [List.flatMap_cons, List.flatMap_append, List.flatMap_cons,
      hbracket o (isBracket_of_closerOf? hc), hbracket c (isBracket_closer hc).1]
    exact .enclosed hc ihinside ihrest

theorem Nested.between {o c : Char} {cs : List Char} (hc : closerOf? o = some c) (h : Nested cs) :
    Nested (o :: (cs ++ [c])) :=
  .enclosed hc h .nil

theorem composable_nested : Composable fun s => Nested s.toList where
  plain h := nested_of_forall fun c hc => isBracket_of_isPlain (h c hc)
  append hs ht := by
    rw [String.toList_append]
    exact hs.append ht
  round h := by simpa using Nested.between (o := '(') rfl h
  square h := by simpa using Nested.between (o := '[') rfl h
  curly h := by simpa using Nested.between (o := '\x7b') rfl h
  respelled hf h := by
    rw [String.toList_ofList]
    exact h.flatMap hf

end Scriptwright.Text
