import Scriptwright.Script.Literal
import Mathlib.Tactic.SplitIfs

/-!
# Texts that stand for expressions

A text that is marked as an expression holds the expression between double braces, and one line
break may follow. The main statement gives the marked texts in closed form. No text has this form in
two ways, since it ends either in a brace or in a line break. So a search that tries the longest
expression first, as greedy patterns do, finds the same.
-/

namespace Scriptwright.Script

open Text

/-! ## The final line break -/

theorem dropLastBreak_append_break (cs : List Char) : dropLastBreak (cs ++ ['\n']) = cs := by
  simp [dropLastBreak]

theorem dropLastBreak_of_getLast? {cs : List Char} (h : cs.getLast? ≠ some '\n') :
    dropLastBreak cs = cs := by
  unfold dropLastBreak
  split
  · next rest hrest =>
    rw [← List.head?_reverse, hrest] at h
    exact absurd rfl h
  · rfl

theorem dropLastBreak_eq_iff {cs ds : List Char} :
    dropLastBreak cs = ds ↔ cs = ds ++ ['\n'] ∨ cs = ds ∧ ds.getLast? ≠ some '\n' := by
  constructor
  · rintro rfl
    by_cases hlast : cs.getLast? = some '\n'
    · obtain ⟨rest, rfl⟩ := List.getLast?_eq_some_iff.mp hlast
      rw [dropLastBreak_append_break]
      exact .inl rfl
    · rw [dropLastBreak_of_getLast? hlast]
      exact .inr ⟨rfl, hlast⟩
  · rintro (rfl | ⟨rfl, hlast⟩)
    · exact dropLastBreak_append_break ds
    · exact dropLastBreak_of_getLast? hlast

theorem mem_of_mem_dropLastBreak {c : Char} {cs : List Char} (h : c ∈ dropLastBreak cs) :
    c ∈ cs := by
  rcases dropLastBreak_eq_iff.mp (rfl : dropLastBreak cs = _) with heq | ⟨heq, -⟩
  · rw [heq]
    exact List.mem_append_left _ h
  · rwa [heq]

/-! ## Double braces -/

theorem eq_of_inDoubleBraces {cs ds : List Char} (h : inDoubleBraces? cs = some ds) :
    cs = '\x7b' :: '\x7b' :: (ds ++ ['\x7d', '\x7d']) := by
  unfold inDoubleBraces? at h
  split at h
  · next rest =>
    split at h
    · next inside hrest =>
      split_ifs at h
      cases h
      rw [List.reverse_eq_iff.mp hrest]
      simp
    · cases h
  · cases h

theorem inDoubleBraces?_braced (ds : List Char) :
    inDoubleBraces? ('\x7b' :: '\x7b' :: (ds ++ ['\x7d', '\x7d'])) = if ds = [] then none
      else some ds := by
  unfold inDoubleBraces?
  simp

theorem inDoubleBraces?_eq_some_iff {cs ds : List Char} :
    inDoubleBraces? cs = some ds ↔ ds ≠ [] ∧ cs = '\x7b' :: '\x7b' :: (ds ++ ['\x7d', '\x7d']) := by
  constructor
  · intro h
    have hcs := eq_of_inDoubleBraces h
    refine ⟨?_, hcs⟩
    rintro rfl
    rw [hcs, inDoubleBraces?_braced, if_pos rfl] at h
    cases h
  · rintro ⟨hne, rfl⟩
    rw [inDoubleBraces?_braced, if_neg hne]

theorem mem_of_dynamicExpression {s e : String} (h : dynamicExpression? s = some e) :
    ∀ c ∈ e.toList, c ∈ s.toList := by
  intro c hc
  obtain ⟨ds, hds, rfl⟩ := Option.map_eq_some_iff.mp h
  rw [String.toList_ofList] at hc
  refine mem_of_mem_dropLastBreak ?_
  rw [eq_of_inDoubleBraces hds]
  simp [hc]

/-! ## The closed form -/

/-- A text with an expression, which is not empty, between double braces and at most one line break
behind them. -/
def Marks (text expression : String) : Prop :=
  expression ≠ "" ∧
    (text = "\x7b\x7b" ++ expression ++ "\x7d\x7d" ∨
      text = "\x7b\x7b" ++ expression ++ "\x7d\x7d" ++ "\n")

theorem marks_iff {text e : String} :
    Marks text e ↔
      e.toList ≠ [] ∧ (text.toList = '\x7b' :: '\x7b' :: (e.toList ++ ['\x7d', '\x7d']) ∨
        text.toList = '\x7b' :: '\x7b' :: (e.toList ++ ['\x7d', '\x7d']) ++ ['\n']) := by
  simp only [Marks, ← String.toList_inj, String.toList_append, ne_eq]
  simp

theorem dynamicExpression?_eq_some {text e : String} :
    dynamicExpression? text = some e ↔ Marks text e := by
  have hlast : ('\x7b' :: '\x7b' :: (e.toList ++ ['\x7d', '\x7d'])).getLast? ≠ some '\n' := by
    rw [← List.cons_append, ← List.cons_append, List.getLast?_append]
    simp
  have hinside : dynamicExpression? text = some e ↔
      inDoubleBraces? (dropLastBreak text.toList) = some e.toList := by
    rw [dynamicExpression?, Option.map_eq_some_iff]
    constructor
    · rintro ⟨ds, hds, rfl⟩
      rw [hds, String.toList_ofList]
    · intro h
      exact ⟨e.toList, h, String.ofList_toList⟩
  rw [hinside, inDoubleBraces?_eq_some_iff, dropLastBreak_eq_iff, marks_iff]
  grind

/-! ## The search by the longest expression -/

/-- The longest beginning of a text, of one character at least, behind which the rest fits. Whether
a character is the last one is tried only after all ways to go on. -/
def longestBefore (fits : List Char → Bool) : List Char → Option (List Char)
  | [] => none
  | c :: cs =>
    match longestBefore fits cs with
    | some ds => some (c :: ds)
    | none => if fits cs then some [c] else none

/-- Two closing braces at the end, or in front of a final line break. -/
def closesBraces (cs : List Char) : Bool := cs == ['\x7d', '\x7d'] || cs == ['\x7d', '\x7d', '\n']

/-- The longest expression behind two opening braces. -/
def longestMarked (cs : List Char) : Option (List Char) :=
  match cs with
  | '\x7b' :: '\x7b' :: rest => longestBefore closesBraces rest
  | _ => none

theorem longestBefore_eq_some {fits : List Char → Bool} {cs ds : List Char}
    (h : longestBefore fits cs = some ds) :
    ds ≠ [] ∧ ∃ rest, cs = ds ++ rest ∧ fits rest = true := by
  induction cs generalizing ds with
  | nil => cases h
  | cons c cs ih =>
    rw [longestBefore] at h
    split at h
    · next es hes =>
      cases h
      obtain ⟨-, rest, rfl, hrest⟩ := ih hes
      exact ⟨List.cons_ne_nil _ _, rest, rfl, hrest⟩
    · split_ifs at h with hfits
      cases h
      exact ⟨List.cons_ne_nil _ _, cs, rfl, hfits⟩

theorem isSome_longestBefore {fits : List Char → Bool} {ds rest : List Char} (hne : ds ≠ [])
    (hrest : fits rest = true) :
    (longestBefore fits (ds ++ rest)).isSome = true := by
  induction ds with
  | nil => exact absurd rfl hne
  | cons d ds ih =>
    rw [List.cons_append, longestBefore]
    split
    · rfl
    · next hnone =>
      by_cases hds : ds = []
      · subst hds
        rw [List.nil_append, if_pos hrest]
        rfl
      · have hsome := ih hds
        rw [hnone] at hsome
        cases hsome

/-- A text has at most one end with closing braces, so there is nothing to choose from. -/
theorem eq_of_closesBraces {cs ds rest rest' : List Char} (h : cs ++ rest = ds ++ rest')
    (hrest : closesBraces rest = true) (hrest' : closesBraces rest' = true) : cs = ds := by
  have hlast := congrArg List.getLast? h
  simp only [closesBraces, Bool.or_eq_true, beq_iff_eq] at hrest hrest'
  rcases hrest with rfl | rfl <;> rcases hrest' with rfl | rfl
  · exact List.append_cancel_right h
  · simp at hlast
  · simp at hlast
  · exact List.append_cancel_right h

theorem longestBefore_closesBraces {cs ds : List Char} :
    longestBefore closesBraces cs = some ds ↔ ds ≠ [] ∧ ∃ rest, cs = ds ++ rest ∧
      closesBraces rest = true := by
  constructor
  · exact longestBefore_eq_some
  · rintro ⟨hne, rest, rfl, hrest⟩
    obtain ⟨es, hes⟩ := Option.isSome_iff_exists.mp (isSome_longestBefore hne hrest)
    obtain ⟨-, rest', heq, hrest'⟩ := longestBefore_eq_some hes
    rw [hes, eq_of_closesBraces heq hrest hrest']

theorem longestMarked_eq_some {text e : String} :
    longestMarked text.toList = some e.toList ↔ Marks text e := by
  rw [marks_iff]
  unfold longestMarked
  split
  · next rest hrest =>
    rw [hrest, longestBefore_closesBraces]
    simp only [closesBraces, Bool.or_eq_true, beq_iff_eq]
    grind
  · next hnone =>
    constructor
    · intro h
      cases h
    · rintro ⟨-, h | h⟩
      · exact absurd h (hnone _)
      · exact absurd h (hnone _)

/-- A text stands for an expression exactly if it is that expression, which is not empty, in double
braces, with or without one line break at the end; all other texts stand for none. The search for
the longest expression in double braces gives the same answer, however many braces and line breaks
the text has. -/
theorem dynamicExpression_closed_form (text : String) :
    (∀ e, dynamicExpression? text = some e ↔ Marks text e) ∧
      (dynamicExpression? text = none ↔ ∀ e, ¬Marks text e) ∧
      dynamicExpression? text = (longestMarked text.toList).map String.ofList := by
  refine ⟨fun e => dynamicExpression?_eq_some, ?_, ?_⟩
  · simp only [Option.eq_none_iff_forall_ne_some, ne_eq, dynamicExpression?_eq_some]
  · apply Option.ext
    intro e
    rw [dynamicExpression?_eq_some, ← longestMarked_eq_some, Option.map_eq_some_iff]
    constructor
    · intro h
      exact ⟨e.toList, h, String.ofList_toList⟩
    · rintro ⟨ds, hds, rfl⟩
      rw [hds, String.toList_ofList]

/-- Only the outermost braces count. -/
example : dynamicExpression? "\x7b\x7ba\x7d\x7d\n\x7b\x7bb\x7d\x7d\x7d\n" =
    some "a\x7d\x7d\n\x7b\x7bb\x7d" := by
  decide

end Scriptwright.Script
