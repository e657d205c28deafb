import Scriptwright.Script.Code
import Mathlib.Tactic.SplitIfs

/-!
# Margins

Two ways to put a margin in front of the lines of a text. `indent` is the plain one: it goes from
line to line. `hang` puts the margin behind every line break; it is a substitution, so it passes
through concatenation and through every decision that looks at the start of a text.
-/

namespace Scriptwright.Text

/-- A text with a margin in front of every line, in front of the first one if `first`. Behind the
last line break there is a line only if something stands there. -/
def indent (margin : List Char) : (first : Bool) → List Char → List Char
  | _, [] => []
  | first, c :: cs => (if first then margin else []) ++ c :: indent margin (c == '\n') cs

def indented (margin : String) (first : Bool) (s : String) : String :=
  .ofList (indent margin.toList first s.toList)

/-- Whether a text has no line break. -/
def isOneLine (s : String) : Bool := !s.toList.contains '\n'

/-- A text with a margin behind every line break. -/
def hang (margin cs : List Char) : List Char :=
  cs.flatMap fun c => if c = '\n' then c :: margin else [c]

def endsLine (cs : List Char) : Bool := cs.getLast? == some '\n'

variable {m : List Char}

@[simp] theorem hang_nil : hang m [] = [] := rfl

theorem hang_cons_of_ne {c : Char} {cs : List Char} (h : c ≠ '\n') :
    hang m (c :: cs) = c :: hang m cs := by
  rw [hang, List.flatMap_cons, if_neg h]
  rfl

theorem hang_cons_break {cs : List Char} : hang m ('\n' :: cs) = '\n' :: (m ++ hang m cs) := by
  rw [hang, List.flatMap_cons, if_pos rfl]
  rfl

theorem hang_append (cs ds : List Char) : hang m (cs ++ ds) = hang m cs ++ hang m ds :=
  List.flatMap_append

theorem hang_of_not_mem {cs : List Char} (h : '\n' ∉ cs) : hang m cs = cs := by
  induction cs with
  | nil => rfl
  | cons c cs ih =>
    have hc : c ≠ '\n' := fun he => h (he ▸ List.mem_cons_self)
    rw [hang_cons_of_ne hc, ih fun hm => h (List.mem_cons_of_mem _ hm)]

theorem head?_hang (cs : List Char) : (hang m cs).head? = cs.head? := by
  cases cs with
  | nil => rfl
  | cons c cs =>
    by_cases hc : c = '\n'
    · rw [hc, hang_cons_break]
      rfl
    · rw [hang_cons_of_ne hc]
      rfl

theorem hang_injective : Function.Injective (hang m) := by
  intro cs
  induction cs with
  | nil =>
    intro ds h
    have hhead : ds.head? = none := by rw [← head?_hang (m := m), ← h, hang_nil, List.head?_nil]
    exact (List.head?_eq_none_iff.mp hhead).symm
  | cons c cs ih =>
    intro ds h
    cases ds with
    | nil =>
      have hhead : (c :: cs).head? = none :=
        by rw [← head?_hang (m := m), h, hang_nil, List.head?_nil]
      cases hhead
    | cons d ds =>
      have hcd : c = d := by
        have hhead : (c :: cs).head? = (d :: ds).head? :=
          by rw [← head?_hang (m := m), h, head?_hang]
        exact Option.some.inj hhead
      subst hcd
      by_cases hc : c = '\n'
      · subst hc
        rw [hang_cons_break, hang_cons_break] at h
        rw [ih (List.append_cancel_left (List.cons.inj h).2)]
      · rw [hang_cons_of_ne hc, hang_cons_of_ne hc] at h
        rw [ih (List.cons.inj h).2]

/-- The two ways differ only behind a last line break. -/
theorem indent_append (first : Bool) {cs : List Char} (h : cs ≠ []) :
    indent m first cs ++ (if endsLine cs then m else []) = (if first then m
      else []) ++ hang m cs := by
  induction cs generalizing first with
  | nil => exact absurd rfl h
  | cons c cs ih =>
    have hcons : hang m (c :: cs) = c :: ((if c == '\n' then m else []) ++ hang m cs) := by
      by_cases hc : c = '\n'
      · rw [hc, hang_cons_break]
        rfl
      · rw [hang_cons_of_ne hc, if_neg (by simpa using hc)]
        rfl
    cases cs with
    | nil =>
      rw [hcons]
      simp [indent, endsLine]
    | cons d ds =>
      have hends : endsLine (c :: d :: ds) = endsLine (d :: ds) :=
        by rw [endsLine, endsLine, List.getLast?_cons_cons]
      rw [hcons, indent, hends, List.append_assoc, List.cons_append, ih _ (by simp)]

/-! ## The start of a text -/

theorem isPrefixOf_hang {word : List Char} (cs : List Char) (h : '\n' ∉ word) :
    word.isPrefixOf (hang m cs) = word.isPrefixOf cs := by
  induction word generalizing cs with
  | nil => simp
  | cons w word ih =>
    have hw : w ≠ '\n' := fun he => h (he ▸ List.mem_cons_self)
    cases cs with
    | nil => rfl
    | cons c cs =>
      by_cases hc : c = '\n'
      · have hne : (w == c) = false := by
          rw [hc]
          exact beq_false_of_ne hw
        rw [hc] at hne ⊢
        rw [hang_cons_break, List.isPrefixOf, List.isPrefixOf, hne, Bool.false_and, Bool.false_and]
      · rw [hang_cons_of_ne hc, List.isPrefixOf, List.isPrefixOf, ih cs fun hm =>
          h (List.mem_cons_of_mem _ hm)]

theorem drop_hang {word cs : List Char} (h : '\n' ∉ word) (hstarts : word.isPrefixOf cs = true) :
    (hang m cs).drop word.length = hang m (cs.drop word.length) := by
  obtain ⟨rest, rfl⟩ := List.isPrefixOf_iff_prefix.mp hstarts
  rw [hang_append, hang_of_not_mem h, List.drop_left, List.drop_left]

theorem dropWhile_hang (cs : List Char) (hm : ∀ c ∈ m, isBlank c = true) :
    (hang m cs).dropWhile isBlank = hang m (cs.dropWhile isBlank) := by
  induction cs with
  | nil => rfl
  | cons c cs ih =>
    by_cases hc : c = '\n'
    · have hblank : isBlank '\n' = true := by decide
      rw [hc, hang_cons_break, List.dropWhile_cons_of_pos hblank, List.dropWhile_cons_of_pos hblank,
        List.dropWhile_append_of_pos hm, ih]
    · rw [hang_cons_of_ne hc]
      by_cases hblank : isBlank c = true
      · rw [List.dropWhile_cons_of_pos hblank, List.dropWhile_cons_of_pos hblank, ih]
      · rw [List.dropWhile_cons_of_neg hblank, List.dropWhile_cons_of_neg hblank,
          hang_cons_of_ne hc]

end Scriptwright.Text

namespace Scriptwright.Script

open Text

variable {m : List Char}

theorem Options.eq_of_mem_indentUnit (o : Options) :
    ∀ c ∈ o.indentUnit.toList, c = '\t' ∨ c = ' ' := by
  intro c hc
  unfold Options.indentUnit at hc
  split_ifs at hc
  · exact .inl (by simpa using hc)
  · rw [String.toList_ofList] at hc
    exact .inr (List.eq_of_mem_replicate hc)

/-- Margins are made of tabs or of blanks. -/
theorem Options.eq_of_mem_margin (o : Options) (l : Int) :
    ∀ c ∈ (o.layout.margin l).toList, c = '\t' ∨ c = ' ' := by
  intro c hc
  rw [Layout.margin, String.toList_join, List.mem_flatMap] at hc
  obtain ⟨t, ht, hc⟩ := hc
  rw [List.eq_of_mem_replicate ht] at hc
  exact o.eq_of_mem_indentUnit c hc

theorem needsBlank_hang (sign cs : List Char) :
    needsBlank sign (hang m cs) = needsBlank sign cs := by
  unfold needsBlank
  by_cases hsign : sign = ['+'] ∨ sign = ['-']
  · have hbreak : '\n' ∉ sign := by
      rcases hsign with rfl | rfl <;> decide
    rw [isPrefixOf_hang cs hbreak]
  · have hnone : (sign == ['+'] || sign == ['-']) = false := by simpa using hsign
    rw [hnone, Bool.false_and, Bool.false_and]

theorem startsWithWord_hang {word : List Char} (cs : List Char) (h : '\n' ∉ word) :
    startsWithWord word (hang m cs) = startsWithWord word cs := by
  unfold startsWithWord
  rw [isPrefixOf_hang cs h]
  by_cases hstarts : word.isPrefixOf cs = true
  · rw [drop_hang h hstarts]
    have hhead := head?_hang (m := m) (cs.drop word.length)
    generalize hang m (cs.drop word.length) = ds at hhead
    generalize cs.drop word.length = es at hhead
    cases ds with
    | nil =>
      cases es with
      | nil => rfl
      | cons e es => cases hhead
    | cons d ds =>
      cases es with
      | nil => cases hhead
      | cons e es =>
        cases hhead
        rfl
  · rw [Bool.eq_false_iff.mpr hstarts, Bool.false_and, Bool.false_and]

theorem afterAsync_hang (cs : List Char) (hm : ∀ c ∈ m, isBlank c = true) :
    afterAsync (hang m cs) = hang m (afterAsync cs) := by
  have hbreak : '\n' ∉ "async".toList := by decide
  have hother : ∀ ds : List Char, "async".toList.isPrefixOf ds = false → afterAsync ds = ds := by
    intro ds hds
    unfold afterAsync
    dsimp only
    split
    · rw [hds, Bool.false_and, if_neg (by simp)]
    · rfl
  by_cases hstarts : "async".toList.isPrefixOf cs = true
  · have hstarts' : "async".toList.isPrefixOf (hang m cs) = true :=
      by rw [isPrefixOf_hang cs hbreak, hstarts]
    have hdrop : (hang m cs).drop 5 = hang m (cs.drop 5) := drop_hang hbreak hstarts
    unfold afterAsync
    dsimp only
    rw [hdrop, hstarts, hstarts']
    cases hrest : cs.drop 5 with
    | nil => rfl
    | cons c rest =>
      have hhead : (hang m (c :: rest)).head? = some c := head?_hang _
      obtain ⟨rest', hcons⟩ := List.head?_eq_some_iff.mp hhead
      rw [hcons]
      dsimp only
      split_ifs
      · rw [← hcons, dropWhile_hang _ hm]
      · rfl
  · have hnot : "async".toList.isPrefixOf cs = false := Bool.eq_false_iff.mpr hstarts
    rw [hother cs hnot, hother _ (by rw [isPrefixOf_hang cs hbreak, hnot])]

theorem startsDeclaration_hang (cs : List Char) (hm : ∀ c ∈ m, isBlank c = true) :
    startsDeclaration (hang m cs) = startsDeclaration cs := by
  unfold startsDeclaration
  rw [afterAsync_hang cs hm, isPrefixOf_hang cs (by decide), startsWithWord_hang cs (by decide),
    startsWithWord_hang (afterAsync cs) (by decide), startsWithWord_hang cs (by decide)]

end Scriptwright.Script
