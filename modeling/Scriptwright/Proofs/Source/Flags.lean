import Scriptwright.Proofs.Source.Lines

/-!
# What the flags depend on

Every line break has its flag, and the flag depends only on the text in front of it. A scan looks
one character ahead and may read a character in advance, but it never takes a line break along, and
nothing that it sees in advance comes before the next line break. The main statement adds that the
blanks which tidying takes off do not show in the flags either: the flags that are left are those of
the text before.
-/

namespace Scriptwright.Source

namespace Scan

/-! ## One flag for every line break -/

/-- No line break is taken along by the character in front of it. -/
theorem length_breaks (s : Scan) (cs : List Char) (h : cs.head? = some '\n' → s.skip = false) :
    (s.breaks cs).length = cs.count '\n' := by
  induction cs generalizing s with
  | nil => rfl
  | cons c cs ih =>
    have hnext : cs.head? = some '\n' → (s.step c cs.head?).skip = false := by
      intro hhead
      rw [hhead]
      exact s.skip_step_of_break c
    rw [breaks_cons_eq, List.length_append, ih _ hnext]
    by_cases hc : c = '\n'
    · subst hc
      rw [s.flag_break (h rfl), List.count_cons_self, List.length_singleton, Nat.add_comm]
    · rw [s.flag_of_ne hc, List.count_cons_of_ne hc, List.length_nil, Nat.zero_add]

/-! ## Flags of a longer text -/

theorem breaks_prefix_append (s : Scan) (a b : List Char) : s.breaks a <+: s.breaks (a ++ b) := by
  induction a generalizing s with
  | nil => exact List.nil_prefix
  | cons c a ih =>
    rw [List.cons_append, breaks_cons_eq, breaks_cons_eq, List.prefix_append_right_inj]
    cases a with
    -- what the last character looks at is not the same, but no flag is left that could tell
    | nil => exact List.nil_prefix
    | cons d a => exact ih _

theorem breaks_append_of_no_break (s : Scan) (a w : List Char) (hs : s.skip = false)
    (hw : '\n' ∉ w) :
    s.breaks (a ++ w) = s.breaks a := by
  have hlength : (s.breaks a).length = (s.breaks (a ++ w)).length := by
    rw [s.length_breaks _ fun _ => hs, s.length_breaks _ fun _ => hs, List.count_append,
      List.count_eq_zero_of_not_mem hw, Nat.add_zero]
  exact ((s.breaks_prefix_append a w).eq_of_length hlength).symm

/-! ## Blanks that do not show -/

/-- Blanks in front of a line break leave all flags as they are. -/
theorem breaks_drop_blanks (s : Scan) (a w rest : List Char) (hs : s.skip = false)
    (hw : ∀ c ∈ w, Text.isBlank c = true ∧ c ≠ '\n') :
    s.breaks (a ++ w ++ '\n' :: rest) = s.breaks (a ++ '\n' :: rest) := by
  have hbreak : '\n' ∉ w := fun hmem => (hw _ hmem).2 rfl
  rw [breaks_append_break_cons _ _ _ fun _ => hs, breaks_append_break_cons _ _ _ fun _ => hs,
    s.breaks_append_of_no_break a w hs hbreak, s.after_append_blanks a w (fun _ => hs) hw]

/-- A blank line at the start of a scan has the first flag, and the others are those of the text
behind it. -/
theorem Fresh.breaks_blank_line {s : Scan} (hs : s.Fresh) (w rest : List Char)
    (hw : ∀ c ∈ w, Text.isBlank c = true ∧ c ≠ '\n') :
    s.breaks (w ++ '\n' :: rest) = s.inside :: s.breaks rest := by
  have hbreak : '\n' ∉ w := fun hmem => (hw _ hmem).2 rfl
  have hblank : w.all Text.isBlank = true := List.all_eq_true.mpr fun c hc => (hw c hc).1
  rw [s.breaks_append_break w rest hbreak fun _ => hs.skip, s.after_blank w hs hbreak hblank]

end Scan

theorem length_templateBreaks (text : List Char) : (templateBreaks text).length = text.count '\n' :=
  Scan.start.length_breaks text fun _ => rfl

theorem length_linesOf (text : List Char) :
    (linesOf text).length = (templateBreaks text).length + 1 := by
  rw [← List.length_map Line.text, map_text_linesOf, Text.length_splitAt, length_templateBreaks]

/-- A blank line takes its own flag along and no other one. -/
theorem templateBreaks_drop_line (a w b : List Char) (ha : a = [] ∨ a.getLast? = some '\n')
    (hw : ∀ c ∈ w, Text.isBlank c = true ∧ c ≠ '\n') :
    templateBreaks (a ++ b) = (templateBreaks (a ++ w ++ '\n' :: b)).eraseIdx (a.count '\n') := by
  rcases ha with rfl | hlast
  · exact (congrArg (List.eraseIdx · 0) (Scan.fresh_start.breaks_blank_line w b hw)).symm
  · obtain ⟨a, rfl⟩ := List.getLast?_eq_some_iff.mp hlast
    have hfresh : (Scan.start.after a).Fresh := Scan.fresh_start.after a
    have hcut : ∀ rest, templateBreaks (a ++ ['\n'] ++ rest) =
        templateBreaks a ++ [(Scan.start.after a).inside] ++ (Scan.start.after a).breaks rest := by
      intro rest
      rw [List.append_assoc, List.append_assoc]
      exact Scan.start.breaks_append_break_cons a rest fun _ => rfl
    have hindex : (a ++ ['\n']).count '\n' =
        (templateBreaks a ++ [(Scan.start.after a).inside]).length := by
      rw [List.count_append, List.length_append, length_templateBreaks]
      rfl
    rw [hindex, List.append_assoc _ w, hcut, hcut, hfresh.breaks_blank_line w b hw,
      List.eraseIdx_append_of_length_le (Nat.le_refl _), Nat.sub_self]
    rfl

/-- Every line break has its flag, so the lines of a text and their flags are as many. The flags of
a text are the first flags of every text that goes on from it. Blanks at the end of a line can be
taken off without a change to the flags, and a blank line can be taken out together with its line
break without a change to the other flags, wherever they stand. -/
theorem templateBreaks_complete_causal_stable :
    (∀ text, (templateBreaks text).length = text.count '\n' ∧
      (linesOf text).map Line.text = Text.splitAt '\n' text ∧
      (linesOf text).length = (templateBreaks text).length + 1) ∧
    (∀ a b, templateBreaks a <+: templateBreaks (a ++ b)) ∧
    (∀ a w b, (∀ c ∈ w, Text.isBlank c = true ∧ c ≠ '\n') →
      templateBreaks (a ++ w ++ '\n' :: b) = templateBreaks (a ++ '\n' :: b)) ∧
    ∀ a w b, (a = [] ∨ a.getLast? = some '\n') → (∀ c ∈ w, Text.isBlank c = true ∧ c ≠ '\n') →
      templateBreaks (a ++ b) = (templateBreaks (a ++ w ++ '\n' :: b)).eraseIdx (a.count '\n') :=
  ⟨fun text => ⟨length_templateBreaks text, map_text_linesOf text, length_linesOf text⟩,
    fun a b => Scan.start.breaks_prefix_append a b,
    fun a w b hw => Scan.start.breaks_drop_blanks a w b rfl hw,
    templateBreaks_drop_line⟩

/-- A backslash in front of the blanks that go, with template literals around it, and a blank line
in a comment. -/
theorem templateBreaks_complete_causal_stable_escaped :
    let text := fun w : List Char => "f(`x\n`, 'b\\".toList ++ w ++ '\n' :: "`\n".toList
    let comment := fun line : List Char => "/*\n".toList ++ line ++ "*/ `\n".toList
    (∀ c ∈ [' ', '\t'], Text.isBlank c = true ∧ c ≠ '\n') ∧
      templateBreaks (text [' ', '\t']) = [true, false, true] ∧
        templateBreaks (text []) = [true, false, true] ∧
      templateBreaks (comment [' ', '\t', '\n']) = [false, false, true] ∧
        templateBreaks (comment []) = [false, true] := by
  intro text comment
  have hblank : ∀ c ∈ [' ', '\t'], Text.isBlank c = true ∧ c ≠ '\n' := by
    intro c hc
    rcases List.mem_cons.mp hc with rfl | hc
    · decide
    · rw [List.mem_singleton.mp hc]
      decide
  have htext : templateBreaks (text [' ', '\t']) = [true, false, true] := by decide
  have hcomment : templateBreaks (comment [' ', '\t', '\n']) = [false, false, true] := by decide
  obtain ⟨-, -, htrim, hdrop⟩ := templateBreaks_complete_causal_stable
  refine ⟨hblank, htext, ?_, hcomment, ?_⟩
  · exact (htrim _ _ _ hblank).symm.trans htext
  · have hline := hdrop "/*\n".toList [' ', '\t'] "*/ `\n".toList (.inr rfl) hblank
    rw [show "/*\n".toList ++ [' ', '\t'] ++ '\n' :: "*/ `\n".toList =
      comment [' ', '\t', '\n'] from rfl, hcomment]
      at hline
    exact hline

end Scriptwright.Source
