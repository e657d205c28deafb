import Scriptwright.Source.Template

/-!
# Scans line by line

The state of a scan at the start of a line decides how the line is read, and the line decides the
state at the start of the next one. Trailing blanks of a line, and blank lines as a whole, leave no
trace in that state. All that is known of the flags of a text follows from these facts, since a line
break is flagged exactly if the line after it starts inside a template literal.
-/

namespace Scriptwright.Source.Scan

def inside (s : Scan) : Bool := decide (s.mode = .template)

/-- The scan at the start of the next line. -/
def after (s : Scan) (l : List Char) : Scan := s.run (l ++ ['\n'])

/-- A scan as it can stand at the start of a line: nothing is read in advance, and nothing is open
that ends with the line. -/
structure Fresh (s : Scan) : Prop where
  skip : s.skip = false
  atBreak : s.atBreak = s

theorem fresh_start : start.Fresh := ⟨rfl, rfl⟩

/-! ## Single steps -/

theorem step_skip (s : Scan) (c : Char) (next : Option Char) (h : s.skip = true) :
    s.step c next = { s with skip := false } := by
  simp only [step, h, if_true]

theorem step_break (s : Scan) (next : Option Char) (h : s.skip = false) :
    s.step '\n' next = s.atBreak := by
  simp [step, h]

/-- What follows a line break does not matter to it. -/
theorem step_break_next (s : Scan) (next next' : Option Char) :
    s.step '\n' next = s.step '\n' next' := by
  simp [step]

theorem inside_atBreak (s : Scan) : s.atBreak.inside = s.inside := by
  obtain ⟨mode, depth, saved, skip⟩ := s
  cases mode <;> rfl

theorem fresh_atBreak (s : Scan) (h : s.skip = false) : s.atBreak.Fresh := by
  obtain ⟨mode, depth, saved, skip⟩ := s
  cases mode <;> exact ⟨h, rfl⟩

theorem inside_step_break (s : Scan) (next : Option Char) :
    (s.step '\n' next).inside = s.inside := by
  cases h : s.skip with
  | true => rw [step_skip s _ _ h]; rfl
  | false => rw [step_break s _ h, inside_atBreak]

/-- A blank other than a line break changes nothing. -/
theorem step_blank (s : Scan) (c : Char) (next : Option Char) (hs : s.skip = false)
    (hc : Text.isBlank c = true) (hn : c ≠ '\n') : s.step c next = s := by
  have ne : ∀ d, Text.isBlank d = false → c ≠ d := by
    rintro d hd rfl
    simp [hc] at hd
  have h1 := ne '\'' (by decide)
  have h2 := ne '"' (by decide)
  have h3 := ne '\x60' (by decide)
  have h4 := ne '/' (by decide)
  have h5 := ne '{' (by decide)
  have h6 := ne '}' (by decide)
  have h7 := ne '\\' (by decide)
  have h8 := ne '$' (by decide)
  have h9 := ne '*' (by decide)
  simp only [step, hs, Bool.false_eq_true, if_false, if_neg hn]
  cases s.mode <;> simp [inCode, inString, inTemplate, inBlockComment, *]

/-- In front of a line break no character is read in advance. -/
theorem skip_step_of_break (s : Scan) (c : Char) : (s.step c (some '\n')).skip = false := by
  obtain ⟨mode, depth, saved, skip⟩ := s
  unfold step
  split
  · rfl
  · next hs =>
    have hs : skip = false := by simpa using hs
    subst hs
    split
    · cases mode <;> rfl
    · cases mode <;> simp only [inCode, inString, inTemplate, inBlockComment, closeBrace] <;> grind

/-- A blank is none of the characters that a step looks for ahead. -/
theorem ne_of_isBlank {c d : Char} (hc : Text.isBlank c = true) (hd : d ∈ ['/', '*', '{']) :
    c ≠ d := by
  rintro rfl
  simp only [List.mem_cons, List.not_mem_nil, or_false] at hd
  rcases hd with rfl | rfl | rfl <;> exact absurd hc (by decide)

/-- A character that opens and closes nothing makes no other difference, as the next one, than a
line break does, except that a backslash takes it along. -/
theorem step_next (s : Scan) (c : Char) (next : Option Char)
    (h : ∀ d ∈ ['/', '*', '{'], next ≠ some d) :
    s.step c next = s.step c (some '\n') ∨
      s.step c next = { s.step c (some '\n') with skip := true } := by
  simp only [List.mem_cons, List.not_mem_nil, or_false, forall_eq_or_imp, forall_eq] at h
  obtain ⟨h1, h2, h3⟩ := h
  unfold step
  split
  · exact Or.inl rfl
  · split
    · exact Or.inl rfl
    · cases s.mode <;> simp only [inCode, inString, inTemplate, inBlockComment] <;> grind

theorem inside_step_none (s : Scan) (c : Char) :
    (s.step c none).inside = (s.step c (some '\n')).inside := by
  rcases s.step_next c none (by simp) with h | h <;> rw [h]
  rfl

/-! ## Whole lines -/

theorem run_blanks (s : Scan) (w rest : List Char) (hs : s.skip = false)
    (hw : ∀ c ∈ w, Text.isBlank c = true ∧ c ≠ '\n') : s.run (w ++ rest) = s.run rest := by
  induction w with
  | nil => rfl
  | cons c w ih =>
    obtain ⟨hc, hn⟩ := hw c List.mem_cons_self
    rw [List.cons_append, run, s.step_blank c _ hs hc hn]
    exact ih fun d hd => hw d (List.mem_cons_of_mem _ hd)

theorem run_append_break (s : Scan) (l rest : List Char) :
    s.run (l ++ '\n' :: rest) = (s.after l).run rest := by
  induction l generalizing s with
  | nil => rw [List.nil_append, run, s.step_break_next rest.head? none]; rfl
  | cons c l ih =>
    have hhead : (l ++ '\n' :: rest).head? = (l ++ ['\n']).head? := by cases l <;> rfl
    rw [List.cons_append, run, hhead, ih]
    rfl

/-- The condition on `l` in this and the following statements is there since a scan may not stand
right in front of a line break with a character read in advance. It passes on to the rest of the
line. -/
theorem skip_step_head (s : Scan) (c : Char) (l rest : List Char) :
    l = [] → (s.step c (l ++ '\n' :: rest).head?).skip = false := by
  rintro rfl
  exact s.skip_step_of_break c

theorem fresh_after (s : Scan) (l : List Char) (h : l = [] → s.skip = false) :
    (s.after l).Fresh := by
  unfold after
  induction l generalizing s with
  | nil =>
    rw [List.nil_append, run, s.step_break _ (h rfl)]
    exact s.fresh_atBreak (h rfl)
  | cons c l ih => exact ih _ (s.skip_step_head c l [])

theorem Fresh.after {s : Scan} (h : s.Fresh) (l : List Char) : (s.after l).Fresh :=
  s.fresh_after l fun _ => h.skip

/-- A scan that ends with a line stands in a template exactly if the next line would start in it. -/
theorem inside_run (s : Scan) (l : List Char) : (s.run l).inside = (s.after l).inside := by
  unfold Scan.after
  induction l generalizing s with
  | nil => exact (s.inside_step_break none).symm
  | cons c l ih =>
    cases l with
    | nil =>
      have hn := inside_step_break (s.step c (some '\n')) none
      simpa only [run, List.cons_append, List.nil_append, List.head?_nil, List.head?_cons,
        inside_step_none]
        using hn.symm
    | cons d l => exact ih _

def flag (s : Scan) (c : Char) : List Bool := if c = '\n' ∧ s.skip = false then [s.inside] else []

theorem breaks_cons_eq (s : Scan) (c : Char) (cs : List Char) :
    s.breaks (c :: cs) = s.flag c ++ (s.step c cs.head?).breaks cs := by
  rw [breaks, flag]
  split <;> rfl

theorem flag_of_ne {c : Char} (s : Scan) (hc : c ≠ '\n') : s.flag c = [] := if_neg fun h => hc h.1

theorem flag_break (s : Scan) (h : s.skip = false) : s.flag '\n' = [s.inside] := if_pos ⟨rfl, h⟩

/-- The flags up to a line break, the flag of that break, and those of the rest. -/
theorem breaks_append_break_cons (s : Scan) (a rest : List Char) (h : a = [] → s.skip = false) :
    s.breaks (a ++ '\n' :: rest) = s.breaks a ++ (s.after a).inside :: (s.after a).breaks rest := by
  induction a generalizing s with
  | nil =>
    have he : s.after [] = s.step '\n' rest.head? := s.step_break_next none rest.head?
    rw [List.nil_append, breaks_cons_eq, s.flag_break (h rfl), he, inside_step_break]
    rfl
  | cons c a ih =>
    have hhead : (a ++ '\n' :: rest).head? = (a ++ ['\n']).head? := by cases a <;> rfl
    rw [List.cons_append, breaks_cons_eq, breaks_cons_eq, ih _ (s.skip_step_head c a rest),
      List.append_assoc, hhead]
    -- what the last character in front of the break looks at is not the same on both sides, but it
    -- has no flags behind it
    cases a with
    | nil => rfl
    | cons d a => rfl

theorem breaks_of_no_break (s : Scan) (l : List Char) (hl : '\n' ∉ l) : s.breaks l = [] := by
  induction l generalizing s with
  | nil => rfl
  | cons c l ih =>
    have hc : c ≠ '\n' := fun he => hl (he ▸ List.mem_cons_self)
    rw [breaks_cons_eq, s.flag_of_ne hc, List.nil_append]
    exact ih _ fun hm => hl (List.mem_cons_of_mem _ hm)

theorem breaks_append_break (s : Scan) (l rest : List Char) (hl : '\n' ∉ l)
    (h : l = [] → s.skip = false) :
    s.breaks (l ++ '\n' :: rest) = (s.after l).inside :: (s.after l).breaks rest := by
  rw [s.breaks_append_break_cons l rest h, s.breaks_of_no_break l hl, List.nil_append]

/-! ## Blanks that leave no trace -/

theorem after_blank (s : Scan) (l : List Char) (hs : s.Fresh) (hl : '\n' ∉ l)
    (hb : l.all Text.isBlank = true) :
    s.after l = s := by
  have hw : ∀ c ∈ l, Text.isBlank c = true ∧ c ≠ '\n' :=
    fun c hc => ⟨List.all_eq_true.mp hb c hc, fun he => hl (he ▸ hc)⟩
  rw [Scan.after, s.run_blanks l _ hs.skip hw, run, s.step_break _ hs.skip, hs.atBreak]
  rfl

theorem run_step_blanks (s : Scan) (c : Char) (w : List Char)
    (hw : ∀ d ∈ w, Text.isBlank d = true ∧ d ≠ '\n') :
    (s.step c (w ++ ['\n']).head?).run (w ++ ['\n']) = (s.step c (some '\n')).run ['\n'] := by
  have hskip := s.skip_step_of_break c
  cases w with
  | nil => rfl
  | cons b w =>
    obtain ⟨hb, hn⟩ := hw b List.mem_cons_self
    have hrest : ∀ d ∈ w, Text.isBlank d = true ∧ d ≠ '\n' :=
      fun d hd => hw d (List.mem_cons_of_mem _ hd)
    have hquiet : ∀ d ∈ ['/', '*', '{'], some b ≠ some d :=
      fun d hd he => ne_of_isBlank hb hd (Option.some.inj he)
    rw [List.cons_append, List.head?_cons]
    rcases s.step_next c (some b) hquiet with he | he
    · rw [he]
      exact run_blanks _ (b :: w) _ hskip hw
    · -- the blank behind a backslash takes the scan back to where the line break would have
      -- found it
      have hback : ({ s.step c (some '\n') with skip := true } : Scan).step b (w ++ ['\n']).head? =
          s.step c (some '\n') := by
        rw [step_skip _ _ _ rfl, ← hskip]
      rw [he, run, hback]
      exact run_blanks _ w _ hskip hrest

/-- Blanks at the end of a line are read without effect, also where a backslash in front of them
takes the first one along. -/
theorem after_append_blanks (s : Scan) (l w : List Char) (h : l = [] → s.skip = false)
    (hw : ∀ c ∈ w, Text.isBlank c = true ∧ c ≠ '\n') : s.after (l ++ w) = s.after l := by
  unfold Scan.after
  rw [List.append_assoc]
  induction l generalizing s with
  | nil => exact s.run_blanks w _ (h rfl) hw
  | cons c l ih =>
    cases l with
    | nil => exact s.run_step_blanks c w hw
    | cons d l => exact ih _ (fun he => by cases he)

end Scriptwright.Source.Scan
