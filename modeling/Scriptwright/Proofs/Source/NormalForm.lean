import Scriptwright.Proofs.Source.Neat

/-!
# The normal form of source text

What can be said of a tidied text by looking at it alone, with the flags that a scan of it gives:
where its first and last lines are, how it ends, that nothing is left to trim and that no run of
blank lines is too long. Nothing but white space is lost on the way.
-/

namespace Scriptwright.Text

/-- The characters of a text that are not blank, in order. -/
def ink (cs : List Char) : List Char := cs.filter fun c => !isBlank c

theorem ink_append (a b : List Char) : ink (a ++ b) = ink a ++ ink b := List.filter_append ..

theorem ink_eq_nil (cs : List Char) (h : ∀ c ∈ cs, isBlank c = true) : ink cs = [] := by
  rw [ink, List.filter_eq_nil_iff]
  intro c hc
  simp [h c hc]

theorem ink_trimRight (cs : List Char) : ink (trimRight cs) = ink cs := by
  obtain ⟨w, he, hw⟩ := exists_trimRight_append cs
  conv => rhs; rw [he, ink_append, ink_eq_nil w hw, List.append_nil]

theorem not_isBlank_getLast (cs : List Char) (h : trimRight cs = cs) :
    ∀ c ∈ cs.getLast?, isBlank c = false := by
  intro c hc
  obtain ⟨hne, rfl⟩ := List.mem_getLast?_eq_getLast hc
  exact Bool.eq_false_iff.mpr (List.rdropWhile_eq_self_iff.mp h hne)

/-- A separator that is blank leaves the ink of the pieces. -/
theorem ink_joinWith (sep : List Char) (ps : List (List Char)) (h : ∀ c ∈ sep, isBlank c = true) :
    ink (joinWith sep ps) = ps.flatMap ink := by
  induction ps with
  | nil => rfl
  | cons p ps ih =>
    by_cases he : ps = []
    · subst he
      simp [joinWith]
    · rw [joinWith_cons _ _ _ he, ink_append, ink_append, ink_eq_nil sep h, List.append_nil, ih,
        List.flatMap_cons]

end Scriptwright.Text

namespace Scriptwright.Source

open Text (ink)

/-! ## Ink -/

def inkOf (ls : List Line) : List Char := ls.flatMap fun l => ink l.text

theorem ink_render (o : TidyOptions) (ls : List Line) :
    ink (render o (ls.map Line.text)) = inkOf ls := by
  have hbreak : ∀ c ∈ ['\n'], Text.isBlank c = true := by simp [Text.isBlank]
  have hend : ink (if o.finalNewline then ['\n'] else []) = [] := by
    split_ifs
    · exact Text.ink_eq_nil _ hbreak
    · rfl
  cases ls with
  | nil => rfl
  | cons l ls =>
    rw [List.map_cons, render, Text.ink_append, hend, List.append_nil,
      Text.ink_joinWith _ _ hbreak, ← List.map_cons, List.flatMap_map]
    rfl

theorem inkOf_linesOf (text : List Char) : inkOf (linesOf text) = ink text := by
  have hbreak : ∀ c ∈ ['\n'], Text.isBlank c = true := by simp [Text.isBlank]
  have hjoin := Text.ink_joinWith ['\n'] (Text.splitAt '\n' text) hbreak
  rw [Text.joinWith_splitAt, ← map_text_linesOf, List.flatMap_map] at hjoin
  exact hjoin.symm

theorem inkOf_trimmedLines (o : TidyOptions) (ls : List Line) :
    inkOf (trimmedLines o ls) = inkOf ls := by
  have htrim : ∀ l : Line, ink l.trimmed.text = ink l.text := by
    intro l
    unfold Line.trimmed
    split_ifs
    · rfl
    · exact Text.ink_trimRight l.text
  unfold trimmedLines
  split_ifs
  · simp only [inkOf, List.flatMap_map, htrim]
  · rfl

theorem Thinned.inkOf_eq {ls' ls : List Line} (h : Thinned Line.isBlank ls' ls) :
    inkOf ls' = inkOf ls := by
  induction h with
  | nil => rfl
  | @keep l ls' ls _ ih => exact congrArg (ink l.text ++ ·) ih
  | @drop l ls' ls hb _ ih =>
    have hl : ink l.text = [] := Text.ink_eq_nil _ (List.all_eq_true.mp hb)
    rw [ih, inkOf, inkOf, List.flatMap_cons, hl, List.nil_append]

theorem ink_tidyChars (o : TidyOptions) (text : List Char) : ink (tidyChars o text) = ink text := by
  calc
    ink (tidyChars o text) = inkOf (tidyLines o (linesOf text)) := by
      rw [tidyChars_eq_render, ink_render]
    _ = inkOf (trimmedLines o (linesOf text)) := (thinned_tidyLines o (linesOf text)).inkOf_eq
    _ = inkOf (linesOf text) := inkOf_trimmedLines o _
    _ = ink text := inkOf_linesOf text

/-! ## Runs of blank lines -/

theorem WithinLimit.length_le {most : Int} {seen n : Nat} {bs : List Bool}
    (h : WithinLimit most seen (List.replicate n true ++ bs)) :
    n = 0 ∨ (seen + n : Int) ≤ most := by
  induction n generalizing seen with
  | zero => exact .inl rfl
  | succ n ih =>
    obtain ⟨hlt, hrest⟩ := h
    rcases ih hrest with rfl | hn
    · exact .inr (by simpa using hlt)
    · exact .inr (by push_cast at hn ⊢; omega)

/-- A scan passes over blank lines unchanged, so that they all start where the first one does. -/
theorem Scan.startsInside_of_blank {s : Scan} (hs : s.Fresh) (ps : List (List Char))
    (hn : ∀ p ∈ ps, '\n' ∉ p) (hb : ∀ p ∈ ps, p.all Text.isBlank = true) :
    ∀ l ∈ s.flagged ps, l.startsInside = s.inside := by
  induction ps with
  | nil => simp [Scan.flagged]
  | cons p ps ih =>
    have hp : s.after p = s := s.after_blank p hs (hn p List.mem_cons_self)
      (hb p List.mem_cons_self)
    rw [Scan.flagged, hp]
    intro l hl
    rcases List.mem_cons.mp hl with rfl | hl
    · rfl
    · exact ih (fun q hq => hn q (List.mem_cons_of_mem _ hq))
        (fun q hq => hb q (List.mem_cons_of_mem _ hq)) l hl

/-- Parts of a flagged list of lines are flagged by the scan as it stands at their start. -/
theorem Scan.exists_of_flagged_eq {s : Scan} {ps : List (List Char)} {as run bs : List Line}
    (h : s.flagged ps = as ++ run ++ bs) (hs : s.Fresh) :
    ∃ t : Scan, t.Fresh ∧ run = t.flagged (run.map Line.text) ∧ run.map Line.text ⊆ ps := by
  have hps : ps = as.map Line.text ++ (run.map Line.text ++ bs.map Line.text) := by
    rw [← s.map_text_flagged ps, h, List.append_assoc, List.map_append, List.map_append]
  refine ⟨s.afterAll (as.map Line.text), hs.afterAll _, ?_, ?_⟩
  · rw [hps, Scan.flagged_append, Scan.flagged_append, List.append_assoc] at h
    have hlen (t : Scan) (ls : List Line) : (t.flagged (ls.map Line.text)).length = ls.length := by
      rw [← List.length_map (f := Line.text), Scan.map_text_flagged, List.length_map]
    obtain ⟨-, hrest⟩ := List.append_inj h (hlen s as)
    exact (List.append_inj hrest (hlen _ run)).1.symm
  · rw [hps]
    exact fun p hp => List.mem_append_right _ (List.mem_append_left _ hp)

/-! ## Lines of a tidied text -/

/-- The lines of a text without the empty piece behind a final line break. -/
def countedLines (text : List Char) : List Line :=
  if text.getLast? = some '\n' then (linesOf text).dropLast else linesOf text

def finalBreaks (text : List Char) : Nat := (text.rtakeWhile (· == '\n')).length

/-- A text to which nothing is left to do, seen with the flags of its own scan. -/
structure NormalForm (o : TidyOptions) (text : List Char) : Prop where
  first : ∀ l ∈ (countedLines text).head?, l.isBlank = false
  last : ∀ l ∈ (countedLines text).getLast?, l.isBlank = false
  ending : finalBreaks text = if o.finalNewline then 1 else 0
  trimmed : o.trimEnds = true → ∀ l ∈ linesOf text, l.endsInside = false →
    ∀ c ∈ l.text.getLast?, Text.isBlank c = false
  limited : ∀ as run bs, countedLines text = as ++ run ++ bs → (∀ l ∈ run, l.isBlank = true) →
    (∀ l ∈ run.head?, l.startsInside = false) → (run.length : Int) ≤ max o.maxBlankLines 0

/-- A text that does not end in a line break has no final ones. -/
theorem finalBreaks_of_getLast? {text : List Char} (h : text.getLast? ≠ some '\n') :
    finalBreaks text = 0 := by
  rcases List.eq_nil_or_concat text with rfl | ⟨cs, c, rfl⟩
  · rfl
  · have hc : c ≠ '\n' := by simpa using h
    simp [finalBreaks, List.concat_eq_append, hc]

theorem finalBreaks_append_break {text : List Char} (h : text.getLast? ≠ some '\n') :
    finalBreaks (text ++ ['\n']) = 1 := by
  have hzero := finalBreaks_of_getLast? h
  rw [finalBreaks] at hzero ⊢
  simp [hzero]

/-- Lines of which the last is not blank make a text that does not end in a line break. -/
theorem getLast?_joinWith_ne_break {ls : List Line} (hne : ls ≠ [])
    (hn : ∀ p ∈ ls.map Line.text, '\n' ∉ p) (hlast : (ls.map Line.isBlank).getLast? ≠ some true) :
    (Text.joinWith ['\n'] (ls.map Line.text)).getLast? ≠ some '\n' := by
  obtain ⟨before, l, rfl⟩ := (List.eq_nil_or_concat ls).resolve_left hne
  rw [List.concat_eq_append, List.map_append, List.map_cons, List.map_nil] at hn hlast ⊢
  have hl : l.text ≠ [] := by
    intro he
    simp [Line.isBlank, he] at hlast
  rw [Text.joinWith_append_right _ _ _ (by simp), Text.joinWith,
    List.getLast?_append_of_ne_nil _ hl]
  exact fun he => hn l.text (by simp) (List.mem_of_mem_getLast? he)

section Render

variable {o : TidyOptions} {ls : List Line}

theorem render_of_ne_nil (hne : ls ≠ []) :
    render o (ls.map Line.text) =
      Text.joinWith ['\n'] (ls.map Line.text) ++ if o.finalNewline then ['\n'] else [] := by
  cases ls with
  | nil => exact absurd rfl hne
  | cons l ls => rfl

theorem linesOf_render (hne : ls ≠ []) (hn : ∀ p ∈ ls.map Line.text, '\n' ∉ p)
    (hend : o.finalNewline = true ∨ (Scan.start.afterAll (ls.map Line.text)).inside = false) :
    linesOf (render o (ls.map Line.text)) = Scan.start.flagged (ls.map Line.text) ++
      if o.finalNewline then [⟨[], (Scan.start.afterAll (ls.map Line.text)).inside, false⟩]
        else [] := by
  have hps : ls.map Line.text ≠ [] := by simpa using hne
  rw [render_of_ne_nil hne]
  cases hfin : o.finalNewline with
  | true => exact linesOf_joinWith_break _ hps hn
  | false =>
    have hout := hend.resolve_left (by simp [hfin])
    rw [if_neg Bool.false_ne_true, if_neg Bool.false_ne_true, List.append_nil, List.append_nil,
      linesOf_joinWith _ hps hn, closeLast_flagged _ _ hout]

/-- The lines that are counted are those that were put together, flagged by a new scan. -/
theorem countedLines_render (h : Neat o ls) (hne : ls ≠ []) (hn : ∀ p ∈ ls.map Line.text, '\n' ∉ p)
    (hend : o.finalNewline = true ∨ (Scan.start.afterAll (ls.map Line.text)).inside = false) :
    countedLines (render o (ls.map Line.text)) = Scan.start.flagged (ls.map Line.text) := by
  have hlast := getLast?_joinWith_ne_break hne hn h.last
  rw [countedLines, linesOf_render hne hn hend, render_of_ne_nil hne]
  cases o.finalNewline with
  | true => rw [if_pos rfl, if_pos rfl, if_pos List.getLast?_concat, List.dropLast_concat]
  | false =>
    rw [if_neg Bool.false_ne_true, if_neg Bool.false_ne_true, List.append_nil, List.append_nil,
      if_neg hlast]

theorem finalBreaks_render (h : Neat o ls) (hne : ls ≠ []) (hn : ∀ p ∈ ls.map Line.text, '\n' ∉ p) :
    finalBreaks (render o (ls.map Line.text)) = if o.finalNewline then 1 else 0 := by
  have hlast := getLast?_joinWith_ne_break hne hn h.last
  rw [render_of_ne_nil hne]
  cases o.finalNewline with
  | true => exact finalBreaks_append_break hlast
  | false =>
    rw [if_neg Bool.false_ne_true, if_neg Bool.false_ne_true, List.append_nil]
    exact finalBreaks_of_getLast? hlast

/-- Within a list of neat lines no run of blank lines that starts outside templates is too long. -/
theorem Neat.length_le_of_blank {ps : List (List Char)} (h : Neat o (Scan.start.flagged ps))
    (hn : ∀ p ∈ ps, '\n' ∉ p) {as run bs : List Line} (he : Scan.start.flagged ps = as ++ run ++ bs)
    (hblank : ∀ l ∈ run, l.isBlank = true) (hhead : ∀ l ∈ run.head?, l.startsInside = false) :
    (run.length : Int) ≤ max o.maxBlankLines 0 := by
  obtain ⟨t, ht, hrun, hsub⟩ := Scan.exists_of_flagged_eq he Scan.fresh_start
  have htext : ∀ p ∈ run.map Line.text, p.all Text.isBlank = true := List.forall_mem_map.mpr hblank
  have hstart : ∀ l ∈ run, l.startsInside = t.inside := by
    rw [hrun]
    exact t.startsInside_of_blank ht _ (fun p hp => hn p (hsub hp)) htext
  have hloose : run.map Line.isLoose = List.replicate run.length true := by
    rw [List.eq_replicate_iff]
    refine ⟨List.length_map _, fun b hb => ?_⟩
    obtain ⟨l, hl, rfl⟩ := List.mem_map.mp hb
    have hfirst : (run.head (List.ne_nil_of_mem hl)).startsInside = false :=
      hhead _ (List.head_mem_head? _)
    rw [hstart _ (List.head_mem _)] at hfirst
    rw [Line.isLoose, hblank l hl, hstart l hl, hfirst]
    rfl
  have hlimit := h.limited
  rw [he, List.append_assoc, List.map_append, List.map_append, hloose] at hlimit
  have hle := hlimit.of_append_right.length_le
  omega

/-- Neat lines make a text in normal form. -/
theorem Neat.normalForm_render (h : Neat o ls) (hf : FlaggedFrom Scan.start ls) (hne : ls ≠ [])
    (hend : o.finalNewline = true ∨ (Scan.start.afterAll (ls.map Line.text)).inside = false) :
    NormalForm o (render o (ls.map Line.text)) := by
  have hn := hf.not_mem_break
  have hneat : Neat o (Scan.start.flagged (ls.map Line.text)) :=
    h.congr (Scan.map_text_flagged _ _) hf.map_startsInside fun _ => hf.exists_outside
  have hcounted := countedLines_render h hne hn hend
  refine ⟨?_, ?_, finalBreaks_render h hne hn, ?_, ?_⟩
  · intro l hl
    rw [hcounted] at hl
    have hfirst := hneat.first
    rw [List.head?_map, Option.mem_def.mp hl] at hfirst
    simpa using hfirst
  · intro l hl
    rw [hcounted] at hl
    have hlast := hneat.last
    rw [List.getLast?_map, Option.mem_def.mp hl] at hlast
    simpa using hlast
  · intro htrim l hl hout
    rw [linesOf_render hne hn hend] at hl
    rcases List.mem_append.mp hl with hl | hl
    · exact Text.not_isBlank_getLast _ (hneat.trimmed htrim l hl hout)
    · split_ifs at hl
      · rw [List.mem_singleton.mp hl]
        simp
      · cases hl
  · intro as run bs he hblank hhead
    rw [hcounted] at he
    exact hneat.length_le_of_blank hn he hblank hhead

end Render

/-- Tidied text has the ink of the text and is in normal form, unless nothing is left of it or it
ends within a template and gets no final line break. -/
theorem ink_tidy_and_normalForm (o : TidyOptions) (text : String) :
    ink (tidy o text).toList = ink text.toList ∧
      ((o.finalNewline = true ∨ (Scan.start.run text.toList).mode ≠ .template) →
        tidy o text = "" ∨ NormalForm o (tidy o text).toList) := by
  have hchars : (tidy o text).toList = tidyChars o text.toList := String.toList_ofList
  refine ⟨by rw [hchars, ink_tidyChars], fun hopen => ?_⟩
  obtain ⟨hflags, hafter⟩ := flaggedFrom_tidyLines o text.toList
  by_cases hne : tidyLines o (linesOf text.toList) = []
  · refine .inl ?_
    rw [tidy, tidyChars_eq_render, hne]
    rfl
  · refine .inr ?_
    have hend := hopen.imp_right fun hmode => hafter.trans (decide_eq_false hmode)
    rw [hchars, tidyChars_eq_render]
    exact (neat_tidyLines o _).normalForm_render hflags hne hend

/-- Two blank lines of three go, and those of the template stay. -/
theorem ink_tidy_and_normalForm_template :
    (Scan.start.run "\n \nf(\x60a \n\n\nb\x60); \n\n \n\ng() ".toList).mode ≠ .template ∧
      tidy ⟨false, true, 1⟩ "\n \nf(\x60a \n\n\nb\x60); \n\n \n\ng() " =
        "f(\x60a \n\n\nb\x60);\n\ng()" ∧
      ink "f(\x60a \n\n\nb\x60);\n\ng()".toList = "f(\x60ab\x60);g()".toList ∧
      NormalForm ⟨false, true, 1⟩ "f(\x60a \n\n\nb\x60);\n\ng()".toList := by
  have hmode : (Scan.start.run "\n \nf(\x60a \n\n\nb\x60); \n\n \n\ng() ".toList).mode ≠
      .template := by decide
  have htidy : tidy ⟨false, true, 1⟩ "\n \nf(\x60a \n\n\nb\x60); \n\n \n\ng() " =
      "f(\x60a \n\n\nb\x60);\n\ng()" := by decide
  obtain ⟨hink, hform⟩ :=
    ink_tidy_and_normalForm ⟨false, true, 1⟩ "\n \nf(\x60a \n\n\nb\x60); \n\n \n\ng() "
  rw [htidy] at hink hform
  exact ⟨hmode, htidy, hink.trans (by decide), (hform (.inr hmode)).resolve_left (by decide)⟩

end Scriptwright.Source
