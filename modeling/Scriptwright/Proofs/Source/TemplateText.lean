import Scriptwright.Proofs.Source.Neat

/-!
# The text of template literals

`Scan.templateText` are the characters that a scan reads inside template literals, in order. It is
gathered line by line. Neither blanks at the end of a line that ends outside, nor blank lines that
start outside, add to it, and so tidying leaves it as it is if the text does not end within a
template.
-/

namespace Scriptwright.Source

namespace Scan

/-- The characters that are read inside template literals. -/
def templateText (s : Scan) : List Char → List Char
  | [] => []
  | c :: cs => (if s.inside then [c] else []) ++ templateText (s.step c cs.head?) cs

def templateLines (s : Scan) : List (List Char) → List Char
  | [] => []
  | p :: ps => s.templateText (p ++ ['\n']) ++ templateLines (s.after p) ps

theorem templateText_append_break (s : Scan) (p rest : List Char) :
    s.templateText (p ++ '\n' :: rest) = s.templateText (p ++ ['\n']) ++
      (s.after p).templateText rest := by
  induction p generalizing s with
  | nil =>
    have hstep : s.step '\n' rest.head? = s.after [] := s.step_break_next rest.head? none
    rw [List.nil_append, templateText, hstep, List.nil_append, templateText, templateText,
      List.append_nil]
  | cons c p ih =>
    have hhead : (p ++ '\n' :: rest).head? = (p ++ ['\n']).head? := by cases p <;> rfl
    rw [List.cons_append, templateText, hhead, ih, List.cons_append, templateText,
      List.append_assoc]
    rfl

/-! ## Blanks outside -/

/-- No blank, be it a line break or not, leads into a template or out of it. -/
theorem inside_step_blank (s : Scan) (c : Char) (next : Option Char) (hc : Text.isBlank c = true) :
    (s.step c next).inside = s.inside := by
  by_cases hn : c = '\n'
  · rw [hn, inside_step_break]
  · cases hs : s.skip with
    | true => rw [s.step_skip c next hs]; rfl
    | false => rw [s.step_blank c next hs hc hn]

theorem templateText_blanks (s : Scan) (w : List Char) (hw : ∀ c ∈ w, Text.isBlank c = true)
    (hs : s.inside = false) : s.templateText w = [] := by
  induction w generalizing s with
  | nil => rfl
  | cons c w ih =>
    have hc := hw c List.mem_cons_self
    rw [templateText, hs, if_neg (by simp)]
    exact ih _ (fun d hd => hw d (List.mem_cons_of_mem _ hd))
      ((s.inside_step_blank c _ hc).trans hs)

/-- Whether a character leads into a template does not depend on a blank behind it. -/
theorem inside_step_head_blank (s : Scan) (c : Char) (w : List Char)
    (hw : ∀ d ∈ w, Text.isBlank d = true) :
    (s.step c w.head?).inside = (s.step c none).inside := by
  have hquiet : ∀ d ∈ ['/', '*', '{'], w.head? ≠ some d :=
    fun d hd he => ne_of_isBlank (hw d (List.mem_of_mem_head? he)) hd rfl
  rw [inside_step_none]
  rcases s.step_next c w.head? hquiet with h | h <;> rw [h]
  rfl

theorem templateText_append_blanks (s : Scan) (p w : List Char)
    (hw : ∀ c ∈ w, Text.isBlank c = true) (h : (s.run p).inside = false) :
    s.templateText (p ++ w) = s.templateText p := by
  induction p generalizing s with
  | nil => exact s.templateText_blanks w hw h
  | cons c p ih =>
    cases p with
    | nil =>
      have hnil : (s.step c w.head?).templateText w = [] :=
        templateText_blanks _ w hw ((s.inside_step_head_blank c w hw).trans h)
      rw [List.cons_append, List.nil_append, templateText, hnil, templateText, templateText]
    | cons d p =>
      rw [List.cons_append, templateText, templateText]
      exact congrArg (_ ++ ·) (ih _ h)

theorem templateText_append_singleton (s : Scan) (p : List Char) (h : (s.after p).inside = false) :
    s.templateText (p ++ ['\n']) = s.templateText p :=
  s.templateText_append_blanks p ['\n'] (fun _ hc => List.mem_singleton.mp hc ▸ rfl)
    ((s.inside_run p).trans h)

theorem templateText_trimRight (s : Scan) (p : List Char) (hs : s.Fresh) (hp : '\n' ∉ p)
    (h : (s.after p).inside = false) :
    s.templateText (Text.trimRight p ++ ['\n']) = s.templateText (p ++ ['\n']) := by
  obtain ⟨w, he, hw⟩ := Text.exists_trimRight_append p
  have hafter := s.after_trimRight p hs hp
  have htrim : (s.run (Text.trimRight p)).inside = false := by rw [s.inside_run, hafter, h]
  rw [templateText_append_singleton _ _ (hafter ▸ h), templateText_append_singleton _ _ h]
  conv => rhs; rw [he, s.templateText_append_blanks _ w hw htrim]

/-! ## Lines -/

theorem templateText_joinWith (s : Scan) (ps : List (List Char)) (hne : ps ≠ [])
    (h : (s.afterAll ps).inside = false) :
    s.templateText (Text.joinWith ['\n'] ps) = s.templateLines ps := by
  induction ps generalizing s with
  | nil => exact absurd rfl hne
  | cons p ps ih =>
    by_cases he : ps = []
    · subst he
      rw [templateLines, templateLines, List.append_nil, templateText_append_singleton s p h]
      rfl
    · rw [Text.joinWith_cons _ _ _ he, List.append_assoc, List.singleton_append,
        templateText_append_break, ih _ he h, templateLines]

theorem templateLines_trimmed (s : Scan) (ps : List (List Char)) (hs : s.Fresh)
    (hps : ∀ p ∈ ps, '\n' ∉ p) :
    s.templateLines (((s.flagged ps).map Line.trimmed).map Line.text) = s.templateLines ps := by
  induction ps generalizing s with
  | nil => rfl
  | cons p ps ih =>
    have hp := hps p List.mem_cons_self
    have hafter := s.after_trimmed ⟨p, s.inside, (s.after p).inside⟩ hs hp
    have hrest := ih (s.after p) (hs.after p) fun q hq => hps q (List.mem_cons_of_mem _ hq)
    rw [flagged, List.map_cons, List.map_cons, templateLines, hafter, hrest, templateLines]
    congr 1
    unfold Line.trimmed
    split
    · rfl
    · next hout => exact s.templateText_trimRight p hs hp (by simpa using hout)

theorem templateLines_thinned {s : Scan} {ls' ls : List Line} (h : FlaggedFrom s ls) (hs : s.Fresh)
    (ht : Thinned Line.isLoose ls' ls) :
    s.templateLines (ls'.map Line.text) = s.templateLines (ls.map Line.text) := by
  induction ht generalizing s with
  | nil => rfl
  | keep _ ih =>
    cases h with
    | cons _ _ _ hrest => rw [List.map_cons, List.map_cons, templateLines, templateLines,
        ih hrest (hs.after _)]
  | @drop l _ _ hp _ ih =>
    cases h with
    | cons hn hstart _ hrest =>
      obtain ⟨hblank, hout⟩ : l.isBlank = true ∧ l.startsInside = false :=
        by simpa [Line.isLoose] using hp
      have hl := s.after_blank _ hs hn hblank
      have hall : ∀ c ∈ l.text ++ ['\n'], Text.isBlank c = true := by
        intro c hc
        rcases List.mem_append.mp hc with hc | hc
        · exact List.all_eq_true.mp hblank c hc
        · rw [List.mem_singleton.mp hc]
          decide
      rw [hl] at hrest
      rw [List.map_cons, templateLines, hl, s.templateText_blanks _ hall (hstart ▸ hout),
        List.nil_append]
      exact ih hrest hs

end Scan

/-! ## Tidied text -/

theorem FlaggedFrom.isLoose_of_isBlank {s : Scan} {ls : List Line} (h : FlaggedFrom s ls)
    (hs : s.Fresh) (hin : s.inside = false) (hb : ∀ l ∈ ls, l.isBlank = true) :
    ∀ l ∈ ls, l.isLoose = true := by
  induction h with
  | nil s => simp
  | @cons s l ls hn hstart _ _ ih =>
    have hl := hb l List.mem_cons_self
    have hsame := s.after_blank l.text hs hn hl
    rw [hsame] at ih
    have hrest := ih hs hin fun m hm => hb m (List.mem_cons_of_mem _ hm)
    intro m hm
    rcases List.mem_cons.mp hm with rfl | hm
    · simp [Line.isLoose, hl, hstart, hin]
    · exact hrest m hm

/-- Between two ends outside templates, the blank lines that are dropped at the ends are outside as
well. -/
theorem FlaggedFrom.thinned_dropBlankEnds {s : Scan} {ls : List Line} (h : FlaggedFrom s ls)
    (hs : s.Fresh) (hin : s.inside = false)
    (hout : (s.afterAll (ls.map Line.text)).inside = false) :
    Thinned Line.isLoose (dropBlankEnds ls) ls := by
  obtain ⟨as, bs, he, ha, hb⟩ := exists_dropBlankEnds ls
  rw [he] at h
  obtain ⟨hleft, hbs⟩ := h.of_append
  have hfresh := hs.afterAll ((as ++ dropBlankEnds ls).map Line.text)
  -- the lines at the end are blank, so the state in front of them is the one behind them
  have hend : (s.afterAll ((as ++ dropBlankEnds ls).map Line.text)).inside = false := by
    obtain ⟨-, hsame⟩ := hbs.thinned hfresh (.of_all _ bs hb)
    rw [he, List.map_append, Scan.afterAll_append, ← hsame] at hout
    exact hout
  have hla := hleft.of_append.1.isLoose_of_isBlank hs hin ha
  have hlb := hbs.isLoose_of_isBlank hfresh hend hb
  conv => rhs; rw [he]
  simpa using ((Thinned.of_all _ as hla).append (.refl _ (dropBlankEnds ls))).append
    (.of_all _ bs hlb)

theorem templateText_render (o : TidyOptions) (ps : List (List Char))
    (h : (Scan.start.afterAll ps).inside = false) :
    Scan.start.templateText (render o ps) = Scan.start.templateLines ps := by
  cases ps with
  | nil => rfl
  | cons p ps =>
    have hrun := (run_joinWith_inside Scan.start (p :: ps) (by simp)).trans h
    have hblank : ∀ c ∈ (if o.finalNewline then ['\n'] else []), Text.isBlank c = true := by
      intro c hc
      cases hfin : o.finalNewline with
      | true =>
        rw [hfin, if_pos rfl, List.mem_singleton] at hc
        rw [hc]
        rfl
      | false =>
        rw [hfin, if_neg (by simp)] at hc
        cases hc
    rw [render, Scan.templateText_append_blanks _ _ _ hblank hrun,
      Scan.templateText_joinWith _ _ (by simp) h]

theorem templateLines_trimmedLines (o : TidyOptions) (s : Scan) (ps : List (List Char))
    (hs : s.Fresh) (hps : ∀ p ∈ ps, '\n' ∉ p) :
    s.templateLines ((trimmedLines o (s.flagged ps)).map Line.text) = s.templateLines ps := by
  unfold trimmedLines
  split_ifs
  · exact s.templateLines_trimmed ps hs hps
  · rw [Scan.map_text_flagged]

/-- What stands in template literals survives in a text that does not end within one. -/
theorem templateText_tidyChars (o : TidyOptions) (text : List Char)
    (h : (Scan.start.run text).inside = false) :
    Scan.start.templateText (tidyChars o text) = Scan.start.templateText text := by
  obtain ⟨-, hend⟩ := flaggedFrom_tidyLines o text
  have hout : (Scan.start.afterAll (Text.splitAt '\n' text)).inside = false := by
    rw [← run_joinWith_inside _ _ (Text.splitAt_ne_nil '\n' text), Text.joinWith_splitAt, h]
  have hlines : linesOf text = Scan.start.flagged (Text.splitAt '\n' text) := by
    rw [linesOf_eq_flagged, closeLast_flagged _ _ hout]
  have htrim := (flaggedFrom_linesOf text).trimmedLines Scan.fresh_start o
  have hlimit := thinned_limitBlanks o.maxBlankLines 0 (trimmedLines o (linesOf text))
  have hlimited := htrim.1.thinned Scan.fresh_start (hlimit.mono Line.isBlank_of_isLoose)
  have hends := hlimited.1.thinned_dropBlankEnds Scan.fresh_start rfl
    (by rw [hlimited.2, htrim.2, hlines, Scan.map_text_flagged, hout])
  calc Scan.start.templateText (tidyChars o text)
      = Scan.start.templateLines ((tidyLines o (linesOf text)).map Line.text) := by
        rw [tidyChars_eq_render, templateText_render o _ (hend.trans h)]
    _ = Scan.start.templateLines ((trimmedLines o (linesOf text)).map Line.text) := by
        rw [tidyLines_eq, Scan.templateLines_thinned hlimited.1 Scan.fresh_start hends,
          Scan.templateLines_thinned htrim.1 Scan.fresh_start hlimit]
    _ = Scan.start.templateLines (Text.splitAt '\n' text) := by
        rw [hlines, templateLines_trimmedLines o _ _ Scan.fresh_start
          (Text.not_mem_of_mem_splitAt '\n' text)]
    _ = Scan.start.templateText text := by
        rw [← Scan.templateText_joinWith _ _ (Text.splitAt_ne_nil '\n' text) hout,
          Text.joinWith_splitAt]

end Scriptwright.Source
