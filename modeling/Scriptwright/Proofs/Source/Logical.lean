import Scriptwright.Proofs.Source.TemplateText
import Mathlib.Data.List.SplitBy

/-!
# Logical lines

A line break within a template literal is part of the literal. A logical line goes from one break
outside templates to the next, and tidying can be said of logical lines without any flags: trim each
of them, keep the first few of every run of blank ones, drop the blank ones at both ends. `Folds`
relates lines with flags to logical lines. It holds of the lines of a text that does not end within
a template, and every pass over the lines keeps it.
-/

namespace Scriptwright.Source

/-- Joins pieces across the breaks that are flagged; there is one flag for each break between two
pieces. -/
def joinAcross : List (List Char) → List Bool → List (List Char)
  | p :: ps, true :: bs =>
    match joinAcross ps bs with
    | [] => [p]
    | t :: ts => (p ++ '\n' :: t) :: ts
  | p :: ps, false :: bs => p :: joinAcross ps bs
  | ps, _ => ps

/-- The lines of a text, joined across the line breaks of template literals. -/
def logicalLines (text : List Char) : List (List Char) :=
  joinAcross (Text.splitAt '\n' text) (templateBreaks text)

def blankText (t : List Char) : Bool := t.all Text.isBlank

/-- The first `most` of each run of blank lines, and all other lines. -/
def limitRuns (most : Int) (ts : List (List Char)) : List (List Char) :=
  (ts.splitBy fun a b => blankText a == blankText b).flatMap fun run =>
    if run.all blankText then run.take most.toNat else run

/-- What is left of logical lines. -/
def tidyLogical (o : TidyOptions) (ts : List (List Char)) : List (List Char) :=
  let trimmed := if o.trimEnds then ts.map Text.trimRight else ts
  ((limitRuns o.maxBlankLines trimmed).dropWhile blankText).rdropWhile blankText

/-! ## Runs of blank lines -/

/-- Counts the blank lines of a run as it goes, and needs no runs for it. -/
def limitFrom (most : Int) (seen : Nat) : List (List Char) → List (List Char)
  | [] => []
  | t :: ts =>
    if blankText t then
      if (seen + 1 : Int) ≤ most then t :: limitFrom most (seen + 1) ts
        else limitFrom most (seen + 1) ts
    else t :: limitFrom most 0 ts

theorem limitFrom_append_inked (most : Int) (seen : Nat) (run rest : List (List Char))
    (hne : run ≠ []) (h : ∀ t ∈ run, blankText t = false) :
    limitFrom most seen (run ++ rest) = run ++ limitFrom most 0 rest := by
  induction run generalizing seen with
  | nil => exact absurd rfl hne
  | cons t run ih =>
    rw [List.cons_append, limitFrom, if_neg (by simp [h t List.mem_cons_self])]
    by_cases he : run = []
    · subst he
      rfl
    · rw [ih 0 he fun u hu => h u (List.mem_cons_of_mem _ hu)]
      rfl

theorem limitFrom_append_blank (most : Int) (seen : Nat) (run rest : List (List Char))
    (h : ∀ t ∈ run, blankText t = true) :
    limitFrom most seen (run ++ rest) =
      run.take (most - seen).toNat ++ limitFrom most (seen + run.length) rest := by
  induction run generalizing seen with
  | nil => simp
  | cons t run ih =>
    have hrest := ih (seen + 1) fun u hu => h u (List.mem_cons_of_mem _ hu)
    have hlen : seen + (t :: run).length = seen + 1 + run.length :=
      by simp only [List.length_cons]; omega
    rw [List.cons_append, limitFrom, if_pos (h t List.mem_cons_self), hrest, hlen]
    split_ifs with hm
    · have htake : (most - seen).toNat = (most - (seen + 1 : Nat)).toNat + 1 := by omega
      rw [htake, List.take_succ_cons, List.cons_append]
    · have h0 : (most - seen).toNat = 0 := by omega
      have h1 : (most - (seen + 1 : Nat)).toNat = 0 := by omega
      rw [h0, h1, List.take_zero, List.take_zero]

/-- The lines of a run are all blank, or none of them is. -/
theorem exists_blankText_eq (run : List (List Char))
    (h : run.IsChain fun a b => (blankText a == blankText b) = true) :
    ∃ b, ∀ t ∈ run, blankText t = b := by
  induction run with
  | nil => exact ⟨true, by simp⟩
  | cons t run ih =>
    cases run with
    | nil => exact ⟨blankText t, by simp⟩
    | cons u run =>
      obtain ⟨htu, hrest⟩ := List.isChain_cons_cons.mp h
      obtain ⟨b, hb⟩ := ih hrest
      have ht : blankText t = b := (eq_of_beq htu).trans (hb u List.mem_cons_self)
      refine ⟨b, fun v hv => ?_⟩
      rcases List.mem_cons.mp hv with rfl | hv
      · exact ht
      · exact hb v hv

/-- Of what has gone by nothing counts where the next run has ink, and two blank runs never meet. -/
theorem limitFrom_flatten (most : Int) (seen : Nat) (runs : List (List (List Char)))
    (hne : [] ∉ runs) (huniform : ∀ run ∈ runs, ∃ b, ∀ t ∈ run, blankText t = b)
    (hchange : runs.IsChain fun a b =>
      ∃ ha hb, (blankText (a.getLast ha) == blankText (b.head hb)) = false)
    (hseen : seen = 0 ∨ ∀ run ∈ runs.head?, ∀ t ∈ run, blankText t = false) :
    limitFrom most seen runs.flatten =
      runs.flatMap fun run => if run.all blankText then run.take most.toNat else run := by
  induction runs generalizing seen with
  | nil => rfl
  | cons run runs ih =>
    have hrun : run ≠ [] := fun he => hne (he ▸ List.mem_cons_self)
    have hne' : [] ∉ runs := fun hm => hne (List.mem_cons_of_mem _ hm)
    have huniform' : ∀ run ∈ runs, ∃ b, ∀ t ∈ run, blankText t = b :=
      fun r hr => huniform r (List.mem_cons_of_mem _ hr)
    obtain ⟨hnext, hchange'⟩ := List.isChain_cons.mp hchange
    obtain ⟨b, hb⟩ := huniform run List.mem_cons_self
    rw [List.flatten_cons, List.flatMap_cons]
    cases b with
    | true =>
      have hzero : seen = 0 := by
        rcases hseen with hseen | hseen
        · exact hseen
        · obtain ⟨t, ht⟩ := List.exists_mem_of_ne_nil run hrun
          have hf := hseen run rfl t ht
          simp [hb t ht] at hf
      have hinked : ∀ r ∈ runs.head?, ∀ t ∈ r, blankText t = false := by
        intro r hr t ht
        obtain ⟨_, hn, hdiff⟩ := hnext r hr
        obtain ⟨b', hb'⟩ := huniform' r (List.mem_of_mem_head? hr)
        rw [hb _ (List.getLast_mem hrun), hb' _ (List.head_mem hn)] at hdiff
        rw [hb' t ht]
        simpa using hdiff
      rw [limitFrom_append_blank _ _ _ _ hb, ih _ hne' huniform' hchange' (.inr hinked),
        if_pos (List.all_eq_true.mpr hb), hzero]
      simp
    | false =>
      have hall : ¬ run.all blankText = true := by
        obtain ⟨t, ht⟩ := List.exists_mem_of_ne_nil run hrun
        intro hall
        simpa [hb t ht] using List.all_eq_true.mp hall t ht
      rw [limitFrom_append_inked _ _ _ _ hrun hb, ih _ hne' huniform' hchange' (.inl rfl),
        if_neg hall]

theorem limitFrom_eq_limitRuns (most : Int) (ts : List (List Char)) :
    limitFrom most 0 ts = limitRuns most ts := by
  have h := limitFrom_flatten most 0 (ts.splitBy fun a b => blankText a == blankText b)
    (List.nil_notMem_splitBy _ _)
      (fun run hr => exists_blankText_eq run (List.isChain_of_mem_splitBy hr))
    (List.isChain_getLast_head_splitBy (fun a b => blankText a == blankText b) ts) (.inl rfl)
  rwa [List.flatten_splitBy] at h

/-! ## Lines of one logical line -/

/-- The lines that make up a logical line with ink, or the rest of one; the index tells whether the
first of them starts inside a template. -/
inductive Inked : Bool → List Line → Prop where
  | last {l : Line} : l.endsInside = false → l.isBlank = false → Inked l.startsInside [l]
  | more {l : Line} {ls : List Line} : l.endsInside = true →
      (l.startsInside = false → l.isBlank = false) →
      Inked true ls → Inked l.startsInside (l :: ls)

namespace Inked

theorem ne_nil {b : Bool} {ls : List Line} (h : Inked b ls) : ls ≠ [] := by cases h <;> simp

theorem blankText_joinWith {b : Bool} {ls : List Line} (h : Inked b ls) :
    blankText (Text.joinWith ['\n'] (ls.map Line.text)) = false := by
  induction h with
  | last _ hl => exact hl
  | more _ _ hrest ih =>
    rw [List.map_cons, Text.joinWith_cons _ _ _ (by simpa using hrest.ne_nil), blankText,
      List.all_append]
    exact Bool.and_eq_false_iff.mpr (.inr ih)

theorem trimmed {b : Bool} {ls : List Line} (h : Inked b ls) :
    Inked b (ls.map Line.trimmed) ∧
      Text.joinWith ['\n'] ((ls.map Line.trimmed).map Line.text) =
        Text.trimRight (Text.joinWith ['\n'] (ls.map Line.text)) := by
  induction h with
  | @last l hend hl =>
    refine ⟨?_, ?_⟩
    · rw [← l.startsInside_trimmed]
      exact .last (by simpa using hend) (by simpa using hl)
    · simp [Text.joinWith, Line.trimmed, hend]
  | @more l ls hend hl hrest ih =>
    have hself : l.trimmed = l := by simp [Line.trimmed, hend]
    have hne := hrest.ne_nil
    refine ⟨?_, ?_⟩
    · rw [List.map_cons, hself]
      exact .more hend hl ih.1
    · rw [List.map_cons, hself, List.map_cons, Text.joinWith_cons _ _ _ (by simpa using hne), ih.2,
        List.map_cons, Text.joinWith_cons _ _ _ (by simpa using hne),
        Text.trimRight_append _ _ hrest.blankText_joinWith]

theorem isLoose_eq_false {b : Bool} {ls : List Line} (h : Inked b ls) :
    ∀ l ∈ ls, l.isLoose = false := by
  induction h with
  | last _ hl => exact List.forall_mem_singleton.mpr (Line.isLoose_eq_false fun _ => hl)
  | more _ hl _ ih => exact List.forall_mem_cons.mpr ⟨Line.isLoose_eq_false hl, ih⟩

theorem dropWhile_append {ls : List Line} (h : Inked false ls) (rest : List Line) :
    (ls ++ rest).dropWhile Line.isBlank = ls ++ rest := by
  generalize hb : false = b at h
  cases h with
  | last _ hl => rw [List.singleton_append, List.dropWhile_cons, if_neg (by simp [hl])]
  | more _ hl _ => rw [List.cons_append, List.dropWhile_cons, if_neg (by simp [hl hb.symm])]

theorem rdropWhile_eq {b : Bool} {ls : List Line} (h : Inked b ls) :
    ls.rdropWhile Line.isBlank = ls := by
  rw [List.rdropWhile_eq_self_iff]
  intro hne
  induction h with
  | last _ hl => simp [hl]
  | more _ _ hrest ih =>
    rw [List.getLast_cons hrest.ne_nil]
    exact ih hrest.ne_nil

end Inked

/-! ## Folding lines into logical lines -/

/-- Lines with flags, and the logical lines that they make up; the index is that of `Inked`. A blank
line that starts outside is a logical line of its own. -/
inductive Folds : Bool → List Line → List (List Char) → Prop where
  | nil : Folds false [] []
  | blank {l : Line} {ls : List Line} {ts : List (List Char)} : l.isLoose = true →
      l.endsInside = false →
      Folds false ls ts → Folds false (l :: ls) (l.text :: ts)
  | inked {c : Bool} {b ls : List Line} {ts : List (List Char)} : Inked c b → Folds false ls ts →
      Folds c (b ++ ls) (Text.joinWith ['\n'] (b.map Line.text) :: ts)

theorem rdropWhile_append {α : Type} (p : α → Bool) (as bs : List α) :
    (as ++ bs).rdropWhile p = if bs.rdropWhile p = [] then as.rdropWhile p
      else as ++ bs.rdropWhile p := by
  simp only [List.rdropWhile, List.reverse_append, List.dropWhile_append, List.reverse_eq_nil_iff,
    List.isEmpty_iff]
  split_ifs <;> simp

namespace Folds

theorem eq_nil_iff {c : Bool} {ls : List Line} {ts : List (List Char)} (h : Folds c ls ts) :
    ls = [] ↔ ts = [] := by
  cases h with
  | nil => simp
  | blank => simp
  | inked hb => simp [hb.ne_nil]

theorem joinWith_eq {c : Bool} {ls : List Line} {ts : List (List Char)} (h : Folds c ls ts) :
    Text.joinWith ['\n'] (ls.map Line.text) = Text.joinWith ['\n'] ts := by
  induction h with
  | nil => rfl
  | @blank l ls ts _ _ hrest ih =>
    by_cases he : ls = []
    · rw [he, hrest.eq_nil_iff.mp he]
      rfl
    · rw [List.map_cons, Text.joinWith_cons _ _ _ (by simpa using he), ih,
        Text.joinWith_cons _ _ _ (mt hrest.eq_nil_iff.mpr he)]
  | @inked c b ls ts hb hrest ih =>
    by_cases he : ls = []
    · rw [he, hrest.eq_nil_iff.mp he, List.append_nil]
      rfl
    · rw [List.map_append, Text.joinWith_append _ _ _ (by simpa using hb.ne_nil)
        (by simpa using he), ih, Text.joinWith_cons _ _ _ (mt hrest.eq_nil_iff.mpr he)]

theorem render_eq {c : Bool} {ls : List Line} {ts : List (List Char)} (h : Folds c ls ts)
    (o : TidyOptions) :
    render o (ls.map Line.text) = render o ts := by
  have hjoin := h.joinWith_eq
  have hnil := h.eq_nil_iff
  cases hts : ts with
  | nil => rw [hnil.mpr hts]; rfl
  | cons t ts' =>
    cases hls : ls with
    | nil => rw [hnil.mp hls] at hts; cases hts
    | cons l ls' =>
      rw [hts, hls] at hjoin
      exact congrArg (· ++ _) hjoin

theorem trimmed {c : Bool} {ls : List Line} {ts : List (List Char)} (h : Folds c ls ts) :
    Folds c (ls.map Line.trimmed) (ts.map Text.trimRight) := by
  induction h with
  | nil => exact .nil
  | @blank l ls ts hl hend _ ih =>
    have htext : l.trimmed.text = Text.trimRight l.text := by simp [Line.trimmed, hend]
    rw [List.map_cons, List.map_cons, ← htext]
    exact .blank (by simpa [Line.isLoose] using hl) (by simpa using hend) ih
  | @inked c b ls ts hb _ ih =>
    rw [List.map_append, List.map_cons, ← hb.trimmed.2]
    exact .inked hb.trimmed.1 ih

theorem limitBlanks {c : Bool} {ls : List Line} {ts : List (List Char)} (h : Folds c ls ts)
    (most : Int) (seen : Nat) :
    Folds c (Source.limitBlanks most seen ls) (limitFrom most seen ts) := by
  induction h generalizing seen with
  | nil => exact .nil
  | @blank l ls ts hl hend _ ih =>
    have hb : blankText l.text = true := l.isBlank_of_isLoose hl
    rw [limitBlanks_cons, if_pos hl, limitFrom, if_pos hb]
    split_ifs
    · exact .blank hl hend (ih _)
    · exact ih _
  | @inked c b ls ts hb _ ih =>
    rw [limitBlanks_append_of_not_isLoose _ _ _ _ hb.ne_nil hb.isLoose_eq_false, limitFrom,
      if_neg (by simp [hb.blankText_joinWith])]
    exact .inked hb (ih _)

theorem dropWhile {c : Bool} {ls : List Line} {ts : List (List Char)} (h : Folds c ls ts)
    (hc : c = false) :
    Folds false (ls.dropWhile Line.isBlank) (ts.dropWhile blankText) := by
  induction h with
  | nil => exact .nil
  | @blank l ls ts hl _ _ ih =>
    have hb : blankText l.text = true := l.isBlank_of_isLoose hl
    rw [List.dropWhile_cons, if_pos (l.isBlank_of_isLoose hl), List.dropWhile_cons, if_pos hb]
    exact ih rfl
  | @inked c b ls ts hb hrest ih =>
    subst hc
    rw [hb.dropWhile_append, List.dropWhile_cons, if_neg (by simp [hb.blankText_joinWith])]
    exact .inked hb hrest

theorem rdropWhile {c : Bool} {ls : List Line} {ts : List (List Char)} (h : Folds c ls ts) :
    Folds c (ls.rdropWhile Line.isBlank) (ts.rdropWhile blankText) := by
  induction h with
  | nil => exact .nil
  | @blank l ls ts hl hend _ ih =>
    have hb : blankText l.text = true := l.isBlank_of_isLoose hl
    rw [← List.singleton_append, rdropWhile_append, ← List.singleton_append (l := ts),
      rdropWhile_append]
    by_cases he : ls.rdropWhile Line.isBlank = []
    · rw [if_pos he, if_pos (ih.eq_nil_iff.mp he), List.rdropWhile_singleton,
        if_pos (l.isBlank_of_isLoose hl), List.rdropWhile_singleton, if_pos hb]
      exact .nil
    · rw [if_neg he, if_neg (mt ih.eq_nil_iff.mpr he)]
      exact .blank hl hend ih
  | @inked c b ls ts hb _ ih =>
    rw [rdropWhile_append, ← List.singleton_append, rdropWhile_append]
    by_cases he : ls.rdropWhile Line.isBlank = []
    · rw [if_pos he, if_pos (ih.eq_nil_iff.mp he), hb.rdropWhile_eq, List.rdropWhile_singleton,
        if_neg (by simp [hb.blankText_joinWith])]
      simpa using inked hb nil
    · rw [if_neg he, if_neg (mt ih.eq_nil_iff.mpr he)]
      exact .inked hb ih

/-- Tidied lines make up the tidied logical lines. -/
theorem tidyLines {ls : List Line} {ts : List (List Char)} (h : Folds false ls ts)
    (o : TidyOptions) :
    Folds false (Source.tidyLines o ls) (tidyLogical o ts) := by
  have htrim : Folds false (trimmedLines o ls)
      (if o.trimEnds then ts.map Text.trimRight else ts) := by
    unfold trimmedLines
    split_ifs
    · exact h.trimmed
    · exact h
  rw [tidyLines_eq, dropBlankEnds_eq, tidyLogical, ← limitFrom_eq_limitRuns]
  exact ((htrim.limitBlanks _ _).dropWhile rfl).rdropWhile

end Folds

/-! ## The logical lines of a text -/

/-- A line that ends outside ends a logical line, and it has ink if it starts inside. -/
theorem folds_cons_outside (s : Scan) (p : List Char) {ls : List Line} {ts : List (List Char)}
    (hs : s.Fresh) (hp : '\n' ∉ p) (hout : (s.after p).inside = false) (hrest : Folds false ls ts) :
    Folds s.inside (⟨p, s.inside, false⟩ :: ls) (p :: ts) := by
  by_cases hblank : p.all Text.isBlank = true
  · have hin : s.inside = false := by rwa [s.after_blank p hs hp hblank] at hout
    rw [hin]
    exact .blank (l := ⟨p, false, false⟩)
      (by simpa [Line.isLoose, Line.isBlank] using hblank) rfl hrest
  · exact .inked (.last (l := ⟨p, s.inside, false⟩) rfl (by simpa [Line.isBlank] using hblank))
      hrest

/-- A line that ends inside goes on with the next one, and it has ink if it starts outside. -/
theorem folds_cons_inside (s : Scan) (p : List Char) {ls : List Line} {ts : List (List Char)}
    (hs : s.Fresh) (hp : '\n' ∉ p) (hin : (s.after p).inside = true) (hrest : Folds true ls ts) :
    ∃ t ts', ts = t :: ts' ∧ Folds s.inside (⟨p, s.inside, true⟩ :: ls)
      ((p ++ '\n' :: t) :: ts') := by
  have hinked : s.inside = false → p.all Text.isBlank = false := by
    intro hout
    by_contra hblank
    rw [s.after_blank p hs hp (by simpa using hblank), hout] at hin
    cases hin
  cases hrest with
  | @inked _ b ls ts hb hrest =>
    have hmore : Inked s.inside (⟨p, s.inside, true⟩ :: b) :=
      .more (l := ⟨p, s.inside, true⟩) rfl hinked hb
    have hfold := Folds.inked hmore hrest
    rw [List.map_cons, Text.joinWith_cons _ _ _ (by simpa using hb.ne_nil),
      List.append_assoc] at hfold
    exact ⟨_, _, rfl, hfold⟩

theorem folds_flagged (s : Scan) (ps : List (List Char)) (hs : s.Fresh) (hne : ps ≠ [])
    (h : ∀ p ∈ ps, '\n' ∉ p) (hout : (s.afterAll ps).inside = false) :
    Folds s.inside (s.flagged ps) (joinAcross ps (s.breaks (Text.joinWith ['\n'] ps))) := by
  induction ps generalizing s with
  | nil => exact absurd rfl hne
  | cons p ps ih =>
    have hp := h p List.mem_cons_self
    cases ps with
    | nil =>
      have hend : (s.after p).inside = false := hout
      rw [Text.joinWith, s.breaks_of_no_break p hp, Scan.flagged, hend]
      exact folds_cons_outside s p hs hp hend .nil
    | cons q qs =>
      have hrest :=
        ih (s.after p) (hs.after p) (by simp) (fun r hr => h r (List.mem_cons_of_mem _ hr)) hout
      rw [Text.joinWith_cons _ _ _ (by simp), List.append_assoc, List.singleton_append,
        s.breaks_append_break p _ hp fun _ => hs.skip, Scan.flagged]
      cases hend : (s.after p).inside with
      | false =>
        rw [hend] at hrest
        exact folds_cons_outside s p hs hp hend hrest
      | true =>
        rw [hend] at hrest
        obtain ⟨t, ts, heq, hfold⟩ := folds_cons_inside s p hs hp hend hrest
        rw [joinAcross, heq]
        exact hfold

theorem folds_linesOf (text : List Char) (h : (Scan.start.run text).inside = false) :
    Folds false (linesOf text) (logicalLines text) := by
  have hne := Text.splitAt_ne_nil '\n' text
  have hout : (Scan.start.afterAll (Text.splitAt '\n' text)).inside = false := by
    rwa [← run_joinWith_inside _ _ hne, Text.joinWith_splitAt]
  have hfold := folds_flagged Scan.start _ Scan.fresh_start hne
    (Text.not_mem_of_mem_splitAt '\n' text) hout
  rw [Text.joinWith_splitAt] at hfold
  rw [linesOf_eq_flagged, closeLast_flagged _ _ hout]
  exact hfold

/-- Tidying a text that does not end within a template tidies its logical lines, and all that stands
in template literals stays as it is. -/
theorem tidy_eq_tidyLogical (o : TidyOptions) (text : String)
    (h : (Scan.start.run text.toList).mode ≠ .template) :
    tidy o text = String.ofList (render o (tidyLogical o (logicalLines text.toList))) ∧
      Scan.start.templateText (tidy o text).toList = Scan.start.templateText text.toList := by
  have hout : (Scan.start.run text.toList).inside = false := by simpa [Scan.inside] using h
  refine ⟨?_, ?_⟩
  · rw [tidy, tidyChars_eq_render, ((folds_linesOf _ hout).tidyLines o).render_eq o]
  · rw [tidy, String.toList_ofList, templateText_tidyChars o _ hout]

/-- The blank lines and the blanks at line ends are kept within the template only. -/
theorem tidy_eq_tidyLogical_template :
    (Scan.start.run "\n a \n\n \n\x60b \n\n\n\x60 \n\n".toList).mode ≠ .template ∧
      tidy {} "\n a \n\n \n\x60b \n\n\n\x60 \n\n" = " a\n\n\x60b \n\n\n\x60\n" := by
  have hmode : (Scan.start.run "\n a \n\n \n\x60b \n\n\n\x60 \n\n".toList).mode ≠ .template :=
    by decide
  exact ⟨hmode, (tidy_eq_tidyLogical {} _ hmode).1.trans (by decide)⟩

end Scriptwright.Source
