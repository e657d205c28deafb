import Scriptwright.Proofs.Source.Lines

/-!
# Neat lines

Tidied lines are neat: no blanks at ends outside templates, no more blank lines in a row than
allowed, none at either end. Neat lines are left as they are. Tidied text, read anew, has the lines
that tidying left, with their flags, and so it does not change any more.
-/

namespace Scriptwright.Source

/-- A blank line that starts outside templates, so that it counts against the limit. -/
def Line.isLoose (l : Line) : Bool := l.isBlank && !l.startsInside

theorem Line.isLoose_eq_false {l : Line} (h : l.startsInside = false → l.isBlank = false) :
    l.isLoose = false := by
  cases hs : l.startsInside with
  | false => simp [Line.isLoose, h hs]
  | true => simp [Line.isLoose, hs]

theorem Line.isBlank_of_isLoose (l : Line) (h : l.isLoose = true) : l.isBlank = true :=
  (Bool.and_eq_true_iff.mp h).1

/-- No more than `most` of the flags are set in a row; `seen` in a row have gone by. -/
def WithinLimit (most : Int) : Nat → List Bool → Prop
  | _, [] => True
  | seen, true :: bs => (seen + 1 : Int) ≤ most ∧ WithinLimit most (seen + 1) bs
  | _, false :: bs => WithinLimit most 0 bs

structure Neat (o : TidyOptions) (ls : List Line) : Prop where
  trimmed : o.trimEnds = true → ∀ l ∈ ls, l.endsInside = false → Text.trimRight l.text = l.text
  limited : WithinLimit o.maxBlankLines 0 (ls.map Line.isLoose)
  first : (ls.map Line.isBlank).head? ≠ some true
  last : (ls.map Line.isBlank).getLast? ≠ some true

/-! ## Rows of blank lines -/

theorem limitBlanks_cons (most : Int) (seen : Nat) (l : Line) (ls : List Line) :
    limitBlanks most seen (l :: ls) =
      if l.isLoose then
        if (seen + 1 : Int) ≤ most then l :: limitBlanks most (seen + 1) ls
          else limitBlanks most (seen + 1) ls
      else l :: limitBlanks most 0 ls := rfl

theorem thinned_limitBlanks (most : Int) (seen : Nat) (ls : List Line) :
    Thinned Line.isLoose (limitBlanks most seen ls) ls := by
  induction ls generalizing seen with
  | nil => exact .nil
  | cons l ls ih =>
    rw [limitBlanks_cons]
    split_ifs with hl hm
    · exact .keep (ih _)
    · exact .drop hl (ih _)
    · exact .keep (ih _)

/-- A limited list stays within the limit also where fewer lines have gone by. -/
theorem withinLimit_limitBlanks (most : Int) (seen seen' : Nat) (h : seen' ≤ seen)
    (ls : List Line) :
    WithinLimit most seen' ((limitBlanks most seen ls).map Line.isLoose) := by
  induction ls generalizing seen seen' with
  | nil => trivial
  | cons l ls ih =>
    rw [limitBlanks_cons]
    split_ifs with hl hm
    · rw [List.map_cons, hl]
      exact ⟨by omega, ih _ _ (by omega)⟩
    · exact ih _ _ (by omega)
    · rw [List.map_cons, Bool.eq_false_iff.mpr hl]
      exact ih _ _ le_rfl

theorem limitBlanks_eq_self (most : Int) (seen : Nat) (ls : List Line)
    (h : WithinLimit most seen (ls.map Line.isLoose)) : limitBlanks most seen ls = ls := by
  induction ls generalizing seen with
  | nil => rfl
  | cons l ls ih =>
    rw [limitBlanks_cons]
    cases hl : l.isLoose with
    | true =>
      rw [List.map_cons, hl] at h
      rw [if_pos rfl, if_pos h.1, ih _ h.2]
    | false =>
      rw [List.map_cons, hl] at h
      rw [if_neg (by simp), ih _ h]

/-- Lines that do not count against the limit stay, and the count starts anew behind them. -/
theorem limitBlanks_append_of_not_isLoose (most : Int) (seen : Nat) (ls rest : List Line)
    (hne : ls ≠ []) (h : ∀ l ∈ ls, l.isLoose = false) :
    limitBlanks most seen (ls ++ rest) = ls ++ limitBlanks most 0 rest := by
  induction ls generalizing seen with
  | nil => exact absurd rfl hne
  | cons l ls ih =>
    rw [List.cons_append, limitBlanks_cons, if_neg (by simp [h l List.mem_cons_self])]
    by_cases he : ls = []
    · subst he
      rfl
    · rw [ih 0 he fun m hm => h m (List.mem_cons_of_mem _ hm)]
      rfl

theorem limitBlanks_append_singleton (most : Int) (seen : Nat) (ls : List Line) (l : Line) :
    limitBlanks most seen (ls ++ [l]) = limitBlanks most seen ls ∨
      limitBlanks most seen (ls ++ [l]) = limitBlanks most seen ls ++ [l] := by
  induction ls generalizing seen with
  | nil =>
    simp only [List.nil_append, limitBlanks_cons, limitBlanks]
    split_ifs <;> simp
  | cons l' ls ih =>
    simp only [List.cons_append, limitBlanks_cons]
    split_ifs
    · rcases ih (seen + 1) with h | h <;> simp [h]
    · exact ih (seen + 1)
    · rcases ih 0 with h | h <;> simp [h]

namespace WithinLimit

theorem mono {most : Int} {seen : Nat} {bs : List Bool} (h : WithinLimit most seen bs) (seen' : Nat)
    (hs : seen' ≤ seen) : WithinLimit most seen' bs := by
  induction bs generalizing seen seen' with
  | nil => trivial
  | cons b bs ih =>
    cases b with
    | true => exact ⟨by have := h.1; omega, ih h.2 _ (by omega)⟩
    | false => exact h

theorem of_append_left {most : Int} {seen : Nat} {as bs : List Bool}
    (h : WithinLimit most seen (as ++ bs)) :
    WithinLimit most seen as := by
  induction as generalizing seen with
  | nil => trivial
  | cons a as ih =>
    cases a with
    | true => exact ⟨h.1, ih h.2⟩
    | false => exact @ih 0 h

theorem of_append_right {most : Int} {seen : Nat} {as bs : List Bool}
    (h : WithinLimit most seen (as ++ bs)) :
    WithinLimit most 0 bs := by
  induction as generalizing seen with
  | nil => exact h.mono 0 (Nat.zero_le _)
  | cons a as ih =>
    cases a with
    | true => exact ih h.2
    | false => exact @ih 0 h

end WithinLimit

/-! ## Blank lines at the ends -/

theorem dropBlankEnds_eq (ls : List Line) :
    dropBlankEnds ls = (ls.dropWhile Line.isBlank).rdropWhile Line.isBlank := rfl

theorem exists_dropBlankEnds (ls : List Line) :
    ∃ as bs, ls = as ++ dropBlankEnds ls ++ bs ∧ (∀ l ∈ as, l.isBlank = true) ∧
      ∀ l ∈ bs, l.isBlank = true := by
  refine ⟨ls.takeWhile Line.isBlank, (ls.dropWhile Line.isBlank).rtakeWhile Line.isBlank, ?_,
    fun l hl => List.mem_takeWhile_imp hl, fun l hl => List.mem_rtakeWhile_imp hl⟩
  rw [dropBlankEnds_eq, List.append_assoc, List.rdropWhile_append_rtakeWhile,
    List.takeWhile_append_dropWhile]

theorem thinned_dropBlankEnds (ls : List Line) : Thinned Line.isBlank (dropBlankEnds ls) ls := by
  obtain ⟨as, bs, he, ha, hb⟩ := exists_dropBlankEnds ls
  conv => rhs; rw [he]
  simpa using ((Thinned.of_all Line.isBlank as ha).append (.refl _ (dropBlankEnds ls))).append
    (Thinned.of_all Line.isBlank bs hb)

theorem head?_dropBlankEnds (ls : List Line) :
    ((dropBlankEnds ls).map Line.isBlank).head? ≠ some true := by
  intro he
  obtain ⟨l, hl, hb⟩ := Option.map_eq_some_iff.mp (List.head?_map.symm.trans he)
  obtain ⟨bs, hp⟩ : dropBlankEnds ls <+: ls.dropWhile Line.isBlank := List.rdropWhile_prefix _ _
  have hhead : (ls.dropWhile Line.isBlank).head? = some l := by
    rw [← hp, List.head?_append, hl]
    rfl
  have hnot := List.head?_dropWhile_not Line.isBlank ls
  simp [hhead, hb] at hnot

theorem getLast?_dropBlankEnds (ls : List Line) :
    ((dropBlankEnds ls).map Line.isBlank).getLast? ≠ some true := by
  intro he
  obtain ⟨l, hl, hb⟩ := Option.map_eq_some_iff.mp (List.getLast?_map.symm.trans he)
  obtain ⟨hne, rfl⟩ := List.mem_getLast?_eq_getLast hl
  exact List.rdropWhile_last_not Line.isBlank (ls.dropWhile Line.isBlank) hne hb

theorem dropBlankEnds_eq_self (ls : List Line) (hf : (ls.map Line.isBlank).head? ≠ some true)
    (hl : (ls.map Line.isBlank).getLast? ≠ some true) : dropBlankEnds ls = ls := by
  have hdrop : ls.dropWhile Line.isBlank = ls := by
    cases ls with
    | nil => rfl
    | cons l ls => rw [List.dropWhile_cons, if_neg fun hb => hf (congrArg some hb)]
  rw [dropBlankEnds_eq, hdrop, List.rdropWhile_eq_self_iff]
  intro hne hb
  apply hl
  rw [List.getLast?_map, List.getLast?_eq_some_getLast hne]
  exact congrArg some hb

theorem dropBlankEnds_append_singleton (ls : List Line) (l : Line) (h : l.isBlank = true) :
    dropBlankEnds (ls ++ [l]) = dropBlankEnds ls := by
  rw [dropBlankEnds_eq, dropBlankEnds_eq, List.dropWhile_append]
  split_ifs with he
  · rw [List.isEmpty_iff.mp he, List.dropWhile_cons, if_pos h]
    rfl
  · exact List.rdropWhile_concat_pos _ _ _ h

/-! ## Tidied lines -/

def trimmedLines (o : TidyOptions) (ls : List Line) : List Line :=
  if o.trimEnds then ls.map Line.trimmed else ls

theorem neat_tidyLines (o : TidyOptions) (ls : List Line) : Neat o (tidyLines o ls) := by
  obtain ⟨as, bs, he, -, -⟩ :=
    exists_dropBlankEnds (limitBlanks o.maxBlankLines 0 (trimmedLines o ls))
  refine ⟨?_, ?_, head?_dropBlankEnds _, getLast?_dropBlankEnds _⟩
  · intro ht l hl hout
    have hmem : l ∈ ls.map Line.trimmed := by
      have := (thinned_dropBlankEnds _).sublist.subset hl
      have := (thinned_limitBlanks _ _ _).sublist.subset this
      simpa only [ht, if_true] using this
    obtain ⟨l₀, -, rfl⟩ := List.mem_map.mp hmem
    have hout₀ : l₀.endsInside = false := by simpa using hout
    simp only [Line.trimmed, hout₀, Bool.false_eq_true, if_false]
    exact Text.trimRight_trimRight l₀.text
  · have hlim := withinLimit_limitBlanks o.maxBlankLines 0 0 le_rfl (trimmedLines o ls)
    rw [he, List.map_append, List.map_append] at hlim
    exact hlim.of_append_left.of_append_right

theorem tidyLines_eq (o : TidyOptions) (ls : List Line) :
    tidyLines o ls = dropBlankEnds (limitBlanks o.maxBlankLines 0 (trimmedLines o ls)) := rfl

namespace Neat

theorem nil (o : TidyOptions) : Neat o [] := ⟨by simp, trivial, by simp, by simp⟩

theorem trimmedLines_eq {o : TidyOptions} {ls : List Line} (h : Neat o ls) :
    trimmedLines o ls = ls := by
  unfold trimmedLines
  split_ifs with ht
  · have hid : ls.map Line.trimmed = ls.map id := by
      apply List.map_congr_left
      intro l hl
      unfold Line.trimmed
      split_ifs with hin
      · rfl
      · rw [h.trimmed ht l hl (Bool.eq_false_iff.mpr hin)]
        rfl
    rw [hid, List.map_id]
  · rfl

/-- Neat lines are left as they are. -/
theorem tidyLines_eq_self {o : TidyOptions} {ls : List Line} (h : Neat o ls) :
    tidyLines o ls = ls := by
  rw [tidyLines_eq, h.trimmedLines_eq, limitBlanks_eq_self _ _ _ h.limited,
    dropBlankEnds_eq_self _ h.first h.last]

/-- The empty line behind a final break goes, and nothing else. -/
theorem tidyLines_append_empty {o : TidyOptions} {ls : List Line} (h : Neat o ls) (b : Bool) :
    tidyLines o (ls ++ [⟨[], b, false⟩]) = ls := by
  have hblank : Line.isBlank ⟨[], b, false⟩ = true := rfl
  have htrim : trimmedLines o (ls ++ [⟨[], b, false⟩]) = ls ++ [⟨[], b, false⟩] := by
    have hls := h.trimmedLines_eq
    unfold trimmedLines at hls ⊢
    split_ifs at hls ⊢
    · rw [List.map_append, hls]
      rfl
    · rfl
  have hdrop := dropBlankEnds_eq_self ls h.first h.last
  rw [tidyLines_eq, htrim]
  rcases limitBlanks_append_singleton o.maxBlankLines 0 ls ⟨[], b, false⟩ with hl | hl
  · rw [hl, limitBlanks_eq_self _ _ _ h.limited, hdrop]
  · rw [hl, limitBlanks_eq_self _ _ _ h.limited, dropBlankEnds_append_singleton _ _ hblank, hdrop]

/-- Other flags do not matter as long as no line is to be trimmed that was not trimmed before. -/
theorem congr {o : TidyOptions} {ls ls' : List Line} (h : Neat o ls)
    (ht : ls'.map Line.text = ls.map Line.text)
    (hs : ls'.map Line.startsInside = ls.map Line.startsInside)
    (he : o.trimEnds = true → ∀ m ∈ ls', m.endsInside = false → ∃ l ∈ ls, l.text = m.text ∧
    l.endsInside = false) :
    Neat o ls' := by
  have hblank : ls'.map Line.isBlank = ls.map Line.isBlank := by
    have := congrArg (List.map fun t => t.all Text.isBlank) ht
    rwa [List.map_map, List.map_map] at this
  have hloose : ls'.map Line.isLoose = ls.map Line.isLoose := by
    have hzip (ks : List Line) : ks.map Line.isLoose =
        List.zipWith (fun b s => b && !s) (ks.map Line.isBlank) (ks.map Line.startsInside) := by
      simp [List.zipWith_map, Line.isLoose]
    rw [hzip, hzip, hblank, hs]
  refine ⟨?_, hloose ▸ h.limited, hblank ▸ h.first, hblank ▸ h.last⟩
  intro htrim m hm hout
  obtain ⟨l, hl, htext, hl'⟩ := he htrim m hm hout
  rw [← htext]
  exact h.trimmed htrim l hl hl'

end Neat

/-! ## Tidied text -/

theorem thinned_tidyLines (o : TidyOptions) (ls : List Line) :
    Thinned Line.isBlank (tidyLines o ls) (trimmedLines o ls) :=
  (thinned_dropBlankEnds _).trans ((thinned_limitBlanks _ _ _).mono Line.isBlank_of_isLoose)

theorem FlaggedFrom.trimmedLines {s : Scan} {ls : List Line} (h : FlaggedFrom s ls) (hs : s.Fresh)
    (o : TidyOptions) :
    FlaggedFrom s (trimmedLines o ls) ∧
      s.afterAll ((Source.trimmedLines o ls).map Line.text) = s.afterAll (ls.map Line.text) := by
  unfold Source.trimmedLines
  split_ifs
  · exact h.trimmed hs
  · exact ⟨h, rfl⟩

/-- The lines that tidying leaves are flagged as a new scan flags them, which ends where the scan of
the text ends. -/
theorem flaggedFrom_tidyLines (o : TidyOptions) (text : List Char) :
    FlaggedFrom Scan.start (tidyLines o (linesOf text)) ∧
      (Scan.start.afterAll ((tidyLines o (linesOf text)).map Line.text)).inside =
        (Scan.start.run text).inside := by
  obtain ⟨htrim, hafter⟩ := (flaggedFrom_linesOf text).trimmedLines Scan.fresh_start o
  obtain ⟨hflags, hafter'⟩ := htrim.thinned Scan.fresh_start (thinned_tidyLines o (linesOf text))
  refine ⟨hflags, ?_⟩
  have hrun := run_joinWith_inside Scan.start (Text.splitAt '\n' text)
    (Text.splitAt_ne_nil '\n' text)
  rw [Text.joinWith_splitAt] at hrun
  rw [hafter', hafter, hrun, map_text_linesOf]

def render (o : TidyOptions) : List (List Char) → List Char
  | [] => []
  | p :: ps => Text.joinWith ['\n'] (p :: ps) ++ if o.finalNewline then ['\n'] else []

theorem tidyChars_eq_render (o : TidyOptions) (text : List Char) :
    tidyChars o text = render o ((tidyLines o (linesOf text)).map Line.text) := by
  unfold tidyChars
  cases tidyLines o (linesOf text) <;> rfl

/-- Neat lines are found again in their text. -/
theorem Neat.tidyLines_linesOf_render {o : TidyOptions} {ls : List Line} (h : Neat o ls)
    (hf : FlaggedFrom Scan.start ls)
    (hend : o.finalNewline = true ∨ o.trimEnds = false ∨
      (Scan.start.afterAll (ls.map Line.text)).inside = false) :
    (tidyLines o (linesOf (render o (ls.map Line.text)))).map Line.text = ls.map Line.text := by
  have hneat : Neat o (Scan.start.flagged (ls.map Line.text)) :=
    h.congr (Scan.map_text_flagged _ _) hf.map_startsInside fun _ => hf.exists_outside
  cases hps : ls.map Line.text with
  | nil => exact congrArg (List.map Line.text) ((Neat.nil o).tidyLines_append_empty false)
  | cons p ps =>
    have hne : ls.map Line.text ≠ [] := by simp [hps]
    rw [render, ← hps]
    cases hfin : o.finalNewline with
    | true =>
      rw [if_pos rfl, linesOf_joinWith_break _ hne hf.not_mem_break, hneat.tidyLines_append_empty,
        Scan.map_text_flagged]
    | false =>
      have hclose : Neat o (closeLast (Scan.start.flagged (ls.map Line.text))) := by
        rcases hend with hend | hend | hend
        · simp [hfin] at hend
        · exact hneat.congr (map_text_closeLast _) (map_startsInside_closeLast _) (by simp [hend])
        · rwa [closeLast_flagged _ _ hend]
      rw [if_neg (by simp), List.append_nil, linesOf_joinWith _ hne hf.not_mem_break,
        hclose.tidyLines_eq_self, map_text_closeLast, Scan.map_text_flagged]

/-- Tidying a second time changes nothing, unless a text that ends within a template is to be
trimmed without a final line break. -/
theorem tidy_tidy (o : TidyOptions) (text : String)
    (h : o.finalNewline = true ∨ o.trimEnds = false ∨
      (Scan.start.run text.toList).mode ≠ .template) :
    tidy o (tidy o text) = tidy o text := by
  obtain ⟨hflags, hafter⟩ := flaggedFrom_tidyLines o text.toList
  have hend : o.finalNewline = true ∨ o.trimEnds = false ∨
      (Scan.start.afterAll ((tidyLines o (linesOf text.toList)).map Line.text)).inside = false := by
    rw [hafter]
    exact h.imp_right (Or.imp_right decide_eq_false)
  have hagain := (neat_tidyLines o (linesOf text.toList)).tidyLines_linesOf_render hflags hend
  unfold tidy
  rw [String.toList_ofList, tidyChars_eq_render o text.toList, tidyChars_eq_render, hagain]

/-- The template is never closed, and its last line loses its blanks at the first time. -/
theorem tidy_tidy_unterminated :
    (Scan.start.run "x \n\n\n\x60a \n \\ ".toList).mode = .template ∧
      tidy {} "x \n\n\n\x60a \n \\ " = "x\n\n\x60a \n \\\n" ∧
      tidy {} "x\n\n\x60a \n \\\n" = "x\n\n\x60a \n \\\n" := by
  have hfirst : tidy {} "x \n\n\n\x60a \n \\ " = "x\n\n\x60a \n \\\n" := by decide
  have hagain := tidy_tidy {} "x \n\n\n\x60a \n \\ " (.inl rfl)
  rw [hfirst] at hagain
  exact ⟨by decide, hfirst, hagain⟩

end Scriptwright.Source
