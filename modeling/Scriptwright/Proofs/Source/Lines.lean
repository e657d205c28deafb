import Scriptwright.Source.Tidy
import Scriptwright.Proofs.Source.Scan
import Scriptwright.Proofs.Text.Pieces

/-!
# The flags of lines

The lines of a text carry the flags of a scan that goes from line to line. `FlaggedFrom` says so of
any list of lines, and it survives what tidying does to lines: blanks may go at line ends, and blank
lines may go as a whole. So the lines that are left are flagged as a new scan of their text flags
them.
-/

namespace Scriptwright.Source

namespace Scan

def afterAll (s : Scan) (ps : List (List Char)) : Scan := ps.foldl after s

/-- The lines with the given texts, flagged by a scan that reads each of them up to its break. -/
def flagged (s : Scan) : List (List Char) → List Line
  | [] => []
  | p :: ps => ⟨p, s.inside, (s.after p).inside⟩ :: flagged (s.after p) ps

@[simp] theorem afterAll_cons (s : Scan) (p : List Char) (ps : List (List Char)) :
    s.afterAll (p :: ps) = (s.after p).afterAll ps := rfl

theorem afterAll_append (s : Scan) (ps qs : List (List Char)) :
    s.afterAll (ps ++ qs) = (s.afterAll ps).afterAll qs := List.foldl_append

theorem Fresh.afterAll {s : Scan} (h : s.Fresh) (ps : List (List Char)) :
    (s.afterAll ps).Fresh := by
  induction ps generalizing s with
  | nil => exact h
  | cons p ps ih => exact ih (h.after p)

theorem map_text_flagged (s : Scan) (ps : List (List Char)) :
    (s.flagged ps).map Line.text = ps := by
  induction ps generalizing s with
  | nil => rfl
  | cons p ps ih => rw [flagged, List.map_cons, ih]

theorem flagged_append (s : Scan) (ps qs : List (List Char)) :
    s.flagged (ps ++ qs) = s.flagged ps ++ (s.afterAll ps).flagged qs := by
  induction ps generalizing s with
  | nil => rfl
  | cons p ps ih => rw [List.cons_append, flagged, flagged, ih, List.cons_append, afterAll_cons]

end Scan

/-! ## The last line -/

/-- The last line of a text has no break, and so it is never flagged as ending inside. -/
def closeLast : List Line → List Line
  | [] => []
  | [l] => [{ l with endsInside := false }]
  | l :: l' :: ls => l :: closeLast (l' :: ls)

theorem closeLast_append_singleton (ls : List Line) (l : Line) :
    closeLast (ls ++ [l]) = ls ++ [{ l with endsInside := false }] := by
  induction ls with
  | nil => rfl
  | cons l' ls ih =>
    cases ls with
    | nil => rfl
    | cons l'' ls => exact congrArg (l' :: ·) ih

theorem map_text_closeLast (ls : List Line) : (closeLast ls).map Line.text = ls.map Line.text := by
  rcases List.eq_nil_or_concat ls with rfl | ⟨ls, l, rfl⟩
  · rfl
  · rw [List.concat_eq_append, closeLast_append_singleton, List.map_append, List.map_append]
    rfl

theorem map_startsInside_closeLast (ls : List Line) :
    (closeLast ls).map Line.startsInside = ls.map Line.startsInside := by
  rcases List.eq_nil_or_concat ls with rfl | ⟨ls, l, rfl⟩
  · rfl
  · rw [List.concat_eq_append, closeLast_append_singleton, List.map_append, List.map_append]
    rfl

/-- Where the scan ends outside, the flag of the last line is right. -/
theorem closeLast_flagged (s : Scan) (ps : List (List Char)) (h : (s.afterAll ps).inside = false) :
    closeLast (s.flagged ps) = s.flagged ps := by
  induction ps generalizing s with
  | nil => rfl
  | cons p ps ih =>
    cases ps with
    | nil =>
      have hp : (s.after p).inside = false := h
      rw [Scan.flagged, hp]
      rfl
    | cons q qs => exact congrArg (_ :: ·) (ih (s.after p) h)

/-! ## The lines of a text -/

theorem zip_breaks_eq_flagged (s : Scan) (ps : List (List Char)) (hs : s.Fresh) (hne : ps ≠ [])
    (h : ∀ p ∈ ps, '\n' ∉ p) :
    (ps.zip ((s.inside :: s.breaks (Text.joinWith ['\n'] ps)).zip
      (s.breaks (Text.joinWith ['\n'] ps) ++ [false]))).map
        (fun l => (⟨l.1, l.2.1, l.2.2⟩ : Line)) =
      closeLast (s.flagged ps) := by
  induction ps generalizing s with
  | nil => exact absurd rfl hne
  | cons p ps ih =>
    have hp := h p List.mem_cons_self
    cases ps with
    | nil =>
      rw [Text.joinWith, s.breaks_of_no_break p hp]
      rfl
    | cons q qs =>
      have hrest := ih (s.after p) (hs.after p) (by simp) fun r hr =>
        h r (List.mem_cons_of_mem _ hr)
      rw [Text.joinWith_cons _ _ _ (by simp), List.append_assoc, List.singleton_append,
        s.breaks_append_break p _ hp fun _ => hs.skip]
      exact congrArg (_ :: ·) hrest

theorem linesOf_joinWith (ps : List (List Char)) (hne : ps ≠ []) (h : ∀ p ∈ ps, '\n' ∉ p) :
    linesOf (Text.joinWith ['\n'] ps) = closeLast (Scan.start.flagged ps) := by
  rw [linesOf, Text.splitAt_joinWith '\n' ps hne h]
  exact zip_breaks_eq_flagged Scan.start ps Scan.fresh_start hne h

/-- The lines of a text are flagged by the scan of it. -/
theorem linesOf_eq_flagged (text : List Char) :
    linesOf text = closeLast (Scan.start.flagged (Text.splitAt '\n' text)) := by
  have h := linesOf_joinWith (Text.splitAt '\n' text) (Text.splitAt_ne_nil '\n' text)
    (Text.not_mem_of_mem_splitAt '\n' text)
  rwa [Text.joinWith_splitAt] at h

theorem map_text_linesOf (text : List Char) :
    (linesOf text).map Line.text = Text.splitAt '\n' text := by
  rw [linesOf_eq_flagged, map_text_closeLast, Scan.map_text_flagged]

/-- With a break at its end a text has one more line, which is empty. -/
theorem linesOf_joinWith_break (ps : List (List Char)) (hne : ps ≠ []) (h : ∀ p ∈ ps, '\n' ∉ p) :
    linesOf (Text.joinWith ['\n'] ps ++ ['\n']) =
      Scan.start.flagged ps ++ [⟨[], (Scan.start.afterAll ps).inside, false⟩] := by
  have hjoin : Text.joinWith ['\n'] (ps ++ [[]]) = Text.joinWith ['\n'] ps ++ ['\n'] := by
    rw [Text.joinWith_append _ _ _ hne (by simp)]
    simp [Text.joinWith]
  have hmem : ∀ p ∈ ps ++ [[]], '\n' ∉ p := by
    intro p hp
    rcases List.mem_append.mp hp with hp | hp
    · exact h p hp
    · rw [List.mem_singleton.mp hp]
      simp
  rw [← hjoin, linesOf_joinWith _ (by simp) hmem, Scan.flagged_append, Scan.flagged, Scan.flagged,
    closeLast_append_singleton]

theorem run_joinWith_inside (s : Scan) (ps : List (List Char)) (hne : ps ≠ []) :
    (s.run (Text.joinWith ['\n'] ps)).inside = (s.afterAll ps).inside := by
  induction ps generalizing s with
  | nil => exact absurd rfl hne
  | cons p ps ih =>
    by_cases he : ps = []
    · subst he
      exact s.inside_run p
    · rw [Text.joinWith_cons _ _ _ he, List.append_assoc, List.singleton_append,
        s.run_append_break, ih _ he, Scan.afterAll_cons]

/-! ## Lines that agree with a scan -/

/-- Lines flagged as a scan from `s` on flags them, except that a line may be flagged as if it ended
outside. The exception is for the last line of a text that ends within a template. -/
inductive FlaggedFrom : Scan → List Line → Prop where
  | nil (s : Scan) : FlaggedFrom s []
  | cons {s : Scan} {l : Line} {ls : List Line} : '\n' ∉ l.text → l.startsInside = s.inside →
      (l.endsInside = true → (s.after l.text).inside = true) → FlaggedFrom (s.after l.text) ls →
      FlaggedFrom s (l :: ls)

theorem flaggedFrom_closeLast (s : Scan) (ps : List (List Char)) (h : ∀ p ∈ ps, '\n' ∉ p) :
    FlaggedFrom s (closeLast (s.flagged ps)) := by
  induction ps generalizing s with
  | nil => exact .nil s
  | cons p ps ih =>
    have hp := h p List.mem_cons_self
    have hrest := ih (s.after p) fun q hq => h q (List.mem_cons_of_mem _ hq)
    cases ps with
    | nil => exact .cons hp rfl (fun he => by cases he) hrest
    | cons q qs => exact .cons hp rfl (fun he => he) hrest

theorem flaggedFrom_linesOf (text : List Char) : FlaggedFrom Scan.start (linesOf text) := by
  rw [linesOf_eq_flagged]
  exact flaggedFrom_closeLast _ _ (Text.not_mem_of_mem_splitAt '\n' text)

namespace FlaggedFrom

theorem not_mem_break {s : Scan} {ls : List Line} (h : FlaggedFrom s ls) :
    ∀ p ∈ ls.map Line.text, '\n' ∉ p := by
  induction h with
  | nil s => simp
  | cons hn _ _ _ ih => simpa using ⟨hn, by simpa using ih⟩

theorem of_append {s : Scan} {as bs : List Line} (h : FlaggedFrom s (as ++ bs)) :
    FlaggedFrom s as ∧ FlaggedFrom (s.afterAll (as.map Line.text)) bs := by
  induction as generalizing s with
  | nil => exact ⟨.nil s, h⟩
  | cons a as ih =>
    cases h with
    | cons hn hstart hend hrest =>
      obtain ⟨ha, hb⟩ := ih hrest
      exact ⟨.cons hn hstart hend ha, hb⟩

theorem map_startsInside {s : Scan} {ls : List Line} (h : FlaggedFrom s ls) :
    (s.flagged (ls.map Line.text)).map Line.startsInside = ls.map Line.startsInside := by
  induction h with
  | nil s => rfl
  | cons _ hs _ _ ih => rw [List.map_cons, Scan.flagged, List.map_cons, List.map_cons, ih, hs]

/-- A line that the scan sees end outside is flagged so. -/
theorem exists_outside {s : Scan} {ls : List Line} (h : FlaggedFrom s ls) :
    ∀ m ∈ s.flagged (ls.map Line.text), m.endsInside = false →
      ∃ l ∈ ls, l.text = m.text ∧ l.endsInside = false := by
  induction h with
  | nil s => simp [Scan.flagged]
  | @cons s l ls _ _ he _ ih =>
    intro m hm hout
    rcases List.mem_cons.mp hm with rfl | hm
    · refine ⟨l, List.mem_cons_self, rfl, ?_⟩
      by_contra hin
      have hin' := he (by simpa using hin)
      simp [hin'] at hout
    · obtain ⟨l', hl', ht, ho⟩ := ih m hm hout
      exact ⟨l', List.mem_cons_of_mem _ hl', ht, ho⟩

end FlaggedFrom

/-! ## Blanks at line ends -/

theorem Scan.after_trimRight (s : Scan) (l : List Char) (hs : s.Fresh) (hl : '\n' ∉ l) :
    s.after (Text.trimRight l) = s.after l := by
  obtain ⟨w, he, hw⟩ := Text.exists_trimRight_append l
  have hblank : ∀ c ∈ w, Text.isBlank c = true ∧ c ≠ '\n' := by
    intro c hc
    refine ⟨hw c hc, ?_⟩
    rintro rfl
    exact hl (he ▸ List.mem_append_right _ hc)
  conv => rhs; rw [he]
  exact (s.after_append_blanks _ w (fun _ => hs.skip) hblank).symm

theorem Scan.after_trimmed (s : Scan) (l : Line) (hs : s.Fresh) (hl : '\n' ∉ l.text) :
    s.after l.trimmed.text = s.after l.text := by
  unfold Line.trimmed
  split
  · rfl
  · exact s.after_trimRight l.text hs hl

theorem Line.not_mem_trimmed (l : Line) (hl : '\n' ∉ l.text) : '\n' ∉ l.trimmed.text := by
  unfold Line.trimmed
  split
  · exact hl
  · exact fun hm => hl (Text.mem_of_mem_trimRight _ _ hm)

@[simp] theorem Line.startsInside_trimmed (l : Line) : l.trimmed.startsInside = l.startsInside := by
  unfold Line.trimmed
  split <;> rfl

@[simp] theorem Line.endsInside_trimmed (l : Line) : l.trimmed.endsInside = l.endsInside := by
  unfold Line.trimmed
  split <;> rfl

@[simp] theorem Line.isBlank_trimmed (l : Line) : l.trimmed.isBlank = l.isBlank := by
  unfold Line.trimmed
  split
  · rfl
  · exact Text.all_isBlank_trimRight l.text

theorem FlaggedFrom.trimmed {s : Scan} {ls : List Line} (h : FlaggedFrom s ls) (hs : s.Fresh) :
    FlaggedFrom s (ls.map Line.trimmed) ∧
      s.afterAll ((ls.map Line.trimmed).map Line.text) = s.afterAll (ls.map Line.text) := by
  induction h with
  | nil s => exact ⟨.nil s, rfl⟩
  | @cons s l ls hn hstart hend _ ih =>
    obtain ⟨hflags, hafter⟩ := ih (hs.after l.text)
    have hl := s.after_trimmed l hs hn
    refine ⟨.cons (l.not_mem_trimmed hn) (by simpa using hstart) ?_ ?_, ?_⟩
    · simpa [hl] using hend
    · rwa [hl]
    · simp only [List.map_cons, Scan.afterAll_cons, hl]
      exact hafter

/-! ## Blank lines -/

/-- `Thinned p ls' ls` holds if `ls'` is `ls` without some of its lines with `p`. -/
inductive Thinned (p : Line → Bool) : List Line → List Line → Prop where
  | nil : Thinned p [] []
  | keep {l : Line} {ls' ls : List Line} : Thinned p ls' ls → Thinned p (l :: ls') (l :: ls)
  | drop {l : Line} {ls' ls : List Line} : p l = true → Thinned p ls' ls → Thinned p ls' (l :: ls)

namespace Thinned

theorem refl (p : Line → Bool) (ls : List Line) : Thinned p ls ls := by
  induction ls with
  | nil => exact .nil
  | cons l ls ih => exact .keep ih

theorem append {p : Line → Bool} {as' as bs' bs : List Line} (ha : Thinned p as' as)
    (hb : Thinned p bs' bs) :
    Thinned p (as' ++ bs') (as ++ bs) := by
  induction ha with
  | nil => exact hb
  | keep _ ih => exact .keep ih
  | drop hp _ ih => exact .drop hp ih

theorem of_all (p : Line → Bool) (ls : List Line) (h : ∀ l ∈ ls, p l = true) : Thinned p [] ls := by
  induction ls with
  | nil => exact .nil
  | cons l ls ih =>
    exact .drop (h l List.mem_cons_self) (ih fun l' hl' => h l' (List.mem_cons_of_mem _ hl'))

theorem trans {p : Line → Bool} {as bs cs : List Line} (hab : Thinned p as bs)
    (hbc : Thinned p bs cs) :
    Thinned p as cs := by
  induction hbc generalizing as with
  | nil => exact hab
  | keep _ ih =>
    cases hab with
    | keep h => exact .keep (ih h)
    | drop hp h => exact .drop hp (ih h)
  | drop hp _ ih => exact .drop hp (ih hab)

theorem mono {p q : Line → Bool} {as bs : List Line} (h : Thinned p as bs)
    (hpq : ∀ l, p l = true → q l = true) :
    Thinned q as bs := by
  induction h with
  | nil => exact .nil
  | keep _ ih => exact .keep ih
  | drop hp _ ih => exact .drop (hpq _ hp) ih

theorem sublist {p : Line → Bool} {as bs : List Line} (h : Thinned p as bs) : as.Sublist bs := by
  induction h with
  | nil => exact .slnil
  | keep _ ih => exact ih.cons_cons _
  | drop _ _ ih => exact ih.cons _

end Thinned

/-- Without some of its blank lines a text is read from line to line as before. -/
theorem FlaggedFrom.thinned {s : Scan} {ls' ls : List Line} (h : FlaggedFrom s ls) (hs : s.Fresh)
    (ht : Thinned Line.isBlank ls' ls) :
    FlaggedFrom s ls' ∧ s.afterAll (ls'.map Line.text) = s.afterAll (ls.map Line.text) := by
  induction ht generalizing s with
  | nil => exact ⟨h, rfl⟩
  | keep _ ih =>
    cases h with
    | cons hn hstart hend hrest =>
      obtain ⟨hflags, hafter⟩ := ih hrest (hs.after _)
      exact ⟨.cons hn hstart hend hflags, hafter⟩
  | drop hp _ ih =>
    cases h with
    | cons hn _ _ hrest =>
      have hl := s.after_blank _ hs hn hp
      rw [hl] at hrest
      rw [List.map_cons, Scan.afterAll_cons, hl]
      exact ih hrest hs

end Scriptwright.Source
