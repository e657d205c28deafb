import Scriptwright.Proofs.Source.Logical

/-!
# Template literals in tidied text

A literal whose contents hold nothing special is read from its opening to its closing backtick
without a turn, if the scan reaches it in code. Its lines then form a block that no pass over the
lines breaks up: all of them but the last end inside, all but the first start inside, and the two at
the ends have ink. So the literal is found in the tidied text as it stood. Of other lines tidying
leaves no blank in front of a break.
-/

namespace Scriptwright.Source

/-- Contents of a template literal that end nothing, escape nothing and substitute nothing. -/
structure Verbatim (q : List Char) : Prop where
  backtick : '\x60' ∉ q
  backslash : '\\' ∉ q
  substitution : ¬ ['$', '{'] <:+: q

theorem Verbatim.of_infix {p q : List Char} (h : Verbatim q) (hp : p <:+: q) : Verbatim p where
  backtick hm := h.backtick (hp.subset hm)
  backslash hm := h.backslash (hp.subset hm)
  substitution hs := h.substitution (hs.trans hp)

/-! ## Reading a literal -/

namespace Scan

theorem step_verbatim (s : Scan) (c : Char) (next : Option Char) (hmode : s.mode = .template)
    (hskip : s.skip = false) (hc : c ≠ '\x60') (hb : c ≠ '\\') (hd : c = '$' → next ≠ some '{') :
    s.step c next = s := by
  by_cases hn : c = '\n'
  · rw [hn, s.step_break _ hskip]
    simp [atBreak, hmode]
  · have hopen : ¬ (c = '$' ∧ next = some '{') := fun h => hd h.1 h.2
    simp [step, hskip, hn, hmode, inTemplate, hc, hb, hopen]

theorem run_verbatim (s : Scan) (q rest : List Char) (hmode : s.mode = .template)
    (hskip : s.skip = false) (hq : Verbatim q) (hrest : rest.head? ≠ some '{') :
    s.run (q ++ rest) = s.run rest := by
  induction q with
  | nil => rfl
  | cons c q ih =>
    have hnext : c = '$' → (q ++ rest).head? ≠ some '{' := by
      rintro rfl hhead
      cases q with
      | nil => exact hrest hhead
      | cons d q =>
        obtain rfl : d = '{' := Option.some.inj hhead
        exact hq.substitution ⟨[], q, rfl⟩
    have hc : c ≠ '\x60' := fun he => hq.backtick (he ▸ List.mem_cons_self)
    have hb : c ≠ '\\' := fun he => hq.backslash (he ▸ List.mem_cons_self)
    rw [List.cons_append, run, s.step_verbatim c _ hmode hskip hc hb hnext]
    exact ih (hq.of_infix (List.suffix_cons c q).isInfix)

theorem after_verbatim (s : Scan) (u : List Char) (hmode : s.mode = .template)
    (hskip : s.skip = false) (hu : Verbatim u) : s.after u = s := by
  rw [Scan.after, s.run_verbatim u _ hmode hskip hu (by simp), run, s.step_break _ hskip]
  simp [atBreak, hmode, run]

/-- A backtick makes no difference as the character that follows. -/
theorem step_next_backtick (s : Scan) (c : Char) : s.step c (some '\x60') = s.step c none := by
  unfold step
  cases s.mode <;> simp [inCode, inString, inTemplate, inBlockComment]

theorem run_append_backtick (s : Scan) (x rest : List Char) :
    s.run (x ++ '\x60' :: rest) = (s.run x).run ('\x60' :: rest) := by
  induction x generalizing s with
  | nil => rfl
  | cons c x ih =>
    have hstep : s.step c (x ++ '\x60' :: rest).head? = s.step c x.head? := by
      cases x with
      | nil => exact s.step_next_backtick c
      | cons d x => rfl
    rw [List.cons_append, run, hstep, ih]
    rfl

theorem step_backtick (s : Scan) (next : Option Char) (hmode : s.mode = .code)
    (hskip : s.skip = false) :
    s.step '\x60' next = { s with mode := .template } := by
  simp [step, hskip, hmode, inCode]

theorem after_opened (s : Scan) (x u : List Char) (hmode : (s.run x).mode = .code)
    (hskip : (s.run x).skip = false) (hu : Verbatim u) :
    s.after (x ++ '\x60' :: u) = { s.run x with mode := .template } := by
  have hinside := after_verbatim { s.run x with mode := .template } u rfl hskip hu
  rw [Scan.after, List.append_assoc, List.cons_append, run_append_backtick, run,
    step_backtick _ _ hmode hskip]
  exact hinside

theorem run_flatMap_break (s : Scan) (ps : List (List Char)) (rest : List Char) :
    s.run (ps.flatMap (· ++ ['\n']) ++ rest) = (s.afterAll ps).run rest := by
  induction ps generalizing s with
  | nil => rfl
  | cons p ps ih =>
    rw [List.flatMap_cons, List.append_assoc, List.append_assoc, List.singleton_append,
      s.run_append_break, ih, afterAll_cons]

end Scan

/-! ## Reading what stands around a literal -/

/-- A character that code can go on with as if nothing had been read. -/
def isQuiet (c : Char) : Bool := ['\'', '"', '\x60', '/', '{', '}', '\n'].all (· != c)

namespace Scan

theorem step_quiet (s : Scan) (c : Char) (next : Option Char) (hmode : s.mode = .code)
    (hskip : s.skip = false) (hc : isQuiet c = true) : s.step c next = s := by
  simp only [isQuiet, List.all_cons, List.all_nil, Bool.and_true, Bool.and_eq_true,
    bne_iff_ne] at hc
  obtain ⟨h1, h2, h3, h4, h5, h6, h7⟩ := hc
  simp [step, hskip, hmode, inCode, h1.symm, h2.symm, h3.symm, h4.symm, h5.symm, h6.symm, h7.symm]

theorem run_quiet (s : Scan) (w rest : List Char) (hmode : s.mode = .code) (hskip : s.skip = false)
    (hw : w.all isQuiet = true) : s.run (w ++ rest) = s.run rest := by
  induction w with
  | nil => rfl
  | cons c w ih =>
    obtain ⟨hc, hw'⟩ := Bool.and_eq_true_iff.mp hw
    rw [List.cons_append, run, s.step_quiet c _ hmode hskip hc]
    exact ih hw'

/-- Open braces are looked at only where one is closed. -/
theorem step_congr {s s' : Scan} (hmode : s.mode = s'.mode) (hskip : s.skip = s'.skip) {c : Char}
    (hc : c ≠ '}') (next : Option Char) :
    (s.step c next).mode = (s'.step c next).mode ∧
      (s.step c next).skip = (s'.step c next).skip := by
  obtain ⟨mode, depth, saved, skip⟩ := s
  obtain ⟨mode', depth', saved', skip'⟩ := s'
  obtain rfl : mode = mode' := hmode
  obtain rfl : skip = skip' := hskip
  unfold step
  split
  · exact ⟨rfl, rfl⟩
  · split
    · cases mode <;> exact ⟨rfl, rfl⟩
    · cases mode with
      | lineComment => exact ⟨rfl, rfl⟩
      | _ =>
        simp only [inCode, inString, inTemplate, inBlockComment, if_neg hc]
        split_ifs <;> exact ⟨rfl, rfl⟩

theorem mode_run_congr {s s' : Scan} (hmode : s.mode = s'.mode) (hskip : s.skip = s'.skip)
    {x : List Char} (hx : '}' ∉ x) : (s.run x).mode = (s'.run x).mode := by
  induction x generalizing s s' with
  | nil => exact hmode
  | cons c x ih =>
    have hc : c ≠ '}' := fun he => hx (he ▸ List.mem_cons_self)
    obtain ⟨hmode', hskip'⟩ := step_congr hmode hskip hc x.head?
    exact ih hmode' hskip' fun hm => hx (List.mem_cons_of_mem _ hm)

/-- An opening brace at the end has been read by itself, or along with what stands in front of it.
-/
theorem skip_run_brace (s : Scan) (x : List Char) : (s.run (x ++ ['{'])).skip = false := by
  induction x generalizing s with
  | nil =>
    obtain ⟨mode, depth, saved, skip⟩ := s
    cases skip <;> cases mode <;> rfl
  | cons c x ih => exact ih _

/-- Anywhere but in code, a backtick does not lead into a template. -/
theorem after_backtick_blank (s : Scan) (x : List Char) (hmode : (s.run x).mode ≠ .code)
    (hskip : (s.run x).skip = false) : (s.after (x ++ ['\x60', ' '])).inside = false := by
  rw [Scan.after, List.append_assoc, List.cons_append, run_append_backtick]
  generalize s.run x = reached at hmode hskip ⊢
  obtain ⟨mode, depth, saved, skip⟩ := reached
  obtain rfl : skip = false := hskip
  cases mode with
  | code => exact absurd rfl hmode
  | _ => rfl

end Scan

/-! ## The lines of a literal -/

/-- The pieces with one text in front of the first and another one behind the last. -/
def spliced (x : List Char) : List (List Char) → List Char → List (List Char)
  | [], y => [x ++ y]
  | [u], y => [x ++ u ++ y]
  | u :: u' :: us, y => (x ++ u) :: spliced [] (u' :: us) y

theorem spliced_ne_nil (x : List Char) (us : List (List Char)) (y : List Char) :
    spliced x us y ≠ [] := by
  fun_cases spliced x us y <;> simp

theorem joinWith_spliced (sep x : List Char) (us : List (List Char)) (y : List Char) :
    Text.joinWith sep (spliced x us y) = x ++ Text.joinWith sep us ++ y := by
  fun_induction spliced x us y with
  | case1 x y => simp [Text.joinWith]
  | case2 x u y => rfl
  | case3 x u u' us y ih =>
    rw [Text.joinWith_cons _ _ _ (spliced_ne_nil _ _ _), ih,
      Text.joinWith_cons sep u (u' :: us) (by simp)]
    simp only [List.append_assoc, List.nil_append]

theorem not_mem_of_mem_spliced {c : Char} {x y : List Char} {us : List (List Char)} (hx : c ∉ x)
    (hus : ∀ u ∈ us, c ∉ u) (hy : c ∉ y) : ∀ p ∈ spliced x us y, c ∉ p := by
  fun_induction spliced x us y with
  | case1 x y => simp [hx, hy]
  | case2 x u y => simp [hx, hy, hus u List.mem_cons_self]
  | case3 x u u' us y ih =>
    intro p hp
    rcases List.mem_cons.mp hp with rfl | hp
    · simp [hx, hus u List.mem_cons_self]
    · exact ih (by simp) (fun v hv => hus v (List.mem_cons_of_mem _ hv)) hy p hp

/-- Lines that hold the pieces of the contents of a literal, with `x` in front of them and, behind
the closing backtick, `b`. The index tells whether the first of them starts inside a template. -/
inductive Spans : Bool → List Char → List (List Char) → List Char → List Line → Prop where
  | last {x u b : List Char} {l : Line} : l.text = x ++ u ++ '\x60' :: b →
      Spans l.startsInside x [u] b [l]
  | more {x u b : List Char} {us : List (List Char)} {l : Line} {ls : List Line} : l.text = x ++ u →
      l.endsInside = true → (l.startsInside = false → l.isBlank = false) → Spans true [] us b ls →
      Spans l.startsInside x (u :: us) b (l :: ls)

theorem Line.isBlank_eq_false {l : Line} {c : Char} (hc : c ∈ l.text) (h : Text.isBlank c = false) :
    l.isBlank = false := by
  by_contra hb
  have hall := List.all_eq_true.mp (Bool.of_not_eq_false hb) c hc
  simp [h] at hall

namespace Spans

variable {i : Bool} {x b : List Char} {us : List (List Char)} {ls : List Line}

theorem ne_nil (h : Spans i x us b ls) : ls ≠ [] := by cases h <;> simp

theorem pieces_ne_nil (h : Spans i x us b ls) : us ≠ [] := by cases h <;> simp

theorem joinWith_eq (h : Spans i x us b ls) :
    Text.joinWith ['\n'] (ls.map Line.text) = x ++ Text.joinWith ['\n'] us ++ '\x60' :: b := by
  induction h with
  | last ht => exact ht
  | more ht _ _ hrest ih =>
    rw [List.map_cons, Text.joinWith_cons _ _ _ (by simpa using hrest.ne_nil), ih, ht,
      Text.joinWith_cons _ _ _ hrest.pieces_ne_nil]
    simp only [List.append_assoc, List.nil_append]

/-- Trimming reaches the last line only, and there no further than to the backtick. -/
theorem trimmed (h : Spans i x us b ls) : ∃ b', Spans i x us b' (ls.map Line.trimmed) := by
  induction h with
  | @last x u b l ht =>
    have hcut : Text.trimRight l.text = x ++ u ++ '\x60' :: Text.trimRight b := by
      rw [ht, Text.trimRight_append _ _ (by simp [Text.isBlank]),
        Text.trimRight_cons _ _ (by decide)]
    rw [List.map_singleton, ← l.startsInside_trimmed]
    by_cases hend : l.endsInside = true
    · exact ⟨b, .last (by simpa [Line.trimmed, hend] using ht)⟩
    · exact ⟨Text.trimRight b, .last (by simpa [Line.trimmed, hend] using hcut)⟩
  | @more x u b us l ls ht hend hl _ ih =>
    obtain ⟨b', hrest⟩ := ih
    have hself : l.trimmed = l := by simp [Line.trimmed, hend]
    rw [List.map_cons, hself]
    exact ⟨b', .more ht hend hl hrest⟩

theorem trimmedLines (h : Spans i x us b ls) (o : TidyOptions) :
    ∃ b', Spans i x us b' (Source.trimmedLines o ls) := by
  unfold Source.trimmedLines
  split
  · exact h.trimmed
  · exact ⟨b, h⟩

theorem closeLast (h : Spans i x us b ls) : Spans i x us b (Source.closeLast ls) := by
  induction h with
  | @last x u b l ht => exact @Spans.last x u b { l with endsInside := false } ht
  | @more x u b us l ls ht hend hl hrest ih =>
    obtain ⟨l', ls', rfl⟩ := List.exists_cons_of_ne_nil hrest.ne_nil
    exact .more ht hend hl ih

theorem isBlank_last {x u b : List Char} {l : Line} (ht : l.text = x ++ u ++ '\x60' :: b) :
    l.isBlank = false :=
  Line.isBlank_eq_false (c := '\x60') (by simp [ht]) (by decide)

theorem isLoose_eq_false (h : Spans i x us b ls) : ∀ l ∈ ls, l.isLoose = false := by
  induction h with
  | last ht => exact List.forall_mem_singleton.mpr (Line.isLoose_eq_false fun _ => isBlank_last ht)
  | more _ _ hl _ ih => exact List.forall_mem_cons.mpr ⟨Line.isLoose_eq_false hl, ih⟩

theorem dropWhile_append (h : Spans i x us b ls) (hx : '\x60' ∈ x) (rest : List Line) :
    (ls ++ rest).dropWhile Line.isBlank = ls ++ rest := by
  cases h with
  | last ht => rw [List.singleton_append, List.dropWhile_cons, if_neg (by simp [isBlank_last ht])]
  | @more _ u _ _ l ls ht _ _ _ =>
    have hink : l.isBlank = false :=
      Line.isBlank_eq_false (c := '\x60') (by simp [ht, hx]) (by decide)
    rw [List.cons_append, List.dropWhile_cons, if_neg (by simp [hink])]

theorem rdropWhile_eq (h : Spans i x us b ls) : ls.rdropWhile Line.isBlank = ls := by
  rw [List.rdropWhile_eq_self_iff]
  intro hne
  induction h with
  | last ht => simp [isBlank_last ht]
  | more _ _ _ hrest ih =>
    rw [List.getLast_cons hrest.ne_nil]
    exact ih hrest.ne_nil

theorem dropBlankEnds_append (h : Spans i x us b ls) (hx : '\x60' ∈ x) (as bs : List Line) :
    ∃ as' bs', dropBlankEnds (as ++ ls ++ bs) = as' ++ ls ++ bs' := by
  obtain ⟨as', hfront⟩ : ∃ as', (as ++ (ls ++ bs)).dropWhile Line.isBlank = as' ++ (ls ++ bs) := by
    rw [List.dropWhile_append]
    split
    · exact ⟨[], h.dropWhile_append hx bs⟩
    · exact ⟨_, rfl⟩
  have hblock : (as' ++ ls).rdropWhile Line.isBlank = as' ++ ls := by
    rw [rdropWhile_append, if_neg (by simpa [h.rdropWhile_eq] using h.ne_nil), h.rdropWhile_eq]
  rw [dropBlankEnds_eq, List.append_assoc, hfront, ← List.append_assoc, rdropWhile_append, hblock]
  split
  · exact ⟨as', [], by simp⟩
  · exact ⟨as', _, rfl⟩

end Spans

theorem exists_limitBlanks_append (most : Int) (seen : Nat) (as rest : List Line) :
    ∃ as' seen', limitBlanks most seen (as ++ rest) = as' ++ limitBlanks most seen' rest := by
  induction as generalizing seen with
  | nil => exact ⟨[], seen, rfl⟩
  | cons a as ih =>
    rw [List.cons_append, limitBlanks_cons]
    split_ifs
    · obtain ⟨as', seen', he⟩ := ih (seen + 1)
      exact ⟨a :: as', seen', by rw [he, List.cons_append]⟩
    · exact ih (seen + 1)
    · obtain ⟨as', seen', he⟩ := ih 0
      exact ⟨a :: as', seen', by rw [he, List.cons_append]⟩

theorem trimmedLines_append (o : TidyOptions) (as bs : List Line) :
    trimmedLines o (as ++ bs) = trimmedLines o as ++ trimmedLines o bs := by
  unfold trimmedLines
  split
  · exact List.map_append
  · rfl

/-- No pass takes the lines of a literal apart. -/
theorem Spans.tidyLines {i : Bool} {x b : List Char} {us : List (List Char)} {ls : List Line}
    (h : Spans i x us b ls) (hx : '\x60' ∈ x) (o : TidyOptions) (as bs : List Line) :
    ∃ as' ls' bs' b', Spans i x us b' ls' ∧
      Source.tidyLines o (as ++ ls ++ bs) = as' ++ ls' ++ bs' := by
  obtain ⟨b', hspans⟩ := h.trimmedLines o
  obtain ⟨as', seen, hlimit⟩ :=
    exists_limitBlanks_append o.maxBlankLines 0 (Source.trimmedLines o as)
    (Source.trimmedLines o ls ++ Source.trimmedLines o bs)
  obtain ⟨as'', bs'', hends⟩ := hspans.dropBlankEnds_append hx as'
    (limitBlanks o.maxBlankLines 0 (Source.trimmedLines o bs))
  refine ⟨as'', _, bs'', b', hspans, ?_⟩
  rw [tidyLines_eq, trimmedLines_append, trimmedLines_append, List.append_assoc, hlimit,
    limitBlanks_append_of_not_isLoose _ _ _ _ hspans.ne_nil
      hspans.isLoose_eq_false, ← List.append_assoc, hends]

theorem Spans.infix_tidyChars {i : Bool} {x b text : List Char} {us : List (List Char)}
    {as ls bs : List Line} (h : Spans i (x ++ ['\x60']) us b ls)
    (htext : linesOf text = as ++ ls ++ bs) (o : TidyOptions) :
    '\x60' :: Text.joinWith ['\n'] us ++ ['\x60'] <:+: tidyChars o text := by
  obtain ⟨as', ls', bs', b', hspans, hlines⟩ := h.tidyLines (by simp) o as bs
  have hne : ls'.map Line.text ≠ [] := by simpa using hspans.ne_nil
  have hblock : '\x60' :: Text.joinWith ['\n'] us ++ ['\x60'] <:+: Text.joinWith ['\n']
      (ls'.map Line.text) := by
    rw [hspans.joinWith_eq]
    exact ⟨x, b', by simp⟩
  have hjoin := Text.joinWith_infix ['\n'] (as'.map Line.text) (ls'.map Line.text)
    (bs'.map Line.text) hne
  have hrender (ps : List (List Char)) : Text.joinWith ['\n'] ps <:+: render o ps := by
    cases ps with
    | nil => exact List.infix_rfl
    | cons p ps => exact (List.prefix_append _ _).isInfix
  rw [tidyChars_eq_render, htext, hlines, List.map_append, List.map_append]
  exact (hblock.trans hjoin).trans (hrender _)

/-! ## The flags of a literal -/

theorem spans_flagged_inside (s : Scan) (us : List (List Char)) (b : List Char)
    (hmode : s.mode = .template) (hskip : s.skip = false) (hne : us ≠ [])
    (hus : ∀ u ∈ us, Verbatim u) :
    Spans true [] us b (s.flagged (spliced [] us ('\x60' :: b))) := by
  have hinside : s.inside = true := by simp [Scan.inside, hmode]
  induction us with
  | nil => exact absurd rfl hne
  | cons u us ih =>
    cases us with
    | nil =>
      rw [← hinside]
      exact @Spans.last [] u b ⟨_, s.inside, _⟩ rfl
    | cons u' us =>
      have hafter := s.after_verbatim u hmode hskip (hus u List.mem_cons_self)
      have hrest := ih (by simp) fun v hv => hus v (List.mem_cons_of_mem _ hv)
      rw [spliced, List.nil_append, Scan.flagged, hafter, hinside]
      exact @Spans.more [] u b (u' :: us) ⟨u, true, true⟩ _ rfl rfl
        (fun hout => absurd hout (by simp)) hrest

/-- Where the literal ends on the line that it starts on, it does not matter how the line is read.
-/
theorem spans_flagged (s : Scan) (x b : List Char) (us : List (List Char)) (hne : us ≠ [])
    (hus : ∀ u ∈ us, Verbatim u)
    (hopen : us.tail ≠ [] → (s.run x).mode = .code ∧ (s.run x).skip = false) :
    Spans s.inside (x ++ ['\x60']) us b (s.flagged (spliced (x ++ ['\x60']) us ('\x60' :: b))) := by
  cases us with
  | nil => exact absurd rfl hne
  | cons u us =>
    cases us with
    | nil => exact @Spans.last (x ++ ['\x60']) u b ⟨_, s.inside, _⟩ rfl
    | cons u' us =>
      obtain ⟨hmode, hskip⟩ := hopen (by simp)
      have hafter : s.after (x ++ ['\x60'] ++ u) = { s.run x with mode := .template } := by
        rw [List.append_assoc]
        exact s.after_opened x u hmode hskip (hus u List.mem_cons_self)
      have hrest := spans_flagged_inside { s.run x with mode := .template }
        (u' :: us) b rfl hskip (by simp)
        fun v hv => hus v (List.mem_cons_of_mem _ hv)
      have hink : Line.isBlank ⟨x ++ ['\x60'] ++ u, s.inside, true⟩ = false :=
        Line.isBlank_eq_false (c := '\x60') (by simp) (by decide)
      rw [spliced, Scan.flagged, hafter]
      exact @Spans.more _ u b (u' :: us) ⟨_, s.inside, true⟩ _ rfl rfl (fun _ => hink) hrest

theorem Verbatim.of_mem_splitAt {q u : List Char} (h : Verbatim q) (hu : u ∈ Text.splitAt '\n' q) :
    Verbatim u := by
  obtain ⟨as, bs, he⟩ := List.append_of_mem hu
  have hpiece := Text.joinWith_infix ['\n'] as [u] bs (by simp)
  rw [List.append_assoc, List.singleton_append, ← he, Text.joinWith_splitAt] at hpiece
  exact h.of_infix hpiece

theorem closeLast_append (as bs : List Line) (h : bs ≠ []) :
    closeLast (as ++ bs) = as ++ closeLast bs := by
  rcases List.eq_nil_or_concat bs with rfl | ⟨bs, l, rfl⟩
  · exact absurd rfl h
  · rw [List.concat_eq_append, closeLast_append_singleton, ← List.append_assoc,
      closeLast_append_singleton, List.append_assoc]

theorem Spans.closeLast_append {i : Bool} {x b : List Char} {us : List (List Char)} {ls : List Line}
    (h : Spans i x us b ls) (as bs : List Line) :
    ∃ ls' bs', Spans i x us b ls' ∧ Source.closeLast (as ++ ls ++ bs) = as ++ ls' ++ bs' := by
  by_cases hbs : bs = []
  · refine ⟨Source.closeLast ls, [], h.closeLast, ?_⟩
    rw [hbs, List.append_nil, List.append_nil, Source.closeLast_append as ls h.ne_nil]
  · exact ⟨ls, Source.closeLast bs, h, Source.closeLast_append _ bs hbs⟩

/-- A literal with nothing special in its contents is found in the tidied text, if the scan reaches
it in code or it is on one line. -/
theorem literal_infix_tidyChars (o : TidyOptions) (front q back : List Char) (hq : Verbatim q)
    (hopen : '\n' ∈ q → (Scan.start.run front).mode = .code ∧ (Scan.start.run front).skip = false) :
    '\x60' :: q ++ ['\x60'] <:+: tidyChars o (front ++ '\x60' :: q ++ '\x60' :: back) := by
  obtain ⟨as, a, hfront, has⟩ := Text.exists_last_piece '\n' front
  obtain ⟨b, bs, hback, hbs⟩ := Text.exists_first_piece '\n' back
  -- the lines of the text: those before the literal, those that it is part of, and those behind it
  let us := Text.splitAt '\n' q
  let block := spliced (a ++ ['\x60']) us ('\x60' :: b)
  have hblock : block ≠ [] := spliced_ne_nil _ _ _
  have htext : Text.joinWith ['\n'] (as ++ block ++ bs) = front ++ '\x60' :: q ++
      '\x60' :: back := by
    rw [Text.joinWith_append_left _ _ bs (by simp [hblock]),
      Text.joinWith_append_right _ as block hblock, joinWith_spliced, Text.joinWith_splitAt,
      hfront, hback]
    simp
  have hbreak : ∀ p ∈ as ++ block ++ bs, '\n' ∉ p := by
    have ha : '\n' ∉ a ++ ['\x60'] := by simp [has a (by simp)]
    have hb : '\n' ∉ '\x60' :: b := by simp [hbs b (by simp)]
    intro p hp
    rcases List.mem_append.mp hp with hp | hp
    · rcases List.mem_append.mp hp with hp | hp
      · exact has p (List.mem_append_left _ hp)
      · exact not_mem_of_mem_spliced ha (Text.not_mem_of_mem_splitAt '\n' q) hb p hp
    · exact hbs p (List.mem_cons_of_mem _ hp)
  have hrun : (Scan.start.afterAll as).run a = Scan.start.run front :=
    by rw [hfront, Scan.run_flatMap_break]
  have hspans := spans_flagged (Scan.start.afterAll as) a b us (Text.splitAt_ne_nil '\n' q)
    (fun u hu => hq.of_mem_splitAt hu) fun htail => by
      rw [hrun]
      refine hopen (by_contra fun hbroken => htail ?_)
      rw [show us = [q] from Text.splitAt_of_not_mem '\n' q hbroken, List.tail_cons]
  obtain ⟨ls', bs', hspans', hclose⟩ := hspans.closeLast_append (Scan.start.flagged as)
    ((Scan.start.afterAll (as ++ block)).flagged bs)
  have hlines : linesOf (front ++ '\x60' :: q ++ '\x60' :: back) =
      Scan.start.flagged as ++ ls' ++ bs' := by
    rw [← htext, linesOf_joinWith _ (by simp [hblock]) hbreak, Scan.flagged_append,
      Scan.flagged_append, hclose]
  have hinfix := hspans'.infix_tidyChars hlines o
  rwa [Text.joinWith_splitAt] at hinfix

/-! ## Blanks in front of breaks -/

theorem infix_append_break {c : Char} {p rest : List Char} (hc : c ≠ '\n') (hp : '\n' ∉ p)
    (h : [c, '\n'] <:+: p ++ '\n' :: rest) : p.getLast? = some c ∨ [c, '\n'] <:+: rest := by
  induction p with
  | nil =>
    rcases List.infix_cons_iff.mp h with h | h
    · exact absurd (List.cons_prefix_cons.mp h).1 hc
    · exact .inr h
  | cons d p ih =>
    have hp' : '\n' ∉ p := fun hm => hp (List.mem_cons_of_mem _ hm)
    cases p with
    | nil =>
      rcases List.infix_cons_iff.mp h with h | h
      · exact .inl (by simp [(List.cons_prefix_cons.mp h).1])
      · exact .inr ((ih hp' h).resolve_left nofun)
    | cons e p =>
      have hhead : ¬ [c, '\n'] <+: d :: (e :: p ++ '\n' :: rest) := by
        intro h
        obtain ⟨he, -⟩ := List.cons_prefix_cons.mp (List.cons_prefix_cons.mp h).2
        exact hp' (he ▸ List.mem_cons_self)
      rcases List.infix_cons_iff.mp h with h | h
      · exact absurd h hhead
      · exact ih hp' h

theorem exists_of_infix_flatMap {c : Char} {ps : List (List Char)} (hc : c ≠ '\n')
    (hps : ∀ p ∈ ps, '\n' ∉ p) (h : [c, '\n'] <:+: ps.flatMap (· ++ ['\n'])) :
    ∃ p ∈ ps, p.getLast? = some c := by
  induction ps with
  | nil => exact absurd (List.infix_nil.mp h) (by simp)
  | cons p ps ih =>
    rw [List.flatMap_cons, List.append_assoc, List.singleton_append] at h
    rcases infix_append_break hc (hps p List.mem_cons_self) h with hlast | hrest
    · exact ⟨p, List.mem_cons_self, hlast⟩
    · obtain ⟨r, hr, hlast⟩ := ih (fun r hr => hps r (List.mem_cons_of_mem _ hr)) hrest
      exact ⟨r, List.mem_cons_of_mem _ hr, hlast⟩

theorem render_prefix_flatMap (o : TidyOptions) (ps : List (List Char)) :
    render o ps <+: ps.flatMap (· ++ ['\n']) := by
  cases ps with
  | nil => exact List.prefix_rfl
  | cons p ps =>
    have hright := Text.joinWith_append_right ['\n'] (p :: ps) [[]] (by simp)
    have hleft := Text.joinWith_append_left ['\n'] (p :: ps) [[]] (by simp)
    have hjoin : (p :: ps).flatMap (· ++ ['\n']) = Text.joinWith ['\n'] (p :: ps) ++ ['\n'] := by
      simpa [Text.joinWith] using hright.symm.trans hleft
    rw [hjoin, render, List.prefix_append_right_inj]
    split
    · exact List.prefix_rfl
    · exact List.nil_prefix

/-- A blank in front of a break of the tidied text stands at the end of a line that ends inside a
template. -/
theorem exists_line_of_blank_break {o : TidyOptions} (ho : o.trimEnds = true) {c : Char}
    (hc : c ≠ '\n') (hblank : Text.isBlank c = true) {text : List Char}
    (h : [c, '\n'] <:+: tidyChars o text) :
    ∃ l ∈ linesOf text, l.endsInside = true ∧ l.text.getLast? = some c := by
  obtain ⟨hflags, -⟩ := flaggedFrom_tidyLines o text
  rw [tidyChars_eq_render] at h
  obtain ⟨p, hp, hlast⟩ := exists_of_infix_flatMap hc hflags.not_mem_break
    (h.trans (render_prefix_flatMap o _).isInfix)
  obtain ⟨l, hl, rfl⟩ := List.mem_map.mp hp
  have hinside : l.endsInside = true := by
    by_contra hout
    have htrim := (neat_tidyLines o _).trimmed ho l hl (Bool.of_not_eq_true hout)
    obtain ⟨as, has⟩ := List.getLast?_eq_some_iff.mp hlast
    have hink := List.rdropWhile_eq_self_iff.mp htrim (by simp [has])
    simp [has, hblank] at hink
  have hmem := (thinned_tidyLines o (linesOf text)).sublist.subset hl
  rw [trimmedLines, if_pos ho] at hmem
  obtain ⟨l₀, hl₀, rfl⟩ := List.mem_map.mp hmem
  rw [Line.endsInside_trimmed] at hinside
  have hself : l₀.trimmed = l₀ := by simp [Line.trimmed, hinside]
  rw [hself] at hlast
  exact ⟨l₀, hl₀, hinside, hlast⟩

end Scriptwright.Source
