import Scriptwright.Source.Template

/-!
# The grammar of nested templates

Source texts whose brackets, strings, comments and template literals are closed, given by a grammar
and not by a scan. Every character of such a text is marked: it is quasi text of some template
literal, or it is not. The flat scan, with one mode, one depth and a stack of depths, flags exactly
the line breaks that are marked.
-/

namespace Scriptwright.Source

/-- A text, each character with whether it is quasi text of a template literal. -/
abbrev Marked := List (Char × Bool)

namespace Marked

def text (w : Marked) : List Char := w.map Prod.fst

def flags (w : Marked) : List Bool := (w.filter fun m => m.1 = '\n').map Prod.snd

def outside (cs : List Char) : Marked := cs.map fun c => (c, false)

@[simp] theorem text_nil : text [] = [] := rfl

@[simp] theorem text_cons (c : Char) (b : Bool) (w : Marked) : text ((c, b) :: w) = c :: text w :=
  rfl

@[simp] theorem text_append (u w : Marked) : text (u ++ w) = text u ++ text w := List.map_append

@[simp] theorem text_outside (cs : List Char) : text (outside cs) = cs := by
  simp [text, outside, Function.comp_def]

@[simp] theorem flags_nil : flags [] = [] := rfl

@[simp] theorem flags_break (b : Bool) (w : Marked) : flags (('\n', b) :: w) = b :: flags w :=
  by simp [flags]

theorem flags_other (c : Char) (b : Bool) (w : Marked) (h : c ≠ '\n') :
    flags ((c, b) :: w) = flags w := by
  simp [flags, h]

@[simp] theorem flags_append (u w : Marked) : flags (u ++ w) = flags u ++ flags w := by simp [flags]

@[simp] theorem outside_nil : outside [] = [] := rfl

@[simp] theorem outside_cons (c : Char) (cs : List Char) :
    outside (c :: cs) = (c, false) :: outside cs := rfl

@[simp] theorem outside_append (cs ds : List Char) :
    outside (cs ++ ds) = outside cs ++ outside ds := List.map_append

theorem flags_outside_of_not_mem (cs : List Char) (h : '\n' ∉ cs) : flags (outside cs) = [] := by
  induction cs with
  | nil => rfl
  | cons c cs ih =>
    have hc : c ≠ '\n' := fun he => h (he ▸ List.mem_cons_self)
    rw [outside_cons, flags_other _ _ _ hc, ih fun hm => h (List.mem_cons_of_mem _ hm)]

end Marked

open Marked

/-- What stands between two quotation marks `q` on one line; a backslash takes the next character
along. -/
inductive Quoted (q : Char) : List Char → Prop where
  | done : Quoted q []
  | plain {c : Char} {cs : List Char} : c ≠ q → c ≠ '\\' → c ≠ '\n' → Quoted q cs →
      Quoted q (c :: cs)
  | escape {c : Char} {cs : List Char} : c ≠ '\n' → Quoted q cs → Quoted q ('\\' :: c :: cs)

theorem Quoted.not_mem_break {q : Char} {cs : List Char} (h : Quoted q cs) : '\n' ∉ cs := by
  induction h with
  | done => simp
  | plain _ _ h3 _ ih => simp [ih, h3.symm]
  | escape h _ ih => simp [ih, h.symm]

/-- Code, or the inside of a template literal. -/
inductive Region where
  | code
  | quasi

/-- The marked texts of a region. There is one relation for both regions, so that a derivation has
one induction. -/
inductive Derives : Region → Marked → Prop where
  | done (r : Region) : Derives r []
  /-- A slash that starts no comment is plain. -/
  | plain {c : Char} {w : Marked} : c ∉ ['\'', '"', '\x60', '{', '}'] →
      (c = '/' → w.text.head? ≠ some '/' ∧ w.text.head? ≠ some '*') →
      Derives .code w → Derives .code ((c, false) :: w)
  | group {u w : Marked} : Derives .code u → Derives .code w →
      Derives .code (('{', false) :: u ++ ('}', false) :: w)
  | string {q : Char} {body : List Char} {w : Marked} : q = '\'' ∨ q = '"' → Quoted q body →
      Derives .code w → Derives .code (outside (q :: body ++ [q]) ++ w)
  | lineComment {body : List Char} {w : Marked} : '\n' ∉ body →
      Derives .code w → Derives .code (outside ('/' :: '/' :: body ++ ['\n']) ++ w)
  | blockComment {body : List Char} {w : Marked} : ¬ ['*', '/'] <:+: body →
      Derives .code w → Derives .code (outside ('/' :: '*' :: body ++ ['*', '/']) ++ w)
  | template {u w : Marked} : Derives .quasi u → Derives .code w →
      Derives .code (('\x60', false) :: u ++ ('\x60', false) :: w)
  /-- A dollar sign that starts no substitution is quasi text. -/
  | quasi {c : Char} {w : Marked} : c ≠ '\x60' → c ≠ '\\' → (c = '$' → w.text.head? ≠ some '{') →
      Derives .quasi w → Derives .quasi ((c, true) :: w)
  | escape {c : Char} {w : Marked} : Derives .quasi w →
      Derives .quasi (('\\', true) :: (c, true) :: w)
  | substitution {u w : Marked} : Derives .code u → Derives .quasi w →
      Derives .quasi (outside ['$', '{'] ++ u ++ ('}', false) :: w)

/-! ## The scan of each construct -/

namespace Scan

theorem breaks_cons (s : Scan) (c : Char) (cs : List Char) (h : c ≠ '\n') :
    s.breaks (c :: cs) = (s.step c cs.head?).breaks cs := by
  rw [breaks, if_neg fun hb => h hb.1]

theorem breaks_break (mode : Mode) (depth : Nat) (saved : List Nat) (cs : List Char) :
    breaks ⟨mode, depth, saved, false⟩ ('\n' :: cs) =
      decide (mode = .template) :: (atBreak ⟨mode, depth, saved, false⟩).breaks cs := by
  simp [breaks, step]

theorem breaks_skip (mode : Mode) (depth : Nat) (saved : List Nat) (c : Char) (cs : List Char) :
    breaks ⟨mode, depth, saved, true⟩ (c :: cs) = breaks ⟨mode, depth, saved, false⟩ cs := by
  simp [breaks, step]

def stringMode (q : Char) : Mode := if q = '\'' then .single else .double

theorem breaks_string {q : Char} {body : List Char} (hq : q = '\'' ∨ q = '"') (hb : Quoted q body)
    (depth : Nat) (saved : List Nat) (rest : List Char) :
    breaks ⟨stringMode q, depth, saved, false⟩ (body ++ q :: rest) =
      breaks ⟨.code, depth, saved, false⟩ rest := by
  induction hb with
  | done => rcases hq with rfl | rfl <;> rw [List.nil_append, breaks_cons _ _ _ (by decide)] <;> rfl
  | @plain c cs h1 h2 h3 _ ih =>
    have hstep : (⟨stringMode q, depth, saved, false⟩ : Scan).step c (cs ++ q :: rest).head? =
        ⟨stringMode q, depth, saved, false⟩ := by
      rcases hq with rfl | rfl <;> simp [step, stringMode, inString, h1, h2, h3]
    rw [List.cons_append, breaks_cons _ _ _ h3, hstep, ih]
  | @escape c cs h _ ih =>
    have hstep : (⟨stringMode q, depth, saved, false⟩ : Scan).step '\\' (some c) =
        ⟨stringMode q, depth, saved, true⟩ := by
      rcases hq with rfl | rfl <;> simp [step, stringMode, inString, h]
    rw [List.cons_append, List.cons_append, breaks_cons _ _ _ (by decide), List.head?_cons, hstep,
      breaks_skip, ih]

theorem breaks_lineComment {body : List Char} (hb : '\n' ∉ body) (depth : Nat) (saved : List Nat)
    (rest : List Char) :
    breaks ⟨.lineComment, depth, saved, false⟩ (body ++ '\n' :: rest) =
      false :: breaks ⟨.code, depth, saved, false⟩ rest := by
  induction body with
  | nil => exact breaks_break _ _ _ _
  | cons c body ih =>
    have hc : c ≠ '\n' := fun he => hb (he ▸ List.mem_cons_self)
    have hstep : (⟨.lineComment, depth, saved, false⟩ : Scan).step c (body ++ '\n' :: rest).head? =
        ⟨.lineComment, depth, saved, false⟩ := by
      simp [step, hc]
    rw [List.cons_append, breaks_cons _ _ _ hc, hstep]
    exact ih fun hm => hb (List.mem_cons_of_mem _ hm)

theorem breaks_blockComment {body : List Char} (hb : ¬ ['*', '/'] <:+: body) (depth : Nat)
    (saved : List Nat) (rest : List Char) :
    breaks ⟨.blockComment, depth, saved, false⟩ (body ++ '*' :: '/' :: rest) =
      (outside body).flags ++ breaks ⟨.code, depth, saved, false⟩ rest := by
  induction body with
  | nil =>
    rw [List.nil_append, breaks_cons _ _ _ (by decide)]
    exact breaks_skip _ _ _ _ _
  | cons c body ih =>
    have hih := ih fun hi => hb (hi.trans (List.suffix_cons c body).isInfix)
    by_cases hc : c = '\n'
    · subst hc
      rw [List.cons_append, breaks_break]
      exact congrArg (false :: ·) hih
    · -- a star in the body is not followed by a slash, the first star of the end included
      have hnext : ¬ (c = '*' ∧ (body ++ '*' :: '/' :: rest).head? = some '/') := by
        rintro ⟨rfl, hn⟩
        cases body with
        | nil => simp at hn
        | cons d body =>
          have hd : d = '/' := by simpa using hn
          subst hd
          exact hb ⟨[], body, rfl⟩
      have hstep : (⟨.blockComment, depth, saved, false⟩ : Scan).step c
          (body ++ '*' :: '/' :: rest).head? =
          ⟨.blockComment, depth, saved, false⟩ := by
        simp only [step, Bool.false_eq_true, if_false, if_neg hc, inBlockComment, if_neg hnext]
      rw [List.cons_append, breaks_cons _ _ _ hc, hstep, hih]
      exact congrArg (· ++ _) (flags_other c false (outside body) hc).symm

end Scan

/-! ## The scan of a derived text -/

def Region.mode : Region → Mode
  | .code => .code
  | .quasi => .template

/-- A text that cannot be the second half of a mark of two characters. -/
def Detached (rest : List Char) : Prop := ∀ d ∈ ['/', '*', '{'], rest.head? ≠ some d

theorem head?_append_ne {w : Marked} {rest : List Char} {d : Char} (hw : w.text.head? ≠ some d)
    (hrest : rest.head? ≠ some d) : (w.text ++ rest).head? ≠ some d := by
  cases hw' : w.text with
  | nil => simpa using hrest
  | cons c cs => simpa [hw'] using hw

/-- A character at which a region stays as it is. -/
theorem Region.breaks_cons (r : Region) (depth : Nat) (saved : List Nat) (c : Char) (w : Marked)
    (rest : List Char) (hstep : c ≠ '\n' →
      Scan.step ⟨r.mode, depth, saved, false⟩ c (w.text ++ rest).head? =
        ⟨r.mode, depth, saved, false⟩)
    (hw : Scan.breaks ⟨r.mode, depth, saved, false⟩ (w.text ++ rest) =
      w.flags ++ Scan.breaks ⟨r.mode, depth, saved, false⟩ rest) :
    Scan.breaks ⟨r.mode, depth, saved, false⟩ (c :: (w.text ++ rest)) =
      flags ((c, decide (r.mode = .template)) :: w) ++
        Scan.breaks ⟨r.mode, depth, saved, false⟩ rest := by
  by_cases hc : c = '\n'
  · subst hc
    have hbreak : Scan.atBreak ⟨r.mode, depth, saved, false⟩ = ⟨r.mode, depth, saved, false⟩ :=
      by cases r <;> rfl
    rw [Scan.breaks_break, hbreak, hw, flags_break, List.cons_append]
  · rw [Scan.breaks_cons _ _ _ hc, hstep hc, hw, flags_other _ _ _ hc]

/-- A part behind an opening mark and in front of a closing one: the scan goes over to `t` at the
one and back at the other. -/
theorem breaks_enclosed {s t : Scan} (front : Marked) {u w : Marked} {c : Char} {rest : List Char}
    (hfront : front.flags = []) (hc : c ≠ '\n')
    (hopen : ∀ cs, s.breaks (front.text ++ cs) = t.breaks cs)
    (hclose : ∀ cs, t.breaks (c :: cs) = s.breaks cs)
    (hu : t.breaks (u.text ++ c :: (w.text ++ rest)) = u.flags ++ t.breaks (c :: (w.text ++ rest)))
    (hw : s.breaks (w.text ++ rest) = w.flags ++ s.breaks rest) :
    s.breaks ((front ++ u ++ (c, false) :: w).text ++ rest) =
      (front ++ u ++ (c, false) :: w).flags ++ s.breaks rest := by
  have htext : (front ++ u ++ (c, false) :: w).text ++ rest = front.text ++
      (u.text ++ c :: (w.text ++ rest)) := by
    simp
  have hflags : (front ++ u ++ (c, false) :: w).flags = u.flags ++ w.flags := by
    rw [flags_append, flags_append, hfront, flags_other _ _ _ hc, List.nil_append]
  rw [htext, hopen, hu, hclose, hw, hflags, List.append_assoc]

/-- A derived text is read without change of depth, whatever is open around it. -/
theorem Derives.breaks {r : Region} {w : Marked} (h : Derives r w) (depth : Nat) (saved : List Nat)
    (rest : List Char) (hrest : Detached rest) :
    Scan.breaks ⟨r.mode, depth, saved, false⟩ (w.text ++ rest) =
      w.flags ++ Scan.breaks ⟨r.mode, depth, saved, false⟩ rest := by
  induction h generalizing depth saved rest with
  | done r => rfl
  | @plain c w hc hslash _ ih =>
    simp only [List.mem_cons, List.not_mem_nil, or_false, not_or] at hc
    obtain ⟨h1, h2, h3, h4, h5⟩ := hc
    have hs : ¬ (c = '/' ∧ (w.text ++ rest).head? = some '/') := fun hn =>
      head?_append_ne (hslash hn.1).1 (hrest '/' (by simp)) hn.2
    have hb : ¬ (c = '/' ∧ (w.text ++ rest).head? = some '*') := fun hn =>
      head?_append_ne (hslash hn.1).2 (hrest '*' (by simp)) hn.2
    apply Region.breaks_cons .code depth saved c w rest _ (ih _ _ _ hrest)
    intro hn
    simp only [Scan.step, Region.mode, Bool.false_eq_true, if_false, if_neg hn, Scan.inCode,
      if_neg h1, if_neg h2, if_neg h3, if_neg h4, if_neg h5, if_neg hs, if_neg hb]
  | @group u w _ _ ihu ihw =>
    have hu := ihu (depth + 1) saved ('}' :: (w.text ++ rest)) (by simp [Detached])
    refine breaks_enclosed [('{', false)] rfl (by decide) (fun cs => ?_) (fun cs => ?_) hu
      (ihw _ _ _ hrest)
    · exact Scan.breaks_cons _ _ _ (by decide)
    · exact Scan.breaks_cons _ _ _ (by decide)
  | @string q body w hq hb _ ih =>
    have hopen : Scan.breaks ⟨.code, depth, saved, false⟩ (q :: (body ++ q :: (w.text ++ rest))) =
        Scan.breaks ⟨Scan.stringMode q, depth, saved, false⟩ (body ++ q :: (w.text ++ rest)) := by
      rcases hq with rfl | rfl <;> exact Scan.breaks_cons _ _ _ (by decide)
    have hflags : flags (outside (q :: body ++ [q])) = [] := by
      apply flags_outside_of_not_mem
      rcases hq with rfl | rfl <;> simp [hb.not_mem_break]
    rw [flags_append, hflags, List.nil_append, ← ih _ _ _ hrest]
    simpa [Region.mode, Scan.breaks_string hq hb] using hopen
  | @lineComment body w hb _ ih =>
    have hopen : Scan.breaks ⟨.code, depth, saved, false⟩
        ('/' :: '/' :: (body ++ '\n' :: (w.text ++ rest))) =
        Scan.breaks ⟨.lineComment, depth, saved, false⟩ (body ++ '\n' :: (w.text ++ rest)) := by
      rw [Scan.breaks_cons _ _ _ (by decide)]
      exact Scan.breaks_skip _ _ _ _ _
    have hflags : flags (outside ('/' :: '/' :: body ++ ['\n'])) = [false] := by
      simp [flags_other, flags_outside_of_not_mem body hb]
    rw [flags_append, hflags, List.append_assoc, ← ih _ _ _ hrest]
    simpa [Region.mode, Scan.breaks_lineComment hb] using hopen
  | @blockComment body w hb _ ih =>
    have hopen : Scan.breaks ⟨.code, depth, saved, false⟩
        ('/' :: '*' :: (body ++ '*' :: '/' :: (w.text ++ rest))) =
        Scan.breaks ⟨.blockComment, depth, saved, false⟩
          (body ++ '*' :: '/' :: (w.text ++ rest)) := by
      rw [Scan.breaks_cons _ _ _ (by decide)]
      exact Scan.breaks_skip _ _ _ _ _
    have hflags : flags (outside ('/' :: '*' :: body ++ ['*', '/'])) = flags (outside body) := by
      simp [flags_other]
    rw [flags_append, hflags, List.append_assoc, ← ih _ _ _ hrest]
    simpa [Region.mode, Scan.breaks_blockComment hb] using hopen
  | @template u w _ _ ihu ihw =>
    have hu := ihu depth saved ('\x60' :: (w.text ++ rest)) (by simp [Detached])
    refine breaks_enclosed [('\x60', false)] rfl (by decide) (fun cs => ?_) (fun cs => ?_) hu
      (ihw _ _ _ hrest)
    · exact Scan.breaks_cons _ _ _ (by decide)
    · exact Scan.breaks_cons _ _ _ (by decide)
  | @quasi c w h1 h2 hdollar _ ih =>
    have hd : ¬ (c = '$' ∧ (w.text ++ rest).head? = some '{') := fun hn =>
      head?_append_ne (hdollar hn.1) (hrest '{' (by simp)) hn.2
    have he : ¬ (c = '\\' ∧ (w.text ++ rest).head? ≠ some '\n') := fun hn => h2 hn.1
    apply Region.breaks_cons .quasi depth saved c w rest _ (ih _ _ _ hrest)
    intro hn
    simp only [Scan.step, Region.mode, Bool.false_eq_true, if_false, if_neg hn, Scan.inTemplate,
      if_neg h1, if_neg he, if_neg hd]
  | @escape c w _ ih =>
    rw [text_cons, text_cons, List.cons_append, List.cons_append,
      Scan.breaks_cons _ _ _ (by decide), List.head?_cons, flags_other _ _ _ (by decide)]
    by_cases hc : c = '\n'
    · -- a line break behind a backslash is not passed over, and it is quasi text like any other
      subst hc
      have hstep : Scan.step ⟨Region.quasi.mode, depth, saved, false⟩ '\\' (some '\n') =
          ⟨Region.quasi.mode, depth, saved, false⟩ := rfl
      rw [hstep]
      exact Region.breaks_cons .quasi depth saved '\n' w rest (fun hn => absurd rfl hn)
        (ih _ _ _ hrest)
    · have hstep : Scan.step ⟨Region.quasi.mode, depth, saved, false⟩ '\\' (some c) =
          ⟨Region.quasi.mode, depth, saved, true⟩ := by
        simp [Scan.step, Scan.inTemplate, Region.mode, hc]
      rw [hstep, Scan.breaks_skip, ih _ _ _ hrest, flags_other _ _ _ hc]
  | @substitution u w _ _ ihu ihw =>
    have hu := ihu 0 (depth :: saved) ('}' :: (w.text ++ rest)) (by simp [Detached])
    refine breaks_enclosed (outside ['$', '{']) rfl (by decide) (fun cs => ?_) (fun cs => ?_) hu
      (ihw _ _ _ hrest)
    · rw [text_outside, List.cons_append, Scan.breaks_cons _ _ _ (by decide)]
      exact Scan.breaks_skip _ _ _ _ _
    · exact Scan.breaks_cons _ _ _ (by decide)

/-- The scan of a text of the grammar has one flag for every line break, and it is set exactly for
those that are quasi text. -/
theorem templateBreaks_eq_flags {w : Marked} (h : Derives .code w) :
    templateBreaks w.text = w.flags := by
  have hw := h.breaks 0 [] [] (by simp [Detached])
  simp only [List.append_nil, Region.mode, Scan.breaks] at hw
  exact hw

/-- A template with a template in a substitution of it and an escaped line break; backticks in a
string and in comments. -/
theorem templateBreaks_eq_flags_nested :
    ∃ w, Derives .code w ∧
      w.text = "\x60a\n$\x7b\x7b\x60\n\x60\x7d\"\x60\"\n\x7d\\\n\x60;//\x60\n/*\x60\n*/".toList ∧
      templateBreaks w.text = [true, true, false, true, false, false] := by
  have inner : Derives .code _ :=
    .template (@Derives.quasi '\n' _ (by decide) (by decide) (by decide) (.done _)) (.done _)
  have code : Derives .code _ := .group inner
    (@Derives.string '"' ['\x60'] _ (.inr rfl) (.plain (by decide) (by decide) (by decide) .done)
      (@Derives.plain '\n' _ (by decide) (by decide) (.done _)))
  have quasi : Derives .quasi _ := @Derives.quasi 'a' _ (by decide) (by decide) (by decide)
    (@Derives.quasi '\n' _ (by decide) (by decide) (by decide)
      (.substitution code (@Derives.escape '\n' _ (.done _))))
  have comments : Derives .code _ := @Derives.plain ';' _ (by decide) (by decide)
    (@Derives.lineComment ['\x60'] _ (by decide)
      (@Derives.blockComment ['\x60', '\n'] _ (by decide) (.done _)))
  have whole := Derives.template quasi comments
  exact ⟨_, whole, by decide, (templateBreaks_eq_flags whole).trans (by decide)⟩

end Scriptwright.Source
