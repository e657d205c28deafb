import Scriptwright.Project.Words
import Mathlib.Data.List.Infix
import Mathlib.Tactic.SplitIfs

/-!
# Words of a command

Splitting succeeds just if every quote is closed and every backslash has a character behind it. A
run of ordinary characters, which are no white space, quotes or backslashes, comes whole to one of
the words, and apart from backslashes a word has no characters but those of the command.
-/

namespace Scriptwright.Project.Words

/-! ## Complete commands -/

/-- A text between two quotes. Between double quotes a backslash takes the next character with it.
-/
inductive Enclosed (m : Char) : List Char → Prop where
  | nil : Enclosed m []
  | plain {c : Char} {cs : List Char} (hmark : c ≠ m) (hplain : ¬(c = '\\' ∧ m = '"'))
      (h : Enclosed m cs) :
    Enclosed m (c :: cs)
  | escaped (c : Char) {cs : List Char} (hm : m = '"') (h : Enclosed m cs) : Enclosed m
      ('\\' :: c :: cs)

/-- A command in which every quote is closed and every backslash outside of quotes has a character
behind it. -/
inductive Complete : List Char → Prop where
  | nil : Complete []
  | plain {c : Char} {cs : List Char} (hquote : isQuote c = false) (hplain : c ≠ '\\')
      (h : Complete cs) :
    Complete (c :: cs)
  | escaped (c : Char) {cs : List Char} (h : Complete cs) : Complete ('\\' :: c :: cs)
  | quoted {m : Char} {inside cs : List Char} (hm : isQuote m = true) (hinside : Enclosed m inside)
    (h : Complete cs) : Complete (m :: (inside ++ m :: cs))

def Closing (m : Char) (cs : List Char) : Prop :=
  ∃ inside rest, cs = inside ++ m :: rest ∧ Enclosed m inside ∧ Complete rest

def CompleteFrom : Mode → List Char → Prop
  | .plain, cs => Complete cs
  | .quoted m, cs => Closing m cs
  | .escaped none, cs => ∃ c rest, cs = c :: rest ∧ Complete rest
  | .escaped (some m), cs => ∃ c rest, cs = c :: rest ∧ Closing m rest

theorem isOk_map_except {α β : Type} (f : α → β) (x : Except Fault α) :
    (x.map f).isOk = x.isOk := by
  cases x <;> rfl

theorem isQuote_eq_false_of_isSeparator {c : Char} (h : isSeparator c = true) :
    isQuote c = false ∧ c ≠ '\\' := by
  simp only [isSeparator, Bool.or_eq_true, beq_iff_eq] at h
  rcases h with ((rfl | rfl) | rfl) | rfl <;> decide

theorem complete_cons_of_plain {c : Char} {cs : List Char} (hquote : isQuote c = false)
    (hplain : c ≠ '\\') :
    Complete (c :: cs) ↔ Complete cs := by
  refine ⟨fun h => ?_, .plain hquote hplain⟩
  cases h with
  | plain _ _ h => exact h
  | escaped => exact absurd rfl hplain
  | quoted hm => simp [hm] at hquote

theorem complete_cons_of_isQuote {m : Char} {cs : List Char} (hm : isQuote m = true) :
    Complete (m :: cs) ↔ Closing m cs := by
  constructor
  · intro h
    cases h with
    | plain hquote => simp [hm] at hquote
    | escaped => simp [isQuote] at hm
    | quoted _ hinside h => exact ⟨_, _, rfl, hinside, h⟩
  · rintro ⟨inside, rest, rfl, hinside, h⟩
    exact .quoted hm hinside h

theorem complete_backslash_iff {cs : List Char} :
    Complete ('\\' :: cs) ↔ CompleteFrom (.escaped none) cs := by
  constructor
  · intro h
    cases h with
    | plain _ hplain => exact absurd rfl hplain
    | escaped c h => exact ⟨c, _, rfl, h⟩
    | quoted hm => simp [isQuote] at hm
  · rintro ⟨c, rest, rfl, h⟩
    exact .escaped c h

/-- Between quotes the next character closes them, or is a backslash that takes another one with it,
or stays inside. -/
theorem closing_cons {m c : Char} {cs : List Char} :
    Closing m (c :: cs) ↔
      if c = m then Complete cs
      else if c = '\\' ∧ m = '"' then CompleteFrom (.escaped (some m)) cs
      else Closing m cs := by
  constructor
  · rintro ⟨inside, rest, heq, hinside, hrest⟩
    cases hinside with
    | nil =>
      obtain ⟨rfl, rfl⟩ := List.cons.inj heq
      rwa [if_pos rfl]
    | plain hmark hplain hinside =>
      obtain ⟨rfl, rfl⟩ := List.cons.inj heq
      rw [if_neg hmark, if_neg hplain]
      exact ⟨_, rest, rfl, hinside, hrest⟩
    | escaped d hm hinside =>
      obtain ⟨rfl, rfl⟩ := List.cons.inj heq
      subst hm
      rw [if_neg (by decide), if_pos ⟨rfl, rfl⟩]
      exact ⟨d, _, rfl, _, rest, rfl, hinside, hrest⟩
  · intro h
    split_ifs at h with hclose hescape
    · subst hclose
      exact ⟨[], cs, rfl, .nil, h⟩
    · obtain ⟨rfl, rfl⟩ := hescape
      obtain ⟨d, _, rfl, inside, rest, rfl, hinside, hrest⟩ := h
      exact ⟨'\\' :: d :: inside, rest, rfl, .escaped d rfl hinside, hrest⟩
    · obtain ⟨inside, rest, rfl, hinside, hrest⟩ := h
      exact ⟨c :: inside, rest, rfl, .plain hclose hescape hinside, hrest⟩

theorem completeFrom_escaped_cons {mark : Option Char} {c : Char} {cs : List Char} :
    CompleteFrom (.escaped mark) (c :: cs) ↔ CompleteFrom (afterEscape mark) cs := by
  cases mark with
  | none => exact ⟨fun ⟨_, _, heq, h⟩ => (List.cons.inj heq).2 ▸ h, fun h => ⟨c, cs, rfl, h⟩⟩
  | some m => exact ⟨fun ⟨_, _, heq, h⟩ => (List.cons.inj heq).2 ▸ h, fun h => ⟨c, cs, rfl, h⟩⟩

/-- Splitting succeeds just if what is left completes the command, whatever word has been read so
far. -/
theorem isOk_splitFrom_iff (mode : Mode) (w : Word) (cs : List Char) :
    (splitFrom mode w cs).isOk = true ↔ CompleteFrom mode cs := by
  induction cs generalizing mode w with
  | nil =>
    cases mode with
    | plain => exact ⟨fun _ => .nil, fun _ => rfl⟩
    | quoted m =>
      refine ⟨fun h => absurd h Bool.false_ne_true, fun ⟨inside, rest, h, _⟩ => ?_⟩
      simp at h
    | escaped mark =>
      refine ⟨fun h => absurd h Bool.false_ne_true, fun h => ?_⟩
      cases mark <;> obtain ⟨c, rest, heq, -⟩ := h <;> cases heq
  | cons c cs ih =>
    cases mode with
    | plain =>
      change _ ↔ Complete (c :: cs)
      rw [splitFrom]
      by_cases hseparator : isSeparator c = true
      · obtain ⟨hquote, hplain⟩ := isQuote_eq_false_of_isSeparator hseparator
        rw [if_pos hseparator, isOk_map_except, complete_cons_of_plain hquote hplain]
        exact ih .plain .empty
      · rw [if_neg hseparator]
        by_cases hquote : isQuote c = true
        · rw [if_pos hquote, complete_cons_of_isQuote hquote]
          exact ih (.quoted c) _
        · rw [if_neg hquote]
          by_cases hslash : c = '\\'
          · subst hslash
            rw [if_pos (beq_self_eq_true _), complete_backslash_iff]
            exact ih (.escaped none) w
          · rw [if_neg (by simpa using hslash),
              complete_cons_of_plain (Bool.eq_false_iff.mpr hquote) hslash]
            exact ih .plain _
    | quoted m =>
      change _ ↔ Closing m (c :: cs)
      rw [splitFrom, closing_cons]
      simp only [beq_iff_eq, Bool.and_eq_true]
      split_ifs
      · exact ih .plain w
      · exact ih (.escaped (some m)) w
      · exact ih (.quoted m) _
    | escaped mark =>
      rw [splitFrom, completeFrom_escaped_cons]
      exact ih _ _

theorem isOk_split_iff {s : String} : (split s).isOk = true ↔ Complete s.toList :=
  isOk_splitFrom_iff .plain .empty s.toList

/-! ## Characters of words -/

/-- A character that stands for itself, in quotes and outside of them. -/
def isOrdinary (c : Char) : Bool := !isSeparator c && !isQuote c && c != '\\'

namespace Mode

/-- Only a quote opens a quotation. -/
def Sane : Mode → Prop
  | .plain => True
  | .quoted m => isQuote m = true
  | .escaped mark => ∀ m ∈ mark, isQuote m = true

/-- Ordinary characters go to the word as they are. -/
def Reads : Mode → Prop
  | .plain => True
  | .quoted m => isQuote m = true
  | .escaped _ => False

theorem sane_afterEscape {mark : Option Char} (h : (escaped mark).Sane) :
    (afterEscape mark).Sane ∧ (afterEscape mark).Reads := by
  cases mark with
  | none => exact ⟨trivial, trivial⟩
  | some m => exact ⟨h m rfl, h m rfl⟩

end Mode

/-- What reading a character, other than one that ends a word, makes of the mode and the word. -/
structure Advances (mode : Mode) (w : Word) (c : Char) (mode' : Mode) (w' : Word) : Prop where
  sane : mode.Sane → mode'.Sane
  keeps : w.back <:+ w'.back
  adds : ∀ d ∈ w'.back, d ∈ w.back ∨ d = c ∨ d = '\\'
  pushes : mode.Sane → isOrdinary c = true → mode'.Reads ∧ ∃ back, w'.back = c :: back

namespace Advances

variable {mode mode' : Mode} {w : Word} {c : Char} {marked : Bool}

theorem of_mark (hsane : mode.Sane → mode'.Sane) (hc : mode.Sane → isOrdinary c = false) :
    Advances mode w c mode' { w with marked := marked } where
  sane := hsane
  keeps := List.suffix_refl _
  adds _ hd := .inl hd
  pushes hmode hordinary := by
    rw [hc hmode] at hordinary
    cases hordinary

theorem of_push (hsane : mode.Sane → mode'.Sane) (hreads : mode.Sane → mode'.Reads) :
    Advances mode w c mode' (w.push c) where
  sane := hsane
  keeps := List.suffix_cons c _
  adds _ hd := (List.mem_cons.mp hd).elim (fun h => .inr (.inl h)) .inl
  pushes hmode _ := ⟨hreads hmode, _, rfl⟩

theorem of_unescape (mark : Option Char) :
    Advances (.escaped mark) w c (afterEscape mark) (unescape mark w c) := by
  have hpush : Advances (.escaped mark) w c (afterEscape mark) (w.push c) :=
    of_push (fun h => (Mode.sane_afterEscape h).1) fun h => (Mode.sane_afterEscape h).2
  cases mark with
  | none => exact hpush
  | some m =>
    rw [unescape]
    split
    · exact hpush
    · refine ⟨hpush.sane, ?_, fun d hd => ?_, fun h _ => ⟨(Mode.sane_afterEscape h).2, _, rfl⟩⟩
      · exact (List.suffix_cons _ _).trans (List.suffix_cons _ _)
      · rcases List.mem_cons.mp hd with rfl | hd
        · exact .inr (.inl rfl)
        · exact (List.mem_cons.mp hd).elim (fun h => .inr (.inr h)) .inl

end Advances

/-- A character ends the word, or the word goes on. -/
theorem splitFrom_cons_cases (mode : Mode) (w : Word) (c : Char) (cs : List Char) :
    (isSeparator c = true ∧
      splitFrom mode w (c :: cs) = (splitFrom .plain .empty cs).map (w.close ++ ·)) ∨
    ∃ mode' w', Advances mode w c mode' w' ∧
      splitFrom mode w (c :: cs) = splitFrom mode' w' cs := by
  cases mode with
  | plain =>
    rw [splitFrom]
    by_cases hseparator : isSeparator c = true
    · exact .inl ⟨hseparator, if_pos hseparator⟩
    refine .inr ?_
    simp only [if_neg hseparator]
    by_cases hquote : isQuote c = true
    · have hmark : isOrdinary c = false := by simp [isOrdinary, hquote]
      exact ⟨.quoted c, _, .of_mark (fun _ => hquote) fun _ => hmark, if_pos hquote⟩
    simp only [if_neg hquote]
    by_cases hslash : (c == '\\') = true
    · have hmark : isOrdinary c = false := by simp [isOrdinary, beq_iff_eq.mp hslash]
      exact ⟨.escaped none, w, .of_mark (fun _ _ h => by cases h) fun _ => hmark, if_pos hslash⟩
    · exact ⟨.plain, _, .of_push id fun _ => trivial, if_neg hslash⟩
  | quoted m =>
    refine .inr ?_
    rw [splitFrom]
    by_cases hclose : (c == m) = true
    · have hmark : (Mode.quoted m).Sane → isOrdinary c = false := by
        intro h
        rw [beq_iff_eq.mp hclose, isOrdinary, show isQuote m = true from h]
        simp
      exact ⟨.plain, w, .of_mark (fun _ => trivial) hmark, if_pos hclose⟩
    simp only [if_neg hclose]
    by_cases hslash : (c == '\\' && m == '"') = true
    · have hmark : isOrdinary c = false := by
        simp [isOrdinary, beq_iff_eq.mp (Bool.and_eq_true_iff.mp hslash).1]
      have hsane : (Mode.quoted m).Sane → (Mode.escaped (some m)).Sane := by
        intro h _ hm
        rwa [← Option.some.inj hm]
      exact ⟨.escaped (some m), w, .of_mark hsane fun _ => hmark, if_pos hslash⟩
    · exact ⟨.quoted m, _, .of_push id id, if_neg hslash⟩
  | escaped mark => exact .inr ⟨_, _, .of_unescape mark, rfl⟩

section Words

variable {mode : Mode} {w : Word} {cs mark : List Char} {words : List String}

theorem close_of_ne_nil (h : w.back ≠ []) : w.close = [String.ofList w.back.reverse] := by
  rw [Word.close, List.isEmpty_eq_false_iff.mpr h]
  rfl

theorem mem_of_mem_close {word : String} {c : Char} (hword : word ∈ w.close)
    (hc : c ∈ word.toList) : c ∈ w.back := by
  rw [Word.close] at hword
  split at hword
  · cases hword
  · rw [List.mem_singleton.mp hword, String.toList_ofList] at hc
    exact List.mem_reverse.mp hc

theorem exists_prefix_of_splitFrom (h : splitFrom mode w cs = .ok words) (hw : w.back ≠ []) :
    ∃ word ∈ words, w.back.reverse <+: word.toList := by
  induction cs generalizing mode w words with
  | nil =>
    cases mode with
    | plain =>
      cases h
      rw [close_of_ne_nil hw]
      exact ⟨_, List.mem_singleton_self _, by rw [String.toList_ofList]⟩
    | _ => cases h
  | cons c cs ih =>
    rcases splitFrom_cons_cases mode w c cs with ⟨-, heq⟩ | ⟨mode', w', hnext, heq⟩
    · rw [heq] at h
      obtain ⟨rest, -, rfl⟩ := exists_of_map_eq_ok h
      rw [close_of_ne_nil hw]
      exact ⟨_, List.mem_cons_self, by rw [String.toList_ofList]⟩
    · rw [heq] at h
      have hw' : w'.back ≠ [] := fun hnil => hw (List.suffix_nil.mp (hnil ▸ hnext.keeps))
      obtain ⟨word, hword, hprefix⟩ := ih h hw'
      exact ⟨word, hword, (List.reverse_prefix.mpr hnext.keeps).trans hprefix⟩

theorem splitFrom_append_of_reads (hmode : mode.Reads) (hmark : ∀ c ∈ mark, isOrdinary c = true) :
    splitFrom mode w (mark ++ cs) =
      splitFrom mode { w with back := mark.reverse ++ w.back } cs := by
  induction mark generalizing w with
  | nil => rfl
  | cons c mark ih =>
    obtain ⟨hc, hmark⟩ := List.forall_mem_cons.mp hmark
    have hpush : splitFrom mode w (c :: (mark ++ cs)) = splitFrom mode (w.push c) (mark ++ cs) := by
      simp only [isOrdinary, Bool.and_eq_true, Bool.not_eq_true', bne_iff_ne] at hc
      obtain ⟨⟨hseparator, hquote⟩, hslash⟩ := hc
      cases mode with
      | plain => simp [splitFrom, hseparator, hquote, hslash]
      | quoted m =>
        have hne : c ≠ m := by
          rintro rfl
          rw [show isQuote c = true from hmode] at hquote
          cases hquote
        simp [splitFrom, hne, hslash]
      | escaped => exact hmode.elim
    rw [List.cons_append, hpush, ih hmark, List.reverse_cons, List.append_assoc]
    rfl

/-- A run of ordinary characters comes whole to a word. -/
theorem exists_infix_of_splitFrom (hmode : mode.Sane) (h : splitFrom mode w cs = .ok words)
    (hne : mark ≠ []) (hmark : ∀ c ∈ mark, isOrdinary c = true) (hin : mark <:+: cs) :
    ∃ word ∈ words, mark <:+: word.toList := by
  induction cs generalizing mode w words with
  | nil => exact absurd (List.infix_nil.mp hin) hne
  | cons c cs ih =>
    rcases splitFrom_cons_cases mode w c cs with ⟨hseparator, heq⟩ | ⟨mode', w', hnext, heq⟩
    · rw [heq] at h
      obtain ⟨rest, hrest, rfl⟩ := exists_of_map_eq_ok h
      rcases List.infix_cons_iff.mp hin with hprefix | hin
      · obtain ⟨d, mark, rfl⟩ := List.exists_cons_of_ne_nil hne
        rw [(List.cons_prefix_cons.mp hprefix).1] at hmark
        have hc := hmark c List.mem_cons_self
        simp [isOrdinary, hseparator] at hc
      · obtain ⟨word, hword, hmem⟩ := ih (show Mode.plain.Sane from trivial) hrest hin
        exact ⟨word, List.mem_append_right _ hword, hmem⟩
    · rw [heq] at h
      rcases List.infix_cons_iff.mp hin with hprefix | hin
      · obtain ⟨d, mark, rfl⟩ := List.exists_cons_of_ne_nil hne
        obtain ⟨rfl, rest, rfl⟩ := List.cons_prefix_cons.mp hprefix
        obtain ⟨hd, hmark⟩ := List.forall_mem_cons.mp hmark
        obtain ⟨hreads, back, hback⟩ := hnext.pushes hmode hd
        rw [splitFrom_append_of_reads hreads hmark, hback] at h
        obtain ⟨word, hword, hprefix⟩ := exists_prefix_of_splitFrom h (by simp)
        refine ⟨word, hword, List.IsInfix.trans ⟨back.reverse, [], ?_⟩ hprefix.isInfix⟩
        simp
      · exact ih (hnext.sane hmode) h hin

theorem exists_infix_of_split {s : String} (h : split s = .ok words) (hne : mark ≠ [])
    (hmark : ∀ c ∈ mark, isOrdinary c = true) (hin : mark <:+: s.toList) :
    ∃ word ∈ words, mark <:+: word.toList :=
  exists_infix_of_splitFrom (show Mode.plain.Sane from trivial) h hne hmark hin

theorem mem_of_mem_splitFrom {word : String} {d : Char} (hd : d ≠ '\\')
    (h : splitFrom mode w cs = .ok words) (hword : word ∈ words) (hmem : d ∈ word.toList) :
    d ∈ w.back ∨ d ∈ cs := by
  induction cs generalizing mode w words with
  | nil =>
    cases mode with
    | plain =>
      cases h
      exact .inl (mem_of_mem_close hword hmem)
    | _ => cases h
  | cons c cs ih =>
    rcases splitFrom_cons_cases mode w c cs with ⟨-, heq⟩ | ⟨mode', w', hnext, heq⟩
    · rw [heq] at h
      obtain ⟨rest, hrest, rfl⟩ := exists_of_map_eq_ok h
      rcases List.mem_append.mp hword with hword | hword
      · exact .inl (mem_of_mem_close hword hmem)
      · rcases ih hrest hword with hback | hcs
        · cases hback
        · exact .inr (List.mem_cons_of_mem _ hcs)
    · rw [heq] at h
      rcases ih h hword with hback | hcs
      · rcases hnext.adds d hback with hback | rfl | rfl
        · exact .inl hback
        · exact .inr List.mem_cons_self
        · exact absurd rfl hd
      · exact .inr (List.mem_cons_of_mem _ hcs)

/-- A word has no characters but backslashes and those of the command. -/
theorem mem_of_mem_split {s word : String} {d : Char} (hd : d ≠ '\\') (h : split s = .ok words)
    (hword : word ∈ words) (hmem : d ∈ word.toList) : d ∈ s.toList := by
  rcases mem_of_mem_splitFrom hd h hword hmem with hback | hcs
  · cases hback
  · exact hcs

end Words

end Scriptwright.Project.Words
