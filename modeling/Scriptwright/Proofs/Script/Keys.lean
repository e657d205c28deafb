import Scriptwright.Proofs.Script.ReadBack

/-!
# Keys as property names

A key is written as a name or as a string literal, and a reader of source text takes the one or the
other as the name of the property. Keys that are no names are quoted, with one exception: a name
with a line break behind it is left as it is, and its line break is lost on the reader. The main
statement is that nothing else is lost.
-/

namespace Scriptwright.Script

open Text

/-! ## Names -/

/-- A basic Latin letter, an underscore or a dollar sign. -/
def BeginsName (c : Char) : Prop := ('A' ≤ c ∧ c ≤ 'Z') ∨ ('a' ≤ c ∧ c ≤ 'z') ∨ c = '_' ∨ c = '$'

/-- A character that begins names, and then any number of these and of digits. -/
def IsName (s : String) : Prop :=
  match s.toList with
  | [] => False
  | c :: cs => BeginsName c ∧ ∀ d ∈ cs, BeginsName d ∨ ('0' ≤ d ∧ d ≤ '9')

theorem isAlpha_iff {c : Char} : c.isAlpha = true ↔ ('A' ≤ c ∧ c ≤ 'Z') ∨ ('a' ≤ c ∧ c ≤ 'z') := by
  have hupper : c.isUpper = true ↔ 'A' ≤ c ∧ c ≤ 'Z' := decide_eq_true_iff
  have hlower : c.isLower = true ↔ 'a' ≤ c ∧ c ≤ 'z' :=
    Bool.and_eq_true_iff.trans (and_congr decide_eq_true_iff decide_eq_true_iff)
  exact Bool.or_eq_true_iff.trans (or_congr hupper hlower)

theorem startsName_iff {c : Char} : startsName c = true ↔ BeginsName c := by
  simp only [startsName, BeginsName, Bool.or_eq_true, beq_iff_eq, isAlpha_iff, or_assoc]

theorem continuesName_iff {c : Char} :
    continuesName c = true ↔ BeginsName c ∨ ('0' ≤ c ∧ c ≤ '9') := by
  have hdigit : c.isDigit = true ↔ '0' ≤ c ∧ c ≤ '9' :=
    Bool.and_eq_true_iff.trans (and_congr decide_eq_true_iff decide_eq_true_iff)
  have halphanum : c.isAlphanum = true ↔ c.isAlpha = true ∨ c.isDigit = true := Bool.or_eq_true_iff
  simp only [continuesName, BeginsName, Bool.or_eq_true, beq_iff_eq, halphanum, isAlpha_iff, hdigit]
  grind

theorem isPlainName_iff {s : String} : isPlainName s.toList = true ↔ IsName s := by
  unfold IsName
  cases s.toList with
  | nil => exact iff_of_false Bool.false_ne_true id
  | cons c cs => simp only [isPlainName, Bool.and_eq_true, List.all_eq_true, startsName_iff,
      continuesName_iff]

instance (s : String) : Decidable (IsName s) := decidable_of_iff _ isPlainName_iff

theorem IsName.exists_cons {s : String} (h : IsName s) :
    ∃ c cs, s.toList = c :: cs ∧ startsName c = true ∧ ∀ d ∈ cs, continuesName d = true := by
  have hplain := isPlainName_iff.mpr h
  cases hcs : s.toList with
  | nil =>
    rw [hcs] at hplain
    cases hplain
  | cons c cs =>
    rw [hcs, isPlainName, Bool.and_eq_true, List.all_eq_true] at hplain
    exact ⟨c, cs, rfl, hplain⟩

theorem IsName.not_mem_break {s : String} (h : IsName s) : '\n' ∉ s.toList := by
  obtain ⟨c, cs, hcs, hstart, hcontinue⟩ := h.exists_cons
  rw [hcs]
  intro hmem
  rcases List.mem_cons.mp hmem with rfl | hmem
  · exact absurd hstart (by decide)
  · exact absurd (hcontinue _ hmem) (by decide)

/-! ## Names in front of a line break -/

def BrokenName (s : String) : Prop := ∃ name, IsName name ∧ s = name ++ "\n"

theorem IsName.not_brokenName {s : String} (h : IsName s) : ¬BrokenName s := by
  rintro ⟨name, -, rfl⟩
  exact h.not_mem_break (by simp)

theorem keyText_of_isName {k : String} (h : IsName k) : keyText k = k := by
  have hlast : k.toList.getLast? ≠ some '\n' :=
    fun hlast => h.not_mem_break (List.mem_of_getLast? hlast)
  rw [keyText, dropLastBreak_of_getLast? hlast, if_pos (isPlainName_iff.mpr h)]

theorem keyText_of_brokenName {k : String} (h : BrokenName k) : keyText k = k := by
  obtain ⟨name, hname, rfl⟩ := h
  have hchars : (name ++ "\n").toList = name.toList ++ ['\n'] := by simp
  rw [keyText, hchars, dropLastBreak_append_break, if_pos (isPlainName_iff.mpr hname)]

/-- All other keys are quoted. -/
theorem keyText_eq_encoded {k : String} (hname : ¬IsName k) (hbroken : ¬BrokenName k) :
    keyText k = encoded k := by
  refine if_neg fun hplain => ?_
  rw [← String.toList_ofList (l := dropLastBreak k.toList), isPlainName_iff] at hplain
  rcases dropLastBreak_eq_iff.mp (rfl : dropLastBreak k.toList = _) with heq | ⟨heq, -⟩
  · exact hbroken ⟨_, hplain, String.toList_injective (by simpa using heq)⟩
  · rw [← heq, String.ofList_toList] at hplain
    exact hname hplain

/-! ## Reading keys -/

/-- The property that a text names in front of a colon: the text is one word or one string literal,
with any blanks around it. -/
def propertyName? (text : String) : Option String :=
  match lex text.toList with
  | some [l] => l.key?
  | _ => none

theorem propertyName?_of_lex {text : String} {l : Lexeme} (h : lex text.toList = some [l]) :
    propertyName? text = l.key? := by
  rw [propertyName?, h]

/-- A string literal, from its first mark to its last, that stands for the given text. -/
def Quotes (literal text : String) : Prop :=
  ∃ body, literal.toList = '"' :: body ∧ decoded body = some (text, [])

theorem quotes_encoded (s : String) : Quotes (encoded s) s :=
  ⟨s.toList.flatMap encodedChar ++ ['"'], by simp [encoded, encodedChars], decoded_encoded s []⟩

theorem BrokenName.not_quotes {k : String} (h : BrokenName k) (text : String) : ¬Quotes k text := by
  obtain ⟨name, hname, rfl⟩ := h
  rintro ⟨body, hbody, -⟩
  obtain ⟨c, cs, hcs, hstart, -⟩ := hname.exists_cons
  rw [String.toList_append, hcs] at hbody
  obtain ⟨rfl, -⟩ := List.cons.inj hbody
  exact absurd hstart (by decide)

theorem propertyName?_keyText {k : String} (h : ¬BrokenName k) :
    propertyName? (keyText k) = some k := by
  by_cases hname : IsName k
  · have hword := (lexesTo_word (isPlainName_iff.mpr hname)).lex_eq
    rw [String.ofList_toList] at hword
    rw [keyText_of_isName hname, propertyName?_of_lex hword]
    rfl
  · rw [keyText_eq_encoded hname h, propertyName?_of_lex (lexesTo_text k).lex_eq]
    rfl

/-- The line break behind a name is a blank to the reader. -/
theorem propertyName?_keyText_break {name : String} (h : IsName name) :
    propertyName? (keyText (name ++ "\n")) = some name := by
  have hword : lex (name ++ "\n").toList = some [.word name] := by
    have hlex := lexesTo_word (isPlainName_iff.mpr h) ['\n'] rfl
    rw [String.ofList_toList, lex_space rfl, lex] at hlex
    rw [String.toList_append]
    exact hlex
  rw [keyText_of_brokenName ⟨name, h, rfl⟩, propertyName?_of_lex hword]
  rfl

theorem propertyName?_keyText_eq_some {k p : String} :
    propertyName? (keyText k) = some p ↔ k = p ∧ ¬BrokenName k ∨ IsName p ∧ k = p ++ "\n" := by
  by_cases hbroken : BrokenName k
  · obtain ⟨name, hname, rfl⟩ := hbroken
    rw [propertyName?_keyText_break hname, Option.some.injEq, String.append_left_inj]
    constructor
    · rintro rfl
      exact .inr ⟨hname, rfl⟩
    · rintro (⟨-, hnot⟩ | ⟨-, heq⟩)
      · exact absurd ⟨name, hname, rfl⟩ hnot
      · exact heq
  · rw [propertyName?_keyText hbroken, Option.some.injEq]
    constructor
    · intro heq
      exact .inl ⟨heq, hbroken⟩
    · rintro (⟨heq, -⟩ | ⟨hname, heq⟩)
      · exact heq
      · exact absurd ⟨p, hname, heq⟩ hbroken

/-! ## What is lost -/

theorem ne_append_break (s : String) : s ≠ s ++ "\n" := by
  intro h
  have hlength := congrArg String.length h
  simp at hlength

/-- Different keys are read as one property only if they are a name and that name with a line break
behind it. -/
theorem propertyName?_keyText_eq_iff (k k' : String) :
    propertyName? (keyText k) = propertyName? (keyText k') ↔
      k = k' ∨ IsName k ∧ k' = k ++ "\n" ∨ IsName k' ∧ k = k' ++ "\n" := by
  by_cases hbroken : BrokenName k
  · obtain ⟨name, hname, rfl⟩ := hbroken
    rw [propertyName?_keyText_break hname, eq_comm, propertyName?_keyText_eq_some,
      String.append_left_inj]
    constructor
    · rintro (⟨rfl, -⟩ | ⟨-, rfl⟩)
      · exact .inr (.inr ⟨hname, rfl⟩)
      · exact .inl rfl
    · rintro (rfl | ⟨hnot, -⟩ | ⟨-, rfl⟩)
      · exact .inr ⟨hname, rfl⟩
      · exact absurd ⟨name, hname, rfl⟩ hnot.not_brokenName
      · exact .inl ⟨rfl, hname.not_brokenName⟩
  · rw [propertyName?_keyText hbroken, eq_comm, propertyName?_keyText_eq_some]
    constructor
    · rintro (⟨rfl, -⟩ | hbreak)
      · exact .inl rfl
      · exact .inr (.inl hbreak)
    · rintro (rfl | hbreak | ⟨hname, heq⟩)
      · exact .inl ⟨rfl, hbroken⟩
      · exact .inr hbreak
      · exact absurd ⟨k', hname, heq⟩ hbroken

/-- Every key is written as itself, being a name, or as a string literal that stands for it, and it
is then read as the property of its own name, unless it is a name with a line break behind it. Two
different keys are read as the same property exactly if one of them is a name and the other one is
that name with a line break behind it. -/
theorem keyText_lossless_iff (k : String) :
    (keyText k = k ∧ IsName k ∨ Quotes (keyText k) k ↔ ¬BrokenName k) ∧
      (propertyName? (keyText k) = some k ↔ ¬BrokenName k) ∧
      ∀ k', propertyName? (keyText k) = propertyName? (keyText k') ↔
        k = k' ∨ IsName k ∧ k' = k ++ "\n" ∨ IsName k' ∧ k = k' ++ "\n" := by
  refine ⟨?_, ?_, propertyName?_keyText_eq_iff k⟩
  · constructor
    · rintro (⟨-, hname⟩ | hquotes) hbroken
      · exact hname.not_brokenName hbroken
      · rw [keyText_of_brokenName hbroken] at hquotes
        exact hbroken.not_quotes k hquotes
    · intro hbroken
      by_cases hname : IsName k
      · exact .inl ⟨keyText_of_isName hname, hname⟩
      · rw [keyText_eq_encoded hname hbroken]
        exact .inr (quotes_encoded k)
  · rw [propertyName?_keyText_eq_some]
    simp [ne_append_break k]

/-- A name in front of a line break is neither a name nor quoted, and it is read as the name alone.
-/
theorem keyText_break_lost :
    keyText "a\n" = "a\n" ∧ ¬IsName "a\n" ∧ ¬Quotes (keyText "a\n") "a\n" ∧
      propertyName? (keyText "a\n") = propertyName? (keyText "a") := by
  have hname : IsName "a" := by decide
  have hbroken : BrokenName "a\n" := ⟨"a", hname, rfl⟩
  have htext := keyText_of_brokenName hbroken
  refine ⟨htext, by decide, ?_, ?_⟩
  · rw [htext]
    exact hbroken.not_quotes _
  · exact (propertyName?_keyText_break hname).trans
      (propertyName?_keyText hname.not_brokenName).symm

end Scriptwright.Script
