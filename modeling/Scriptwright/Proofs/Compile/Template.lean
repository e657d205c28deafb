import Scriptwright.Proofs.Compile.Strict
import Scriptwright.Proofs.Document.Written
import Scriptwright.Proofs.Source.Literal

/-!
# Template literals through a whole compilation

A function that returns an element with some text and a template literal behind it. The literal is
found in the compiled code, whatever its contents, exactly if the text leaves the scan of the
tidying in code. An apostrophe in the text, where it opens nothing, is taken for the start of a
string up to the end of the line, and then the lines of the literal are tidied like any others.
-/

namespace Scriptwright

open Script Source

/-- The outcome of a lenient compilation of an accepted document that is written without a note. -/
theorem outcome_compileDocument {options : Options} {setup : Schema.Setup} {tidying : TidyOptions}
    {source : Option String} {document : Value} {text : String} (hlenient : options.strict = false)
    (hcheck : (checkDocument setup document).outcome = .ok ())
    (hemit : (Document.code document).emit options.layout 0 = .pure text) :
    (compileDocument options setup tidying source document).outcome =
      .ok ⟨tidy tidying text, [], source⟩ := by
  have hwritten : (emitDocument options.layout source document).outcome =
      .ok ⟨text, [], source⟩ := by
    rw [emitDocument, emitCode, hemit]
    rfl
  rw [compileDocument_lenient _ _ _ _ _ hlenient, writeDocument]
  simp only [Logged.bind, hcheck, hwritten]
  rfl

namespace Template

/-! ## The document and its text -/

/-- A statement that returns an element with a text and a template literal. -/
def statement (tag t q : String) : Value :=
  Document.returnNode
    (Document.elementNode tag [Document.textNode t,
      Document.containerNode (Document.templateNode q)])

def document (name tag t q : String) : Value :=
  .record [("functions", .list [.record
    [("name", .string name), ("parameters", .list []), ("body", .list [statement tag t q])]])]

def header (name : String) : String := "function " ++ name ++ "() \x7b"

def opening (tag t : String) : String := "    return <" ++ (tag ++ (">" ++ (t ++ "\x7b")))

def closing (tag : String) : String := "\x7d</" ++ tag ++ ">;"

def written (name tag t q : String) : String :=
  header name ++ "\n" ++ opening tag t ++ "\x60" ++ q ++ "\x60" ++ closing tag ++ "\n\x7d\n"

theorem checkDocument_document (name tag t q : String) :
    (checkDocument {} (document name tag t q)).outcome = .ok () := by
  with_unfolding_all rfl

theorem toList_written (name tag t q : String) :
    (written name tag t q).toList = ((header name).toList ++ '\n' :: (opening tag t).toList) ++
      '\x60' :: q.toList ++
      '\x60' :: ((closing tag).toList ++ ['\n', '}', '\n']) := by
  have hbreak : "\n".toList = ['\n'] := rfl
  have htick : "\x60".toList = ['\x60'] := rfl
  have hend : "\n\x7d\n".toList = ['\n', '}', '\n'] := rfl
  rw [written]
  simp only [String.toList_append, hbreak, htick, hend, List.append_assoc, List.cons_append,
    List.nil_append]

theorem emit_function (name tag t q : String) :
    (nodeCode true .statement (Document.thunkNode name (statement tag t q))).emit
      ({} : Options).layout 0 =
      .pure (written name tag t q) := by
  have hcontainer := Document.emit_containerNode rfl (by decide)
    (@Document.emit_templateNode ({} : Options).layout 1 q)
  have hreturn := Document.emit_returnNode rfl
    (Document.emit_elementNode tag (Document.emit_textNode t) hcontainer)
  have hfunction := @Document.emit_thunkNode ({} : Options).layout 0 _ _ name hreturn
  have hmargins : ({} : Options).layout.margin 0 = "" ∧ ({} : Options).layout.margin 1 = "    " :=
    ⟨rfl, rfl⟩
  -- the rules cut the text in other places
  have hheader : "() \x7b\n" = "() \x7b" ++ "\n" := rfl
  have hopening : "    return <" = "    " ++ ("return " ++ "<") := rfl
  have hclosing : "\x7d</" = "\x7d" ++ "</" := rfl
  have hend : ">;" ++ "\n\x7d\n" = ">" ++ (";\n" ++ "\x7d\n") := rfl
  rw [statement, hfunction]
  simp only [hmargins, written, header, opening, closing, hheader, hopening, hclosing, hend,
    String.append_assoc, String.empty_append]

theorem emit_document (name tag t q : String) :
    (Document.code (document name tag t q)).emit ({} : Options).layout 0 =
      .pure (written name tag t q) := by
  have hnodes : Document.collect Document.functionOf [.record
      [("name", .string name), ("parameters", .list []), ("body", .list [statement tag t q])]] =
      .ok [Document.thunkNode name (statement tag t q)] := rfl
  refine Document.emit_code_functions hnodes ?_ fun hempty => ?_
  · simp [Document.statementsCode, Code.emitAll_cons, emit_function]
  · have hchars := congrArg String.toList hempty
    rw [toList_written] at hchars
    exact List.cons_ne_nil _ _ (List.append_eq_nil_iff.mp hchars).2

theorem outcome_document (name tag t q : String) :
    (compileDocument {} {} {} none (document name tag t q)).outcome =
      .ok ⟨tidy {} (written name tag t q), [], none⟩ :=
  outcome_compileDocument rfl (checkDocument_document name tag t q) (emit_document name tag t q)

/-! ## Reading the text -/

theorem after_header {name : String} (h : name.toList.all isQuiet = true) :
    Scan.start.after (header name).toList = ⟨.code, 1, [], false⟩ := by
  have hword : "function ".toList.all isQuiet = true := rfl
  have hparens : "() \x7b".toList = "() ".toList ++ ['{'] := rfl
  have hparens' : "() ".toList.all isQuiet = true := rfl
  simp only [Scan.after, header, String.toList_append, hparens, List.append_assoc]
  rw [Scan.run_quiet _ _ _ rfl rfl hword, Scan.run_quiet _ _ _ rfl rfl h,
    Scan.run_quiet _ _ _ rfl rfl hparens']
  rfl

theorem run_opening {tag : String} (h : tag.toList.all isQuiet = true) (t : String) (s : Scan)
    (hmode : s.mode = .code) (hskip : s.skip = false) :
    s.run (opening tag t).toList = s.run (t.toList ++ ['{']) := by
  have hreturn : "    return <".toList.all isQuiet = true := rfl
  have hclose : ">".toList.all isQuiet = true := rfl
  simp only [opening, String.toList_append]
  rw [s.run_quiet _ _ hmode hskip hreturn, s.run_quiet _ _ hmode hskip h,
    s.run_quiet _ _ hmode hskip hclose]
  rfl

theorem not_mem_break_of_quiet {w : List Char} (h : w.all isQuiet = true) : '\n' ∉ w := by
  intro hm
  have hquiet := List.all_eq_true.mp h '\n' hm
  cases hquiet

theorem getLast?_header (name : String) : (header name).toList.getLast? = some '{' := by
  simp only [header, String.toList_append, List.getLast?_append]
  rfl

theorem getLast?_closing (tag : String) : ('\x60' :: (closing tag).toList).getLast? = some ';' := by
  rw [← List.singleton_append]
  simp only [closing, String.toList_append, List.getLast?_append]
  rfl

def blankLines (name tag t : String) : List (List Char) :=
  [(header name).toList, (opening tag t).toList ++ ['\x60', ' '],
    '\x60' :: (closing tag).toList, ['}']]

theorem toList_written_blank (name tag t : String) :
    (written name tag t " \n").toList = Text.joinWith ['\n'] (blankLines name tag t) ++ ['\n'] := by
  have hblank : " \n".toList = [' ', '\n'] := rfl
  rw [toList_written, hblank, blankLines]
  simp only [Text.joinWith, List.append_assoc, List.cons_append, List.nil_append]

/-- Whether the document compiles to code with the literal in it. -/
def Kept (name tag t q : String) : Prop :=
  ∃ c, (compileDocument {} {} {} none (document name tag t q)).outcome = .ok c ∧
    '\x60' :: q.toList ++ ['\x60'] <:+: c.code.toList

section Quiet

variable {name tag t : String} (hname : name.toList.all isQuiet = true)
  (htag : tag.toList.all isQuiet = true)

include hname htag

/-- Of what stands in front of the literal only the text counts. -/
theorem mode_run_front (ht : '}' ∉ t.toList) :
    (Scan.start.run ((header name).toList ++ '\n' :: (opening tag t).toList)).mode =
      (Scan.start.run (t.toList ++ ['{'])).mode := by
  have hopen : '}' ∉ t.toList ++ ['{'] := by simp [ht]
  rw [Scan.run_append_break, after_header hname, run_opening htag t _ rfl rfl]
  exact @Scan.mode_run_congr ⟨.code, 1, [], false⟩ .start rfl rfl _ hopen

theorem skip_run_front :
    (Scan.start.run ((header name).toList ++ '\n' :: (opening tag t).toList)).skip = false := by
  rw [Scan.run_append_break, after_header hname, run_opening htag t _ rfl rfl]
  exact Scan.skip_run_brace _ _

theorem not_mem_break_blankLines (ht : '\n' ∉ t.toList) :
    ∀ p ∈ blankLines name tag t, '\n' ∉ p := by
  have hname' := not_mem_break_of_quiet hname
  have htag' := not_mem_break_of_quiet htag
  intro p hp
  simp only [blankLines, List.mem_cons, List.not_mem_nil, or_false] at hp
  rcases hp with rfl | rfl | rfl | rfl
  · have hword : '\n' ∉ "function ".toList := by decide
    have hparens : '\n' ∉ "() \x7b".toList := by decide
    simp only [header, String.toList_append, List.mem_append, not_or]
    exact ⟨⟨hword, hname'⟩, hparens⟩
  · have hreturn : '\n' ∉ "    return <".toList := by decide
    have hclose : '\n' ∉ ">".toList := by decide
    have hbrace : '\n' ∉ "\x7b".toList := by decide
    simp only [opening, String.toList_append, List.mem_append, not_or]
    exact ⟨⟨hreturn, htag', hclose, ht, hbrace⟩, by decide⟩
  · have hbrace : '\n' ∉ "\x7d</".toList := by decide
    have hend : '\n' ∉ ">;".toList := by decide
    simp only [closing, String.toList_append, List.mem_cons, List.mem_append, not_or]
    exact ⟨by decide, ⟨hbrace, htag'⟩, hend⟩
  · decide

/-- With a text that does not leave the scan in code, a literal loses the blank in front of its
first break. -/
theorem not_infix_tidy_written (ht : '\n' ∉ t.toList) (hbrace : '}' ∉ t.toList)
    (hmode : (Scan.start.run (t.toList ++ ['{'])).mode ≠ .code) :
    ¬ [' ', '\n'] <:+: (tidy {} (written name tag t " \n")).toList := by
  intro hinfix
  rw [tidy, String.toList_ofList] at hinfix
  obtain ⟨l, hl, hinside, hlast⟩ := exists_line_of_blank_break rfl (by decide) (by decide) hinfix
  have hmode' := mode_run_front hname htag hbrace
  have hskip := @skip_run_front name tag t hname htag
  rw [Scan.run_append_break] at hmode' hskip
  rw [← hmode'] at hmode
  have hout := Scan.after_backtick_blank _ _ hmode hskip
  rw [toList_written_blank, linesOf_joinWith_break _ (by simp [blankLines])
    (not_mem_break_blankLines hname htag ht)] at hl
  simp only [blankLines, Scan.flagged, List.cons_append, List.nil_append, List.mem_cons,
    List.not_mem_nil, or_false] at hl
  rcases hl with rfl | rfl | rfl | rfl | rfl
  · rw [getLast?_header] at hlast
    cases hlast
  · simp only [hout] at hinside
    cases hinside
  · rw [getLast?_closing] at hlast
    cases hlast
  · cases hlast
  · cases hlast

theorem kept_of_code {q : String} (ht : '}' ∉ t.toList) (hq : Verbatim q.toList)
    (hopen : '\n' ∈ q.toList → (Scan.start.run (t.toList ++ ['{'])).mode = .code) :
    Kept name tag t q := by
  refine ⟨_, outcome_document name tag t q, ?_⟩
  rw [tidy, String.toList_ofList, toList_written]
  refine literal_infix_tidyChars _ _ _ _ hq fun hbroken => ⟨?_, skip_run_front hname htag⟩
  rw [mode_run_front hname htag ht, hopen hbroken]

/-- Contents that are not kept behind a text that does not leave the scan in code. -/
theorem not_kept_blank (ht : '\n' ∉ t.toList) (hbrace : '}' ∉ t.toList)
    (hmode : (Scan.start.run (t.toList ++ ['{'])).mode ≠ .code) : ¬ Kept name tag t " \n" := by
  rintro ⟨c, hc, hinfix⟩
  have hcode := Except.ok.inj ((outcome_document name tag t " \n").symm.trans hc)
  have hblank : [' ', '\n'] <:+: '\x60' :: " \n".toList ++ ['\x60'] := ⟨['\x60'], ['\x60'], rfl⟩
  rw [← hcode] at hinfix
  exact not_infix_tidy_written hname htag ht hbrace hmode (hblank.trans hinfix)

end Quiet

/-! ## All contents -/

theorem verbatim_blank : Verbatim " \n".toList := ⟨by decide, by decide, by decide⟩

/-- Literals on one line are kept. All of them are kept exactly if the text in front of the literal,
up to the brace, leaves the scan of the tidying in code: if no string, template or comment seems to
be open there. -/
theorem kept_iff {name tag t : String} (hname : name.toList.all isQuiet = true)
    (htag : tag.toList.all isQuiet = true) (ht : ∀ c ∈ ['\n', '<', '>', '{', '}'], c ∉ t.toList) :
    (∀ q : String, Verbatim q.toList → '\n' ∉ q.toList → Kept name tag t q) ∧
      ((∀ q : String, Verbatim q.toList → Kept name tag t q) ↔
        (Scan.start.run (t.toList ++ ['{'])).mode = .code) := by
  have hbreak : '\n' ∉ t.toList := ht '\n' (by simp)
  have hbrace : '}' ∉ t.toList := ht '}' (by simp)
  refine ⟨fun q hq hline => kept_of_code hname htag hbrace hq fun hbroken => absurd hbroken hline,
    fun hall => ?_, fun hmode q hq => kept_of_code hname htag hbrace hq fun _ => hmode⟩
  by_contra hmode
  exact not_kept_blank hname htag hbreak hbrace hmode (hall _ verbatim_blank)

def airy : String := "a   \n\n\n\nb"

theorem verbatim_airy : Verbatim airy.toList :=
  ⟨by decide, by decide, fun h => absurd (h.subset List.mem_cons_self) (by decide)⟩

theorem kept_iff_plain_text :
    (Scan.start.run ("Do not ".toList ++ ['{'])).mode = .code ∧ Kept "f" "p" "Do not " airy := by
  have ht : ∀ c ∈ ['\n', '<', '>', '{', '}'], c ∉ "Do not ".toList := by simp
  exact ⟨rfl, (kept_iff rfl rfl ht).2.mpr rfl airy verbatim_airy⟩

/-- An apostrophe in the text is taken for an open string, and the contents of the literal are
tidied. -/
theorem not_kept_behind_apostrophe :
    Verbatim airy.toList ∧ (∀ c ∈ ['\n', '<', '>', '{', '}'], c ∉ "Don't ".toList) ∧
      (compileDocument {} {} {} none (document "f" "p" "Don't " airy)).outcome =
        .ok ⟨"function f() \x7b\n    return <p>Don't \x7b\x60a\n\nb\x60\x7d</p>;\n\x7d\n", [],
          none⟩ ∧
      ¬ Kept "f" "p" "Don't " airy := by
  have htidied : tidy {} (written "f" "p" "Don't " airy) =
      "function f() \x7b\n    return <p>Don't \x7b\x60a\n\nb\x60\x7d</p>;\n\x7d\n" :=
        by decide +kernel
  have houtcome := outcome_document "f" "p" "Don't " airy
  rw [htidied] at houtcome
  have hlost : ¬ '\x60' :: airy.toList ++ ['\x60'] <:+:
      "function f() \x7b\n    return <p>Don't \x7b\x60a\n\nb\x60\x7d</p>;\n\x7d\n".toList :=
        by decide +kernel
  refine ⟨verbatim_airy, by simp, houtcome, ?_⟩
  rintro ⟨c, hc, hinfix⟩
  rw [← Except.ok.inj (houtcome.symm.trans hc)] at hinfix
  exact hlost hinfix

end Template

end Scriptwright
