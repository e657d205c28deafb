import Scriptwright.Source.Template

/-!
# Tidy source text

Cleans up white space: blanks at line ends, runs of blank lines, blank lines at both ends of the
text. Nothing is indented or wrapped anew, and what belongs to a template literal stays as it is.
-/

namespace Scriptwright.Source

structure TidyOptions where
  finalNewline : Bool := true
  trimEnds : Bool := true
  maxBlankLines : Int := 1
deriving DecidableEq, Repr

/-- A line, and whether its start and its end are inside a template literal. -/
structure Line where
  text : List Char
  startsInside : Bool
  endsInside : Bool
deriving DecidableEq, Repr

namespace Line

def isBlank (l : Line) : Bool := l.text.all Text.isBlank

/-- Without blanks at the end, unless the line goes on in a template literal. -/
def trimmed (l : Line) : Line :=
  if l.endsInside then l else { l with text := Text.trimRight l.text }

end Line

def linesOf (text : List Char) : List Line :=
  let breaks := templateBreaks text
  ((Text.splitAt '\n' text).zip ((false :: breaks).zip (breaks ++ [false]))).map fun l =>
    ⟨l.1, l.2.1, l.2.2⟩

/-- Keeps no more than `most` of the blank lines in a row that start outside templates; `seen` of
the current row have gone by. -/
def limitBlanks (most : Int) (seen : Nat) : List Line → List Line
  | [] => []
  | l :: ls =>
    if l.isBlank && !l.startsInside then
      if (seen + 1 : Int) ≤ most then l :: limitBlanks most (seen + 1) ls
        else limitBlanks most (seen + 1) ls
    else l :: limitBlanks most 0 ls

def dropBlankEnds (ls : List Line) : List Line :=
  ((ls.dropWhile Line.isBlank).reverse.dropWhile Line.isBlank).reverse

def tidyLines (o : TidyOptions) (ls : List Line) : List Line :=
  dropBlankEnds (limitBlanks o.maxBlankLines 0 (if o.trimEnds then ls.map Line.trimmed else ls))

def tidyChars (o : TidyOptions) (text : List Char) : List Char :=
  match tidyLines o (linesOf text) with
  | [] => []
  | ls => Text.joinWith ['\n'] (ls.map Line.text) ++ if o.finalNewline then ['\n'] else []

def tidy (o : TidyOptions) (text : String) : String := String.ofList (tidyChars o text.toList)

end Scriptwright.Source
