import Scriptwright.Text.Blank
import Scriptwright.Text.Glyph

/-!
# Texts in lines

A text in a column of given width: tabs become blanks, lines that are too long are broken between
words, and a word that is too long ends in dots.
-/

namespace Scriptwright.Report

def blanks (n : Nat) : List Char := List.replicate n ' '

def endsMeasure (c : Char) : Bool :=
  c == '\n' || (0x1C ≤ c.toNat && c.toNat ≤ 0x1E) || c.toNat == 0x85 || c.toNat == 0x2028 ||
    c.toNat == 0x2029

def measure (cs : List Char) : Nat :=
  let lines := Text.splitAt '\n' (cs.map fun c => if endsMeasure c then '\n' else c)
  lines.foldl (fun n line => max n (Text.columns line)) 0

/-- The pieces of a line between its tabs, put together from a column on. A tab is a blank, with
more of them up to the next multiple of eight columns. -/
def expandTabs (column : Nat) : List (List Char) → List Char
  | [] => []
  | [piece] => piece
  | piece :: pieces =>
    let piece := piece ++ [' ']
    let column := column + Text.columns piece
    let gap := (8 - column % 8) % 8
    piece ++ blanks gap ++ expandTabs (column + gap) pieces

/-- The words of a line, each with the blanks behind it, the first one also with those in front of
it. -/
def wordsOf : Nat → List Char → List (List Char)
  | 0, _ => []
  | fuel + 1, cs =>
    let (lead, rest) := cs.span Text.isBlank
    let (word, rest) := rest.span fun c => !Text.isBlank c
    let (tail, rest) := rest.span Text.isBlank
    if word.isEmpty then [] else (lead ++ word ++ tail) :: wordsOf fuel rest

/-- Puts words into lines of a width. `line` is what the current one holds and `column` where it
ends. -/
def fill (width column : Nat) (line : List Char) : List (List Char) → List (List Char)
  | [] => [line]
  | w :: ws =>
    let size := Text.columns (Text.trimRight w)
    if column + size ≤ width then fill width (column + Text.columns w) (line ++ w) ws
    else if line.isEmpty then fill width (Text.columns w) w ws
    else line :: fill width (Text.columns w) w ws

/-- A line broken into lines of a width. A line of blanks has no words and is not broken. -/
def broken (width : Nat) (cs : List Char) : List (List Char) :=
  match wordsOf (cs.length + 1) cs with
  | [] => [cs]
  | ws => fill width 0 [] ws

def withoutEnd (size : Nat) (cs : List Char) : List Char :=
  let spare := cs.length - (Text.trimRight cs).length
  cs.take (cs.length - min spare (cs.length - size))

def cropped (width : Nat) : List Text.Glyph → List Char
  | [] => []
  | g :: gs => if 0 < width && g.columns ≤ width then g.chars ++ cropped (width - g.columns) gs
      else blanks width

/-- A line that is too wide ends in dots. -/
def fitted (width : Nat) (cs : List Char) : List Char :=
  if Text.columns cs ≤ width then cs else cropped (width - 1) (Text.glyphs cs) ++ ['…']

def filled (width : Nat) (cs : List Char) : List Char := cs ++ blanks (width - Text.columns cs)

/-- The lines of a text in a column of a width. They are filled up twice, since a joiner at the end
of a line takes the first blank for itself. -/
def linesOf (width : Nat) (cs : List Char) : List (List Char) :=
  (Text.splitAt '\n' cs).flatMap fun line =>
    (broken width (expandTabs 0 (Text.splitAt '\t' line))).map fun l =>
      filled width (filled width (fitted width (withoutEnd width l)))

end Scriptwright.Report
