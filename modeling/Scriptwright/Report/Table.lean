import Scriptwright.Report.Lines
import Scriptwright.Report.Mark

/-!
# Tables

Tables for the terminal, with a heavy frame around the headings and a light one around the rows. A
column is as wide as its widest cell, unless the table would be wider than the terminal: then the
widest columns give way. The title stands in the middle above the table, on several lines if it is
wider.
-/

namespace Scriptwright.Report

structure Table where
  title : String
  headings : List String
  rows : List (List String)

def terminalWidth : Nat := 300

/-! ## Widths -/

def total (ns : List Nat) : Nat := ns.foldl (· + ·) 0

/-- The nearest whole number to a quotient, of two the even one. -/
def nearest (n d : Nat) : Nat :=
  if 2 * (n % d) < d ∨ (2 * (n % d) = d ∧ n / d % 2 = 0) then n / d else n / d + 1

/-- Takes `excess` from the widths that are `widest`, evenly and at most `most` from each; `count`
is how many there are. -/
def takeEvenly (widest most : Nat) : Nat → Nat → List Nat → List Nat
  | _, _, [] => []
  | excess, count, n :: ns =>
    if n = widest then
      let part := min most (nearest excess count)
      (n - part) :: takeEvenly widest most (excess - part) (count - 1) ns
    else n :: takeEvenly widest most excess count ns

/-- Narrows the widest columns down to the next ones, until all fit into a width. -/
def narrowed (width : Nat) : Nat → List Nat → List Nat
  | 0, ns => ns
  | fuel + 1, ns =>
    let excess := total ns - width
    if excess = 0 then ns
    else
      let widest := ns.foldl max 0
      let next := (ns.filter (· != widest)).foldl max 0
      narrowed width fuel
        (takeEvenly widest (min excess (widest - next)) excess (ns.filter (· == widest)).length ns)

def columnWidths : List (List (List Char)) → List Nat
  | [] => []
  | [row] => row.map measure
  | row :: rows => List.zipWith max (row.map measure) (columnWidths rows)

/-- The widths of columns with a blank on both sides of each cell, in a terminal with room for the
frame. -/
def paddedWidths (rows : List (List (List Char))) : List Nat :=
  let widths := (columnWidths rows).map (· + 2)
  let room := terminalWidth - (widths.length + 1)
  narrowed room (total widths) (widths.map (min room))

/-! ## Lines -/

/-- A text in the middle of a line; an odd blank goes to the right. -/
def centred (n : Nat) (cs : List Char) : List Char :=
  let free := n - Text.columns cs
  blanks (free / 2) ++ cs ++ blanks (free - free / 2)

/-- A line of the frame: `side` and `other` at the ends, `cross` between columns. -/
def rule (side line cross other : Char) (widths : List Nat) : List Char :=
  [side] ++ Text.joinWith [cross] (widths.map fun n => List.replicate n line) ++ [other]

def cellLine (mark : Char) (cells : List (List Char)) : List Char :=
  [mark] ++ Text.joinWith [mark] (cells.map fun cs => [' '] ++ cs ++ [' ']) ++ [mark]

def rowLines (mark : Char) (widths : List Nat) (cells : List (List Char)) : List (List Char) :=
  let columns := List.zipWith (fun n cs => (n, linesOf (n - 2) cs)) widths cells
  let height := columns.foldl (fun n column => max n column.2.length) 1
  (List.range height).map fun i =>
    cellLine mark (columns.map fun column => column.2.getD i (blanks (column.1 - 2)))

def Table.lines (t : Table) : Except Fault (List (List Char)) := do
  let headings := t.headings.map String.toList
  let rows ← t.rows.mapM fun r => r.mapM shown
  let widths := paddedWidths (headings :: rows)
  let whole := total widths + widths.length + 1
  return (broken whole t.title.toList).map (fun l => centred whole (Text.trimRight l)) ++
    [rule '┏' '━' '┳' '┓' widths] ++ rowLines '┃' widths headings ++
      [rule '┡' '━' '╇' '┩' widths] ++
    rows.flatMap (rowLines '│' widths) ++ [rule '└' '─' '┴' '┘' widths]

def Table.text (t : Table) : Except Fault String :=
  t.lines.map fun ls => String.ofList (ls.flatMap (· ++ ['\n']))

end Scriptwright.Report
