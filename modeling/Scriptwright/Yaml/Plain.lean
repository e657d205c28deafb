import Scriptwright.Yaml.Quoted

/-!
# Plain scalars

Scalars without quotation marks. One ends where something else begins: at a comment, at a colon with
a gap behind it, at a line that is not indented enough, and inside brackets at the marks of the
collection.
-/

namespace Scriptwright.Yaml

def startsPlain (flow : Bool) (c : Cursor) : Bool :=
  let ch := c.peek
  !(isGap ch || "-?:,[]\x7b\x7d#&*!|>'\"%@\x60".toList.contains ch) ||
    (!isGap (c.peekAt 1) && (ch == '-' || (!flow && (ch == '?' || ch == ':'))))

def isFlowMark (c : Char) : Bool := c == ',' || c == '[' || c == ']' || c == '{' || c == '}'

/-- The characters of a word: up to a gap, a colon with a gap behind it, or a mark of a collection.
-/
def plainWord (flow : Bool) : List Char → List Char
  | [] => []
  | ch :: cs =>
    let follower := cs.headD '\x00'
    if isGap ch || (ch == ':' && (isGap follower || (flow && isFlowMark follower))) ||
        (flow && (ch == '?' || isFlowMark ch)) then []
    else ch :: plainWord flow cs

/-- What stands between two words: the text it reads as and whether a line ended. Without text the
scalar ends. -/
structure PlainGap where
  text : List Char
  crossed : Bool
  cursor : Cursor

def plainBreaks : Nat → Cursor → Option (List Char) × Cursor
  | 0, c => (some [], c)
  | fuel + 1, c =>
    if c.peek == ' ' then plainBreaks fuel c.next
    else
      match c.lineBreak? with
      | none => (some [], c)
      | some (ch, c') =>
        if c'.atSeparator then (none, c')
        else
          let (more, last) := plainBreaks fuel c'
          (more.map (ch :: ·), last)

def plainGap (c : Cursor) : PlainGap :=
  let (blanks, c) := c.span (· == ' ')
  match c.lineBreak? with
  | none => ⟨blanks, false, c⟩
  | some (ch, c') =>
    if c'.atSeparator then ⟨[], true, c'⟩
    else
      match plainBreaks (c'.left + 1) c' with
      | (none, last) => ⟨[], true, last⟩
      | (some more, last) => ⟨folded ch more, true, last⟩

/-- The words of a plain scalar from `c` on, with the gap in front of them. The result is the text,
whether the last gap crossed a line, and the cursor behind that gap. -/
def plainWords (flow : Bool) (indent : Int) :
    Nat → List Char → Bool → Cursor → List Char × Bool × Cursor
  | 0, _, crossed, c => ([], crossed, c)
  | fuel + 1, before, crossed, c =>
    if c.peek == '#' then ([], crossed, c)
    else
      match plainWord flow c.rest with
      | [] => ([], crossed, c)
      | word =>
        let gap := plainGap (c.advance word.length)
        if gap.text.isEmpty || gap.cursor.peek == '#' ||
          (!flow && (gap.cursor.column : Int) < indent) then
          (before ++ word, gap.crossed, gap.cursor)
        else
          let (more, last) := plainWords flow indent fuel gap.text gap.crossed gap.cursor
          (before ++ word ++ more, last)

def plainScalar (flow : Bool) (indent : Int) (c : Cursor) : String × Bool × Cursor :=
  let (cs, last) := plainWords flow (indent + 1) (c.left + 1) [] false c
  (String.ofList cs, last)

end Scriptwright.Yaml
