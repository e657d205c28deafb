import Scriptwright.Yaml.Cursor

/-!
# Block scalars

Scalars whose lines are set off by indentation. A literal scalar keeps its line breaks; a folded one
joins lines that do not start with a blank. The header says how far the text is indented and what
becomes of the last line breaks.
-/

namespace Scriptwright.Yaml

inductive Chomp where
  | clip
  | strip
  | keep
deriving DecidableEq, Repr

structure BlockHeader where
  chomp : Chomp
  increment : Option Nat

def chompOf? (c : Char) : Option Chomp :=
  if c == '+' then some .keep else if c == '-' then some .strip else none

/-- A digit that gives the indentation; zero gives none. -/
def increment? (c : Cursor) : Except Trouble (Option Nat × Cursor) :=
  if c.peek.isDigit then
    if c.peek == '0' then .error .malformed else .ok (some (hexValue c.peek), c.next)
  else .ok (none, c)

def blockIndicators (c : Cursor) : Except Trouble (BlockHeader × Cursor) := do
  let (header, c) ← match chompOf? c.peek with
    | some chomp => (increment? c.next).map fun p => (⟨chomp, p.1⟩, p.2)
    | none => (increment? c).map fun p =>
      match p.1, chompOf? p.2.peek with
      | some _, some chomp => (⟨chomp, p.1⟩, p.2.next)
      | _, _ => (⟨Chomp.clip, p.1⟩, p.2)
  if endsWord c.peek then return (header, c)
  throw .malformed

def ignoredLine (c : Cursor) : Except Trouble Cursor :=
  let c := c.skipBlanks.skipComment
  if isEnd c.peek then .ok c
  else
    match c.lineBreak? with
    | some (_, c') => .ok c'
    | none => .error .malformed

def leadingBreaks : Nat → Nat → Cursor → List Char × Nat × Cursor
  | 0, deepest, c => ([], deepest, c)
  | fuel + 1, deepest, c =>
    if c.peek == ' ' then leadingBreaks fuel (max deepest c.next.column) c.next
    else
      match c.lineBreak? with
      | none => ([], deepest, c)
      | some (ch, c') =>
        let (more, rest) := leadingBreaks fuel deepest c'
        (ch :: more, rest)

def blockBreaks (indent : Int) (c : Cursor) : List Char × Cursor :=
  c.breaks (fun d => decide ((d.column : Int) < indent) && d.peek == ' ') (c.left + 1)

def inBlock (indent : Int) (c : Cursor) : Bool :=
  decide ((c.column : Int) = indent) && !isEnd c.peek

def isTextBlank (c : Char) : Bool := c == ' ' || c == '\t'

/-- The text of the lines from the cursor on, the last line break, and the empty lines behind it. -/
def blockLines (fold : Bool) (indent : Int) :
    Nat → List Char → Cursor → List Char × List Char × List Char × Cursor
  | 0, breaks, c => ([], [], breaks, c)
  | fuel + 1, breaks, c =>
    if inBlock indent c then
      let flush := !isTextBlank c.peek
      let (line, c) := c.span fun ch => !endsLine ch
      let (ending, c) := match c.lineBreak? with
        | some (ch, c') => ([ch], c')
        | none => ([], c)
      let (more, c) := blockBreaks indent c
      if inBlock indent c then
        let link :=
          if fold && ending == ['\n'] && flush && !isTextBlank c.peek then
            (if more.isEmpty then [' '] else [])
          else ending
        let (text, last) := blockLines fold indent fuel more c
        (breaks ++ line ++ link ++ text, last)
      else (breaks ++ line, ending, more, c)
    else ([], [], breaks, c)

/-- A block scalar, of which the mark is at the cursor, inside a collection with the given
indentation. -/
def blockScalar (indent : Int) (c : Cursor) : Except Trouble (String × Cursor) := do
  let fold := c.peek == '>'
  let (header, c) ← blockIndicators c.next
  let c ← ignoredLine c
  let least := max (indent + 1) 1
  let (breaks, indent, c) : List Char × Int × Cursor := match header.increment with
    | none =>
      let (breaks, deepest, c) := leadingBreaks (c.left + 1) 0 c
      (breaks, max least deepest, c)
    | some n =>
      let level := least + n - 1
      let (breaks, c) := blockBreaks level c
      (breaks, level, c)
  let (text, ending, more, c) := blockLines fold indent (c.left + 1) breaks c
  let tail := match header.chomp with
    | .strip => []
    | .clip => ending
    | .keep => ending ++ more
  return (String.ofList (text ++ tail), c)

end Scriptwright.Yaml
