import Scriptwright.Fault
import Scriptwright.Number.Decimal

/-!
# Reading positions

A cursor is a place in a text: what is still to be read, how many characters have gone by, and the
line and column. A byte order mark takes no column. At the end of the text a cursor shows the null
character, which no text contains.
-/

namespace Scriptwright.Yaml

/-- Why a text could not be read: it is malformed, or it spells a value that does not exist. -/
inductive Trouble where
  | malformed
  | fault (f : Fault)
deriving DecidableEq, Repr

def isReadable (c : Char) : Bool :=
  let n := c.toNat
  n == 0x9 || n == 0xA || n == 0xD || (0x20 ≤ n && n ≤ 0x7E) || n == 0x85 ||
    (0xA0 ≤ n && n ≤ 0xD7FF) ||
    (0xE000 ≤ n && n ≤ 0xFFFD) || 0x10000 ≤ n

def isBreak (c : Char) : Bool :=
  c == '\n' || c == '\r' || c.toNat == 0x85 || c.toNat == 0x2028 || c.toNat == 0x2029

def isEnd (c : Char) : Bool := c == '\x00'

def endsLine (c : Char) : Bool := isEnd c || isBreak c

def endsWord (c : Char) : Bool := c == ' ' || endsLine c

def isGap (c : Char) : Bool := c == '\t' || endsWord c

/-- Characters of anchors, tag handles and directive names. -/
def isNameChar (c : Char) : Bool := c.isAlphanum || c == '-' || c == '_'

def isHexDigit (c : Char) : Bool := c.isDigit || ('a' ≤ c && c ≤ 'f') || ('A' ≤ c && c ≤ 'F')

def hexValue (c : Char) : Nat :=
  if c.isDigit then c.toNat - '0'.toNat else if 'a' ≤ c then c.toNat - 'a'.toNat + 10
    else c.toNat - 'A'.toNat + 10

def numeral (base : Nat) (cs : List Char) : Nat := cs.foldl (fun n c => n * base + hexValue c) 0

structure Cursor where
  rest : List Char
  index : Nat
  line : Nat
  column : Nat
  size : Nat

namespace Cursor

def ofText (text : List Char) : Cursor := ⟨text, 0, 0, 0, text.length⟩

def left (c : Cursor) : Nat := c.size - c.index

def peekAt (c : Cursor) (n : Nat) : Char := c.rest.getD n '\x00'

def peek (c : Cursor) : Char := c.rest.headD '\x00'

/-- One character further. A line feed belongs to the carriage return in front of it. -/
def next (c : Cursor) : Cursor :=
  match c.rest with
  | [] => c
  | ch :: cs =>
    if isBreak ch && !(ch == '\r' && cs.head? == some '\n') then
      { c with rest := cs, index := c.index + 1, line := c.line + 1, column := 0 }
    else
      { c with rest := cs, index := c.index + 1, column := if ch.toNat == 0xFEFF then c.column
        else c.column + 1 }

def advance : Nat → Cursor → Cursor
  | 0, c => c
  | n + 1, c => advance n c.next

def span (c : Cursor) (p : Char → Bool) : List Char × Cursor :=
  let cs := c.rest.takeWhile p
  (cs, c.advance cs.length)

def skip (c : Cursor) (p : Char → Bool) : Cursor := (c.span p).2

def skipBlanks (c : Cursor) : Cursor := c.skip (· == ' ')

def skipComment (c : Cursor) : Cursor := if c.peek == '#' then c.skip fun ch => !endsLine ch else c

/-- The line break at the cursor, which reads as a line feed unless it is one of the two separators.
-/
def lineBreak? (c : Cursor) : Option (Char × Cursor) :=
  let ch := c.peek
  if ch == '\r' && c.peekAt 1 == '\n' then some ('\n', c.advance 2)
  else if ch == '\r' || ch == '\n' || ch.toNat == 0x85 then some ('\n', c.next)
  else if isBreak ch then some (ch, c.next)
  else none

def atMarker (c : Cursor) (mark : Char) : Bool :=
  c.peek == mark && c.peekAt 1 == mark && c.peekAt 2 == mark && isGap (c.peekAt 3)

def atSeparator (c : Cursor) : Bool := c.atMarker '-' || c.atMarker '.'

/-- Line breaks and, before and between them, characters that pass a test. -/
def breaks (p : Cursor → Bool) : Nat → Cursor → List Char × Cursor
  | 0, c => ([], c)
  | fuel + 1, c =>
    if p c then breaks p fuel c.next
    else
      match c.lineBreak? with
      | some (ch, c') =>
        let (chs, last) := breaks p fuel c'
        (ch :: chs, last)
      | none => ([], c)

end Cursor

end Scriptwright.Yaml
