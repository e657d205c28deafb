import Scriptwright.Yaml.Cursor

/-!
# Quoted scalars

Scalars in single or double quotation marks. A line break inside one reads as a blank, and blank
lines as line breaks. In double quotation marks a backslash starts an escape.
-/

namespace Scriptwright.Yaml

def escapes : List (Char × Char) :=
  [('0', '\x00'), ('a', '\x07'), ('b', '\x08'), ('t', '\t'), ('\t', '\t'), ('n', '\n'),
    ('v', '\x0b'), ('f', '\x0c'), ('r', '\r'), ('e', '\x1b'), (' ', ' '), ('"', '"'), ('\\', '\\'),
    ('/', '/'), ('N', '\u0085'), ('_', '\u00a0'), ('L', '\u2028'), ('P', '\u2029')]

def escapeLength? (c : Char) : Option Nat :=
  if c == 'x' then some 2 else if c == 'u' then some 4 else if c == 'U' then some 8 else none

def codePoint (count : Nat) (c : Cursor) : Except Trouble (Nat × Cursor) :=
  let ds := c.rest.take count
  if ds.length = count ∧ ds.all isHexDigit then .ok (numeral 16 ds, c.advance count)
    else .error .malformed

def lowHalf? (c : Cursor) : Option (Nat × Cursor) :=
  if c.peek == '\\' && c.peekAt 1 == 'u' then
    match codePoint 4 (c.advance 2) with
    | .ok (n, c') => if 0xDC00 ≤ n ∧ n ≤ 0xDFFF then some (n, c') else none
    | .error _ => none
  else none

/-- The character of a code point, of which there are none beyond the last plane. -/
def charOf (n : Nat) (c : Cursor) : Except Trouble (Char × Cursor) :=
  if 0x7FFFFFFF < n then .error (.fault .tooLarge)
  else if 0x10FFFF < n then .error (.fault .badValue)
  else if 0xD800 ≤ n ∧ n ≤ 0xDBFF then
    match lowHalf? c with
    | some (low, c') => .ok (Char.ofNat (0x10000 + (n - 0xD800) * 0x400 + (low - 0xDC00)), c')
    | none => .error (.fault .unpaired)
  else if 0xDC00 ≤ n ∧ n ≤ 0xDFFF then .error (.fault .unpaired)
  else .ok (Char.ofNat n, c)

/-- Line breaks inside a quoted scalar; a document marker must not stand among them. -/
def quotedBreaks : Nat → Cursor → Except Trouble (List Char × Cursor)
  | 0, _ => .error .malformed
  | fuel + 1, c =>
    if c.atSeparator then .error .malformed
    else
      let c := c.skip fun ch => ch == ' ' || ch == '\t'
      match c.lineBreak? with
      | some (ch, c') => (quotedBreaks fuel c').map fun p => (ch :: p.1, p.2)
      | none => .ok ([], c)

def folded (first : Char) (more : List Char) : List Char :=
  if first != '\n' then first :: more else if more.isEmpty then [' '] else more

def escape (c : Cursor) : Except Trouble (List Char × Cursor) :=
  match escapes.lookup c.peek with
  | some ch => .ok ([ch], c.next)
  | none =>
    match escapeLength? c.peek with
    | some count => do
      let (n, c') ← codePoint count c.next
      let (ch, c'') ← charOf n c'
      return ([ch], c'')
    | none =>
      match c.lineBreak? with
      | some (_, c') => quotedBreaks (c'.left + 1) c'
      | none => .error .malformed

def quotedGap (c : Cursor) : Except Trouble (List Char × Cursor) :=
  let (blanks, c) := c.span fun ch => ch == ' ' || ch == '\t'
  if isEnd c.peek then .error .malformed
  else
    match c.lineBreak? with
    | some (ch, c') => (quotedBreaks (c'.left + 1) c').map fun p => (folded ch p.1, p.2)
    | none => .ok (blanks, c)

def isQuotedChar (c : Char) : Bool := !(c == '\'' || c == '"' || c == '\\' || isGap c)

def quotedRest (mark : Char) : Nat → Cursor → Except Trouble (List Char × Cursor)
  | 0, _ => .error .malformed
  | fuel + 1, c =>
    let ch := c.peek
    let double := mark == '"'
    let more (cs : List Char) (c : Cursor) : Except Trouble (List Char × Cursor) :=
      (quotedRest mark fuel c).map fun p => (cs ++ p.1, p.2)
    if isQuotedChar ch then
      let (cs, c') := c.span isQuotedChar
      more cs c'
    else if !double && ch == '\'' && c.peekAt 1 == '\'' then more ['\''] (c.advance 2)
    else if ch == mark then .ok ([], c.next)
    else if (double && ch == '\'') || (!double && (ch == '"' || ch == '\\')) then more [ch] c.next
    else if double && ch == '\\' then
      match escape c.next with
      | .ok (cs, c') => more cs c'
      | .error e => .error e
    else
      match quotedGap c with
      | .ok (cs, c') => more cs c'
      | .error e => .error e

def quotedScalar (c : Cursor) : Except Trouble (String × Cursor) :=
  (quotedRest c.peek (c.left + 1) c.next).map fun p => (String.ofList p.1, p.2)

end Scriptwright.Yaml
