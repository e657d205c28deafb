import Scriptwright.Text.Printable

/-!
# Quoted texts

Two ways to put a text in quotation marks. `shown` picks the mark that needs fewer escapes and is
used for values inside lists and mappings. `encoded` is the string form of data files: double
quotation marks, and escapes for the mark, the backslash and control characters only.
-/

namespace Scriptwright.Text

def hex (width n : Nat) : List Char :=
  let ds := Nat.toDigits 16 n
  List.replicate (width - ds.length) '0' ++ ds

/-! ## Shown -/

/-- The double mark is used for texts that hold the single mark and no double mark. -/
def markFor (cs : List Char) : Char :=
  if cs.contains '\'' && !cs.contains '"' then '"' else '\''

/-- A character beside the mark, with the shortest escape that holds it if it is not printable. -/
def shownChar (mark c : Char) : List Char :=
  if c == mark || c == '\\' then ['\\', c]
  else if c == '\t' then ['\\', 't']
  else if c == '\n' then ['\\', 'n']
  else if c == '\r' then ['\\', 'r']
  else if isPrintable c then [c]
  else if c.toNat < 0x100 then '\\' :: 'x' :: hex 2 c.toNat
  else if c.toNat < 0x10000 then '\\' :: 'u' :: hex 4 c.toNat
  else '\\' :: 'U' :: hex 8 c.toNat

def shownChars (cs : List Char) : List Char :=
  let mark := markFor cs
  mark :: cs.flatMap (shownChar mark) ++ [mark]

def shown (s : String) : String := String.ofList (shownChars s.toList)

/-- An octet of a byte string; everything outside ASCII is escaped. -/
def shownOctet (mark : Char) (o : UInt8) : List Char :=
  let c := Char.ofNat o.toNat
  if o.toNat < 127 then shownChar mark c else '\\' :: 'x' :: hex 2 o.toNat

def shownOctets (octets : List UInt8) : String :=
  let mark := markFor (octets.map fun o => Char.ofNat o.toNat)
  String.ofList ('b' :: mark :: octets.flatMap (shownOctet mark) ++ [mark])

/-! ## Encoded -/

def encodedChar (c : Char) : List Char :=
  if c = '"' then ['\\', '"']
  else if c = '\\' then ['\\', '\\']
  else if c = '\n' then ['\\', 'n']
  else if c = '\r' then ['\\', 'r']
  else if c = '\t' then ['\\', 't']
  else if c = '\x08' then ['\\', 'b']
  else if c = '\x0c' then ['\\', 'f']
  else if c.toNat < 0x20 then '\\' :: 'u' :: hex 4 c.toNat
  else [c]

def encodedChars (cs : List Char) : List Char := '"' :: cs.flatMap encodedChar ++ ['"']

def encoded (s : String) : String := String.ofList (encodedChars s.toList)

end Scriptwright.Text
