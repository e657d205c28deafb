import Scriptwright.Yaml.Block
import Scriptwright.Yaml.Plain

/-!
# Tokens

The tokens of a text, and how those with a content are read: anchors, aliases, tags and directives.
-/

namespace Scriptwright.Yaml

inductive Directive where
  | version (major : Nat)
  | tagHandle (handle lead : String)
  | other
deriving DecidableEq, Repr

inductive Token where
  | streamEnd
  | directive (d : Directive)
  | documentStart
  | documentEnd
  | blockSequenceStart
  | blockMappingStart
  | blockEnd
  | flowSequenceStart
  | flowSequenceEnd
  | flowMappingStart
  | flowMappingEnd
  | blockEntry
  | flowEntry
  | key
  | value
  | alias (name : String)
  | anchor (name : String)
  | tag (handle : Option String) (suffix : String)
  | scalar (text : String) (plain : Bool)
deriving DecidableEq, Repr

/-! ## Anchors -/

def anchorName (c : Cursor) : Except Trouble (String × Cursor) :=
  let (name, c) := c.next.span isNameChar
  if name.isEmpty then .error .malformed
  else if isGap c.peek || "?:,]\x7d%@\x60".toList.contains c.peek then .ok (String.ofList name, c)
  else .error .malformed

/-! ## Tags -/

def isUriChar (c : Char) : Bool := c.isAlphanum || "-;/?:@&=+$,_.!~*'()[]%".toList.contains c

def uriOctets : Nat → Cursor → Except Trouble (List UInt8 × Cursor)
  | 0, c => .ok ([], c)
  | fuel + 1, c =>
    if c.peek == '%' then do
      let (n, c') ← codePoint 2 c.next
      let (more, last) ← uriOctets fuel c'
      return (UInt8.ofNat n :: more, last)
    else .ok ([], c)

def uriChars : Nat → Cursor → Except Trouble (List Char × Cursor)
  | 0, c => .ok ([], c)
  | fuel + 1, c =>
    if c.peek == '%' then do
      let (octets, c') ← uriOctets (c.left + 1) c
      match String.fromUTF8? ⟨octets.toArray⟩ with
      | none => throw .malformed
      | some s =>
        let (more, last) ← uriChars fuel c'
        return (s.toList ++ more, last)
    else if isUriChar c.peek then do
      let (more, last) ← uriChars fuel c.next
      return (c.peek :: more, last)
    else .ok ([], c)

def tagUri (c : Cursor) : Except Trouble (String × Cursor) := do
  let (cs, c') ← uriChars (c.left + 1) c
  if c'.index = c.index then throw .malformed
  return (String.ofList cs, c')

/-- A handle: one mark, or a name between two. -/
def tagHandle (c : Cursor) : Except Trouble (String × Cursor) :=
  if c.peek != '!' then .error .malformed
  else if c.peekAt 1 == ' ' then .ok ("!", c.next)
  else
    let (name, c') := c.next.span isNameChar
    if c'.peek == '!' then .ok (String.ofList ('!' :: name ++ ['!']), c'.next)
      else .error .malformed

def tagParts (c : Cursor) : Except Trouble (Option String × String × Cursor) := do
  let (handle, suffix, c) ←
    if c.peekAt 1 == '<' then do
      let (uri, c) ← tagUri (c.advance 2)
      if c.peek != '>' then throw .malformed
      pure (none, uri, c.next)
    else if isGap (c.peekAt 1) then pure (none, "!", c.next)
    else if (c.rest.drop 1).takeWhile (fun ch => !endsWord ch) |>.contains '!' then do
      let (handle, c) ← tagHandle c
      let (suffix, c) ← tagUri c
      pure (some handle, suffix, c)
    else do
      let (suffix, c) ← tagUri c.next
      pure (some "!", suffix, c)
  if endsWord c.peek then return (handle, suffix, c)
  throw .malformed

/-! ## Directives -/

def digits (c : Cursor) : Except Trouble (Nat × Cursor) :=
  let (ds, c) := c.span Char.isDigit
  if ds.isEmpty then .error .malformed
  else if mostDigits < ds.length then .error (.fault .badValue)
  else .ok (numeral 10 ds, c)

/-- The value of a version directive, of which the major number counts. -/
def versionValue (c : Cursor) : Except Trouble (Directive × Cursor) := do
  let (major, c) ← digits c.skipBlanks
  if c.peek != '.' then throw .malformed
  let (_, c) ← digits c.next
  if endsWord c.peek then return (.version major, c)
  throw .malformed

def tagValue (c : Cursor) : Except Trouble (Directive × Cursor) := do
  let (handle, c) ← tagHandle c.skipBlanks
  if c.peek != ' ' then throw .malformed
  let (lead, c) ← tagUri c.skipBlanks
  if endsWord c.peek then return (.tagHandle handle lead, c)
  throw .malformed

def directive (c : Cursor) : Except Trouble (Directive × Cursor) := do
  let (name, c) := c.next.span isNameChar
  if name.isEmpty || !endsWord c.peek then throw .malformed
  let (d, c) ←
    if name == "YAML".toList then versionValue c
    else if name == "TAG".toList then tagValue c
    else pure (.other, c.skip fun ch => !endsLine ch)
  return (d, ← ignoredLine c)

end Scriptwright.Yaml
