import Scriptwright.Yaml.Token

/-!
# From text to tokens

Indentation is made explicit: collections without brackets get tokens where they start and end. A
key before a colon is recognised only at the colon, so places where a key may have started are
remembered, one for each level of brackets, and the tokens for it are put in afterwards. Such a key
must end on its own line and within 1024 characters.
-/

namespace Scriptwright.Yaml

/-- A place where a key may have started; `number` is the token it would stand before. -/
structure KeyPlace where
  number : Nat
  needed : Bool
  index : Nat
  line : Nat
  column : Nat

structure Lexer where
  cursor : Cursor
  /-- The tokens so far, the last one first. -/
  tokens : List Token
  count : Nat
  indent : Int
  indents : List Int
  flow : Nat
  keyAllowed : Bool
  places : List (Nat × KeyPlace)

namespace Lexer

def start (text : List Char) : Lexer := ⟨Cursor.ofText text, [], 0, -1, [], 0, true, []⟩

def inFlow (s : Lexer) : Bool := s.flow != 0

def push (s : Lexer) (t : Token) : Lexer := { s with tokens := t :: s.tokens, count := s.count + 1 }

def take (s : Lexer) (n : Nat) (t : Token) : Lexer := { s.push t with cursor := s.cursor.advance n }

/-! ## Key places -/

def isStale (s : Lexer) (k : KeyPlace) : Bool :=
  k.line != s.cursor.line || 1024 < s.cursor.index - k.index

def dropStale (s : Lexer) : Except Trouble Lexer :=
  if s.places.any fun p => s.isStale p.2 && p.2.needed then .error .malformed
  else .ok { s with places := s.places.filter fun p => !s.isStale p.2 }

def dropPlace (s : Lexer) : Except Trouble Lexer :=
  match s.places.lookup s.flow with
  | none => .ok s
  | some k =>
    if k.needed then .error .malformed
      else .ok { s with places := s.places.filter fun p => p.1 != s.flow }

def savePlace (s : Lexer) : Except Trouble Lexer :=
  if s.keyAllowed then do
    let needed := !s.inFlow && s.indent == s.cursor.column
    let s ← s.dropPlace
    let k : KeyPlace := ⟨s.count, needed, s.cursor.index, s.cursor.line, s.cursor.column⟩
    return { s with places := (s.flow, k) :: s.places }
  else .ok s

/-! ## Indentation -/

def unwind (column : Int) : Nat → Lexer → Lexer
  | 0, s => s
  | fuel + 1, s =>
    if !s.inFlow && column < s.indent then
      unwind column fuel
        { s.push .blockEnd with indent := s.indents.headD (-1), indents := s.indents.tail }
    else s

def unwindTo (s : Lexer) (column : Int) : Lexer := unwind column (s.indents.length + 1) s

def indentTo (s : Lexer) (column : Nat) : Lexer × Bool :=
  if s.indent < column then ({ s with indent := column, indents := s.indent :: s.indents }, true)
    else (s, false)

/-- Starts a collection at the cursor, if it is the first of its indentation. -/
def openBlock (s : Lexer) (t : Token) : Lexer :=
  let (s', opened) := s.indentTo s.cursor.column
  if opened then s'.push t else s'

/-! ## Single tokens -/

/-- To the next token, over blanks, comments and line breaks. Behind a line break a key may start.
-/
def toNextToken : Nat → Lexer → Lexer
  | 0, s => s
  | fuel + 1, s =>
    let c := s.cursor.skipBlanks.skipComment
    match c.lineBreak? with
    | some (_, c') => toNextToken fuel
        { s with cursor := c', keyAllowed := s.keyAllowed || !s.inFlow }
    | none => { s with cursor := c }

def skipMark (s : Lexer) : Lexer :=
  if s.cursor.index = 0 ∧ s.cursor.peek.toNat = 0xFEFF then { s with cursor := s.cursor.next }
    else s

def endStream (s : Lexer) : Except Trouble Lexer := do
  let s ← (s.unwindTo (-1)).dropPlace
  return { s.push .streamEnd with keyAllowed := false, places := [] }

def takeDirective (s : Lexer) : Except Trouble Lexer := do
  let s ← (s.unwindTo (-1)).dropPlace
  let (d, c) ← directive s.cursor
  return { s.push (.directive d) with keyAllowed := false, cursor := c }

def takeMarker (s : Lexer) (t : Token) : Except Trouble Lexer := do
  let s ← (s.unwindTo (-1)).dropPlace
  return { s.take 3 t with keyAllowed := false }

def openFlow (s : Lexer) (t : Token) : Except Trouble Lexer := do
  let s ← s.savePlace
  return { s.take 1 t with flow := s.flow + 1, keyAllowed := true }

def closeFlow (s : Lexer) (t : Token) : Except Trouble Lexer := do
  let s ← s.dropPlace
  return { s.take 1 t with flow := s.flow - 1, keyAllowed := false }

def takeFlowEntry (s : Lexer) : Except Trouble Lexer := do
  let s ← s.dropPlace
  return { s.take 1 .flowEntry with keyAllowed := true }

def takeBlockEntry (s : Lexer) : Except Trouble Lexer := do
  if !s.inFlow && !s.keyAllowed then throw .malformed
  let s := if s.inFlow then s else s.openBlock .blockSequenceStart
  let s ← s.dropPlace
  return { s.take 1 .blockEntry with keyAllowed := true }

def takeKey (s : Lexer) : Except Trouble Lexer := do
  if !s.inFlow && !s.keyAllowed then throw .malformed
  let s := if s.inFlow then s else s.openBlock .blockMappingStart
  let s ← s.dropPlace
  return { s.take 1 .key with keyAllowed := !s.inFlow }

def insertKey (s : Lexer) (k : KeyPlace) : Lexer :=
  let (s, opened) := if s.inFlow then (s, false) else s.indentTo k.column
  let added := if opened then [Token.key, .blockMappingStart] else [.key]
  let (later, earlier) := s.tokens.splitAt (s.count - k.number)
  { s with
    tokens := later ++ added ++ earlier
    count := s.count + added.length
    places := s.places.filter fun p => p.1 != s.flow }

def takeValue (s : Lexer) : Except Trouble Lexer :=
  match s.places.lookup s.flow with
  | some k => .ok { (s.insertKey k).take 1 .value with keyAllowed := false }
  | none => do
    if !s.inFlow && !s.keyAllowed then throw .malformed
    let s := if s.inFlow then s else s.openBlock .blockMappingStart
    let s ← s.dropPlace
    return { s.take 1 .value with keyAllowed := !s.inFlow }

def takeContent (s : Lexer) (read : Cursor → Except Trouble (Token × Cursor)) :
    Except Trouble Lexer := do
  let s ← s.savePlace
  let (t, c) ← read s.cursor
  return { s.push t with cursor := c, keyAllowed := false }

def takeBlockScalar (s : Lexer) : Except Trouble Lexer := do
  let s ← s.dropPlace
  let (text, c) ← blockScalar s.indent s.cursor
  return { s.push (.scalar text false) with cursor := c, keyAllowed := true }

def takePlain (s : Lexer) : Except Trouble Lexer := do
  let s ← s.savePlace
  let (text, crossed, c) := plainScalar s.inFlow s.indent s.cursor
  return { s.push (.scalar text true) with cursor := c, keyAllowed := crossed }

def takeToken (s : Lexer) : Except Trouble Lexer :=
  let c := s.cursor
  let ch := c.peek
  let gapFollows := isGap (c.peekAt 1)
  if ch == '%' && c.column == 0 then s.takeDirective
  else if c.column == 0 && c.atMarker '-' then s.takeMarker .documentStart
  else if c.column == 0 && c.atMarker '.' then s.takeMarker .documentEnd
  else if ch == '[' then s.openFlow .flowSequenceStart
  else if ch == '{' then s.openFlow .flowMappingStart
  else if ch == ']' then s.closeFlow .flowSequenceEnd
  else if ch == '}' then s.closeFlow .flowMappingEnd
  else if ch == ',' then s.takeFlowEntry
  else if ch == '-' && gapFollows then s.takeBlockEntry
  else if ch == '?' && (s.inFlow || gapFollows) then s.takeKey
  else if ch == ':' && (s.inFlow || gapFollows) then s.takeValue
  else if ch == '*' then s.takeContent fun c => (anchorName c).map fun p => (.alias p.1, p.2)
  else if ch == '&' then s.takeContent fun c => (anchorName c).map fun p => (.anchor p.1, p.2)
  else if ch == '!' then s.takeContent fun c => (tagParts c).map fun p => (.tag p.1 p.2.1, p.2.2)
  else if (ch == '|' || ch == '>') && !s.inFlow then s.takeBlockScalar
  else if ch == '\'' || ch == '"' then
    s.takeContent fun c => (quotedScalar c).map fun p => (.scalar p.1 false, p.2)
  else if startsPlain s.inFlow c then s.takePlain
  else .error .malformed

/-- The tokens that are sure to stay as they are: no key can start at one of them or before. -/
def settled (s : Lexer) : List Token :=
  let places := s.places.filter fun p => !s.isStale p.2
  let sure := places.foldl (fun n p => min n p.2.number) s.count
  (s.tokens.drop (s.count - sure)).reverse

def step (s : Lexer) : Except Trouble (Lexer × Bool) := do
  let s ← (toNextToken (s.cursor.left + 1) s.skipMark).dropStale
  let s := s.unwindTo s.cursor.column
  if isEnd s.cursor.peek then return (← s.endStream, true)
  return (← s.takeToken, false)

/-- All tokens from here on. Where the text cannot be read, those that were settled before it. -/
def run : Nat → Lexer → List Token × Option Trouble
  | 0, s => (s.settled, some .malformed)
  | fuel + 1, s =>
    match s.step with
    | .error e => (s.settled, some e)
    | .ok (s, true) => (s.tokens.reverse, none)
    | .ok (s, false) => run fuel s

end Lexer

def tokens (text : List Char) : List Token × Option Trouble :=
  if text.all isReadable then Lexer.run (text.length + 2) (Lexer.start text)
    else ([], some .malformed)

end Scriptwright.Yaml
