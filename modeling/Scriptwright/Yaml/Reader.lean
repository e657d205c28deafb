import Scriptwright.Yaml.Lexer
import Scriptwright.Yaml.Node

/-!
# From tokens to nodes

Tokens are looked at one by one, and only as far as needed: what is wrong further on does not matter
to a reader that stops before it. A collection has its number before its parts are read, so its
anchor can be used inside it.
-/

namespace Scriptwright.Yaml

structure Reader where
  tokens : List Token
  trouble : Trouble
  handles : List (String × String)
  anchors : List (String × Nat)
  graph : Graph
  level : Nat

abbrev Reading := StateT Reader (Except Trouble)

namespace Reading

def malformed {α : Type} : Reading α := throw .malformed

def look : Reading Token := do
  let r ← get
  match r.tokens with
  | t :: _ => return t
  | [] => throw r.trouble

def drop : Reading Unit := modify fun r => { r with tokens := r.tokens.tail }

def expectToken (t : Token) : Reading Unit := do
  if (← look) == t then drop else malformed

def accept (t : Token) : Reading Bool := do
  if (← look) == t then
    drop
    return true
  return false

/-! ## Properties of a node -/

structure Properties where
  anchor : Option String
  tag : Option String

def resolveTag (handle : Option String) (suffix : String) : Reading String := do
  match handle with
  | none => return suffix
  | some h =>
    match (← get).handles.lookup h with
    | some lead => return lead ++ suffix
    | none => malformed

def anchorProperty : Reading (Option String) := do
  match ← look with
  | .anchor name =>
    drop
    return some name
  | _ => return none

def tagProperty : Reading (Option (Option String × String)) := do
  match ← look with
  | .tag handle suffix =>
    drop
    return some (handle, suffix)
  | _ => return none

def properties : Reading Properties := do
  let first ← anchorProperty
  let tag ← tagProperty
  let anchor ← if first.isNone && tag.isSome then anchorProperty else pure first
  match tag with
  | none => return ⟨anchor, none⟩
  | some (handle, suffix) => return ⟨anchor, some (← resolveTag handle suffix)⟩

def collectionTag (usual : Tag) : Option String → Tag
  | none => usual
  | some "!" => usual
  | some uri => Tag.ofUri uri

/-- The tag of a scalar: a plain one is looked at, and so is one with the tag that says nothing. -/
def scalarTag (plain : Bool) (text : String) : Option String → Tag
  | none => if plain then implicitTag text else .text
  | some "!" => implicitTag text
  | some uri => Tag.ofUri uri

def checkAnchor : Option String → Reading Unit
  | none => pure ()
  | some name => do if ((← get).anchors.lookup name).isSome then malformed

def aliased (name : String) : Reading Nat := do
  match (← get).anchors.lookup name with
  | some i => return i
  | none => malformed

/-! ## Nodes -/

def add (n : Node) : Reading Nat := do
  let i := (← get).graph.size
  modify fun r => { r with graph := r.graph.push n }
  return i

def addNamed (anchor : Option String) (n : Node) : Reading Nat := do
  let i ← add n
  match anchor with
  | none => pure ()
  | some name => modify fun r => { r with anchors := (name, i) :: r.anchors }
  return i

def mostLevels : Nat := 488

/-- A new collection, whose content is read after it has got its number. -/
def addCollection (p : Properties) (usual : Tag) (read : Reading Content) : Reading Nat := do
  let level := (← get).level
  if mostLevels ≤ level then throw (.fault .endless)
  let i ← addNamed p.anchor ⟨collectionTag usual p.tag, .scalar ""⟩
  modify fun r => { r with level := level + 1 }
  let content ← read
  modify fun r => { r with graph := r.graph.setContent i content, level := level }
  return i

/-- Where a node stands: in brackets, in a block, or in a block where a sequence needs no
indentation. -/
inductive Place where
  | flow
  | block
  | entry
deriving DecidableEq

mutual

def node (place : Place) : Nat → Reading Nat
  | 0 => malformed
  | fuel + 1 => do
    match ← look with
    | .alias name =>
      drop
      aliased name
    | _ => content place (← properties) fuel

def content (place : Place) (p : Properties) : Nat → Reading Nat
  | 0 => malformed
  | fuel + 1 => do
    let t ← look
    checkAnchor p.anchor
    match t, place with
    | .scalar text plain, _ =>
      drop
      addNamed p.anchor ⟨scalarTag plain text p.tag, .scalar text⟩
    | .flowSequenceStart, _ =>
      drop
      addCollection p .sequence do return .sequence (← flowItems true fuel)
    | .flowMappingStart, _ =>
      drop
      addCollection p .mapping do return .mapping (← flowEntries true fuel)
    | .blockEntry, .entry => addCollection p .sequence do return .sequence (← looseItems fuel)
    | _, _ =>
      if place != .flow && t == .blockSequenceStart then
        drop
        addCollection p .sequence do return .sequence (← blockItems fuel)
      else if place != .flow && t == .blockMappingStart then
        drop
        addCollection p .mapping do return .mapping (← blockEntries fuel)
      else if p.anchor.isSome || p.tag.isSome then
        addNamed p.anchor ⟨scalarTag true "" p.tag, .scalar ""⟩
      else malformed

/-- A node, or the empty scalar in front of one of some tokens. -/
def nodeUnless (place : Place) (stops : List Token) : Nat → Reading Nat
  | 0 => malformed
  | fuel + 1 => do
    if stops.contains (← look) then add .empty else node place fuel

def valueOf (place : Place) (stops : List Token) : Nat → Reading Nat
  | 0 => malformed
  | fuel + 1 => do
    if ← accept .value then nodeUnless place stops fuel else add .empty

def blockItems : Nat → Reading (List Nat)
  | 0 => malformed
  | fuel + 1 => do
    if ← accept .blockEntry then
      let n ← nodeUnless .block [.blockEntry, .blockEnd] fuel
      return n :: (← blockItems fuel)
    expectToken .blockEnd
    return []

/-- The items of a sequence that is not indented further than its key. -/
def looseItems : Nat → Reading (List Nat)
  | 0 => malformed
  | fuel + 1 => do
    if ← accept .blockEntry then
      let n ← nodeUnless .block [.blockEntry, .key, .value, .blockEnd] fuel
      return n :: (← looseItems fuel)
    return []

def blockEntries : Nat → Reading (List (Nat × Nat))
  | 0 => malformed
  | fuel + 1 => do
    if ← accept .key then
      let k ← nodeUnless .entry [.key, .value, .blockEnd] fuel
      let v ← valueOf .entry [.key, .value, .blockEnd] fuel
      return (k, v) :: (← blockEntries fuel)
    expectToken .blockEnd
    return []

def flowItems (first : Bool) : Nat → Reading (List Nat)
  | 0 => malformed
  | fuel + 1 => do
    if ← accept .flowSequenceEnd then return []
    if !first then expectToken .flowEntry
    if ← accept .key then
      let n ← addCollection ⟨none, none⟩ .mapping do
        let k ← nodeUnless .flow [.value, .flowEntry, .flowSequenceEnd] fuel
        let v ← valueOf .flow [.flowEntry, .flowSequenceEnd] fuel
        return .mapping [(k, v)]
      return n :: (← flowItems false fuel)
    if ← accept .flowSequenceEnd then return []
    let n ← node .flow fuel
    return n :: (← flowItems false fuel)

def flowEntries (first : Bool) : Nat → Reading (List (Nat × Nat))
  | 0 => malformed
  | fuel + 1 => do
    if ← accept .flowMappingEnd then return []
    if !first then expectToken .flowEntry
    if ← accept .key then
      let k ← nodeUnless .flow [.value, .flowEntry, .flowMappingEnd] fuel
      let v ← valueOf .flow [.flowEntry, .flowMappingEnd] fuel
      return (k, v) :: (← flowEntries false fuel)
    if ← accept .flowMappingEnd then return []
    let k ← node .flow fuel
    let v ← add .empty
    return (k, v) :: (← flowEntries false fuel)

end

/-! ## Documents -/

def usualHandles : List (String × String) := [("!", "!"), ("!!", standardLead)]

/-- Takes the directives in front of a document: at most one version, of which the major number is
one, and one meaning for each handle. -/
def directives (version : Bool) (handles : List (String × String)) : Nat → Reading Unit
  | 0 => malformed
  | fuel + 1 => do
    match ← look with
    | .directive d =>
      drop
      match d with
      | .version major => if version || major != 1 then malformed else directives true handles fuel
      | .tagHandle h lead =>
        if (handles.lookup h).isSome then malformed
          else directives version ((h, lead) :: handles) fuel
      | .other => directives version handles fuel
    | _ => modify fun r => { r with handles := handles ++ usualHandles }

def dropEnds : Nat → Reading Unit
  | 0 => malformed
  | fuel + 1 => do if ← accept .documentEnd then dropEnds fuel

def startsDocument : Token → Bool
  | .directive _ | .documentStart => true
  | _ => false

/-- The number of the root of the one document of a text, if it has any. The directives of a
document that must not be there are read all the same. -/
def document (fuel : Nat) : Reading (Option Nat) := do
  let t ← look
  if t == .streamEnd then return none
  let root ←
    if startsDocument t then do
      directives false [] fuel
      expectToken .documentStart
      let t ← look
      if startsDocument t || t == .documentEnd || t == .streamEnd then add .empty
        else node .block fuel
    else node .block fuel
  dropEnds fuel
  if (← look) == .streamEnd then return some root
  directives false [] fuel
  malformed

end Reading

def compose (text : List Char) : Except Trouble (Graph × Option Nat) := do
  let (ts, trouble) := tokens text
  let reader : Reader := ⟨ts, trouble.getD .malformed, Reading.usualHandles, [], #[], 0⟩
  let (root, r) ← (Reading.document (4 * ts.length + 8)).run reader
  return (r.graph, root)

end Scriptwright.Yaml
