import Scriptwright.Text.Blank
import Scriptwright.Value.Display
import Scriptwright.Value.Encode

/-!
# Literals

Free-form document values as source text. A text of the form `{{expression}}` stands for the
expression itself; all other texts are string literals. The closing mark may be followed by one line
break. A value that holds itself has no literal, nor has an integer with too many digits.
-/

namespace Scriptwright.Script

def inDoubleBraces? (cs : List Char) : Option (List Char) :=
  match cs with
  | '{' :: '{' :: rest =>
    match rest.reverse with
    | '}' :: '}' :: inside => if inside.isEmpty then none else some inside.reverse
    | _ => none
  | _ => none

def dynamicExpression? (s : String) : Option String :=
  (inDoubleBraces? (Text.dropLastBreak s.toList)).map String.ofList

def startsName (c : Char) : Bool := c.isAlpha || c == '_' || c == '$'

def continuesName (c : Char) : Bool := c.isAlphanum || c == '_' || c == '$'

def isPlainName : List Char → Bool
  | c :: cs => startsName c && cs.all continuesName
  | [] => false

/-- The text of a property key: the name itself where it may stand unquoted, also in front of a
final line break. -/
def keyText (s : String) : String :=
  if isPlainName (Text.dropLastBreak s.toList) then s else Text.encoded s

def textLiteral (s : String) : String := (dynamicExpression? s).getD (Text.encoded s)

/-- A value without parts as source text. Dates and byte strings are written as string literals of
their text. -/
def scalarLiteral : Scalar → String
  | .null => "null"
  | .bool b => if b then "true" else "false"
  | .int n => toString n
  | .float x => x.text Value.encodedSpecial
  | .string s => textLiteral s
  | .bytes b => Text.encoded (Text.shownOctets b)
  | .date d => Text.encoded d.text
  | .moment t => Text.encoded t.text

def listLiteral (items : List String) : String := "[" ++ ", ".intercalate items ++ "]"

def mapLiteral (entries : List String) : String :=
  if entries.isEmpty then "\x7b\x7d" else "\x7b " ++ ", ".intercalate entries ++ " \x7d"

/-- The value at a place among cells as source text. A walk of more steps than there are cells does
not end. -/
def cellLiteral (cells : List Cell) : Nat → Nat → Except Fault String
  | 0, _ => .error .endless
  | fuel + 1, place =>
    match cells[place]? with
    | none => .ok (scalarLiteral .null)
    | some (.scalar s) => s.value.written (scalarLiteral s)
    | some (.list items) => (items.mapM (cellLiteral cells fuel)).map listLiteral
    | some (.map entries) => do
      let texts ← entries.mapM fun e => do
        let key ← e.1.value.written (keyText e.1.value.display)
        return key ++ ": " ++ (← cellLiteral cells fuel e.2)
      return mapLiteral texts
    | some (.pair _ _) | some (.set _) => Cell.encode .loosely cells (cells.length + 1) place

mutual

/-- A value as source text. Pairs and sets are written as data. -/
def literal : Value → Except Fault String
  | .null => .ok (scalarLiteral .null)
  | .bool b => .ok (scalarLiteral (.bool b))
  | .int n => (Value.int n).written (scalarLiteral (.int n))
  | .float x => .ok (scalarLiteral (.float x))
  | .string s => .ok (scalarLiteral (.string s))
  | .bytes b => .ok (scalarLiteral (.bytes b))
  | .date d => .ok (scalarLiteral (.date d))
  | .moment t => .ok (scalarLiteral (.moment t))
  | .list vs => (literalItems vs).map listLiteral
  | .map es => (literalEntries es).map mapLiteral
  | .pair first second => (Value.pair first second).encode .loosely
  | .set ms => (Value.set ms).encode .loosely
  | .knot cells place _ => cellLiteral cells (cells.length + 1) place

def literalItems : List Value → Except Fault (List String)
  | [] => .ok []
  | v :: vs =>
    match literal v with
    | .error f => .error f
    | .ok text => (literalItems vs).map (text :: ·)

def literalEntries : List (Value × Value) → Except Fault (List String)
  | [] => .ok []
  | (k, v) :: es =>
    match k.written (keyText k.display) with
    | .error f => .error f
    | .ok key =>
      match literal v with
      | .error f => .error f
      | .ok text => (literalEntries es).map ((key ++ ": " ++ text) :: ·)

end

/-! ## Attributes -/

def attributeName (name : String) : String :=
  if name == "class" then "className" else if name == "for" then "htmlFor" else name

def attributeValue : Value → Except Fault String
  | .string s =>
    match dynamicExpression? s with
    | some e => .ok ("=\x7b" ++ e ++ "\x7d")
    | none => .ok ("=\"" ++ s ++ "\"")
  | v => (v.encode .tight).map fun text => "=\x7b" ++ text ++ "\x7d"

def attributeText (name : String) (value : Value) : Except Fault String :=
  (attributeValue value).map (attributeName name ++ ·)

end Scriptwright.Script
