import Scriptwright.Value.Display

/-!
# Values as data

The text of a value in the usual interchange format for data. Pairs are written as lists. Dates,
byte strings and sets have no such text; a loose style writes them as strings. Keys are written as
strings whatever their kind, as far as they have a text. A value that holds itself has none.
-/

namespace Scriptwright

namespace Value

def encodedSpecial : Double.Special := ⟨"Infinity", "-Infinity", "NaN"⟩

/-- What stands between items and between a key and its value, and whether values without a text as
data are written as the string of their display text. -/
structure DataStyle where
  item : String
  key : String
  loose : Bool

def DataStyle.wide : DataStyle := ⟨", ", ": ", false⟩

def DataStyle.tight : DataStyle := ⟨",", ":", false⟩

def DataStyle.loosely : DataStyle := ⟨", ", ": ", true⟩

def encodeAtom : Value → Except Fault String
  | .null => .ok "null"
  | .bool b => .ok (if b then "true" else "false")
  | .int n => (Value.int n).written (toString n)
  | .float x => .ok (x.text encodedSpecial)
  | _ => .error .notEncodable

def encodeKey : Value → Except Fault String
  | .string s => .ok (Text.encoded s)
  | k => (encodeAtom k).map Text.encoded

def encodeLeaf (style : DataStyle) : Value → Except Fault String
  | .string s => .ok (Text.encoded s)
  | v =>
    match encodeAtom v with
    | .error .notEncodable =>
      if style.loose then v.written (Text.encoded v.display) else .error .notEncodable
    | outcome => outcome

def encodedList (style : DataStyle) (items : List String) : String :=
  "[" ++ style.item.intercalate items ++ "]"

def encodedMap (style : DataStyle) (entries : List String) : String :=
  "\x7b" ++ style.item.intercalate entries ++ "\x7d"

end Value

/-- The text of the value at a place among cells. A walk of more steps than there are cells goes in
a circle. -/
def Cell.encode (style : Value.DataStyle) (cells : List Cell) : Nat → Nat → Except Fault String
  | 0, _ => .error .circular
  | fuel + 1, place =>
    match cells[place]? with
    | none => .ok "null"
    | some (.scalar s) => Value.encodeLeaf style s.value
    | some (.set ms) => Value.encodeLeaf style (.set ms)
    | some (.list items) => (items.mapM (Cell.encode style cells fuel)).map
        (Value.encodedList style)
    | some (.pair first second) =>
      ([first, second].mapM (Cell.encode style cells fuel)).map (Value.encodedList style)
    | some (.map entries) => do
      let texts ← entries.mapM fun e => do
        let key ← Value.encodeKey e.1.value
        return key ++ style.key ++ (← Cell.encode style cells fuel e.2)
      return Value.encodedMap style texts

namespace Value

mutual

def encode (style : DataStyle) : Value → Except Fault String
  | .list vs =>
    match encodeItems style vs with
    | .ok parts => .ok (encodedList style parts)
    | .error f => .error f
  | .map es =>
    match encodeEntries style es with
    | .ok parts => .ok (encodedMap style parts)
    | .error f => .error f
  | .pair first second =>
    match encode style first, encode style second with
    | .ok a, .ok b => .ok (encodedList style [a, b])
    | .error f, _ => .error f
    | _, .error f => .error f
  | .knot cells place _ => Cell.encode style cells (cells.length + 1) place
  | v => encodeLeaf style v

def encodeItems (style : DataStyle) : List Value → Except Fault (List String)
  | [] => .ok []
  | v :: vs =>
    match encode style v with
    | .error f => .error f
    | .ok text =>
      match encodeItems style vs with
      | .ok texts => .ok (text :: texts)
      | .error f => .error f

def encodeEntries (style : DataStyle) : List (Value × Value) → Except Fault (List String)
  | [] => .ok []
  | (k, v) :: es =>
    match encodeKey k with
    | .error f => .error f
    | .ok key =>
      match encode style v with
      | .error f => .error f
      | .ok text =>
        match encodeEntries style es with
        | .ok texts => .ok ((key ++ style.key ++ text) :: texts)
        | .error f => .error f

end

end Value

end Scriptwright
