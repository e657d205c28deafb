import Scriptwright.Text.Quoted
import Scriptwright.Value

/-!
# Display texts

`display` is the text a value has inside a sentence: a text stands for itself. `inner` is the text
it has inside a list or mapping, where texts are quoted. Where a value holds itself, dots stand for
it. Integers are spelled out only up to a number of digits: `writable` says whether all integers of
a value are.
-/

namespace Scriptwright

def Value.shownSpecial : Double.Special := ⟨"inf", "-inf", "nan"⟩

namespace Scalar

def inner : Scalar → String
  | .null => "None"
  | .bool b => if b then "True" else "False"
  | .int n => toString n
  | .float x => x.text Value.shownSpecial
  | .string s => Text.shown s
  | .bytes b => Text.shownOctets b
  | .date d => d.inner
  | .moment t => t.inner

/-- Whether a scalar is spelled out: an integer with too many digits is not. -/
def writable : Scalar → Bool
  | .int n => (Decimal.digitsOf n.natAbs).length ≤ mostDigits
  | _ => true

end Scalar

namespace Value

/-! ## Collections -/

def listText (items : List String) : String := "[" ++ ", ".intercalate items ++ "]"

def mapText (entries : List String) : String := "\x7b" ++ ", ".intercalate entries ++ "\x7d"

def pairText (first second : String) : String := "(" ++ first ++ ", " ++ second ++ ")"

/-- The text of a set. Braces alone would be an empty mapping. -/
def setText (members : List Scalar) : String :=
  if members.isEmpty then "set()" else mapText (members.map Scalar.inner)

end Value

/-- The text of the value at a place among cells; `path` holds the places around it. -/
def Cell.inner (cells : List Cell) : Nat → List Nat → Nat → String
  | 0, _, _ => ""
  | fuel + 1, path, place =>
    let part (i : Nat) : String := Cell.inner cells fuel (place :: path) i
    let around := path.contains place
    match cells[place]? with
    | none => Scalar.null.inner
    | some (.scalar s) => s.inner
    | some (.set ms) => Value.setText ms
    | some (.list items) => Value.listText (if around then ["..."] else items.map part)
    | some (.map entries) =>
      Value.mapText (if around then ["..."] else entries.map fun e => e.1.inner ++ ": " ++ part e.2)
    | some (.pair first second) => if around then "(...)"
        else Value.pairText (part first) (part second)

def Cell.writable (cells : List Cell) : Nat → List Nat → Nat → Bool
  | 0, _, _ => true
  | fuel + 1, path, place =>
    let part (i : Nat) : Bool := Cell.writable cells fuel (place :: path) i
    let around := path.contains place
    match cells[place]? with
    | none => true
    | some (.scalar s) => s.writable
    | some (.set ms) => ms.all Scalar.writable
    | some (.list items) => around || items.all part
    | some (.map entries) => around || entries.all fun e => e.1.writable && part e.2
    | some (.pair first second) => around || (part first && part second)

namespace Value

mutual

def inner : Value → String
  | .null => Scalar.null.inner
  | .bool b => (Scalar.bool b).inner
  | .int n => (Scalar.int n).inner
  | .float x => (Scalar.float x).inner
  | .string s => (Scalar.string s).inner
  | .bytes b => (Scalar.bytes b).inner
  | .date d => (Scalar.date d).inner
  | .moment t => (Scalar.moment t).inner
  | .list vs => listText (innerItems vs)
  | .map es => mapText (innerEntries es)
  | .pair first second => pairText first.inner second.inner
  | .set ms => setText ms
  | .knot cells place _ => Cell.inner cells (cells.length + 1) [] place

def innerItems : List Value → List String
  | [] => []
  | v :: vs => v.inner :: innerItems vs

def innerEntries : List (Value × Value) → List String
  | [] => []
  | (k, v) :: es => (k.inner ++ ": " ++ v.inner) :: innerEntries es

end

def display : Value → String
  | .string s => s
  | .date d => d.text
  | .moment t => t.text
  | v => v.inner

mutual

def writable : Value → Bool
  | .int n => (Scalar.int n).writable
  | .list vs => writableItems vs
  | .map es => writableEntries es
  | .pair first second => first.writable && second.writable
  | .set ms => ms.all Scalar.writable
  | .knot cells place _ => Cell.writable cells (cells.length + 1) [] place
  | _ => true

def writableItems : List Value → Bool
  | [] => true
  | v :: vs => v.writable && writableItems vs

def writableEntries : List (Value × Value) → Bool
  | [] => true
  | (k, v) :: es => k.writable && v.writable && writableEntries es

end

/-- What is made of the text of a value, if the value has one. -/
def written {α : Type} (v : Value) (result : α) : Except Fault α :=
  if v.writable then .ok result else .error .badValue

theorem written_of_writable {α : Type} {v : Value} (h : v.writable = true) (result : α) :
    v.written result = .ok result :=
  if_pos h

theorem written_eq_ok_iff {α : Type} {v : Value} {result a : α} :
    v.written result = .ok a ↔ v.writable = true ∧ result = a := by
  unfold written
  split <;> simp_all

end Value

end Scriptwright
